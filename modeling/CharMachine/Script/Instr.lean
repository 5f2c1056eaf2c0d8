import CharMachine.Quoted.Basic

/-!
# Scripted handlers

A small language for handlers that are given as data. A script is a list of instructions; tests
read the machine, and blocks nest. Everything an instruction can do goes through the handler
programs, so a script has no power that a handler lacks.
-/

namespace CharMachine.Script

/-- A test on the machine. A character test with no set asks for the character to be missing. -/
inductive Test where
  | current (among : Option String)
  | previous (among : Option String)
  | next (among : Option String)
  | first
  | last
  | state (wanted : Int)
  | pointerBelow (bound : Int)
  | negated (test : Test)
  | all (tests : List Test)

/-- Whether a character is one of a set, or missing where there is no set. -/
def isAmong (c : Option Char) : Option String → Bool
  | none => c.isNone
  | some set =>
      match c with
      | some c => set.toList.contains c
      | none => false

mutual

def Test.holds (machine : Machine) : Test → Bool
  | .current among => isAmong machine.current? among
  | .previous among => isAmong machine.previous? among
  | .next among => isAmong machine.next? among
  | .first => machine.isFirst
  | .last => machine.isLast
  | .state wanted => machine.state = wanted
  | .pointerBelow bound => (machine.pointer : Int) < bound
  | .negated test => !test.holds machine
  | .all tests => Test.allHold machine tests

def Test.allHold (machine : Machine) : List Test → Bool
  | [] => true
  | test :: rest => test.holds machine && Test.allHold machine rest

end

/-- What a script may raise. -/
inductive Complaint where
  | handler (error : HandlerError)
  | general (message : String)
  /-- A quoted-string error at the pointer. -/
  | quoted (message : String)
  deriving DecidableEq, Repr

def Complaint.fault (complaint : Complaint) (machine : Machine) : Fault :=
  match complaint with
  | handler error => .handler error
  | general message => .parse ⟨.general, .plain message⟩
  | quoted message => .parse ⟨.quoted (some machine.pointer), .plain message⟩

/-- The instructions of a script. -/
inductive Instr where
  | act (op : Op)
  /-- Add to the state. -/
  | addState (delta : Int)
  | see
  | view
  | spanAt (position : Int)
  /-- The span at an offset from the pointer. -/
  | spanNear (offset : Int)
  | note (text : String)
  | handlers
  | limit
  /-- Does nothing: a table is a value, and no change elsewhere reaches it. -/
  | skip
  | branch (test : Test) (yes no : List Instr)
  | repeatWhile (test : Test) (body : List Instr)
  | parse (text : String)
  | attempt (body : List Instr)
  /-- Act as the quoted-string handler of the state with this name does. -/
  | quoted (name : String)
  | complain (complaint : Complaint)

/-- What a script has put on record. -/
inductive Note where
  | seen (state : Int) (pointer : Nat) (window : Window)
  | viewed (input output : String)
  | span (span : Span)
  | text (text : String)
  | handlers (states : List Int)
  | limit (maxInputLength : Option Nat)
  | parsed (output : String)
  | caught (fault : Fault)
  deriving DecidableEq, Repr

end CharMachine.Script
