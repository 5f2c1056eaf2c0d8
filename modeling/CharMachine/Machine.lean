import CharMachine.Text

/-!
# The machine

A machine holds a text, a pointer into it, a state number and the characters emitted so far. It
has no table: what to do in a state is decided elsewhere. The pointer may run past the end, where
there is no current character; emitted characters are kept most recent first.
-/

namespace CharMachine

/-- What a handler can see of the text around the pointer. -/
structure Window where
  previous? : Option Char
  current? : Option Char
  next? : Option Char
  isFirst : Bool
  isLast : Bool
  deriving DecidableEq, Repr

/-- A text under examination and what has been made of it so far. -/
structure Machine where
  input : Text
  pointer : Nat
  state : Int
  emitted : List Char
  deriving DecidableEq, Repr

/-- The elementary actions of a handler. -/
inductive Op where
  /-- Move the pointer on by one, past the end if need be. -/
  | advance
  /-- Move the pointer to the end of the text held. -/
  | stop
  /-- Emit the current character; nothing happens where there is none. -/
  | append
  /-- Forget everything emitted. -/
  | clear
  | setState (state : Int)
  deriving DecidableEq, Repr

namespace Machine

/-- The state in which every parse begins. -/
def initialState : Int := 0

/-- The machine at the start of a text. -/
def load (text : Text) : Machine where
  input := text
  pointer := 0
  state := initialState
  emitted := []

/-- The machine that holds no text. -/
def initial : Machine := load .empty

instance : Inhabited Machine := ⟨initial⟩

def current? (machine : Machine) : Option Char := machine.input.at? machine.pointer

def previous? (machine : Machine) : Option Char := machine.input.at? (machine.pointer - 1)

def next? (machine : Machine) : Option Char := machine.input.at? (machine.pointer + 1)

/-- At position 0 of a text that is not empty. -/
def isFirst (machine : Machine) : Bool := machine.pointer = 0 && machine.current?.isSome

/-- No character follows the pointer. -/
def isLast (machine : Machine) : Bool := machine.next?.isNone

def window (machine : Machine) : Window where
  previous? := machine.previous?
  current? := machine.current?
  next? := machine.next?
  isFirst := machine.isFirst
  isLast := machine.isLast

/-- The emitted characters in the order in which they were emitted. -/
def written (machine : Machine) : List Char := machine.emitted.reverse

def output (machine : Machine) : String := String.ofList machine.written

def spanAt (machine : Machine) (position : Int) : Span := machine.input.spanAt position

/-- The effect of an action. -/
def act (machine : Machine) : Op → Machine
  | .advance => { machine with pointer := machine.pointer + 1 }
  | .stop => { machine with pointer := machine.input.length }
  | .append =>
      match machine.current? with
      | some c => { machine with emitted := c :: machine.emitted }
      | none => machine
  | .clear => { machine with emitted := [] }
  | .setState state => { machine with state := state }

section Reads

variable (machine : Machine)

theorem current?_eq_get? : machine.current? = machine.input.get? machine.pointer :=
  machine.input.at?_natCast machine.pointer

theorem next?_eq_get? : machine.next? = machine.input.get? (machine.pointer + 1) :=
  machine.input.at?_natCast (machine.pointer + 1)

/-- Nothing stands before the first position. -/
theorem previous?_of_pointer_zero (hp : machine.pointer = 0) : machine.previous? = none := by
  rw [previous?, hp]
  exact machine.input.at?_of_neg (by decide)

theorem previous?_of_pointer_succ {index : Nat} (hp : machine.pointer = index + 1) :
    machine.previous? = machine.input.get? index := by
  have hindex : (machine.pointer : Int) - 1 = index := by omega
  rw [previous?, hindex, Text.at?_natCast]

end Reads

@[simp] theorem input_act (machine : Machine) (op : Op) : (machine.act op).input = machine.input := by
  cases op <;> simp only [act]
  split <;> rfl

@[simp] theorem toList_output (machine : Machine) : machine.output.toList = machine.written := by
  simp [output]

end Machine

end CharMachine
