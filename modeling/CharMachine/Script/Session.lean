import CharMachine.Script.Meaning

/-!
# Scripted sessions

A session is a parser with scripted handlers and the machine as the last instruction left it.
Instructions are carried out one at a time from outside any handler; each gets the full step
budget, an empty log and no notes, and later ones run whether or not earlier ones failed.
-/

namespace CharMachine.Script

/-- A scripted parser between two instructions. -/
structure Session where
  parser : Parser Memory
  around : Surroundings
  budget : Nat
  machine : Machine := .initial

/-- What came of one instruction. -/
structure Reply where
  fault? : Option Fault
  notes : List Note
  log : List Record
  machine : Machine
  deriving DecidableEq, Repr

namespace Session

/-- The states of a table that is given as a list, each at its first place. -/
def statesOf (scripts : List (Int × List Instr)) : List Int :=
  let table : Table Memory := .ofList (scripts.map fun entry => (entry.1, pure ()))
  table.states

def ofScripts (scripts : List (Int × List Instr)) (limits : Limits) (budget : Nat) : Session :=
  let around : Surroundings := ⟨statesOf scripts, limits.maxInputLength⟩
  { parser :=
      { table := .ofList (scripts.map fun entry => (entry.1, handler around entry.2))
        limits := limits }
    around := around
    budget := budget }

/-- Carries out one instruction. Each call of a handler spends a step, so one call more than the
budget is never reached. -/
def perform (session : Session) (instr : Instr) : Reply × Session :=
  let start : Run Memory (List Record) := ⟨session.machine, { budget := session.budget }, []⟩
  let inner := session.parser.parse Observer.log (session.budget + 1)
  let reply : Reply :=
    match (instr.program session.around).run Observer.log inner start with
    | .returned () run => ⟨none, run.memory.notes.reverse, run.journal.reverse, run.machine⟩
    | .raised fault run => ⟨some fault, run.memory.notes.reverse, run.journal.reverse, run.machine⟩
    | .exhausted => ⟨some .stepLimit, [], [], session.machine⟩
  (reply, { session with machine := reply.machine })

/-- Carries out a list of instructions. -/
def performAll (session : Session) : List Instr → List Reply
  | [] => []
  | instr :: rest =>
      let (reply, session) := session.perform instr
      reply :: session.performAll rest

end Session

end CharMachine.Script
