import CharMachine.Event
import CharMachine.Limits
import CharMachine.Table

/-!
# Parsing with a table

A parser calls the handler of the current state until the pointer has reached the length that the
text had when the parse began. Handlers may start nested parses on the same machine: such a parse
starts the machine again, and the outer one goes on with whatever it leaves there.

Nothing obliges a handler to make progress, so runs carry a bound on the number of calls that
follow one another, nested ones included. Running out of the bound is the outcome `exhausted`; it
is neither a result nor a fault, and says nothing about the unbounded run.
-/

namespace CharMachine

/-- Where a run stands: the machine, the handlers' memory and what an observer has kept. -/
structure Run (σ ρ : Type) where
  machine : Machine
  memory : σ
  journal : ρ

/-- How a bounded run ends. -/
inductive Outcome (σ ρ α : Type) where
  | returned (value : α) (run : Run σ ρ)
  | raised (fault : Fault) (run : Run σ ρ)
  | exhausted

namespace Run

variable {σ ρ : Type}

/-- A machine that has not parsed anything. -/
def fresh (memory : σ) (journal : ρ) : Run σ ρ := ⟨.initial, memory, journal⟩

def note (run : Run σ ρ) (observer : Observer ρ) (event : Event) : Run σ ρ :=
  { run with journal := observer.note event run.journal }

def log (run : Run σ ρ) (observer : Observer ρ) (record : Record) : Run σ ρ :=
  run.note observer (.logged record)

def act (run : Run σ ρ) (observer : Observer ρ) (op : Op) : Run σ ρ :=
  let machine := run.machine.act op
  { run with machine := machine, journal := observer.note (.acted op machine) run.journal }

/-- Puts the machine at the start of a text, whatever it held. -/
def openText (run : Run σ ρ) (observer : Observer ρ) (text : Text) : Run σ ρ :=
  let machine := Machine.load text
  { run with machine := machine, journal := observer.note (.opened machine) run.journal }

end Run

namespace Program

variable {σ ρ α : Type}

/-- Runs a program, with `inner` in charge of its nested parses. -/
def run (observer : Observer ρ) (inner : String → Run σ ρ → Outcome σ ρ String) :
    Program σ α → Run σ ρ → Outcome σ ρ α
  | done value, r => .returned value r
  | act op next, r => next.run observer inner (r.act observer op)
  | look next, r => (next r.machine r.memory).run observer inner r
  | remember memory next, r => next.run observer inner { r with memory := memory }
  | nested text next, r =>
      match inner text r with
      | .returned output r' => (next (.ok output)).run observer inner r'
      | .raised fault r' => (next (.error fault)).run observer inner r'
      | .exhausted => .exhausted
  | raise fault, r => .raised fault r

end Program

/-- A table of handlers and the limits on its texts. -/
structure Parser (σ : Type) where
  table : Table σ
  limits : Limits := .standard

namespace Parser

variable {σ ρ : Type}

/-- A parse whose calls are made by `loop`. A text beyond the limit is refused before anything is
called, and leaves an empty machine. -/
def parseWith (parser : Parser σ) (observer : Observer ρ)
    (loop : Nat → Run σ ρ → Outcome σ ρ Unit) (text : String) (run : Run σ ρ) :
    Outcome σ ρ String :=
  let emptied := run.openText observer .empty
  match parser.limits.exceeded? text.length with
  | some limit =>
      .raised (.parse (.inputTooLarge text.length limit))
        (emptied.log observer (.rejected text.length limit))
  | none =>
      let opened := emptied.openText observer (.ofString text)
      match loop text.length
          (opened.log observer (.started text.length parser.table.size)) with
      | .returned () ended =>
          .returned ended.machine.output
            (ended.log observer (.finished ended.machine.state ended.machine.emitted.length))
      | .raised fault ended => .raised fault ended
      | .exhausted => .exhausted

/-- Calls handlers while the pointer is before `length`, at most `steps` of them in a row. -/
def loop (parser : Parser σ) (observer : Observer ρ) :
    (steps : Nat) → (length : Nat) → Run σ ρ → Outcome σ ρ Unit
  | 0, length, run => if run.machine.pointer < length then .exhausted else .returned () run
  | steps + 1, length, run =>
      if run.machine.pointer < length then
        match parser.table.find? run.machine.state with
        | none =>
            .raised (.parse (.unknownState run.machine.state))
              (run.log observer (.unhandled run.machine.state run.machine.pointer))
        | some handler =>
            match handler.run observer (parser.parseWith observer (parser.loop observer steps))
                (run.note observer (.called run.machine)) with
            | .returned () next => parser.loop observer steps length next
            | .raised fault next => .raised fault next
            | .exhausted => .exhausted
      else .returned () run

/-- Parses a text from any run. -/
def parse (parser : Parser σ) (observer : Observer ρ) (steps : Nat) :
    String → Run σ ρ → Outcome σ ρ String :=
  parser.parseWith observer (parser.loop observer steps)

end Parser

end CharMachine
