import CharMachine.Machine

/-!
# Events and observers

A run reports what happens in it as a sequence of events: log records, handler calls, actions and
the openings of texts. An observer decides what is kept of them. `Observer.log` keeps the log
records and is what a caller is shown; `Observer.full` keeps everything and is what statements
about the course of a run are made of.
-/

namespace CharMachine

/-- A line of a parser's log. -/
inductive Record where
  | rejected (length limit : Nat)
  | started (length handlers : Nat)
  | unhandled (state : Int) (position : Nat)
  | finished (state : Int) (outputLength : Nat)
  deriving DecidableEq, Repr

def Record.message : Record → String
  | rejected length limit =>
      "Rejecting input of " ++ toString length ++ " characters (limit " ++ toString limit ++ ")"
  | started length handlers =>
      "Parsing " ++ toString length ++ " characters with " ++ toString handlers ++ " handlers"
  | unhandled state position =>
      "No handler for state " ++ toString state ++ " at position " ++ toString position
  | finished state outputLength =>
      "Parse finished in state " ++ toString state ++ ", " ++ toString outputLength
        ++ " output characters"

/-- Something that happens in a run, with the machine as it then stands. -/
inductive Event where
  | logged (record : Record)
  /-- A handler is called on this machine. -/
  | called (machine : Machine)
  /-- A handler has acted and left this machine. -/
  | acted (op : Op) (machine : Machine)
  /-- A parse has put the machine at the start of a text. -/
  | opened (machine : Machine)
  deriving DecidableEq, Repr

namespace Event

def record? : Event → Option Record
  | logged record => some record
  | _ => none

end Event

/-- A way of keeping account of events. -/
structure Observer (ρ : Type) where
  note : Event → ρ → ρ

namespace Observer

/-- Keeps the log records, most recent first. -/
def log : Observer (List Record) where
  note
    | .logged record, records => record :: records
    | _, records => records

/-- Keeps every event, most recent first. -/
def full : Observer (List Event) where
  note event events := event :: events

end Observer

end CharMachine
