import CharMachine.Event

/-!
# Reading a journal

The records that were logged in a stretch of events, the machines on which handlers were called in
it, and the observer that keeps of a run only these machines.
-/

namespace CharMachine

/-- Keeps the machine of each call of a handler, most recent first. -/
def Observer.calls : Observer (List Machine) where
  note
    | .called machine, machines => machine :: machines
    | _, machines => machines

namespace Event

/-- The records among some events, the earliest first. Journals have the most recent first. -/
def records (events : List Event) : List Record := events.reverse.filterMap record?

@[simp] theorem records_append (later earlier : List Event) :
    records (later ++ earlier) = records earlier ++ records later := by
  rw [records, List.reverse_append, List.filterMap_append, records, records]

/-- The machine on which a handler is called, if the event is a call. -/
def called? : Event → Option Machine
  | called machine => some machine
  | _ => none

/-- The machines on which handlers were called, the earliest first. -/
def calls (events : List Event) : List Machine := events.reverse.filterMap called?

@[simp] theorem calls_append (later earlier : List Event) :
    calls (later ++ earlier) = calls earlier ++ calls later := by
  rw [calls, List.reverse_append, List.filterMap_append, calls, calls]

theorem calls_cons (event : Event) (events : List Event) :
    calls (event :: events) = calls events ++ event.called?.toList := by
  rw [calls, List.reverse_cons, List.filterMap_append, calls]
  cases event <;> rfl

end Event

end CharMachine
