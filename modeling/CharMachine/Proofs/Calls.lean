import CharMachine.Proofs.Result

/-!
# The calls of a parse

What a parse that has ended did, without a bound: the calls of its loop, one after another, each
with the parses that its handler started, and the point at which the loop made no further call
that returned. The parses started inside a call are themselves parses that have ended, so that
whatever is proved of all ended parses holds of them too.

Main statements: every loop that ends is such a sequence of calls with one of three stops, and a
loop has one such sequence only.
-/

namespace CharMachine

variable {σ α : Type}

/-- A parse that has ended: what it was given and found, and how it ended. -/
structure EndedParse (parser : Parser σ) where
  text : String
  before : Run σ (List Event)
  result : Except Fault String
  after : Run σ (List Event)
  ends : parser.Ends .full text before (.ofResult result after)

/-- A program runs to a result, having started these parses in this order. -/
inductive Program.Runs (parser : Parser σ) : Program σ α → Run σ (List Event) →
    List (EndedParse parser) → Except Fault α → Run σ (List Event) → Prop where
  | done (value : α) (run : Run σ (List Event)) : Runs parser (.done value) run [] (.ok value) run
  | act {op : Op} {next : Program σ α} {run after : Run σ (List Event)}
      {inner : List (EndedParse parser)} {result : Except Fault α} :
      Runs parser next (run.act .full op) inner result after →
      Runs parser (.act op next) run inner result after
  | look {next : Machine → σ → Program σ α} {run after : Run σ (List Event)}
      {inner : List (EndedParse parser)} {result : Except Fault α} :
      Runs parser (next run.machine run.memory) run inner result after →
      Runs parser (.look next) run inner result after
  | remember {memory : σ} {next : Program σ α} {run after : Run σ (List Event)}
      {inner : List (EndedParse parser)} {result : Except Fault α} :
      Runs parser next { run with memory := memory } inner result after →
      Runs parser (.remember memory next) run inner result after
  | nested {text : String} {next : Except Fault String → Program σ α}
      {run between after : Run σ (List Event)} {inner : List (EndedParse parser)}
      {answer : Except Fault String} {result : Except Fault α}
      (ends : parser.Ends .full text run (.ofResult answer between)) :
      Runs parser (next answer) between inner result after →
      Runs parser (.nested text next) run (⟨text, run, answer, between, ends⟩ :: inner) result after
  | raise (fault : Fault) (run : Run σ (List Event)) :
      Runs parser (.raise fault) run [] (.error fault) run

namespace Program

variable {parser : Parser σ} {run after after' : Run σ (List Event)}
  {inner inner' : List (EndedParse parser)} {result result' : Except Fault α}

/-- A bounded run that ends is one without a bound. -/
theorem exists_runs {steps : Nat} (program : Program σ α)
    (h : program.run .full (parser.parse .full steps) run = .ofResult result after) :
    ∃ inner, program.Runs parser run inner result after := by
  induction program generalizing run with
  | done value =>
      obtain ⟨rfl, rfl⟩ := Outcome.of_returned h
      exact ⟨[], .done value run⟩
  | act op next ih =>
      obtain ⟨inner, hruns⟩ := ih h
      exact ⟨inner, .act hruns⟩
  | look next ih =>
      obtain ⟨inner, hruns⟩ := ih run.machine run.memory h
      exact ⟨inner, .look hruns⟩
  | remember memory next ih =>
      obtain ⟨inner, hruns⟩ := ih h
      exact ⟨inner, .remember hruns⟩
  | nested text next ih =>
      obtain ⟨answer, between, hanswer, hrest⟩ := Program.run_nested_eq_ofResult h
      have hends : parser.Ends .full text run (.ofResult answer between) :=
        ⟨Outcome.ofResult_ne_exhausted answer between, steps, hanswer⟩
      obtain ⟨inner, hruns⟩ := ih answer hrest
      exact ⟨_, .nested hends hruns⟩
  | raise fault =>
      obtain ⟨rfl, rfl⟩ := Outcome.of_raised h
      exact ⟨[], .raise fault run⟩

theorem Runs.unique {program : Program σ α} (h : program.Runs parser run inner result after)
    (h' : program.Runs parser run inner' result' after') :
    inner = inner' ∧ result = result' ∧ after = after' := by
  induction h generalizing inner' with
  | done value run =>
      cases h'
      exact ⟨rfl, rfl, rfl⟩
  | act _ ih =>
      cases h' with
      | act hnext => exact ih hnext
  | look _ ih =>
      cases h' with
      | look hnext => exact ih hnext
  | remember _ ih =>
      cases h' with
      | remember hnext => exact ih hnext
  | nested ends _ ih =>
      cases h' with
      | nested ends' hnext =>
          obtain ⟨rfl, rfl⟩ := Outcome.ofResult_injective (ends.unique ends')
          obtain ⟨rfl, rfl, rfl⟩ := ih hnext
          exact ⟨rfl, rfl, rfl⟩
  | raise fault run =>
      cases h'
      exact ⟨rfl, rfl, rfl⟩

end Program

/-- How a parse can end. -/
inductive Ending where
  /-- The text was over the limit. -/
  | rejected
  /-- The loop came to the length of the text. -/
  | finished
  /-- The loop met a state without a handler. -/
  | unhandled
  /-- A handler of the loop raised. -/
  | faulted
  deriving DecidableEq, Repr

namespace Parser

/-- The calls of a loop between two of its runs, all of which return, and the parses started in
them. -/
inductive Calls (parser : Parser σ) (length : Nat) : Run σ (List Event) →
    List (EndedParse parser) → Run σ (List Event) → Prop where
  | nil (run : Run σ (List Event)) : Calls parser length run [] run
  | cons {run next last : Run σ (List Event)} {handler : Program σ Unit}
      {inner more : List (EndedParse parser)} :
      run.machine.pointer < length →
      parser.table.find? run.machine.state = some handler →
      handler.Runs parser (run.note .full (.called run.machine)) inner (.ok ()) next →
      Calls parser length next more last →
      Calls parser length run (inner ++ more) last

/-- What happens at the run in which a loop makes no further call that returns. -/
inductive Stops (parser : Parser σ) (length : Nat) (last : Run σ (List Event)) : Ending →
    List (EndedParse parser) → Except Fault Unit → Run σ (List Event) → Prop where
  | finished : length ≤ last.machine.pointer → Stops parser length last .finished [] (.ok ()) last
  | unhandled :
      last.machine.pointer < length →
      parser.table.find? last.machine.state = none →
      Stops parser length last .unhandled [] (.error (.parse (.unknownState last.machine.state)))
        (last.log .full (.unhandled last.machine.state last.machine.pointer))
  | faulted {handler : Program σ Unit} {inner : List (EndedParse parser)} {fault : Fault}
      {after : Run σ (List Event)} :
      last.machine.pointer < length →
      parser.table.find? last.machine.state = some handler →
      handler.Runs parser (last.note .full (.called last.machine)) inner (.error fault) after →
      Stops parser length last .faulted inner (.error fault) after

variable {parser : Parser σ} {length : Nat}

/-- A loop that ends makes some calls and stops. -/
theorem exists_calls {steps : Nat} {run after : Run σ (List Event)} {result : Except Fault Unit}
    (h : parser.loop .full steps length run = .ofResult result after) :
    ∃ inner last, parser.Calls length run inner last ∧
      ∃ ending more, parser.Stops length last ending more result after := by
  induction steps generalizing run with
  | zero =>
      cases loopStarts_of_loop h with
      | finished hp => exact ⟨[], _, .nil _, _, _, .finished hp⟩
  | succ steps ih =>
      cases loopStarts_of_loop h with
      | finished hp => exact ⟨[], _, .nil _, _, _, .finished hp⟩
      | unhandled hp hh => exact ⟨[], run, .nil run, _, _, .unhandled hp hh⟩
      | faulted hp hh hcall =>
          obtain ⟨inner, hruns⟩ := Program.exists_runs _ hcall
          exact ⟨[], run, .nil run, _, inner, .faulted hp hh hruns⟩
      | called hp hh hcall hrest =>
          obtain ⟨inner, hruns⟩ := Program.exists_runs _ hcall
          obtain ⟨more, last, hcalls, hstops⟩ := ih hrest
          exact ⟨inner ++ more, last, .cons hp hh hruns hcalls, hstops⟩

section Unique

variable {run last last' after after' next : Run σ (List Event)} {ending ending' : Ending}
  {inner inner' more more' : List (EndedParse parser)} {result result' : Except Fault Unit}

/-- Where a loop stops, no call returns. -/
theorem Stops.not_returns {handler : Program σ Unit}
    (h : parser.Stops length last ending more result after)
    (hp : last.machine.pointer < length)
    (hh : parser.table.find? last.machine.state = some handler) :
    ¬ handler.Runs parser (last.note .full (.called last.machine)) inner (.ok ()) next := by
  intro hruns
  cases h with
  | finished hpast => omega
  | unhandled _ hnone => cases hh.symm.trans hnone
  | faulted _ hsome hraises =>
      cases hh.symm.trans hsome
      cases (hruns.unique hraises).2.1

theorem Stops.ending_unique (h : parser.Stops length last ending more result after)
    (h' : parser.Stops length last ending' more' result' after') : ending = ending' := by
  cases h with
  | finished hpast =>
      cases h' with
      | finished _ => rfl
      | unhandled hp _ => omega
      | faulted hp _ _ => omega
  | unhandled hp hnone =>
      cases h' with
      | finished hpast => omega
      | unhandled _ _ => rfl
      | faulted _ hsome _ => cases hnone.symm.trans hsome
  | faulted hp hsome _ =>
      cases h' with
      | finished hpast => omega
      | unhandled _ hnone => cases hnone.symm.trans hsome
      | faulted _ _ _ => rfl

/-- A loop stops in one place only. -/
theorem Calls.last_unique (h : parser.Calls length run inner last)
    (hstops : parser.Stops length last ending more result after)
    (h' : parser.Calls length run inner' last')
    (hstops' : parser.Stops length last' ending' more' result' after') : last = last' := by
  induction h generalizing inner' with
  | nil run =>
      cases h' with
      | nil _ => rfl
      | cons hp hh hruns _ => exact absurd hruns (hstops.not_returns hp hh)
  | cons hp hh hruns _ ih =>
      cases h' with
      | nil _ => exact absurd hruns (hstops'.not_returns hp hh)
      | cons _ hh' hruns' hcalls' =>
          cases hh.symm.trans hh'
          obtain ⟨-, -, rfl⟩ := hruns.unique hruns'
          exact ih hstops hcalls'

end Unique

end Parser

end CharMachine
