import CharMachine.Proofs.Loop

/-!
# Observers only watch

A journal is written during a run and never read. A map between the journals of two observers
that commutes with noting an event therefore commutes with whole runs, whether they return, raise
or exhaust their bound. Two maps are used: forgetting the journal, which leaves nothing of the
observer, and keeping an earlier journal behind the events of a later run.
-/

namespace CharMachine

variable {σ ρ ρ' α β : Type}

/-- The same run with its journal read differently. -/
def Run.mapJournal (f : ρ → ρ') (run : Run σ ρ) : Run σ ρ' :=
  ⟨run.machine, run.memory, f run.journal⟩

namespace Outcome

def mapJournal (f : ρ → ρ') : Outcome σ ρ α → Outcome σ ρ' α
  | returned value run => .returned value (run.mapJournal f)
  | raised fault run => .raised fault (run.mapJournal f)
  | exhausted => .exhausted

/-- What is left of an outcome when nothing was watched. -/
def forget (outcome : Outcome σ ρ α) : Outcome σ Unit α := outcome.mapJournal fun _ => ()

/-- The outcome with earlier events kept behind its own, which are the more recent ones. -/
def onto (earlier : List Event) (outcome : Outcome σ (List Event) α) :
    Outcome σ (List Event) α :=
  outcome.mapJournal (· ++ earlier)

theorem mapJournal_eq_exhausted_iff {f : ρ → ρ'} {outcome : Outcome σ ρ α} :
    outcome.mapJournal f = .exhausted ↔ outcome = .exhausted := by
  cases outcome <;> simp [mapJournal]

theorem forget_eq_returned_iff {outcome : Outcome σ ρ α} {value : α} {machine : Machine}
    {memory : σ} :
    outcome.forget = .returned value ⟨machine, memory, ()⟩ ↔
      ∃ journal, outcome = .returned value ⟨machine, memory, journal⟩ := by
  constructor
  · intro h
    cases outcome with
    | returned value' run =>
        cases h
        exact ⟨run.journal, rfl⟩
    | raised fault run => cases h
    | exhausted => cases h
  · intro h
    obtain ⟨journal, rfl⟩ := h
    rfl

theorem forget_eq_raised_iff {outcome : Outcome σ ρ α} {fault : Fault} {machine : Machine}
    {memory : σ} :
    outcome.forget = .raised fault ⟨machine, memory, ()⟩ ↔
      ∃ journal, outcome = .raised fault ⟨machine, memory, journal⟩ := by
  constructor
  · intro h
    cases outcome with
    | returned value run => cases h
    | raised fault' run =>
        cases h
        exact ⟨run.journal, rfl⟩
    | exhausted => cases h
  · intro h
    obtain ⟨journal, rfl⟩ := h
    rfl

theorem mapJournal_andThen {f : ρ → ρ'} {next : α → Run σ ρ → Outcome σ ρ β}
    {next' : α → Run σ ρ' → Outcome σ ρ' β} (outcome : Outcome σ ρ α)
    (hnext : ∀ value run, (next value run).mapJournal f = next' value (run.mapJournal f)) :
    (outcome.andThen next).mapJournal f = (outcome.mapJournal f).andThen next' := by
  cases outcome with
  | returned value run => exact hnext value run
  | raised fault run => rfl
  | exhausted => rfl

end Outcome

namespace Observer

/-- Nothing is kept. -/
def blind : Observer Unit where
  note _ _ := ()

/-- Counts the calls of handlers. -/
def tally : Observer Nat where
  note
    | .called _, count => count + 1
    | _, count => count

/-- Reading journals through `f` turns the account of `source` into that of `target`. -/
def Renders (f : ρ → ρ') (source : Observer ρ) (target : Observer ρ') : Prop :=
  ∀ event journal, f (source.note event journal) = target.note event (f journal)

theorem renders_blind (observer : Observer ρ) : Renders (fun _ => ()) observer blind :=
  fun _ _ => rfl

theorem renders_append (earlier : List Event) : Renders (· ++ earlier) full full :=
  fun _ _ => rfl

end Observer

section Kept

variable (machine : Machine) (memory : σ)

@[simp] theorem Run.act_tally (count : Nat) (op : Op) :
    (Run.mk machine memory count).act Observer.tally op = ⟨machine.act op, memory, count⟩ := rfl

@[simp] theorem Run.act_blind (op : Op) :
    (Run.mk machine memory ()).act Observer.blind op = ⟨machine.act op, memory, ()⟩ := rfl

@[simp] theorem Run.note_blind (event : Event) :
    (Run.mk machine memory ()).note Observer.blind event = ⟨machine, memory, ()⟩ := rfl

end Kept

section

variable {source : Observer ρ} {target : Observer ρ'} {f : ρ → ρ'}

namespace Run

theorem mapJournal_note (hf : Observer.Renders f source target) (run : Run σ ρ) (event : Event) :
    (run.note source event).mapJournal f = (run.mapJournal f).note target event :=
  congrArg (Run.mk run.machine run.memory) (hf event run.journal)

theorem mapJournal_act (hf : Observer.Renders f source target) (run : Run σ ρ) (op : Op) :
    (run.act source op).mapJournal f = (run.mapJournal f).act target op :=
  congrArg (Run.mk (run.machine.act op) run.memory) (hf _ run.journal)

theorem mapJournal_openText (hf : Observer.Renders f source target) (run : Run σ ρ)
    (text : Text) :
    (run.openText source text).mapJournal f = (run.mapJournal f).openText target text :=
  congrArg (Run.mk (.load text) run.memory) (hf _ run.journal)

end Run

/-- A program watched differently does the same, if its nested parses do. -/
theorem Program.run_mapJournal (hf : Observer.Renders f source target)
    {inner : String → Run σ ρ → Outcome σ ρ String}
    {inner' : String → Run σ ρ' → Outcome σ ρ' String}
    (hinner : ∀ text run, (inner text run).mapJournal f = inner' text (run.mapJournal f))
    (program : Program σ α) (run : Run σ ρ) :
    (program.run source inner run).mapJournal f =
      program.run target inner' (run.mapJournal f) := by
  induction program generalizing run with
  | done value => rfl
  | act op next ih =>
      rw [Program.run, Program.run, ih, Run.mapJournal_act hf]
  | look next ih => exact ih run.machine run.memory run
  | remember memory next ih => exact ih { run with memory := memory }
  | nested text next ih =>
      rw [Program.run, Program.run, ← hinner text run]
      cases inner text run with
      | returned output run' => exact ih (.ok output) run'
      | raised fault run' => exact ih (.error fault) run'
      | exhausted => rfl
  | raise fault => rfl

namespace Parser

theorem mapJournal_begin (parser : Parser σ) (hf : Observer.Renders f source target)
    (text : String) (run : Run σ ρ) :
    (parser.begin source text run).mapJournal f = parser.begin target text (run.mapJournal f) := by
  unfold begin Run.log
  rw [Run.mapJournal_note hf, Run.mapJournal_openText hf, Run.mapJournal_openText hf]

theorem mapJournal_finish (hf : Observer.Renders f source target) (ended : Run σ ρ) :
    (finish source ended).mapJournal f = finish target (ended.mapJournal f) :=
  congrArg (Outcome.returned ended.machine.output) (Run.mapJournal_note hf ended _)

theorem parseWith_mapJournal (parser : Parser σ) (hf : Observer.Renders f source target)
    {loop : Nat → Run σ ρ → Outcome σ ρ Unit} {loop' : Nat → Run σ ρ' → Outcome σ ρ' Unit}
    (hloop : ∀ length run, (loop length run).mapJournal f = loop' length (run.mapJournal f))
    (text : String) (run : Run σ ρ) :
    (parser.parseWith source loop text run).mapJournal f =
      parser.parseWith target loop' text (run.mapJournal f) := by
  cases hl : parser.limits.exceeded? text.length with
  | some limit =>
      rw [parser.parseWith_rejected source hl, parser.parseWith_rejected target hl,
        ← Run.mapJournal_openText hf]
      exact congrArg (Outcome.raised _) (Run.mapJournal_note hf _ _)
  | none =>
      have hl' := (parser.limits.exceeded?_eq_none_iff text.length).mp hl
      rw [parser.parseWith_admitted source hl', parser.parseWith_admitted target hl',
        ← parser.mapJournal_begin hf, ← hloop]
      exact Outcome.mapJournal_andThen _ fun _ ended => mapJournal_finish hf ended

theorem loop_mapJournal (parser : Parser σ) (hf : Observer.Renders f source target)
    (steps length : Nat) (run : Run σ ρ) :
    (parser.loop source steps length run).mapJournal f =
      parser.loop target steps length (run.mapJournal f) := by
  induction steps generalizing length run with
  | zero =>
      rcases Nat.lt_or_ge run.machine.pointer length with hp | hp
      · rw [parser.loop_zero source run hp, parser.loop_zero target (run.mapJournal f) hp]
        rfl
      · rw [parser.loop_of_length_le source run hp,
          parser.loop_of_length_le target (run.mapJournal f) hp]
        rfl
  | succ steps ih =>
      rcases Nat.lt_or_ge run.machine.pointer length with hp | hp
      · cases hh : parser.table.find? run.machine.state with
        | none =>
            rw [parser.loop_unhandled source run hp hh,
              parser.loop_unhandled target (run.mapJournal f) hp hh]
            exact congrArg (Outcome.raised _) (Run.mapJournal_note hf run _)
        | some handler =>
            have hcall := handler.run_mapJournal hf (parser.parseWith_mapJournal hf ih)
              (run.note source (.called run.machine))
            rw [Run.mapJournal_note hf] at hcall
            rw [parser.loop_call source run hp hh,
              parser.loop_call target (run.mapJournal f) hp hh,
              Outcome.mapJournal_andThen _ fun _ next => ih length next]
            exact congrArg (Outcome.andThen · _) hcall
      · rw [parser.loop_of_length_le source run hp,
          parser.loop_of_length_le target (run.mapJournal f) hp]
        rfl

/-- A parse watched differently has the same outcome, journal apart. -/
theorem parse_mapJournal (parser : Parser σ) (hf : Observer.Renders f source target)
    (steps : Nat) (text : String) (run : Run σ ρ) :
    (parser.parse source steps text run).mapJournal f =
      parser.parse target steps text (run.mapJournal f) :=
  parser.parseWith_mapJournal hf (parser.loop_mapJournal hf steps) text run

end Parser

end

/-- Two parses of a text that start from the same memory cannot be told apart by anything but
their journals: neither the observers nor the machines found make a difference. -/
theorem Parser.forget_parse_eq (parser : Parser σ) (observer : Observer ρ) (observer' : Observer ρ')
    (steps : Nat) (text : String) (run : Run σ ρ) (run' : Run σ ρ')
    (hm : run.memory = run'.memory) :
    (parser.parse observer steps text run).forget =
      (parser.parse observer' steps text run').forget := by
  unfold Outcome.forget
  rw [parser.parse_mapJournal (Observer.renders_blind observer),
    parser.parse_mapJournal (Observer.renders_blind observer')]
  -- Both sides now open the text over whatever machine they were given.
  unfold Run.mapJournal
  rw [hm]
  rfl

end CharMachine
