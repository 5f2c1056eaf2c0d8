import CharMachine.Proofs.Tables

/-!
# Handlers that start no parse

A handler may look at what it likes and act as it likes, and still start no parse whatever it sees.
A table of such handlers parses without nesting, and its bound on calls is a bound on all of them:
each step of the bound is spent on one call.
-/

namespace CharMachine

variable {σ ρ ρ' α β : Type}

/-- The program starts no parse, whatever it sees. -/
def Program.Unnested : Program σ α → Prop
  | done _ => True
  | act _ next => next.Unnested
  | look next => ∀ machine memory, (next machine memory).Unnested
  | remember _ next => next.Unnested
  | nested _ _ => False
  | raise _ => True

theorem Program.Unnested.bind {program : Program σ α} {next : α → Program σ β}
    (h : program.Unnested) (hnext : ∀ value, (next value).Unnested) :
    (program >>= next).Unnested := by
  change (program.bind next).Unnested
  induction program with
  | done value => exact hnext value
  | act op rest ih => exact ih h
  | look rest ih => exact fun machine memory => ih machine memory (h machine memory)
  | remember memory rest ih => exact ih h
  | nested text rest ih => exact h.elim
  | raise fault => trivial

/-- A handler that has been called starts no parse in what is left of it. -/
def Control.Unnested : Control σ → Prop
  | .handling _ rest => rest.Unnested
  | _ => True

namespace Parser

/-- In the course of the parse of this text no handler starts another. -/
def Unnested (parser : Parser σ) (text : String) (machine : Machine) (memory : σ) : Prop :=
  ∀ point, parser.Course .full (outset text machine memory) point → point.waiting = []

/-- No handler waits, and the one that has been called starts no parse. -/
structure StaysUnnested (point : Point σ (List Event)) : Prop where
  waiting_eq : point.waiting = []
  control : point.control.Unnested

variable {parser : Parser σ}

theorem StaysUnnested.step {point next : Point σ (List Event)}
    (htable : ∀ entry ∈ parser.table.entries, entry.2.Unnested)
    (hstep : parser.step .full point = some next) (h : StaysUnnested point) :
    StaysUnnested next := by
  obtain ⟨control, waiting, run⟩ := point
  obtain ⟨hwaiting, hcontrol⟩ := h
  obtain rfl : waiting = [] := hwaiting
  cases control with
  | opening text =>
      cases hstep
      exact ⟨rfl, trivial⟩
  | admitting text =>
      rw [Parser.step] at hstep
      split at hstep <;> cases hstep <;> exact ⟨rfl, trivial⟩
  | starting text =>
      cases hstep
      exact ⟨rfl, trivial⟩
  | looping length =>
      by_cases hp : run.machine.pointer < length
      · cases hh : parser.table.find? run.machine.state with
        | none =>
            rw [step_unhandled [] hp hh] at hstep
            cases hstep
            exact ⟨rfl, trivial⟩
        | some handler =>
            rw [step_call [] hp hh] at hstep
            cases hstep
            exact ⟨rfl, htable _ ((parser.table.find?_eq_some_iff _ _).mp hh)⟩
      · rw [step_finish [] (Nat.not_lt.mp hp)] at hstep
        cases hstep
        exact ⟨rfl, trivial⟩
  | handling length rest =>
      have hrest : rest.Unnested := hcontrol
      cases rest with
      | done value =>
          cases hstep
          exact ⟨rfl, trivial⟩
      | act op rest =>
          cases hstep
          exact ⟨rfl, hrest⟩
      | look rest =>
          cases hstep
          exact ⟨rfl, hrest _ _⟩
      | remember memory rest =>
          cases hstep
          exact ⟨rfl, hrest⟩
      | nested text rest => exact hrest.elim
      | raise fault =>
          cases hstep
          exact ⟨rfl, trivial⟩
  | ended result => cases hstep

/-- A table of programs that start no parse parses without nesting. -/
theorem unnested_of_table (htable : ∀ entry ∈ parser.table.entries, entry.2.Unnested)
    (text : String) (machine : Machine) (memory : σ) : parser.Unnested text machine memory := by
  intro point hcourse
  have hstart : StaysUnnested (outset text machine memory) := ⟨rfl, trivial⟩
  exact (hcourse.preserves StaysUnnested (fun _ _ hstep => .step htable hstep) hstart).waiting_eq

end Parser

/-! ## Counting calls -/

/-- A program that starts no parse calls no handler. -/
theorem Program.Unnested.journal_eq {program : Program σ α} (h : program.Unnested)
    {inner : String → Run σ Nat → Outcome σ Nat String} (run : Run σ Nat) {after : Run σ Nat}
    {result : Except Fault α} (hrun : program.run .tally inner run = .ofResult result after) :
    after.journal = run.journal := by
  induction program generalizing run with
  | done value =>
      obtain ⟨-, rfl⟩ := Outcome.of_returned hrun
      rfl
  | act op next ih => exact ih h (run.act .tally op) hrun
  | look next ih => exact ih run.machine run.memory (h _ _) run hrun
  | remember memory next ih => exact ih h { run with memory := memory } hrun
  | nested text next ih => exact h.elim
  | raise fault =>
      obtain ⟨-, rfl⟩ := Outcome.of_raised hrun
      rfl

/-- Outcomes that differ in their journals at most have the same result. -/
theorem Outcome.exists_eq_ofResult {outcome : Outcome σ ρ α} {result : Except Fault α}
    {after : Run σ ρ'} (h : outcome.forget = (ofResult result after).forget) :
    ∃ ended, outcome = ofResult result ended := by
  cases outcome with
  | returned value run =>
      cases result with
      | ok value' =>
          obtain rfl := (Outcome.returned.inj h).1
          exact ⟨run, rfl⟩
      | error fault => cases h
  | raised fault run =>
      cases result with
      | ok value => cases h
      | error fault' =>
          obtain rfl := (Outcome.raised.inj h).1
          exact ⟨run, rfl⟩
  | exhausted => cases result <;> cases h

namespace Parser

/-- A larger bound changes nothing about a parse that has ended. -/
theorem parse_eq_ofResult_of_le {parser : Parser σ} {observer : Observer ρ} {text : String}
    {run after : Run σ ρ} {result : Except Fault String} {steps steps' : Nat}
    (hle : steps ≤ steps') (h : parser.parse observer steps text run = .ofResult result after) :
    parser.parse observer steps' text run = .ofResult result after := by
  have hgrows := parser.parse_grows observer hle text run
  rw [h] at hgrows
  exact hgrows (Outcome.ofResult_ne_exhausted result after)

section Counting

variable {parser : Parser σ} (htable : ∀ entry ∈ parser.table.entries, entry.2.Unnested)
  {text : String} {steps calls : Nat}
include htable

theorem journal_call {handler : Program σ Unit} {run after : Run σ Nat}
    {inner : String → Run σ Nat → Outcome σ Nat String} {result : Except Fault Unit}
    (hh : parser.table.find? run.machine.state = some handler)
    (hrun : handler.run .tally inner (run.note .tally (.called run.machine)) =
      .ofResult result after) : after.journal = run.journal + 1 :=
  (htable _ ((parser.table.find?_eq_some_iff _ _).mp hh)).journal_eq _ hrun

/-- A loop that ends makes no more calls than its bound allows. -/
theorem journal_loop_le {length : Nat} {run after : Run σ Nat} {result : Except Fault Unit}
    (h : parser.loop .tally steps length run = .ofResult result after) :
    after.journal ≤ run.journal + steps := by
  induction steps generalizing run with
  | zero =>
      cases loopStarts_of_loop h with
      | finished _ => exact Nat.le_refl _
  | succ steps ih =>
      cases loopStarts_of_loop h with
      | finished _ => exact Nat.le_add_right _ _
      | unhandled _ _ => exact Nat.le_add_right _ _
      | faulted _ hh hrun =>
          have hone := journal_call htable hh hrun
          omega
      | called _ hh hrun hrest =>
          have hone := journal_call htable hh hrun
          have hle := ih hrest
          omega

theorem journal_parse_le {run after : Run σ Nat} {result : Except Fault String}
    (h : parser.parse .tally steps text run = .ofResult result after) :
    after.journal ≤ run.journal + steps := by
  rcases parseWith_eq_ofResult h with
    ⟨limit, -, -, rfl⟩ | ⟨-, ⟨last, hloop, -, rfl⟩ | ⟨fault, hloop, -⟩⟩
  · exact Nat.le_add_right _ _
  · have hle := journal_loop_le htable hloop
    exact hle
  · have hle := journal_loop_le htable hloop
    exact hle

/-- A parse that ends with so many calls needs exactly this bound. -/
theorem parse_tally_eq_ite {run after : Run σ Nat} {result : Except Fault String}
    (h : parser.parse .tally calls text run = .ofResult result after)
    (hcalls : after.journal = run.journal + calls) (steps : Nat) :
    parser.parse .tally steps text run =
      if calls ≤ steps then .ofResult result after else .exhausted := by
  by_cases hle : calls ≤ steps
  · rw [if_pos hle]
    exact parse_eq_ofResult_of_le hle h
  · rw [if_neg hle]
    rcases (parser.parse .tally steps text run).exhausted_or_ofResult with
      hex | ⟨result', after', h'⟩
    · exact hex
    · -- The smaller bound would have been enough, and for as many calls.
      have hlarger := parse_eq_ofResult_of_le (Nat.le_of_not_le hle) h'
      obtain ⟨-, rfl⟩ := Outcome.ofResult_injective (hlarger.symm.trans h)
      have hfew := journal_parse_le htable h'
      omega

/-- The same bound is needed whoever watches. -/
theorem parse_eq_ite (observer : Observer ρ) (run : Run σ ρ) {after : Run σ Nat}
    {result : Except Fault String}
    (h : parser.parse .tally calls text (.fresh run.memory 0) = .ofResult result after)
    (hcalls : after.journal = calls) :
    ∃ ended, ∀ steps, parser.parse observer steps text run =
      if calls ≤ steps then .ofResult result ended else .exhausted := by
  have htally := parse_tally_eq_ite htable h (hcalls.trans (Nat.zero_add calls).symm)
  have hforget : ∀ steps, (parser.parse observer steps text run).forget =
      (if calls ≤ steps then .ofResult result after else .exhausted :
        Outcome σ Nat String).forget := by
    intro steps
    rw [← htally steps]
    exact parser.forget_parse_eq observer .tally steps text run _ rfl
  have henough := hforget calls
  rw [if_pos (Nat.le_refl calls)] at henough
  obtain ⟨ended, hended⟩ := Outcome.exists_eq_ofResult henough
  refine ⟨ended, ?_⟩
  intro steps
  by_cases hle : calls ≤ steps
  · rw [if_pos hle]
    exact parse_eq_ofResult_of_le hle hended
  · have hcut := hforget steps
    rw [if_neg hle] at hcut
    rw [if_neg hle]
    exact Outcome.mapJournal_eq_exhausted_iff.mp hcut

end Counting

end Parser

end CharMachine
