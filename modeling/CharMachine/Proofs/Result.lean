import CharMachine.Proofs.Loop

/-!
# Runs that have ended

A run that has ended has a result, a value or a fault, and the run that it leaves. Statements here
take ended runs apart: what it means for a sequence, a nested parse or a loop to have ended in a
result, or to have used up its bound.
-/

namespace CharMachine

variable {σ ρ α β : Type}

namespace Outcome

/-- The outcome of a run that has ended. -/
def ofResult (result : Except Fault α) (run : Run σ ρ) : Outcome σ ρ α :=
  match result with
  | .ok value => .returned value run
  | .error fault => .raised fault run

theorem ofResult_ne_exhausted (result : Except Fault α) (run : Run σ ρ) :
    ofResult result run ≠ .exhausted := by
  cases result <;> exact nofun

section

variable {result result' : Except Fault α} {run run' : Run σ ρ}

theorem ofResult_injective (h : ofResult result run = ofResult result' run') :
    result = result' ∧ run = run' := by
  cases result <;> cases result' <;> cases h <;> exact ⟨rfl, rfl⟩

theorem of_returned {value : α} (h : .returned value run = ofResult result run') :
    .ok value = result ∧ run = run' :=
  ofResult_injective h

theorem of_raised {fault : Fault} (h : .raised fault run = ofResult result run') :
    .error fault = result ∧ run = run' :=
  ofResult_injective h

end

theorem exhausted_or_ofResult (outcome : Outcome σ ρ α) :
    outcome = .exhausted ∨ ∃ result run, outcome = ofResult result run := by
  cases outcome with
  | returned value run => exact Or.inr ⟨.ok value, run, rfl⟩
  | raised fault run => exact Or.inr ⟨.error fault, run, rfl⟩
  | exhausted => exact Or.inl rfl

variable {outcome : Outcome σ ρ α} {next : α → Run σ ρ → Outcome σ ρ β} {result : Except Fault β}
  {after : Run σ ρ}

/-- A sequence that has ended got to its second part or ended in a fault of its first. -/
theorem andThen_eq_ofResult (h : outcome.andThen next = ofResult result after) :
    (∃ value between, outcome = .returned value between ∧
      next value between = ofResult result after) ∨
    ∃ fault, outcome = .raised fault after ∧ result = .error fault := by
  cases outcome with
  | returned value between => exact Or.inl ⟨value, between, rfl, h⟩
  | raised fault between =>
      obtain ⟨rfl, rfl⟩ := of_raised h
      exact Or.inr ⟨fault, rfl, rfl⟩
  | exhausted => exact absurd h.symm (ofResult_ne_exhausted result after)

theorem andThen_eq_exhausted (h : outcome.andThen next = .exhausted) :
    outcome = .exhausted ∨
      ∃ value between, outcome = .returned value between ∧ next value between = .exhausted := by
  cases outcome with
  | returned value between => exact Or.inr ⟨value, between, rfl, h⟩
  | raised fault between => cases h
  | exhausted => exact Or.inl rfl

end Outcome

namespace Program

variable {observer : Observer ρ} {inner : String → Run σ ρ → Outcome σ ρ String} {text : String}
  {next : Except Fault String → Program σ α} {run after : Run σ ρ} {result : Except Fault α}

/-- A program that has ended after a nested parse went on with the answer of that parse. -/
theorem run_nested_eq_ofResult
    (h : (nested text next).run observer inner run = .ofResult result after) :
    ∃ answer between, inner text run = .ofResult answer between ∧
      (next answer).run observer inner between = .ofResult result after := by
  rw [Program.run] at h
  cases hinner : inner text run with
  | returned output between =>
      rw [hinner] at h
      exact ⟨.ok output, between, rfl, h⟩
  | raised fault between =>
      rw [hinner] at h
      exact ⟨.error fault, between, rfl, h⟩
  | exhausted =>
      rw [hinner] at h
      exact absurd h.symm (Outcome.ofResult_ne_exhausted result after)

theorem run_nested_eq_exhausted (h : (nested text next).run observer inner run = .exhausted) :
    inner text run = .exhausted ∨
      ∃ answer between, inner text run = .ofResult answer between ∧
        (next answer).run observer inner between = .exhausted := by
  rw [Program.run] at h
  cases hinner : inner text run with
  | returned output between =>
      rw [hinner] at h
      exact Or.inr ⟨.ok output, between, rfl, h⟩
  | raised fault between =>
      rw [hinner] at h
      exact Or.inr ⟨.error fault, between, rfl, h⟩
  | exhausted => exact Or.inl rfl

end Program

namespace Parser

/-- What a loop does first, if it ends in this result under this bound. -/
inductive LoopStarts (parser : Parser σ) (observer : Observer ρ) (length : Nat) (run : Run σ ρ) :
    Nat → Except Fault Unit → Run σ ρ → Prop where
  | finished {steps : Nat} : length ≤ run.machine.pointer →
      LoopStarts parser observer length run steps (.ok ()) run
  | unhandled {steps : Nat} : run.machine.pointer < length →
      parser.table.find? run.machine.state = none →
      LoopStarts parser observer length run (steps + 1)
        (.error (.parse (.unknownState run.machine.state)))
        (run.log observer (.unhandled run.machine.state run.machine.pointer))
  | faulted {steps : Nat} {handler : Program σ Unit} {fault : Fault} {after : Run σ ρ} :
      run.machine.pointer < length →
      parser.table.find? run.machine.state = some handler →
      handler.run observer (parser.parse observer steps)
        (run.note observer (.called run.machine)) = .ofResult (.error fault) after →
      LoopStarts parser observer length run (steps + 1) (.error fault) after
  | called {steps : Nat} {handler : Program σ Unit} {next after : Run σ ρ}
      {result : Except Fault Unit} :
      run.machine.pointer < length →
      parser.table.find? run.machine.state = some handler →
      handler.run observer (parser.parse observer steps)
        (run.note observer (.called run.machine)) = .ofResult (.ok ()) next →
      parser.loop observer steps length next = .ofResult result after →
      LoopStarts parser observer length run (steps + 1) result after

theorem loopStarts_of_loop {parser : Parser σ} {observer : Observer ρ} {steps length : Nat}
    {run after : Run σ ρ} {result : Except Fault Unit}
    (h : parser.loop observer steps length run = .ofResult result after) :
    parser.LoopStarts observer length run steps result after := by
  rcases Nat.lt_or_ge run.machine.pointer length with hp | hp
  · cases steps with
    | zero =>
        rw [parser.loop_zero observer run hp] at h
        exact absurd h.symm (Outcome.ofResult_ne_exhausted result after)
    | succ steps =>
        cases hh : parser.table.find? run.machine.state with
        | none =>
            rw [parser.loop_unhandled observer run hp hh] at h
            obtain ⟨rfl, rfl⟩ := Outcome.of_raised h
            exact .unhandled hp hh
        | some handler =>
            rw [parser.loop_call observer run hp hh] at h
            rcases Outcome.andThen_eq_ofResult h with ⟨_, next, hcall, hrest⟩ | ⟨fault, hcall, rfl⟩
            · exact .called hp hh hcall hrest
            · exact .faulted hp hh hcall
  · rw [parser.loop_of_length_le observer run hp] at h
    obtain ⟨rfl, rfl⟩ := Outcome.of_returned h
    exact .finished hp

/-- What a parse does, if it ends in this result: it refuses its text, or its loop ends and then it
finishes, or its loop ends in a fault. -/
theorem parseWith_eq_ofResult {parser : Parser σ} {observer : Observer ρ}
    {loop : Nat → Run σ ρ → Outcome σ ρ Unit} {text : String} {run after : Run σ ρ}
    {result : Except Fault String}
    (h : parser.parseWith observer loop text run = .ofResult result after) :
    (∃ limit, parser.limits.exceeded? text.length = some limit ∧
      result = .error (.parse (.inputTooLarge text.length limit)) ∧
      after = (run.openText observer .empty).log observer (.rejected text.length limit)) ∨
    parser.limits.Admits text.length ∧
      ((∃ last, loop text.length (parser.begin observer text run) = .ofResult (.ok ()) last ∧
        result = .ok last.machine.output ∧
        after = last.log observer (.finished last.machine.state last.machine.emitted.length)) ∨
      ∃ fault, loop text.length (parser.begin observer text run) = .ofResult (.error fault) after ∧
        result = .error fault) := by
  cases hl : parser.limits.exceeded? text.length with
  | some limit =>
      rw [parser.parseWith_rejected observer hl] at h
      obtain ⟨rfl, rfl⟩ := Outcome.of_raised h
      exact Or.inl ⟨limit, rfl, rfl, rfl⟩
  | none =>
      have hadmits := (parser.limits.exceeded?_eq_none_iff text.length).mp hl
      rw [parser.parseWith_admitted observer hadmits] at h
      rcases Outcome.andThen_eq_ofResult h with ⟨_, last, hloop, hfinish⟩ | ⟨fault, hloop, rfl⟩
      · obtain ⟨rfl, rfl⟩ := Outcome.of_returned hfinish
        exact Or.inr ⟨hadmits, Or.inl ⟨last, hloop, rfl, rfl⟩⟩
      · exact Or.inr ⟨hadmits, Or.inr ⟨fault, hloop, rfl⟩⟩

end Parser

end CharMachine
