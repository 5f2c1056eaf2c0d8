import CharMachine.Proofs.Quoted.Acceptance
import CharMachine.Proofs.Unnested

/-!
# How many calls a quoted string takes

Nothing in the loop makes the table get on, and most of its handlers can return without moving the
pointer. Main statement: every parse of a text within the limit ends, after a number of calls that
the text and the result determine: one more than there are characters if the text is accepted, and
otherwise as many as it takes to come to the defect and refuse it. This number is exactly the bound
that a bounded run needs. A larger one changes nothing, a smaller one cuts the run off.
-/

namespace CharMachine.Quoted

/-- The quote that closes the string stands at this index. -/
def ClosesAt (chars : List Char) (index : Nat) : Prop :=
  ∃ body rest, IsBody body ∧ chars = delimiter :: (body ++ delimiter :: rest) ∧
    index = body.length + 1

/-- The number of calls in which a text comes to its result. -/
inductive Takes (text : String) : Except Fault String → Nat → Prop where
  | empty : text = "" → Takes text (.ok "") 0
  | accepted {output : String} : text ≠ "" → Takes text (.ok output) (text.length + 1)
  | leading : Takes text (.error (.parse .invalidLeading)) 2
  | escape (position : Nat) : Takes text (.error (escapeFault text position)) (position + 3)
  | trailing {closing : Nat} (position : Nat) : ClosesAt text.toList closing →
      Takes text (.error (trailingFault text position)) (closing + 4)

theorem unnested_handler {σ : Type} (state : State) :
    (handler state : Program σ Unit).Unnested := by
  have hmachine : (Program.machine : Program σ Machine).Unnested := fun _ _ => trivial
  cases state with
  | unknown =>
      refine hmachine.bind fun machine => ?_
      split <;> trivial
  | entering => trivial
  | inside =>
      refine hmachine.bind fun machine => ?_
      repeat' split
      all_goals trivial
  | left =>
      refine hmachine.bind fun machine => ?_
      split <;> trivial
  | invalidLeading => trivial
  | invalidTrailing => exact hmachine.bind fun _ => trivial
  | invalidEscape => exact hmachine.bind fun _ => trivial

theorem unnested_table {σ : Type} : ∀ entry ∈ (table : Table σ).entries, entry.2.Unnested := by
  intro entry hentry
  obtain ⟨state, -, rfl⟩ := List.mem_map.mp hentry
  exact unnested_handler state

namespace Verdict

/-- The result of a parse with this verdict. -/
def result (verdict : Verdict) : Except Fault String :=
  match verdict.fault? with
  | none => .ok verdict.machine.output
  | some fault => .error fault

theorem result_of_fault {verdict : Verdict} {fault : Fault} (h : verdict.fault? = some fault) :
    verdict.result = .error fault := by
  rw [result, h]

theorem outcome_eq_ofResult {ρ : Type} (verdict : Verdict) (journal : ρ) :
    verdict.outcome verdict.machine.output journal =
      .ofResult verdict.result ⟨verdict.machine, (), journal⟩ := by
  unfold outcome result
  cases verdict.fault? with
  | none => rfl
  | some fault => rfl

end Verdict

/-- The verdict on a body and what ends it takes its number of calls. -/
theorem takes_stop {text : String} {body : List Char} (hb : IsBody body) (stop : Stop)
    (ht : text.toList = delimiter :: (body ++ stop.chars)) :
    Takes text (stop.verdict body).result (stop.verdict body).calls := by
  have hlength : text.length = body.length + stop.chars.length + 1 := by
    rw [← String.length_toList, ht, List.length_cons, List.length_append]
  have hne : text ≠ "" := by
    rintro rfl
    cases ht
  match stop with
  | .atEnd =>
      have hcalls : body.length + 2 = text.length + 1 := by
        rw [hlength]
        rfl
      show Takes text (.ok _) (body.length + 2)
      rw [hcalls]
      exact .accepted hne
  | .quote [] =>
      have hcalls : body.length + 3 = text.length + 1 := by
        rw [hlength]
        rfl
      show Takes text (.ok _) (body.length + 3)
      rw [hcalls]
      exact .accepted hne
  | .quote (c :: rest) =>
      have hcalls : ((Stop.quote (c :: rest)).verdict body).calls = body.length + 1 + 4 := by
        cases rest <;> rfl
      rw [Verdict.result_of_fault (fault?_quote (List.cons_ne_nil c rest) ht), hcalls]
      exact .trailing _ ⟨body, c :: rest, hb, ht, rfl⟩
  | .mark rest lone =>
      rw [Verdict.result_of_fault (fault?_mark lone ht)]
      exact .escape (body.length + 1)

theorem takes_verdict {text : String} (shape : Shape) (ht : text.toList = shape.chars) :
    Takes text shape.verdict.result shape.verdict.calls := by
  cases shape with
  | empty => exact .empty (String.toList_eq_nil_iff.mp ht)
  | misled first rest stray => exact .leading
  | opened body hb stop => exact takes_stop hb stop ht

/-- Every parse of a text within the limit ends, and `calls` handlers are called in it. They are as
many as the result says, and at most two more than there are characters. A bounded run comes to
this end exactly if its bound is not smaller than that, and then it is the same for every bound. -/
theorem calls_counted_exactly (limits : Limits) (text : String) (hl : limits.Admits text.length) :
    ∃ result calls, Takes text result calls ∧ (text ≠ "" → calls ≤ text.length + 2) ∧
      (∀ run : Run Unit Nat, ∃ machine, (parser limits).Ends .tally text run
        (.ofResult result ⟨machine, (), run.journal + calls⟩)) ∧
      ∀ {ρ : Type} (observer : Observer ρ) (run : Run Unit ρ), ∃ ended, ∀ steps,
        (parser limits).parse observer steps text run =
          if calls ≤ steps then .ofResult result ended else .exhausted := by
  obtain ⟨shape, ht⟩ := Shape.exists_chars_eq text.toList
  have hlength : text.length = shape.chars.length := by rw [ht, String.length_toList]
  have hparse : ∀ run : Run Unit Nat,
      (parser limits).parse .tally shape.verdict.calls text run =
        .ofResult shape.verdict.result
          ⟨shape.verdict.machine, (), run.journal + shape.verdict.calls⟩ := by
    intro run
    rw [parse_tally shape ht.symm hl (Nat.le_refl _), Verdict.outcome_eq_ofResult]
  refine ⟨_, _, takes_verdict shape ht.symm, fun _ => hlength ▸ shape.calls_le, ?_, ?_⟩
  · intro run
    exact ⟨_, Outcome.ofResult_ne_exhausted _ _, _, hparse run⟩
  · intro ρ observer run
    exact Parser.parse_eq_ite unnested_table observer run (hparse _) (Nat.zero_add _)

/-- One character after the closing quote takes two calls more than there are characters. -/
theorem calls_counted_trailing :
    Limits.standard.Admits "\"a\"b".length ∧
      ∃ ended, ∀ steps, (parser .standard).parse .log steps "\"a\"b" (.fresh () []) =
        if 6 ≤ steps then .ofResult (.error (trailingFault "\"a\"b" 3)) ended else .exhausted := by
  have hl : Limits.standard.Admits "\"a\"b".length := by decide
  obtain ⟨result, calls, -, -, hends, hbounded⟩ := calls_counted_exactly .standard "\"a\"b" hl
  obtain ⟨machine, hends⟩ := hends (.fresh () 0)
  have hsix : ∃ last, (parser .standard).Ends .tally "\"a\"b" (.fresh () 0)
      (.ofResult (.error (trailingFault "\"a\"b" 3)) ⟨last, (), 6⟩) := ⟨_, nofun, 6, rfl⟩
  obtain ⟨last, hsix⟩ := hsix
  obtain ⟨rfl, hrun⟩ := Outcome.ofResult_injective (hends.unique hsix)
  obtain rfl : calls = 6 := (Nat.zero_add calls).symm.trans (congrArg Run.journal hrun)
  exact ⟨hl, hbounded .log (.fresh () [])⟩

end CharMachine.Quoted
