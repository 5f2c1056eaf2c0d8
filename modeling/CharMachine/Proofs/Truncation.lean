import CharMachine.Proofs.Between
import CharMachine.Proofs.Observation
import CharMachine.Truncation

/-!
# What a truncation keeps

A parse emits the first characters of its text, as many as the limit allows, and counts all of
them. The count starts again with each parse and nothing else reads it, so it makes no difference
what earlier parses or assignments have left there; the limit is what was last assigned. A limit
below zero keeps nothing.
-/

namespace CharMachine.Truncation

section Calls

variable {limits : Limits} {length : Nat} {limit : Int} {passed ahead : List Char} {c : Char}

/-- Part of the text has been passed: all of it is counted, and as much is emitted as the limit
allows. -/
def standing (limit : Int) (passed ahead : List Char) : Run Quota Unit where
  machine := .between passed ahead inValue (passed.take limit.toNat).reverse
  memory := ⟨limit, passed.length⟩
  journal := ()

/-- The next character is within the limit if the count that includes it is. -/
theorem reverse_take_concat :
    ((passed ++ [c]).take limit.toNat).reverse =
      if (passed.length : Int) + 1 ≤ limit then c :: (passed.take limit.toNat).reverse
      else (passed.take limit.toNat).reverse := by
  by_cases hc : (passed.length : Int) + 1 ≤ limit
  · have hone : limit.toNat - passed.length = limit.toNat - passed.length - 1 + 1 := by omega
    rw [if_pos hc, List.take_append, hone]
    simp
  · have hnone : limit.toNat - passed.length = 0 := by omega
    rw [if_neg hc, List.take_append, hnone]
    simp

theorem leads_value (hp : passed.length < length) :
    (parser limits).Leads Observer.blind length 1 (standing limit passed (c :: ahead))
      (standing limit (passed ++ [c]) ahead) := by
  refine Parser.leads_call hp rfl ?_
  intro inner
  simp only [standing, atValue, reverse_take_concat, Run.note_blind, Program.run_bind,
    Program.run_memory, Program.run_setMemory, Outcome.andThen_returned]
  by_cases hc : (passed.length : Int) + 1 ≤ limit
  · rw [if_pos hc, if_pos hc]
    simp
  · rw [if_neg hc, if_neg hc]
    simp

/-- One call for each character, whether it is emitted or not. -/
theorem leads_values (hp : passed.length + ahead.length ≤ length) :
    (parser limits).Leads Observer.blind length ahead.length (standing limit passed ahead)
      (standing limit (passed ++ ahead) []) := by
  induction ahead generalizing passed with
  | nil =>
      rw [List.append_nil]
      exact .refl _
  | cons c rest ih =>
      rw [List.length_cons] at hp
      have hfirst : (parser limits).Leads Observer.blind length 1
          (standing limit passed (c :: rest)) _ := leads_value (by omega)
      have hrest := hfirst.trans (ih (by simp; omega))
      rwa [List.append_assoc, List.singleton_append, Nat.add_comm] at hrest

theorem leads_start (hp : 0 < length) :
    (parser limits).Leads Observer.blind length 1
      ⟨.between [] ahead Machine.initialState [], ⟨limit, 0⟩, ()⟩ (standing limit [] ahead) := by
  refine Parser.leads_call hp rfl ?_
  intro inner
  simp [atStart, standing]

/-- The loop over a text comes to its end with all of it counted. Only the state tells whether
there was anything to count. -/
theorem loop_values (limits : Limits) (limit : Int) (chars : List Char) :
    ∃ state, (parser limits).loop Observer.blind (chars.length + 1) chars.length
        ⟨.between [] chars Machine.initialState [], ⟨limit, 0⟩, ()⟩ =
      .returned () ⟨.between chars [] state (chars.take limit.toNat).reverse,
        ⟨limit, chars.length⟩, ()⟩ := by
  cases chars with
  | nil =>
      refine ⟨Machine.initialState, ?_⟩
      rw [Parser.loop_of_length_le _ _ _ (Nat.le_refl 0), List.take_nil]
      rfl
  | cons c rest =>
      have hstart : (parser limits).Leads Observer.blind (c :: rest).length 1
          ⟨.between [] (c :: rest) Machine.initialState [], ⟨limit, 0⟩, ()⟩ _ :=
        leads_start (Nat.succ_pos _)
      have hall := hstart.trans (leads_values (Nat.le_of_eq (Nat.zero_add _)))
      have hend : (c :: rest).length ≤ (standing limit (c :: rest) []).machine.pointer :=
        Nat.le_refl _
      refine ⟨inValue, ?_⟩
      rw [hall.loop_eq (by omega), List.nil_append, Parser.loop_of_length_le _ _ _ hend]
      rfl

end Calls

section Parses

variable {ρ : Type} (observer : Observer ρ) {limits : Limits} {text : String} (run : Run Quota ρ)

theorem parse_admitted (hl : limits.Admits text.length) :
    ∃ ended, parse observer limits text run =
        .returned (.ofList (text.toList.take run.memory.limit.toNat)) ended ∧
      ended.memory = ⟨run.memory.limit, text.length⟩ := by
  obtain ⟨state, hloop⟩ := loop_values limits run.memory.limit text.toList
  have hblind : (parser limits).parse Observer.blind (text.length + 1) text
      ⟨.initial, ⟨run.memory.limit, 0⟩, ()⟩ =
      .returned (.ofList (text.toList.take run.memory.limit.toNat))
        ⟨.between text.toList [] state (text.toList.take run.memory.limit.toNat).reverse,
          ⟨run.memory.limit, text.length⟩, ()⟩ := by
    rw [Parser.parse, Parser.parseWith_admitted _ _ hl, ← String.length_toList,
      ← Machine.output_between text.toList [] state]
    exact congrArg (Outcome.andThen · _) hloop
  have hforget := (parser limits).forget_parse_eq observer Observer.blind (text.length + 1) text
    { run with memory := run.memory.reset } ⟨.initial, ⟨run.memory.limit, 0⟩, ()⟩ rfl
  rw [hblind] at hforget
  obtain ⟨journal, hparse⟩ := Outcome.forget_eq_returned_iff.mp hforget
  exact ⟨_, hparse, rfl⟩

theorem parse_rejected {bound : Nat} (hl : limits.maxInputLength = some bound)
    (hlong : bound < text.length) :
    ∃ ended, parse observer limits text run =
        .raised (.parse (.inputTooLarge text.length bound)) ended ∧
      ended.memory = ⟨run.memory.limit, 0⟩ := by
  have hexceeded := (limits.exceeded?_eq_some_iff text.length bound).mpr ⟨hl, hlong⟩
  exact ⟨_, (parser limits).parseWith_rejected observer hexceeded _, rfl⟩

/-- The limit is kept by every parse, and none runs out of its bound. -/
theorem parse_keeps_limit (limits : Limits) (text : String) :
    ∃ ended, ((∃ output, parse observer limits text run = .returned output ended) ∨
        ∃ fault, parse observer limits text run = .raised fault ended) ∧
      ended.memory.limit = run.memory.limit := by
  cases hl : limits.exceeded? text.length with
  | none =>
      have hadmits := (limits.exceeded?_eq_none_iff text.length).mp hl
      obtain ⟨ended, hparse, hmemory⟩ := parse_admitted observer run hadmits
      exact ⟨ended, Or.inl ⟨_, hparse⟩, by rw [hmemory]⟩
  | some bound =>
      obtain ⟨hbound, hlong⟩ := (limits.exceeded?_eq_some_iff text.length bound).mp hl
      obtain ⟨ended, hparse, hmemory⟩ := parse_rejected observer run hbound hlong
      exact ⟨ended, Or.inr ⟨_, hparse⟩, by rw [hmemory]⟩

/-- Neither the count nor anything else that was found matters beside the limit. -/
theorem forget_parse_eq_of_limit (text : String) {other : Run Quota ρ}
    (h : other.memory.limit = run.memory.limit) :
    (parse observer limits text other).forget = (parse observer limits text run).forget := by
  have hreset : other.memory.reset = run.memory.reset := by
    unfold Quota.reset
    rw [h]
  exact (parser limits).forget_parse_eq observer observer _ text _ _ hreset

end Parses

/-- What can be done with a truncation. The limit and the count may be set to any integer. -/
inductive Operation where
  | parse (text : String)
  | setLimit (limit : Int)
  | setCount (count : Int)
  | reset
  deriving DecidableEq, Repr

/-- The limit after an operation that found this one. -/
def Operation.limitAfter (limit : Int) : Operation → Int
  | .setLimit assigned => assigned
  | _ => limit

section Operations

variable {ρ : Type} (observer : Observer ρ) (limits : Limits)

/-- What an operation leaves. A parse that raises leaves what it has reached. -/
def perform (run : Run Quota ρ) : Operation → Run Quota ρ
  | .parse text =>
      match Truncation.parse observer limits text run with
      | .returned _ ended => ended
      | .raised _ ended => ended
      | .exhausted => run
  | .setLimit limit => { run with memory := { run.memory with limit := limit } }
  | .setCount count => { run with memory := { run.memory with count := count } }
  | .reset => { run with memory := run.memory.reset }

/-- What a history of operations leaves, the earliest first. -/
def performAll (run : Run Quota ρ) (history : List Operation) : Run Quota ρ :=
  history.foldl (perform observer limits) run

theorem limit_perform (run : Run Quota ρ) (operation : Operation) :
    (perform observer limits run operation).memory.limit =
      operation.limitAfter run.memory.limit := by
  cases operation with
  | parse text =>
      obtain ⟨ended, hends, hlimit⟩ := parse_keeps_limit observer run limits text
      rcases hends with ⟨output, hparse⟩ | ⟨fault, hparse⟩
      · rw [perform, hparse]
        exact hlimit
      · rw [perform, hparse]
        exact hlimit
  | setLimit limit => rfl
  | setCount count => rfl
  | reset => rfl

/-- The limit is the one last assigned, whatever was parsed. -/
theorem limit_performAll (run : Run Quota ρ) (history : List Operation) :
    (performAll observer limits run history).memory.limit =
      history.foldl Operation.limitAfter run.memory.limit := by
  unfold performAll
  induction history generalizing run with
  | nil => rfl
  | cons operation rest ih =>
      rw [List.foldl_cons, List.foldl_cons, ih, limit_perform]

end Operations

theorem ofLimit_eq_ok {limit : Int} (h : 0 ≤ limit) : Quota.ofLimit limit = .ok ⟨limit, 0⟩ := by
  rw [Quota.ofLimit, if_neg (Int.not_lt.mpr h)]

/-- As many characters as both the limit and the text allow. -/
theorem take_limit (limit : Int) (chars : List Char) :
    chars.take (min (max limit 0) chars.length).toNat = chars.take limit.toNat := by
  have hmin : (min (max limit 0) (chars.length : Int)).toNat = min limit.toNat chars.length := by
    omega
  rw [hmin, ← List.take_take, List.take_length]

/-- After any history a truncation has the limit that was last assigned to it. A text within the
parser's own limit is cut to that many characters and counted; any other is refused and nothing is
counted. Both leave the limit alone, and both are the same whatever else was found. -/
theorem parse_obeys_limit {ρ : Type} (observer : Observer ρ) (limits : Limits) (limit : Int)
    (hlimit : 0 ≤ limit) (journal : ρ) :
    ∃ quota, Quota.ofLimit limit = .ok quota ∧ ∀ (history : List Operation) (run : Run Quota ρ),
      run = performAll observer limits (.fresh quota journal) history →
      run.memory.limit = history.foldl Operation.limitAfter limit ∧
      ∀ text : String,
        (limits.Admits text.length → ∃ ended, parse observer limits text run =
            .returned (.ofList (text.toList.take
              (min (max run.memory.limit 0) text.length).toNat)) ended ∧
          ended.memory = ⟨run.memory.limit, text.length⟩) ∧
        (∀ bound, limits.maxInputLength = some bound → bound < text.length →
          ∃ ended, parse observer limits text run =
              .raised (.parse (.inputTooLarge text.length bound)) ended ∧
            ended.memory = ⟨run.memory.limit, 0⟩) ∧
        ∀ other : Run Quota ρ, other.memory.limit = run.memory.limit →
          (parse observer limits text other).forget = (parse observer limits text run).forget := by
  refine ⟨⟨limit, 0⟩, ofLimit_eq_ok hlimit, ?_⟩
  rintro history run rfl
  refine ⟨limit_performAll observer limits _ history, fun text => ⟨?_, ?_, ?_⟩⟩
  · intro hl
    rw [← String.length_toList, take_limit, String.length_toList]
    exact parse_admitted observer _ hl
  · intro bound hbound hlong
    exact parse_rejected observer _ hbound hlong
  · intro other hother
    exact forget_parse_eq_of_limit observer _ text hother

/-- A limit below zero, a stale count and a refused text leave no trace. -/
theorem parse_obeys_last_limit :
    (0 : Int) ≤ 9 ∧ ∃ ended,
      parse Observer.log ⟨some 5, by decide⟩ "héllo"
        (performAll Observer.log ⟨some 5, by decide⟩ (.fresh ⟨9, 0⟩ [])
          [.setLimit (-3), .parse "abc", .setCount 7, .parse "longer", .setLimit 2]) =
        .returned "hé" ended ∧ ended.memory = ⟨2, 5⟩ := by
  have hlimit : (0 : Int) ≤ 9 := by decide
  obtain ⟨quota, hquota, hall⟩ :=
    parse_obeys_limit Observer.log ⟨some 5, by decide⟩ 9 hlimit []
  cases hquota
  obtain ⟨hlast, hparse⟩ :=
    hall [.setLimit (-3), .parse "abc", .setCount 7, .parse "longer", .setLimit 2] _ rfl
  obtain ⟨ended, hreturned, hmemory⟩ := (hparse "héllo").1 (by decide)
  rw [hlast] at hreturned hmemory
  exact ⟨hlimit, ended, hreturned, hmemory⟩

end CharMachine.Truncation
