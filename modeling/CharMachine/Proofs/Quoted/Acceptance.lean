import CharMachine.Proofs.Quoted.Verdict

/-!
# Which texts are quoted strings

Both sides of the table's answer, said of the text alone. Accepted are the empty text, an opening
quote with a body, and the same with a closing quote; the state at the end tells the three apart.
Refused is everything else, for one of three reasons, and the reason fixes the error with its
position. The statements hold for every observer and whatever was parsed before.
-/

namespace CharMachine.Quoted

/-- An opening quote and a body, and no closing quote. -/
structure IsUnclosed (chars body : List Char) : Prop where
  isBody : IsBody body
  chars_eq : chars = delimiter :: body

/-- A body between an opening and a closing quote. -/
structure IsClosed (chars body : List Char) : Prop where
  isBody : IsBody body
  chars_eq : chars = delimiter :: (body ++ [delimiter])

/-- Something stands where the opening quote should. -/
structure IsMisled (chars : List Char) : Prop where
  ne_nil : chars ≠ []
  stray : chars.head? ≠ some delimiter

/-- After the body comes a backslash that escapes nothing. -/
structure HasLoneMark (chars body rest : List Char) : Prop where
  isBody : IsBody body
  lone : rest.head? ≠ some delimiter
  chars_eq : chars = delimiter :: (body ++ escapeMark :: rest)

/-- Something comes after the closing quote. -/
structure IsTrailed (chars body rest : List Char) : Prop where
  isBody : IsBody body
  ne_nil : rest ≠ []
  chars_eq : chars = delimiter :: (body ++ delimiter :: rest)

/-- Where trailing characters are noticed: on the first of them if it is the only one, and
otherwise on the second. -/
def trailingPosition (body rest : List Char) : Nat :=
  if rest.length = 1 then body.length + 2 else body.length + 3

/-- The error of a backslash that escapes nothing, with the span of its position. -/
def escapeFault (text : String) (position : Nat) : Fault :=
  .parse (.invalidEscape position ((Text.ofString text).spanAt position))

def trailingFault (text : String) (position : Nat) : Fault :=
  .parse (.invalidTrailing position ((Text.ofString text).spanAt position))

section Shapes

variable {chars body body' rest rest' : List Char}

theorem IsUnclosed.shape_eq (h : IsUnclosed chars body) :
    chars = (Shape.opened body h.isBody .atEnd).chars := by
  have hchars := h.chars_eq
  rwa [← List.append_nil body] at hchars

theorem IsMisled.shape_eq (h : IsMisled chars) :
    ∃ first rest stray, chars = (Shape.misled first rest stray).chars := by
  obtain ⟨hne, hstray⟩ := h
  cases chars with
  | nil => exact absurd rfl hne
  | cons first rest => exact ⟨first, rest, fun e => hstray (congrArg some e), rfl⟩

theorem IsUnclosed.not_isClosed (h : IsUnclosed chars body) : ¬ IsClosed chars body' := by
  intro h'
  have hchars : (Shape.opened body h.isBody .atEnd).chars =
      (Shape.opened body' h'.isBody (.quote [])).chars := h.shape_eq.symm.trans h'.chars_eq
  cases Shape.chars_injective hchars

theorem IsUnclosed.unique (h : IsUnclosed chars body) (h' : IsUnclosed chars body') :
    body = body' :=
  (List.cons.inj (h.chars_eq.symm.trans h'.chars_eq)).2

theorem IsClosed.unique (h : IsClosed chars body) (h' : IsClosed chars body') : body = body' := by
  have hchars := (List.cons.inj (h.chars_eq.symm.trans h'.chars_eq)).2
  exact List.append_cancel_right hchars

theorem IsMisled.not_opened (h : IsMisled chars) (rest : List Char) : chars ≠ delimiter :: rest := by
  rintro rfl
  exact h.stray rfl

theorem HasLoneMark.not_isTrailed (h : HasLoneMark chars body rest) :
    ¬ IsTrailed chars body' rest' := by
  intro h'
  have hchars : (Shape.opened body h.isBody (.mark rest h.lone)).chars =
      (Shape.opened body' h'.isBody (.quote rest')).chars := h.chars_eq.symm.trans h'.chars_eq
  cases Shape.chars_injective hchars

end Shapes

section Verdicts

variable {ρ α : Type} {verdict : Verdict} {outcome : Outcome Unit ρ α} {value : α}

theorem returned_iff_of_forget (h : outcome.forget = verdict.outcome value ()) (output : α)
    (state : Int) :
    (∃ ended, outcome = .returned output ended ∧ ended.machine.state = state) ↔
      verdict.fault? = none ∧ output = value ∧ state = verdict.machine.state := by
  unfold Verdict.outcome at h
  cases hf : verdict.fault? with
  | none =>
      rw [hf] at h
      obtain ⟨journal, rfl⟩ := Outcome.forget_eq_returned_iff.mp h
      constructor
      · intro hends
        obtain ⟨ended, hret, rfl⟩ := hends
        cases hret
        exact ⟨rfl, rfl, rfl⟩
      · intro hverdict
        obtain ⟨-, rfl, rfl⟩ := hverdict
        exact ⟨_, rfl, rfl⟩
  | some fault =>
      rw [hf] at h
      obtain ⟨journal, rfl⟩ := Outcome.forget_eq_raised_iff.mp h
      constructor
      · intro hends
        obtain ⟨ended, hret, -⟩ := hends
        cases hret
      · intro hverdict
        obtain ⟨hnone, -⟩ := hverdict
        cases hnone

theorem raised_iff_of_forget (h : outcome.forget = verdict.outcome value ()) (fault : Fault) :
    (∃ ended, outcome = .raised fault ended) ↔ verdict.fault? = some fault := by
  unfold Verdict.outcome at h
  cases hf : verdict.fault? with
  | none =>
      rw [hf] at h
      obtain ⟨journal, rfl⟩ := Outcome.forget_eq_returned_iff.mp h
      constructor
      · intro hends
        obtain ⟨ended, hraise⟩ := hends
        cases hraise
      · intro hsome
        cases hsome
  | some fault' =>
      rw [hf] at h
      obtain ⟨journal, rfl⟩ := Outcome.forget_eq_raised_iff.mp h
      constructor
      · intro hends
        obtain ⟨ended, hraise⟩ := hends
        cases hraise
        rfl
      · intro hsome
        cases hsome
        exact ⟨_, rfl⟩

end Verdicts

section Parses

variable {ρ : Type} (observer : Observer ρ) {limits : Limits} {text : String} (run : Run Unit ρ)

/-- The accepted texts, each with what it decodes to and the state in which it ends. -/
theorem parse_returned_iff (hl : limits.Admits text.length) (output : String) (state : Int) :
    (∃ ended, parse observer limits text run = .returned output ended ∧
        ended.machine.state = state) ↔
      (text = "" ∧ output = "" ∧ state = State.unknown.value) ∨
      (∃ body, IsUnclosed text.toList body ∧ output = String.ofList (decode body) ∧
        state = State.inside.value) ∨
      (∃ body, IsClosed text.toList body ∧ output = String.ofList (decode body) ∧
        state = State.left.value) := by
  constructor
  · intro h
    obtain ⟨shape, ht⟩ := Shape.exists_chars_eq text.toList
    have hforget := forget_parse observer shape ht.symm hl run
    obtain ⟨hf, rfl, rfl⟩ := (returned_iff_of_forget hforget output state).mp h
    match shape with
    | .empty => exact Or.inl ⟨String.toList_eq_nil_iff.mp ht.symm, rfl, rfl⟩
    | .misled _ _ _ => cases hf
    | .opened body hb .atEnd =>
        have hunclosed : IsUnclosed text.toList body := by
          refine ⟨hb, ?_⟩
          rw [← ht, Shape.chars, Stop.chars, List.append_nil]
        exact Or.inr (Or.inl ⟨body, hunclosed, Machine.output_between _ _ _ _, rfl⟩)
    | .opened body hb (.quote []) =>
        have hclosed : IsClosed text.toList body := ⟨hb, ht.symm⟩
        exact Or.inr (Or.inr ⟨body, hclosed, Machine.output_between _ _ _ _, rfl⟩)
    | .opened body hb (.quote [_]) => cases hf
    | .opened body hb (.quote (_ :: _ :: _)) => cases hf
    | .opened body hb (.mark _ _) => cases hf
  · intro h
    rcases h with ⟨rfl, rfl, rfl⟩ | ⟨body, hb, rfl, rfl⟩ | ⟨body, hb, rfl, rfl⟩
    · have hforget := forget_parse observer .empty rfl hl run
      exact (returned_iff_of_forget hforget _ _).mpr ⟨rfl, rfl, rfl⟩
    · have hforget := forget_parse observer _ hb.shape_eq hl run
      exact (returned_iff_of_forget hforget _ _).mpr
        ⟨rfl, (Machine.output_between _ _ _ _).symm, rfl⟩
    · have hforget :=
        forget_parse observer (.opened body hb.isBody (.quote [])) hb.chars_eq hl run
      exact (returned_iff_of_forget hforget _ _).mpr
        ⟨rfl, (Machine.output_between _ _ _ _).symm, rfl⟩

section Faults

variable {body rest : List Char}

theorem fault?_mark (lone : rest.head? ≠ some delimiter)
    (ht : text.toList = delimiter :: (body ++ escapeMark :: rest)) :
    ((Stop.mark rest lone).verdict body).fault? =
      some (escapeFault text (body.length + 1)) := by
  have hinput : Text.ofString text = .ofList (delimiter :: body ++ escapeMark :: rest) :=
    congrArg Text.ofList ht
  rw [escapeFault, hinput]
  rfl

theorem fault?_quote (hne : rest ≠ [])
    (ht : text.toList = delimiter :: (body ++ delimiter :: rest)) :
    ((Stop.quote rest).verdict body).fault? =
      some (trailingFault text (trailingPosition body rest)) := by
  match rest with
  | [] => exact absurd rfl hne
  | [c] =>
      have hinput : Text.ofString text = .ofList (delimiter :: body ++ [delimiter] ++ [c]) := by
        rw [Text.ofString, ht]
        simp
      have hp : trailingPosition body [c] = (delimiter :: body ++ [delimiter]).length := by
        simp [trailingPosition]
      rw [trailingFault, hinput, hp]
      rfl
  | c :: d :: rest =>
      have hinput : Text.ofString text =
          .ofList (delimiter :: body ++ [delimiter] ++ [c] ++ d :: rest) := by
        rw [Text.ofString, ht]
        simp
      have hp : trailingPosition body (c :: d :: rest) =
          (delimiter :: body ++ [delimiter] ++ [c]).length := by
        simp [trailingPosition]
      rw [trailingFault, hinput, hp]
      rfl

end Faults

/-- The refused texts, each with its error. -/
theorem parse_raised_iff (hl : limits.Admits text.length) (fault : Fault) :
    (∃ ended, parse observer limits text run = .raised fault ended) ↔
      (IsMisled text.toList ∧ fault = .parse .invalidLeading) ∨
      (∃ body rest, HasLoneMark text.toList body rest ∧
        fault = escapeFault text (body.length + 1)) ∨
      (∃ body rest, IsTrailed text.toList body rest ∧
        fault = trailingFault text (trailingPosition body rest)) := by
  constructor
  · intro h
    obtain ⟨shape, ht⟩ := Shape.exists_chars_eq text.toList
    have hforget := forget_parse observer shape ht.symm hl run
    have hf := (raised_iff_of_forget hforget fault).mp h
    match shape with
    | .empty => cases hf
    | .misled first rest stray =>
        cases hf
        have hmisled : IsMisled text.toList := by
          rw [← ht]
          exact ⟨List.cons_ne_nil _ _, fun e => stray (Option.some.inj e)⟩
        exact Or.inl ⟨hmisled, rfl⟩
    | .opened body hb .atEnd => cases hf
    | .opened body hb (.quote []) => cases hf
    | .opened body hb (.quote (c :: rest)) =>
        have hne : c :: rest ≠ [] := List.cons_ne_nil _ _
        have htrailed : IsTrailed text.toList body (c :: rest) := ⟨hb, hne, ht.symm⟩
        rw [Shape.verdict, fault?_quote hne ht.symm] at hf
        exact Or.inr (Or.inr ⟨body, c :: rest, htrailed, (Option.some.inj hf).symm⟩)
    | .opened body hb (.mark rest lone) =>
        have hmark : HasLoneMark text.toList body rest := ⟨hb, lone, ht.symm⟩
        rw [Shape.verdict, fault?_mark lone ht.symm] at hf
        exact Or.inr (Or.inl ⟨body, rest, hmark, (Option.some.inj hf).symm⟩)
  · intro h
    rcases h with ⟨hm, rfl⟩ | ⟨body, rest, hm, rfl⟩ | ⟨body, rest, hm, rfl⟩
    · obtain ⟨first, rest, stray, ht⟩ := hm.shape_eq
      have hforget := forget_parse observer _ ht hl run
      exact (raised_iff_of_forget hforget _).mpr rfl
    · have hforget :=
        forget_parse observer (.opened body hm.isBody (.mark rest hm.lone)) hm.chars_eq hl run
      exact (raised_iff_of_forget hforget _).mpr (fault?_mark hm.lone hm.chars_eq)
    · have hforget :=
        forget_parse observer (.opened body hm.isBody (.quote rest)) hm.chars_eq hl run
      exact (raised_iff_of_forget hforget _).mpr (fault?_quote hm.ne_nil hm.chars_eq)

theorem parse_returns_or_raises (hl : limits.Admits text.length) :
    (∃ output ended, parse observer limits text run = .returned output ended) ∨
      ∃ fault ended, parse observer limits text run = .raised fault ended := by
  obtain ⟨shape, ht⟩ := Shape.exists_chars_eq text.toList
  have hforget := forget_parse observer shape ht.symm hl run
  cases hf : shape.verdict.fault? with
  | none =>
      obtain ⟨ended, hparse, -⟩ := (returned_iff_of_forget hforget _ _).mpr ⟨hf, rfl, rfl⟩
      exact Or.inl ⟨_, ended, hparse⟩
  | some fault => exact Or.inr ⟨fault, (raised_iff_of_forget hforget fault).mpr hf⟩

end Parses

/-- The table accepts exactly its grammar and decodes it. The three accepted forms exclude one
another, and a text has one body at most. -/
theorem accepts_exactly_grammar {ρ : Type} (observer : Observer ρ) (limits : Limits)
    (run : Run Unit ρ) (text : String) (hl : limits.Admits text.length) :
    (∀ (output : String) (state : Int),
      (∃ ended, parse observer limits text run = .returned output ended ∧
          ended.machine.state = state) ↔
        (text = "" ∧ output = "" ∧ state = State.unknown.value) ∨
        (∃ body, IsUnclosed text.toList body ∧ output = String.ofList (decode body) ∧
          state = State.inside.value) ∨
        (∃ body, IsClosed text.toList body ∧ output = String.ofList (decode body) ∧
          state = State.left.value)) ∧
    (text = "" → ∀ body, ¬ IsUnclosed text.toList body ∧ ¬ IsClosed text.toList body) ∧
    (∀ body body', IsUnclosed text.toList body → ¬ IsClosed text.toList body') ∧
    (∀ body body', IsUnclosed text.toList body → IsUnclosed text.toList body' → body = body') ∧
    (∀ body body', IsClosed text.toList body → IsClosed text.toList body' → body = body') := by
  refine ⟨parse_returned_iff observer run hl, ?_, ?_, ?_, ?_⟩
  · rintro rfl body
    constructor
    · intro h
      cases h.chars_eq
    · intro h
      cases h.chars_eq
  · intro body body' h
    exact h.not_isClosed
  · intro body body' h h'
    exact h.unique h'
  · intro body body' h h'
    exact h.unique h'

/-- An escaped quote does not close the string, and the quote after it does. -/
theorem accepts_escaped_quote :
    Limits.standard.Admits "\"a\\\"b\"".length ∧
      ∃ ended, parse Observer.log .standard "\"a\\\"b\"" (.fresh () []) =
        .returned "a\"b" ended ∧ ended.machine.state = State.left.value := by
  have hl : Limits.standard.Admits "\"a\\\"b\"".length := by decide
  have hb : IsBody ['a', escapeMark, delimiter, 'b'] :=
    .plain (by decide) (.quote (.plain (by decide) .nil))
  exact ⟨hl, ((accepts_exactly_grammar _ _ _ _ hl).1 _ _).mpr
    (Or.inr (Or.inr ⟨_, ⟨hb, rfl⟩, rfl, rfl⟩))⟩

/-- A text that is not accepted has one of three defects, never two, and the defect fixes the
error. No other error is raised, the bound on calls is never reached, and every text with a defect
is refused for it. -/
theorem refuses_exactly_defects {ρ : Type} (observer : Observer ρ) (limits : Limits)
    (run : Run Unit ρ) (text : String) (hl : limits.Admits text.length) :
    (∀ fault : Fault,
      (∃ ended, parse observer limits text run = .raised fault ended) ↔
        (IsMisled text.toList ∧ fault = .parse .invalidLeading) ∨
        (∃ body rest, HasLoneMark text.toList body rest ∧
          fault = escapeFault text (body.length + 1)) ∨
        (∃ body rest, IsTrailed text.toList body rest ∧
          fault = trailingFault text (trailingPosition body rest))) ∧
    ((¬ ∃ output ended, parse observer limits text run = .returned output ended) →
      (IsMisled text.toList ∧ (¬ ∃ body rest, HasLoneMark text.toList body rest) ∧
        ¬ ∃ body rest, IsTrailed text.toList body rest) ∨
      (¬ IsMisled text.toList ∧ (∃ body rest, HasLoneMark text.toList body rest) ∧
        ¬ ∃ body rest, IsTrailed text.toList body rest) ∨
      (¬ IsMisled text.toList ∧ (¬ ∃ body rest, HasLoneMark text.toList body rest) ∧
        ∃ body rest, IsTrailed text.toList body rest)) ∧
    ((∃ output ended, parse observer limits text run = .returned output ended) ∨
      ∃ fault ended, parse observer limits text run = .raised fault ended) := by
  have htotal := parse_returns_or_raises observer run hl
  refine ⟨parse_raised_iff observer run hl, ?_, htotal⟩
  intro hrefused
  obtain ⟨fault, hraised⟩ := htotal.resolve_left hrefused
  rcases (parse_raised_iff observer run hl fault).mp hraised with
    ⟨hm, -⟩ | ⟨body, rest, hm, -⟩ | ⟨body, rest, hm, -⟩
  · refine Or.inl ⟨hm, ?_, ?_⟩
    · intro hex
      obtain ⟨body, rest, h⟩ := hex
      exact hm.not_opened _ h.chars_eq
    · intro hex
      obtain ⟨body, rest, h⟩ := hex
      exact hm.not_opened _ h.chars_eq
  · refine Or.inr (Or.inl ⟨?_, ⟨body, rest, hm⟩, ?_⟩)
    · intro h
      exact h.not_opened _ hm.chars_eq
    · intro hex
      obtain ⟨body', rest', h⟩ := hex
      exact hm.not_isTrailed h
  · refine Or.inr (Or.inr ⟨?_, ?_, ⟨body, rest, hm⟩⟩)
    · intro h
      exact h.not_opened _ hm.chars_eq
    · intro hex
      obtain ⟨body', rest', h⟩ := hex
      exact h.not_isTrailed hm

/-- Of two characters after the closing quote the second is reported. -/
theorem refuses_trailing_pair :
    Limits.standard.Admits "\"a\" b".length ∧
      ∃ ended, parse Observer.log .standard "\"a\" b" (.fresh () []) =
        .raised (trailingFault "\"a\" b" 4) ended := by
  have hl : Limits.standard.Admits "\"a\" b".length := by decide
  have ht : IsTrailed "\"a\" b".toList ['a'] [' ', 'b'] :=
    ⟨.plain (by decide) .nil, List.cons_ne_nil _ _, rfl⟩
  exact ⟨hl, ((refuses_exactly_defects _ _ _ _ hl).1 _).mpr
    (Or.inr (Or.inr ⟨_, _, ht, rfl⟩))⟩

end CharMachine.Quoted
