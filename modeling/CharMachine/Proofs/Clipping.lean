import CharMachine.Proofs.JsonLayout
import Mathlib.Data.List.Forall2

/-!
# What clipping shows and what it hides

A formatter with `sanitize` on clips the message and the hint of a diagnostic, and every layout
writes the clipped texts in the place of the others. So a sanitized text is the plain text of
another diagnostic, `Formatter.presented`, and all that can be said about sanitizing is said about
that diagnostic.

Main statements: under a bound that is not negative, nothing beyond the bound can be told from the
written text. What is shown of a text is within the bound, unless the bound is negative and takes
less than the whole text away. A negative bound takes characters from the end, and however many are
left are shown.
-/

namespace CharMachine

namespace Formatter

section Clip

variable {bound : Int} {s : String}

theorem clip_of_lt (h : bound < s.length) :
    clip bound s = String.ofList (s.toList.take (keptLength bound s.length)) ++ "..." := by
  rw [clip, if_pos h]

theorem clip_of_le (h : (s.length : Int) ≤ bound) : clip bound s = s := by
  rw [clip, if_neg (Int.not_lt.mpr h)]

theorem clip_ne_empty (bound : Int) (h : s ≠ "") : clip bound s ≠ "" := by
  by_cases hlt : bound < s.length
  · rw [clip_of_lt hlt]
    intro hempty
    have hdots := congrArg String.length hempty
    rw [String.length_append] at hdots
    have hthree : "...".length = 3 := rfl
    have hzero : "".length = 0 := rfl
    omega
  · rw [clip_of_le (Int.not_lt.mp hlt)]
    exact h

end Clip

/-! ## Presented diagnostics -/

variable (formatter : Formatter) (diagnostic : Diagnostic)

/-- The same formatter, writing texts in full. -/
def unclipped : Formatter := { formatter with sanitize := false }

/-- The diagnostic with its message and hint as this formatter shows them. -/
def presented : Diagnostic :=
  { diagnostic with
    message := formatter.content diagnostic.message
    hint := formatter.hint? diagnostic }

theorem content_eq_clip (h : formatter.sanitize = true) (s : String) :
    formatter.content s = clip formatter.maxContentLength s := by
  rw [content, if_pos h]

/-- Clipping never makes a text disappear. -/
theorem content_ne_empty {s : String} (h : s ≠ "") : formatter.content s ≠ "" := by
  rw [content]
  split
  · exact clip_ne_empty _ h
  · exact h

theorem hint?_presented :
    formatter.unclipped.hint? (formatter.presented diagnostic) = formatter.hint? diagnostic := by
  have hkept : (formatter.hint? diagnostic).filter (· ≠ "") = formatter.hint? diagnostic := by
    cases hhint : formatter.hint? diagnostic with
    | none => rfl
    | some shown =>
        obtain ⟨hint, hstated, rfl⟩ := Option.map_eq_some_iff.mp hhint
        have hne : hint ≠ "" := of_decide_eq_true (Option.filter_eq_some_iff.mp hstated).2
        exact filter_hint (formatter.content_ne_empty hne)
  show ((formatter.hint? diagnostic).filter (· ≠ "")).map id = formatter.hint? diagnostic
  rw [hkept, Option.map_id_fun, id]

/-- Every layout writes a diagnostic as it writes the presented one in full. -/
theorem format_presented :
    formatter.unclipped.format (formatter.presented diagnostic) = formatter.format diagnostic := by
  have hhint := formatter.hint?_presented diagnostic
  have hlayout : formatter.unclipped.layout = formatter.layout := rfl
  rw [format, format, hlayout]
  cases formatter.layout with
  | rust =>
      rw [annotatedLines, annotatedLines, hhint]
      rfl
  | simple => rfl
  | json =>
      rw [fields, fields, hhint]
      rfl

end Formatter

/-! ## Texts that differ beyond a bound -/

/-- Two texts that are equal, or both go on beyond the same first `bound` characters. -/
def AgreeWithin (bound : Nat) (s t : String) : Prop :=
  s = t ∨ bound < s.length ∧ bound < t.length ∧ s.toList.take bound = t.toList.take bound

/-- Two diagnostics whose messages and hints differ beyond `bound` characters only, and that have
all else in common. -/
structure Diagnostic.DifferBeyond (bound : Nat) (diagnostic other : Diagnostic) : Prop where
  code : diagnostic.code = other.code
  severity : diagnostic.severity = other.severity
  span : diagnostic.span = other.span
  message : AgreeWithin bound diagnostic.message other.message
  hint : Option.Rel (AgreeWithin bound) diagnostic.hint other.hint

namespace AgreeWithin

variable {bound : Nat} {s t : String}

theorem eq_empty_iff (h : AgreeWithin bound s t) : s = "" ↔ t = "" := by
  rcases h with rfl | ⟨hs, ht, -⟩
  · rfl
  · constructor
    · rintro rfl
      exact absurd hs (Nat.not_lt_zero bound)
    · rintro rfl
      exact absurd ht (Nat.not_lt_zero bound)

theorem clip_eq (h : AgreeWithin bound s t) :
    Formatter.clip bound s = Formatter.clip bound t := by
  rcases h with rfl | ⟨hs, ht, hsame⟩
  · rfl
  · have hkept (length : Nat) : Formatter.keptLength bound length = bound := by
      rw [Formatter.keptLength, if_pos (Int.natCast_nonneg bound), Int.toNat_natCast]
    rw [Formatter.clip_of_lt (Int.ofNat_lt.mpr hs), Formatter.clip_of_lt (Int.ofNat_lt.mpr ht),
      hkept, hkept, hsame]

end AgreeWithin

namespace Formatter

variable {formatter : Formatter} {bound : Nat}

section Hiding

variable (hsanitize : formatter.sanitize = true) (hbound : formatter.maxContentLength = bound)
include hsanitize hbound

theorem content_eq_of_agree {s t : String} (h : AgreeWithin bound s t) :
    formatter.content s = formatter.content t := by
  rw [content_eq_clip _ hsanitize, content_eq_clip _ hsanitize, hbound]
  exact h.clip_eq

theorem hint?_eq_of_agree {diagnostic other : Diagnostic}
    (h : Option.Rel (AgreeWithin bound) diagnostic.hint other.hint) :
    formatter.hint? diagnostic = formatter.hint? other := by
  rw [hint?, hint?]
  generalize diagnostic.hint = first at h ⊢
  generalize other.hint = second at h ⊢
  cases h with
  | none => rfl
  | @some s t hagree =>
      -- A hint is left out if it is empty before it is clipped. Both of these are, or neither is.
      by_cases hs : s = ""
      · have ht := hagree.eq_empty_iff.mp hs
        rw [hs, ht]
      · have ht : t ≠ "" := fun e => hs (hagree.eq_empty_iff.mpr e)
        rw [filter_hint hs, filter_hint ht, Option.map_some, Option.map_some,
          content_eq_of_agree hsanitize hbound hagree]

/-- Diagnostics that differ beyond the bound only are presented as the same one. -/
theorem presented_eq_of_differBeyond {diagnostic other : Diagnostic}
    (h : diagnostic.DifferBeyond bound other) :
    formatter.presented diagnostic = formatter.presented other := by
  rw [presented, presented, h.code, h.severity, h.span,
    content_eq_of_agree hsanitize hbound h.message, hint?_eq_of_agree hsanitize hbound h.hint]

theorem format_eq_of_differBeyond {diagnostic other : Diagnostic}
    (h : diagnostic.DifferBeyond bound other) :
    formatter.format diagnostic = formatter.format other := by
  calc formatter.format diagnostic
      = formatter.unclipped.format (formatter.presented diagnostic) :=
        (formatter.format_presented diagnostic).symm
    _ = formatter.unclipped.format (formatter.presented other) := by
        rw [presented_eq_of_differBeyond hsanitize hbound h]
    _ = formatter.format other := formatter.format_presented other

end Hiding

/-- What stands beyond the bound in a message or a hint makes no difference to any layout, whether
diagnostics are written one by one or together. -/
theorem clipping_hides_beyond_bound (formatter : Formatter) (bound : Nat)
    (hsanitize : formatter.sanitize = true) (hbound : formatter.maxContentLength = bound) :
    (∀ diagnostic other : Diagnostic, diagnostic.DifferBeyond bound other →
      formatter.format diagnostic = formatter.format other) ∧
    ∀ diagnostics others : List Diagnostic,
      List.Forall₂ (Diagnostic.DifferBeyond bound) diagnostics others →
        formatter.formatAll diagnostics = formatter.formatAll others := by
  have hone : ∀ diagnostic other : Diagnostic, diagnostic.DifferBeyond bound other →
      formatter.format diagnostic = formatter.format other :=
    fun _ _ => format_eq_of_differBeyond hsanitize hbound
  refine ⟨hone, ?_⟩
  intro diagnostics others hall
  rw [formatAll, formatAll]
  congr 1
  induction hall with
  | nil => rfl
  | cons hfirst _ ih => rw [List.map_cons, List.map_cons, hone _ _ hfirst, ih]

/-- Two diagnostics with the same beginnings. Both messages are cut before a character that would
have to be escaped, and both hints behind several. -/
theorem clipping_hides_secret :
    let formatter : Formatter := { layout := .json, sanitize := true, maxContentLength := 3 }
    let first : Diagnostic :=
      { code := .unknownState, message := "key\" 1", hint := some "\n\n\n?", severity := "note" }
    let second : Diagnostic := { first with message := "key\\", hint := some "\n\n\nlonger" }
    first.DifferBeyond 3 second ∧ second.DifferBeyond 3 first ∧
    formatter.format first = "\x7b\"code\": \"UNKNOWN_STATE\", \"code_value\": 1001, "
      ++ "\"message\": \"key...\", \"severity\": \"note\", \"hint\": \"\\n\\n\\n...\"\x7d" ∧
    formatter.format first = formatter.format second ∧
    formatter.formatAll [first, second] = formatter.formatAll [second, first] := by
  intro formatter first second
  have hfirst : first.DifferBeyond 3 second :=
    ⟨rfl, rfl, rfl, Or.inr (by decide), .some (Or.inr (by decide))⟩
  have hsecond : second.DifferBeyond 3 first :=
    ⟨rfl, rfl, rfl, Or.inr (by decide), .some (Or.inr (by decide))⟩
  obtain ⟨hone, hall⟩ := clipping_hides_beyond_bound formatter 3 rfl rfl
  exact ⟨hfirst, hsecond, by decide +kernel, hone first second hfirst,
    hall _ _ (.cons hfirst (.cons hsecond .nil))⟩

end Formatter

/-! ## Texts under a bound of either sign -/

/-- What is shown of a text is within the bound: it is the text itself, if that is short enough, or
a short enough beginning of it with dots behind. A negative bound counts as none at all. -/
def FitsBound (bound : Int) (s shown : String) : Prop :=
  (shown = s ∧ (s.length : Int) ≤ max bound 0) ∨
    ∃ kept, kept <+: s.toList ∧ (kept.length : Int) ≤ max bound 0 ∧
      shown = String.ofList kept ++ "..."

/-- What is shown of a text under a bound of either sign, and when it is within the bound. A bound
that is not negative counts the characters that are kept, a negative one those that are dropped. -/
structure ShownUnder (bound : Int) (s shown : String) : Prop where
  shown_eq : (shown = s ∧ (s.length : Int) ≤ bound) ∨
    ∃ kept dropped, s.toList = kept ++ dropped ∧ shown = String.ofList kept ++ "..." ∧
      bound < s.length ∧ (0 ≤ bound → (kept.length : Int) = bound) ∧
      (bound < 0 → (dropped.length : Int) = min (-bound) s.length)
  fits_iff : FitsBound bound s shown ↔ 0 ≤ bound ∨ (s.length : Int) ≤ -bound

namespace Formatter

variable {bound : Int} {s : String}

theorem length_take_keptLength (h : bound < s.length) :
    ((s.toList.take (keptLength bound s.length)).length : Int) =
      if 0 ≤ bound then bound else max (s.length + bound) 0 := by
  rw [List.length_take, String.length_toList, keptLength]
  split <;> omega

/-- A clipped text fits the bound if the characters that are kept of it do. -/
theorem fitsBound_clip_iff_of_lt (h : bound < s.length) :
    FitsBound bound s (clip bound s) ↔
      ((s.toList.take (keptLength bound s.length)).length : Int) ≤ max bound 0 := by
  rw [clip_of_lt h]
  constructor
  · rintro (⟨hsame, hshort⟩ | ⟨kept, -, hshort, hshown⟩)
    · -- A text that is too long for the bound and fits it is empty, and dots are not.
      have hlength := congrArg String.length hsame
      rw [String.length_append] at hlength
      have hthree : "...".length = 3 := rfl
      omega
    · have hkept := String.ofList_inj.mp ((String.append_left_inj "...").mp hshown)
      rwa [hkept]
  · intro hshort
    exact Or.inr ⟨_, List.take_prefix _ _, hshort, rfl⟩

theorem fitsBound_clip_iff :
    FitsBound bound s (clip bound s) ↔ 0 ≤ bound ∨ (s.length : Int) ≤ -bound := by
  by_cases h : bound < s.length
  · rw [fitsBound_clip_iff_of_lt h, length_take_keptLength h]
    split <;> omega
  · have hnonneg : 0 ≤ bound := by omega
    rw [clip_of_le (Int.not_lt.mp h)]
    exact ⟨fun _ => Or.inl hnonneg, fun _ => Or.inl ⟨rfl, by omega⟩⟩

theorem shownUnder_clip (bound : Int) (s : String) : ShownUnder bound s (clip bound s) := by
  refine ⟨?_, fitsBound_clip_iff⟩
  by_cases h : bound < s.length
  · have hkept := length_take_keptLength h
    have hsplit := List.take_append_drop (keptLength bound s.length) s.toList
    have hlength := congrArg List.length hsplit
    rw [List.length_append, String.length_toList] at hlength
    refine Or.inr ⟨_, _, hsplit.symm, clip_of_lt h, h, ?_, ?_⟩
    · intro hnonneg
      rw [hkept, if_pos hnonneg]
    · intro hnegative
      rw [if_neg (Int.not_le.mpr hnegative)] at hkept
      omega
  · have hle := Int.not_lt.mp h
    exact Or.inl ⟨clip_of_le hle, hle⟩

/-- Each layout of a sanitized diagnostic is what that layout makes of a diagnostic with another
message and hint. Both are what the bound leaves of the original ones, and they are within the bound
exactly if it is not negative or leaves nothing of them. -/
theorem clipping_within_bound_iff (formatter : Formatter) (hsanitize : formatter.sanitize = true)
    (diagnostic : Diagnostic) :
    ∃ message hint,
      formatter.format diagnostic =
        formatter.unclipped.format { diagnostic with message := message, hint := hint } ∧
      ShownUnder formatter.maxContentLength diagnostic.message message ∧
      Option.Rel (ShownUnder formatter.maxContentLength) diagnostic.statedHint hint := by
  refine ⟨_, _, (formatter.format_presented diagnostic).symm, ?_, ?_⟩
  · rw [content_eq_clip _ hsanitize]
    exact shownUnder_clip _ _
  · rw [hint?_eq]
    cases diagnostic.statedHint with
    | none => exact .none
    | some hint =>
        rw [Option.map_some, content_eq_clip _ hsanitize]
        exact .some (shownUnder_clip _ _)

/-- A negative bound that leaves four characters of the message and nothing of the hint. -/
theorem clipping_within_bound_negative :
    let formatter : Formatter := { sanitize := true, maxContentLength := -2 }
    let diagnostic : Diagnostic := { code := .unknownState, message := "secret", hint := some "no" }
    formatter.sanitize = true ∧
    formatter.format diagnostic = "error[UNKNOWN_STATE]: secr...\n  = help: ..." ∧
    ∃ message hint,
      formatter.format diagnostic =
        formatter.unclipped.format { diagnostic with message := message, hint := hint } ∧
      ¬ FitsBound (-2) "secret" message ∧ Option.Rel (FitsBound (-2)) (some "no") hint := by
  intro formatter diagnostic
  obtain ⟨message, hint, hformat, hmessage, hhint⟩ :=
    clipping_within_bound_iff formatter rfl diagnostic
  have hstated : diagnostic.statedHint = some "no" := by decide
  rw [hstated] at hhint
  refine ⟨rfl, by decide +kernel, message, hint, hformat, ?_, ?_⟩
  · intro hfits
    exact absurd (hmessage.fits_iff.mp hfits) (by decide)
  · cases hhint with
    | some hshown => exact .some (hshown.fits_iff.mpr (by decide))

/-- A sanitized diagnostic can show more than the bound: with the bound one below zero, all but the
last character of its message. -/
theorem negative_bound_not_within :
    ¬ ∀ (formatter : Formatter) (diagnostic : Diagnostic), formatter.sanitize = true →
      ∃ message hint,
        formatter.format diagnostic =
          formatter.unclipped.format { diagnostic with message := message, hint := hint } ∧
        FitsBound formatter.maxContentLength diagnostic.message message ∧
        Option.Rel (FitsBound formatter.maxContentLength) diagnostic.statedHint hint := by
  intro hall
  obtain ⟨message, hint, hformat, hfits, -⟩ :=
    hall { layout := .simple, sanitize := true, maxContentLength := -1 }
      { code := .unknownState, message := "secret" } rfl
  -- The plain layout gives the message away: it is what stands behind the code.
  have hplain : "UNKNOWN_STATE: " ++ "secre..." = "UNKNOWN_STATE: " ++ message :=
    (by decide +kernel : _ = _).trans hformat
  obtain rfl := (String.append_right_inj _).mp hplain
  rcases hfits with ⟨-, hshort⟩ | ⟨kept, -, hshort, hshown⟩
  · exact absurd hshort (by decide)
  · have hnone : (kept.length : Int) ≤ 0 := hshort
    have hnil : kept = [] := List.eq_nil_of_length_eq_zero (by omega)
    rw [hnil] at hshown
    exact absurd hshown (by decide)

end Formatter

end CharMachine
