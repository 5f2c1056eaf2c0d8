import CharMachine.Proofs.Quoted.Composition
import CharMachine.Proofs.Quoted.Preimage

/-!
# Prefixes and extensions of a text

What a prefix of an accepted text gives, and what becomes of an error when more text follows. A
prefix of an accepted text is accepted, and its output is a prefix of the whole output, unless the
cut goes between an escape mark and its quote. An error stays with the text: what follows cannot
mend it, again unless it supplies the quote to a mark that was the last character. The position of
trailing characters moves by one when the only one of them is no longer the last.
-/

namespace CharMachine.Quoted

/-- The seam between two texts goes through an escaped quote. -/
def SplitsEscape (text more : String) : Prop :=
  text.toList.getLast? = some escapeMark ∧ more.toList.head? = some delimiter

/-- One character stands after the closing quote. -/
def TrailsByOne (text : String) : Prop := ∃ body c, IsTrailed text.toList body [c]

section Defects

variable {chars more body body' rest rest' : List Char}

theorem IsMisled.append (h : IsMisled chars) (more : List Char) : IsMisled (chars ++ more) where
  ne_nil e := h.ne_nil (List.append_eq_nil_iff.mp e).1
  stray := by
    cases chars with
    | nil => exact absurd rfl h.ne_nil
    | cons first rest => exact h.stray

theorem HasLoneMark.append (h : HasLoneMark chars body rest)
    (hlone : ¬ (rest = [] ∧ more.head? = some delimiter)) :
    HasLoneMark (chars ++ more) body (rest ++ more) where
  isBody := h.isBody
  lone := by
    cases rest with
    | nil => exact fun e => hlone ⟨rfl, e⟩
    | cons c rest => exact h.lone
  chars_eq := by
    rw [h.chars_eq, List.cons_append, List.append_assoc, List.cons_append]

theorem IsTrailed.append (h : IsTrailed chars body rest) (more : List Char) :
    IsTrailed (chars ++ more) body (rest ++ more) where
  isBody := h.isBody
  ne_nil e := h.ne_nil (List.append_eq_nil_iff.mp e).1
  chars_eq := by
    rw [h.chars_eq, List.cons_append, List.append_assoc, List.cons_append]

theorem IsTrailed.rest_unique (h : IsTrailed chars body rest) (h' : IsTrailed chars body' rest') :
    rest = rest' := by
  have hchars : (Shape.opened body h.isBody (.quote rest)).chars =
      (Shape.opened body' h'.isBody (.quote rest')).chars := h.chars_eq.symm.trans h'.chars_eq
  cases Shape.chars_injective hchars
  rfl

/-- Once the mark at the end is used up by a quote, no lone mark stands there. -/
theorem HasLoneMark.body_ne (h : HasLoneMark chars body [])
    (hmore : more.head? = some delimiter) (h' : HasLoneMark (chars ++ more) body' rest') :
    body'.length ≠ body.length := by
  intro hlength
  have hchars := h'.chars_eq
  rw [h.chars_eq, List.cons_append, List.append_assoc] at hchars
  obtain ⟨rfl, htail⟩ := List.append_inj (List.cons.inj hchars).2 hlength.symm
  rw [List.cons_append, List.nil_append] at htail
  rw [(List.cons.inj htail).2] at hmore
  exact h'.lone hmore

/-- Trailing characters are noticed one later if the only one gets a successor. -/
theorem trailingPosition_append_rest (body : List Char) (hne : rest ≠ []) (more : List Char) :
    trailingPosition body (rest ++ more) =
      trailingPosition body rest + if more ≠ [] ∧ rest.length = 1 then 1 else 0 := by
  have hrest : 0 < rest.length := List.length_pos_iff.mpr hne
  unfold trailingPosition
  rw [List.length_append]
  by_cases hm : more = []
  · simp [hm]
  · have hmore : 0 < more.length := List.length_pos_iff.mpr hm
    by_cases hone : rest.length = 1
    · rw [if_neg (by omega), if_pos hone, if_pos ⟨hm, hone⟩]
    · rw [if_neg (by omega), if_neg hone, if_neg fun h => hone h.2]

end Defects

section Faults

variable {text text' : String} {position position' : Nat}

theorem escapeFault_injective (h : escapeFault text position = escapeFault text' position') :
    position = position' := by
  have hkind := congrArg ParseError.kind (Fault.parse.inj h)
  exact Int.ofNat.inj (Option.some.inj (ErrorKind.invalidEscape.inj hkind))

theorem trailingFault_injective (h : trailingFault text position = trailingFault text' position') :
    position = position' := by
  have hkind := congrArg ParseError.kind (Fault.parse.inj h)
  exact Int.ofNat.inj (Option.some.inj (ErrorKind.invalidTrailing.inj hkind))

end Faults

section Parses

variable {ρ : Type} (observer : Observer ρ) {limits : Limits} {text : String} (run : Run Unit ρ)

theorem raises_leading_iff (hl : limits.Admits text.length) :
    (∃ ended, parse observer limits text run = .raised (.parse .invalidLeading) ended) ↔
      IsMisled text.toList := by
  rw [parse_raised_iff observer run hl]
  constructor
  · intro h
    rcases h with ⟨hm, -⟩ | ⟨_, _, _, hf⟩ | ⟨_, _, _, hf⟩
    · exact hm
    · cases hf
    · cases hf
  · intro hm
    exact Or.inl ⟨hm, rfl⟩

theorem raises_escape_iff (hl : limits.Admits text.length) (position : Nat) :
    (∃ ended, parse observer limits text run = .raised (escapeFault text position) ended) ↔
      ∃ body rest, HasLoneMark text.toList body rest ∧ position = body.length + 1 := by
  rw [parse_raised_iff observer run hl]
  constructor
  · intro h
    rcases h with ⟨_, hf⟩ | ⟨body, rest, hm, hf⟩ | ⟨_, _, _, hf⟩
    · cases hf
    · exact ⟨body, rest, hm, escapeFault_injective hf⟩
    · cases hf
  · intro h
    obtain ⟨body, rest, hm, rfl⟩ := h
    exact Or.inr (Or.inl ⟨body, rest, hm, rfl⟩)

theorem raises_trailing_iff (hl : limits.Admits text.length) (position : Nat) :
    (∃ ended, parse observer limits text run = .raised (trailingFault text position) ended) ↔
      ∃ body rest, IsTrailed text.toList body rest ∧ position = trailingPosition body rest := by
  rw [parse_raised_iff observer run hl]
  constructor
  · intro h
    rcases h with ⟨_, hf⟩ | ⟨_, _, _, hf⟩ | ⟨body, rest, hm, hf⟩
    · cases hf
    · cases hf
    · exact ⟨body, rest, hm, trailingFault_injective hf⟩
  · intro h
    obtain ⟨body, rest, hm, rfl⟩ := h
    exact Or.inr (Or.inr ⟨body, rest, hm, rfl⟩)

end Parses

section Prefixes

variable {ρ : Type} (observer : Observer ρ) {limits : Limits} {text more output : String}
  (run : Run Unit ρ)

/-- Where an accepted text can be cut. -/
inductive Cut (text more : String) : Prop where
  | empty : text = "" → Cut text more
  | inside {body : List Char} : IsUnclosed text.toList body → Cut text more
  | nowhere {body : List Char} : more = "" → IsClosed text.toList body → Cut text more
  | escape {body : List Char} :
      HasLoneMark text.toList body [] → more.toList.head? = some delimiter → Cut text more

/-- The text before the cut has a shape of its own, and any defect in it is one of the whole. -/
theorem cut_of_returned (hl : limits.Admits (text ++ more).length) {ended : Run Unit ρ}
    (h : parse observer limits (text ++ more) run = .returned output ended) : Cut text more := by
  have hsound : ∀ fault ended', parse observer limits (text ++ more) run ≠ .raised fault ended' := by
    intro fault ended' hraised
    rw [h] at hraised
    cases hraised
  have hmisled : ¬ IsMisled text.toList := by
    intro hm
    have hwhole := hm.append more.toList
    rw [← String.toList_append] at hwhole
    obtain ⟨ended', hraised⟩ := (raises_leading_iff observer run hl).mpr hwhole
    exact hsound _ ended' hraised
  have htrailed : ∀ body rest, ¬ IsTrailed (text ++ more).toList body rest := by
    intro body rest hm
    obtain ⟨ended', hraised⟩ := (raises_trailing_iff observer run hl _).mpr ⟨body, rest, hm, rfl⟩
    exact hsound _ ended' hraised
  have hmark : ∀ body rest, ¬ HasLoneMark (text ++ more).toList body rest := by
    intro body rest hm
    obtain ⟨ended', hraised⟩ := (raises_escape_iff observer run hl _).mpr ⟨body, rest, hm, rfl⟩
    exact hsound _ ended' hraised
  rw [String.toList_append] at htrailed hmark
  obtain ⟨shape, ht⟩ := Shape.exists_chars_eq text.toList
  match shape with
  | .empty => exact .empty (String.toList_eq_nil_iff.mp ht.symm)
  | .misled first rest stray =>
      refine absurd ?_ hmisled
      rw [← ht]
      exact ⟨List.cons_ne_nil _ _, fun e => stray (Option.some.inj e)⟩
  | .opened body hb .atEnd =>
      refine .inside ⟨hb, ?_⟩
      rw [← ht, Shape.chars, Stop.chars, List.append_nil]
  | .opened body hb (.quote []) =>
      by_cases hmore : more = ""
      · exact .nowhere hmore ⟨hb, ht.symm⟩
      · refine absurd ⟨hb, fun e => hmore (String.toList_eq_nil_iff.mp e), ?_⟩
          (htrailed body more.toList)
        rw [← ht, Shape.chars, Stop.chars, List.cons_append, List.append_assoc]
        rfl
  | .opened body hb (.quote (c :: rest)) =>
      have hm : IsTrailed text.toList body (c :: rest) := ⟨hb, List.cons_ne_nil c rest, ht.symm⟩
      exact absurd (hm.append more.toList) (htrailed _ _)
  | .opened body hb (.mark rest lone) =>
      have hm : HasLoneMark text.toList body rest := ⟨hb, lone, ht.symm⟩
      by_cases hsplit : rest = [] ∧ more.toList.head? = some delimiter
      · obtain ⟨rfl, hquote⟩ := hsplit
        exact .escape hm hquote
      · exact absurd (hm.append hsplit) (hmark _ _)

theorem not_splitsEscape_of_inside {body : List Char} (h : IsUnclosed text.toList body) :
    ¬ SplitsEscape text more := by
  intro hsplit
  have hlast : ([delimiter] ++ body).getLast? ≠ some escapeMark :=
    getLast?_append_ne h.isBody (by decide)
  apply hlast
  rw [List.singleton_append, ← h.chars_eq]
  exact hsplit.1

theorem splitsEscape_of_mark {body : List Char} (h : HasLoneMark text.toList body [])
    (hmore : more.toList.head? = some delimiter) : SplitsEscape text more := by
  refine ⟨?_, hmore⟩
  rw [h.chars_eq, ← List.cons_append, List.getLast?_concat]

/-- What a text that is read to its end decodes to depends on its body alone. -/
theorem Reads.output_eq {body : List Char} {stop : Stop} {ended : Run Unit ρ}
    (h : Reads text body stop (.returned output ended)) : output = .ofList (decode body) := by
  cases h with
  | unclosed _ => rfl
  | closed _ => rfl

theorem decode_prefix_of_inside {body : List Char} {ended : Run Unit ρ}
    (hl : limits.Admits (text ++ more).length) (hb : IsUnclosed text.toList body)
    (h : parse observer limits (text ++ more) run = .returned output ended) :
    decode body <+: output.toList := by
  obtain ⟨added, stop, hadded, hmore⟩ := exists_body_append_stop more.toList
  have hchars : (text ++ more).toList = delimiter :: ((body ++ added) ++ stop.chars) := by
    rw [String.toList_append, hb.chars_eq, hmore, List.cons_append, List.append_assoc]
  have hreads := parse_reads observer run hl (hb.isBody.append hadded) hchars
  rw [h] at hreads
  rw [hreads.output_eq, String.toList_ofList, decode_append hb.isBody]
  exact List.prefix_append _ _

/-- A prefix of an accepted text, read on its own. -/
theorem parse_prefix (other : Run Unit ρ) (hl : limits.Admits (text ++ more).length)
    (h : ∃ ended, parse observer limits (text ++ more) run = .returned output ended) :
    (SplitsEscape text more → ∃ ended, parse observer limits text other =
      .raised (escapeFault text (text.length - 1)) ended) ∧
    (¬ SplitsEscape text more → ∃ part ended, parse observer limits text other =
      .returned part ended ∧ part.toList <+: output.toList) := by
  obtain ⟨ended, h⟩ := h
  have hl' : limits.Admits text.length := hl.of_le (by simp)
  cases cut_of_returned observer run hl h with
  | empty hempty =>
      subst hempty
      obtain ⟨ended', hpart⟩ := (parse_returns_iff observer other hl').mpr (Or.inl ⟨rfl, rfl⟩)
      exact ⟨fun hsplit => absurd hsplit.1 nofun,
        fun _ => ⟨"", ended', hpart, List.nil_prefix⟩⟩
  | @inside body hb =>
      obtain ⟨ended', hpart⟩ :=
        (parse_returns_iff observer other hl').mpr (Or.inr ⟨body, rfl, Or.inl hb⟩)
      refine ⟨fun hsplit => absurd hsplit (not_splitsEscape_of_inside hb), fun _ => ?_⟩
      refine ⟨_, ended', hpart, ?_⟩
      rw [String.toList_ofList]
      exact decode_prefix_of_inside observer run hl hb h
  | nowhere hmore hb =>
      subst hmore
      rw [String.append_empty] at h hl
      obtain ⟨ended', hpart⟩ :=
        (parse_returns_iff observer other hl').mpr
          ((parse_returns_iff observer run hl).mp ⟨ended, h⟩)
      exact ⟨fun hsplit => absurd hsplit.2 nofun,
        fun _ => ⟨output, ended', hpart, List.prefix_refl _⟩⟩
  | @escape body hm hquote =>
      have hposition : text.length - 1 = body.length + 1 := by
        rw [← String.length_toList, hm.chars_eq]
        simp
      refine ⟨fun _ => ?_, fun hsplit => absurd (splitsEscape_of_mark hm hquote) hsplit⟩
      exact (raises_escape_iff observer other hl' _).mpr ⟨body, [], hm, hposition⟩

end Prefixes

section Extensions

variable {ρ : Type} (observer : Observer ρ) {limits : Limits} {text more : String}
  (run other : Run Unit ρ) (hl : limits.Admits (text ++ more).length)
include hl

theorem raises_leading_append
    (h : ∃ ended, parse observer limits text run = .raised (.parse .invalidLeading) ended) :
    ∃ ended, parse observer limits (text ++ more) other =
      .raised (.parse .invalidLeading) ended := by
  have hl' : limits.Admits text.length := hl.of_le (by simp)
  have hm := (raises_leading_iff observer run hl').mp h
  apply (raises_leading_iff observer other hl).mpr
  rw [String.toList_append]
  exact hm.append more.toList

/-- An escape error stays where it is, unless the quote that it misses comes next. -/
theorem raises_escape_append_iff {position : Nat}
    (h : ∃ ended, parse observer limits text run = .raised (escapeFault text position) ended) :
    (∃ ended, parse observer limits (text ++ more) other =
        .raised (escapeFault (text ++ more) position) ended) ↔
      ¬ (position + 1 = text.length ∧ more.toList.head? = some delimiter) := by
  have hl' : limits.Admits text.length := hl.of_le (by simp)
  obtain ⟨body, rest, hm, rfl⟩ := (raises_escape_iff observer run hl' _).mp h
  have hlast : body.length + 1 + 1 = text.length ↔ rest = [] := by
    rw [← String.length_toList, hm.chars_eq, ← List.length_eq_zero_iff]
    simp only [List.length_cons, List.length_append]
    omega
  rw [raises_escape_iff observer other hl, String.toList_append, hlast]
  constructor
  · intro hwhole hquote
    obtain ⟨body', rest', hm', hlength⟩ := hwhole
    obtain ⟨rfl, hhead⟩ := hquote
    exact hm.body_ne hhead hm' (Nat.succ.inj hlength).symm
  · intro hquote
    exact ⟨body, rest ++ more.toList, hm.append hquote, rfl⟩

/-- A trailing error stays too, one later if its only character is followed by another. -/
theorem raises_trailing_append {position : Nat}
    (h : ∃ ended, parse observer limits text run = .raised (trailingFault text position) ended) :
    (more ≠ "" ∧ TrailsByOne text → ∃ ended, parse observer limits (text ++ more) other =
      .raised (trailingFault (text ++ more) (position + 1)) ended) ∧
    (¬ (more ≠ "" ∧ TrailsByOne text) → ∃ ended, parse observer limits (text ++ more) other =
      .raised (trailingFault (text ++ more) position) ended) := by
  have hl' : limits.Admits text.length := hl.of_le (by simp)
  obtain ⟨body, rest, hm, rfl⟩ := (raises_trailing_iff observer run hl' _).mp h
  have hwhole := hm.append more.toList
  have hone : more ≠ "" ∧ TrailsByOne text ↔ more.toList ≠ [] ∧ rest.length = 1 := by
    rw [ne_eq, ne_eq, String.toList_eq_nil_iff]
    refine and_congr_right fun _ => ?_
    constructor
    · intro htrails
      obtain ⟨body', c, hm'⟩ := htrails
      rw [hm.rest_unique hm']
      rfl
    · intro hlength
      obtain ⟨c, rfl⟩ := List.length_eq_one_iff.mp hlength
      exact ⟨body, c, hm⟩
  have hposition := trailingPosition_append_rest body hm.ne_nil more.toList
  rw [hone, raises_trailing_iff observer other hl, raises_trailing_iff observer other hl,
    String.toList_append]
  constructor
  · intro hyes
    rw [if_pos hyes] at hposition
    exact ⟨body, _, hwhole, hposition.symm⟩
  · intro hno
    rw [if_neg hno] at hposition
    exact ⟨body, _, hwhole, hposition.symm⟩

end Extensions

/-- A text read before and after more is put behind it. If the longer text is accepted, so is the
shorter, with a prefix of the output, unless the seam goes through an escaped quote; then the mark
at its end is an error. If the shorter text is refused, the longer is refused for the same reason,
unless a quote follows a lone mark at the end, and at the same position, unless something follows
the only character after the closing quote; then it is one further on. -/
theorem extension_laws {ρ : Type} (observer : Observer ρ) (limits : Limits)
    (run other : Run Unit ρ) (text more : String) (hl : limits.Admits (text ++ more).length) :
    (∀ output, (∃ ended, parse observer limits (text ++ more) other = .returned output ended) →
      (SplitsEscape text more → ∃ ended, parse observer limits text run =
        .raised (escapeFault text (text.length - 1)) ended) ∧
      (¬ SplitsEscape text more → ∃ part ended, parse observer limits text run =
        .returned part ended ∧ part.toList <+: output.toList)) ∧
    ((∃ ended, parse observer limits text run = .raised (.parse .invalidLeading) ended) →
      ∃ ended, parse observer limits (text ++ more) other =
        .raised (.parse .invalidLeading) ended) ∧
    (∀ position,
      (∃ ended, parse observer limits text run = .raised (escapeFault text position) ended) →
      ((∃ ended, parse observer limits (text ++ more) other =
          .raised (escapeFault (text ++ more) position) ended) ↔
        ¬ (position + 1 = text.length ∧ more.toList.head? = some delimiter))) ∧
    (∀ position,
      (∃ ended, parse observer limits text run = .raised (trailingFault text position) ended) →
      (more ≠ "" ∧ TrailsByOne text → ∃ ended, parse observer limits (text ++ more) other =
        .raised (trailingFault (text ++ more) (position + 1)) ended) ∧
      (¬ (more ≠ "" ∧ TrailsByOne text) → ∃ ended, parse observer limits (text ++ more) other =
        .raised (trailingFault (text ++ more) position) ended)) :=
  ⟨fun _ => parse_prefix observer other run hl,
    raises_leading_append observer run other hl,
    fun _ => raises_escape_append_iff observer run other hl,
    fun _ => raises_trailing_append observer run other hl⟩

/-- A cut between the mark and the quote of an accepted text leaves a lone mark, and a second
character after the closing quote moves the error to itself. -/
theorem extension_laws_at_seams :
    Limits.standard.Admits ("\"a\\" ++ "\"b").length ∧
      Limits.standard.Admits ("\"a\" " ++ "z").length ∧
      (∃ ended, parse Observer.log .standard "\"a\\" (.fresh () []) =
        .raised (escapeFault "\"a\\" 2) ended) ∧
      ∃ ended, parse Observer.log .standard ("\"a\" " ++ "z") (.fresh () []) =
        .raised (trailingFault ("\"a\" " ++ "z") 4) ended := by
  have hcut : Limits.standard.Admits ("\"a\\" ++ "\"b").length := by decide
  have hadd : Limits.standard.Admits ("\"a\" " ++ "z").length := by decide
  have hone : TrailsByOne "\"a\" " :=
    ⟨['a'], ' ', .plain (by decide) .nil, List.cons_ne_nil _ _, rfl⟩
  have hprefix := (extension_laws Observer.log _ (.fresh () []) (.fresh () []) _ _ hcut).1 "a\"b"
    ⟨_, rfl⟩
  have hlater := (extension_laws Observer.log _ (.fresh () []) (.fresh () []) _ _ hadd).2.2.2 3
    ⟨_, rfl⟩
  exact ⟨hcut, hadd, hprefix.1 ⟨rfl, rfl⟩, hlater.1 ⟨by decide, hone⟩⟩

end CharMachine.Quoted
