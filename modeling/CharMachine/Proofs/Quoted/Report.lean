import CharMachine.Proofs.AnnotatedLayout
import CharMachine.Proofs.Quoted.Acceptance

/-!
# What a positioned error tells

An error about an escape or about trailing characters tells where it was noticed in several ways:
as a position, as a span, as a line and a column, in the words of its message and in the annotated
text that a caller is shown. Each of them is made on its own. Main statement: they agree, and the
position is one inside the text. The clamping of spans and places never comes into it.
-/

namespace CharMachine.Quoted

/-- The decimal number that ends a text, if a digit does. -/
def finalNumber? (s : String) : Option Nat :=
  match (s.toList.reverse.takeWhile Char.isDigit).reverse with
  | [] => none
  | digits => some (Nat.ofDigitChars 10 digits 0)

theorem finalNumber?_append {words : String} {last : Char}
    (hwords : words.toList.getLast? = some last) (hlast : last.isDigit = false) (n : Nat) :
    finalNumber? (words ++ toString n) = some n := by
  have hdigits : (toString n).toList = Nat.toDigits 10 n := Nat.toList_repr
  have hall : ∀ c ∈ (toString n).toList.reverse, c.isDigit = true := by
    intro c hc
    exact isDigit_of_mem_toString (List.mem_reverse.mp hc)
  have hstop : words.toList.reverse.takeWhile Char.isDigit = [] := by
    obtain ⟨before, hbefore⟩ := List.getLast?_eq_some_iff.mp hwords
    rw [hbefore, List.reverse_concat]
    exact List.takeWhile_cons_of_neg ((Bool.not_eq_true _).mpr hlast)
  have htaken : ((words ++ toString n).toList.reverse.takeWhile Char.isDigit).reverse =
      Nat.toDigits 10 n := by
    rw [String.toList_append, List.reverse_append, List.takeWhile_append_of_pos hall, hstop,
      List.append_nil, List.reverse_reverse, hdigits]
  rw [finalNumber?, htaken]
  split
  · next hnil => exact absurd hnil Nat.toDigits_ne_nil
  · rw [Nat.ofDigitChars_ten_toDigits]

/-- All that an error tells of this position of the text. -/
structure Pinpoints (text : String) (error : ParseError) (position : Nat)
    (diagnostic : Diagnostic) (span : Span) : Prop where
  positive : 0 < position
  inside : position < text.length
  report_eq : error.report = .diagnosed diagnostic
  code_eq : error.code? = some diagnostic.code.value
  span_eq : diagnostic.span = some span
  start_eq : span.start = position
  stop_eq : span.stop = position + 1
  place_eq : ⟨span.line, span.column⟩ = (Text.ofString text).placeAt position
  place_has : (Text.ofString text).Has ⟨span.line, span.column⟩
  offset_eq : (Text.ofString text).offsetOf ⟨span.line, span.column⟩ = position
  number_eq : finalNumber? diagnostic.message = some position
  lines_eq : ∃ hint, diagnostic.hint = some hint ∧
    (Text.ofString error.message).lines =
      ["error[" ++ diagnostic.code.name ++ "]: " ++ diagnostic.message,
        "  --> line " ++ toString span.line ++ ", column " ++ toString span.column,
        "  = help: " ++ hint].map String.toList

/-- Words that a positioned diagnostic can be made of: one line each, a blank right before the
position, and a hint that is shown. -/
structure Wording (words hint : String) : Prop where
  words_line : '\n' ∉ words.toList
  words_end : words.toList.getLast? = some ' '
  hint_line : '\n' ∉ hint.toList
  hint_ne : hint ≠ ""

section Words

variable {text words hint : String} {position : Nat}

/-- The diagnostic with these words about a position of a text. -/
def positioned (code : Diagnostic.Code) (words hint text : String) (position : Nat) :
    Diagnostic where
  code := code
  message := words ++ toString (position : Int)
  span := some ((Text.ofString text).spanAt position)
  hint := some hint

theorem hint?_positioned (code : Diagnostic.Code) (hhint : hint ≠ "") :
    ({} : Formatter).hint? (positioned code words hint text position) = some hint :=
  congrArg (Option.map ({} : Formatter).content) (Formatter.filter_hint hhint)

/-- A positioned diagnostic is three lines: what, where and what to do about it. -/
theorem lines_positioned (code : Diagnostic.Code) (hw : Wording words hint) (text : String)
    (position : Nat) :
    (Text.ofString (positioned code words hint text position).render).lines =
      ["error[" ++ code.name ++ "]: " ++ (positioned code words hint text position).message,
        "  --> line " ++ toString ((Text.ofString text).spanAt position).line ++ ", column " ++
          toString ((Text.ofString text).spanAt position).column,
        "  = help: " ++ hint].map String.toList := by
  have hshown : ({} : Formatter).hint? (positioned code words hint text position) = some hint :=
    hint?_positioned code hw.hint_ne
  have hmessage : '\n' ∉
      (({} : Formatter).content (positioned code words hint text position).message).toList := by
    show '\n' ∉ (words ++ toString position).toList
    rw [String.toList_append, List.mem_append, not_or]
    exact ⟨hw.words_line, newline_notMem_toString position⟩
  have hhint : ∀ shown ∈ ({} : Formatter).hint? (positioned code words hint text position),
      '\n' ∉ shown.toList := by
    intro shown hmem
    rw [hshown] at hmem
    cases hmem
    exact hw.hint_line
  rw [Diagnostic.render, Formatter.lines_format rfl hmessage hhint, Formatter.annotatedLines,
    hshown]
  rfl

/-- Nothing is clamped for a position inside the text, so what is made of it agrees. -/
theorem pinpoints_positioned (code : Diagnostic.Code) (kind : ErrorKind) (hw : Wording words hint)
    (hpositive : 0 < position) (hinside : position < text.length) :
    Pinpoints text ⟨kind, .diagnosed (positioned code words hint text position)⟩ position
      (positioned code words hint text position) ((Text.ofString text).spanAt position) := by
  have hle : position ≤ (Text.ofString text).length := Nat.le_of_lt hinside
  have hclamp : (Text.ofString text).clamp position = position := Text.clamp_of_le _ hle
  refine ⟨hpositive, hinside, rfl, rfl, rfl, hclamp, ?_, rfl, ?_, ?_, ?_, ?_⟩
  · show min ((Text.ofString text).clamp position + 1) text.length = position + 1
    omega
  · exact (Text.has_placeAt _ position).1
  · exact Text.offsetOf_placeAt _ hle
  · exact finalNumber?_append hw.words_end rfl position
  · exact ⟨hint, rfl, lines_positioned code hw text position⟩

end Words

/-! ## The two positioned errors -/

section Errors

variable {text : String} {body rest : List Char} {position : Nat}

theorem pinpoints_invalidTrailing (hpositive : 0 < position) (hinside : position < text.length) :
    Pinpoints text (.invalidTrailing position ((Text.ofString text).spanAt position)) position
      (.invalidTrailingCharacters position ((Text.ofString text).spanAt position))
      ((Text.ofString text).spanAt position) := by
  have hw : Wording "Invalid trailing characters after last quote character at position "
      "Nothing may follow the closing \"; escape inner quotes as \\\"" :=
    ⟨by decide, rfl, by decide, by decide⟩
  exact pinpoints_positioned .invalidTrailingCharacters _ hw hpositive hinside

theorem pinpoints_invalidEscape (hpositive : 0 < position) (hinside : position < text.length) :
    Pinpoints text (.invalidEscape position ((Text.ofString text).spanAt position)) position
      (.invalidEscapeCharacter position ((Text.ofString text).spanAt position))
      ((Text.ofString text).spanAt position) := by
  have hw : Wording "Invalid escape character at position "
      "Only a quote character may follow the escape character" :=
    ⟨by decide, rfl, by decide, by decide⟩
  exact pinpoints_positioned .invalidEscapeCharacter _ hw hpositive hinside

theorem IsTrailed.trailingPosition_lt (h : IsTrailed text.toList body rest) :
    trailingPosition body rest < text.length := by
  have hpos : 0 < rest.length := List.length_pos_iff.mpr h.ne_nil
  rw [← String.length_toList, h.chars_eq, List.length_cons, List.length_append, List.length_cons,
    trailingPosition]
  split <;> omega

theorem HasLoneMark.position_lt (h : HasLoneMark text.toList body rest) :
    body.length + 1 < text.length := by
  rw [← String.length_toList, h.chars_eq, List.length_cons, List.length_append, List.length_cons]
  omega

theorem HasLoneMark.getElem?_position (h : HasLoneMark text.toList body rest) :
    text.toList[body.length + 1]? = some escapeMark := by
  rw [h.chars_eq, List.getElem?_cons_succ, List.getElem?_append_right (Nat.le_refl _), Nat.sub_self]
  rfl

/-- A text beyond the limit is refused as such and for nothing else. -/
theorem admits_of_raised {ρ : Type} {observer : Observer ρ} {limits : Limits}
    {run ended : Run Unit ρ} {error : ParseError}
    (h : parse observer limits text run = .raised (.parse error) ended)
    (hcategory : error.kind.category ≠ .inputTooLarge) : limits.Admits text.length := by
  cases hl : limits.exceeded? text.length with
  | none => exact (limits.exceeded?_eq_none_iff text.length).mp hl
  | some limit =>
      rw [parse, Parser.parse, (parser limits).parseWith_rejected observer hl] at h
      cases h
      exact absurd rfl hcategory

end Errors

/-- All parts of a positioned error agree on one position inside the text: the error's own, the
span, the line and column, the number in the message and the annotated text. The code is that of
the error's category, and on a wrong escape the position is that of the backslash. -/
theorem positioned_errors_agree {ρ : Type} (observer : Observer ρ) (limits : Limits) (text : String)
    (run ended : Run Unit ρ) (error : ParseError)
    (h : parse observer limits text run = .raised (.parse error) ended)
    (hcategory : error.kind.category = .invalidTrailing ∨ error.kind.category = .invalidEscape) :
    ∃ (position : Nat) (diagnostic : Diagnostic) (span : Span),
      Pinpoints text error position diagnostic span ∧
      (error.kind.category = .invalidTrailing →
        error.kind = .invalidTrailing (some position) ∧ error.code? = some 2) ∧
      (error.kind.category = .invalidEscape →
        error.kind = .invalidEscape (some position) ∧ error.code? = some 3 ∧
          text.toList[position]? = some escapeMark) := by
  have hl : limits.Admits text.length := by
    apply admits_of_raised h
    rcases hcategory with hc | hc <;> rw [hc] <;> decide
  rcases (parse_raised_iff observer run hl _).mp ⟨ended, h⟩ with
    ⟨-, hfault⟩ | ⟨body, rest, hmark, hfault⟩ | ⟨body, rest, htrailed, hfault⟩
  · cases hfault
    rcases hcategory with hc | hc <;> cases hc
  · cases hfault
    refine ⟨body.length + 1, _, _,
      pinpoints_invalidEscape (Nat.succ_pos _) hmark.position_lt, ?_, ?_⟩
    · intro hc
      cases hc
    · intro _
      exact ⟨rfl, rfl, hmark.getElem?_position⟩
  · have hpositive : 0 < trailingPosition body rest := by
      unfold trailingPosition
      split <;> omega
    cases hfault
    refine ⟨trailingPosition body rest, _, _,
      pinpoints_invalidTrailing hpositive htrailed.trailingPosition_lt, ?_, ?_⟩
    · intro _
      exact ⟨rfl, rfl⟩
    · intro hc
      cases hc

/-- The lone backslash opens the second line. -/
theorem positioned_errors_agree_second_line :
    ∃ (ended : Run Unit (List Record)) (error : ParseError) (diagnostic : Diagnostic) (span : Span),
      parse Observer.log .standard "\"a\n\\x" (.fresh () []) = .raised (.parse error) ended ∧
      error.kind.category = .invalidEscape ∧
      Pinpoints "\"a\n\\x" error 3 diagnostic span ∧ span.line = 2 ∧ span.column = 1 := by
  have hbody : IsBody ['a', '\n'] := .plain (by decide) (.plain (by decide) .nil)
  have hmark : HasLoneMark "\"a\n\\x".toList ['a', '\n'] ['x'] := ⟨hbody, by decide, rfl⟩
  have hl : Limits.standard.Admits "\"a\n\\x".length := by decide
  obtain ⟨ended, hraised⟩ := (parse_raised_iff Observer.log (.fresh () []) hl _).mpr
    (Or.inr (Or.inl ⟨_, _, hmark, rfl⟩))
  obtain ⟨position, diagnostic, span, hpinpoints, -, hescape⟩ :=
    positioned_errors_agree Observer.log .standard _ _ _ _ hraised (Or.inr rfl)
  obtain ⟨hkind, -, -⟩ := hescape rfl
  have hposition : position = 3 := by
    injection hkind with hsome
    injection hsome with hcast
    exact (Int.ofNat.inj hcast).symm
  subst hposition
  have hplace : (⟨span.line, span.column⟩ : Place) = ⟨2, 1⟩ := hpinpoints.place_eq.trans (by decide)
  injection hplace with hline hcolumn
  exact ⟨ended, _, diagnostic, span, hraised, rfl, hpinpoints, hline, hcolumn⟩

end CharMachine.Quoted
