import CharMachine.Proofs.JsonLayout
import CharMachine.Proofs.Paragraphs

/-!
# What an annotated diagnostic tells

The annotated layout has no quoting: messages and hints are written as they are, and may look like
any other part of it. What keeps the parts apart is where they stand. Each part of the header in
front of the message ends at a character that it cannot hold itself, the message ends with its line,
and the two lines that may follow begin differently.

Main statement: two diagnostics in one line each are written alike exactly if they have the same
code and message, are both warnings or neither, and have the same place and the same hint. Of a
severity only one word matters, of a span the place at which it starts, and an empty hint is none.
-/

namespace CharMachine

/-! ## Parts that end at a mark -/

/-- Where the mark is in neither of two parts, they end at its first occurrence. -/
theorem append_mark_injective {mark : Char} {part part' rest rest' : List Char}
    (hpart : mark ∉ part) (hpart' : mark ∉ part')
    (h : part ++ mark :: rest = part' ++ mark :: rest') : part = part' ∧ rest = rest' := by
  induction part generalizing part' with
  | nil =>
      cases part' with
      | nil => exact ⟨rfl, (List.cons.inj h).2⟩
      | cons c others => exact absurd ((List.cons.inj h).1 ▸ List.mem_cons_self) hpart'
  | cons c others ih =>
      cases part' with
      | nil => exact absurd ((List.cons.inj h).1 ▸ List.mem_cons_self) hpart
      | cons d others' =>
          obtain ⟨rfl, htail⟩ := List.cons.inj h
          obtain ⟨rfl, rfl⟩ := ih (fun hmem => hpart (List.mem_cons_of_mem _ hmem))
            (fun hmem => hpart' (List.mem_cons_of_mem _ hmem)) htail
          exact ⟨rfl, rfl⟩

theorem toList_toString_injective {m n : Nat}
    (h : (toString m).toList = (toString n).toList) : m = n := by
  have hdigits : Nat.toDigits 10 m = Nat.toDigits 10 n := by
    rw [← Nat.toList_repr, ← Nat.toList_repr]
    exact h
  have hread := congrArg (Nat.ofDigitChars 10 · 0) hdigits
  simpa only [Nat.ofDigitChars_ten_toDigits] using hread

theorem comma_notMem_toString (n : Nat) : ',' ∉ (toString n).toList := by
  intro hmem
  exact absurd (isDigit_of_mem_toString hmem) (by decide)

namespace Diagnostic

theorem Code.bracket_notMem_name (code : Code) : ']' ∉ code.name.toList := by
  cases code <;> decide

theorem Code.name_injective {code other : Code} (h : code.name = other.name) : code = other := by
  revert h
  cases code <;> cases other <;> decide

/-- The severity is the one that the annotated layout tells from the others. -/
def IsWarning (diagnostic : Diagnostic) : Prop := diagnostic.severity = "warning"

instance (diagnostic : Diagnostic) : Decidable diagnostic.IsWarning :=
  inferInstanceAs (Decidable (diagnostic.severity = "warning"))

/-- The line and the column at which the span of a diagnostic starts. -/
def place? (diagnostic : Diagnostic) : Option Place :=
  diagnostic.span.map fun span => ⟨span.line, span.column⟩

/-- What two diagnostics have in common if an annotated text cannot tell them apart. -/
structure SameAnnotations (diagnostic other : Diagnostic) : Prop where
  code : diagnostic.code = other.code
  message : diagnostic.message = other.message
  warning : diagnostic.IsWarning ↔ other.IsWarning
  place : diagnostic.place? = other.place?
  hint : diagnostic.hint.getD "" = other.hint.getD ""

theorem statedHint_eq_ite (diagnostic : Diagnostic) :
    diagnostic.statedHint =
      if diagnostic.hint.getD "" = "" then none else some (diagnostic.hint.getD "") := by
  rw [statedHint]
  cases diagnostic.hint with
  | none => rfl
  | some hint =>
      by_cases h : hint = ""
      · rw [h]
        rfl
      · rw [Option.getD_some, if_neg h]
        exact Formatter.filter_hint h

/-- No hint and an empty one are the same as far as stated hints go. -/
theorem statedHint_eq_iff {diagnostic other : Diagnostic} :
    diagnostic.statedHint = other.statedHint ↔
      diagnostic.hint.getD "" = other.hint.getD "" := by
  rw [statedHint_eq_ite, statedHint_eq_ite]
  generalize diagnostic.hint.getD "" = first
  generalize other.hint.getD "" = second
  by_cases hfirst : first = "" <;> by_cases hsecond : second = "" <;>
    simp [hfirst, hsecond, eq_comm]

end Diagnostic

namespace Formatter

variable {formatter : Formatter} {diagnostic other : Diagnostic}

/-! ## The header -/

theorem severityWord_eq_iff :
    severityWord diagnostic = severityWord other ↔ (diagnostic.IsWarning ↔ other.IsWarning) := by
  unfold severityWord Diagnostic.IsWarning
  split <;> split <;> simp_all

theorem colorOn_eq_iff :
    colorOn diagnostic = colorOn other ↔ (diagnostic.IsWarning ↔ other.IsWarning) := by
  unfold colorOn Diagnostic.IsWarning
  split <;> split <;> simp_all

theorem length_colorOn (diagnostic : Diagnostic) : (colorOn diagnostic).toList.length = 7 := by
  unfold colorOn
  split <;> rfl

theorem bracket_notMem_severityWord (diagnostic : Diagnostic) :
    '[' ∉ (severityWord diagnostic).toList := by
  unfold severityWord
  split <;> decide

theorem severityLabel_eq_of_warning_iff (h : diagnostic.IsWarning ↔ other.IsWarning) :
    formatter.severityLabel diagnostic = formatter.severityLabel other := by
  rw [severityLabel, severityLabel, severityWord_eq_iff.mpr h, colorOn_eq_iff.mpr h]

/-- A label tells warnings from all else, whatever follows its bracket. With colours the label holds
brackets of its own, but then the colour comes first. -/
theorem warning_iff_of_severityLabel {rest rest' : List Char}
    (h : (formatter.severityLabel diagnostic).toList ++ '[' :: rest =
      (formatter.severityLabel other).toList ++ '[' :: rest') :
    diagnostic.IsWarning ↔ other.IsWarning := by
  rw [severityLabel, severityLabel] at h
  cases hcolor : formatter.color with
  | true =>
      simp only [hcolor, if_true, String.toList_append, List.append_assoc] at h
      have hlength := (length_colorOn diagnostic).trans (length_colorOn other).symm
      exact colorOn_eq_iff.mp (String.toList_inj.mp (List.append_inj h hlength).1)
  | false =>
      simp only [hcolor, Bool.false_eq_true, if_false] at h
      obtain ⟨hword, -⟩ := append_mark_injective (bracket_notMem_severityWord diagnostic)
        (bracket_notMem_severityWord other) h
      exact severityWord_eq_iff.mp (String.toList_inj.mp hword)

theorem toList_headerLine (formatter : Formatter) (diagnostic : Diagnostic) :
    (formatter.headerLine diagnostic).toList =
      (formatter.severityLabel diagnostic).toList ++ '[' :: (diagnostic.code.name.toList ++
        ']' :: ':' :: ' ' :: (formatter.content diagnostic.message).toList) := by
  simp only [headerLine, String.toList_append, List.append_assoc]
  rfl

theorem headerLine_injective
    (h : formatter.headerLine diagnostic = formatter.headerLine other) :
    diagnostic.code = other.code ∧
      formatter.content diagnostic.message = formatter.content other.message ∧
      (diagnostic.IsWarning ↔ other.IsWarning) := by
  have hchars := congrArg String.toList h
  rw [toList_headerLine, toList_headerLine] at hchars
  have hwarning := warning_iff_of_severityLabel hchars
  rw [severityLabel_eq_of_warning_iff hwarning] at hchars
  have hbehind := (List.cons.inj (List.append_cancel_left hchars)).2
  obtain ⟨hname, hmessage⟩ := append_mark_injective diagnostic.code.bracket_notMem_name
    other.code.bracket_notMem_name hbehind
  exact ⟨Diagnostic.Code.name_injective (String.toList_inj.mp hname),
    String.toList_inj.mp (List.cons.inj (List.cons.inj hmessage).2).2, hwarning⟩

/-! ## The lines behind the header -/

theorem locationLine_injective {span span' : Span} (h : locationLine span = locationLine span') :
    span.line = span'.line ∧ span.column = span'.column := by
  have hchars := congrArg String.toList h
  simp only [locationLine, String.toList_append, List.append_assoc] at hchars
  have hnumbers := List.append_cancel_left hchars
  obtain ⟨hline, hbehind⟩ := append_mark_injective (comma_notMem_toString span.line)
    (comma_notMem_toString span'.line) hnumbers
  have hcolumn := List.append_cancel_left hbehind
  exact ⟨toList_toString_injective hline, toList_toString_injective hcolumn⟩

theorem helpLine_injective {hint hint' : String} (h : helpLine hint = helpLine hint') :
    hint = hint' :=
  (String.append_right_inj _).mp h

theorem locationLine_ne_helpLine (span : Span) (hint : String) :
    locationLine span ≠ helpLine hint := by
  intro h
  have hchars := congrArg String.toList h
  simp only [locationLine, helpLine, String.toList_append, List.append_assoc] at hchars
  have hthird : some '-' = some '=' := congrArg (·[2]?) hchars
  exact absurd hthird (by decide)

theorem helpLines_injective {hint? hint?' : Option String}
    (h : (hint?.map helpLine).toList = (hint?'.map helpLine).toList) : hint? = hint?' := by
  cases hint? with
  | none =>
      cases hint?' with
      | none => rfl
      | some hint' => cases h
  | some hint =>
      cases hint?' with
      | none => cases h
      | some hint' => rw [helpLine_injective (List.cons.inj h).1]

theorem locationLine_cons_ne_helpLines (span : Span) (lines : List String) (hint? : Option String) :
    locationLine span :: lines ≠ (hint?.map helpLine).toList := by
  intro hsame
  cases hint? with
  | none => cases hsame
  | some hint => exact locationLine_ne_helpLine span hint (List.cons.inj hsame).1

/-- The second line tells whether there is a place, because it cannot be both a location and a
help line. -/
theorem annotatedLines_injective
    (h : formatter.annotatedLines diagnostic = formatter.annotatedLines other) :
    formatter.headerLine diagnostic = formatter.headerLine other ∧
      diagnostic.place? = other.place? ∧ formatter.hint? diagnostic = formatter.hint? other := by
  rw [annotatedLines, annotatedLines] at h
  obtain ⟨hheader, hbehind⟩ := List.cons.inj h
  refine ⟨hheader, ?_⟩
  rw [Diagnostic.place?, Diagnostic.place?]
  cases hspan : diagnostic.span with
  | none =>
      cases hspan' : other.span with
      | none =>
          rw [hspan, hspan'] at hbehind
          exact ⟨rfl, helpLines_injective hbehind⟩
      | some span' =>
          rw [hspan, hspan'] at hbehind
          exact absurd hbehind.symm (locationLine_cons_ne_helpLines span' _ _)
  | some span =>
      cases hspan' : other.span with
      | none =>
          rw [hspan, hspan'] at hbehind
          exact absurd hbehind (locationLine_cons_ne_helpLines span _ _)
      | some span' =>
          rw [hspan, hspan'] at hbehind
          obtain ⟨hlocation, hhelp⟩ := List.cons.inj hbehind
          obtain ⟨hline, hcolumn⟩ := locationLine_injective hlocation
          rw [Option.map_some, Option.map_some, hline, hcolumn]
          exact ⟨rfl, helpLines_injective hhelp⟩

theorem annotatedLines_congr (hcode : diagnostic.code = other.code)
    (hmessage : formatter.content diagnostic.message = formatter.content other.message)
    (hwarning : diagnostic.IsWarning ↔ other.IsWarning)
    (hplace : diagnostic.place? = other.place?)
    (hhint : formatter.hint? diagnostic = formatter.hint? other) :
    formatter.annotatedLines diagnostic = formatter.annotatedLines other := by
  have hlocation (diagnostic : Diagnostic) : diagnostic.span.map locationLine =
      diagnostic.place?.map fun place =>
        "  --> line " ++ toString place.line ++ ", column " ++ toString place.column := by
    rw [Diagnostic.place?, Option.map_map]
    rfl
  rw [annotatedLines, annotatedLines, headerLine, headerLine, hcode, hmessage,
    severityLabel_eq_of_warning_iff hwarning, hlocation, hlocation, hplace, hhint]

/-- Diagnostics in one line each are written alike exactly if their lines are the same ones. -/
theorem format_eq_iff_annotatedLines (hlayout : formatter.layout = .rust)
    (h : diagnostic.OneLine) (h' : other.OneLine) :
    formatter.format diagnostic = formatter.format other ↔
      formatter.annotatedLines diagnostic = formatter.annotatedLines other := by
  constructor
  · intro hsame
    have hlines := lines_format hlayout (newline_notMem_content h.message) (newline_notMem_hint? h)
    have hlines' := lines_format hlayout (newline_notMem_content h'.message)
      (newline_notMem_hint? h')
    rw [hsame, hlines'] at hlines
    exact ((List.map_inj_right fun _ _ => String.toList_inj.mp).mp hlines).symm
  · intro hsame
    rw [format, format, hlayout, hsame]

/-- With nothing clipped, the annotated texts of two diagnostics in one line each are the same
exactly if the diagnostics have the same code and message, are both warnings or neither, start at
the same place or both have none, and have the same hint. No message or hint can pass for another
part of the text, whatever it looks like. -/
theorem annotated_layout_faithful (formatter : Formatter) (hlayout : formatter.layout = .rust)
    (hwhole : formatter.sanitize = false) (diagnostic other : Diagnostic)
    (h : diagnostic.OneLine) (h' : other.OneLine) :
    formatter.format diagnostic = formatter.format other ↔ diagnostic.SameAnnotations other := by
  have hcontent (s : String) : formatter.content s = s := by
    rw [content, hwhole]
    rfl
  have hhint (diagnostic : Diagnostic) : formatter.hint? diagnostic = diagnostic.statedHint := by
    rw [hint?_eq, funext hcontent]
    exact Option.map_id'
  rw [format_eq_iff_annotatedLines hlayout h h']
  constructor
  · intro hlines
    obtain ⟨hheader, hplace, hshown⟩ := annotatedLines_injective hlines
    obtain ⟨hcode, hmessage, hwarning⟩ := headerLine_injective hheader
    rw [hcontent, hcontent] at hmessage
    rw [hhint, hhint, Diagnostic.statedHint_eq_iff] at hshown
    exact ⟨hcode, hmessage, hwarning, hplace, hshown⟩
  · intro hsame
    have hshown : formatter.hint? diagnostic = formatter.hint? other := by
      rw [hhint, hhint, Diagnostic.statedHint_eq_iff]
      exact hsame.hint
    exact annotatedLines_congr hsame.code (congrArg _ hsame.message) hsame.warning hsame.place
      hshown

/-- A message that poses as the rest of a header and as a location. Another extent of the span,
another word for an error and no hint instead of an empty one make no difference to the text; the
location as a hint does. -/
theorem annotated_layout_faithful_posing :
    let formatter : Formatter := { color := true }
    let diagnostic : Diagnostic :=
      { code := .unknownState
        message := "]: \x1b[0m[UNKNOWN_STATE]:   --> line 1, column 2"
        span := some ⟨0, 1, 1, 2, by decide, by decide, by decide⟩
        hint := some ""
        severity := "fatal" }
    let alike : Diagnostic :=
      { diagnostic with
        span := some ⟨5, 9, 1, 2, by decide, by decide, by decide⟩
        hint := none
        severity := "error" }
    let other : Diagnostic :=
      { diagnostic with span := none, hint := some "  --> line 1, column 2" }
    diagnostic.OneLine ∧ alike.OneLine ∧ other.OneLine ∧
      formatter.format diagnostic = formatter.format alike ∧
      formatter.format diagnostic ≠ formatter.format other := by
  intro formatter diagnostic alike other
  have hline : diagnostic.OneLine := ⟨by decide, by rintro hint ⟨⟩; decide⟩
  have halike : alike.OneLine := ⟨hline.message, nofun⟩
  have hother : other.OneLine := ⟨hline.message, by rintro hint ⟨⟩; decide⟩
  refine ⟨hline, halike, hother, ?_, ?_⟩
  · exact (annotated_layout_faithful formatter rfl rfl diagnostic alike hline halike).mpr
      ⟨rfl, rfl, by decide, rfl, rfl⟩
  · intro hsame
    have hannotations :=
      (annotated_layout_faithful formatter rfl rfl diagnostic other hline hother).mp hsame
    cases hannotations.place

end Formatter

end CharMachine
