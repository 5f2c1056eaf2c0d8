import CharMachine.Diagnostic.Standard
import CharMachine.Proofs.AnnotatedLayout
import CharMachine.Proofs.Json.Writer

/-!
# Diagnostics as paragraphs

Several diagnostics are written with a blank line between each two, so each of them is to be a
paragraph of its own. A written diagnostic may have more than one line, but none of its lines is
empty, and so it holds no two newlines in a row and does not end in one. This is enough for the
paragraphs of the whole text to be the diagnostics again, in their order.

In the two layouts that write texts as they are, a message or a hint with a newline in it could
bring an empty line with it, and nothing is said of those. The JSON layout escapes newlines, so
there the texts do not matter.
-/

namespace CharMachine

/-! ## Cutting a text at its blank lines -/

/-- A text cut at the first two newlines in a row, what follows them at the first two there, and so
on. No newline belongs to two cuts. -/
def cutAtBlank : List Char → List (List Char)
  | [] => [[]]
  | [c] => [[c]]
  | c :: d :: rest =>
      if c = '\n' ∧ d = '\n' then [] :: cutAtBlank rest
      else (cutAtBlank (d :: rest)).modifyHead (c :: ·)

/-- The paragraphs of a text: what stands between its blank lines. -/
def paragraphs (s : String) : List String := (cutAtBlank s.toList).map String.ofList

/-- A text in which every newline is followed by a character that is none. -/
inductive IsSolid : List Char → Prop where
  | nil : IsSolid []
  | character {c : Char} {rest : List Char} : c ≠ '\n' → IsSolid rest → IsSolid (c :: rest)
  | newline {c : Char} {rest : List Char} :
      c ≠ '\n' → IsSolid (c :: rest) → IsSolid ('\n' :: c :: rest)

theorem cutAtBlank_cons_of_ne {c : Char} (hc : c ≠ '\n') (rest : List Char) :
    cutAtBlank (c :: rest) = (cutAtBlank rest).modifyHead (c :: ·) := by
  cases rest with
  | nil => rfl
  | cons d rest => rw [cutAtBlank, if_neg fun h => hc h.1]

theorem cutAtBlank_cons_cons_of_ne (c : Char) {d : Char} (hd : d ≠ '\n') (rest : List Char) :
    cutAtBlank (c :: d :: rest) = (cutAtBlank (d :: rest)).modifyHead (c :: ·) := by
  rw [cutAtBlank, if_neg fun h => hd h.2]

theorem IsSolid.cutAtBlank_eq {part : List Char} (h : IsSolid part) : cutAtBlank part = [part] := by
  induction h with
  | nil => rfl
  | character hc _ ih => rw [cutAtBlank_cons_of_ne hc, ih, List.modifyHead_cons]
  | newline hc _ ih => rw [cutAtBlank_cons_cons_of_ne _ hc, ih, List.modifyHead_cons]

/-- The first cut behind a solid part is the one that ends it. -/
theorem IsSolid.cutAtBlank_append {part : List Char} (h : IsSolid part) (rest : List Char) :
    cutAtBlank (part ++ '\n' :: '\n' :: rest) = part :: cutAtBlank rest := by
  induction h with
  | nil => rw [List.nil_append, cutAtBlank, if_pos ⟨rfl, rfl⟩]
  | character hc _ ih =>
      rw [List.cons_append, cutAtBlank_cons_of_ne hc, ih, List.modifyHead_cons]
  | newline hc _ ih =>
      rw [List.cons_append] at ih
      rw [List.cons_append, List.cons_append, cutAtBlank_cons_cons_of_ne _ hc, ih,
        List.modifyHead_cons]

/-- A part that is not solid can lose a newline to the next one. -/
example : paragraphs ("a\n" ++ "\n\n" ++ "b") = ["a", "\nb"] := by decide

theorem cutAtBlank_intercalate {parts : List (List Char)} (hne : parts ≠ [])
    (h : ∀ part ∈ parts, IsSolid part) :
    cutAtBlank (['\n', '\n'].intercalate parts) = parts := by
  induction parts with
  | nil => exact absurd rfl hne
  | cons first others ih =>
      have hfirst := h first List.mem_cons_self
      cases others with
      | nil =>
          rw [List.intercalate_singleton]
          exact hfirst.cutAtBlank_eq
      | cons second others =>
          have hothers := ih (List.cons_ne_nil _ _) fun part hpart =>
            h part (List.mem_cons_of_mem _ hpart)
          rw [List.intercalate_cons_cons, List.append_assoc, List.cons_append, List.cons_append,
            List.nil_append, hfirst.cutAtBlank_append, hothers]

/-! ## Solid lines -/

theorem isSolid_append_of_notMem {line rest : List Char} (hline : '\n' ∉ line)
    (hrest : IsSolid rest) : IsSolid (line ++ rest) := by
  induction line with
  | nil => exact hrest
  | cons c line ih =>
      apply IsSolid.character
      · exact fun e => hline (e ▸ List.mem_cons_self)
      · exact ih fun hmem => hline (List.mem_cons_of_mem c hmem)

theorem isSolid_of_notMem {line : List Char} (h : '\n' ∉ line) : IsSolid line := by
  have happend := isSolid_append_of_notMem h .nil
  rwa [List.append_nil] at happend

/-- Lines that are not empty make a solid text. -/
theorem isSolid_intercalate {lines : List (List Char)} (hline : ∀ line ∈ lines, '\n' ∉ line)
    (hne : ∀ line ∈ lines, line ≠ []) : IsSolid (['\n'].intercalate lines) := by
  induction lines with
  | nil => exact .nil
  | cons first others ih =>
      have hfirst := hline first List.mem_cons_self
      have hsolid := ih (fun line hmem => hline line (List.mem_cons_of_mem _ hmem))
        fun line hmem => hne line (List.mem_cons_of_mem _ hmem)
      cases others with
      | nil =>
          rw [List.intercalate_singleton]
          exact isSolid_of_notMem hfirst
      | cons second others =>
          have hsecond : second ∈ first :: second :: others := by simp
          obtain ⟨c, rest, rfl⟩ := List.exists_cons_of_ne_nil (hne second hsecond)
          have hc : c ≠ '\n' := fun e => hline _ hsecond (e ▸ List.mem_cons_self)
          rw [List.intercalate_cons_cons, List.append_assoc]
          apply isSolid_append_of_notMem hfirst
          -- The newline is followed by the first character of the second line.
          rw [List.intercalate_cons_cons_left] at hsolid ⊢
          exact .newline hc hsolid

/-! ## Written diagnostics -/

namespace Diagnostic

/-- Neither the message nor the hint brings a newline with it. -/
structure OneLine (diagnostic : Diagnostic) : Prop where
  message : '\n' ∉ diagnostic.message.toList
  hint : ∀ hint ∈ diagnostic.hint, '\n' ∉ hint.toList

/-- One of the diagnostics that the machine and the quoted-string table report. -/
inductive IsStandard : Diagnostic → Prop where
  | unknownState (state : Int) : IsStandard (.unknownState state)
  | inputTooLarge (length limit : Int) : IsStandard (.inputTooLarge length limit)
  | invalidLeading : IsStandard .invalidLeadingCharacters
  | invalidTrailing (position : Int) (span : Option Span) :
      IsStandard (.invalidTrailingCharacters position span)
  | invalidEscape (position : Int) (span : Option Span) :
      IsStandard (.invalidEscapeCharacter position span)

/-- For words that are given letter by letter, as literals are, so that they need not be decoded. -/
theorem newline_notMem_ofList {letters : List Char} (h : '\n' ∉ letters) :
    '\n' ∉ (String.ofList letters).toList := by
  rwa [String.toList_ofList]

theorem newline_notMem_toString_int (n : Int) : '\n' ∉ (toString n).toList := by
  intro hmem
  exact absurd (Json.printable_toString n _ hmem) (by decide)

/-- The standard diagnostics are worded in one line, whatever numbers are in them. -/
theorem IsStandard.oneLine {diagnostic : Diagnostic} (h : diagnostic.IsStandard) :
    diagnostic.OneLine := by
  have hnumber := newline_notMem_toString_int
  have hhint {letters : List Char} (hletters : '\n' ∉ letters) :
      ∀ hint ∈ some (String.ofList letters), '\n' ∉ hint.toList := by
    intro hint hmem
    cases hmem
    exact newline_notMem_ofList hletters
  cases h with
  | unknownState state =>
      refine ⟨?_, hhint (by decide)⟩
      simp only [Diagnostic.unknownState, String.toList_append, List.mem_append, not_or]
      exact ⟨newline_notMem_ofList (by decide), hnumber state⟩
  | inputTooLarge length limit =>
      refine ⟨?_, hhint (by decide)⟩
      simp only [Diagnostic.inputTooLarge, String.toList_append, List.mem_append, not_or]
      exact ⟨⟨⟨⟨by decide, hnumber length⟩, by decide⟩, hnumber limit⟩, by decide⟩
  | invalidLeading => exact ⟨newline_notMem_ofList (by decide), hhint (by decide)⟩
  | invalidTrailing position span =>
      refine ⟨?_, hhint (by decide)⟩
      simp only [invalidTrailingCharacters, String.toList_append, List.mem_append, not_or]
      exact ⟨newline_notMem_ofList (by decide), hnumber position⟩
  | invalidEscape position span =>
      refine ⟨?_, hhint (by decide)⟩
      simp only [invalidEscapeCharacter, String.toList_append, List.mem_append, not_or]
      exact ⟨newline_notMem_ofList (by decide), hnumber position⟩

end Diagnostic

namespace Formatter

variable {formatter : Formatter} {diagnostic : Diagnostic}

/-- Clipping takes characters away and adds dots. -/
theorem newline_notMem_content {s : String} (h : '\n' ∉ s.toList) :
    '\n' ∉ (formatter.content s).toList := by
  rw [content]
  split
  · rw [clip]
    split
    · rw [String.toList_append, String.toList_ofList, List.mem_append, not_or]
      exact ⟨fun hmem => h (List.mem_of_mem_take hmem), by decide⟩
    · exact h
  · exact h

theorem newline_notMem_hint? (h : diagnostic.OneLine) :
    ∀ hint ∈ formatter.hint? diagnostic, '\n' ∉ hint.toList := by
  intro shown hshown
  obtain ⟨hint, hhint, rfl⟩ := Option.map_eq_some_iff.mp hshown
  exact newline_notMem_content (h.hint hint (Option.filter_eq_some_iff.mp hhint).1)

/-- The lines of an annotated diagnostic are lines, and none is empty. -/
theorem isSolid_annotatedLines (h : diagnostic.OneLine) :
    IsSolid ("\n".intercalate (formatter.annotatedLines diagnostic)).toList := by
  rw [String.toList_intercalate]
  have hlaid : ∀ line ∈ formatter.annotatedLines diagnostic,
      '\n' ∉ line.toList ∧ line.toList ≠ [] := by
    intro line hline
    rw [annotatedLines, List.mem_cons, List.mem_append, Option.mem_toList, Option.mem_toList,
      Option.map_eq_some_iff, Option.map_eq_some_iff] at hline
    rcases hline with rfl | ⟨span, -, rfl⟩ | ⟨hint, hmem, rfl⟩
    · exact ⟨newline_notMem_headerLine (newline_notMem_content h.message), by simp [headerLine]⟩
    · exact ⟨newline_notMem_locationLine span, by simp [locationLine]⟩
    · exact ⟨newline_notMem_helpLine (newline_notMem_hint? h hint hmem), by simp [helpLine]⟩
  apply isSolid_intercalate
  · intro line hline
    obtain ⟨laid, hmem, rfl⟩ := List.mem_map.mp hline
    exact (hlaid laid hmem).1
  · intro line hline
    obtain ⟨laid, hmem, rfl⟩ := List.mem_map.mp hline
    exact (hlaid laid hmem).2

theorem newline_notMem_plainLine (h : diagnostic.OneLine) :
    '\n' ∉ (formatter.plainLine diagnostic).toList := by
  simp only [plainLine, String.toList_append, List.mem_append, not_or]
  exact ⟨⟨diagnostic.code.newline_notMem_name, by decide⟩, newline_notMem_content h.message⟩

theorem newline_notMem_writeObject (fields : List Json.Field) :
    '\n' ∉ (Json.writeObject fields).toList := by
  intro hmem
  exact absurd (Json.printable_writeObject fields _ hmem) (by decide)

/-- A written diagnostic is solid: in the JSON layout always, in the others if its texts have one
line each. -/
theorem isSolid_format (h : formatter.layout ≠ .json → diagnostic.OneLine) :
    IsSolid (formatter.format diagnostic).toList := by
  rw [format]
  cases hlayout : formatter.layout with
  | rust => exact isSolid_annotatedLines (h (by rw [hlayout]; decide))
  | simple => exact isSolid_of_notMem (newline_notMem_plainLine (h (by rw [hlayout]; decide)))
  | json => exact isSolid_of_notMem (newline_notMem_writeObject _)

/-- The paragraphs of several diagnostics written together are the diagnostics, each written by
itself, in their order. In the JSON layout this is so whatever their texts hold; in the others no
message or hint may bring a newline with it, and those of the standard diagnostics do not. -/
theorem paragraphs_formatAll (formatter : Formatter) :
    (∀ diagnostics, diagnostics ≠ [] →
      (formatter.layout ≠ .json → ∀ diagnostic ∈ diagnostics, diagnostic.OneLine) →
      paragraphs (formatter.formatAll diagnostics) = diagnostics.map formatter.format) ∧
    ∀ diagnostic : Diagnostic, diagnostic.IsStandard → diagnostic.OneLine := by
  refine ⟨?_, fun _ hstandard => hstandard.oneLine⟩
  intro diagnostics hne hlines
  have hsolid : ∀ part ∈ (diagnostics.map formatter.format).map String.toList, IsSolid part := by
    intro part hpart
    rw [List.map_map, List.mem_map] at hpart
    obtain ⟨diagnostic, hmem, rfl⟩ := hpart
    exact isSolid_format fun hlayout => hlines hlayout diagnostic hmem
  have hnil : (diagnostics.map formatter.format).map String.toList ≠ [] := by
    simpa using hne
  rw [paragraphs, formatAll, String.toList_intercalate]
  show (cutAtBlank (['\n', '\n'].intercalate _)).map String.ofList = _
  rw [cutAtBlank_intercalate hnil hsolid, List.map_map]
  exact (List.map_congr_left fun s _ => String.ofList_toList).trans (List.map_id _)

/-- A diagnostic that brings blank lines with it wherever it can. -/
def spread : Diagnostic where
  code := .unknownState
  message := "state\n\n7"
  hint := some "\n\n"
  severity := "\n\n"

/-- Blank lines in the texts and a standard diagnostic in several coloured lines, its message cut
from the end. -/
theorem paragraphs_formatAll_spread :
    let json : Formatter := { layout := .json }
    let rust : Formatter := { sanitize := true, color := true, maxContentLength := -50 }
    let trailing := Diagnostic.invalidTrailingCharacters 5
      (some ⟨4, 5, 2, 1, by decide, by decide, by decide⟩)
    paragraphs (json.formatAll [spread, spread]) = [json.format spread, json.format spread] ∧
    paragraphs (rust.formatAll [trailing, .unknownState (-7)]) =
      ["\x1b[1;31merror\x1b[0m[INVALID_TRAILING_CHARACTERS]: Invalid trailing c...\n"
          ++ "  --> line 2, column 1\n  = help: Nothing m...",
        "\x1b[1;31merror\x1b[0m[UNKNOWN_STATE]: ...\n  = help: Regi..."] := by
  intro json rust trailing
  refine ⟨?_, ?_⟩
  · exact (paragraphs_formatAll json).1 [spread, spread] (by decide) fun h => absurd rfl h
  · have hone : ∀ diagnostic ∈ [trailing, .unknownState (-7)], diagnostic.OneLine := by
      intro diagnostic hmem
      rw [List.mem_cons, List.mem_singleton] at hmem
      rcases hmem with rfl | rfl
      · exact (paragraphs_formatAll rust).2 _ (.invalidTrailing 5 _)
      · exact (paragraphs_formatAll rust).2 _ (.unknownState (-7))
    have htrailing : rust.format trailing =
        "\x1b[1;31merror\x1b[0m[INVALID_TRAILING_CHARACTERS]: Invalid trailing c...\n"
          ++ "  --> line 2, column 1\n  = help: Nothing m..." := by
      decide +kernel
    have hunknown : rust.format (.unknownState (-7)) =
        "\x1b[1;31merror\x1b[0m[UNKNOWN_STATE]: ...\n  = help: Regi..." := by
      decide +kernel
    rw [← htrailing, ← hunknown]
    exact (paragraphs_formatAll rust).1 _ (by decide) fun _ => hone

/-- In a layout that writes texts as they are, a blank line in a message cuts the diagnostic. -/
example :
    paragraphs (({ layout := .simple } : Formatter).formatAll [spread]) =
      ["UNKNOWN_STATE: state", "7"] := by
  decide +kernel

end Formatter

end CharMachine
