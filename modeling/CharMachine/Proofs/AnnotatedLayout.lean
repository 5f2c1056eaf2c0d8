import CharMachine.Diagnostic.Layout
import CharMachine.Proofs.Places

/-!
# The lines of an annotated diagnostic

An annotated diagnostic is written line by line. Its own parts hold no newline: codes, severities,
colours and numbers. So the lines of the written text are those that were laid out, if neither the
message nor the hint brings a newline with it. Nothing is said of diagnostics that do.
-/

namespace CharMachine

theorem isDigit_of_mem_toString {n : Nat} {c : Char} (h : c ∈ (toString n).toList) :
    c.isDigit = true := by
  have hdigits : (toString n).toList = Nat.toDigits 10 n := Nat.toList_repr
  rw [hdigits] at h
  exact Nat.isDigit_of_mem_toDigits (by decide) (by decide) h

theorem newline_notMem_toString (n : Nat) : '\n' ∉ (toString n).toList := by
  intro hmem
  exact absurd (isDigit_of_mem_toString hmem) (by decide)

theorem Diagnostic.Code.newline_notMem_name (code : Diagnostic.Code) : '\n' ∉ code.name.toList := by
  cases code <;> decide

namespace Formatter

variable (formatter : Formatter) (diagnostic : Diagnostic)

theorem newline_notMem_severityLabel : '\n' ∉ (formatter.severityLabel diagnostic).toList := by
  unfold severityLabel colorOn severityWord
  repeat' split
  all_goals decide

theorem newline_notMem_locationLine (span : Span) : '\n' ∉ (locationLine span).toList := by
  simp only [locationLine, String.toList_append, List.mem_append, not_or]
  exact ⟨⟨⟨by decide, newline_notMem_toString _⟩, by decide⟩, newline_notMem_toString _⟩

variable {formatter diagnostic}

theorem newline_notMem_headerLine
    (hmessage : '\n' ∉ (formatter.content diagnostic.message).toList) :
    '\n' ∉ (formatter.headerLine diagnostic).toList := by
  have hlabel := formatter.newline_notMem_severityLabel diagnostic
  have hname := diagnostic.code.newline_notMem_name
  simp only [headerLine, String.toList_append, List.mem_append, not_or]
  exact ⟨⟨⟨⟨hlabel, by decide⟩, hname⟩, by decide⟩, hmessage⟩

theorem newline_notMem_helpLine {hint : String} (h : '\n' ∉ hint.toList) :
    '\n' ∉ (helpLine hint).toList := by
  simp only [helpLine, String.toList_append, List.mem_append, not_or]
  exact ⟨by decide, h⟩

/-- The lines of an annotated diagnostic are the ones that were laid out. -/
theorem lines_format (hlayout : formatter.layout = .rust)
    (hmessage : '\n' ∉ (formatter.content diagnostic.message).toList)
    (hhint : ∀ hint ∈ formatter.hint? diagnostic, '\n' ∉ hint.toList) :
    (Text.ofString (formatter.format diagnostic)).lines =
      (formatter.annotatedLines diagnostic).map String.toList := by
  have hformat : formatter.format diagnostic =
      "\n".intercalate (formatter.annotatedLines diagnostic) := by
    rw [format, hlayout]
  rw [Text.lines, Text.toList_ofString, hformat, String.toList_intercalate]
  refine List.splitOn_intercalate '\n' ?_ ?_
  · intro line hline
    obtain ⟨laid, hlaid, rfl⟩ := List.mem_map.mp hline
    rw [annotatedLines, List.mem_cons, List.mem_append, Option.mem_toList, Option.mem_toList,
      Option.map_eq_some_iff, Option.map_eq_some_iff] at hlaid
    rcases hlaid with rfl | ⟨span, -, rfl⟩ | ⟨hint, hmem, rfl⟩
    · exact newline_notMem_headerLine hmessage
    · exact newline_notMem_locationLine span
    · exact newline_notMem_helpLine (hhint hint hmem)
  · rw [annotatedLines, List.map_cons]
    exact List.cons_ne_nil _ _

end Formatter

end CharMachine
