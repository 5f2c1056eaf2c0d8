import CharMachine.Diagnostic.Layout
import CharMachine.Proofs.Json.Writer

/-!
# Diagnostics as JSON objects

Main result: the JSON layout of any diagnostic is one line of JSON that stands for one object, and
that object gives back everything the layout shows. Texts are clipped before they are written, so
a clipped text is a text like any other and its end never falls into an escape.
-/

namespace CharMachine

theorem Diagnostic.Code.value_injective {code other : Diagnostic.Code}
    (h : code.value = other.value) : code = other := by
  cases code <;> cases other <;> first | rfl | cases h

theorem Span.eq_of_bounds {span other : Span} (hstart : span.start = other.start)
    (hstop : span.stop = other.stop) (hline : span.line = other.line)
    (hcolumn : span.column = other.column) : span = other := by
  cases span
  cases other
  simp_all

/-- The hint of a diagnostic, unless it is empty. -/
def Diagnostic.statedHint (diagnostic : Diagnostic) : Option String :=
  diagnostic.hint.filter (· ≠ "")

namespace Formatter

open Json (Value Printable Denotes)

/-- The members tell of the diagnostic what the formatter shows of it: each key once and in its
place, and under each key the value that belongs there, if any. -/
structure Shows (formatter : Formatter) (diagnostic : Diagnostic)
    (members : List (String × Value)) : Prop where
  keys : members.map Prod.fst = ["code", "code_value", "message", "severity"]
    ++ (if diagnostic.span.isSome then ["line", "column", "start", "end"] else [])
    ++ (if diagnostic.statedHint.isSome then ["hint"] else [])
  nodup : (members.map Prod.fst).Nodup
  code : members.lookup "code" = some (.text diagnostic.code.name)
  code_value : members.lookup "code_value" = some (.number diagnostic.code.value 0)
  message : members.lookup "message" = some (.text (formatter.content diagnostic.message))
  severity : members.lookup "severity" = some (.text diagnostic.severity)
  line : members.lookup "line" = diagnostic.span.map fun span => .number span.line 0
  column : members.lookup "column" = diagnostic.span.map fun span => .number span.column 0
  start : members.lookup "start" = diagnostic.span.map fun span => .number span.start 0
  stop : members.lookup "end" = diagnostic.span.map fun span => .number span.stop 0
  hint : members.lookup "hint"
    = diagnostic.statedHint.map fun hint => .text (formatter.content hint)

theorem hint?_eq (formatter : Formatter) (diagnostic : Diagnostic) :
    formatter.hint? diagnostic = diagnostic.statedHint.map formatter.content := rfl

theorem shows_fields (formatter : Formatter) (diagnostic : Diagnostic) :
    Shows formatter diagnostic ((formatter.fields diagnostic).map Json.Field.entry) := by
  -- The keys depend on two things only: is there a span, and is there a hint to show.
  cases hspan : diagnostic.span <;> cases hhint : diagnostic.statedHint <;>
  constructor <;>
  simp [fields, hint?_eq, hspan, hhint, spanFields, Json.Field.entry, Json.Scalar.toValue,
    List.lookup_cons]

theorem Shows.unique {formatter : Formatter} {diagnostic other : Diagnostic}
    {members : List (String × Value)} (h : Shows formatter diagnostic members)
    (h' : Shows formatter other members) :
    diagnostic.code = other.code ∧ diagnostic.severity = other.severity ∧
      diagnostic.span = other.span ∧
      formatter.content diagnostic.message = formatter.content other.message ∧
      formatter.hint? diagnostic = formatter.hint? other := by
  have hcode := h.code_value.symm.trans h'.code_value
  have hseverity := h.severity.symm.trans h'.severity
  have hline := h.line.symm.trans h'.line
  have hcolumn := h.column.symm.trans h'.column
  have hstart := h.start.symm.trans h'.start
  have hstop := h.stop.symm.trans h'.stop
  have hmessage := h.message.symm.trans h'.message
  have hhint := h.hint.symm.trans h'.hint
  refine ⟨Diagnostic.Code.value_injective (by simpa [Int.ofNat_inj] using hcode),
    by simpa using hseverity, ?_, by simpa using hmessage, ?_⟩
  · cases hspan : diagnostic.span with
    | none =>
      have hnone : other.span = none := by simpa [hspan] using hline.symm
      exact hnone.symm
    | some span =>
      cases hother : other.span with
      | none => simp [hspan, hother] at hline
      | some other =>
        simp only [hspan, hother, Option.map_some, Option.some.injEq, Value.number.injEq,
          Int.ofNat_inj, and_true] at hline hcolumn hstart hstop
        rw [Span.eq_of_bounds hstart hstop hline hcolumn]
  · rw [hint?_eq, hint?_eq]
    cases hshown : diagnostic.statedHint with
    | none =>
      have hnone : other.statedHint = none := by simpa [hshown] using hhint.symm
      rw [hnone]
    | some hint =>
      cases hother : other.statedHint with
      | none => simp [hshown, hother] at hhint
      | some other => simpa [hshown, hother] using hhint

/-- The JSON layout is one line that stands for one object. The object shows of the diagnostic all
that the formatter shows of it, so diagnostics with one text agree on everything that is shown:
nothing that stands in a message, a hint or a severity can pass for another part of the object. -/
theorem json_layout_lossless (formatter : Formatter) (hlayout : formatter.layout = .json)
    (diagnostic : Diagnostic) :
    Printable (formatter.format diagnostic).toList ∧
    (∃ members,
      (∀ value, Denotes (formatter.format diagnostic) value ↔ value = .object members) ∧
      Json.decode (formatter.format diagnostic) = some (.object members) ∧
      Shows formatter diagnostic members) ∧
    ∀ other, formatter.format other = formatter.format diagnostic →
      other.code = diagnostic.code ∧ other.severity = diagnostic.severity ∧
        other.span = diagnostic.span ∧
        formatter.content other.message = formatter.content diagnostic.message ∧
        formatter.hint? other = formatter.hint? diagnostic := by
  have hformat (diagnostic : Diagnostic) :
      formatter.format diagnostic = Json.writeObject (formatter.fields diagnostic) := by
    rw [format, hlayout]
  have hdenotes := Json.writeObject_denotes (formatter.fields diagnostic)
  rw [hformat diagnostic]
  refine ⟨Json.printable_writeObject _, ⟨_, ?_, hdenotes.decode, shows_fields formatter diagnostic⟩,
    ?_⟩
  · intro value
    constructor
    · exact fun h => hdenotes.unique h
    · rintro rfl
      exact hdenotes
  · intro other hsame
    have hother := Json.writeObject_denotes (formatter.fields other)
    rw [hformat other] at hsame
    rw [hsame] at hother
    have hmembers := hdenotes.unique hother
    rw [Value.object.injEq] at hmembers
    have hshows := shows_fields formatter other
    rw [hmembers] at hshows
    exact hshows.unique (shows_fields formatter diagnostic)

/-- A message that tries to close its text and open an object of its own, a hint with a control
character that is cut behind a backslash, a severity that looks like an escape. -/
def hostile : Diagnostic where
  code := .unknownState
  message := "\", \"code\": \"\n"
  span := some ⟨3, 5, 2, 1, by decide, by decide, by decide⟩
  hint := some "\x07\\\\"
  severity := "\\u0022"

theorem json_layout_lossless_hostile :
    let formatter : Formatter := { layout := .json, sanitize := true, maxContentLength := 2 }
    formatter.layout = .json ∧
    formatter.format hostile = "\x7b\"code\": \"UNKNOWN_STATE\", \"code_value\": 1001, "
      ++ "\"message\": \"\\\",...\", \"severity\": \"\\\\u0022\", "
      ++ "\"line\": 2, \"column\": 1, \"start\": 3, \"end\": 5, "
      ++ "\"hint\": \"\\u0007\\\\...\"\x7d" ∧
    ∃ members, Json.decode (formatter.format hostile) = some (.object members) ∧
      members.lookup "message" = some (.text "\",...") ∧
      members.lookup "hint" = some (.text "\x07\\...") ∧
      members.lookup "end" = some (.number 5 0) := by
  intro formatter
  obtain ⟨-, ⟨members, -, hdecode, hshows⟩, -⟩ := json_layout_lossless formatter rfl hostile
  refine ⟨rfl, by decide +kernel, members, hdecode, ?_, ?_, ?_⟩
  · exact hshows.message.trans (congrArg (some ∘ Value.text) (by decide))
  · have hhint : hostile.statedHint = some "\x07\\\\" := by decide
    rw [hshows.hint, hhint]
    exact congrArg (some ∘ Value.text) (by decide)
  · exact hshows.stop

end Formatter

end CharMachine
