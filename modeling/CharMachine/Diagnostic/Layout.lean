import CharMachine.Diagnostic.Basic
import CharMachine.Json

/-!
# Laying out diagnostics

A formatter writes a diagnostic in one of three layouts: several annotated lines, one plain line,
or one JSON object. With `sanitize` on, message and hint are clipped to `maxContentLength`
characters before anything else is done with them. The bound is an unchecked integer: a negative
one drops that many characters from the end.
-/

namespace CharMachine

/-- The shapes in which a diagnostic can be written. -/
inductive Layout where
  | rust
  | simple
  | json
  deriving DecidableEq, Repr

namespace Layout

def name : Layout → String
  | rust => "RUST"
  | simple => "SIMPLE"
  | json => "JSON"

def value : Layout → String
  | rust => "rust"
  | simple => "simple"
  | json => "json"

def catalogue : Catalogue Layout where
  title := "OutputFormat"
  members := [rust, simple, json]
  name := name
  key layout := .text layout.value
  complete layout := by cases layout <;> decide

end Layout

/-- How diagnostics are to be written. -/
structure Formatter where
  layout : Layout := .rust
  sanitize : Bool := false
  color : Bool := false
  maxContentLength : Int := 100
  deriving DecidableEq, Repr

namespace Formatter

/-- How many characters a bound keeps of a text with `length` characters. -/
def keptLength (bound : Int) (length : Nat) : Nat :=
  if 0 ≤ bound then bound.toNat else length - (-bound).toNat

/-- A text longer than the bound is cut and marked with an ellipsis. -/
def clip (bound : Int) (s : String) : String :=
  if bound < s.length then String.ofList (s.toList.take (keptLength bound s.length)) ++ "..."
  else s

/-- A message or hint as this formatter shows it. -/
def content (formatter : Formatter) (s : String) : String :=
  if formatter.sanitize then clip formatter.maxContentLength s else s

/-- The hint as shown, if there is one to show: an empty hint counts as none. -/
def hint? (formatter : Formatter) (diagnostic : Diagnostic) : Option String :=
  (diagnostic.hint.filter (· ≠ "")).map formatter.content

/-- A hint that is not empty is one to show. -/
theorem filter_hint {hint : String} (h : hint ≠ "") : (some hint).filter (· ≠ "") = some hint :=
  Option.filter_eq_some_iff.mpr ⟨rfl, decide_eq_true h⟩

/-- The word that opens an annotated diagnostic: every severity but `"warning"` reads as an
error. -/
def severityWord (diagnostic : Diagnostic) : String :=
  if diagnostic.severity = "warning" then "warning" else "error"

/-- The terminal escape that turns a severity word's colour on. -/
def colorOn (diagnostic : Diagnostic) : String :=
  if diagnostic.severity = "warning" then "\x1b[1;33m" else "\x1b[1;31m"

def colorOff : String := "\x1b[0m"

def severityLabel (formatter : Formatter) (diagnostic : Diagnostic) : String :=
  if formatter.color then colorOn diagnostic ++ severityWord diagnostic ++ colorOff
  else severityWord diagnostic

def headerLine (formatter : Formatter) (diagnostic : Diagnostic) : String :=
  formatter.severityLabel diagnostic ++ "[" ++ diagnostic.code.name ++ "]: "
    ++ formatter.content diagnostic.message

def locationLine (span : Span) : String :=
  "  --> line " ++ toString span.line ++ ", column " ++ toString span.column

def helpLine (hint : String) : String := "  = help: " ++ hint

/-- Header, location if there is a span, help if there is a hint. -/
def annotatedLines (formatter : Formatter) (diagnostic : Diagnostic) : List String :=
  formatter.headerLine diagnostic ::
    ((diagnostic.span.map locationLine).toList ++ ((formatter.hint? diagnostic).map helpLine).toList)

def plainLine (formatter : Formatter) (diagnostic : Diagnostic) : String :=
  diagnostic.code.name ++ ": " ++ formatter.content diagnostic.message

def spanFields (span : Span) : List Json.Field :=
  [⟨"line", .number span.line⟩, ⟨"column", .number span.column⟩, ⟨"start", .number span.start⟩,
    ⟨"end", .number span.stop⟩]

/-- The fields of a diagnostic's object, in the order in which they are written. -/
def fields (formatter : Formatter) (diagnostic : Diagnostic) : List Json.Field :=
  [⟨"code", .text diagnostic.code.name⟩, ⟨"code_value", .number diagnostic.code.value⟩,
    ⟨"message", .text (formatter.content diagnostic.message)⟩,
    ⟨"severity", .text diagnostic.severity⟩]
  ++ (diagnostic.span.map spanFields).getD []
  ++ ((formatter.hint? diagnostic).map fun hint => ⟨"hint", .text hint⟩).toList

def format (formatter : Formatter) (diagnostic : Diagnostic) : String :=
  match formatter.layout with
  | .rust => "\n".intercalate (formatter.annotatedLines diagnostic)
  | .simple => formatter.plainLine diagnostic
  | .json => Json.writeObject (formatter.fields diagnostic)

/-- Several diagnostics, a blank line between each two. -/
def formatAll (formatter : Formatter) (diagnostics : List Diagnostic) : String :=
  "\n\n".intercalate (diagnostics.map formatter.format)

end Formatter

namespace Diagnostic

/-- The diagnostic on its own: its annotated lines, without colour and unclipped. -/
def render (diagnostic : Diagnostic) : String := ({} : Formatter).format diagnostic

end Diagnostic

end CharMachine
