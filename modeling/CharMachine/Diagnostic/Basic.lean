import CharMachine.Catalogue
import CharMachine.Span

/-!
# Diagnostics

A diagnostic is a coded message about a parse, with an optional place in the text and an optional
hint. The severity is a free text; only the layouts give one of its values a meaning.
-/

namespace CharMachine

namespace Diagnostic

/-- What a diagnostic is about. -/
inductive Code where
  | invalidLeadingCharacters
  | invalidTrailingCharacters
  | invalidEscapeCharacter
  | unknownState
  | inputTooLarge
  deriving DecidableEq, Repr

namespace Code

def name : Code → String
  | invalidLeadingCharacters => "INVALID_LEADING_CHARACTERS"
  | invalidTrailingCharacters => "INVALID_TRAILING_CHARACTERS"
  | invalidEscapeCharacter => "INVALID_ESCAPE_CHARACTER"
  | unknownState => "UNKNOWN_STATE"
  | inputTooLarge => "INPUT_TOO_LARGE"

/-- The stable number of a code: the quoted-string codes count from 1, those of the machine itself
from 1001. -/
def value : Code → Nat
  | invalidLeadingCharacters => 1
  | invalidTrailingCharacters => 2
  | invalidEscapeCharacter => 3
  | unknownState => 1001
  | inputTooLarge => 1002

def catalogue : Catalogue Code where
  title := "DiagnosticCode"
  members :=
    [invalidLeadingCharacters, invalidTrailingCharacters, invalidEscapeCharacter, unknownState,
      inputTooLarge]
  name := name
  key code := .number code.value
  complete code := by cases code <;> decide

end Code

end Diagnostic

/-- A coded message, its place in the text and a hint. -/
structure Diagnostic where
  code : Diagnostic.Code
  message : String
  span : Option Span := none
  hint : Option String := none
  severity : String := "error"
  deriving DecidableEq, Repr

end CharMachine
