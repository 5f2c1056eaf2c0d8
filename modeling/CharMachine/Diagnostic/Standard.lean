import CharMachine.Diagnostic.Basic

/-!
# The standard diagnostics

The five diagnostics that the machine and the quoted-string table report, with their wording.
Numbers are integers of either sign because the wording does not depend on where they came from.
-/

namespace CharMachine.Diagnostic

def unknownState (state : Int) : Diagnostic where
  code := .unknownState
  message := "Unknown state: " ++ toString state
  hint := some "Register a handler for this state in the handler table"

def inputTooLarge (length limit : Int) : Diagnostic where
  code := .inputTooLarge
  message := "Input length " ++ toString length ++ " exceeds maximum of " ++ toString limit
    ++ " characters"
  hint := some "Raise ParserConfig.max_input_length or pass None to disable the limit"

def invalidLeadingCharacters : Diagnostic where
  code := .invalidLeadingCharacters
  message := "Invalid leading characters before first quote character"
  hint := some "Quoted strings must start with \""

def invalidTrailingCharacters (position : Int) (span : Option Span) : Diagnostic where
  code := .invalidTrailingCharacters
  message := "Invalid trailing characters after last quote character at position "
    ++ toString position
  span := span
  hint := some "Nothing may follow the closing \"; escape inner quotes as \\\""

def invalidEscapeCharacter (position : Int) (span : Option Span) : Diagnostic where
  code := .invalidEscapeCharacter
  message := "Invalid escape character at position " ++ toString position
  span := span
  hint := some "Only a quote character may follow the escape character"

end CharMachine.Diagnostic
