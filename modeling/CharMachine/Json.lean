/-!
# JSON objects on one line

An object is a list of named fields whose values are texts or numbers, written in the order of the
list. A text keeps every character as it is except the quote, the backslash and the characters
below U+0020, so a written object holds no line break.
-/

namespace CharMachine.Json

/-- The values a field may hold. -/
inductive Scalar where
  | text (s : String)
  | number (n : Int)
  deriving DecidableEq, Repr

/-- A named value. -/
structure Field where
  name : String
  value : Scalar
  deriving DecidableEq, Repr

/-- The lower-case hexadecimal digit of a number below sixteen. -/
def hexDigit (n : Nat) : Char := Nat.digitChar (n % 16)

/-- One character of a text. The five control characters with a short escape use it; the other
control characters are written with four hexadecimal digits. -/
def escapeChar (c : Char) : List Char :=
  if c = '"' then ['\\', '"']
  else if c = '\\' then ['\\', '\\']
  else if c = '\n' then ['\\', 'n']
  else if c = '\r' then ['\\', 'r']
  else if c = '\t' then ['\\', 't']
  else if c = '\x0c' then ['\\', 'f']
  else if c = '\x08' then ['\\', 'b']
  else if c.toNat < 0x20 then
    ['\\', 'u', '0', '0', hexDigit (c.toNat / 16), hexDigit c.toNat]
  else [c]

def escape (chars : List Char) : List Char := chars.flatMap escapeChar

def writeText (s : String) : String := "\"" ++ String.ofList (escape s.toList) ++ "\""

def Scalar.write : Scalar → String
  | .text s => writeText s
  | .number n => toString n

def Field.write (field : Field) : String := writeText field.name ++ ": " ++ field.value.write

/-- The object with the given fields, in the given order. -/
def writeObject (fields : List Field) : String :=
  "\x7b" ++ ", ".intercalate (fields.map Field.write) ++ "\x7d"

end CharMachine.Json
