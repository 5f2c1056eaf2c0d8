import CharMachine.Literal.Hidden

/-!
# Literals

How a text is shown inside a message: between quotes, with the characters that cannot be shown as
they are written as escapes. Single quotes are used unless the text has a single quote and no
double quote.
-/

namespace CharMachine.Literal

/-- The last `width` hexadecimal digits of a number, in lower case. -/
def hexDigits : (width : Nat) → Nat → List Char
  | 0, _ => []
  | width + 1, n => hexDigits width (n / 16) ++ [Nat.digitChar (n % 16)]

/-- A code point in the shortest of the three escape widths that holds it. -/
def codePoint (c : Char) : List Char :=
  let n := c.toNat
  if n < 0x100 then '\\' :: 'x' :: hexDigits 2 n
  else if n < 0x10000 then '\\' :: 'u' :: hexDigits 4 n
  else '\\' :: 'U' :: hexDigits 8 n

def escapeChar (quote c : Char) : List Char :=
  if c = quote ∨ c = '\\' then ['\\', c]
  else if c = '\n' then ['\\', 'n']
  else if c = '\r' then ['\\', 'r']
  else if c = '\t' then ['\\', 't']
  else if isHidden c then codePoint c
  else [c]

def quoteFor (chars : List Char) : Char :=
  if '\x27' ∈ chars ∧ '"' ∉ chars then '"' else '\x27'

/-- The text between quotes. -/
def write (s : String) : String :=
  let quote := quoteFor s.toList
  String.ofList (quote :: s.toList.flatMap (escapeChar quote) ++ [quote])

end CharMachine.Literal
