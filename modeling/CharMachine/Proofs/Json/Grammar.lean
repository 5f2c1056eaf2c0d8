/-!
# The grammar of JSON texts

`Denotes text value` says that a text is JSON and what it stands for. The rules are those of the
whole language: the literals, numbers with fraction and exponent, both ways of writing a character
by its code, arrays and objects, and blanks around every value and every name.

A number is the mantissa and the exponent of ten that it is written with. An object is the list of
its members, so neither their order nor a repeated name is lost. A code that is half of a surrogate
pair stands for no character: a text that writes one alone denotes nothing.
-/

namespace CharMachine.Json

/-- What a JSON text stands for. -/
inductive Value where
  | null
  | boolean (b : Bool)
  | number (mantissa exponent : Int)
  | text (s : String)
  | array (items : List Value)
  | object (members : List (String × Value))

/-- Space, tab, line feed and carriage return may stand between any two tokens. -/
def isBlank (c : Char) : Bool := c = ' ' || c = '\t' || c = '\n' || c = '\r'

/-! ## Texts -/

/-- The characters that a backslash and one letter stand for. -/
def shortEscapes : List (Char × List Char) :=
  [('"', ['\\', '"']), ('\\', ['\\', '\\']), ('/', ['\\', '/']), ('\x08', ['\\', 'b']),
    ('\x0c', ['\\', 'f']), ('\n', ['\\', 'n']), ('\r', ['\\', 'r']), ('\t', ['\\', 't'])]

/-- The value of a hexadecimal digit in either case. -/
def hexValue? (c : Char) : Option Nat :=
  if c.isDigit then some (c.toNat - '0'.toNat)
  else if 'a' ≤ c ∧ c ≤ 'f' then some (c.toNat - 'a'.toNat + 10)
  else if 'A' ≤ c ∧ c ≤ 'F' then some (c.toNat - 'A'.toNat + 10)
  else none

/-- The code that four hexadecimal digits spell. -/
def code? (a b c d : Char) : Option Nat := do
  let high ← hexValue? a
  let upper ← hexValue? b
  let lower ← hexValue? c
  let low ← hexValue? d
  some (((high * 16 + upper) * 16 + lower) * 16 + low)

def IsHighSurrogate (n : Nat) : Prop := 0xd800 ≤ n ∧ n < 0xdc00

def IsLowSurrogate (n : Nat) : Prop := 0xdc00 ≤ n ∧ n < 0xe000

instance (n : Nat) : Decidable (IsHighSurrogate n) := inferInstanceAs (Decidable (_ ∧ _))

instance (n : Nat) : Decidable (IsLowSurrogate n) := inferInstanceAs (Decidable (_ ∧ _))

/-- The character beyond the first plane that a surrogate pair encodes. -/
def joinSurrogates (high low : Nat) : Char :=
  Char.ofNat (0x10000 + (high - 0xd800) * 0x400 + (low - 0xdc00))

/-- A code written out: `\u` and four hexadecimal digits. -/
inductive IsCode : Nat → List Char → Prop where
  | digits {a b c d : Char} {n : Nat} (spelled : code? a b c d = some n) :
      IsCode n ['\\', 'u', a, b, c, d]

/-- The ways of writing one character of a text. -/
inductive IsUnit : Char → List Char → Prop where
  | plain {c : Char} (printable : 0x20 ≤ c.toNat) (not_quote : c ≠ '"') (not_backslash : c ≠ '\\') :
      IsUnit c [c]
  | short {c : Char} {unit : List Char} (listed : (c, unit) ∈ shortEscapes) : IsUnit c unit
  | code {n : Nat} {unit : List Char} (spelled : IsCode n unit) (valid : n.isValidChar) :
      IsUnit (Char.ofNat n) unit
  | pair {high low : Nat} {first second : List Char} (spelled_high : IsCode high first)
      (spelled_low : IsCode low second) (is_high : IsHighSurrogate high)
      (is_low : IsLowSurrogate low) : IsUnit (joinSurrogates high low) (first ++ second)

/-- The characters of a text, each written in one of its ways. -/
inductive IsText : List Char → List Char → Prop where
  | nil : IsText [] []
  | cons {c : Char} {unit chars written : List Char} (head : IsUnit c unit)
      (tail : IsText chars written) : IsText (c :: chars) (unit ++ written)

/-! ## Numbers -/

/-- The number that decimal digits spell. -/
def natural (digits : List Char) : Nat := Nat.ofDigitChars 10 digits 0

structure IsDigits (digits : List Char) : Prop where
  nonempty : digits ≠ []
  isDigit : ∀ c ∈ digits, c.isDigit

/-- Digits before the point: zero stands alone or not in front. -/
structure IsWhole (digits : List Char) : Prop extends IsDigits digits where
  no_leading_zero : digits.head? = some '0' → digits = ['0']

/-- A fraction, which may be absent: the digits after the point, and how they are written. -/
inductive IsFraction : List Char → List Char → Prop where
  | absent : IsFraction [] []
  | point {digits : List Char} (spelled : IsDigits digits) : IsFraction digits ('.' :: digits)

/-- The marks that open an exponent, with the factor that each stands for. -/
def exponentMarks : List (Int × List Char) :=
  [(1, ['e']), (1, ['e', '+']), (-1, ['e', '-']), (1, ['E']), (1, ['E', '+']), (-1, ['E', '-'])]

/-- An exponent, which may be absent. -/
inductive IsExponent : Int → List Char → Prop where
  | absent : IsExponent 0 []
  | marked {factor : Int} {mark digits : List Char} (listed : (factor, mark) ∈ exponentMarks)
      (spelled : IsDigits digits) : IsExponent (factor * natural digits) (mark ++ digits)

/-- A number without its sign. The digits of the fraction belong to the mantissa, and each of them
takes one off the exponent. -/
inductive IsMagnitude : Nat → Int → List Char → Prop where
  | parts {whole fraction fractionWritten exponentWritten : List Char} {exponent : Int}
      (is_whole : IsWhole whole) (is_fraction : IsFraction fraction fractionWritten)
      (is_exponent : IsExponent exponent exponentWritten) :
      IsMagnitude (natural (whole ++ fraction)) (exponent - fraction.length)
        (whole ++ (fractionWritten ++ exponentWritten))

/-- The signs of a number, with the factor that each stands for. A plus is not one of them. -/
def signs : List (Int × List Char) := [(1, []), (-1, ['-'])]

inductive IsNumber : Int → Int → List Char → Prop where
  | signed {factor : Int} {sign written : List Char} {mantissa : Nat} {exponent : Int}
      (listed : (factor, sign) ∈ signs) (magnitude : IsMagnitude mantissa exponent written) :
      IsNumber (factor * mantissa) exponent (sign ++ written)

/-! ## Values -/

/-- The values that are written as a word. -/
def literals : List (Value × List Char) :=
  [(.null, ['n', 'u', 'l', 'l']), (.boolean true, ['t', 'r', 'u', 'e']),
    (.boolean false, ['f', 'a', 'l', 's', 'e'])]

/-- A value with the characters that write it and the blanks on both sides. -/
structure Item where
  before : List Char
  value : Value
  written : List Char
  after : List Char
  blank_before : ∀ c ∈ before, isBlank c
  blank_after : ∀ c ∈ after, isBlank c

def Item.chars (item : Item) : List Char := item.before ++ (item.written ++ item.after)

/-- A member of an object: a name with the blanks on both sides, a colon, and an item. -/
structure Member extends Item where
  nameBefore : List Char
  name : String
  nameWritten : List Char
  nameAfter : List Char
  blank_nameBefore : ∀ c ∈ nameBefore, isBlank c
  blank_nameAfter : ∀ c ∈ nameAfter, isBlank c
  is_name : IsText name.toList nameWritten

def Member.chars (member : Member) : List Char :=
  member.nameBefore ++ ('"' :: (member.nameWritten ++ '"' ::
    (member.nameAfter ++ ':' :: member.toItem.chars)))

def Member.entry (member : Member) : String × Value := (member.name, member.value)

/-- A value and the characters that write it, without the blanks around it. -/
inductive IsValue : Value → List Char → Prop where
  | literal {value : Value} {written : List Char} (listed : (value, written) ∈ literals) :
      IsValue value written
  | number {mantissa exponent : Int} {written : List Char}
      (is_number : IsNumber mantissa exponent written) :
      IsValue (.number mantissa exponent) written
  | text {s : String} {written : List Char} (is_text : IsText s.toList written) :
      IsValue (.text s) ('"' :: (written ++ ['"']))
  | emptyArray {blank : List Char} (blanks : ∀ c ∈ blank, isBlank c) :
      IsValue (.array []) ('[' :: (blank ++ [']']))
  | array {items : List Item} (nonempty : items ≠ [])
      (each : ∀ item ∈ items, IsValue item.value item.written) :
      IsValue (.array (items.map Item.value))
        ('[' :: ([','].intercalate (items.map Item.chars) ++ [']']))
  | emptyObject {blank : List Char} (blanks : ∀ c ∈ blank, isBlank c) :
      IsValue (.object []) ('\x7b' :: (blank ++ ['\x7d']))
  | object {members : List Member} (nonempty : members ≠ [])
      (each : ∀ member ∈ members, IsValue member.value member.written) :
      IsValue (.object (members.map Member.entry))
        ('\x7b' :: ([','].intercalate (members.map Member.chars) ++ ['\x7d']))

/-- The text is JSON and stands for the value. -/
def Denotes (text : String) (value : Value) : Prop :=
  ∃ item : Item, IsValue item.value item.written ∧ item.value = value ∧ text.toList = item.chars

theorem IsValue.denotes {text : String} {value : Value} (h : IsValue value text.toList) :
    Denotes text value :=
  ⟨⟨[], value, text.toList, [], List.forall_mem_nil _, List.forall_mem_nil _⟩, h, rfl,
    by simp [Item.chars]⟩

end CharMachine.Json
