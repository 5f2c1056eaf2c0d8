import CharMachine.Proofs.Json.Grammar

/-!
# Reading JSON texts

`decode` reads a text by the grammar. A reader takes what it can from the front of a text and
returns a value with the rest; where the grammar has a choice, the readers of its sides are tried
in order.
-/

namespace CharMachine.Json

/-- Takes a value off the front of a text, if the text starts with one. -/
abbrev Reader (α : Type) := List Char → Option (α × List Char)

variable {α β : Type}

/-- The value without reading anything. -/
def give (value : α) : Reader α := fun chars => some (value, chars)

def mapped (f : α → β) (reader : Reader α) : Reader β :=
  fun chars => (reader chars).map (Prod.map f id)

/-- The word, then what the reader takes. -/
def after (word : List Char) (reader : Reader α) : Reader α := fun chars =>
  if word.isPrefixOf chars then reader (chars.drop word.length) else none

/-- One of the words of a table, then what the reader for its entry takes. -/
def readTable (table : List (α × List Char)) (reader : α → Reader β) : Reader β := fun chars =>
  table.findSome? fun entry => after entry.2 (reader entry.1) chars

def skipBlank (chars : List Char) : List Char := chars.dropWhile isBlank

/-! ## Texts -/

def readPlain : Reader Char
  | [] => none
  | c :: rest => if 0x20 ≤ c.toNat ∧ c ≠ '"' ∧ c ≠ '\\' then some (c, rest) else none

def readHex : Reader Nat
  | a :: b :: c :: d :: rest => (code? a b c d).map (·, rest)
  | _ => none

def readCode : Reader Nat := after ['\\', 'u'] readHex

/-- A character by its code: one code, or a surrogate pair. -/
def readCoded : Reader Char := fun chars => do
  let (first, rest) ← readCode chars
  if first.isValidChar then some (Char.ofNat first, rest)
  else
    let (second, rest) ← readCode rest
    if IsHighSurrogate first ∧ IsLowSurrogate second then
      some (joinSurrogates first second, rest)
    else none

def readUnit : Reader Char := fun chars =>
  (readPlain chars).or ((readTable shortEscapes give chars).or (readCoded chars))

/-- The characters of a text and its closing quote. -/
def readBody : Nat → Reader (List Char)
  | 0, _ => none
  | fuel + 1, chars => (after ['"'] (give []) chars).or do
      let (c, rest) ← readUnit chars
      mapped (c :: ·) (readBody fuel) rest

def readText : Reader String :=
  after ['"'] fun chars => mapped String.ofList (readBody chars.length) chars

/-! ## Numbers -/

def readDigits : Reader (List Char) := fun chars =>
  if chars.takeWhile Char.isDigit = [] then none
  else some (chars.takeWhile Char.isDigit, chars.dropWhile Char.isDigit)

def readWhole : Reader (List Char) := fun chars => do
  let (digits, rest) ← readDigits chars
  if digits.head? = some '0' ∧ digits ≠ ['0'] then none else some (digits, rest)

def readFraction : Reader (List Char) := fun chars =>
  (after ['.'] readDigits chars).or (give [] chars)

def readExponent : Reader Int := fun chars =>
  (readTable exponentMarks (fun factor => mapped (factor * natural ·) readDigits) chars).or
    (give 0 chars)

def readMagnitude : Reader (Nat × Int) := fun chars => do
  let (whole, rest) ← readWhole chars
  let (fraction, rest) ← readFraction rest
  let (exponent, rest) ← readExponent rest
  some ((natural (whole ++ fraction), exponent - fraction.length), rest)

def readNumber : Reader Value :=
  readTable signs fun factor =>
    mapped (fun magnitude => .number (factor * magnitude.1) magnitude.2) readMagnitude

/-! ## Values -/

/-- Parts with commas between them, and what closes them. -/
def readParts (part : Reader α) (closing : Char) : Nat → Reader (List α)
  | 0, _ => none
  | fuel + 1, chars => do
    let (first, rest) ← part chars
    (after [','] (mapped (first :: ·) (readParts part closing fuel)) rest).or
      (after [closing] (give [first]) rest)

/-- A bracketed list of parts, which may be empty. -/
def readListed (part : Reader α) (opening closing : Char) : Reader (List α) :=
  after [opening] fun chars =>
    (after [closing] (give []) (skipBlank chars)).or (readParts part closing chars.length chars)

/-- A value and the blanks on both sides of it. -/
def readItem (value : Reader Value) : Reader Value := fun chars =>
  (value (skipBlank chars)).map (Prod.map id skipBlank)

def readMember (value : Reader Value) : Reader (String × Value) := fun chars => do
  let (name, rest) ← readText (skipBlank chars)
  after [':'] (mapped (name, ·) (readItem value)) (skipBlank rest)

/-- A value that nests no deeper than the fuel. A quote or an opening bracket settles what kind of
value follows. -/
def readValue : Nat → Reader Value
  | 0, _ => none
  | fuel + 1, chars =>
    if chars.head? = some '"' then mapped .text readText chars
    else if chars.head? = some '[' then
      mapped .array (readListed (readItem (readValue fuel)) '[' ']') chars
    else if chars.head? = some '\x7b' then
      mapped .object (readListed (readMember (readValue fuel)) '\x7b' '\x7d') chars
    else (readTable literals give chars).or (readNumber chars)

/-- The value of a JSON text. A text nests no deeper than it is long. -/
def decode (text : String) : Option Value := do
  let (value, rest) ← readItem (readValue (text.length + 1)) text.toList
  if rest = [] then some value else none

/-! ## What the parts of a reader take -/

@[simp] theorem after_nil (reader : Reader α) (chars : List Char) :
    after [] reader chars = reader chars := by
  simp [after]

@[simp] theorem after_cons_cons (c d : Char) (word chars : List Char) (reader : Reader α) :
    after (c :: word) reader (d :: chars) = if c = d then after word reader chars else none := by
  by_cases h : c = d <;> simp [after, h]

theorem mapped_eq_some {f : α → β} {reader : Reader α} {chars rest : List Char} {value : α}
    (h : reader chars = some (value, rest)) : mapped f reader chars = some (f value, rest) := by
  simp [mapped, h]

end CharMachine.Json
