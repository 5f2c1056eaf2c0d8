import CharMachine.Parser

/-!
# Quoted strings

The table that takes the quotes off a double-quoted string and resolves its escapes. A quote
inside is written `\"`; a backslash before anything else is an error, and so is anything before the
opening or after the closing quote. A string that is never closed is accepted.

Escapes are resolved by looking one character back and one ahead. There is no state for "the last
character was a backslash".
-/

namespace CharMachine.Quoted

/-- The character that opens and closes a string. -/
def delimiter : Char := '"'

/-- The character that keeps a delimiter from closing the string. -/
def escapeMark : Char := '\\'

/-- Where the table stands in a quoted string. -/
inductive State where
  | unknown
  | inside
  | left
  | invalidLeading
  | invalidTrailing
  | entering
  | invalidEscape
  deriving DecidableEq, Repr

namespace State

def name : State → String
  | unknown => "UNKNOWN"
  | inside => "IN_QUOTED_STRING"
  | left => "LEFT_QUOTED_STRING"
  | invalidLeading => "INVALID_LEADING_CHARACTERS"
  | invalidTrailing => "INVALID_TRAILING_CHARACTERS"
  | entering => "ENTERING_QUOTED_STRING"
  | invalidEscape => "INVALID_ESCAPE_CHARACTER"

/-- The machine's number for a state; `unknown` is the one in which every parse begins. -/
def value : State → Int
  | unknown => Machine.initialState
  | inside => 1
  | left => 2
  | invalidLeading => 3
  | invalidTrailing => 4
  | entering => 5
  | invalidEscape => 6

def catalogue : Catalogue State where
  title := "QuotedStringState"
  members := [unknown, inside, left, invalidLeading, invalidTrailing, entering, invalidEscape]
  name := name
  key state := .number state.value
  complete state := by cases state <;> decide

theorem value_injective {s t : State} (h : s.value = t.value) : s = t := by
  cases s <;> cases t <;> first | rfl | exact absurd h (by decide)

end State

variable {σ : Type}

def enter (state : State) : Program σ Unit := .setState state.value

def atStart : Program σ Unit := do
  let machine ← .machine
  if machine.current? = some delimiter then enter .entering else enter .invalidLeading

/-- Skips the opening quote. -/
def atOpening : Program σ Unit := do
  .advance
  enter .inside

/-- A quote closes the string unless a backslash stands before it; a backslash is skipped if a
quote stands after it; any other character is emitted. -/
def atInside : Program σ Unit := do
  let machine ← .machine
  if machine.current? = some delimiter then
    if machine.previous? = some escapeMark then .append else enter .left
    .advance
  else if machine.current? = some escapeMark then
    if machine.next? = some delimiter then .advance else enter .invalidEscape
  else
    .append
    .advance

/-- Something follows the closing quote. The pointer moves on once more where it can. -/
def atLeft : Program σ Unit := do
  enter .invalidTrailing
  let machine ← .machine
  if machine.isLast then pure () else .advance

def refuseLeading : Program σ Unit := .raise (.parse .invalidLeading)

def refuseTrailing : Program σ Unit := do
  let machine ← .machine
  .raise (.parse (.invalidTrailing machine.pointer (machine.spanAt machine.pointer)))

def refuseEscape : Program σ Unit := do
  let machine ← .machine
  .raise (.parse (.invalidEscape machine.pointer (machine.spanAt machine.pointer)))

def handler : State → Program σ Unit
  | .unknown => atStart
  | .entering => atOpening
  | .inside => atInside
  | .left => atLeft
  | .invalidLeading => refuseLeading
  | .invalidTrailing => refuseTrailing
  | .invalidEscape => refuseEscape

/-- All seven states, in the order in which the table lists them. -/
def tableOrder : List State :=
  [.unknown, .entering, .inside, .left, .invalidLeading, .invalidTrailing, .invalidEscape]

def table : Table σ where
  entries := tableOrder.map fun state => (state.value, handler state)
  nodup_states := by
    rw [List.map_map]
    exact (by decide : (tableOrder.map State.value).Nodup)

def parser (limits : Limits) : Parser Unit where
  table := table
  limits := limits

/-- Parses one quoted string. Two calls more than there are characters are enough. -/
def parse {ρ : Type} (observer : Observer ρ) (limits : Limits) (text : String)
    (run : Run Unit ρ) : Outcome Unit ρ String :=
  (parser limits).parse observer (text.length + 2) text run

end CharMachine.Quoted
