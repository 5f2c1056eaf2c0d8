import CharMachine.Span

/-!
# Decoded text

A text is held as its sequence of characters, so an index always names the same character however
wide its encoding is. Reads outside the text give `none`, negative indices included. A position is
turned into a line and a column by one pass over the characters before it, and only `'\n'` ends a
line.
-/

namespace CharMachine

/-- A text as an indexed sequence of characters. -/
structure Text where
  chars : Array Char
  deriving DecidableEq, Repr

/-- A line and a column, both counted from one. -/
structure Place where
  line : Nat
  column : Nat
  deriving DecidableEq, Repr

namespace Place

def origin : Place := ⟨1, 1⟩

/-- Where the next character stands when the one at this place is `c`. -/
def after (place : Place) (c : Char) : Place :=
  if c = '\n' then ⟨place.line + 1, 1⟩ else ⟨place.line, place.column + 1⟩

/-- Both counts stay positive along any run of characters. -/
theorem foldl_after_pos (chars : List Char) (place : Place)
    (hline : 1 ≤ place.line) (hcolumn : 1 ≤ place.column) :
    1 ≤ (chars.foldl after place).line ∧ 1 ≤ (chars.foldl after place).column := by
  induction chars generalizing place with
  | nil => exact ⟨hline, hcolumn⟩
  | cons c rest ih =>
      apply ih
      · unfold after
        split
        · exact Nat.le_add_left 1 place.line
        · exact hline
      · unfold after
        split
        · exact Nat.le_refl 1
        · exact Nat.le_add_left 1 place.column

end Place

namespace Text

def empty : Text := ⟨#[]⟩

def ofList (chars : List Char) : Text := ⟨chars.toArray⟩

def ofString (s : String) : Text := ofList s.toList

def toList (text : Text) : List Char := text.chars.toList

protected def toString (text : Text) : String := String.ofList text.toList

def length (text : Text) : Nat := text.chars.size

def get? (text : Text) (index : Nat) : Option Char := text.chars[index]?

/-- The character at an index of either sign; a negative index names none. -/
def at? (text : Text) (index : Int) : Option Char :=
  if index < 0 then none else text.get? index.toNat

/-- The offset nearest to `position` among `0, …, text.length`. -/
def clamp (text : Text) (position : Int) : Nat := min position.toNat text.length

/-- Line and column of a position, after clamping it into the text. -/
def placeAt (text : Text) (position : Int) : Place :=
  (text.chars.take (text.clamp position)).foldl Place.after Place.origin

@[simp] theorem toList_ofList (chars : List Char) : (ofList chars).toList = chars := rfl

@[simp] theorem toList_ofString (s : String) : (ofString s).toList = s.toList := rfl

@[simp] theorem length_toList (text : Text) : text.toList.length = text.length := rfl

@[simp] theorem at?_natCast (text : Text) (index : Nat) : text.at? index = text.get? index := by
  have hnonneg : ¬ (index : Int) < 0 := by omega
  rw [at?, if_neg hnonneg, Int.toNat_natCast]

theorem at?_of_neg (text : Text) {index : Int} (hneg : index < 0) : text.at? index = none :=
  if_pos hneg

theorem get?_eq_getElem? (text : Text) (index : Nat) : text.get? index = text.toList[index]? := by
  simp [get?, toList]

theorem clamp_le_length (text : Text) (position : Int) : text.clamp position ≤ text.length :=
  Nat.min_le_right _ _

theorem placeAt_eq_foldl (text : Text) (position : Int) :
    text.placeAt position =
      (text.toList.take (text.clamp position)).foldl Place.after Place.origin := by
  rw [placeAt, ← Array.foldl_toList]
  simp [Array.take, toList]

theorem placeAt_pos (text : Text) (position : Int) :
    1 ≤ (text.placeAt position).line ∧ 1 ≤ (text.placeAt position).column := by
  rw [placeAt_eq_foldl]
  exact Place.foldl_after_pos _ _ (Nat.le_refl 1) (Nat.le_refl 1)

/-- The span of the character at a position: one character wide inside the text and empty at its
end, where every position beyond it is taken to stand. -/
def spanAt (text : Text) (position : Int) : Span :=
  let start := text.clamp position
  let place := text.placeAt position
  { start := start
    stop := min (start + 1) text.length
    line := place.line
    column := place.column
    start_le_stop := by
      have := text.clamp_le_length position
      omega
    one_le_line := (text.placeAt_pos position).1
    one_le_column := (text.placeAt_pos position).2 }

end Text

end CharMachine
