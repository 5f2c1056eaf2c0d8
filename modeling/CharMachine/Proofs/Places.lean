import CharMachine.Text
import Mathlib.Algebra.GroupWithZero.Nat
import Mathlib.Data.List.Induction
import Mathlib.Logic.ExistsUnique

/-!
# Lines and columns

The lines of a text are what stands between its newlines, so a text that ends in a newline has an
empty last line, and a carriage return is a character like any other. A place of a text is one of
its lines with a column on it; the column after the last character of the line is where its newline
stands, or the end of the text.

Main statement: the offsets of a text and its places correspond one to one, in the same order. A
position outside the text counts as the nearest offset.
-/

namespace CharMachine

/-- Earlier in reading order. -/
def Place.Precedes (first second : Place) : Prop :=
  first.line < second.line ∨ first.line = second.line ∧ first.column < second.column

theorem Place.precedes_trichotomy (first second : Place) :
    first.Precedes second ∨ first = second ∨ second.Precedes first := by
  obtain ⟨line, column⟩ := first
  obtain ⟨line', column'⟩ := second
  simp only [Precedes, Place.mk.injEq]
  omega

namespace Text

/-- The lines of a text, without the newlines that separate them. -/
def lines (text : Text) : List (List Char) := text.toList.splitOn '\n'

/-- How many characters there are before the line with this index, counted from zero: those of the
lines before it and a newline after each. -/
def lineStart (text : Text) (index : Nat) : Nat :=
  ((text.lines.take index).map fun line => line.length + 1).sum

/-- The offset of a place, from the lines of the text alone. -/
def offsetOf (text : Text) (place : Place) : Nat :=
  text.lineStart (place.line - 1) + (place.column - 1)

/-- The text has this line, and the column is on it or right behind it. -/
structure Has (text : Text) (place : Place) : Prop where
  one_le_line : 1 ≤ place.line
  line_le : place.line ≤ text.lines.length
  one_le_column : 1 ≤ place.column
  column_le : ∀ line ∈ text.lines[place.line - 1]?, place.column ≤ line.length + 1

/-! ## Along a text -/

/-- What has been read of a text: the lines that have ended, and the part of the next one that the
reader is on. The counts of line and column tell how much of each there is. -/
structure Divides (passed : List Char) (complete : List (List Char)) (current : List Char) :
    Prop where
  unbroken : '\n' ∉ current
  splitOn_append : ∀ ahead,
    (passed ++ ahead).splitOn '\n' = complete ++ (current ++ ahead).splitOn '\n'
  length_eq : (complete.map fun line => line.length + 1).sum + current.length = passed.length
  place_eq : passed.foldl Place.after Place.origin = ⟨complete.length + 1, current.length + 1⟩

section Reading

variable {passed current : List Char} {complete : List (List Char)}

theorem divides_nil : Divides [] [] [] where
  unbroken := List.not_mem_nil
  splitOn_append _ := rfl
  length_eq := rfl
  place_eq := rfl

/-- A newline ends the current line. -/
theorem Divides.newline (h : Divides passed complete current) :
    Divides (passed ++ ['\n']) (complete ++ [current]) [] where
  unbroken := List.not_mem_nil
  splitOn_append ahead := by
    rw [List.append_assoc, List.singleton_append, h.splitOn_append,
      List.splitOn_append_cons_self_of_not_mem h.unbroken, List.append_cons, List.nil_append]
  length_eq := by
    have hlength := h.length_eq
    simp only [List.map_append, List.map_singleton, List.sum_append, List.sum_singleton,
      List.length_append, List.length_singleton, List.length_nil]
    omega
  place_eq := by
    rw [List.foldl_append, h.place_eq, List.length_append]
    rfl

theorem Divides.character {c : Char} (h : Divides passed complete current) (hc : c ≠ '\n') :
    Divides (passed ++ [c]) complete (current ++ [c]) where
  unbroken hmem := by
    rcases List.mem_append.mp hmem with hmem | hmem
    · exact h.unbroken hmem
    · exact hc (List.mem_singleton.mp hmem).symm
  splitOn_append ahead := by
    rw [List.append_assoc, h.splitOn_append, List.append_assoc]
  length_eq := by
    have hlength := h.length_eq
    rw [List.length_append, List.length_append, List.length_singleton]
    omega
  place_eq := by
    rw [List.foldl_append, h.place_eq, List.length_append]
    exact if_neg hc

theorem exists_divides (passed : List Char) :
    ∃ complete current, Divides passed complete current := by
  induction passed using List.reverseRecOn with
  | nil => exact ⟨[], [], divides_nil⟩
  | append_singleton passed c ih =>
      obtain ⟨complete, current, h⟩ := ih
      by_cases hc : c = '\n'
      · subst hc
        exact ⟨_, _, h.newline⟩
      · exact ⟨_, _, h.character hc⟩

/-- What follows a part of a line can only lengthen that line. -/
theorem exists_splitOn_append_eq (hcurrent : '\n' ∉ current) (ahead : List Char) :
    ∃ more later, (current ++ ahead).splitOn '\n' = (current ++ more) :: later := by
  induction current with
  | nil => exact List.exists_cons_of_ne_nil (List.splitOn_ne_nil '\n' ahead)
  | cons c rest ih =>
      obtain ⟨more, later, hsplit⟩ := ih fun hmem => hcurrent (List.mem_cons_of_mem c hmem)
      have hc : (c == '\n') = false := beq_false_of_ne fun e => hcurrent (e ▸ List.mem_cons_self)
      refine ⟨more, later, ?_⟩
      rw [List.cons_append, List.splitOn_cons_eq_if_modifyHead, hc, hsplit]
      rfl

end Reading

/-! ## Offsets of places -/

section Offsets

variable {text : Text} {place place' : Place}

theorem lineStart_succ {index : Nat} {line : List Char} (h : text.lines[index]? = some line) :
    text.lineStart (index + 1) = text.lineStart index + (line.length + 1) := by
  unfold lineStart
  rw [List.take_add_one, h, List.map_append, List.sum_append]
  rfl

theorem lineStart_mono {index index' : Nat} (h : index ≤ index') :
    text.lineStart index ≤ text.lineStart index' := by
  obtain ⟨more, rfl⟩ := Nat.exists_eq_add_of_le h
  unfold lineStart
  rw [List.take_add, List.map_append, List.sum_append]
  exact Nat.le_add_right _ _

/-- Every line has its newline counted, the last one too, which has none. -/
theorem lineStart_length (text : Text) : text.lineStart text.lines.length = text.length + 1 := by
  obtain ⟨complete, current, h⟩ := exists_divides text.toList
  have hlines : text.lines = complete ++ [current] := by
    have hsplit := h.splitOn_append []
    rwa [List.append_nil, List.append_nil, List.splitOn_eq_singleton h.unbroken] at hsplit
  have hlength := h.length_eq
  rw [length_toList] at hlength
  rw [lineStart, List.take_length, hlines, List.map_append, List.sum_append, List.map_singleton,
    List.sum_singleton]
  omega

/-- A place is before the start of the next line. -/
theorem Has.offsetOf_lt (h : text.Has place) : text.offsetOf place < text.lineStart place.line := by
  have hline := h.one_le_line
  have hle := h.line_le
  obtain ⟨line, hget⟩ : ∃ line, text.lines[place.line - 1]? = some line :=
    ⟨_, List.getElem?_eq_getElem (by omega)⟩
  have hcolumn := h.column_le line hget
  have hnext := lineStart_succ hget
  rw [Nat.sub_add_cancel hline] at hnext
  unfold offsetOf
  omega

theorem Has.offsetOf_le_length (h : text.Has place) : text.offsetOf place ≤ text.length := by
  have hlt := h.offsetOf_lt
  have hmono : text.lineStart place.line ≤ text.lineStart text.lines.length :=
    lineStart_mono h.line_le
  rw [lineStart_length] at hmono
  omega

/-- Offsets grow in reading order. -/
theorem offsetOf_lt_of_precedes (h : text.Has place) (hprecedes : place.Precedes place') :
    text.offsetOf place < text.offsetOf place' := by
  rcases hprecedes with hline | ⟨hline, hcolumn⟩
  · have hlt := h.offsetOf_lt
    have hmono : text.lineStart place.line ≤ text.lineStart (place'.line - 1) :=
      lineStart_mono (by omega)
    have hstart : text.lineStart (place'.line - 1) ≤ text.offsetOf place' := Nat.le_add_right _ _
    omega
  · have hone := h.one_le_column
    unfold offsetOf
    rw [hline]
    omega

theorem Has.eq_of_offsetOf_eq (h : text.Has place) (h' : text.Has place')
    (heq : text.offsetOf place = text.offsetOf place') : place = place' := by
  rcases place.precedes_trichotomy place' with hbefore | hsame | hafter
  · have hlt := offsetOf_lt_of_precedes h hbefore
    omega
  · exact hsame
  · have hlt := offsetOf_lt_of_precedes h' hafter
    omega

end Offsets

/-! ## Places of offsets -/

section Places

variable (text : Text)

theorem clamp_eq (position : Int) :
    (text.clamp position : Int) = max 0 (min position text.length) := by
  unfold clamp
  omega

theorem clamp_of_le {offset : Nat} (h : offset ≤ text.length) : text.clamp offset = offset := by
  unfold clamp
  omega

/-- Where the offset nearest to a position stands: the text has that place, and its offset is that
one again. -/
theorem has_placeAt (position : Int) :
    text.Has (text.placeAt position) ∧
      text.offsetOf (text.placeAt position) = text.clamp position := by
  let offset := text.clamp position
  have hle : offset ≤ text.toList.length := text.clamp_le_length position
  obtain ⟨complete, current, h⟩ := exists_divides (text.toList.take offset)
  obtain ⟨more, later, hsplit⟩ := exists_splitOn_append_eq h.unbroken (text.toList.drop offset)
  have hlines : text.lines = complete ++ (current ++ more) :: later := by
    rw [← hsplit, ← h.splitOn_append, List.take_append_drop]
    rfl
  have hplace : text.placeAt position = ⟨complete.length + 1, current.length + 1⟩ := by
    rw [placeAt_eq_foldl]
    exact h.place_eq
  have hlength := h.length_eq
  rw [List.length_take, Nat.min_eq_left hle] at hlength
  rw [hplace]
  refine ⟨⟨Nat.le_add_left 1 _, ?_, Nat.le_add_left 1 _, ?_⟩, ?_⟩
  · show complete.length + 1 ≤ text.lines.length
    rw [hlines, List.length_append, List.length_cons]
    omega
  · intro line hline
    rw [hlines, Nat.add_sub_cancel, List.getElem?_append_right (Nat.le_refl _),
      Nat.sub_self] at hline
    cases hline
    show current.length + 1 ≤ (current ++ more).length + 1
    rw [List.length_append]
    omega
  · rw [offsetOf, lineStart, hlines, Nat.add_sub_cancel, Nat.add_sub_cancel, List.take_left]
    exact hlength

theorem offsetOf_placeAt {offset : Nat} (h : offset ≤ text.length) :
    text.offsetOf (text.placeAt offset) = offset :=
  (text.has_placeAt offset).2.trans (text.clamp_of_le h)

theorem placeAt_offsetOf {place : Place} (h : text.Has place) :
    text.placeAt (text.offsetOf place) = place := by
  have hback := text.offsetOf_placeAt h.offsetOf_le_length
  exact (text.has_placeAt _).1.eq_of_offsetOf_eq h hback

/-- Later offsets have later places: two places of the text are in the order of their offsets. -/
theorem placeAt_precedes {offset offset' : Nat} (hlt : offset < offset')
    (hle : offset' ≤ text.length) :
    (text.placeAt offset).Precedes (text.placeAt offset') := by
  have hback := text.offsetOf_placeAt (Nat.le_of_lt (Nat.lt_of_lt_of_le hlt hle))
  have hback' := text.offsetOf_placeAt hle
  rcases (text.placeAt offset).precedes_trichotomy (text.placeAt offset') with
    hbefore | hsame | hafter
  · exact hbefore
  · rw [hsame] at hback
    omega
  · have hafter' := offsetOf_lt_of_precedes (text.has_placeAt _).1 hafter
    omega

/-- Offsets and places of a text correspond to one another. A position of either sign gives a place
of the text, from which the lines before it and the column give back the nearest offset; every
place of the text is that of exactly one offset; and a later offset has a later place. -/
theorem placeAt_corresponds :
    (∀ position : Int, text.Has (text.placeAt position) ∧
      (text.offsetOf (text.placeAt position) : Int) = max 0 (min position text.length)) ∧
    (∀ place, text.Has place →
      ∃! offset : Nat, offset ≤ text.length ∧ text.placeAt offset = place) ∧
    ∀ offset offset' : Nat, offset < offset' → offset' ≤ text.length →
      (text.placeAt offset).Precedes (text.placeAt offset') := by
  refine ⟨?_, ?_, ?_⟩
  · intro position
    obtain ⟨hhas, hoffset⟩ := text.has_placeAt position
    rw [hoffset, clamp_eq]
    exact ⟨hhas, rfl⟩
  · intro place hplace
    refine ⟨text.offsetOf place, ⟨hplace.offsetOf_le_length, text.placeAt_offsetOf hplace⟩, ?_⟩
    rintro offset ⟨hle, rfl⟩
    exact (text.offsetOf_placeAt hle).symm
  · intro offset offset' hlt hle
    exact text.placeAt_precedes hlt hle

/-- In a text with an empty line and a carriage return, the end of the third line is the offset of
its newline, and a position beyond the end stands on an empty last line. -/
theorem placeAt_corresponds_at_ends :
    (∃! offset : Nat, offset ≤ (ofString "a\n\nb\r\n").length ∧
        (ofString "a\n\nb\r\n").placeAt offset = ⟨3, 3⟩) ∧
      (ofString "a\n\nb\r\n").placeAt 5 = ⟨3, 3⟩ ∧
      (ofString "a\n\nb\r\n").placeAt 99 = ⟨4, 1⟩ ∧
      ((ofString "a\n\nb\r\n").offsetOf ⟨4, 1⟩ : Int) = 6 := by
  have hhas : (ofString "a\n\nb\r\n").Has ⟨3, 3⟩ := by
    refine ⟨by decide, by decide, by decide, ?_⟩
    intro line hline
    cases hline
    decide
  have hback := ((placeAt_corresponds (ofString "a\n\nb\r\n")).1 99).2
  exact ⟨(placeAt_corresponds _).2.1 _ hhas, by decide, by decide, hback⟩

end Places

end Text

end CharMachine
