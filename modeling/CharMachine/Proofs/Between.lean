import CharMachine.Machine

/-!
# A machine between two parts of its text

A machine whose pointer is within its text stands between what it has passed and what is ahead.
In this form the characters around the pointer are ends of two lists and moving on shifts one
character from one list to the other, so that inductions along a text need no index arithmetic.
-/

namespace CharMachine

namespace Text

theorem get?_ofList (chars : List Char) (index : Nat) : (ofList chars).get? index = chars[index]? := by
  rw [get?_eq_getElem?, toList_ofList]

end Text

namespace Machine

/-- The machine that has `passed` behind it and `ahead` before it. -/
def between (passed ahead : List Char) (state : Int) (emitted : List Char) : Machine where
  input := .ofList (passed ++ ahead)
  pointer := passed.length
  state := state
  emitted := emitted

/-- The characters before the pointer. -/
def passed (machine : Machine) : List Char := machine.input.toList.take machine.pointer

section

variable (passed ahead : List Char) (state : Int) (emitted : List Char)

@[simp] theorem pointer_between : (between passed ahead state emitted).pointer = passed.length := rfl

@[simp] theorem emitted_between : (between passed ahead state emitted).emitted = emitted := rfl

@[simp] theorem passed_between : (between passed ahead state emitted).passed = passed :=
  List.take_left

@[simp] theorem length_input_between :
    (between passed ahead state emitted).input.length = passed.length + ahead.length := by
  rw [between, ← Text.length_toList, Text.toList_ofList, List.length_append]

@[simp] theorem written_between (written : List Char) :
    (between passed ahead state written.reverse).written = written := by
  rw [Machine.written, emitted_between, List.reverse_reverse]

theorem output_between (written : List Char) :
    (between passed ahead state written.reverse).output = String.ofList written := by
  rw [output, written_between]

@[simp] theorem first?_between :
    (between passed ahead state emitted).input.get? 0 = (passed ++ ahead).head? := by
  rw [between, Text.get?_ofList, List.head?_eq_getElem?]

@[simp] theorem current?_between :
    (between passed ahead state emitted).current? = ahead.head? := by
  rw [current?_eq_get?, between, Text.get?_ofList, List.getElem?_append_right (Nat.le_refl _),
    Nat.sub_self, List.head?_eq_getElem?]

@[simp] theorem next?_between :
    (between passed ahead state emitted).next? = ahead.tail.head? := by
  have hn : passed.length + 1 - passed.length = 0 + 1 := by omega
  rw [next?_eq_get?, between, Text.get?_ofList,
    List.getElem?_append_right (Nat.le_add_right _ 1), hn, ← List.getElem?_tail,
    List.head?_eq_getElem?]

@[simp] theorem previous?_between :
    (between passed ahead state emitted).previous? = passed.getLast? := by
  cases hl : passed.length with
  | zero =>
      rw [previous?_of_pointer_zero _ hl, List.eq_nil_of_length_eq_zero hl, List.getLast?_nil]
  | succ n =>
      have hn : n < passed.length := by omega
      rw [previous?_of_pointer_succ _ hl, between, Text.get?_ofList,
        List.getElem?_append_left hn, List.getLast?_eq_getElem?, hl, Nat.add_sub_cancel]

@[simp] theorem isLast_between :
    (between passed ahead state emitted).isLast = ahead.tail.head?.isNone := by
  rw [isLast, next?_between]

@[simp] theorem setState_between (target : Int) :
    (between passed ahead state emitted).act (.setState target) =
      between passed ahead target emitted := rfl

@[simp] theorem append_between (c : Char) :
    (between passed (c :: ahead) state emitted).act .append =
      between passed (c :: ahead) state (c :: emitted) := by
  rw [act, current?_between]
  rfl

@[simp] theorem advance_between (c : Char) :
    (between passed (c :: ahead) state emitted).act .advance =
      between (passed ++ [c]) ahead state emitted := by
  simp [act, between]

end

end Machine

end CharMachine
