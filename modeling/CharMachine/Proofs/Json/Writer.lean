import CharMachine.Json
import CharMachine.Proofs.Json.Completeness

/-!
# Written objects are JSON

Whatever the names and values of the fields are, the written object denotes the list of these
fields, and so it is decoded to them. It holds no character below U+0020.
-/

namespace CharMachine.Json

def Scalar.toValue : Scalar → Value
  | .text s => .text s
  | .number n => .number n 0

/-- The member of an object that a field stands for. -/
def Field.entry (field : Field) : String × Value := (field.name, field.value.toValue)

/-! ## Texts -/

theorem code?_hexDigit : ∀ n < 0x20,
    code? '0' '0' (hexDigit (n / 16)) (hexDigit n) = some n := by
  decide

/-- A character is written by a short escape, by its code, or as it is. -/
theorem escapeChar_cases (c : Char) :
    (c, escapeChar c) ∈ shortEscapes ∨
    (c.toNat < 0x20 ∧
      escapeChar c = ['\\', 'u', '0', '0', hexDigit (c.toNat / 16), hexDigit c.toNat]) ∨
    (0x20 ≤ c.toNat ∧ c ≠ '"' ∧ c ≠ '\\' ∧ escapeChar c = [c]) := by
  unfold escapeChar
  repeat' split
  all_goals simp_all [shortEscapes]

theorem isUnit_escapeChar (c : Char) : IsUnit c (escapeChar c) := by
  rcases escapeChar_cases c with listed | ⟨control, hcode⟩ | ⟨printable, hquote, hbackslash, hplain⟩
  · exact .short listed
  · have hvalid : c.toNat.isValidChar := c.valid
    have hunit := IsUnit.code (.digits (code?_hexDigit c.toNat control)) hvalid
    rwa [Char.ofNat_toNat, ← hcode] at hunit
  · rw [hplain]
    exact .plain printable hquote hbackslash

theorem isText_escape (chars : List Char) : IsText chars (escape chars) := by
  induction chars with
  | nil => exact .nil
  | cons c chars ih => exact .cons (isUnit_escapeChar c) ih

theorem toList_writeText (s : String) :
    (writeText s).toList = '"' :: (escape s.toList ++ ['"']) := by
  simp [writeText]

/-! ## Numbers -/

@[simp] theorem natural_toDigits (n : Nat) : natural (Nat.toDigits 10 n) = n :=
  Nat.ofDigitChars_ten_toDigits

theorem isDigits_toDigits (n : Nat) : IsDigits (Nat.toDigits 10 n) where
  nonempty := Nat.toDigits_ne_nil
  isDigit _ hc := Nat.isDigit_of_mem_toDigits (by decide) (by decide) hc

theorem isWhole_toDigits (n : Nat) : IsWhole (Nat.toDigits 10 n) where
  toIsDigits := isDigits_toDigits n
  no_leading_zero hzero := by
    induction n using Nat.strongRecOn with
    | ind n ih =>
      by_cases hsmall : n < 10
      · rw [Nat.toDigits_of_lt_base hsmall] at hzero ⊢
        simpa using hzero
      · have hhead : (Nat.toDigits 10 (n / 10)).head? = some '0' := by
          rw [Nat.toDigits_of_base_le (by decide) (by omega), List.head?_append,
            Option.or_eq_left_of_isSome (by simp [Nat.toDigits_ne_nil])] at hzero
          exact hzero
        have hleading := ih (n / 10) (by omega) hhead
        have : n / 10 = 0 := by
          rw [← natural_toDigits (n / 10), hleading]
          rfl
        omega

theorem isMagnitude_toDigits (n : Nat) : IsMagnitude n 0 (Nat.toDigits 10 n) := by
  have h := IsMagnitude.parts (isWhole_toDigits n) .absent .absent
  simpa using h

theorem toList_toString (n : Int) :
    (toString n).toList
      = if n < 0 then '-' :: Nat.toDigits 10 n.natAbs else Nat.toDigits 10 n.natAbs := by
  cases n with
  | ofNat n => exact Nat.toList_repr
  | negSucc n => simp [Int.repr]

theorem isNumber_toString (n : Int) : IsNumber n 0 (toString n).toList := by
  have hmagnitude := isMagnitude_toDigits n.natAbs
  rw [toList_toString]
  by_cases hsign : n < 0
  · have hvalue : (-1 : Int) * n.natAbs = n := by omega
    have hnumber := IsNumber.signed (show (-1, ['-']) ∈ signs by decide) hmagnitude
    rw [hvalue] at hnumber
    rw [if_pos hsign]
    exact hnumber
  · have hvalue : (1 : Int) * n.natAbs = n := by omega
    have hnumber := IsNumber.signed (show (1, []) ∈ signs by decide) hmagnitude
    rw [hvalue] at hnumber
    rw [if_neg hsign]
    exact hnumber

/-! ## Objects -/

theorem isValue_write (scalar : Scalar) : IsValue scalar.toValue scalar.write.toList := by
  cases scalar with
  | text s =>
    rw [Scalar.write, toList_writeText]
    exact .text (isText_escape s.toList)
  | number n => exact .number (isNumber_toString n)

theorem blank_space : ∀ c ∈ [' '], isBlank c := by
  simp [isBlank]

/-- A written field as a member, after the given blanks. -/
def Field.member (field : Field) (blank : List Char) (blanks : ∀ c ∈ blank, isBlank c) :
    Member where
  before := [' ']
  value := field.value.toValue
  written := field.value.write.toList
  after := []
  blank_before := blank_space
  blank_after := List.forall_mem_nil _
  nameBefore := blank
  name := field.name
  nameWritten := escape field.name.toList
  nameAfter := []
  blank_nameBefore := blanks
  blank_nameAfter := List.forall_mem_nil _
  is_name := isText_escape field.name.toList

theorem Field.chars_member (field : Field) (blank : List Char) (blanks : ∀ c ∈ blank, isBlank c) :
    (field.member blank blanks).chars = blank ++ field.write.toList := by
  simp [Field.member, Member.chars, Item.chars, Field.write, toList_writeText]

/-- The blank after a comma belongs to the part that follows. -/
theorem intercalate_comma_blank (first : List Char) (others : List (List Char)) :
    [',', ' '].intercalate (first :: others)
      = [','].intercalate (first :: others.map (' ' :: ·)) := by
  induction others generalizing first with
  | nil => simp
  | cons second others ih =>
    simp only [List.map_cons, List.intercalate_cons_cons, List.intercalate_cons_cons_left,
      ih second, List.append_assoc, List.cons_append, List.nil_append]

/-- The members that written fields are: all but the first follow a blank. -/
def members : List Field → List Member
  | [] => []
  | first :: others =>
    first.member [] (List.forall_mem_nil _)
      :: others.map fun field => field.member [' '] blank_space

theorem map_entry_members (fields : List Field) :
    (members fields).map Member.entry = fields.map Field.entry := by
  cases fields with
  | nil => rfl
  | cons first others => simp [members, Field.member, Member.entry, Field.entry]

theorem intercalate_chars_members (fields : List Field) :
    [','].intercalate ((members fields).map Member.chars)
      = [',', ' '].intercalate (fields.map fun field => field.write.toList) := by
  cases fields with
  | nil => rfl
  | cons first others =>
    rw [List.map_cons, intercalate_comma_blank]
    simp [members, Field.chars_member, Function.comp_def]

theorem isValue_of_mem_members {fields : List Field} {member : Member}
    (h : member ∈ members fields) : IsValue member.value member.written := by
  cases fields with
  | nil => simp [members] at h
  | cons first others =>
    rcases List.mem_cons.mp h with rfl | h
    · exact isValue_write first.value
    · obtain ⟨field, -, rfl⟩ := List.mem_map.mp h
      exact isValue_write field.value

theorem toList_writeObject (fields : List Field) :
    (writeObject fields).toList = '\x7b' :: ([',', ' '].intercalate
      (fields.map fun field => field.write.toList) ++ ['\x7d']) := by
  simp [writeObject, Function.comp_def]

/-- A written object is JSON and stands for its fields. -/
theorem writeObject_denotes (fields : List Field) :
    Denotes (writeObject fields) (.object (fields.map Field.entry)) := by
  apply IsValue.denotes
  rw [toList_writeObject, ← intercalate_chars_members, ← map_entry_members]
  by_cases hempty : members fields = []
  · rw [hempty]
    exact .emptyObject (List.forall_mem_nil _)
  · exact .object hempty fun _ => isValue_of_mem_members

/-! ## Characters below U+0020 -/

/-- No character is below U+0020. -/
def Printable (chars : List Char) : Prop := ∀ c ∈ chars, 0x20 ≤ c.toNat

theorem Printable.append {first second : List Char} (h : Printable first)
    (h' : Printable second) : Printable (first ++ second) :=
  List.forall_mem_append.mpr ⟨h, h'⟩

theorem Printable.intercalate {separator : List Char} {parts : List (List Char)}
    (hseparator : Printable separator) (h : ∀ part ∈ parts, Printable part) :
    Printable (separator.intercalate parts) := by
  induction parts with
  | nil => exact List.forall_mem_nil _
  | cons first others ih =>
    have hfirst := h first (by simp)
    have hothers := ih fun part hpart => h part (List.mem_cons_of_mem _ hpart)
    cases others with
    | nil => simpa using hfirst
    | cons second others =>
      rw [List.intercalate_cons_cons]
      exact (hfirst.append hseparator).append hothers

theorem printable_hexDigit (n : Nat) : 0x20 ≤ (hexDigit n).toNat := by
  have all : ∀ digit < 16, 0x20 ≤ (Nat.digitChar digit).toNat := by decide
  exact all (n % 16) (Nat.mod_lt n (by decide))

theorem printable_escapeChar (c : Char) : Printable (escapeChar c) := by
  rcases escapeChar_cases c with listed | ⟨-, hcode⟩ | ⟨printable, -, -, hplain⟩
  · have all : ∀ entry ∈ shortEscapes, Printable entry.2 := by
      simp [shortEscapes, Printable]
    exact all _ listed
  · simp [hcode, Printable, printable_hexDigit]
  · simpa [hplain, Printable] using printable

theorem printable_writeText (s : String) : Printable (writeText s).toList := by
  have hbody : Printable (escape s.toList) := by
    intro c hc
    obtain ⟨original, -, horiginal⟩ := List.mem_flatMap.mp hc
    exact printable_escapeChar original c horiginal
  have hquote : Printable ['"'] := by simp [Printable]
  rw [toList_writeText]
  exact hquote.append (hbody.append hquote)

theorem printable_toString (n : Int) : Printable (toString n).toList := by
  have hdigits : Printable (Nat.toDigits 10 n.natAbs) := by
    intro c hc
    have hdigit := Char.isDigit_iff_toNat.mp ((isDigits_toDigits n.natAbs).isDigit c hc)
    exact Nat.le_trans (by decide) hdigit.1
  have hminus : Printable ['-'] := by simp [Printable]
  rw [toList_toString]
  split
  · exact hminus.append hdigits
  · exact hdigits

theorem printable_write (scalar : Scalar) : Printable scalar.write.toList := by
  cases scalar with
  | text s => exact printable_writeText s
  | number n => exact printable_toString n

/-- A written object holds no character below U+0020, whatever its texts hold. -/
theorem printable_writeObject (fields : List Field) : Printable (writeObject fields).toList := by
  have hopen : Printable ['\x7b'] := by simp [Printable]
  have hclose : Printable ['\x7d'] := by simp [Printable]
  have hcomma : Printable [',', ' '] := by simp [Printable]
  have hcolon : Printable ": ".toList := by simp [Printable]
  rw [toList_writeObject]
  refine hopen.append ((hcomma.intercalate ?_).append hclose)
  intro part hpart
  obtain ⟨field, -, rfl⟩ := List.mem_map.mp hpart
  rw [Field.write, String.toList_append, String.toList_append]
  exact ((printable_writeText field.name).append hcolon).append (printable_write field.value)

end CharMachine.Json
