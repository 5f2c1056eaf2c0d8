import CharMachine.Proofs.Json.Reader

/-!
# Reading finds what a text denotes

Each reader takes off the front of a text whatever its rule of the grammar writes there, whichever
text follows. Only a number asks something of what follows, since its digits could go on. Main
result: a text that denotes a value is decoded to it; so a text denotes at most one value.
-/

namespace CharMachine.Json

variable {α : Type}

/-! ## Texts -/

theorem IsCode.read {n : Nat} {unit : List Char} (h : IsCode n unit) (rest : List Char) :
    readCode (unit ++ rest) = some (n, rest) := by
  obtain ⟨spelled⟩ := h
  simp [readCode, readHex, spelled]

/-- What starts with a code is neither a plain character nor a short escape. -/
theorem IsCode.readUnit_eq {n : Nat} {unit : List Char} (h : IsCode n unit) (rest : List Char) :
    readUnit (unit ++ rest) = readCoded (unit ++ rest) := by
  obtain ⟨spelled⟩ := h
  simp [readUnit, readPlain, readTable, shortEscapes]

theorem IsUnit.read {c : Char} {unit : List Char} (h : IsUnit c unit) (rest : List Char) :
    readUnit (unit ++ rest) = some (c, rest) := by
  cases h with
  | plain printable not_quote not_backslash =>
    simp [readUnit, readPlain, printable, not_quote, not_backslash]
  | short listed =>
    simp only [shortEscapes, List.mem_cons, Prod.mk.injEq, List.not_mem_nil, or_false] at listed
    rcases listed with
      ⟨rfl, rfl⟩ | ⟨rfl, rfl⟩ | ⟨rfl, rfl⟩ | ⟨rfl, rfl⟩ | ⟨rfl, rfl⟩ | ⟨rfl, rfl⟩ | ⟨rfl, rfl⟩ |
      ⟨rfl, rfl⟩ <;> rfl
  | code spelled valid =>
    rw [spelled.readUnit_eq]
    simp [readCoded, spelled.read, valid]
  | @pair high low first second spelled_high spelled_low is_high is_low =>
    have not_valid : ¬ high.isValidChar := by
      simp only [Nat.isValidChar, IsHighSurrogate] at is_high ⊢
      omega
    rw [List.append_assoc, spelled_high.readUnit_eq]
    simp [readCoded, spelled_high.read, spelled_low.read, not_valid, is_high, is_low]

theorem IsUnit.starts {c : Char} {unit : List Char} (h : IsUnit c unit) :
    ∃ first others, unit = first :: others ∧ first ≠ '"' := by
  cases h with
  | plain printable not_quote not_backslash => exact ⟨c, [], rfl, not_quote⟩
  | short listed =>
    have all : ∀ entry ∈ shortEscapes, ∃ letter, entry.2 = ['\\', letter] := by
      simp [shortEscapes]
    obtain ⟨letter, rfl⟩ := all _ listed
    exact ⟨'\\', [letter], rfl, by decide⟩
  | code spelled valid =>
    obtain ⟨-⟩ := spelled
    exact ⟨'\\', _, rfl, by decide⟩
  | pair spelled_high spelled_low is_high is_low =>
    obtain ⟨-⟩ := spelled_high
    exact ⟨'\\', _, rfl, by decide⟩

theorem IsText.readBody {chars written : List Char} (h : IsText chars written)
    (rest : List Char) {fuel : Nat} (hfuel : written.length < fuel) :
    readBody fuel (written ++ '"' :: rest) = some (chars, rest) := by
  induction h generalizing fuel with
  | nil =>
    obtain ⟨fuel, rfl⟩ := Nat.exists_eq_add_one_of_ne_zero (Nat.ne_of_gt hfuel)
    simp [Json.readBody, give]
  | @cons c unit chars written head tail ih =>
    obtain ⟨fuel, rfl⟩ := Nat.exists_eq_add_one_of_ne_zero (show fuel ≠ 0 by omega)
    obtain ⟨first, others, hunit, hfirst⟩ := head.starts
    have hshort : written.length < fuel := by
      have := congrArg List.length hunit
      simp only [List.length_append, List.length_cons] at hfuel this
      omega
    have hopen : after ['"'] (give ([] : List Char)) (unit ++ (written ++ '"' :: rest)) = none := by
      simp [hunit, hfirst.symm]
    rw [List.append_assoc, Json.readBody, hopen, head.read]
    exact mapped_eq_some (ih hshort)

theorem IsText.read {chars written : List Char} (h : IsText chars written) (rest : List Char) :
    readText ('"' :: (written ++ '"' :: rest)) = some (String.ofList chars, rest) := by
  have hbody := h.readBody rest (show written.length < (written ++ '"' :: rest).length by simp)
  simpa [readText] using mapped_eq_some hbody

/-! ## Numbers -/

/-- The text does not go on with a character of this kind. -/
def Stops (kind : Char → Bool) (rest : List Char) : Prop := ∀ c ∈ rest.head?, kind c = false

/-- The characters that a number could go on with. -/
def continuesNumber (c : Char) : Bool := c.isDigit || c = '.' || c = 'e' || c = 'E'

/-- The characters that a number could go on with before its exponent. -/
def continuesDecimal (c : Char) : Bool := c.isDigit || c = '.'

@[simp] theorem stops_cons {kind : Char → Bool} {c : Char} {rest : List Char} :
    Stops kind (c :: rest) ↔ kind c = false := by
  simp [Stops]

theorem Stops.mono {kind other : Char → Bool} {rest : List Char} (h : Stops kind rest)
    (hkinds : ∀ c, other c → kind c) : Stops other rest := by
  intro c hc
  cases hother : other c with
  | false => rfl
  | true => exact absurd (hkinds c hother) (by simp [h c hc])

theorem dropWhile_append_of_stops {kind : Char → Bool} {chars rest : List Char}
    (hchars : ∀ c ∈ chars, kind c) (hrest : Stops kind rest) :
    (chars ++ rest).dropWhile kind = rest := by
  rw [List.dropWhile_append_of_pos hchars]
  cases rest with
  | nil => rfl
  | cons c rest => simp [stops_cons.mp hrest]

theorem takeWhile_append_of_stops {kind : Char → Bool} {chars rest : List Char}
    (hchars : ∀ c ∈ chars, kind c) (hrest : Stops kind rest) :
    (chars ++ rest).takeWhile kind = chars := by
  rw [List.takeWhile_append_of_pos hchars]
  cases rest with
  | nil => simp
  | cons c rest => simp [stops_cons.mp hrest]

theorem readDigits_eq_none {rest : List Char} (h : Stops Char.isDigit rest) :
    readDigits rest = none := by
  have hnone : rest.takeWhile Char.isDigit = [] :=
    takeWhile_append_of_stops (List.forall_mem_nil _) h
  rw [readDigits, if_pos hnone]

theorem IsDigits.read {digits rest : List Char} (h : IsDigits digits)
    (hrest : Stops Char.isDigit rest) : readDigits (digits ++ rest) = some (digits, rest) := by
  simp only [readDigits, takeWhile_append_of_stops h.isDigit hrest,
    dropWhile_append_of_stops h.isDigit hrest, if_neg h.nonempty]

theorem IsWhole.read {digits rest : List Char} (h : IsWhole digits)
    (hrest : Stops Char.isDigit rest) : readWhole (digits ++ rest) = some (digits, rest) := by
  have hzero : ¬ (digits.head? = some '0' ∧ digits ≠ ['0']) :=
    fun hleading => hleading.2 (h.no_leading_zero hleading.1)
  simp [readWhole, h.toIsDigits.read hrest, hzero]

theorem IsFraction.read {digits written rest : List Char} (h : IsFraction digits written)
    (hrest : Stops continuesDecimal rest) :
    readFraction (written ++ rest) = some (digits, rest) := by
  cases h with
  | absent =>
    have hpoint : after ['.'] readDigits rest = none := by
      cases rest with
      | nil => rfl
      | cons c rest =>
        have : c ≠ '.' := by
          rintro rfl
          simp [continuesDecimal] at hrest
        simp [this.symm]
    simp [readFraction, hpoint, give]
  | point spelled =>
    have hdigits : Stops Char.isDigit rest := hrest.mono (by simp +contextual [continuesDecimal])
    simp [readFraction, spelled.read hdigits]

theorem IsFraction.stops {digits written rest : List Char} (h : IsFraction digits written)
    (hrest : Stops continuesDecimal rest) : Stops Char.isDigit (written ++ rest) := by
  cases h with
  | absent => exact hrest.mono (by simp +contextual [continuesDecimal])
  | point spelled => simp

theorem IsExponent.read {exponent : Int} {written rest : List Char}
    (h : IsExponent exponent written) (hrest : Stops continuesNumber rest) :
    readExponent (written ++ rest) = some (exponent, rest) := by
  cases h with
  | absent =>
    have hmarks : readTable exponentMarks
        (fun factor => mapped (factor * natural ·) readDigits) rest = none := by
      cases rest with
      | nil => rfl
      | cons c rest =>
        simp only [stops_cons, continuesNumber, Bool.or_eq_false_iff, decide_eq_false_iff_not]
          at hrest
        simp [readTable, exponentMarks, Ne.symm hrest.1.2, Ne.symm hrest.2]
    simp [readExponent, hmarks, give]
  | @marked factor mark digits listed spelled =>
    have hdigits : Stops Char.isDigit rest := hrest.mono (by simp +contextual [continuesNumber])
    have hmarks : readTable exponentMarks
        (fun factor => mapped (factor * natural ·) readDigits) (mark ++ (digits ++ rest))
        = some (factor * natural digits, rest) := by
      simp only [exponentMarks, List.mem_cons, Prod.mk.injEq, List.not_mem_nil, or_false] at listed
      rcases listed with
        ⟨rfl, rfl⟩ | ⟨rfl, rfl⟩ | ⟨rfl, rfl⟩ | ⟨rfl, rfl⟩ | ⟨rfl, rfl⟩ | ⟨rfl, rfl⟩ <;>
      simp [readTable, exponentMarks, mapped, spelled.read hdigits, readDigits_eq_none]
    rw [List.append_assoc, readExponent, hmarks, Option.some_or]

theorem IsExponent.stops {exponent : Int} {written rest : List Char}
    (h : IsExponent exponent written) (hrest : Stops continuesNumber rest) :
    Stops continuesDecimal (written ++ rest) := by
  cases h with
  | absent => exact hrest.mono (by simp +contextual [continuesDecimal, continuesNumber])
  | marked listed spelled =>
    have all : ∀ entry ∈ exponentMarks, ∀ others,
        Stops continuesDecimal (entry.2 ++ others) := by
      simp [exponentMarks, continuesDecimal]
    rw [List.append_assoc]
    exact all _ listed _

theorem IsMagnitude.read {mantissa : Nat} {exponent : Int} {written rest : List Char}
    (h : IsMagnitude mantissa exponent written) (hrest : Stops continuesNumber rest) :
    readMagnitude (written ++ rest) = some ((mantissa, exponent), rest) := by
  obtain ⟨is_whole, is_fraction, is_exponent⟩ := h
  have hexponent := is_exponent.stops hrest
  have hfraction := is_fraction.stops hexponent
  simp [readMagnitude, is_whole.read hfraction, is_fraction.read hexponent, is_exponent.read hrest]

theorem IsMagnitude.starts {mantissa : Nat} {exponent : Int} {written : List Char}
    (h : IsMagnitude mantissa exponent written) :
    ∃ c others, written = c :: others ∧ c.isDigit := by
  obtain ⟨is_whole, -, -⟩ := h
  obtain ⟨c, others, rfl⟩ := List.exists_cons_of_ne_nil is_whole.nonempty
  exact ⟨c, _, rfl, is_whole.isDigit c (by simp)⟩

theorem IsNumber.read {mantissa exponent : Int} {written rest : List Char}
    (h : IsNumber mantissa exponent written) (hrest : Stops continuesNumber rest) :
    readNumber (written ++ rest) = some (.number mantissa exponent, rest) := by
  obtain ⟨listed, magnitude⟩ := h
  have hread := magnitude.read hrest
  have hminus (others : List Char) : readMagnitude ('-' :: others) = none := by
    simp [readMagnitude, readWhole, readDigits_eq_none]
  simp only [signs, List.mem_cons, Prod.mk.injEq, List.not_mem_nil, or_false] at listed
  rcases listed with ⟨rfl, rfl⟩ | ⟨rfl, rfl⟩ <;>
  simp [readNumber, readTable, signs, mapped, hread, hminus]

theorem IsNumber.starts {mantissa exponent : Int} {written : List Char}
    (h : IsNumber mantissa exponent written) :
    ∃ c others, written = c :: others ∧ (c = '-' ∨ c.isDigit) := by
  obtain ⟨listed, magnitude⟩ := h
  obtain ⟨c, others, rfl, hdigit⟩ := magnitude.starts
  simp only [signs, List.mem_cons, Prod.mk.injEq, List.not_mem_nil, or_false] at listed
  rcases listed with ⟨-, rfl⟩ | ⟨-, rfl⟩
  · exact ⟨c, others, rfl, .inr hdigit⟩
  · exact ⟨'-', c :: others, rfl, .inl rfl⟩

/-! ## Lists of parts -/

theorem length_le_length_intercalate {parts : List (List Char)} {part : List Char}
    (h : part ∈ parts) : part.length ≤ ([','].intercalate parts).length := by
  induction parts with
  | nil => simp at h
  | cons first others ih =>
    cases others with
    | nil => simp_all
    | cons second others =>
      simp only [List.intercalate_cons_cons, List.length_append]
      rcases List.mem_cons.mp h with rfl | h
      · omega
      · have := ih h
        omega

/-- A part of a bracketed list is shorter than the list, by both brackets at least. -/
theorem length_add_two_le_of_mem {opening closing : Char} {parts : List (List Char)}
    {part : List Char} (h : part ∈ parts) :
    part.length + 2 ≤ (opening :: ([','].intercalate parts ++ [closing])).length := by
  have := length_le_length_intercalate h
  simp only [List.length_cons, List.length_append, List.length_nil]
  omega

theorem length_le_length_intercalate_add_one (parts : List (List Char)) :
    parts.length ≤ ([','].intercalate parts).length + 1 := by
  induction parts with
  | nil => simp
  | cons first others ih =>
    cases others with
    | nil => simp
    | cons second others =>
      simp only [List.intercalate_cons_cons, List.length_append, List.length_cons,
        List.length_nil] at ih ⊢
      omega

section Parts

variable {ι : Type} {part : Reader α} {closing : Char} {value : ι → α} {chars : ι → List Char}

/-- The reader takes each of the parts off a text that goes on with a comma or the closing
character. -/
def ReadsParts (part : Reader α) (closing : Char) (value : ι → α) (chars : ι → List Char)
    (parts : List ι) : Prop :=
  ∀ p ∈ parts, ∀ c rest, c = ',' ∨ c = closing →
    part (chars p ++ c :: rest) = some (value p, c :: rest)

theorem readParts_intercalate (hclosing : closing ≠ ',') {parts : List ι} (nonempty : parts ≠ [])
    (hparts : ReadsParts part closing value chars parts) (rest : List Char) {fuel : Nat}
    (hfuel : parts.length ≤ fuel) :
    readParts part closing fuel ([','].intercalate (parts.map chars) ++ closing :: rest)
      = some (parts.map value, rest) := by
  induction parts generalizing fuel with
  | nil => exact absurd rfl nonempty
  | cons first others ih =>
    obtain ⟨fuel, rfl⟩ := Nat.exists_eq_add_one_of_ne_zero
      (show fuel ≠ 0 by simp only [List.length_cons] at hfuel; omega)
    have hfirst := hparts first (by simp)
    cases others with
    | nil => simp [readParts, hfirst, hclosing.symm, give]
    | cons second others =>
      have hlength : (second :: others).length ≤ fuel := by simpa using hfuel
      have hothers := ih (by simp) (fun p hp => hparts p (List.mem_cons_of_mem _ hp)) hlength
      rw [List.map_cons, List.map_cons, List.intercalate_cons_cons, List.append_assoc,
        List.append_assoc, List.singleton_append, readParts, hfirst _ _ (.inl rfl)]
      simp only [List.map_cons] at hothers
      simp [mapped, hothers]

theorem readListed_intercalate (opening : Char) (hclosing : closing ≠ ',') {parts : List ι}
    (nonempty : parts ≠ []) (hparts : ReadsParts part closing value chars parts)
    (hopen : ∀ p ∈ parts, ∀ rest, after [closing] (give ([] : List α))
      (skipBlank (chars p ++ rest)) = none) (rest : List Char) :
    readListed part opening closing
        (opening :: ([','].intercalate (parts.map chars) ++ closing :: rest))
      = some (parts.map value, rest) := by
  have hlength : parts.length
      ≤ ([','].intercalate (parts.map chars) ++ closing :: rest).length := by
    have := length_le_length_intercalate_add_one (parts.map chars)
    simp only [List.length_map, List.length_append, List.length_cons] at this ⊢
    omega
  have hnonempty : after [closing] (give ([] : List α))
      (skipBlank ([','].intercalate (parts.map chars) ++ closing :: rest)) = none := by
    obtain ⟨first, others, rfl⟩ := List.exists_cons_of_ne_nil nonempty
    have hfirst := hopen first (by simp)
    cases others with
    | nil => simpa using hfirst (closing :: rest)
    | cons second others =>
      rw [List.map_cons, List.map_cons, List.intercalate_cons_cons, List.append_assoc,
        List.append_assoc]
      exact hfirst _
  simp only [readListed, after_cons_cons, if_true, after_nil, hnonempty, Option.none_or]
  exact readParts_intercalate hclosing nonempty hparts rest hlength

end Parts

theorem readListed_empty (part : Reader α) (opening : Char) {closing : Char}
    (hclosing : isBlank closing = false) {blank : List Char} (blanks : ∀ c ∈ blank, isBlank c)
    (rest : List Char) :
    readListed part opening closing (opening :: (blank ++ closing :: rest)) = some ([], rest) := by
  have hskip : skipBlank (blank ++ closing :: rest) = closing :: rest :=
    dropWhile_append_of_stops blanks (stops_cons.mpr hclosing)
  simp [readListed, hskip, give]

/-! ## Values -/

/-- Blanks, and what a number could go on with. -/
def isInner (c : Char) : Bool := isBlank c || continuesNumber c

theorem Stops.blank_append {blank rest : List Char} (hrest : Stops continuesNumber rest)
    (blanks : ∀ c ∈ blank, isBlank c) : Stops continuesNumber (blank ++ rest) := by
  cases blank with
  | nil => exact hrest
  | cons c blank =>
    have hc := blanks c (by simp)
    simp only [isBlank, Bool.or_eq_true, decide_eq_true_eq] at hc
    rcases hc with ((rfl | rfl) | rfl) | rfl <;> simp [continuesNumber]

/-- A value starts with a character that is neither blank nor the end of an array. -/
theorem IsValue.starts {value : Value} {written : List Char} (h : IsValue value written) :
    ∃ c others, written = c :: others ∧ isBlank c = false ∧ c ≠ ']' := by
  cases h with
  | literal listed =>
    simp only [literals, List.mem_cons, Prod.mk.injEq, List.not_mem_nil, or_false] at listed
    rcases listed with ⟨-, rfl⟩ | ⟨-, rfl⟩ | ⟨-, rfl⟩ <;> exact ⟨_, _, rfl, by decide⟩
  | number is_number =>
    obtain ⟨c, others, rfl, rfl | hdigit⟩ := is_number.starts
    · exact ⟨'-', others, rfl, by decide⟩
    · refine ⟨c, others, rfl, ?_, ?_⟩
      · cases hblank : isBlank c with
        | false => rfl
        | true =>
          simp only [isBlank, Bool.or_eq_true, decide_eq_true_eq] at hblank
          rcases hblank with ((rfl | rfl) | rfl) | rfl <;> simp at hdigit
      · rintro rfl
        simp at hdigit
  | text | emptyArray | array | emptyObject | object => exact ⟨_, _, rfl, by decide⟩

/-- The reader takes the characters off any text in which the value ends there. -/
def ReadsValue (reader : Reader Value) (value : Value) (written : List Char) : Prop :=
  ∀ rest, Stops continuesNumber rest → reader (written ++ rest) = some (value, rest)

theorem Item.length_written_le (item : Item) : item.written.length ≤ item.chars.length := by
  simp only [Item.chars, List.length_append]
  omega

theorem Member.length_written_le (member : Member) :
    member.written.length ≤ member.chars.length := by
  have := member.toItem.length_written_le
  simp only [Member.chars, List.length_append, List.length_cons]
  omega

theorem Item.skipBlank_chars (item : Item) (h : IsValue item.value item.written)
    (rest : List Char) :
    skipBlank (item.chars ++ rest) = item.written ++ (item.after ++ rest) := by
  obtain ⟨c, others, hwritten, hblank, -⟩ := h.starts
  rw [Item.chars, List.append_assoc, List.append_assoc, hwritten]
  exact dropWhile_append_of_stops item.blank_before (stops_cons.mpr hblank)

theorem Item.read {reader : Reader Value} (item : Item) (h : IsValue item.value item.written)
    (hread : ReadsValue reader item.value item.written) {rest : List Char}
    (hrest : Stops isInner rest) :
    readItem reader (item.chars ++ rest) = some (item.value, rest) := by
  have hnumber : Stops continuesNumber rest := hrest.mono (by simp +contextual [isInner])
  have hblank : Stops isBlank rest := hrest.mono (by simp +contextual [isInner])
  have hafter : skipBlank (item.after ++ rest) = rest :=
    dropWhile_append_of_stops item.blank_after hblank
  rw [readItem, item.skipBlank_chars h, hread _ (hnumber.blank_append item.blank_after)]
  simp [hafter]

theorem Member.skipBlank_chars (member : Member) (rest : List Char) :
    skipBlank (member.chars ++ rest) = '"' :: (member.nameWritten ++ '"' ::
      (member.nameAfter ++ ':' :: (member.toItem.chars ++ rest))) := by
  simp only [Member.chars, List.append_assoc, List.cons_append]
  exact dropWhile_append_of_stops member.blank_nameBefore (stops_cons.mpr (by decide))

theorem Member.read {reader : Reader Value} (member : Member)
    (h : IsValue member.value member.written)
    (hread : ReadsValue reader member.value member.written) {rest : List Char}
    (hrest : Stops isInner rest) :
    readMember reader (member.chars ++ rest) = some (member.entry, rest) := by
  have hafter : skipBlank (member.nameAfter ++ ':' :: (member.toItem.chars ++ rest))
      = ':' :: (member.toItem.chars ++ rest) :=
    dropWhile_append_of_stops member.blank_nameAfter (stops_cons.mpr (by decide))
  have hitem := member.toItem.read h hread hrest
  simp [readMember, member.skipBlank_chars, member.is_name.read, hafter, mapped, hitem,
    Member.entry]

theorem stops_inner_of_separates {c closing : Char} (hclosing : isInner closing = false)
    (h : c = ',' ∨ c = closing) (rest : List Char) : Stops isInner (c :: rest) := by
  rcases h with rfl | rfl
  · exact stops_cons.mpr (by decide)
  · exact stops_cons.mpr hclosing

theorem readListed_items {reader : Reader Value} {items : List Item} (nonempty : items ≠ [])
    (each : ∀ item ∈ items, IsValue item.value item.written)
    (hread : ∀ item ∈ items, ReadsValue reader item.value item.written) (rest : List Char) :
    readListed (readItem reader) '[' ']'
        ('[' :: ([','].intercalate (items.map Item.chars) ++ ']' :: rest))
      = some (items.map Item.value, rest) := by
  apply readListed_intercalate '[' (by decide) nonempty
  · intro item hitem c rest hseparates
    exact item.read (each item hitem) (hread item hitem)
      (stops_inner_of_separates (by decide) hseparates rest)
  · intro item hitem rest
    obtain ⟨c, others, hwritten, -, hbracket⟩ := (each item hitem).starts
    simp [item.skipBlank_chars (each item hitem), hwritten, hbracket.symm]

theorem readListed_members {reader : Reader Value} {members : List Member}
    (nonempty : members ≠ []) (each : ∀ member ∈ members, IsValue member.value member.written)
    (hread : ∀ member ∈ members, ReadsValue reader member.value member.written)
    (rest : List Char) :
    readListed (readMember reader) '\x7b' '\x7d'
        ('\x7b' :: ([','].intercalate (members.map Member.chars) ++ '\x7d' :: rest))
      = some (members.map Member.entry, rest) := by
  apply readListed_intercalate '\x7b' (by decide) nonempty
  · intro member hmember c rest hseparates
    exact member.read (each member hmember) (hread member hmember)
      (stops_inner_of_separates (by decide) hseparates rest)
  · intro member _ rest
    simp [member.skipBlank_chars]

theorem readValue_number (fuel : Nat) {c : Char} (h : c = '-' ∨ c.isDigit) (rest : List Char) :
    readValue (fuel + 1) (c :: rest) = readNumber (c :: rest) := by
  have hother (d : Char) (hd : d.isDigit = false ∧ d ≠ '-') : c ≠ d := by
    rintro rfl
    simp_all
  have hliterals : readTable literals give (c :: rest) = none := by
    simp [readTable, literals, Ne.symm (hother _ _)]
  simp [readValue, hother, hliterals]

/-- By induction on the value. A part of a list is shorter than the list, so less fuel is enough
for it. -/
theorem IsValue.read {value : Value} {written : List Char} (h : IsValue value written)
    {fuel : Nat} (hfuel : written.length ≤ fuel) :
    ReadsValue (readValue (fuel + 1)) value written := by
  induction h generalizing fuel with
  | literal listed =>
    intro rest _
    simp only [literals, List.mem_cons, Prod.mk.injEq, List.not_mem_nil, or_false] at listed
    rcases listed with ⟨rfl, rfl⟩ | ⟨rfl, rfl⟩ | ⟨rfl, rfl⟩ <;> rfl
  | number is_number =>
    intro rest hrest
    obtain ⟨c, others, hwritten, hstart⟩ := is_number.starts
    rw [← is_number.read hrest, hwritten]
    exact readValue_number fuel hstart _
  | @text s written is_text =>
    intro rest _
    have htext := mapped_eq_some (f := Value.text) (is_text.read rest)
    simpa [readValue] using htext
  | emptyArray blanks =>
    intro rest _
    have hempty := readListed_empty (readItem (readValue fuel)) '['
      (show isBlank ']' = false by decide) blanks rest
    simpa [readValue] using mapped_eq_some hempty
  | @array items nonempty each ih =>
    intro rest _
    obtain ⟨fuel, rfl⟩ := Nat.exists_eq_add_one_of_ne_zero
      (show fuel ≠ 0 by simp only [List.length_cons] at hfuel; omega)
    have hitems : ∀ item ∈ items, ReadsValue (readValue (fuel + 1)) item.value item.written := by
      intro item hitem
      have hpart := Nat.le_trans (length_add_two_le_of_mem (List.mem_map_of_mem hitem)) hfuel
      have hwritten := item.length_written_le
      exact ih item hitem (by omega)
    simpa [readValue] using mapped_eq_some (readListed_items nonempty each hitems rest)
  | emptyObject blanks =>
    intro rest _
    have hempty := readListed_empty (readMember (readValue fuel)) '\x7b'
      (show isBlank '\x7d' = false by decide) blanks rest
    simpa [readValue] using mapped_eq_some hempty
  | @object members nonempty each ih =>
    intro rest _
    obtain ⟨fuel, rfl⟩ := Nat.exists_eq_add_one_of_ne_zero
      (show fuel ≠ 0 by simp only [List.length_cons] at hfuel; omega)
    have hmembers : ∀ member ∈ members,
        ReadsValue (readValue (fuel + 1)) member.value member.written := by
      intro member hmember
      have hpart := Nat.le_trans (length_add_two_le_of_mem (List.mem_map_of_mem hmember)) hfuel
      have hwritten := member.length_written_le
      exact ih member hmember (by omega)
    simpa [readValue] using mapped_eq_some (readListed_members nonempty each hmembers rest)

/-- Reading a text finds the value that it denotes. -/
theorem Denotes.decode {text : String} {value : Value} (h : Denotes text value) :
    decode text = some value := by
  obtain ⟨item, hvalue, rfl, htext⟩ := h
  have hfuel : item.written.length ≤ text.length := by
    rw [← String.length_toList, htext]
    exact item.length_written_le
  have hread : readItem (readValue (text.length + 1)) (item.chars ++ []) = some (item.value, []) :=
    item.read hvalue (hvalue.read hfuel) (by simp [Stops])
  rw [List.append_nil] at hread
  simp [Json.decode, htext, hread]

example : decode " [-2.5E+3 , \x7b\"\\ud83d\\ude00\": [ ]\x7d]"
    = some (.array [.number (-25) 2, .object [("😀", .array [])]]) := rfl

theorem Denotes.unique {text : String} {value other : Value} (h : Denotes text value)
    (h' : Denotes text other) : other = value :=
  Option.some.inj (h'.decode.symm.trans h.decode)

end CharMachine.Json
