import CharMachine.Proofs.Quoted.Acceptance

/-!
# The texts that decode to a given string

A string without backslashes is the output of exactly two texts, its written forms with and
without the closing quote; the empty string is also the output of the empty text. A string with a
backslash is the output of none. What its closed written form gives instead depends on where the
first backslash stands: an error there, or, at the very end, a closing quote taken for an escaped
one.
-/

namespace CharMachine.Quoted

/-- The written form of a string, without its closing quote. -/
def unclosedForm (s : String) : String := .ofList (delimiter :: escape s.toList)

/-- The written form of a string. -/
def closedForm (s : String) : String := .ofList (delimiter :: (escape s.toList ++ [delimiter]))

theorem eq_ofList_of_toList_eq {text : String} {chars : List Char} (h : text.toList = chars) :
    text = String.ofList chars := by
  rw [← h, String.ofList_toList]

/-- A string has one body if it has any. -/
theorem body_eq_escape {body : List Char} {s : String} (hb : IsBody body)
    (hs : s = String.ofList (decode body)) : body = escape s.toList := by
  rw [hs, String.toList_ofList, escape_decode hb]

theorem head?_escape_ne {c : Char} (rest tail : List Char) :
    (escape (c :: rest) ++ tail).head? ≠ some delimiter := by
  by_cases hc : c = delimiter
  · rw [escape, if_pos hc]
    exact fun e => absurd (Option.some.inj e) (by decide)
  · rw [escape, if_neg hc]
    exact fun e => hc (Option.some.inj e)

theorem escape_append_mark (before after : List Char) :
    escape (before ++ escapeMark :: after) = escape before ++ escapeMark :: escape after := by
  have hm : escapeMark ≠ delimiter := by decide
  rw [escape_append, escape, if_neg hm]

section

variable {ρ : Type} (observer : Observer ρ) {limits : Limits} (run : Run Unit ρ)

theorem parse_returns_iff {text output : String} (hl : limits.Admits text.length) :
    (∃ ended, parse observer limits text run = .returned output ended) ↔
      (text = "" ∧ output = "") ∨
      ∃ body, output = String.ofList (decode body) ∧
        (IsUnclosed text.toList body ∨ IsClosed text.toList body) := by
  have hiff := parse_returned_iff observer run hl output
  constructor
  · intro h
    obtain ⟨ended, hparse⟩ := h
    rcases (hiff _).mp ⟨ended, hparse, rfl⟩ with ⟨ht, ho, -⟩ | ⟨body, hb, ho, -⟩ | ⟨body, hb, ho, -⟩
    · exact Or.inl ⟨ht, ho⟩
    · exact Or.inr ⟨body, ho, Or.inl hb⟩
    · exact Or.inr ⟨body, ho, Or.inr hb⟩
  · intro h
    rcases h with ⟨ht, ho⟩ | ⟨body, ho, hb | hb⟩
    · obtain ⟨ended, hparse, -⟩ := (hiff _).mpr (Or.inl ⟨ht, ho, rfl⟩)
      exact ⟨ended, hparse⟩
    · obtain ⟨ended, hparse, -⟩ := (hiff _).mpr (Or.inr (Or.inl ⟨body, hb, ho, rfl⟩))
      exact ⟨ended, hparse⟩
    · obtain ⟨ended, hparse, -⟩ := (hiff _).mpr (Or.inr (Or.inr ⟨body, hb, ho, rfl⟩))
      exact ⟨ended, hparse⟩

theorem parse_returns_plain_iff {text s : String} (hs : escapeMark ∉ s.toList)
    (hl : limits.Admits text.length) :
    (∃ ended, parse observer limits text run = .returned s ended) ↔
      text = unclosedForm s ∨ text = closedForm s ∨ (s = "" ∧ text = "") := by
  have hdecode : s = String.ofList (decode (escape s.toList)) := by
    rw [decode_escape hs, String.ofList_toList]
  rw [parse_returns_iff observer run hl]
  constructor
  · intro h
    rcases h with ⟨ht, ho⟩ | ⟨body, ho, hb | hb⟩
    · exact Or.inr (Or.inr ⟨ho, ht⟩)
    · obtain rfl := body_eq_escape hb.isBody ho
      exact Or.inl (eq_ofList_of_toList_eq hb.chars_eq)
    · obtain rfl := body_eq_escape hb.isBody ho
      exact Or.inr (Or.inl (eq_ofList_of_toList_eq hb.chars_eq))
  · intro h
    rcases h with rfl | rfl | ⟨ho, ht⟩
    · exact Or.inr ⟨_, hdecode, Or.inl ⟨isBody_escape hs, String.toList_ofList⟩⟩
    · exact Or.inr ⟨_, hdecode, Or.inr ⟨isBody_escape hs, String.toList_ofList⟩⟩
    · exact Or.inl ⟨ht, ho⟩

/-- Nothing decodes to a string with a backslash. -/
theorem parse_never_returns_mark {text s : String} (hs : escapeMark ∈ s.toList)
    (hl : limits.Admits text.length) :
    ¬ ∃ ended, parse observer limits text run = .returned s ended := by
  rw [parse_returns_iff observer run hl]
  intro h
  rcases h with ⟨-, rfl⟩ | ⟨body, rfl, hb⟩
  · cases hs
  · rw [String.toList_ofList] at hs
    rcases hb with hb | hb
    · exact escapeMark_notMem_decode hb.isBody hs
    · exact escapeMark_notMem_decode hb.isBody hs

variable {s : String} {before after : List Char}

theorem toList_closedForm (hs : s.toList = before ++ escapeMark :: after) :
    (closedForm s).toList =
      delimiter :: (escape before ++ escapeMark :: (escape after ++ [delimiter])) := by
  rw [closedForm, String.toList_ofList, hs, escape_append_mark, List.append_assoc]
  rfl

/-- A backslash inside the string escapes nothing in its written form, even before a quote: the
quote brings an escape mark of its own. -/
theorem parse_closedForm_raises (hs : s.toList = before ++ escapeMark :: after)
    (hb : escapeMark ∉ before) (ha : after ≠ [])
    (hl : limits.Admits (closedForm s).length) :
    ∃ ended, parse observer limits (closedForm s) run =
      .raised (escapeFault (closedForm s) (1 + before.length + before.count delimiter)) ended := by
  have hlone : (escape after ++ [delimiter]).head? ≠ some delimiter := by
    cases after with
    | nil => exact absurd rfl ha
    | cons c rest => exact head?_escape_ne rest [delimiter]
  have hmark : HasLoneMark (closedForm s).toList (escape before) (escape after ++ [delimiter]) :=
    ⟨isBody_escape hb, hlone, toList_closedForm hs⟩
  have hp : 1 + before.length + before.count delimiter = (escape before).length + 1 := by
    rw [length_escape]
    omega
  rw [hp]
  exact (parse_raised_iff observer run hl _).mpr (Or.inr (Or.inl ⟨_, _, hmark, rfl⟩))

/-- A backslash at the end of the string makes an escape of the closing quote. -/
theorem parse_closedForm_misreads (hs : s.toList = before ++ [escapeMark])
    (hb : escapeMark ∉ before) (hl : limits.Admits (closedForm s).length) :
    ∃ ended, parse observer limits (closedForm s) run =
      .returned (String.ofList (before ++ [delimiter])) ended := by
  have hbody : IsBody (escape before ++ [escapeMark, delimiter]) :=
    (isBody_escape hb).append (.quote .nil)
  have hdecode : decode (escape before ++ [escapeMark, delimiter]) = before ++ [delimiter] := by
    rw [decode_append (isBody_escape hb), decode_escape hb]
    rfl
  refine (parse_returns_iff observer run hl).mpr (Or.inr ⟨_, ?_, Or.inl ⟨hbody, ?_⟩⟩)
  · rw [hdecode]
  · exact toList_closedForm hs

end

/-- The texts that parse to a string are its two written forms, and the empty text for the empty
string, if the string has no backslash; there is none if it has one. The closed written form of a
string with a backslash is refused at the first backslash, or misread if that is the last
character. -/
theorem preimage_exactly_written_forms {ρ : Type} (observer : Observer ρ) (limits : Limits)
    (run : Run Unit ρ) (s : String) :
    (escapeMark ∉ s.toList → ∀ text : String, limits.Admits text.length →
      ((∃ ended, parse observer limits text run = .returned s ended) ↔
        text = unclosedForm s ∨ text = closedForm s ∨ (s = "" ∧ text = ""))) ∧
    (escapeMark ∈ s.toList → ∀ text : String, limits.Admits text.length →
      ¬ ∃ ended, parse observer limits text run = .returned s ended) ∧
    (∀ k, escapeMark ∈ s.toList → k = s.toList.idxOf escapeMark →
      limits.Admits (closedForm s).length →
      (k + 1 ≠ s.length →
        ∃ ended, parse observer limits (closedForm s) run =
          .raised (escapeFault (closedForm s) (1 + k + (s.toList.take k).count delimiter))
            ended) ∧
      (k + 1 = s.length →
        ∃ ended, parse observer limits (closedForm s) run =
          .returned (String.ofList (s.toList.dropLast ++ [delimiter])) ended)) := by
  refine ⟨fun hs text hl => parse_returns_plain_iff observer run hs hl,
    fun hs text hl => parse_never_returns_mark observer run hs hl, ?_⟩
  rintro k hmem rfl hl
  obtain ⟨before, after, hs, hb⟩ := List.eq_append_cons_of_mem hmem
  have hk : s.toList.idxOf escapeMark = before.length := by
    rw [hs, List.idxOf_append, if_neg hb, List.idxOf_cons_self, Nat.zero_add]
  have hlength : s.length = before.length + after.length + 1 := by
    rw [← String.length_toList, hs, List.length_append, List.length_cons, Nat.add_assoc]
  rw [hk]
  constructor
  · intro hlast
    have ha : after ≠ [] := by
      rintro rfl
      exact hlast (by simp [hlength])
    rw [hs, List.take_left]
    exact parse_closedForm_raises observer run hs hb ha hl
  · intro hlast
    obtain rfl : after = [] := List.eq_nil_of_length_eq_zero (by omega)
    rw [hs, List.dropLast_concat]
    exact parse_closedForm_misreads observer run hs hb hl

/-- The written form of a string that ends in a backslash comes back as another string. -/
theorem preimage_final_mark :
    ∃ ended, parse Observer.log .standard (closedForm "a\\") (.fresh () []) =
      .returned "a\"" ended :=
  ((preimage_exactly_written_forms Observer.log .standard (.fresh () []) "a\\").2.2 1
    (by decide) (by decide) (by decide)).2 rfl

end CharMachine.Quoted
