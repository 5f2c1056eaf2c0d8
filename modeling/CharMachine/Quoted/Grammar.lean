import CharMachine.Quoted.Basic

/-!
# The grammar of quoted strings

What may stand between the quotes, said without the table: a body is made of plain characters and
of backslash-quote pairs. `decode` reads the text that a body stands for and `escape` writes a body
for a text. Main statement: escaping a text without backslashes gives a body, and decoding it gives
the text back. Nothing here speaks about the machine.
-/

namespace CharMachine.Quoted

/-- A character that stands for itself inside a string. -/
def IsPlain (c : Char) : Prop := c ≠ delimiter ∧ c ≠ escapeMark

instance (c : Char) : Decidable (IsPlain c) := inferInstanceAs (Decidable (_ ∧ _))

/-- The texts that may stand between an opening and a closing quote. -/
inductive IsBody : List Char → Prop where
  | nil : IsBody []
  | plain {c : Char} {rest : List Char} : IsPlain c → IsBody rest → IsBody (c :: rest)
  | quote {rest : List Char} : IsBody rest → IsBody (escapeMark :: delimiter :: rest)

/-- Takes away each escape mark that stands before a delimiter. -/
def decode : List Char → List Char
  | [] => []
  | [c] => [c]
  | c :: d :: rest =>
      if c = escapeMark ∧ d = delimiter then delimiter :: decode rest else c :: decode (d :: rest)

/-- Puts an escape mark before each delimiter. -/
def escape : List Char → List Char
  | [] => []
  | c :: rest => if c = delimiter then escapeMark :: delimiter :: escape rest else c :: escape rest

theorem decode_plain {c : Char} (h : IsPlain c) (rest : List Char) :
    decode (c :: rest) = c :: decode rest := by
  cases rest with
  | nil => rfl
  | cons d rest => rw [decode, if_neg fun e => h.2 e.1]

theorem decode_quote (rest : List Char) :
    decode (escapeMark :: delimiter :: rest) = delimiter :: decode rest := by
  rw [decode, if_pos ⟨rfl, rfl⟩]

theorem IsBody.append {b b' : List Char} (h : IsBody b) (h' : IsBody b') : IsBody (b ++ b') := by
  induction h with
  | nil => exact h'
  | plain hc _ ih => exact .plain hc ih
  | quote _ ih => exact .quote ih

/-- Decoding goes on after a body as if it began there. -/
theorem decode_append {b : List Char} (h : IsBody b) (rest : List Char) :
    decode (b ++ rest) = decode b ++ decode rest := by
  induction h with
  | nil => rfl
  | plain hc _ ih => rw [List.cons_append, decode_plain hc, decode_plain hc, ih, List.cons_append]
  | quote _ ih =>
      rw [List.cons_append, List.cons_append, decode_quote, decode_quote, ih, List.cons_append]

theorem escape_append (s t : List Char) : escape (s ++ t) = escape s ++ escape t := by
  induction s with
  | nil => rfl
  | cons c rest ih =>
      by_cases hc : c = delimiter
      · rw [List.cons_append, escape, escape, if_pos hc, if_pos hc, ih]
        rfl
      · rw [List.cons_append, escape, escape, if_neg hc, if_neg hc, ih]
        rfl

/-- Escaping adds one character for each delimiter. -/
theorem length_escape (s : List Char) : (escape s).length = s.length + s.count delimiter := by
  induction s with
  | nil => rfl
  | cons c rest ih =>
      by_cases hc : c = delimiter
      · rw [escape, if_pos hc, hc, List.count_cons_self, List.length_cons, List.length_cons,
          List.length_cons, ih]
        omega
      · rw [escape, if_neg hc, List.count_cons_of_ne hc, List.length_cons, List.length_cons, ih]
        omega

theorem isBody_escape {s : List Char} (h : escapeMark ∉ s) : IsBody (escape s) := by
  induction s with
  | nil => exact .nil
  | cons c rest ih =>
      have hrest := ih fun e => h (List.mem_cons_of_mem c e)
      by_cases hc : c = delimiter
      · rw [escape, if_pos hc]
        exact .quote hrest
      · rw [escape, if_neg hc]
        exact .plain ⟨hc, fun e => h (e ▸ List.mem_cons_self)⟩ hrest

theorem decode_escape {s : List Char} (h : escapeMark ∉ s) : decode (escape s) = s := by
  induction s with
  | nil => rfl
  | cons c rest ih =>
      have hrest := ih fun e => h (List.mem_cons_of_mem c e)
      by_cases hc : c = delimiter
      · rw [escape, if_pos hc, decode_quote, hrest, hc]
      · rw [escape, if_neg hc, decode_plain ⟨hc, fun e => h (e ▸ List.mem_cons_self)⟩, hrest]

/-- A body is the escaped form of what it decodes to, so a text has one body. -/
theorem escape_decode {b : List Char} (h : IsBody b) : escape (decode b) = b := by
  induction h with
  | nil => rfl
  | plain hc _ ih => rw [decode_plain hc, escape, if_neg hc.1, ih]
  | quote _ ih => rw [decode_quote, escape, if_pos rfl, ih]

/-- What a body stands for holds no escape mark. -/
theorem escapeMark_notMem_decode {b : List Char} (h : IsBody b) : escapeMark ∉ decode b := by
  induction h with
  | nil => exact List.not_mem_nil
  | plain hc _ ih =>
      rw [decode_plain hc]
      intro e
      rcases List.mem_cons.mp e with e | e
      · exact hc.2 e.symm
      · exact ih e
  | quote _ ih =>
      rw [decode_quote]
      intro e
      rcases List.mem_cons.mp e with e | e
      · exact absurd e (by decide)
      · exact ih e

end CharMachine.Quoted
