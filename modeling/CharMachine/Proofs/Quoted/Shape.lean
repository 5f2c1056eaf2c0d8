import CharMachine.Quoted.Grammar

/-!
# The shape of a text

A text is empty, or begins with something other than a quote, or is an opening quote with a body
and whatever ends that body: the end of the text, a quote, or a backslash that escapes nothing.
Main statement: every text has exactly one shape. Nothing here speaks about the machine.
-/

namespace CharMachine.Quoted

/-- What ends a body, with the text after it. -/
inductive Stop where
  | atEnd
  | quote (rest : List Char)
  | mark (rest : List Char) (lone : rest.head? ≠ some delimiter)

namespace Stop

def chars : Stop → List Char
  | atEnd => []
  | quote rest => delimiter :: rest
  | mark rest _ => escapeMark :: rest

theorem chars_injective {s t : Stop} (h : s.chars = t.chars) : s = t := by
  cases s with
  | atEnd =>
      cases t with
      | atEnd => rfl
      | quote _ => cases h
      | mark _ _ => cases h
  | quote rest =>
      cases t with
      | atEnd => cases h
      | quote _ => cases h; rfl
      | mark _ _ => exact absurd (List.cons.inj h).1 (by decide)
  | mark rest lone =>
      cases t with
      | atEnd => cases h
      | quote _ => exact absurd (List.cons.inj h).1 (by decide)
      | mark _ _ => cases h; rfl

theorem not_isPlain {stop : Stop} {c : Char} {rest : List Char} (h : stop.chars = c :: rest) :
    ¬ IsPlain c := by
  intro hc
  cases stop with
  | atEnd => cases h
  | quote _ => exact hc.1 (List.cons.inj h).1.symm
  | mark _ _ => exact hc.2 (List.cons.inj h).1.symm

theorem chars_ne_escape (stop : Stop) (rest : List Char) :
    stop.chars ≠ escapeMark :: delimiter :: rest := by
  intro h
  cases stop with
  | atEnd => cases h
  | quote _ => exact absurd (List.cons.inj h).1 (by decide)
  | mark rest' lone =>
      apply lone
      rw [(List.cons.inj h).2]
      rfl

end Stop

/-- A body is read as far as it goes; the induction takes the characters as `decode` does. -/
theorem exists_body_append_stop (chars : List Char) :
    ∃ body stop, IsBody body ∧ chars = body ++ Stop.chars stop := by
  induction chars using decode.induct with
  | case1 => exact ⟨[], .atEnd, .nil, rfl⟩
  | case2 c =>
      by_cases hd : c = delimiter
      · subst hd
        exact ⟨[], .quote [], .nil, rfl⟩
      by_cases he : c = escapeMark
      · subst he
        exact ⟨[], .mark [] nofun, .nil, rfl⟩
      · exact ⟨[c], .atEnd, .plain ⟨hd, he⟩ .nil, rfl⟩
  | case3 c d rest h ih =>
      obtain ⟨rfl, rfl⟩ := h
      obtain ⟨body, stop, hb, rfl⟩ := ih
      exact ⟨_, stop, .quote hb, rfl⟩
  | case4 c d rest h ih =>
      by_cases hd : c = delimiter
      · subst hd
        exact ⟨[], .quote (d :: rest), .nil, rfl⟩
      by_cases he : c = escapeMark
      · subst he
        have lone : (d :: rest).head? ≠ some delimiter := fun e => h ⟨rfl, Option.some.inj e⟩
        exact ⟨[], .mark (d :: rest) lone, .nil, rfl⟩
      · obtain ⟨body, stop, hb, hrest⟩ := ih
        refine ⟨c :: body, stop, .plain ⟨hd, he⟩ hb, ?_⟩
        rw [hrest, List.cons_append]

theorem body_append_stop_injective {body body' : List Char} {stop stop' : Stop}
    (hb : IsBody body) (hb' : IsBody body')
    (h : body ++ stop.chars = body' ++ stop'.chars) : body = body' ∧ stop = stop' := by
  induction hb generalizing body' with
  | nil =>
      cases hb' with
      | nil => exact ⟨rfl, Stop.chars_injective h⟩
      | plain hc _ => exact absurd hc (Stop.not_isPlain h)
      | quote _ => exact absurd h (Stop.chars_ne_escape _ _)
  | plain hc hrest ih =>
      cases hb' with
      | nil => exact absurd hc (Stop.not_isPlain h.symm)
      | plain _ hrest' =>
          obtain ⟨rfl, htail⟩ := List.cons.inj h
          obtain ⟨rfl, rfl⟩ := ih hrest' htail
          exact ⟨rfl, rfl⟩
      | quote _ => exact absurd (List.cons.inj h).1 hc.2
  | quote hrest ih =>
      cases hb' with
      | nil => exact absurd h.symm (Stop.chars_ne_escape _ _)
      | plain hc _ => exact absurd (List.cons.inj h).1.symm hc.2
      | quote hrest' =>
          obtain ⟨rfl, rfl⟩ := ih hrest' (List.cons.inj (List.cons.inj h).2).2
          exact ⟨rfl, rfl⟩

/-- How a text is made up. -/
inductive Shape where
  | empty
  | misled (first : Char) (rest : List Char) (stray : first ≠ delimiter)
  | opened (body : List Char) (isBody : IsBody body) (stop : Stop)

namespace Shape

def chars : Shape → List Char
  | empty => []
  | misled first rest _ => first :: rest
  | opened body _ stop => delimiter :: (body ++ stop.chars)

theorem exists_chars_eq (chars : List Char) : ∃ shape : Shape, shape.chars = chars := by
  cases chars with
  | nil => exact ⟨.empty, rfl⟩
  | cons first rest =>
      by_cases hd : first = delimiter
      · subst hd
        obtain ⟨body, stop, hb, rfl⟩ := exists_body_append_stop rest
        exact ⟨.opened body hb stop, rfl⟩
      · exact ⟨.misled first rest hd, rfl⟩

/-- A text has one shape only, so its body and what follows the body are determined. -/
theorem chars_injective {s t : Shape} (h : s.chars = t.chars) : s = t := by
  cases s with
  | empty =>
      cases t with
      | empty => rfl
      | misled _ _ _ => cases h
      | opened _ _ _ => cases h
  | misled first rest stray =>
      cases t with
      | empty => cases h
      | misled _ _ _ => cases h; rfl
      | opened _ _ _ => exact absurd (List.cons.inj h).1 stray
  | opened body hb stop =>
      cases t with
      | empty => cases h
      | misled _ _ stray => exact absurd (List.cons.inj h).1.symm stray
      | opened _ hb' _ =>
          obtain ⟨rfl, rfl⟩ := body_append_stop_injective hb hb' (List.cons.inj h).2
          rfl

end Shape

end CharMachine.Quoted
