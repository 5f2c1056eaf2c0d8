import CharMachine.Machine
import CharMachine.Proofs.Places

/-!
# Spans of positions

A span can be asked for at any position, also before the beginning of a text and after its end,
and of any machine, whatever it has been through. Main statement: the answer is always a span, it
is the one that belongs to the nearest offset of the text, and it passes the checks that a span
made from four integers has to pass. So a report of an error is never lost to an error about the
place of it.
-/

namespace CharMachine

/-- Every span passes the checks with its own numbers. -/
theorem Span.ofBounds_self (span : Span) :
    Span.ofBounds span.start span.stop span.line span.column = .ok span := by
  have hstop := span.start_le_stop
  have hline := span.one_le_line
  have hcolumn := span.one_le_column
  rw [ofBounds, dif_neg (by omega), dif_neg (by omega), dif_neg (by omega), dif_neg (by omega)]
  rfl

namespace Text

/-- The span of the character at a position: its offset is the one nearest to the position, its
line and column are those of the offset, and it covers the character there, or nothing at the end
of the text. The numbers are those that the checks are made on. -/
structure IsSpanAt (text : Text) (position : Int) (span : Span) : Prop where
  start_eq : (span.start : Int) = max 0 (min position text.length)
  stop_eq : span.stop = if span.start < text.length then span.start + 1 else span.start
  accepted : Span.ofBounds span.start
    (if span.start < text.length then span.start + 1 else span.start : Nat)
    (text.placeAt span.start).line (text.placeAt span.start).column = .ok span
  stop_le : span.stop ≤ text.length
  place_eq : text.placeAt span.start = ⟨span.line, span.column⟩
  has_place : text.Has ⟨span.line, span.column⟩
  offset_eq : text.offsetOf ⟨span.line, span.column⟩ = span.start
  covered_eq : (text.toList.take span.stop).drop span.start = (text.get? span.start).toList

variable (text : Text) (position : Int)

/-- A position outside the text stands where the nearest offset does. -/
theorem placeAt_clamp : text.placeAt (text.clamp position) = text.placeAt position := by
  rw [placeAt, placeAt, text.clamp_of_le (text.clamp_le_length position)]

theorem stop_spanAt :
    (text.spanAt position).stop =
      if (text.spanAt position).start < text.length then (text.spanAt position).start + 1
      else (text.spanAt position).start := by
  have hle := text.clamp_le_length position
  show min (text.clamp position + 1) text.length =
    if text.clamp position < text.length then text.clamp position + 1 else text.clamp position
  split <;> omega

/-- Between an offset and the next one there is the character at the offset, if there is one. -/
theorem drop_take_eq (offset : Nat) :
    (text.toList.take (if offset < text.length then offset + 1 else offset)).drop offset =
      (text.get? offset).toList := by
  rw [List.drop_take, get?_eq_getElem?]
  split
  · rw [Nat.add_sub_cancel_left, List.take_one, List.head?_drop]
  · next hpast =>
    have hnone : text.toList[offset]? = none := List.getElem?_eq_none (Nat.le_of_not_lt hpast)
    rw [Nat.sub_self, List.take_zero, hnone]
    rfl

theorem isSpanAt_spanAt : text.IsSpanAt position (text.spanAt position) where
  start_eq := text.clamp_eq position
  stop_eq := text.stop_spanAt position
  accepted := by
    have hplace : text.placeAt (text.spanAt position).start = text.placeAt position :=
      text.placeAt_clamp position
    rw [hplace, ← stop_spanAt]
    exact Span.ofBounds_self (text.spanAt position)
  stop_le := Nat.min_le_right _ _
  place_eq := text.placeAt_clamp position
  has_place := (text.has_placeAt position).1
  offset_eq := (text.has_placeAt position).2
  covered_eq := by
    rw [stop_spanAt]
    exact text.drop_take_eq _

variable {text position}

/-- The start is given by the position, and all else by the start. -/
theorem IsSpanAt.unique {span span' : Span} (h : text.IsSpanAt position span)
    (h' : text.IsSpanAt position span') : span = span' := by
  have hstart : span.start = span'.start := by
    have heq := h.start_eq.trans h'.start_eq.symm
    omega
  have haccepted := h.accepted
  rw [hstart] at haccepted
  exact Except.ok.inj (haccepted.symm.trans h'.accepted)

/-- Whatever the position, the span that a text gives is the one that belongs there: it starts at
the nearest offset, its bounds are in order and within the text, so that the checks accept them,
and it covers the character at the offset. No other span is like that. Machines give the span of
the text that they hold, in whatever state they are. -/
theorem spanAt_exact (position : Int) :
    (∀ (text : Text) (span : Span), span = text.spanAt position ↔ text.IsSpanAt position span) ∧
    ∀ (machine : Machine) (span : Span),
      span = machine.spanAt position ↔ machine.input.IsSpanAt position span := by
  have hexact : ∀ (text : Text) (span : Span),
      span = text.spanAt position ↔ text.IsSpanAt position span := by
    intro text span
    constructor
    · rintro rfl
      exact text.isSpanAt_spanAt position
    · intro h
      exact h.unique (text.isSpanAt_spanAt position)
  refine ⟨hexact, ?_⟩
  intro machine span
  exact hexact machine.input span

end Text

end CharMachine
