import CharMachine.Proofs.Quoted.Acceptance

/-!
# Strings in two parts

A text that ends inside a quoted string may be followed by any other. What follows is read as it
would be right after an opening quote: its output is added, it decides the state at the end, and
its errors are raised as many characters further on as stand in between. The table looks one
character back, but a body does not end in an escape mark that is still to be used, so nothing that
it sees across the seam makes a difference.
-/

namespace CharMachine.Quoted

/-- How the parse of a text that opens a string ends, by what ends its body. -/
inductive Reads {ρ : Type} (text : String) (body : List Char) :
    Stop → Outcome Unit ρ String → Prop where
  | unclosed {ended : Run Unit ρ} :
      ended.machine.state = State.inside.value →
      Reads text body .atEnd (.returned (.ofList (decode body)) ended)
  | closed {ended : Run Unit ρ} :
      ended.machine.state = State.left.value →
      Reads text body (.quote []) (.returned (.ofList (decode body)) ended)
  | trailed {rest : List Char} {ended : Run Unit ρ} :
      rest ≠ [] →
      Reads text body (.quote rest)
        (.raised (trailingFault text (trailingPosition body rest)) ended)
  | marked {rest : List Char} {lone : rest.head? ≠ some delimiter} {ended : Run Unit ρ} :
      Reads text body (.mark rest lone) (.raised (escapeFault text (body.length + 1)) ended)

/-- How the outcome of a whole text follows from that of its second part alone, if the first gave
this output and is so many characters long. -/
inductive Continues {ρ : Type} (part whole : String) (output : String) (offset : Nat) :
    Outcome Unit ρ String → Outcome Unit ρ String → Prop where
  | returned {more : String} {ended ended' : Run Unit ρ} :
      ended'.machine.state = ended.machine.state →
      Continues part whole output offset (.returned more ended)
        (.returned (output ++ more) ended')
  | escape (position : Nat) {ended ended' : Run Unit ρ} :
      Continues part whole output offset (.raised (escapeFault part position) ended)
        (.raised (escapeFault whole (position + offset)) ended')
  | trailing (position : Nat) {ended ended' : Run Unit ρ} :
      Continues part whole output offset (.raised (trailingFault part position) ended)
        (.raised (trailingFault whole (position + offset)) ended')

theorem trailingPosition_append (before body rest : List Char) :
    trailingPosition (before ++ body) rest = trailingPosition body rest + before.length := by
  unfold trailingPosition
  rw [List.length_append]
  split <;> omega

/-- A text behind an opening quote, in characters. -/
theorem toList_quote_append {text : String} {chars : List Char} (h : text.toList = chars) :
    ("\"" ++ text).toList = delimiter :: chars := by
  rw [String.toList_append, h]
  rfl

section

variable {ρ : Type} {text part whole : String} {before body : List Char} {stop : Stop}

/-- The outcome of a text that opens a string depends on what ends its body, and on the body only
through its length and what it decodes to. -/
theorem parse_reads (observer : Observer ρ) {limits : Limits} (run : Run Unit ρ)
    (hl : limits.Admits text.length) (hb : IsBody body)
    (ht : text.toList = delimiter :: (body ++ stop.chars)) :
    Reads text body stop (parse observer limits text run) := by
  match stop with
  | .atEnd =>
      rw [Stop.chars, List.append_nil] at ht
      obtain ⟨ended, hparse, hstate⟩ := (parse_returned_iff observer run hl _ _).mpr
        (Or.inr (Or.inl ⟨body, ⟨hb, ht⟩, rfl, rfl⟩))
      rw [hparse]
      exact .unclosed hstate
  | .quote [] =>
      obtain ⟨ended, hparse, hstate⟩ := (parse_returned_iff observer run hl _ _).mpr
        (Or.inr (Or.inr ⟨body, ⟨hb, ht⟩, rfl, rfl⟩))
      rw [hparse]
      exact .closed hstate
  | .quote (c :: rest) =>
      have hne : c :: rest ≠ [] := List.cons_ne_nil c rest
      obtain ⟨ended, hparse⟩ := (parse_raised_iff observer run hl _).mpr
        (Or.inr (Or.inr ⟨body, c :: rest, ⟨hb, hne, ht⟩, rfl⟩))
      rw [hparse]
      exact .trailed hne
  | .mark rest lone =>
      obtain ⟨ended, hparse⟩ := (parse_raised_iff observer run hl _).mpr
        (Or.inr (Or.inl ⟨body, rest, ⟨hb, lone, ht⟩, rfl⟩))
      rw [hparse]
      exact .marked

/-- Only at the end of the text does a parse return inside the string. -/
theorem Reads.stop_eq_atEnd {output : String} {ended : Run Unit ρ}
    (h : Reads text body stop (.returned output ended))
    (hstate : ended.machine.state = State.inside.value) :
    stop = .atEnd ∧ output = .ofList (decode body) := by
  cases h with
  | unclosed _ => exact ⟨rfl, rfl⟩
  | closed hleft => exact absurd (State.value_injective (hleft.symm.trans hstate)) (by decide)

/-- The same stop after a longer body. -/
theorem Reads.continues {outcome outcome' : Outcome Unit ρ String} (hb : IsBody before)
    (h : Reads part body stop outcome) (h' : Reads whole (before ++ body) stop outcome') :
    Continues part whole (.ofList (decode before)) before.length outcome outcome' := by
  have hdecode : String.ofList (decode (before ++ body)) =
      .ofList (decode before) ++ .ofList (decode body) := by
    rw [decode_append hb, String.ofList_append]
  cases h with
  | unclosed hstate =>
      cases h' with
      | unclosed hstate' =>
          rw [hdecode]
          exact .returned (hstate'.trans hstate.symm)
  | closed hstate =>
      cases h' with
      | closed hstate' =>
          rw [hdecode]
          exact .returned (hstate'.trans hstate.symm)
      | trailed hne => exact absurd rfl hne
  | trailed hne =>
      cases h' with
      | closed _ => exact absurd rfl hne
      | trailed _ =>
          rw [trailingPosition_append]
          exact .trailing _
  | marked =>
      cases h' with
      | marked =>
          have hp : (before ++ body).length + 1 = body.length + 1 + before.length := by
            rw [List.length_append]
            omega
          rw [hp]
          exact .escape _

end

/-- Behind a first part that ends inside the string, a second part is read as it is right after an
opening quote. It has an output, an escape error or a trailing error, and nothing else. -/
theorem decoding_composes {ρ : Type} (observer : Observer ρ) (limits : Limits)
    (first second third : Run Unit ρ) (a b s : String)
    (hl : limits.Admits ("\"" ++ a ++ b).length)
    (ha : ∃ ended, parse observer limits ("\"" ++ a) first = .returned s ended ∧
      ended.machine.state = State.inside.value) :
    Continues ("\"" ++ b) ("\"" ++ a ++ b) s a.length
      (parse observer limits ("\"" ++ b) second)
      (parse observer limits ("\"" ++ a ++ b) third) := by
  have hle : ("\"" ++ a).length ≤ ("\"" ++ a ++ b).length ∧
      ("\"" ++ b).length ≤ ("\"" ++ a ++ b).length := by
    simp only [String.length_append]
    omega
  obtain ⟨ended, hparse, hstate⟩ := ha
  obtain ⟨before, stop, hbefore, hachars⟩ := exists_body_append_stop a.toList
  have hreads := parse_reads observer first (hl.of_le hle.1) hbefore (toList_quote_append hachars)
  rw [hparse] at hreads
  obtain ⟨rfl, rfl⟩ := hreads.stop_eq_atEnd hstate
  obtain ⟨body, stop, hbody, hbchars⟩ := exists_body_append_stop b.toList
  have hchars : (a ++ b).toList = before ++ body ++ stop.chars := by
    rw [String.toList_append, hachars, hbchars, Stop.chars, List.append_nil, List.append_assoc]
  have hlength : a.length = before.length := by
    rw [← String.length_toList, hachars, Stop.chars, List.append_nil]
  have hpart := parse_reads observer second (hl.of_le hle.2) hbody (toList_quote_append hbchars)
  rw [String.append_assoc] at hl ⊢
  have hwhole := parse_reads observer third hl (hbefore.append hbody) (toList_quote_append hchars)
  rw [hlength]
  exact hpart.continues hbefore hwhole

/-- The seam stands between an escaped quote and one that closes the string, and the error behind
it is found three characters further on. -/
theorem composes_behind_escaped_quote :
    Limits.standard.Admits ("\"" ++ "x\\\"" ++ "\" z").length ∧
      (∃ ended, parse Observer.log .standard ("\"" ++ "x\\\"") (.fresh () []) =
        .returned "x\"" ended ∧ ended.machine.state = State.inside.value) ∧
      Continues ("\"" ++ "\" z") ("\"" ++ "x\\\"" ++ "\" z") "x\"" 3
        (parse Observer.log .standard ("\"" ++ "\" z") (.fresh () []))
        (parse Observer.log .standard ("\"" ++ "x\\\"" ++ "\" z") (.fresh () [])) := by
  have hl : Limits.standard.Admits ("\"" ++ "x\\\"" ++ "\" z").length := by decide
  have ha : ∃ ended, parse Observer.log .standard ("\"" ++ "x\\\"") (.fresh () []) =
      .returned "x\"" ended ∧ ended.machine.state = State.inside.value := ⟨_, rfl, rfl⟩
  exact ⟨hl, ha, decoding_composes _ _ _ _ _ _ _ _ hl ha⟩

end CharMachine.Quoted
