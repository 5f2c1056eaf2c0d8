import CharMachine.Proofs.Between
import CharMachine.Proofs.Observation
import CharMachine.Proofs.Quoted.Shape

/-!
# What the table makes of each shape

The table is followed call by call along a text of known shape. Inside a string the invariant is
that the emitted characters are the decoded part of the body that has been passed, and that no
escape mark stands right behind the pointer except between the two characters of an escape. The
verdict on a shape gives the machine at the end, the number of calls and the fault, if any; the
parse of every text within the limit ends in the verdict on its shape, for every observer and
from every earlier run.
-/

namespace CharMachine.Quoted

/-- The table's run in a state between two parts of the text, after some calls. -/
def standing (state : State) (passed ahead emitted : List Char) (calls : Nat) : Run Unit Nat :=
  ⟨.between passed ahead state.value emitted, (), calls⟩

theorem find?_table {σ : Type} (state : State) :
    (table : Table σ).find? state.value = some (handler state) := by
  cases state <;> rfl

section Calls

variable {limits : Limits} {length calls : Nat} {passed ahead emitted : List Char} {c d : Char}

theorem leads_handler {state : State} {next : Run Unit Nat} (hp : passed.length < length)
    (hr : ∀ inner, (handler state).run Observer.tally inner
      (standing state passed ahead emitted (calls + 1)) = .returned () next) :
    (parser limits).Leads Observer.tally length 1 (standing state passed ahead emitted calls)
      next :=
  Parser.leads_call hp (find?_table state) hr

theorem leads_start (hp : 0 < length) :
    (parser limits).Leads Observer.tally length 1
      (standing .unknown [] (delimiter :: ahead) [] calls)
      (standing .entering [] (delimiter :: ahead) [] (calls + 1)) := by
  apply leads_handler hp
  intro inner
  simp [handler, atStart, enter, standing]

theorem leads_misled (hp : 0 < length) (hc : c ≠ delimiter) :
    (parser limits).Leads Observer.tally length 1
      (standing .unknown [] (c :: ahead) [] calls)
      (standing .invalidLeading [] (c :: ahead) [] (calls + 1)) := by
  apply leads_handler hp
  intro inner
  simp [handler, atStart, enter, standing, hc]

theorem leads_opening (hp : 0 < length) :
    (parser limits).Leads Observer.tally length 1
      (standing .entering [] (delimiter :: ahead) [] calls)
      (standing .inside [delimiter] ahead [] (calls + 1)) := by
  apply leads_handler hp
  intro inner
  simp [handler, atOpening, enter, standing]

theorem leads_plain (hp : passed.length < length) (hc : IsPlain c) :
    (parser limits).Leads Observer.tally length 1
      (standing .inside passed (c :: ahead) emitted calls)
      (standing .inside (passed ++ [c]) ahead (c :: emitted) (calls + 1)) := by
  apply leads_handler hp
  intro inner
  simp [handler, atInside, standing, hc.1, hc.2]

/-- The mark of an escape is passed in silence. -/
theorem leads_mark (hp : passed.length < length) :
    (parser limits).Leads Observer.tally length 1
      (standing .inside passed (escapeMark :: delimiter :: ahead) emitted calls)
      (standing .inside (passed ++ [escapeMark]) (delimiter :: ahead) emitted (calls + 1)) := by
  have hm : escapeMark ≠ delimiter := by decide
  apply leads_handler hp
  intro inner
  simp [handler, atInside, standing, hm]

theorem leads_escaped (hp : passed.length < length) (hm : passed.getLast? = some escapeMark) :
    (parser limits).Leads Observer.tally length 1
      (standing .inside passed (delimiter :: ahead) emitted calls)
      (standing .inside (passed ++ [delimiter]) ahead (delimiter :: emitted) (calls + 1)) := by
  apply leads_handler hp
  intro inner
  simp [handler, atInside, standing, hm]

theorem leads_closing (hp : passed.length < length) (hm : passed.getLast? ≠ some escapeMark) :
    (parser limits).Leads Observer.tally length 1
      (standing .inside passed (delimiter :: ahead) emitted calls)
      (standing .left (passed ++ [delimiter]) ahead emitted (calls + 1)) := by
  apply leads_handler hp
  intro inner
  simp [handler, atInside, enter, standing, hm]

theorem leads_lone_mark (hp : passed.length < length) (ha : ahead.head? ≠ some delimiter) :
    (parser limits).Leads Observer.tally length 1
      (standing .inside passed (escapeMark :: ahead) emitted calls)
      (standing .invalidEscape passed (escapeMark :: ahead) emitted (calls + 1)) := by
  have hm : escapeMark ≠ delimiter := by decide
  apply leads_handler hp
  intro inner
  simp [handler, atInside, enter, standing, hm, ha]

theorem leads_trailing_last (hp : passed.length < length) :
    (parser limits).Leads Observer.tally length 1
      (standing .left passed [c] emitted calls)
      (standing .invalidTrailing passed [c] emitted (calls + 1)) := by
  apply leads_handler hp
  intro inner
  simp [handler, atLeft, enter, standing]

theorem leads_trailing (hp : passed.length < length) :
    (parser limits).Leads Observer.tally length 1
      (standing .left passed (c :: d :: ahead) emitted calls)
      (standing .invalidTrailing (passed ++ [c]) (d :: ahead) emitted (calls + 1)) := by
  apply leads_handler hp
  intro inner
  simp [handler, atLeft, enter, standing]

/-- No escape mark stands at the end of a body. -/
theorem getLast?_append_ne {body : List Char} (hb : IsBody body)
    (hm : passed.getLast? ≠ some escapeMark) : (passed ++ body).getLast? ≠ some escapeMark := by
  induction hb generalizing passed with
  | nil => rwa [List.append_nil]
  | @plain c rest hc _ ih =>
      have hlast : (passed ++ [c]).getLast? ≠ some escapeMark := by
        rw [List.getLast?_concat]
        exact fun e => hc.2 (Option.some.inj e)
      rw [List.append_cons]
      exact ih hlast
  | @quote rest _ ih =>
      have hlast : (passed ++ [escapeMark] ++ [delimiter]).getLast? ≠ some escapeMark := by
        rw [List.getLast?_concat]
        decide
      rw [List.append_cons, List.append_cons]
      exact ih hlast

/-- A body is decoded with one call for each of its characters. -/
theorem leads_body {body : List Char} (hb : IsBody body) (hp : passed.length + body.length ≤ length)
    (hm : passed.getLast? ≠ some escapeMark) :
    (parser limits).Leads Observer.tally length body.length
      (standing .inside passed (body ++ ahead) emitted calls)
      (standing .inside (passed ++ body) ahead ((decode body).reverse ++ emitted)
        (calls + body.length)) := by
  induction hb generalizing passed emitted calls with
  | nil =>
      rw [List.append_nil]
      exact .refl _
  | @plain c rest hc _ ih =>
      rw [List.length_cons] at hp
      have hlast : (passed ++ [c]).getLast? ≠ some escapeMark :=
        getLast?_append_ne (.plain hc .nil) hm
      have hfirst : (parser limits).Leads Observer.tally length 1
          (standing .inside passed (c :: (rest ++ ahead)) emitted calls) _ :=
        leads_plain (by omega) hc
      have hrest := hfirst.trans (ih (by simp; omega) hlast)
      simpa [decode_plain hc, Nat.add_assoc, Nat.add_comm 1] using hrest
  | @quote rest _ ih =>
      rw [List.length_cons, List.length_cons] at hp
      have hlast : (passed ++ [escapeMark] ++ [delimiter]).getLast? ≠ some escapeMark := by
        rw [List.getLast?_concat]
        decide
      have hmark : (parser limits).Leads Observer.tally length 1
          (standing .inside passed (escapeMark :: delimiter :: (rest ++ ahead)) emitted calls) _ :=
        leads_mark (by omega)
      have hquote := hmark.trans (leads_escaped (by simp; omega) List.getLast?_concat)
      have hrest := hquote.trans (ih (by simp; omega) hlast)
      simpa [decode_quote, Nat.add_assoc, Nat.add_comm 2] using hrest

theorem leads_opened {body : List Char} (hb : IsBody body) (hp : body.length < length) :
    (parser limits).Leads Observer.tally length (body.length + 2)
      (standing .unknown [] (delimiter :: (body ++ ahead)) [] calls)
      (standing .inside (delimiter :: body) ahead (decode body).reverse
        (calls + (body.length + 2))) := by
  have hone : [delimiter].getLast? ≠ some escapeMark := by decide
  have hstart : (parser limits).Leads Observer.tally length 1
      (standing .unknown [] (delimiter :: (body ++ ahead)) [] calls) _ := leads_start (by omega)
  have hinside := hstart.trans (leads_opening (by omega))
  have hbody := hinside.trans (leads_body hb (by simp; omega) hone)
  simpa [Nat.add_assoc, Nat.add_comm 2] using hbody

theorem leads_closed {body : List Char} (hb : IsBody body) (hp : body.length + 1 < length) :
    (parser limits).Leads Observer.tally length (body.length + 3)
      (standing .unknown [] (delimiter :: (body ++ delimiter :: ahead)) [] calls)
      (standing .left (delimiter :: body ++ [delimiter]) ahead (decode body).reverse
        (calls + (body.length + 3))) := by
  have hlast : ([delimiter] ++ body).getLast? ≠ some escapeMark :=
    getLast?_append_ne hb (by decide)
  have hopened : (parser limits).Leads Observer.tally length (body.length + 2)
      (standing .unknown [] (delimiter :: (body ++ delimiter :: ahead)) [] calls) _ :=
    leads_opened hb (by omega)
  exact hopened.trans (leads_closing (by simpa using hp) hlast)

/-- A loop that has come to a refusing state raises at the next call. -/
theorem loop_raises {state : State} {fault : Fault} {before steps : Nat} {run : Run Unit Nat}
    (h : (parser limits).Leads Observer.tally length before run
      (standing state passed ahead emitted calls))
    (hp : passed.length < length) (hs : before + 1 ≤ steps)
    (hr : ∀ inner, (handler state).run Observer.tally inner
      (standing state passed ahead emitted (calls + 1)) =
        .raised fault (standing state passed ahead emitted (calls + 1))) :
    (parser limits).loop Observer.tally steps length run =
      .raised fault (standing state passed ahead emitted (calls + 1)) := by
  obtain ⟨left, hleft⟩ : ∃ left, steps - before = left + 1 := ⟨steps - before - 1, by omega⟩
  rw [h.loop_eq (by omega), hleft, Parser.loop_call _ _ _ hp (find?_table state)]
  change ((handler state).run _ _ (standing state passed ahead emitted (calls + 1))).andThen _ = _
  rw [hr]
  rfl

end Calls

/-- What the table makes of a text: the machine it leaves, the calls it takes and its fault. -/
structure Verdict where
  machine : Machine
  calls : Nat
  fault? : Option Fault

namespace Verdict

def outcome {ρ α : Type} (verdict : Verdict) (value : α) (journal : ρ) : Outcome Unit ρ α :=
  match verdict.fault? with
  | none => .returned value ⟨verdict.machine, (), journal⟩
  | some fault => .raised fault ⟨verdict.machine, (), journal⟩

theorem forget_outcome {ρ α : Type} (verdict : Verdict) (value : α) (journal : ρ) :
    (verdict.outcome value journal).forget = verdict.outcome value () := by
  unfold outcome
  cases verdict.fault? with
  | none => rfl
  | some fault => rfl

def accept (machine : Machine) (calls : Nat) : Verdict := ⟨machine, calls, none⟩

def refuseTrailing (machine : Machine) (calls : Nat) : Verdict :=
  ⟨machine, calls,
    some (.parse (.invalidTrailing machine.pointer (machine.spanAt machine.pointer)))⟩

def refuseEscape (machine : Machine) (calls : Nat) : Verdict :=
  ⟨machine, calls,
    some (.parse (.invalidEscape machine.pointer (machine.spanAt machine.pointer)))⟩

end Verdict

/-- The verdict on a body and what ends it. -/
def Stop.verdict (body : List Char) : Stop → Verdict
  | atEnd =>
      .accept (.between (delimiter :: body) [] State.inside.value (decode body).reverse)
        (body.length + 2)
  | quote [] =>
      .accept (.between (delimiter :: body ++ [delimiter]) [] State.left.value
        (decode body).reverse) (body.length + 3)
  | quote [c] =>
      .refuseTrailing (.between (delimiter :: body ++ [delimiter]) [c]
        State.invalidTrailing.value (decode body).reverse) (body.length + 5)
  | quote (c :: d :: rest) =>
      .refuseTrailing (.between (delimiter :: body ++ [delimiter] ++ [c]) (d :: rest)
        State.invalidTrailing.value (decode body).reverse) (body.length + 5)
  | mark rest _ =>
      .refuseEscape (.between (delimiter :: body) (escapeMark :: rest)
        State.invalidEscape.value (decode body).reverse) (body.length + 4)

def Shape.verdict : Shape → Verdict
  | empty => .accept (.between [] [] State.unknown.value []) 0
  | misled first rest _ =>
      ⟨.between [] (first :: rest) State.invalidLeading.value [], 2, some (.parse .invalidLeading)⟩
  | opened body _ stop => stop.verdict body

variable {limits : Limits} {length steps : Nat}

/-- A closing quote is accepted at the end of the text and nowhere else. -/
theorem loop_quote {body : List Char} (hb : IsBody body) (rest : List Char)
    (hl : length = body.length + rest.length + 2)
    (hs : ((Stop.quote rest).verdict body).calls ≤ steps) (calls : Nat) :
    (parser limits).loop Observer.tally steps length
        (standing .unknown [] (delimiter :: (body ++ delimiter :: rest)) [] calls) =
      ((Stop.quote rest).verdict body).outcome ()
        (calls + ((Stop.quote rest).verdict body).calls) := by
  have hclosed : (parser limits).Leads Observer.tally length (body.length + 3)
      (standing .unknown [] (delimiter :: (body ++ delimiter :: rest)) [] calls) _ :=
    leads_closed hb (by omega)
  match rest with
  | [] =>
      have hend : length ≤ (delimiter :: body ++ [delimiter]).length := by simp [hl]
      rw [hclosed.loop_eq hs, Parser.loop_of_length_le _ _ _ hend]
      rfl
  | [c] =>
      have hinside : (delimiter :: body ++ [delimiter]).length < length := by simp [hl]
      have hstuck := hclosed.trans (leads_trailing_last hinside)
      exact loop_raises hstuck hinside hs fun _ => rfl
  | c :: d :: rest =>
      have hinside : (delimiter :: body ++ [delimiter] ++ [c]).length < length := by
        simp only [hl, List.length_append, List.length_cons, List.length_nil]
        omega
      have hstuck := hclosed.trans (leads_trailing (Nat.lt_of_succ_lt (by simpa using hinside)))
      exact loop_raises hstuck hinside hs fun _ => rfl

theorem loop_stop {body : List Char} (hb : IsBody body) (stop : Stop)
    (hl : length = body.length + stop.chars.length + 1)
    (hs : (stop.verdict body).calls ≤ steps) (calls : Nat) :
    (parser limits).loop Observer.tally steps length
        (standing .unknown [] (delimiter :: (body ++ stop.chars)) [] calls) =
      (stop.verdict body).outcome () (calls + (stop.verdict body).calls) := by
  have hopened : (parser limits).Leads Observer.tally length (body.length + 2)
      (standing .unknown [] (delimiter :: (body ++ stop.chars)) [] calls) _ :=
    leads_opened hb (by omega)
  cases stop with
  | atEnd =>
      have hend : length ≤ (delimiter :: body).length := Nat.le_of_eq hl
      rw [hopened.loop_eq hs, Parser.loop_of_length_le _ _ _ hend]
      rfl
  | quote rest => exact loop_quote hb rest hl hs calls
  | mark rest lone =>
      have hinside : (delimiter :: body).length < length := by
        simp only [hl, Stop.chars, List.length_cons]
        omega
      have hstuck := hopened.trans (leads_lone_mark hinside lone)
      exact loop_raises hstuck hinside hs fun _ => rfl

/-- The loop over a text ends as the verdict on its shape says, under every bound that leaves
room for the calls. -/
theorem loop_verdict (shape : Shape) (hs : shape.verdict.calls ≤ steps) (calls : Nat) :
    (parser limits).loop Observer.tally steps shape.chars.length
        (standing .unknown [] shape.chars [] calls) =
      shape.verdict.outcome () (calls + shape.verdict.calls) := by
  cases shape with
  | empty =>
      rw [Parser.loop_of_length_le _ _ _ (Nat.le_refl 0)]
      rfl
  | misled first rest stray =>
      have hp : 0 < (first :: rest).length := Nat.succ_pos _
      have hstuck : (parser limits).Leads Observer.tally (first :: rest).length 1
          (standing .unknown [] (first :: rest) [] calls) _ := leads_misled hp stray
      exact loop_raises hstuck hp hs fun _ => rfl
  | opened body hb stop =>
      have hl : (delimiter :: (body ++ stop.chars)).length =
          body.length + stop.chars.length + 1 := by
        rw [List.length_cons, List.length_append]
      exact loop_stop hb stop hl hs calls

theorem Stop.calls_le (body : List Char) (stop : Stop) :
    (stop.verdict body).calls ≤ body.length + stop.chars.length + 3 := by
  match stop with
  | atEnd => exact Nat.le_succ _
  | quote [] => exact Nat.le_succ _
  | quote [_] => exact Nat.le_refl _
  | quote (_ :: _ :: rest) =>
      change body.length + 5 ≤ body.length + (rest.length + 3) + 3
      omega
  | mark rest _ =>
      change body.length + 4 ≤ body.length + (rest.length + 1) + 3
      omega

/-- Two calls more than there are characters are always enough. -/
theorem Shape.calls_le (shape : Shape) : shape.verdict.calls ≤ shape.chars.length + 2 := by
  cases shape with
  | empty => exact Nat.zero_le _
  | misled first rest stray => exact Nat.le_add_left 2 _
  | opened body hb stop =>
      have hcalls := stop.calls_le body
      change (stop.verdict body).calls ≤ (body ++ stop.chars).length + 1 + 2
      rw [List.length_append]
      exact hcalls

theorem parse_tally (shape : Shape) {text : String} (ht : text.toList = shape.chars)
    (hl : limits.Admits text.length) (hs : shape.verdict.calls ≤ steps) (run : Run Unit Nat) :
    (parser limits).parse Observer.tally steps text run =
      shape.verdict.outcome shape.verdict.machine.output (run.journal + shape.verdict.calls) := by
  have hbegin : (parser limits).begin Observer.tally text run =
      standing .unknown [] shape.chars [] run.journal := by
    rw [← ht]
    rfl
  have hlength : text.length = shape.chars.length := by rw [← ht, String.length_toList]
  rw [Parser.parse, Parser.parseWith_admitted _ _ hl, hbegin, hlength, loop_verdict shape hs]
  unfold Verdict.outcome
  cases shape.verdict.fault? with
  | none => rfl
  | some fault => rfl

/-- Every parse of a text within the limit ends in the verdict on the text's shape. -/
theorem forget_parse {ρ : Type} (observer : Observer ρ) (shape : Shape) {text : String}
    (ht : text.toList = shape.chars) (hl : limits.Admits text.length) (run : Run Unit ρ) :
    (parse observer limits text run).forget =
      shape.verdict.outcome shape.verdict.machine.output () := by
  have hlength : text.length = shape.chars.length := by rw [← ht, String.length_toList]
  have hs : shape.verdict.calls ≤ text.length + 2 := hlength ▸ shape.calls_le
  have htally := parse_tally shape ht hl hs (.fresh () 0)
  unfold parse
  rw [(parser limits).forget_parse_eq observer Observer.tally _ text run (.fresh () 0) rfl, htally,
    Verdict.forget_outcome]

end CharMachine.Quoted
