import CharMachine.Proofs.Journal
import CharMachine.Proofs.Result
import Mathlib.Order.Nat

/-!
# Windowed machines

A windowed machine reads a text once, from left to right. At each character its rules look at the
state and at the window around the character, say whether the character is kept and give the next
state. Its run is a recursion along the text that mentions no pointer, table or loop.

Main statement: a parser whose handlers apply the rules and move on by one is that machine. It
stops early only at a character that it reaches in a state without a handler; the state after the
last character is never looked up.
-/

namespace CharMachine.Windowed

/-- The rules of a windowed machine and the states that it has handlers for. -/
structure Rules where
  states : List Int
  nodup_states : states.Nodup
  next : Int → Window → Int
  keeps : Int → Window → Bool

/-- The window around a position of a text. -/
def windowAt (chars : List Char) (i : Nat) : Window where
  previous? :=
    match i with
    | 0 => none
    | j + 1 => chars[j]?
  current? := chars[i]?
  next? := chars[i + 1]?
  isFirst := i = 0
  isLast := i + 1 = chars.length

namespace Rules

section Reading

variable (rules : Rules) (chars : List Char)

/-- The state in which a position is reached. -/
def stateAt : Nat → Int
  | 0 => Machine.initialState
  | i + 1 => rules.next (stateAt i) (windowAt chars i)

/-- Whether the character at a position is kept. -/
def keepsAt (i : Nat) : Bool := rules.keeps (rules.stateAt chars i) (windowAt chars i)

/-- The characters kept before a position. -/
def keptBefore (i : Nat) : List Char :=
  ((List.range i).filter (rules.keepsAt chars)).filterMap (chars[·]?)

/-- The machine at a position: nothing but the text decides what it is. -/
def machineAt (i : Nat) : Machine where
  input := .ofList chars
  pointer := i
  state := rules.stateAt chars i
  emitted := (rules.keptBefore chars i).reverse

end Reading

variable {σ : Type}

/-- Reads the state and the window, keeps the character or not, goes to the next state and moves
on. -/
def handler (rules : Rules) : Program σ Unit := do
  let machine ← .machine
  if rules.keeps machine.state machine.window then .append
  .setState (rules.next machine.state machine.window)
  .advance

/-- The table with exactly the states of the rules. -/
def table (rules : Rules) : Table σ where
  entries := rules.states.map fun state => (state, rules.handler)
  nodup_states := by
    rw [List.map_map]
    exact (List.map_id rules.states).symm ▸ rules.nodup_states

def parser (rules : Rules) (limits : Limits) : Parser σ where
  table := rules.table
  limits := limits

section Reading

variable (rules : Rules) {chars : List Char} {i : Nat}

theorem keptBefore_succ {c : Char} (hc : chars[i]? = some c) :
    rules.keptBefore chars (i + 1) =
      rules.keptBefore chars i ++ if rules.keepsAt chars i then [c] else [] := by
  rw [keptBefore, keptBefore, List.range_succ, List.filter_append, List.filterMap_append]
  cases hk : rules.keepsAt chars i with
  | true => simp [hk, hc]
  | false => simp [hk]

theorem current?_machineAt : (rules.machineAt chars i).current? = chars[i]? :=
  (Machine.current?_eq_get? _).trans (Text.get?_eq_getElem? _ _)

theorem next?_machineAt : (rules.machineAt chars i).next? = chars[i + 1]? :=
  (Machine.next?_eq_get? _).trans (Text.get?_eq_getElem? _ _)

theorem previous?_machineAt :
    (rules.machineAt chars i).previous? = (windowAt chars i).previous? := by
  cases i with
  | zero => exact Machine.previous?_of_pointer_zero _ rfl
  | succ j => exact (Machine.previous?_of_pointer_succ _ rfl).trans (Text.get?_eq_getElem? _ _)

/-- Inside the text a handler sees the window of its position. -/
theorem window_machineAt (hi : i < chars.length) :
    (rules.machineAt chars i).window = windowAt chars i := by
  have hfirst : (rules.machineAt chars i).isFirst = decide (i = 0) := by
    have hpointer : (rules.machineAt chars i).pointer = i := rfl
    rw [Machine.isFirst, current?_machineAt, List.getElem?_eq_getElem hi, hpointer]
    exact Bool.and_true _
  have hlast : (rules.machineAt chars i).isLast = decide (i + 1 = chars.length) := by
    rw [Machine.isLast, next?_machineAt, Bool.eq_iff_iff, decide_eq_true_iff,
      Option.isNone_iff_eq_none, List.getElem?_eq_none_iff]
    omega
  rw [Machine.window, previous?_machineAt, current?_machineAt, next?_machineAt, hfirst, hlast]
  rfl

end Reading

/-- What a call of the handler does to the machine. -/
def applied (rules : Rules) (machine : Machine) : Machine :=
  let seen := if rules.keeps machine.state machine.window then machine.act .append else machine
  (seen.act (.setState (rules.next machine.state machine.window))).act .advance

theorem run_handler (rules : Rules)
    (inner : String → Run σ (List Machine) → Outcome σ (List Machine) String) (machine : Machine)
    (memory : σ) (machines : List Machine) :
    rules.handler.run .calls inner ⟨machine, memory, machines⟩ =
      .returned () ⟨rules.applied machine, memory, machines⟩ := by
  simp only [handler, applied, Program.run_bind, Program.run_machine, Outcome.andThen_returned]
  cases rules.keeps machine.state machine.window <;> rfl

section Calls

variable (rules : Rules) {chars : List Char} {i : Nat} {limits : Limits} (memory : σ)

theorem find?_table (state : Int) :
    (rules.table : Table σ).find? state =
      if state ∈ rules.states then some rules.handler else none := by
  change (rules.states.map fun state => (state, rules.handler)).lookup state = _
  induction rules.states with
  | nil => rfl
  | cons first rest ih =>
      rw [List.map_cons, List.lookup_cons, ih]
      by_cases h : state = first
      · simp [h]
      · have hne : (state == first) = false := beq_false_of_ne h
        simp [h, hne]

theorem act_append_machineAt (hi : i < chars.length) :
    (rules.machineAt chars i).act .append =
      { rules.machineAt chars i with
        emitted := chars[i] :: (rules.keptBefore chars i).reverse } := by
  rw [Machine.act, current?_machineAt, List.getElem?_eq_getElem hi]
  rfl

/-- A call takes the machine from one position to the next. -/
theorem applied_machineAt (hi : i < chars.length) :
    rules.applied (rules.machineAt chars i) = rules.machineAt chars (i + 1) := by
  have hkept := rules.keptBefore_succ (List.getElem?_eq_getElem hi)
  have hkeeps : rules.keeps (rules.machineAt chars i).state (rules.machineAt chars i).window =
      rules.keepsAt chars i := by
    rw [window_machineAt rules hi]
    rfl
  have hnext : rules.next (rules.machineAt chars i).state (rules.machineAt chars i).window =
      rules.stateAt chars (i + 1) := by
    rw [window_machineAt rules hi]
    rfl
  rw [applied, hkeeps, hnext]
  unfold machineAt
  cases hk : rules.keepsAt chars i with
  | true =>
      rw [hk, if_pos rfl] at hkept
      rw [if_pos rfl, hkept, List.reverse_append]
      exact congrArg (fun machine : Machine =>
        (machine.act (.setState (rules.stateAt chars (i + 1)))).act .advance)
        (rules.act_append_machineAt hi)
  | false =>
      rw [hk, if_neg Bool.false_ne_true, List.append_nil] at hkept
      rw [if_neg Bool.false_ne_true, hkept]
      rfl

/-- The run at a position, with the machines of the calls so far on top of earlier ones. -/
def runAt (chars : List Char) (earlier : List Machine) (i : Nat) : Run σ (List Machine) where
  machine := rules.machineAt chars i
  memory := memory
  journal := ((List.range i).map (rules.machineAt chars)).reverse ++ earlier

theorem leads_next (hi : i < chars.length) (hs : rules.stateAt chars i ∈ rules.states)
    (earlier : List Machine) :
    (rules.parser limits).Leads .calls chars.length 1 (rules.runAt memory chars earlier i)
      (rules.runAt memory chars earlier (i + 1)) := by
  have hf : (rules.table : Table σ).find? (rules.machineAt chars i).state = some rules.handler := by
    rw [find?_table]
    exact if_pos hs
  have hnext : rules.runAt memory chars earlier (i + 1) =
      ⟨rules.machineAt chars (i + 1), memory,
        rules.machineAt chars i :: (rules.runAt memory chars earlier i).journal⟩ := by
    simp [runAt, List.range_succ]
  refine Parser.leads_call hi hf ?_
  intro inner
  rw [hnext, ← rules.applied_machineAt hi]
  exact rules.run_handler inner _ memory _

/-- As long as its states have handlers, the machine makes one call for each character. -/
theorem leads_to (hi : i ≤ chars.length) (hs : ∀ j < i, rules.stateAt chars j ∈ rules.states)
    (earlier : List Machine) :
    (rules.parser limits).Leads .calls chars.length i (rules.runAt memory chars earlier 0)
      (rules.runAt memory chars earlier i) := by
  induction i with
  | zero => exact .refl _
  | succ i ih =>
      have hbefore := ih (Nat.le_of_succ_le hi) fun j hj => hs j (Nat.lt_succ_of_lt hj)
      exact hbefore.trans (rules.leads_next memory hi (hs i (Nat.lt_succ_self i)) earlier)

end Calls

section Parses

variable (rules : Rules) {limits : Limits} {text : String} (run : Run σ (List Machine))

/-- A loop over the text that has come to a position goes on from there. -/
theorem loop_eq {i : Nat} (hi : i ≤ text.length)
    (hs : ∀ j < i, rules.stateAt text.toList j ∈ rules.states) (left : Nat) :
    (rules.parser limits).loop .calls (i + left) text.length
        ((rules.parser limits).begin .calls text run) =
      (rules.parser limits).loop .calls left text.length
        (rules.runAt run.memory text.toList run.journal i) :=
  rules.leads_to run.memory hi hs run.journal left

theorem ends_returned (hl : limits.Admits text.length)
    (hs : ∀ i < text.length, rules.stateAt text.toList i ∈ rules.states) :
    (rules.parser limits).Ends .calls text run
      (.returned (String.ofList (rules.keptBefore text.toList text.length))
        (rules.runAt run.memory text.toList run.journal text.length)) := by
  have houtput : (rules.machineAt text.toList text.length).output =
      String.ofList (rules.keptBefore text.toList text.length) := by
    rw [Machine.output, Machine.written, machineAt, List.reverse_reverse]
  have hend : text.length ≤
      (rules.runAt run.memory text.toList run.journal text.length).machine.pointer :=
    Nat.le_refl _
  refine ⟨Outcome.ofResult_ne_exhausted (.ok _) _, text.length + 0, ?_⟩
  rw [Parser.parse, Parser.parseWith_admitted _ _ hl, rules.loop_eq run (Nat.le_refl _) hs,
    Parser.loop_of_length_le _ _ _ hend, ← houtput]
  rfl

theorem ends_unhandled (hl : limits.Admits text.length) {j : Nat} (hj : j < text.length)
    (hs : ∀ i < j, rules.stateAt text.toList i ∈ rules.states)
    (habsent : rules.stateAt text.toList j ∉ rules.states) :
    (rules.parser limits).Ends .calls text run
      (.raised (.parse (.unknownState (rules.stateAt text.toList j)))
        (rules.runAt run.memory text.toList run.journal j)) := by
  have hf : (rules.table : Table σ).find? (rules.machineAt text.toList j).state = none := by
    rw [find?_table]
    exact if_neg habsent
  refine ⟨Outcome.ofResult_ne_exhausted (.error _) _, j + 1, ?_⟩
  rw [Parser.parse, Parser.parseWith_admitted _ _ hl, rules.loop_eq run (Nat.le_of_lt hj) hs,
    Parser.loop_unhandled _ _ _ hj hf]
  rfl

/-- A parser with these rules reads each text within its limit as the rules say. If every position
is reached in a state with a handler, the parse returns the characters kept, after one call at each
position in turn and in whatever state the last character leads to. Otherwise it makes the calls
before the first position that is reached in a state without a handler, and raises there. -/
theorem parser_realizes_rules (limits : Limits) (text : String) (hl : limits.Admits text.length) :
    ((∀ i < text.length, rules.stateAt text.toList i ∈ rules.states) →
      (rules.parser limits).Ends .calls text run
        (.returned (String.ofList (rules.keptBefore text.toList text.length))
          (rules.runAt run.memory text.toList run.journal text.length))) ∧
    ((¬ ∀ i < text.length, rules.stateAt text.toList i ∈ rules.states) →
      ∃ j < text.length, rules.stateAt text.toList j ∉ rules.states ∧
        (∀ i < j, rules.stateAt text.toList i ∈ rules.states) ∧
        (rules.parser limits).Ends .calls text run
          (.raised (.parse (.unknownState (rules.stateAt text.toList j)))
            (rules.runAt run.memory text.toList run.journal j))) := by
  refine ⟨rules.ends_returned run hl, ?_⟩
  intro hmissing
  have hex : ∃ j, j < text.length ∧ rules.stateAt text.toList j ∉ rules.states := by
    simpa only [not_forall, exists_prop] using hmissing
  obtain ⟨hj, habsent⟩ := Nat.find_spec hex
  have hbefore : ∀ i < Nat.find hex, rules.stateAt text.toList i ∈ rules.states := by
    intro i hi
    by_contra hout
    exact Nat.find_min hex hi ⟨hi.trans hj, hout⟩
  exact ⟨_, hj, habsent, hbefore, rules.ends_unhandled run hl hj hbefore habsent⟩

end Parses

/-- Keeps one of several equal characters in a row. After a mark there is no handler. -/
def squeezing : Rules where
  states := [0]
  nodup_states := by decide
  next _ window := if window.current? = some '!' then 7 else 0
  keeps _ window := window.previous? != window.current?

/-- A mark at the end of the text does no harm; one before the end does. -/
theorem squeezing_realized :
    (squeezing.parser .standard).Ends .calls "aab!" (.fresh () [])
        (.returned "ab!" (squeezing.runAt () "aab!".toList [] 4)) ∧
      ∃ ended, (squeezing.parser .standard).Ends .calls "aab!c" (.fresh () [])
        (.raised (.parse (.unknownState 7)) ended) ∧ ended.machine.pointer = 4 := by
  have hreturns := (squeezing.parser_realizes_rules (.fresh () []) .standard "aab!" (by decide)).1
    (by decide)
  obtain ⟨j, hj, habsent, -, hraises⟩ :=
    (squeezing.parser_realizes_rules (.fresh () []) .standard "aab!c" (by decide)).2 (by decide)
  have hfour : ∀ j < "aab!c".length,
      squeezing.stateAt "aab!c".toList j ∉ squeezing.states → j = 4 := by decide
  obtain rfl := hfour j hj habsent
  exact ⟨hreturns, _, hraises, rfl⟩

end Rules

end CharMachine.Windowed
