import CharMachine.Copy
import CharMachine.Proofs.History
import CharMachine.Proofs.Journal
import CharMachine.Proofs.Result
import CharMachine.Proofs.Truncation

/-!
# Copying gives the text back

While a text is copied, what has been emitted is what has been passed. The first call does not get
on, so a text takes one call more than it has characters, unless it is empty and takes none. No call
logs anything and none raises, so a copy of a text within the limit has the two records of a parse
that finishes, with the same count of characters in both.

All this is so after any history of the instance. A truncation with enough room copies too.
-/

namespace CharMachine.Copy

/-- These events make so many calls and log nothing. -/
structure CallsOnly (events : List Event) (count : Nat) : Prop where
  calls : (Event.calls events).length = count
  records : Event.records events = []

theorem CallsOnly.append {later earlier : List Event} {m n : Nat} (h : CallsOnly earlier m)
    (h' : CallsOnly later n) : CallsOnly (later ++ earlier) (m + n) := by
  constructor
  · rw [Event.calls_append, List.length_append, h.calls, h'.calls]
  · rw [Event.records_append, h.records, h'.records]
    rfl

/-- Part of the text has been passed, and all of it is emitted. -/
def standing (passed ahead : List Char) (journal : List Event) : Run Unit (List Event) where
  machine := .between passed ahead inValue passed.reverse
  memory := ()
  journal := journal

section Calls

variable (limits : Limits) {length : Nat} (passed ahead : List Char) (journal : List Event)

/-- The first call goes over to copying and leaves the pointer where it is. -/
theorem leads_start (hp : 0 < length) :
    ∃ events, CallsOnly events 1 ∧
      (parser limits).Leads .full length 1
        ⟨.between [] ahead Machine.initialState [], (), journal⟩
        (standing [] ahead (events ++ journal)) := by
  refine ⟨[.acted (.setState inValue) (.between [] ahead inValue []),
    .called (.between [] ahead Machine.initialState [])], ⟨rfl, rfl⟩, ?_⟩
  exact Parser.leads_call hp rfl fun _ => rfl

theorem leads_value (c : Char) (hp : passed.length < length) :
    ∃ events, CallsOnly events 1 ∧
      (parser limits).Leads .full length 1 (standing passed (c :: ahead) journal)
        (standing (passed ++ [c]) ahead (events ++ journal)) := by
  let machine := Machine.between passed (c :: ahead) inValue passed.reverse
  have hmachine : (machine.act .append).act .advance =
      .between (passed ++ [c]) ahead inValue (passed ++ [c]).reverse := by
    rw [Machine.append_between, Machine.advance_between, List.reverse_concat]
  refine ⟨[.acted .advance ((machine.act .append).act .advance),
    .acted .append (machine.act .append), .called machine], ⟨rfl, rfl⟩, ?_⟩
  refine Parser.leads_call hp rfl fun inner => ?_
  show _ = Outcome.returned ()
    ⟨.between (passed ++ [c]) ahead inValue (passed ++ [c]).reverse, (), _⟩
  rw [← hmachine]
  rfl

/-- One call for each character. -/
theorem leads_values (hp : passed.length + ahead.length ≤ length) :
    ∃ events, CallsOnly events ahead.length ∧
      (parser limits).Leads .full length ahead.length (standing passed ahead journal)
        (standing (passed ++ ahead) [] (events ++ journal)) := by
  induction ahead generalizing passed journal with
  | nil =>
      rw [List.append_nil]
      exact ⟨[], ⟨rfl, rfl⟩, .refl _⟩
  | cons c rest ih =>
      rw [List.length_cons] at hp
      obtain ⟨first, hfirst, hcall⟩ :=
        leads_value limits passed rest journal c (show passed.length < length by omega)
      obtain ⟨others, hothers, hcalls⟩ := ih (passed ++ [c]) (first ++ journal) (by simp; omega)
      refine ⟨others ++ first, ?_, ?_⟩
      · rw [List.length_cons, Nat.add_comm]
        exact hfirst.append hothers
      · have hall := hcall.trans hcalls
        rwa [List.append_assoc, List.singleton_append, ← List.append_assoc, Nat.add_comm] at hall

/-- The loop over a text ends with all of it emitted. -/
theorem loop_copies (chars : List Char) :
    ∃ state events, CallsOnly events (if chars = [] then 0 else chars.length + 1) ∧
      (parser limits).loop .full (chars.length + 1) chars.length
          ⟨.between [] chars Machine.initialState [], (), journal⟩ =
        .returned () ⟨.between chars [] state chars.reverse, (), events ++ journal⟩ := by
  cases chars with
  | nil =>
      refine ⟨Machine.initialState, [], ⟨rfl, rfl⟩, ?_⟩
      rw [Parser.loop_of_length_le _ _ _ (Nat.le_refl 0)]
      rfl
  | cons c rest =>
      have hpos : 0 < (c :: rest).length := Nat.succ_pos _
      obtain ⟨first, hfirst, hstart⟩ := leads_start limits (c :: rest) journal hpos
      obtain ⟨others, hothers, hvalues⟩ :=
        leads_values limits [] (c :: rest) (first ++ journal) (Nat.le_of_eq (Nat.zero_add _))
      have hall := hstart.trans hvalues
      have hend : (c :: rest).length ≤
          (standing (c :: rest) [] (others ++ (first ++ journal))).machine.pointer := Nat.le_refl _
      refine ⟨inValue, others ++ first, ?_, ?_⟩
      · rw [if_neg (List.cons_ne_nil c rest), Nat.add_comm]
        exact hfirst.append hothers
      · rw [hall.loop_eq (by omega), List.nil_append, Parser.loop_of_length_le _ _ _ hend,
          List.append_assoc]
        rfl

end Calls

section Parses

variable {limits : Limits} {text : String} (run : Run Unit (List Event))

/-- The events of a copy that leaves this machine, the most recent first. -/
structure CopyEvents (text : String) (machine : Machine) (events : List Event) : Prop where
  calls : (Event.calls events).length = if text = "" then 0 else text.length + 1
  records : Event.records events =
    [.started text.length 2, .finished machine.state text.length]

theorem parse_admitted (hl : limits.Admits text.length) :
    ∃ machine events, CopyEvents text machine events ∧
      parse .full limits text run = .returned text ⟨machine, (), events ++ run.journal⟩ := by
  let opening : List Event := [.logged (.started text.length 2),
    .opened (.load (.ofString text)), .opened .initial]
  obtain ⟨state, events, hevents, hloop⟩ :=
    loop_copies limits (opening ++ run.journal) text.toList
  let closing : List Event := [.logged (.finished state text.length)]
  refine ⟨.between text.toList [] state text.toList.reverse, closing ++ (events ++ opening),
    ⟨?_, ?_⟩, ?_⟩
  · have hopening : Event.calls opening = [] := rfl
    have hclosing : Event.calls closing = [] := rfl
    rw [Event.calls_append, Event.calls_append, hopening, hclosing, List.append_nil,
      List.nil_append, hevents.calls, String.length_toList]
    simp only [String.toList_eq_nil_iff]
  · rw [Event.records_append, Event.records_append, hevents.records]
    rfl
  · have houtput : (Machine.between text.toList [] state text.toList.reverse).output = text := by
      rw [Machine.output_between, String.ofList_toList]
    have hemitted : (Machine.between text.toList [] state text.toList.reverse).emitted.length =
        text.length := by
      rw [Machine.emitted_between, List.length_reverse, String.length_toList]
    rw [String.length_toList] at hloop
    rw [parse, Parser.parse, Parser.parseWith_admitted _ _ hl]
    refine (congrArg (Outcome.andThen · _) hloop).trans ?_
    rw [Outcome.andThen_returned, Parser.finish, houtput, hemitted]
    simp only [List.append_assoc]
    rfl

/-- Every parse ends, with the text or with its refusal. -/
theorem exists_ends (limits : Limits) (text : String) :
    ∃ result after, (parser limits).Ends .full text run (.ofResult result after) := by
  cases hl : limits.exceeded? text.length with
  | none =>
      have hadmits := (limits.exceeded?_eq_none_iff text.length).mp hl
      obtain ⟨machine, events, -, hparse⟩ := parse_admitted run hadmits
      exact ⟨.ok text, _, nofun, _, hparse⟩
  | some bound =>
      exact ⟨.error (.parse (.inputTooLarge text.length bound)), _, nofun, 0,
        (parser limits).parseWith_rejected .full hl run⟩

end Parses

section Instances

open Instance (Performs Reaches)

variable {limits : Limits} {inst : Instance Unit}

theorem exists_performs (hparser : inst.parser = parser limits) (operation : Operation Unit) :
    ∃ next, Performs operation inst next := by
  cases operation with
  | parse text =>
      obtain ⟨result, after, hends⟩ := exists_ends inst.run limits text
      rw [← hparser] at hends
      cases result with
      | ok output => exact ⟨_, .returned hends⟩
      | error fault => exact ⟨_, .raised hends⟩
  | act op => exact ⟨_, .acted inst op⟩
  | regive given => exact ⟨_, .regiven inst given⟩

/-- A history of a copying instance can always go on. -/
theorem exists_reaches (hparser : inst.parser = parser limits) (history : List (Operation Unit)) :
    ∃ last, Reaches history inst last := by
  induction history generalizing inst with
  | nil => exact ⟨inst, .nil inst⟩
  | cons operation rest ih =>
      obtain ⟨next, hnext⟩ := exists_performs hparser operation
      obtain ⟨last, hlast⟩ := ih (hnext.parser_eq.trans hparser)
      exact ⟨last, .cons hnext hlast⟩

end Instances

/-- A truncation with room for the whole text gives it back. -/
theorem truncation_copies {ρ : Type} (observer : Observer ρ) {limits : Limits} {text : String}
    (hl : limits.Admits text.length) (run : Run Truncation.Quota ρ)
    (hlimit : (text.length : Int) ≤ run.memory.limit) :
    ∃ ended, Truncation.parse observer limits text run = .returned text ended := by
  obtain ⟨ended, hparse, -⟩ := Truncation.parse_admitted observer run hl
  have hall : text.toList.take run.memory.limit.toNat = text.toList := by
    apply List.take_of_length_le
    rw [String.length_toList]
    omega
  rw [hall, String.ofList_toList] at hparse
  exact ⟨ended, hparse⟩

theorem foldl_limitAfter_parses (limit : Int) (texts : List String) :
    (texts.map Truncation.Operation.parse).foldl Truncation.Operation.limitAfter limit = limit := by
  induction texts with
  | nil => rfl
  | cons text rest ih => exact ih

/-- An instance that copies can be used for any history. A text within the limit is then given back
and nothing else comes of the parse, neither a fault nor no end. It takes one call more than there
are characters, or none if there are none, and the two records tell the same number of characters.
A truncation under the same limits does as well if its limit is not smaller than the text, whatever
texts it has been given before. -/
theorem copy_returns_text (limits : Limits) (history : List (Operation Unit)) :
    (∃ inst, Instance.Reaches history (.new table limits ()) inst) ∧
    ∀ inst, Instance.Reaches history (.new table limits ()) inst →
      ∀ text : String, limits.Admits text.length →
        (∃ machine events,
          (∀ outcome, inst.Ends text outcome ↔
            outcome = .returned text ⟨machine, (), events ++ inst.run.journal⟩) ∧
          parse .full limits text inst.run =
            .returned text ⟨machine, (), events ++ inst.run.journal⟩ ∧
          (Event.calls events).length = (if text = "" then 0 else text.length + 1) ∧
          Event.records events =
            [.started text.length 2, .finished machine.state text.length]) ∧
        ∀ limit : Int, (text.length : Int) ≤ limit →
          ∃ quota, Truncation.Quota.ofLimit limit = .ok quota ∧ ∀ texts : List String,
            ∃ ended, Truncation.parse .full limits text
              (Truncation.performAll .full limits (.fresh quota []) (texts.map .parse)) =
                .returned text ended := by
  refine ⟨exists_reaches rfl history, ?_⟩
  intro inst hreaches text hl
  have hparser : inst.parser = parser limits := hreaches.parser_eq
  constructor
  · obtain ⟨machine, events, hevents, hparse⟩ := parse_admitted inst.run hl
    have hends : inst.Ends text (.returned text ⟨machine, (), events ++ inst.run.journal⟩) := by
      rw [Instance.Ends, hparser]
      exact ⟨nofun, _, hparse⟩
    refine ⟨machine, events, ?_, hparse, hevents.calls, hevents.records⟩
    intro outcome
    constructor
    · intro hother
      exact Parser.Ends.unique hother hends
    · rintro rfl
      exact hends
  · intro limit hlimit
    have hnonneg : 0 ≤ limit := by omega
    refine ⟨⟨limit, 0⟩, Truncation.ofLimit_eq_ok hnonneg, ?_⟩
    intro texts
    apply truncation_copies .full hl
    rw [Truncation.limit_performAll, foldl_limitAfter_parses]
    exact hlimit

/-- Behind a copy, a refusal and a state set by hand, a text as long as the limit allows takes four
calls, and an empty one takes none. -/
theorem copy_returns_text_after_refusal :
    let limits : Limits := ⟨some 3, by decide⟩
    limits.Admits "hé\n".length ∧ limits.Admits "".length ∧
      ∃ inst, Instance.Reaches [.parse "ab", .parse "long", .act (.setState 7)]
          (.new table limits ()) inst ∧
        (∃ machine events,
          inst.Ends "hé\n" (.returned "hé\n" ⟨machine, (), events ++ inst.run.journal⟩) ∧
          (Event.calls events).length = 4) ∧
        (∃ machine events, inst.Ends "" (.returned "" ⟨machine, (), events ++ inst.run.journal⟩) ∧
          (Event.calls events).length = 0) ∧
        ∃ ended, Truncation.parse .full limits "hé\n"
          (Truncation.performAll .full limits (.fresh ⟨3, 0⟩ []) [.parse "long", .parse "ab"]) =
            .returned "hé\n" ended := by
  intro limits
  have hthree : limits.Admits "hé\n".length := by decide
  have hzero : limits.Admits "".length := by decide
  obtain ⟨⟨inst, hreaches⟩, hall⟩ :=
    copy_returns_text limits [.parse "ab", .parse "long", .act (.setState 7)]
  obtain ⟨⟨machine, events, hends, -, hcalls, -⟩, htruncation⟩ :=
    hall inst hreaches "hé\n" hthree
  obtain ⟨⟨machine', events', hends', -, hcalls', -⟩, -⟩ := hall inst hreaches "" hzero
  obtain ⟨quota, hquota, hsame⟩ := htruncation 3 (by decide)
  cases hquota
  exact ⟨hthree, hzero, inst, hreaches, ⟨machine, events, (hends _).mpr rfl, hcalls⟩,
    ⟨machine', events', (hends' _).mpr rfl, hcalls'⟩, hsame ["long", "ab"]⟩

end CharMachine.Copy
