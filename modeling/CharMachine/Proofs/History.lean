import CharMachine.Proofs.Observation

/-!
# Instances and their history

An instance is a parser with the machine that its operations have left, and with the mapping from
which its caller built the table. Operations made from outside a parse are parses, single actions
and changes of that mapping; `Instance.Reaches` follows any finite number of them.

A parse opens its text over whatever machine it finds, and nothing it does can change the table or
the limits. So a parse after any history is the parse of a new instance, with the earlier events
behind its own. The same is true of a parse that a handler starts: giving each nested parse, at
whatever depth, to a new instance makes no difference to the run around it.

Handlers own their memory, and an instance has no say in it. Where a new instance is compared with
an old one, both find the handlers with the same memory; handlers that act through the machine
alone are those with `σ := Unit`.
-/

namespace CharMachine

variable {σ : Type}

namespace Parser

variable (parser : Parser σ)

/-- A parse from any run is the parse of a machine that has parsed nothing, with the events so far
behind its own. -/
theorem parse_eq_onto (steps : Nat) (text : String) (run : Run σ (List Event)) :
    parser.parse .full steps text run =
      (parser.parse .full steps text (.fresh run.memory [])).onto run.journal := by
  rw [Outcome.onto, parser.parse_mapJournal (Observer.renders_append run.journal)]
  -- The machine of `run` is replaced before anything reads it.
  rfl

theorem ends_iff_fresh (text : String) (run : Run σ (List Event))
    (outcome : Outcome σ (List Event) String) :
    parser.Ends .full text run outcome ↔
      ∃ afresh, parser.Ends .full text (.fresh run.memory []) afresh ∧
        outcome = afresh.onto run.journal := by
  constructor
  · intro hends
    obtain ⟨hne, steps, rfl⟩ := hends
    have honto := parser.parse_eq_onto steps text run
    refine ⟨_, ⟨?_, steps, rfl⟩, honto⟩
    intro hex
    rw [honto] at hne
    exact hne (Outcome.mapJournal_eq_exhausted_iff.mpr hex)
  · intro hafresh
    obtain ⟨afresh, ⟨hne, steps, rfl⟩, rfl⟩ := hafresh
    refine ⟨?_, steps, parser.parse_eq_onto steps text run⟩
    intro hex
    exact hne (Outcome.mapJournal_eq_exhausted_iff.mp hex)

section Apart

/-- The loop of a parser that makes no nested parse itself: each goes to a new machine, which does
the same with its own nested parses, and what that machine ends with is taken over. -/
def loopApart (parser : Parser σ) :
    (steps : Nat) → (length : Nat) → Run σ (List Event) → Outcome σ (List Event) Unit
  | 0, length, run => if run.machine.pointer < length then .exhausted else .returned () run
  | steps + 1, length, run =>
      if run.machine.pointer < length then
        match parser.table.find? run.machine.state with
        | none =>
            .raised (.parse (.unknownState run.machine.state))
              (run.log .full (.unhandled run.machine.state run.machine.pointer))
        | some handler =>
            (handler.run .full
              (fun text found =>
                (parser.parseWith .full (parser.loopApart steps) text
                  (.fresh found.memory [])).onto found.journal)
              (run.note .full (.called run.machine))).andThen
              fun _ next => parser.loopApart steps length next
      else .returned () run

/-- The parse whose nested parses are made by new machines. -/
def parseApart (parser : Parser σ) (steps : Nat) : String → Run σ (List Event) → Outcome σ (List Event) String :=
  parser.parseWith .full (parser.loopApart steps)

theorem loopApart_eq_loop (steps length : Nat) (run : Run σ (List Event)) :
    parser.loopApart steps length run = parser.loop .full steps length run := by
  induction steps generalizing length run with
  | zero => rfl
  | succ steps ih =>
      have hloop : parser.loopApart steps = parser.loop .full steps :=
        funext fun length => funext fun run => ih length run
      -- What a handler is given for its nested parses differs only in the machine it starts from.
      have hinner : (fun text (found : Run σ (List Event)) =>
          (parser.parse .full steps text (.fresh found.memory [])).onto found.journal) =
          parser.parse .full steps := by
        funext text found
        exact (parser.parse_eq_onto steps text found).symm
      rw [loopApart, hloop]
      rcases Nat.lt_or_ge run.machine.pointer length with hp | hp
      · rw [if_pos hp]
        cases hh : parser.table.find? run.machine.state with
        | none => rw [parser.loop_unhandled .full run hp hh]
        | some handler =>
            rw [parser.loop_call .full run hp hh, ← hinner]
            rfl
      · rw [if_neg (Nat.not_lt.mpr hp), parser.loop_of_length_le .full run hp]

theorem parseApart_eq_parse (steps : Nat) (text : String) (run : Run σ (List Event)) :
    parser.parseApart steps text run = parser.parse .full steps text run := by
  have hloop : parser.loopApart steps = parser.loop .full steps :=
    funext fun length => funext fun run => parser.loopApart_eq_loop steps length run
  rw [parseApart, parse, hloop]

end Apart

end Parser

/-- A parser between two operations, and the mapping its caller built it from. -/
structure Instance (σ : Type) where
  given : Table σ
  parser : Parser σ
  run : Run σ (List Event)

/-- What can be done with an instance while it parses nothing. -/
inductive Operation (σ : Type) where
  | parse (text : String)
  | act (op : Op)
  /-- The caller changes the mapping that the instance was built from, or clears it. -/
  | regive (given : Table σ)

namespace Instance

/-- A newly built instance. The table is a copy of the mapping given. -/
def new (given : Table σ) (limits : Limits) (memory : σ) : Instance σ where
  given := given
  parser := ⟨given, limits⟩
  run := .fresh memory []

/-- The next parse of this text ends in this outcome. -/
def Ends (inst : Instance σ) (text : String) (outcome : Outcome σ (List Event) String) : Prop :=
  inst.parser.Ends .full text inst.run outcome

/-- The effect of an operation. A parse that raises leaves what it has reached. -/
inductive Performs : Operation σ → Instance σ → Instance σ → Prop where
  | returned {inst : Instance σ} {text output : String} {run : Run σ (List Event)} :
      inst.Ends text (.returned output run) →
      Performs (.parse text) inst { inst with run := run }
  | raised {inst : Instance σ} {text : String} {fault : Fault} {run : Run σ (List Event)} :
      inst.Ends text (.raised fault run) →
      Performs (.parse text) inst { inst with run := run }
  | acted (inst : Instance σ) (op : Op) :
      Performs (.act op) inst { inst with run := inst.run.act .full op }
  | regiven (inst : Instance σ) (given : Table σ) :
      Performs (.regive given) inst { inst with given := given }

/-- The effect of a history of operations, the earliest first. -/
inductive Reaches : List (Operation σ) → Instance σ → Instance σ → Prop where
  | nil (inst : Instance σ) : Reaches [] inst inst
  | cons {operation : Operation σ} {rest : List (Operation σ)} {inst next last : Instance σ} :
      Performs operation inst next → Reaches rest next last → Reaches (operation :: rest) inst last

theorem Performs.parser_eq {operation : Operation σ} {inst next : Instance σ}
    (h : Performs operation inst next) : next.parser = inst.parser := by
  cases h <;> rfl

theorem Reaches.parser_eq {history : List (Operation σ)} {inst last : Instance σ}
    (h : Reaches history inst last) : last.parser = inst.parser := by
  induction h with
  | nil inst => rfl
  | cons first _ ih => rw [ih, first.parser_eq]

/-- After any history an instance parses as one newly built from its first mapping does: it ends
where the other ends, with the same value or fault, machine and memory and with the same events,
which are the handlers called, their actions and the log records. That end is the only one, and
there is one if the new instance has one. A parse that starts in the middle of another, in whatever
run a handler has made, is the parse of a new instance in this sense too, and letting new instances
make all of them changes no run. -/
theorem parse_forgets_history {given : Table σ} {limits : Limits} {memory : σ}
    {history : List (Operation σ)} {inst : Instance σ}
    (h : Reaches history (new given limits memory) inst) :
    (∀ text outcome, inst.Ends text outcome ↔
      ∃ afresh, (new given limits inst.run.memory).Ends text afresh ∧
        outcome = afresh.onto inst.run.journal) ∧
    (∀ text first second, inst.Ends text first → inst.Ends text second → first = second) ∧
    (∀ text, (∃ outcome, inst.Ends text outcome) ↔
      ∃ afresh, (new given limits inst.run.memory).Ends text afresh) ∧
    (∀ text run outcome, inst.parser.Ends .full text run outcome ↔
      ∃ afresh, (new given limits run.memory).Ends text afresh ∧
        outcome = afresh.onto run.journal) ∧
    ∀ steps text run,
      inst.parser.parse .full steps text run = (Parser.mk given limits).parseApart steps text run := by
  have hparser : inst.parser = ⟨given, limits⟩ := h.parser_eq
  have hends : ∀ text run outcome, inst.parser.Ends .full text run outcome ↔
      ∃ afresh, (new given limits run.memory).Ends text afresh ∧
        outcome = afresh.onto run.journal := by
    intro text run outcome
    rw [hparser]
    exact (Parser.mk given limits).ends_iff_fresh text run outcome
  refine ⟨fun text outcome => hends text inst.run outcome, ?_, ?_, hends, ?_⟩
  · intro text first second hfirst hsecond
    exact Parser.Ends.unique hfirst hsecond
  · intro text
    constructor
    · intro hold
      obtain ⟨outcome, hout⟩ := hold
      obtain ⟨afresh, hafresh, -⟩ := (hends text inst.run outcome).mp hout
      exact ⟨afresh, hafresh⟩
    · intro hnew
      obtain ⟨afresh, hafresh⟩ := hnew
      exact ⟨_, (hends text inst.run _).mpr ⟨afresh, hafresh, rfl⟩⟩
  · intro steps text run
    rw [hparser, Parser.parseApart_eq_parse]

/-- A table whose one handler parses another text on the same instance at `'('`, leaves for a state
without a handler at `'!'` and copies all else. -/
def revisiting : Table Unit where
  entries := [(Machine.initialState, do
    let machine ← .machine
    if machine.current? = some '(' then
      let _ ← .parse "ab"
    else if machine.current? = some '!' then .setState 9
    else
      .append
      .advance)]
  nodup_states := by simp

/-- Behind a parse with a nested one, one that met a state without a handler, one that was refused,
a state set by hand and a cleared mapping, a nested parse still gives what it gives at first. -/
theorem parse_forgets_failures :
    ∃ inst, Reaches [.act .advance, .parse "x(y", .parse "x!", .parse "long", .act (.setState 7),
      .regive .empty] (new revisiting ⟨some 3, by decide⟩ ()) inst ∧
      ∃ run, inst.Ends "(" (.returned "ab" run) := by
  have hreach : ∃ inst, Reaches [.act .advance, .parse "x(y", .parse "x!", .parse "long",
      .act (.setState 7), .regive .empty] (new revisiting ⟨some 3, by decide⟩ ()) inst :=
    ⟨_, .cons (.acted _ _) <|
      .cons (.returned ⟨nofun, 5, rfl⟩) <|
      .cons (.raised ⟨nofun, 3, rfl⟩) <|
      .cons (.raised ⟨nofun, 0, rfl⟩) <|
      .cons (.acted _ _) <| .cons (.regiven _ _) <| .nil _⟩
  have hafresh : ∃ run, (new revisiting ⟨some 3, by decide⟩ ()).Ends "(" (.returned "ab" run) :=
    ⟨_, nofun, 3, rfl⟩
  obtain ⟨inst, hreach⟩ := hreach
  obtain ⟨run, hafresh⟩ := hafresh
  exact ⟨inst, hreach, _, ((parse_forgets_history hreach).1 _ _).mpr ⟨_, hafresh, rfl⟩⟩

end Instance

end CharMachine
