import CharMachine.Proofs.Result
import Mathlib.Logic.Relation

/-!
# The course of a parse

A parse one step at a time: a text is opened, a handler is called, a handler acts, a nested parse
begins or hands its result back. Handlers that wait for a parse they have started stand on a stack,
each with the length to which its own loop goes. Unlike a bounded run, a course has every point
that a parse comes to, also where the parse never ends.

Main statement: a parse ends in a result exactly if its course comes to rest there. What one step
can do to a run is said once, in `Run.Moves`.
-/

namespace CharMachine

variable {σ ρ : Type}

/-- A handler that waits for the parse it has started. -/
structure Waiting (σ : Type) where
  length : Nat
  resume : Except Fault String → Program σ Unit

/-- What the innermost parse is about to do. -/
inductive Control (σ : Type) where
  /-- Empty the machine, for this text. -/
  | opening (text : String)
  /-- Take the text or refuse it. -/
  | admitting (text : String)
  /-- Begin the loop over the text. -/
  | starting (text : String)
  /-- Call a handler if the pointer is before this length. -/
  | looping (length : Nat)
  /-- Go on with a handler. -/
  | handling (length : Nat) (rest : Program σ Unit)
  /-- Give its result to whoever waits for it. -/
  | ended (result : Except Fault String)

/-- A point in the course of a parse. -/
structure Point (σ ρ : Type) where
  control : Control σ
  waiting : List (Waiting σ)
  run : Run σ ρ

/-- What one step can do to a run. -/
inductive Run.Moves (observer : Observer ρ) (run : Run σ ρ) : Run σ ρ → Prop where
  /-- Handlers may change their memory, and need not. -/
  | remembers (memory : σ) : Moves observer run { run with memory := memory }
  | notes (event : Event) : Moves observer run (run.note observer event)
  | acts (op : Op) : Moves observer run (run.act observer op)
  | opens (text : Text) : Moves observer run (run.openText observer text)

theorem Run.Moves.journal_eq {run next : Run σ (List Event)} (h : run.Moves .full next) :
    next.journal = run.journal ∨ ∃ event, next.journal = event :: run.journal := by
  cases h with
  | remembers memory => exact Or.inl rfl
  | notes event => exact Or.inr ⟨event, rfl⟩
  | acts op => exact Or.inr ⟨_, rfl⟩
  | opens text => exact Or.inr ⟨_, rfl⟩

namespace Parser

/-- One step of a course. There is none where the outermost parse has ended. -/
def step (parser : Parser σ) (observer : Observer ρ) : Point σ ρ → Option (Point σ ρ)
  | ⟨.opening text, waiting, run⟩ => some ⟨.admitting text, waiting, run.openText observer .empty⟩
  | ⟨.admitting text, waiting, run⟩ =>
      match parser.limits.exceeded? text.length with
      | some limit =>
          some ⟨.ended (.error (.parse (.inputTooLarge text.length limit))), waiting,
            run.log observer (.rejected text.length limit)⟩
      | none => some ⟨.starting text, waiting, run.openText observer (.ofString text)⟩
  | ⟨.starting text, waiting, run⟩ =>
      some ⟨.looping text.length, waiting,
        run.log observer (.started text.length parser.table.size)⟩
  | ⟨.looping length, waiting, run⟩ =>
      if run.machine.pointer < length then
        match parser.table.find? run.machine.state with
        | none =>
            some ⟨.ended (.error (.parse (.unknownState run.machine.state))), waiting,
              run.log observer (.unhandled run.machine.state run.machine.pointer)⟩
        | some handler =>
            some ⟨.handling length handler, waiting, run.note observer (.called run.machine)⟩
      else
        some ⟨.ended (.ok run.machine.output), waiting,
          run.log observer (.finished run.machine.state run.machine.emitted.length)⟩
  | ⟨.handling length (.done ()), waiting, run⟩ => some ⟨.looping length, waiting, run⟩
  | ⟨.handling length (.act op next), waiting, run⟩ =>
      some ⟨.handling length next, waiting, run.act observer op⟩
  | ⟨.handling length (.look next), waiting, run⟩ =>
      some ⟨.handling length (next run.machine run.memory), waiting, run⟩
  | ⟨.handling length (.remember memory next), waiting, run⟩ =>
      some ⟨.handling length next, waiting, { run with memory := memory }⟩
  | ⟨.handling length (.nested text next), waiting, run⟩ =>
      some ⟨.opening text, ⟨length, next⟩ :: waiting, run⟩
  | ⟨.handling _ (.raise fault), waiting, run⟩ => some ⟨.ended (.error fault), waiting, run⟩
  | ⟨.ended result, caller :: waiting, run⟩ =>
      some ⟨.handling caller.length (caller.resume result), waiting, run⟩
  | ⟨.ended _, [], _⟩ => none

/-- Any number of steps lead from one point to another. -/
def Course (parser : Parser σ) (observer : Observer ρ) : Point σ ρ → Point σ ρ → Prop :=
  Relation.ReflTransGen fun point next => parser.step observer point = some next

section Steps

variable {parser : Parser σ} {observer : Observer ρ} {point next : Point σ ρ}

theorem moves_of_step (h : parser.step observer point = some next) :
    point.run.Moves observer next.run := by
  obtain ⟨control, waiting, run⟩ := point
  cases control with
  | opening text =>
      cases h
      exact .opens _
  | admitting text =>
      rw [step] at h
      split at h
      · cases h
        exact .notes _
      · cases h
        exact .opens _
  | starting text =>
      cases h
      exact .notes _
  | looping length =>
      -- A call and both ways in which the loop ends leave an event and nothing else.
      rw [step] at h
      split at h
      · split at h <;> cases h <;> exact .notes _
      · cases h
        exact .notes _
  | handling length rest =>
      cases rest with
      | act op rest =>
          cases h
          exact .acts op
      | remember memory rest =>
          cases h
          exact .remembers memory
      | _ =>
          cases h
          exact .remembers run.memory
  | ended result =>
      cases waiting <;> cases h
      exact .remembers run.memory

/-- What every step keeps, a course keeps. -/
theorem Course.preserves (P : Point σ ρ → Prop)
    (hstep : ∀ point next, parser.step observer point = some next → P point → P next)
    (h : parser.Course observer point next) (hp : P point) : P next := by
  induction h with
  | refl => exact hp
  | tail _ hlast ih => exact hstep _ _ hlast ih

/-- Where two courses from one point have come to, one goes on to the other. -/
theorem Course.total {start : Point σ ρ} (h : parser.Course observer start point)
    (h' : parser.Course observer start next) :
    parser.Course observer point next ∨ parser.Course observer next point := by
  refine Relation.ReflTransGen.total_of_right_unique ?_ h h'
  intro _ _ _ hfirst hsecond
  exact Option.some.inj (hfirst.symm.trans hsecond)

theorem Course.eq_of_rest {result : Except Fault String} {run : Run σ ρ}
    (h : parser.Course observer ⟨.ended result, [], run⟩ next) :
    next = ⟨.ended result, [], run⟩ := by
  rcases Relation.ReflTransGen.cases_head h with heq | ⟨_, hstep, _⟩
  · exact heq.symm
  · cases hstep

/-- A course comes to rest in one way only. -/
theorem Course.rest_unique {start : Point σ ρ} {result result' : Except Fault String}
    {run run' : Run σ ρ} (h : parser.Course observer start ⟨.ended result, [], run⟩)
    (h' : parser.Course observer start ⟨.ended result', [], run'⟩) :
    result = result' ∧ run = run' := by
  have heq : (⟨.ended result', [], run'⟩ : Point σ ρ) = ⟨.ended result, [], run⟩ := by
    rcases h.total h' with hto | hfrom
    · exact hto.eq_of_rest
    · exact hfrom.eq_of_rest.symm
  cases heq
  exact ⟨rfl, rfl⟩

end Steps

section Follows

variable {parser : Parser σ} {observer : Observer ρ}

/-- What comes after a handler. -/
def afterHandler (length : Nat) : Except Fault Unit → Control σ
  | .ok () => .looping length
  | .error fault => .ended (.error fault)

/-- The course of a handler follows its run, if those of its nested parses do. -/
theorem course_handling {inner : String → Run σ ρ → Outcome σ ρ String}
    (hinner : ∀ text run result ended waiting, inner text run = .ofResult result ended →
      parser.Course observer ⟨.opening text, waiting, run⟩ ⟨.ended result, waiting, ended⟩)
    (length : Nat) (waiting : List (Waiting σ)) (program : Program σ Unit) {run ended : Run σ ρ}
    {result : Except Fault Unit} (h : program.run observer inner run = .ofResult result ended) :
    parser.Course observer ⟨.handling length program, waiting, run⟩
      ⟨afterHandler length result, waiting, ended⟩ := by
  induction program generalizing run with
  | done value =>
      obtain ⟨rfl, rfl⟩ := Outcome.of_returned h
      exact .single rfl
  | act op next ih => exact .head rfl (ih h)
  | look next ih => exact .head rfl (ih run.machine run.memory h)
  | remember memory next ih => exact .head rfl (ih h)
  | nested text next ih =>
      -- The nested parse runs above this handler, which then takes its answer.
      obtain ⟨answer, between, hanswer, hrest⟩ := Program.run_nested_eq_ofResult h
      have hnested := hinner text run answer between (⟨length, next⟩ :: waiting) hanswer
      exact .head rfl (hnested.trans (.head rfl (ih answer hrest)))
  | raise fault =>
      obtain ⟨rfl, rfl⟩ := Outcome.of_raised h
      exact .single rfl

section Calls

variable {length : Nat} {run : Run σ ρ} (waiting : List (Waiting σ))

theorem step_call {handler : Program σ Unit} (hp : run.machine.pointer < length)
    (hh : parser.table.find? run.machine.state = some handler) :
    parser.step observer ⟨.looping length, waiting, run⟩ =
      some ⟨.handling length handler, waiting, run.note observer (.called run.machine)⟩ := by
  rw [step, if_pos hp, hh]

theorem step_unhandled (hp : run.machine.pointer < length)
    (hh : parser.table.find? run.machine.state = none) :
    parser.step observer ⟨.looping length, waiting, run⟩ =
      some ⟨.ended (.error (.parse (.unknownState run.machine.state))), waiting,
        run.log observer (.unhandled run.machine.state run.machine.pointer)⟩ := by
  rw [step, if_pos hp, hh]

theorem step_finish (hp : length ≤ run.machine.pointer) :
    parser.step observer ⟨.looping length, waiting, run⟩ =
      some ⟨.ended (.ok run.machine.output), waiting,
        run.log observer (.finished run.machine.state run.machine.emitted.length)⟩ := by
  rw [step, if_neg (Nat.not_lt.mpr hp)]

theorem step_rejected {text : String} {limit : Nat}
    (hl : parser.limits.exceeded? text.length = some limit) :
    parser.step observer ⟨.admitting text, waiting, run⟩ =
      some ⟨.ended (.error (.parse (.inputTooLarge text.length limit))), waiting,
        run.log observer (.rejected text.length limit)⟩ := by
  rw [step, hl]

theorem step_admitted {text : String} (hl : parser.limits.Admits text.length) :
    parser.step observer ⟨.admitting text, waiting, run⟩ =
      some ⟨.starting text, waiting, run.openText observer (.ofString text)⟩ := by
  rw [step, (parser.limits.exceeded?_eq_none_iff text.length).mpr hl]

/-- The steps in which an admitted text is opened. -/
theorem course_begin {text : String} (hl : parser.limits.Admits text.length) :
    parser.Course observer ⟨.opening text, waiting, run⟩
      ⟨.looping text.length, waiting, parser.begin observer text run⟩ :=
  .head rfl (.head (step_admitted waiting hl) (.single rfl))

end Calls

/-- The course of a parse follows it, if that of its loop does. -/
theorem course_opening {loop : Nat → Run σ ρ → Outcome σ ρ Unit}
    (hloop : ∀ length run result ended waiting, loop length run = .ofResult result ended →
      parser.Course observer ⟨.looping length, waiting, run⟩
          ⟨afterHandler length result, waiting, ended⟩ ∧
        (result = .ok () → length ≤ ended.machine.pointer))
    (text : String) (run : Run σ ρ) (result : Except Fault String) (ended : Run σ ρ)
    (waiting : List (Waiting σ))
    (h : parser.parseWith observer loop text run = .ofResult result ended) :
    parser.Course observer ⟨.opening text, waiting, run⟩ ⟨.ended result, waiting, ended⟩ := by
  rcases parseWith_eq_ofResult h with
    ⟨limit, hl, rfl, rfl⟩ | ⟨hl, ⟨last, hends, rfl, rfl⟩ | ⟨fault, hends, rfl⟩⟩
  · exact .head rfl (.single (step_rejected waiting hl))
  · obtain ⟨hcourse, hpast⟩ := hloop _ _ _ _ waiting hends
    exact ((course_begin waiting hl).trans hcourse).tail (step_finish waiting (hpast rfl))
  · exact (course_begin waiting hl).trans (hloop _ _ _ _ waiting hends).1

/-- The course of a loop follows it to where it ends. If it returns, it has come to its length. -/
theorem course_looping (steps : Nat) (length : Nat) (run : Run σ ρ) (result : Except Fault Unit)
    (ended : Run σ ρ) (waiting : List (Waiting σ))
    (h : parser.loop observer steps length run = .ofResult result ended) :
    parser.Course observer ⟨.looping length, waiting, run⟩
        ⟨afterHandler length result, waiting, ended⟩ ∧
      (result = .ok () → length ≤ ended.machine.pointer) := by
  induction steps generalizing length run result ended waiting with
  | zero =>
      cases loopStarts_of_loop h with
      | finished hp => exact ⟨.refl, fun _ => hp⟩
  | succ steps ih =>
      cases loopStarts_of_loop h with
      | finished hp => exact ⟨.refl, fun _ => hp⟩
      | unhandled hp hh => exact ⟨.single (step_unhandled waiting hp hh), nofun⟩
      | faulted hp hh hcall =>
          have hhandler := course_handling (course_opening ih) length waiting _ hcall
          exact ⟨.head (step_call waiting hp hh) hhandler, nofun⟩
      | called hp hh hcall hrest =>
          have hhandler := course_handling (course_opening ih) length waiting _ hcall
          obtain ⟨hcourse, hpast⟩ := ih _ _ _ _ waiting hrest
          exact ⟨.head (step_call waiting hp hh) (hhandler.trans hcourse), hpast⟩

/-- A parse that ends is followed to its end, whatever waits for it. -/
theorem course_parse (steps : Nat) (text : String) (run : Run σ ρ) (result : Except Fault String)
    (ended : Run σ ρ) (waiting : List (Waiting σ))
    (h : parser.parse observer steps text run = .ofResult result ended) :
    parser.Course observer ⟨.opening text, waiting, run⟩ ⟨.ended result, waiting, ended⟩ :=
  course_opening (course_looping steps) text run result ended waiting h

end Follows

section Lasts

variable {parser : Parser σ}

/-- Events are kept along a course. -/
theorem Course.journal_suffix {point next : Point σ (List Event)}
    (h : parser.Course .full point next) : point.run.journal <:+ next.run.journal := by
  refine Course.preserves (fun later => point.run.journal <:+ later.run.journal) ?_ h
    (List.suffix_refl _)
  intro before after hstep hsuffix
  cases (moves_of_step hstep).journal_eq with
  | inl hsame => rwa [hsame]
  | inr hone =>
      obtain ⟨event, hone⟩ := hone
      rw [hone]
      exact hsuffix.trans (List.suffix_cons event _)

/-- Where a course comes to rest, the events of every point before it are kept. -/
theorem Course.journal_suffix_of_rest {start point : Point σ (List Event)}
    {result : Except Fault String} {ended : Run σ (List Event)}
    (h : parser.Course .full start point)
    (hrest : parser.Course .full start ⟨.ended result, [], ended⟩) :
    point.run.journal <:+ ended.journal := by
  rcases h.total hrest with hto | hfrom
  · exact hto.journal_suffix
  · obtain rfl := hfrom.eq_of_rest
    exact List.suffix_refl _

/-- The course from this point goes on for at least so many events. -/
def Lasts (parser : Parser σ) (count : Nat) (point : Point σ (List Event)) : Prop :=
  ∃ later, parser.Course .full point later ∧
    point.run.journal.length + count ≤ later.run.journal.length

theorem Lasts.of_course {count : Nat} {point next : Point σ (List Event)}
    (h : parser.Course .full point next) (hnext : parser.Lasts count next) :
    parser.Lasts count point := by
  obtain ⟨later, hlater, hcount⟩ := hnext
  have hle := h.journal_suffix.length_le
  exact ⟨later, h.trans hlater, by omega⟩

theorem Lasts.of_step {count : Nat} {point next : Point σ (List Event)}
    (h : parser.step .full point = some next) (hnext : parser.Lasts count next) :
    parser.Lasts count point :=
  .of_course (.single h) hnext

theorem lasts_handling {count : Nat}
    {inner : String → Run σ (List Event) → Outcome σ (List Event) String}
    (hinner : ∀ text run result ended waiting, inner text run = .ofResult result ended →
      parser.Course .full ⟨.opening text, waiting, run⟩ ⟨.ended result, waiting, ended⟩)
    (hlasts : ∀ text run waiting, inner text run = .exhausted →
      parser.Lasts count ⟨.opening text, waiting, run⟩)
    (length : Nat) (waiting : List (Waiting σ)) (program : Program σ Unit)
    {run : Run σ (List Event)} (h : program.run .full inner run = .exhausted) :
    parser.Lasts count ⟨.handling length program, waiting, run⟩ := by
  induction program generalizing run with
  | done value => cases h
  | act op next ih => exact .of_step rfl (ih h)
  | look next ih => exact .of_step rfl (ih run.machine run.memory h)
  | remember memory next ih => exact .of_step rfl (ih h)
  | nested text next ih =>
      rcases Program.run_nested_eq_exhausted h with hex | ⟨answer, between, hanswer, hrest⟩
      · exact .of_step rfl (hlasts text run _ hex)
      · have hnested := hinner text run answer between (⟨length, next⟩ :: waiting) hanswer
        exact .of_step rfl (.of_course hnested (.of_step rfl (ih answer hrest)))
  | raise fault => cases h

theorem lasts_opening {steps : Nat}
    (hloop : ∀ length run waiting, parser.loop .full steps length run = .exhausted →
      parser.Lasts steps ⟨.looping length, waiting, run⟩)
    (text : String) (run : Run σ (List Event)) (waiting : List (Waiting σ))
    (h : parser.parse .full steps text run = .exhausted) :
    parser.Lasts steps ⟨.opening text, waiting, run⟩ := by
  cases hl : parser.limits.exceeded? text.length with
  | some limit =>
      rw [parse, parser.parseWith_rejected .full hl] at h
      cases h
  | none =>
      have hadmits := (parser.limits.exceeded?_eq_none_iff text.length).mp hl
      rw [parse, parser.parseWith_admitted .full hadmits] at h
      rcases Outcome.andThen_eq_exhausted h with hex | ⟨_, _, _, hfinish⟩
      · exact .of_course (course_begin waiting hadmits) (hloop _ _ waiting hex)
      · cases hfinish

/-- A loop that uses up its bound makes at least so many calls, nested ones included. -/
theorem lasts_looping (steps : Nat) (length : Nat) (run : Run σ (List Event))
    (waiting : List (Waiting σ)) (h : parser.loop .full steps length run = .exhausted) :
    parser.Lasts steps ⟨.looping length, waiting, run⟩ := by
  induction steps generalizing length run waiting with
  | zero => exact ⟨_, .refl, Nat.le_refl _⟩
  | succ steps ih =>
      rcases Nat.lt_or_ge run.machine.pointer length with hp | hp
      · cases hh : parser.table.find? run.machine.state with
        | none =>
            rw [parser.loop_unhandled .full run hp hh] at h
            cases h
        | some handler =>
            rw [parser.loop_call .full run hp hh] at h
            have hhandler : parser.Lasts steps ⟨.handling length handler, waiting,
                run.note .full (.called run.machine)⟩ := by
              rcases Outcome.andThen_eq_exhausted h with hex | ⟨_, next, hcall, hrest⟩
              · exact lasts_handling (course_parse steps) (lasts_opening ih) length waiting
                  handler hex
              · have hcall' : handler.run .full (parser.parse .full steps)
                    (run.note .full (.called run.machine)) = .ofResult (.ok ()) next := hcall
                have hcourse := course_handling (course_parse steps) length waiting handler hcall'
                exact .of_course hcourse (ih length next waiting hrest)
            -- The call itself is one event more.
            obtain ⟨later, hlater, hcount⟩ := hhandler
            have hone : (run.note .full (.called run.machine)).journal.length =
                run.journal.length + 1 := rfl
            refine ⟨later, .head (step_call waiting hp hh) hlater, ?_⟩
            rw [hone] at hcount
            change run.journal.length + (steps + 1) ≤ _
            omega
      · rw [parser.loop_of_length_le .full run hp] at h
        cases h

/-- A parse ends in a result exactly if its course comes to rest there. -/
theorem ends_iff_course (text : String) (run : Run σ (List Event)) (result : Except Fault String)
    (ended : Run σ (List Event)) :
    parser.Ends .full text run (.ofResult result ended) ↔
      parser.Course .full ⟨.opening text, [], run⟩ ⟨.ended result, [], ended⟩ := by
  constructor
  · intro h
    obtain ⟨-, steps, hparse⟩ := h
    exact course_parse steps text run result ended [] hparse
  · intro hrest
    -- A bound above the number of events at rest cannot be used up.
    let steps := ended.journal.length + 1
    rcases (parser.parse .full steps text run).exhausted_or_ofResult with
      hex | ⟨result', ended', hparse⟩
    · obtain ⟨later, hlater, hcount⟩ := lasts_opening (lasts_looping steps) text run [] hex
      have hle := (hlater.journal_suffix_of_rest hrest).length_le
      omega
    · obtain ⟨rfl, rfl⟩ := hrest.rest_unique (course_parse steps text run result' ended' [] hparse)
      exact ⟨Outcome.ofResult_ne_exhausted _ _, steps, hparse⟩

end Lasts

end Parser

end CharMachine
