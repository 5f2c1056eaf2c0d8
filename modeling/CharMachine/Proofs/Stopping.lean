import CharMachine.Proofs.Course
import CharMachine.Proofs.Journal

/-!
# When a stop ends the loop

A stop moves the pointer to the end of the text that the machine holds, while the loop of a parse
goes to the length that its own text had when it began. The two differ once another parse has been
started on the machine: that parse leaves its own text there, or none if it was refused.

Main statement: a handler that returns after a stop ends its parse exactly if the text held by then
is not shorter than the text of the parse. Otherwise the loop goes on at the end of the text held,
where there is no current character.
-/

namespace CharMachine

variable {σ : Type}

/-! ## The last move of the pointer -/

/-- The event moves the pointer: an advance, a stop or the opening of a text. -/
def Event.movesPointer : Event → Bool
  | .acted .advance _ | .acted .stop _ | .opened _ => true
  | _ => false

namespace Run

/-- The last event that moved the pointer is a stop. -/
def StoppedLast (run : Run σ (List Event)) : Prop :=
  ∃ machine, run.journal.find? Event.movesPointer = some (.acted .stop machine)

/-- A stop that was the last move of the pointer is still in effect. -/
def StopHolds (run : Run σ (List Event)) : Prop :=
  run.StoppedLast → run.machine.pointer = run.machine.input.length

variable {run : Run σ (List Event)}

/-- An event that moves nothing does not count. -/
theorem StopHolds.of_still {next : Run σ (List Event)} {event : Event} (h : run.StopHolds)
    (hevent : event.movesPointer = false) (hjournal : next.journal = event :: run.journal)
    (hpointer : next.machine.pointer = run.machine.pointer)
    (hinput : next.machine.input = run.machine.input) : next.StopHolds := by
  rintro ⟨machine, hlast⟩
  rw [hjournal, List.find?_cons_of_neg (by rw [hevent]; exact Bool.false_ne_true)] at hlast
  rw [hpointer, hinput]
  exact h ⟨machine, hlast⟩

theorem StopHolds.note (h : run.StopHolds) {event : Event}
    (hevent : event.movesPointer = false) : (run.note .full event).StopHolds :=
  h.of_still hevent rfl rfl rfl

theorem StopHolds.act (h : run.StopHolds) (op : Op) : (run.act .full op).StopHolds := by
  cases op with
  | advance =>
      rintro ⟨machine, hlast⟩
      cases hlast
  | stop => exact fun _ => rfl
  | append =>
      refine h.of_still rfl rfl ?_ (run.machine.input_act .append)
      show (run.machine.act .append).pointer = _
      rw [Machine.act]
      split <;> rfl
  | clear => exact h.of_still rfl rfl rfl rfl
  | setState state => exact h.of_still rfl rfl rfl rfl

theorem stopHolds_openText (text : Text) : (run.openText .full text).StopHolds := by
  rintro ⟨machine, hlast⟩
  cases hlast

end Run

/-! ## A parse and what it has started -/

/-- The text whose parse is started at this point, if one is. -/
def Point.starts? {ρ : Type} (point : Point σ ρ) : Option String :=
  match point.control with
  | .opening text => some text
  | _ => none

/-- The length to which the innermost loop goes, or will go once it has begun. -/
def Control.bound? : Control σ → Option Nat
  | .opening text | .admitting text | .starting text => some text.length
  | .looping length | .handling length _ => some length
  | .ended _ => none

/-- The loop at the bottom of the stack, if it has not ended, goes to this length. -/
def Point.Bottomed {ρ : Type} (length : Nat) (point : Point σ ρ) : Prop :=
  ∀ bound ∈ (point.control.bound?.toList ++ point.waiting.map Waiting.length).getLast?,
    bound = length

namespace Parser

/-- The points of the parse of a text, from its start to where it gives its result to whoever
waits for it. Listed are the texts of the parses started so far, the most recent first; the parse
itself is the last of them. -/
inductive Within (parser : Parser σ) (text : String) (waiting : List (Waiting σ))
    (before : Run σ (List Event)) : List String → Point σ (List Event) → Prop where
  | start : Within parser text waiting before [text] ⟨.opening text, waiting, before⟩
  | step {started : List String} {point next : Point σ (List Event)} :
      Within parser text waiting before started point →
      parser.step .full point = some next →
      waiting.length ≤ next.waiting.length →
      Within parser text waiting before (next.starts?.toList ++ started) next

/-- What the parse of a text puts on the machine: nothing if it is refused. -/
def taken (parser : Parser σ) (text : String) : Text :=
  if parser.limits.Admits text.length then .ofString text else .empty

/-- What a point tells of the parse that was started last. -/
def HoldsLatest (parser : Parser σ) (latest : String) (run : Run σ (List Event)) : Control σ → Prop
  | .opening text => text = latest
  | .admitting text => text = latest ∧ run.machine.input = .empty ∧ run.StopHolds
  | _ => run.machine.input = parser.taken latest ∧ run.StopHolds

section Frame

variable {parser : Parser σ} {text : String} {waiting : List (Waiting σ)}
  {before run : Run σ (List Event)} {started : List String} {point next : Point σ (List Event)}

/-- Whoever waits at the bottom of the stack takes no part in a step above it. -/
theorem step_above {control : Control σ} {above : List (Waiting σ)}
    (h : parser.step .full ⟨control, above ++ waiting, run⟩ = some next)
    (hdeep : waiting.length ≤ next.waiting.length) :
    ∃ above', next.waiting = above' ++ waiting ∧
      parser.step .full ⟨control, above, run⟩ = some ⟨next.control, above', next.run⟩ := by
  cases control with
  | opening text =>
      cases h
      exact ⟨above, rfl, rfl⟩
  | admitting text =>
      cases hl : parser.limits.exceeded? text.length with
      | some limit =>
          rw [step_rejected _ hl] at h
          cases h
          exact ⟨above, rfl, step_rejected above hl⟩
      | none =>
          have hadmits := (parser.limits.exceeded?_eq_none_iff text.length).mp hl
          rw [step_admitted _ hadmits] at h
          cases h
          exact ⟨above, rfl, step_admitted above hadmits⟩
  | starting text =>
      cases h
      exact ⟨above, rfl, rfl⟩
  | looping length =>
      by_cases hp : run.machine.pointer < length
      · cases hh : parser.table.find? run.machine.state with
        | none =>
            rw [step_unhandled _ hp hh] at h
            cases h
            exact ⟨above, rfl, step_unhandled above hp hh⟩
        | some handler =>
            rw [step_call _ hp hh] at h
            cases h
            exact ⟨above, rfl, step_call above hp hh⟩
      · rw [step_finish _ (Nat.not_lt.mp hp)] at h
        cases h
        exact ⟨above, rfl, step_finish above (Nat.not_lt.mp hp)⟩
  | handling length rest =>
      cases rest with
      | nested inner resume =>
          cases h
          exact ⟨⟨length, resume⟩ :: above, rfl, rfl⟩
      | _ =>
          cases h
          exact ⟨above, rfl, rfl⟩
  | ended result =>
      cases above with
      | cons caller above =>
          cases h
          exact ⟨above, rfl, rfl⟩
      | nil =>
          -- The result would go to the one who waits for this parse.
          cases waiting with
          | nil => cases h
          | cons caller waiting =>
              cases h
              exact absurd hdeep (Nat.not_succ_le_self _)

/-- A parse goes its course as it does where nothing waits for it. -/
theorem Within.course (h : parser.Within text waiting before started point) :
    ∃ above, point.waiting = above ++ waiting ∧
      parser.Course .full ⟨.opening text, [], before⟩ ⟨point.control, above, point.run⟩ := by
  induction h with
  | start => exact ⟨[], rfl, .refl⟩
  | @step started point next _ hstep hdeep ih =>
      obtain ⟨control, stack, run⟩ := point
      obtain ⟨above, rfl, hcourse⟩ := ih
      obtain ⟨above', hnext, habove⟩ := step_above hstep hdeep
      exact ⟨above', hnext, hcourse.tail habove⟩

theorem taken_of_admits (hl : parser.limits.Admits text.length) :
    parser.taken text = .ofString text := by
  rw [taken, if_pos hl]

theorem taken_of_exceeded {limit : Nat}
    (hl : parser.limits.exceeded? text.length = some limit) : parser.taken text = .empty := by
  rw [taken, if_neg]
  intro hadmits
  rw [(parser.limits.exceeded?_eq_none_iff text.length).mpr hadmits] at hl
  cases hl

theorem HoldsLatest.step {latest : String} (hstep : parser.step .full point = some next)
    (h : parser.HoldsLatest latest point.run point.control) :
    parser.HoldsLatest (next.starts?.getD latest) next.run next.control := by
  obtain ⟨control, waiting, run⟩ := point
  cases control with
  | opening text =>
      cases hstep
      exact ⟨h, rfl, Run.stopHolds_openText .empty⟩
  | admitting text =>
      obtain ⟨rfl, hinput, hstop⟩ := h
      cases hl : parser.limits.exceeded? text.length with
      | some limit =>
          rw [step_rejected waiting hl] at hstep
          cases hstep
          exact ⟨hinput.trans (taken_of_exceeded hl).symm, hstop.note rfl⟩
      | none =>
          have hadmits := (parser.limits.exceeded?_eq_none_iff text.length).mp hl
          rw [step_admitted waiting hadmits] at hstep
          cases hstep
          exact ⟨(taken_of_admits hadmits).symm, Run.stopHolds_openText _⟩
  | starting text =>
      cases hstep
      exact ⟨h.1, h.2.note rfl⟩
  | looping length =>
      by_cases hp : run.machine.pointer < length
      · cases hh : parser.table.find? run.machine.state with
        | none =>
            rw [step_unhandled waiting hp hh] at hstep
            cases hstep
            exact ⟨h.1, h.2.note rfl⟩
        | some handler =>
            rw [step_call waiting hp hh] at hstep
            cases hstep
            exact ⟨h.1, h.2.note rfl⟩
      · rw [step_finish waiting (Nat.not_lt.mp hp)] at hstep
        cases hstep
        exact ⟨h.1, h.2.note rfl⟩
  | handling length rest =>
      cases rest with
      | act op rest =>
          cases hstep
          exact ⟨(run.machine.input_act op).trans h.1, h.2.act op⟩
      | nested inner resume =>
          cases hstep
          exact rfl
      | _ =>
          cases hstep
          exact h
  | ended result =>
      cases waiting with
      | nil => cases hstep
      | cons caller waiting =>
          cases hstep
          exact h

/-- At every point of a parse the machine holds what the parse that was started last has put
there. -/
theorem Within.holdsLatest (h : parser.Within text waiting before started point) :
    ∃ latest earlier, started = latest :: earlier ∧
      parser.HoldsLatest latest point.run point.control := by
  induction h with
  | start => exact ⟨text, [], rfl, rfl⟩
  | @step started point next _ hstep _ ih =>
      obtain ⟨latest, earlier, rfl, hholds⟩ := ih
      have hnext := hholds.step hstep
      cases hstarts : next.starts? with
      | none =>
          rw [hstarts] at hnext
          exact ⟨latest, earlier, rfl, hnext⟩
      | some inner =>
          rw [hstarts] at hnext
          exact ⟨inner, latest :: earlier, rfl, hnext⟩

theorem Within.started_suffix (h : parser.Within text waiting before started point) :
    [text] <:+ started := by
  induction h with
  | start => exact List.suffix_refl _
  | step _ _ _ ih => exact ih.trans (List.suffix_append _ _)

theorem bottomed_step {length : Nat} (hstep : parser.step .full point = some next)
    (h : point.Bottomed length) : next.Bottomed length := by
  obtain ⟨control, waiting, run⟩ := point
  -- Where the innermost parse ends, its length is gone and the others stay.
  have hended {bound : Nat} {result : Except Fault String} {after : Run σ (List Event)}
      (h : ∀ last ∈ (bound :: waiting.map Waiting.length).getLast?, last = length) :
      (⟨.ended result, waiting, after⟩ : Point σ (List Event)).Bottomed length := by
    cases waiting with
    | nil => exact nofun
    | cons caller waiting =>
        rw [List.map_cons, List.getLast?_cons_cons] at h
        exact h
  cases control with
  | opening text =>
      cases hstep
      exact h
  | admitting text =>
      rw [step] at hstep
      split at hstep
      · cases hstep
        exact hended h
      · cases hstep
        exact h
  | starting text =>
      cases hstep
      exact h
  | looping bound =>
      rw [step] at hstep
      split at hstep
      · split at hstep
        · cases hstep
          exact hended h
        · cases hstep
          exact h
      · cases hstep
        exact hended h
  | handling bound rest =>
      cases rest with
      | nested inner resume =>
          cases hstep
          show ∀ last ∈ (inner.length :: bound :: waiting.map Waiting.length).getLast?,
            last = length
          rw [List.getLast?_cons_cons]
          exact h
      | raise fault =>
          cases hstep
          exact hended h
      | _ =>
          cases hstep
          exact h
  | ended result =>
      cases waiting with
      | nil => cases hstep
      | cons caller waiting =>
          cases hstep
          exact h

/-- The handlers of a parse work for the loop over its own text, whatever text is held. -/
theorem length_eq_of_handling {length : Nat} {rest : Program σ Unit}
    (h : parser.Course .full ⟨.opening text, [], before⟩ ⟨.handling length rest, [], run⟩) :
    length = text.length := by
  refine h.preserves (Point.Bottomed text.length) (fun _ _ => bottomed_step) ?_ length rfl
  intro bound hbound
  exact (Option.some.inj hbound).symm

/-- A handler is called only if the text of the parse was taken. -/
theorem admits_of_handling {length : Nat} {rest : Program σ Unit}
    (h : parser.Course .full ⟨.opening text, [], before⟩ ⟨.handling length rest, waiting, run⟩) :
    parser.limits.Admits text.length := by
  cases hl : parser.limits.exceeded? text.length with
  | none => exact (parser.limits.exceeded?_eq_none_iff text.length).mp hl
  | some limit =>
      -- A refused parse has two steps, and no handler in them.
      obtain heq | ⟨_, hopened, h⟩ := Relation.ReflTransGen.cases_head h
      · cases heq
      cases hopened
      obtain heq | ⟨_, hrefused, h⟩ := Relation.ReflTransGen.cases_head h
      · cases heq
      rw [step_rejected [] hl] at hrefused
      cases hrefused
      cases Course.eq_of_rest h

/-- Where a parse has come to at the bottom of its stack, it comes to where nothing waits for it. -/
theorem Within.course_alone {control : Control σ}
    (h : parser.Within text waiting before started ⟨control, waiting, run⟩) :
    parser.Course .full ⟨.opening text, [], before⟩ ⟨control, [], run⟩ := by
  obtain ⟨above, habove, hcourse⟩ := h.course
  obtain rfl : above = [] := List.self_eq_append_left.mp habove
  exact hcourse

end Frame

/-! ## What follows the return of a handler -/

/-- The loop of the parse goes on from this run: it calls the handler of the state, or raises where
there is none. -/
structure Dispatches (parser : Parser σ) (text : String) (waiting : List (Waiting σ))
    (before : Run σ (List Event)) (started : List String) (run : Run σ (List Event)) : Prop where
  calls : ∀ handler, parser.table.find? run.machine.state = some handler →
    parser.Within text waiting before started
      ⟨.handling text.length handler, waiting, run.note .full (.called run.machine)⟩
  raises : run.machine.state ∉ parser.table.states →
    parser.Ends .full text before
      (.raised (.parse (.unknownState run.machine.state))
        (run.log .full (.unhandled run.machine.state run.machine.pointer)))

section Return

variable {parser : Parser σ} {text : String} {waiting : List (Waiting σ)}
  {before run : Run σ (List Event)} {started : List String}

theorem ends_of_looping_past
    (h : parser.Within text waiting before started ⟨.looping text.length, waiting, run⟩)
    (hp : text.length ≤ run.machine.pointer) :
    parser.Ends .full text before (finish .full run) :=
  (ends_iff_course text before (.ok _) _).mpr (h.course_alone.tail (step_finish [] hp))

theorem dispatches_of_looping
    (h : parser.Within text waiting before started ⟨.looping text.length, waiting, run⟩)
    (hp : run.machine.pointer < text.length) :
    parser.Dispatches text waiting before started run where
  calls _ hh := h.step (step_call waiting hp hh) (Nat.le_refl _)
  raises habsent := by
    have hnone := (parser.table.find?_eq_none_iff _).mpr habsent
    exact (ends_iff_course text before (.error _) _).mpr
      (h.course_alone.tail (step_unhandled [] hp hnone))

/-- A loop that goes on leaves an event of its own before the parse can end. -/
theorem not_ends_of_looping
    (h : parser.Within text waiting before started ⟨.looping text.length, waiting, run⟩)
    (hp : run.machine.pointer < text.length) :
    ¬ parser.Ends .full text before (finish .full run) := by
  intro hends
  have hdispatches := dispatches_of_looping h hp
  cases hh : parser.table.find? run.machine.state with
  | none =>
      have hraises := hdispatches.raises ((parser.table.find?_eq_none_iff _).mp hh)
      cases hends.unique hraises
  | some handler =>
      have hcalled := (hdispatches.calls handler hh).course_alone
      have hrest := (ends_iff_course text before (.ok _) _).mp hends
      -- Both have one event more than `run`, and it is not the same.
      obtain ⟨more, hmore⟩ := hcalled.journal_suffix_of_rest hrest
      have hlength := congrArg List.length hmore
      rw [List.length_append] at hlength
      obtain rfl : more = [] := by
        apply List.eq_nil_of_length_eq_zero
        change more.length + (run.journal.length + 1) = run.journal.length + 1 at hlength
        omega
      cases hmore

/-- When a handler of a parse returns, and the last move of the pointer was a stop, the machine
holds what the parse that was started last has put there, and the pointer is at the end of it. The
parse returns its output there and then, exactly if the text held is as long as its own or longer.
So it does if it has started no other parse; but if the last one it has started was of a shorter
text, or was refused, then the loop goes on where there is no character. The parse may itself be a
nested one, at any depth. -/
theorem stop_ends_loop_iff {length : Nat} (hlength : 0 < text.length)
    (hreturned : parser.Within text waiting before started
      ⟨.handling length (.done ()), waiting, run⟩)
    (hstop : run.StoppedLast) :
    ∃ latest earlier, started = latest :: earlier ∧
      run.machine.input = parser.taken latest ∧
      run.machine.pointer = run.machine.input.length ∧
      (parser.Ends .full text before (finish .full run) ↔
        text.length ≤ run.machine.input.length) ∧
      (earlier = [] → parser.Ends .full text before (finish .full run)) ∧
      (latest.length < text.length ∨ ¬ parser.limits.Admits latest.length →
        run.machine.current? = none ∧ parser.Dispatches text waiting before started run) := by
  obtain rfl := length_eq_of_handling hreturned.course_alone
  obtain ⟨latest, earlier, rfl, hinput, hholds⟩ := hreturned.holdsLatest
  have hpointer := hholds hstop
  have hlooping : parser.Within text waiting before (latest :: earlier)
      ⟨.looping text.length, waiting, run⟩ := hreturned.step rfl (Nat.le_refl _)
  have hiff : parser.Ends .full text before (finish .full run) ↔
      text.length ≤ run.machine.input.length := by
    rw [← hpointer]
    constructor
    · intro hends
      apply Nat.le_of_not_lt
      intro hp
      exact not_ends_of_looping hlooping hp hends
    · exact ends_of_looping_past hlooping
  refine ⟨latest, earlier, rfl, hinput, hpointer, hiff, ?_, ?_⟩
  · rintro rfl
    obtain rfl : text = latest := by
      have heq := hreturned.started_suffix.eq_of_length rfl
      cases heq
      rfl
    rw [hiff, hinput, taken_of_admits (admits_of_handling hreturned.course_alone)]
    exact Nat.le_refl _
  · intro hshort
    have hless : run.machine.input.length < text.length := by
      rw [hinput, taken]
      split
      · next hadmits =>
        rcases hshort with hshorter | hrefused
        · exact hshorter
        · exact absurd hadmits hrefused
      · exact hlength
    refine ⟨?_, dispatches_of_looping hlooping (hpointer ▸ hless)⟩
    rw [Machine.current?_eq_get?, Text.get?_eq_getElem?, List.getElem?_eq_none_iff, hpointer]
    exact Nat.le_refl _

/-- A table whose one handler tries to parse another text and then stops, whatever came of it. -/
def recoiling : Table Unit where
  entries := [(Machine.initialState, do
    tryCatch (do let _ ← .parse "long") fun _ => pure ()
    .stop
    .setState 9)]
  nodup_states := by simp

/-- The nested text is over the limit, so the stop leads back to where the text began, and the loop
looks for a handler there. -/
theorem stop_short_of_end :
    ∃ run, (Parser.mk recoiling ⟨some 2, by decide⟩).Within "ab" [] (.fresh () []) ["long", "ab"]
        ⟨.handling 2 (.done ()), [], run⟩ ∧
      run.StoppedLast ∧ run.machine.input = .empty ∧ run.machine.current? = none ∧
      (Parser.mk recoiling ⟨some 2, by decide⟩).Ends .full "ab" (.fresh () [])
        (.raised (.parse (.unknownState 9)) (run.log .full (.unhandled 9 0))) := by
  have hreturned : ∃ run, (Parser.mk recoiling ⟨some 2, by decide⟩).Within "ab" [] (.fresh () [])
      ["long", "ab"] ⟨.handling 2 (.done ()), [], run⟩ ∧
      run.StoppedLast ∧ run.machine.state = 9 ∧ run.machine.pointer = 0 := by
    have hopened : (Parser.mk recoiling ⟨some 2, by decide⟩).Within "ab" [] (.fresh () []) ["ab"]
        ⟨.opening "ab", [], .fresh () []⟩ := .start
    have hcalled := hopened |>.step rfl (Nat.zero_le _) |>.step rfl (Nat.zero_le _)
      |>.step rfl (Nat.zero_le _) |>.step rfl (Nat.zero_le _)
    have hrefused := hcalled |>.step rfl (Nat.zero_le _) |>.step rfl (Nat.zero_le _)
      |>.step rfl (Nat.zero_le _) |>.step rfl (Nat.zero_le _)
    have hstopped := hrefused |>.step rfl (Nat.zero_le _) |>.step rfl (Nat.zero_le _)
    exact ⟨_, hstopped, ⟨_, rfl⟩, rfl, rfl⟩
  obtain ⟨run, hreturned, hstop, hstate, hpointer⟩ := hreturned
  obtain ⟨latest, earlier, hstarted, hinput, -, -, -, hshort⟩ :=
    stop_ends_loop_iff (by decide) hreturned hstop
  cases hstarted
  obtain ⟨hcurrent, hdispatches⟩ := hshort (Or.inr (by decide))
  have hraises := hdispatches.raises (by rw [hstate]; decide)
  rw [hstate, hpointer] at hraises
  exact ⟨run, hreturned, hstop, hinput, hcurrent, hraises⟩

end Return

end Parser

end CharMachine
