import CharMachine.Proofs.Unnested

/-!
# The pointer from call to call

Inside a handler the pointer can run past the end of the text and be brought back to it. At the
points where handlers are called it is disciplined: it is inside the text and never behind an
earlier call. A call that returns with the pointer at the end or beyond it is the last one, and
what has been emitted by then is the result; the state that it leaves is not looked up.

The statements are about parses in which no handler starts another. A nested parse replaces the
text under the loop that waits for it, and none of this survives that.
-/

namespace CharMachine

variable {σ : Type}

/-! ## What the runs of a loop have in common -/

/-- Moving on and moving to the end of the text are the only ways in which the pointer moves. -/
theorem Machine.pointer_act (machine : Machine) (op : Op) :
    machine.pointer ≤ (machine.act op).pointer ∨
      (machine.act op).pointer = machine.input.length := by
  cases op with
  | advance => exact Or.inl (Nat.le_succ _)
  | stop => exact Or.inr rfl
  | append =>
      rw [act]
      split <;> exact Or.inl (Nat.le_refl _)
  | clear => exact Or.inl (Nat.le_refl _)
  | setState state => exact Or.inl (Nat.le_refl _)

/-- The machine holds this text, and so did those on which handlers were called; their pointers
were inside it, in ascending order, and the pointer is not behind any of them. -/
structure Run.Steady (text : Text) (run : Run σ (List Event)) : Prop where
  input_eq : run.machine.input = text
  inside : ∀ start ∈ Event.calls run.journal, start.input = text ∧ start.pointer < text.length
  ordered : (Event.calls run.journal).Pairwise fun earlier later => earlier.pointer ≤ later.pointer
  reached : ∀ start ∈ Event.calls run.journal, start.pointer ≤ run.machine.pointer

namespace Run.Steady

variable {text : Text} {run next : Run σ (List Event)}

/-- As long as nothing is called, moves of the pointer are all that matters. Moving it to the end
may bring it back, but every call was made before the end. -/
theorem of_pointer (h : run.Steady text) (hinput : next.machine.input = run.machine.input)
    (hcalls : Event.calls next.journal = Event.calls run.journal)
    (hpointer : run.machine.pointer ≤ next.machine.pointer ∨
      next.machine.pointer = run.machine.input.length) : next.Steady text where
  input_eq := hinput.trans h.input_eq
  inside := hcalls ▸ h.inside
  ordered := hcalls ▸ h.ordered
  reached start hstart := by
    rw [hcalls] at hstart
    have hreached := h.reached start hstart
    have hinside := (h.inside start hstart).2
    rw [h.input_eq] at hpointer
    omega

theorem note (h : run.Steady text) {event : Event} (hevent : event.called? = none) :
    (run.note .full event).Steady text := by
  refine h.of_pointer rfl ?_ (Or.inl (Nat.le_refl _))
  show Event.calls (event :: run.journal) = _
  rw [Event.calls_cons, hevent]
  exact List.append_nil _

theorem act (h : run.Steady text) (op : Op) : (run.act .full op).Steady text := by
  refine h.of_pointer (run.machine.input_act op) ?_ (run.machine.pointer_act op)
  show Event.calls (.acted op _ :: run.journal) = _
  rw [Event.calls_cons]
  exact List.append_nil _

theorem remember (h : run.Steady text) (memory : σ) :
    { run with memory := memory }.Steady text :=
  h.of_pointer rfl rfl (Or.inl (Nat.le_refl _))

/-- A call inside the text comes after all others. -/
theorem call (h : run.Steady text) (hp : run.machine.pointer < text.length) :
    (run.note .full (.called run.machine)).Steady text := by
  have hcalls : Event.calls (run.note .full (.called run.machine)).journal =
      Event.calls run.journal ++ [run.machine] := Event.calls_cons _ _
  refine ⟨h.input_eq, ?_, ?_, ?_⟩
  · rw [hcalls]
    intro start hstart
    rcases List.mem_append.mp hstart with hstart | hstart
    · exact h.inside start hstart
    · rw [List.mem_singleton.mp hstart]
      exact ⟨h.input_eq, hp⟩
  · rw [hcalls]
    refine List.pairwise_append.mpr ⟨h.ordered, List.pairwise_singleton _ _, ?_⟩
    intro earlier hearlier later hlater
    rw [List.mem_singleton.mp hlater]
    exact h.reached earlier hearlier
  · rw [hcalls]
    intro start hstart
    rcases List.mem_append.mp hstart with hstart | hstart
    · exact h.reached start hstart
    · rw [List.mem_singleton.mp hstart]
      exact Nat.le_refl _

end Run.Steady

/-- The loop over a text of this length has begun. -/
def Control.Begun (length : Nat) : Control σ → Prop
  | .looping bound | .handling bound _ => bound = length
  | .ended _ => True
  | .opening _ | .admitting _ | .starting _ => False

/-- A point of the loop over this text. -/
structure Point.Steady (text : Text) (point : Point σ (List Event)) : Prop where
  begun : point.control.Begun text.length
  run : point.run.Steady text

namespace Parser

variable {parser : Parser σ} {text : String} {machine : Machine} {memory : σ}

/-- A step between two points at which no handler waits. -/
theorem steady_step {text : Text} {point next : Point σ (List Event)}
    (hstep : parser.step .full point = some next) (hwaiting : point.waiting = [])
    (hwaiting' : next.waiting = []) (h : point.Steady text) : next.Steady text := by
  obtain ⟨control, waiting, run⟩ := point
  obtain ⟨hbegun, hrun⟩ := h
  obtain rfl : waiting = [] := hwaiting
  cases control with
  | opening _ => exact hbegun.elim
  | admitting _ => exact hbegun.elim
  | starting _ => exact hbegun.elim
  | looping length =>
      obtain rfl : length = text.length := hbegun
      by_cases hp : run.machine.pointer < text.length
      · cases hh : parser.table.find? run.machine.state with
        | none =>
            rw [step_unhandled [] hp hh] at hstep
            cases hstep
            exact ⟨trivial, hrun.note rfl⟩
        | some handler =>
            rw [step_call [] hp hh] at hstep
            cases hstep
            exact ⟨rfl, hrun.call hp⟩
      · rw [step_finish [] (Nat.not_lt.mp hp)] at hstep
        cases hstep
        exact ⟨trivial, hrun.note rfl⟩
  | handling length rest =>
      obtain rfl : length = text.length := hbegun
      cases rest with
      | done value =>
          cases hstep
          exact ⟨rfl, hrun⟩
      | act op rest =>
          cases hstep
          exact ⟨rfl, hrun.act op⟩
      | look rest =>
          cases hstep
          exact ⟨rfl, hrun⟩
      | remember memory rest =>
          cases hstep
          exact ⟨rfl, hrun.remember memory⟩
      | nested inner rest =>
          cases hstep
          cases hwaiting'
      | raise fault =>
          cases hstep
          exact ⟨trivial, hrun⟩
  | ended result => cases hstep

/-- Where the loop of the parse of a text begins. -/
def loopOutset (parser : Parser σ) (text : String) (machine : Machine) (memory : σ) :
    Point σ (List Event) :=
  ⟨.looping text.length, [], parser.begin .full text ⟨machine, memory, []⟩⟩

theorem course_loopOutset (hl : parser.limits.Admits text.length) :
    parser.Course .full (outset text machine memory) (parser.loopOutset text machine memory) :=
  course_begin [] hl

theorem steady_loopOutset : (parser.loopOutset text machine memory).Steady (.ofString text) where
  begun := rfl
  run :=
    { input_eq := rfl
      inside := nofun
      ordered := .nil
      reached := nofun }

/-- Every point of the loop is steady. -/
theorem Unnested.steady (h : parser.Unnested text machine memory)
    (hl : parser.limits.Admits text.length) {point : Point σ (List Event)}
    (hcourse : parser.Course .full (parser.loopOutset text machine memory) point) :
    point.Steady (.ofString text) := by
  induction hcourse with
  | refl => exact steady_loopOutset
  | tail hbefore hlast ih =>
      have hfirst := (course_loopOutset hl).trans hbefore
      exact steady_step hlast (h _ hfirst) (h _ (hfirst.tail hlast)) ih

/-- A handler that returns past the end of the text ends the parse. -/
theorem ends_of_past (hl : parser.limits.Admits text.length) {run : Run σ (List Event)}
    (hcourse : parser.Course .full (parser.loopOutset text machine memory)
      ⟨.handling text.length (.done ()), [], run⟩)
    (hpast : text.length ≤ run.machine.pointer) :
    parser.Ends .full text ⟨machine, memory, []⟩ (finish .full run) := by
  have hreturn := ((course_loopOutset hl).trans hcourse).tail rfl
  exact (ends_iff_course text _ (.ok _) _).mpr (hreturn.tail (step_finish [] hpast))

/-- The discipline of the pointer in a parse that starts no other. After its text has been opened
the machine holds that text for good. Each handler is called with the pointer inside the text, so
that there is a current character, and not behind an earlier call. If a handler returns with the
pointer at the end or past it, no other is called: the parse returns what has been emitted, and
leaves the machine as it is, in whatever state that may be. -/
theorem dispatch_disciplined (hl : parser.limits.Admits text.length)
    (h : parser.Unnested text machine memory) :
    parser.Course .full (outset text machine memory) (parser.loopOutset text machine memory) ∧
    ∀ point, parser.Course .full (parser.loopOutset text machine memory) point →
      point.run.machine.input = .ofString text ∧
      (∀ start ∈ Event.calls point.run.journal, start.input = .ofString text ∧
        0 ≤ start.pointer ∧ start.pointer < text.length ∧ start.current? ≠ none) ∧
      ((Event.calls point.run.journal).Pairwise fun earlier later =>
        earlier.pointer ≤ later.pointer) ∧
      (point.control = .handling text.length (.done ()) →
        text.length ≤ point.run.machine.pointer →
        ∃ after, parser.Ends .full text ⟨machine, memory, []⟩
            (.returned point.run.machine.output after) ∧
          after.machine = point.run.machine ∧
          Event.calls after.journal = Event.calls point.run.journal) := by
  refine ⟨course_loopOutset hl, ?_⟩
  intro point hcourse
  have hrun := (h.steady hl hcourse).run
  refine ⟨hrun.input_eq, ?_, hrun.ordered, ?_⟩
  · intro start hstart
    obtain ⟨hinput, hinside⟩ := hrun.inside start hstart
    refine ⟨hinput, Nat.zero_le _, hinside, ?_⟩
    rw [Machine.current?_eq_get?, hinput, Text.get?_eq_getElem?, ne_eq, List.getElem?_eq_none_iff]
    exact Nat.not_le.mpr hinside
  · intro hcontrol hpast
    obtain ⟨control, waiting, run⟩ := point
    obtain rfl : control = .handling text.length (.done ()) := hcontrol
    obtain rfl : waiting = [] := h _ ((course_loopOutset hl).trans hcourse)
    refine ⟨_, ends_of_past hl hcourse hpast, rfl, ?_⟩
    show Event.calls (.logged _ :: run.journal) = _
    rw [Event.calls_cons]
    exact List.append_nil _

/-- A table that keeps one character and then runs past the end of the text, comes back to the end
and leaves for a state without a handler. -/
def overrunning : Table Unit where
  entries :=
    [(0, do
      .append
      .advance
      .setState 1),
    (1, do
      .advance
      .advance
      .advance
      .stop
      .setState 9)]
  nodup_states := by simp

/-- The second call finds the pointer at 1, has it at 4 for a while and leaves it at 2. -/
theorem dispatch_disciplined_overrunning :
    ∃ after, (Parser.mk overrunning .standard).Ends .full "ab" ⟨.initial, (), []⟩
        (.returned "a" after) ∧ after.machine.state = 9 ∧ 9 ∉ overrunning.states ∧
      (Event.calls after.journal).map Machine.pointer = [0, 1] := by
  have hl : Limits.standard.Admits "ab".length := by decide
  have htable : ∀ entry ∈ overrunning.entries, entry.2.Unnested := by
    intro entry hentry
    simp only [overrunning, List.mem_cons, List.not_mem_nil, or_false] at hentry
    rcases hentry with rfl | rfl <;> exact trivial
  have hunnested : (Parser.mk overrunning .standard).Unnested "ab" .initial () :=
    unnested_of_table htable "ab" .initial ()
  have hcourse : ∃ run, (Parser.mk overrunning .standard).Course .full
      (loopOutset ⟨overrunning, .standard⟩ "ab" .initial ()) ⟨.handling 2 (.done ()), [], run⟩ ∧
      run.machine.pointer = 2 ∧ run.machine.state = 9 ∧ run.machine.output = "a" ∧
      (Event.calls run.journal).map Machine.pointer = [0, 1] :=
    ⟨_, .head rfl <| .head rfl <| .head rfl <| .head rfl <| .head rfl <| .head rfl <|
      .head rfl <| .head rfl <| .head rfl <| .head rfl <| .head rfl .refl, rfl, rfl, rfl, rfl⟩
  obtain ⟨run, hcourse, hpointer, hstate, houtput, hcalls⟩ := hcourse
  obtain ⟨after, hends, hmachine, hlast⟩ :=
    ((dispatch_disciplined hl hunnested).2 _ hcourse).2.2.2 rfl (Nat.le_of_eq hpointer.symm)
  refine ⟨after, ?_, ?_, by decide, ?_⟩
  · rwa [houtput] at hends
  · rw [hmachine, hstate]
  · rw [hlast, hcalls]

end Parser

end CharMachine
