import CharMachine.Proofs.Course
import CharMachine.Proofs.Journal
import CharMachine.Proofs.Observation

/-!
# Parsing with a larger table

A table is asked for one thing only, the handler of the current state, so two parsers go through
the same course as long as their tables give the same answers at the states that are met. A table
with more entries gives the same answers wherever the smaller one has any. The size of the table is
told in one place, the record with which a parse begins; the events of the two parses are otherwise
the same.

The statements compare parses that begin on the same machine with the same memory. They are about
handlers as programs, which cannot look into the table.
-/

namespace CharMachine

variable {σ ρ : Type}

namespace Table

theorem find?_eq_some_iff (table : Table σ) (state : Int) (handler : Program σ Unit) :
    table.find? state = some handler ↔ (state, handler) ∈ table.entries := by
  obtain ⟨entries, hnodup⟩ := table
  change entries.lookup state = some handler ↔ (state, handler) ∈ entries
  induction entries with
  | nil => simp
  | cons entry rest ih =>
      obtain ⟨key, value⟩ := entry
      rw [List.map_cons, List.nodup_cons] at hnodup
      rw [List.lookup_cons, List.mem_cons, Prod.mk.injEq]
      by_cases hs : state = key
      · have habsent : (key, handler) ∉ rest := fun hmem =>
          hnodup.1 (List.mem_map.mpr ⟨_, hmem, rfl⟩)
        simp [hs, habsent, eq_comm]
      · rw [beq_false_of_ne hs]
        simp [hs, ih hnodup.2]

/-- A state that has a handler has the same one in a table with more entries. -/
theorem find?_of_subset {small large : Table σ} (hsub : small.entries ⊆ large.entries) {state : Int}
    {handler : Program σ Unit} (h : small.find? state = some handler) :
    large.find? state = some handler := by
  rw [find?_eq_some_iff] at h ⊢
  exact hsub h

/-- The order of the entries makes no difference to what is found. -/
theorem find?_of_perm {first second : Table σ} (h : first.entries.Perm second.entries) :
    first.find? = second.find? := by
  funext state
  apply Option.ext
  intro handler
  rw [find?_eq_some_iff, find?_eq_some_iff]
  exact h.mem_iff

end Table

/-- The same event with another count of handlers in it, where it has one. -/
def Event.recount (handlers : Nat) : Event → Event
  | .logged (.started length _) => .logged (.started length handlers)
  | event => event

/-- The same run with its events recounted. -/
def Run.recount (handlers : Nat) (run : Run σ (List Event)) : Run σ (List Event) :=
  run.mapJournal (List.map (Event.recount handlers))

namespace Point

def recount (handlers : Nat) (point : Point σ (List Event)) : Point σ (List Event) :=
  { point with run := point.run.recount handlers }

/-- If a handler is looked for at this point, the table has it. -/
def IsHandled (table : Table σ) (point : Point σ ρ) : Prop :=
  ∀ length, point.control = .looping length → point.run.machine.pointer < length →
    point.run.machine.state ∈ table.states

/-- If a handler is looked for at this point, both tables give the same answer. -/
def Agrees (first second : Table σ) (point : Point σ ρ) : Prop :=
  ∀ length, point.control = .looping length → point.run.machine.pointer < length →
    second.find? point.run.machine.state = first.find? point.run.machine.state

theorem IsHandled.agrees {small large : Table σ} {point : Point σ ρ}
    (h : point.IsHandled small) (hsub : small.entries ⊆ large.entries) :
    point.Agrees small large := by
  intro length hcontrol hpointer
  have hpresent := h length hcontrol hpointer
  cases hh : small.find? point.run.machine.state with
  | none => exact absurd hpresent ((small.find?_eq_none_iff _).mp hh)
  | some handler => exact Table.find?_of_subset hsub hh

end Point

namespace Parser

section LockStep

variable {first second : Table σ} {limits : Limits} {point next : Point σ (List Event)}

/-- Where the tables agree, a step with one is a step with the other. -/
theorem step_recount (h : (Parser.mk first limits).step .full point = some next)
    (hagrees : point.Agrees first second) :
    (Parser.mk second limits).step .full (point.recount second.size) =
      some (next.recount second.size) := by
  obtain ⟨control, waiting, run⟩ := point
  cases control with
  | opening text =>
      cases h
      rfl
  | admitting text =>
      cases hl : limits.exceeded? text.length with
      | some limit =>
          rw [step_rejected waiting hl] at h
          cases h
          exact step_rejected waiting hl
      | none =>
          have hadmits := (limits.exceeded?_eq_none_iff text.length).mp hl
          rw [step_admitted waiting hadmits] at h
          cases h
          exact step_admitted waiting hadmits
  | starting text =>
      cases h
      rfl
  | looping length =>
      by_cases hp : run.machine.pointer < length
      · have hsame := hagrees length rfl hp
        cases hh : first.find? run.machine.state with
        | none =>
            rw [step_unhandled waiting hp hh] at h
            cases h
            exact step_unhandled waiting hp (hsame.trans hh)
        | some handler =>
            rw [step_call waiting hp hh] at h
            cases h
            exact step_call waiting hp (hsame.trans hh)
      · rw [step_finish waiting (Nat.not_lt.mp hp)] at h
        cases h
        exact step_finish waiting (Nat.not_lt.mp hp)
  | handling length rest =>
      cases rest <;> cases h <;> rfl
  | ended result =>
      cases waiting <;> cases h
      rfl

/-- A course along which the tables agree is a course with either. -/
theorem Course.recount {start : Point σ (List Event)}
    (h : (Parser.mk first limits).Course .full start point)
    (hagrees : ∀ between, (Parser.mk first limits).Course .full start between →
      between.Agrees first second) :
    (Parser.mk second limits).Course .full (start.recount second.size)
      (point.recount second.size) := by
  induction h with
  | refl => exact .refl
  | tail hbefore hlast ih => exact ih.tail (step_recount hlast (hagrees _ hbefore))

end LockStep

section Ends

variable {first second : Table σ} {limits : Limits} {text : String} {machine : Machine} {memory : σ}
  {result : Except Fault String} {ended : Run σ (List Event)}

/-- Where the parse of a text begins. -/
def outset (text : String) (machine : Machine) (memory : σ) : Point σ (List Event) :=
  ⟨.opening text, [], ⟨machine, memory, []⟩⟩

theorem ends_recount
    (h : (Parser.mk first limits).Ends .full text ⟨machine, memory, []⟩ (.ofResult result ended))
    (hagrees : ∀ point, (Parser.mk first limits).Course .full (outset text machine memory) point →
      point.Agrees first second) :
    (Parser.mk second limits).Ends .full text ⟨machine, memory, []⟩
      (.ofResult result (ended.recount second.size)) := by
  rw [ends_iff_course] at h ⊢
  exact Course.recount h hagrees

/-- The one state that an unnested parse can find without a handler is the one it raises for. -/
theorem agrees_of_unnested {error : ParseError} {state : Int}
    (h : (Parser.mk first limits).Ends .full text ⟨machine, memory, []⟩
      (.ofResult (.error (.parse error)) ended))
    (hsub : first.entries ⊆ second.entries) (hkind : error.kind = .unknownState state)
    (habsent : state ∉ second.states)
    (hunnested : ∀ point, (Parser.mk first limits).Course .full (outset text machine memory) point →
      point.waiting = [])
    (point : Point σ (List Event))
    (hcourse : (Parser.mk first limits).Course .full (outset text machine memory) point) :
    point.Agrees first second := by
  rw [ends_iff_course] at h
  obtain ⟨control, waiting, run⟩ := point
  obtain rfl : waiting = [] := hunnested _ hcourse
  intro length hcontrol hpointer
  obtain rfl : control = .looping length := hcontrol
  cases hh : first.find? run.machine.state with
  | some handler => exact Table.find?_of_subset hsub hh
  | none =>
      -- The parse comes to rest at the next step, so this is the fault that it ends in.
      have hrest := hcourse.tail (step_unhandled [] hpointer hh)
      have herror : error = .unknownState run.machine.state := by
        cases (h.rest_unique hrest).1
        rfl
      obtain rfl : run.machine.state = state := by
        rw [herror] at hkind
        exact ErrorKind.unknownState.inj hkind
      exact (second.find?_eq_none_iff _).mpr habsent

theorem step_congr (limits : Limits) (hfind : first.find? = second.find?) (hsize : first.size = second.size)
    (observer : Observer ρ) :
    (Parser.mk first limits).step observer = (Parser.mk second limits).step observer := by
  funext point
  unfold step
  simp only [hfind, hsize]

/-- The order in which a table was filled shows nowhere in its parses. -/
theorem ends_of_perm (h : first.entries.Perm second.entries) (run : Run σ (List Event))
    (outcome : Outcome σ (List Event) String) :
    (Parser.mk first limits).Ends .full text run outcome ↔
      (Parser.mk second limits).Ends .full text run outcome := by
  have hstep := step_congr limits (Table.find?_of_perm h) h.length_eq Observer.full
  rcases outcome.exhausted_or_ofResult with rfl | ⟨result, after, rfl⟩
  · exact ⟨fun hends => absurd rfl hends.1, fun hends => absurd rfl hends.1⟩
  · rw [ends_iff_course, ends_iff_course, Course, Course, hstep]

/-- A dispatch without a handler leaves a record, so where there is none, all were handled. -/
theorem isHandled_of_unlogged
    (h : (Parser.mk first limits).Ends .full text ⟨machine, memory, []⟩ (.ofResult result ended))
    (hlogged : ∀ state position, .unhandled state position ∉ Event.records ended.journal)
    (point : Point σ (List Event))
    (hcourse : (Parser.mk first limits).Course .full (outset text machine memory) point) :
    point.IsHandled first := by
  rw [ends_iff_course] at h
  obtain ⟨control, waiting, run⟩ := point
  intro length hcontrol hpointer
  obtain rfl : control = .looping length := hcontrol
  by_cases hpresent : run.machine.state ∈ first.states
  · exact hpresent
  · have hnone := (first.find?_eq_none_iff _).mpr hpresent
    have hstep := hcourse.tail (step_unhandled waiting hpointer hnone)
    have hsuffix := Course.journal_suffix_of_rest hstep h
    have hevent := List.mem_reverse.mpr (hsuffix.subset List.mem_cons_self)
    refine absurd ?_ (hlogged run.machine.state run.machine.pointer)
    exact List.mem_filterMap.mpr ⟨_, hevent, rfl⟩

end Ends

/-- A table with more entries parses as the smaller one does, if no dispatch of the parse or of one
inside it met a state without a handler: it ends with the same result, machine and memory after the
same events, of which only the count of handlers may differ. If no parse was started inside it, and
it ended because of a state that the larger table lacks too, the same is true. The order of the
entries never matters. -/
theorem larger_table_keeps_parse {small large : Table σ} (hsub : small.entries ⊆ large.entries)
    (limits : Limits) (text : String) (machine : Machine) (memory : σ)
    {result : Except Fault String} {ended : Run σ (List Event)}
    (h : (Parser.mk small limits).Ends .full text ⟨machine, memory, []⟩ (.ofResult result ended)) :
    ((∀ point, (Parser.mk small limits).Course .full (outset text machine memory) point →
        point.IsHandled small) →
      (Parser.mk large limits).Ends .full text ⟨machine, memory, []⟩
        (.ofResult result
          ⟨ended.machine, ended.memory, ended.journal.map (Event.recount large.size)⟩)) ∧
    (∀ error state, result = .error (.parse error) → error.kind = .unknownState state →
      state ∉ large.states →
      (∀ point, (Parser.mk small limits).Course .full (outset text machine memory) point →
        point.waiting = []) →
      (Parser.mk large limits).Ends .full text ⟨machine, memory, []⟩
        (.ofResult result
          ⟨ended.machine, ended.memory, ended.journal.map (Event.recount large.size)⟩)) ∧
    ∀ (reordered : Table σ), reordered.entries.Perm small.entries → ∀ run outcome,
      (Parser.mk reordered limits).Ends .full text run outcome ↔
        (Parser.mk small limits).Ends .full text run outcome := by
  refine ⟨?_, ?_, ?_⟩
  · intro hhandled
    exact ends_recount h fun point hcourse => (hhandled point hcourse).agrees hsub
  · intro error state hresult hkind habsent hunnested
    subst hresult
    exact ends_recount h (agrees_of_unnested h hsub hkind habsent hunnested)
  · intro reordered hperm run outcome
    exact ends_of_perm hperm run outcome

/-- A table whose one handler parses another text at `'('` and copies all else. -/
def linking : Table Unit where
  entries := [(Machine.initialState, do
    let machine ← .machine
    if machine.current? = some '(' then
      let _ ← .parse "ab"
    else
      .append
      .advance)]
  nodup_states := by simp

/-- The same with a state in front that is never entered. -/
def linkingMore : Table Unit where
  entries := (7, .stop) :: linking.entries
  nodup_states := by
    rw [List.map_cons, List.nodup_cons]
    exact ⟨by decide, linking.nodup_states⟩

/-- A parse with another inside it is the same with the larger table. -/
theorem larger_table_keeps_linking :
    linking.entries ⊆ linkingMore.entries ∧
      ∃ ended, (Parser.mk linkingMore .standard).Ends .full "(" ⟨.initial, (), []⟩
        (.ofResult (.ok "ab") ended) ∧
        Event.logged (.started 2 2) ∈ ended.journal := by
  have hsub : linking.entries ⊆ linkingMore.entries := List.subset_cons_self _ _
  have hends : ∃ ended, (Parser.mk linking .standard).Ends .full "(" ⟨.initial, (), []⟩
      (.ofResult (.ok "ab") ended) ∧ Event.logged (.started 2 1) ∈ ended.journal ∧
      Event.records ended.journal = [.started 1 1, .started 2 1, .finished 0 2, .finished 0 2] :=
    ⟨_, ⟨nofun, 4, rfl⟩, by decide, rfl⟩
  obtain ⟨ended, hends, hstarted, hrecords⟩ := hends
  have hhandled := isHandled_of_unlogged hends (by simp [hrecords])
  have hlarger := (larger_table_keeps_parse hsub .standard "(" .initial () hends).1 hhandled
  exact ⟨hsub, _, hlarger, List.mem_map_of_mem hstarted⟩

end Parser

end CharMachine
