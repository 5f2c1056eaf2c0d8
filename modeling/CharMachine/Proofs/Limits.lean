import CharMachine.Proofs.Course
import CharMachine.Proofs.History
import CharMachine.Proofs.Journal

/-!
# Limits only gate

A parser asks its limits for one thing only, whether a text is taken, and asks it before anything
else is done with the text. A text over the limit leaves an empty machine and one record. Two
parsers with the same table and different limits go through the same course, as long as both take
every text that comes up in it, those of nested parses included.

Handlers are programs here, and programs cannot look at the limits of their parser.
-/

namespace CharMachine

variable {σ ρ α : Type}

/-! ## Events behind a run -/

theorem Run.mapJournal_append_injective {earlier : List Event} {run run' : Run σ (List Event)}
    (h : run.mapJournal (· ++ earlier) = run'.mapJournal (· ++ earlier)) : run = run' := by
  obtain ⟨machine, memory, journal⟩ := run
  obtain ⟨machine', memory', journal'⟩ := run'
  simp only [mapJournal, mk.injEq, List.append_cancel_right_eq] at h
  obtain ⟨rfl, rfl, rfl⟩ := h
  rfl

/-- Keeping earlier events behind those of a run loses nothing of the run. -/
theorem Outcome.onto_injective {earlier : List Event} {outcome outcome' : Outcome σ (List Event) α}
    (h : outcome.onto earlier = outcome'.onto earlier) : outcome = outcome' := by
  cases outcome with
  | returned value run =>
      cases outcome' with
      | returned value' run' =>
          injection h with hvalue hrun
          rw [hvalue, Run.mapJournal_append_injective hrun]
      | raised fault' run' => cases h
      | exhausted => cases h
  | raised fault run =>
      cases outcome' with
      | returned value' run' => cases h
      | raised fault' run' =>
          injection h with hfault hrun
          rw [hfault, Run.mapJournal_append_injective hrun]
      | exhausted => cases h
  | exhausted => cases outcome' <;> first | rfl | cases h

/-- A parse ends on earlier events as it ends on none. -/
theorem Parser.ends_onto_iff (parser : Parser σ) (text : String) (run : Run σ (List Event))
    (outcome : Outcome σ (List Event) String) :
    parser.Ends .full text run (outcome.onto run.journal) ↔
      parser.Ends .full text (.fresh run.memory []) outcome := by
  rw [parser.ends_iff_fresh]
  constructor
  · rintro ⟨afresh, hends, heq⟩
    rw [Outcome.onto_injective heq]
    exact hends
  · intro hends
    exact ⟨outcome, hends, rfl⟩

/-! ## Courses under different limits -/

/-- If a text is about to be taken or refused at this point, these limits take it. -/
def Point.Fits (limits : Limits) (point : Point σ ρ) : Prop :=
  ∀ text, point.control = .admitting text → limits.Admits text.length

theorem Point.fits_unlimited (point : Point σ ρ) : point.Fits .unlimited := by
  intro text _ limit hlimit
  cases hlimit

namespace Parser

section LockStep

variable {table : Table σ} {first second : Limits} {observer : Observer ρ}
  {start point next : Point σ ρ}

/-- Where both limits take the text, a step under one is a step under the other. -/
theorem step_of_fits (hfirst : point.Fits first) (hsecond : point.Fits second) :
    (Parser.mk table second).step observer point = (Parser.mk table first).step observer point := by
  obtain ⟨control, waiting, run⟩ := point
  cases control with
  | admitting text =>
      have htaken := hfirst text rfl
      have htaken' := hsecond text rfl
      exact (step_admitted waiting htaken').trans (step_admitted waiting htaken).symm
  | handling length rest => cases rest <;> rfl
  | ended result => cases waiting <;> rfl
  | _ => rfl

/-- A course in which both limits take every text is the same under either of them. -/
theorem course_iff_of_fits
    (hfits : ∀ between, (Parser.mk table first).Course observer start between →
      between.Fits first ∧ between.Fits second) :
    (Parser.mk table second).Course observer start point ↔
      (Parser.mk table first).Course observer start point := by
  constructor
  · intro h
    induction h with
    | refl => exact .refl
    | tail _ hlast ih =>
        obtain ⟨hfirst, hsecond⟩ := hfits _ ih
        exact ih.tail ((step_of_fits hfirst hsecond).symm.trans hlast)
  · intro h
    induction h with
    | refl => exact .refl
    | tail hbefore hlast ih =>
        obtain ⟨hfirst, hsecond⟩ := hfits _ hbefore
        exact ih.tail ((step_of_fits hfirst hsecond).trans hlast)

end LockStep

section Ends

variable {table : Table σ} {first second : Limits} {text : String} {run : Run σ (List Event)}

theorem ends_iff_of_fits
    (hfits : ∀ point, (Parser.mk table first).Course .full ⟨.opening text, [], run⟩ point →
      point.Fits first ∧ point.Fits second) (outcome : Outcome σ (List Event) String) :
    (Parser.mk table second).Ends .full text run outcome ↔
      (Parser.mk table first).Ends .full text run outcome := by
  rcases outcome.exhausted_or_ofResult with rfl | ⟨result, after, rfl⟩
  · exact ⟨fun hends => absurd rfl hends.1, fun hends => absurd rfl hends.1⟩
  · rw [ends_iff_course, ends_iff_course, course_iff_of_fits hfits]

end Ends

variable {parser : Parser σ} {text : String} {run : Run σ (List Event)}

/-- A text over the limit ends in one way, whatever was on the machine. -/
theorem ends_iff_of_exceeded {limit : Nat}
    (hl : parser.limits.exceeded? text.length = some limit)
    (outcome : Outcome σ (List Event) String) :
    parser.Ends .full text run outcome ↔
      outcome = .raised (.parse (.inputTooLarge text.length limit))
        ⟨.initial, run.memory,
          .logged (.rejected text.length limit) :: .opened .initial :: run.journal⟩ := by
  have hends : parser.Ends .full text run (.raised (.parse (.inputTooLarge text.length limit))
      ((run.openText .full .empty).log .full (.rejected text.length limit))) :=
    ⟨nofun, 0, parser.parseWith_rejected .full hl run⟩
  constructor
  · intro h
    exact h.unique hends
  · rintro rfl
    exact hends

/-- A refused text leaves a record, so where there is none, all were taken. -/
theorem fits_of_unlogged {result : Except Fault String} {ended : Run σ (List Event)}
    (h : parser.Ends .full text run (.ofResult result ended))
    (hlogged : ∀ length limit, .rejected length limit ∉ Event.records ended.journal)
    (point : Point σ (List Event))
    (hcourse : parser.Course .full ⟨.opening text, [], run⟩ point) :
    point.Fits parser.limits := by
  rw [ends_iff_course] at h
  obtain ⟨control, waiting, now⟩ := point
  intro inner hcontrol
  obtain rfl : control = .admitting inner := hcontrol
  cases hl : parser.limits.exceeded? inner.length with
  | none => exact (parser.limits.exceeded?_eq_none_iff inner.length).mp hl
  | some limit =>
      have hstep := hcourse.tail (step_rejected waiting hl)
      have hsuffix := Course.journal_suffix_of_rest hstep h
      have hevent := List.mem_reverse.mpr (hsuffix.subset List.mem_cons_self)
      refine absurd ?_ (hlogged inner.length limit)
      exact List.mem_filterMap.mpr ⟨_, hevent, rfl⟩

end Parser

namespace Instance

/-- These limits take every text that comes up in the next parse of this one, the text itself and
those of nested parses. -/
def Fits (inst : Instance σ) (text : String) (limits : Limits) : Prop :=
  ∀ point, inst.parser.Course .full ⟨.opening text, [], inst.run⟩ point → point.Fits limits

/-- The next parses of this text end alike: with the same result or fault, the same machine and
memory and the same events, each behind those that the instance already has. -/
def ParsesAlike (inst other : Instance σ) (text : String) : Prop :=
  ∀ outcome : Outcome σ (List Event) String,
    inst.Ends text (outcome.onto inst.run.journal) ↔
      other.Ends text (outcome.onto other.run.journal)

theorem parsesAlike_of_fits {given : Table σ} {limits limits' : Limits} {inst inst' : Instance σ}
    {text : String} (hparser : inst.parser = ⟨given, limits⟩)
    (hparser' : inst'.parser = ⟨given, limits'⟩) (hmemory : inst'.run.memory = inst.run.memory)
    (hfits : inst.Fits text limits) (hfits' : inst.Fits text limits') :
    inst.ParsesAlike inst' text := by
  intro outcome
  unfold Fits at hfits hfits'
  rw [hparser] at hfits hfits'
  have hboth := Parser.ends_iff_of_fits (fun point hcourse =>
    ⟨hfits point hcourse, hfits' point hcourse⟩) (outcome.onto inst.run.journal)
  unfold Ends
  rw [hparser, hparser', ← hboth, Parser.ends_onto_iff, Parser.ends_onto_iff, hmemory]

/-- The limit of an instance with any history is a gate and nothing else. A text over the limit is
refused: the parse ends in that fault, no handler is called and the machine is left as a new one.
If every text that comes up is within the limit, the parse ends exactly as that of an instance that
has no limit, whatever the history of either, if the handlers find the same memory. It ends so
under any other limits within which these texts are, and a parse that does not end has the same
course. -/
theorem limit_only_gates {given : Table σ} {limits : Limits} {memory : σ}
    {history : List (Operation σ)} {inst : Instance σ}
    (h : Reaches history (new given limits memory) inst) (text : String) :
    (∀ limit, limits.maxInputLength = some limit → limit < text.length → ∀ outcome,
      inst.Ends text outcome ↔
        outcome = .raised (.parse (.inputTooLarge text.length limit))
          ⟨⟨.empty, 0, Machine.initialState, []⟩, inst.run.memory,
            .logged (.rejected text.length limit) :: .opened .initial :: inst.run.journal⟩) ∧
    (inst.Fits text limits → ∀ memory' history' inst',
      Reaches history' (new given .unlimited memory') inst' →
      inst'.run.memory = inst.run.memory → inst.ParsesAlike inst' text) ∧
    (inst.Fits text limits → ∀ limits', inst.Fits text limits' →
      (∀ memory' history' inst', Reaches history' (new given limits' memory') inst' →
        inst'.run.memory = inst.run.memory → inst.ParsesAlike inst' text) ∧
      ∀ point, (Parser.mk given limits').Course .full ⟨.opening text, [], inst.run⟩ point ↔
        inst.parser.Course .full ⟨.opening text, [], inst.run⟩ point) := by
  have hparser : inst.parser = ⟨given, limits⟩ := h.parser_eq
  have halike : inst.Fits text limits → ∀ limits', inst.Fits text limits' →
      ∀ memory' history' inst', Reaches history' (new given limits' memory') inst' →
        inst'.run.memory = inst.run.memory → inst.ParsesAlike inst' text := by
    intro hfits limits' hfits' memory' history' inst' h' hmemory
    exact parsesAlike_of_fits hparser h'.parser_eq hmemory hfits hfits'
  refine ⟨?_, ?_, ?_⟩
  · intro limit hlimit hlong outcome
    apply Parser.ends_iff_of_exceeded
    rw [hparser]
    exact (limits.exceeded?_eq_some_iff text.length limit).mpr ⟨hlimit, hlong⟩
  · intro hfits
    exact halike hfits .unlimited fun point _ => point.fits_unlimited
  · intro hfits limits' hfits'
    refine ⟨halike hfits limits' hfits', ?_⟩
    unfold Fits at hfits hfits'
    rw [hparser] at hfits hfits' ⊢
    intro point
    exact Parser.course_iff_of_fits fun point hcourse =>
      ⟨hfits point hcourse, hfits' point hcourse⟩

/-- With a limit of three characters and after a parse that failed, four characters are refused,
while a text with another one nested in it is parsed as by a new instance without a limit. -/
theorem limit_only_gates_nested :
    ∃ inst, Reaches [.parse "x!", .act .advance] (new revisiting ⟨some 3, by decide⟩ ()) inst ∧
      (∃ run, inst.Ends "long" (.raised (.parse (.inputTooLarge 4 3)) run) ∧
        run.machine = .initial) ∧
      (∃ run, inst.Ends "(" (.returned "ab" run)) ∧
      inst.Fits "(" ⟨some 3, by decide⟩ ∧
      inst.ParsesAlike (new revisiting .unlimited ()) "(" := by
  have hreach : ∃ inst, Reaches [.parse "x!", .act .advance]
      (new revisiting ⟨some 3, by decide⟩ ()) inst ∧
      ∃ ended, inst.Ends "(" (.ofResult (.ok "ab") ended) ∧
        Event.records ended.journal = [.started 2 1, .unhandled 9 1, .started 1 1, .started 2 1,
          .finished 0 2, .finished 0 2] :=
    ⟨_, .cons (.raised ⟨nofun, 3, rfl⟩) (.cons (.acted _ _) (.nil _)), _, ⟨nofun, 3, rfl⟩, rfl⟩
  obtain ⟨inst, hreach, ended, hends, hrecords⟩ := hreach
  have hparser : inst.parser = ⟨revisiting, ⟨some 3, by decide⟩⟩ := hreach.parser_eq
  have hfits : inst.Fits "(" ⟨some 3, by decide⟩ := by
    intro point hcourse
    have hpoint := Parser.fits_of_unlogged hends (by simp [hrecords]) point hcourse
    rwa [hparser] at hpoint
  obtain ⟨hlong, -, -⟩ := limit_only_gates hreach "long"
  obtain ⟨-, halike, -⟩ := limit_only_gates hreach "("
  refine ⟨inst, hreach, ⟨_, (hlong 3 rfl (by decide) _).mpr rfl, rfl⟩, ⟨ended, hends⟩, hfits, ?_⟩
  exact halike hfits () [] _ (.nil _) rfl

end Instance

end CharMachine
