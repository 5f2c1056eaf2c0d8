import CharMachine.Proofs.Course
import CharMachine.Proofs.History

/-!
# Where emitted characters come from

At every point of every parse, ended or not, and between any two operations on an instance, the
output is made of characters of the text that the machine holds at that point. They stand there in
the order in which they were emitted, none of them past the pointer. A character may be emitted
more than once.

The statement covers machines as handlers see them: the moment inside an opening at which the text
has been replaced and the output has not is no point of a course.
-/

namespace CharMachine

namespace Machine

/-- The output consists of the characters at these positions of the text, in this order. -/
structure DrawnFrom (machine : Machine) (positions : List Nat) : Prop where
  ordered : positions.Pairwise (· ≤ ·)
  in_text : ∀ i ∈ positions, i < machine.input.length
  reached : ∀ i ∈ positions, i ≤ machine.pointer
  output_eq : machine.output.toList.map some = positions.map machine.input.get?

/-- The output is drawn from the text. -/
def Drawn (machine : Machine) : Prop := ∃ positions, machine.DrawnFrom positions

theorem drawn_of_emitted_eq_nil {machine : Machine} (h : machine.emitted = []) : machine.Drawn := by
  refine ⟨[], .nil, ?_, ?_, ?_⟩
  · intro i hi
    exact absurd hi List.not_mem_nil
  · intro i hi
    exact absurd hi List.not_mem_nil
  · rw [toList_output, written, h]
    rfl

theorem lt_length_of_current? {machine : Machine} {c : Char} (h : machine.current? = some c) :
    machine.pointer < machine.input.length := by
  rw [current?_eq_get?, Text.get?_eq_getElem?] at h
  rw [← Text.length_toList]
  exact (List.getElem?_eq_some_iff.mp h).1

section

variable {machine : Machine} {positions : List Nat}

/-- Neither the state nor a pointer that is moved on, or to the end of the text, matters. -/
theorem DrawnFrom.of_pointer {next : Machine} (h : machine.DrawnFrom positions)
    (hinput : next.input = machine.input) (hemitted : next.emitted = machine.emitted)
    (hpointer : machine.pointer ≤ next.pointer ∨ machine.input.length ≤ next.pointer) :
    next.DrawnFrom positions where
  ordered := h.ordered
  in_text := hinput ▸ h.in_text
  reached i hi := by
    have hlength := h.in_text i hi
    have hreached := h.reached i hi
    omega
  output_eq := by
    have houtput := h.output_eq
    rwa [toList_output, written, ← hemitted, ← hinput, ← written, ← toList_output] at houtput

/-- The current character extends the output by its own position. -/
theorem DrawnFrom.append {c : Char} (h : machine.DrawnFrom positions)
    (hc : machine.current? = some c) :
    { machine with emitted := c :: machine.emitted }.DrawnFrom
      (positions ++ [machine.pointer]) where
  ordered := by
    refine List.pairwise_append.mpr ⟨h.ordered, List.pairwise_singleton _ _, ?_⟩
    intro i hi j hj
    rw [List.mem_singleton.mp hj]
    exact h.reached i hi
  in_text i hi := by
    rcases List.mem_append.mp hi with hi | hi
    · exact h.in_text i hi
    · rw [List.mem_singleton.mp hi]
      exact lt_length_of_current? hc
  reached i hi := by
    rcases List.mem_append.mp hi with hi | hi
    · exact h.reached i hi
    · exact Nat.le_of_eq (List.mem_singleton.mp hi)
  output_eq := by
    have houtput := h.output_eq
    rw [toList_output, written] at houtput
    rw [toList_output, written, List.reverse_cons, List.map_append, List.map_append, houtput,
      List.map_singleton, List.map_singleton, ← hc]
    rfl

end

/-- Every action keeps the output drawn from the text. -/
theorem Drawn.act {machine : Machine} (h : machine.Drawn) (op : Op) : (machine.act op).Drawn := by
  obtain ⟨positions, hdrawn⟩ := h
  cases op with
  | advance => exact ⟨positions, hdrawn.of_pointer rfl rfl (Or.inl (Nat.le_succ _))⟩
  | stop =>
      -- The pointer may have been past the end and come back; no position is past the end.
      exact ⟨positions, hdrawn.of_pointer rfl rfl (Or.inr (Nat.le_refl _))⟩
  | append =>
      rw [Machine.act]
      split
      · next hc => exact ⟨_, hdrawn.append hc⟩
      · exact ⟨positions, hdrawn⟩
  | clear => exact drawn_of_emitted_eq_nil rfl
  | setState state => exact ⟨positions, hdrawn.of_pointer rfl rfl (Or.inl (Nat.le_refl _))⟩

end Machine

variable {σ ρ : Type}

theorem Run.Moves.drawn {observer : Observer ρ} {run next : Run σ ρ} (h : run.Moves observer next)
    (hdrawn : run.machine.Drawn) : next.machine.Drawn := by
  cases h with
  | remembers memory => exact hdrawn
  | notes event => exact hdrawn
  | acts op => exact hdrawn.act op
  | opens text => exact Machine.drawn_of_emitted_eq_nil rfl

theorem Parser.Course.drawn {parser : Parser σ} {observer : Observer ρ} {point next : Point σ ρ}
    (h : parser.Course observer point next) (hdrawn : point.run.machine.Drawn) :
    next.run.machine.Drawn :=
  h.preserves (fun point => point.run.machine.Drawn)
    (fun _ _ hstep hdrawn => (moves_of_step hstep).drawn hdrawn) hdrawn

namespace Instance

/-- A machine that an instance comes to: between two operations, or in the course of a parse. The
parse may raise later or never end. -/
inductive ComesTo (start : Instance σ) : Machine → Prop where
  | between {history : List (Operation σ)} {inst : Instance σ} :
      Reaches history start inst → ComesTo start inst.run.machine
  | within {history : List (Operation σ)} {inst : Instance σ} {text : String}
      {point : Point σ (List Event)} :
      Reaches history start inst →
      inst.parser.Course .full ⟨.opening text, [], inst.run⟩ point →
      ComesTo start point.run.machine

theorem Ends.drawn {inst : Instance σ} {text : String} (result : Except Fault String)
    {ended : Run σ (List Event)} (h : inst.Ends text (.ofResult result ended))
    (hdrawn : inst.run.machine.Drawn) : ended.machine.Drawn :=
  ((Parser.ends_iff_course text inst.run result ended).mp h).drawn hdrawn

theorem Performs.drawn {operation : Operation σ} {inst next : Instance σ}
    (h : Performs operation inst next) (hdrawn : inst.run.machine.Drawn) :
    next.run.machine.Drawn := by
  cases h with
  | returned hends => exact Ends.drawn (.ok _) hends hdrawn
  | raised hends => exact Ends.drawn (.error _) hends hdrawn
  | acted inst op => exact hdrawn.act op
  | regiven inst given => exact hdrawn

theorem Reaches.drawn {history : List (Operation σ)} {inst last : Instance σ}
    (h : Reaches history inst last) (hdrawn : inst.run.machine.Drawn) :
    last.run.machine.Drawn := by
  induction h with
  | nil inst => exact hdrawn
  | cons first _ ih => exact ih (first.drawn hdrawn)

/-- Whatever a new instance comes to, its pointer is not negative and its output is drawn, in
order, from the text it holds then, up to the pointer. -/
theorem output_drawn_from_text {given : Table σ} {limits : Limits} {memory : σ} {machine : Machine}
    (h : (new given limits memory).ComesTo machine) :
    0 ≤ machine.pointer ∧ ∃ positions, machine.DrawnFrom positions := by
  refine ⟨Nat.zero_le _, ?_⟩
  have hnew : (new given limits memory).run.machine.Drawn := Machine.drawn_of_emitted_eq_nil rfl
  cases h with
  | between hreach => exact hreach.drawn hnew
  | within hreach hcourse => exact hcourse.drawn (hreach.drawn hnew)

/-- A table whose one handler emits the current character and never moves on. -/
def stammering : Table Unit where
  entries := [(Machine.initialState, .append)]
  nodup_states := by simp

/-- In a parse that never ends the same character is drawn twice, after a parse that was refused. -/
theorem output_drawn_twice :
    ∃ machine, (new stammering ⟨some 1, by decide⟩ ()).ComesTo machine ∧ machine.output = "aa" ∧
      ∃ positions, machine.DrawnFrom positions := by
  have hreach : ∃ inst, Reaches [.parse "long"] (new stammering ⟨some 1, by decide⟩ ()) inst :=
    ⟨_, .cons (.raised ⟨nofun, 0, rfl⟩) (.nil _)⟩
  obtain ⟨inst, hreach⟩ := hreach
  have hparser : inst.parser = ⟨stammering, ⟨some 1, by decide⟩⟩ := hreach.parser_eq
  have hcourse : ∃ point, inst.parser.Course .full ⟨.opening "a", [], inst.run⟩ point ∧
      point.run.machine.output = "aa" := by
    rw [hparser]
    exact ⟨_, .head rfl <| .head rfl <| .head rfl <| .head rfl <| .head rfl <| .head rfl <|
      .head rfl <| .head rfl .refl, rfl⟩
  obtain ⟨point, hcourse, houtput⟩ := hcourse
  have hcomes := ComesTo.within hreach hcourse
  exact ⟨_, hcomes, houtput, (output_drawn_from_text hcomes).2⟩

end Instance

end CharMachine
