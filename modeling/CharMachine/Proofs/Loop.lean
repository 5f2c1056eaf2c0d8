import CharMachine.Parser

/-!
# The loop, call by call

Equations that open a parse and its loop one call at a time, so that no later proof unfolds them.
The bound on calls only cuts runs off: what a bounded run has ended in, every larger bound ends in
too. `Parser.Ends` is the parse without a bound, and it has one outcome at most.
-/

namespace CharMachine

variable {σ ρ α β : Type}

namespace Outcome

/-- Goes on with `next` where the outcome is a return; faults and exhaustion pass through. -/
def andThen (outcome : Outcome σ ρ α) (next : α → Run σ ρ → Outcome σ ρ β) : Outcome σ ρ β :=
  match outcome with
  | returned value run => next value run
  | raised fault run => .raised fault run
  | exhausted => .exhausted

@[simp] theorem andThen_returned (value : α) (run : Run σ ρ)
    (next : α → Run σ ρ → Outcome σ ρ β) : (returned value run).andThen next = next value run := rfl

@[simp] theorem andThen_raised (fault : Fault) (run : Run σ ρ)
    (next : α → Run σ ρ → Outcome σ ρ β) :
    (raised fault run : Outcome σ ρ α).andThen next = .raised fault run := rfl

/-- A larger bound may give `more` where a smaller one gave `less`. -/
def Grows (less more : Outcome σ ρ α) : Prop := less ≠ .exhausted → more = less

theorem grows_refl (outcome : Outcome σ ρ α) : Grows outcome outcome := fun _ => rfl

theorem grows_exhausted (more : Outcome σ ρ α) : Grows .exhausted more := fun h => absurd rfl h

theorem Grows.andThen {less more : Outcome σ ρ α} {next next' : α → Run σ ρ → Outcome σ ρ β}
    (h : Grows less more) (hnext : ∀ value run, Grows (next value run) (next' value run)) :
    Grows (less.andThen next) (more.andThen next') := by
  cases less with
  | returned value run =>
      rw [h (by simp)]
      exact hnext value run
  | raised fault run =>
      rw [h (by simp)]
      exact grows_refl _
  | exhausted => exact grows_exhausted _

end Outcome

namespace Program

section Steps

variable (observer : Observer ρ) (inner : String → Run σ ρ → Outcome σ ρ String) (run : Run σ ρ)

/-- A program in sequence with another runs as far as it gets and hands over what it returns. -/
@[simp] theorem run_bind (program : Program σ α) (next : α → Program σ β) :
    (program >>= next).run observer inner run =
      (program.run observer inner run).andThen fun value run' =>
        (next value).run observer inner run' := by
  change (program.bind next).run observer inner run = _
  induction program generalizing run with
  | done value => rfl
  | act op rest ih => exact ih (run.act observer op)
  | look rest ih => exact ih run.machine run.memory run
  | remember memory rest ih => exact ih { run with memory := memory }
  | nested text rest ih =>
      simp only [Program.bind, Program.run]
      cases inner text run with
      | returned output run' => exact ih (.ok output) run'
      | raised fault run' => exact ih (.error fault) run'
      | exhausted => rfl
  | raise fault => rfl

@[simp] theorem run_pure (value : α) :
    (pure value : Program σ α).run observer inner run = .returned value run := rfl

@[simp] theorem run_machine :
    (machine : Program σ Machine).run observer inner run = .returned run.machine run := rfl

@[simp] theorem run_memory :
    (memory : Program σ σ).run observer inner run = .returned run.memory run := rfl

@[simp] theorem run_setMemory (memory : σ) :
    (setMemory memory : Program σ Unit).run observer inner run =
      .returned () { run with memory := memory } :=
  rfl

@[simp] theorem run_advance :
    (advance : Program σ Unit).run observer inner run = .returned () (run.act observer .advance) :=
  rfl

@[simp] theorem run_append :
    (append : Program σ Unit).run observer inner run = .returned () (run.act observer .append) :=
  rfl

@[simp] theorem run_setState (state : Int) :
    (setState state : Program σ Unit).run observer inner run =
      .returned () (run.act observer (.setState state)) :=
  rfl

end Steps

/-- A program whose nested parses get a larger bound. -/
theorem run_grows (observer : Observer ρ) {inner inner' : String → Run σ ρ → Outcome σ ρ String}
    (hinner : ∀ text run, Outcome.Grows (inner text run) (inner' text run))
    (program : Program σ α) (run : Run σ ρ) :
    Outcome.Grows (program.run observer inner run) (program.run observer inner' run) := by
  induction program generalizing run with
  | done value => exact Outcome.grows_refl _
  | act op next ih => exact ih (run.act observer op)
  | look next ih => exact ih run.machine run.memory run
  | remember memory next ih => exact ih { run with memory := memory }
  | nested text next ih =>
      have hi := hinner text run
      rw [Program.run, Program.run]
      cases ho : inner text run with
      | returned output run' =>
          rw [ho] at hi
          rw [hi (by simp)]
          exact ih (.ok output) run'
      | raised fault run' =>
          rw [ho] at hi
          rw [hi (by simp)]
          exact ih (.error fault) run'
      | exhausted => exact Outcome.grows_exhausted _
  | raise fault => exact Outcome.grows_refl _

end Program

namespace Parser

section Equations

variable (parser : Parser σ) (observer : Observer ρ)

/-- Where the loop of a parse begins. -/
def begin (text : String) (run : Run σ ρ) : Run σ ρ :=
  ((run.openText observer .empty).openText observer (.ofString text)).log observer
    (.started text.length parser.table.size)

/-- How a parse whose loop has ended returns. -/
def finish (ended : Run σ ρ) : Outcome σ ρ String :=
  .returned ended.machine.output
    (ended.log observer (.finished ended.machine.state ended.machine.emitted.length))

theorem loop_of_length_le {steps length : Nat} (run : Run σ ρ)
    (hp : length ≤ run.machine.pointer) :
    parser.loop observer steps length run = .returned () run := by
  cases steps <;> rw [loop, if_neg (Nat.not_lt.mpr hp)]

theorem loop_zero {length : Nat} (run : Run σ ρ) (hp : run.machine.pointer < length) :
    parser.loop observer 0 length run = .exhausted := by
  rw [loop, if_pos hp]

theorem loop_unhandled {steps length : Nat} (run : Run σ ρ) (hp : run.machine.pointer < length)
    (hf : parser.table.find? run.machine.state = none) :
    parser.loop observer (steps + 1) length run =
      .raised (.parse (.unknownState run.machine.state))
        (run.log observer (.unhandled run.machine.state run.machine.pointer)) := by
  rw [loop, if_pos hp, hf]

theorem loop_call {steps length : Nat} (run : Run σ ρ) {handler : Program σ Unit}
    (hp : run.machine.pointer < length)
    (hf : parser.table.find? run.machine.state = some handler) :
    parser.loop observer (steps + 1) length run =
      (handler.run observer (parser.parse observer steps)
        (run.note observer (.called run.machine))).andThen
        fun _ next => parser.loop observer steps length next := by
  simp only [loop, if_pos hp, hf, parse]
  cases handler.run observer (parser.parseWith observer (parser.loop observer steps))
    (run.note observer (.called run.machine)) <;> rfl

theorem parseWith_rejected {loop : Nat → Run σ ρ → Outcome σ ρ Unit} {text : String}
    {limit : Nat} (hl : parser.limits.exceeded? text.length = some limit) (run : Run σ ρ) :
    parser.parseWith observer loop text run =
      .raised (.parse (.inputTooLarge text.length limit))
        ((run.openText observer .empty).log observer (.rejected text.length limit)) := by
  simp only [parseWith, hl]

theorem parseWith_admitted {loop : Nat → Run σ ρ → Outcome σ ρ Unit} {text : String}
    (hl : parser.limits.Admits text.length) (run : Run σ ρ) :
    parser.parseWith observer loop text run =
      (loop text.length (parser.begin observer text run)).andThen
        fun _ ended => finish observer ended := by
  simp only [parseWith, (parser.limits.exceeded?_eq_none_iff text.length).mpr hl, begin]
  cases loop text.length _ <;> rfl

end Equations

section Leads

/-- After `calls` calls the loop stands at `next`, whatever bound is left for what follows. -/
def Leads (parser : Parser σ) (observer : Observer ρ) (length calls : Nat)
    (run next : Run σ ρ) : Prop :=
  ∀ steps, parser.loop observer (calls + steps) length run = parser.loop observer steps length next

variable {parser : Parser σ} {observer : Observer ρ} {length : Nat} {run next last : Run σ ρ}

theorem Leads.refl (run : Run σ ρ) : parser.Leads observer length 0 run run := by
  intro steps
  rw [Nat.zero_add]

theorem Leads.trans {m n : Nat} (h : parser.Leads observer length m run next)
    (h' : parser.Leads observer length n next last) :
    parser.Leads observer length (m + n) run last := by
  intro steps
  rw [Nat.add_assoc, h, h']

/-- A call leads on when its handler returns, whatever its nested parses would be. -/
theorem leads_call {handler : Program σ Unit} (hp : run.machine.pointer < length)
    (hf : parser.table.find? run.machine.state = some handler)
    (hr : ∀ inner, handler.run observer inner (run.note observer (.called run.machine)) =
      .returned () next) :
    parser.Leads observer length 1 run next := by
  intro steps
  rw [Nat.add_comm, parser.loop_call observer run hp hf, hr]
  rfl

/-- Where calls have led to, the bound that is left decides. -/
theorem Leads.loop_eq {calls steps : Nat} (h : parser.Leads observer length calls run next)
    (hs : calls ≤ steps) :
    parser.loop observer steps length run = parser.loop observer (steps - calls) length next := by
  have hsum : steps = calls + (steps - calls) := by omega
  rw [hsum, h, Nat.add_sub_cancel_left]

end Leads

variable (parser : Parser σ) (observer : Observer ρ)

theorem parseWith_grows {loop loop' : Nat → Run σ ρ → Outcome σ ρ Unit}
    (hloop : ∀ length run, Outcome.Grows (loop length run) (loop' length run))
    (text : String) (run : Run σ ρ) :
    Outcome.Grows (parser.parseWith observer loop text run)
      (parser.parseWith observer loop' text run) := by
  cases hl : parser.limits.exceeded? text.length with
  | some limit =>
      rw [parser.parseWith_rejected observer hl, parser.parseWith_rejected observer hl]
      exact Outcome.grows_refl _
  | none =>
      have hl' := (parser.limits.exceeded?_eq_none_iff text.length).mp hl
      rw [parser.parseWith_admitted observer hl', parser.parseWith_admitted observer hl']
      exact (hloop _ _).andThen fun _ _ => Outcome.grows_refl _

theorem loop_grows {steps steps' : Nat} (hs : steps ≤ steps') (length : Nat) (run : Run σ ρ) :
    Outcome.Grows (parser.loop observer steps length run)
      (parser.loop observer steps' length run) := by
  induction steps generalizing steps' length run with
  | zero =>
      rcases Nat.lt_or_ge run.machine.pointer length with hp | hp
      · rw [parser.loop_zero observer run hp]
        exact Outcome.grows_exhausted _
      · rw [parser.loop_of_length_le observer run hp, parser.loop_of_length_le observer run hp]
        exact Outcome.grows_refl _
  | succ steps ih =>
      obtain ⟨more, rfl⟩ : ∃ more, steps' = more + 1 := ⟨steps' - 1, by omega⟩
      have hm : steps ≤ more := Nat.le_of_succ_le_succ hs
      rcases Nat.lt_or_ge run.machine.pointer length with hp | hp
      · cases hh : parser.table.find? run.machine.state with
        | none =>
            rw [parser.loop_unhandled observer run hp hh, parser.loop_unhandled observer run hp hh]
            exact Outcome.grows_refl _
        | some handler =>
            -- The nested parses of the handler and the calls after it share the bound.
            have hcall := handler.run_grows observer (parser.parseWith_grows observer (ih hm))
              (run.note observer (.called run.machine))
            rw [parser.loop_call observer run hp hh, parser.loop_call observer run hp hh]
            exact hcall.andThen fun _ next => ih hm length next
      · rw [parser.loop_of_length_le observer run hp, parser.loop_of_length_le observer run hp]
        exact Outcome.grows_refl _

theorem parse_grows {steps steps' : Nat} (hs : steps ≤ steps') (text : String) (run : Run σ ρ) :
    Outcome.Grows (parser.parse observer steps text run)
      (parser.parse observer steps' text run) :=
  parser.parseWith_grows observer (parser.loop_grows observer hs) text run

/-- The parse, with no bound on its calls, ends in this outcome. -/
def Ends (text : String) (run : Run σ ρ) (outcome : Outcome σ ρ String) : Prop :=
  outcome ≠ .exhausted ∧ ∃ steps, parser.parse observer steps text run = outcome

theorem Ends.unique {parser : Parser σ} {observer : Observer ρ} {text : String} {run : Run σ ρ}
    {first second : Outcome σ ρ String} (h : parser.Ends observer text run first)
    (h' : parser.Ends observer text run second) : first = second := by
  obtain ⟨hne, m, rfl⟩ := h
  obtain ⟨hne', n, rfl⟩ := h'
  rcases Nat.le_total m n with hmn | hnm
  · exact (parser.parse_grows observer hmn text run hne).symm
  · exact parser.parse_grows observer hnm text run hne'

end Parser

end CharMachine
