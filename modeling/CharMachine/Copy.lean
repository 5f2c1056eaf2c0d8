import CharMachine.Parser

/-!
# Copying

The table that emits its text unchanged: the first call leaves the initial state, and every later
call emits one character and moves on.
-/

namespace CharMachine.Copy

/-- The state in which characters are emitted. -/
def inValue : Int := 1

variable {σ : Type}

def atStart : Program σ Unit := .setState inValue

def atValue : Program σ Unit := do
  .append
  .advance

def table : Table σ where
  entries := [(Machine.initialState, atStart), (inValue, atValue)]
  nodup_states := by simp only [List.map_cons, List.map_nil]; decide

def parser (limits : Limits) : Parser Unit where
  table := table
  limits := limits

/-- Copies one text. One call more than there are characters is enough. -/
def parse {ρ : Type} (observer : Observer ρ) (limits : Limits) (text : String)
    (run : Run Unit ρ) : Outcome Unit ρ String :=
  (parser limits).parse observer (text.length + 1) text run

end CharMachine.Copy
