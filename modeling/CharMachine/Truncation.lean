import CharMachine.Parser

/-!
# Truncation

The table that emits the characters of a text up to a quota and passes over the rest. The quota
and the count of characters seen are the handlers' memory. A quota is checked when a truncation is
set up, but may be set to any integer afterwards; the count starts again with every parse.
-/

namespace CharMachine.Truncation

/-- How many characters may be emitted, and how many have been seen. -/
structure Quota where
  limit : Int
  count : Int := 0
  deriving DecidableEq, Repr

def Quota.reset (quota : Quota) : Quota := { quota with count := 0 }

/-- A negative limit was asked for. -/
structure QuotaError where
  requested : Int
  deriving DecidableEq, Repr

def QuotaError.message (error : QuotaError) : String :=
  "limit must be >= 0, got " ++ toString error.requested

/-- The limit of a truncation that was given none. -/
def defaultLimit : Int := 10

def Quota.ofLimit (limit : Int) : Except QuotaError Quota :=
  if limit < 0 then .error ⟨limit⟩ else .ok { limit := limit }

/-- The state in which characters are counted. -/
def inValue : Int := 1

def atStart : Program Quota Unit := .setState inValue

/-- Counts the current character and emits it if the count is within the limit. -/
def atValue : Program Quota Unit := do
  let quota ← .memory
  let count := quota.count + 1
  .setMemory { quota with count := count }
  if count ≤ quota.limit then .append
  .advance

def table : Table Quota where
  entries := [(Machine.initialState, atStart), (inValue, atValue)]
  nodup_states := by simp only [List.map_cons, List.map_nil]; decide

def parser (limits : Limits) : Parser Quota where
  table := table
  limits := limits

/-- Truncates one text. One call more than there are characters is enough. -/
def parse {ρ : Type} (observer : Observer ρ) (limits : Limits) (text : String)
    (run : Run Quota ρ) : Outcome Quota ρ String :=
  (parser limits).parse observer (text.length + 1) text
    { run with memory := run.memory.reset }

end CharMachine.Truncation
