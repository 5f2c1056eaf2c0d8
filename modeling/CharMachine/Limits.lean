/-!
# Input limits

The longest text a parser takes, or no limit at all. A limit is at least one, by construction.
-/

namespace CharMachine

/-- The longest text that is taken, in characters; `none` takes every text. -/
structure Limits where
  maxInputLength : Option Nat
  positive : ∀ limit ∈ maxInputLength, 1 ≤ limit
  deriving DecidableEq, Repr

/-- A limit below one was asked for. -/
structure LimitsError where
  requested : Int
  deriving DecidableEq, Repr

def LimitsError.message (error : LimitsError) : String :=
  "max_input_length must be positive or None, got " ++ toString error.requested

namespace Limits

/-- The limit of a parser that was given none. -/
def standardMax : Nat := 10000000

def standard : Limits := ⟨some standardMax, by simp [standardMax]⟩

def unlimited : Limits := ⟨none, by simp⟩

def ofMax? : Option Int → Except LimitsError Limits
  | none => .ok unlimited
  | some requested =>
      if h : requested < 1 then .error ⟨requested⟩
      else .ok ⟨some requested.toNat, by simp; omega⟩

/-- The limit that a text of this many characters exceeds, if it exceeds one. -/
def exceeded? (limits : Limits) (length : Nat) : Option Nat :=
  limits.maxInputLength.filter (· < length)

/-- A text of this many characters is within the limit. -/
def Admits (limits : Limits) (length : Nat) : Prop := ∀ limit ∈ limits.maxInputLength, length ≤ limit

instance (limits : Limits) (length : Nat) : Decidable (limits.Admits length) :=
  inferInstanceAs (Decidable (∀ limit ∈ limits.maxInputLength, length ≤ limit))

theorem Admits.of_le {limits : Limits} {m n : Nat} (h : limits.Admits n) (hmn : m ≤ n) :
    limits.Admits m :=
  fun limit hlimit => Nat.le_trans hmn (h limit hlimit)

theorem exceeded?_eq_none_iff (limits : Limits) (length : Nat) :
    limits.exceeded? length = none ↔ limits.Admits length := by
  simp [exceeded?, Admits, Option.filter_eq_none_iff]

theorem exceeded?_eq_some_iff (limits : Limits) (length limit : Nat) :
    limits.exceeded? length = some limit ↔
      limits.maxInputLength = some limit ∧ limit < length := by
  simp [exceeded?, Option.filter_eq_some_iff]

end Limits

instance : Inhabited Limits := ⟨Limits.standard⟩

end CharMachine
