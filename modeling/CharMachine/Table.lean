import CharMachine.Program

/-!
# Handler tables

A table gives each of finitely many states its handler. The states keep the order in which they
were first inserted and none occurs twice; inserting a state again replaces its handler in place.
-/

namespace CharMachine

/-- States with their handlers, in order of first insertion. -/
structure Table (σ : Type) where
  entries : List (Int × Program σ Unit)
  nodup_states : (entries.map Prod.fst).Nodup

namespace Table

variable {σ : Type}

def empty : Table σ := ⟨[], .nil⟩

def states (table : Table σ) : List Int := table.entries.map Prod.fst

def size (table : Table σ) : Nat := table.entries.length

def find? (table : Table σ) (state : Int) : Option (Program σ Unit) := table.entries.lookup state

theorem find?_eq_none_iff (table : Table σ) (state : Int) :
    table.find? state = none ↔ state ∉ table.states := by
  rw [find?, List.lookup_eq_none_iff, states, List.mem_map]
  constructor
  · intro h hmem
    obtain ⟨entry, hentry, rfl⟩ := hmem
    have hne := h entry hentry
    simp at hne
  · intro h entry hentry
    have hne : state ≠ entry.1 := fun e => h ⟨entry, hentry, e.symm⟩
    simpa using hne

/-- Replaces the entry of a state, or adds one at the end. -/
def insertEntry (state : Int) (handler : Program σ Unit) :
    List (Int × Program σ Unit) → List (Int × Program σ Unit)
  | [] => [(state, handler)]
  | entry :: rest =>
      if entry.1 = state then (state, handler) :: rest
      else entry :: insertEntry state handler rest

theorem states_insertEntry (state : Int) (handler : Program σ Unit)
    (entries : List (Int × Program σ Unit)) :
    (insertEntry state handler entries).map Prod.fst =
      if state ∈ entries.map Prod.fst then entries.map Prod.fst
      else entries.map Prod.fst ++ [state] := by
  induction entries with
  | nil => simp [insertEntry]
  | cons entry rest ih =>
      by_cases h : entry.1 = state
      · simp [insertEntry, h]
      · have h' : state ≠ entry.1 := fun e => h e.symm
        simp only [insertEntry, h, ↓reduceIte, List.map_cons, ih, List.mem_cons, h', false_or]
        split <;> simp

theorem nodup_insertEntry (state : Int) (handler : Program σ Unit)
    (entries : List (Int × Program σ Unit)) (h : (entries.map Prod.fst).Nodup) :
    ((insertEntry state handler entries).map Prod.fst).Nodup := by
  rw [states_insertEntry]
  split
  · exact h
  · next hmem =>
    refine List.nodup_append.mpr ⟨h, by simp, ?_⟩
    intro a ha b hb hab
    obtain rfl := List.mem_singleton.mp hb
    exact hmem (hab ▸ ha)

def insert (table : Table σ) (state : Int) (handler : Program σ Unit) : Table σ where
  entries := insertEntry state handler table.entries
  nodup_states := nodup_insertEntry state handler table.entries table.nodup_states

/-- The table that results from inserting the entries from left to right. -/
def ofList (entries : List (Int × Program σ Unit)) : Table σ :=
  entries.foldl (fun table entry => table.insert entry.1 entry.2) empty

end Table

end CharMachine
