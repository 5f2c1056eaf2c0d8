import CharMachine.Fault
import CharMachine.Machine

/-!
# Handler programs

What a handler does is a value: a tree of actions, looks at the machine, changes of the handler's
own memory, nested parses and faults. A program can depend on everything the machine shows and on
its memory, of type `σ`; it cannot see the table it belongs to or the limits of the parser. Errors
of a nested parse come back as values, so a program may catch them.
-/

namespace CharMachine

/-- A handler's steps, ending in a value of type `α` or in a fault. -/
inductive Program (σ α : Type) where
  | done (value : α)
  | act (op : Op) (next : Program σ α)
  | look (next : Machine → σ → Program σ α)
  | remember (memory : σ) (next : Program σ α)
  /-- Parse another text on the same machine, which starts again for it. -/
  | nested (text : String) (next : Except Fault String → Program σ α)
  | raise (fault : Fault)

namespace Program

variable {σ α β : Type}

/-- Runs one program after another; a fault of the first leaves out the second. -/
protected def bind : Program σ α → (α → Program σ β) → Program σ β
  | done value, f => f value
  | act op next, f => act op (next.bind f)
  | look next, f => look fun machine memory => (next machine memory).bind f
  | remember memory next, f => remember memory (next.bind f)
  | nested text next, f => nested text fun result => (next result).bind f
  | raise fault, _ => raise fault

/-- Gives the rest of the run to `handle` when the program ends in a fault. What was done before
the fault stays done. -/
protected def tryCatch : Program σ α → (Fault → Program σ α) → Program σ α
  | done value, _ => done value
  | act op next, handle => act op (next.tryCatch handle)
  | look next, handle => look fun machine memory => (next machine memory).tryCatch handle
  | remember memory next, handle => remember memory (next.tryCatch handle)
  | nested text next, handle => nested text fun result => (next result).tryCatch handle
  | raise fault, handle => handle fault

instance : Monad (Program σ) where
  pure := done
  bind := Program.bind

instance : MonadExcept Fault (Program σ) where
  throw := raise
  tryCatch := Program.tryCatch

def perform (op : Op) : Program σ Unit := act op (done ())

def advance : Program σ Unit := perform .advance

def stop : Program σ Unit := perform .stop

def append : Program σ Unit := perform .append

def setState (state : Int) : Program σ Unit := perform (.setState state)

def machine : Program σ Machine := look fun machine _ => done machine

def memory : Program σ σ := look fun _ memory => done memory

def setMemory (memory : σ) : Program σ Unit := remember memory (done ())

/-- Parse a text on the same machine and give its output, or fail as that parse fails. -/
def parse (text : String) : Program σ String :=
  nested text fun
    | .ok output => done output
    | .error fault => raise fault

end Program

end CharMachine
