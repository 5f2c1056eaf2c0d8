import CharMachine.Script.Instr

/-!
# The program of a script

Scripts are turned into handler programs. Their memory is a step budget and the notes taken, most
recent first. One step is spent at each call of a scripted handler, before each instruction of a
block and before each test of a loop; a script whose budget is spent raises `Fault.stepLimit`,
which no `attempt` catches.
-/

namespace CharMachine.Script

/-- What scripts remember between steps. -/
structure Memory where
  budget : Nat
  notes : List Note := []
  deriving DecidableEq, Repr

/-- What scripts are told about the parser they belong to. -/
structure Surroundings where
  states : List Int
  maxInputLength : Option Nat
  deriving DecidableEq, Repr

/-- Spends one step of the budget. -/
def tick : Program Memory Unit := do
  let memory ← .memory
  match memory.budget with
  | 0 => .raise .stepLimit
  | budget + 1 => .setMemory { memory with budget := budget }

def record (note : Note) : Program Memory Unit := do
  let memory ← .memory
  .setMemory { memory with notes := note :: memory.notes }

/-- Repeats a body while a test holds, for at most `rounds` tests. Every test spends a step, so a
number of rounds above the budget is never used up. -/
def whileHolds (test : Test) (body : Program Memory Unit) : (rounds : Nat) → Program Memory Unit
  | 0 => .raise .stepLimit
  | rounds + 1 => do
      tick
      let machine ← .machine
      if test.holds machine then
        body
        whileHolds test body rounds

/-- Takes down any fault but the end of the budget. -/
def attempt (body : Program Memory Unit) : Program Memory Unit :=
  body.tryCatch fun
    | .stepLimit => .raise .stepLimit
    | fault => record (.caught fault)

mutual

/-- What an instruction does. -/
def Instr.program (around : Surroundings) : Instr → Program Memory Unit
  | .act op => .perform op
  | .addState delta => do
      let machine ← .machine
      .setState (machine.state + delta)
  | .see => do
      let machine ← .machine
      record (.seen machine.state machine.pointer machine.window)
  | .view => do
      let machine ← .machine
      record (.viewed machine.input.toString machine.output)
  | .spanAt position => do
      let machine ← .machine
      record (.span (machine.spanAt position))
  | .spanNear offset => do
      let machine ← .machine
      record (.span (machine.spanAt (machine.pointer + offset)))
  | .note text => record (.text text)
  | .handlers => record (.handlers around.states)
  | .limit => record (.limit around.maxInputLength)
  | .skip => pure ()
  | .branch test yes no => do
      let machine ← .machine
      if test.holds machine then blockProgram around yes else blockProgram around no
  | .repeatWhile test body => do
      let memory ← .memory
      whileHolds test (blockProgram around body) (memory.budget + 1)
  | .parse text => do
      let output ← .parse text
      record (.parsed output)
  | .attempt body => attempt (blockProgram around body)
  | .quoted name =>
      match Quoted.State.catalogue.byName name with
      | .ok state => Quoted.handler state
      | .error error => .raise (.handler (.catalogue error))
  | .complain complaint => do
      let machine ← .machine
      .raise (complaint.fault machine)

/-- What a block does: its instructions in order, a step spent before each. -/
def blockProgram (around : Surroundings) : List Instr → Program Memory Unit
  | [] => pure ()
  | instr :: rest => do
      tick
      instr.program around
      blockProgram around rest

end

/-- A scripted handler: a step for the call, then the block. -/
def handler (around : Surroundings) (script : List Instr) : Program Memory Unit := do
  tick
  blockProgram around script

end CharMachine.Script
