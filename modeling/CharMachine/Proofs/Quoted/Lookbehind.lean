import CharMachine.Proofs.Journal
import CharMachine.Proofs.Quoted.Acceptance
import CharMachine.Proofs.Result

/-!
# Looking back instead of remembering

A reader that takes one character at a time has to remember that the last one was an escape mark.
The table has no state for that. It looks back at the raw text, where a character does not tell how
it was read.

Main statement: whenever a handler is called, its state tells what has been read and what has been
made of it. Inside the string a mark stands right behind the pointer exactly if a reader that
remembers would be between the two characters of an escape, and the two have the same output. The
invariant is the list of all sites at which a handler can be called: each call leads from one site
to another, or raises.
-/

namespace CharMachine

@[simp] theorem Run.act_calls {σ : Type} (machine : Machine) (memory : σ)
    (machines : List Machine) (op : Op) :
    (Run.mk machine memory machines).act Observer.calls op =
      ⟨machine.act op, memory, machines⟩ := rfl

namespace Quoted

/-! ## A reader that remembers -/

/-- How far into a quoted string a reader has come. -/
inductive Phase where
  | outside
  | inside
  /-- The last character was an escape mark. -/
  | escaped
  /-- The string is over, and what follows it is not read. -/
  | closed
  /-- There was no opening quote, or a mark that escapes nothing. -/
  | refused
  deriving DecidableEq, Repr

/-- What a reader knows that has no way to look at a character again. -/
structure Reader where
  phase : Phase
  written : List Char
  deriving DecidableEq, Repr

namespace Reader

def fresh : Reader := ⟨.outside, []⟩

def read (reader : Reader) (c : Char) : Reader :=
  match reader.phase with
  | .outside => { reader with phase := if c = delimiter then .inside else .refused }
  | .inside =>
      if c = delimiter then { reader with phase := .closed }
      else if c = escapeMark then { reader with phase := .escaped }
      else { reader with written := reader.written ++ [c] }
  | .escaped =>
      if c = delimiter then ⟨.inside, reader.written ++ [c]⟩
      else { reader with phase := .refused }
  | .closed | .refused => reader

/-- The reader after these characters. -/
def after (chars : List Char) : Reader := chars.foldl read fresh

/-- A body is read from its first character to its last without leaving the string. -/
theorem foldl_read_body {body : List Char} (hb : IsBody body) (written : List Char) :
    body.foldl read ⟨.inside, written⟩ = ⟨.inside, written ++ decode body⟩ := by
  induction hb generalizing written with
  | nil => rw [decode, List.append_nil, List.foldl_nil]
  | @plain c rest hc _ ih =>
      have hread : read ⟨.inside, written⟩ c = ⟨.inside, written ++ [c]⟩ := by
        simp [read, hc.1, hc.2]
      rw [List.foldl_cons, hread, ih, decode_plain hc, List.append_assoc, List.singleton_append]
  | @quote rest _ ih =>
      have hread : read (read ⟨.inside, written⟩ escapeMark) delimiter =
          ⟨.inside, written ++ [delimiter]⟩ := rfl
      rw [List.foldl_cons, List.foldl_cons, hread, ih, decode_quote, List.append_assoc,
        List.singleton_append]

theorem after_opened {body : List Char} (hb : IsBody body) (rest : List Char) :
    after (delimiter :: (body ++ rest)) = rest.foldl read ⟨.inside, decode body⟩ := by
  have hopen : read fresh delimiter = ⟨.inside, []⟩ := rfl
  rw [after, List.foldl_cons, hopen, List.foldl_append, foldl_read_body hb, List.nil_append]

theorem after_body {body : List Char} (hb : IsBody body) :
    after (delimiter :: body) = ⟨.inside, decode body⟩ := by
  have hrest := after_opened hb []
  rwa [List.append_nil] at hrest

end Reader

/-! ## What each state tells -/

/-- The string has been opened. -/
structure HasOpened (machine : Machine) : Prop where
  one_le : 1 ≤ machine.pointer
  first_eq : machine.input.get? 0 = some delimiter

/-- All that was read of the string is a body, and it has been decoded. -/
structure BetweenTokens (machine : Machine) : Prop where
  isBody : IsBody machine.passed.tail
  unmarked : machine.previous? ≠ some escapeMark
  written_eq : machine.written = decode machine.passed.tail

/-- The pointer is on the quote of an escape whose mark was read after this body. -/
structure WithinEscape (machine : Machine) (body : List Char) : Prop where
  isBody : IsBody body
  passed_eq : machine.passed.tail = body ++ [escapeMark]
  quote : machine.current? = some delimiter
  written_eq : machine.written = decode body

/-- A quote after this body has closed the string, and these characters were passed since. -/
structure HasClosed (machine : Machine) (body since : List Char) : Prop where
  isBody : IsBody body
  passed_eq : machine.passed.tail = body ++ delimiter :: since
  written_eq : machine.written = decode body

namespace State

/-- What holds of a machine whenever the handler of this state is called on it. -/
def Invariant (machine : Machine) : State → Prop
  | unknown => machine.pointer = 0 ∧ machine.written = []
  | entering =>
      machine.pointer = 0 ∧ machine.written = [] ∧ machine.input.get? 0 = some delimiter
  | inside =>
      HasOpened machine ∧ (BetweenTokens machine ∨ ∃ body, WithinEscape machine body)
  | left => HasOpened machine ∧ ∃ body, HasClosed machine body []
  | invalidLeading => machine.pointer = 0 ∧ machine.input.get? 0 ≠ some delimiter
  | invalidEscape =>
      HasOpened machine ∧ BetweenTokens machine ∧ machine.current? = some escapeMark ∧
        machine.next? ≠ some delimiter
  | invalidTrailing =>
      HasOpened machine ∧
        ((∃ body, HasClosed machine body [] ∧ machine.pointer + 1 = machine.input.length) ∨
          ∃ body c, HasClosed machine body [c])

/-- The phase in which a reader that remembers is at a call in this state, if the call looks back
and sees this. -/
def phase (previous? : Option Char) : State → Phase
  | unknown | entering | invalidLeading => .outside
  | inside => if previous? = some escapeMark then .escaped else .inside
  | left | invalidTrailing => .closed
  | invalidEscape => .inside

theorem phase_eq_escaped_iff (previous? : Option Char) (state : State) :
    state.phase previous? = .escaped ↔ state = .inside ∧ previous? = some escapeMark := by
  by_cases hp : previous? = some escapeMark <;> cases state <;> simp [phase, hp]

end State

/-! ## The sites of calls -/

/-- The machines on which the handler of a state is called, each between what has been passed of
its text and what is ahead. -/
inductive Site : State → Machine → Prop where
  | start (ahead : List Char) : Site .unknown (.between [] ahead State.unknown.value [])
  | opening (ahead : List Char) :
      Site .entering (.between [] (delimiter :: ahead) State.entering.value [])
  | misled {c : Char} (stray : c ≠ delimiter) (ahead : List Char) :
      Site .invalidLeading (.between [] (c :: ahead) State.invalidLeading.value [])
  | token {body : List Char} (hb : IsBody body) (ahead : List Char) :
      Site .inside
        (.between (delimiter :: body) ahead State.inside.value (decode body).reverse)
  | escape {body : List Char} (hb : IsBody body) (ahead : List Char) :
      Site .inside
        (.between (delimiter :: (body ++ [escapeMark])) (delimiter :: ahead) State.inside.value
          (decode body).reverse)
  | loneMark {body ahead : List Char} (hb : IsBody body) (lone : ahead.head? ≠ some delimiter) :
      Site .invalidEscape
        (.between (delimiter :: body) (escapeMark :: ahead) State.invalidEscape.value
          (decode body).reverse)
  | closed {body : List Char} (hb : IsBody body) (ahead : List Char) :
      Site .left
        (.between (delimiter :: (body ++ [delimiter])) ahead State.left.value
          (decode body).reverse)
  | trailingLast {body : List Char} (hb : IsBody body) (c : Char) :
      Site .invalidTrailing
        (.between (delimiter :: (body ++ [delimiter])) [c] State.invalidTrailing.value
          (decode body).reverse)
  | trailing {body : List Char} (hb : IsBody body) (c : Char) (ahead : List Char) :
      Site .invalidTrailing
        (.between (delimiter :: (body ++ [delimiter, c])) ahead State.invalidTrailing.value
          (decode body).reverse)

section Readings

variable {state : State} {machine : Machine} {body : List Char}

theorem Site.state_eq (h : Site state machine) : machine.state = state.value := by
  cases h <;> rfl

theorem hasOpened_between (passed ahead : List Char) (state : Int) (emitted : List Char) :
    HasOpened (.between (delimiter :: passed) ahead state emitted) where
  one_le := Nat.le_add_left 1 passed.length
  first_eq := Machine.first?_between _ _ _ _

/-- Where a body ends, a look back shows no mark. -/
theorem getLast?_opened_ne (hb : IsBody body) :
    (delimiter :: body).getLast? ≠ some escapeMark := by
  have hone : [delimiter].getLast? ≠ some escapeMark := by decide
  exact getLast?_append_ne hb hone

theorem getLast?_opened_mark (body : List Char) :
    (delimiter :: (body ++ [escapeMark])).getLast? = some escapeMark := by
  rw [← List.cons_append, List.getLast?_concat]

theorem betweenTokens_between (hb : IsBody body) (ahead : List Char) (state : Int) :
    BetweenTokens (.between (delimiter :: body) ahead state (decode body).reverse) where
  isBody := by rwa [Machine.passed_between]
  unmarked := by
    rw [Machine.previous?_between]
    exact getLast?_opened_ne hb
  written_eq := by rw [Machine.passed_between, Machine.written_between, List.tail_cons]

theorem hasClosed_between (hb : IsBody body) (since ahead : List Char) (state : Int) :
    HasClosed
      (.between (delimiter :: (body ++ delimiter :: since)) ahead state (decode body).reverse)
      body since where
  isBody := hb
  passed_eq := by rw [Machine.passed_between, List.tail_cons]
  written_eq := Machine.written_between _ _ _ _

theorem Site.invariant (h : Site state machine) : state.Invariant machine := by
  cases h with
  | start ahead => exact ⟨rfl, rfl⟩
  | opening ahead => exact ⟨rfl, rfl, Machine.first?_between _ _ _ _⟩
  | misled stray ahead =>
      refine ⟨rfl, ?_⟩
      rw [Machine.first?_between]
      exact fun e => stray (Option.some.inj e)
  | token hb ahead =>
      exact ⟨hasOpened_between _ _ _ _, Or.inl (betweenTokens_between hb ahead _)⟩
  | @escape body hb ahead =>
      refine ⟨hasOpened_between _ _ _ _, Or.inr ⟨body, hb, ?_, ?_, ?_⟩⟩
      · rw [Machine.passed_between, List.tail_cons]
      · exact Machine.current?_between _ _ _ _
      · exact Machine.written_between _ _ _ _
  | loneMark hb lone =>
      refine ⟨hasOpened_between _ _ _ _, betweenTokens_between hb _ _, ?_, ?_⟩
      · exact Machine.current?_between _ _ _ _
      · rwa [Machine.next?_between]
  | closed hb ahead => exact ⟨hasOpened_between _ _ _ _, _, hasClosed_between hb [] ahead _⟩
  | trailingLast hb c =>
      refine ⟨hasOpened_between _ _ _ _, Or.inl ⟨_, hasClosed_between hb [] [c] _, ?_⟩⟩
      rw [Machine.pointer_between, Machine.length_input_between, List.length_singleton]
  | trailing hb c ahead =>
      exact ⟨hasOpened_between _ _ _ _, Or.inr ⟨_, c, hasClosed_between hb [c] ahead _⟩⟩

/-- The state and the character behind the pointer make up for what a reader remembers. -/
theorem Site.after_passed (h : Site state machine) :
    Reader.after machine.passed = ⟨state.phase machine.previous?, machine.written⟩ := by
  cases h with
  | start ahead => rfl
  | opening ahead => rfl
  | misled stray ahead => rfl
  | token hb ahead =>
      rw [State.phase, Machine.previous?_between, if_neg (getLast?_opened_ne hb),
        Machine.passed_between, Machine.written_between]
      exact Reader.after_body hb
  | escape hb ahead =>
      rw [State.phase, Machine.previous?_between, if_pos (getLast?_opened_mark _),
        Machine.passed_between, Machine.written_between]
      exact Reader.after_opened hb [escapeMark]
  | loneMark hb lone =>
      rw [Machine.passed_between, Machine.written_between]
      exact Reader.after_body hb
  | closed hb ahead =>
      rw [Machine.passed_between, Machine.written_between]
      exact Reader.after_opened hb [delimiter]
  | trailingLast hb c =>
      rw [Machine.passed_between, Machine.written_between]
      exact Reader.after_opened hb [delimiter]
  | trailing hb c ahead =>
      rw [Machine.passed_between, Machine.written_between]
      exact Reader.after_opened hb [delimiter, c]

end Readings

/-! ## From call to call -/

/-- A call at a site comes to another site of the same text, or raises. -/
inductive Proceeds (state : State) (machine : Machine) : Prop where
  | returned {state' : State} {next : Machine} (site : Site state' next)
      (input_eq : next.input = machine.input)
      (run_eq : ∀ inner journal, (handler state).run .calls inner ⟨machine, (), journal⟩ =
        .returned () ⟨next, (), journal⟩)
  | raised
      (run_eq : ∀ inner journal, ∃ fault,
        (handler state).run .calls inner ⟨machine, (), journal⟩ =
          .raised fault ⟨machine, (), journal⟩)

section Calls

variable {state : State} {machine : Machine} {body : List Char}

theorem proceeds_start (c : Char) (ahead : List Char) :
    Proceeds .unknown (.between [] (c :: ahead) State.unknown.value []) := by
  by_cases hc : c = delimiter
  · subst hc
    refine .returned (.opening ahead) rfl ?_
    intro inner journal
    simp [handler, atStart, enter]
  · refine .returned (.misled hc ahead) rfl ?_
    intro inner journal
    simp [handler, atStart, enter, hc]

/-- Between two tokens the next character decides, with the one after it if it is a mark. No mark
stands behind the pointer, so a quote is not an escaped one. -/
theorem proceeds_token (hb : IsBody body) (c : Char) (ahead : List Char) :
    Proceeds .inside
      (.between (delimiter :: body) (c :: ahead) State.inside.value (decode body).reverse) := by
  have hprevious := getLast?_opened_ne hb
  by_cases hd : c = delimiter
  · subst hd
    refine .returned (.closed hb ahead) (by simp [Machine.between]) ?_
    intro inner journal
    simp [handler, atInside, enter, hprevious]
  by_cases he : c = escapeMark
  · subst he
    by_cases hq : ahead.head? = some delimiter
    · obtain ⟨rest, rfl⟩ := List.head?_eq_some_iff.mp hq
      refine .returned (.escape hb rest) (by simp [Machine.between]) ?_
      intro inner journal
      simp [handler, atInside, hd]
    · refine .returned (.loneMark hb hq) rfl ?_
      intro inner journal
      simp [handler, atInside, enter, hd, hq]
  · have hc : IsBody [c] := .plain ⟨hd, he⟩ .nil
    refine .returned (.token (hb.append hc) ahead) (by simp [Machine.between]) ?_
    intro inner journal
    simp [handler, atInside, hd, he, decode_append hb, decode]

/-- The quote of an escape is emitted, and the body goes on behind it. -/
theorem proceeds_escape (hb : IsBody body) (ahead : List Char) :
    Proceeds .inside
      (.between (delimiter :: (body ++ [escapeMark])) (delimiter :: ahead) State.inside.value
        (decode body).reverse) := by
  have hpair : IsBody [escapeMark, delimiter] := .quote .nil
  have hprevious := getLast?_opened_mark body
  refine .returned (.token (hb.append hpair) ahead) (by simp [Machine.between]) ?_
  intro inner journal
  simp [handler, atInside, hprevious, decode_append hb, decode]

theorem proceeds_closed (hb : IsBody body) (c : Char) (ahead : List Char) :
    Proceeds .left
      (.between (delimiter :: (body ++ [delimiter])) (c :: ahead) State.left.value
        (decode body).reverse) := by
  cases ahead with
  | nil =>
      refine .returned (.trailingLast hb c) rfl ?_
      intro inner journal
      simp [handler, atLeft, enter]
  | cons d rest =>
      refine .returned (.trailing hb c (d :: rest)) (by simp [Machine.between]) ?_
      intro inner journal
      simp [handler, atLeft, enter]

theorem Site.proceeds (h : Site state machine) (hp : machine.pointer < machine.input.length) :
    Proceeds state machine := by
  cases h with
  | start ahead =>
      cases ahead with
      | nil => exact absurd hp (Nat.lt_irrefl _)
      | cons c rest => exact proceeds_start c rest
  | opening ahead => exact .returned (.token .nil ahead) rfl fun _ _ => rfl
  | misled stray ahead => exact .raised fun _ _ => ⟨_, rfl⟩
  | token hb ahead =>
      cases ahead with
      | nil => exact absurd hp (by simp)
      | cons c rest => exact proceeds_token hb c rest
  | escape hb ahead => exact proceeds_escape hb ahead
  | loneMark hb lone => exact .raised fun _ _ => ⟨_, rfl⟩
  | closed hb ahead =>
      cases ahead with
      | nil => exact absurd hp (by simp)
      | cons c rest => exact proceeds_closed hb c rest
  | trailingLast hb c => exact .raised fun _ _ => ⟨_, rfl⟩
  | trailing hb c ahead => exact .raised fun _ _ => ⟨_, rfl⟩

end Calls

/-! ## All calls of a parse -/

/-- A machine on which a handler is called in the course of a parse of this text. -/
structure Visited (text : Text) (machine : Machine) : Prop where
  input_eq : machine.input = text
  pointer_lt : machine.pointer < text.length
  site : ∃ state, Site state machine

section Visits

variable {limits : Limits} {text : String}

/-- A loop that begins at a site calls handlers at sites only. -/
theorem visited_of_loop {steps : Nat} {state : State} {machine : Machine} (h : Site state machine)
    {journal : List Machine} {result : Except Fault Unit} {after : Run Unit (List Machine)}
    (hloop : (parser limits).loop .calls steps machine.input.length ⟨machine, (), journal⟩ =
      .ofResult result after) :
    ∃ calls, after.journal = calls ++ journal ∧ ∀ start ∈ calls, Visited machine.input start := by
  induction steps generalizing state machine journal with
  | zero =>
      cases Parser.loopStarts_of_loop hloop with
      | finished _ => exact ⟨[], rfl, nofun⟩
  | succ steps ih =>
      rcases Nat.lt_or_ge machine.pointer machine.input.length with hp | hp
      · have hvisited : Visited machine.input machine := ⟨rfl, hp, state, h⟩
        have hfind : (table : Table Unit).find? machine.state = some (handler state) := by
          rw [h.state_eq, find?_table]
        rw [Parser.loop_call _ _ _ hp hfind] at hloop
        change ((handler state).run _ _ ⟨machine, (), machine :: journal⟩).andThen _ = _ at hloop
        cases h.proceeds hp with
        | returned hnext hinput hrun =>
            -- The next site holds the same text, so the loop still goes to its length.
            rw [hrun, Outcome.andThen_returned, ← hinput] at hloop
            obtain ⟨calls, hjournal, hcalls⟩ := ih hnext hloop
            refine ⟨calls ++ [machine], ?_, ?_⟩
            · rw [hjournal, List.append_assoc, List.singleton_append]
            · intro start hstart
              rcases List.mem_append.mp hstart with hstart | hstart
              · exact hinput ▸ hcalls start hstart
              · exact List.mem_singleton.mp hstart ▸ hvisited
        | raised hrun =>
            obtain ⟨fault, hrun⟩ := hrun _ _
            rw [hrun, Outcome.andThen_raised] at hloop
            obtain ⟨-, rfl⟩ := Outcome.of_raised hloop
            refine ⟨[machine], rfl, ?_⟩
            intro start hstart
            exact List.mem_singleton.mp hstart ▸ hvisited
      · rw [Parser.loop_of_length_le _ _ _ hp] at hloop
        obtain ⟨-, rfl⟩ := Outcome.of_returned hloop
        exact ⟨[], rfl, nofun⟩

theorem visited_of_parse {run after : Run Unit (List Machine)} {result : Except Fault String}
    (h : parse .calls limits text run = .ofResult result after) :
    ∃ calls, after.journal = calls ++ run.journal ∧
      ∀ start ∈ calls, Visited (.ofString text) start := by
  have hstart : Site .unknown (.load (.ofString text)) := .start text.toList
  rcases Parser.parseWith_eq_ofResult h with
    ⟨limit, -, -, rfl⟩ | ⟨-, ⟨last, hloop, -, rfl⟩ | ⟨fault, hloop, -⟩⟩
  · exact ⟨[], rfl, nofun⟩
  · exact visited_of_loop hstart hloop
  · exact visited_of_loop hstart hloop

/-- Every text has a result, also one that is over the limit. -/
theorem exists_parse_eq_ofResult {ρ : Type} (observer : Observer ρ) (limits : Limits)
    (text : String) (run : Run Unit ρ) :
    ∃ result after, parse observer limits text run = .ofResult result after := by
  cases hl : limits.exceeded? text.length with
  | some limit => exact ⟨.error _, _, (parser limits).parseWith_rejected observer hl run⟩
  | none =>
      have hadmits := (limits.exceeded?_eq_none_iff text.length).mp hl
      rcases parse_returns_or_raises observer run hadmits with
        ⟨output, after, hparse⟩ | ⟨fault, after, hparse⟩
      · exact ⟨.ok output, after, hparse⟩
      · exact ⟨.error fault, after, hparse⟩

end Visits

/-- Every parse ends. Whenever a handler was called in it, the invariant of the state held, and a
reader that remembers, after the characters before the pointer, would be in the phase that the state
and a look back tell, with the same output. So there is a mark behind the pointer of a call inside
the string exactly if this reader would be in the middle of an escape. -/
theorem lookbehind_tracks_escapes (limits : Limits) (text : String)
    (run : Run Unit (List Machine)) :
    ∃ result last calls,
      parse .calls limits text run = .ofResult result ⟨last, (), calls ++ run.journal⟩ ∧
      ∀ start ∈ calls,
        start.input = .ofString text ∧ start.pointer < text.length ∧
        ∃ state : State, start.state = state.value ∧ state.Invariant start ∧
          Reader.after start.passed = ⟨state.phase start.previous?, start.written⟩ ∧
          ((Reader.after start.passed).phase = .escaped ↔
            state = .inside ∧ start.previous? = some escapeMark) := by
  obtain ⟨result, after, hparse⟩ := exists_parse_eq_ofResult .calls limits text run
  obtain ⟨calls, hjournal, hcalls⟩ := visited_of_parse hparse
  refine ⟨result, after.machine, calls, ?_, ?_⟩
  · rw [hparse, ← hjournal]
  · intro start hstart
    obtain ⟨hinput, hpointer, state, hsite⟩ := hcalls start hstart
    refine ⟨hinput, hpointer, state, hsite.state_eq, hsite.invariant, hsite.after_passed, ?_⟩
    rw [hsite.after_passed]
    exact state.phase_eq_escaped_iff start.previous?

/-- On the escaped quote of an unclosed string a mark stands behind the pointer, and of the two
characters of the escape none has been emitted yet. -/
theorem lookbehind_tracks_escaped_quote :
    ∃ last calls, parse .calls .standard "\"a\\\"b" (.fresh () []) =
        .returned "a\"b" ⟨last, (), calls⟩ ∧
      ∃ start ∈ calls, start.pointer = 3 ∧ start.state = State.inside.value ∧
        start.previous? = some escapeMark ∧
        Reader.after start.passed = ⟨.escaped, ['a']⟩ := by
  let site := Machine.between ['"', 'a', '\\'] ['"', 'b'] State.inside.value ['a']
  have hcomputed : ∃ last later earlier, parse .calls .standard "\"a\\\"b" (.fresh () []) =
      .ofResult (.ok "a\"b") ⟨last, (), later :: site :: earlier⟩ := ⟨_, _, _, rfl⟩
  obtain ⟨last', later, earlier, hcomputed⟩ := hcomputed
  obtain ⟨result, last, calls, hparse, hall⟩ :=
    lookbehind_tracks_escapes .standard "\"a\\\"b" (.fresh () [])
  obtain ⟨rfl, hrun⟩ := Outcome.ofResult_injective (hparse.symm.trans hcomputed)
  obtain rfl : calls = later :: site :: earlier :=
    (List.append_nil calls).symm.trans (congrArg Run.journal hrun)
  have hmem : site ∈ later :: site :: earlier := .tail _ (.head _)
  obtain ⟨-, -, state, hstate, -, hafter, -⟩ := hall site hmem
  obtain rfl : State.inside = state := State.value_injective hstate
  exact ⟨last', _, hcomputed, site, hmem, rfl, rfl, rfl, hafter⟩

end Quoted

end CharMachine
