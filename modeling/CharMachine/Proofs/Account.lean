import CharMachine.Proofs.Calls
import CharMachine.Proofs.History
import CharMachine.Proofs.Journal
import Mathlib.Logic.ExistsUnique

/-!
# What the records of a parse tell

A parse that is refused leaves one record. Any other begins with a record of its own, goes on with
the whole records of the parses that its handlers started, in their order, and ends with a record
of its own if it finishes or meets a state without a handler. If a handler raises, there is no last
record, so records alone do not always tell which of two nested parses has failed.

Main statement: each parse that has ended did so in exactly one of four ways, and the way fixes its
result, its records and what it leaves of the machine.
-/

namespace CharMachine

variable {σ α : Type}

/-- A result that stands on earlier events is that of an outcome without them. -/
theorem Outcome.ofResult_eq_onto {result : Except Fault α} {after : Run σ (List Event)}
    {earlier : List Event} {outcome : Outcome σ (List Event) α}
    (h : ofResult result after = outcome.onto earlier) :
    ∃ added, outcome = ofResult result ⟨after.machine, after.memory, added⟩ ∧
      after.journal = added ++ earlier := by
  cases outcome with
  | returned value run =>
      obtain ⟨rfl, rfl⟩ := of_returned h.symm
      exact ⟨run.journal, rfl, rfl⟩
  | raised fault run =>
      obtain ⟨rfl, rfl⟩ := of_raised h.symm
      exact ⟨run.journal, rfl, rfl⟩
  | exhausted => exact absurd h (ofResult_ne_exhausted result after)

theorem Machine.length_output (machine : Machine) :
    machine.output.length = machine.emitted.length := by
  rw [output, String.length_ofList, written, List.length_reverse]

/-- The log is the part of all events that is records. -/
theorem Observer.renders_log (earlier : List Record) :
    Renders (fun events => events.filterMap Event.record? ++ earlier) full log := by
  intro event events
  cases event <;> rfl

namespace EndedParse

variable {parser : Parser σ} (parse : EndedParse parser)

/-- The events of the parse, the most recent first. -/
def events : List Event :=
  parse.after.journal.take (parse.after.journal.length - parse.before.journal.length)

/-- The records of the parse, the earliest first. -/
def records : List Record := Event.records parse.events

theorem exists_afresh :
    ∃ added, parser.Ends .full parse.text (.fresh parse.before.memory [])
        (.ofResult parse.result ⟨parse.after.machine, parse.after.memory, added⟩) ∧
      parse.after.journal = added ++ parse.before.journal := by
  obtain ⟨afresh, hends, honto⟩ := (parser.ends_iff_fresh parse.text parse.before _).mp parse.ends
  obtain ⟨added, rfl, hjournal⟩ := Outcome.ofResult_eq_onto honto
  exact ⟨added, hends, hjournal⟩

/-- The events of the parse stand on those before it. -/
theorem journal_after : parse.after.journal = parse.events ++ parse.before.journal := by
  obtain ⟨added, -, hjournal⟩ := parse.exists_afresh
  rw [EndedParse.events, hjournal, List.length_append, Nat.add_sub_cancel, List.take_left]

theorem events_eq {added : List Event} (h : parse.after.journal = added ++ parse.before.journal) :
    parse.events = added :=
  List.append_cancel_right (parse.journal_after.symm.trans h)

/-- What a caller is shown of the parse: its records, on top of those before it. -/
theorem ends_log (earlier : List Record) :
    parser.Ends .log parse.text ⟨parse.before.machine, parse.before.memory, earlier⟩
      (.ofResult parse.result
        ⟨parse.after.machine, parse.after.memory, parse.records.reverse ++ earlier⟩) := by
  obtain ⟨added, ⟨-, steps, hparse⟩, hjournal⟩ := parse.exists_afresh
  have hlog := parser.parse_mapJournal (Observer.renders_log earlier) steps parse.text
    (.fresh parse.before.memory [])
  have hrecords : parse.records.reverse = added.filterMap Event.record? := by
    rw [records, Event.records, parse.events_eq hjournal, List.filterMap_reverse,
      List.reverse_reverse]
  rw [hparse] at hlog
  -- The machine found is replaced before anything reads it.
  have hfound : parser.parse .log steps parse.text
      ⟨parse.before.machine, parse.before.memory, earlier⟩ = _ := hlog.symm
  refine ⟨Outcome.ofResult_ne_exhausted _ _, steps, ?_⟩
  rw [hfound, hrecords]
  cases parse.result <;> rfl

end EndedParse

/-- Between two journals nothing was logged but by these parses, one after another. -/
structure LoggedBy {parser : Parser σ} (before after : List Event)
    (inner : List (EndedParse parser)) : Prop where
  records_eq : ∃ added, after = added ++ before ∧
    Event.records added = inner.flatMap EndedParse.records
  within : ∀ parse ∈ inner, before.length + parse.events.length ≤ after.length

namespace LoggedBy

variable {parser : Parser σ} {first second third : List Event}
  {inner more : List (EndedParse parser)}

theorem refl (journal : List Event) : LoggedBy journal journal ([] : List (EndedParse parser)) where
  records_eq := ⟨[], rfl, rfl⟩
  within _ hparse := absurd hparse List.not_mem_nil

theorem length_le (h : LoggedBy first second inner) : first.length ≤ second.length := by
  obtain ⟨added, rfl, -⟩ := h.records_eq
  rw [List.length_append]
  exact Nat.le_add_left _ _

theorem trans (h : LoggedBy first second inner) (h' : LoggedBy second third more) :
    LoggedBy first third (inner ++ more) where
  records_eq := by
    obtain ⟨added, rfl, hrecords⟩ := h.records_eq
    obtain ⟨added', rfl, hrecords'⟩ := h'.records_eq
    refine ⟨added' ++ added, (List.append_assoc _ _ _).symm, ?_⟩
    rw [Event.records_append, hrecords, hrecords', List.flatMap_append]
  within parse hparse := by
    have hle := h.length_le
    have hle' := h'.length_le
    rcases List.mem_append.mp hparse with hparse | hparse
    · have hwithin := h.within parse hparse
      omega
    · have hwithin := h'.within parse hparse
      omega

/-- An event that is no record logs nothing. -/
theorem of_event (event : Event) (hevent : event.record? = none) (journal : List Event) :
    LoggedBy journal (event :: journal) ([] : List (EndedParse parser)) where
  records_eq := by
    refine ⟨[event], rfl, ?_⟩
    simp [Event.records, hevent]
  within _ hparse := absurd hparse List.not_mem_nil

theorem of_parse (parse : EndedParse parser) :
    LoggedBy parse.before.journal parse.after.journal [parse] where
  records_eq := by
    refine ⟨parse.events, parse.journal_after, ?_⟩
    rw [List.flatMap_singleton]
    rfl
  within other hother := by
    rw [List.mem_singleton.mp hother, parse.journal_after, List.length_append]
    omega

end LoggedBy

/-- A program logs what the parses that it starts log. -/
theorem Program.Runs.loggedBy {parser : Parser σ} {program : Program σ α}
    {run after : Run σ (List Event)} {inner : List (EndedParse parser)} {result : Except Fault α}
    (h : program.Runs parser run inner result after) :
    LoggedBy run.journal after.journal inner := by
  induction h with
  | done value run => exact .refl _
  | act _ ih => exact (LoggedBy.of_event _ rfl _).trans ih
  | look _ ih => exact ih
  | remember _ ih => exact ih
  | nested ends _ ih => exact (LoggedBy.of_parse ⟨_, _, _, _, ends⟩).trans ih
  | raise fault run => exact .refl _

/-- A call is noted by an event that is no record. -/
theorem Program.Runs.loggedBy_call {parser : Parser σ} {program : Program σ α}
    {run after : Run σ (List Event)} {inner : List (EndedParse parser)} {result : Except Fault α}
    (h : program.Runs parser (run.note .full (.called run.machine)) inner result after) :
    LoggedBy run.journal after.journal inner :=
  (LoggedBy.of_event (.called run.machine) rfl run.journal).trans h.loggedBy

theorem Parser.Calls.loggedBy {parser : Parser σ} {length : Nat} {run last : Run σ (List Event)}
    {inner : List (EndedParse parser)} (h : parser.Calls length run inner last) :
    LoggedBy run.journal last.journal inner := by
  induction h with
  | nil run => exact .refl _
  | cons _ _ hruns _ ih => exact hruns.loggedBy_call.trans ih

/-- The records of one parse by a parser with so many handlers, the earliest first. -/
inductive IsAccount (handlers : Nat) : List Record → Prop where
  | rejected {length limit : Nat} : limit < length → IsAccount handlers [.rejected length limit]
  | finished {inner : List (List Record)} (length : Nat) (state : Int) (written : Nat) :
      (∀ account ∈ inner, IsAccount handlers account) →
      IsAccount handlers ([.started length handlers] ++ inner.flatten ++ [.finished state written])
  | unhandled {inner : List (List Record)} {length position : Nat} (state : Int) :
      (∀ account ∈ inner, IsAccount handlers account) → position < length →
      IsAccount handlers
        ([.started length handlers] ++ inner.flatten ++ [.unhandled state position])
  | faulted {inner : List (List Record)} (length : Nat) :
      (∀ account ∈ inner, IsAccount handlers account) →
      IsAccount handlers ([.started length handlers] ++ inner.flatten)

namespace EndedParse

variable {parser : Parser σ}

/-- The four ways in which a parse ends. In the last three its loop makes some calls that return,
with these parses inside, and then none. -/
inductive Concludes (parse : EndedParse parser) : Ending → Prop where
  | rejected {limit : Nat}
      (limited : parser.limits.maxInputLength = some limit)
      (long : limit < parse.text.length)
      (raised : parse.result = .error (.parse (.inputTooLarge parse.text.length limit)))
      (uncalled : ∀ machine, .called machine ∉ parse.events)
      (logged : parse.records = [.rejected parse.text.length limit]) :
      Concludes parse .rejected
  | finished {inner : List (EndedParse parser)} {last : Run σ (List Event)}
      (admitted : parser.limits.Admits parse.text.length)
      (calls : parser.Calls parse.text.length (parser.begin .full parse.text parse.before)
        inner last)
      (left : parse.after =
        last.log .full (.finished last.machine.state last.machine.emitted.length))
      (past : parse.text.length ≤ parse.after.machine.pointer)
      (returned : parse.result = .ok parse.after.machine.output)
      (logged : parse.records = [.started parse.text.length parser.table.size] ++
        inner.flatMap records ++
          [.finished parse.after.machine.state parse.after.machine.output.length]) :
      Concludes parse .finished
  | unhandled {inner : List (EndedParse parser)} {last : Run σ (List Event)}
      (admitted : parser.limits.Admits parse.text.length)
      (calls : parser.Calls parse.text.length (parser.begin .full parse.text parse.before)
        inner last)
      (left : parse.after =
        last.log .full (.unhandled last.machine.state last.machine.pointer))
      (inside : parse.after.machine.pointer < parse.text.length)
      (absent : parse.after.machine.state ∉ parser.table.states)
      (raised : parse.result = .error (.parse (.unknownState parse.after.machine.state)))
      (logged : parse.records = [.started parse.text.length parser.table.size] ++
        inner.flatMap records ++
          [.unhandled parse.after.machine.state parse.after.machine.pointer]) :
      Concludes parse .unhandled
  | faulted {inner more : List (EndedParse parser)} {last : Run σ (List Event)}
      {handler : Program σ Unit} {fault : Fault}
      (admitted : parser.limits.Admits parse.text.length)
      (calls : parser.Calls parse.text.length (parser.begin .full parse.text parse.before)
        inner last)
      (inside : last.machine.pointer < parse.text.length)
      (present : parser.table.find? last.machine.state = some handler)
      (call : handler.Runs parser (last.note .full (.called last.machine)) more (.error fault)
        parse.after)
      (raised : parse.result = .error fault)
      (logged : parse.records = [.started parse.text.length parser.table.size] ++
        (inner ++ more).flatMap records) :
      Concludes parse .faulted

variable (parse : EndedParse parser)

section Loop

variable {inner : List (EndedParse parser)} {last : List Event}
  (hlogged : LoggedBy (parser.begin .full parse.text parse.before).journal last inner)
  (extra : List Event) (hafter : parse.after.journal = extra ++ last)
include hlogged hafter

/-- The records of a parse whose loop logged these parses and which then left some events more. -/
theorem records_of_loop :
    parse.records = [.started parse.text.length parser.table.size] ++ inner.flatMap records ++
      Event.records extra := by
  obtain ⟨added, rfl, hrecords⟩ := hlogged.records_eq
  let opening : List Event := [.logged (.started parse.text.length parser.table.size),
    .opened (.load (.ofString parse.text)), .opened (.load .empty)]
  have hbegin : (parser.begin .full parse.text parse.before).journal =
      opening ++ parse.before.journal := rfl
  have hjournal : parse.after.journal = (extra ++ (added ++ opening)) ++ parse.before.journal := by
    rw [hafter, hbegin, List.append_assoc, List.append_assoc]
  rw [records, parse.events_eq hjournal, Event.records_append, Event.records_append, hrecords]
  rfl

/-- A parse inside another has fewer events. -/
theorem events_lt_of_loop {other : EndedParse parser} (hother : other ∈ inner) :
    other.events.length < parse.events.length := by
  have hwithin := hlogged.within other hother
  have hlength := congrArg List.length parse.journal_after
  have hbegin : (parser.begin .full parse.text parse.before).journal.length =
      parse.before.journal.length + 3 := rfl
  rw [hafter, List.length_append, List.length_append] at hlength
  omega

end Loop

section Ways

variable {limit : Nat} {inner more : List (EndedParse parser)} {last : Run σ (List Event)}

theorem concludes_rejected (hl : parser.limits.exceeded? parse.text.length = some limit)
    (hresult : parse.result = .error (.parse (.inputTooLarge parse.text.length limit)))
    (hafter : parse.after = (parse.before.openText .full .empty).log .full
      (.rejected parse.text.length limit)) : parse.Concludes .rejected := by
  obtain ⟨hlimited, hlong⟩ := (parser.limits.exceeded?_eq_some_iff _ _).mp hl
  have hevents : parse.events = [.logged (.rejected parse.text.length limit),
      .opened (.load .empty)] := parse.events_eq (congrArg Run.journal hafter)
  refine .rejected hlimited hlong hresult ?_ ?_
  · intro machine hmem
    rw [hevents] at hmem
    simp at hmem
  · rw [records, hevents]
    rfl

variable (hl : parser.limits.Admits parse.text.length)
  (hcalls : parser.Calls parse.text.length (parser.begin .full parse.text parse.before) inner last)
include hl hcalls

theorem concludes_finished (hpast : parse.text.length ≤ last.machine.pointer)
    (hresult : parse.result = .ok last.machine.output)
    (hafter : parse.after =
      last.log .full (.finished last.machine.state last.machine.emitted.length)) :
    parse.Concludes .finished := by
  have hmachine : parse.after.machine = last.machine := by
    rw [hafter]
    rfl
  have hrecords := parse.records_of_loop hcalls.loggedBy [_] (congrArg Run.journal hafter)
  refine .finished hl hcalls hafter ?_ ?_ ?_
  · rwa [hmachine]
  · rwa [hmachine]
  · rw [hrecords, hmachine, Machine.length_output]
    rfl

theorem concludes_unhandled (hinside : last.machine.pointer < parse.text.length)
    (hnone : parser.table.find? last.machine.state = none)
    (hresult : parse.result = .error (.parse (.unknownState last.machine.state)))
    (hafter : parse.after =
      last.log .full (.unhandled last.machine.state last.machine.pointer)) :
    parse.Concludes .unhandled := by
  have hmachine : parse.after.machine = last.machine := by
    rw [hafter]
    rfl
  have habsent := (parser.table.find?_eq_none_iff _).mp hnone
  have hrecords := parse.records_of_loop hcalls.loggedBy [_] (congrArg Run.journal hafter)
  refine .unhandled hl hcalls hafter ?_ ?_ ?_ ?_
  · rwa [hmachine]
  · rwa [hmachine]
  · rwa [hmachine]
  · rw [hrecords, hmachine]
    rfl

theorem concludes_faulted {handler : Program σ Unit} {fault : Fault}
    (hinside : last.machine.pointer < parse.text.length)
    (hsome : parser.table.find? last.machine.state = some handler)
    (hruns : handler.Runs parser (last.note .full (.called last.machine)) more (.error fault)
      parse.after)
    (hresult : parse.result = .error fault) : parse.Concludes .faulted := by
  have hlogged := hcalls.loggedBy.trans hruns.loggedBy_call
  have hrecords := parse.records_of_loop hlogged [] rfl
  refine .faulted hl hcalls hinside hsome hruns hresult ?_
  rw [hrecords]
  exact List.append_nil _

end Ways

theorem exists_concludes : ∃ ending, parse.Concludes ending := by
  obtain ⟨-, steps, hparse⟩ := parse.ends
  rcases Parser.parseWith_eq_ofResult hparse with
    ⟨limit, hl, hresult, hafter⟩ | ⟨hl, ⟨ended, hloop, hresult, hafter⟩ | ⟨fault, hloop, hresult⟩⟩
  · exact ⟨_, parse.concludes_rejected hl hresult hafter⟩
  · obtain ⟨inner, last, hcalls, ending, more, hstops⟩ := Parser.exists_calls hloop
    cases hstops with
    | finished hpast => exact ⟨_, parse.concludes_finished hl hcalls hpast hresult hafter⟩
  · obtain ⟨inner, last, hcalls, ending, more, hstops⟩ := Parser.exists_calls hloop
    generalize hafter : parse.after = after at hstops
    cases hstops with
    | unhandled hinside hnone =>
        exact ⟨_, parse.concludes_unhandled hl hcalls hinside hnone hresult hafter⟩
    | faulted hinside hsome hruns =>
        exact ⟨_, parse.concludes_faulted hl hcalls hinside hsome (hafter ▸ hruns) hresult⟩

section Unique

variable {parse} {ending ending' : Ending}

/-- A parse that was not refused made calls and stopped in the way that it ended. -/
theorem Concludes.stops (h : parse.Concludes ending) (hne : ending ≠ .rejected) :
    parser.limits.Admits parse.text.length ∧
      ∃ inner last, parser.Calls parse.text.length (parser.begin .full parse.text parse.before)
          inner last ∧
        ∃ more result after, parser.Stops parse.text.length last ending more result after := by
  cases h with
  | rejected => exact absurd rfl hne
  | @finished inner last hl hcalls hleft hpast =>
      rw [hleft] at hpast
      exact ⟨hl, inner, last, hcalls, _, _, _, .finished hpast⟩
  | @unhandled inner last hl hcalls hleft hinside habsent =>
      rw [hleft] at hinside habsent
      have hnone := (parser.table.find?_eq_none_iff _).mpr habsent
      exact ⟨hl, inner, last, hcalls, _, _, _, .unhandled hinside hnone⟩
  | faulted hl hcalls hinside hsome hruns =>
      exact ⟨hl, _, _, hcalls, _, _, _, .faulted hinside hsome hruns⟩

theorem Concludes.not_admits (h : parse.Concludes .rejected) :
    ¬ parser.limits.Admits parse.text.length := by
  cases h with
  | rejected hlimited hlong =>
      intro hadmits
      have hle := hadmits _ hlimited
      omega

theorem Concludes.unique (h : parse.Concludes ending) (h' : parse.Concludes ending') :
    ending = ending' := by
  by_cases hr : ending = .rejected
  · by_cases hr' : ending' = .rejected
    · rw [hr, hr']
    · subst hr
      exact absurd (h'.stops hr').1 h.not_admits
  · obtain ⟨hadmits, inner, last, hcalls, _, _, _, hstops⟩ := h.stops hr
    by_cases hr' : ending' = .rejected
    · subst hr'
      exact absurd hadmits h'.not_admits
    · obtain ⟨-, inner', last', hcalls', _, _, _, hstops'⟩ := h'.stops hr'
      obtain rfl := hcalls.last_unique hstops hcalls' hstops'
      exact hstops.ending_unique hstops'

end Unique

/-- The records of a parse form an account, those of the parses inside it included. -/
theorem isAccount_records (parse : EndedParse parser) :
    IsAccount parser.table.size parse.records := by
  -- The parses inside another have fewer events, so they come first.
  induction hn : parse.events.length using Nat.strongRecOn generalizing parse with
  | ind n ih =>
    have haccounts : ∀ inner : List (EndedParse parser),
        (∀ other ∈ inner, other.events.length < parse.events.length) →
        inner.flatMap records = (inner.map records).flatten ∧
          ∀ account ∈ inner.map records, IsAccount parser.table.size account := by
      intro inner hless
      refine ⟨List.flatMap_def, ?_⟩
      intro account haccount
      obtain ⟨other, hother, rfl⟩ := List.mem_map.mp haccount
      exact ih _ (hn ▸ hless other hother) other rfl
    obtain ⟨ending, hconcludes⟩ := parse.exists_concludes
    cases hconcludes with
    | rejected _ hlong _ _ hlogged =>
        rw [hlogged]
        exact .rejected hlong
    | finished _ hcalls hleft _ _ hlogged =>
        obtain ⟨hflat, hinner⟩ := haccounts _ fun _ hother =>
          parse.events_lt_of_loop hcalls.loggedBy [_] (congrArg Run.journal hleft) hother
        rw [hlogged, hflat]
        exact .finished _ _ _ hinner
    | unhandled _ hcalls hleft hinside _ _ hlogged =>
        obtain ⟨hflat, hinner⟩ := haccounts _ fun _ hother =>
          parse.events_lt_of_loop hcalls.loggedBy [_] (congrArg Run.journal hleft) hother
        rw [hlogged, hflat]
        exact .unhandled _ hinner hinside
    | faulted _ hcalls _ _ hruns _ hlogged =>
        have hcall := hcalls.loggedBy.trans hruns.loggedBy_call
        obtain ⟨hflat, hinner⟩ := haccounts _ fun _ hother =>
          parse.events_lt_of_loop hcall [] rfl hother
        rw [hlogged, hflat]
        exact .faulted _ hinner

/-- A parse that has ended did so in exactly one of the four ways. Its records are an account and
are what the log shows of it. -/
theorem records_tell_ending :
    (∃! ending, parse.Concludes ending) ∧ IsAccount parser.table.size parse.records ∧
      ∀ earlier, parser.Ends .log parse.text
        ⟨parse.before.machine, parse.before.memory, earlier⟩
        (.ofResult parse.result
          ⟨parse.after.machine, parse.after.memory, parse.records.reverse ++ earlier⟩) := by
  obtain ⟨ending, hconcludes⟩ := parse.exists_concludes
  exact ⟨⟨ending, hconcludes, fun _ hother => hother.unique hconcludes⟩, parse.isAccount_records,
    parse.ends_log⟩

/-- A table whose one handler parses another text at `'('` and takes no notice of its fault, leaves
for a state without a handler at `'!'` and copies all else. -/
def recovering : Table Unit where
  entries := [(Machine.initialState, do
    let machine ← .machine
    if machine.current? = some '(' then
      tryCatch (do let _ ← .parse "a!") fun _ => pure ()
    else if machine.current? = some '!' then .setState 9
    else
      .append
      .advance)]
  nodup_states := by simp

/-- Two parses leave their records here, the inner one of a fault that the outer one survives. -/
theorem caught_fault_recorded :
    ∃ parse : EndedParse (Parser.mk recovering ⟨some 2, by decide⟩),
      parse.text = "(" ∧ parse.result = .ok "a" ∧
      parse.records = [.started 1 1, .started 2 1, .unhandled 9 1, .finished 9 1] ∧
      (∃! ending, parse.Concludes ending) ∧ IsAccount 1 parse.records := by
  have hends : ∃ after, (Parser.mk recovering ⟨some 2, by decide⟩).Ends .full "(" (.fresh () [])
      (.ofResult (.ok "a") after) ∧
      Event.records after.journal =
        [.started 1 1, .started 2 1, .unhandled 9 1, .finished 9 1] :=
    ⟨_, ⟨nofun, 4, rfl⟩, rfl⟩
  obtain ⟨after, hends, hrecords⟩ := hends
  let parse : EndedParse _ := ⟨"(", .fresh () [], .ok "a", after, hends⟩
  have hevents : parse.events = after.journal := parse.events_eq (List.append_nil _).symm
  obtain ⟨hending, haccount, -⟩ := parse.records_tell_ending
  refine ⟨parse, rfl, rfl, ?_, hending, haccount⟩
  rw [records, hevents, hrecords]

end EndedParse

end CharMachine
