import LumenCopilot.Proof.Library.Lists
import LumenCopilot.Proof.Tools.Drain

namespace LumenCopilot.Tools

open Python Library

variable {config : Config} {state after : RunnerState} {place : Nat} {choice : Choice}

variable {question : Ask}

/-- Only a turn and the end of a finalisation move the persist gate. -/
theorem answer_gate {answer : question.Answer}
    (answers : state.answer place choice question = some (answer, after))
    (turnless : turns ⟨question, answer⟩ = false) (stays : advances ⟨question, answer⟩ = false) :
    after.nextPersistOrdinal = state.nextPersistOrdinal ∧ after.writer = state.writer := by
  cases question with
  | advance => contradiction
  | turn ordinal =>
      simp only [RunnerState.answer, RunnerState.turn] at answers
      split at answers
      · obtain ⟨rfl, rfl⟩ := Prod.mk.inj (Option.some.inj answers)
        exact ⟨rfl, rfl⟩
      · split at answers
        · contradiction
        · split at answers
          · obtain ⟨rfl, rfl⟩ := Prod.mk.inj (Option.some.inj answers)
            exact ⟨rfl, rfl⟩
          · split at answers
            · obtain ⟨rfl, rfl⟩ := Prod.mk.inj (Option.some.inj answers)
              contradiction
            · contradiction
  | join key definition arguments callId =>
      obtain ⟨rfl, rfl⟩ := Prod.mk.inj (Option.some.inj answers)
      repeat' split
      all_goals exact ⟨rfl, rfl⟩
  | leave execution =>
      obtain ⟨rfl, rfl⟩ := Prod.mk.inj (Option.some.inj answers)
      split <;> exact ⟨rfl, rfl⟩
  | forget key execution =>
      obtain ⟨rfl, rfl⟩ := Prod.mk.inj (Option.some.inj answers)
      repeat' split
      all_goals exact ⟨rfl, rfl⟩
  | shielded execution =>
      simp only [RunnerState.answer] at answers
      split at answers
      · obtain ⟨rfl, rfl⟩ := Prod.mk.inj (Option.some.inj answers)
        exact ⟨rfl, rfl⟩
      · obtain ⟨outcome, _, same⟩ := Option.map_eq_some_iff.mp answers
        obtain ⟨rfl, rfl⟩ := Prod.mk.inj same
        exact ⟨rfl, rfl⟩
  | reap execution =>
      simp only [RunnerState.answer] at answers
      split at answers
      · obtain ⟨rfl, rfl⟩ := Prod.mk.inj (Option.some.inj answers)
        exact ⟨rfl, rfl⟩
      · obtain ⟨outcome, _, same⟩ := Option.map_eq_some_iff.mp answers
        obtain ⟨rfl, rfl⟩ := Prod.mk.inj same
        exact ⟨rfl, rfl⟩
  | _ =>
      obtain ⟨rfl, rfl⟩ := Prod.mk.inj (Option.some.inj answers)
      exact ⟨rfl, rfl⟩

variable {ordinal : Nat}

/-- A call gets its turn when no call holds the gate and every lower ordinal has been persisted. -/
theorem answer_turn {answer : Except Interrupt Unit}
    (answers : state.answer place choice (.turn ordinal) = some (answer, after))
    (turned : turns ⟨.turn ordinal, answer⟩ = true) :
    state.writer = none ∧ state.nextPersistOrdinal = ordinal ∧
      after.nextPersistOrdinal = ordinal ∧ after.writer = some place := by
  simp only [RunnerState.answer, RunnerState.turn] at answers
  split at answers
  · obtain ⟨rfl, rfl⟩ := Prod.mk.inj (Option.some.inj answers)
    contradiction
  · split at answers
    · contradiction
    · next free =>
        split at answers
        · obtain ⟨rfl, rfl⟩ := Prod.mk.inj (Option.some.inj answers)
          contradiction
        · split at answers
          · next same =>
              obtain ⟨rfl, rfl⟩ := Prod.mk.inj (Option.some.inj answers)
              exact ⟨Option.not_isSome_iff_eq_none.mp free, same, same, rfl⟩
          · contradiction

/-- These are the records of the set of an ordinal. -/
def setOf (ordinal : Nat) (log : List Written) : List RecordKind :=
  log.filterMap fun record =>
    if record.ordinal = ordinal ∧ record.kind ≠ .intent then some record.kind else none

/-- This is what the holder of the gate has written. -/
def RunnerState.unfinished (state : RunnerState) : List RecordKind :=
  match state.writer with
  | none => []
  | some place => (state.jobs[place]?.map fun job => drained job.trace).getD []

theorem unfinished_none (free : state.writer = none) : state.unfinished = [] := by
  unfold RunnerState.unfinished
  rw [free]

theorem unfinished_held {job : Job} (writer : state.writer = some place)
    (found : state.jobs[place]? = some job) : state.unfinished = drained job.trace := by
  unfold RunnerState.unfinished
  simp only [writer, found]
  rfl

/-- Every gate answer of the call is that of the policy gate. -/
def Job.Governed (config : Config) (job : Job) : Prop :=
  ∀ request answer, (⟨.gate request, .ok answer⟩ : Event Ask Ask.Answer) ∈ job.trace →
    ∃ read, answer = .decision (policyDecision config.registry read request)

/-- The drain is at the next ordinal, its holder is the call of this ordinal, and the log has the
records of every lower ordinal in order. -/
structure Persisting (config : Config) (start : Nat) (runner : RunnerState) (log : List Written) :
    Prop where
  followed : ∀ job ∈ runner.jobs, job.Followed config
  governed : ∀ job ∈ runner.jobs, job.Governed config
  held : ∀ (place : Nat) (job : Job), runner.jobs[place]? = some job →
    (holding job.trace = true ↔ runner.writer = some place)
  named : ∀ (place : Nat) (job : Job), runner.jobs[place]? = some job →
    runner.writer = some place → runner.nextPersistOrdinal = job.ordinal
  present : ∀ place, runner.writer = some place → place < runner.jobs.length
  counted : runner.nextPersistOrdinal =
    start + runner.jobs.countP fun job => job.trace.any advances
  bounded : ∀ record ∈ log, record.ordinal ≤ runner.nextPersistOrdinal
  sorted : log.Pairwise fun first second => first.ordinal ≤ second.ordinal
  sets : ∀ ordinal, (setOf ordinal log).Sublist fullSet
  current : setOf runner.nextPersistOrdinal log = runner.unfinished

variable {start : Nat} {log : List Written} {job : Job}

theorem setOf_append (ordinal : Nat) (first second : List Written) :
    setOf ordinal (first ++ second) = setOf ordinal first ++ setOf ordinal second :=
  List.filterMap_append

/-- No record of a later ordinal is in the log. -/
theorem setOf_above {bound : Nat} (bounded : ∀ record ∈ log, record.ordinal ≤ bound)
    (above : bound < ordinal) : setOf ordinal log = [] := by
  refine List.filterMap_eq_nil_iff.mpr fun record member => ?_
  have low := bounded record member
  exact if_neg fun both => by omega

/-- A call that follows its program keeps to the persist gate. -/
theorem Job.Followed.drains (followed : job.Followed config) :
    job.program.Meets (tracing (Drains config job.call job.ordinal)) Drained job.trace :=
  (runGoverned_drains job.call job.ordinal job.isolated).follows followed

/-- A new call holds nothing. -/
theorem Persisting.started (persisting : Persisting config start state log) (call : ToolCall)
    (ordinal : Option Nat) (isolated : Bool) :
    Persisting config start (state.start config call ordinal isolated) log := by
  have absent : state.writer ≠ some state.jobs.length := by
    intro holds
    have present := persisting.present _ holds
    omega
  exact {
    followed := by
      intro job member
      rcases List.mem_append.mp member with member | member
      · exact persisting.followed job member
      · obtain rfl := List.mem_singleton.mp member
        exact Program.Follows.start
    governed := by
      intro job member
      rcases List.mem_append.mp member with member | member
      · exact persisting.governed job member
      · obtain rfl := List.mem_singleton.mp member
        exact nofun
    held := by
      intro place job found
      rcases getElem?_snoc_iff.mp found with found | ⟨rfl, rfl⟩
      · exact persisting.held place job found
      · exact ⟨nofun, fun holds => absurd holds absent⟩
    named := by
      intro place job found holds
      rcases getElem?_snoc_iff.mp found with found | ⟨rfl, rfl⟩
      · exact persisting.named place job found holds
      · exact absurd holds absent
    present := by
      intro place holds
      have present := persisting.present place holds
      show place < (state.jobs ++ _).length
      rw [List.length_append]
      omega
    counted := by
      show state.nextPersistOrdinal = start + (state.jobs ++ _).countP _
      rw [List.countP_append, persisting.counted]
      rfl
    bounded := persisting.bounded
    sorted := persisting.sorted
    sets := persisting.sets
    current := by
      rw [show setOf (state.start config call ordinal isolated).nextPersistOrdinal log =
        state.unfinished from persisting.current]
      unfold RunnerState.unfinished
      show _ = match state.writer with | none => _ | some place => _
      split
      · rfl
      · next place holds =>
          have present := persisting.present place holds
          rw [show (state.start config call ordinal isolated).jobs[place]? = state.jobs[place]? from
            List.getElem?_append_left present] }

theorem turn_facts {answer : question.Answer}
    (drains : Drains config job.call job.ordinal job.trace question)
    (answers : state.answer place choice question = some (answer, after))
    (turned : turns ⟨question, answer⟩ = true) :
    state.writer = none ∧ state.nextPersistOrdinal = job.ordinal ∧
      after.nextPersistOrdinal = state.nextPersistOrdinal ∧ after.writer = some place ∧
      Undrained job.trace ∧ Held [] (job.trace ++ [⟨question, answer⟩]) := by
  cases question with
  | turn ordinal =>
      obtain ⟨free, drain, later, writer⟩ := answer_turn answers turned
      obtain ⟨rfl, undrained⟩ := drains
      refine ⟨free, drain, later.trans drain.symm, writer, undrained, ?_⟩
      cases answer with
      | error error => contradiction
      | ok _ => exact undrained.turned job.ordinal
  | _ => contradiction

theorem leave_facts {answer : question.Answer}
    (drains : Drains config job.call job.ordinal job.trace question)
    (answers : state.answer place choice question = some (answer, after))
    (leaves : advances ⟨question, answer⟩ = true) :
    holding job.trace = true ∧ after.nextPersistOrdinal = state.nextPersistOrdinal + 1 ∧
      after.writer = none := by
  cases question with
  | advance =>
      obtain ⟨rfl, rfl⟩ := Prod.mk.inj (Option.some.inj answers)
      exact ⟨drains, rfl, rfl⟩
  | _ => contradiction

/-- This is one call that takes an answer. -/
structure Taking (state : RunnerState) (place : Nat) (choice : Choice) (next : RunnerState) where
  job : Job
  question : Ask
  program : question.Answer → Op ToolResult
  answer : question.Answer
  after : RunnerState
  found : state.jobs[place]? = some job
  goes : job.program = .asks question program
  answers : state.answer place choice question = some (answer, after)
  reached : next = { after with jobs := state.jobs.set place (job.take question program answer) }

variable {next : RunnerState}

namespace Taking

variable (taking : Taking state place choice next)

def event : Event Ask Ask.Answer := ⟨taking.question, taking.answer⟩

def taken : Job := taking.job.take taking.question taking.program taking.answer

theorem jobs : next.jobs = state.jobs.set place taking.taken :=
  congrArg RunnerState.jobs taking.reached

theorem within (taking : Taking state place choice next) : place < state.jobs.length :=
  (List.getElem?_eq_some_iff.mp taking.found).1

theorem job_iff {other : Nat} {job : Job} : next.jobs[other]? = some job ↔
    other = place ∧ job = taking.taken ∨ other ≠ place ∧ state.jobs[other]? = some job := by
  rw [taking.jobs]
  exact getElem?_set_iff taking.found

theorem member {job : Job} (known : job ∈ next.jobs) : job ∈ state.jobs ∨ job = taking.taken := by
  rw [taking.jobs] at known
  exact List.mem_or_eq_of_mem_set known

theorem found_next : next.jobs[place]? = some taking.taken := taking.job_iff.mpr (.inl ⟨rfl, rfl⟩)

theorem lastWritten : next.lastWritten place = (written taking.event).toList := by
  unfold RunnerState.lastWritten
  rw [taking.found_next]
  show ((taking.job.trace ++ [taking.event]).getLast?.bind written).toList = _
  rw [List.getLast?_concat]
  rfl

/-- The call asks what its program permits. -/
theorem drains (followed : ∀ job ∈ state.jobs, job.Followed config) :
    Drains config taking.job.call taking.job.ordinal taking.job.trace taking.question := by
  have meets := (followed _ (List.mem_of_getElem? taking.found)).drains
  rw [taking.goes] at meets
  exact meets.1

theorem followed (taking : Taking state place choice next) (followed : ∀ job ∈ state.jobs, job.Followed config) :
    ∀ job ∈ next.jobs, job.Followed config := by
  intro job known
  rcases taking.member known with known | rfl
  · exact followed job known
  · exact followed_take (followed _ (List.mem_of_getElem? taking.found)) taking.goes taking.answer

/-- The count of calls with such an event grows by that of the call. -/
theorem counted (count : Event Ask Ask.Answer → Bool) :
    next.jobs.countP (fun job => job.trace.any count) +
        (if taking.job.trace.any count then 1 else 0) =
      state.jobs.countP (fun job => job.trace.any count) +
        (if taking.taken.trace.any count then 1 else 0) := by
  rw [taking.jobs]
  exact countP_set_eq taking.found _ _

/-- The policy gate answers the call. -/
theorem governed (policy : Except Interrupt (Option (Option TenantToolPolicy)))
    (taking : Taking state place (withPolicy config policy choice) next)
    (governed : ∀ job ∈ state.jobs, job.Governed config) : ∀ job ∈ next.jobs, job.Governed config := by
  intro job known
  rcases taking.member known with known | rfl
  · exact governed job known
  · intro request answer asked
    rcases List.mem_append.mp asked with asked | asked
    · exact governed _ (List.mem_of_getElem? taking.found) request answer asked
    · have same := List.mem_singleton.mp asked
      obtain ⟨job, question, program, given, after, found, goes, answers, reached⟩ := taking
      obtain rfl := congrArg Sigma.fst same
      obtain rfl := eq_of_heq (Sigma.mk.inj same).2
      obtain ⟨chosen, _⟩ := Prod.mk.inj (Option.some.inj answers)
      cases policy with
      | error error => contradiction
      | ok read => exact ⟨read, (Except.ok.inj chosen).symm⟩

/-- A write under the gate, or a step outside it, leaves the gate where it is. -/
theorem steady (taking : Taking state place choice next) {records : List Written}
    (persisting : Persisting config start state log)
    (governed : ∀ job ∈ next.jobs, job.Governed config)
    (turnless : turns taking.event = false) (stays : advances taking.event = false)
    (named : ∀ record ∈ records, record.ordinal = state.nextPersistOrdinal)
    (short : records.length ≤ 1)
    (sets : ∀ ordinal, (setOf ordinal (log ++ records)).Sublist fullSet)
    (current : setOf state.nextPersistOrdinal (log ++ records) = next.unfinished) :
    Persisting config start next (log ++ records) := by
  obtain ⟨drain, writer⟩ := answer_gate taking.answers turnless stays
  have drain : next.nextPersistOrdinal = state.nextPersistOrdinal :=
    (congrArg RunnerState.nextPersistOrdinal taking.reached).trans drain
  have writer : next.writer = state.writer :=
    (congrArg RunnerState.writer taking.reached).trans writer
  have turned : taking.taken.trace.any turns = taking.job.trace.any turns := by
    rw [show taking.taken.trace = taking.job.trace ++ [taking.event] from rfl]
    simp [turnless]
  have advanced : taking.taken.trace.any advances = taking.job.trace.any advances := by
    rw [show taking.taken.trace = taking.job.trace ++ [taking.event] from rfl]
    simp [stays]
  have holds : holding taking.taken.trace = holding taking.job.trace := by
    unfold holding
    rw [turned, advanced]
  exact {
    followed := taking.followed persisting.followed
    governed := governed
    held := by
      intro other job found
      rw [writer]
      rcases taking.job_iff.mp found with ⟨rfl, rfl⟩ | ⟨_, found⟩
      · rw [holds]
        exact persisting.held _ _ taking.found
      · exact persisting.held other job found
    named := by
      intro other job found
      rw [writer, drain]
      rcases taking.job_iff.mp found with ⟨rfl, rfl⟩ | ⟨_, found⟩
      · have named := persisting.named _ taking.job taking.found
        exact named
      · exact persisting.named other job found
    present := by
      intro other held
      rw [writer] at held
      rw [taking.jobs, List.length_set]
      exact persisting.present other held
    counted := by
      have counts := taking.counted advances
      rw [advanced] at counts
      rw [drain, persisting.counted]
      omega
    bounded := by
      intro record member
      rw [drain]
      rcases List.mem_append.mp member with member | member
      · exact persisting.bounded record member
      · exact (named record member).le
    sorted := by
      refine List.pairwise_append.mpr ⟨persisting.sorted, ?_, ?_⟩
      · match records with
        | [] => exact List.Pairwise.nil
        | [record] => exact List.pairwise_singleton _ record
      · intro earlier member record last
        rw [named record last]
        exact persisting.bounded earlier member
    sets := sets
    current := by rw [drain]; exact current }

/-- The call that gets its turn takes the gate with an empty set. -/
theorem turned (taking : Taking state place choice next)
    (persisting : Persisting config start state log)
    (governed : ∀ job ∈ next.jobs, job.Governed config) (turned : turns taking.event = true) :
    Persisting config start next log := by
  obtain ⟨free, named, drain, writer, undrained, held⟩ :=
    turn_facts (taking.drains persisting.followed) taking.answers turned
  have drain : next.nextPersistOrdinal = state.nextPersistOrdinal :=
    (congrArg RunnerState.nextPersistOrdinal taking.reached).trans drain
  have writer : next.writer = some place :=
    (congrArg RunnerState.writer taking.reached).trans writer
  have holds : holding taking.taken.trace = true := held.held
  have advanced : taking.taken.trace.any advances = false := by
    simp only [holding, Bool.and_eq_true, Bool.not_eq_true'] at holds
    exact holds.2
  exact {
    followed := taking.followed persisting.followed
    governed := governed
    held := by
      intro other job found
      rw [writer, Option.some.injEq]
      rcases taking.job_iff.mp found with ⟨rfl, rfl⟩ | ⟨apart, found⟩
      · exact ⟨fun _ => rfl, fun _ => holds⟩
      · constructor
        · intro holding
          have writing := (persisting.held other job found).mp holding
          rw [free] at writing
          contradiction
        · exact fun same => absurd same.symm apart
    named := by
      intro other job found holding
      rw [writer, Option.some.injEq] at holding
      rcases taking.job_iff.mp found with ⟨_, rfl⟩ | ⟨apart, _⟩
      · exact drain.trans named
      · exact absurd holding.symm apart
    present := by
      intro other holding
      rw [writer, Option.some.injEq] at holding
      rw [taking.jobs, List.length_set, ← holding]
      exact taking.within
    counted := by
      have counts := taking.counted advances
      rw [advanced, undrained.fresh] at counts
      rw [drain, persisting.counted]
      omega
    bounded := by
      rw [drain]
      exact persisting.bounded
    sorted := persisting.sorted
    sets := persisting.sets
    current := by
      rw [drain, persisting.current, unfinished_none free, unfinished_held writer taking.found_next]
      exact held.written.symm }

/-- The call that leaves the gate gives way to the next ordinal. -/
theorem left (taking : Taking state place choice next)
    (persisting : Persisting config start state log)
    (governed : ∀ job ∈ next.jobs, job.Governed config) (leaves : advances taking.event = true) :
    Persisting config start next log := by
  obtain ⟨holds, drain, writer⟩ :=
    leave_facts (taking.drains persisting.followed) taking.answers leaves
  have drain : next.nextPersistOrdinal = state.nextPersistOrdinal + 1 :=
    (congrArg RunnerState.nextPersistOrdinal taking.reached).trans drain
  have writer : next.writer = none := (congrArg RunnerState.writer taking.reached).trans writer
  have writing := (persisting.held place taking.job taking.found).mp holds
  have fresh : taking.job.trace.any advances = false := by
    simp only [holding, Bool.and_eq_true, Bool.not_eq_true'] at holds
    exact holds.2
  have advanced : taking.taken.trace.any advances = true := by
    rw [show taking.taken.trace = taking.job.trace ++ [taking.event] from rfl]
    simp [leaves]
  exact {
    followed := taking.followed persisting.followed
    governed := governed
    held := by
      intro other job found
      rw [writer]
      rcases taking.job_iff.mp found with ⟨rfl, rfl⟩ | ⟨apart, found⟩
      · simp [holding, advanced]
      · constructor
        · intro holding
          have other := (persisting.held other job found).mp holding
          rw [writing, Option.some.injEq] at other
          exact absurd other.symm apart
        · simp
    named := by
      intro other job _ holding
      rw [writer] at holding
      contradiction
    present := by
      intro other holding
      rw [writer] at holding
      contradiction
    counted := by
      have counts := taking.counted advances
      rw [advanced, fresh] at counts
      simp only [Bool.false_eq_true, if_false, if_true] at counts
      rw [drain, persisting.counted]
      omega
    bounded := by
      intro record member
      have low := persisting.bounded record member
      omega
    sorted := persisting.sorted
    sets := persisting.sets
    current := by
      rw [drain, setOf_above persisting.bounded (Nat.lt_succ_self _), unfinished_none writer] }

end Taking

theorem ToolEvent.kind_drained (event : ToolEvent) : event.kind ≠ .intent := by
  unfold ToolEvent.kind
  split <;> nofun

variable {kind : RecordKind}

theorem setOf_single (drained : kind ≠ .intent) (named ordinal : Nat) :
    setOf ordinal [⟨kind, named⟩] = if named = ordinal then [kind] else [] := by
  by_cases same : named = ordinal
  · simp [setOf, same, drained]
  · simp [setOf, same]

/-- A record under the gate is the next one of the set of the call. -/
theorem drain_facts {answer : question.Answer}
    (drains : Drains config job.call job.ordinal job.trace question)
    (writes : drainKind ⟨question, answer⟩ = some kind) :
    holding job.trace = true ∧ kind ≠ .intent ∧
      written ⟨question, answer⟩ = some ⟨kind, job.ordinal⟩ ∧
      (drained job.trace ++ [kind]).Sublist fullSet ∧ turns ⟨question, answer⟩ = false ∧
      advances ⟨question, answer⟩ = false := by
  cases question with
  | emit event =>
      cases answer with
      | error error => contradiction
      | ok id =>
          obtain ⟨named, held, next⟩ := drains
          obtain rfl := Option.some.inj writes
          exact ⟨held, event.kind_drained, by rw [← named]; rfl, next, rfl, rfl⟩
  | record row =>
      cases answer with
      | error error => contradiction
      | ok _ =>
          obtain ⟨named, held, next⟩ := drains
          obtain rfl := Option.some.inj writes
          exact ⟨held, nofun, by rw [← named]; rfl, next, rfl, rfl⟩
  | _ => contradiction

/-- An event outside the gate writes nothing or an intent. -/
theorem outside_facts {answer : question.Answer} (writes : drainKind ⟨question, answer⟩ = none) :
    written ⟨question, answer⟩ = none ∨ ∃ event, question = .intent event ∧
      written ⟨question, answer⟩ = some ⟨.intent, event.ordinal⟩ := by
  cases question with
  | intent event =>
      cases answer with
      | error error => exact .inl rfl
      | ok id => exact .inr ⟨event, rfl, rfl⟩
  | emit event =>
      cases answer with
      | error error => exact .inl rfl
      | ok id => contradiction
  | record row =>
      cases answer with
      | error error => exact .inl rfl
      | ok _ => contradiction
  | _ => exact .inl rfl

variable {event : Event Ask Ask.Answer}

theorem written_of_turns (turned : turns event = true) :
    written event = none ∧ drainKind event = none := by
  obtain ⟨question, answer⟩ := event
  cases question <;> first | contradiction | exact ⟨rfl, rfl⟩

theorem written_of_advances (leaves : advances event = true) :
    written event = none ∧ drainKind event = none := by
  obtain ⟨question, answer⟩ := event
  cases question <;> first | contradiction | exact ⟨rfl, rfl⟩

namespace Taking

variable (taking : Taking state place choice next)

theorem drained : drained taking.taken.trace =
    Tools.drained taking.job.trace ++ (drainKind taking.event).toList := by
  unfold Tools.drained
  rw [show taking.taken.trace = taking.job.trace ++ [taking.event] from rfl, List.filterMap_append,
    List.filterMap_cons]
  cases drainKind taking.event <;> rfl

/-- What the holder has written grows by the record of the event. -/
theorem unfinished (persisting : Persisting config start state log)
    (turnless : turns taking.event = false) (stays : advances taking.event = false)
    (held : (drainKind taking.event).isSome = true → state.writer = some place) :
    next.unfinished = state.unfinished ++ (drainKind taking.event).toList := by
  have same : next.writer = state.writer := (congrArg RunnerState.writer taking.reached).trans
    (answer_gate taking.answers turnless stays).2
  cases writer : state.writer with
  | none =>
      rw [writer] at same held
      rw [unfinished_none same, unfinished_none writer]
      cases kind : drainKind taking.event with
      | none => rfl
      | some kind =>
          rw [kind] at held
          exact absurd (held rfl) nofun
  | some holder =>
      rw [writer] at same
      by_cases holds : holder = place
      · subst holds
        rw [unfinished_held same taking.found_next, unfinished_held writer taking.found,
          taking.drained]
      · have within := persisting.present holder writer
        have found : state.jobs[holder]? = some state.jobs[holder] := List.getElem?_eq_getElem within
        have found' := taking.job_iff.mpr (.inr ⟨holds, found⟩)
        rw [unfinished_held same found', unfinished_held writer found]
        cases kind : drainKind taking.event with
        | none => simp
        | some kind =>
            rw [kind, writer] at held
            exact absurd (Option.some.inj (held rfl)) holds

end Taking

/-- One await of a call keeps the drain, when an intent is that of the next ordinal. -/
theorem Persisting.take (persisting : Persisting config start state log)
    (taking : Taking state place choice next)
    (governed : ∀ job ∈ next.jobs, job.Governed config)
    (intent : ∀ event, taking.question = .intent event →
      event.ordinal = state.nextPersistOrdinal) :
    Persisting config start next (log ++ next.lastWritten place) := by
  have drains := taking.drains persisting.followed
  have unwritten (empty : written taking.event = none) : log ++ next.lastWritten place = log := by
    rw [taking.lastWritten, empty]
    exact List.append_nil log
  cases turned : turns taking.event with
  | true =>
      rw [unwritten (written_of_turns turned).1]
      exact taking.turned persisting governed turned
  | false =>
      cases leaves : advances taking.event with
      | true =>
          rw [unwritten (written_of_advances leaves).1]
          exact taking.left persisting governed leaves
      | false =>
          cases writes : drainKind taking.event with
          | some kind =>
              obtain ⟨held, drained, recorded, sub, _⟩ := drain_facts drains writes
              have writing := (persisting.held place taking.job taking.found).mp held
              have named := persisting.named place taking.job taking.found writing
              have current := persisting.current
              rw [unfinished_held writing taking.found] at current
              have records : next.lastWritten place = [⟨kind, taking.job.ordinal⟩] := by
                rw [taking.lastWritten]
                exact congrArg Option.toList recorded
              rw [records]
              apply taking.steady persisting governed turned leaves
              · intro record member
                obtain rfl := List.mem_singleton.mp member
                exact named.symm
              · exact Nat.le_refl 1
              · intro ordinal
                rw [setOf_append, setOf_single drained]
                by_cases same : taking.job.ordinal = ordinal
                · rw [if_pos same, ← same, ← named, current]
                  exact sub
                · rw [if_neg same, List.append_nil]
                  exact persisting.sets ordinal
              · rw [setOf_append, setOf_single drained, if_pos named.symm, persisting.current,
                  taking.unfinished persisting turned leaves (fun _ => writing), writes]
                rfl
          | none =>
              have silent (ordinal : Nat) : setOf ordinal (next.lastWritten place) = [] := by
                rw [taking.lastWritten]
                rcases outside_facts writes with empty | ⟨event, _, recorded⟩
                · exact congrArg (fun record => setOf ordinal record.toList) empty
                · rw [show written taking.event = _ from recorded]
                  simp [setOf]
              apply taking.steady persisting governed turned leaves
              · intro record member
                rw [taking.lastWritten] at member
                rcases outside_facts writes with empty | ⟨event, asked, recorded⟩
                · rw [show written taking.event = _ from empty] at member
                  contradiction
                · rw [show written taking.event = _ from recorded] at member
                  obtain rfl := List.mem_singleton.mp member
                  exact intent event asked
              · rw [taking.lastWritten]
                cases written taking.event <;> simp
              · intro ordinal
                rw [setOf_append, silent, List.append_nil]
                exact persisting.sets ordinal
              · rw [setOf_append, silent, List.append_nil, persisting.current,
                  taking.unfinished persisting turned leaves (by rw [writes]; nofun), writes]
                exact (List.append_nil _).symm

end LumenCopilot.Tools
