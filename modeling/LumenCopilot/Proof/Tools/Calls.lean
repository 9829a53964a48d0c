import LumenCopilot.Proof.Tools.Approval

namespace LumenCopilot.Tools

open Python Library

variable {config : Config} {state next : RunnerState} {place : Nat} {choice : Choice}

/-- One await of a call takes its answer. -/
theorem advance_cases (steps : state.advance place choice = some next) :
    ∃ (job : Job) (question : Ask) (program : question.Answer → Op ToolResult)
      (answer : question.Answer) (after : RunnerState),
      state.jobs[place]? = some job ∧ job.program = .asks question program ∧
      state.answer place choice question = some (answer, after) ∧
      next = { after with jobs := state.jobs.set place (job.take question program answer) } := by
  unfold RunnerState.advance at steps
  split at steps
  · contradiction
  · next job found =>
      split at steps
      · next question program goes =>
          obtain ⟨⟨answer, after⟩, answers, rfl⟩ := Option.map_eq_some_iff.mp steps
          exact ⟨job, question, program, answer, after, found, goes, answers, rfl⟩
      · contradiction

variable {action : RunnerAction}

/-- A step adds a call, takes an answer of one call, or leaves the calls alone. -/
theorem runnerStep_jobs (steps : runnerStep config state action = some next) :
    next.jobs = state.jobs ∨
    (∃ call ordinal isolated, next.jobs =
      state.jobs ++ [⟨call, ordinal, isolated, [], runGoverned config call ordinal isolated⟩]) ∨
    ∃ (place : Nat) (job : Job) (question : Ask) (program : question.Answer → Op ToolResult)
      (answer : question.Answer), state.jobs[place]? = some job ∧
      job.program = .asks question program ∧
      next.jobs = state.jobs.set place (job.take question program answer) := by
  cases action with
  | claimOrdinal =>
      obtain rfl := Option.some.inj steps
      exact .inl rfl
  | run call ordinal isolated =>
      obtain rfl := Option.some.inj steps
      exact .inr (.inl ⟨call, _, isolated, rfl⟩)
  | advance place choice =>
      obtain ⟨job, question, program, answer, after, found, goes, _, rfl⟩ := advance_cases steps
      exact .inr (.inr ⟨place, job, question, program, answer, found, goes, rfl⟩)
  | startExecution place =>
      simp only [runnerStep] at steps
      split at steps
      · obtain rfl := Option.some.inj steps
        exact .inl rfl
      · contradiction
  | endExecution place finish =>
      simp only [runnerStep] at steps
      split at steps
      · obtain rfl := Option.some.inj steps
        exact .inl rfl
      · obtain rfl := Option.some.inj steps
        exact .inl rfl
      · contradiction
  | abortPersistence =>
      simp only [runnerStep] at steps
      split at steps
      · contradiction
      · obtain rfl := Option.some.inj steps
        exact .inl rfl

/-- The call has followed its program. -/
def Job.Followed (config : Config) (job : Job) : Prop :=
  (runGoverned config job.call job.ordinal job.isolated).Follows job.trace job.program

variable {job : Job} {question : Ask}

variable {program : question.Answer → Op ToolResult}

theorem followed_take (followed : job.Followed config) (goes : job.program = .asks question program)
    (answer : question.Answer) : (job.take question program answer).Followed config := by
  unfold Job.Followed at followed
  rw [goes] at followed
  exact followed.answered answer

/-- Every call of a runner follows the program of the runner. -/
theorem runnerStep_followed (followed : ∀ job ∈ state.jobs, job.Followed config)
    (steps : runnerStep config state action = some next) :
    ∀ job ∈ next.jobs, job.Followed config := by
  rcases runnerStep_jobs steps with same | ⟨call, ordinal, isolated, jobs⟩ |
    ⟨place, job, question, program, answer, found, goes, jobs⟩
  · rw [same]
    exact followed
  · rw [jobs]
    intro job member
    rcases List.mem_append.mp member with member | member
    · exact followed job member
    · obtain rfl := List.mem_singleton.mp member
      exact Program.Follows.start
  · rw [jobs]
    intro other member
    rcases List.mem_or_eq_of_mem_set member with member | rfl
    · exact followed other member
    · exact followed_take (followed job (List.mem_of_getElem? found)) goes answer

variable {actions : List RunnerAction}

theorem runs_followed (runs : Runs (runnerStep config) (fun _ _ => True) .initial actions state) :
    ∀ job ∈ state.jobs, job.Followed config :=
  runs.invariant (fun state => ∀ job ∈ state.jobs, job.Followed config)
    (fun _ _ _ followed _ steps => runnerStep_followed followed steps) nofun

/-- A shared task is that of a read-only tool. -/
def Shared (state : RunnerState) : Prop :=
  ∀ execution ∈ state.executions, execution.definition.readOnly = true

theorem Shared.set {execution execution' : Execution} (shared : Shared state)
    (found : state.executions[place]? = some execution)
    (same : execution'.definition = execution.definition) :
    ∀ other ∈ state.executions.set place execution', other.definition.readOnly = true := by
  intro other member
  rcases List.mem_or_eq_of_mem_set member with member | rfl
  · exact shared other member
  · rw [same]
    exact shared execution (List.mem_of_getElem? found)

variable {definition : ToolDefinition}

theorem Shared.create (shared : Shared state) (key : Text) (arguments : Json) (callId : Text)
    (readOnly : definition.readOnly = true) :
    Shared (state.create key definition arguments callId).2 := by
  intro execution member
  rcases List.mem_append.mp member with member | member
  · exact shared execution member
  · obtain rfl := List.mem_singleton.mp member
    exact readOnly

theorem Shared.join (shared : Shared state) (key : Text) (arguments : Json) (callId : Text)
    (readOnly : definition.readOnly = true) :
    Shared (state.join key definition arguments callId).2 := by
  unfold RunnerState.join
  split
  · exact shared.create key arguments callId readOnly
  · split
    · exact shared.create key arguments callId readOnly
    · next execution found =>
        split
        · exact shared
        · exact shared.create key arguments callId readOnly
        · exact shared.set found rfl

theorem Shared.leave (shared : Shared state) : Shared (state.leave place).2 := by
  unfold RunnerState.leave
  split
  · exact shared
  · next execution found => exact shared.set found rfl

theorem Shared.forget (shared : Shared state) (key : Text) :
    Shared (state.forget key place).2 := by
  unfold RunnerState.forget
  split
  · exact shared
  · split
    · exact shared
    · split <;> exact shared

/-- Only a join of a read-only tool adds a shared task. -/
theorem Shared.answer (shared : Shared state) {answer : question.Answer} {after : RunnerState}
    (answers : state.answer place choice question = some (answer, after))
    (readOnly : ∀ key definition arguments callId,
      question = .join key definition arguments callId → definition.readOnly = true) :
    Shared after := by
  cases question with
  | join key definition arguments callId =>
      obtain ⟨rfl, rfl⟩ := Prod.mk.inj (Option.some.inj answers)
      exact shared.join key arguments callId (readOnly key definition arguments callId rfl)
  | leave execution =>
      obtain ⟨rfl, rfl⟩ := Prod.mk.inj (Option.some.inj answers)
      exact shared.leave
  | forget key execution =>
      obtain ⟨rfl, rfl⟩ := Prod.mk.inj (Option.some.inj answers)
      exact shared.forget key
  | turn ordinal =>
      simp only [RunnerState.answer, RunnerState.turn] at answers
      split at answers
      · obtain ⟨rfl, rfl⟩ := Prod.mk.inj (Option.some.inj answers)
        exact shared
      · split at answers
        · contradiction
        · split at answers
          · obtain ⟨rfl, rfl⟩ := Prod.mk.inj (Option.some.inj answers)
            exact shared
          · split at answers
            · obtain ⟨rfl, rfl⟩ := Prod.mk.inj (Option.some.inj answers)
              exact shared
            · contradiction
  | shielded execution =>
      simp only [RunnerState.answer] at answers
      split at answers
      · obtain ⟨rfl, rfl⟩ := Prod.mk.inj (Option.some.inj answers)
        exact shared
      · obtain ⟨outcome, _, same⟩ := Option.map_eq_some_iff.mp answers
        obtain ⟨rfl, rfl⟩ := Prod.mk.inj same
        exact shared
  | reap execution =>
      simp only [RunnerState.answer] at answers
      split at answers
      · obtain ⟨rfl, rfl⟩ := Prod.mk.inj (Option.some.inj answers)
        exact shared
      · obtain ⟨outcome, _, same⟩ := Option.map_eq_some_iff.mp answers
        obtain ⟨rfl, rfl⟩ := Prod.mk.inj same
        exact shared
  | _ =>
      obtain ⟨rfl, rfl⟩ := Prod.mk.inj (Option.some.inj answers)
      exact shared

/-- A call that follows its program asks what is permitted next. -/
theorem Job.Followed.permitted (followed : job.Followed config)
    (goes : job.program = .asks question program) :
    Permitted config job.call job.trace question := by
  have meets := (runGoverned_meets job.call job.ordinal job.isolated).follows followed
  rw [goes] at meets
  exact meets.1

theorem runnerStep_shared (followed : ∀ job ∈ state.jobs, job.Followed config)
    (shared : Shared state) (steps : runnerStep config state action = some next) : Shared next := by
  cases action with
  | advance place choice =>
      obtain ⟨job, question, program, answer, after, found, goes, answers, rfl⟩ :=
        advance_cases steps
      have kept : Shared after := by
        refine shared.answer answers fun key definition arguments callId same => ?_
        have permitted := (followed job (List.mem_of_getElem? found)).permitted goes
        rw [same] at permitted
        exact permitted.2
      exact kept
  | startExecution place =>
      simp only [runnerStep] at steps
      split at steps
      · next found =>
          obtain rfl := Option.some.inj steps
          exact shared.set found rfl
      · contradiction
  | endExecution place finish =>
      simp only [runnerStep] at steps
      split at steps
      · next found =>
          obtain rfl := Option.some.inj steps
          exact shared.set found rfl
      · next found =>
          obtain rfl := Option.some.inj steps
          exact shared.set found rfl
      · contradiction
  | claimOrdinal =>
      obtain rfl := Option.some.inj steps
      exact shared
  | run call ordinal isolated =>
      obtain rfl := Option.some.inj steps
      exact shared
  | abortPersistence =>
      simp only [runnerStep] at steps
      split at steps
      · contradiction
      · obtain rfl := Option.some.inj steps
        exact shared

theorem runs_shared (runs : Runs (runnerStep config) (fun _ _ => True) .initial actions state) :
    Shared state := by
  have both := runs.invariant
    (fun state => (∀ job ∈ state.jobs, job.Followed config) ∧ Shared state)
    (fun _ _ _ holds _ steps =>
      ⟨runnerStep_followed holds.1 steps, runnerStep_shared holds.1 holds.2 steps⟩)
  exact (both ⟨nofun, nofun⟩).2

/-- A call hands its arguments to one handler at most. -/
theorem Job.Followed.hands_once (followed : job.Followed config) : job.trace.countP hands ≤ 1 := by
  unfold Job.Followed at followed
  generalize job.program = rest at followed
  generalize job.trace = trace at followed
  have meets := @runGoverned_meets config job.call job.ordinal job.isolated
  induction followed with
  | start => exact Nat.zero_le 1
  | @answered trace question next follows answer ih =>
      have permitted := (meets.follows follows).1
      rw [List.countP_append]
      cases question with
      | starts definition arguments => simp [permitted.1, hands]
      | join key definition arguments callId => simp [permitted.1, hands]
      | _ => simpa [hands] using ih

/-- A handler of a write tool starts after every gate of the runner, no call starts its handler
twice, and no shared task runs a write tool. -/
theorem handlers_authorised {actions : List RunnerAction}
    (runs : Runs (runnerStep config) (fun _ _ => True) .initial actions state) :
    (∀ (place : Nat) (job : Job), state.jobs[place]? = some job →
      (∀ earlier definition arguments later,
        job.trace = earlier ++ ⟨.starts definition arguments, ()⟩ :: later →
        definition.riskTier.isWriteTier = true →
        Authorised config job.call earlier definition arguments) ∧
      job.trace.countP hands ≤ 1) ∧
    ∀ execution ∈ state.executions, execution.definition.riskTier.isWriteTier = false := by
  constructor
  · intro place job found
    have followed := runs_followed runs job (List.mem_of_getElem? found)
    refine ⟨fun earlier definition arguments later splits write => ?_, followed.hands_once⟩
    have meets := @runGoverned_meets config job.call job.ordinal job.isolated
    exact (meets.asked followed earlier later _ splits).2 write
  · intro execution member
    rw [execution.definition.readOnlyTier (runs_shared runs execution member)]
    rfl

/-- This is a tool of tier T2. -/
def runPython : ToolDefinition :=
  ⟨"run_python".toList, .dict [], .t2, true, false, rfl, RiskTier.t2_writes,
    RiskTier.t2_gated, fun _ => rfl⟩

/-- This runner has one tool of tier T2. -/
def pythonConfig : Config where
  allowed := ["run_python".toList]
  extraTools := []
  registry name := if name = "run_python".toList then some runPython else none
  autonomy := .actAuto
  approvalRequiredTools := []
  legacyArguments arguments _ _ := arguments
  validateArguments _ _ := none
  tenant := ['t']
  user := ['u']

/-- The tenant has pre-approved every tool. -/
def preapproved : Choice
  | .gate request => .ok (.decision (.allow (some
      ⟨approvalScopeTenantPreapproval, some ⟨7, by decide⟩, none, some request.argumentsHash⟩)))
  | .intent _ => .ok 1
  | .openScope => .ok ()
  | .closeScope => .ok ()
  | .starts _ _ => ()
  | .finishes => .returned ⟨true, none, "done".toList, none⟩
  | .join _ _ _ _ => .error .failed
  | .shielded _ => .error .failed
  | .leave _ => false
  | .reap _ => .ok ()
  | .forget _ _ => .ok ()
  | .webOrigin _ => none
  | .turn _ => .ok ()
  | .emit _ => .ok 2
  | .record _ => .ok ()
  | .advance => ()

def pythonCall : ToolCall := ⟨['c'], "run_python".toList, .dict []⟩

/-- A pre-approved call starts its handler once, after its gates. -/
theorem handlers_authorised_preapproved : ∃ state : RunnerState,
    (state.jobs.map fun job => job.trace.countP hands) = [1] ∧
    ∀ (place : Nat) (job : Job), state.jobs[place]? = some job →
      ∀ earlier definition arguments later,
        job.trace = earlier ++ ⟨.starts definition arguments, ()⟩ :: later →
        definition.riskTier.isWriteTier = true →
        Authorised pythonConfig job.call earlier definition arguments := by
  have computed : (Library.execute (runnerStep pythonConfig) .initial
      (.run pythonCall none false :: List.replicate 9 (.advance 0 preapproved))).map
      (fun state => state.jobs.map fun job => job.trace.countP hands) = some [1] := by
    decide +kernel
  obtain ⟨state, executes, counted⟩ := Option.map_eq_some_iff.mp computed
  have authorised := handlers_authorised (Runs.of_unchecked executes)
  exact ⟨state, counted, fun place job found => (authorised.1 place job found).1⟩

end LumenCopilot.Tools
