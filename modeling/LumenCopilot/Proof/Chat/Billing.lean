import LumenCopilot.Proof.Chat.Accounts
import LumenCopilot.Proof.Chat.Outcome
import LumenCopilot.Proof.Library.Lists

namespace LumenCopilot.Chat

open Python Library Guard

attribute [ext] TokenUsage

instance : Zero TokenUsage := ⟨{}⟩

instance : Add TokenUsage := ⟨TokenUsage.add⟩

/-- Usage is added counter by counter. -/
instance : AddCommMonoid TokenUsage where
  add_assoc first second third := by ext <;> exact Nat.add_assoc _ _ _
  zero_add usage := by ext <;> exact Nat.zero_add _
  add_zero usage := by ext <;> exact Nat.add_zero _
  add_comm first second := by ext <;> exact Nat.add_comm _ _
  nsmul := nsmulRec

/-- What the rows of an answer record for each model. -/
def recorded (rows : List UsageRow) : Text → TokenUsage :=
  tally (rows.map fun row => (row.model, row.usage.totals))

/-- What the provider reported for each model. -/
def reported (reports : List Report) : Text → TokenUsage :=
  tally (reports.map fun report => (report.model, report.usage))

/-- The scopes of an answer: the closed ones and the one of the active model. -/
def Ledger.scopes (ledger : Ledger) : List (Text × Usage) :=
  ledger.spent ++ [(ledger.model, ledger.usage)]

/-- What the scopes of an answer spent on each model. -/
def Ledger.charged (ledger : Ledger) : Text → TokenUsage :=
  tally (ledger.scopes.map fun scope => (scope.1, scope.2.totals))

/-- These rows are written with the answer. -/
def Ledger.scopeRows (ledger : Ledger) : List UsageRow :=
  ledger.spent.map (fun scope => ⟨scope.1, scope.2, false⟩) ++ [⟨ledger.model, ledger.usage, true⟩]

/-- The scopes hold every report that did not come late. -/
def Ledger.Balanced (ledger : Ledger) : Prop :=
  ledger.charged = reported (ledger.reports.filter fun report => !report.late)

theorem Ledger.recorded_scopeRows (ledger : Ledger) : recorded ledger.scopeRows = ledger.charged := by
  unfold recorded Ledger.scopeRows Ledger.charged Ledger.scopes
  rw [List.map_append, List.map_append, List.map_map]
  rfl

theorem Ledger.charged_eq (ledger : Ledger) (model : Text) :
    ledger.charged model = tally (ledger.spent.map fun scope => (scope.1, scope.2.totals)) model +
      if ledger.model = model then ledger.usage.totals else 0 := by
  unfold Ledger.charged Ledger.scopes
  rw [List.map_append, tally_append, List.map_singleton, tally_singleton]

theorem reported_append (reports : List Report) (report : Report) (model : Text) :
    reported (reports ++ [report]) model =
      reported reports model + if report.model = model then report.usage else 0 := by
  unfold reported
  rw [List.map_append, tally_append, List.map_singleton, tally_singleton]

variable {ledger : Ledger}

/-- Nothing was reported, and nothing is charged. -/
theorem Ledger.balanced_of_empty (unreported : ledger.reports = []) (unspent : ledger.spent = [])
    (unused : ledger.usage = {}) : ledger.Balanced := by
  unfold Ledger.Balanced Ledger.charged Ledger.scopes
  rw [unreported, unspent, unused]
  funext model
  exact (tally_singleton _ model).trans (ite_self 0)

/-- A report that the turn takes up is charged to the active model. -/
theorem Ledger.Balanced.add (balanced : ledger.Balanced) (usage : TokenUsage) (last : Option Nat) :
    Ledger.Balanced { ledger with
      usage := ⟨ledger.usage.totals.add usage, last⟩
      reports := ledger.reports ++ [⟨ledger.model, usage, false⟩] } := by
  funext model
  have before := congrFun balanced model
  rw [Ledger.charged_eq] at before
  rw [Ledger.charged_eq, List.filter_append, List.filter_singleton]
  simp only [Bool.not_false, cond_true]
  rw [reported_append, ← before, add_assoc]
  congr 1
  split
  · rfl
  · exact (add_zero 0).symm

/-- A report that is dropped is not charged. -/
theorem Ledger.Balanced.drop (balanced : ledger.Balanced) (usage : TokenUsage) :
    Ledger.Balanced { ledger with reports := ledger.reports ++ [⟨ledger.model, usage, true⟩] } := by
  unfold Ledger.Balanced at balanced ⊢
  rw [List.filter_append, List.filter_singleton]
  simp only [Bool.not_true, cond_false, List.append_nil]
  exact balanced

/-- A failover closes the scope of the dying model and opens an empty one. -/
theorem Ledger.Balanced.failOver (balanced : ledger.Balanced) (candidate : Text) :
    Ledger.Balanced { ledger with
      model := candidate, usage := {}, spent := ledger.spent ++ [(ledger.model, ledger.usage)] } := by
  funext model
  have before := congrFun balanced model
  rw [Ledger.charged_eq] at before ⊢
  have empty : (if candidate = model then ({} : TokenUsage) else 0) = 0 := ite_self 0
  dsimp only
  rw [List.map_append, tally_append, List.map_singleton, tally_singleton, ← before, empty, add_zero]

/-- The turns of an answer run: nothing is recorded, and a failure would salvage the scopes. -/
structure Ledger.Charging (ledger : Ledger) : Prop where
  balanced : ledger.Balanced
  unrecorded : ledger.rows = []
  armed : ledger.salvage = true
  uncommitted : ledger.committed = false

/-- No turn of the answer has run. -/
structure Ledger.Blank (ledger : Ledger) : Prop where
  unreported : ledger.reports = []
  unspent : ledger.spent = []
  unused : ledger.usage = {}
  unrecorded : ledger.rows = []
  disarmed : ledger.salvage = false
  uncommitted : ledger.committed = false

theorem Ledger.Blank.balanced (blank : ledger.Blank) : ledger.Balanced :=
  Ledger.balanced_of_empty blank.unreported blank.unspent blank.unused

/-- The rows of the answer wait for its commit. -/
structure Ledger.Drafted (ledger : Ledger) : Prop extends ledger.Charging where
  drafted : ledger.draftRows = ledger.scopeRows

/-- A commit that raised left the rows of the answer, and a failure would salvage them again. -/
structure Ledger.Doubtful (ledger : Ledger) : Prop where
  balanced : ledger.Balanced
  recorded : ledger.rows = ledger.scopeRows
  uncommitted : ledger.committed = false

/-- The rows of the answer are recorded, and nothing salvages them again. -/
structure Ledger.Committed (ledger : Ledger) : Prop where
  balanced : ledger.Balanced
  recorded : ledger.rows = ledger.scopeRows
  disarmed : ledger.salvage = false
  committed : ledger.committed = true

/-- The accounts when the guarded block of a run is interrupted. -/
def Ledger.Interrupted (ledger : Ledger) : Prop :=
  ledger.Blank ∨ ledger.Charging ∨ ledger.Doubtful ∨ ledger.Committed

/-- A usage report comes without text, and after the announcement of the tool calls beside it. -/
def Reporting : Bool → List StreamEvent → Prop
  | _, [] => True
  | announced, event :: rest =>
      (event.usage.isSome → event.text = [] ∧ event.toolCallStarted = false ∧
        (event.toolCalls ≠ [] → announced = true)) ∧
      Reporting (announced || event.toolCallStarted) rest

theorem Reporting.silent {events : List StreamEvent} (silent : ∀ event ∈ events, event.usage = none)
    {later : List StreamEvent} (announced : Bool)
    (reporting : Reporting (announced || events.any StreamEvent.toolCallStarted) later) :
    Reporting announced (events ++ later) := by
  induction events generalizing announced with
  | nil => simpa using reporting
  | cons event rest ih =>
      refine ⟨fun some' => ?_, ih (fun other member => silent other (List.mem_cons_of_mem _ member)) _ ?_⟩
      · simp [silent event List.mem_cons_self] at some'
      · simpa [Bool.or_assoc] using reporting

/-- The first fragment of a tool call is announced. -/
theorem GatewayStream.feed_announces (table : UnicodeTable) (stream : GatewayStream) (part : Part) :
    (stream.signalled || (stream.feed table part).1.any StreamEvent.toolCallStarted) =
      (stream.feed table part).2.signalled := by
  unfold GatewayStream.feed
  simp only [List.any_append]
  have text (safe : Text) :
      (if safe.isEmpty then [] else [{ text := safe }]).any StreamEvent.toolCallStarted = false := by
    cases safe <;> rfl
  rw [text, Bool.false_or]
  congr 1
  cases !part.fragments.isEmpty && !stream.signalled <;> rfl

theorem GatewayStream.feed_signalled (table : UnicodeTable) (stream : GatewayStream) (part : Part)
    (signalled : stream.toolCalls ≠ [] → stream.signalled = true)
    (called : (stream.feed table part).2.toolCalls ≠ []) :
    (stream.feed table part).2.signalled = true := by
  unfold GatewayStream.feed at called ⊢
  cases fragments : part.fragments with
  | nil =>
      rw [fragments] at called
      simp [signalled called]
  | cons fragment rest => simp

/-- The gateway reports the usage with the last event of a completion. -/
theorem GatewayStream.read_reporting (table : UnicodeTable) (broken : Bool) (parts : List Part) :
    ∀ stream : GatewayStream, (stream.toolCalls ≠ [] → stream.signalled = true) →
      Reporting stream.signalled (stream.read table broken parts) := by
  induction parts with
  | nil =>
      intro stream signalled
      cases broken with
      | true => exact True.intro
      | false =>
          unfold GatewayStream.read GatewayStream.finish
          simp only [Bool.false_eq_true, ↓reduceIte]
          refine Reporting.silent (fun event member => ?_) _ ⟨fun _ => ⟨rfl, rfl, fun called => ?_⟩, True.intro⟩
          · simp only [List.mem_ite_nil_left, List.mem_singleton] at member
            rw [member.2]
          · have some' : stream.toolCalls ≠ [] := by simpa using called
            rw [signalled some', Bool.true_or]
  | cons part rest ih =>
      intro stream signalled
      refine Reporting.silent (fun event member => ?_) _ ?_
      · rcases List.mem_append.mp member with text | signal
        · simp only [List.mem_ite_nil_left, List.mem_singleton] at text
          rw [text.2]
        · simp only [List.mem_ite_nil_right, List.mem_singleton] at signal
          rw [signal.2]
      · rw [GatewayStream.feed_announces]
        exact ih _ (stream.feed_signalled table part signalled)

variable {world : World} {holds : Ledger → Prop}

/-- An event that comes late is dropped with its report. -/
theorem checkEvent_late (config : Config) (late : (world.cancelRequested || world.overdue config) = true) :
    Ends (checkEvent config) (fun _ _ => False) (fun _ after => after.ledger = world.ledger) world := by
  unfold checkEvent checkAnswerDeadline
  simp only [ends_bind, ends_observe, ends_ite]
  cases stopped : world.cancelRequested with
  | true => rfl
  | false =>
      rw [stopped, Bool.false_or] at late
      unfold World.overdue at late
      cases deadline : config.answerDeadline with
      | none => simp [deadline] at late
      | some deadline' =>
          cases finalising : world.finalisingCancel with
          | true => simp [finalising] at late
          | false =>
              have passed : deadline' ≤ world.clock.headD 0 := by simpa [deadline, finalising] using late
              simp only [Bool.false_eq_true, ↓reduceIte, readClock, ends_bind, ends_transition, ends_ite,
                ends_raise, passed]
              rfl

/-- An event that comes in time passes its check. -/
theorem checkEvent_timely (config : Config)
    (timely : (world.cancelRequested || world.overdue config) = false) :
    Ends (checkEvent config) (fun _ after => after.ledger = world.ledger) (fun _ _ => False) world := by
  obtain ⟨unstopped, early⟩ := Bool.or_eq_false_iff.mp timely
  unfold World.overdue at early
  unfold checkEvent checkAnswerDeadline
  simp only [ends_bind, ends_observe, ends_ite, unstopped, Bool.false_eq_true, ↓reduceIte]
  cases deadline : config.answerDeadline with
  | none => rfl
  | some deadline' =>
      cases finalising : world.finalisingCancel with
      | true => rfl
      | false =>
          have ahead : ¬ deadline' ≤ world.clock.headD 0 := by simpa [deadline, finalising] using early
          simp only [readClock, ends_bind, ends_transition, ends_ite, ahead, ↓reduceIte]
          rfl

/-- The tool calls of an event make its turn narrate. -/
def StreamEvent.narrates (event : StreamEvent) (seams : Seams) (turn : Turn) : Bool :=
  turn.narrating || (seams.narrate.isSome && (event.toolCallStarted || !event.toolCalls.isEmpty))

section

variable (config : Config) (seams : Seams)

theorem classify_narrates (event : StreamEvent) (turn : Turn) :
    Ends (classify config seams event turn)
      (fun classified _ => classified.narrating = event.narrates seams turn) (fun _ _ => True) world := by
  unfold classify StreamEvent.narrates
  cases seams.narrate with
  | none => simp
  | some number =>
      simp only [ends_ite, ends_bind, Option.isSome_some, Bool.true_and]
      split
      · next starts =>
          simp only [Bool.and_eq_true] at starts
          refine Ends.mono (Ends.trivial _ _) (fun _ middle _ => ?_) (fun _ _ _ => True.intro)
          refine Ends.mono (Ends.trivial _ _) (fun _ after _ => ?_) (fun _ _ _ => True.intro)
          simp [starts.1]
      · next stays =>
          rw [ends_pure]
          cases narrating : turn.narrating with
          | true => rfl
          | false =>
              rw [narrating] at stays
              simpa using stays

/-- An event without a report leaves the accounts alone. -/
theorem handleEvent_unreported (event : StreamEvent) (turn : Turn) (unreported : event.usage = none)
    (now : world.Books holds) :
    Ends (handleEvent config seams event turn)
      (fun handled after => after.Books holds ∧ handled.narrating = event.narrates seams turn)
      (fun _ after => after.Books holds) world := by
  unfold handleEvent
  rw [ends_bind]
  refine Ends.mono (Ends.and (classify_keeps config seams event turn world now)
    (classify_narrates config seams event turn)) ?_ (fun _ _ broken => broken.1)
  rintro classified middle ⟨kept, narrates⟩
  rw [ends_bind]
  refine Ends.mono (Keeps.doWhen (forward_keeps config seams _ _) middle kept) ?_ (fun _ _ broken => broken)
  intro _ after later
  rw [unreported]
  exact ⟨later, narrates⟩

/-- A report that passed its check is charged to the active model before anything can fail. -/
theorem handleEvent_reported (event : StreamEvent) (turn : Turn) (usage : TokenUsage)
    (reports : event.usage = some usage) (quiet : event.text = [])
    (narrated : event.narrates seams turn = turn.narrating) :
    Ends (handleEvent config seams event turn)
      (fun handled after => after.ledger = { world.ledger with
          usage := ⟨world.ledger.usage.totals.add usage, some usage.promptTokens⟩ } ∧
        handled.narrating = event.narrates seams turn)
      (fun _ _ => False) world := by
  have classified : classify config seams event turn = pure turn := by
    unfold classify
    unfold StreamEvent.narrates at narrated
    split
    · next number narrating =>
        rw [narrating] at narrated
        refine if_neg fun starts => ?_
        simp only [Bool.and_eq_true, Bool.not_eq_true'] at starts
        simp [starts.1, starts.2] at narrated
    · rfl
  unfold handleEvent
  rw [classified, reports, quiet]
  exact ⟨rfl, narrated.symm⟩

/-- One event that arrives keeps the balance. -/
theorem event_charges (event : StreamEvent) (turn : Turn)
    (reporting : event.usage.isSome → event.text = [] ∧ event.narrates seams turn = turn.narrating)
    (charging : world.Books Ledger.Charging) :
    Ends (do receive config event.usage; checkEvent config; handleEvent config seams event turn)
      (fun handled after => after.Books Ledger.Charging ∧ handled.narrating = event.narrates seams turn)
      (fun _ after => after.Books Ledger.Charging) world := by
  cases reports : event.usage with
  | none =>
      unfold receive
      simp only [ends_bind, ends_pure]
      refine Ends.mono (checkEvent_keeps config world charging) ?_ (fun _ _ broken => broken)
      intro _ checked later
      exact handleEvent_unreported config seams event turn reports later
  | some usage =>
      obtain ⟨quiet, narrated⟩ := reporting (by rw [reports]; rfl)
      unfold receive
      simp only [ends_bind, ends_update]
      obtain ⟨balanced, unrecorded, armed, uncommitted⟩ := charging
      cases late : world.cancelRequested || world.overdue config with
      | true =>
          refine Ends.mono (checkEvent_late config (by exact late)) (fun _ _ never => never.elim) ?_
          intro _ after same
          unfold World.Books
          rw [same]
          exact ⟨balanced.drop usage, unrecorded, armed, uncommitted⟩
      | false =>
          refine Ends.mono (checkEvent_timely config (by exact late)) ?_ (fun _ _ never => never.elim)
          intro _ checked same
          refine Ends.mono (handleEvent_reported config seams event turn usage reports quiet narrated) ?_
            (fun _ _ never => never.elim)
          rintro handled after ⟨charged, narrates⟩
          refine ⟨?_, narrates⟩
          unfold World.Books
          rw [charged, same]
          exact ⟨balanced.add usage _, unrecorded, armed, uncommitted⟩

/-- The loop over the events of a completion keeps the balance. -/
theorem consume_charges (broken : Option (Problem × Bool)) (events : List StreamEvent) :
    ∀ (announced : Bool) (turn : Turn), Reporting announced events →
      (seams.narrate.isSome = true → announced = true → turn.narrating = true) →
      Keeps (World.Books Ledger.Charging) (consume config seams broken events turn) := by
  induction events with
  | nil =>
      intro announced turn _ _
      refine (awaitEvent_keeps config).bind fun _ => ?_
      cases broken with
      | some fault => exact Keeps.raise _
      | none => exact (checkEvent_keeps config).bind fun _ => Keeps.pure turn
  | cons event rest ih =>
      rintro announced turn ⟨reports, reporting⟩ narrated
      refine (awaitEvent_keeps config).bind fun _ world charging => ?_
      have stays : event.usage.isSome → event.text = [] ∧ event.narrates seams turn = turn.narrating := by
        intro some'
        obtain ⟨quiet, unannounced, called⟩ := reports some'
        refine ⟨quiet, ?_⟩
        unfold StreamEvent.narrates
        rw [unannounced, Bool.false_or]
        cases narrating : turn.narrating with
        | true => rfl
        | false =>
            by_contra other
            simp only [Bool.false_or, Bool.and_eq_false_iff, not_or, Bool.not_eq_false, Bool.not_eq_true',
              List.isEmpty_eq_false_iff] at other
            simp [narrated other.1 (called other.2)] at narrating
      have charges := event_charges config seams event turn stays charging
      simp only [ends_bind] at charges ⊢
      refine Ends.mono charges (fun _ received checks => ?_) (fun _ _ later => later)
      refine Ends.mono checks (fun _ checked handles => ?_) (fun _ _ later => later)
      refine Ends.mono handles ?_ (fun _ _ later => later)
      rintro handled after ⟨later, narrates⟩
      refine ih (announced || event.toolCallStarted) handled reporting ?_ after later
      intro narrating started
      rw [narrates]
      unfold StreamEvent.narrates
      rcases Bool.or_eq_true_iff.mp started with earlier | now
      · rw [narrated narrating earlier, Bool.true_or]
      · simp [narrating, now]

theorem streamOneTurn_charges :
    Keeps (World.Books Ledger.Charging) (streamOneTurn config seams) := by
  refine openCompletion_keeps.bind fun completion => Keeps.ensuring ?_ awaitContained_keeps
  refine consume_charges config seams completion.broken _ false {} ?_ (by simp)
  exact GatewayStream.read_reporting config.table completion.broken.isSome completion.parts {}
    fun called => absurd rfl called

theorem attemptTurn_charges : Keeps (World.Books Ledger.Charging) (attemptTurn config seams) := by
  refine (checkCancelled_keeps config).bind fun _ => (claimModelCall_keeps config).bind fun _ => ?_
  refine Keeps.catching ((streamOneTurn_charges config seams).bind fun _ => Keeps.pure _)
    fun interrupt answer handles => ?_
  split at handles
  · cases handles
    exact (Keeps.observe _).bind fun _ => Keeps.ite (Keeps.raise _) (recoverAttempt_keeps _)
  · exact nomatch handles

theorem attemptTurns_charges (attempts : Nat) :
    ∀ last, Keeps (World.Books Ledger.Charging) (attemptTurns config seams attempts last) := by
  induction attempts with
  | zero =>
      intro last
      cases last with
      | none => exact Keeps.raise _
      | some problem => exact Keeps.pure _
  | succ attempts ih =>
      intro last
      refine (Keeps.doWhen awaits_keeps).bind fun _ => (attemptTurn_charges config seams).bind fun result => ?_
      cases result with
      | ok turn => exact Keeps.pure _
      | error problem => exact ih (some problem)

end

theorem rebindRoute_charges (candidate : Text) :
    Keeps (World.Books Ledger.Charging) (rebindRoute candidate) :=
  Keeps.update fun _ charging =>
    ⟨charging.balanced.failOver candidate, charging.unrecorded, charging.armed, charging.uncommitted⟩

/-- Every failover down the list of candidates keeps the balance. -/
theorem failover_charges (config : Config) (seams : Seams) (candidates : List Text) :
    ∀ last, Keeps (World.Books Ledger.Charging) (failover config seams candidates last) := by
  induction candidates with
  | nil => exact fun last => Keeps.raise _
  | cons candidate rest ih =>
      intro last
      refine Keeps.bind (Keeps.update fun _ => id) fun _ => resolveCandidate_keeps.bind fun _ => ?_
      refine Keeps.ite ((rebindRoute_charges candidate).bind fun _ => mayRefuse_keeps.bind fun _ => ?_)
        (ih last)
      refine (attemptTurns_charges config seams _ none).bind fun result => ?_
      cases result with
      | ok turn => exact Keeps.pure turn
      | error problem => exact ih problem

theorem streamTurnResilient_charges (config : Config) (seams : Seams) (allowFailover : Bool) :
    Keeps (World.Books Ledger.Charging) (streamTurnResilient config seams allowFailover) := by
  have attempts : Keeps (World.Books Ledger.Charging) (runAttempts config seams allowFailover) := by
    refine (attemptTurns_charges config seams _ none).bind fun result => ?_
    cases result with
    | ok turn => exact Keeps.pure turn
    | error problem =>
        exact Keeps.ite ((Keeps.observe _).bind fun _ => failover_charges config seams _ problem)
          (Keeps.raise _)
  exact Keeps.bind (Keeps.update fun _ => id) fun _ => Keeps.ite (expiring_keeps attempts _ _) attempts

theorem toolLoop_charges (config : Config) (turns : Nat) :
    ∀ number external evidence,
      Keeps (World.Books Ledger.Charging) (toolLoop config turns number external evidence) := by
  induction turns with
  | zero => exact fun number external evidence => Keeps.pure _
  | succ turns ih =>
      intro number external evidence
      refine (checkCancelled_keeps config).bind fun _ => mayRefuse_keeps.bind fun _ => ?_
      refine (emit_keeps _).bind fun _ => (streamTurnResilient_charges config _ true).bind fun turn => ?_
      refine (emit_keeps _).bind fun _ => Keeps.ite (Keeps.pure _) ?_
      split
      · exact Keeps.pure _
      · refine Keeps.ite (Keeps.pure _) ((checkCancelled_keeps config).bind fun _ => ?_)
        refine (runToolBatch_keeps config _).bind fun outcomes => (checkCancelled_keeps config).bind fun _ => ?_
        exact mayRefuse_keeps.bind fun _ => ih _ _ _

theorem synthesise_charges (config : Config) : Keeps (World.Books Ledger.Charging) (synthesise config) := by
  refine (checkCancelled_keeps config).bind fun _ => mayRefuse_keeps.bind fun _ => ?_
  refine (emit_keeps _).bind fun _ => (streamTurnResilient_charges config _ true).bind fun turn => ?_
  exact (emit_keeps _).bind fun _ => Keeps.pure turn

theorem continueAnswer_charges (config : Config) (turn : Turn) :
    Keeps (World.Books Ledger.Charging) (continueAnswer config turn) := by
  refine Keeps.ite (mayRefuse_keeps.bind fun _ => Keeps.bind ?_ fun continued => ?_) (Keeps.pure turn)
  · refine Keeps.catching ((streamTurnResilient_charges config _ false).bind fun _ => Keeps.pure _)
      fun interrupt answer handles => ?_
    cases interrupt <;> cases handles <;> exact Keeps.pure none
  · cases continued with
    | none => exact Keeps.pure turn
    | some extra => exact (publishText_keeps config _).bind fun _ => Keeps.pure _

/-- From the turns of an answer the program commits it, or it is interrupted. -/
def Concludes {α : Type} (program : Coroutine α) : Prop :=
  ∀ world : World, world.Books Ledger.Charging →
    Ends program (fun _ after => after.Books Ledger.Committed)
      (fun _ after => after.Books Ledger.Interrupted) world

theorem Concludes.after {α β : Type} {program : Coroutine β} {next : β → Coroutine α}
    (charges : Keeps (World.Books Ledger.Charging) program) (concludes : ∀ value, Concludes (next value)) :
    Concludes (program >>= next) :=
  fun _ charging => charges.then_ends (fun _ _ later => Or.inr (Or.inl later)) charging concludes

/-- The rows of the answer are drafted into its transaction. -/
theorem recordUsageScopes_drafts (charging : world.Books Ledger.Charging) :
    Ends recordUsageScopes (fun _ after => after.Books Ledger.Drafted)
      (fun _ after => after.Books Ledger.Charging) world :=
  awaits_keeps.then_ends (fun _ _ later => later) charging fun _ _ later =>
    ⟨⟨later.balanced, later.unrecorded, later.armed, later.uncommitted⟩, rfl⟩

/-- The drafted rows are committed once, and the salvage is disarmed. -/
theorem completeAnswer_commits (config : Config) (drafted : world.Books Ledger.Drafted) :
    Ends (completeAnswer config) (fun _ after => after.Books Ledger.Committed)
      (fun _ after => after.Books Ledger.Interrupted) world := by
  have lands (before : World) (kept : before.Books Ledger.Drafted) :
      World.Books Ledger.Doubtful { before with
        stored := before.draft, rows := before.rows ++ before.draftRows } := by
    refine ⟨kept.balanced, ?_, kept.uncommitted⟩
    have rows : before.rows = [] := kept.unrecorded
    have draft : before.draftRows = before.ledger.scopeRows := kept.drafted
    change before.rows ++ before.draftRows = before.ledger.scopeRows
    rw [rows, draft, List.nil_append]
  refine (checkCancelled_keeps config).then_ends (fun _ _ later => Or.inr (Or.inl later.toCharging))
    drafted fun _ checked drafted' => ?_
  rw [ends_bind, ends_update, ends_bind]
  refine Ends.mono (commitWith_lands lands (by exact drafted')) ?_ ?_
  · intro _ committed doubtful
    exact ⟨doubtful.balanced, doubtful.recorded, rfl, rfl⟩
  · rintro _ after (drafted'' | doubtful)
    · exact Or.inr (Or.inl drafted''.toCharging)
    · exact Or.inr (Or.inr (Or.inl doubtful))

/-- The answer is committed with its rows, and what follows leaves the accounts alone. -/
theorem Concludes.commit {config : Config} {next : Coroutine Unit}
    (drafted : world.Books Ledger.Drafted) (follows : Keeps (World.Books Ledger.Committed) next) :
    Ends (do completeAnswer config; next) (fun _ after => after.Books Ledger.Committed)
      (fun _ after => after.Books Ledger.Interrupted) world := by
  rw [ends_bind]
  refine Ends.mono (completeAnswer_commits config drafted) ?_ (fun _ _ last => last)
  intro _ committed now
  exact Ends.mono (follows committed now) (fun _ _ last => last)
    (fun _ _ last => Or.inr (Or.inr (Or.inr last)))

theorem askQuestion_concludes (config : Config) (aftermath : Aftermath) (question : Text) :
    Concludes (askQuestion config aftermath question) := by
  refine Concludes.after awaits_keeps fun _ => Concludes.after (persist_keeps _) fun _ => ?_
  intro persisted charging
  rw [ends_bind]
  refine Ends.mono (recordUsageScopes_drafts charging) ?_ (fun _ _ last => Or.inr (Or.inl last))
  intro _ recorded drafted
  refine awaits_keeps.then_ends (fun _ _ last => Or.inr (Or.inl last.toCharging)) drafted
    fun _ audited drafted' => Concludes.commit drafted' ?_
  exact (emit_keeps _).bind fun _ => publishTerminalDone_keeps config aftermath _ _

theorem suggestFollowups_keeps (aftermath : Aftermath) :
    Keeps (World.Books holds) (suggestFollowups aftermath) := by
  refine (runFollowupSuggestions_keeps aftermath).bind fun suggestions => Keeps.doWhen ?_
  exact nextSeq_keeps.bind fun seq => publishOn_keeps (Keeps.pure _) seq _

theorem finishAnswer_concludes (config : Config) (aftermath : Aftermath) (cleaned : Cleaned)
    (finishReason : Text) : Concludes (finishAnswer config aftermath cleaned finishReason) := by
  unfold finishAnswer
  generalize noSourcesFallback = fallback
  refine Concludes.after (checkCancelled_keeps config) fun _ => Concludes.after (emit_keeps _) fun _ => ?_
  refine Concludes.after (persist_keeps _) fun _ => Concludes.after awaits_keeps fun _ => ?_
  refine Concludes.after (emitAll_keeps _) fun _ => Concludes.after (emitAll_keeps _) fun _ => ?_
  refine Concludes.after awaits_keeps fun _ => Concludes.after (emit_keeps _) fun _ => ?_
  intro announced charging
  rw [ends_bind]
  refine Ends.mono (recordUsageScopes_drafts charging) ?_ (fun _ _ last => Or.inr (Or.inl last))
  intro _ recorded drafted
  refine Concludes.commit drafted ?_
  exact (publishTerminalDone_keeps config aftermath _ _).bind fun _ =>
    Keeps.doWhen (suggestFollowups_keeps aftermath)

theorem deliver_concludes (config : Config) (permitted : List Text) (aftermath : Aftermath) (turn : Turn)
    (evidence : Evidence) : Concludes (answer.deliver config permitted aftermath turn evidence) := by
  refine Concludes.after (continueAnswer_charges config turn) fun turn' => ?_
  refine Concludes.after (cleanAnswer_keeps config permitted evidence _) fun cleaned => ?_
  refine Concludes.after (replaceAnswer_keeps config _ cleaned) fun _ => ?_
  exact Concludes.after (fallBack_keeps config cleaned) fun final =>
    finishAnswer_concludes config aftermath final _

/-- The preparation of an answer arms its salvage. -/
theorem prepareAnswer_ends (config : Config) (blank : world.Books Ledger.Blank) :
    Ends (prepareAnswer config) (fun _ after => after.Books Ledger.Charging)
      (fun _ after => after.Books Ledger.Blank) world := by
  have selects : Keeps (World.Books Ledger.Blank) (update fun world : World =>
      { world with route := ⟨config.model, config.fallbacks, []⟩ } : Coroutine Unit) :=
    Keeps.update fun _ kept => ⟨kept.unreported, rfl, kept.unused, kept.unrecorded, kept.disarmed,
      kept.uncommitted⟩
  have raises : ∀ (_ : Interrupt) (after : World), after.Books Ledger.Blank → after.Books Ledger.Blank :=
    fun _ _ kept => kept
  refine (emit_keeps _).then_ends raises blank fun _ _ blank => ?_
  refine awaits_keeps.then_ends raises blank fun _ _ blank => selects.then_ends raises blank fun _ _ blank => ?_
  refine awaits_keeps.then_ends raises blank fun _ _ blank => ?_
  refine mayRefuse_keeps.then_ends raises blank fun _ _ blank => ?_
  refine (emit_keeps _).then_ends raises blank fun _ last blank => ?_
  exact ⟨Ledger.balanced_of_empty blank.unreported blank.unspent rfl, blank.unrecorded, rfl,
    blank.uncommitted⟩

/-- An answer is committed with its rows, or it is interrupted. -/
theorem answer_concludes (config : Config) (permitted : List Text) (aftermath : Aftermath)
    (blank : world.Books Ledger.Blank) :
    Ends (answer config permitted aftermath) (fun _ after => after.Books Ledger.Committed)
      (fun _ after => after.Books Ledger.Interrupted) world := by
  unfold answer
  rw [ends_bind]
  refine Ends.mono (prepareAnswer_ends config blank) ?_ (fun _ _ later => Or.inl later)
  intro _ prepared charging
  refine (toolLoop_charges config _ _ _ _).then_ends (fun _ _ later => Or.inr (Or.inl later)) charging ?_
  rintro ⟨ended, evidence⟩ looped charging'
  cases ended with
  | asked question => exact askQuestion_concludes config aftermath question looped charging'
  | answered turn => exact deliver_concludes config permitted aftermath turn evidence looped charging'
  | exhausted =>
      exact Concludes.after (synthesise_charges config)
        (fun turn => deliver_concludes config permitted aftermath turn evidence) looped charging'

/-- The accounts of the guarded block of `run`. -/
theorem produce_concludes (config : Config) (permitted : List Text) (aftermath : Aftermath)
    (blank : world.Books Ledger.Blank) :
    Ends (produce config permitted aftermath) (fun _ after => after.Books Ledger.Committed)
      (fun _ after => after.Books Ledger.Interrupted) world := by
  have early : ∀ (_ : Interrupt) (after : World), after.Books Ledger.Blank → after.Books Ledger.Interrupted :=
    fun _ _ kept => Or.inl kept
  refine (emit_keeps _).then_ends early blank fun _ _ blank => ?_
  refine (checkCancelled_keeps config).then_ends early blank fun _ _ blank => ?_
  refine (checkStart_keeps config).then_ends early blank fun _ _ blank => ?_
  refine awaits_keeps.then_ends early blank fun _ opened blank => ?_
  have restores : Ends (restoringContext config (answer config permitted aftermath))
      (fun _ after => after.Books Ledger.Committed) (fun _ after => after.Books Ledger.Interrupted)
      opened := by
    unfold restoringContext
    rw [ends_catching]
    refine Ends.mono (answer_concludes config permitted aftermath blank) (fun _ _ last => last) ?_
    intro interrupt after interrupted
    cases interrupt with
    | app problem =>
        cases rejected : (config.restoresContext && problem.code = "context_too_large".toList) with
        | true =>
            simp only [rejected, ↓reduceIte]
            exact awaits_keeps.then_ends (fun _ _ last => last) interrupted fun _ _ last => last
        | false =>
            simp only [rejected, Bool.false_eq_true, ↓reduceIte]
            exact interrupted
    | _ => exact interrupted
  have releases {holds : Ledger → Prop} : Keeps (World.Books holds)
      (do let _ ← awaitOn aftermath.sessionClose : Coroutine Unit) :=
    (awaitOn_keeps _).bind fun _ => Keeps.pure ()
  rw [ends_ensuring]
  refine Ends.mono restores ?_ ?_
  · intro _ after committed
    exact Ends.mono (releases after committed) (fun _ _ last => last)
      (fun _ _ last => Or.inr (Or.inr (Or.inr last)))
  · exact fun _ after interrupted => releases after interrupted

end LumenCopilot.Chat
