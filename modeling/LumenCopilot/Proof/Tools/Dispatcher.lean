import LumenCopilot.Construction.Tools.Batch
import LumenCopilot.Proof.Library.Program

namespace LumenCopilot.Tools

open Python Library

variable {config : Config} {batch : Batch}

/-- This is how far the dispatcher has come: how many tasks it has not received, whether a call runs
in its own coroutine, whether every call so far has returned, and whether it gave up its abort. -/
structure Progress where
  outstanding : Nat
  serial : Bool
  clean : Bool
  abandoned : Bool

def Progress.initial : Progress := ⟨0, false, true, false⟩

/-- The dispatcher fans out safe calls only and runs a call itself only when every earlier call has
returned. -/
def Progress.permits (config : Config) (batch : Batch) (s : Progress) : BatchAsk → Prop
  | .fanOut places => s.serial = false ∧ ∀ place ∈ places, place ∈ batch.safe config
  | .completed => s.serial = false
  | .gather => s.serial = false
  | .beginRun _ => s.outstanding = 0 ∧ s.serial = false ∧ s.clean = true
  | .endRun => s.serial = true
  | _ => True

/-- This is what an answer changes. -/
def Progress.moves (s : Progress) : (question : BatchAsk) → question.Answer → Progress → Prop
  | .fanOut places, _, t => t = { s with outstanding := s.outstanding + places.length }
  | .completed, .ok _, t => t = { s with outstanding := s.outstanding - 1 }
  | .completed, .error _, t => t.serial = s.serial ∧ t.clean = false ∧ t.abandoned = s.abandoned
  | .abortPersistence, .error _, t => t = { s with abandoned := true }
  | .gather, _, t => t = { s with outstanding := 0, clean := false }
  | .beginRun _, _, t => t = { s with serial := true }
  | .endRun, .ok _, t => t = { s with serial := false }
  | .endRun, .error _, t => t = { s with serial := false, clean := false }
  | _, _, t => t = s

/-- This is the contract of a dispatcher. -/
def dispatching (config : Config) (batch : Batch) : Contract BatchAsk BatchAsk.Answer Progress :=
  ⟨Progress.permits config batch, Progress.moves⟩

/-- The dispatcher leaves no task behind unless it gave up its abort. -/
def Left (t : Progress) : Prop :=
  t.serial = false ∧ (t.outstanding = 0 ∨ t.abandoned = true)

/-- Every call so far has returned. -/
def Idle (s : Progress) : Prop := s.outstanding = 0 ∧ s.serial = false ∧ s.clean = true

/-- A program that changes nothing. -/
def Neutral (config : Config) (batch : Batch) {α : Type} (program : BatchOp α) : Prop :=
  ∀ s, program.Meets (dispatching config batch) (fun _ t => t = s) s

theorem publishToolCall_neutral (place : Nat) : Neutral config batch (publishToolCall place) := by
  refine fun s => ⟨trivial, fun answer t moved => ?_⟩
  obtain rfl := moved
  cases answer <;> rfl

theorem checkCancelled_neutral : Neutral config batch checkCancelled := by
  refine fun s => ⟨trivial, fun answer t moved => ?_⟩
  obtain rfl := moved
  cases answer <;> rfl

theorem publishToolResult_neutral (place : Nat) : Neutral config batch (publishToolResult place) := by
  refine fun s => ⟨trivial, fun answer t moved => ?_⟩
  obtain rfl := moved
  cases answer <;> rfl

theorem auditRetrieval_neutral (place : Nat) : Neutral config batch (auditRetrieval place) := by
  refine fun s => ⟨trivial, fun answer t moved => ?_⟩
  obtain rfl := moved
  cases answer <;> rfl

theorem Neutral.then {α β : Type} {program : BatchOp α} {next : α → BatchOp β} {s : Progress}
    {ends : Except Interrupt β → Progress → Prop} (neutral : Neutral config batch program)
    (raised : ∀ error, ends (.error error) s)
    (returned : ∀ value, (next value).Meets (dispatching config batch) ends s) :
    (program >>= next).Meets (dispatching config batch) ends s := by
  refine (neutral s).then (fun error t same => ?_) fun value t same => ?_
  · rw [same]
    exact raised error
  · rw [same]
    exact returned value

theorem forEach_neutral {body : Nat → BatchOp Unit} (neutral : ∀ place, Neutral config batch (body place))
    (places : List Nat) : Neutral config batch (forEach body places) := by
  induction places with
  | nil => exact fun s => rfl
  | cons place rest ih => exact fun s => (neutral place).then (fun _ => rfl) fun _ => ih s

/-- The loop over the tasks receives all of them or stops at an error. -/
theorem collect_meets (count : Nat) (done : Done) (s : Progress) (serial : s.serial = false)
    (clean : s.clean = true) (outstanding : s.outstanding = count) :
    (collect count done).Meets (dispatching config batch) (fun result t => t.serial = false ∧
      match result with | .ok _ => Idle t | .error _ => True) s := by
  induction count generalizing done s with
  | zero => exact ⟨serial, outstanding, serial, clean⟩
  | succ count ih =>
      refine ⟨serial, fun answer t moved => ?_⟩
      cases answer with
      | error error => exact ⟨moved.1.trans serial, trivial⟩
      | ok result =>
          obtain rfl := moved
          refine checkCancelled_neutral.then (fun _ => ⟨serial, trivial⟩) fun _ => ?_
          refine (publishToolResult_neutral _).then (fun _ => ⟨serial, trivial⟩) fun _ => ?_
          exact ih _ _ serial clean (by simp [outstanding])

/-- An abort leaves no task behind unless it is given up. -/
theorem abortBatch_meets (error : Interrupt) (s : Progress) (serial : s.serial = false) :
    (abortBatch error).Meets (dispatching config batch) (fun result t => Left t ∧ ∀ done, result ≠ .ok done)
      s := by
  refine ⟨trivial, fun _ t moved => ?_⟩
  obtain rfl := moved
  refine ⟨trivial, fun answer t moved => ?_⟩
  cases answer with
  | error reason =>
      obtain rfl := moved
      exact ⟨⟨serial, .inr rfl⟩, nofun⟩
  | ok _ =>
      obtain rfl := moved
      refine ⟨serial, fun answer t moved => ?_⟩
      obtain rfl := moved
      cases answer <;> exact ⟨⟨serial, .inl rfl⟩, nofun⟩

/-- The dispatcher goes on only when every call so far has returned. -/
def Goes {α : Type} (result : Except Interrupt α) (t : Progress) : Prop :=
  match result with
  | .ok _ => Idle t
  | .error _ => Left t

theorem Idle.left {s : Progress} (idle : Idle s) : Left s := ⟨idle.2.1, .inl idle.1⟩

theorem fanOutCalls_meets (retrieval : Nat → Bool) (places : List Nat) (s : Progress)
    (idle : Idle s) (safe : ∀ place ∈ places, place ∈ batch.safe config) : (fanOutCalls retrieval places).Meets (dispatching config batch) Goes s := by
  refine (forEach_neutral publishToolCall_neutral places).then (fun _ => idle.left) fun _ => ?_
  refine ⟨⟨idle.2.1, safe⟩, fun _ t moved => ?_⟩
  obtain rfl := moved
  show Program.Meets _ (Program.catching _ _ >>= _) _ _
  rw [meets_bind, meets_catching]
  have collects := @collect_meets config batch places.length []
    { s with outstanding := s.outstanding + places.length } idle.2.1 idle.2.2 (by simp [idle.1])
  refine collects.mono fun result t ended => ?_
  cases result with
  | error error =>
      refine (abortBatch_meets error t ended.1).mono fun result t aborted => ?_
      cases result with
      | ok done => exact absurd rfl (aborted.2 done)
      | error error => exact aborted.1
  | ok done =>
      refine (forEach_neutral auditRetrieval_neutral _).then (fun _ => ended.2.left) fun _ => ?_
      exact ended.2

theorem runInline_meets (place : Nat) (s : Progress) (idle : Idle s) :
    (runInline place).Meets (dispatching config batch) Goes s := by
  refine ⟨idle, fun _ t moved => ?_⟩
  obtain rfl := moved
  refine ⟨rfl, fun answer t moved => ?_⟩
  cases answer with
  | ok result =>
      obtain rfl := moved
      exact ⟨idle.1, rfl, idle.2.2⟩
  | error error =>
      obtain rfl := moved
      exact ⟨rfl, .inl idle.1⟩

theorem serialCalls_meets (retrieval : Nat → Bool) (places : List Nat) (done : Done) (s : Progress)
    (idle : Idle s) : (serialCalls retrieval places done).Meets (dispatching config batch) Goes s := by
  induction places generalizing done s with
  | nil => exact idle
  | cons place rest ih =>
      refine checkCancelled_neutral.then (fun _ => idle.left) fun _ => ?_
      refine (publishToolCall_neutral _).then (fun _ => idle.left) fun _ => ?_
      refine checkCancelled_neutral.then (fun _ => idle.left) fun _ => ?_
      refine (runInline_meets place s idle).then (fun _ _ left => left) fun result t idle => ?_
      refine checkCancelled_neutral.then (fun _ => Idle.left idle) fun _ => ?_
      have last : (do publishToolResult place; serialCalls retrieval rest (done ++ [(place, result)]) :
          BatchOp Done).Meets (dispatching config batch) Goes t :=
        (publishToolResult_neutral _).then (fun _ => Idle.left idle) fun _ => ih _ t idle
      split
      · exact (auditRetrieval_neutral _).then (fun _ => Idle.left idle) fun _ => last
      · exact last

/-- The dispatcher of a batch keeps its contract. -/
theorem runToolBatch_meets : (runToolBatch config batch).Meets (dispatching config batch) (fun _ t => Left t) .initial := by
  have idle : Idle .initial := ⟨rfl, rfl, rfl⟩
  have last (done : Done) (s : Progress) (idle : Idle s) :
      (do let done ← serialCalls batch.retrieval (batch.serialForm config) done
          pure ((List.range batch.calls.length).filterMap fun place => done.lookup place) :
        BatchOp (List ToolResult)).Meets (dispatching config batch) (fun _ t => Left t) s :=
    (serialCalls_meets _ _ _ s idle).then (fun _ _ left => left) fun _ _ idle => Idle.left idle
  unfold runToolBatch
  split
  · exact last [] _ idle
  · next place rest fanned =>
      have safe : ∀ other ∈ place :: rest, other ∈ batch.safe config := by
        rw [← fanned]
        unfold Batch.fanOut
        split
        · exact fun _ => id
        · nofun
      exact (fanOutCalls_meets _ (place :: rest) _ idle safe).then (fun _ _ left => left)
        fun done t idle => last done t idle

end LumenCopilot.Tools
