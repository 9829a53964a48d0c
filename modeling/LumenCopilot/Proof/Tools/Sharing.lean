import LumenCopilot.Construction.Tools.Sharing
import LumenCopilot.Proof.Library.Dict
import LumenCopilot.Proof.Library.Lists
import LumenCopilot.Proof.Library.Transition
import LumenCopilot.Proof.Python.Json

namespace LumenCopilot.Tools

open Python Library

theorem escapeControl_str {uuid : Uuid} {c : Char} (member : c ∈ uuid.str) :
    Json.escapeControl c = [c] := by
  rcases Uuid.mem_str member with digit | dash
  · obtain ⟨n, listed, same⟩ := List.any_eq_true.mp digit
    have table : ∀ n ∈ List.range 16, Json.escapeControl (hexDigit n) = [hexDigit n] := by decide
    rw [← beq_iff_eq.mp same]
    exact table n listed
  · subst dash
    rfl

/-- An identifier is quoted as it is. -/
theorem quoteUnicode_str (uuid : Uuid) :
    Json.quoteUnicode uuid.str = '"' :: (uuid.str ++ ['"']) := by
  have escapes : uuid.str.flatMap Json.escapeControl = uuid.str.flatMap fun c => [c] := by
    apply List.flatMap_congr
    intro c member
    exact escapeControl_str member
  rw [Json.quoteUnicode, escapes, List.flatMap_singleton']

/-- This is the text that is hashed. -/
def WebSearch.keyText (search : WebSearch) : Text := search.shared.sortKeys.dumpsUnicode

theorem WebSearch.keyText_eq (search : WebSearch) :
    search.keyText = "\x7b\"args\": ".toList ++ (search.normalised.sortKeys.dumpsUnicode ++
      (", \"tenant\": ".toList ++ (Json.quoteUnicode search.tenant.str ++
        (", \"user\": ".toList ++ (Json.quoteUnicode search.user.str ++ "\x7d".toList))))) := by
  have names : search.shared.sortKeys = .dict
      [("args".toList, search.normalised.sortKeys), ("tenant".toList, .str search.tenant.str),
        ("user".toList, .str search.user.str)] := by
    simp only [WebSearch.shared, Json.sortKeys, Json.sortFields]
    rfl
  rw [WebSearch.keyText, names]
  simp only [Json.dumpsUnicode, Json.dumpFieldsUnicode, List.append_assoc]
  rfl

/-- These searches have one principal and the same arguments. -/
structure WebSearch.Alike (search other : WebSearch) : Prop where
  tenant : search.tenant = other.tenant
  user : search.user = other.user
  arguments : search.normalised.sortKeys.dumpsUnicode = other.normalised.sortKeys.dumpsUnicode

/-- The two texts have one digest. -/
def WebSearch.Collides (search other : WebSearch) : Prop :=
  search.keyText ≠ other.keyText ∧
    Sha256.hexdigest (utf8 search.keyText) = Sha256.hexdigest (utf8 other.keyText)

theorem length_quoteUnicode_str (uuid : Uuid) : (Json.quoteUnicode uuid.str).length = 38 := by
  rw [quoteUnicode_str, List.length_cons, List.length_append, Uuid.length_str]
  rfl

theorem quoteUnicode_str_injective {a b : Uuid}
    (same : Json.quoteUnicode a.str = Json.quoteUnicode b.str) : a = b := by
  rw [quoteUnicode_str, quoteUnicode_str] at same
  exact Uuid.str_injective (List.append_cancel_right (List.cons.inj same).2)

/-- The text of a search has its principal at the end, at a fixed length. -/
theorem WebSearch.alike_of_keyText {search other : WebSearch}
    (same : search.keyText = other.keyText) : search.Alike other := by
  rw [keyText_eq, keyText_eq] at same
  obtain ⟨arguments, principal⟩ := List.append_inj' (List.append_cancel_left same) (by
    simp only [List.length_append, length_quoteUnicode_str])
  have tenant := List.append_inj (List.append_cancel_left principal)
    ((length_quoteUnicode_str _).trans (length_quoteUnicode_str _).symm)
  have user := List.append_inj (List.append_cancel_left tenant.2)
    ((length_quoteUnicode_str _).trans (length_quoteUnicode_str _).symm)
  exact ⟨quoteUnicode_str_injective tenant.1, quoteUnicode_str_injective user.1, arguments⟩

/-- Searches with one key are alike, unless their digests collide. -/
theorem WebSearch.alike_of_key {search other : WebSearch} (same : search.key = other.key) :
    search.Alike other ∨ search.Collides other := by
  by_cases texts : search.keyText = other.keyText
  · exact Or.inl (alike_of_keyText texts)
  · exact Or.inr ⟨texts, same⟩

namespace SearchTask

/-- The task was cancelled, and is not done or done as cancelled. -/
def isCancelled : SearchTask → Bool
  | .done outcome => outcome.isNone
  | task => task.isCancelling

/-- The task is done or on its way there by a cancellation. -/
def isEnding (task : SearchTask) : Bool := task.isCancelling || task.isDone

end SearchTask

def WebCaller.waits (place : Nat) (caller : WebCaller) : Bool := caller.stage = .shielded place

namespace Sharing

variable {state : Sharing}

/-- A caller waits for an execution of its key, awaits the end of a task that it cancelled, or left
with a result of its key unless it was cancelled. -/
def Placed (state : Sharing) (caller : WebCaller) : Prop :=
  match caller.stage with
  | .shielded place => ∃ execution, state.executions[place]? = some execution ∧
      caller.search.key = execution.search.key
  | .reaping place => caller.cancelled = true ∧ ∃ execution,
      state.executions[place]? = some execution ∧ execution.task.isEnding = true
  | .left outcome => caller.cancelled = false → ∃ (place : Nat) (execution : WebExecution)
      (result : ToolResult), state.executions[place]? = some execution ∧ execution.task = .done (some result) ∧
        outcome = some (execution.share caller.search.callId result) ∧
        caller.search.key = execution.search.key

/-- The invariant of the shared executions. -/
structure Sound (state : Sharing) : Prop where
  known : ∀ key place, state.webExecutions.lookup key = some place →
    ∃ execution, state.executions[place]? = some execution ∧ execution.search.key = key
  current : ∀ (place : Nat) (execution : WebExecution), state.executions[place]? = some execution →
    execution.task.isDone = false → state.webExecutions.lookup execution.search.key = some place
  counted : ∀ (place : Nat) (execution : WebExecution), state.executions[place]? = some execution →
    execution.waiters = state.callers.countP (WebCaller.waits place)
  deserted : ∀ (place : Nat) (execution : WebExecution), state.executions[place]? = some execution →
    execution.task.isCancelled = true → execution.waiters = 0
  placed : ∀ caller ∈ state.callers, state.Placed caller

theorem empty_sound : empty.Sound := by
  apply Sound.mk <;> simp [empty]

/-- An execution keeps its call and its end. -/
def Evolves (state after : Sharing) : Prop :=
  ∀ (place : Nat) (execution : WebExecution), state.executions[place]? = some execution →
    ∃ later : WebExecution, after.executions[place]? = some later ∧ later.search = execution.search ∧
      (execution.task.isDone = true → later.task = execution.task) ∧
      (execution.task.isEnding = true → later.task.isEnding = true)

variable {caller : WebCaller}

theorem Placed.evolves {after : Sharing} (evolves : state.Evolves after)
    (placed : state.Placed caller) : after.Placed caller := by
  obtain ⟨search, cancelled, stage⟩ := caller
  cases stage with
  | shielded place =>
      obtain ⟨execution, held, same⟩ := placed
      obtain ⟨later, there, kept, -, -⟩ := evolves place execution held
      exact ⟨later, there, kept ▸ same⟩
  | reaping place =>
      obtain ⟨cancelled, execution, held, ends⟩ := placed
      obtain ⟨later, there, -, -, ending⟩ := evolves place execution held
      exact ⟨cancelled, later, there, ending ends⟩
  | left outcome =>
      intro active
      obtain ⟨place, execution, result, held, finished, answered, same⟩ := placed active
      obtain ⟨later, there, kept, done, -⟩ := evolves place execution held
      refine ⟨place, later, result, there, ?_, ?_, kept ▸ same⟩
      · rw [done (by rw [finished]; rfl), finished]
      · rw [answered, WebExecution.share, WebExecution.share, kept]

variable {place : Nat} {execution : WebExecution}

theorem evolves_set {changed : WebExecution} {entries : Dict Text Nat} {callers : List WebCaller}
    (held : state.executions[place]? = some execution) (search : changed.search = execution.search)
    (done : execution.task.isDone = true → changed.task = execution.task)
    (ending : execution.task.isEnding = true → changed.task.isEnding = true) :
    state.Evolves ⟨state.executions.set place changed, entries, callers⟩ := by
  intro other found there
  by_cases same : other = place
  · subst same
    obtain rfl := Option.some.inj (held.symm.trans there)
    exact ⟨changed, (getElem?_set_iff held).mpr (Or.inl ⟨rfl, rfl⟩), search, done, ending⟩
  · exact ⟨found, (getElem?_set_iff held).mpr (Or.inr ⟨same, there⟩), rfl, fun _ => rfl, id⟩

variable {task : SearchTask}

theorem setTask_evolves (held : state.executions[place]? = some execution)
    (done : execution.task.isDone = true → task = execution.task)
    (ending : execution.task.isEnding = true → task.isEnding = true) :
    state.Evolves (state.setTask place execution task) :=
  @evolves_set state place execution { execution with task } _ _ held rfl done ending

theorem leave_evolves (i : Nat) (caller : WebCaller) (outcome : Option ToolResult)
    (held : state.executions[place]? = some execution) :
    state.Evolves (state.leave i caller place execution outcome) :=
  @evolves_set state place execution { execution with waiters := execution.waiters - 1 } _ _ held rfl
    (fun _ => rfl) id

/-- A task that is not done may change, and one that nobody waits for may end as cancelled. -/
theorem Sound.setTask (sound : state.Sound) (held : state.executions[place]? = some execution)
    (done : execution.task.isDone = true → task = execution.task)
    (ending : execution.task.isEnding = true → task.isEnding = true)
    (deserted : task.isCancelled = true → execution.waiters = 0) :
    (state.setTask place execution task).Sound where
  known key other listed := by
    obtain ⟨found, there, same⟩ := sound.known key other listed
    obtain ⟨later, after, search, -, -⟩ := setTask_evolves held done ending other found there
    exact ⟨later, after, search ▸ same⟩
  current other found there unfinished := by
    rcases (getElem?_set_iff held).mp there with ⟨rfl, rfl⟩ | ⟨-, there⟩
    · refine sound.current other execution held ?_
      cases finished : execution.task.isDone with
      | false => rfl
      | true =>
          have same := done finished
          exact absurd (same ▸ unfinished : execution.task.isDone = false) (by simp [finished])
    · exact sound.current other found there unfinished
  counted other found there := by
    rcases (getElem?_set_iff held).mp there with ⟨rfl, rfl⟩ | ⟨-, there⟩
    · exact sound.counted other execution held
    · exact sound.counted other found there
  deserted other found there cancelled := by
    rcases (getElem?_set_iff held).mp there with ⟨rfl, rfl⟩ | ⟨-, there⟩
    · exact deserted cancelled
    · exact sound.deserted other found there cancelled
  placed caller listed := (sound.placed caller listed).evolves (setTask_evolves held done ending)

variable {i : Nat}

/-- A caller may change that does not start or stop to wait. -/
theorem Sound.setCaller (sound : state.Sound) {changed : WebCaller}
    (held : state.callers[i]? = some caller)
    (waits : ∀ place, changed.waits place = caller.waits place) (placed : state.Placed changed) :
    Sound { state with callers := state.callers.set i changed } where
  known := sound.known
  current := sound.current
  counted place execution there := by
    rw [sound.counted place execution there]
    exact (countP_set_same held (waits place)).symm
  deserted := sound.deserted
  placed other listed := by
    rcases List.mem_or_eq_of_mem_set listed with listed | rfl
    · exact sound.placed other listed
    · exact placed

/-- A caller stops to wait. -/
theorem Sound.leave (sound : state.Sound) {outcome : Option ToolResult}
    (calls : state.callers[i]? = some caller) (shielded : caller.stage = .shielded place)
    (held : state.executions[place]? = some execution)
    (placed : state.Placed { caller with stage := .left outcome }) :
    (state.leave i caller place execution outcome).Sound where
  known key other listed := by
    obtain ⟨found, there, same⟩ := sound.known key other listed
    obtain ⟨later, after, search, -, -⟩ := 
      leave_evolves i caller outcome held other found there
    exact ⟨later, after, search ▸ same⟩
  current other found there unfinished := by
    rcases (getElem?_set_iff held).mp there with ⟨rfl, rfl⟩ | ⟨-, there⟩
    · exact sound.current other execution held unfinished
    · exact sound.current other found there unfinished
  counted other found there := by
    have counts := countP_set_eq calls { caller with stage := .left outcome } (WebCaller.waits other)
    have after : WebCaller.waits other { caller with stage := .left outcome } = false := rfl
    rw [after] at counts
    show _ = (state.callers.set i _).countP _
    rcases (getElem?_set_iff held).mp there with ⟨rfl, rfl⟩ | ⟨different, there⟩
    · have before : caller.waits other = true := decide_eq_true shielded
      rw [before] at counts
      have total := sound.counted other execution held
      simp only [Bool.false_eq_true, if_true, if_false] at counts ⊢
      omega
    · have before : caller.waits other = false := by
        simp [WebCaller.waits, shielded, Ne.symm different]
      rw [before] at counts
      rw [sound.counted other found there]
      simpa using counts.symm
  deserted other found there cancelled := by
    rcases (getElem?_set_iff held).mp there with ⟨rfl, rfl⟩ | ⟨-, there⟩
    · show execution.waiters - 1 = 0
      rw [sound.deserted other execution held cancelled]
    · exact sound.deserted other found there cancelled
  placed other listed := by
    have evolves := leave_evolves i caller outcome held
    rcases List.mem_or_eq_of_mem_set listed with listed | rfl
    · exact (sound.placed other listed).evolves evolves
    · exact placed.evolves evolves

/-- A stale execution may be forgotten. -/
theorem Sound.forget (sound : state.Sound) (key : Text) (place : Nat) :
    (state.forget key place).Sound := by
  unfold Sharing.forget
  split
  · next stale =>
    obtain ⟨execution, held, ended⟩ : ∃ execution, state.executions[place]? = some execution ∧
        execution.task.isStale = true := by
      simpa [Option.any_eq_true] using stale.1
    apply Sound.mk
    · intro other found listed
      by_cases same : other = key
      · rw [same, AList.lookup_erase] at listed
        contradiction
      · rw [AList.lookup_erase_ne same] at listed
        exact sound.known other found listed
    · intro other found there unfinished
      have listed := sound.current other found there unfinished
      by_cases same : found.search.key = key
      · rw [same, stale.2] at listed
        obtain rfl := Option.some.inj listed
        obtain rfl := Option.some.inj (held.symm.trans there)
        cases task : execution.task <;> simp [task, SearchTask.isStale, SearchTask.isDone] at ended unfinished
      · rw [AList.lookup_erase_ne same]
        exact listed
    · exact sound.counted
    · exact sound.deserted
    · exact sound.placed
  · exact sound

variable {key : Text}

theorem found_eq_some (finds : state.found key = some place) :
    state.webExecutions.lookup key = some place ∧
      ∀ execution, state.executions[place]? = some execution → execution.task.isStale = false := by
  obtain ⟨listed, fresh⟩ := Option.filter_eq_some_iff.mp finds
  refine ⟨listed, fun execution held => ?_⟩
  rw [held] at fresh
  simpa using fresh

theorem stale_of_found_eq_none (misses : state.found key = none)
    (listed : state.webExecutions.lookup key = some place)
    (held : state.executions[place]? = some execution) : execution.task.isStale = true := by
  rw [found, listed, Option.filter_some, held] at misses
  simpa using misses

theorem isDone_of_isStale (stale : task.isStale = true) : task.isDone = true := by
  cases task with
  | done outcome => rfl
  | created cancelling => contradiction
  | running cancelling => contradiction

theorem isCancelled_of_not_done (unfinished : ∀ outcome, task ≠ .done outcome) :
    task.isCancelled = task.isCancelling := by
  cases task with
  | done outcome => exact absurd rfl (unfinished outcome)
  | created cancelling => rfl
  | running cancelling => rfl

theorem append_evolves (added : WebExecution) (entries : Dict Text Nat) (callers : List WebCaller) :
    state.Evolves ⟨state.executions ++ [added], entries, callers⟩ := by
  intro place execution held
  exact ⟨execution, getElem?_snoc_iff.mpr (Or.inl held), rfl, fun _ => rfl, id⟩

/-- A caller waits for an execution that exists. -/
theorem Sound.countP_length (sound : state.Sound) :
    state.callers.countP (WebCaller.waits state.executions.length) = 0 := by
  apply List.countP_eq_zero.mpr
  intro caller listed waits
  have placed := sound.placed caller listed
  obtain ⟨search, cancelled, stage⟩ := caller
  obtain rfl : stage = .shielded state.executions.length := of_decide_eq_true waits
  obtain ⟨execution, held, -⟩ := placed
  exact absurd (List.getElem?_eq_some_iff.mp held).1 (Nat.lt_irrefl _)

/-- A call that finds no execution creates one. -/
theorem Sound.create (sound : state.Sound) {search : WebSearch}
    (misses : state.found search.key = none) : (state.create search).Sound where
  known key place listed := by
    by_cases same : key = search.key
    · subst same
      rw [Sharing.create, AList.lookup_insert] at listed
      obtain rfl := Option.some.inj listed
      exact ⟨_, getElem?_snoc_iff.mpr (Or.inr ⟨rfl, rfl⟩), rfl⟩
    · rw [Sharing.create, AList.lookup_insert_ne same] at listed
      obtain ⟨execution, held, keyed⟩ := sound.known key place listed
      exact ⟨execution, getElem?_snoc_iff.mpr (Or.inl held), keyed⟩
  current place execution there unfinished := by
    rcases getElem?_snoc_iff.mp there with held | ⟨rfl, rfl⟩
    · have listed := sound.current place execution held unfinished
      have different : execution.search.key ≠ search.key := by
        intro same
        have done := isDone_of_isStale (stale_of_found_eq_none misses (same ▸ listed) held)
        rw [done] at unfinished
        contradiction
      rw [Sharing.create, AList.lookup_insert_ne different]
      exact listed
    · rw [Sharing.create, AList.lookup_insert]
  counted place execution there := by
    show _ = (state.callers ++ [_]).countP _
    rw [List.countP_append]
    rcases getElem?_snoc_iff.mp there with held | ⟨rfl, rfl⟩
    · have within := (List.getElem?_eq_some_iff.mp held).1
      rw [sound.counted place execution held]
      simp [WebCaller.waits, within.ne']
    · rw [sound.countP_length]
      simp [WebCaller.waits]
  deserted place execution there cancelled := by
    rcases getElem?_snoc_iff.mp there with held | ⟨rfl, rfl⟩
    · exact sound.deserted place execution held cancelled
    · contradiction
  placed caller listed := by
    have evolves := @append_evolves state ⟨search, .created false, 1⟩
    rcases List.mem_append.mp listed with listed | new
    · exact (sound.placed caller listed).evolves (evolves _ _)
    · obtain rfl := List.mem_singleton.mp new
      exact ⟨_, getElem?_snoc_iff.mpr (Or.inr ⟨rfl, rfl⟩), rfl⟩

/-- A call joins an execution that is not cancelled. -/
theorem Sound.join (sound : state.Sound) {search : WebSearch}
    (keyed : execution.search.key = search.key) (held : state.executions[place]? = some execution)
    (fresh : execution.task.isStale = false) (active : execution.task.isCancelling = false) :
    (state.join search place execution).Sound := by
  unfold Sharing.join
  split
  · next outcome task =>
    apply Sound.mk
    · exact sound.known
    · exact sound.current
    · intro other found there
      rw [sound.counted other found there, List.countP_append]
      simp [WebCaller.waits]
    · exact sound.deserted
    · intro caller listed
      rcases List.mem_append.mp listed with listed | new
      · exact sound.placed caller listed
      · obtain rfl := List.mem_singleton.mp new
        intro _
        cases outcome with
        | none =>
            rw [task] at fresh
            contradiction
        | some result => exact ⟨place, execution, result, held, task, rfl, keyed.symm⟩
  · next unfinished =>
    have evolves := @evolves_set state place execution
      { execution with waiters := execution.waiters + 1 } state.webExecutions
      (state.callers ++ [⟨search, false, .shielded place⟩]) held rfl (fun _ => rfl) id
    apply Sound.mk
    · intro key other listed
      obtain ⟨found, there, same⟩ := sound.known key other listed
      obtain ⟨later, after, kept, -, -⟩ := evolves other found there
      exact ⟨later, after, kept ▸ same⟩
    · intro other found there running
      rcases (getElem?_set_iff held).mp there with ⟨rfl, rfl⟩ | ⟨-, there⟩
      · exact sound.current other execution held running
      · exact sound.current other found there running
    · intro other found there
      rw [List.countP_append]
      rcases (getElem?_set_iff held).mp there with ⟨rfl, rfl⟩ | ⟨different, there⟩
      · rw [← sound.counted other execution held]
        simp [WebCaller.waits]
      · rw [sound.counted other found there]
        simp [WebCaller.waits, Ne.symm different]
    · intro other found there cancelled
      rcases (getElem?_set_iff held).mp there with ⟨rfl, rfl⟩ | ⟨-, there⟩
      · have same := isCancelled_of_not_done unfinished
        exact absurd (same.symm.trans cancelled) (by simp [active])
      · exact sound.deserted other found there cancelled
    · intro caller listed
      rcases List.mem_append.mp listed with listed | new
      · exact (sound.placed caller listed).evolves evolves
      · obtain rfl := List.mem_singleton.mp new
        exact ⟨_, (getElem?_set_iff held).mpr (Or.inl ⟨rfl, rfl⟩), keyed.symm⟩

theorem isEnding_cancel (task : SearchTask) : task.cancel.isEnding = true := by
  cases task <;> rfl

theorem cancel_of_isDone (done : task.isDone = true) : task.cancel = task := by
  cases task with
  | done outcome => rfl
  | created cancelling => contradiction
  | running cancelling => contradiction

theorem isCancelled_of_isEnding (ending : task.isEnding = true)
    (dies : task.cancel.isCancelled = true) : task.isCancelled = true := by
  cases task with
  | done outcome => exact dies
  | created cancelling =>
      cases cancelling with
      | false => contradiction
      | true => rfl
  | running cancelling =>
      cases cancelling with
      | false => contradiction
      | true => rfl

/-- An execution that a caller waits for has a waiter. -/
theorem Sound.waiters_pos (sound : state.Sound) (calls : state.callers[i]? = some caller)
    (shielded : caller.stage = .shielded place) (held : state.executions[place]? = some execution) :
    0 < execution.waiters := by
  rw [sound.counted place execution held]
  apply List.countP_pos_iff.mpr
  exact ⟨caller, List.mem_of_getElem? calls, decide_eq_true shielded⟩

theorem Sound.wake (sound : state.Sound) {next : Sharing} (calls : state.callers[i]? = some caller)
    (shielded : caller.stage = .shielded place) (held : state.executions[place]? = some execution)
    (wakes : state.wake i caller place execution = some next) : next.Sound := by
  have present := sound.waiters_pos calls shielded held
  unfold Sharing.wake at wakes
  split at wakes
  · next cancelled =>
    have left := @Sound.leave state caller place execution i sound none calls shielded held
      fun active => absurd (cancelled.symm.trans active) (by decide)
    have there : (state.leave i caller place execution none).executions[place]? =
        some { execution with waiters := execution.waiters - 1 } :=
      (getElem?_set_iff held).mpr (Or.inl ⟨rfl, rfl⟩)
    dsimp only at wakes
    split at wakes
    · next last =>
      obtain rfl := Option.some.inj wakes
      have unfinished : execution.task.isDone = false := Bool.eq_false_iff.mpr last.2
      have reaped := left.setTask there (fun done => cancel_of_isDone done)
        (fun _ => isEnding_cancel execution.task) (fun _ => last.1)
      apply @Sound.setCaller _ { caller with stage := .left none } i reaped
        { caller with stage := .reaping place }
      · exact (getElem?_set_iff calls).mpr (Or.inl ⟨rfl, rfl⟩)
      · exact fun _ => rfl
      · exact ⟨cancelled, _, (getElem?_set_iff there).mpr (Or.inl ⟨rfl, rfl⟩),
          isEnding_cancel execution.task⟩
    · obtain rfl := Option.some.inj wakes
      exact left.forget _ _
  · split at wakes
    · next outcome task =>
      obtain rfl := Option.some.inj wakes
      apply Sound.forget
      apply sound.leave calls shielded held
      intro _
      cases outcome with
      | none =>
          have deserted := sound.deserted place execution held (by rw [task]; rfl)
          omega
      | some result =>
          have placed := sound.placed caller (List.mem_of_getElem? calls)
          obtain ⟨search, cancelled, stage⟩ := caller
          obtain rfl : stage = .shielded place := shielded
          obtain ⟨found, there, keyed⟩ := placed
          obtain rfl := Option.some.inj (held.symm.trans there)
          exact ⟨place, execution, result, held, task, rfl, keyed⟩
    · contradiction

/-- One step keeps the invariant, unless a call joins an execution that is being cancelled. -/
theorem Sound.step (sound : state.Sound) {next : Sharing} {action : SharingAction}
    (allowed : state.undisturbed action = true) (steps : state.step action = some next) :
    next.Sound := by
  cases action with
  | call search =>
      unfold Sharing.step at steps
      dsimp only at steps
      split at steps
      · next misses =>
        obtain rfl := Option.some.inj steps
        exact sound.create misses
      · next place finds =>
        obtain ⟨execution, held, rfl⟩ := Option.map_eq_some_iff.mp steps
        obtain ⟨listed, fresh⟩ := found_eq_some finds
        obtain ⟨found, there, keyed⟩ := sound.known _ place listed
        obtain rfl := Option.some.inj (held.symm.trans there)
        apply sound.join keyed held (fresh execution held)
        rw [undisturbed, finds, Option.bind_some, held] at allowed
        simpa using allowed
  | cancel i =>
      obtain ⟨caller, calls, steps⟩ := Option.bind_eq_some_iff.mp steps
      split at steps
      · next place shielded =>
        obtain rfl := Option.some.inj steps
        apply sound.setCaller calls
        · exact fun _ => rfl
        · have placed := sound.placed caller (List.mem_of_getElem? calls)
          obtain ⟨search, cancelled, stage⟩ := caller
          obtain rfl : stage = .shielded place := shielded
          exact placed
      · next place reaping =>
        obtain ⟨execution, held, steps⟩ := Option.bind_eq_some_iff.mp steps
        obtain rfl := Option.some.inj steps
        have placed := sound.placed caller (List.mem_of_getElem? calls)
        obtain ⟨search, cancelled, stage⟩ := caller
        obtain rfl : stage = .reaping place := reaping
        obtain ⟨-, found, there, ending⟩ := placed
        obtain rfl := Option.some.inj (held.symm.trans there)
        apply sound.setTask held cancel_of_isDone (fun _ => isEnding_cancel _)
        intro dies
        exact sound.deserted place execution held (isCancelled_of_isEnding ending dies)
      · contradiction
  | wake i =>
      obtain ⟨caller, calls, steps⟩ := Option.bind_eq_some_iff.mp steps
      split at steps
      · next place shielded =>
        obtain ⟨execution, held, steps⟩ := Option.bind_eq_some_iff.mp steps
        exact sound.wake calls shielded held steps
      · contradiction
  | reap i =>
      obtain ⟨caller, calls, steps⟩ := Option.bind_eq_some_iff.mp steps
      split at steps
      · next place reaping =>
        obtain ⟨execution, held, steps⟩ := Option.bind_eq_some_iff.mp steps
        split at steps
        · obtain rfl := Option.some.inj steps
          apply Sound.forget
          have placed := sound.placed caller (List.mem_of_getElem? calls)
          obtain ⟨search, cancelled, stage⟩ := caller
          obtain rfl : stage = .reaping place := reaping
          apply sound.setCaller calls
          · exact fun _ => rfl
          · exact fun active => absurd (placed.1.symm.trans active) (by decide)
        · contradiction
      · contradiction
  | start place =>
      obtain ⟨execution, held, steps⟩ := Option.bind_eq_some_iff.mp steps
      obtain ⟨task, starts, rfl⟩ := Option.map_eq_some_iff.mp steps
      have deserted := sound.deserted place execution held
      obtain ⟨search, before, waiters⟩ := execution
      cases before with
      | created cancelling =>
          cases cancelling with
          | false =>
              obtain rfl := Option.some.inj starts
              exact sound.setTask held nofun nofun nofun
          | true =>
              obtain rfl := Option.some.inj starts
              exact sound.setTask held nofun (fun _ => rfl) (fun _ => deserted rfl)
      | running cancelling => contradiction
      | done outcome => contradiction
  | finish place result =>
      obtain ⟨execution, held, steps⟩ := Option.bind_eq_some_iff.mp steps
      obtain ⟨task, finishes, rfl⟩ := Option.map_eq_some_iff.mp steps
      obtain ⟨search, before, waiters⟩ := execution
      cases before with
      | running cancelling =>
          obtain rfl := Option.some.inj finishes
          exact sound.setTask held nofun (fun _ => rfl) nofun
      | created cancelling => contradiction
      | done outcome => contradiction
  | abandon place =>
      obtain ⟨execution, held, steps⟩ := Option.bind_eq_some_iff.mp steps
      obtain ⟨task, abandons, rfl⟩ := Option.map_eq_some_iff.mp steps
      have deserted := sound.deserted place execution held
      obtain ⟨search, before, waiters⟩ := execution
      cases before with
      | running cancelling =>
          cases cancelling with
          | false => contradiction
          | true =>
              obtain rfl := Option.some.inj abandons
              exact sound.setTask held nofun (fun _ => rfl) (fun _ => deserted rfl)
      | created cancelling => contradiction
      | done outcome => contradiction

/-- The execution answers a call with the same arguments of the same principal. -/
def Answers (execution : WebExecution) (search : WebSearch) : Prop :=
  search.Alike execution.search ∨ search.Collides execution.search

/-- Callers do not notice that they share executions. -/
structure Invisible (state : Sharing) : Prop where
  answered : ∀ caller ∈ state.callers, caller.cancelled = false →
    ∀ outcome, caller.stage = .left outcome → ∃ execution ∈ state.executions, ∃ result,
      execution.task = .done (some result) ∧
        outcome = some (execution.share caller.search.callId result) ∧ Answers execution caller.search
  awaited : ∀ caller ∈ state.callers, caller.cancelled = false →
    ∀ place, caller.stage = .shielded place → ∃ execution, state.executions[place]? = some execution ∧
      execution.task.isCancelled = false ∧ Answers execution caller.search
  detached : ∀ caller ∈ state.callers, caller.cancelled = false →
    ∀ place, caller.stage ≠ .reaping place
  single : ∀ (place other : Nat) (first second : WebExecution),
    state.executions[place]? = some first → state.executions[other]? = some second →
    first.search.key = second.search.key → first.task.isDone = false → second.task.isDone = false →
    place = other
  fresh : ∀ search, state.undisturbed (.call search) = true → ∀ place,
    state.found search.key = some place → ∃ execution, state.executions[place]? = some execution ∧
      execution.task.isCancelled = false ∧ execution.task.isStale = false ∧ Answers execution search

theorem isCancelled_of_fresh (active : task.isCancelling = false) (fresh : task.isStale = false) :
    task.isCancelled = false := by
  cases task with
  | created cancelling => exact active
  | running cancelling => exact active
  | done outcome =>
      cases outcome with
      | none => contradiction
      | some result => rfl

theorem Sound.invisible (sound : state.Sound) : state.Invisible where
  answered caller listed active outcome left := by
    have placed := sound.placed caller listed
    obtain ⟨search, cancelled, stage⟩ := caller
    obtain rfl : stage = .left outcome := left
    obtain ⟨place, execution, result, held, done, answered, keyed⟩ := placed active
    exact ⟨execution, List.mem_of_getElem? held, result, done, answered, WebSearch.alike_of_key keyed⟩
  awaited caller listed active place shielded := by
    obtain ⟨i, calls⟩ := List.mem_iff_getElem?.mp listed
    have placed := sound.placed caller listed
    obtain ⟨search, cancelled, stage⟩ := caller
    obtain rfl : stage = .shielded place := shielded
    obtain ⟨execution, held, keyed⟩ := placed
    refine ⟨execution, held, ?_, WebSearch.alike_of_key keyed⟩
    have waiting := sound.waiters_pos calls rfl held
    have deserted := sound.deserted place execution held
    apply Bool.eq_false_iff.mpr
    intro dies
    rw [deserted dies] at waiting
    contradiction
  detached caller listed active place reaping := by
    have placed := sound.placed caller listed
    obtain ⟨search, cancelled, stage⟩ := caller
    obtain rfl : stage = .reaping place := reaping
    exact absurd (placed.1.symm.trans active) (by decide)
  single place other first second here there same running alsoRunning := by
    have listed := sound.current place first here running
    have alsoListed := sound.current other second there alsoRunning
    rw [same, alsoListed] at listed
    exact (Option.some.inj listed).symm
  fresh search allowed place finds := by
    obtain ⟨listed, fresh⟩ := found_eq_some finds
    obtain ⟨execution, held, keyed⟩ := sound.known _ place listed
    rw [undisturbed, finds, Option.bind_some, held] at allowed
    have active : execution.task.isCancelling = false := by simpa using allowed
    exact ⟨execution, held, isCancelled_of_fresh active (fresh execution held), fresh execution held,
      WebSearch.alike_of_key keyed.symm⟩

/-- Callers do not notice the sharing in any run where no call finds an execution that is being
cancelled. -/
theorem runs_invisible {actions : List SharingAction} {state : Sharing}
    (runs : Runs step (fun state action => state.undisturbed action = true) empty actions state) :
    state.Invisible := by
  have sound : state.Sound := runs.invariant Sound
    (fun _ _ _ sound allowed steps => sound.step allowed steps) empty_sound
  exact sound.invisible

section Example

variable {first second : WebSearch}

/-- The first of two callers is cancelled before the handler ends. -/
def cancelledWaiter (first second : WebSearch) : List SharingAction :=
  [.call first, .start 0, .call second, .cancel 0, .wake 0,
    .finish 0 ⟨true, none, "found".toList, none⟩, .wake 1]

/-- The second call comes between the cancellation and the end of the handler. -/
def lateJoin (first second : WebSearch) : List SharingAction :=
  [.call first, .start 0, .cancel 0, .wake 0, .call second, .abandon 0, .wake 1]

theorem lookup_singleton {other : Text} (same : key = other) (place : Nat) :
    AList.lookup key (AList.singleton other place : Dict Text Nat) = some place := by
  subst same
  rw [Dict.lookup_eq_some_iff]
  exact List.mem_singleton_self _

/-- Two callers share the running task. -/
def sharedTask (first second : WebSearch) : Sharing where
  executions := [⟨first, .running false, 2⟩]
  webExecutions := .singleton first.key 0
  callers := [⟨first, false, .shielded 0⟩, ⟨second, false, .shielded 0⟩]

theorem sharedTask_executes (same : second.key = first.key) (rest : List SharingAction) :
    Library.execute (guarded step undisturbed) empty
      (.call first :: .start 0 :: .call second :: rest) =
        Library.execute (guarded step undisturbed) (sharedTask first second) rest := by
  simp [Library.execute, guarded, undisturbed, step, found, create, join, setTask, empty, sharedTask,
    lookup_singleton same, Option.filter_some, SearchTask.start, SearchTask.isCancelling,
    SearchTask.isStale]

theorem cancelledWaiter_executes (same : second.key = first.key) :
    (Library.execute (guarded step undisturbed) empty (cancelledWaiter first second)).map
      (fun state => state.callers.map fun caller => (caller.cancelled, caller.stage)) =
        some [(true, .left none), (false, .left (some
          (WebExecution.share ⟨first, .created false, 0⟩ second.callId
            ⟨true, none, "found".toList, none⟩)))] := by
  rw [cancelledWaiter, sharedTask_executes same]
  simp [Library.execute, guarded, undisturbed, step, wake, leave, forget, setTask, sharedTask,
    SearchTask.finish, SearchTask.isStale, SearchTask.isDone]
  rfl

theorem lateJoin_executes (same : second.key = first.key) :
    (Library.execute step empty (lateJoin first second)).map
      (fun state => state.callers.map fun caller => (caller.cancelled, caller.stage)) =
        some [(true, .reaping 0), (false, .left none)] := by
  simp [lateJoin, Library.execute, step, found, create, join, wake, leave, forget, setTask, setStage,
    empty, lookup_singleton same, Option.filter_some, SearchTask.start, SearchTask.abandon,
    SearchTask.cancel, SearchTask.isStale, SearchTask.isDone]

/-- This is a call with the identifier. -/
def newsSearch (callId : Text) : WebSearch :=
  ⟨callId, ⟨1, by decide⟩, ⟨2, by decide⟩, .dict [("query".toList, .str " news ".toList)]⟩

/-- The identifier of a call is not part of the key. -/
theorem newsSearch_key (first second : Text) : (newsSearch first).key = (newsSearch second).key :=
  congrArg hashArgs (rfl : (newsSearch first).shared = (newsSearch second).shared)

/-- The second caller has the result of the execution that the first one started and left. -/
theorem runs_invisible_news : ∃ state,
    Runs step (fun state action => state.undisturbed action = true) empty
      (cancelledWaiter (newsSearch ['a']) (newsSearch ['b'])) state ∧
      state.callers.map (fun caller => (caller.cancelled, caller.stage)) =
        [(true, .left none),
          (false, .left (some ⟨true, none, "Reused identical web search: found".toList, none⟩))] ∧
      state.Invisible := by
  obtain ⟨state, executes, callers⟩ :=
    Option.map_eq_some_iff.mp (cancelledWaiter_executes (newsSearch_key ['b'] ['a']))
  have runs := Runs.of_execute executes
  exact ⟨state, runs, callers, runs_invisible runs⟩

/-- A caller that joins an execution whose handler is being cancelled ends with its cancellation. -/
theorem lateJoin_visible : ∃ state,
    Runs step (fun _ _ => True) empty (lateJoin (newsSearch ['a']) (newsSearch ['b'])) state ∧
      state.callers.map (fun caller => (caller.cancelled, caller.stage)) =
        [(true, .reaping 0), (false, .left none)] ∧ ¬ state.Invisible := by
  obtain ⟨state, executes, callers⟩ :=
    Option.map_eq_some_iff.mp (lateJoin_executes (newsSearch_key ['b'] ['a']))
  refine ⟨state, Runs.of_unchecked executes, callers, fun invisible => ?_⟩
  have listed : (false, CallerStage.left none) ∈
      state.callers.map (fun caller => (caller.cancelled, caller.stage)) := by
    rw [callers]
    exact .tail _ (.head _)
  obtain ⟨caller, member, same⟩ := List.mem_map.mp listed
  obtain ⟨active, left⟩ := Prod.mk.inj same
  obtain ⟨execution, -, result, -, answered, -⟩ := invisible.answered caller member active none left
  cases answered

end Example

end Sharing

end LumenCopilot.Tools
