import LumenCopilot.Construction.Runner.Results
import LumenCopilot.Proof.Library.Dict
import LumenCopilot.Proof.Library.Transition

namespace LumenCopilot.Runner

open Library Python

variable {cache : ResultCache} {key : ResultKey} {result : ExecutionResult} {fuel : Nat}

/-- The recorded sizes are those of the retained results, in their order. -/
def ResultCache.Paired (cache : ResultCache) : Prop :=
  cache.resultBytes = cache.results.mapValues resultSize

theorem ResultCache.Paired.total (paired : cache.Paired) :
    cache.resultBytes.total = (cache.results.entries.map fun entry => resultSize entry.2).sum := by
  rw [show cache.resultBytes = _ from paired]
  simp [Dict.total, Dict.mapValues, Function.comp_def]

/-- The loop erases the oldest entry from both maps. -/
theorem ResultCache.Paired.erased (paired : cache.Paired)
    {oldest : Sigma fun _ : ResultKey => ExecutionResult}
    {rest : List (Sigma fun _ : ResultKey => ExecutionResult)}
    (starts : cache.results.entries = oldest :: rest) :
    ResultCache.Paired ⟨cache.results.erase oldest.1, cache.resultBytes.erase oldest.1⟩ := by
  have recorded : cache.resultBytes.entries = ⟨oldest.1, resultSize oldest.2⟩ ::
      rest.map fun entry => ⟨entry.1, resultSize entry.2⟩ := by
    rw [show cache.resultBytes = _ from paired]
    simp [Dict.mapValues, starts]
  apply AList.ext
  rw [show (⟨cache.results.erase oldest.1, cache.resultBytes.erase oldest.1⟩ :
      ResultCache).resultBytes.entries = _ from Dict.entries_erase_head recorded]
  show _ = (cache.results.erase oldest.1).entries.map _
  rw [Dict.entries_erase_head starts]

theorem ResultCache.Paired.evict (paired : cache.Paired) : (cache.evict fuel).Paired := by
  induction fuel generalizing cache with
  | zero => exact paired
  | succ fuel ih =>
      unfold ResultCache.evict
      split
      · exact paired
      · next oldest rest starts =>
          split
          · exact ih (paired.erased starts)
          · exact paired

/-- An empty cache is within the bounds. -/
theorem ResultCache.Paired.vacant (paired : cache.Paired) (empty : cache.results.entries = []) :
    cache.exceeds = false := by
  have total : cache.resultBytes.total = 0 := by
    rw [paired.total, empty]
    rfl
  simp [ResultCache.exceeds, Dict.size, empty, total]

/-- The loop ends within the bounds. -/
theorem ResultCache.evict_within (paired : cache.Paired)
    (enough : cache.results.entries.length ≤ fuel) : (cache.evict fuel).exceeds = false := by
  induction fuel generalizing cache with
  | zero => exact paired.vacant (List.length_eq_zero_iff.mp (Nat.le_zero.mp enough))
  | succ fuel ih =>
      unfold ResultCache.evict
      split
      · next empty => exact paired.vacant empty
      · next oldest rest starts =>
          have erased := Dict.entries_erase_head starts
          split
          · apply ih (paired.erased starts)
            show (cache.results.erase oldest.1).entries.length ≤ fuel
            rw [erased]
            rw [starts, List.length_cons] at enough
            omega
          · next within => simpa using within

/-- The newest entry is kept when it fits alone. -/
theorem ResultCache.evict_newest (paired : cache.Paired)
    {newest : Sigma fun _ : ResultKey => ExecutionResult}
    (fits : resultSize newest.2 ≤ maxCachedResultBytes)
    (last : cache.results.entries.getLast? = some newest) :
    newest ∈ (cache.evict fuel).results.entries := by
  induction fuel generalizing cache with
  | zero => exact List.mem_of_getLast? last
  | succ fuel ih =>
      unfold ResultCache.evict
      split
      · exact List.mem_of_getLast? last
      · next oldest rest starts =>
          split
          · next exceeds =>
              cases rest with
              | nil =>
                  have same : oldest = newest := by
                    rw [starts] at last
                    exact Option.some.inj last
                  subst same
                  have total : cache.resultBytes.total = resultSize oldest.2 := by
                    rw [paired.total, starts]
                    exact List.sum_singleton
                  simp [ResultCache.exceeds, Dict.size, starts, total, maxCachedResults] at exceeds
                  omega
              | cons next later =>
                  refine ih (paired.erased starts) ?_
                  show (cache.results.erase oldest.1).entries.getLast? = some newest
                  rw [Dict.entries_erase_head starts]
                  rwa [starts, List.getLast?_cons_cons] at last
          · exact List.mem_of_getLast? last

/-- A new result is remembered with its size. -/
theorem ResultCache.Paired.remember (paired : cache.Paired) (fresh : key ∉ cache.results)
    (result : ExecutionResult) :
    ResultCache.Paired ⟨cache.results.assign key result,
      cache.resultBytes.assign key (resultSize result)⟩ := by
  show cache.resultBytes.assign key (resultSize result) = (cache.results.assign key result).mapValues _
  rw [Dict.mapValues_assign fresh, show cache.resultBytes = _ from paired]

/-- The maps have the same keys, the sizes are recorded and the bounds hold. -/
structure Retained (cache : ResultCache) : Prop where
  keys : ∀ key, key ∈ cache.results ↔ key ∈ cache.resultBytes
  sizes : ∀ key result, cache.results.lookup key = some result →
    cache.resultBytes.lookup key = some (resultSize result)
  count : cache.results.size ≤ maxCachedResults
  bytes : (cache.results.entries.map fun entry => resultSize entry.2).sum ≤ maxCachedResultBytes

theorem ResultCache.Paired.retained (paired : cache.Paired) (within : cache.exceeds = false) :
    Retained cache := by
  simp only [ResultCache.exceeds, Bool.or_eq_false_iff, decide_eq_false_iff_not, not_lt] at within
  refine ⟨fun key => ?_, fun key result found => ?_, within.1, ?_⟩
  · rw [show cache.resultBytes = _ from paired, Dict.mem_mapValues]
  · rw [show cache.resultBytes = _ from paired, Dict.lookup_eq_some_iff]
    exact List.mem_map.mpr ⟨_, Dict.lookup_eq_some_iff.mp found, rfl⟩
  · rw [← paired.total]
    exact within.2

/-- A result that completes, is not killed and fits is cached right after it, and a retry returns it
without its own run. -/
def Remembers (cache : ResultCache) : CacheAction → ResultCache → Prop
  | .execute key result, after =>
      cache.results.lookup key = none → result.status ≠ "killed".toList →
        resultSize result ≤ maxCachedResultBytes →
          ∀ other, (after.execute key other).1 = result
  | _, _ => True

/-- What a close and a cancel have to spare: they erase no cached result. -/
def Spares (cache : ResultCache) : CacheAction → Prop
  | .execute _ _ => True
  | .close sessionId generation => ∀ key ∈ cache.results, closes sessionId generation key = false
  | .cancel sessionId generation _ =>
      ∀ key ∈ cache.results, closes sessionId (some generation) key = false

/-- The cache is paired and within the bounds. -/
structure Sound (cache : ResultCache) : Prop where
  paired : cache.Paired
  within : cache.exceeds = false

theorem Sound.empty : Sound .empty :=
  ⟨rfl, rfl⟩

theorem Sound.retained (sound : Sound cache) : Retained cache :=
  sound.paired.retained sound.within

/-- What `_remember` leaves. -/
theorem Sound.remember (sound : Sound cache) (fresh : key ∉ cache.results) (result : ExecutionResult) :
    Sound (cache.remember key result) := by
  have paired := sound.paired.remember fresh result
  exact ⟨paired.evict, ResultCache.evict_within paired le_rfl⟩

theorem Sound.remember_lookup (sound : Sound cache) (fresh : key ∉ cache.results)
    (fits : resultSize result ≤ maxCachedResultBytes) :
    (cache.remember key result).results.lookup key = some result := by
  have paired := sound.paired.remember fresh result
  rw [Dict.lookup_eq_some_iff]
  have last : (cache.results.assign key result).entries.getLast? = some ⟨key, result⟩ := by
    rw [Dict.entries_assign fresh, List.getLast?_concat]
  exact ResultCache.evict_newest paired fits last

theorem Sound.execute (sound : Sound cache) (key : ResultKey) (result : ExecutionResult) :
    Sound (cache.execute key result).2 := by
  unfold ResultCache.execute
  split
  · exact sound
  · next missing =>
      split
      · exact sound
      · exact sound.remember (AList.lookup_eq_none.mp missing) result

theorem Sound.remembers (sound : Sound cache) (action : CacheAction) :
    Remembers cache action (cache.after action) := by
  cases action with
  | execute key result =>
      intro missing finished fits other
      have absent := AList.lookup_eq_none.mp missing
      have cached : (cache.after (.execute key result)).results.lookup key = some result := by
        simp only [ResultCache.after, ResultCache.execute, missing, if_neg finished]
        exact sound.remember_lookup absent fits
      simp only [ResultCache.execute, cached]
  | _ => trivial

/-- A close that erases nothing leaves the cache. -/
theorem ResultCache.close_spares {sessionId : Nat} {generation : Option Int}
    (spares : ∀ key ∈ cache.results, closes sessionId generation key = false) :
    cache.close sessionId generation = cache := by
  have same : cache.results.filter (fun key _ => !closes sessionId generation key) = cache.results := by
    apply AList.ext
    apply List.filter_eq_self.mpr
    intro entry member
    show (!closes sessionId generation entry.1) = true
    rw [spares entry.1 (List.mem_keys_of_mem member)]
    rfl
  unfold ResultCache.close
  rw [same]

/-- After a close the maps have the same keys only if it erased nothing. -/
theorem ResultCache.close_keys (retained : Retained cache) {sessionId : Nat}
    {generation : Option Int} (closed : Retained (cache.close sessionId generation)) :
    ∀ key ∈ cache.results, closes sessionId generation key = false := by
  intro key member
  have kept := (closed.keys key).mpr ((retained.keys key).mp member)
  obtain ⟨value, _, keeps⟩ := Dict.mem_keys_filter.mp kept
  simpa using keeps

/-- An action keeps the cache in order exactly if it spares what is cached. -/
theorem Sound.after_iff (sound : Sound cache) (action : CacheAction) :
    Retained (cache.after action) ↔ Spares cache action := by
  cases action with
  | execute key result => exact ⟨fun _ => trivial, fun _ => (sound.execute key result).retained⟩
  | close sessionId generation =>
      refine ⟨fun closed => ResultCache.close_keys sound.retained closed, fun spares => ?_⟩
      show Retained (cache.close sessionId generation)
      rw [ResultCache.close_spares spares]
      exact sound.retained
  | cancel sessionId generation executionId =>
      refine ⟨fun closed => ResultCache.close_keys sound.retained closed, fun spares => ?_⟩
      show Retained (cache.close sessionId (some generation))
      rw [ResultCache.close_spares spares]
      exact sound.retained

theorem Sound.after (sound : Sound cache) {action : CacheAction} (spares : Spares cache action) :
    Sound (cache.after action) := by
  cases action with
  | execute key result => exact sound.execute key result
  | close sessionId generation =>
      show Sound (cache.close sessionId generation)
      rw [ResultCache.close_spares spares]
      exact sound
  | cancel sessionId generation executionId =>
      show Sound (cache.close sessionId (some generation))
      rw [ResultCache.close_spares spares]
      exact sound

/-- The cache is in order, and every next action remembers what it has to and keeps the order exactly
if it spares what is cached. -/
structure InOrder (cache : ResultCache) : Prop where
  retained : Retained cache
  remembers : ∀ action, Remembers cache action (cache.after action)
  exact : ∀ action, Retained (cache.after action) ↔ Spares cache action

/-- In every run whose closes and cancels spare what is cached, the cache is in order. -/
theorem cache_inOrder {actions : List CacheAction}
    (runs : Runs cacheStep Spares .empty actions cache) : InOrder cache := by
  have sound := runs.invariant Sound (fun cache action after sound spares steps => by
    obtain rfl := Option.some.inj steps
    exact sound.after spares) .empty
  exact ⟨sound.retained, sound.remembers, sound.after_iff⟩

/-- A result without output. -/
def quietResult : ExecutionResult := ⟨"succeeded".toList, [], [], []⟩

/-- A session is closed that has no cached result. -/
theorem cache_inOrder_closed :
    InOrder ((ResultCache.empty.after (.execute (1, 0, 1) quietResult)).after (.close 2 none)) := by
  have completes : Spares .empty (.execute (1, 0, 1) quietResult) := trivial
  have spares : Spares (ResultCache.empty.after (.execute (1, 0, 1) quietResult)) (.close 2 none) := by
    intro key member
    have only : key ∈ [((1, 0, 1) : ResultKey)] := member
    rw [List.mem_singleton.mp only]
    rfl
  exact cache_inOrder (Runs.cons completes rfl (Runs.cons spares rfl (Runs.nil _)))

/-- Closing a session with a cached result leaves its size behind. -/
theorem closed_size_stays : ∃ cache : ResultCache,
    Runs cacheStep (fun _ _ => True) .empty [.execute (1, 0, 1) quietResult, .close 1 none] cache ∧
      ¬ Retained cache := by
  refine ⟨_, Runs.of_unchecked rfl, fun retained => ?_⟩
  have stays : ((1, 0, 1) : ResultKey) ∈ ((ResultCache.empty.after
      (.execute (1, 0, 1) quietResult)).after (.close 1 none)).resultBytes := by
    decide
  have cached := (retained.keys (1, 0, 1)).mpr stays
  revert cached
  decide

end LumenCopilot.Runner
