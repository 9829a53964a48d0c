import LumenCopilot.Construction.Library.Dict
import LumenCopilot.Construction.Python.Text

namespace LumenCopilot.Runner

open Library Python

/-- A cached result belongs to a session, a generation and an execution. -/
abbrev ResultKey : Type := Nat × Int × Nat

/-- These are the parts of a result that the engine reads; each output file is its `data_b64`. -/
structure ExecutionResult where
  status : Text
  stdout : Text
  stderr : Text
  outputFiles : List Text
  deriving DecidableEq

/-- This is `_MAX_CACHED_RESULTS`. -/
def maxCachedResults : Nat := 64

/-- This is `_MAX_CACHED_RESULT_BYTES`. -/
def maxCachedResultBytes : Nat := 128 * 1024 * 1024

/-- This is `_result_size`. -/
def resultSize (result : ExecutionResult) : Nat :=
  result.stdout.length + result.stderr.length + (result.outputFiles.map List.length).sum

/-- These are `_results` and `_result_bytes` of the engine. -/
structure ResultCache where
  results : Dict ResultKey ExecutionResult
  resultBytes : Dict ResultKey Nat

def ResultCache.empty : ResultCache := ⟨∅, ∅⟩

/-- This is the condition of the eviction loop on the two bounds. -/
def ResultCache.exceeds (cache : ResultCache) : Bool :=
  maxCachedResults < cache.results.size || maxCachedResultBytes < cache.resultBytes.total

/-- This is the eviction loop; each pass takes one unit of fuel. -/
def ResultCache.evict : Nat → ResultCache → ResultCache
  | 0, cache => cache
  | fuel + 1, cache =>
      match cache.results.entries with
      | [] => cache
      | oldest :: _ =>
          if cache.exceeds then
            ResultCache.evict fuel ⟨cache.results.erase oldest.1, cache.resultBytes.erase oldest.1⟩
          else cache

/-- This is `_remember`. -/
def ResultCache.remember (cache : ResultCache) (key : ResultKey) (result : ExecutionResult) :
    ResultCache :=
  let results := cache.results.assign key result
  ResultCache.evict results.size ⟨results, cache.resultBytes.assign key (resultSize result)⟩

/-- This is `execute` and `execute_existing`: what they return and the cache after them, where the
result is that of the code if it runs. -/
def ResultCache.execute (cache : ResultCache) (key : ResultKey) (result : ExecutionResult) :
    ExecutionResult × ResultCache :=
  match cache.results.lookup key with
  | some cached => (cached, cache)
  | none =>
      if result.status = "killed".toList then (result, cache) else (result, cache.remember key result)

/-- This is the test of `close` on a key. -/
def closes (sessionId : Nat) (generation : Option Int) (key : ResultKey) : Bool :=
  key.1 = sessionId && generation.all fun generation => key.2.1 = generation

/-- This is what `close` does to the cache. -/
def ResultCache.close (cache : ResultCache) (sessionId : Nat) (generation : Option Int) :
    ResultCache :=
  { cache with results := cache.results.filter fun key _ => !closes sessionId generation key }

/-- Executions complete, sessions close and executions are cancelled. -/
inductive CacheAction where
  | execute (key : ResultKey) (result : ExecutionResult)
  | close (sessionId : Nat) (generation : Option Int)
  | cancel (sessionId : Nat) (generation : Int) (executionId : Nat)
  deriving DecidableEq

/-- This is the cache after an action. -/
def ResultCache.after (cache : ResultCache) : CacheAction → ResultCache
  | .execute key result => (cache.execute key result).2
  | .close sessionId generation => cache.close sessionId generation
  | .cancel sessionId generation _ => cache.close sessionId (some generation)

/-- This is one step of the cache. -/
def cacheStep (cache : ResultCache) (action : CacheAction) : Option ResultCache :=
  some (cache.after action)

/-- One pull of the archive reader finds the next chunk of the source or an expired deadline. -/
inductive Pull where
  | chunk (bytes : List UInt8)
  | expired
  deriving DecidableEq

/-- These are the bytes that the source brings in. -/
def Pull.bytes : Pull → List UInt8
  | .chunk bytes => bytes
  | .expired => []

/-- This is `_BudgetedReader`; its source is what the later pulls find. -/
structure BudgetedReader where
  chunks : List Pull
  buffer : List UInt8
  remaining : Nat
  exhausted : Bool
  deriving DecidableEq

def BudgetedReader.start (chunks : List Pull) (budget : Int) : BudgetedReader :=
  ⟨chunks, [], budget.toNat, false⟩

/-- This is the loop of `read` while the reader is not exhausted; its answer is whether the
deadline let it end. -/
def BudgetedReader.pull (size : Int) :
    List Pull → List UInt8 → Nat → BudgetedReader × Bool
  | [], buffer, remaining => (⟨[], buffer, remaining, false⟩, true)
  | .expired :: rest, buffer, remaining =>
      if size < 0 ∨ buffer.length < size then (⟨rest, buffer, remaining, false⟩, false)
      else (⟨.expired :: rest, buffer, remaining, false⟩, true)
  | .chunk bytes :: rest, buffer, remaining =>
      if size < 0 ∨ buffer.length < size then
        if bytes.isEmpty then BudgetedReader.pull size rest buffer remaining
        else if remaining < bytes.length then
          (⟨rest, buffer ++ bytes.take remaining, 0, true⟩, true)
        else BudgetedReader.pull size rest (buffer ++ bytes) (remaining - bytes.length)
      else (⟨.chunk bytes :: rest, buffer, remaining, false⟩, true)

/-- This is `read`; it returns nothing when the deadline raises. -/
def BudgetedReader.read (reader : BudgetedReader) (size : Int) :
    BudgetedReader × Option (List UInt8) :=
  let filled := if reader.exhausted then (reader, true)
    else BudgetedReader.pull size reader.chunks reader.buffer reader.remaining
  if filled.2 then
    let count := if size < 0 then filled.1.buffer.length else size.toNat
    ({ filled.1 with buffer := filled.1.buffer.drop count }, some (filled.1.buffer.take count))
  else (filled.1, none)

/-- The reads return their bytes one after the other. -/
def BudgetedReader.readAll : BudgetedReader → List Int → BudgetedReader × List UInt8
  | reader, [] => (reader, [])
  | reader, size :: sizes =>
      let first := reader.read size
      let rest := first.1.readAll sizes
      (rest.1, first.2.getD [] ++ rest.2)

end LumenCopilot.Runner
