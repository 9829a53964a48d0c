import LumenCopilot.Construction.Python.Text

namespace LumenCopilot.Ingestion.Embeddings

open Python

/-- This is a `float`. -/
inductive FloatValue where
  | finite (value : ℚ)
  | infinite (negative : Bool)
  | nan
  deriving DecidableEq

/-- This is a value of a provider payload, with the conversion of another `Real` number by `float`. -/
inductive Value where
  | none
  | bool (value : Bool)
  | int (value : Int)
  | float (value : FloatValue)
  | real (converted : Option FloatValue)
  | str (value : Text)
  | bytes (value : List UInt8)
  | bytearray (value : List UInt8)
  | sequence (items : List Value)
  | mapping (entries : List (Text × Value))
  | object (attributes : List (Text × Value))

/-- This is the value under a name, or `None`. -/
def field (name : Text) (entries : List (Text × Value)) : Value :=
  match entries.find? fun entry => entry.1 = name with
  | some entry => entry.2
  | Option.none => .none

/-- This is `item.get(name)` of a mapping and `getattr(item, name, None)` of everything else; the
built-in sequences have a method `index`. -/
def Value.read (name : Text) : Value → Value
  | .mapping entries => field name entries
  | .object attributes => field name attributes
  | .str _ | .bytes _ | .bytearray _ | .sequence _ =>
      if name = "index".toList then .object [] else .none
  | .none | .bool _ | .int _ | .float _ | .real _ => .none

/-- These are the errors of the embedding adapter, all of them `DependencyError`. -/
structure DependencyError where
  message : String
  code : String
  deriving DecidableEq

def malformedResponse : DependencyError :=
  ⟨"Embedding provider returned a malformed response.", "embedding_response_invalid"⟩

def countMismatch : DependencyError :=
  ⟨"Embedding provider returned an unexpected result count.", "embedding_count_mismatch"⟩

def dimensionMismatch : DependencyError :=
  ⟨"Embedding provider returned an incompatible vector.", "embedding_dimension_mismatch"⟩

def malformedVector : DependencyError :=
  ⟨"Embedding provider returned a malformed vector.", "embedding_response_invalid"⟩

/-- This is the magnitude of `float(value)` of an integer, rounded half to even to 53 bits. -/
def roundedMagnitude (magnitude : Nat) : Nat :=
  let shift := magnitude.log2 + 1 - 53
  let quotient := magnitude / 2 ^ shift
  let remainder := magnitude % 2 ^ shift
  if 2 ^ shift < 2 * remainder ∨ 2 ^ shift = 2 * remainder ∧ quotient % 2 = 1 then
    (quotient + 1) * 2 ^ shift
  else quotient * 2 ^ shift

/-- This is `float(value)` of an integer, which overflows from `2 ** 1024` on. -/
def floatOfInt (value : Int) : Option FloatValue :=
  let magnitude := roundedMagnitude value.natAbs
  if magnitude < 2 ^ 1024 then some (.finite (value.sign * magnitude)) else none

/-- This is the finite `float` of a coordinate that is a `Real` and no `bool`. -/
def coordinate : Value → Option ℚ
  | .int value => finite (floatOfInt value)
  | .float value => finite (some value)
  | .real converted => finite converted
  | .none | .bool _ | .str _ | .bytes _ | .bytearray _ | .sequence _ | .mapping _ | .object _ =>
      Option.none
where
  /-- This is `math.isfinite` of a conversion that did not raise. -/
  finite : Option FloatValue → Option ℚ
    | some (.finite value) => some value
    | some (.infinite _) | some .nan | Option.none => Option.none

/-- This is the loop over the coordinates, which starts over at a bad one and stops. -/
def normalize (normalized : List ℚ) : List Value → List ℚ
  | [] => normalized
  | value :: rest =>
      match coordinate value with
      | some converted => normalize (normalized ++ [converted]) rest
      | Option.none => []

/-- This is the check of one vector. -/
def validateVector (expectedDimensions : Nat) (vector : List Value) : Except DependencyError (List ℚ) :=
  if vector.length ≠ expectedDimensions then .error dimensionMismatch
  else if (normalize [] vector).length ≠ expectedDimensions then .error malformedVector
  else .ok (normalize [] vector)

/-- This is `_validate_embedding_vectors`. -/
def validateEmbeddingVectors (vectors : List (List Value)) (expectedCount expectedDimensions : Nat) :
    Except DependencyError (List (List ℚ)) :=
  if vectors.length ≠ expectedCount then .error countMismatch
  else vectors.mapM (validateVector expectedDimensions)

/-- This is the body of the loop over the items, on the slots of `ordered`. -/
def placeItem (expectedCount : Nat) (ordered : List (Option (List Value))) (item : Value) :
    Except DependencyError (List (Option (List Value))) :=
  match item.read "index".toList, item.read "embedding".toList with
  | .int rawIndex, .sequence rawVector =>
      if rawIndex < 0 ∨ expectedCount ≤ rawIndex ∨ (ordered[rawIndex.toNat]?).join.isSome then
        .error malformedResponse
      else .ok (ordered.set rawIndex.toNat (some rawVector))
  | _, _ => .error malformedResponse

/-- This is `_ordered_embedding_vectors`. -/
def orderedEmbeddingVectors (data : Value) (expectedCount expectedDimensions : Nat) :
    Except DependencyError (List (List ℚ)) :=
  match data with
  | .sequence items =>
      if items.length ≠ expectedCount then .error countMismatch
      else
        (items.foldlM (placeItem expectedCount) (List.replicate expectedCount Option.none)).bind
          fun ordered =>
            if ordered.any Option.isNone then .error malformedResponse
            else
              validateEmbeddingVectors (ordered.filterMap id) expectedCount expectedDimensions
  | _ => .error malformedResponse

/-- This is `_embed_in_batches` with a positive batch size. -/
def embedInBatches {ε γ : Type} (embed : List Text → Except ε (List γ)) (texts : List Text)
    (batchSize : Nat) : Except ε (List γ) :=
  (List.range' 0 ((texts.length + batchSize - 1) / batchSize) batchSize).foldlM
    (fun embeddings start => (embed ((texts.drop start).take batchSize)).map (embeddings ++ ·)) []

end LumenCopilot.Ingestion.Embeddings
