import Mathlib

namespace LumenCopilot.Library

variable {α : Type} [DecidableEq α]

/-- This goes on with a substitution from the left; the first letters belong to a match. -/
def substituteFrom (old new : List α) : Nat → List α → List α
  | _, [] => []
  | skip + 1, _ :: rest => substituteFrom old new skip rest
  | 0, c :: rest =>
      if old.isPrefixOf (c :: rest) then new ++ substituteFrom old new (old.length - 1) rest
      else c :: substituteFrom old new 0 rest

/-- Every match of the word is replaced, from the left and without overlap. -/
def substitute (old new text : List α) : List α := substituteFrom old new 0 text

/-- The substitutions are made one after the other. -/
def rewrite (pairs : List (List α × List α)) (text : List α) : List α :=
  pairs.foldl (fun text pair => substitute pair.1 pair.2 text) text

/-- A mark stands in the place of every match of a word, from the left and without overlap. -/
def marked (words : List (List α)) : Nat → List α → List (Option α)
  | _, [] => []
  | skip + 1, _ :: rest => marked words skip rest
  | 0, c :: rest =>
      match words.find? (·.isPrefixOf (c :: rest)) with
      | some word => none :: marked words (word.length - 1) rest
      | none => some c :: marked words 0 rest

/-- These are the places that belong to a mark. -/
def masked (words : List (List α)) : Nat → List α → List Bool
  | _, [] => []
  | skip + 1, _ :: rest => true :: masked words skip rest
  | 0, c :: rest =>
      match words.find? (·.isPrefixOf (c :: rest)) with
      | some word => true :: masked words (word.length - 1) rest
      | none => false :: masked words 0 rest

/-- This writes every mark out. -/
def expand (mark : List α) (letters : List (Option α)) : List α :=
  letters.flatMap fun letter => letter.elim mark ([·])

/-- The place lies in an occurrence of a word. -/
def covered (words : List (List α)) (text : List α) (place : Nat) : Bool :=
  words.any fun word => (List.range (place + 1)).any fun start =>
    place < start + word.length && word.isPrefixOf (text.drop start)

/-- These are the letters outside of every occurrence of a word. -/
def uncovered (words : List (List α)) (text : List α) : List α :=
  ((text.zip ((List.range text.length).map (covered words text))).filter fun pair => !pair.2).map
    Prod.fst

/-- Occurrences of the two words do not overlap. -/
def Parted (word other text : List α) : Prop :=
  ∀ start < text.length, ∀ finish < text.length, word <+: text.drop start →
    other <+: text.drop finish → start + word.length ≤ finish ∨ finish + other.length ≤ start

instance (word other text : List α) : Decidable (Parted word other text) :=
  Nat.decidableBallLT _ _

/-- Occurrences of two different words do not overlap. -/
def Apart (words : List (List α)) (text : List α) : Prop :=
  ∀ word ∈ words, ∀ other ∈ words, word ≠ other → Parted word other text

instance (words : List (List α)) (text : List α) : Decidable (Apart words text) :=
  inferInstanceAs (Decidable (∀ word ∈ words, ∀ other ∈ words, word ≠ other → Parted word other text))

/-- A place that lies in an occurrence of a word belongs to a match of the word alone. -/
def Exhausted (words : List (List α)) (text : List α) : Prop :=
  ∀ word ∈ words, ∀ place < text.length, covered [word] text place = true →
    (masked [word] 0 text)[place]? = some true

instance (words : List (List α)) (text : List α) : Decidable (Exhausted words text) :=
  inferInstanceAs (Decidable (∀ word ∈ words, ∀ place < text.length,
    covered [word] text place = true → (masked [word] 0 text)[place]? = some true))

end LumenCopilot.Library
