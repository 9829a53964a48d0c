import LumenCopilot.Construction.Library.Dict
import LumenCopilot.Construction.Python.Json

namespace LumenCopilot.Drive

open Library Python

/-- The metadata of a file are the fields of a JSON object. -/
abbrev FileEntry : Type := List (Text × Json)

/-- The drive answers a read of a file with its metadata or with a connector error. -/
structure Files where
  entry : Text → FileEntry
  readable : Text → Bool

/-- This is `api.get_file`; no answer is a `ConnectorError`. -/
def Files.getFile (drive : Files) (fileId : Text) : Option FileEntry :=
  if drive.readable fileId then some (drive.entry fileId) else none

/-- This is the parent of a file that its metadata state, where an empty text is no parent. -/
def statedParent (entry : FileEntry) : Option Text :=
  match (entry.find? fun field => field.1 = "parents".toList).map Prod.snd with
  | some (.list (.str parent :: _)) => if parent = [] then none else some parent
  | _ => none

/-- This is `_Ancestry`. -/
structure Ancestry where
  parents : Dict Text (Option Text)
  unreadable : List Text

def Ancestry.fresh : Ancestry := ⟨∅, []⟩

/-- This is `_AncestryUnknown` with the file it names. -/
structure AncestryUnknown where
  fileId : Text
  deriving DecidableEq

/-- This is `_MAX_ANCESTOR_DEPTH`. -/
def maxAncestorDepth : Nat := 64

section Walks

variable (drive : Files)

/-- This is `_parent_of`; the memo comes back with the answer. -/
def parentOf (strict : Bool) (memo : Ancestry) (fileId : Text) :
    Ancestry × Except AncestryUnknown (Option Text) :=
  match memo.parents.lookup fileId with
  | some parent => (memo, .ok parent)
  | none =>
      if fileId ∈ memo.unreadable then
        (memo, if strict then .error ⟨fileId⟩ else .ok none)
      else
        match drive.getFile fileId with
        | none =>
            ({ memo with unreadable := fileId :: memo.unreadable },
              if strict then .error ⟨fileId⟩ else .ok none)
        | some entry =>
            ({ memo with parents := memo.parents.assign fileId (statedParent entry) },
              .ok (statedParent entry))

/-- This is the loop of `_walk_up` with the passes that are left. -/
def walkLoop (strict : Bool) (stopAt : Option Text) :
    Nat → Ancestry → List Text → Text → Ancestry × Except AncestryUnknown (List Text)
  | 0, memo, ancestors, current => (memo, if strict then .error ⟨current⟩ else .ok ancestors)
  | passes + 1, memo, ancestors, current =>
      match parentOf drive strict memo current with
      | (memo, .error unknown) => (memo, .error unknown)
      | (memo, .ok none) => (memo, .ok ancestors)
      | (memo, .ok (some parent)) =>
          if some parent = stopAt then (memo, .ok (ancestors ++ [parent]))
          else if parent ∈ ancestors then
            (memo, if strict then .error ⟨parent⟩ else .ok ancestors)
          else walkLoop strict stopAt passes memo (ancestors ++ [parent]) parent

/-- This is `_walk_up`. -/
def walkUp (strict : Bool) (stopAt : Option Text) (memo : Ancestry) (startId : Text) :
    Ancestry × Except AncestryUnknown (List Text) :=
  walkLoop drive strict stopAt maxAncestorDepth memo [] startId

/-- These are the modes of a source. -/
inductive Mode where
  | myDrive
  | folder
  | sharedDrive
  deriving DecidableEq

/-- These are the mode and the folder of `_ModeConfig`. -/
structure ModeConfig where
  mode : Mode
  folderId : Option Text
  deriving DecidableEq

/-- This is the folder of a source that is narrower than its change log. -/
def ModeConfig.root (cfg : ModeConfig) : Option Text :=
  if cfg.mode = .folder then cfg.folderId else none

/-- This is `_is_within_root`. -/
def isWithinRoot (cfg : ModeConfig) (memo : Ancestry) (file : FileEntry) :
    Ancestry × Except AncestryUnknown Bool :=
  match cfg.root with
  | none => (memo, .ok true)
  | some folderId =>
      match statedParent file with
      | none => (memo, .ok false)
      | some parent =>
          if parent = folderId then (memo, .ok true)
          else
            let walked := walkUp drive true (some folderId) memo parent
            (walked.1, walked.2.map fun chain => folderId ∈ chain)

/-- A changed container is inside the configured root, above it or outside. -/
inductive Relation where
  | inside
  | above
  | outside
  deriving DecidableEq

/-- This is `_container_relation`. -/
def containerRelation (cfg : ModeConfig) (memo : Ancestry) (containerId : Text) :
    Ancestry × Except AncestryUnknown Relation :=
  match cfg.root with
  | none => (memo, .ok .inside)
  | some folderId =>
      if containerId = folderId then (memo, .ok .inside)
      else
        let up := walkUp drive true (some folderId) memo containerId
        let inside := match up.2 with
          | .ok chain => decide (folderId ∈ chain)
          | .error _ => false
        let insideUnprovable := match up.2 with
          | .ok _ => false
          | .error _ => true
        if inside then (up.1, .ok .inside)
        else
          match walkUp drive true (some containerId) up.1 folderId with
          | (memo, .error unknown) => (memo, .error unknown)
          | (memo, .ok aboveChain) =>
              if containerId ∈ aboveChain then (memo, .ok .above)
              else if insideUnprovable then (memo, .error ⟨containerId⟩)
              else (memo, .ok .outside)

/-- A run asks for scope proofs of files and containers and for the ancestors above a container. -/
inductive Query where
  | within (file : FileEntry)
  | relation (containerId : Text)
  | walk (startId : Text) (strict : Bool) (stopAt : Option Text)

/-- This is the answer to a query. -/
inductive Answer where
  | within (inside : Bool)
  | relation (relation : Relation)
  | chain (ancestors : List Text)
  deriving DecidableEq

def Query.ask (cfg : ModeConfig) (memo : Ancestry) :
    Query → Ancestry × Except AncestryUnknown Answer
  | .within file =>
      let asked := isWithinRoot drive cfg memo file
      (asked.1, asked.2.map .within)
  | .relation containerId =>
      let asked := containerRelation drive cfg memo containerId
      (asked.1, asked.2.map .relation)
  | .walk startId strict stopAt =>
      let asked := walkUp drive strict stopAt memo startId
      (asked.1, asked.2.map .chain)

/-- The queries of a run share one memo. -/
def askAll (cfg : ModeConfig) : Ancestry → List Query → List (Except AncestryUnknown Answer)
  | _, [] => []
  | memo, query :: queries =>
      let asked := query.ask drive cfg memo
      asked.2 :: askAll cfg asked.1 queries

end Walks

end LumenCopilot.Drive
