import LumenCopilot.Construction.Drive.Ancestry
import LumenCopilot.Proof.Library.Ascent
import LumenCopilot.Proof.Library.Dict
import Mathlib

namespace LumenCopilot.Drive

open Library Python

/-- This is the parent map of the drive, whether or not a file is readable. -/
def Files.parent (drive : Files) (fileId : Text) : Option Text := statedParent (drive.entry fileId)

/-- The memo holds what a read of the drive would find. -/
structure Ancestry.Faithful (drive : Files) (memo : Ancestry) : Prop where
  known : ∀ fileId parent, memo.parents.lookup fileId = some parent →
    drive.readable fileId = true ∧ parent = drive.parent fileId
  broken : ∀ fileId ∈ memo.unreadable, drive.readable fileId = false

theorem Ancestry.fresh_faithful (drive : Files) : Ancestry.fresh.Faithful drive :=
  ⟨fun fileId parent found => by simp [fresh] at found, fun fileId member => by simp [fresh] at member⟩

section Walks

variable (drive : Files)

/-- This is the answer of `_parent_of` without a memo. -/
def readParent (strict : Bool) (fileId : Text) : Except AncestryUnknown (Option Text) :=
  if drive.readable fileId then .ok (drive.parent fileId)
  else if strict then .error ⟨fileId⟩ else .ok none

/-- This is the loop of `_walk_up` without a memo. -/
def climb (strict : Bool) (stopAt : Option Text) :
    Nat → List Text → Text → Except AncestryUnknown (List Text)
  | 0, ancestors, current => if strict then .error ⟨current⟩ else .ok ancestors
  | passes + 1, ancestors, current =>
      match readParent drive strict current with
      | .error unknown => .error unknown
      | .ok none => .ok ancestors
      | .ok (some parent) =>
          if some parent = stopAt then .ok (ancestors ++ [parent])
          else if parent ∈ ancestors then if strict then .error ⟨parent⟩ else .ok ancestors
          else climb strict stopAt passes (ancestors ++ [parent]) parent

/-- A faithful memo stays faithful and gives the answer of the drive. -/
theorem parentOf_faithful (strict : Bool) (memo : Ancestry) (fileId : Text)
    (faithful : memo.Faithful drive) :
    (parentOf drive strict memo fileId).1.Faithful drive ∧
      (parentOf drive strict memo fileId).2 = readParent drive strict fileId := by
  unfold parentOf readParent
  cases found : memo.parents.lookup fileId with
  | some parent =>
      obtain ⟨readable, same⟩ := faithful.known fileId parent found
      exact ⟨faithful, by rw [if_pos readable, same]⟩
  | none =>
      dsimp only
      by_cases broken : fileId ∈ memo.unreadable
      · rw [if_pos broken]
        exact ⟨faithful, by simp [faithful.broken fileId broken]⟩
      · rw [if_neg broken, Files.getFile]
        by_cases readable : drive.readable fileId = true
        · rw [if_pos readable, if_pos readable]
          refine ⟨⟨?_, faithful.broken⟩, rfl⟩
          intro other parent stored
          rw [Dict.lookup_assigned] at stored
          split at stored
          · next same =>
              rw [same]
              exact ⟨readable, (Option.some.inj stored).symm⟩
          · exact faithful.known other parent stored
        · rw [if_neg readable, if_neg readable]
          refine ⟨⟨faithful.known, ?_⟩, rfl⟩
          intro other member
          rcases List.mem_cons.mp member with same | earlier
          · rw [same]
            simpa using readable
          · exact faithful.broken other earlier

theorem walkLoop_faithful (strict : Bool) (stopAt : Option Text) (passes : Nat) (memo : Ancestry)
    (ancestors : List Text) (current : Text) (faithful : memo.Faithful drive) :
    (walkLoop drive strict stopAt passes memo ancestors current).1.Faithful drive ∧
      (walkLoop drive strict stopAt passes memo ancestors current).2 =
        climb drive strict stopAt passes ancestors current := by
  induction passes generalizing memo ancestors current with
  | zero => exact ⟨faithful, rfl⟩
  | succ passes ih =>
      obtain ⟨kept, same⟩ := parentOf_faithful drive strict memo current faithful
      rw [walkLoop, climb, ← same]
      generalize parentOf drive strict memo current = asked at kept
      obtain ⟨memo, answer⟩ := asked
      cases answer with
      | error unknown => exact ⟨kept, rfl⟩
      | ok parent =>
          cases parent with
          | none => exact ⟨kept, rfl⟩
          | some parent =>
              dsimp only
              split
              · exact ⟨kept, rfl⟩
              · split
                · exact ⟨kept, rfl⟩
                · exact ih memo (ancestors ++ [parent]) parent kept

/-- Above the start lies a file that is unreadable, on a cycle or at least so many steps up. -/
def Unprovable (depth : Nat) (start : Text) : Prop :=
  ∃ steps fileId, ascend drive.parent steps start = some fileId ∧
    (drive.readable fileId = false ∨ Above drive.parent fileId fileId ∨ depth ≤ steps)

/-- The loop climbs the parent map. It ends at the target, at a root or for a reason. -/
theorem climb_spec (strict : Bool) (stopAt : Option Text) (start : Text) (passes : Nat)
    (ancestors : List Text) (current : Text) (climbs : Climbs drive.parent start ancestors)
    (reached : ascend drive.parent ancestors.length start = some current) :
    match climb drive strict stopAt passes ancestors current with
    | .ok chain => Climbs drive.parent start chain ∧ (strict = true →
        (∃ target ∈ chain, stopAt = some target) ∨
          ∃ last, ascend drive.parent chain.length start = some last ∧ drive.parent last = none)
    | .error _ => strict = true ∧ Unprovable drive (ancestors.length + passes) start := by
  induction passes generalizing ancestors current with
  | zero =>
      rw [climb]
      cases strict with
      | false => exact ⟨climbs, fun wrong => absurd wrong Bool.false_ne_true⟩
      | true => exact ⟨rfl, ancestors.length, current, reached, Or.inr (Or.inr le_rfl)⟩
  | succ passes ih =>
      rw [climb, readParent]
      by_cases readable : drive.readable current = true
      · rw [if_pos readable]
        cases up : drive.parent current with
        | none => exact ⟨climbs, fun _ => Or.inr ⟨current, reached, up⟩⟩
        | some parent =>
            obtain ⟨longer, top⟩ := climbs.concat reached up
            dsimp only
            by_cases target : some parent = stopAt
            · rw [if_pos target]
              exact ⟨longer, fun _ => Or.inl ⟨parent, by simp, target.symm⟩⟩
            · rw [if_neg target]
              by_cases again : parent ∈ ancestors
              · rw [if_pos again]
                cases strict with
                | false => exact ⟨climbs, fun wrong => absurd wrong Bool.false_ne_true⟩
                | true =>
                    obtain ⟨place, short, found⟩ := List.mem_iff_getElem.mp again
                    have first : ascend drive.parent (place + 1) start = some parent := by
                      rw [climbs place short, List.getElem?_eq_getElem short, found]
                    rw [List.length_append, List.length_singleton] at top
                    have cycle := above_self_of_again (by omega) first top
                    exact ⟨rfl, place + 1, parent, first, Or.inr (Or.inl cycle)⟩
              · rw [if_neg again]
                have rest := ih (ancestors ++ [parent]) parent longer top
                rw [List.length_append, List.length_singleton,
                  show ancestors.length + 1 + passes = ancestors.length + (passes + 1) by omega] at rest
                exact rest
      · rw [if_neg readable]
        have broken : drive.readable current = false := by simpa using readable
        cases strict with
        | false => exact ⟨climbs, fun wrong => absurd wrong Bool.false_ne_true⟩
        | true => exact ⟨rfl, ancestors.length, current, reached, Or.inl broken⟩

/-- A strict walk to a target finds it exactly when it lies above the start. -/
theorem climb_target (target start : Text) (chain : List Text)
    (walked : climb drive true (some target) maxAncestorDepth [] start = .ok chain) :
    target ∈ chain ↔ Above drive.parent start target := by
  have spec := climb_spec drive true (some target) start maxAncestorDepth [] start
    (climbs_nil start) rfl
  rw [walked] at spec
  obtain ⟨climbs, ends⟩ := spec
  rcases ends rfl with ⟨found, member, same⟩ | ⟨last, reached, root⟩
  · obtain rfl := Option.some.inj same
    exact iff_of_true member (climbs.above member)
  · exact climbs.mem_iff reached root

theorem climb_error (strict : Bool) (stopAt : Option Text) (start : Text) (unknown : AncestryUnknown)
    (walked : climb drive strict stopAt maxAncestorDepth [] start = .error unknown) :
    strict = true ∧ Unprovable drive maxAncestorDepth start := by
  have spec := climb_spec drive strict stopAt start maxAncestorDepth [] start (climbs_nil start) rfl
  rw [walked, List.length_nil, Nat.zero_add] at spec
  exact spec

/-- The file lies in the folder or below it. -/
def Within (folderId : Text) (file : FileEntry) : Prop :=
  ∃ parent, statedParent file = some parent ∧
    (parent = folderId ∨ Above drive.parent parent folderId)

/-- The answer to a query is right in the parent map, and an unknown has a reason on a path. -/
def Justified (folderId : Text) : Query → Except AncestryUnknown Answer → Prop
  | .within file, .ok (.within inside) => inside = true ↔ Within drive folderId file
  | .within file, .error _ =>
      ∃ parent, statedParent file = some parent ∧ Unprovable drive maxAncestorDepth parent
  | .relation containerId, .ok (.relation .inside) =>
      containerId = folderId ∨ Above drive.parent containerId folderId
  | .relation containerId, .ok (.relation .above) => Above drive.parent folderId containerId
  | .relation containerId, .ok (.relation .outside) =>
      containerId ≠ folderId ∧ ¬Above drive.parent containerId folderId ∧
        ¬Above drive.parent folderId containerId
  | .relation containerId, .error _ =>
      Unprovable drive maxAncestorDepth containerId ∨ Unprovable drive maxAncestorDepth folderId
  | .walk startId _ _, .ok (.chain chain) => Climbs drive.parent startId chain
  | .walk startId strict _, .error _ => strict = true ∧ Unprovable drive maxAncestorDepth startId
  | _, _ => False

/-- These are the answers to the three queries without a memo. -/
def Query.answer (folderId : Text) : Query → Except AncestryUnknown Answer
  | .within file =>
      match statedParent file with
      | none => .ok (.within false)
      | some parent =>
          if parent = folderId then .ok (.within true)
          else (climb drive true (some folderId) maxAncestorDepth [] parent).map fun chain =>
            .within (folderId ∈ chain)
  | .relation containerId =>
      if containerId = folderId then .ok (.relation .inside)
      else
        let up := climb drive true (some folderId) maxAncestorDepth [] containerId
        match up with
        | .ok chain =>
            if folderId ∈ chain then .ok (.relation .inside)
            else (climb drive true (some containerId) maxAncestorDepth [] folderId).map fun chain =>
              .relation (if containerId ∈ chain then .above else .outside)
        | .error _ =>
            match climb drive true (some containerId) maxAncestorDepth [] folderId with
            | .ok chain =>
                if containerId ∈ chain then .ok (.relation .above) else .error ⟨containerId⟩
            | .error unknown => .error unknown
  | .walk startId strict stopAt =>
      (climb drive strict stopAt maxAncestorDepth [] startId).map .chain

/-- A faithful memo stays faithful through a query and does not change its answer. -/
theorem Query.ask_faithful (folderId : Text) (memo : Ancestry) (query : Query)
    (faithful : memo.Faithful drive) :
    (query.ask drive ⟨.folder, some folderId⟩ memo).1.Faithful drive ∧
      (query.ask drive ⟨.folder, some folderId⟩ memo).2 = query.answer drive folderId := by
  have root : (ModeConfig.mk .folder (some folderId)).root = some folderId := rfl
  cases query with
  | within file =>
      simp only [ask, answer, isWithinRoot, root]
      cases stated : statedParent file with
      | none => exact ⟨faithful, rfl⟩
      | some parent =>
          dsimp only
          split
          · exact ⟨faithful, rfl⟩
          · obtain ⟨kept, same⟩ := walkLoop_faithful drive true (some folderId) maxAncestorDepth memo
              [] parent faithful
            refine ⟨kept, ?_⟩
            rw [walkUp, same]
            cases climb drive true (some folderId) maxAncestorDepth [] parent <;> rfl
  | relation containerId =>
      simp only [ask, answer, containerRelation, root]
      split
      · exact ⟨faithful, rfl⟩
      · obtain ⟨kept, same⟩ := walkLoop_faithful drive true (some folderId) maxAncestorDepth memo
          [] containerId faithful
        obtain ⟨keptAbove, sameAbove⟩ := walkLoop_faithful drive true (some containerId)
          maxAncestorDepth _ [] folderId kept
        rw [← walkUp] at kept same keptAbove sameAbove
        rw [← walkUp] at keptAbove sameAbove
        rw [same, ← sameAbove]
        generalize walkUp drive true (some containerId)
          (walkUp drive true (some folderId) memo containerId).1 folderId = up at keptAbove
        obtain ⟨after, found⟩ := up
        cases climb drive true (some folderId) maxAncestorDepth [] containerId with
        | ok chain =>
            by_cases inside : folderId ∈ chain
            · simp only [inside, decide_true, ↓reduceIte]
              exact ⟨kept, rfl⟩
            · simp only [inside, decide_false, Bool.false_eq_true, ↓reduceIte]
              cases found with
              | error unknown => exact ⟨keptAbove, rfl⟩
              | ok aboveChain =>
                  by_cases member : containerId ∈ aboveChain
                  · simp only [member, ↓reduceIte]
                    exact ⟨keptAbove, by simp [Except.map, member]⟩
                  · simp only [member, ↓reduceIte]
                    exact ⟨keptAbove, by simp [Except.map, member]⟩
        | error unknown =>
            simp only [Bool.false_eq_true, ↓reduceIte]
            cases found with
            | error unknown => exact ⟨keptAbove, rfl⟩
            | ok aboveChain =>
                by_cases member : containerId ∈ aboveChain
                · simp only [member, ↓reduceIte]
                  exact ⟨keptAbove, rfl⟩
                · simp only [member, ↓reduceIte]
                  exact ⟨keptAbove, rfl⟩
  | walk startId strict stopAt =>
      obtain ⟨kept, same⟩ := walkLoop_faithful drive strict stopAt maxAncestorDepth memo [] startId
        faithful
      refine ⟨kept, ?_⟩
      rw [ask, walkUp, same, answer]

/-- Every answer without a memo is justified by the parent map. -/
theorem Query.answer_justified (folderId : Text) (query : Query) :
    Justified drive folderId query (query.answer drive folderId) := by
  cases query with
  | within file =>
      simp only [answer]
      cases stated : statedParent file with
      | none =>
          show false = true ↔ Within drive folderId file
          simp [Within, stated]
      | some parent =>
          have within (inside : Prop) : (Within drive folderId file ↔ inside) ↔
              (parent = folderId ∨ Above drive.parent parent folderId ↔ inside) := by
            simp [Within, stated]
          dsimp only
          split
          · next same =>
              show true = true ↔ Within drive folderId file
              rw [Iff.comm, within]
              simp [same]
          · next differs =>
              cases walked : climb drive true (some folderId) maxAncestorDepth [] parent with
              | error unknown =>
                  exact ⟨parent, stated, (climb_error drive true _ parent unknown walked).2⟩
              | ok chain =>
                  show decide (folderId ∈ chain) = true ↔ Within drive folderId file
                  rw [Iff.comm, within, decide_eq_true_eq,
                    climb_target drive folderId parent chain walked]
                  simp [differs]
  | relation containerId =>
      simp only [answer]
      split
      · next same => exact Or.inl same
      · next differs =>
          cases up : climb drive true (some folderId) maxAncestorDepth [] containerId with
          | ok chain =>
              have inside := climb_target drive folderId containerId chain up
              dsimp only
              split
              · next member => exact Or.inr (inside.mp member)
              · next outside =>
                  cases down : climb drive true (some containerId) maxAncestorDepth [] folderId with
                  | error unknown => exact Or.inr (climb_error drive true _ folderId unknown down).2
                  | ok aboveChain =>
                      have above := climb_target drive containerId folderId aboveChain down
                      simp only [Except.map]
                      by_cases member : containerId ∈ aboveChain
                      · simp only [member, ↓reduceIte]
                        exact above.mp member
                      · simp only [member, ↓reduceIte]
                        exact ⟨differs, fun found => outside (inside.mpr found),
                          fun found => member (above.mpr found)⟩
          | error unknown =>
              have reason := (climb_error drive true _ containerId unknown up).2
              dsimp only
              cases down : climb drive true (some containerId) maxAncestorDepth [] folderId with
              | error later => exact Or.inl reason
              | ok aboveChain =>
                  dsimp only
                  split
                  · next member =>
                      exact (climb_target drive containerId folderId aboveChain down).mp member
                  · exact Or.inl reason
  | walk startId strict stopAt =>
      simp only [answer]
      cases walked : climb drive strict stopAt maxAncestorDepth [] startId with
      | error unknown => exact climb_error drive strict stopAt startId unknown walked
      | ok chain =>
          have spec := climb_spec drive strict stopAt startId maxAncestorDepth [] startId
            (climbs_nil startId) rfl
          rw [walked] at spec
          exact spec.1

theorem askAll_answers (folderId : Text) (memo : Ancestry) (queries : List Query)
    (faithful : memo.Faithful drive) :
    askAll drive ⟨.folder, some folderId⟩ memo queries =
      queries.map fun query => query.answer drive folderId := by
  induction queries generalizing memo with
  | nil => rfl
  | cons query queries ih =>
      obtain ⟨kept, same⟩ := query.ask_faithful drive folderId memo faithful
      rw [askAll, List.map_cons, same, ih _ kept]

/-- Queries that share a memo get the answers of a fresh memo, and each answer is justified. -/
theorem askAll_justified (folderId : Text) (queries : List Query) :
    askAll drive ⟨.folder, some folderId⟩ .fresh queries =
        queries.map (fun query => (query.ask drive ⟨.folder, some folderId⟩ .fresh).2) ∧
      List.Forall₂ (Justified drive folderId) queries
        (askAll drive ⟨.folder, some folderId⟩ .fresh queries) := by
  have faithful := Ancestry.fresh_faithful drive
  rw [askAll_answers drive folderId .fresh queries faithful]
  constructor
  · apply List.map_congr_left
    intro query _
    exact (query.ask_faithful drive folderId .fresh faithful).2.symm
  · rw [List.forall₂_map_right_iff]
    exact List.forall₂_same.mpr fun query _ => query.answer_justified drive folderId

end Walks

/-- In this drive the parent of a file has one more letter, up to 65 letters. -/
def ladder : Files where
  entry fileId :=
    if fileId.length < 65 then [("parents".toList, .list [.str ('a' :: fileId)])] else []
  readable _ := true

theorem ladder_parent (fileId : Text) :
    ladder.parent fileId = if fileId.length < 65 then some ('a' :: fileId) else none := by
  show statedParent (if fileId.length < 65 then _ else _) = _
  split
  · show (if 'a' :: fileId = [] then none else some ('a' :: fileId)) = _
    exact if_neg (List.cons_ne_nil 'a' fileId)
  · rfl

theorem ladder_length (steps : Nat) (fileId upper : Text)
    (found : ascend ladder.parent steps fileId = some upper) :
    upper.length = fileId.length + steps ∧ (steps = 0 ∨ upper.length ≤ 65) := by
  induction steps generalizing fileId with
  | zero =>
      obtain rfl := Option.some.inj found
      exact ⟨rfl, Or.inl rfl⟩
  | succ steps ih =>
      rw [ascend, Option.bind_eq_some_iff] at found
      obtain ⟨middle, first, rest⟩ := found
      rw [ladder_parent] at first
      have up : fileId.length < 65 ∧ middle = 'a' :: fileId := by
        split at first
        · next short => exact ⟨short, (Option.some.inj first).symm⟩
        · contradiction
      obtain ⟨same, bound⟩ := ih middle rest
      rw [up.2, List.length_cons] at same
      refine ⟨by omega, Or.inr ?_⟩
      omega

/-- A container with exactly 64 readable files above it and no cycle gets no proof. -/
theorem askAll_ladder :
    askAll ladder ⟨.folder, some "root".toList⟩ .fresh [.relation ['c']] = [.error ⟨['c']⟩] ∧
      ¬∃ start steps fileId, (start = ['c'] ∨ start = "root".toList) ∧
        ascend ladder.parent steps start = some fileId ∧
          (ladder.readable fileId = false ∨ Above ladder.parent fileId fileId ∨
            maxAncestorDepth < steps) := by
  constructor
  · decide +kernel
  · intro ⟨start, steps, fileId, here, found, reason⟩
    obtain ⟨length, bound⟩ := ladder_length steps start fileId found
    rcases reason with broken | ⟨more, cycle⟩ | far
    · exact absurd broken (by simp [ladder])
    · have longer := (ladder_length _ _ _ cycle).1
      omega
    · have positive : 0 < start.length := by
        rcases here with rfl | rfl <;> decide
      simp only [maxAncestorDepth] at far
      omega

end LumenCopilot.Drive
