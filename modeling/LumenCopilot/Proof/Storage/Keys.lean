import LumenCopilot.Construction.Storage.Keys
import LumenCopilot.Proof.Library.Lists
import LumenCopilot.Proof.Library.Partial
import LumenCopilot.Proof.Python.Json
import Mathlib

namespace LumenCopilot.Storage

open Library Python

/-- A safe segment is a name of safe characters that stays on its level. -/
structure SafeSegment (segment : Text) : Prop where
  filled : segment ≠ []
  safe : ∀ c ∈ segment, isSafeChar c = true
  stays : segment ≠ ['.'] ∧ segment ≠ ['.', '.']

/-- The identifier ends in a line feed. -/
def EndsLine (id : Text) : Prop := id.getLast? = some '\n'

theorem isSafeChar_slash : isSafeChar '/' = false := by decide

theorem isSafeChar_of_isHexDigit {c : Char} (digit : isHexDigit c = true) : isSafeChar c = true := by
  obtain ⟨n, member, same⟩ := List.any_eq_true.mp digit
  rw [← beq_iff_eq.mp same]
  have table : ∀ n ∈ List.range 16, isSafeChar (hexDigit n) = true := by decide
  exact table n member

theorem SafeSegment.slash_not_mem {segment : Text} (safe : SafeSegment segment) : '/' ∉ segment := by
  intro member
  have bad := safe.safe '/' member
  rw [isSafeChar_slash] at bad
  contradiction

/-- A name that starts with another character than a full stop stays on its level. -/
theorem SafeSegment.of_head {c : Char} {rest : Text} (start : c ≠ '.')
    (safe : ∀ d ∈ c :: rest, isSafeChar d = true) : SafeSegment (c :: rest) := by
  refine ⟨List.cons_ne_nil c rest, safe, ?_, ?_⟩
  · intro same
    exact start (List.cons.inj same).1
  · intro same
    exact start (List.cons.inj same).1

theorem hexdigest_safe (data : List Nat) : SafeSegment (Sha256.hexdigest data) := by
  have length := length_hexdigest data
  refine ⟨?_, fun c member => isSafeChar_of_isHexDigit (isHexDigit_hexdigest member), ?_, ?_⟩
  · intro same
    simp [same] at length
  · intro same
    simp [same] at length
  · intro same
    simp [same] at length

theorem collapseUnsafe_safe (inside : Bool) (text : Text) :
    ∀ c ∈ collapseUnsafe inside text, isSafeChar c = true := by
  induction text generalizing inside with
  | nil => simp [collapseUnsafe]
  | cons d rest ih =>
      rw [collapseUnsafe]
      split
      · next safe =>
          rw [List.forall_mem_cons]
          exact ⟨safe, ih false⟩
      · split
        · exact ih true
        · rw [List.forall_mem_cons]
          exact ⟨by decide, ih true⟩

/-- Every file name becomes one safe segment. -/
theorem safeFilename_safe (nfkc : Text → Text) (filename : Text) :
    SafeSegment (safeFilename nfkc filename) := by
  unfold safeFilename
  dsimp only
  split
  · have spelled : fallbackFilename = ['f', 'i', 'l', 'e'] := by decide
    rw [spelled]
    exact SafeSegment.of_head (by decide) (by simp [isSafeChar])
  · next filled =>
      rw [List.isEmpty_iff] at filled
      have safe (c : Char) (member : c ∈ (lstripChar '.' (collapseUnsafe false
          ((nfkc (strip (basename (replace ['\\'] ['/'] filename)))).filter isAscii))).take
            maxFilenameLen) : isSafeChar c = true :=
        collapseUnsafe_safe _ _ c ((List.dropWhile_suffix _).subset (List.mem_of_mem_take member))
      cases trimmed : lstripChar '.' (collapseUnsafe false
          ((nfkc (strip (basename (replace ['\\'] ['/'] filename)))).filter isAscii)) with
      | nil => simp [trimmed] at filled
      | cons c rest =>
          rw [trimmed] at safe
          have start : (c == '.') = false := by
            have head := List.head?_dropWhile_not (· == '.') (collapseUnsafe false
              ((nfkc (strip (basename (replace ['\\'] ['/'] filename)))).filter isAscii))
            rw [← lstripChar, trimmed] at head
            simpa using head
          exact SafeSegment.of_head (by simpa using start) safe

/-- An accepted identifier is a safe segment, up to a line feed at its end. -/
theorem tenantIdMatch_cases {id : Text} (accepted : tenantIdMatch id = true) :
    SafeSegment id ∨ ∃ name, SafeSegment name ∧ id = name ++ ['\n'] := by
  cases id with
  | nil => simp [tenantIdMatch] at accepted
  | cons c rest =>
      rw [tenantIdMatch, Bool.and_eq_true, Bool.or_eq_true, beq_iff_eq, beq_iff_eq] at accepted
      obtain ⟨letter, tail⟩ := accepted
      have whole := List.takeWhile_append_dropWhile (p := isSafeChar) (l := rest)
      have named : SafeSegment (c :: rest.takeWhile isSafeChar) := by
        apply SafeSegment.of_head
        · intro same
          rw [same] at letter
          exact absurd letter (by decide)
        · rw [List.forall_mem_cons]
          exact ⟨by simp [isSafeChar, letter], fun d member => List.mem_takeWhile_imp member⟩
      rcases tail with none' | line
      · rw [none', List.append_nil] at whole
        rw [whole] at named
        exact Or.inl named
      · rw [line] at whole
        exact Or.inr ⟨_, named, by rw [List.cons_append, whole]⟩

theorem tenantIdMatch_slash {id : Text} (accepted : tenantIdMatch id = true) : '/' ∉ id := by
  rcases tenantIdMatch_cases accepted with safe | ⟨name, safe, rfl⟩
  · exact safe.slash_not_mem
  · simpa using safe.slash_not_mem

/-- An accepted identifier is a safe segment exactly when it does not end in a line feed. -/
theorem tenantIdMatch_safe_iff {id : Text} (accepted : tenantIdMatch id = true) :
    SafeSegment id ↔ ¬EndsLine id := by
  have line : isSafeChar '\n' = false := by decide
  constructor
  · intro safe ends
    have bad := safe.safe '\n' (List.mem_of_getLast? ends)
    rw [line] at bad
    contradiction
  · intro open'
    rcases tenantIdMatch_cases accepted with safe | ⟨name, safe, rfl⟩
    · exact safe
    · exact absurd (by simp [EndsLine]) open'

/-- These are the identifiers of the request that its builder validates. -/
def KeyRequest.ids : KeyRequest → List Text
  | .document .. => []
  | .quarantine documentId _ => [documentId]
  | .avatar userId .. => [userId]
  | .artifact objectId .. => objectId.toList

/-- These are the segments of the key of a request. -/
def KeyRequest.segments (nfkc : Text → Text) (tenantId : Text) : KeyRequest → List Text
  | .document data filename => [tenantId, Sha256.hexdigest data, safeFilename nfkc filename]
  | .quarantine documentId filename =>
      [tenantId, "quarantine".toList, documentId, safeFilename nfkc filename]
  | .avatar userId data filename =>
      [tenantId, userId, Sha256.hexdigest data, safeFilename nfkc filename]
  | .artifact objectId data filename =>
      [artifactPrefix, tenantId] ++ objectId.toList ++
        [Sha256.hexdigest data, safeFilename nfkc filename]

theorem validateTenantId_eq_ok {id result : Text} :
    validateTenantId id = .ok result ↔ tenantIdMatch id = true ∧ result = id := by
  unfold validateTenantId
  split
  · next accepted =>
      rw [Except.ok.injEq]
      exact ⟨fun same => ⟨accepted, same.symm⟩, fun both => both.2.symm⟩
  · next refused =>
      constructor
      · intro same
        contradiction
      · intro both
        exact absurd both.1 refused

variable {nfkc : Text → Text} {tenantId key : Text} {request : KeyRequest}

/-- A builder joins the segments once every identifier is accepted. -/
theorem KeyRequest.build_ok (built : request.build nfkc tenantId = .ok key) :
    (∀ id ∈ tenantId :: request.ids, tenantIdMatch id = true) ∧
      key = join ['/'] (request.segments nfkc tenantId) := by
  cases request with
  | document data filename =>
      obtain ⟨tenant, valid, rest⟩ := bind_eq_ok built
      obtain ⟨accepted, rfl⟩ := validateTenantId_eq_ok.mp valid
      exact ⟨by simpa [ids] using accepted, (Except.ok.inj rest).symm⟩
  | quarantine documentId filename =>
      obtain ⟨tenant, valid, rest⟩ := bind_eq_ok built
      obtain ⟨document, validDocument, joined⟩ := bind_eq_ok rest
      obtain ⟨accepted, rfl⟩ := validateTenantId_eq_ok.mp valid
      obtain ⟨acceptedDocument, rfl⟩ := validateTenantId_eq_ok.mp validDocument
      exact ⟨by simp [ids, accepted, acceptedDocument], (Except.ok.inj joined).symm⟩
  | avatar userId data filename =>
      obtain ⟨tenant, valid, rest⟩ := bind_eq_ok built
      obtain ⟨user, validUser, joined⟩ := bind_eq_ok rest
      obtain ⟨accepted, rfl⟩ := validateTenantId_eq_ok.mp valid
      obtain ⟨acceptedUser, rfl⟩ := validateTenantId_eq_ok.mp validUser
      exact ⟨by simp [ids, accepted, acceptedUser], (Except.ok.inj joined).symm⟩
  | artifact objectId data filename =>
      cases objectId with
      | none =>
          obtain ⟨scope, opened, rest⟩ := bind_eq_ok built
          obtain ⟨tenant, valid, joined⟩ := bind_eq_ok rest
          obtain ⟨accepted, rfl⟩ := validateTenantId_eq_ok.mp valid
          obtain rfl := Except.ok.inj opened
          exact ⟨by simp [ids, accepted], (Except.ok.inj joined).symm⟩
      | some objectId =>
          obtain ⟨scope, opened, rest⟩ := bind_eq_ok built
          obtain ⟨tenant, valid, joined⟩ := bind_eq_ok rest
          obtain ⟨accepted, rfl⟩ := validateTenantId_eq_ok.mp valid
          obtain ⟨object, validObject, rfl⟩ := (map_eq_ok_iff _ _ _).mp opened
          obtain ⟨acceptedObject, rfl⟩ := validateTenantId_eq_ok.mp validObject
          exact ⟨by simp [ids, accepted, acceptedObject], (Except.ok.inj joined).symm⟩

theorem segments_slash (accepted : ∀ id ∈ tenantId :: request.ids, tenantIdMatch id = true) :
    ∀ segment ∈ request.segments nfkc tenantId, '/' ∉ segment := by
  have tenant := tenantIdMatch_slash (accepted tenantId List.mem_cons_self)
  have digest (data : List Nat) := (hexdigest_safe data).slash_not_mem
  have name (filename : Text) := (safeFilename_safe nfkc filename).slash_not_mem
  have id (id : Text) (member : id ∈ request.ids) : '/' ∉ id :=
    tenantIdMatch_slash (accepted id (List.mem_cons_of_mem _ member))
  have quarantine : '/' ∉ "quarantine".toList := by decide
  have artifacts : '/' ∉ artifactPrefix := by decide
  intro segment member
  cases request with
  | document data filename =>
      simp only [KeyRequest.segments, List.mem_cons, List.not_mem_nil, or_false] at member
      rcases member with rfl | rfl | rfl
      · exact tenant
      · exact digest data
      · exact name filename
  | quarantine documentId filename =>
      simp only [KeyRequest.segments, List.mem_cons, List.not_mem_nil, or_false] at member
      rcases member with rfl | rfl | rfl | rfl
      · exact tenant
      · exact quarantine
      · exact id _ List.mem_cons_self
      · exact name filename
  | avatar userId data filename =>
      simp only [KeyRequest.segments, List.mem_cons, List.not_mem_nil, or_false] at member
      rcases member with rfl | rfl | rfl | rfl
      · exact tenant
      · exact id _ List.mem_cons_self
      · exact digest data
      · exact name filename
  | artifact objectId data filename =>
      simp only [KeyRequest.segments, List.mem_append, List.mem_cons, List.not_mem_nil, or_false]
        at member
      rcases member with ((rfl | rfl) | object) | rfl | rfl
      · exact artifacts
      · exact tenant
      · exact id segment object
      · exact digest data
      · exact name filename

/-- The segments of a key are read back by its slashes. -/
theorem KeyRequest.splitOn_key (built : request.build nfkc tenantId = .ok key) :
    key.splitOn '/' = request.segments nfkc tenantId := by
  obtain ⟨accepted, rfl⟩ := build_ok built
  apply List.splitOn_intercalate '/' (segments_slash accepted)
  cases request <;> simp [segments]

theorem join_slash (a b c : Text) (rest : List Text) :
    join ['/'] (a :: b :: c :: rest) = a ++ '/' :: (b ++ '/' :: join ['/'] (c :: rest)) := by
  simp [join, List.intercalate_cons_cons]

/-- A key is in the prefix of a tenant when that tenant is its first segment. -/
theorem assertKeyOwnedBy_join {a : Text} (b c : Text) (rest : List Text)
    (accepted : tenantIdMatch tenantId = true) (apart : '/' ∉ a) :
    assertKeyOwnedBy (join ['/'] (a :: b :: c :: rest)) tenantId = .ok () ↔ tenantId = a := by
  rw [join_slash, ← prefix_delimiter_iff (tenantIdMatch_slash accepted) apart,
    ← List.isPrefixOf_iff_prefix]
  unfold assertKeyOwnedBy validateTenantId startsWith
  rw [if_pos accepted]
  show (if _ then _ else _) = _ ↔ _
  split
  · next starts => exact iff_of_true rfl starts
  · next starts => exact iff_of_false (fun same => by contradiction) starts

/-- A key is in the artifact prefix of a tenant when its second segment is that tenant. -/
theorem assertArtifactKeyOwnedBy_join {a b : Text} (c : Text) (rest : List Text)
    (accepted : tenantIdMatch tenantId = true) (apart : '/' ∉ a) (apartSecond : '/' ∉ b) :
    assertArtifactKeyOwnedBy (join ['/'] (a :: b :: c :: rest)) tenantId = .ok () ↔
      artifactPrefix = a ∧ tenantId = b := by
  have artifacts : '/' ∉ artifactPrefix := by decide
  have starts : artifactPrefix ++ '/' :: tenantId ++ ['/'] <+:
      a ++ '/' :: (b ++ '/' :: join ['/'] (c :: rest)) ↔ artifactPrefix = a ∧ tenantId = b := by
    rw [← prefix_delimiter_iff (tenantIdMatch_slash accepted) apartSecond]
    constructor
    · intro found
      have first : artifactPrefix ++ ['/'] <+: a ++ '/' :: (b ++ '/' :: join ['/'] (c :: rest)) := by
        apply List.IsPrefix.trans _ found
        rw [List.append_assoc]
        exact (List.prefix_append_right_inj _).mpr ⟨tenantId ++ ['/'], rfl⟩
      rw [prefix_delimiter_iff artifacts apart] at first
      rw [first, List.append_assoc, List.prefix_append_right_inj] at found
      exact ⟨first, (List.cons_prefix_cons.mp found).2⟩
    · intro both
      rw [both.1, List.append_assoc, List.prefix_append_right_inj]
      exact List.cons_prefix_cons.mpr ⟨rfl, both.2⟩
  rw [join_slash, ← starts, ← List.isPrefixOf_iff_prefix]
  unfold assertArtifactKeyOwnedBy validateTenantId startsWith
  rw [if_pos accepted]
  show (if _ then _ else _) = _ ↔ _
  split
  · next inside => exact iff_of_true rfl inside
  · next outside => exact iff_of_false (fun same => by contradiction) outside

/-- The key of the first tenant lies under a prefix of the second one, another tenant. -/
def KeyRequest.Enters (first second : Text) : KeyRequest → Prop
  | .document data _ => first = artifactPrefix ∧ second = Sha256.hexdigest data
  | .quarantine .. => first = artifactPrefix ∧ second = "quarantine".toList
  | .avatar userId .. => first = artifactPrefix ∧ second = userId
  | .artifact .. => second = artifactPrefix

/-- The artifact key of the first tenant is the other key of the second tenant. -/
def KeyRequest.Meets (nfkc : Text → Text) (first second : Text) : KeyRequest → KeyRequest → Prop
  | .artifact none data filename, .quarantine documentId other =>
      second = artifactPrefix ∧ first = "quarantine".toList ∧
        documentId = Sha256.hexdigest data ∧ safeFilename nfkc other = safeFilename nfkc filename
  | .artifact none data filename, .avatar userId otherData other =>
      second = artifactPrefix ∧ userId = first ∧
        Sha256.hexdigest otherData = Sha256.hexdigest data ∧
        safeFilename nfkc other = safeFilename nfkc filename
  | _, _ => False

variable {first second : Text}

/-- One of the two checks of another tenant passes exactly when the key enters its prefix. -/
theorem KeyRequest.owned_iff (built : request.build nfkc first = .ok key)
    (accepted : tenantIdMatch second = true) (differs : first ≠ second) :
    assertKeyOwnedBy key second = .ok () ∨ assertArtifactKeyOwnedBy key second = .ok () ↔
      request.Enters first second := by
  obtain ⟨valid, rfl⟩ := build_ok built
  have apart := @segments_slash nfkc first request valid
  cases request with
  | document data filename =>
      simp only [segments, List.forall_mem_cons] at apart
      rw [segments, assertKeyOwnedBy_join _ _ _ accepted apart.1,
        assertArtifactKeyOwnedBy_join _ _ accepted apart.1 apart.2.1, Enters]
      simp [differs.symm, eq_comm]
  | quarantine documentId filename =>
      simp only [segments, List.forall_mem_cons] at apart
      rw [segments, assertKeyOwnedBy_join _ _ _ accepted apart.1,
        assertArtifactKeyOwnedBy_join _ _ accepted apart.1 apart.2.1, Enters]
      simp [differs.symm, eq_comm]
  | avatar userId data filename =>
      simp only [segments, List.forall_mem_cons] at apart
      rw [segments, assertKeyOwnedBy_join _ _ _ accepted apart.1,
        assertArtifactKeyOwnedBy_join _ _ accepted apart.1 apart.2.1, Enters]
      simp [differs.symm, eq_comm]
  | artifact objectId data filename =>
      have cut : ∃ c rest, (KeyRequest.artifact objectId data filename).segments nfkc first =
          artifactPrefix :: first :: c :: rest := by
        cases objectId with
        | none => exact ⟨_, _, rfl⟩
        | some objectId => exact ⟨_, _, rfl⟩
      obtain ⟨c, rest, whole⟩ := cut
      rw [whole] at apart ⊢
      simp only [List.forall_mem_cons] at apart
      rw [assertKeyOwnedBy_join _ _ _ accepted apart.1,
        assertArtifactKeyOwnedBy_join _ _ accepted apart.1 apart.2.1, Enters]
      simp [differs.symm]

/-- An artifact key equals another key exactly when the two requests meet. -/
theorem KeyRequest.same_iff {otherKey : Text} {other : KeyRequest}
    (built : request.build nfkc first = .ok key)
    (otherBuilt : other.build nfkc second = .ok otherKey) (artifact : request.isArtifact = true)
    (plain : other.isArtifact = false) :
    key = otherKey ↔ request.Meets nfkc first second other := by
  have split : key = otherKey ↔ request.segments nfkc first = other.segments nfkc second := by
    constructor
    · rintro rfl
      rw [← splitOn_key built, splitOn_key otherBuilt]
    · intro same
      rw [(build_ok built).2, (build_ok otherBuilt).2, same]
  rw [split]
  cases request with
  | artifact objectId data filename =>
      cases other with
      | artifact => contradiction
      | document =>
          cases objectId <;> simp [segments, Meets]
      | quarantine =>
          cases objectId <;> simp [segments, Meets, eq_comm]
      | avatar =>
          cases objectId <;> simp [segments, Meets, eq_comm]
  | _ => contradiction

theorem KeyRequest.Meets.kinds {other : KeyRequest} (meets : request.Meets nfkc first second other)
    :
    request.isArtifact = true ∧ other.isArtifact = false := by
  cases request with
  | artifact objectId data filename =>
      cases other with
      | artifact => cases objectId <;> exact meets.elim
      | _ => exact ⟨rfl, rfl⟩
  | _ => exact meets.elim

/-- The segments of a key are safe exactly when no identifier in it ends in a line feed. -/
theorem KeyRequest.safe_iff (built : request.build nfkc tenantId = .ok key) :
    (∀ segment ∈ key.splitOn '/', SafeSegment segment) ↔
      ∀ id ∈ tenantId :: request.ids, ¬EndsLine id := by
  rw [splitOn_key built]
  have accepted := (build_ok built).1
  have tenant := tenantIdMatch_safe_iff (accepted tenantId List.mem_cons_self)
  have digest (data : List Nat) : SafeSegment (Sha256.hexdigest data) ↔ True :=
    iff_true_intro (hexdigest_safe data)
  have name (filename : Text) : SafeSegment (safeFilename nfkc filename) ↔ True :=
    iff_true_intro (safeFilename_safe nfkc filename)
  have quarantine : SafeSegment "quarantine".toList ↔ True := by
    have spelled : "quarantine".toList = 'q' :: "uarantine".toList := by decide
    rw [iff_true, spelled]
    exact SafeSegment.of_head (by decide) (by simp [isSafeChar])
  have artifacts : SafeSegment artifactPrefix ↔ True := by
    have spelled : artifactPrefix = 'a' :: "rtifacts".toList := by decide
    rw [iff_true, spelled]
    exact SafeSegment.of_head (by decide) (by simp [isSafeChar])
  cases request with
  | document data filename => simp [segments, ids, tenant, digest, name]
  | quarantine documentId filename =>
      have document := tenantIdMatch_safe_iff (accepted documentId (by simp [ids]))
      simp only [segments, ids, List.forall_mem_cons, tenant, quarantine, document, name, true_and]
      simp
  | avatar userId data filename =>
      have user := tenantIdMatch_safe_iff (accepted userId (by simp [ids]))
      simp [segments, ids, tenant, user, digest, name]
  | artifact objectId data filename =>
      cases objectId with
      | none => simp [segments, ids, artifacts, tenant, digest, name]
      | some objectId =>
          have object := tenantIdMatch_safe_iff (accepted objectId (by simp [ids]))
          simp [segments, ids, artifacts, tenant, object, digest, name]

/-- The key of one tenant is refused to the other one, differs from a key of another kind when it
is an artifact key, and has safe segments only. -/
structure Isolated (first second : Text) (request other : KeyRequest) (key otherKey : Text) :
    Prop where
  refused : first ≠ second →
    assertKeyOwnedBy key second ≠ .ok () ∧ assertArtifactKeyOwnedBy key second ≠ .ok ()
  distinct : request.isArtifact = true → other.isArtifact = false → key ≠ otherKey
  safe : ∀ segment ∈ key.splitOn '/', SafeSegment segment

/-- Keys are isolated exactly when the word of the artifact prefix is no tenant at the wrong place
and no identifier of the key ends in a line feed. -/
theorem KeyRequest.isolated_iff (nfkc : Text → Text) (first second key otherKey : Text)
    (request other : KeyRequest) (built : request.build nfkc first = .ok key)
    (otherBuilt : other.build nfkc second = .ok otherKey) :
    Isolated first second request other key otherKey ↔
      (first ≠ second → ¬request.Enters first second) ∧ ¬request.Meets nfkc first second other ∧
        ∀ id ∈ first :: request.ids, ¬EndsLine id := by
  have accepted := (build_ok otherBuilt).1 second List.mem_cons_self
  have meets (artifact : request.isArtifact = true) (plain : other.isArtifact = false) :=
    same_iff built otherBuilt artifact plain
  constructor
  · intro isolated
    refine ⟨fun differs => ?_, fun meeting => ?_, (safe_iff built).mp isolated.safe⟩
    · rw [← owned_iff built accepted differs, not_or]
      exact isolated.refused differs
    · have kinds := meeting.kinds
      exact isolated.distinct kinds.1 kinds.2 ((meets kinds.1 kinds.2).mpr meeting)
  · rintro ⟨outside, apart, lines⟩
    refine ⟨fun differs => ?_, fun artifact plain => ?_, (safe_iff built).mpr lines⟩
    · rw [← not_or, owned_iff built accepted differs]
      exact outside differs
    · rw [Ne, meets artifact plain]
      exact apart

/-- An avatar key of one tenant is isolated from another tenant. -/
theorem KeyRequest.isolated_iff_avatar :
    Isolated "acme".toList "beta".toList (.avatar "u1".toList [1] "me.png".toList)
      (.document [2] "b.txt".toList)
      (join ['/'] ((KeyRequest.avatar "u1".toList [1] "me.png".toList).segments id "acme".toList))
      (join ['/'] ((KeyRequest.document [2] "b.txt".toList).segments id "beta".toList)) :=
  (KeyRequest.isolated_iff id "acme".toList "beta".toList _ _
    (.avatar "u1".toList [1] "me.png".toList) (.document [2] "b.txt".toList) rfl rfl).mpr
    ⟨fun _ enters => absurd enters.1 (by decide), id, by simp [KeyRequest.ids, EndsLine]⟩

/-- The check of a tenant whose name is the artifact prefix passes an artifact key of another one. -/
theorem KeyRequest.isolated_artifacts :
    ¬∀ (nfkc : Text → Text) (first second key otherKey : Text) (request other : KeyRequest),
      request.build nfkc first = .ok key → other.build nfkc second = .ok otherKey →
        Isolated first second request other key otherKey := by
  intro claimed
  have built : (KeyRequest.artifact none [1] "a.txt".toList).build id "acme".toList =
      .ok (join ['/'] ((KeyRequest.artifact none [1] "a.txt".toList).segments id "acme".toList)) := rfl
  have differs : "acme".toList ≠ "artifacts".toList := by decide
  have isolated := claimed id "acme".toList "artifacts".toList _ _
    (.artifact none [1] "a.txt".toList) (.document [2] "b.txt".toList) built rfl
  have passes := (KeyRequest.owned_iff built (by decide) differs).mpr rfl
  rcases passes with owned | owned
  · exact (isolated.refused differs).1 owned
  · exact (isolated.refused differs).2 owned

end LumenCopilot.Storage
