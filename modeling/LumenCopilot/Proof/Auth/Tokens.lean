import LumenCopilot.Construction.Auth.Tokens
import LumenCopilot.Proof.Library.Lists
import LumenCopilot.Proof.Library.Transition

namespace LumenCopilot.Auth

open Library

variable {state after : AuthState} {request next : Request} {rows : List RefreshToken}
  {tokenHash tenantId place : Nat}

/-- A request executes a statement, or an exception rolls it back. -/
inductive Advances (state : AuthState) (request : Request) : Statement → Request → Prop where
  | fails (statement : Statement) : Advances state request statement request.rolledBack
  | reads {tokenHash : Nat} {now : Int} {token : RefreshToken}
      (call : request.call = .refresh (some tokenHash)) (started : request.phase = .started)
      (valid : state.validToken (some tokenHash) now = some token) :
      Advances state request (.read now) { request with phase := .valid token }
  | authenticates {user : User} (call : request.call = .login) (started : request.phase = .started) :
      Advances state request (.authenticate (some user)) { request with phase := .identified user }
  | resolves {token : RefreshToken} (valid : request.phase = .valid token) :
      Advances state request (.resolve true)
        { request with phase := .identified ⟨token.tenantId, token.userId⟩ }
  | selects {tokenHash : Option Nat} {user : User} (call : request.call = .refresh tokenHash)
      (identified : request.phase = .identified user) :
      Advances state request .select
        { request with phase := .selected (some user) (state.selectToken user.tenantId tokenHash) }
  | selectsOwn {tokenHash : Option Nat} {tenantId : Nat} (call : request.call = .logout tenantId tokenHash)
      (started : request.phase = .started) :
      Advances state request .select
        { request with phase := .selected none (state.selectToken tenantId tokenHash) }
  | misses {user : Option User} {now : Int} (selected : request.phase = .selected user none) :
      Advances state request (.update now) { request with phase := .revoked user false }
  | keeps {user : Option User} {row : RefreshToken} {now : Int}
      (selected : request.phase = .selected user (some row)) (revoked : row.revokedAt.isSome = true) :
      Advances state request (.update now) { request with phase := .revoked user true }
  | revokes {user : Option User} {row : RefreshToken} {now : Int}
      (selected : request.phase = .selected user (some row)) :
      Advances state request (.update now)
        { request with phase := .revoked user true, revocation := some (row.tokenHash, now) }
  | logsIn {user : User} {tokenHash : Nat} {expiresAt : Int} (call : request.call = .login)
      (identified : request.phase = .identified user) (unused : state.unused tokenHash = true) :
      Advances state request (.issue tokenHash expiresAt) (request.insert user false tokenHash expiresAt)
  | rotates {presented : Option Nat} {user : User} {found : Bool} {tokenHash : Nat} {expiresAt : Int}
      (call : request.call = .refresh presented) (revoked : request.phase = .revoked (some user) found)
      (unused : state.unused tokenHash = true) :
      Advances state request (.issue tokenHash expiresAt) (request.insert user found tokenHash expiresAt)

variable {presented : Option Nat}

theorem validToken_some {now : Int} {token : RefreshToken}
    (valid : state.validToken presented now = some token) :
    ∃ tokenHash, presented = some tokenHash ∧ token ∈ state.rows ∧ token.tokenHash = tokenHash ∧
      token.revokedAt = none := by
  obtain ⟨read, checks⟩ := Option.filter_eq_some_iff.mp valid
  obtain ⟨tokenHash, rfl, found⟩ := Option.bind_eq_some_iff.mp read
  rw [Bool.and_eq_true, Option.isNone_iff_eq_none] at checks
  exact ⟨tokenHash, rfl, List.mem_of_find?_eq_some found, of_decide_eq_true (List.find?_some found :),
    checks.1⟩

variable {statement : Statement}

/-- Every statement of a request is one of these. -/
theorem Request.advance_cases (advances : request.advance state statement = some next) :
    Advances state request statement next := by
  obtain ⟨call, phase, revocation, creation⟩ := request
  cases statement with
  | fail =>
      have back : next = Request.rolledBack ⟨call, phase, revocation, creation⟩ := by
        cases phase <;> simp_all [Request.advance]
      exact back ▸ .fails _
  | read now =>
      simp only [Request.advance] at advances
      split at advances
      · split at advances
        · next token valid =>
            obtain ⟨tokenHash, rfl, _⟩ := validToken_some valid
            obtain rfl := Option.some.inj advances
            exact .reads rfl rfl valid
        · obtain rfl := Option.some.inj advances
          exact .fails _
      · contradiction
  | authenticate user =>
      simp only [Request.advance] at advances
      split at advances
      · split at advances
        · obtain rfl := Option.some.inj advances
          exact .authenticates rfl rfl
        · obtain rfl := Option.some.inj advances
          exact .fails _
      · contradiction
  | resolve found =>
      simp only [Request.advance] at advances
      split at advances
      · split at advances
        · next holds =>
            obtain rfl := Option.some.inj advances
            obtain rfl := holds
            exact .resolves rfl
        · obtain rfl := Option.some.inj advances
          exact .fails _
      · contradiction
  | select =>
      simp only [Request.advance] at advances
      split at advances
      · obtain rfl := Option.some.inj advances
        exact .selects rfl rfl
      · obtain rfl := Option.some.inj advances
        exact .selectsOwn rfl rfl
      · contradiction
  | update now =>
      simp only [Request.advance] at advances
      split at advances
      · obtain rfl := Option.some.inj advances
        exact .misses rfl
      · split at advances
        · next revoked =>
            obtain rfl := Option.some.inj advances
            exact .keeps rfl revoked
        · split at advances
          · contradiction
          · obtain rfl := Option.some.inj advances
            exact .revokes rfl
      · contradiction
  | issue tokenHash expiresAt =>
      simp only [Request.advance] at advances
      split at advances
      · next unused =>
          split at advances
          · obtain rfl := Option.some.inj advances
            exact .logsIn rfl rfl unused
          · obtain rfl := Option.some.inj advances
            exact .rotates rfl rfl unused
          · contradiction
      · contradiction

/-- The token is stored in the tenant. -/
def Stored (rows : List RefreshToken) (tokenHash tenantId : Nat) : Prop :=
  ∃ row ∈ rows, row.tokenHash = tokenHash ∧ row.tenantId = tenantId

/-- The token is stored and revoked. -/
def Settled (rows : List RefreshToken) (tokenHash : Nat) : Prop :=
  (∃ row ∈ rows, row.tokenHash = tokenHash) ∧
    ∀ row ∈ rows, row.tokenHash = tokenHash → row.revokedAt.isSome = true

/-- These are the tokens that a request revokes. -/
def Call.revoked : Call → Option Nat
  | .login => none
  | .refresh tokenHash | .logout _ tokenHash => tokenHash

/-- The token of the request is revoked, or its transaction revokes it. -/
def Request.Revokes (rows : List RefreshToken) (request : Request) : Prop :=
  ∃ tokenHash, request.call.revoked = some tokenHash ∧ (∃ row ∈ rows, row.tokenHash = tokenHash) ∧
    (Settled rows tokenHash ∨ ∃ now, request.revocation = some (tokenHash, now))

/-- The phase of the request fits the committed rows. -/
def Request.Fits (rows : List RefreshToken) (request : Request) : Prop :=
  match request.phase with
  | .started | .failed => True
  | .valid token =>
      ∃ tokenHash, request.call = .refresh (some tokenHash) ∧ Stored rows tokenHash token.tenantId
  | .identified user => ∀ presented, request.call = .refresh presented →
      ∃ tokenHash, presented = some tokenHash ∧ Stored rows tokenHash user.tenantId
  | .selected _ row => (∀ presented, request.call = .refresh presented → row.isSome = true) ∧
      ∀ stored, row = some stored → request.call.revoked = some stored.tokenHash ∧
        (∃ row ∈ rows, row.tokenHash = stored.tokenHash) ∧
          (stored.revokedAt.isSome = true → Settled rows stored.tokenHash)
  | .revoked _ found | .issued found => (∀ presented, request.call = .refresh presented → found = true) ∧
      (found = true → request.Revokes rows)
  | .committed found => (∀ presented, request.call = .refresh presented → found = true) ∧
      (found = true → ∃ tokenHash, request.call.revoked = some tokenHash ∧ Settled rows tokenHash)

/-- Rows stay with their tokens and revocations, and new rows have new tokens. -/
structure Grows (rows grown : List RefreshToken) : Prop where
  stays : ∀ row ∈ rows, ∃ kept ∈ grown, kept.tokenHash = row.tokenHash ∧ kept.tenantId = row.tenantId
  comes : ∀ kept ∈ grown, (∃ row ∈ rows, row.tokenHash = kept.tokenHash ∧
    (row.revokedAt.isSome = true → kept.revokedAt.isSome = true)) ∨
      ∀ row ∈ rows, row.tokenHash ≠ kept.tokenHash

variable {grown : List RefreshToken}

theorem Grows.stored (grows : Grows rows grown) (stored : Stored rows tokenHash tenantId) :
    Stored grown tokenHash tenantId := by
  obtain ⟨row, member, rfl, rfl⟩ := stored
  exact grows.stays row member

theorem Grows.has (grows : Grows rows grown) (has : ∃ row ∈ rows, row.tokenHash = tokenHash) :
    ∃ row ∈ grown, row.tokenHash = tokenHash := by
  obtain ⟨row, member, rfl⟩ := has
  obtain ⟨kept, found, same, _⟩ := grows.stays row member
  exact ⟨kept, found, same⟩

theorem Grows.settled (grows : Grows rows grown) (settled : Settled rows tokenHash) :
    Settled grown tokenHash := by
  refine ⟨grows.has settled.1, fun kept member same => ?_⟩
  rcases grows.comes kept member with ⟨row, known, equal, revoked⟩ | new
  · exact revoked (settled.2 row known (equal.trans same))
  · obtain ⟨row, known, equal⟩ := settled.1
    exact absurd (equal.trans same.symm) (new row known)

theorem Request.Fits.grow (fits : request.Fits rows) (grows : Grows rows grown) : request.Fits grown := by
  unfold Request.Fits at fits ⊢
  cases phase : request.phase with
  | started | failed => trivial
  | valid token =>
      rw [phase] at fits
      obtain ⟨tokenHash, call, stored⟩ := fits
      exact ⟨tokenHash, call, grows.stored stored⟩
  | identified user =>
      rw [phase] at fits
      intro presented call
      obtain ⟨tokenHash, same, stored⟩ := fits presented call
      exact ⟨tokenHash, same, grows.stored stored⟩
  | selected user row =>
      rw [phase] at fits
      refine ⟨fits.1, fun stored same => ?_⟩
      obtain ⟨presented, has, settled⟩ := fits.2 stored same
      exact ⟨presented, grows.has has, fun revoked => grows.settled (settled revoked)⟩
  | revoked user found | issued found =>
      rw [phase] at fits
      refine ⟨fits.1, fun holds => ?_⟩
      obtain ⟨tokenHash, presented, has, settled | revokes⟩ := fits.2 holds
      · exact ⟨tokenHash, presented, grows.has has, Or.inl (grows.settled settled)⟩
      · exact ⟨tokenHash, presented, grows.has has, Or.inr revokes⟩
  | committed found =>
      rw [phase] at fits
      refine ⟨fits.1, fun holds => ?_⟩
      obtain ⟨tokenHash, presented, settled⟩ := fits.2 holds
      exact ⟨tokenHash, presented, grows.settled settled⟩

theorem revise_keeps (revocation : Option (Nat × Int)) (row : RefreshToken) :
    (row.revise revocation).tokenHash = row.tokenHash ∧ (row.revise revocation).tenantId = row.tenantId ∧
      (row.revokedAt.isSome = true → (row.revise revocation).revokedAt.isSome = true) := by
  unfold RefreshToken.revise
  split
  · split
    · exact ⟨rfl, rfl, fun _ => rfl⟩
    · exact ⟨rfl, rfl, id⟩
  · exact ⟨rfl, rfl, id⟩

/-- A commit with a new token keeps the old rows. -/
theorem commit_grows {found : Bool}
    (fresh : ∀ row, request.creation = some row → ∀ other ∈ state.rows, other.tokenHash ≠ row.tokenHash) :
    Grows state.rows (state.commit place request found).rows := by
  refine ⟨fun row member => ?_, fun kept member => ?_⟩
  · have keeps := revise_keeps request.revocation row
    exact ⟨_, List.mem_append_left _ (List.mem_map_of_mem member), keeps.1, keeps.2.1⟩
  · rcases List.mem_append.mp member with old | new
    · obtain ⟨row, known, rfl⟩ := List.mem_map.mp old
      have keeps := revise_keeps request.revocation row
      exact Or.inl ⟨row, known, keeps.1.symm, keeps.2.2⟩
    · exact Or.inr (fresh kept (Option.mem_toList.mp new))

/-- The commit of a request that revokes its token settles it. -/
theorem Request.Revokes.settles {found : Bool} (revokes : request.Revokes state.rows)
    (grows : Grows state.rows (state.commit place request found).rows)
    (fresh : ∀ row, request.creation = some row → ∀ other ∈ state.rows, other.tokenHash ≠ row.tokenHash) :
    ∃ tokenHash, request.call.revoked = some tokenHash ∧
      Settled (state.commit place request found).rows tokenHash := by
  obtain ⟨tokenHash, presented, has, settled | ⟨now, written⟩⟩ := revokes
  · exact ⟨tokenHash, presented, grows.settled settled⟩
  · refine ⟨tokenHash, presented, grows.has has, fun kept member same => ?_⟩
    rcases List.mem_append.mp member with old | new
    · obtain ⟨row, known, rfl⟩ := List.mem_map.mp old
      have equal : row.tokenHash = tokenHash := (revise_keeps _ row).1.symm.trans same
      simp [RefreshToken.revise, written, equal]
    · obtain ⟨row, known, equal⟩ := has
      exact absurd (equal.trans same.symm) (fresh kept (Option.mem_toList.mp new) row known)

/-- The requests and the exchanges fit the rows, every token is new, and every token that is rotated
is unspent and rotated by one request. -/
structure Sound (state : AuthState) : Prop where
  keys : (state.rows.map RefreshToken.tokenHash).Nodup
  fresh : ∀ request ∈ state.requests, ∀ row, request.creation = some row →
    ∀ other ∈ state.rows, other.tokenHash ≠ row.tokenHash
  apart : ∀ (place other : Nat) (first second : Request), state.requests[place]? = some first →
    state.requests[other]? = some second → place ≠ other → ∀ row created : RefreshToken,
      first.creation = some row → second.creation = some created → row.tokenHash ≠ created.tokenHash
  fits : ∀ request ∈ state.requests, request.Fits state.rows
  settled : ∀ exchange ∈ state.exchanges, ∀ tokenHash, exchange.presented = some tokenHash →
    Settled state.rows tokenHash
  single : ∀ (place other : Nat) (first second : Request), state.requests[place]? = some first →
    state.requests[other]? = some second → place ≠ other → ∀ tokenHash,
      first.rotates tokenHash = true → second.rotates tokenHash = false
  unspent : ∀ request ∈ state.requests, ∀ tokenHash, request.rotates tokenHash = true →
    ∀ exchange ∈ state.exchanges, exchange.presented ≠ some tokenHash
  once : ∀ tokenHash, state.exchanges.countP (fun exchange => exchange.presented = some tokenHash) ≤ 1

theorem empty_sound : Sound .empty where
  keys := List.nodup_nil
  fresh _ member := (List.not_mem_nil member).elim
  apart _ _ _ _ found := (List.not_mem_nil (List.mem_of_getElem? found)).elim
  fits _ member := (List.not_mem_nil member).elim
  settled _ member := (List.not_mem_nil member).elim
  single _ _ _ _ found := (List.not_mem_nil (List.mem_of_getElem? found)).elim
  unspent _ member := (List.not_mem_nil member).elim
  once _ := Nat.zero_le 1

/-- No request rotates the token, and it is unspent. -/
def Free (state : AuthState) (tokenHash : Nat) : Prop :=
  (∀ request ∈ state.requests, request.rotates tokenHash = false) ∧
    ∀ exchange ∈ state.exchanges, exchange.presented ≠ some tokenHash

theorem unused_iff : state.unused tokenHash = true ↔ (∀ row ∈ state.rows, row.tokenHash ≠ tokenHash) ∧
    ∀ request ∈ state.requests, ∀ row, request.creation = some row → row.tokenHash ≠ tokenHash := by
  unfold AuthState.unused
  simp only [Bool.and_eq_true, List.all_eq_true, Option.all_eq_true, decide_eq_true_eq]

/-- A request that goes on keeps the state sound. -/
theorem Sound.moved (sound : Sound state) (found : state.requests[place]? = some request)
    (fits : next.Fits state.rows)
    (creates : ∀ row, next.creation = some row →
      request.creation = some row ∨ state.unused row.tokenHash = true)
    (rotates : ∀ tokenHash, next.rotates tokenHash = true →
      request.rotates tokenHash = true ∨ Free state tokenHash) :
    Sound { state with requests := state.requests.set place next } where
  keys := sound.keys
  fresh other member row created := by
    rcases List.mem_or_eq_of_mem_set member with old | rfl
    · exact sound.fresh other old row created
    · rcases creates row created with same | unused
      · exact sound.fresh request (List.mem_of_getElem? found) row same
      · exact (unused_iff.mp unused).1
  apart first second one two atFirst atSecond distinct row created ofOne ofTwo := by
    rcases (getElem?_set_iff found).mp atFirst with ⟨rfl, rfl⟩ | ⟨_, one_⟩
    · rcases (getElem?_set_iff found).mp atSecond with ⟨rfl, rfl⟩ | ⟨_, two_⟩
      · exact absurd rfl distinct
      · rcases creates row ofOne with same | unused
        · exact sound.apart _ _ _ _ found two_ distinct row created same ofTwo
        · exact ((unused_iff.mp unused).2 two (List.mem_of_getElem? two_) created ofTwo).symm
    · rcases (getElem?_set_iff found).mp atSecond with ⟨rfl, rfl⟩ | ⟨_, two_⟩
      · rcases creates created ofTwo with same | unused
        · exact sound.apart _ _ _ _ one_ found distinct row created ofOne same
        · exact (unused_iff.mp unused).2 one (List.mem_of_getElem? one_) row ofOne
      · exact sound.apart _ _ _ _ one_ two_ distinct row created ofOne ofTwo
  fits other member := by
    rcases List.mem_or_eq_of_mem_set member with old | rfl
    · exact sound.fits other old
    · exact fits
  settled := sound.settled
  single first second one two atFirst atSecond distinct tokenHash holds := by
    rcases (getElem?_set_iff found).mp atFirst with ⟨rfl, rfl⟩ | ⟨_, one_⟩
    · rcases (getElem?_set_iff found).mp atSecond with ⟨rfl, rfl⟩ | ⟨_, two_⟩
      · exact absurd rfl distinct
      · rcases rotates tokenHash holds with same | free
        · exact sound.single _ _ _ _ found two_ distinct tokenHash same
        · exact free.1 two (List.mem_of_getElem? two_)
    · rcases (getElem?_set_iff found).mp atSecond with ⟨rfl, rfl⟩ | ⟨_, two_⟩
      · rw [← Bool.not_eq_true]
        intro moved
        rcases rotates tokenHash moved with same | free
        · rw [sound.single _ _ _ _ one_ found distinct tokenHash holds] at same
          contradiction
        · rw [free.1 one (List.mem_of_getElem? one_)] at holds
          contradiction
      · exact sound.single _ _ _ _ one_ two_ distinct tokenHash holds
  unspent other member tokenHash holds := by
    rcases List.mem_or_eq_of_mem_set member with old | rfl
    · exact sound.unspent other old tokenHash holds
    · rcases rotates tokenHash holds with same | free
      · exact sound.unspent request (List.mem_of_getElem? found) tokenHash same
      · exact free.2
  once := sound.once

/-- A request that comes keeps the state sound. -/
theorem Sound.requested (sound : Sound state) (call : Call) :
    Sound { state with requests := state.requests ++ [⟨call, .started, none, none⟩] } where
  keys := sound.keys
  fresh other member row created := by
    rcases List.mem_append.mp member with old | new
    · exact sound.fresh other old row created
    · obtain rfl := List.mem_singleton.mp new
      contradiction
  apart first second one two atFirst atSecond distinct row created ofOne ofTwo := by
    rcases getElem?_snoc_iff.mp atFirst with one_ | ⟨_, rfl⟩
    · rcases getElem?_snoc_iff.mp atSecond with two_ | ⟨_, rfl⟩
      · exact sound.apart _ _ _ _ one_ two_ distinct row created ofOne ofTwo
      · contradiction
    · contradiction
  fits other member := by
    rcases List.mem_append.mp member with old | new
    · exact sound.fits other old
    · obtain rfl := List.mem_singleton.mp new
      trivial
  settled := sound.settled
  single first second one two atFirst atSecond distinct tokenHash holds := by
    rcases getElem?_snoc_iff.mp atFirst with one_ | ⟨_, rfl⟩
    · rcases getElem?_snoc_iff.mp atSecond with two_ | ⟨_, rfl⟩
      · exact sound.single _ _ _ _ one_ two_ distinct tokenHash holds
      · simp [Request.rotates]
    · simp [Request.rotates] at holds
  unspent other member tokenHash holds := by
    rcases List.mem_append.mp member with old | new
    · exact sound.unspent other old tokenHash holds
    · obtain rfl := List.mem_singleton.mp new
      simp [Request.rotates] at holds
  once := sound.once

theorem rotates_iff : request.rotates tokenHash = true ↔ request.call = .refresh (some tokenHash) ∧
    request.phase ≠ .started ∧ request.phase ≠ .failed ∧ ∀ found, request.phase ≠ .committed found := by
  unfold Request.rotates
  rw [Bool.and_eq_true, decide_eq_true_eq]
  cases phase : request.phase <;> simp

variable {row : RefreshToken}

theorem selectToken_some (selected : state.selectToken tenantId presented = some row) :
    presented = some row.tokenHash ∧ row ∈ state.rows := by
  obtain ⟨tokenHash, rfl, found⟩ := Option.bind_eq_some_iff.mp selected
  have checks := List.find?_some found
  rw [Bool.and_eq_true, decide_eq_true_eq, decide_eq_true_eq] at checks
  exact ⟨congrArg some checks.2.symm, List.mem_of_find?_eq_some found⟩

theorem Stored.selected (stored : Stored state.rows tokenHash tenantId) :
    (state.selectToken tenantId (some tokenHash)).isSome = true := by
  obtain ⟨row, member, rfl, rfl⟩ := stored
  refine List.find?_isSome.mpr ⟨row, member, ?_⟩
  rw [Bool.and_eq_true, decide_eq_true_eq, decide_eq_true_eq]
  exact ⟨rfl, rfl⟩

/-- A row that is read as revoked settles its token. -/
theorem Sound.settles (sound : Sound state) (member : row ∈ state.rows)
    (revoked : row.revokedAt.isSome = true) : Settled state.rows row.tokenHash := by
  refine ⟨⟨row, member, rfl⟩, fun other known same => ?_⟩
  rwa [List.inj_on_of_nodup_map sound.keys known member same]

/-- A selected row fits the rows. -/
theorem Sound.selects (sound : Sound state)
    (selected : state.selectToken tenantId presented = some row) : presented = some row.tokenHash ∧
      (∃ other ∈ state.rows, other.tokenHash = row.tokenHash) ∧
        (row.revokedAt.isSome = true → Settled state.rows row.tokenHash) := by
  obtain ⟨same, member⟩ := selectToken_some selected
  exact ⟨same, ⟨row, member, rfl⟩, sound.settles member⟩

/-- Every statement keeps the fit of its request. -/
theorem Sound.advance_fits (sound : Sound state) (fits : request.Fits state.rows)
    (advances : Advances state request statement next) : next.Fits state.rows := by
  unfold Request.Fits at fits
  cases advances with
  | fails => trivial
  | reads call started valid =>
      obtain ⟨tokenHash, presented, member, same, _⟩ := validToken_some valid
      obtain rfl := Option.some.inj presented
      exact ⟨_, call, _, member, same, rfl⟩
  | authenticates call started =>
      intro presented other
      rw [call] at other
      contradiction
  | resolves valid =>
      rw [valid] at fits
      obtain ⟨tokenHash, call, stored⟩ := fits
      intro presented other
      rw [call] at other
      exact ⟨tokenHash, (Call.refresh.inj other).symm, stored⟩
  | selects call identified =>
      rw [identified] at fits
      obtain ⟨tokenHash, rfl, stored⟩ := fits _ call
      refine ⟨fun presented other => ?_, fun row selected => ?_⟩
      · exact stored.selected
      · have known := sound.selects selected
        exact ⟨(congrArg Call.revoked call).trans known.1, known.2⟩
  | selectsOwn call started =>
      refine ⟨fun presented other => ?_, fun row selected => ?_⟩
      · rw [call] at other
        contradiction
      · have known := sound.selects selected
        exact ⟨(congrArg Call.revoked call).trans known.1, known.2⟩
  | misses selected =>
      rw [selected] at fits
      exact ⟨fits.1, by simp⟩
  | keeps selected revoked =>
      rw [selected] at fits
      obtain ⟨presented, has, settled⟩ := fits.2 _ rfl
      exact ⟨fun _ _ => rfl, fun _ => ⟨_, presented, has, Or.inl (settled revoked)⟩⟩
  | revokes selected =>
      rw [selected] at fits
      obtain ⟨presented, has, settled⟩ := fits.2 _ rfl
      exact ⟨fun _ _ => rfl, fun _ => ⟨_, presented, has, Or.inr ⟨_, rfl⟩⟩⟩
  | logsIn call identified unused =>
      refine ⟨fun presented other => ?_, by simp⟩
      have same : request.call = .refresh presented := other
      rw [call] at same
      contradiction
  | rotates call revoked unused =>
      rw [revoked] at fits
      exact fits

/-- A statement creates no row but one with an unused token. -/
theorem Advances.creates (advances : Advances state request statement next)
    (created : next.creation = some row) :
    request.creation = some row ∨ state.unused row.tokenHash = true := by
  cases advances with
  | fails => contradiction
  | reads | authenticates | resolves | selects | selectsOwn | misses | keeps | revokes =>
      exact Or.inl created
  | logsIn call identified unused | rotates call revoked unused =>
      obtain rfl := Option.some.inj created
      exact Or.inr unused

/-- A request starts to rotate a token only where it reads it as valid. -/
theorem Advances.starts (advances : Advances state request statement next)
    (rotates : next.rotates tokenHash = true) : request.rotates tokenHash = true ∨
      ∃ now token, statement = .read now ∧ request.call = .refresh (some tokenHash) ∧
        request.phase = .started ∧ state.validToken (some tokenHash) now = some token := by
  obtain ⟨call, started, failed, committed⟩ := rotates_iff.mp rotates
  have goes : request.phase ≠ .started → request.phase ≠ .failed →
      (∀ found, request.phase ≠ .committed found) → request.call = .refresh (some tokenHash) →
        request.rotates tokenHash = true := fun one two three same => rotates_iff.mpr ⟨same, one, two, three⟩
  cases advances with
  | fails => exact absurd rfl failed
  | reads own begun valid =>
      obtain rfl := Option.some.inj (Call.refresh.inj (own.symm.trans call))
      exact Or.inr ⟨_, _, rfl, own, begun, valid⟩
  | authenticates own => exact absurd (own.symm.trans call) (by simp)
  | resolves here | misses here | keeps here | revokes here =>
      exact Or.inl (goes (by simp [here]) (by simp [here]) (by simp [here]) call)
  | selects _ here => exact Or.inl (goes (by simp [here]) (by simp [here]) (by simp [here]) call)
  | selectsOwn own => exact absurd (own.symm.trans call) (by simp)
  | logsIn own => exact absurd (own.symm.trans call) (by simp)
  | rotates _ here => exact Or.inl (goes (by simp [here]) (by simp [here]) (by simp [here]) call)

end LumenCopilot.Auth
