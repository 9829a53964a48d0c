import LumenCopilot.Construction.Library.Dict

namespace LumenCopilot.Auth

/-- This is a row of `refresh_tokens`, which keeps the hash of its token. -/
structure RefreshToken where
  tokenHash : Nat
  tenantId : Nat
  userId : Nat
  expiresAt : Int
  revokedAt : Option Int
  deriving DecidableEq

/-- This is what a request keeps of a row of `users`. -/
structure User where
  tenantId : Nat
  id : Nat
  deriving DecidableEq

/-- These are the requests with the hash of the token that they present, where they present one. -/
inductive Call where
  | login
  | refresh (tokenHash : Option Nat)
  | logout (tenantId : Nat) (tokenHash : Option Nat)
  deriving DecidableEq

/-- This is where a request stands; the name is that of what it has done. -/
inductive Phase where
  | started
  | valid (token : RefreshToken)
  | identified (user : User)
  | selected (user : Option User) (row : Option RefreshToken)
  | revoked (user : Option User) (found : Bool)
  | issued (found : Bool)
  | committed (found : Bool)
  | failed
  deriving DecidableEq

/-- This is a request with the writes of its transaction. -/
structure Request where
  call : Call
  phase : Phase
  revocation : Option (Nat × Int)
  creation : Option RefreshToken
  deriving DecidableEq

/-- This is the committed issue of a token, with the token that was presented for it. -/
structure Exchange where
  presented : Option Nat
  issued : Nat
  deriving DecidableEq

/-- These are the committed rows, the requests and the committed issues of tokens. -/
structure AuthState where
  rows : List RefreshToken
  requests : List Request
  exchanges : List Exchange
  deriving DecidableEq

/-- No request has come. -/
def AuthState.empty : AuthState := ⟨[], [], []⟩

/-- These are the statements of a request, with what the clock, the other tables and the generator
answer. -/
inductive Statement where
  | read (now : Int)
  | authenticate (user : Option User)
  | resolve (found : Bool)
  | select
  | update (now : Int)
  | issue (tokenHash : Nat) (expiresAt : Int)
  | fail
  deriving DecidableEq

/-- Requests come, go on and commit. -/
inductive AuthAction where
  | request (call : Call)
  | execute (place : Nat) (statement : Statement)
  | commit (place : Nat)
  deriving DecidableEq

/-- This is `find_refresh_token_owner`. -/
def AuthState.findRefreshTokenOwner (state : AuthState) (tokenHash : Nat) : Option RefreshToken :=
  state.rows.find? fun row => row.tokenHash = tokenHash

/-- These are the checks of `refresh` on the row that it has read. -/
def AuthState.validToken (state : AuthState) (tokenHash : Option Nat) (now : Int) : Option RefreshToken :=
  (tokenHash.bind state.findRefreshTokenOwner).filter fun token =>
    token.revokedAt.isNone && now < token.expiresAt

/-- This is the statement of `RefreshTokenRepository.revoke` that selects the row. -/
def AuthState.selectToken (state : AuthState) (tenantId : Nat) (tokenHash : Option Nat) :
    Option RefreshToken :=
  tokenHash.bind fun tokenHash => state.rows.find? fun row =>
    row.tenantId = tenantId && row.tokenHash = tokenHash

/-- The row is locked while another transaction has written it. -/
def AuthState.locked (state : AuthState) (tokenHash : Nat) : Bool :=
  state.requests.any fun request => request.revocation.any fun revocation => revocation.1 = tokenHash

/-- No row and no transaction has the hash. -/
def AuthState.unused (state : AuthState) (tokenHash : Nat) : Bool :=
  state.rows.all (fun row => row.tokenHash ≠ tokenHash) &&
    state.requests.all fun request => request.creation.all fun row => row.tokenHash ≠ tokenHash

/-- A request whose exception rolls its transaction back. -/
def Request.rolledBack (request : Request) : Request := ⟨request.call, .failed, none, none⟩

/-- This is the insertion of `_issue_tokens`. -/
def Request.insert (request : Request) (user : User) (found : Bool) (tokenHash : Nat) (expiresAt : Int) :
    Request :=
  { request with
    phase := .issued found
    creation := some ⟨tokenHash, user.tenantId, user.id, expiresAt, none⟩ }

/-- This is the next statement of a request: `login` verifies a password and issues tokens, `refresh`
checks the token, revokes it and issues tokens, and `logout` revokes a token. -/
def Request.advance (state : AuthState) (request : Request) : Statement → Option Request
  | .fail =>
      match request.phase with
      | .committed _ | .failed => none
      | _ => some request.rolledBack
  | .read now =>
      match request.call, request.phase with
      | .refresh tokenHash, .started =>
          match state.validToken tokenHash now with
          | some token => some { request with phase := .valid token }
          | none => some request.rolledBack
      | _, _ => none
  | .authenticate user =>
      match request.call, request.phase with
      | .login, .started =>
          match user with
          | some user => some { request with phase := .identified user }
          | none => some request.rolledBack
      | _, _ => none
  | .resolve found =>
      match request.phase with
      | .valid token =>
          if found then some { request with phase := .identified ⟨token.tenantId, token.userId⟩ }
          else some request.rolledBack
      | _ => none
  | .select =>
      match request.call, request.phase with
      | .refresh tokenHash, .identified user =>
          some { request with phase := .selected (some user) (state.selectToken user.tenantId tokenHash) }
      | .logout tenantId tokenHash, .started =>
          some { request with phase := .selected none (state.selectToken tenantId tokenHash) }
      | _, _ => none
  | .update now =>
      match request.phase with
      | .selected user none => some { request with phase := .revoked user false }
      | .selected user (some row) =>
          if row.revokedAt.isSome then some { request with phase := .revoked user true }
          else if state.locked row.tokenHash then none
          else some { request with
            phase := .revoked user true
            revocation := some (row.tokenHash, now) }
      | _ => none
  | .issue tokenHash expiresAt =>
      if state.unused tokenHash then
        match request.call, request.phase with
        | .login, .identified user => some (request.insert user false tokenHash expiresAt)
        | .refresh _, .revoked (some user) found =>
            some (request.insert user found tokenHash expiresAt)
        | _, _ => none
      else none

/-- These are the tokens that a request presents for new ones. -/
def Call.presented : Call → Option Nat
  | .refresh tokenHash => tokenHash
  | _ => none

/-- This is the answer of `revoke` where the request has nothing left but its commit. -/
def Request.finished (request : Request) : Option Bool :=
  match request.call, request.phase with
  | .logout _ _, .revoked _ found => some found
  | .login, .issued found | .refresh _, .issued found => some found
  | _, _ => none

/-- This is the row after the update of a transaction. -/
def RefreshToken.revise (revocation : Option (Nat × Int)) (row : RefreshToken) : RefreshToken :=
  match revocation with
  | some (tokenHash, now) => if row.tokenHash = tokenHash then { row with revokedAt := some now } else row
  | none => row

/-- This is the state after the commit of a transaction. -/
def AuthState.commit (state : AuthState) (place : Nat) (request : Request) (found : Bool) : AuthState where
  rows := state.rows.map (RefreshToken.revise request.revocation) ++ request.creation.toList
  requests := state.requests.set place ⟨request.call, .committed found, none, none⟩
  exchanges := state.exchanges ++ request.creation.toList.map fun row =>
    ⟨request.call.presented, row.tokenHash⟩

/-- This is one step of the requests. -/
def authStep (state : AuthState) : AuthAction → Option AuthState
  | .request call => some { state with requests := state.requests ++ [⟨call, .started, none, none⟩] }
  | .execute place statement =>
      match state.requests[place]? with
      | some request => (request.advance state statement).map fun next =>
          { state with requests := state.requests.set place next }
      | none => none
  | .commit place =>
      match state.requests[place]? with
      | some request => request.finished.map fun found => state.commit place request found
      | none => none

/-- The request has read its token as valid and is still in flight. -/
def Request.rotates (tokenHash : Nat) (request : Request) : Bool :=
  request.call = .refresh (some tokenHash) &&
    match request.phase with
    | .valid _ | .identified _ | .selected _ _ | .revoked _ _ | .issued _ => true
    | _ => false

/-- A refresh that reads its token as valid is the only one in flight that has done so. -/
def alone (state : AuthState) : AuthAction → Bool
  | .execute place (.read now) =>
      match state.requests[place]? with
      | some ⟨.refresh (some tokenHash), .started, _, _⟩ =>
          (state.validToken (some tokenHash) now).isNone ||
            state.requests.all fun request => !request.rotates tokenHash
      | _ => true
  | _ => true

/-- The first token was presented for the second one. -/
def AuthState.Succeeds (state : AuthState) (first second : Nat) : Prop :=
  ⟨some first, second⟩ ∈ state.exchanges

/-- The second token descends from the first one. -/
def AuthState.Descends (state : AuthState) : Nat → Nat → Prop :=
  Relation.ReflTransGen state.Succeeds

/-- The token is stored and not revoked. -/
def AuthState.Live (state : AuthState) (tokenHash : Nat) : Prop :=
  ∃ row ∈ state.rows, row.tokenHash = tokenHash ∧ row.revokedAt = none

/-- Every token is exchanged at most once, and the tokens of a login are a chain with at most one live
token. -/
structure AuthState.SingleLine (state : AuthState) : Prop where
  once : ∀ tokenHash, state.exchanges.countP (fun exchange => exchange.presented = some tokenHash) ≤ 1
  chain : ∀ login first second, state.Descends login first → state.Descends login second →
    state.Descends first second ∨ state.Descends second first
  live : ∀ login first second, state.Descends login first → state.Descends login second →
    state.Live first → state.Live second → first = second

/-- The request has committed the rotation of the token, or a logout that has found it. -/
def Request.Ends (tokenHash : Nat) (request : Request) : Prop :=
  (∃ found, request.call = .refresh (some tokenHash) ∧ request.phase = .committed found) ∨
    ∃ tenantId, request.call = .logout tenantId (some tokenHash) ∧ request.phase = .committed true

end LumenCopilot.Auth
