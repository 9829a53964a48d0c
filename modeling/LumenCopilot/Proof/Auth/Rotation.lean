import LumenCopilot.Proof.Auth.Tokens

namespace LumenCopilot.Auth

open Library

variable {state after : AuthState} {request next : Request} {rows : List RefreshToken}
  {tokenHash place : Nat}

/-- A token that is read as valid alone is free. -/
theorem Sound.free (sound : Sound state) {now : Int} {token : RefreshToken}
    (found : state.requests[place]? = some request) (call : request.call = .refresh (some tokenHash))
    (started : request.phase = .started) (valid : state.validToken (some tokenHash) now = some token)
    (alone : alone state (.execute place (.read now)) = true) : Free state tokenHash := by
  obtain ⟨presented, same, member, equal, live⟩ := validToken_some valid
  obtain rfl := Option.some.inj same
  constructor
  · obtain ⟨call_, phase_, revocation, creation⟩ := request
    obtain rfl : call_ = .refresh (some tokenHash) := call
    obtain rfl : phase_ = .started := started
    simp only [Auth.alone, found, valid, Option.isNone_some, Bool.false_or, List.all_eq_true,
      Bool.not_eq_true'] at alone
    exact alone
  · intro exchange spent presented
    have revoked := (sound.settled exchange spent tokenHash presented).2 token member equal
    rw [live] at revoked
    contradiction

variable {statement : Statement}

/-- A statement keeps the state sound. -/
theorem Sound.executed (sound : Sound state) (found : state.requests[place]? = some request)
    (advances : Advances state request statement next)
    (alone : alone state (.execute place statement) = true) :
    Sound { state with requests := state.requests.set place next } := by
  refine sound.moved found ?_ ?_ ?_
  · exact sound.advance_fits (sound.fits request (List.mem_of_getElem? found)) advances
  · exact fun row created => advances.creates created
  · intro tokenHash rotates
    rcases advances.starts rotates with old | ⟨now, token, rfl, call, started, valid⟩
    · exact Or.inl old
    · exact Or.inr (sound.free found call started valid alone)

variable {answer : Bool}

/-- A request that is finished has revoked its token. -/
theorem Request.Fits.finished (fits : request.Fits rows) (finished : request.finished = some answer)
    :
    (∀ presented, request.call = .refresh presented → answer = true) ∧
      (answer = true → request.Revokes rows) := by
  obtain ⟨call, phase, revocation, creation⟩ := request
  unfold Request.finished at finished
  split at finished
  · next same =>
      obtain rfl := Option.some.inj finished
      obtain rfl : phase = _ := same
      exact fits
  · next same =>
      obtain rfl := Option.some.inj finished
      obtain rfl : phase = _ := same
      exact fits
  · next same =>
      obtain rfl := Option.some.inj finished
      obtain rfl : phase = _ := same
      exact fits
  · contradiction

theorem Request.rotates_of_finished (finished : request.finished = some answer)
    (presented : request.call.presented = some tokenHash) : request.rotates tokenHash = true := by
  obtain ⟨call, phase, revocation, creation⟩ := request
  cases call with
  | login => contradiction
  | logout tenantId own => contradiction
  | refresh own =>
      obtain rfl : own = some tokenHash := presented
      cases phase with
      | issued found => exact rotates_iff.mpr ⟨rfl, by simp, by simp, by simp⟩
      | started | failed | valid | identified | selected | revoked | committed => contradiction

/-- A commit keeps the state sound. -/
theorem Sound.committed (sound : Sound state) (found : state.requests[place]? = some request)
    (finished : request.finished = some answer) : Sound (state.commit place request answer) := by
  have known := List.mem_of_getElem? found
  have fresh := sound.fresh request known
  have grows : Grows state.rows (state.commit place request answer).rows := commit_grows fresh
  obtain ⟨whole, revokes⟩ := (sound.fits request known).finished finished
  have spends : ∀ exchange ∈ (state.commit place request answer).exchanges, exchange ∈ state.exchanges ∨
      exchange.presented = request.call.presented := by
    intro exchange member
    rcases List.mem_append.mp member with old | new
    · exact Or.inl old
    · obtain ⟨row, _, rfl⟩ := List.mem_map.mp new
      exact Or.inr rfl
  have settles : ∀ tokenHash, request.call.presented = some tokenHash →
      Settled (state.commit place request answer).rows tokenHash := by
    intro tokenHash presented
    have call := (rotates_iff.mp (Request.rotates_of_finished finished presented)).1
    obtain ⟨own, same, settled⟩ := (revokes (whole _ call)).settles grows fresh
    rw [call] at same
    obtain rfl := Option.some.inj same
    exact settled
  have places : ∀ other ∈ (state.commit place request answer).requests,
      other = ⟨request.call, .committed answer, none, none⟩ ∨
        ∃ index, index ≠ place ∧ state.requests[index]? = some other := by
    intro other member
    obtain ⟨index, at_⟩ := List.mem_iff_getElem?.mp member
    rcases (getElem?_set_iff found).mp at_ with ⟨_, rfl⟩ | ⟨distinct, held⟩
    · exact Or.inl rfl
    · exact Or.inr ⟨index, distinct, held⟩
  refine ⟨?_, ?_, ?_, ?_, ?_, ?_, ?_, ?_⟩
  · have same : (state.rows.map (RefreshToken.revise request.revocation)).map RefreshToken.tokenHash =
        state.rows.map RefreshToken.tokenHash := by
      rw [List.map_map]
      exact List.map_congr_left fun row _ => (revise_keeps request.revocation row).1
    unfold AuthState.commit
    rw [List.map_append, same, List.nodup_append]
    refine ⟨sound.keys, ?_, fun old member new created equal => ?_⟩
    · cases request.creation <;> simp
    · obtain ⟨row, stored, rfl⟩ := List.mem_map.mp member
      obtain ⟨kept, comes, rfl⟩ := List.mem_map.mp created
      exact fresh kept (Option.mem_toList.mp comes) row stored equal
  · intro other member row created kept stored
    rcases places other member with rfl | ⟨index, distinct, held⟩
    · contradiction
    · rcases List.mem_append.mp stored with old | new
      · obtain ⟨before, stays, rfl⟩ := List.mem_map.mp old
        rw [(revise_keeps request.revocation before).1]
        exact sound.fresh other (List.mem_of_getElem? held) row created before stays
      · exact sound.apart _ _ _ _ found held distinct.symm kept row (Option.mem_toList.mp new) created
  · intro first second one two atFirst atSecond distinct row created ofOne ofTwo
    rcases (getElem?_set_iff found).mp atFirst with ⟨_, rfl⟩ | ⟨_, one_⟩
    · contradiction
    · rcases (getElem?_set_iff found).mp atSecond with ⟨_, rfl⟩ | ⟨_, two_⟩
      · contradiction
      · exact sound.apart _ _ _ _ one_ two_ distinct row created ofOne ofTwo
  · intro other member
    rcases places other member with rfl | ⟨index, _, held⟩
    · refine ⟨whole, fun holds => ?_⟩
      exact (revokes holds).settles grows fresh
    · exact (sound.fits other (List.mem_of_getElem? held)).grow grows
  · intro exchange member tokenHash presented
    rcases spends exchange member with old | same
    · exact grows.settled (sound.settled exchange old tokenHash presented)
    · exact settles tokenHash (same.symm.trans presented)
  · intro first second one two atFirst atSecond distinct tokenHash holds
    rcases (getElem?_set_iff found).mp atFirst with ⟨_, rfl⟩ | ⟨_, one_⟩
    · simp [Request.rotates] at holds
    · rcases (getElem?_set_iff found).mp atSecond with ⟨_, rfl⟩ | ⟨_, two_⟩
      · simp [Request.rotates]
      · exact sound.single _ _ _ _ one_ two_ distinct tokenHash holds
  · intro other member tokenHash holds exchange listed presented
    rcases places other member with rfl | ⟨index, distinct, held⟩
    · simp [Request.rotates] at holds
    · rcases spends exchange listed with old | same
      · exact sound.unspent other (List.mem_of_getElem? held) tokenHash holds exchange old presented
      · have rotates := Request.rotates_of_finished finished (same.symm.trans presented)
        rw [sound.single _ _ _ _ found held distinct.symm tokenHash rotates] at holds
        contradiction
  · intro tokenHash
    unfold AuthState.commit
    rw [List.countP_append, List.countP_map]
    by_cases presented : request.call.presented = some tokenHash
    · have unspent := sound.unspent request known tokenHash
        (Request.rotates_of_finished finished presented)
      have none : state.exchanges.countP (fun exchange => exchange.presented = some tokenHash) = 0 := by
        refine List.countP_eq_zero.mpr fun exchange member => ?_
        rw [decide_eq_true_eq]
        exact unspent exchange member
      have short : request.creation.toList.length ≤ 1 := by
        cases request.creation <;> simp
      have counts := List.countP_le_length (p := (fun exchange : Exchange =>
        decide (exchange.presented = some tokenHash)) ∘ fun row : RefreshToken =>
          (⟨request.call.presented, row.tokenHash⟩ : Exchange)) (l := request.creation.toList)
      omega
    · have none : request.creation.toList.countP ((fun exchange : Exchange =>
          decide (exchange.presented = some tokenHash)) ∘ fun row : RefreshToken =>
            (⟨request.call.presented, row.tokenHash⟩ : Exchange)) = 0 := by
        refine List.countP_eq_zero.mpr fun row _ => ?_
        simp [presented]
      rw [none]
      exact sound.once tokenHash

variable {action : AuthAction}

theorem authStep_sound (sound : Sound state) (alone : alone state action = true)
    (steps : authStep state action = some after) : Sound after := by
  cases action with
  | request call =>
      obtain rfl := Option.some.inj steps
      exact sound.requested call
  | execute place statement =>
      simp only [authStep] at steps
      split at steps
      · next request found =>
          obtain ⟨next, advances, rfl⟩ := Option.map_eq_some_iff.mp steps
          exact sound.executed found (Request.advance_cases advances) alone
      · contradiction
  | commit place =>
      simp only [authStep] at steps
      split at steps
      · next request found =>
          obtain ⟨answer, finished, rfl⟩ := Option.map_eq_some_iff.mp steps
          exact sound.committed found finished
      · contradiction

/-- In a sound state the tokens of a login are a chain with at most one live token. -/
theorem Sound.singleLine (sound : Sound state) : state.SingleLine := by
  have unique : Relator.RightUnique state.Succeeds := by
    intro first second third one two
    have counts := sound.once first
    by_contra distinct
    have pair : [(⟨some first, second⟩ : Exchange), ⟨some first, third⟩].Subperm state.exchanges := by
      refine List.subperm_of_subset ?_ ?_
      · simpa using distinct
      · intro exchange member
        rcases List.mem_pair.mp member with rfl | rfl
        · exact one
        · exact two
    have more := pair.countP_le fun exchange => exchange.presented = some first
    simp at more
    omega
  have spent : ∀ first second, state.Descends first second → first ≠ second → ¬ state.Live first := by
    intro first second descends distinct live
    rcases descends.cases_head with same | ⟨next, succeeds, _⟩
    · exact distinct same
    · obtain ⟨row, member, same, none⟩ := live
      have revoked := (sound.settled _ succeeds first rfl).2 row member same
      rw [none] at revoked
      contradiction
  refine ⟨sound.once, fun login first second one two => ?_, fun login first second one two here there => ?_⟩
  · exact Relation.ReflTransGen.total_of_right_unique unique one two
  · by_contra distinct
    rcases Relation.ReflTransGen.total_of_right_unique unique one two with down | up
    · exact spent first second down distinct here
    · exact spent second first up (Ne.symm distinct) there

/-- The token is revoked, and the request at the place does not rotate it. -/
def Refused (tokenHash place : Nat) (state : AuthState) : Prop :=
  Settled state.rows tokenHash ∧ ∀ request, state.requests[place]? = some request →
    request.call = .refresh (some tokenHash) → request.phase = .started ∨ request.phase = .failed

/-- A statement of a refused request reads the revoked row. -/
theorem Advances.refused (advances : Advances state request statement next)
    (settled : Settled state.rows tokenHash) (call : next.call = .refresh (some tokenHash))
    (idle : request.phase = .started ∨ request.phase = .failed) : next.phase = .failed := by
  cases advances with
  | fails => rfl
  | reads own started valid =>
      obtain rfl := Option.some.inj (Call.refresh.inj (own.symm.trans call))
      obtain ⟨presented, same, member, equal, live⟩ := validToken_some valid
      obtain rfl := Option.some.inj same
      have revoked := settled.2 _ member equal
      rw [live] at revoked
      contradiction
  | authenticates own => exact absurd (own.symm.trans call) (by simp)
  | selectsOwn own => exact absurd (own.symm.trans call) (by simp)
  | logsIn own => exact absurd (own.symm.trans call) (by simp)
  | resolves here | misses here | keeps here | revokes here => rcases idle with idle | idle <;> simp_all
  | selects _ here | rotates _ here => rcases idle with idle | idle <;> simp_all

theorem Advances.keeps_call (advances : Advances state request statement next) :
    next.call = request.call := by
  cases advances <;> rfl

/-- A refused request stays refused. -/
theorem authStep_refused (sound : Sound state) (refused : Refused tokenHash place state)
    (steps : authStep state action = some after) : Refused tokenHash place after := by
  obtain ⟨settled, idle⟩ := refused
  cases action with
  | request call =>
      obtain rfl := Option.some.inj steps
      refine ⟨settled, fun request found own => ?_⟩
      rcases getElem?_snoc_iff.mp found with old | ⟨_, rfl⟩
      · exact idle request old own
      · exact Or.inl rfl
  | execute moved statement =>
      simp only [authStep] at steps
      split at steps
      · next request held =>
          obtain ⟨next, advances, rfl⟩ := Option.map_eq_some_iff.mp steps
          have moves := Request.advance_cases advances
          refine ⟨settled, fun other found own => ?_⟩
          rcases (getElem?_set_iff held).mp found with ⟨rfl, rfl⟩ | ⟨_, old⟩
          · exact Or.inr (moves.refused settled own (idle request held (moves.keeps_call.symm.trans own)))
          · exact idle other old own
      · contradiction
  | commit moved =>
      simp only [authStep] at steps
      split at steps
      · next request held =>
          obtain ⟨answer, finished, rfl⟩ := Option.map_eq_some_iff.mp steps
          have grows : Grows state.rows (state.commit moved request answer).rows :=
            commit_grows (sound.fresh request (List.mem_of_getElem? held))
          refine ⟨grows.settled settled, fun other found own => ?_⟩
          rcases (getElem?_set_iff held).mp found with ⟨rfl, rfl⟩ | ⟨_, old⟩
          · have presented : request.call.presented = some tokenHash := by
              rw [show request.call = _ from own]
              rfl
            have rotates := rotates_iff.mp (Request.rotates_of_finished finished presented)
            rcases idle request held own with started | failed
            · exact absurd started rotates.2.1
            · exact absurd failed rotates.2.2.1
          · exact idle other old own
      · contradiction

/-- A request that has ended a token leaves it revoked. -/
theorem Sound.ends (sound : Sound state) (member : request ∈ state.requests)
    (ends : request.Ends tokenHash) : Settled state.rows tokenHash := by
  have fits := sound.fits request member
  unfold Request.Fits at fits
  rcases ends with ⟨found, call, committed⟩ | ⟨tenantId, call, committed⟩
  · rw [committed] at fits
    obtain ⟨own, same, settled⟩ := fits.2 (fits.1 _ call)
    rw [call] at same
    obtain rfl := Option.some.inj same
    exact settled
  · rw [committed] at fits
    obtain ⟨own, same, settled⟩ := fits.2 rfl
    rw [call] at same
    obtain rfl := Option.some.inj same
    exact settled

/-- Where every refresh that reads its token as valid is alone, the tokens of a login are a single line,
and a refresh that reads its token after a request has ended it fails. -/
theorem refresh_singleLine {middle : AuthState} {earlier later : List AuthAction}
    (first : Runs authStep (fun state action => alone state action = true) .empty earlier middle)
    (second : Runs authStep (fun state action => alone state action = true) middle later state) :
    state.SingleLine ∧ ∀ tokenHash, (∃ request ∈ middle.requests, request.Ends tokenHash) →
      ∀ place : Nat, (∀ request : Request, middle.requests[place]? = some request →
        request.phase = .started) → ∀ request : Request, state.requests[place]? = some request →
          request.call = .refresh (some tokenHash) → request.phase = .started ∨ request.phase = .failed := by
  have sound : Sound middle := first.invariant Sound
    (fun _ _ _ sound alone steps => authStep_sound sound alone steps) empty_sound
  have ended : Sound state := second.invariant Sound
    (fun _ _ _ sound alone steps => authStep_sound sound alone steps) sound
  refine ⟨ended.singleLine, fun tokenHash ends place waiting => ?_⟩
  obtain ⟨request, member, ends⟩ := ends
  have refused : Sound state ∧ Refused tokenHash place state := second.invariant
    (fun state => Sound state ∧ Refused tokenHash place state)
    (fun _ _ _ holds alone steps =>
      ⟨authStep_sound holds.1 alone steps, authStep_refused holds.1 holds.2 steps⟩)
    ⟨sound, sound.ends member ends, fun other found _ => Or.inl (waiting other found)⟩
  exact refused.2.2

section Example

/-- A user logs in. -/
def loginRun : List AuthAction :=
  [.request .login, .execute 0 (.authenticate (some ⟨7, 8⟩)), .execute 0 (.issue 1 100), .commit 0]

/-- A token is rotated, and a second refresh presents it again. -/
def replayRun : List AuthAction :=
  [.request (.refresh (some 1)), .execute 1 (.read 10), .execute 1 (.resolve true), .execute 1 .select,
    .execute 1 (.update 11), .execute 1 (.issue 2 110), .commit 1]

def replayedRun : List AuthAction :=
  [.request (.refresh (some 1)), .execute 2 (.read 20)]

theorem replayRun_executes : ∃ middle state,
    execute (guarded authStep alone) .empty (loginRun ++ replayRun) = some middle ∧
      execute (guarded authStep alone) middle replayedRun = some state ∧
      middle.requests[1]? = some ⟨.refresh (some 1), .committed true, none, none⟩ ∧
      middle.requests[2]? = none ∧ state.requests[2]? = some ⟨.refresh (some 1), .failed, none, none⟩ :=
  ⟨_, _, rfl, rfl, rfl, rfl, rfl⟩

/-- A replayed token is refused, and the tokens are a single line. -/
theorem refresh_singleLine_replay : ∃ middle state,
    Runs authStep (fun state action => alone state action = true) .empty (loginRun ++ replayRun) middle ∧
      Runs authStep (fun state action => alone state action = true) middle replayedRun state ∧
      state.SingleLine ∧ ∀ request, state.requests[2]? = some request →
        request.call = .refresh (some 1) → request.phase = .started ∨ request.phase = .failed := by
  obtain ⟨middle, state, first, second, ended, absent, _⟩ := replayRun_executes
  have earlier := Runs.of_execute first
  have later := Runs.of_execute second
  obtain ⟨line, refused⟩ := refresh_singleLine earlier later
  refine ⟨middle, state, earlier, later, line, refused 1 ⟨_, List.mem_of_getElem? ended, ?_⟩ 2 ?_⟩
  · exact Or.inl ⟨true, rfl, rfl⟩
  · intro request found
    rw [absent] at found
    contradiction

/-- Two refreshes read the same token as valid before either of them commits. -/
def overlappingRun : List AuthAction :=
  [.request (.refresh (some 1)), .request (.refresh (some 1)), .execute 1 (.read 10), .execute 2 (.read 10),
    .execute 1 (.resolve true), .execute 2 (.resolve true), .execute 1 .select, .execute 2 .select,
    .execute 1 (.update 11), .execute 1 (.issue 2 110), .commit 1, .execute 2 (.update 12),
    .execute 2 (.issue 3 110), .commit 2]

/-- Two overlapping refreshes exchange one token for two pairs. -/
theorem refresh_overlapping : ∃ state,
    Runs authStep (fun _ _ => True) .empty (loginRun ++ overlappingRun) state ∧ ¬ state.SingleLine := by
  refine ⟨_, Runs.of_unchecked rfl, fun line => ?_⟩
  have twice := line.once 1
  revert twice
  decide

end Example

end LumenCopilot.Auth
