/-
Tournament stakes: a record for each player of a tournament, and the summaries kept beside the records by hand,
for each tournament and for each user.
-/
import ArenaX.StakingManager.Rewards

namespace ArenaX.StakingManager

open Machine Exec
open Host (Address)

/-- The caller only has to name the admin or the dispute contract; neither has to sign. -/
def requireDisputeContractOrAdmin (s : State) (caller : Address) : Result Unit := do
  let admin ← unwrap s.admin
  if caller = admin ∨ s.disputeContract = some caller then pure () else throw "caller not authorized"

/-- A `u32` counter moved by an `i32`, in `i32` arithmetic. -/
def shiftCounter (counter : U32) (delta : Int) : U32 := u32.wrap (i32.wrap (i32.wrap counter + delta))

def updateUserStakeInfo (s : State) (user : Address) (staked slashed : Int) (activeD completedD : Int) :
    Result State := do
  let info := s.getUserStakeInfo user
  let totalStaked ← unchecked i128 (info.totalStaked + staked)
  let totalSlashed ← unchecked i128 (info.totalSlashed + slashed)
  pure { s with
    tournament.userInfo := s.tournament.userInfo.set user { info with
      totalStaked
      totalSlashed
      activeTournaments := shiftCounter info.activeTournaments activeD
      completedTournaments := shiftCounter info.completedTournaments completedD } }

section

variable (env : Env) (s : State)

def createTournament (tournamentId : BytesN32) (stakeRequirement : I128) : Result State := do
  requireNotPaused s
  requireAdmin env s
  reject ((stakeRequirement : Int) ≤ 0) "stake requirement must be positive"
  reject (s.tournament.info.get tournamentId).isSome "tournament already exists"
  let info : TournamentInfo :=
    ⟨tournamentId, TournamentState.notStarted.code, stakeRequirement, 0, 0, env.timestamp, none⟩
  pure { s with tournament.info := s.tournament.info.set tournamentId info }

/-- Any code is accepted as the new state. -/
def updateTournamentState (tournamentId : BytesN32) (state : U32) : Result State := do
  requireNotPaused s
  requireAdmin env s
  let info ← okOr (s.tournament.info.get tournamentId) "tournament not found"
  let completedAt := if state = TournamentState.completed.code ∨ state = TournamentState.cancelled.code
    then some env.timestamp else info.completedAt
  pure { s with tournament.info := s.tournament.info.set tournamentId { info with state, completedAt } }

def stake (user : Address) (tournamentId : BytesN32) (amount : I128) : Result State := do
  requireNotPaused s
  env.requireAuth user
  reject ((amount : Int) ≤ 0) "amount must be positive"
  let info ← okOr (s.tournament.info.get tournamentId) "tournament not found"
  reject (info.state ≠ TournamentState.active.code) "tournament not active"
  reject ((amount : Int) < info.stakeRequirement) "below stake requirement"
  reject (s.tournament.stake.get (tournamentId, user)).isSome "already staked"
  let token ← s.getAxToken
  let s ← payIn env s token user amount
  let totalStaked ← unchecked i128 (info.totalStaked + amount)
  let participantCount := u32.wrap (info.participantCount + 1)
  let s := { s with
    tournament.stake := s.tournament.stake.set (tournamentId, user)
      ⟨user, tournamentId, amount, env.timestamp, true, false⟩
    tournament.info := s.tournament.info.set tournamentId { info with totalStaked, participantCount } }
  updateUserStakeInfo s user amount 0 1 0

def withdraw (user : Address) (tournamentId : BytesN32) : Result State := do
  requireNotPaused s
  env.requireAuth user
  let info ← okOr (s.tournament.stake.get (tournamentId, user)) "no stake"
  reject (info.canWithdraw = false) "stake not withdrawable"
  let token ← s.getAxToken
  let s ← payOut env s token user info.amount
  let negated ← unchecked i128 (-info.amount)
  let s := { s with tournament.stake := s.tournament.stake.remove (tournamentId, user) }
  updateUserStakeInfo s user negated 0 (-1) 1

end

/-- The stakes with the rest of one after a slash; a stake slashed to nothing is removed. -/
def StakeInfo.remaining (info : StakeInfo) (stakes : Table (BytesN32 × Address) StakeInfo)
    (key : BytesN32 × Address) (rest : I128) : Table (BytesN32 × Address) StakeInfo :=
  if (rest : Int) = 0 then stakes.remove key else stakes.set key { info with amount := rest }

/-- The tournament of a stake after part of it is slashed; a stake slashed to nothing leaves the count. -/
def TournamentInfo.slashed (t : TournamentInfo) (amount rest : I128) : Result TournamentInfo := do
  let totalStaked ← unchecked i128 (t.totalStaked - amount)
  let participantCount := if (rest : Int) = 0 then u32.wrap (t.participantCount - 1) else t.participantCount
  pure { t with totalStaked, participantCount }

/-- The slashed amount goes to the admin, which stands in for the treasury. -/
def slash (env : Env) (s : State) (user : Address) (tournamentId : BytesN32) (amount : I128) (slashedBy : Address) :
    Result State := do
  requireNotPaused s
  requireDisputeContractOrAdmin s slashedBy
  reject ((amount : Int) ≤ 0) "amount must be positive"
  let info ← okOr (s.tournament.stake.get (tournamentId, user)) "no stake"
  reject ((amount : Int) > info.amount) "slash exceeds stake"
  let treasury ← unwrap s.admin
  let token ← s.getAxToken
  let s ← payOut env s token treasury amount
  let rest ← unchecked i128 (info.amount - amount)
  let t ← unwrap (s.tournament.info.get tournamentId)
  let t ← t.slashed amount rest
  let s := { s with
    tournament.stake := info.remaining s.tournament.stake (tournamentId, user) rest
    tournament.info := s.tournament.info.set tournamentId t }
  updateUserStakeInfo s user 0 amount 0 0

/-! ## What the operations do -/

section Specs

variable {m : Mode} {env : Env} {s s' : State} {user slashedBy : Address} {tournamentId : BytesN32} {amount : I128}

theorem requireDisputeContractOrAdmin_spec {u : Unit} (h : (requireDisputeContractOrAdmin s user).run m = some u) :
    ∃ admin, s.admin = some admin ∧ (user = admin ∨ s.disputeContract = some user) := by
  simp only [requireDisputeContractOrAdmin, run_iff, run_unwrap] at h
  obtain ⟨_, hadmin, h⟩ := h
  split at h
  · exact ⟨_, hadmin, ‹_›⟩
  · cases h

/-- The summary of a user moved by what was staked and slashed, and by the tournaments joined and left. -/
def UserStakeInfo.moved (info : UserStakeInfo) (staked slashed activeD completedD : Int) : UserStakeInfo :=
  { info with
    totalStaked := i128.wrap (info.totalStaked + staked)
    totalSlashed := i128.wrap (info.totalSlashed + slashed)
    activeTournaments := shiftCounter info.activeTournaments activeD
    completedTournaments := shiftCounter info.completedTournaments completedD }

theorem updateUserStakeInfo_spec {staked slashed activeD completedD : Int}
    (h : (updateUserStakeInfo s user staked slashed activeD completedD).run m = some s') :
    s' = { s with
      tournament.userInfo := s.tournament.userInfo.set user
        ((s.getUserStakeInfo user).moved staked slashed activeD completedD) } := by
  simp only [updateUserStakeInfo, run_iff, run_unchecked] at h
  obtain ⟨_, ⟨rfl, -⟩, _, ⟨rfl, -⟩, rfl⟩ := h
  rfl

theorem createTournament_spec {stakeRequirement : I128}
    (h : (createTournament env s tournamentId stakeRequirement).run m = some s') :
    env.AdminSigned s.admin ∧ s.tournament.info.get tournamentId = none ∧ s' = { s with
      tournament.info := s.tournament.info.set tournamentId
        ⟨tournamentId, TournamentState.notStarted.code, stakeRequirement, 0, 0, env.timestamp, none⟩ } := by
  simp only [createTournament, run_iff, run_requireAdmin, Bool.not_eq_true, Option.isSome_eq_false_iff,
    Option.isNone_iff_eq_none] at h
  obtain ⟨-, -, -, hadmin, -, -, -, hnone, rfl⟩ := h
  exact ⟨hadmin, hnone, rfl⟩

theorem updateTournamentState_spec {state : U32}
    (h : (updateTournamentState env s tournamentId state).run m = some s') :
    env.AdminSigned s.admin ∧ ∃ info completedAt, s.tournament.info.get tournamentId = some info ∧ s' = { s with
      tournament.info := s.tournament.info.set tournamentId { info with state, completedAt } } := by
  simp only [updateTournamentState, run_iff, run_requireAdmin] at h
  obtain ⟨-, -, -, hadmin, _, hinfo, rfl⟩ := h
  exact ⟨hadmin, _, _, hinfo, rfl⟩

theorem stake_spec (h : (stake env s user tournamentId amount).run m = some s') :
    user ∈ env.signers ∧ 0 < (amount : ℤ) ∧ s.tournament.stake.get (tournamentId, user) = none ∧
      ∃ token info, s.axToken = some token ∧ s.tournament.info.get tournamentId = some info ∧ s' = { s with
        tokens := s.tokens.move token user env.currentContract amount
        tournament.stake := s.tournament.stake.set (tournamentId, user)
          ⟨user, tournamentId, amount, env.timestamp, true, false⟩
        tournament.info := s.tournament.info.set tournamentId { info with
          totalStaked := i128.wrap (info.totalStaked + amount)
          participantCount := u32.wrap (info.participantCount + 1) }
        tournament.userInfo := s.tournament.userInfo.set user ((s.getUserStakeInfo user).moved amount 0 1 0) } := by
  simp only [stake, run_iff, run_requireAuth, run_getAxToken, run_payIn, run_unchecked, not_le, Bool.not_eq_true,
    Option.isSome_eq_false_iff, Option.isNone_iff_eq_none] at h
  obtain ⟨-, -, -, huser, -, hpos, _, hinfo, -, -, -, -, -, hnone, _, htoken, _, ⟨-, rfl⟩, _, ⟨rfl, -⟩, h⟩ := h
  cases updateUserStakeInfo_spec h
  exact ⟨huser, hpos, hnone, _, _, htoken, hinfo, rfl⟩

theorem withdraw_spec (h : (withdraw env s user tournamentId).run m = some s') :
    user ∈ env.signers ∧ ∃ info token, s.tournament.stake.get (tournamentId, user) = some info ∧
      info.canWithdraw = true ∧ s.axToken = some token ∧ s' = { s with
        tokens := s.tokens.move token env.currentContract user info.amount
        tournament.stake := s.tournament.stake.remove (tournamentId, user)
        tournament.userInfo := s.tournament.userInfo.set user
          ((s.getUserStakeInfo user).moved (i128.wrap (-info.amount)) 0 (-1) 1) } := by
  simp only [withdraw, run_iff, run_requireAuth, run_getAxToken, run_payOut, run_unchecked, Bool.not_eq_false] at h
  obtain ⟨-, -, -, huser, _, hget, -, hcan, _, htoken, _, ⟨-, rfl⟩, _, ⟨rfl, -⟩, h⟩ := h
  cases updateUserStakeInfo_spec h
  exact ⟨huser, _, _, hget, hcan, htoken, rfl⟩

theorem slashed_spec {t t' : TournamentInfo} {rest : I128} (h : (t.slashed amount rest).run m = some t') :
    t' = { t with
      totalStaked := i128.wrap (t.totalStaked - amount)
      participantCount := if (rest : ℤ) = 0 then u32.wrap (t.participantCount - 1) else t.participantCount } := by
  simp only [TournamentInfo.slashed, run_iff, run_unchecked] at h
  obtain ⟨_, ⟨rfl, -⟩, rfl⟩ := h
  rfl

/-- The rest of a stake after a slash is exact. -/
theorem StakeInfo.rest_eq {info : StakeInfo} (hpos : 0 < (amount : ℤ)) (hle : (amount : ℤ) ≤ info.amount) :
    (i128.wrap (info.amount - amount) : ℤ) = info.amount - amount :=
  wrap_of_nonneg (by omega) (by have := info.amount.hi; omega)

theorem slash_spec (h : (slash env s user tournamentId amount slashedBy).run m = some s') :
    0 < (amount : ℤ) ∧ ∃ admin info token t t', s.admin = some admin ∧
      (slashedBy = admin ∨ s.disputeContract = some slashedBy) ∧
      s.tournament.stake.get (tournamentId, user) = some info ∧
      (amount : ℤ) ≤ info.amount ∧ s.axToken = some token ∧ s.tournament.info.get tournamentId = some t ∧
      (t.slashed amount (i128.wrap (info.amount - amount))).run m = some t' ∧ s' = { s with
        tokens := s.tokens.move token env.currentContract admin amount
        tournament.stake := info.remaining s.tournament.stake (tournamentId, user) (i128.wrap (info.amount - amount))
        tournament.info := s.tournament.info.set tournamentId t'
        tournament.userInfo := s.tournament.userInfo.set user ((s.getUserStakeInfo user).moved 0 amount 0 0) } := by
  simp only [slash, run_iff, run_unwrap, run_getAxToken, run_payOut, run_unchecked, not_le, not_lt] at h
  obtain ⟨-, -, _, hcaller, -, hpos, _, hget, -, hle, _, hadmin, _, htoken, _, ⟨-, rfl⟩, _, ⟨rfl, -⟩, _, ht,
    _, ht', h⟩ := h
  cases updateUserStakeInfo_spec h
  obtain ⟨_, hadmin', hcaller⟩ := requireDisputeContractOrAdmin_spec hcaller
  cases hadmin.symm.trans hadmin'
  exact ⟨hpos, _, _, _, _, _, hadmin, hcaller, hget, hle, htoken, ht, ht', rfl⟩

end Specs

end ArenaX.StakingManager
