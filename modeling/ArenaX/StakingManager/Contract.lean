/-
The staking manager as a system that answers calls: its entry points as one type, and its runs. A call that
panics leaves the storage and the tokens as they were, so a run is made of the calls that return.
-/
import ArenaX.StakingManager.Liquidity
import ArenaX.StakingManager.Penalty
import ArenaX.Lib.Runs

namespace ArenaX.StakingManager

open Machine Exec
open Host (Address Holdings)

/-- The entry points that write. -/
inductive Call where
  | setAxToken (axToken : Address)
  | setTournamentContract (tournamentContract : Address)
  | setDisputeContract (disputeContract : Address)
  | setPaused (paused : Bool)
  | setRewardConfig (annualRateBps : U32) (minStake : I128)
  | fundRewardPool (funder : Address) (amount : I128)
  | stakeForRewards (user : Address) (amount : I128)
  | claimRewards (user : Address)
  | unstakeRewards (user : Address)
  | createTournament (tournamentId : BytesN32) (stakeRequirement : I128)
  | updateTournamentState (tournamentId : BytesN32) (state : U32)
  | stake (user : Address) (tournamentId : BytesN32) (amount : I128)
  | withdraw (user : Address) (tournamentId : BytesN32)
  | slash (user : Address) (tournamentId : BytesN32) (amount : I128) (slashedBy : Address)
  | createRewardPool (apyBps : U32) (lockDuration : U64) (earlyExitPenaltyBps : U32)
  | setRewardPoolActive (poolId : U32) (active : Bool)
  | setRewardPoolRate (poolId apyBps : U32)
  | stakeFlexible (user : Address) (poolId : U32) (amount : I128)
  | claimFlexibleRewards (user : Address) (poolId : U32)
  | unstakeFlexible (user : Address) (poolId : U32)
  | createVotingLock (user : Address) (amount : I128) (duration : U64)
  | withdrawVotingLock (user : Address)
  | configureSlashing (config : SlashConfig)
  | slashValidator (admin validator : Address) (severity reason : U32) (rationale : String)
      (signers : Option (List Address))
  | appealSlash (validator : Address) (slashId : BytesN32) (reason : U32) (appealRationale : String)
  | resolveAppeal (admin : Address) (slashId : BytesN32) (grant : Bool)
  | createLpPool (rewardRateBps ilProtectionBps : U32)
  | setLpRewardRate (poolId newRateBps : U32)
  | updateLpDynamicRate (poolId : U32) (targetLiquidity : I128) (baseRateBps minRateBps : U32)
  | setLpPoolActive (poolId : U32) (active : Bool)
  | addLiquidity (user : Address) (poolId : U32) (amount entryPriceA entryPriceB : I128)
  | removeLiquidity (user : Address) (poolId : U32) (priceANow priceBNow : I128)
  | claimLpRewards (user : Address) (poolId : U32)
  | depositLpFees (funder : Address) (poolId : U32) (amount : I128)
  | recordLpPerformance (user : Address) (poolId : U32)
      (liquidityDelta rewardsClaimed feesClaimed ilProtectionPaid : I128)

/-- The state a call leaves behind. -/
def execute (env : Env) (s : State) : Call → Result State
  | .setAxToken axToken => setAxToken env s axToken
  | .setTournamentContract tournamentContract => setTournamentContract env s tournamentContract
  | .setDisputeContract disputeContract => setDisputeContract env s disputeContract
  | .setPaused paused => setPaused env s paused
  | .setRewardConfig annualRateBps minStake => setRewardConfig env s annualRateBps minStake
  | .fundRewardPool funder amount => fundRewardPool env s funder amount
  | .stakeForRewards user amount => stakeForRewards env s user amount
  | .claimRewards user => Prod.snd <$> claimRewards env s user
  | .unstakeRewards user => unstakeRewards env s user
  | .createTournament tournamentId stakeRequirement => createTournament env s tournamentId stakeRequirement
  | .updateTournamentState tournamentId state => updateTournamentState env s tournamentId state
  | .stake user tournamentId amount => stake env s user tournamentId amount
  | .withdraw user tournamentId => withdraw env s user tournamentId
  | .slash user tournamentId amount slashedBy => slash env s user tournamentId amount slashedBy
  | .createRewardPool apyBps lockDuration earlyExitPenaltyBps =>
    Prod.snd <$> createRewardPool env s apyBps lockDuration earlyExitPenaltyBps
  | .setRewardPoolActive poolId active => setRewardPoolActive env s poolId active
  | .setRewardPoolRate poolId apyBps => setRewardPoolRate env s poolId apyBps
  | .stakeFlexible user poolId amount => stakeFlexible env s user poolId amount
  | .claimFlexibleRewards user poolId => Prod.snd <$> claimFlexibleRewards env s user poolId
  | .unstakeFlexible user poolId => unstakeFlexible env s user poolId
  | .createVotingLock user amount duration => Prod.snd <$> createVotingLock env s user amount duration
  | .withdrawVotingLock user => Prod.snd <$> withdrawVotingLock env s user
  | .configureSlashing config => configureSlashing env s config
  | .slashValidator admin validator severity reason rationale signers =>
    Prod.snd <$> slashValidator env s admin validator severity reason rationale signers
  | .appealSlash validator slashId reason appealRationale => appealSlash env s validator slashId reason appealRationale
  | .resolveAppeal admin slashId grant => resolveAppeal env s admin slashId grant
  | .createLpPool rewardRateBps ilProtectionBps => Prod.snd <$> createLpPool env s rewardRateBps ilProtectionBps
  | .setLpRewardRate poolId newRateBps => setLpRewardRate env s poolId newRateBps
  | .updateLpDynamicRate poolId targetLiquidity baseRateBps minRateBps =>
    updateLpDynamicRate env s poolId targetLiquidity baseRateBps minRateBps
  | .setLpPoolActive poolId active => setLpPoolActive env s poolId active
  | .addLiquidity user poolId amount entryPriceA entryPriceB =>
    addLiquidity env s user poolId amount entryPriceA entryPriceB
  | .removeLiquidity user poolId priceANow priceBNow => removeLiquidity env s user poolId priceANow priceBNow
  | .claimLpRewards user poolId => Prod.snd <$> claimLpRewards env s user poolId
  | .depositLpFees funder poolId amount => depositLpFees env s funder poolId amount
  | .recordLpPerformance user poolId liquidityDelta rewardsClaimed feesClaimed ilProtectionPaid =>
    recordLpPerformance env s user poolId liquidityDelta rewardsClaimed feesClaimed ilProtectionPaid

/-- The contract from `initialize` on, in a build that reads arithmetic by a mode; at first it holds no tokens. -/
def contract (m : Mode) : TransitionSystem Env State Call where
  init env s := ∃ tokens admin axToken, (∀ token, tokens token env.currentContract = 0) ∧
    (initializeContract env { tokens } admin axToken).run m = some s
  step env s c := (execute env s c).run m

abbrev Rule := TransitionSystem.Rule Env State Call

export TransitionSystem (Unrestricted)

theorem contract_init {m : Mode} {e : Env} {s : State} (h : (contract m).init e s) :
    ∃ tokens admin axToken config, (∀ token, tokens token e.currentContract = 0) ∧ admin ∈ e.signers ∧
      config.secsPerYear = secsPerYear ∧
      s = { tokens, admin := some admin, axToken := some axToken, reward.config := some config } := by
  obtain ⟨_, _, _, hzero, h⟩ := h
  simp only [initializeContract, run_iff, run_requireAuth] at h
  obtain ⟨-, -, -, hadmin, rfl⟩ := h
  exact ⟨_, _, _, _, hzero, hadmin, rfl, rfl⟩

/-! ## A small deployment

Three accounts that sign, and a token that accepts what the sender can pay. -/

namespace Sample

export Host.Accounts (admin alice bob)
export TransitionSystem.Deployment (reach_after)

def treasury : Address := ⟨4⟩
def axToken : Address := ⟨5⟩

/-- A transaction at a time, signed by everyone. -/
def signedAt (time : Int) : Env where
  toEnv := .signed [admin, alice, bob] 0 time
  accepts := Holdings.payable
  counterToBytesN counter := BitVec.ofInt 256 counter

def signed (time : Int) (c : Call) : Env × Call := (signedAt time, c)

/-- The contract after `initialize`. -/
def deployed : State :=
  { tokens := Holdings.endowed
    admin := some admin
    axToken := some axToken
    reward.config := some ⟨1200, 1000, 31536000⟩ }

def deployment (m : Mode) : (contract m).Deployment where
  env := signedAt 0
  state := deployed
  starts := ⟨Holdings.endowed, admin, axToken, fun _ => rfl, by cases m <;> rfl⟩

end Sample

end ArenaX.StakingManager
