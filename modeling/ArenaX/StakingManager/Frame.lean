/-
What calls leave alone. Each call belongs to a facility and writes its stores only, apart from the common reserve of
rewards and the summaries of users, which validator penalties write too.
-/
import ArenaX.StakingManager.Contract

namespace ArenaX.StakingManager

open Machine Exec
open Host (Address Holdings)

/-- The parts of the contract that have stores of their own. -/
inductive Facility where
  | settings | reward | tournament | flexible | votingLock | lp | penalty
deriving DecidableEq

def Call.facility : Call → Facility
  | .setAxToken .. | .setTournamentContract .. | .setDisputeContract .. | .setPaused .. => .settings
  | .setRewardConfig .. | .fundRewardPool .. | .stakeForRewards .. | .claimRewards .. | .unstakeRewards .. => .reward
  | .createTournament .. | .updateTournamentState .. | .stake .. | .withdraw .. | .slash .. => .tournament
  | .createRewardPool .. | .setRewardPoolActive .. | .setRewardPoolRate .. | .stakeFlexible ..
  | .claimFlexibleRewards .. | .unstakeFlexible .. => .flexible
  | .createVotingLock .. | .withdrawVotingLock .. => .votingLock
  | .configureSlashing .. | .slashValidator .. | .appealSlash .. | .resolveAppeal .. => .penalty
  | .createLpPool .. | .setLpRewardRate .. | .updateLpDynamicRate .. | .setLpPoolActive .. | .addLiquidity ..
  | .removeLiquidity .. | .claimLpRewards .. | .depositLpFees .. | .recordLpPerformance .. => .lp

/-- What a step of a facility leaves alone. -/
structure Frame (f : Facility) (s s' : State) : Prop where
  admin : s'.admin = s.admin
  axToken : f ≠ .settings → s'.axToken = s.axToken
  rewardPosition : f ≠ .reward → s'.reward.position = s.reward.position
  rewardTotal : f ≠ .reward → s'.reward.totalStaked = s.reward.totalStaked
  rewardConfig : f ≠ .reward → s'.reward.config = s.reward.config
  stake : f ≠ .tournament → s'.tournament.stake = s.tournament.stake
  info : f ≠ .tournament → s'.tournament.info = s.tournament.info
  userInfo : f ≠ .tournament → f ≠ .penalty → s'.tournament.userInfo = s.tournament.userInfo
  flexible : f ≠ .flexible → s'.flexible = s.flexible
  votingLock : f ≠ .votingLock → s'.votingLock = s.votingLock
  lp : f ≠ .lp → s'.lp = s.lp
  penalty : f ≠ .penalty → s'.penalty = s.penalty

section Frame

variable {m : Mode} {env : Env} {s s' : State} {c : Call}

theorem execute_frame (h : (execute env s c).run m = some s') : Frame c.facility s s' := by
  revert s' h
  show Ensures m (execute env s c) (Frame c.facility s)
  -- a call is a chain of checks, additions and transfers; those that return a state are taken apart in their turn
  cases c <;> (try refine .map (f := Prod.snd) ?_) <;>
    repeat' first
      | refine Ensures.seq (α := State) ?_
      | refine Ensures.seq (α := I128 × State) ?_
      | refine Ensures.bind fun _ _ => ?_
      | refine Ensures.ite (fun _ => ?_) fun _ => ?_
      | refine Ensures.pure ?_
  all_goals constructor <;> intros <;> first | rfl | exact absurd rfl ‹_›

/-- The calls that write the configuration or the records of validator penalties. -/
def Call.writesPenalty : Call → Bool
  | .configureSlashing .. | .slashValidator .. | .appealSlash .. | .resolveAppeal .. => true
  | _ => false

theorem execute_keepsPenalty (hc : c.writesPenalty = false) :
    Ensures m (execute env s c) fun s' => s'.penalty = s.penalty := by
  intro s' h
  refine (execute_frame h).penalty ?_
  rintro hf
  cases c <;> cases hf <;> cases hc

end Frame

end ArenaX.StakingManager
