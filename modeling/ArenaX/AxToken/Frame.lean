/-
What calls leave alone: most of them move no tokens and no voting power, only some write proposals, two write lockups,
and two the supply cap.
-/
import ArenaX.AxToken.Contract

namespace ArenaX.AxToken

open Machine Exec FlashLoanGuard
open Host (Address)

/-- The calls that move tokens between the places they can be in. -/
def Call.movesTokens : Call → Bool
  | .mint .. | .batchMint .. | .burn .. | .transfer .. | .claimVestedTokens .. | .lockTokens .. | .unlockTokens ..
  | .depositRevenue .. | .executeBuybackAndBurn => true
  | _ => false

/-- The calls that change who holds the power of an address. -/
def Call.isDelegation : Call → Bool
  | .delegate .. | .revokeDelegation .. => true
  | _ => false

/-- The calls that write a proposal or a vote. -/
def Call.isProposal : Call → Bool
  | .createProposal .. | .voteOnProposal .. | .expireProposal .. | .executeProposal .. | .unpauseViaGovernance ..
  | .adjustCapViaGovernance .. => true
  | _ => false

/-- The calls that write lockups. -/
def Call.setsLockups : Call → Bool
  | .lockTokens .. | .unlockTokens .. => true
  | _ => false

/-- The calls that write the supply cap. -/
def Call.setsCap : Call → Bool
  | .setSupplyCap .. | .adjustCapViaGovernance .. => true
  | _ => false

section Frames

variable {m : Mode} {env : Env} {s s' : State} {c : Call} {a : Address}

@[simp] theorem checkAndSetSequence_token : (checkAndSetSequence env s a).2.token = s.token := by
  unfold checkAndSetSequence; split <;> rfl

@[simp] theorem checkAndSetSequence_voting : (checkAndSetSequence env s a).2.voting = s.voting := by
  unfold checkAndSetSequence; split <;> rfl

@[simp] theorem checkAndSetSequence_governance : (checkAndSetSequence env s a).2.governance = s.governance := by
  unfold checkAndSetSequence; split <;> rfl

@[simp] theorem checkAndSetSequence_supplyCap : (checkAndSetSequence env s a).2.supplyCap = s.supplyCap := by
  unfold checkAndSetSequence; split <;> rfl

/-- What a call leaves alone. -/
@[mk_iff] structure Frame (c : Call) (s s' : State) : Prop where
  tokens : c.movesTokens = false → c.isDelegation = false → s'.token = s.token ∧ s'.voting = s.voting
  proposals : c.isProposal = false → s'.governance.proposal = s.governance.proposal ∧
    s'.governance.hasVoted = s.governance.hasVoted ∧ s'.governance.proposalCounter = s.governance.proposalCounter
  lockups : c.setsLockups = false → s'.token.lockups = s.token.lockups
  cap : c.setsCap = false → s'.supplyCap = s.supplyCap

theorem execute_frame : Ensures m (execute env s c) (Frame c s) := by
  cases c
  all_goals
    first
      | refine .map ?_; (repeat refine .bind fun _ _ => ?_); refine .pure ?_
      | (repeat refine .bind fun _ _ => ?_); refine .pure ?_
    simp [frame_iff, State.markExecuted, Call.movesTokens, Call.isDelegation, Call.isProposal,
      Call.setsLockups, Call.setsCap]

end Frames

end ArenaX.AxToken
