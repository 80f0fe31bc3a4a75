/-
The treasury as a system that answers calls: its entry points as one type, its runs, and what each call leaves alone.
A call that panics leaves the storage and the tokens as they were, so a run is made of the calls that return. A
proposal is followed from the call that created it on: the counter of proposals is a `u64` and wraps around, so an id
can be given out again.
-/
import ArenaX.Treasury.Spending
import ArenaX.Treasury.Allocation
import ArenaX.Lib.Runs

namespace ArenaX.Treasury

open Machine Exec
open Host (Address Holdings)

/-- The entry points that write. -/
inductive Call where
  | setTokenAddress (caller tokenAddress : Address)
  | deposit (sender : Address) (amount : I128)
  | setPaused (caller : Address) (paused : Bool)
  | addSigner (caller newSigner : Address)
  | removeSigner (caller signer : Address)
  | updateThreshold (caller : Address) (newThreshold : U32)
  | createSpendingProposal (proposer recipient : Address) (amount : I128) (category : Symbol) (description : String)
  | approveProposal (signer : Address) (proposalId : U64)
  | revokeApproval (signer : Address) (proposalId : U64)
  | executeProposal (caller : Address) (proposalId : U64)
  | cancelProposal (caller : Address) (proposalId : U64)
  | proposeBudgetAllocation (proposer : Address) (category : Symbol) (amount : I128)
  | voteBudgetAllocation (signer : Address) (allocationId : U64) (support : Bool)
  | finalizeBudgetAllocation (caller : Address) (allocationId : U64)

/-- The state a call leaves behind. -/
def execute (env : Env) (s : State) : Call → Result State
  | .setTokenAddress caller tokenAddress => setTokenAddress env s caller tokenAddress
  | .deposit sender amount => deposit env s sender amount
  | .setPaused caller paused => setPaused env s caller paused
  | .addSigner caller newSigner => addSigner env s caller newSigner
  | .removeSigner caller signer => removeSigner env s caller signer
  | .updateThreshold caller newThreshold => updateThreshold env s caller newThreshold
  | .createSpendingProposal proposer recipient amount category description =>
    Prod.snd <$> createSpendingProposal env s proposer recipient amount category description
  | .approveProposal signer proposalId => approveProposal env s signer proposalId
  | .revokeApproval signer proposalId => revokeApproval env s signer proposalId
  | .executeProposal caller proposalId => executeProposal env s caller proposalId
  | .cancelProposal caller proposalId => cancelProposal env s caller proposalId
  | .proposeBudgetAllocation proposer category amount =>
    Prod.snd <$> proposeBudgetAllocation env s proposer category amount
  | .voteBudgetAllocation signer allocationId support => voteBudgetAllocation env s signer allocationId support
  | .finalizeBudgetAllocation caller allocationId => finalizeBudgetAllocation env s caller allocationId

/-- The contract from `initialize` on, in a build that reads arithmetic by a mode; at first it holds no tokens. -/
def contract (m : Mode) : TransitionSystem Env State Call where
  init env s := ∃ tokens admin token signers threshold duration tokenAddress,
    (∀ token, tokens token env.currentContract = 0) ∧
    (initializeContract { tokens } admin token signers threshold duration tokenAddress).run m = some s
  step env s c := (execute env s c).run m

abbrev Rule := TransitionSystem.Rule Env State Call

export TransitionSystem (Unrestricted)

theorem contract_init {m : Mode} {e : Env} {s : State} (h : (contract m).init e s) :
    ∃ tokens admin token signers threshold duration tokenAddress, (∀ token, tokens token e.currentContract = 0) ∧
      s = {
        tokens
        admin := some admin
        token := some token
        signers
        threshold
        timeLockDuration := duration
        tokenAddress } := by
  obtain ⟨_, _, _, _, _, _, _, hzero, h⟩ := h
  obtain ⟨-, -, rfl⟩ := initializeContract_spec h
  exact ⟨_, _, _, _, _, _, _, hzero, by rw [Option.or_none]⟩

/-! ## What calls leave alone -/

/-- What a call is about. -/
inductive Facility where
  | settings | funds | signers | proposals | execution | ballots | credit
deriving DecidableEq

def Call.facility : Call → Facility
  | .setTokenAddress .. | .setPaused .. => .settings
  | .deposit .. => .funds
  | .addSigner .. | .removeSigner .. | .updateThreshold .. => .signers
  | .createSpendingProposal .. | .approveProposal .. | .revokeApproval .. | .cancelProposal .. => .proposals
  | .executeProposal .. => .execution
  | .proposeBudgetAllocation .. | .voteBudgetAllocation .. => .ballots
  | .finalizeBudgetAllocation .. => .credit

/-- What a step of a facility leaves alone. -/
structure Frame (f : Facility) (s s' : State) : Prop where
  token : s'.token = s.token
  timeLockDuration : s'.timeLockDuration = s.timeLockDuration
  signers : f ≠ .signers → s'.signers = s.signers
  tokens : f ≠ .funds → f ≠ .execution → s'.tokens = s.tokens
  balance : f ≠ .funds → f ≠ .execution → s'.balance = s.balance
  spendingProposal : f ≠ .proposals → f ≠ .execution → s'.spendingProposal = s.spendingProposal
  totalSpent : f ≠ .execution → s'.totalSpent = s.totalSpent
  budgetAllocation : f ≠ .execution → f ≠ .credit → s'.budgetAllocation = s.budgetAllocation
  totalAllocated : f ≠ .credit → s'.totalAllocated = s.totalAllocated
  allocationProposal : f ≠ .ballots → f ≠ .credit → s'.allocationProposal = s.allocationProposal
  allocationVote : f ≠ .ballots → s'.allocationVote = s.allocationVote

section Frame

variable {m : Mode} {env : Env} {s s' : State} {c : Call}

theorem execute_frame (h : (execute env s c).run m = some s') : Frame c.facility s s' := by
  cases c with
  | executeProposal =>
    obtain ⟨-, _, _, -, -, -, -, -, -, -, -, rfl⟩ := executeProposal_spec h
    constructor <;> intros <;> first | rfl | exact absurd rfl ‹_›
  | _ =>
    -- chains of checks and additions, and a transfer
    revert s' h
    show Ensures m _ _
    try refine .map (f := Prod.snd) ?_
    repeat' first
      | refine Ensures.seq (α := State) ?_
      | refine Ensures.bind fun _ _ => ?_
      | refine Ensures.ite (fun _ => ?_) fun _ => ?_
      | refine Ensures.pure ?_
    all_goals constructor <;> intros <;> first | rfl | exact absurd rfl ‹_›

end Frame

/-! ## The life of a spending proposal -/

/-- The call creates a spending proposal under an id. -/
def Creates (proposalId : U64) (s : State) : Call → Prop
  | .createSpendingProposal .. => u64.wrap (s.spendingProposalCounter + 1) = proposalId
  | _ => False

def Call.executes (proposalId : U64) : Call → Bool
  | .executeProposal _ id => decide (id = proposalId)
  | _ => false

def Call.cancels (proposalId : U64) : Call → Bool
  | .cancelProposal _ id => decide (id = proposalId)
  | _ => false

/-- What a call makes of a proposal: its terms stay, it can be executed while it is active and cancelled while it is
not executed. -/
structure SpendingProposal.Becomes (c : Call) (proposalId : U64) (proposal proposal' : SpendingProposal) : Prop where
  recipient : proposal'.recipient = proposal.recipient
  amount : proposal'.amount = proposal.amount
  createdAt : proposal'.createdAt = proposal.createdAt
  executeAfter : proposal'.executeAfter = proposal.executeAfter
  executed : proposal'.executed = (proposal.executed || c.executes proposalId)
  cancelled : proposal'.cancelled = (proposal.cancelled || c.cancels proposalId)

section Proposals

variable {m : Mode} {env : Env} {s s' : State} {c : Call} {proposalId id : U64} {p : SpendingProposal}

/-- A rewritten proposal, seen under any id. -/
theorem becomes_of_set {proposal proposal' p : SpendingProposal} {proposals : Table U64 SpendingProposal}
    (hget : proposals.get id = some proposal) (hp : (proposals.set id proposal').get proposalId = some p)
    (hbecomes : proposal.Becomes c id proposal')
    (hother : id ≠ proposalId → c.executes proposalId = false ∧ c.cancels proposalId = false) :
    ∃ p₀, proposals.get proposalId = some p₀ ∧ p₀.Becomes c proposalId p := by
  rw [Table.get_set] at hp
  split at hp
  · rename_i hid
    cases hp
    subst hid
    exact ⟨proposal, hget, hbecomes⟩
  · rename_i hid
    obtain ⟨hexecutes, hcancels⟩ := hother (Ne.symm hid)
    exact ⟨p, hp, rfl, rfl, rfl, rfl, by rw [hexecutes, Bool.or_false], by rw [hcancels, Bool.or_false]⟩

/-- A stored proposal was stored before, unless the call created it. -/
theorem execute_becomes (hc : ¬ Creates proposalId s c) (h : (execute env s c).run m = some s')
    (hp : s'.spendingProposal.get proposalId = some p) :
    ∃ p₀, s.spendingProposal.get proposalId = some p₀ ∧ p₀.Becomes c proposalId p := by
  cases c with
  | createSpendingProposal =>
    obtain ⟨_, h⟩ := run_snd_map h
    obtain ⟨-, -, rfl, rfl⟩ := createSpendingProposal_spec h
    rw [Table.get_set_of_ne _ _ (Ne.symm hc)] at hp
    exact ⟨p, hp, rfl, rfl, rfl, rfl, (Bool.or_false _).symm, (Bool.or_false _).symm⟩
  | approveProposal =>
    obtain ⟨-, proposal, hget, -, -, rfl⟩ := approveProposal_spec h
    exact becomes_of_set hget hp ⟨rfl, rfl, rfl, rfl, (Bool.or_false _).symm, (Bool.or_false _).symm⟩
      fun _ => ⟨rfl, rfl⟩
  | revokeApproval =>
    obtain ⟨-, proposal, hget, -, -, rfl⟩ := revokeApproval_spec h
    exact becomes_of_set hget hp ⟨rfl, rfl, rfl, rfl, (Bool.or_false _).symm, (Bool.or_false _).symm⟩
      fun _ => ⟨rfl, rfl⟩
  | executeProposal _ id =>
    obtain ⟨-, _, _, hget, -, -, -, -, -, -, -, rfl⟩ := executeProposal_spec h
    refine becomes_of_set hget hp ⟨rfl, rfl, rfl, rfl, ?_, (Bool.or_false _).symm⟩ fun hid => ⟨?_, rfl⟩
    · simp [Call.executes]
    · simp [Call.executes, hid]
  | cancelProposal _ id =>
    obtain ⟨-, _, hget, -, -, rfl⟩ := cancelProposal_spec h
    refine becomes_of_set hget hp ⟨rfl, rfl, rfl, rfl, (Bool.or_false _).symm, ?_⟩ fun hid => ⟨rfl, ?_⟩
    · simp [Call.cancels]
    · simp [Call.cancels, hid]
  | _ =>
    have hkeeps := (execute_frame h).spendingProposal (by rintro ⟨⟩) (by rintro ⟨⟩)
    rw [hkeeps] at hp
    exact ⟨p, hp, rfl, rfl, rfl, rfl, (Bool.or_false _).symm, (Bool.or_false _).symm⟩

/-- A proposal that a call has created is active and about a positive amount. -/
theorem execute_creates (hc : Creates proposalId s c) (h : (execute env s c).run m = some s')
    (hp : s'.spendingProposal.get proposalId = some p) : 0 < (p.amount : ℤ) ∧ p.Active := by
  cases c with
  | createSpendingProposal =>
    obtain ⟨_, h⟩ := run_snd_map h
    obtain ⟨-, hpos, hid, rfl⟩ := createSpendingProposal_spec h
    cases hid.trans hc
    rw [Table.get_set_self] at hp
    cases hp
    exact ⟨hpos, rfl, rfl⟩
  | _ => cases hc

theorem reach_positive {ok : Rule} {e : Env} (h : (contract m).Reach ok e s) :
    s.spendingProposal.All fun _ p => 0 < (p.amount : ℤ) := by
  refine h.invariant (P := fun _ s => s.spendingProposal.All fun _ p => 0 < (p.amount : ℤ)) ?_ ?_
  · intro e s hinit
    obtain ⟨_, _, _, _, _, _, _, -, rfl⟩ := contract_init hinit
    exact .empty
  · intro e e' s c s' hs _ hstep id p hp
    by_cases hc : Creates id s c
    · exact (execute_creates hc hstep hp).1
    · obtain ⟨p₀, hp₀, hbecomes⟩ := execute_becomes hc hstep hp
      rw [hbecomes.amount]
      exact hs id p₀ hp₀

/-- Every stored proposal goes back to the call that created it. -/
theorem tallySince_creation {ok : Rule} {e : Env} {A : Type} [AddMonoid A] (q : Env → State → Call → A)
    (h : (contract m).Reach ok e s) (hp : s.spendingProposal.get proposalId = some p) :
    ∃ n, (contract m).TallySince ok (Creates proposalId) q n e s := by
  refine h.tallySince (P := fun s => ∃ p, s.spendingProposal.get proposalId = some p) q ?_ ?_ ⟨p, hp⟩
  · intro e s hinit
    obtain ⟨_, _, _, _, _, _, _, -, rfl⟩ := contract_init hinit
    rintro ⟨_, hnone⟩
    cases hnone
  · rintro e e' s c s' - - hc hstep ⟨p, hp⟩
    obtain ⟨_, hp₀, -⟩ := execute_becomes hc hstep hp
    exact ⟨_, hp₀⟩

end Proposals

/-! ## A small deployment

Three signers of whom two must agree, a time lock of 100 seconds, and tokens that accept what the sender can pay. -/

namespace Sample

export Host.Accounts (admin alice bob carol)
export TransitionSystem.Deployment (reach_after)

def token : Address := ⟨5⟩
def vendor : Address := ⟨6⟩

/-- A transaction at a time, signed by everyone. -/
def signedAt (time : Int) : Env where
  toEnv := .signed [admin, alice, bob, carol] 0 time
  accepts := Holdings.payable

def signed (time : Int) (c : Call) : Env × Call := (signedAt time, c)

/-- The contract after `initialize`, with or without a token for payments. -/
def deployed (tokenAddress : Option Address) : State :=
  { tokens := Holdings.endowed
    admin := some admin
    token := some token
    tokenAddress
    signers := [alice, bob, carol]
    threshold := u32.wrap 2
    timeLockDuration := u64.wrap 100 }

def deployment (m : Mode) (tokenAddress : Option Address) : (contract m).Deployment where
  env := signedAt 0
  state := deployed tokenAddress
  starts := ⟨Holdings.endowed, admin, token, [alice, bob, carol], 2, 100, tokenAddress, fun _ => rfl, by
    cases m <;> cases tokenAddress <;> rfl⟩

/-- Alice pays 1000 in, a budget of 500 is voted, and a payment of 300 is proposed and approved. -/
def proposed : List (Env × Call) :=
  [signed 10 (.deposit alice 1000),
    signed 10 (.proposeBudgetAllocation alice "ops" 500),
    signed 10 (.voteBudgetAllocation bob 1 true),
    signed 10 (.finalizeBudgetAllocation carol 1),
    signed 10 (.createSpendingProposal alice vendor 300 "ops" "hosting"),
    signed 10 (.approveProposal bob 1)]

end Sample

end ArenaX.Treasury
