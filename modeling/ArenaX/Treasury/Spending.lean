/-
Setting up and funding the treasury, its signers, and spending proposals: a signer proposes a payment, others approve
it or revoke their approval, and once enough have approved and the time lock has passed it is executed, unless it was
cancelled.
-/
import ArenaX.Treasury.Storage

namespace ArenaX.Treasury

open Machine Exec
open Host (Address Holdings)

def initializeContract (s : State) (admin token : Address) (signers : List Address) (threshold : U32)
    (timeLockDuration : U64) (tokenAddress : Option Address) : Result State := do
  reject (s.admin.isSome = true) "already initialized"
  reject (signers = []) "at least one signer required"
  reject ((threshold : Int) = 0 ∨ (threshold : Int) > signers.length) "invalid threshold"
  pure { s with
    admin := some admin
    token := some token
    signers := signers
    threshold := threshold
    timeLockDuration := timeLockDuration
    balance := 0
    spendingProposalCounter := 0
    allocationProposalCounter := 0
    totalAllocated := 0
    totalSpent := 0
    paused := false
    tokenAddress := tokenAddress.or s.tokenAddress }

section

variable (env : Env) (s : State)

def setTokenAddress (caller tokenAddress : Address) : Result State := do
  requireAdmin env s caller
  pure { s with tokenAddress := some tokenAddress }

/-- The transfer comes first, so a refused one leaves the books as they were. -/
def deposit (sender : Address) (amount : I128) : Result State := do
  requireNotPaused s
  env.requireAuth sender
  requirePositive amount
  let token ← s.getToken
  let s ← transfer env s token sender env.currentContract amount
  let balance ← unchecked i128 (s.balance + amount)
  pure { s with balance := balance }

def setPaused (caller : Address) (paused : Bool) : Result State := do
  requireAdmin env s caller
  pure { s with paused := paused }

/-! ## Signers -/

def addSigner (caller newSigner : Address) : Result State := do
  requireNotPaused s
  requireAdmin env s caller
  reject (newSigner ∈ s.signers) "already a signer"
  pure { s with signers := s.signers ++ [newSigner] }

def removeSigner (caller signer : Address) : Result State := do
  requireNotPaused s
  requireAdmin env s caller
  let remaining := s.signers.filter (· ≠ signer)
  reject (signer ∉ s.signers) "not a signer"
  reject ((remaining.length : Int) < s.threshold) "cannot drop signer count below threshold"
  pure { s with signers := remaining }

def updateThreshold (caller : Address) (newThreshold : U32) : Result State := do
  requireNotPaused s
  requireAdmin env s caller
  reject ((newThreshold : Int) = 0 ∨ (newThreshold : Int) > s.signers.length) "invalid threshold"
  pure { s with threshold := newThreshold }

/-! ## Spending proposals -/

/-- The proposer approves the new proposal. -/
def createSpendingProposal (proposer recipient : Address) (amount : I128) (category : Symbol)
    (description : String) : Result (U64 × State) := do
  requireNotPaused s
  requireSigner env s proposer
  requirePositive amount
  let counter := u64.wrap (s.spendingProposalCounter + 1)
  let proposal : SpendingProposal := ⟨counter, proposer, recipient, amount, category, description, [proposer],
    env.timestamp, u64.wrap (env.timestamp + s.timeLockDuration), false, false⟩
  pure (counter, { s with
    spendingProposal := s.spendingProposal.set counter proposal
    spendingProposalCounter := counter })

def approveProposal (signer : Address) (proposalId : U64) : Result State := do
  requireNotPaused s
  requireSigner env s signer
  let proposal ← okOr (s.getSpendingProposal proposalId) "proposal not found"
  reject (proposal.executed = true ∨ proposal.cancelled = true) "proposal not active"
  reject (signer ∈ proposal.approvals) "already approved"
  pure { s with
    spendingProposal := s.spendingProposal.set proposalId
      { proposal with approvals := proposal.approvals ++ [signer] } }

/-- Whoever has approved may revoke, also when no longer a signer. -/
def revokeApproval (signer : Address) (proposalId : U64) : Result State := do
  requireNotPaused s
  env.requireAuth signer
  let proposal ← okOr (s.getSpendingProposal proposalId) "proposal not found"
  reject (proposal.executed = true ∨ proposal.cancelled = true) "proposal not active"
  reject (signer ∉ proposal.approvals) "no approval to revoke"
  pure { s with
    spendingProposal := s.spendingProposal.set proposalId
      { proposal with approvals := proposal.approvals.filter (· ≠ signer) } }

/-- The approvals are counted; who of those that approved still is a signer is not asked. -/
def executeProposal (caller : Address) (proposalId : U64) : Result State := do
  requireNotPaused s
  requireSigner env s caller
  let proposal ← okOr (s.getSpendingProposal proposalId) "proposal not found"
  reject (proposal.executed = true) "already executed"
  reject (proposal.cancelled = true) "proposal cancelled"
  reject ((proposal.approvals.length : Int) < s.threshold) "insufficient approvals"
  reject ((env.timestamp : Int) < proposal.executeAfter) "time-lock not yet elapsed"
  reject ((s.balance : Int) < proposal.amount) "insufficient treasury balance"
  let allocation := s.getBudgetAllocation proposal.category
  let available ← unchecked i128 (allocation.allocated - allocation.spent)
  reject ((available : Int) < proposal.amount) "exceeds budget allocation for category"
  let balance ← unchecked i128 (s.balance - proposal.amount)
  let spent ← unchecked i128 (allocation.spent + proposal.amount)
  let totalSpent ← unchecked i128 (s.totalSpent + proposal.amount)
  let s := { s with
    balance := balance
    budgetAllocation := s.budgetAllocation.set proposal.category { allocation with spent := spent }
    totalSpent := totalSpent
    spendingProposal := s.spendingProposal.set proposalId { proposal with executed := true } }
  let s ← pay env s proposal.recipient proposal.amount
  pure { s with
    transactionLog := s.transactionLog ++
      [⟨proposalId, proposal.recipient, proposal.amount, proposal.category, env.timestamp, caller⟩] }

/-- A proposal is cancelled by its proposer or the admin. -/
def requireCanceller (caller proposer : Address) : Result Unit :=
  if caller = proposer then env.requireAuth caller else requireAdmin env s caller

def cancelProposal (caller : Address) (proposalId : U64) : Result State := do
  requireNotPaused s
  let proposal ← okOr (s.getSpendingProposal proposalId) "proposal not found"
  reject (proposal.executed = true) "already executed"
  requireCanceller env s caller proposal.proposer
  pure { s with
    spendingProposal := s.spendingProposal.set proposalId { proposal with cancelled := true } }

end

/-! ## What the operations do -/

section Specs

variable {m : Mode} {env : Env} {s s' : State} {caller signer : Address} {proposalId : U64} {amount : I128}

theorem initializeContract_spec {admin token : Address} {signers : List Address} {threshold : U32} {duration : U64}
    {tokenAddress : Option Address}
    (h : (initializeContract s admin token signers threshold duration tokenAddress).run m = some s') :
    0 < (threshold : ℤ) ∧ (threshold : ℤ) ≤ signers.length ∧ s' = { s with
      admin := some admin
      token := some token
      signers := signers
      threshold := threshold
      timeLockDuration := duration
      balance := 0
      spendingProposalCounter := 0
      allocationProposalCounter := 0
      totalAllocated := 0
      totalSpent := 0
      paused := false
      tokenAddress := tokenAddress.or s.tokenAddress } := by
  simp only [initializeContract, run_iff, not_or, not_lt] at h
  obtain ⟨-, -, -, -, -, ⟨hne, hle⟩, rfl⟩ := h
  exact ⟨lt_of_le_of_ne threshold.lo (Ne.symm hne), hle, rfl⟩

theorem deposit_spec (h : (deposit env s caller amount).run m = some s') :
    caller ∈ env.signers ∧ 0 < (amount : ℤ) ∧ ∃ token, s.token = some token ∧
      (m = .exact → i128.Fits (s.balance + amount)) ∧ s' = { s with
        tokens := s.tokens.move token caller env.currentContract amount
        balance := i128.wrap (s.balance + amount) } := by
  simp only [deposit, State.getToken, run_iff, run_requireNotPaused, run_requireAuth, run_requirePositive, run_transfer,
    run_unchecked] at h
  obtain ⟨-, -, -, hsigned, -, hpos, _, htoken, _, ⟨-, rfl⟩, _, ⟨rfl, hfits⟩, rfl⟩ := h
  exact ⟨hsigned, hpos, _, htoken, hfits, rfl⟩

theorem addSigner_spec (h : (addSigner env s caller signer).run m = some s') :
    AdminSigned env s caller ∧ signer ∉ s.signers ∧ s' = { s with signers := s.signers ++ [signer] } := by
  simp only [addSigner, run_iff, run_requireNotPaused, run_requireAdmin] at h
  obtain ⟨-, -, -, hadmin, -, hnew, rfl⟩ := h
  exact ⟨hadmin, hnew, rfl⟩

theorem removeSigner_spec (h : (removeSigner env s caller signer).run m = some s') :
    AdminSigned env s caller ∧ signer ∈ s.signers ∧
      (s.threshold : ℤ) ≤ (s.signers.filter (· ≠ signer)).length ∧
      s' = { s with signers := s.signers.filter (· ≠ signer) } := by
  simp only [removeSigner, run_iff, run_requireNotPaused, run_requireAdmin, not_not, not_lt] at h
  obtain ⟨-, -, -, hadmin, -, hmem, -, hle, rfl⟩ := h
  exact ⟨hadmin, hmem, hle, rfl⟩

theorem updateThreshold_spec {threshold : U32} (h : (updateThreshold env s caller threshold).run m = some s') :
    AdminSigned env s caller ∧ 0 < (threshold : ℤ) ∧ (threshold : ℤ) ≤ s.signers.length ∧
      s' = { s with threshold := threshold } := by
  simp only [updateThreshold, run_iff, run_requireNotPaused, run_requireAdmin, not_or, not_lt] at h
  obtain ⟨-, -, -, hadmin, -, ⟨hne, hle⟩, rfl⟩ := h
  exact ⟨hadmin, lt_of_le_of_ne threshold.lo (Ne.symm hne), hle, rfl⟩

theorem createSpendingProposal_spec {proposer recipient : Address} {category : Symbol} {description : String}
    (h : (createSpendingProposal env s proposer recipient amount category description).run m =
      some (proposalId, s')) :
    SignerSigned env s proposer ∧ 0 < (amount : ℤ) ∧ proposalId = u64.wrap (s.spendingProposalCounter + 1) ∧
      s' = { s with
        spendingProposal := s.spendingProposal.set proposalId ⟨proposalId, proposer, recipient, amount, category,
          description, [proposer], env.timestamp, u64.wrap (env.timestamp + s.timeLockDuration), false, false⟩
        spendingProposalCounter := proposalId } := by
  simp only [createSpendingProposal, run_iff, run_requireNotPaused, run_requireSigner, run_requirePositive,
    Prod.mk.injEq] at h
  obtain ⟨-, -, -, hsigner, -, hpos, rfl, rfl⟩ := h
  exact ⟨hsigner, hpos, rfl, rfl⟩

theorem approveProposal_spec (h : (approveProposal env s signer proposalId).run m = some s') :
    SignerSigned env s signer ∧ ∃ proposal, s.spendingProposal.get proposalId = some proposal ∧ proposal.Active ∧
      signer ∉ proposal.approvals ∧ s' = { s with
        spendingProposal := s.spendingProposal.set proposalId
          { proposal with approvals := proposal.approvals ++ [signer] } } := by
  simp only [approveProposal, State.getSpendingProposal, run_iff, run_requireNotPaused, run_requireSigner, not_or,
    Bool.not_eq_true] at h
  obtain ⟨-, -, -, hsigner, _, hget, -, hactive, -, hnew, rfl⟩ := h
  exact ⟨hsigner, _, hget, hactive, hnew, rfl⟩

theorem revokeApproval_spec (h : (revokeApproval env s signer proposalId).run m = some s') :
    signer ∈ env.signers ∧ ∃ proposal, s.spendingProposal.get proposalId = some proposal ∧ proposal.Active ∧
      signer ∈ proposal.approvals ∧ s' = { s with
        spendingProposal := s.spendingProposal.set proposalId
          { proposal with approvals := proposal.approvals.filter (· ≠ signer) } } := by
  simp only [revokeApproval, State.getSpendingProposal, run_iff, run_requireNotPaused, run_requireAuth, not_or, not_not,
    Bool.not_eq_true] at h
  obtain ⟨-, -, -, hsigned, _, hget, -, hactive, -, hmem, rfl⟩ := h
  exact ⟨hsigned, _, hget, hactive, hmem, rfl⟩

theorem executeProposal_spec (h : (executeProposal env s caller proposalId).run m = some s') :
    SignerSigned env s caller ∧ ∃ proposal allocation, s.spendingProposal.get proposalId = some proposal ∧
      allocation = s.getBudgetAllocation proposal.category ∧ proposal.Active ∧
      (s.threshold : ℤ) ≤ proposal.approvals.length ∧ (proposal.executeAfter : ℤ) ≤ env.timestamp ∧
      (proposal.amount : ℤ) ≤ s.balance ∧
      (proposal.amount : ℤ) ≤ i128.wrap (allocation.allocated - allocation.spent) ∧
      (m = .exact → i128.Fits (allocation.allocated - allocation.spent) ∧ i128.Fits (s.balance - proposal.amount) ∧
        i128.Fits (allocation.spent + proposal.amount) ∧ i128.Fits (s.totalSpent + proposal.amount)) ∧
      s' = { s with
        tokens := s.paid env proposal.recipient proposal.amount
        balance := i128.wrap (s.balance - proposal.amount)
        budgetAllocation := s.budgetAllocation.set proposal.category
          { allocation with spent := i128.wrap (allocation.spent + proposal.amount) }
        totalSpent := i128.wrap (s.totalSpent + proposal.amount)
        spendingProposal := s.spendingProposal.set proposalId { proposal with executed := true }
        transactionLog := s.transactionLog ++
          [⟨proposalId, proposal.recipient, proposal.amount, proposal.category, env.timestamp, caller⟩] } := by
  simp only [executeProposal, State.getSpendingProposal, run_iff, run_requireNotPaused, run_requireSigner,
    run_unchecked, not_lt, Bool.not_eq_true] at h
  obtain ⟨-, -, -, hsigner, _, hget, -, hexecuted, -, hcancelled, -, happrovals, -, htime, -, hbalance, _,
    ⟨rfl, havailable⟩, -, hbudget, _, ⟨rfl, hbalance'⟩, _, ⟨rfl, hspent⟩, _, ⟨rfl, htotal⟩, t, hpay, rfl⟩ := h
  cases pay_spec hpay
  exact ⟨hsigner, _, _, hget, rfl, ⟨hexecuted, hcancelled⟩, happrovals, htime, hbalance, hbudget,
    fun hm => ⟨havailable hm, hbalance' hm, hspent hm, htotal hm⟩, rfl⟩

theorem cancelProposal_spec (h : (cancelProposal env s caller proposalId).run m = some s') :
    caller ∈ env.signers ∧ ∃ proposal, s.spendingProposal.get proposalId = some proposal ∧
      proposal.executed = false ∧ (caller = proposal.proposer ∨ s.admin = some caller) ∧ s' = { s with
        spendingProposal := s.spendingProposal.set proposalId { proposal with cancelled := true } } := by
  simp only [cancelProposal, requireCanceller, State.getSpendingProposal, run_iff, run_requireNotPaused,
    Bool.not_eq_true] at h
  obtain ⟨-, -, proposal, hget, -, hexecuted, u, hcaller, rfl⟩ := h
  split at hcaller
  · rename_i hproposer
    exact ⟨(run_requireAuth ..).1 hcaller, proposal, hget, hexecuted, .inl hproposer, rfl⟩
  · obtain ⟨hadmin, hsigned⟩ := (run_requireAdmin ..).1 hcaller
    exact ⟨hsigned, proposal, hget, hexecuted, .inr hadmin, rfl⟩

end Specs

end ArenaX.Treasury
