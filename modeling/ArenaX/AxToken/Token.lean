/-
Where tokens are and how they move: minting and burning, transfers, vesting, lockups, the revenue pool and its
buyback.
-/
import ArenaX.AxToken.Voting

namespace ArenaX.AxToken

open Machine Exec FlashLoanGuard
open Host (Address)

def initializeContract (s : State) (admin : Address) : Result State := do
  reject (s.admin ≠ none) "already initialized"
  pure { s with
    admin := some admin
    token.totalSupply := 0
    token.totalLockedSupply := 0
    governance.proposalCounter := 0 }

section

variable (env : Env) (s : State)

def setAdmin (newAdmin : Address) : Result State := do
  requireAdmin env s
  pure { s with admin := some newAdmin }

/-! ## Supply and balances -/

/-- The supply after issuing an amount, if it is representable and within the cap. -/
def issueSupply (s : State) (amount : I128) : Result I128 := do
  let newSupply ← okOr (i128.checked (s.totalSupply + amount)) "supply overflow"
  reject ((s.getSupplyCap : Int) > 0 ∧ (newSupply : Int) > s.getSupplyCap) "supply cap exceeded"
  pure newSupply

/-- A balance after a checked credit. -/
def creditChecked (balance : Table Address I128) (recipient : Address) (amount : I128) :
    Result (Table Address I128) := do
  let newBalance ← okOr (i128.checked (Machine.balance balance recipient + amount)) "balance overflow"
  pure (balance.set recipient newBalance)

def mint (recipient : Address) (amount : I128) : Result State := do
  requireAdmin env s
  reject ((amount : Int) ≤ 0) "amount must be positive"
  let newSupply ← issueSupply s amount
  let balance ← creditChecked s.token.balance recipient amount
  let voting ← s.voting.checkpointAdd env (s.voting.votingPowerHolder recipient) amount
  pure { s with token.balance := balance, token.totalSupply := newSupply, voting := voting }

/-- Add one entry of a batch to the merged deltas and to the batch total. -/
def mergeEntry (merged : Table Address I128 × I128) (entry : Address × I128) : Result (Table Address I128 × I128) := do
  reject ((entry.2 : Int) ≤ 0) "amount must be positive"
  let total ← okOr (i128.checked (merged.2 + entry.2)) "batch total overflow"
  let delta ← okOr (i128.checked (balance merged.1 entry.1 + entry.2)) "batch total overflow"
  pure (merged.1.set entry.1 delta, total)

/-- Mint to many recipients, repeated ones merged first: each has one balance write. -/
def batchMint (recipients : List Address) (amounts : List I128) : Result State := do
  requireAdmin env s
  reject (recipients.length ≠ amounts.length) "recipients and amounts length mismatch"
  reject (recipients = []) "batch must not be empty"
  let merged ← (recipients.zip amounts).foldlM mergeEntry (∅, 0)
  let newSupply ← issueSupply s merged.2
  -- the merged deltas have one key for each distinct recipient
  let balance ← recipients.dedup.foldlM
    (fun b recipient => creditChecked b recipient (balance merged.1 recipient)) s.token.balance
  pure { s with token.balance := balance, token.totalSupply := newSupply }

def burn (owner : Address) (amount : I128) : Result State := do
  requireAdmin env s
  reject ((amount : Int) ≤ 0) "amount must be positive"
  let guard := checkAndSetSequence env s owner
  reject (guard.1 = true) "flash loan detected: same-sequence burn"
  let s := guard.2
  reject ((s.balance owner : Int) < amount) "insufficient balance"
  let newBalance ← unchecked i128 (s.balance owner - amount)
  let newSupply ← unchecked i128 (s.totalSupply - amount)
  let voting ← s.voting.checkpointAdd env (s.voting.votingPowerHolder owner) (-amount)
  pure { s with
    token.balance := s.token.balance.set owner newBalance
    token.totalSupply := newSupply
    voting := voting }

def transfer (sender recipient : Address) (amount : I128) : Result State := do
  env.requireAuth sender
  reject (s.isPaused env = true) "contract is paused"
  reject ((amount : Int) ≤ 0) "amount must be positive"
  reject (sender = recipient) "cannot transfer to self"
  let guard := checkAndSetSequence env s sender
  reject (guard.1 = true) "flash loan detected: same-sequence transfer"
  let s := guard.2
  reject ((s.balance sender : Int) < amount) "insufficient balance"
  let newSenderBalance ← unchecked i128 (s.balance sender - amount)
  let debited := s.token.balance.set sender newSenderBalance
  let newToBalance ← unchecked i128 (balance debited recipient + amount)
  let taken ← s.voting.checkpointAdd env (s.voting.votingPowerHolder sender) (-amount)
  let voting ← taken.checkpointAdd env (taken.votingPowerHolder recipient) amount
  pure { s with token.balance := debited.set recipient newToBalance, voting := voting }

/-! ## Vesting -/

def storeVestingSchedule (vesting : Table Address VestingSchedule) (beneficiary : Address) (totalAmount : I128)
    (startTime cliffDuration duration : U64) : Result (Table Address VestingSchedule) := do
  reject ((totalAmount : Int) ≤ 0) "amount must be positive"
  reject ((duration : Int) = 0) "duration must be positive"
  pure (vesting.set beneficiary ⟨beneficiary, startTime, cliffDuration, duration, totalAmount, 0, false⟩)

def createVestingSchedule (beneficiary : Address) (totalAmount : I128)
    (startTime cliffDuration duration : U64) : Result State := do
  requireAdmin env s
  let vesting ← storeVestingSchedule s.vesting beneficiary totalAmount startTime cliffDuration duration
  pure { s with vesting := vesting }

def createVestingSchedulesBatch (beneficiaries : List Address) (amounts : List I128)
    (startTime cliffDuration duration : U64) : Result State := do
  requireAdmin env s
  reject (beneficiaries.length ≠ amounts.length) "beneficiaries and amounts length mismatch"
  reject (beneficiaries = []) "empty batch"
  let vesting ← (beneficiaries.zip amounts).foldlM
    (fun vesting entry => storeVestingSchedule vesting entry.1 entry.2 startTime cliffDuration duration) s.vesting
  pure { s with vesting := vesting }

end

namespace VestingSchedule

variable (schedule : VestingSchedule)

/-- The end of the cliff; the sum of the two `u64` wraps around. -/
def cliffEnd : U64 := u64.wrap (schedule.startTime + schedule.cliffDuration)

/-- Nothing before the cliff, everything after the duration, and linear in between. -/
def vestedAmount (env : Env) : Result I128 :=
  if (env.timestamp : Int) < schedule.cliffEnd then pure 0
  else
    let elapsed := u64.saturate (env.timestamp - schedule.startTime)
    if (schedule.duration : Int) ≤ elapsed then pure schedule.totalAmount
    else do
      let product ← unchecked i128 (schedule.totalAmount * elapsed)
      quot i128 product schedule.duration

/-- What is vested and has not been claimed. -/
def claimable (env : Env) : Result I128 := do
  let vested ← schedule.vestedAmount env
  unchecked i128 (vested - schedule.amountClaimed)

end VestingSchedule

section

variable (env : Env) (s : State)

/-- Revoke a schedule: what is vested now stays claimable, and the remainder is forfeited. -/
def revokeVestingSchedule (beneficiary : Address) : Result (I128 × State) := do
  requireAdmin env s
  let schedule ← okOr (s.vesting.get beneficiary) "no vesting schedule found"
  reject (schedule.revoked = true) "vesting schedule already revoked"
  let vested ← schedule.vestedAmount env
  let forfeited ← unchecked i128 (schedule.totalAmount - vested)
  let elapsedAtRevoke := u64.saturate (env.timestamp - schedule.startTime)
  let schedule := { schedule with totalAmount := vested, duration := elapsedAtRevoke, revoked := true }
  pure (forfeited, { s with vesting := s.vesting.set beneficiary schedule })

/-- Pay out what is vested. The tokens are issued here, not when the schedule is created. -/
def claimVestedTokens (beneficiary : Address) : Result (I128 × State) := do
  env.requireAuth beneficiary
  let schedule ← okOr (s.vesting.get beneficiary) "no vesting schedule found"
  reject ((env.timestamp : Int) < schedule.cliffEnd) "cliff period not met"
  let claimable ← schedule.claimable env
  reject ((claimable : Int) ≤ 0) "no vested tokens to claim"
  let amountClaimed ← unchecked i128 (schedule.amountClaimed + claimable)
  let newBalance ← unchecked i128 (s.balance beneficiary + claimable)
  let newSupply ← unchecked i128 (s.totalSupply + claimable)
  pure (claimable, { s with
    token.balance := s.token.balance.set beneficiary newBalance
    token.totalSupply := newSupply
    vesting := s.vesting.set beneficiary { schedule with amountClaimed := amountClaimed } })

/-! ## Lockups -/

def lockTokens (owner : Address) (amount : I128) (unlockTime : U64) : Result State := do
  env.requireAuth owner
  reject ((amount : Int) ≤ 0) "amount must be positive"
  reject ((unlockTime : Int) ≤ env.timestamp) "unlock time must be in future"
  reject ((s.balance owner : Int) < amount) "insufficient balance"
  let newBalance ← unchecked i128 (s.balance owner - amount)
  let totalLocked ← unchecked i128 (s.token.totalLockedSupply + amount)
  pure { s with
    token.balance := s.token.balance.set owner newBalance
    token.lockups := s.token.lockups.set owner (s.getLockups owner ++ [⟨amount, unlockTime⟩])
    token.totalLockedSupply := totalLocked }

/-- Sort one lockup into those still active, or add it to the amount unlocked. -/
def unlockStep (now : U64) (acc : List LockupRecord × I128) (lock : LockupRecord) :
    Result (List LockupRecord × I128) :=
  if (lock.unlockTime : Int) ≤ now then do
    let unlocked ← unchecked i128 (acc.2 + lock.amount)
    pure (acc.1, unlocked)
  else pure (acc.1 ++ [lock], acc.2)

def unlockTokens (owner : Address) : Result (I128 × State) := do
  env.requireAuth owner
  let lockups ← okOr (s.token.lockups.get owner) "no lockups found"
  let result ← lockups.foldlM (unlockStep env.timestamp) ([], 0)
  reject ((result.2 : Int) = 0) "no tokens ready to unlock"
  let newBalance ← unchecked i128 (s.balance owner + result.2)
  let totalLocked ← unchecked i128 (s.token.totalLockedSupply - result.2)
  pure (result.2, { s with
    token.balance := s.token.balance.set owner newBalance
    token.lockups := s.token.lockups.set owner result.1
    token.totalLockedSupply := totalLocked })

/-! ## Buyback and burn -/

def depositRevenue (sender : Address) (amount : I128) : Result State := do
  env.requireAuth sender
  reject ((amount : Int) ≤ 0) "amount must be positive"
  reject ((s.balance sender : Int) < amount) "insufficient balance"
  let newBalance ← unchecked i128 (s.balance sender - amount)
  let pool ← unchecked i128 (s.token.revenuePool + amount)
  pure { s with token.balance := s.token.balance.set sender newBalance, token.revenuePool := pool }

def configureBuyback (amount : I128) (interval : U64) : Result State := do
  requireAdmin env s
  reject ((amount : Int) ≤ 0 ∨ (interval : Int) = 0) "invalid configuration"
  pure { s with buyback.schedule := some ⟨amount, interval, u64.wrap (env.timestamp + interval)⟩ }

def executeBuybackAndBurn : Result (I128 × State) := do
  let schedule ← okOr s.buyback.schedule "no schedule configured"
  reject ((env.timestamp : Int) < schedule.nextBurnTime) "too early for next burn"
  let pool := s.token.revenuePool
  let amount := if (pool : Int) < schedule.burnAmountPerInterval then pool else schedule.burnAmountPerInterval
  reject ((amount : Int) ≤ 0) "no revenue to burn"
  let newPool ← unchecked i128 (pool - amount)
  let newSupply ← unchecked i128 (s.totalSupply - amount)
  let totalBurned ← unchecked i128 (s.buyback.totalBurned + amount)
  pure (amount, { s with
    token.revenuePool := newPool
    token.totalSupply := newSupply
    buyback :=
      { schedule := some { schedule with nextBurnTime := u64.wrap (env.timestamp + schedule.intervalSeconds) }
        totalBurned := totalBurned
        metrics := some ⟨totalBurned, env.timestamp, amount⟩ } })

end

/-! ## What the operations do -/

section Specs

variable {m : Mode} {env : Env} {s s' : State} {a b : Address} {x : I128}

@[simp] theorem run_issueSupply (m : Mode) (s : State) (x supply : I128) : (issueSupply s x).run m = some supply ↔
    (supply : ℤ) = s.totalSupply + x ∧ (0 < (s.getSupplyCap : ℤ) → (supply : ℤ) ≤ s.getSupplyCap) := by
  simp only [issueSupply, run_iff, checked_eq_some, gt_iff_lt, not_and, not_lt]
  constructor
  · rintro ⟨_, hsupply, -, hcap, rfl⟩
    exact ⟨hsupply, hcap⟩
  · rintro ⟨hsupply, hcap⟩
    exact ⟨supply, hsupply, (), hcap, rfl⟩

@[simp] theorem run_creditChecked (m : Mode) (t t' : Table Address I128) (a : Address) (x : I128) :
    (creditChecked t a x).run m = some t' ↔ ∃ y : I128, (y : ℤ) = balance t a + x ∧ t.set a y = t' := by
  simp only [creditChecked, run_iff, checked_eq_some]

theorem mint_spec (h : (mint env s a x).run m = some s') :
    env.AdminSigned s.admin ∧ 0 < (x : ℤ) ∧ ∃ supply bal : I128, (supply : ℤ) = s.totalSupply + x ∧
      (0 < (s.getSupplyCap : ℤ) → (supply : ℤ) ≤ s.getSupplyCap) ∧ (bal : ℤ) = s.balance a + x ∧
      s' = { s with
        token.balance := s.token.balance.set a bal
        token.totalSupply := supply
        voting := s.voting.shift env (s.voting.votingPowerHolder a, x) } := by
  simp only [mint, run_iff, run_requireAdmin, run_issueSupply, run_creditChecked, not_le] at h
  obtain ⟨-, hadmin, -, hx, _, ⟨hsupply, hcap⟩, _, ⟨_, hbal, rfl⟩, v, hv, rfl⟩ := h
  cases checkpointAdd_spec hv
  exact ⟨hadmin, hx, _, _, hsupply, hcap, hbal, rfl⟩

theorem burn_spec (h : (burn env s a x).run m = some s') :
    0 < (x : ℤ) ∧ (x : ℤ) ≤ s.balance a ∧ s' = { recordOperation env s a with
      token.balance := s.token.balance.set a (i128.wrap (s.balance a - x))
      token.totalSupply := i128.wrap (s.totalSupply - x)
      voting := s.voting.shift env (s.voting.votingPowerHolder a, -x) } := by
  simp only [burn, run_iff, run_unchecked, not_le, not_lt] at h
  obtain ⟨-, -, -, hx, -, hguard, h⟩ := h
  rw [(checkAndSetSequence_spec hguard).2] at h
  obtain ⟨-, hle, _, ⟨rfl, -⟩, _, ⟨rfl, -⟩, v, hv, rfl⟩ := h
  cases checkpointAdd_spec hv
  exact ⟨hx, hle, rfl⟩

theorem transfer_spec (h : (transfer env s a b x).run m = some s') :
    0 < (x : ℤ) ∧ a ≠ b ∧ (x : ℤ) ≤ s.balance a ∧ s' = { recordOperation env s a with
      token.balance := (s.token.balance.set a (i128.wrap (s.balance a - x))).set b (i128.wrap (s.balance b + x))
      voting := [(s.voting.votingPowerHolder a, -(x : ℤ)), (s.voting.votingPowerHolder b, x)].foldl
        (VotingStore.shift env) s.voting } := by
  simp only [transfer, run_iff, run_unchecked, not_le, not_lt] at h
  obtain ⟨-, -, -, -, -, hx, -, hne, -, hguard, h⟩ := h
  rw [(checkAndSetSequence_spec hguard).2] at h
  obtain ⟨-, hle, _, ⟨rfl, -⟩, _, ⟨rfl, -⟩, taken, htaken, v, hv, rfl⟩ := h
  cases checkpointAdd_spec htaken
  cases checkpointAdd_spec hv
  refine ⟨hx, hne, hle, ?_⟩
  rw [balance_set, if_neg (Ne.symm hne)]
  rfl

theorem claimVestedTokens_spec (h : (claimVestedTokens env s a).run m = some (x, s')) :
    ∃ schedule, s.vesting.get a = some schedule ∧ (schedule.claimable env).run m = some x ∧ 0 < (x : ℤ) ∧
      (m = .exact → i128.Fits (s.totalSupply + x)) ∧ s' = { s with
        token.balance := s.token.balance.set a (i128.wrap (s.balance a + x))
        token.totalSupply := i128.wrap (s.totalSupply + x)
        vesting := s.vesting.set a { schedule with amountClaimed := i128.wrap (schedule.amountClaimed + x) } } := by
  simp only [claimVestedTokens, run_iff, run_unchecked, Prod.mk.injEq, not_le] at h
  obtain ⟨-, -, _, hschedule, -, -, y, hy, -, hpos, _, ⟨rfl, -⟩, _, ⟨rfl, -⟩, _, ⟨rfl, hfits⟩, rfl, rfl⟩ := h
  exact ⟨_, hschedule, hy, hpos, hfits, rfl⟩

theorem lockTokens_spec {unlockTime : U64} (h : (lockTokens env s a x unlockTime).run m = some s') :
    0 < (x : ℤ) ∧ (x : ℤ) ≤ s.balance a ∧ s' = { s with
      token.balance := s.token.balance.set a (i128.wrap (s.balance a - x))
      token.lockups := s.token.lockups.set a (s.getLockups a ++ [⟨x, unlockTime⟩])
      token.totalLockedSupply := i128.wrap (s.token.totalLockedSupply + x) } := by
  simp only [lockTokens, run_iff, run_unchecked, not_le, not_lt] at h
  obtain ⟨-, -, -, hx, -, -, -, hle, _, ⟨rfl, -⟩, _, ⟨rfl, -⟩, rfl⟩ := h
  exact ⟨hx, hle, rfl⟩

/-- The loop over the lockups keeps those that are not ready and adds up those that are. -/
theorem unlockLoop_spec {now : U64} : ∀ {lockups : List LockupRecord} {acc r : List LockupRecord × I128},
    (lockups.foldlM (unlockStep now) acc).run m = some r →
      r.1 = acc.1 ++ lockups.filter (fun lock => (now : ℤ) < lock.unlockTime) ∧
      r.2 = i128.wrap (acc.2 + lockedSum (lockups.filter fun lock => (lock.unlockTime : ℤ) ≤ now))
  | [], acc, r, h => by
    rw [List.foldlM_nil, run_pure] at h
    cases h
    simp [lockedSum]
  | lock :: lockups, acc, r, h => by
    rw [List.foldlM_cons, run_bind] at h
    obtain ⟨acc', hstep, h⟩ := Option.bind_eq_some_iff.1 h
    obtain ⟨h₁, h₂⟩ := unlockLoop_spec h
    rw [h₁, h₂]
    unfold unlockStep at hstep
    by_cases hready : (lock.unlockTime : ℤ) ≤ now
    · simp only [if_pos hready, run_iff, run_unchecked] at hstep
      obtain ⟨_, ⟨rfl, -⟩, rfl⟩ := hstep
      rw [List.filter_cons_of_neg (by simpa using hready), List.filter_cons_of_pos (by simpa using hready),
        wrap_wrap_add, add_assoc]
      exact ⟨rfl, rfl⟩
    · rw [if_neg hready, run_pure_iff] at hstep
      subst hstep
      rw [List.filter_cons_of_pos (by simpa using hready), List.filter_cons_of_neg (by simpa using hready)]
      exact ⟨by simp, rfl⟩

theorem unlockTokens_spec (h : (unlockTokens env s a).run m = some (x, s')) :
    ∃ lockups, s.token.lockups.get a = some lockups ∧
      x = i128.wrap (lockedSum (lockups.filter fun lock => (lock.unlockTime : ℤ) ≤ env.timestamp)) ∧
      s' = { s with
        token.balance := s.token.balance.set a (i128.wrap (s.balance a + x))
        token.lockups := s.token.lockups.set a
          (lockups.filter fun lock => (env.timestamp : ℤ) < lock.unlockTime)
        token.totalLockedSupply := i128.wrap (s.token.totalLockedSupply - x) } := by
  simp only [unlockTokens, run_iff, run_unchecked, Prod.mk.injEq] at h
  obtain ⟨-, -, _, hlockups, ⟨active, unlocked⟩, hloop, -, -, _, ⟨rfl, -⟩, _, ⟨rfl, -⟩, rfl, rfl⟩ := h
  obtain ⟨hactive, hunlocked⟩ := unlockLoop_spec hloop
  refine ⟨_, hlockups, by simpa using hunlocked, ?_⟩
  simp only [List.nil_append] at hactive
  rw [hactive]

theorem depositRevenue_spec (h : (depositRevenue env s a x).run m = some s') :
    0 < (x : ℤ) ∧ (x : ℤ) ≤ s.balance a ∧ s' = { s with
      token.balance := s.token.balance.set a (i128.wrap (s.balance a - x))
      token.revenuePool := i128.wrap (s.token.revenuePool + x) } := by
  simp only [depositRevenue, run_iff, run_unchecked, not_le, not_lt] at h
  obtain ⟨-, -, -, hx, -, hle, _, ⟨rfl, -⟩, _, ⟨rfl, -⟩, rfl⟩ := h
  exact ⟨hx, hle, rfl⟩

theorem executeBuybackAndBurn_spec (h : (executeBuybackAndBurn env s).run m = some (x, s')) :
    0 < (x : ℤ) ∧ (x : ℤ) ≤ s.token.revenuePool ∧ ∃ buyback, s' = { s with
      token.revenuePool := i128.wrap (s.token.revenuePool - x)
      token.totalSupply := i128.wrap (s.totalSupply - x)
      buyback := buyback } := by
  simp only [executeBuybackAndBurn, run_iff, run_unchecked, Prod.mk.injEq, not_le] at h
  obtain ⟨schedule, -, -, -, -, hpos, _, ⟨rfl, -⟩, _, ⟨rfl, -⟩, _, ⟨rfl, -⟩, rfl, rfl⟩ := h
  refine ⟨hpos, ?_, _, rfl⟩
  split <;> omega

end Specs

end ArenaX.AxToken
