/-
Where the tokens are. A token is in a balance, in a lockup or in the revenue pool, and the total supply is what
is in all of them: the books balance through every operation, in every order. Where vesting claims stay within
the supply cap, so does the supply.
-/
import ArenaX.AxToken.BatchMint

namespace ArenaX.AxToken

open Machine Exec Sample
open Host (Address)
open Finsupp (single degree_single)

variable {lockups : List LockupRecord}

/-- The books of the token: the supply is in balances, lockups and the pool, the cached total of the lockups is
right, and nothing is negative. -/
structure TokenStore.Funded (t : TokenStore) : Prop where
  supply : (t.totalSupply : ℤ) = (ledger t.balance).degree + t.totalLockedSupply + t.revenuePool
  locked : (t.totalLockedSupply : ℤ) = t.lockups.total lockedSum
  balances : 0 ≤ ledger t.balance
  lockups : t.lockups.All fun _ lockups => ∀ lock ∈ lockups, 0 ≤ (lock.amount : ℤ)
  pool : 0 ≤ (t.revenuePool : ℤ)

theorem lockedSum_nonneg (h : ∀ lock ∈ lockups, 0 ≤ (lock.amount : ℤ)) :
    0 ≤ lockedSum lockups := List.sum_nonneg (by simpa using h)

theorem lockedSum_append (l l' : List LockupRecord) : lockedSum (l ++ l') = lockedSum l + lockedSum l' := by
  simp [lockedSum]

/-- Every lockup is either ready or not. -/
theorem lockedSum_filter (now : U64) (lockups : List LockupRecord) :
    lockedSum (lockups.filter fun lock => (lock.unlockTime : ℤ) ≤ now) +
      lockedSum (lockups.filter fun lock => (now : ℤ) < lock.unlockTime) = lockedSum lockups := by
  induction lockups with
  | nil => rfl
  | cons lock lockups ih =>
    by_cases h : (lock.unlockTime : ℤ) ≤ now
    · rw [List.filter_cons_of_pos (by simpa using h), List.filter_cons_of_neg (by simpa using h)]
      simp only [lockedSum, List.map_cons, List.sum_cons] at ih ⊢
      omega
    · rw [List.filter_cons_of_neg (by simpa using h), List.filter_cons_of_pos (by simpa using h)]
      simp only [lockedSum, List.map_cons, List.sum_cons] at ih ⊢
      omega

namespace TokenStore.Funded

variable {t : TokenStore} {a b : Address} {x : ℤ}

theorem balances_nonneg (h : t.Funded) (a : Address) : 0 ≤ (Machine.balance t.balance a : ℤ) := h.balances a

theorem share_nonneg (h : t.Funded) (a : Address) : 0 ≤ Table.share lockedSum (t.lockups.get a) := by
  cases hget : t.lockups.get a with
  | none => exact le_rfl
  | some lockups => exact lockedSum_nonneg (h.lockups a lockups hget)

theorem share_le_locked (h : t.Funded) (a : Address) :
    Table.share lockedSum (t.lockups.get a) ≤ t.totalLockedSupply :=
  h.locked ▸ Table.share_le_total t.lockups h.share_nonneg a

theorem locked_nonneg (h : t.Funded) : 0 ≤ (t.totalLockedSupply : ℤ) :=
  (h.share_nonneg ⟨0⟩).trans (h.share_le_locked ⟨0⟩)

theorem balance_le (h : t.Funded) (a : Address) :
    (Machine.balance t.balance a : ℤ) + t.totalLockedSupply + t.revenuePool ≤ t.totalSupply := by
  have := le_degree h.balances a
  have := h.supply
  rw [ledger_apply] at *
  omega

/-- Credits and debits that are matched by the supply. -/
theorem rebalance (h : t.Funded) {b : Table Address I128} {supply : I128} {δ : Address →₀ ℤ}
    (hledger : ledger b = ledger t.balance + δ) (hnonneg : 0 ≤ ledger b)
    (hsupply : (supply : ℤ) = t.totalSupply + δ.degree) : { t with balance := b, totalSupply := supply }.Funded where
  supply := by
    have := h.supply
    simp only [hledger, map_add]
    omega
  locked := h.locked
  balances := hnonneg
  lockups := h.lockups
  pool := h.pool

/-- One credit or debit that is matched by the supply. -/
theorem adjust (h : t.Funded) {bal supply : I128} (hbal : (bal : ℤ) = Machine.balance t.balance a + x)
    (hnonneg : 0 ≤ (bal : ℤ)) (hsupply : (supply : ℤ) = t.totalSupply + x) :
    { t with balance := t.balance.set a bal, totalSupply := supply }.Funded := by
  refine h.rebalance (ledger_set_add hbal) (fun k => ?_) (by rw [degree_single, hsupply])
  rw [ledger_apply, balance_set]
  split
  · exact hnonneg
  · exact h.balances_nonneg k

/-- A change of the pool that is matched by the supply. -/
theorem adjustPool (h : t.Funded) {pool supply : I128} (hpool : (pool : ℤ) = t.revenuePool + x)
    (hnonneg : 0 ≤ (pool : ℤ)) (hsupply : (supply : ℤ) = t.totalSupply + x) :
    { t with revenuePool := pool, totalSupply := supply }.Funded where
  supply := by
    have := h.supply
    dsimp only
    omega
  locked := h.locked
  balances := h.balances
  lockups := h.lockups
  pool := hnonneg

/-- A change of an address's lockups that is matched by the supply. -/
theorem adjustLockups (h : t.Funded) {total supply : I128}
    (hlockups : ∀ lock ∈ lockups, 0 ≤ (lock.amount : ℤ))
    (hsum : lockedSum lockups = Table.share lockedSum (t.lockups.get a) + x)
    (htotal : (total : ℤ) = t.totalLockedSupply + x) (hsupply : (supply : ℤ) = t.totalSupply + x) :
    { t with lockups := t.lockups.set a lockups, totalLockedSupply := total, totalSupply := supply }.Funded where
  supply := by
    have := h.supply
    dsimp only
    omega
  locked := by
    have := h.locked
    have := Table.total_set lockedSum t.lockups a lockups
    dsimp only
    omega
  balances := h.balances
  lockups := h.lockups.set hlockups
  pool := h.pool

end TokenStore.Funded

/-! ## Operation by operation

Each takes tokens out of one place, the supply with them, and puts them into another. -/

section Operations

variable {m : Mode} {env : Env} {s s' : State} {a b : Address} {x : I128}

theorem share_lockups (s : State) (a : Address) :
    Table.share lockedSum (s.token.lockups.get a) = lockedSum (s.getLockups a) := by
  unfold State.getLockups
  cases s.token.lockups.get a <;> rfl

theorem TokenStore.Funded.getLockups (hs : s.token.Funded) (a : Address) :
    ∀ lock ∈ s.getLockups a, 0 ≤ (lock.amount : ℤ) := by
  unfold State.getLockups
  cases hget : s.token.lockups.get a with
  | none => simp
  | some lockups => exact hs.lockups a lockups hget

theorem TokenStore.Funded.bounds (hs : s.token.Funded) (a : Address) :
    0 ≤ (s.balance a : ℤ) ∧ 0 ≤ (s.token.totalLockedSupply : ℤ) ∧ 0 ≤ (s.token.revenuePool : ℤ) ∧
      (s.balance a : ℤ) + s.token.totalLockedSupply + s.token.revenuePool ≤ s.totalSupply ∧
      s.totalSupply ≤ i128.max :=
  ⟨hs.balances_nonneg a, hs.locked_nonneg, hs.pool, hs.balance_le a, s.totalSupply.hi⟩

theorem mint_funded (hs : s.token.Funded) (h : (mint env s a x).run m = some s') : s'.token.Funded := by
  obtain ⟨-, hx, supply, bal, hsupply, -, hbal, rfl⟩ := mint_spec h
  have hnonneg := (hs.bounds a).1
  exact hs.adjust hbal (by omega) hsupply

theorem batchMint_funded {recipients : List Address} {amounts : List I128} (hs : s.token.Funded)
    (h : (batchMint env s recipients amounts).run m = some s') : s'.token.Funded := by
  obtain ⟨-, -, -, hpos, b, supply, rfl, hledger, hsupply, -⟩ := batchMint_spec h
  refine hs.rebalance hledger ?_ (by rw [degree_credits]; exact hsupply)
  rw [hledger]
  exact add_nonneg hs.balances (credits_nonneg hpos)

theorem claimVestedTokens_funded (hs : s.token.Funded) (h : (claimVestedTokens env s a).run m = some (x, s'))
    (hfits : s.totalSupply + x ≤ i128.max) : s'.token.Funded := by
  obtain ⟨_, -, -, hx, -, hr⟩ := claimVestedTokens_spec h
  obtain ⟨hbal, hlocked, hpool, hle, -⟩ := hs.bounds a
  have hcredit : (i128.wrap (s.balance a + x) : ℤ) = s.balance a + x :=
    wrap_of_nonneg (by omega) (by omega)
  rw [hr]
  exact hs.adjust hcredit (by omega) (wrap_of_nonneg (by omega) hfits)

/-- Tokens taken out of a balance, and out of the supply. -/
theorem TokenStore.Funded.debit (hs : s.token.Funded) (hx : 0 < (x : ℤ)) (hle : (x : ℤ) ≤ s.balance a) :
    { s.token with
      balance := s.token.balance.set a (i128.wrap (s.balance a - x))
      totalSupply := i128.wrap (s.totalSupply - x) }.Funded ∧
    (i128.wrap (s.totalSupply - x) : ℤ) = s.totalSupply - x := by
  obtain ⟨-, hlocked, hpool, hbound, hmax⟩ := hs.bounds a
  have hdebit : (i128.wrap (s.balance a - x) : ℤ) = s.balance a - x := wrap_of_nonneg (by omega) (by omega)
  have hrest : (i128.wrap (s.totalSupply - x) : ℤ) = s.totalSupply - x := wrap_of_nonneg (by omega) (by omega)
  exact ⟨hs.adjust (x := -x) hdebit (by omega) hrest, hrest⟩

theorem burn_funded (hs : s.token.Funded) (h : (burn env s a x).run m = some s') : s'.token.Funded := by
  obtain ⟨hx, hle, rfl⟩ := burn_spec h
  exact (hs.debit hx hle).1

theorem balance_other {bal : I128} (hne : a ≠ b) :
    Machine.balance (s.token.balance.set a bal) b = s.balance b := by
  rw [balance_set, if_neg (Ne.symm hne)]
  rfl

/-- What one address can send fits on top of what another one has. -/
theorem TokenStore.Funded.credit (hs : s.token.Funded) (hx : 0 < (x : ℤ)) (hle : (x : ℤ) ≤ s.balance a) (hne : a ≠ b) :
    (i128.wrap (s.balance b + x) : ℤ) = s.balance b + x := by
  obtain ⟨hmid, hrest⟩ := hs.debit hx hle
  have hroom := hmid.balance_le b
  dsimp only at hroom
  rw [balance_other hne] at hroom
  obtain ⟨hnonneg, hlocked, hpool, -, hmax⟩ := hs.bounds b
  exact wrap_of_nonneg (by omega) (by omega)

theorem transfer_funded (hs : s.token.Funded) (h : (transfer env s a b x).run m = some s') : s'.token.Funded := by
  obtain ⟨hx, hne, hle, rfl⟩ := transfer_spec h
  obtain ⟨hmid, hrest⟩ := hs.debit hx hle
  have hcredit := hs.credit hx hle hne
  have hnonneg := (hs.bounds b).1
  exact hmid.adjust (x := x) (by rw [hcredit, balance_other hne]) (by omega) (by rw [hrest, sub_add_cancel]; rfl)

theorem lockTokens_funded {unlockTime : U64} (hs : s.token.Funded)
    (h : (lockTokens env s a x unlockTime).run m = some s') : s'.token.Funded := by
  obtain ⟨hx, hle, rfl⟩ := lockTokens_spec h
  obtain ⟨hmid, hrest⟩ := hs.debit hx hle
  obtain ⟨-, hlocked, hpool, hbound, hmax⟩ := hs.bounds a
  have htotal : (i128.wrap (s.token.totalLockedSupply + x) : ℤ) = s.token.totalLockedSupply + x :=
    wrap_of_nonneg (by omega) (by omega)
  refine hmid.adjustLockups (x := x) ?_ ?_ htotal (by rw [hrest, sub_add_cancel]; rfl)
  · intro lock hlock
    rcases List.mem_append.1 hlock with hold | hnew
    · exact hs.getLockups a lock hold
    · rw [List.mem_singleton.1 hnew]; exact hx.le
  · rw [lockedSum_append, ← share_lockups]
    simp [lockedSum]

/-- What is ready to be unlocked is part of what is locked. -/
theorem TokenStore.Funded.ready_le (hs : s.token.Funded)
    (hget : s.token.lockups.get a = some lockups) (now : U64) :
    0 ≤ lockedSum (lockups.filter fun lock => (lock.unlockTime : ℤ) ≤ now) ∧
      lockedSum (lockups.filter fun lock => (lock.unlockTime : ℤ) ≤ now) ≤ s.token.totalLockedSupply := by
  have hlockups := hs.lockups a lockups hget
  have hready : 0 ≤ lockedSum (lockups.filter fun lock => (lock.unlockTime : ℤ) ≤ now) :=
    lockedSum_nonneg fun lock hlock => hlockups lock (List.mem_of_mem_filter hlock)
  have hactive : 0 ≤ lockedSum (lockups.filter fun lock => (now : ℤ) < lock.unlockTime) :=
    lockedSum_nonneg fun lock hlock => hlockups lock (List.mem_of_mem_filter hlock)
  have hsplit := lockedSum_filter now lockups
  have hshare := hs.share_le_locked a
  rw [hget, Table.share_some] at hshare
  exact ⟨hready, by omega⟩

/-- An unlocking pays out exactly what is ready. -/
theorem unlockTokens_exact (hs : s.token.Funded) (h : (unlockTokens env s a).run m = some (x, s')) :
    ∃ lockups, s.token.lockups.get a = some lockups ∧
      x = lockedSum (lockups.filter fun lock => (lock.unlockTime : ℤ) ≤ env.timestamp) ∧
      (i128.wrap (s.balance a + x) : ℤ) = s.balance a + x ∧ 0 ≤ (x : ℤ) ∧
      (x : ℤ) ≤ s.token.totalLockedSupply ∧ s' = { s with
        token.balance := s.token.balance.set a (i128.wrap (s.balance a + x))
        token.lockups := s.token.lockups.set a (lockups.filter fun lock => (env.timestamp : ℤ) < lock.unlockTime)
        token.totalLockedSupply := i128.wrap (s.token.totalLockedSupply - x) } := by
  obtain ⟨lockups, hget, hamount, hr⟩ := unlockTokens_spec h
  obtain ⟨hbal, -, hpool, hbound, hmax⟩ := hs.bounds a
  obtain ⟨hready, hle⟩ := hs.ready_le hget env.timestamp
  have hval : x = lockedSum (lockups.filter fun lock => (lock.unlockTime : ℤ) ≤ env.timestamp) := by
    rw [hamount]
    exact wrap_of_nonneg hready (by omega)
  exact ⟨lockups, hget, hval, wrap_of_nonneg (by omega) (by omega), by omega, by omega, hr⟩

theorem unlockTokens_funded (hs : s.token.Funded) (h : (unlockTokens env s a).run m = some (x, s')) :
    s'.token.Funded := by
  obtain ⟨lockups, hget, hval, hcredit, hx, hle, rfl⟩ := unlockTokens_exact hs h
  obtain ⟨hbal, -, hpool, hbound, hmax⟩ := hs.bounds a
  have htotal : (i128.wrap (s.token.totalLockedSupply - x) : ℤ) = s.token.totalLockedSupply - x :=
    wrap_of_nonneg (by omega) (by omega)
  have hrest : (i128.wrap (s.totalSupply - x) : ℤ) = s.totalSupply - x := wrap_of_nonneg (by omega) (by omega)
  have hsplit := lockedSum_filter env.timestamp lockups
  have hmid := hs.adjustLockups (a := a) (x := -x)
    (fun lock hlock => hs.lockups a lockups hget lock (List.mem_of_mem_filter hlock))
    (show lockedSum (lockups.filter fun lock => (env.timestamp : ℤ) < lock.unlockTime) = _ by
      rw [hget, Table.share_some]; omega) htotal hrest
  exact hmid.adjust (x := x) hcredit (by omega) (by rw [hrest, sub_add_cancel]; rfl)

theorem depositRevenue_funded (hs : s.token.Funded) (h : (depositRevenue env s a x).run m = some s') :
    s'.token.Funded := by
  obtain ⟨hx, hle, rfl⟩ := depositRevenue_spec h
  obtain ⟨hmid, hrest⟩ := hs.debit hx hle
  obtain ⟨-, hlocked, hpool, hbound, hmax⟩ := hs.bounds a
  have hdeposit : (i128.wrap (s.token.revenuePool + x) : ℤ) = s.token.revenuePool + x :=
    wrap_of_nonneg (by omega) (by omega)
  exact hmid.adjustPool (x := x) hdeposit (by omega) (by rw [hrest, sub_add_cancel]; rfl)

theorem executeBuybackAndBurn_funded (hs : s.token.Funded) (h : (executeBuybackAndBurn env s).run m = some (x, s')) :
    s'.token.Funded := by
  obtain ⟨hx, hle, buyback, hr⟩ := executeBuybackAndBurn_spec h
  obtain ⟨hbal, hlocked, hpool, hbound, hmax⟩ := hs.bounds ⟨0⟩
  have hburn : (i128.wrap (s.token.revenuePool - x) : ℤ) = s.token.revenuePool - x :=
    wrap_of_nonneg (by omega) (by omega)
  rw [hr]
  exact hs.adjustPool (x := -x) hburn (by omega) (wrap_of_nonneg (by omega) (by omega))

end Operations

/-! ## Accounting -/

section Accounting

variable {m : Mode} {env : Env} {s s' : State} {c : Call}

/-- Vested tokens are issued on top of the supply up to a limit. -/
def Call.ClaimsUpTo (limit : ℤ) (env : Env) (s : State) : Call → Prop
  | .claimVestedTokens beneficiary => ∀ schedule ∈ s.vesting.get beneficiary,
    ∀ claimable ∈ (schedule.claimable env).run .wrapping, (s.totalSupply : ℤ) + claimable ≤ limit
  | _ => True

instance (limit : ℤ) (env : Env) (s : State) (c : Call) : Decidable (c.ClaimsUpTo limit env s) := by
  apply Call.casesOn (motive := fun c => Decidable (c.ClaimsUpTo limit env s)) c <;> intros <;>
    dsimp only [Call.ClaimsUpTo] <;> infer_instance

theorem execute_funded (hs : s.token.Funded) (hc : c.ClaimsUpTo i128.max env s)
    (h : (execute env s c).run .wrapping = some s') : s'.token.Funded := by
  cases c with
  | mint => exact mint_funded hs h
  | batchMint => exact batchMint_funded hs h
  | burn => exact burn_funded hs h
  | transfer => exact transfer_funded hs h
  | claimVestedTokens =>
    obtain ⟨x, h⟩ := run_snd_map h
    obtain ⟨schedule, hschedule, hx, -⟩ := claimVestedTokens_spec h
    exact claimVestedTokens_funded hs h (hc schedule hschedule x hx)
  | lockTokens => exact lockTokens_funded hs h
  | unlockTokens => obtain ⟨_, h⟩ := run_snd_map h; exact unlockTokens_funded hs h
  | depositRevenue => exact depositRevenue_funded hs h
  | executeBuybackAndBurn => obtain ⟨_, h⟩ := run_snd_map h; exact executeBuybackAndBurn_funded hs h
  | delegate => obtain ⟨-, -, _, rfl, -⟩ := delegate_spec h; exact hs
  | revokeDelegation => obtain ⟨-, -, _, rfl, -⟩ := revokeDelegation_spec h; exact hs
  | _ => rw [((execute_frame s' h).tokens rfl rfl).1]; exact hs

/-- A call in which nothing overflows issues no more than is representable. -/
theorem claimsUpTo_of_exact (h : (execute env s c).run .exact = some s') : c.ClaimsUpTo i128.max env s := by
  cases c with
  | claimVestedTokens =>
    obtain ⟨x, h⟩ := run_snd_map h
    obtain ⟨schedule, hschedule, hx, -, hfits, -⟩ := claimVestedTokens_spec h
    intro schedule' hschedule' x' hx'
    cases hschedule.symm.trans hschedule'
    cases (run_wrapping_of_exact hx).symm.trans hx'
    exact (hfits rfl).2
  | _ => trivial

theorem funded_deployed (admin : Address) : ({ admin := some admin } : State).token.Funded where
  supply := by simp
  locked := by
    rw [Table.total_eq_finsum]
    simp
  balances := by simp
  lockups := Table.All.empty
  pool := le_rfl

/-- The locked balance of an address is the sum of its lockups, without overflow. -/
theorem getLockedBalance_eq (hs : s.token.Funded) (m : Mode) (a : Address) :
    ∃ locked : I128, (s.getLockedBalance a).run m = some locked ∧ locked = lockedSum (s.getLockups a) := by
  have hshare := hs.share_le_locked a
  have hmax := s.token.totalLockedSupply.hi
  rw [share_lockups] at hshare
  obtain ⟨_, hrun, hval⟩ := run_foldlM_unchecked_of_le (m := m) (ε := String) (t := i128) (b := 0)
    (hs.getLockups a) (by simpa [lockedSum] using hshare.trans hmax)
  exact ⟨_, hrun, by simpa [lockedSum] using hval⟩

/-- In every run in which no `i128` overflows, the total supply is in the balances, the lockups and the revenue
pool, the total of the locked tokens is right, and no balance, lockup or pool is negative. -/
theorem supply_is_accounted_for {e : Env} (h : (contract .exact).Reach Unrestricted e s) :
    (s.totalSupply : ℤ) = (∑ᶠ a, (s.balance a : ℤ)) + s.token.totalLockedSupply + s.token.revenuePool ∧
    (∃ locked : Address → I128, (∀ a, (s.getLockedBalance a).run .exact = some (locked a)) ∧
      (s.token.totalLockedSupply : ℤ) = ∑ᶠ a, (locked a : ℤ)) ∧
    (∀ a, 0 ≤ (s.balance a : ℤ)) ∧ (∀ a, ∀ lock ∈ s.getLockups a, 0 ≤ (lock.amount : ℤ)) ∧
    0 ≤ (s.token.revenuePool : ℤ) := by
  have hs : s.token.Funded := by
    refine h.invariant (P := fun _ s => s.token.Funded) (fun hinit => ?_) fun hs _ hstep => ?_
    · obtain ⟨admin, rfl⟩ := contract_init hinit
      exact funded_deployed admin
    · exact execute_funded hs (claimsUpTo_of_exact hstep) (run_wrapping_of_exact hstep)
  choose locked hlocked hval using getLockedBalance_eq hs .exact
  refine ⟨?_, ⟨locked, hlocked, ?_⟩, hs.balances_nonneg, hs.getLockups, hs.pool⟩
  · rw [show (s.totalSupply : ℤ) = s.token.totalSupply from rfl, hs.supply, degree_ledger]
    rfl
  · rw [hs.locked, Table.total_eq_finsum]
    exact finsum_congr fun a => by rw [hval, share_lockups]

/-- Two holders, a lockup opened and closed, a vesting claim, a deposit of revenue and a buyback. -/
def tokenDay : List (Env × Call) :=
  [signed 2 10 (.mint alice 1000),
    signed 2 10 (.batchMint [alice, bob, alice] [10, 20, 30]),
    signed 3 20 (.transfer alice bob 100),
    signed 3 20 (.lockTokens bob 70 30),
    signed 3 20 (.lockTokens bob 5 90),
    signed 3 20 (.createVestingSchedule carol 400 20 0 40),
    signed 4 40 (.unlockTokens bob),
    signed 4 40 (.claimVestedTokens carol),
    signed 4 40 (.depositRevenue alice 50),
    signed 4 40 (.configureBuyback 30 5),
    signed 5 50 .executeBuybackAndBurn,
    signed 6 60 (.burn alice 90)]

theorem supply_after_tokenDay :
    ∃ r, (deployment .exact).after Unrestricted tokenDay = some r ∧ (r.2.totalSupply : ℤ) = 1140 ∧
    (r.2.totalSupply : ℤ) = (∑ᶠ a, (r.2.balance a : ℤ)) + r.2.token.totalLockedSupply + r.2.token.revenuePool := by
  refine ⟨_, evaluated, by decide +kernel, ?_⟩
  exact (supply_is_accounted_for (reach_after (evaluated _))).1

end Accounting

/-! ## The cap -/

section Cap

variable {m : Mode} {env : Env} {s s' : State} {c : Call}

/-- How far the supply may grow: to the cap, or as far as it is representable while there is none. -/
def State.supplyLimit (s : State) : ℤ := if 0 < (s.getSupplyCap : ℤ) then s.getSupplyCap else i128.max

theorem supplyLimit_le (s : State) : s.supplyLimit ≤ i128.max := by
  unfold State.supplyLimit
  split
  · exact s.getSupplyCap.hi
  · exact le_rfl

/-- Vesting claims stay within the supply cap. -/
def WithinCap : Rule := fun _ e s c => c.ClaimsUpTo s.supplyLimit e s
deriving Decidable

theorem Call.ClaimsUpTo.mono {limit limit' : ℤ} (hle : limit ≤ limit') (h : c.ClaimsUpTo limit env s) :
    c.ClaimsUpTo limit' env s := by
  cases c with
  | claimVestedTokens => exact fun schedule hs x hx => (h schedule hs x hx).trans hle
  | _ => trivial

/-- The books balance, and the supply is within the cap if there is one. -/
structure Capped (s : State) : Prop where
  funded : s.token.Funded
  cap : 0 ≤ (s.getSupplyCap : ℤ)
  supply : 0 < (s.getSupplyCap : ℤ) → (s.totalSupply : ℤ) ≤ s.getSupplyCap

/-- A call that does not set the cap leaves the supply within it. -/
theorem execute_supply_le (hs : Capped s) (hcap : 0 < (s.getSupplyCap : ℤ)) (hc : c.ClaimsUpTo s.supplyLimit env s)
    (hset : c.setsCap = false) (h : (execute env s c).run .wrapping = some s') :
    (s'.totalSupply : ℤ) ≤ s.getSupplyCap := by
  have hle := hs.supply hcap
  have hmax := s.getSupplyCap.hi
  cases c with
  | mint =>
    obtain ⟨-, -, _, _, -, hbound, -, rfl⟩ := mint_spec h
    exact hbound hcap
  | batchMint =>
    obtain ⟨-, -, -, -, _, _, rfl, -, -, hbound⟩ := batchMint_spec h
    exact hbound hcap
  | burn owner =>
    obtain ⟨hx, hbal, rfl⟩ := burn_spec h
    obtain ⟨-, hlocked, hpool, hbound, -⟩ := hs.funded.bounds owner
    show (i128.wrap _ : ℤ) ≤ _
    rw [wrap_of_nonneg (by omega) (by omega)]
    omega
  | transfer => obtain ⟨-, -, -, rfl⟩ := transfer_spec h; exact hle
  | claimVestedTokens beneficiary =>
    obtain ⟨x, h⟩ := run_snd_map h
    obtain ⟨schedule, hschedule, hx, hpos, -, rfl⟩ := claimVestedTokens_spec h
    have hlimit := hc schedule hschedule x hx
    rw [State.supplyLimit, if_pos hcap] at hlimit
    obtain ⟨_, _, _, _, -⟩ := hs.funded.bounds beneficiary
    show (i128.wrap _ : ℤ) ≤ _
    rwa [wrap_of_nonneg (by omega) (by omega)]
  | lockTokens => obtain ⟨-, -, rfl⟩ := lockTokens_spec h; exact hle
  | unlockTokens =>
    obtain ⟨_, h⟩ := run_snd_map h
    obtain ⟨_, -, -, rfl⟩ := unlockTokens_spec h
    exact hle
  | depositRevenue => obtain ⟨-, -, rfl⟩ := depositRevenue_spec h; exact hle
  | executeBuybackAndBurn =>
    obtain ⟨x, h⟩ := run_snd_map h
    obtain ⟨hx, _, _, rfl⟩ := executeBuybackAndBurn_spec h
    obtain ⟨_, _, -, _, -⟩ := hs.funded.bounds ⟨0⟩
    show (i128.wrap _ : ℤ) ≤ _
    rw [wrap_of_nonneg (by omega) (by omega)]
    omega
  | delegate => obtain ⟨-, -, _, rfl, -⟩ := delegate_spec h; exact hle
  | revokeDelegation => obtain ⟨-, -, _, rfl, -⟩ := revokeDelegation_spec h; exact hle
  | setSupplyCap | adjustCapViaGovernance => cases hset
  | _ => rw [State.totalSupply, ((execute_frame s' h).tokens rfl rfl).1]; exact hle

theorem execute_capped (hs : Capped s) (hc : c.ClaimsUpTo s.supplyLimit env s)
    (h : (execute env s c).run .wrapping = some s') : Capped s' := by
  have hfunded := execute_funded hs.funded (hc.mono (supplyLimit_le s)) h
  by_cases hset : c.setsCap = false
  · have hcap : s'.getSupplyCap = s.getSupplyCap := (execute_frame s' h).cap hset
    refine ⟨hfunded, hcap ▸ hs.cap, fun hpos => ?_⟩
    rw [hcap] at hpos ⊢
    exact execute_supply_le hs hpos hc hset h
  · cases c with
    | setSupplyCap =>
      obtain ⟨hpos, -, hsupply, rfl⟩ := setSupplyCap_spec h
      exact ⟨hfunded, hpos.le, fun _ => hsupply⟩
    | adjustCapViaGovernance =>
      obtain ⟨hpos, hsupply, _, -, -, rfl⟩ := adjustCapViaGovernance_spec h
      exact ⟨hfunded, hpos.le, fun _ => hsupply⟩
    | _ => exact absurd rfl hset

/-- A call that raises the cap is one of governance, on a proposal that has passed and was not executed, or the
admin's that introduces it. -/
theorem execute_raises_cap (hs : Capped s) (h : (execute env s c).run m = some s')
    (hlt : (s.getSupplyCap : ℤ) < s'.getSupplyCap) :
    (∃ id newCap p, c = .adjustCapViaGovernance id newCap ∧ s.governance.proposal.get id = some p ∧
      p.Ready env.timestamp) ∨ (s.getSupplyCap : ℤ) = 0 ∧ ∃ cap, c = .setSupplyCap cap := by
  by_cases hset : c.setsCap = false
  · have hcap : s'.getSupplyCap = s.getSupplyCap := (execute_frame s' h).cap hset
    rw [hcap] at hlt
    omega
  · cases c with
    | setSupplyCap cap =>
      obtain ⟨-, htighten, -, rfl⟩ := setSupplyCap_spec h
      refine .inr ⟨?_, cap, rfl⟩
      have hcap := hs.cap
      by_contra hne
      have := htighten (by omega)
      exact absurd hlt this.not_gt
    | adjustCapViaGovernance id newCap =>
      obtain ⟨-, -, _, hp, hready, -⟩ := adjustCapViaGovernance_spec h
      exact .inl ⟨id, newCap, _, rfl, hp, hready⟩
    | _ => exact absurd rfl hset

/-- Wherever vesting claims stay within it, the supply is within the cap in every state reached, and no call
raises a cap there is but one of governance on a proposal that has passed and was not executed. -/
theorem supply_within_cap {e : Env} (h : (contract .wrapping).Reach WithinCap e s) :
    (0 < (s.getSupplyCap : ℤ) → (s.totalSupply : ℤ) ≤ s.getSupplyCap) ∧
    ∀ env c s', (execute env s c).run .wrapping = some s' → (s.getSupplyCap : ℤ) < s'.getSupplyCap →
      (∃ id newCap p, c = .adjustCapViaGovernance id newCap ∧ s.governance.proposal.get id = some p ∧
        p.Ready env.timestamp) ∨ (s.getSupplyCap : ℤ) = 0 ∧ ∃ cap, c = .setSupplyCap cap := by
  have hs : Capped s := by
    refine h.invariant (P := fun _ s => Capped s) (fun hinit => ?_) fun hs hok hstep => execute_capped hs hok hstep
    obtain ⟨admin, rfl⟩ := contract_init hinit
    exact ⟨funded_deployed admin, le_rfl, fun hpos => absurd hpos (lt_irrefl 0)⟩
  exact ⟨hs.supply, fun env c s' => execute_raises_cap hs⟩

/-- Tokens granted before the cap, and claimed within it. -/
def cappedDay : List (Env × Call) :=
  [signed 2 10 (.createVestingSchedule alice 1000 10 0 10),
    signed 2 10 (.setSupplyCap 5000),
    signed 3 30 (.claimVestedTokens alice),
    signed 3 30 (.mint bob 2000)]

theorem supply_after_cappedDay : ∃ r, (deployment .wrapping).after WithinCap cappedDay = some r ∧
    (r.2.totalSupply : ℤ) = 3000 ∧ (r.2.totalSupply : ℤ) ≤ r.2.getSupplyCap := by
  refine ⟨_, evaluated, by decide +kernel, ?_⟩
  exact (supply_within_cap (reach_after (evaluated _))).1 (by decide +kernel)

/-- Tokens granted before the cap was set are issued past it: a claim does not look at the cap. -/
theorem claim_exceeds_cap : ∃ r, (contract .wrapping).Reach Unrestricted r.1 r.2 ∧
    (deployment .wrapping).after Unrestricted
      [signed 2 10 (.createVestingSchedule alice 1000 10 0 10),
        signed 2 10 (.setSupplyCap 500),
        signed 3 30 (.claimVestedTokens alice)] = some r ∧
    (r.2.getSupplyCap : ℤ) = 500 ∧ (r.2.totalSupply : ℤ) = 1000 := by
  refine ⟨_, ?_, evaluated, by decide +kernel, by decide +kernel⟩
  exact reach_after (evaluated _)

end Cap

end ArenaX.AxToken
