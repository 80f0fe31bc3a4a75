/-
The totals kept beside the positions: of all that is staked for rewards, of each flexible pool and of each liquidity
pool. They are sums over positions that top-ups, claims and withdrawals update one at a time, and the floor at zero
that withdrawals put under them never comes into play.
-/
import ArenaX.StakingManager.Frame

namespace ArenaX.StakingManager

open Machine Exec Sample
open Host (Address)
open Table (share share_some)

/-- A withdrawal of no more than the total meets no floor. -/
theorem clamp_eq {total amount : I128} (hfits : i128.Fits (total - amount)) (hle : (amount : ℤ) ≤ total) :
    (((i128.wrap (total - amount)).max 0 : I128) : ℤ) = total - amount := by
  rw [toInt_max, wrap_of_fits hfits, toInt_zero]
  omega

/-! ## Reward staking -/

/-- The tier and the weight of a position are those of its amount. -/
structure RewardStakePosition.Graded (pos : RewardStakePosition) : Prop where
  tier : pos.tier = (tierForAmount pos.amount).code
  weight : (StakingManager.governanceWeight pos.amount pos.tier).run .exact = some pos.governanceWeight

structure State.RewardTotals (s : State) : Prop where
  total : (s.reward.totalStaked : ℤ) = s.reward.position.total fun pos => (pos.amount : ℤ)
  nonneg : s.reward.position.All fun _ pos => 0 ≤ (pos.amount : ℤ)
  graded : s.reward.position.All fun _ pos => pos.Graded

section Reward

variable {env : Env} {s s' : State} {user : Address} {amount x : I128}

/-- A stake grades the position anew. -/
theorem rewardPosition_graded {existing : Option RewardStakePosition} {cfg : RewardConfig} {now : U64}
    {position : RewardStakePosition} (h : (rewardPosition existing cfg now user amount).run .exact = some position) :
    position.Graded := by
  cases existing with
  | none =>
    simp only [rewardPosition, run_iff] at h
    obtain ⟨_, hweight, rfl⟩ := h
    exact ⟨rfl, hweight⟩
  | some pos =>
    simp only [rewardPosition, RewardStakePosition.topUp, run_iff] at h
    obtain ⟨_, -, _, -, total, -, _, hweight, rfl⟩ := h
    exact ⟨rfl, hweight⟩

theorem stakeForRewards_totals (hs : s.RewardTotals) (h : (stakeForRewards env s user amount).run .exact = some s') :
    s'.RewardTotals := by
  obtain ⟨-, hpos, cfg, token, position, -, -, hposition, hfits, rfl⟩ := stakeForRewards_spec h
  have hamount := rewardPosition_amount hposition
  have htotal := Table.total_set (fun pos => (pos.amount : ℤ)) s.reward.position user position
  have hold := hs.total
  refine ⟨?_, hs.nonneg.set_add hpos.le hamount, hs.graded.set (rewardPosition_graded hposition)⟩
  dsimp only
  rw [wrap_of_fits (hfits rfl)]
  omega

theorem claimRewards_totals (hs : s.RewardTotals) (h : (claimRewards env s user).run .exact = some (x, s')) :
    s'.RewardTotals := by
  obtain ⟨-, cfg, pos, accrued, token, -, hget, -, -, -, -, -, rfl⟩ := claimRewards_spec h
  have hgraded := hs.graded _ pos hget
  refine ⟨?_, hs.nonneg.set (hs.nonneg _ pos hget), hs.graded.set ⟨hgraded.tier, hgraded.weight⟩⟩
  rw [Table.total_set_of_some hget, sub_add_cancel]
  exact hs.total

theorem State.RewardTotals.le_total (hs : s.RewardTotals) {pos : RewardStakePosition}
    (hget : s.reward.position.get user = some pos) : (pos.amount : ℤ) ≤ s.reward.totalStaked := by
  have hrest := Table.total_nonneg (hs.nonneg.remove user)
  rw [Table.total_remove_of_some hget, ← hs.total] at hrest
  omega

theorem unstakeRewards_totals (hs : s.RewardTotals) (h : (unstakeRewards env s user).run .exact = some s') :
    s'.RewardTotals := by
  obtain ⟨-, cfg, pos, accrued, token, -, hget, -, -, hfits, rfl⟩ := unstakeRewards_spec h
  refine ⟨?_, hs.nonneg.remove _, hs.graded.remove _⟩
  rw [clamp_eq (hfits rfl).2 (hs.le_total hget), Table.total_remove_of_some hget, hs.total]

theorem execute_rewardTotals {c : Call} (hs : s.RewardTotals) (h : (execute env s c).run .exact = some s') :
    s'.RewardTotals := by
  by_cases hf : c.facility = .reward
  · cases c with
    | setRewardConfig => obtain ⟨-, rfl⟩ := setRewardConfig_spec h; exact { hs with }
    | fundRewardPool => obtain ⟨-, -, -, _, -, rfl⟩ := fundRewardPool_spec h; exact { hs with }
    | stakeForRewards => exact stakeForRewards_totals hs h
    | claimRewards => obtain ⟨_, h⟩ := run_snd_map h; exact claimRewards_totals hs h
    | unstakeRewards => exact unstakeRewards_totals hs h
    | _ => cases hf
  · have hframe := execute_frame h
    constructor
    · rw [hframe.rewardTotal hf, hframe.rewardPosition hf]; exact hs.total
    · rw [hframe.rewardPosition hf]; exact hs.nonneg
    · rw [hframe.rewardPosition hf]; exact hs.graded

end Reward

/-! ## Pools

Flexible pools and liquidity pools keep their totals the same way: under an identifier below the counter, a total that
is the sum of the positions with that identifier. -/

/-- Pools with identifiers below a counter, and the sum of the positions of each. -/
structure PoolTotals {P Q : Type} (total : P → I128) (amount : Q → I128) (counter : U32) (pools : Table U32 P)
    (positions : Table (Address × U32) Q) : Prop where
  below : pools.All fun (id : U32) _ => (id : ℤ) < counter
  nonneg : positions.All fun _ pos => 0 ≤ (amount pos : ℤ)
  sum : shares (fun pool => (total pool : ℤ)) pools = grouped (fun pos => (amount pos : ℤ)) Prod.snd positions

namespace PoolTotals

variable {P Q : Type} {total : P → I128} {amount : Q → I128} {counter : U32} {pools : Table U32 P}
  {positions : Table (Address × U32) Q} {user : Address} {id : U32} {pool pool' : P} {pos pos' : Q} {x : ℤ}

theorem empty : PoolTotals total amount counter ∅ ∅ := ⟨.empty, .empty, by simp⟩

/-- The total of a pool is the sum over all users. -/
theorem total_eq (h : PoolTotals total amount counter pools positions) (hpool : pools.get id = some pool) :
    (total pool : ℤ) = ∑ᶠ user, share (fun pos => (amount pos : ℤ)) (positions.get (user, id)) := by
  rw [← grouped_snd, ← h.sum, shares_apply, hpool, share_some]

theorem le_total (h : PoolTotals total amount counter pools positions) (hpool : pools.get id = some pool)
    (hpos : positions.get (user, id) = some pos) : (amount pos : ℤ) ≤ total pool := by
  have := le_grouped Prod.snd h.nonneg hpos
  rwa [← h.sum, shares_apply, hpool, share_some] at this

/-- A new pool under the next identifier. -/
theorem create (h : PoolTotals total amount counter pools positions) (hcounter : (counter : ℤ) + 1 ≤ u32.max)
    (hempty : (total pool : ℤ) = 0) :
    PoolTotals total amount (u32.wrap (counter + 1)) (pools.set counter pool) positions := by
  have hnext : (u32.wrap (counter + 1) : ℤ) = counter + 1 :=
    wrap_of_nonneg (by have := (U32.bounds counter).1; omega) hcounter
  have hnone : pools.get counter = none :=
    Option.eq_none_iff_forall_ne_some.2 fun pool hget => lt_irrefl _ (h.below _ pool hget)
  refine ⟨(h.below.imp fun id _ hid => ?_).set ?_, h.nonneg, ?_⟩
  · rw [hnext]; omega
  · rw [hnext]; omega
  · rw [shares_set, hnone, hempty, Table.share_none, sub_zero, Finsupp.single_zero, add_zero, h.sum]

/-- A pool rewritten with the same total. -/
theorem setPool (h : PoolTotals total amount counter pools positions) (hpool : pools.get id = some pool)
    (htotal : total pool' = total pool) : PoolTotals total amount counter (pools.set id pool') positions := by
  refine ⟨h.below.set (h.below id pool hpool), h.nonneg, ?_⟩
  rw [shares_set, hpool, share_some, htotal, sub_self, Finsupp.single_zero, add_zero, h.sum]

/-- A position rewritten with the same amount. -/
theorem setPosition (h : PoolTotals total amount counter pools positions)
    (hpos : positions.get (user, id) = some pos) (hamount : amount pos' = amount pos) :
    PoolTotals total amount counter pools (positions.set (user, id) pos') := by
  refine ⟨h.below, h.nonneg.set (hamount ▸ h.nonneg _ pos hpos), ?_⟩
  rw [grouped_set, hpos, share_some, hamount, sub_self, Finsupp.single_zero, add_zero, h.sum]

theorem deposit (h : PoolTotals total amount counter pools positions) (hpool : pools.get id = some pool) (hx : 0 ≤ x)
    (hamount : (amount pos' : ℤ) = share (fun pos => (amount pos : ℤ)) (positions.get (user, id)) + x)
    (htotal : (total pool' : ℤ) = total pool + x) :
    PoolTotals total amount counter (pools.set id pool') (positions.set (user, id) pos') := by
  refine ⟨h.below.set (h.below id pool hpool), h.nonneg.set_add hx hamount, ?_⟩
  rw [shares_set_add _ (by rw [hpool]; exact htotal), grouped_set_add _ _ hamount, h.sum]

theorem withdraw (h : PoolTotals total amount counter pools positions) (hpool : pools.get id = some pool)
    (hpos : positions.get (user, id) = some pos) (htotal : (total pool' : ℤ) = total pool - amount pos) :
    PoolTotals total amount counter (pools.set id pool') (positions.remove (user, id)) := by
  refine ⟨h.below.set (h.below id pool hpool), h.nonneg.remove _, ?_⟩
  rw [shares_set_add _ (by rw [hpool]; exact htotal), grouped_remove, hpos, h.sum]
  rfl

end PoolTotals

def State.FlexibleTotals (s : State) : Prop :=
  PoolTotals RewardPool.totalStaked FlexiblePosition.amount s.flexible.counter s.flexible.pool s.flexible.position

def State.LpTotals (s : State) : Prop :=
  PoolTotals LpPoolConfig.totalLiquidity LpPosition.amount s.lp.counter s.lp.pool s.lp.position

/-- A new pool does not use up its counter. -/
def Call.CountsUp (s : State) : Call → Prop
  | .createRewardPool .. => (s.flexible.counter : ℤ) + 1 ≤ u32.max
  | .createLpPool .. => (s.lp.counter : ℤ) + 1 ≤ u32.max
  | _ => True

instance (s : State) (c : Call) : Decidable (c.CountsUp s) := by
  apply Call.casesOn (motive := fun c => Decidable (c.CountsUp s)) c <;> intros <;> dsimp only [Call.CountsUp] <;>
    infer_instance

section Pools

variable {env : Env} {s s' : State} {c : Call}

theorem execute_flexibleTotals (hs : s.FlexibleTotals) (hc : c.CountsUp s)
    (h : (execute env s c).run .exact = some s') : s'.FlexibleTotals := by
  by_cases hf : c.facility = .flexible
  · cases c with
    | createRewardPool =>
      obtain ⟨_, h⟩ := run_snd_map h
      obtain ⟨-, -, rfl⟩ := createRewardPool_spec h
      exact hs.create hc rfl
    | setRewardPoolActive =>
      obtain ⟨-, pool, hpool, rfl⟩ := setRewardPoolActive_spec h
      exact hs.setPool hpool rfl
    | setRewardPoolRate =>
      obtain ⟨-, pool, hpool, rfl⟩ := setRewardPoolRate_spec h
      exact hs.setPool hpool rfl
    | stakeFlexible =>
      obtain ⟨-, hpos, _, _, position, hpool, -, hposition, hfits, rfl⟩ := stakeFlexible_spec h
      exact hs.deposit hpool hpos.le (flexiblePosition_amount hposition) (wrap_of_fits (hfits rfl))
    | claimFlexibleRewards =>
      obtain ⟨_, h⟩ := run_snd_map h
      obtain ⟨-, _, _, _, _, -, hget, -, -, -, -, -, rfl⟩ := claimFlexibleRewards_spec h
      exact hs.setPosition hget rfl
    | unstakeFlexible =>
      obtain ⟨-, _, _, _, _, _, hpool, hget, -, -, -, -, hfits, rfl⟩ := unstakeFlexible_spec h
      exact hs.withdraw hpool hget (clamp_eq (hfits rfl).2 (hs.le_total hpool hget))
    | _ => cases hf
  · unfold State.FlexibleTotals
    rw [(execute_frame h).flexible hf]
    exact hs

theorem execute_lpTotals (hs : s.LpTotals) (hc : c.CountsUp s) (h : (execute env s c).run .exact = some s') :
    s'.LpTotals := by
  by_cases hf : c.facility = .lp
  · cases c with
    | createLpPool =>
      obtain ⟨_, h⟩ := run_snd_map h
      obtain ⟨-, -, rfl⟩ := createLpPool_spec h
      exact hs.create hc rfl
    | setLpRewardRate =>
      obtain ⟨-, pool, hpool, rfl⟩ := setLpRewardRate_spec h
      exact hs.setPool hpool rfl
    | updateLpDynamicRate =>
      obtain ⟨-, pool, _, hpool, -, rfl⟩ := updateLpDynamicRate_spec h
      exact hs.setPool hpool rfl
    | setLpPoolActive =>
      obtain ⟨-, pool, hpool, rfl⟩ := setLpPoolActive_spec h
      exact hs.setPool hpool rfl
    | addLiquidity =>
      obtain ⟨-, hpos, pool, _, position, hpool, -, hposition, hfits, rfl⟩ := addLiquidity_spec h
      exact hs.deposit hpool hpos.le (lpPosition_amount hposition) (wrap_of_fits (hfits rfl))
    | removeLiquidity =>
      obtain ⟨-, pool, _, _, _, _, _, _, _, hpool, hget, -, -, -, -, hfits, rfl⟩ := removeLiquidity_spec h
      obtain ⟨-, -, -, htotal⟩ := hfits rfl
      exact hs.withdraw hpool hget (clamp_eq htotal (hs.le_total hpool hget))
    | claimLpRewards =>
      obtain ⟨⟨_, _⟩, h⟩ := run_snd_map h
      obtain ⟨-, _, _, _, _, hpool, hget, -, -, -, rfl⟩ := claimLpRewards_spec h
      exact (hs.setPool hpool (by rfl)).setPosition hget (by rfl)
    | depositLpFees =>
      obtain ⟨-, -, _, _, -, hpool, -, rfl⟩ := depositLpFees_spec h
      exact hs.setPool hpool rfl
    | recordLpPerformance => obtain ⟨-, _, rfl⟩ := recordLpPerformance_spec h; exact hs
    | _ => cases hf
  · unfold State.LpTotals
    rw [(execute_frame h).lp hf]
    exact hs

end Pools

/-! ## Runs -/

section Runs

variable {e : Env} {s : State}

/-- Any calls, as long as the counters of pools do not overflow. -/
def CountsUp : Rule := fun _ _ s c => c.CountsUp s

instance (e e' : Env) (s : State) (c : Call) : Decidable (CountsUp e e' s c) :=
  inferInstanceAs (Decidable (c.CountsUp s))

theorem totals_of_reach (h : (contract .exact).Reach CountsUp e s) :
    s.RewardTotals ∧ s.FlexibleTotals ∧ s.LpTotals := by
  refine h.invariant (P := fun _ s => s.RewardTotals ∧ s.FlexibleTotals ∧ s.LpTotals) ?_ ?_
  · intro e s hinit
    obtain ⟨_, _, _, _, -, -, -, rfl⟩ := contract_init hinit
    exact ⟨⟨by simp [Table.total_eq_finsum], .empty, .empty⟩, .empty, .empty⟩
  · rintro e e' s c s' ⟨hreward, hflexible, hlp⟩ hc hstep
    exact ⟨execute_rewardTotals hreward hstep, execute_flexibleTotals hflexible hc hstep, execute_lpTotals hlp hc hstep⟩

/-- In every run in which nothing overflows, the totals are the sums of the positions, the tier and the weight of a
reward stake are those of its amount, and a withdrawal of any position leaves its total at or above zero, so that the
floor under it changes nothing. -/
theorem cached_totals (h : (contract .exact).Reach CountsUp e s) :
    ((s.reward.totalStaked : ℤ) = ∑ᶠ u, share (fun pos => (pos.amount : ℤ)) (s.reward.position.get u)) ∧
    (∀ id pool, s.flexible.pool.get id = some pool → (pool.totalStaked : ℤ) =
      ∑ᶠ u, share (fun pos => (pos.amount : ℤ)) (s.flexible.position.get (u, id))) ∧
    (∀ id pool, s.lp.pool.get id = some pool → (pool.totalLiquidity : ℤ) =
      ∑ᶠ u, share (fun pos => (pos.amount : ℤ)) (s.lp.position.get (u, id))) ∧
    (∀ u pos, s.reward.position.get u = some pos → pos.tier = (tierForAmount pos.amount).code ∧
      (governanceWeight pos.amount pos.tier).run .exact = some pos.governanceWeight ∧
      max ((s.reward.totalStaked : ℤ) - pos.amount) 0 = s.reward.totalStaked - pos.amount) ∧
    (∀ u id pool pos, s.flexible.pool.get id = some pool → s.flexible.position.get (u, id) = some pos →
      max ((pool.totalStaked : ℤ) - pos.amount) 0 = pool.totalStaked - pos.amount) ∧
    ∀ u id pool pos, s.lp.pool.get id = some pool → s.lp.position.get (u, id) = some pos →
      max ((pool.totalLiquidity : ℤ) - pos.amount) 0 = pool.totalLiquidity - pos.amount := by
  obtain ⟨hreward, hflexible, hlp⟩ := totals_of_reach h
  refine ⟨?_, fun _ _ => hflexible.total_eq, fun _ _ => hlp.total_eq, fun u pos hget => ?_,
    fun u id pool pos hpool hget => ?_, fun u id pool pos hpool hget => ?_⟩
  · rw [hreward.total, Table.total_eq_finsum]
  · obtain ⟨htier, hweight⟩ := hreward.graded u pos hget
    exact ⟨htier, hweight, max_eq_left (sub_nonneg.2 (hreward.le_total hget))⟩
  · exact max_eq_left (sub_nonneg.2 (hflexible.le_total hpool hget))
  · exact max_eq_left (sub_nonneg.2 (hlp.le_total hpool hget))

/-- Stakes, top-ups, claims and withdrawals in every kind of pool. -/
def poolDay : List (Env × Call) :=
  [signed 10 (.fundRewardPool admin 5000),
    signed 10 (.stakeForRewards alice 20000),
    signed 10 (.stakeForRewards bob 3000),
    signed 20 (.stakeForRewards alice 10000),
    signed 20 (.createRewardPool 1500 1000000 1000),
    signed 20 (.stakeFlexible bob 0 3000),
    signed 20 (.stakeFlexible alice 0 500),
    signed 20 (.createLpPool 2000 0),
    signed 20 (.addLiquidity alice 0 6000 0 0),
    signed 20 (.addLiquidity bob 0 2000 0 0),
    signed 30 (.depositLpFees admin 0 400),
    signed 900000 (.claimLpRewards bob 0),
    signed 900000 (.unstakeRewards bob),
    signed 900000 (.unstakeFlexible bob 0),
    signed 900000 (.removeLiquidity alice 0 0 0)]

theorem totals_after_poolDay : ∃ r, (deployment .exact).after CountsUp poolDay = some r ∧
    ∑ᶠ u, share (fun pos => (pos.amount : ℤ)) (r.2.reward.position.get u) = 30000 ∧
    ∑ᶠ u, share (fun pos => (pos.amount : ℤ)) (r.2.flexible.position.get (u, 0)) = 500 ∧
    ∑ᶠ u, share (fun pos => (pos.amount : ℤ)) (r.2.lp.position.get (u, 0)) = 2000 := by
  obtain ⟨htotal, hpools, hlpPools, -⟩ := cached_totals (reach_after (evaluated
    (o := (deployment .exact).after CountsUp poolDay)))
  exact ⟨_, (evaluated _), htotal.symm.trans (by decide +kernel),
    (hpools 0 _ evaluated).symm.trans (by decide +kernel),
    (hlpPools 0 _ evaluated).symm.trans (by decide +kernel)⟩

end Runs

end ArenaX.StakingManager
