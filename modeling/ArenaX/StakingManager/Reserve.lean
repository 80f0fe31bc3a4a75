/-
What claims take from the reserve. A claim pays what is pending as far as the common reserve of rewards goes, and
settles the position also where the reserve cannot pay all of it.
-/
import ArenaX.StakingManager.Rates
import ArenaX.StakingManager.Solvency

namespace ArenaX.StakingManager

open Machine Exec Sample
open Host (Address)

section Claims

variable {env : Env} {s : State} {user : Address} {r : I128 × State}

theorem accrue_settled {amount a : I128} {rate : U32} {since now year : U64}
    (h : (accrue amount rate since now year).run .wrapping = some a) : (accrue amount rate now now year).run
      .wrapping = some 0 := by
  simp only [accrue, run_iff, run_quot] at h
  obtain ⟨-, -, -, -, hyear, -⟩ := h
  have helapsed : (u64.saturate ((now : ℤ) - now) : ℤ) = 0 := by rw [sub_self]; rfl
  simp only [accrue, run_bind, unchecked_wrapping, Option.bind_some, helapsed, mul_zero]
  exact (run_quot _ _ _ _ _).2 ⟨hyear, (Int.zero_tdiv _).symm⟩

/-- What is pending is paid as far as the reserve goes, and is kept to the last unit if and only if the reserve covers
all of it. -/
def PaysFrom (reserve x : I128) (before after : Result I128) : Prop :=
  ∃ a rest, before.run .wrapping = some a ∧ x = a.min reserve ∧ after.run .wrapping = some rest ∧
    ((rest : ℤ) = a - x ↔ (a : ℤ) ≤ reserve)

theorem PaysFrom.of_settled {reserve a : I128} {before after again : Result I128} (ha : before.run .wrapping = some a)
    (hafter : after.run .wrapping = (again >>= fun p => unchecked i128 (p + (0 : I128))).run .wrapping)
    (hagain : again.run .wrapping = some 0) : PaysFrom reserve (a.min reserve) before after := by
  refine ⟨a, 0, ha, rfl, ?_, ?_⟩
  · rw [hafter, run_bind, hagain]
    rfl
  · rw [toInt_min, toInt_zero]
    omega

theorem claims_pay_from_reserve :
    ((claimRewards env s user).run .wrapping = some r →
      PaysFrom s.reward.pool r.1 (pendingRewards env s user) (pendingRewards env r.2 user)) ∧
    ∀ poolId, (claimFlexibleRewards env s user poolId).run .wrapping = some r →
      PaysFrom s.reward.pool r.1 (pendingFlexibleRewards env s user poolId)
      (pendingFlexibleRewards env r.2 user poolId) := by
  obtain ⟨x, s'⟩ := r
  constructor
  · intro h
    obtain ⟨-, cfg, pos, a, -, hcfg, hget, ha, -, rfl, -, -, rfl⟩ := claimRewards_spec h
    obtain ⟨p, hp, -⟩ := (run_bind_iff _).1 ha
    refine .of_settled ?_ ?_ (accrue_settled hp)
    · rw [run_pendingRewards hcfg, hget]
      exact ha
    · rw [run_pendingRewards (by exact hcfg), Table.get_set_self]
      rfl
  · intro poolId h
    obtain ⟨-, pool, pos, a, -, hpool, hget, ha, -, rfl, -, -, rfl⟩ := claimFlexibleRewards_spec h
    obtain ⟨p, hp, -⟩ := (run_bind_iff _).1 ha
    refine .of_settled ?_ ?_ (accrue_settled hp)
    · rw [run_pendingFlexibleRewards, hpool, hget]
      exact ha
    · rw [run_pendingFlexibleRewards, hpool, Table.get_set_self]
      rfl

/-- A stake of 20000, which earns 2400 in a year. -/
def stakedOn (reserve : ℤ) : List (Env × Call) :=
  [signed 10 (.fundRewardPool admin (i128.wrap reserve)), signed 10 (.stakeForRewards alice 20000)]

theorem claim_from_full_reserve : ∃ r r', (deployment .wrapping).after Unrestricted (stakedOn 5000) = some r ∧
    (claimRewards (signedAt 31536010) r.2 alice).run .wrapping = some r' ∧
    PaysFrom r.2.reward.pool r'.1 (pendingRewards (signedAt 31536010) r.2 alice)
    (pendingRewards (signedAt 31536010) r'.2 alice) :=
  ⟨_, _, evaluated, evaluated,
    claims_pay_from_reserve.1 (evaluated _)⟩

/-- Of 2400 the reserve pays 100, and the rest is gone. -/
theorem claim_from_short_reserve : ∃ e s r, (contract .wrapping).Reach Unrestricted e s ∧
    (pendingRewards (signedAt 31536010) s alice).run .wrapping = some 2400 ∧
    (claimRewards (signedAt 31536010) s alice).run .wrapping = some r ∧ (r.1 : ℤ) = 100 ∧
    (pendingRewards (signedAt 31536010) r.2 alice).run .wrapping = some 0 := by
  have hreach := reach_after (evaluated (o := (deployment .wrapping).after Unrestricted (stakedOn 100)))
  exact ⟨_, _, _, hreach, by decide +kernel, evaluated, by decide +kernel⟩

end Claims

end ArenaX.StakingManager
