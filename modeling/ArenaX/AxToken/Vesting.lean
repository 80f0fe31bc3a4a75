/-
Vesting schedules. Each claim brings what has been claimed to what is vested at its time. A revocation rewrites the
schedule so that the same formula gives what was vested then, at any later time.
-/
import ArenaX.AxToken.Contract

namespace ArenaX.AxToken

open Machine Exec Sample
open Host (Address)

namespace VestingSchedule

/-- Nothing before the end of the cliff, then the part of the total that belongs to the elapsed part of the duration. -/
def vestedAt (v : VestingSchedule) (t : ℤ) : ℤ :=
  if t < v.startTime + v.cliffDuration then 0 else min (v.totalAmount : ℤ)
    (v.totalAmount * (t - v.startTime) / v.duration)

/-- A schedule that was stored, with what has been claimed of it and the time of its revocation. -/
def settled (v : VestingSchedule) (a : Address) (claimed : ℤ) : Option U64 → VestingSchedule
  | none => { v with beneficiary := a, amountClaimed := i128.wrap claimed, revoked := false }
  | some r =>
    ⟨a, v.startTime, v.cliffDuration, u64.saturate (r - v.startTime), i128.wrap (v.vestedAt r), i128.wrap claimed, true⟩

theorem amountClaimed_settled {v : VestingSchedule} {a : Address} {claimed : ℤ} {r : Option U64} (h : 0 ≤ claimed)
    (hle : claimed ≤ v.totalAmount) : ((v.settled a claimed r).amountClaimed : ℤ) = claimed := by
  cases r <;> exact wrap_of_nonneg h (hle.trans v.totalAmount.hi)

/-- What the checks of a new schedule leave, and a cliff that ends. -/
structure Valid (v : VestingSchedule) : Prop where
  total : 0 < (v.totalAmount : ℤ)
  duration : 0 < (v.duration : ℤ)
  cliff : u64.Fits (v.startTime + v.cliffDuration)

namespace Valid

variable {v : VestingSchedule} {env : Env} {t t' claimed : ℤ} {a : Address} {r : Option U64} {y : I128} (hv : v.Valid)
include hv

theorem vestedAt_bounds (t : ℤ) : 0 ≤ v.vestedAt t ∧ v.vestedAt t ≤ v.totalAmount := by
  have htotal := hv.total
  have hcliff := v.cliffDuration.bounds
  unfold vestedAt
  split
  · exact ⟨le_rfl, htotal.le⟩
  · exact ⟨le_min htotal.le (Int.ediv_nonneg (mul_nonneg htotal.le (by omega)) hv.duration.le), min_le_left _ _⟩

theorem vestedAt_mono (h : t ≤ t') : v.vestedAt t ≤ v.vestedAt t' := by
  by_cases hcliff : t < v.startTime + v.cliffDuration
  · rw [vestedAt, if_pos hcliff]
    exact (hv.vestedAt_bounds t').1
  · rw [vestedAt, if_neg hcliff, vestedAt, if_neg (by omega)]
    exact min_le_min_left _ (Int.ediv_le_ediv hv.duration (mul_le_mul_of_nonneg_left (by omega) hv.total.le))

theorem wrap_vestedAt (t : ℤ) : (i128.wrap (v.vestedAt t) : ℤ) = v.vestedAt t := by
  have hbounds := hv.vestedAt_bounds t
  exact wrap_of_nonneg hbounds.1 (hbounds.2.trans v.totalAmount.hi)

theorem cliffEnd_settled : ((v.settled a claimed r).cliffEnd : ℤ) = v.startTime + v.cliffDuration := by
  cases r <;> exact wrap_of_fits hv.cliff

/-- From a revocation on the formula gives what was vested then. -/
theorem vestedAmount_revoked {u : U64} (hu : (u : ℤ) ≤ env.timestamp) :
    (v.settled a claimed (some u)).vestedAmount env = pure (i128.wrap (v.vestedAt u)) := by
  unfold vestedAmount
  rw [hv.cliffEnd_settled]
  split
  · rw [vestedAt, if_pos (by omega)]
    rfl
  · refine if_pos ?_
    simp only [settled, IntType.saturate_eq]
    omega

theorem run_vestedAmount (hr : ∀ u ∈ r, (u : ℤ) ≤ env.timestamp)
    (h : ((v.settled a claimed r).vestedAmount env).run .exact = some y) : y = v.vestedAt (r.getD env.timestamp) := by
  cases r with
  | some u =>
    rw [hv.vestedAmount_revoked (hr u rfl), run_pure_iff] at h
    rw [← h, hv.wrap_vestedAt, Option.getD_some]
  | none =>
    have hcliff := v.cliffDuration.bounds
    have hstart := v.startTime.bounds
    have htime := env.timestamp.bounds
    unfold vestedAmount at h
    rw [hv.cliffEnd_settled] at h
    rw [Option.getD_none, vestedAt]
    split at h
    · rename_i hlt
      cases (run_pure_iff _).1 h
      rw [if_pos hlt]
      rfl
    · rename_i hge
      have helapsed : (u64.saturate (env.timestamp - v.startTime) : ℤ) = env.timestamp - v.startTime :=
        saturate_of_fits ⟨by show (0 : ℤ) ≤ _; omega, by show _ ≤ (18446744073709551615 : ℤ); omega⟩
      simp only [settled, helapsed] at h
      rw [if_neg hge]
      split at h
      · rename_i hdone
        cases (run_pure_iff _).1 h
        exact (min_eq_left (Int.le_ediv_of_mul_le hv.duration (mul_le_mul_of_nonneg_left hdone hv.total.le))).symm
      · rename_i hopen
        simp only [run_iff, run_unchecked_exact, run_quot] at h
        obtain ⟨product, hproduct, -, hy⟩ := h
        rw [hproduct, Int.tdiv_eq_ediv_of_nonneg (mul_nonneg hv.total.le (by omega))] at hy
        rw [hy, min_eq_right (Int.ediv_le_of_le_mul hv.duration (mul_le_mul_of_nonneg_left (not_le.1 hopen).le
          hv.total.le))]

end Valid

end VestingSchedule

/-- The claims of a beneficiary and the revocation of their schedule, at non-decreasing times. -/
inductive Vests (a : Address) (v : VestingSchedule) : ℤ → Option U64 → U64 → State → Prop where
  | stored {table now s} : (storeVestingSchedule table a v.totalAmount v.startTime v.cliffDuration v.duration).run
      .exact = some s.vesting → Vests a v 0 none now s
  | claim {claimed r now s env p} : Vests a v claimed r now s → (now : ℤ) ≤ env.timestamp →
      (claimVestedTokens env s a).run .exact = some p → Vests a v (claimed + p.1) r env.timestamp p.2
  | revoke {claimed now s env p} : Vests a v claimed none now s → (now : ℤ) ≤ env.timestamp →
      (revokeVestingSchedule env s a).run .exact = some p → Vests a v claimed (some env.timestamp) env.timestamp p.2

section Vests

variable {a : Address} {v : VestingSchedule} {claimed : ℤ} {r : Option U64} {now : U64} {s : State} {env : Env}
  {p : I128 × State}

theorem claim_settled (hv : v.Valid) (hget : s.vesting.get a = some (v.settled a claimed r))
    (hr : ∀ u ∈ r, (u : ℤ) ≤ env.timestamp) (hnonneg : 0 ≤ claimed) (hle : claimed ≤ v.totalAmount)
    (h : (claimVestedTokens env s a).run .exact = some p) :
    0 < (p.1 : ℤ) ∧ claimed + p.1 = v.vestedAt (r.getD env.timestamp) ∧
    p.2.vesting.get a = some (v.settled a (claimed + p.1) r) := by
  obtain ⟨x, s'⟩ := p
  obtain ⟨schedule, hschedule, hx, hpos, -, rfl⟩ := claimVestedTokens_spec h
  cases hget.symm.trans hschedule
  have hclaimed := VestingSchedule.amountClaimed_settled (a := a) (r := r) hnonneg hle
  simp only [VestingSchedule.claimable, run_iff, run_unchecked_exact, hclaimed] at hx
  obtain ⟨y, hy, hx⟩ := hx
  rw [hv.run_vestedAmount hr hy] at hx
  refine ⟨hpos, by dsimp only; omega, ?_⟩
  rw [Table.get_set_self, hclaimed]
  cases r <;> rfl

theorem revoke_settled (hv : v.Valid) (hget : s.vesting.get a = some (v.settled a claimed r))
    (h : (revokeVestingSchedule env s a).run .exact = some p) :
    r = none ∧ p.1 = v.totalAmount - v.vestedAt env.timestamp ∧
      p.2.vesting.get a = some (v.settled a claimed (some env.timestamp)) := by
  simp only [revokeVestingSchedule, run_iff, run_unchecked_exact] at h
  obtain ⟨_, -, schedule, hschedule, -, hrevoked, y, hy, _, hx, rfl⟩ := h
  cases hget.symm.trans hschedule
  cases r with
  | some u => exact absurd rfl hrevoked
  | none =>
    have hvested := hv.run_vestedAmount (fun _ hu => absurd hu (Option.not_mem_none _)) hy
    have hy' : y = i128.wrap (v.vestedAt env.timestamp) := IntType.Val.ext (hvested.trans (hv.wrap_vestedAt _).symm)
    refine ⟨rfl, hx.trans (by rw [hvested]; rfl), ?_⟩
    rw [Table.get_set_self, hy']
    rfl

/-- The schedule is as it was stored, up to what has been claimed and the revocation. -/
theorem Vests.settled (hcliff : u64.Fits (v.startTime + v.cliffDuration)) (h : Vests a v claimed r now s) :
    v.Valid ∧ s.vesting.get a = some (v.settled a claimed r) ∧ (∀ u ∈ r, (u : ℤ) ≤ now) ∧
      0 ≤ claimed ∧ claimed ≤ v.vestedAt (r.getD now) := by
  induction h with
  | stored h =>
    simp only [storeVestingSchedule, run_iff, not_le] at h
    obtain ⟨-, htotal, -, hduration, hstored⟩ := h
    have hv : v.Valid := ⟨htotal, lt_of_le_of_ne v.duration.lo (Ne.symm hduration), hcliff⟩
    refine ⟨hv, ?_, by rintro _ ⟨⟩, le_rfl, (hv.vestedAt_bounds _).1⟩
    rw [← hstored, Table.get_set_self]
    rfl
  | @claim claimed r now s env p _ hnow h ih =>
    obtain ⟨hv, hget, hr, hnonneg, hle⟩ := ih
    have hr' : ∀ u ∈ r, (u : ℤ) ≤ env.timestamp := fun u hu => (hr u hu).trans hnow
    obtain ⟨hpos, hclaimed, hget'⟩ := claim_settled hv hget hr' hnonneg (hle.trans (hv.vestedAt_bounds _).2) h
    exact ⟨hv, hget', hr', by omega, hclaimed.le⟩
  | revoke _ hnow h ih =>
    obtain ⟨hv, hget, -, hnonneg, hle⟩ := ih
    refine ⟨hv, (revoke_settled hv hget h).2.2, ?_, hnonneg, hle.trans (hv.vestedAt_mono hnow)⟩
    rintro _ ⟨⟩
    exact le_rfl

/-- A claim brings what has been claimed to what is vested, at its own time or at that of the revocation. The revocation
returns the rest, and what it leaves can be claimed. -/
theorem vesting_exact (hcliff : u64.Fits (v.startTime + v.cliffDuration)) (h : Vests a v claimed r now s) :
    0 ≤ claimed ∧ claimed ≤ v.vestedAt (r.getD now) ∧ v.vestedAt (r.getD now) ≤ v.totalAmount ∧
    ∀ env, (now : ℤ) ≤ env.timestamp →
      (∀ p, (claimVestedTokens env s a).run .exact = some p → 0 < (p.1 : ℤ) ∧
        claimed + p.1 = v.vestedAt (r.getD env.timestamp)) ∧
      (∀ p, (revokeVestingSchedule env s a).run .exact = some p →
        r = none ∧ (p.1 : ℤ) = v.totalAmount - v.vestedAt env.timestamp ∧ claimed ≤ v.vestedAt env.timestamp) ∧
      ∀ u ∈ r, a ∈ env.signers → claimed < v.vestedAt u → ∃ p, (claimVestedTokens env s a).run .wrapping = some p := by
  obtain ⟨hv, hget, hr, hnonneg, hle⟩ := h.settled hcliff
  refine ⟨hnonneg, hle, (hv.vestedAt_bounds _).2, fun env hnow => ⟨fun p h => ?_, fun p h => ?_, ?_⟩⟩
  · obtain ⟨hpos, hclaimed, -⟩ := claim_settled hv hget (fun u hu => (hr u hu).trans hnow)
      hnonneg (hle.trans (hv.vestedAt_bounds _).2) h
    exact ⟨hpos, hclaimed⟩
  · obtain ⟨rfl, hx, -⟩ := revoke_settled hv hget h
    exact ⟨rfl, hx, hle.trans (hv.vestedAt_mono hnow)⟩
  · rintro u ⟨⟩ hsigned hlt
    have hu := (hr u rfl).trans hnow
    have hbounds := hv.vestedAt_bounds u
    have hmax := v.totalAmount.hi
    have hrest : (i128.wrap (v.vestedAt u - claimed) : ℤ) = v.vestedAt u - claimed :=
      wrap_of_nonneg (by omega) (by omega)
    -- something is vested, so the cliff had ended
    have hopen : ¬ (env.timestamp : ℤ) < (v.settled a claimed (some u)).cliffEnd := by
      rw [hv.cliffEnd_settled]
      intro hbefore
      rw [VestingSchedule.vestedAt, if_pos (by omega)] at hlt
      omega
    simp only [claimVestedTokens, VestingSchedule.claimable, run_iff, run_requireAuth, run_unchecked_wrapping]
    refine ⟨_, (), hsigned, _, hget, (), hopen, i128.wrap (v.vestedAt u - claimed), ⟨i128.wrap (v.vestedAt u), ?_, ?_⟩,
      (), by omega, _, rfl, _, rfl, _, rfl, rfl⟩
    · rw [hv.vestedAmount_revoked hu, run_pure]
    · rw [hv.wrap_vestedAt, VestingSchedule.amountClaimed_settled hnonneg (by omega)]

/-- 1200 over 300 seconds, and nothing in the first 50. -/
def grant : VestingSchedule := ⟨alice, 100, 50, 300, 1200, 0, false⟩

def granted : State := { deployed with vesting := Table.set ∅ alice grant }

/-- Of 400 claimed and 600 vested at the revocation, 200 are left. -/
theorem vesting_revoked_midway : ∃ claimed s p, Vests alice grant claimed (some 250) 250 s ∧ claimed = 400 ∧
    (claimVestedTokens (signedAt 3 1000) s alice).run .exact = some p ∧ (p.1 : ℤ) = 200 ∧
    claimed + p.1 = grant.vestedAt 250 := by
  have hstored : Vests alice grant 0 none 0 granted :=
    .stored (show (storeVestingSchedule ∅ alice _ _ _ _).run .exact = some granted.vesting from rfl)
  have hclaimed : Vests alice grant _ none (signedAt 1 200).timestamp _ :=
    hstored.claim (by decide) evaluated
  have hrevoked : Vests alice grant _ (some (signedAt 2 250).timestamp) (signedAt 2 250).timestamp _ :=
    hclaimed.revoke (by decide) evaluated
  refine ⟨_, _, _, hrevoked, by decide +kernel, evaluated, by decide +kernel, ?_⟩
  exact (((vesting_exact (by decide) hrevoked).2.2.2 (signedAt 3 1000) (by decide)).1 _ (evaluated _)).2

end Vests

end ArenaX.AxToken
