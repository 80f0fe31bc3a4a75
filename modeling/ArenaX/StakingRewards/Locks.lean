/-
Locks. A deposit commits its tokens until its time plus its lock period; withdrawals take the oldest deposits first. The
contract keeps one lock for the whole position, counted from the first deposit, so a later deposit keeps its commitment
only where that lock does not end before the deposit's own.
-/
import ArenaX.Lib.Fifo
import ArenaX.StakingRewards.Contract
import Mathlib.Algebra.FreeMonoid.Basic

namespace ArenaX.StakingRewards

open Machine Exec Sample
open Host (Address Holdings)

/-! ## Deposits -/

/-- When tokens were deposited, and for how long. -/
structure Commitment where
  depositedAt : U64
  lockPeriod : U64
deriving DecidableEq

/-- When a commitment ends. -/
def Commitment.ends (commitment : Commitment) : ℤ := commitment.depositedAt + commitment.lockPeriod

inductive Movement where
  | deposit (commitment : Commitment) (amount : ℤ)
  | withdrawal (amount : ℤ)

/-- What a call moves into a user's position, or out of it. -/
def movements (user : Address) (env : Env) (_ : State) : Call → FreeAddMonoid Movement
  | .stakeTokens staker amount lockPeriod =>
    if staker = user then .of (.deposit ⟨env.timestamp, lockPeriod⟩ amount) else 0
  | .unstakeTokens staker amount => if staker = user then .of (.withdrawal amount) else 0
  | _ => 0

/-- What a movement makes of a user's deposits, the oldest of which comes first. -/
def Movement.apply (lots : List (Lot Commitment)) : Movement → List (Lot Commitment)
  | .deposit commitment amount => lots ++ [⟨commitment, amount⟩]
  | .withdrawal amount => Fifo.left amount lots

/-- A user's deposits, as far as they are not withdrawn. -/
def deposits (history : FreeAddMonoid Movement) : List (Lot Commitment) := history.toList.foldl Movement.apply []

theorem deposits_add_of (history : FreeAddMonoid Movement) (movement : Movement) :
    deposits (history + .of movement) = movement.apply (deposits history) := by
  rw [deposits, FreeAddMonoid.toList_add, List.foldl_append]
  rfl

theorem movements_of_other {user : Address} {env : Env} {s : State} {c : Call} (hc : c.staker ≠ some user) :
    movements user env s c = 0 := by
  cases c with
  | stakeTokens | unstakeTokens => exact if_neg fun e => hc (congrArg some e)
  | _ => rfl

/-! ## Where the lock of the position covers every deposit -/

/-- After a deposit of the user, the lock of the position does not end before the deposit's own, and the position stays
in the range of its amount and of its times. -/
def Call.Covered (user : Address) (env : Env) (s : State) : Call → Prop
  | .stakeTokens staker amount lockPeriod => staker = user →
    (s.stake.get user = none → (env.timestamp : ℤ) + lockPeriod ≤ u64.max) ∧
    ∀ position ∈ s.stake.get user, (position.amount : ℤ) + amount ≤ i128.max ∧
      (env.timestamp : ℤ) + lockPeriod ≤ position.stakedAt + max (position.lockPeriod : ℤ) lockPeriod ∧
      (position.stakedAt : ℤ) + max (position.lockPeriod : ℤ) lockPeriod ≤ u64.max
  | _ => True

instance (user : Address) (env : Env) (s : State) (c : Call) : Decidable (c.Covered user env s) := by
  apply Call.casesOn (motive := fun c => Decidable (c.Covered user env s)) c <;> intros <;>
    dsimp only [Call.Covered] <;> infer_instance

def Covered (user : Address) : Rule := fun _ e s c => c.Covered user e s

instance (user : Address) (e e' : Env) (s : State) (c : Call) : Decidable (Covered user e e' s c) :=
  inferInstanceAs (Decidable (c.Covered user e' s))

/-- The deposits make up the position, and none is committed for longer than the position is locked. -/
structure StakingPosition.Covers (lots : List (Lot Commitment)) (position : StakingPosition) : Prop where
  pos : ∀ lot ∈ lots, 0 < lot.amount
  stock : Fifo.stock lots = position.amount
  ends : ∀ lot ∈ lots, lot.tag.ends ≤ (position.stakedAt : ℤ) + position.lockPeriod
  fits : (position.stakedAt : ℤ) + position.lockPeriod ≤ u64.max

/-- A user's deposits are what is in their position. -/
structure State.Covers (user : Address) (lots : List (Lot Commitment)) (s : State) : Prop where
  none : s.stake.get user = none → lots = []
  some : ∀ position, s.stake.get user = some position → position.Covers lots

section Steps

variable {m : Mode} {env : Env} {s s' : State} {c : Call} {user : Address} {amount : I128} {lockPeriod : U64}
  {lots : List (Lot Commitment)} {position : StakingPosition}

theorem StakingPosition.Covers.unlockedAt_eq (h : position.Covers lots) :
    (unlockedAt position : ℤ) = position.stakedAt + position.lockPeriod := by
  have := position.stakedAt.bounds
  have := position.lockPeriod.bounds
  exact wrap_of_nonneg (by omega) h.fits

theorem stakeTokens_covers (hs : s.Covers user lots)
    (hok : (Call.stakeTokens user amount lockPeriod).Covered user env s)
    (h : (stakeTokens env s user amount lockPeriod).run m = some s') :
    s'.Covers user (lots ++ [⟨⟨env.timestamp, lockPeriod⟩, amount⟩]) := by
  obtain ⟨-, hpos, params, token, position, total, -, -, hposition, -, rfl⟩ := stakeTokens_spec h
  obtain ⟨hokNone, hokSome⟩ := hok rfl
  refine ⟨fun hnone => ?_, fun p hp => ?_⟩
  · dsimp only at hnone
    rw [Table.get_set_self] at hnone
    cases hnone
  rw [Table.get_set_self] at hp
  cases hp
  cases hget : s.stake.get user with
  | none =>
    obtain ⟨hamount, -, hlock, hstaked, -⟩ := deposited_of_none hget hposition
    rw [hs.none hget]
    refine ⟨by simpa using hpos, by simp [hamount], ?_, ?_⟩
    · simp [Commitment.ends, hlock, hstaked]
    · rw [hlock, hstaked]
      exact hokNone hget
  | some current =>
    obtain ⟨hrange, hends, hfits⟩ := hokSome current hget
    have hcurrent := hs.some current hget
    have htopped := deposited_of_some hget hposition
    have hstock := hcurrent.stock
    have hnonneg := Fifo.stock_nonneg hcurrent.pos
    have hamount : (position.amount : ℤ) = current.amount + amount := by
      rw [((run_unchecked m i128 _ _).1 htopped.amount).1]
      exact wrap_of_nonneg (by omega) hrange
    have hlock : position.lockPeriod = max (current.lockPeriod : ℤ) lockPeriod := by
      rw [htopped.lockPeriod, toInt_max]
    refine ⟨?_, ?_, ?_, by rwa [htopped.stakedAt, hlock]⟩
    · simpa using fun lot hlot => hlot.elim (hcurrent.pos lot) fun e => e ▸ hpos
    · simp [hstock, hamount]
    · -- the old deposits are committed no longer than before, and the lock only grows
      rw [htopped.stakedAt, hlock]
      simp only [List.mem_append, List.mem_singleton]
      rintro lot (hlot | rfl)
      · exact (hcurrent.ends lot hlot).trans (by gcongr; exact le_max_left _ _)
      · exact hends

theorem unstakeTokens_covers (hs : s.Covers user lots) (h : (unstakeTokens env s user amount).run m = some s') :
    s'.Covers user (Fifo.left amount lots) := by
  obtain ⟨-, hpos, params, token, position, left, penalty, payout, total, pool, -, -, hget, hle, hleft, -, -, -, -,
    rfl⟩ := unstakeTokens_spec h
  have hposition := hs.some position hget
  have hstock := hposition.stock
  have hrest := hleft.amount_eq hpos hle
  have hleftStock := Fifo.stock_left hpos.le (hstock.symm ▸ hle)
  unfold State.store
  split
  · rename_i hzero
    refine ⟨fun _ => ?_, fun p hp => ?_⟩
    · rw [show amount = Fifo.stock lots by omega]
      exact Fifo.left_stock hposition.pos
    · dsimp only at hp
      rw [Table.get_remove_self] at hp
      cases hp
  · refine ⟨fun hnone => ?_, fun p hp => ?_⟩
    · dsimp only at hnone
      rw [Table.get_set_self] at hnone
      cases hnone
    · dsimp only at hp
      rw [Table.get_set_self] at hp
      cases hp
      refine ⟨Fifo.left_pos hposition.pos, by omega, ?_, ?_⟩
      · rw [hleft.stakedAt, hleft.lockPeriod]
        exact Fifo.forall_left (P := fun c : Commitment => c.ends ≤ position.stakedAt + position.lockPeriod)
          hposition.ends
      · rw [hleft.stakedAt, hleft.lockPeriod]
        exact hposition.fits

theorem claimRewards_covers {payout : I128} (hs : s.Covers user lots)
    (h : (claimRewards env s user).run m = some (payout, s')) : s'.Covers user lots := by
  obtain ⟨-, params, token, position, accrued, rewards, pending, pool, -, -, hget, -, -, -, -, -, -, rfl⟩ :=
    claimRewards_spec h
  have hposition := hs.some position hget
  refine ⟨fun hnone => ?_, fun p hp => ?_⟩
  · dsimp only at hnone
    rw [Table.get_set_self] at hnone
    cases hnone
  · dsimp only at hp
    rw [Table.get_set_self] at hp
    cases hp
    exact { hposition with }

/-- A step keeps the deposits and the position together. -/
theorem execute_covers {history : FreeAddMonoid Movement} (hs : s.Covers user (deposits history))
    (hok : c.Covered user env s) (h : (execute env s c).run m = some s') :
    s'.Covers user (deposits (history + movements user env s c)) := by
  by_cases hc : c.staker = some user
  · cases c with
    | stakeTokens =>
      cases hc
      rw [movements, if_pos rfl, deposits_add_of]
      exact stakeTokens_covers hs hok h
    | unstakeTokens =>
      cases hc
      rw [movements, if_pos rfl, deposits_add_of]
      exact unstakeTokens_covers hs h
    | claimRewards =>
      cases hc
      obtain ⟨_, h⟩ := run_snd_map h
      rw [show movements user env s (.claimRewards user) = 0 from rfl, add_zero]
      exact claimRewards_covers hs h
    | _ => cases hc
  · have hget := execute_stake hc h
    rw [movements_of_other hc, add_zero]
    exact ⟨fun hnone => hs.none (hget ▸ hnone), fun p hp => hs.some p (hget ▸ hp)⟩

end Steps

/-! ## Runs -/

section Runs

variable {m : Mode} {e env : Env} {s s' : State} {user : Address} {amount : I128} {history : FreeAddMonoid Movement}

theorem tally_covers (h : (contract m).Tally (Covered user) (movements user) history e s) :
    s.Covers user (deposits history) := by
  refine h.invariant (P := fun history _ s => s.Covers user (deposits history)) ?_ ?_
  · intro e s hinit
    obtain ⟨tokens, admin, token, -, rfl⟩ := contract_init hinit
    refine ⟨fun _ => rfl, fun p hp => ?_⟩
    cases hp
  · intro history e e' s c s' _ hs hok hstep
    exact execute_covers hs hok hstep

/-- Where the lock of the position covers every deposit, a withdrawal takes its amount from the oldest deposits, and if
one of those is still committed, the penalty is charged. -/
theorem committed_tokens_pay (h : (contract m).Tally (Covered user) (movements user) history e s)
    (hstep : (unstakeTokens env s user amount).run m = some s') :
    Fifo.stock (Fifo.taken amount (deposits history)) = amount ∧
    ((∃ lot ∈ Fifo.taken amount (deposits history), (env.timestamp : ℤ) < lot.tag.ends) →
      ∃ params token, ∃ penalty payout : I128, s.params = some params ∧ s.token = some token ∧
        (earlyPenalty params amount).run m = some penalty ∧
        (unchecked i128 (amount - penalty) : Result I128).run m = some payout ∧
        s'.tokens = s.tokens.move token env.currentContract user payout) := by
  obtain ⟨-, hpos, params, token, position, left, penalty, payout, total, pool, hparams, htoken, hget, hle, -, hpenalty,
    hpayout, -, -, rfl⟩ := unstakeTokens_spec hstep
  have hposition := (tally_covers h).some position hget
  refine ⟨Fifo.stock_taken hposition.pos hpos.le (hposition.stock.symm ▸ hle), ?_⟩
  rintro ⟨lot, hlot, hearly⟩
  have hends := Fifo.forall_taken (P := fun c : Commitment => c.ends ≤ (position.stakedAt : ℤ) + position.lockPeriod)
    hposition.ends lot hlot
  have hlocked : (env.timestamp : ℤ) < unlockedAt position := by
    rw [hposition.unlockedAt_eq]
    omega
  rw [penaltyOf, if_pos hlocked] at hpenalty
  exact ⟨params, token, penalty, payout, hparams, htoken, hpenalty, hpayout, rfl⟩

/-- Calls of one user about their position, in order of time. -/
def InTime (user : Address) : Rule := fun e e' _ c => c.staker = some user ∧ (e.timestamp : ℤ) ≤ e'.timestamp
deriving Decidable

/-- Alice deposits 1000 for a hundred seconds, and as much again for another time. -/
def Sample.twice (time lockPeriod : ℤ) : List (Env × Call) :=
  [signed 10 (.stakeTokens alice 1000 100),
    signed time (.stakeTokens alice 1000 (u64.wrap lockPeriod))]

/-- With a second deposit for fifty seconds after half of the lock, both are covered: who takes out 1500 before the end
pays the penalty. -/
theorem covered_withdrawal_pays : ∃ history e s s',
    (contract .wrapping).Tally (Covered alice) (movements alice) history e s ∧
    (unstakeTokens (signedAt 100) s alice 1500).run .wrapping = some s' ∧
    Fifo.stock (Fifo.taken (i128.wrap 1500 : I128) (deposits history)) = (i128.wrap 1500 : I128) ∧
    ∃ params token, ∃ penalty payout : I128, s.params = some params ∧ s.token = some token ∧
      (earlyPenalty params 1500).run .wrapping = some penalty ∧
      (unchecked i128 ((i128.wrap 1500 : I128) - penalty) : Result I128).run .wrapping = some payout ∧
      s'.tokens = s.tokens.move token (signedAt 100).currentContract alice payout := by
  have htally := tally_after (movements alice)
    (evaluated (o := (deployment .wrapping).after (Covered alice) (twice 60 50)))
  refine ⟨_, _, _, _, htally, evaluated, by decide +kernel, ?_⟩
  exact (committed_tokens_pay htally (evaluated _)).2 (by decide +kernel)

/-- With a second deposit for as long just before the lock ends, the whole position leaves a little later without a
penalty, while the second deposit is still committed. -/
theorem second_deposit_leaves_early : ∃ history e s s',
    (contract .wrapping).Tally (InTime alice) (movements alice) history e s ∧
    (e.timestamp : ℤ) ≤ (signedAt 120).timestamp ∧
    (unstakeTokens (signedAt 120) s alice 2000).run .wrapping = some s' ∧
    (s.params.map fun params => (params.earlyUnstakePenaltyBps : ℤ)) = some 500 ∧
    (∃ lot ∈ Fifo.taken 2000 (deposits history), lot.amount = 1000 ∧ ((signedAt 120).timestamp : ℤ) < lot.tag.ends) ∧
    s'.tokens token alice - s.tokens token alice = 2000 := by
  have htally := tally_after (movements alice)
    (evaluated (o := (deployment .wrapping).after (InTime alice) (twice 100 100)))
  exact ⟨_, _, _, _, htally, by decide +kernel, evaluated, by decide +kernel⟩

end Runs

end ArenaX.StakingRewards
