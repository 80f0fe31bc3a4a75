/-
The books of tournament stakes: the records themselves, and the summaries kept beside them by hand. The summaries of
a tournament follow its records through stakes and slashes. The summary of a user counts what was ever staked: it
is off by what the user has been slashed, and a stake that is slashed to nothing still counts as a tournament. No
record is ever marked as withdrawable, so a stake that is left when its tournament ends stays where it is.
-/
import ArenaX.StakingManager.Frame

namespace ArenaX.StakingManager

open Machine Exec Sample
open Host (Address Holdings)
open Table (share share_none share_some)

/-- Shifting a counter in `i32` arithmetic is shifting it in its own. -/
theorem shiftCounter_eq (counter : U32) (delta : ℤ) : shiftCounter counter delta = u32.wrap (counter + delta) := by
  rw [shiftCounter, wrap_wrap_add]
  exact IntType.wrap_wrap_cast (by rfl) _

@[simp] theorem UserStakeInfo.moved_totalSlashed (info : UserStakeInfo) (staked active completed : ℤ) :
    (info.moved staked 0 active completed).totalSlashed = info.totalSlashed := by
  simp [UserStakeInfo.moved]

@[simp] theorem UserStakeInfo.moved_totalStaked (info : UserStakeInfo) (slashed active completed : ℤ) :
    (info.moved 0 slashed active completed).totalStaked = info.totalStaked := by
  simp [UserStakeInfo.moved]

/-! ## The books -/

/-- The summaries follow the records, and no record is withdrawable. -/
structure State.Booked (s : State) : Prop where
  positive : s.tournament.stake.All fun _ info => 0 < (info.amount : ℤ)
  staked : shares (fun info => (info.totalStaked : ℤ)) s.tournament.info =
    grouped (fun info => (info.amount : ℤ)) Prod.fst s.tournament.stake
  players : shares (fun info => (info.participantCount : ℤ)) s.tournament.info =
    grouped (fun _ => 1) Prod.fst s.tournament.stake
  users : shares (fun info => (info.totalStaked : ℤ) - info.totalSlashed) s.tournament.userInfo =
    grouped (fun info => (info.amount : ℤ)) Prod.snd s.tournament.stake
  slashed : 0 ≤ shares (fun info => (info.totalSlashed : ℤ)) s.tournament.userInfo

/-- The summary of a user who was never slashed. -/
structure State.Unslashed (user : Address) (s : State) : Prop where
  slashed : shares (fun info => (info.totalSlashed : ℤ)) s.tournament.userInfo user = 0
  active : shares (fun info => (info.activeTournaments : ℤ)) s.tournament.userInfo user =
    grouped (fun _ => 1) Prod.snd s.tournament.stake user

section Steps

variable {m : Mode} {env : Env} {s s' : State} {c : Call} {user slashedBy : Address} {tournamentId : BytesN32}
  {amount : I128}

/-- A quantity of a summary that is zero at first. -/
theorem share_userInfo (q : UserStakeInfo → ℤ) (hq : q ⟨user, 0, 0, 0, 0⟩ = 0) :
    share q (s.tournament.userInfo.get user) = q (s.getUserStakeInfo user) := by
  unfold State.getUserStakeInfo
  cases s.tournament.userInfo.get user with
  | none => exact hq.symm
  | some info => rfl

/-- A stake leaves the range of no summary. -/
def Call.Bookable (s : State) : Call → Prop
  | .stake user tournamentId amount =>
    (∀ info ∈ s.tournament.info.get tournamentId,
      (info.totalStaked : ℤ) + amount ≤ i128.max ∧ (info.participantCount : ℤ) + 1 ≤ u32.max) ∧
    ((s.getUserStakeInfo user).totalStaked : ℤ) + amount ≤ i128.max ∧
    ((s.getUserStakeInfo user).activeTournaments : ℤ) + 1 ≤ u32.max
  | .slashValidator .. | .resolveAppeal .. => False
  | _ => True

instance (s : State) (c : Call) : Decidable (c.Bookable s) := by
  apply Call.casesOn (motive := fun c => Decidable (c.Bookable s)) c <;> intros <;> dsimp only [Call.Bookable] <;>
    infer_instance

theorem State.Booked.totalStaked (hs : s.Booked) (user : Address) : ((s.getUserStakeInfo user).totalStaked : ℤ) =
    grouped (fun info => info.amount) Prod.snd s.tournament.stake user +
      (s.getUserStakeInfo user).totalSlashed := by
  have h := DFunLike.congr_fun hs.users user
  rw [shares_apply, share_userInfo _ rfl] at h
  omega

theorem State.Booked.totalSlashed_nonneg (hs : s.Booked) (user : Address) :
    0 ≤ ((s.getUserStakeInfo user).totalSlashed : ℤ) := by
  have h := hs.slashed user
  rwa [shares_apply, share_userInfo _ rfl] at h

theorem stake_booked (hs : s.Booked) (hfits : (Call.stake user tournamentId amount).Bookable s)
    (h : (stake env s user tournamentId amount).run m = some s') : s'.Booked := by
  obtain ⟨-, hpos, hnone, token, info, -, hinfo, rfl⟩ := stake_spec h
  obtain ⟨htournament, htotal, -⟩ := hfits
  obtain ⟨hstaked, hplayers⟩ := htournament info hinfo
  have hstaked' : (i128.wrap (info.totalStaked + amount) : ℤ) = info.totalStaked + amount :=
    wrap_of_fits ⟨by have := info.totalStaked.lo; omega, hstaked⟩
  have hplayers' : (u32.wrap (info.participantCount + 1) : ℤ) = info.participantCount + 1 :=
    wrap_of_fits ⟨by have := info.participantCount.lo; omega, hplayers⟩
  have htotal' : (i128.wrap ((s.getUserStakeInfo user).totalStaked + amount) : ℤ) =
      (s.getUserStakeInfo user).totalStaked + amount :=
    wrap_of_fits ⟨by have := (s.getUserStakeInfo user).totalStaked.lo; omega, htotal⟩
  have hrecord : ∀ {q : StakeInfo → ℤ} {x : ℤ},
      x = share q (s.tournament.stake.get (tournamentId, user)) + x := by
    intro q x
    rw [hnone, share_none, zero_add]
  constructor
  · exact hs.positive.set hpos
  · dsimp only
    rw [shares_set_add (x := amount) _ (by rw [hinfo]; exact hstaked'), hs.staked, grouped_set_add _ _ hrecord]
  · dsimp only
    rw [shares_set_add (x := 1) _ (by rw [hinfo]; exact hplayers'), hs.players, grouped_set_add _ _ hrecord]
  · dsimp only
    rw [shares_set_add (x := amount) _ ?_, hs.users, grouped_set_add _ _ hrecord]
    rw [share_userInfo _ rfl]
    rw [UserStakeInfo.moved_totalSlashed, UserStakeInfo.moved, htotal']
    omega
  · dsimp only
    rw [shares_set_add (x := 0) _ ?_, Finsupp.single_zero, add_zero]
    · exact hs.slashed
    · rw [share_userInfo _ rfl, UserStakeInfo.moved_totalSlashed, add_zero]

section Remaining

variable {G : Type} (q : StakeInfo → ℤ) (group : BytesN32 × Address → G)
  {stakes : Table (BytesN32 × Address) StakeInfo} {key : BytesN32 × Address} {info : StakeInfo}

/-- A slash replaces a record by the rest of it, or by nothing. -/
theorem shares_remaining (hget : stakes.get key = some info) (rest : I128) :
    shares q (info.remaining stakes key rest) = shares q stakes +
      Finsupp.single key ((if (rest : ℤ) = 0 then 0 else q { info with amount := rest }) - q info) := by
  unfold StakeInfo.remaining
  split
  · rw [shares_remove, hget, share_some, zero_sub]
  · rw [shares_set, hget, share_some]

theorem grouped_remaining (hget : stakes.get key = some info) (rest : I128) :
    grouped q group (info.remaining stakes key rest) = grouped q group stakes +
      Finsupp.single (group key) ((if (rest : ℤ) = 0 then 0 else q { info with amount := rest }) - q info) := by
  rw [grouped, shares_remaining q hget, Finsupp.mapDomain_add, Finsupp.mapDomain_single]
  rfl

end Remaining

theorem slash_booked (hs : s.Booked) (h : (slash env s user tournamentId amount slashedBy).run m = some s') :
    s'.Booked := by
  obtain ⟨hpos, admin, info, token, t, t', -, -, hget, hle, -, ht, ht', rfl⟩ := slash_spec h
  cases slashed_spec ht'
  have hrest := StakeInfo.rest_eq hpos hle
  -- each sum is at least what the record contributes, so nothing that is subtracted leaves its range
  have hstaked := le_grouped Prod.fst (hs.positive.imp fun _ _ => le_of_lt) hget
  have hplayers := le_grouped (q := fun _ => 1) Prod.fst (hs.positive.imp fun _ _ _ => zero_le_one) hget
  have huser := le_grouped Prod.snd (hs.positive.imp fun _ _ => le_of_lt) hget
  rw [← hs.staked, shares_apply, ht, share_some] at hstaked
  rw [← hs.players, shares_apply, ht, share_some] at hplayers
  have htotal := hs.totalStaked user
  have hslashed := hs.totalSlashed_nonneg user
  have hstaked' : (i128.wrap (t.totalStaked - amount) : ℤ) = t.totalStaked - amount :=
    wrap_of_nonneg (by omega) (by have := t.totalStaked.hi; omega)
  have hplayers' : (u32.wrap (t.participantCount - 1) : ℤ) = t.participantCount - 1 :=
    wrap_of_nonneg (by omega) (by have := t.participantCount.hi; omega)
  have hslashed' : (i128.wrap ((s.getUserStakeInfo user).totalSlashed + amount) : ℤ) =
      (s.getUserStakeInfo user).totalSlashed + amount :=
    wrap_of_nonneg (by omega) (by have := (s.getUserStakeInfo user).totalStaked.hi; dsimp only at huser; omega)
  constructor
  · unfold StakeInfo.remaining
    split
    · exact hs.positive.remove _
    · rename_i hne
      exact hs.positive.set (by dsimp only; omega)
  · dsimp only
    rw [shares_set_add (x := -amount) _ (by rw [ht]; exact hstaked'), hs.staked, grouped_remaining _ _ hget, hrest]
    congr 2
    split <;> omega
  · dsimp only
    rw [shares_set_add _ ?_, hs.players, grouped_remaining _ _ hget]
    rw [ht, share_some]
    split
    · exact hplayers'
    · rw [sub_self, add_zero]
  · dsimp only
    rw [shares_set_add (x := -amount) _ ?_, hs.users, grouped_remaining _ _ hget, hrest]
    · congr 2
      split <;> omega
    · rw [share_userInfo _ rfl, UserStakeInfo.moved_totalStaked, UserStakeInfo.moved, hslashed']
      omega
  · dsimp only
    rw [shares_set_add (x := amount) _ ?_]
    · exact add_nonneg hs.slashed (Finsupp.single_nonneg.2 hpos.le)
    · rw [share_userInfo _ rfl, UserStakeInfo.moved, hslashed']

/-- Writing a tournament that keeps its sums keeps the books. -/
theorem State.Booked.setInfo (hs : s.Booked) {info : TournamentInfo}
    (hstaked : info.totalStaked =
      share (fun info => (info.totalStaked : ℤ)) (s.tournament.info.get tournamentId))
    (hplayers : info.participantCount =
      share (fun info => (info.participantCount : ℤ)) (s.tournament.info.get tournamentId)) :
    State.Booked { s with tournament.info := s.tournament.info.set tournamentId info } where
  positive := hs.positive
  staked := by
    rw [shares_set_add (x := 0) _ (by rw [hstaked, add_zero]), Finsupp.single_zero, add_zero, hs.staked]
  players := by
    rw [shares_set_add (x := 0) _ (by rw [hplayers, add_zero]), Finsupp.single_zero, add_zero, hs.players]
  users := hs.users
  slashed := hs.slashed

/-- No stake is marked as withdrawable. -/
def State.Locked (s : State) : Prop := s.tournament.stake.All fun _ info => info.canWithdraw = false

/-- The books depend on the tournament stores only. -/
theorem Frame.tournament_eq {f : Facility} (h : Frame f s s') (hf : f ≠ .tournament) (hf' : f ≠ .penalty) :
    s'.tournament = s.tournament := by
  have := h.stake hf
  have := h.info hf
  have := h.userInfo hf hf'
  cases hs' : s'.tournament
  simp_all

theorem execute_locked (hs : s.Locked) (h : (execute env s c).run m = some s') : s'.Locked := by
  by_cases hf : c.facility = .tournament
  · cases c with
    | createTournament => obtain ⟨-, -, rfl⟩ := createTournament_spec h; exact hs
    | updateTournamentState => obtain ⟨-, _, _, -, rfl⟩ := updateTournamentState_spec h; exact hs
    | stake =>
      obtain ⟨-, -, -, _, _, -, -, rfl⟩ := stake_spec h
      exact Table.All.set hs rfl
    | withdraw =>
      obtain ⟨-, _, _, -, -, -, rfl⟩ := withdraw_spec h
      exact Table.All.remove hs _
    | slash =>
      obtain ⟨-, _, info, _, _, _, -, -, hget, -, -, -, -, rfl⟩ := slash_spec h
      unfold State.Locked StakeInfo.remaining
      split
      · exact Table.All.remove hs _
      · exact Table.All.set hs (hs _ info hget)
    | _ => cases hf
  · unfold State.Locked
    rw [(execute_frame h).stake hf]
    exact hs

theorem execute_booked (hs : s.Booked) (hlocked : s.Locked) (hc : c.Bookable s)
    (h : (execute env s c).run m = some s') : s'.Booked := by
  cases c with
  | createTournament =>
    obtain ⟨-, hnone, rfl⟩ := createTournament_spec h
    exact hs.setInfo (by rw [hnone]; rfl) (by rw [hnone]; rfl)
  | updateTournamentState =>
    obtain ⟨-, info, _, hinfo, rfl⟩ := updateTournamentState_spec h
    exact hs.setInfo (by rw [hinfo]; rfl) (by rw [hinfo]; rfl)
  | stake => exact stake_booked hs hc h
  | withdraw =>
    obtain ⟨-, info, _, hget, hcan, -⟩ := withdraw_spec h
    cases (hlocked _ info hget).symm.trans hcan
  | slash => exact slash_booked hs h
  | configureSlashing => obtain ⟨-, -, rfl⟩ := configureSlashing_spec h; exact { hs with }
  | appealSlash => obtain ⟨-, _, _, -, -, -, -, rfl⟩ := appealSlash_spec h; exact { hs with }
  | slashValidator | resolveAppeal => cases hc
  | _ =>
    have hframe := (execute_frame h).tournament_eq nofun nofun
    constructor <;> rw [hframe]
    exacts [hs.positive, hs.staked, hs.players, hs.users, hs.slashed]

/-- A call that slashes a user's stake in a tournament. -/
def Call.slashes (user : Address) : Call → Bool
  | .slash slashed .. => slashed = user
  | _ => false

theorem stake_unslashed {u : Address} (hs : s.Unslashed u)
    (hfits : (Call.stake user tournamentId amount).Bookable s)
    (h : (stake env s user tournamentId amount).run m = some s') : s'.Unslashed u := by
  obtain ⟨-, -, hnone, token, info, -, -, rfl⟩ := stake_spec h
  obtain ⟨-, -, hactive⟩ := hfits
  have hactive' : (shiftCounter (s.getUserStakeInfo user).activeTournaments 1 : ℤ) =
      (s.getUserStakeInfo user).activeTournaments + 1 := by
    rw [shiftCounter_eq]
    exact wrap_of_fits ⟨by have := (s.getUserStakeInfo user).activeTournaments.lo; omega, hactive⟩
  constructor
  · dsimp only
    rw [shares_set_add (x := 0) _ ?_, Finsupp.single_zero, add_zero, hs.slashed]
    rw [share_userInfo _ rfl, UserStakeInfo.moved_totalSlashed, add_zero]
  · dsimp only
    rw [shares_set_add (x := 1) _ ?_, grouped_set_add (x := 1) _ _ (by rw [hnone]; rfl), Finsupp.add_apply,
      Finsupp.add_apply, hs.active]
    rw [share_userInfo _ rfl]
    exact hactive'

/-- A slash of someone else. -/
theorem slash_unslashed {u : Address} (hs : s.Unslashed u) (hne : user ≠ u)
    (h : (slash env s user tournamentId amount slashedBy).run m = some s') : s'.Unslashed u := by
  obtain ⟨-, admin, info, token, t, t', -, -, hget, -, -, -, -, rfl⟩ := slash_spec h
  constructor
  · dsimp only
    rw [shares_set, Finsupp.add_apply, Finsupp.single_eq_of_ne hne.symm, add_zero, hs.slashed]
  · dsimp only
    rw [shares_set, grouped_remaining _ _ hget, Finsupp.add_apply, Finsupp.add_apply, Finsupp.single_eq_of_ne hne.symm,
      Finsupp.single_eq_of_ne hne.symm, hs.active]

theorem execute_unslashed {u : Address} (hs : s.Unslashed u) (hlocked : s.Locked) (hc : c.Bookable s)
    (hspared : c.slashes u = false) (h : (execute env s c).run m = some s') : s'.Unslashed u := by
  cases c with
  | createTournament => obtain ⟨-, -, rfl⟩ := createTournament_spec h; exact { hs with }
  | updateTournamentState => obtain ⟨-, _, _, -, rfl⟩ := updateTournamentState_spec h; exact { hs with }
  | stake => exact stake_unslashed hs hc h
  | withdraw =>
    obtain ⟨-, info, _, hget, hcan, -⟩ := withdraw_spec h
    cases (hlocked _ info hget).symm.trans hcan
  | slash => exact slash_unslashed hs (of_decide_eq_false hspared) h
  | configureSlashing => obtain ⟨-, -, rfl⟩ := configureSlashing_spec h; exact { hs with }
  | appealSlash => obtain ⟨-, _, _, -, -, -, -, rfl⟩ := appealSlash_spec h; exact { hs with }
  | slashValidator | resolveAppeal => cases hc
  | _ =>
    have hframe := (execute_frame h).tournament_eq nofun nofun
    constructor <;> rw [hframe]
    exacts [hs.slashed, hs.active]

end Steps

/-! ## Runs -/

section Runs

variable {m : Mode} {ok : Rule} {e : Env} {s : State}

/-- The calls other than validator penalties, as long as the summaries stay within their ranges. -/
def Bookable : Rule := fun _ _ s c => c.Bookable s

/-- The same, without a slash of one user. -/
def BookableSparing (user : Address) : Rule := fun _ _ s c => c.Bookable s ∧ c.slashes user = false
deriving Decidable

theorem locked_of_reach (h : (contract m).Reach ok e s) : s.Locked := by
  refine h.invariant (P := fun _ s => s.Locked) ?_ fun hs _ hstep => execute_locked hs hstep
  intro e s hinit
  obtain ⟨_, _, _, _, -, -, -, rfl⟩ := contract_init hinit
  exact .empty

theorem booked_of_reach (hok : ∀ {e e' s c}, ok e e' s c → c.Bookable s) (h : (contract m).Reach ok e s) :
    s.Booked := by
  induction h with
  | init hinit =>
    obtain ⟨_, _, _, _, -, -, -, rfl⟩ := contract_init hinit
    constructor <;> simp [Table.All.empty]
  | step hreach hc hstep ih => exact execute_booked ih (locked_of_reach hreach) (hok hc) hstep

theorem unslashed_of_reach {user : Address} (h : (contract m).Reach (BookableSparing user) e s) : s.Unslashed user := by
  induction h with
  | init hinit =>
    obtain ⟨_, _, _, _, -, -, -, rfl⟩ := contract_init hinit
    constructor <;> simp
  | step hreach hc hstep ih => exact execute_unslashed ih (locked_of_reach hreach) hc.1 hc.2 hstep

/-- In every run of stakes and slashes within the ranges of the summaries, the summary of a tournament is that of its
records, and the summary of a user counts, beyond the records, everything the user was slashed. Where the run has no
slash of a user, the summary of the user is that of the user's records. -/
theorem stake_summaries (h : (contract .wrapping).Reach Bookable e s) :
    (∀ t, share (fun info => (info.totalStaked : ℤ)) (s.tournament.info.get t) =
        ∑ᶠ u, share (fun info => (info.amount : ℤ)) (s.tournament.stake.get (t, u)) ∧
      share (fun info => (info.participantCount : ℤ)) (s.tournament.info.get t) =
        {u | s.tournament.stake.get (t, u) ≠ none}.ncard) ∧
    (∀ u, ((s.getUserStakeInfo u).totalStaked : ℤ) =
      ∑ᶠ t, share (fun info => (info.amount : ℤ)) (s.tournament.stake.get (t, u)) +
        (s.getUserStakeInfo u).totalSlashed) ∧
    ∀ u, (contract .wrapping).Reach (BookableSparing u) e s →
      ((s.getUserStakeInfo u).totalStaked : ℤ) =
        ∑ᶠ t, share (fun info => (info.amount : ℤ)) (s.tournament.stake.get (t, u)) ∧
      ((s.getUserStakeInfo u).activeTournaments : ℤ) = {t | s.tournament.stake.get (t, u) ≠ none}.ncard := by
  have hs := booked_of_reach id h
  refine ⟨fun t => ⟨?_, ?_⟩, fun u => ?_, fun u hspared => ?_⟩
  · rw [← grouped_fst, ← hs.staked, shares_apply]
  · rw [← grouped_one_fst, ← hs.players, shares_apply]
  · rw [← grouped_snd]
    exact hs.totalStaked u
  · obtain ⟨hslashed, hactive⟩ := unslashed_of_reach hspared
    rw [shares_apply, share_userInfo _ rfl] at hslashed hactive
    rw [← grouped_snd, ← grouped_one_snd, ← hactive]
    have := hs.totalStaked u
    exact ⟨by omega, rfl⟩

/-- Two tournaments: one user plays in both and another, who is slashed, in one. -/
def twoTournaments : List (Env × Call) :=
  [signed 10 (.createTournament 7 100),
    signed 10 (.updateTournamentState 7 TournamentState.active.code),
    signed 10 (.createTournament 8 100),
    signed 10 (.updateTournamentState 8 TournamentState.active.code),
    signed 10 (.stake alice 7 1000),
    signed 10 (.stake bob 7 400),
    signed 10 (.stake alice 8 300),
    signed 20 (.slash bob 7 150 admin)]

theorem summaries_after_twoTournaments :
    ∃ r, (deployment .wrapping).after (BookableSparing alice) twoTournaments = some r ∧
    ∑ᶠ u, share (fun info => (info.amount : ℤ)) (r.2.tournament.stake.get (7, u)) = 1250 ∧
    ∑ᶠ t, share (fun info => (info.amount : ℤ)) (r.2.tournament.stake.get (t, alice)) = 1300 ∧
    ({t | r.2.tournament.stake.get (t, alice) ≠ none}.ncard : ℤ) = 2 := by
  have hreach := reach_after (evaluated (o := (deployment .wrapping).after (BookableSparing alice) twoTournaments))
  obtain ⟨htournament, -, huser⟩ := stake_summaries (hreach.mono And.left)
  obtain ⟨htotal, hactive⟩ := huser alice hreach
  exact ⟨_, (evaluated _), (htournament 7).1.symm.trans (by decide +kernel),
    htotal.symm.trans (by decide +kernel), hactive.symm.trans (by decide +kernel)⟩

/-- The calls about tournaments. -/
def TournamentOnly : Rule := fun _ _ _ c => c.facility = .tournament
deriving Decidable

/-- A tournament that ends, with what is left of the stake of 1000 of its player. -/
def endedAfterSlash (amount : ℤ) : List (Env × Call) :=
  [signed 10 (.createTournament 7 100),
    signed 10 (.updateTournamentState 7 TournamentState.active.code),
    signed 10 (.stake alice 7 1000),
    signed 20 (.slash alice 7 (i128.wrap amount) admin),
    signed 30 (.updateTournamentState 7 TournamentState.completed.code)]

/-- After a slash of everything the user still counts as having the stake, in one tournament. -/
theorem slashed_stake_still_counted : ∃ e s, (contract .wrapping).Reach TournamentOnly e s ∧
    ((s.getUserStakeInfo alice).totalStaked : ℤ) = 1000 ∧
    ∑ᶠ t, share (fun info => (info.amount : ℤ)) (s.tournament.stake.get (t, alice)) = 0 ∧
    ((s.getUserStakeInfo alice).activeTournaments : ℤ) = 1 ∧
    {t | s.tournament.stake.get (t, alice) ≠ none}.ncard = 0 := by
  have hrun : ((deployment .wrapping).after TournamentOnly (endedAfterSlash 1000)).isSome = true := by decide +kernel
  have hcounted : ((Option.get _ hrun).2.getUserStakeInfo alice).totalStaked = i128.wrap 1000 ∧
      ((Option.get _ hrun).2.getUserStakeInfo alice).activeTournaments = u32.wrap 1 := by decide +kernel +revert
  have hempty : (Option.get _ hrun).2.tournament.stake.All fun _ _ => False := by decide +kernel +revert
  have hnone (key : BytesN32 × Address) : (Option.get _ hrun).2.tournament.stake.get key = none :=
    Option.eq_none_iff_forall_ne_some.2 fun info hget => hempty key info hget
  exact ⟨_, _, reach_after (evaluated hrun), by rw [hcounted.1]; rfl, by simp [hnone], by rw [hcounted.2]; rfl,
    by simp [hnone]⟩

end Runs

/-! ## What is left when a tournament ends -/

section Recovery

variable {m : Mode} {ok : Rule} {env e : Env} {s s' : State} {c : Call} {user token : Address} {t : BytesN32}
  {info : StakeInfo} {n : ℤ}

/-- Every user with a stake in a tournament can withdraw it, in a call that the user signs and whose transfers are
accepted, and receives its amount. -/
def State.Recoverable (t : BytesN32) (s : State) : Prop :=
  ∀ user info, s.tournament.stake.get (t, user) = some info → ∀ env : Env, user ∈ env.signers →
    (∀ token recipient amount, env.accepts s.tokens token env.currentContract recipient amount = true) →
      ∃ token s', s.axToken = some token ∧ (withdraw env s user t).run .wrapping = some s' ∧
        s'.tokens token user = s.tokens token user + info.amount

/-- A stake that is marked as withdrawable can be withdrawn. -/
theorem withdraw_of_canWithdraw (hpaused : s.paused = false) (htoken : s.axToken = some token)
    (hget : s.tournament.stake.get (t, user) = some info) (hcan : info.canWithdraw = true)
    (huser : user ∈ env.signers) (haccepts : env.accepts s.tokens token env.currentContract user info.amount = true) :
    ∃ s', (withdraw env s user t).run .wrapping = some s' ∧
      s'.tokens token user = s.tokens token user + info.amount := by
  have hrun : ∃ s', (withdraw env s user t).run .wrapping = some s' := by
    simp [withdraw, updateUserStakeInfo, Option.bind_eq_some_iff, hpaused, huser, hget, hcan, htoken, haccepts]
  obtain ⟨s', hrun⟩ := hrun
  obtain ⟨-, _, _, hget', -, htoken', rfl⟩ := withdraw_spec hrun
  cases hget.symm.trans hget'
  cases htoken.symm.trans htoken'
  exact ⟨_, hrun, Holdings.move_in (ne_currentContract huser).symm⟩

/-- What a call adds to the stake of a user in a tournament, or takes from it. -/
def Call.netStake (t : BytesN32) (user : Address) : Call → ℤ
  | .stake staker tournamentId amount => if (tournamentId, staker) = (t, user) then amount else 0
  | .slash slashed tournamentId amount _ => if (tournamentId, slashed) = (t, user) then -amount else 0
  | _ => 0

theorem execute_netStake (hs : s.Locked) (h : (execute env s c).run m = some s') :
    shares (fun info => info.amount) s'.tournament.stake (t, user) =
      shares (fun info => info.amount) s.tournament.stake (t, user) + c.netStake t user := by
  cases c with
  | stake =>
    obtain ⟨-, -, hnone, _, _, -, -, rfl⟩ := stake_spec h
    rw [shares_set, hnone, Finsupp.add_apply, Finsupp.single_apply, share_none, sub_zero]
    rfl
  | slash slashed tournamentId amount =>
    obtain ⟨hpos, _, info, _, _, _, -, -, hget, hle, -, -, -, rfl⟩ := slash_spec h
    rw [shares_remaining _ hget, Finsupp.add_apply, Finsupp.single_apply, StakeInfo.rest_eq hpos hle]
    congr 2
    split <;> omega
  | withdraw =>
    obtain ⟨-, info, _, hget, hcan, -⟩ := withdraw_spec h
    cases (hs _ info hget).symm.trans hcan
  | createTournament => obtain ⟨-, -, rfl⟩ := createTournament_spec h; exact (add_zero _).symm
  | updateTournamentState => obtain ⟨-, _, _, -, rfl⟩ := updateTournamentState_spec h; exact (add_zero _).symm
  | _ => rw [(execute_frame h).stake nofun]; exact (add_zero _).symm

/-- The staked token is always set. -/
theorem token_of_reach (h : (contract m).Reach ok e s) : ∃ token, s.axToken = some token := by
  refine h.invariant (P := fun _ s => ∃ token, s.axToken = some token) ?_ ?_
  · intro e s hinit
    obtain ⟨_, _, axToken, _, -, -, -, rfl⟩ := contract_init hinit
    exact ⟨axToken, rfl⟩
  · intro e e' s c s' hs _ hstep
    cases c with
    | setAxToken axToken => obtain ⟨-, rfl⟩ := run_then_pure hstep; exact ⟨axToken, rfl⟩
    | setTournamentContract | setDisputeContract | setPaused =>
      obtain ⟨-, rfl⟩ := run_then_pure hstep
      exact hs
    | _ => rwa [(execute_frame hstep).axToken nofun]

/-- A record holds what the user staked in the tournament, less what was slashed of it. -/
theorem stake_eq_tally (h : (contract m).Tally ok (fun _ _ c => c.netStake t user) n e s) :
    share (fun info => (info.amount : ℤ)) (s.tournament.stake.get (t, user)) = n := by
  refine h.invariant (P := fun n _ s => shares (fun info => info.amount) s.tournament.stake (t, user) = n) ?_ ?_
  · intro e s hinit
    obtain ⟨_, _, _, _, -, -, -, rfl⟩ := contract_init hinit
    simp
  · intro n e e' s c s' hreach hs _ hstep
    rw [execute_netStake (locked_of_reach hreach) hstep, hs]

/-- A call that one user signs, with tokens that accept every transfer. -/
def Env.signedBy (env : Env) (user : Address) : Env where
  currentContract := ⟨user.id + 1⟩
  sequence := env.sequence
  timestamp := env.timestamp
  signers := [user]
  notSigned h := by
    have := congrArg Address.id (List.mem_singleton.1 h)
    simp at this
  accepts _ _ _ _ _ := true
  counterToBytesN := env.counterToBytesN

/-- In every state reached while the contract is not paused, the stakes of a tournament can be withdrawn exactly
when all of them are marked as withdrawable, which is when there are none left; each holds what its user staked, less
what was slashed. -/
theorem stakes_recoverable_where_none_left (h : (contract .wrapping).Reach Unrestricted e s)
    (hpaused : s.paused = false) :
    (s.Recoverable t ↔ ∀ user info, s.tournament.stake.get (t, user) = some info → info.canWithdraw = true) ∧
    ((∀ user info, s.tournament.stake.get (t, user) = some info → info.canWithdraw = true) ↔
      ∀ user, s.tournament.stake.get (t, user) = none) ∧
    ∀ user n, (contract .wrapping).Tally Unrestricted (fun _ _ c => c.netStake t user) n e s →
      share (fun info => (info.amount : ℤ)) (s.tournament.stake.get (t, user)) = n := by
  refine ⟨⟨fun hall user info hget => ?_, fun hall user info hget env huser haccepts => ?_⟩,
    ⟨fun hall user => ?_, fun hnone user info hget => ?_⟩, fun user n => stake_eq_tally⟩
  · obtain ⟨_, _, -, hrun, -⟩ := hall user info hget (e.signedBy user) List.mem_cons_self fun _ _ _ => rfl
    obtain ⟨-, _, _, hget', hcan, -⟩ := withdraw_spec hrun
    cases hget.symm.trans hget'
    exact hcan
  · obtain ⟨token, htoken⟩ := token_of_reach h
    obtain ⟨s', hrun⟩ := withdraw_of_canWithdraw hpaused htoken hget (hall user info hget) huser (haccepts _ _ _)
    exact ⟨token, s', htoken, hrun⟩
  · refine Option.eq_none_iff_forall_ne_some.2 fun info hget => ?_
    cases (locked_of_reach h _ info hget).symm.trans (hall user info hget)
  · rw [hnone user] at hget
    cases hget

/-- With nothing left, there is nothing that cannot be withdrawn. -/
theorem recoverable_with_none_left : ∃ r, (deployment .wrapping).after Unrestricted (endedAfterSlash 1000) = some r ∧
    r.2.Recoverable 7 := by
  have hrun : ((deployment .wrapping).after Unrestricted (endedAfterSlash 1000)).isSome = true := by decide +kernel
  have hempty : (Option.get _ hrun).2.tournament.stake.All fun _ _ => False := by decide +kernel +revert
  have hrecoverable := (stakes_recoverable_where_none_left (t := 7) (reach_after (evaluated hrun))
    (by decide +kernel +revert)).1
  exact ⟨_, (evaluated hrun), hrecoverable.2 fun user info hget => (hempty _ info hget).elim⟩

/-- The tournament is completed and its player has a stake of 850, which the contract could pay, but the withdrawal
is refused. -/
theorem completed_stake_is_stuck : ∃ e s tournament info, (contract .wrapping).Reach TournamentOnly e s ∧
    s.paused = false ∧ s.tournament.info.get 7 = some tournament ∧
    tournament.state = TournamentState.completed.code ∧ s.tournament.stake.get (7, alice) = some info ∧
    (info.amount : ℤ) = 850 ∧ (signedAt 40).accepts s.tokens axToken ⟨0⟩ alice 850 = true ∧
    (withdraw (signedAt 40) s alice 7).run .wrapping = none := by
  have hreach := reach_after (evaluated (o := (deployment .wrapping).after TournamentOnly (endedAfterSlash 150)))
  refine ⟨_, _, _, _, hreach, by decide +kernel, evaluated, by decide +kernel,
    evaluated, ?_⟩
  decide +kernel

end Recovery

end ArenaX.StakingManager
