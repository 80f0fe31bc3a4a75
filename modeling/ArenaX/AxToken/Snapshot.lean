/-
Votes against the snapshot. A vote counts the power recorded at the proposal's ledger, which still changes while
that ledger lasts: the votes stay within the recorded power as long as nobody who has voted there loses power
before the ledger ends, and as long as no recorded power is negative.
-/
import ArenaX.AxToken.VotingPower

namespace ArenaX.AxToken

open Machine Exec Sample FlashLoanGuard
open Host (Address)

/-- The net change of one address in a list of changes. -/
def changeOf (changes : List (Address × ℤ)) (a : Address) : ℤ := ((changes.filter (·.1 = a)).map Prod.snd).sum

/-- A vote is made with no staking contract set and quadratic voting off. -/
def Call.VotesPlainly (s : State) : Call → Prop
  | .voteOnProposal .. => s.governance.stakingContract = none ∧ s.governance.quadraticVoting = false
  | _ => True

/-- The changes of power a call records leave every power representable and not negative, and take none from an
address that has voted on a proposal of the current ledger. -/
def Call.KeepsVotes (env : Env) (s : State) (c : Call) : Prop :=
  ∀ change ∈ c.changes s,
    0 ≤ (s.voting.lastPower change.1 : ℤ) + changeOf (c.changes s) change.1 ∧
    (s.voting.lastPower change.1 : ℤ) + changeOf (c.changes s) change.1 ≤ i128.max ∧
    (changeOf (c.changes s) change.1 < 0 → s.governance.proposal.All fun id p =>
      p.snapshotLedger = env.sequence → s.governance.hasVoted.get (id, change.1) = none)
deriving Decidable

/-- Ledgers do not go back, votes are plain, and no call takes back power that has voted. -/
def Counted : Rule := fun e e' s c => (e.sequence : ℤ) ≤ e'.sequence ∧ c.VotesPlainly s ∧ c.KeepsVotes e' s

instance (s : State) (c : Call) : Decidable (c.VotesPlainly s) := by
  apply Call.casesOn (motive := fun c => Decidable (c.VotesPlainly s)) c <;> intros <;>
    dsimp only [Call.VotesPlainly] <;> infer_instance

instance (e e' : Env) (s : State) (c : Call) : Decidable (Counted e e' s c) := inferInstanceAs (Decidable (_ ∧ _ ∧ _))

/-- The power in a history at a ledger. -/
def powerIn (ledger : U32) (checkpoints : List VotingCheckpoint) : ℤ :=
  ((History.lookup VotingCheckpoint.key checkpoints ledger).map fun c => (c.power : ℤ)).getD 0

/-- The power of every address at a ledger. -/
noncomputable def VotingStore.powers (v : VotingStore) (ledger : U32) : Address →₀ ℤ :=
  shares (powerIn ledger) v.checkpoints

/-- The power at a ledger of those who have voted on a proposal. -/
noncomputable def State.votedPower (s : State) (id : U64) (ledger : U32) : Address →₀ ℤ :=
  (s.voting.powers ledger).filter fun a => s.governance.hasVoted.get (id, a) ≠ none

section Powers

variable {env : Env} {s s' : State} {c : Call} {a : Address} {ledger : U32}

theorem changeOf_eq_net (changes : List (Address × ℤ)) (a : Address) : changeOf changes a = net changes a :=
  (payments_apply a changes).symm

@[simp] theorem powers_apply (v : VotingStore) (ledger : U32) (a : Address) :
    v.powers ledger a = v.powerAt a ledger := by
  rw [VotingStore.powers, shares_apply, VotingStore.powerAt, VotingStore.getCheckpoints]
  cases v.checkpoints.get a with
  | none => rfl
  | some checkpoints =>
    rw [Table.share_some, powerIn, Option.getD_some]
    cases History.lookup VotingCheckpoint.key checkpoints ledger <;> rfl

theorem degree_powers (v : VotingStore) (ledger : U32) : (v.powers ledger).degree = ∑ᶠ a, (v.powerAt a ledger : ℤ) := by
  rw [degree_eq_finsum]
  exact finsum_congr fun a => powers_apply v ledger a

/-- The condition on the changes a call records, address by address. -/
theorem Call.KeepsVotes.net (hok : c.KeepsVotes env s) (a : Address) : net (c.changes s) a = 0 ∨
    0 ≤ (s.voting.lastPower a : ℤ) + net (c.changes s) a ∧
    (s.voting.lastPower a : ℤ) + net (c.changes s) a ≤ i128.max ∧
    (net (c.changes s) a < 0 → s.governance.proposal.All fun id p =>
      p.snapshotLedger = env.sequence → s.governance.hasVoted.get (id, a) = none) := by
  by_cases ha : ∃ change ∈ c.changes s, change.1 = a
  · obtain ⟨change, hmem, rfl⟩ := ha
    rw [← changeOf_eq_net]
    exact .inr (hok change hmem)
  · exact .inl (payments_apply_eq_zero fun change hmem heq => ha ⟨change, hmem, heq⟩)

/-- Within the range a call keeps to, the power of an address from the current ledger on is its last one with the
net change, and its power before is what it was. -/
theorem execute_powerAt (hup : s.voting.UpTo env.sequence) (hok : c.KeepsVotes env s)
    (h : (execute env s c).run .wrapping = some s') (a : Address) (ledger : U32) :
    (s'.voting.powerAt a ledger : ℤ) =
      if (env.sequence : ℤ) ≤ ledger then s.voting.lastPower a + net (c.changes s) a
      else s.voting.powerAt a ledger := by
  split
  · rename_i hle
    rw [(execute_upTo hup h).powerAt_eq_lastPower hle, execute_lastPower h]
    rcases hok.net a with hzero | ⟨hnonneg, hmax, -⟩
    · rw [hzero, add_zero, wrap_toInt]
    · exact wrap_of_nonneg hnonneg hmax
  · rename_i hlt
    rw [VotingStore.powerAt_congr (execute_voting h).1, VotingStore.powerAt_shifts_of_lt hup (not_le.1 hlt)]

end Powers

/-! ## The tally -/

section Tally

variable {e env : Env} {s s' : State} {c : Call} {id : U64} {p : Proposal} {voter : Address}

/-- No history runs ahead, no recorded power is negative, no snapshot is in the future, and the votes on a proposal
are within the power of those who have voted. -/
structure Tallied (e : Env) (s : State) : Prop where
  upTo : s.voting.UpTo e.sequence
  nonneg : ∀ ledger, 0 ≤ s.voting.powers ledger
  snapshots : s.governance.proposal.All fun _ p => (p.snapshotLedger : ℤ) ≤ e.sequence
  votes : s.governance.proposal.All fun id p =>
    (p.votesFor : ℤ) + p.votesAgainst ≤ (s.votedPower id p.snapshotLedger).degree

theorem votedPower_nonneg (h : ∀ ledger, 0 ≤ s.voting.powers ledger) (id : U64) (ledger : U32) :
    0 ≤ s.votedPower id ledger := by
  intro a
  rw [State.votedPower, Finsupp.filter_apply]
  split
  · exact h ledger a
  · exact le_rfl

/-- Those who have voted have no more power than all have. -/
theorem degree_votedPower_le (h : ∀ ledger, 0 ≤ s.voting.powers ledger) (id : U64) (ledger : U32) :
    (s.votedPower id ledger).degree ≤ (s.voting.powers ledger).degree := by
  refine degree_le_degree fun a => ?_
  rw [State.votedPower, Finsupp.filter_apply]
  split
  · exact le_rfl
  · exact h ledger a

/-- A call that moves power and writes no proposal. -/
theorem execute_tallied_of_power (hs : Tallied e s) (hok : Counted e env s c) (hc : c.isProposal = false)
    (h : (execute env s c).run .wrapping = some s') : Tallied env s' := by
  obtain ⟨hseq, -, hkeeps⟩ := hok
  have hup := hs.upTo.mono hseq
  have hpower := execute_powerAt hup hkeeps h
  obtain ⟨hproposal, hvoted, -⟩ := (execute_frame s' h).proposals hc
  have hlast (a : Address) : s.voting.powerAt a env.sequence = s.voting.lastPower a := hup.powerAt_eq_lastPower le_rfl
  refine ⟨execute_upTo hup h, fun ledger a => ?_, ?_, ?_⟩
  · rw [powers_apply, hpower]
    split
    · rcases hkeeps.net a with hzero | ⟨hnonneg, -⟩
      · have := hs.nonneg env.sequence a
        rw [powers_apply, hlast] at this
        rwa [hzero, add_zero]
      · exact hnonneg
    · have := hs.nonneg ledger a
      rwa [powers_apply] at this
  · rw [hproposal]
    exact hs.snapshots.imp fun _ _ hle => hle.trans hseq
  · rw [hproposal]
    intro id p hp
    refine (hs.votes id p hp).trans (degree_le_degree fun a => ?_)
    rw [State.votedPower, State.votedPower, Finsupp.filter_apply, Finsupp.filter_apply, hvoted]
    split
    · rename_i hvote
      rw [powers_apply, powers_apply, hpower]
      split
      · -- the snapshot is the current ledger: the voter has lost nothing
        rename_i hle
        have hsnapshot : p.snapshotLedger = env.sequence :=
          IntType.Val.ext (le_antisymm ((hs.snapshots id p hp).trans hseq) hle)
        rw [hsnapshot, hlast]
        rcases hkeeps.net a with hzero | ⟨-, -, hloss⟩
        · rw [hzero, add_zero]
        · by_contra hlt
          exact hvote (hloss (by omega) id p hp hsnapshot)
      · exact le_rfl
    · exact le_rfl

/-- The tally reads histories, votes and the votes counted. -/
theorem Tallied.of_proposals (hs : Tallied e s) (hseq : (e.sequence : ℤ) ≤ env.sequence)
    (hvoting : s'.voting = s.voting) (hvoted : s'.governance.hasVoted = s.governance.hasVoted)
    (hproposals : s'.governance.proposal.All fun id p => (p.snapshotLedger : ℤ) ≤ env.sequence ∧
      p.votesFor + p.votesAgainst ≤ (s.votedPower id p.snapshotLedger).degree) : Tallied env s' where
  upTo := hvoting ▸ hs.upTo.mono hseq
  nonneg := hvoting ▸ hs.nonneg
  snapshots := hproposals.imp fun _ _ hp => hp.1
  votes := hproposals.imp fun id p hp => by
    rw [State.votedPower, hvoting, hvoted]
    exact hp.2

theorem Tallied.proposals (hs : Tallied e s) (hseq : (e.sequence : ℤ) ≤ env.sequence) :
    s.governance.proposal.All fun id p => (p.snapshotLedger : ℤ) ≤ env.sequence ∧
      p.votesFor + p.votesAgainst ≤ (s.votedPower id p.snapshotLedger).degree :=
  fun id p hp => ⟨(hs.snapshots id p hp).trans hseq, hs.votes id p hp⟩

/-- A proposal that takes effect keeps its votes. -/
theorem Tallied.markExecuted (hs : Tallied e s) (hseq : (e.sequence : ℤ) ≤ env.sequence)
    (hp : s.governance.proposal.get id = some p) (hvoting : s'.voting = s.voting)
    (hgovernance : s'.governance = (s.markExecuted id p).governance) : Tallied env s' := by
  refine hs.of_proposals hseq hvoting (by rw [hgovernance]; rfl) ?_
  rw [hgovernance]
  exact (hs.proposals hseq).set (hs.proposals hseq id p hp)

/-- With no staking contract and no quadratic voting, a vote counts the power at the snapshot. -/
theorem compositeVotingPower_plain {ledger : U32} {power : I128}
    (hstaking : s.governance.stakingContract = none) (hquadratic : s.governance.quadraticVoting = false)
    (h : (compositeVotingPower env s voter ledger).run .wrapping = some power) :
    power = s.voting.powerAt voter ledger := by
  have hsum : i128.saturate (s.voting.powerAt voter ledger + 0) = s.voting.powerAt voter ledger := by
    apply IntType.Val.ext
    rw [add_zero]
    exact saturate_of_fits (IntType.Val.fits _)
  simp only [compositeVotingPower, stakePower, hstaking, hquadratic, run_bind, run_pure, Option.bind_some,
    toInt_zero, hsum, Bool.false_eq_true, false_and, if_false, Option.some.injEq] at h
  exact h.symm

/-- A new voter adds its power to that of those who have voted on the proposal, and to no other. -/
theorem votedPower_vote (hvoting : s'.voting = s.voting)
    (hvoted : s'.governance.hasVoted = s.governance.hasVoted.set (id, voter) true)
    (hnew : s.governance.hasVoted.get (id, voter) = none) (id' : U64) (ledger : U32) :
    s'.votedPower id' ledger = s.votedPower id' ledger +
      if id' = id then Finsupp.single voter (s.voting.powerAt voter ledger : ℤ) else 0 := by
  ext a
  rw [Finsupp.add_apply, State.votedPower, State.votedPower, Finsupp.filter_apply, Finsupp.filter_apply, hvoting,
    hvoted,
    Table.get_set]
  by_cases hid : id' = id
  · subst hid
    by_cases ha : voter = a
    · subst ha
      simp [hnew]
    · simp [Ne.symm ha]
  · simp [hid]

theorem voteOnProposal_tallied {support : Bool} (hs : Tallied e s)
    (hseq : (e.sequence : ℤ) ≤ env.sequence) (hplain : (Call.voteOnProposal voter id support).VotesPlainly s)
    (h : (voteOnProposal env s voter id support).run .wrapping = some s') : Tallied env s' := by
  obtain ⟨p, power, counted, records, hp, -, hnew, hpower, hpos, hcount, rfl⟩ := voteOnProposal_spec h
  have hvote : power = s.voting.powerAt voter p.snapshotLedger :=
    compositeVotingPower_plain (s := recordOperation env s voter) hplain.1 hplain.2 hpower
  obtain ⟨hsum, -, -, hsnapshot⟩ := count_spec hpos hcount
  have hvoted (id' : U64) (ledger : U32) : State.votedPower { recordOperation env s voter with
      governance.proposal := s.governance.proposal.set id counted
      governance.hasVoted := s.governance.hasVoted.set (id, voter) true
      governance.voteRecords := records } id' ledger = s.votedPower id' ledger +
        if id' = id then Finsupp.single voter (s.voting.powerAt voter ledger : ℤ) else 0 := by
    refine votedPower_vote ?_ ?_ hnew id' ledger <;> rfl
  refine ⟨hs.upTo.mono hseq, hs.nonneg, ?_, Table.All.set (fun id' p' hp' => ?_) ?_⟩
  · exact (hs.snapshots.imp fun _ _ hle => hle.trans hseq).set (hsnapshot ▸ (hs.snapshots id p hp).trans hseq)
  · refine (hs.votes id' p' hp').trans (degree_le_degree ?_)
    rw [hvoted]
    split
    · refine le_add_of_nonneg_right (Finsupp.single_nonneg.2 ?_)
      have := hs.nonneg p'.snapshotLedger voter
      rwa [powers_apply] at this
    · rw [add_zero]
  · have hbefore := hs.votes id p hp
    rw [hsnapshot, hvoted, if_pos rfl, map_add, Finsupp.degree_single, ← hvote]
    omega

/-- A call that writes a proposal and moves no power. -/
theorem execute_tallied_of_proposal (hs : Tallied e s) (hok : Counted e env s c) (hc : c.isProposal = true)
    (h : (execute env s c).run .wrapping = some s') : Tallied env s' := by
  obtain ⟨hseq, hplain, -⟩ := hok
  cases c with
  | createProposal =>
    obtain ⟨id, h⟩ := run_snd_map h
    obtain ⟨-, p, hfor, hagainst, -, hsnapshot, rfl⟩ := createProposal_spec h
    refine hs.of_proposals hseq rfl rfl ((hs.proposals hseq).set ⟨by rw [hsnapshot], ?_⟩)
    rw [hfor, hagainst]
    exact degree_nonneg (votedPower_nonneg hs.nonneg id _)
  | voteOnProposal => exact voteOnProposal_tallied hs hseq hplain h
  | expireProposal id =>
    obtain ⟨_, -, -, rfl⟩ := expireProposal_spec h
    exact hs.of_proposals hseq rfl rfl ((hs.proposals hseq).remove id)
  | executeProposal =>
    obtain ⟨p, hp, -, rfl⟩ := executeProposal_spec h
    exact hs.markExecuted hseq hp rfl rfl
  | unpauseViaGovernance =>
    obtain ⟨_, _, hp, -, rfl⟩ := unpauseViaGovernance_spec h
    exact hs.markExecuted hseq hp rfl rfl
  | adjustCapViaGovernance =>
    obtain ⟨-, -, _, hp, -, rfl⟩ := adjustCapViaGovernance_spec h
    exact hs.markExecuted hseq hp rfl rfl
  | _ => cases hc

theorem tallied_deployed (admin : Address) : Tallied e { admin := some admin } where
  upTo := Table.All.empty
  nonneg ledger := (shares_empty (powerIn ledger)).ge
  snapshots := Table.All.empty
  votes := Table.All.empty

/-- Wherever powers stay representable and not negative, and nobody who has voted in a proposal's ledger loses power
while that ledger lasts, the votes on every proposal are within the power recorded at its snapshot. -/
theorem votes_within_snapshot_power (h : (contract .wrapping).Reach Counted e s)
    (hp : s.governance.proposal.get id = some p) :
    (p.votesFor : ℤ) + p.votesAgainst ≤ ∑ᶠ a, (getVotingPowerAt s a p.snapshotLedger : ℤ) := by
  have hs : Tallied e s := by
    refine h.invariant (fun hinit => ?_) fun {e env s c s'} hs hok hstep => ?_
    · obtain ⟨admin, rfl⟩ := contract_init hinit
      exact tallied_deployed admin
    · cases hc : c.isProposal with
      | false => exact execute_tallied_of_power hs hok hc hstep
      | true => exact execute_tallied_of_proposal hs hok hc hstep
  refine (hs.votes id p hp).trans ((degree_votedPower_le hs.nonneg id p.snapshotLedger).trans ?_)
  exact (degree_powers s.voting p.snapshotLedger).le

/-- Two holders who vote on a proposal of one of them. -/
def votingDay : List (Env × Call) :=
  [signed 2 10 (.mint alice 2000), signed 2 10 (.mint bob 500),
    signed 3 20 (.createProposal alice "raise the cap" 100),
    signed 3 20 (.voteOnProposal alice 1 true),
    signed 4 30 (.delegate alice bob),
    signed 5 40 (.voteOnProposal bob 1 false)]

theorem votes_after_votingDay : ∃ r p, (deployment .wrapping).after Counted votingDay = some r ∧
    r.2.governance.proposal.get 1 = some p ∧ (p.votesFor : ℤ) = 2000 ∧ (p.votesAgainst : ℤ) = 500 ∧
    (p.votesFor : ℤ) + p.votesAgainst ≤ ∑ᶠ a, (getVotingPowerAt r.2 a p.snapshotLedger : ℤ) := by
  refine ⟨_, _, evaluated, evaluated, by decide +kernel,
    by decide +kernel, ?_⟩
  exact votes_within_snapshot_power (reach_after (evaluated _)) (evaluated _)

/-- In the ledger of the proposal the same 2000 tokens vote twice: by their holder, and then, delegated, by another. -/
def doubleVote : List (Env × Call) :=
  [signed 2 10 (.mint alice 2000),
    signed 3 20 (.createProposal alice "raise the cap" 100),
    signed 3 20 (.voteOnProposal alice 1 true),
    signed 3 20 (.delegate alice bob),
    signed 3 20 (.voteOnProposal bob 1 true)]

theorem delegated_power_votes_twice : ∃ r p, (contract .wrapping).Reach Ordered r.1 r.2 ∧
    (deployment .wrapping).after Ordered doubleVote = some r ∧ r.2.governance.stakingContract = none ∧
    r.2.governance.quadraticVoting = false ∧ r.2.governance.proposal.get 1 = some p ∧
    (p.votesFor : ℤ) + p.votesAgainst = 4000 ∧ ∑ᶠ a, (getVotingPowerAt r.2 a p.snapshotLedger : ℤ) = 2000 := by
  refine ⟨_, _, ?_, evaluated, by decide +kernel, by decide +kernel,
    evaluated, by decide +kernel, ?_⟩
  · exact reach_after (evaluated _)
  · exact ((degree_powers _ _).symm.trans (degree_shares _ _)).trans (by decide +kernel)

end Tally

end ArenaX.AxToken
