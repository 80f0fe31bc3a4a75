/-
Voting power against holdings. The power of a holder is what the addresses it holds for have, in balances and in
lockups, as long as every movement of tokens is recorded: batch mints, vesting claims and deposits of revenue are
not.
-/
import ArenaX.AxToken.Supply

namespace ArenaX.AxToken

open Machine Exec Sample
open Host (Address)
open Finsupp (single mapDomain mapDomain_add mapDomain_single)

/-- The changes of power a call records. -/
def Call.changes (s : State) : Call → List (Address × ℤ)
  | .mint recipient amount => [(s.voting.votingPowerHolder recipient, (amount : ℤ))]
  | .burn owner amount => [(s.voting.votingPowerHolder owner, -(amount : ℤ))]
  | .transfer sender recipient amount =>
    [(s.voting.votingPowerHolder sender, -(amount : ℤ)), (s.voting.votingPowerHolder recipient, (amount : ℤ))]
  | .delegate delegator delegatee =>
    [(s.voting.votingPowerHolder delegator, -(i128.wrap (s.holding delegator) : ℤ)),
      (delegatee, (i128.wrap (s.holding delegator) : ℤ))]
  | .revokeDelegation delegator =>
    [(s.voting.votingPowerHolder delegator, -(i128.wrap (s.holding delegator) : ℤ)),
      (delegator, (i128.wrap (s.holding delegator) : ℤ))]
  | _ => []

/-- What each address has, in its balance and in its lockups. -/
noncomputable def TokenStore.holdings (t : TokenStore) : Address →₀ ℤ := ledger t.balance + shares lockedSum t.lockups

/-- What the addresses a holder holds for have. -/
noncomputable def State.held (s : State) : Address →₀ ℤ := s.token.holdings.mapDomain s.voting.votingPowerHolder

section Steps

variable {m : Mode} {env : Env} {s s' : State} {c : Call} {a b : Address} {x : I128}

theorem holdings_apply (s : State) (a : Address) : s.token.holdings a = s.holding a := by
  rw [TokenStore.holdings, Finsupp.add_apply, shares_apply, share_lockups]
  rfl

theorem TokenStore.Funded.holdings_nonneg {t : TokenStore} (h : t.Funded) : 0 ≤ t.holdings := by
  refine add_nonneg h.balances fun a => ?_
  exact h.share_nonneg a

theorem TokenStore.Funded.degree_holdings {t : TokenStore} (h : t.Funded) :
    t.holdings.degree = t.totalSupply - t.revenuePool := by
  rw [holdings, map_add, degree_shares, ← h.locked, h.supply]
  ring

theorem TokenStore.Funded.holding_bounds (hs : s.token.Funded) (a : Address) :
    0 ≤ s.holding a ∧ s.holding a ≤ i128.max := by
  have hle := le_degree hs.holdings_nonneg a
  rw [hs.degree_holdings, holdings_apply] at hle
  have hpool := hs.pool
  have hmax := s.token.totalSupply.hi
  refine ⟨?_, by omega⟩
  rw [← holdings_apply]
  exact hs.holdings_nonneg a

/-- What a holder holds is not negative, and representable. -/
theorem TokenStore.Funded.held_bounds (hs : s.token.Funded) (a : Address) : 0 ≤ s.held a ∧ s.held a ≤ i128.max := by
  have hnonneg := mapDomain_nonneg s.voting.votingPowerHolder hs.holdings_nonneg
  have hle := le_degree hnonneg a
  rw [Finsupp.degree_mapDomain, hs.degree_holdings] at hle
  have hpool := hs.pool
  have hmax := s.token.totalSupply.hi
  exact ⟨hnonneg a, hle.trans (by omega)⟩

/-! ## What calls record -/

/-- The checkpoints after a call are those before it with its changes, and only delegations change a delegate. -/
theorem execute_voting (h : (execute env s c).run m = some s') :
    s'.voting.checkpoints = ((c.changes s).foldl (VotingStore.shift env) s.voting).checkpoints ∧
    (c.isDelegation = false → s'.voting.delegate = s.voting.delegate) := by
  cases c with
  | mint => obtain ⟨-, -, _, _, -, -, -, rfl⟩ := mint_spec h; exact ⟨rfl, fun _ => rfl⟩
  | batchMint => obtain ⟨-, -, -, -, _, _, rfl, -⟩ := batchMint_spec h; exact ⟨rfl, fun _ => rfl⟩
  | burn => obtain ⟨-, -, rfl⟩ := burn_spec h; exact ⟨rfl, fun _ => rfl⟩
  | transfer => obtain ⟨-, -, -, rfl⟩ := transfer_spec h; exact ⟨rfl, fun _ => rfl⟩
  | claimVestedTokens =>
    obtain ⟨_, h⟩ := run_snd_map h
    obtain ⟨_, -, -, -, -, rfl⟩ := claimVestedTokens_spec h
    exact ⟨rfl, fun _ => rfl⟩
  | lockTokens => obtain ⟨-, -, rfl⟩ := lockTokens_spec h; exact ⟨rfl, fun _ => rfl⟩
  | unlockTokens =>
    obtain ⟨_, h⟩ := run_snd_map h
    obtain ⟨_, -, -, rfl⟩ := unlockTokens_spec h
    exact ⟨rfl, fun _ => rfl⟩
  | depositRevenue => obtain ⟨-, -, rfl⟩ := depositRevenue_spec h; exact ⟨rfl, fun _ => rfl⟩
  | executeBuybackAndBurn =>
    obtain ⟨_, h⟩ := run_snd_map h
    obtain ⟨-, -, _, rfl⟩ := executeBuybackAndBurn_spec h
    exact ⟨rfl, fun _ => rfl⟩
  | delegate => obtain ⟨-, -, _, rfl, -, hcheckpoints⟩ := delegate_spec h; exact ⟨hcheckpoints, nofun⟩
  | revokeDelegation => obtain ⟨-, -, _, rfl, -, hcheckpoints⟩ := revokeDelegation_spec h; exact ⟨hcheckpoints, nofun⟩
  | _ => rw [((execute_frame s' h).tokens rfl rfl).2]; exact ⟨rfl, fun _ => rfl⟩

/-- No history runs ahead of the current ledger. -/
theorem execute_upTo (hup : s.voting.UpTo env.sequence) (h : (execute env s c).run m = some s') :
    s'.voting.UpTo env.sequence := by
  unfold VotingStore.UpTo
  rw [(execute_voting h).1]
  exact hup.shifts _

theorem execute_lastPower (h : (execute env s c).run m = some s') (a : Address) :
    s'.voting.lastPower a = i128.wrap (s.voting.lastPower a + net (c.changes s) a) := by
  rw [VotingStore.lastPower_congr (execute_voting h).1, VotingStore.lastPower_shifts]

/-! ## What calls move -/

theorem votingPowerHolder_congr {v v' : VotingStore} (h : v'.delegate = v.delegate) :
    v'.votingPowerHolder = v.votingPowerHolder := by
  funext d
  simp only [VotingStore.votingPowerHolder, VotingStore.getDelegate, h]

/-- While nobody changes its holder, what is held changes with the holdings. -/
theorem held_of_holdings {δ : Address →₀ ℤ} (hdelegate : s'.voting.delegate = s.voting.delegate)
    (hholdings : s'.token.holdings = s.token.holdings + δ) :
    s'.held = s.held + δ.mapDomain s.voting.votingPowerHolder := by
  rw [State.held, votingPowerHolder_congr hdelegate, hholdings, mapDomain_add]
  rfl

/-- A change of holder moves what the address has. -/
theorem held_of_delegate (holder : Address)
    (hholder : s'.voting.votingPowerHolder = Function.update s.voting.votingPowerHolder a holder)
    (htoken : s'.token = s.token) :
    s'.held = s.held + net [(s.voting.votingPowerHolder a, -s.holding a), (holder, s.holding a)] := by
  rw [State.held, hholder, htoken, mapDomain_update, holdings_apply, net, payments, payments, payments, add_zero,
    add_assoc]
  rfl

/-- A call that records the power it moves: all but batch mints, vesting claims and deposits of revenue. -/
def Call.recordsPower : Call → Bool
  | .batchMint .. | .claimVestedTokens .. | .depositRevenue .. => false
  | _ => true

theorem debit_value (hx : 0 < (x : ℤ)) (hle : (x : ℤ) ≤ s.balance a) :
    (i128.wrap (s.balance a - x) : ℤ) = s.balance a + -x :=
  wrap_of_nonneg (by omega) (by have := (s.balance a).hi; omega)

theorem lockTokens_holdings {unlockTime : U64} (h : (lockTokens env s a x unlockTime).run m = some s') :
    s'.token.holdings = s.token.holdings := by
  obtain ⟨hx, hle, rfl⟩ := lockTokens_spec h
  have hlock : lockedSum (s.getLockups a ++ [⟨x, unlockTime⟩]) =
      Table.share lockedSum (s.token.lockups.get a) + x := by
    rw [share_lockups]
    simp [lockedSum]
  rw [TokenStore.holdings, ledger_set_add (debit_value hx hle), shares_set_add lockedSum hlock, Finsupp.single_neg,
    TokenStore.holdings]
  abel

theorem unlockTokens_holdings (hs : s.token.Funded) (h : (unlockTokens env s a).run m = some (x, s')) :
    s'.token.holdings = s.token.holdings := by
  obtain ⟨lockups, hget, hval, hcredit, -, -, rfl⟩ := unlockTokens_exact hs h
  have hsplit := lockedSum_filter env.timestamp lockups
  have hrest : lockedSum (lockups.filter fun lock => (env.timestamp : ℤ) < lock.unlockTime) =
      Table.share lockedSum (s.token.lockups.get a) + -x := by
    rw [hget, Table.share_some]
    omega
  rw [TokenStore.holdings, ledger_set_add hcredit, shares_set_add lockedSum hrest, Finsupp.single_neg,
    TokenStore.holdings]
  abel

theorem mint_holdings (h : (mint env s a x).run m = some s') :
    s'.token.holdings = s.token.holdings + net [(a, x)] := by
  obtain ⟨-, -, supply, bal, -, -, hbal, rfl⟩ := mint_spec h
  show ledger (s.token.balance.set a bal) + shares lockedSum s.token.lockups = _
  rw [ledger_set_add hbal, TokenStore.holdings, net_singleton]
  abel

theorem burn_holdings (h : (burn env s a x).run m = some s') :
    s'.token.holdings = s.token.holdings + net [(a, -x)] := by
  obtain ⟨hx, hle, rfl⟩ := burn_spec h
  show ledger (s.token.balance.set a _) + shares lockedSum s.token.lockups = _
  rw [ledger_set_add (debit_value hx hle), TokenStore.holdings, net_singleton]
  abel

theorem transfer_holdings (hs : s.token.Funded) (h : (transfer env s a b x).run m = some s') :
    s'.token.holdings = s.token.holdings + net [(a, -x), (b, x)] := by
  obtain ⟨hx, hne, hle, rfl⟩ := transfer_spec h
  have hcredit : (i128.wrap (s.balance b + x) : ℤ) =
      balance (s.token.balance.set a (i128.wrap (s.balance a - x))) b + x := by
    rw [hs.credit hx hle hne, balance_other hne]
  show ledger ((s.token.balance.set a _).set b _) + shares lockedSum s.token.lockups = _
  rw [ledger_set_add hcredit, ledger_set_add (debit_value hx hle), TokenStore.holdings, net_cons, net_singleton]
  abel

/-- What a call records is what it moves. -/
theorem execute_held (hs : s.token.Funded) (hc : c.recordsPower = true) (h : (execute env s c).run m = some s') :
    s'.held = s.held + net (c.changes s) := by
  -- a movement of tokens between addresses is recorded at their holders
  have move (moves : List (Address × ℤ)) (hd : c.isDelegation = false)
      (hholdings : s'.token.holdings = s.token.holdings + net moves)
      (hchanges : moves.map (fun move => (s.voting.votingPowerHolder move.1, move.2)) = c.changes s) :
      s'.held = s.held + net (c.changes s) := by
    rw [held_of_holdings ((execute_voting h).2 hd) hholdings, mapDomain_net, hchanges]
  have keep (hd : c.isDelegation = false) (hholdings : s'.token.holdings = s.token.holdings)
      (hnone : [] = c.changes s) : s'.held = s.held + net (c.changes s) :=
    move [] hd (hholdings.trans (add_zero _).symm) hnone
  cases c with
  | mint => exact move _ rfl (mint_holdings h) rfl
  | burn => exact move _ rfl (burn_holdings h) rfl
  | transfer => exact move _ rfl (transfer_holdings hs h) rfl
  | lockTokens => exact keep rfl (lockTokens_holdings h) rfl
  | unlockTokens =>
    obtain ⟨_, hrun⟩ := run_snd_map h
    exact keep rfl (unlockTokens_holdings hs hrun) rfl
  | executeBuybackAndBurn =>
    refine keep rfl ?_ rfl
    obtain ⟨_, h⟩ := run_snd_map h
    obtain ⟨-, -, _, rfl⟩ := executeBuybackAndBurn_spec h
    rfl
  | delegate a b =>
    obtain ⟨-, -, _, rfl, hdelegate, -⟩ := delegate_spec h
    obtain ⟨hnonneg, hmax⟩ := hs.holding_bounds a
    rw [Call.changes, wrap_of_nonneg hnonneg hmax]
    refine held_of_delegate b ?_ rfl
    funext d
    simp only [VotingStore.votingPowerHolder, VotingStore.getDelegate, hdelegate, Table.get_set, Function.update_apply]
    split <;> rfl
  | revokeDelegation a =>
    obtain ⟨-, -, _, rfl, hdelegate, -⟩ := revokeDelegation_spec h
    obtain ⟨hnonneg, hmax⟩ := hs.holding_bounds a
    rw [Call.changes, wrap_of_nonneg hnonneg hmax]
    refine held_of_delegate a ?_ rfl
    funext d
    simp only [VotingStore.votingPowerHolder, VotingStore.getDelegate, hdelegate, Table.get_remove,
      Function.update_apply]
    split
    · rename_i hd; rw [hd]; rfl
    · rfl
  | batchMint | claimVestedTokens | depositRevenue => cases hc
  | _ => exact keep rfl (by rw [((execute_frame s' h).tokens rfl rfl).1]) rfl

end Steps

/-! ## Runs -/

section Runs

variable {e env : Env} {s s' : State} {c : Call}

/-- The books balance, no history runs ahead, and the power recorded last for each address is what it holds. -/
structure Represented (e : Env) (s : State) : Prop where
  funded : s.token.Funded
  upTo : s.voting.UpTo e.sequence
  power : ∀ a, (s.voting.lastPower a : ℤ) = s.held a

/-- Ledgers do not go back, and every movement of tokens is recorded. -/
def Recording : Rule := fun e e' _ c => (e.sequence : ℤ) ≤ e'.sequence ∧ c.recordsPower = true
deriving Decidable

theorem Call.claimsUpTo_of_recordsPower {limit : ℤ} (h : c.recordsPower = true) : c.ClaimsUpTo limit env s := by
  cases c with
  | claimVestedTokens => cases h
  | _ => trivial

theorem execute_represented (hs : Represented e s) (hok : Recording e env s c)
    (h : (execute env s c).run .wrapping = some s') : Represented env s' := by
  have hfunded := execute_funded hs.funded (Call.claimsUpTo_of_recordsPower hok.2) h
  refine ⟨hfunded, execute_upTo (hs.upTo.mono hok.1) h, fun a => ?_⟩
  -- what is held is representable, so the power does not wrap on its way there
  obtain ⟨hnonneg, hmax⟩ := hfunded.held_bounds a
  rw [execute_lastPower h, hs.power, ← Finsupp.add_apply, ← execute_held hs.funded hok.2 h,
    wrap_of_nonneg hnonneg hmax]

theorem represented_deployed (admin : Address) : Represented e { admin := some admin } where
  funded := funded_deployed admin
  upTo := Table.All.empty
  power a := by
    have hholdings : ({ admin := some admin } : State).token.holdings = 0 := by
      rw [TokenStore.holdings]
      simp
    rw [State.held, hholdings]
    rfl

/-- What is held for an address: what it has unless it has delegated, and what its delegators have. -/
theorem held_apply (s : State) (a : Address) :
    s.held a = (if s.voting.getDelegate a = none then s.holding a else 0) +
      ∑ᶠ d, if s.voting.getDelegate d = some a then s.holding d else 0 := by
  have hfinite (p : Address → Prop) [DecidablePred p] :
      (Function.support fun d => if p d then s.holding d else 0).Finite := by
    refine s.token.holdings.support.finite_toSet.subset fun d hd => ?_
    rw [Finset.mem_coe, Finsupp.mem_support_iff, holdings_apply]
    intro h0
    exact hd (by simp [h0])
  have hself : (if s.voting.getDelegate a = none then s.holding a else 0) =
      ∑ᶠ d, if s.voting.getDelegate d = none ∧ d = a then s.holding d else 0 := by
    rw [finsum_eq_single _ a fun d hd => if_neg fun h => hd h.2]
    simp
  rw [hself, ← finsum_add_distrib (hfinite _) (hfinite _), State.held, mapDomain_apply_eq_finsum]
  refine finsum_congr fun d => ?_
  rw [holdings_apply, VotingStore.votingPowerHolder]
  cases s.voting.getDelegate d with
  | none => simp
  | some delegatee => simp

/-- Wherever every movement of tokens is recorded, the voting power of an address is what it has, in its balance and
locked, unless it has delegated, and what the addresses that delegate to it have. -/
theorem voting_power_is_holdings (h : (contract .wrapping).Reach Recording e s)
    (hseq : (e.sequence : ℤ) ≤ env.sequence) :
    ∃ locked : Address → I128, (∀ a, (s.getLockedBalance a).run .wrapping = some (locked a)) ∧
      ∀ a, (getVotingPower env s a : ℤ) =
        (if s.voting.getDelegate a = none then (s.balance a : ℤ) + locked a else 0) +
          ∑ᶠ d, if s.voting.getDelegate d = some a then (s.balance d : ℤ) + locked d else 0 := by
  have hs : Represented e s := by
    refine h.invariant (fun hinit => ?_) fun hs hok hstep => execute_represented hs hok hstep
    obtain ⟨admin, rfl⟩ := contract_init hinit
    exact represented_deployed admin
  choose locked hlocked hval using getLockedBalance_eq hs.funded .wrapping
  refine ⟨locked, hlocked, fun a => ?_⟩
  have hholding (d : Address) : (s.balance d : ℤ) + locked d = s.holding d := by rw [hval]; rfl
  simp only [hholding]
  rw [getVotingPower, hs.upTo.powerAt_eq_lastPower hseq, hs.power, held_apply]

/-- Two holders, a delegation, a lockup and a transfer by the delegator. -/
def delegationDay : List (Env × Call) :=
  [signed 2 10 (.mint alice 100), signed 2 10 (.mint bob 30),
    signed 2 10 (.delegate alice bob), signed 3 20 (.lockTokens alice 40 90),
    signed 4 30 (.transfer alice carol 10)]

theorem power_after_delegationDay : ∃ r, (deployment .wrapping).after Recording delegationDay = some r ∧
    (getVotingPower r.1 r.2 bob : ℤ) = 120 ∧ ∃ locked : Address → I128,
      (getVotingPower r.1 r.2 bob : ℤ) =
        (if r.2.voting.getDelegate bob = none then (r.2.balance bob : ℤ) + locked bob else 0) +
          ∑ᶠ d, if r.2.voting.getDelegate d = some bob then (r.2.balance d : ℤ) + locked d else 0 := by
  refine ⟨_, evaluated, by decide +kernel, ?_⟩
  obtain ⟨locked, -, hval⟩ := voting_power_is_holdings (reach_after (evaluated _)) le_rfl
  exact ⟨locked, hval bob⟩

/-- A batch mint is not recorded: its recipient has 5 tokens and no voting power. Delegating them takes away power
that was never there. -/
theorem batch_minted_tokens_have_no_power : ∃ r r', (contract .wrapping).Reach Ordered r.1 r.2 ∧
    (deployment .wrapping).after Ordered [signed 2 10 (.batchMint [alice] [5])] = some r ∧
    r.2.voting.getDelegate alice = none ∧ (r.2.balance alice : ℤ) = 5 ∧ (getVotingPower r.1 r.2 alice : ℤ) = 0 ∧
    (deployment .wrapping).after Ordered [signed 2 10 (.batchMint [alice] [5]), signed 3 20 (.delegate alice bob)] =
      some r' ∧ (getVotingPower r'.1 r'.2 alice : ℤ) = -5 := by
  refine ⟨_, _, ?_, evaluated, by decide +kernel, by decide +kernel, by decide +kernel,
    evaluated, by decide +kernel⟩
  exact reach_after (evaluated _)

/-! ## Past power -/

/-- Ledgers do not go back. -/
def Sequenced : Rule := fun e e' _ _ => (e.sequence : ℤ) ≤ e'.sequence
deriving Decidable

/-- What follows a state, as long as it happens after a ledger. -/
def AfterLedger (ledger : U32) : Rule := fun e e' _ _ => (e.sequence : ℤ) ≤ e'.sequence ∧ (ledger : ℤ) < e'.sequence
deriving Decidable

/-- Histories are in order, with one entry a ledger, and none runs ahead. -/
def Recorded (e : Env) (s : State) : Prop := s.voting.UpTo e.sequence ∧ s.voting.Strict

theorem execute_recorded {m : Mode} (hs : Recorded e s) (hseq : (e.sequence : ℤ) ≤ env.sequence)
    (h : (execute env s c).run m = some s') : Recorded env s' := by
  have hup := hs.1.mono hseq
  refine ⟨execute_upTo hup h, ?_⟩
  unfold VotingStore.Strict
  rw [(execute_voting h).1]
  exact hup.strict_shifts hs.2 _

theorem reach_recorded {m : Mode} (h : (contract m).Reach Sequenced e s) : Recorded e s := by
  refine h.invariant (fun hinit => ?_) fun hs hok hstep => execute_recorded hs hok hstep
  obtain ⟨admin, rfl⟩ := contract_init hinit
  exact ⟨Table.All.empty, Table.All.empty⟩

/-- Each address has one checkpoint a ledger, in order. The power at a ledger, asked for after calls of later
ledgers, is the power the address had after the last call that was not later, whatever those calls are. -/
theorem past_power_immutable {m : Mode} (h : (contract m).Reach Sequenced e s) :
    (∀ a, (s.voting.getCheckpoints a).Pairwise fun c c' => (c.ledger : ℤ) < c'.ledger) ∧
    ∀ {ledger : U32} {e' : Env} {s' : State}, (e.sequence : ℤ) ≤ ledger →
      ((contract m).restart fun e₀ s₀ => e₀ = e ∧ s₀ = s).Reach (AfterLedger ledger) e' s' →
        ∀ a, getVotingPowerAt s' a ledger = getVotingPower e s a := by
  have hs := reach_recorded h
  refine ⟨hs.2.getCheckpoints, fun {ledger e' s'} hledger hlater a => ?_⟩
  -- along the later calls, the histories stay in order and the entry in force at the ledger stays what it is
  have hkept : Recorded e' s' ∧ s'.voting.powerAt a ledger = s.voting.lastPower a := by
    refine hlater.invariant (P := fun e' s' => Recorded e' s' ∧ s'.voting.powerAt a ledger = s.voting.lastPower a) ?_ ?_
    · rintro _ _ ⟨rfl, rfl⟩
      exact ⟨hs, hs.1.powerAt_eq_lastPower hledger⟩
    · rintro e₁ e₂ s₁ c s₂ ⟨hs₁, hpower⟩ ⟨hseq, hlt⟩ hstep
      refine ⟨execute_recorded hs₁ hseq hstep, ?_⟩
      rw [VotingStore.powerAt_congr (execute_voting hstep).1, VotingStore.powerAt_shifts_of_lt (hs₁.1.mono hseq) hlt,
        hpower]
  rw [getVotingPowerAt, hkept.2, getVotingPower, hs.1.powerAt_eq_lastPower le_rfl]

/-- Two mints in ledger 2, then a transfer in ledger 3 and a burn in ledger 5: nothing is left, and asked for ledger 2
the answer is still what both mints gave. -/
theorem past_power_after_burn : ∃ r r', (deployment .wrapping).after Sequenced
      [signed 2 10 (.mint alice 60), signed 2 11 (.mint alice 40)] = some r ∧
    (contract .wrapping).replay (AfterLedger 2) r.1 r.2
      [signed 3 20 (.transfer alice bob 30), signed 5 30 (.burn alice 70)] = some r' ∧
    (getVotingPower r.1 r.2 alice : ℤ) = 100 ∧ (getVotingPower r'.1 r'.2 alice : ℤ) = 0 ∧
    getVotingPowerAt r'.2 alice 2 = getVotingPower r.1 r.2 alice := by
  refine ⟨_, _, evaluated, evaluated, by decide +kernel,
    by decide +kernel, ?_⟩
  exact (past_power_immutable (reach_after (evaluated _))).2 (by decide +kernel)
    (TransitionSystem.reach_restart (evaluated _)) alice

end Runs

end ArenaX.AxToken
