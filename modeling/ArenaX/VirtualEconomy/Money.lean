/-
Money: what the operations add to the ledger of balances and to the total supply, wherever no unchecked
operation of theirs wraps. Issuing operations add the same to both; a sale only moves the price.
-/
import ArenaX.VirtualEconomy.Frame

namespace ArenaX.VirtualEconomy

open Machine Exec
open Finsupp (single single_nonneg single_zero degree_single)

namespace CurrencyStore

variable {m : Mode} {c c' c'' : CurrencyStore} {a : Address} {x issued : ℤ} {v : I128} {items : List (Address × I128)}
  {δ δ' : Address →₀ ℤ}

/-- The balances, as integers. -/
noncomputable def ledger (c : CurrencyStore) : Address →₀ ℤ := Machine.ledger c.balance

@[simp] theorem ledger_apply (c : CurrencyStore) (a : Address) : c.ledger a = c.get a := rfl

theorem ledger_set (c : CurrencyStore) (a : Address) (v : I128) :
    (c.set a v).ledger = c.ledger + single a ((v : ℤ) - c.get a) := Machine.ledger_set c.balance a v

/-- The supply is the sum of all balances. -/
def Balanced (c : CurrencyStore) : Prop := (c.totalSupply : ℤ) = c.ledger.degree

/-- `c'` is `c` with `δ` added to the balances and `issued` to the supply. -/
structure Moves (c c' : CurrencyStore) (δ : Address →₀ ℤ) (issued : ℤ) : Prop where
  ledger : c'.ledger = c.ledger + δ
  supply : (c'.totalSupply : ℤ) = c.totalSupply + issued

theorem Moves.trans {i i' : ℤ} (h : Moves c c' δ i) (h' : Moves c' c'' δ' i') : Moves c c'' (δ + δ') (i + i') :=
  ⟨by rw [h'.ledger, h.ledger, add_assoc], by rw [h'.supply, h.supply, add_assoc]⟩

theorem Moves.withSupply (h : Moves c c' δ 0) {supply : I128}
    (hs : (supply : ℤ) = c.totalSupply + issued) : Moves c { c' with totalSupply := supply } δ issued :=
  ⟨h.ledger, hs⟩

theorem Moves.balanced (h : Moves c c' δ issued) (hδ : δ.degree = issued) (hc : c.Balanced) : c'.Balanced := by
  unfold Balanced at *
  rw [h.supply, h.ledger, map_add, hc, hδ]

/-- No balance is negative. -/
def Solvent (c : CurrencyStore) : Prop := ∀ a, 0 ≤ (c.get a : ℤ)

theorem solvent_iff : c.Solvent ↔ 0 ≤ c.ledger := Iff.rfl

theorem Solvent.set (h : c.Solvent) (hv : 0 ≤ (v : ℤ)) : (c.set a v).Solvent := by
  intro b
  rw [get_set]
  split
  · exact hv
  · exact h b

theorem Moves.solvent (h : Moves c c' δ issued) (hδ : 0 ≤ c.ledger + δ) : c'.Solvent := by
  rw [solvent_iff, h.ledger]
  exact hδ

theorem set_moves (h : (v : ℤ) = c.get a + x) : Moves c (c.set a v) (single a x) 0 := by
  refine ⟨?_, (add_zero _).symm⟩
  rw [ledger_set, h, add_sub_cancel_left]

theorem add_moves (h : (c.add a x).run .exact = some c') : Moves c c' (single a x) 0 := by
  unfold add at h
  simp only [run_iff, run_unchecked_exact] at h
  obtain ⟨v, hv, rfl⟩ := h
  exact set_moves hv

theorem checkedAdd_moves (h : (c.checkedAdd a x).run m = some c') : Moves c c' (single a x) 0 := by
  unfold checkedAdd at h
  simp only [run_iff, checked_eq_some] at h
  obtain ⟨v, hv, rfl⟩ := h
  exact set_moves hv

/-- A loop that pays one item after another pays the sum of the items. -/
theorem foldlM_moves {ι : Type} {f : CurrencyStore → ι → Result CurrencyStore} (key : ι → Address)
    (amount : ι → ℤ) (hf : ∀ c c' i, (f c i).run m = some c' → Moves c c' (single (key i) (amount i)) 0) :
    ∀ {items : List ι} {c c' : CurrencyStore}, (items.foldlM f c).run m = some c' →
      Moves c c' (payments key amount items) 0
  | [], c, c', h => by
    rw [List.foldlM_nil, run_pure] at h
    cases h
    exact ⟨(add_zero _).symm, (add_zero _).symm⟩
  | i :: items, c, c', h => by
    rw [List.foldlM_cons, run_bind] at h
    obtain ⟨c₁, h₁, h⟩ := Option.bind_eq_some_iff.1 h
    exact (hf c c₁ i h₁).trans (foldlM_moves key amount hf h)

theorem creditAll_moves (h : (c.creditAll items).run m = some c') : Moves c c' (credits items) 0 := by
  exact foldlM_moves (fun i : Address × I128 => i.1) (fun i => i.2.toInt) (fun _ _ _ => checkedAdd_moves) h

theorem debitAll_moves (h : (c.debitAll items).run .exact = some c') : Moves c c' (-credits items) 0 := by
  have := foldlM_moves (fun i : Address × I128 => i.1) (fun i => -i.2.toInt) (fun _ _ _ => add_moves) h
  rwa [payments_neg] at this

/-- `c'` is `c` after issuing currency: no balance falls, and the supply grows by what the balances do. -/
def Issues (c c' : CurrencyStore) : Prop := ∃ δ, 0 ≤ δ ∧ Moves c c' δ δ.degree

theorem Issues.refl (c : CurrencyStore) : Issues c c := ⟨0, le_rfl, by simp, by simp⟩

theorem Issues.trans (h : Issues c c') (h' : Issues c' c'') : Issues c c'' := by
  obtain ⟨δ, hδ, hm⟩ := h
  obtain ⟨δ', hδ', hm'⟩ := h'
  exact ⟨δ + δ', add_nonneg hδ hδ', by rw [map_add]; exact hm.trans hm'⟩

theorem Issues.single (hx : 0 ≤ x) (h : Moves c c' (single a x) x) : Issues c c' :=
  ⟨Finsupp.single a x, single_nonneg.2 hx, by rw [degree_single]; exact h⟩

theorem Issues.balanced (h : Issues c c') (hc : c.Balanced) : c'.Balanced := by
  obtain ⟨δ, -, hm⟩ := h
  exact hm.balanced rfl hc

theorem Issues.solvent (h : Issues c c') (hc : c.Solvent) : c'.Solvent := by
  obtain ⟨δ, hδ, hm⟩ := h
  exact hm.solvent (add_nonneg (solvent_iff.1 hc) hδ)

theorem degree_credits_zip {addresses : List Address} {amounts : List I128} (h : addresses.length = amounts.length) :
    (credits (addresses.zip amounts)).degree = sumAmounts amounts := by
  have hzip : (addresses.zip amounts).map (fun i => i.2) = amounts := List.map_snd_zip h.ge
  unfold credits sumAmounts
  rw [degree_payments]
  conv_rhs => rw [← hzip, List.map_map]
  rfl

theorem credits_apply (items : List (Address × I128)) (a : Address) : credits items a = amountFor items a :=
  payments_apply a items

theorem credits_nonneg (h : ∀ i ∈ items, 0 < (i.2 : ℤ)) : 0 ≤ credits items :=
  payments_nonneg fun i hi => (h i hi).le

end CurrencyStore

open CurrencyStore

/-! ## Issuance -/

section Issuance

variable {m : Mode} {env : Env} {s s' : State} {amount : I128}

theorem mintCurrency_issues {recipient : Address}
    (h : (mintCurrency env s recipient amount).run m = some s') : s.currency.Issues s'.currency := by
  obtain ⟨supply, c, x, ha, hs, -, hc, rfl⟩ := mintCurrency_spec h
  exact .single ha.le ((checkedAdd_moves hc).withSupply hs)

theorem batchMintCurrency_issues {recipients : List Address} {amounts : List I128} {r : BatchResult}
    (h : (batchMintCurrency env s recipients amounts).run .exact = some (r, s')) :
    s.currency.Issues s'.currency := by
  obtain ⟨total, supply, c, x, hl, ht, hc, hs, -, rfl⟩ := batchMintCurrency_spec h
  obtain ⟨hpos, rfl, hfit⟩ := (run_sumPositive _ _ _).1 ht
  refine ⟨credits (recipients.zip amounts), credits_nonneg fun i hi => hpos _ (List.of_mem_zip hi).2, ?_⟩
  rw [degree_credits_zip hl]
  rw [wrap_of_fits (hfit rfl)] at hs
  exact (creditAll_moves hc).withSupply hs

theorem grantReward_issues {reward : RewardDistribution} (h : (grantReward env s reward).run m = some s') :
    s.currency.Issues s'.currency := by
  unfold grantReward at h
  split at h
  · exact mintCurrency_issues h
  · obtain ⟨_, h⟩ := run_snd_map h
    obtain ⟨_, _, _, -, rfl⟩ := mintNft_spec h
    exact .refl _

theorem distributeRewards_issues {rewards : List RewardDistribution}
    (h : (distributeRewards env s rewards).run m = some s') : s.currency.Issues s'.currency := by
  unfold distributeRewards at h
  rw [run_bind] at h
  obtain ⟨-, -, h⟩ := Option.bind_eq_some_iff.1 h
  refine foldlM_inv m (fun _ t => s.currency.Issues t.currency) ?_ (.refl _) h
  intro reward _ t t' ht hg
  exact ht.trans (grantReward_issues hg)

theorem claimReferralRewards_issues {account : Address}
    (h : (claimReferralRewards env s account).run .exact = some (amount, s')) : s.currency.Issues s'.currency := by
  obtain ⟨supply, c, _, _, ha, hs, -, hc, rfl⟩ := claimReferralRewards_spec h
  rw [run_unchecked_exact] at hs
  exact .single ha.le ((add_moves hc).withSupply hs)

/-- The currency a settlement will store if it stops here. -/
def RebateRun.settled (run : RebateRun) : CurrencyStore := { run.currency with totalSupply := run.supply }

theorem payRebate_issues {now : U64} {maxSupply : I128} {run : RebateRun} {trader : Address} {volume : I128}
    {bps : U32} :
    Ensures .exact (payRebate now maxSupply run trader volume bps) fun run' => run.settled.Issues run'.settled := by
  refine .ite (fun _ => ?_) fun _ => .pure (.refl _)
  refine .bind fun _ _ => .bind fun amount _ => .ite (fun ha => ?_) fun _ => .pure (.refl _)
  refine .bind fun supply hs => .ite (fun _ => ?_) fun _ => .pure (.refl _)
  refine .bind fun c hc => .bind fun _ _ => .pure ?_
  rw [run_unchecked_exact] at hs
  have hm := add_moves hc
  exact .single ha.le ⟨hm.ledger, hs⟩

theorem settleTrader_issues {now : U64} {maxSupply : I128} {config : RebateConfig} {run run' : RebateRun}
    {trader : Address} (h : (settleTrader now maxSupply config run trader).run .exact = some run') :
    run.settled.Issues run'.settled := by
  unfold settleTrader at h
  simp only [run_iff] at h
  obtain ⟨run₁, h₁, rfl⟩ := h
  exact payRebate_issues run₁ h₁

theorem calculateMonthlyRebates_issues {paid : U32} (h : (calculateMonthlyRebates env s).run .exact = some (paid, s')) :
    s.currency.Issues s'.currency := by
  obtain ⟨config, run, _, _, -, hr, rfl⟩ := calculateMonthlyRebates_spec h
  refine foldlM_inv .exact (fun _ r => s.currency.Issues r.settled) ?_ (.refl _) hr
  intro trader _ r r' hs ht
  exact hs.trans (settleTrader_issues ht)

theorem issue_issues {c c' : CurrencyStore} {owner : Address} (ha : 0 < (amount : ℤ))
    (h : (issue c owner amount).run .exact = some c') : c.Issues c' := by
  unfold issue at h
  simp only [run_iff, run_unchecked_exact] at h
  obtain ⟨c₁, h₁, supply, hs, rfl⟩ := h
  have hm := add_moves h₁
  refine .single ha.le (hm.withSupply ?_)
  rw [hs, hm.supply, add_zero]

theorem payRewards_issues {c c' : CurrencyStore} {owner : Address} {rewards : I128}
    (h : (payRewards c owner rewards).run .exact = some c') : c.Issues c' := by
  unfold payRewards at h
  split at h
  · exact issue_issues ‹_› h
  · rw [run_pure] at h
    cases h
    exact .refl c

/-- Whatever way currency is issued, it is credited to someone and added to the supply. -/
theorem execute_issues {c : Call} (hc : c.issuesCurrency = true) (h : (execute env s c).run .exact = some s') :
    s.currency.Issues s'.currency := by
  cases c with
  | mintCurrency => exact mintCurrency_issues h
  | distributeRewards => exact distributeRewards_issues h
  | batchMintCurrency => obtain ⟨_, h⟩ := run_snd_map h; exact batchMintCurrency_issues h
  | claimReferralRewards => obtain ⟨_, h⟩ := run_snd_map h; exact claimReferralRewards_issues h
  | calculateMonthlyRebates => obtain ⟨_, h⟩ := run_snd_map h; exact calculateMonthlyRebates_issues h
  | purchaseFairLaunch =>
    obtain ⟨ha, _, _, hc, rfl⟩ := purchaseFairLaunch_spec h
    exact issue_issues ha hc
  | unstakeNft =>
    obtain ⟨_, h⟩ := run_snd_map h
    obtain ⟨_, _, _, _, _, -, -, -, hpay, rfl⟩ := unstakeNft_spec h
    exact payRewards_issues hpay
  | claimNftStakingRewards =>
    obtain ⟨_, h⟩ := run_snd_map h
    obtain ⟨_, _, _, _, _, _, -, -, -, hpay, -, rfl⟩ := claimNftStakingRewards_spec h
    exact payRewards_issues hpay
  | _ => cases hc

end Issuance

/-! ## Sales -/

/-- The part of a price a rate in basis points takes. -/
def cut (price bps : ℤ) : ℤ := (price * bps).tdiv 10000

theorem cut_nonneg {price bps : ℤ} (hp : 0 ≤ price) (hb : 0 ≤ bps) : 0 ≤ cut price bps :=
  Int.tdiv_nonneg (mul_nonneg hp hb) (by norm_num)

/-- Two rates that add up to at most 100% take at most the price, each rounded down. -/
theorem cut_add_cut_le {price x y : ℤ} (hp : 0 ≤ price) (hx : 0 ≤ x) (hy : 0 ≤ y) (h : x + y ≤ 10000) :
    cut price x + cut price y ≤ price := by
  unfold cut
  rw [Int.tdiv_eq_ediv_of_nonneg (mul_nonneg hp hx), Int.tdiv_eq_ediv_of_nonneg (mul_nonneg hp hy)]
  have hle : price * x + price * y ≤ price * 10000 := by rw [← mul_add]; exact mul_le_mul_of_nonneg_left h hp
  omega

/-- The royalty rate stored for what an order sells. -/
def State.royaltyBps (s : State) : MarketplaceAsset → ℤ
  | .nft tokenId => ((s.nft.metadata.get tokenId).map fun metadata => (metadata.royaltyBps : ℤ)).getD 0
  | .currency _ => 0

/-- What a sale adds to each balance. -/
noncomputable def salePayments (buyer seller feeCollector creator : Address) (price fee royalty : ℤ) : Address →₀ ℤ :=
  single buyer (-price) + single seller (price - fee - royalty) + single feeCollector fee + single creator royalty

theorem degree_salePayments (buyer seller feeCollector creator : Address) (price fee royalty : ℤ) :
    (salePayments buyer seller feeCollector creator price fee royalty).degree = 0 := by
  simp only [salePayments, map_add, degree_single]
  ring

theorem salePayments_nonneg {l : Address →₀ ℤ} {buyer : Address} {price fee royalty : ℤ}
    (seller feeCollector creator : Address) (hl : 0 ≤ l) (hb : price ≤ l buyer) (hf : 0 ≤ fee) (hr : 0 ≤ royalty)
    (hle : fee + royalty ≤ price) : 0 ≤ l + salePayments buyer seller feeCollector creator price fee royalty := by
  have hpaid : 0 ≤ l + single buyer (-price) := by
    intro a
    rw [Finsupp.coe_zero, Pi.zero_apply, Finsupp.add_apply, Finsupp.single_apply]
    have := hl a
    rw [Finsupp.coe_zero, Pi.zero_apply] at this
    split
    · rename_i e; subst e; omega
    · omega
  have h1 : 0 ≤ single seller (price - fee - royalty) := single_nonneg.2 (by omega)
  have h2 : 0 ≤ single feeCollector fee := single_nonneg.2 hf
  have h3 : 0 ≤ single creator royalty := single_nonneg.2 hr
  have := add_nonneg (add_nonneg (add_nonneg hpaid h1) h2) h3
  rwa [add_assoc, add_assoc, add_assoc, ← add_assoc (single seller _), ← add_assoc (single buyer _),
    ← add_assoc (single buyer _)] at this

section Sales

variable {env : Env} {s s' : State}

theorem feeOf_eq_cut {config : MarketplaceConfig} {price fee : I128} (h : (feeOf config price).run .exact = some fee) :
    fee = cut price config.feePercentage := by
  unfold feeOf at h
  simp only [run_iff, run_unchecked_exact, run_quot] at h
  obtain ⟨gross, hg, -, hf⟩ := h
  rw [hf, hg, cut]

/-- A royalty is within the token's rate, and goes to a creator. -/
structure FairRoyalty (price bps : ℤ) (r : I128 × Option Address) : Prop where
  nonneg : 0 ≤ (r.1 : ℤ)
  le : (r.1 : ℤ) ≤ cut price bps
  payee : r.2 = none → (r.1 : ℤ) = 0

theorem royaltyOf_fair {buyer seller : Address} {tokenId : BytesN32} {price : I128} (hp : 0 ≤ (price : ℤ)) :
    Ensures .exact (royaltyOf s buyer seller tokenId price) (FairRoyalty price (s.royaltyBps (.nft tokenId))) := by
  unfold royaltyOf
  cases hmeta : s.nft.metadata.get tokenId with
  | none =>
    have hbps : s.royaltyBps (.nft tokenId) = 0 := by simp [State.royaltyBps, hmeta]
    rw [hbps]
    exact .pure ⟨le_rfl, cut_nonneg hp le_rfl, fun _ => rfl⟩
  | some metadata =>
    have hbps : s.royaltyBps (.nft tokenId) = metadata.royaltyBps := by simp [State.royaltyBps, hmeta]
    have hb : 0 ≤ (metadata.royaltyBps : ℤ) := metadata.royaltyBps.lo
    rw [hbps]
    refine .ite (fun _ => ?_) fun _ => .pure ⟨le_rfl, cut_nonneg hp hb, fun h => by cases h⟩
    refine .bind fun gross hg => .bind fun royalty hr => .pure ?_
    rw [run_unchecked_exact] at hg
    rw [run_quot] at hr
    have hcut : royalty = cut price metadata.royaltyBps := by rw [hr.2, hg, cut]
    exact ⟨hcut ▸ cut_nonneg hp hb, hcut.le, fun h => by cases h⟩

theorem orderRoyalty_fair {buyer : Address} {order : MarketplaceOrder} (hp : 0 ≤ (order.price : ℤ)) :
    Ensures .exact (orderRoyalty s buyer order) (FairRoyalty order.price (s.royaltyBps order.asset)) := by
  unfold orderRoyalty
  split
  · rename_i tokenId ha
    rw [ha]
    exact royaltyOf_fair hp
  · exact .pure ⟨le_rfl, cut_nonneg hp (by rename_i ha; rw [ha]; exact le_rfl), fun _ => rfl⟩

theorem movePayment_moves {c c' : CurrencyStore} {buyer seller feeCollector : Address} {price amount fee : I128}
    (h : (movePayment c buyer seller feeCollector price amount fee).run .exact = some c') :
    Moves c c' (single buyer (-(price : ℤ)) + single seller (amount : ℤ) + single feeCollector (fee : ℤ)) 0 := by
  unfold movePayment at h
  simp only [run_iff] at h
  obtain ⟨c₁, h₁, c₂, h₂, h₃⟩ := h
  exact ((add_moves h₁).trans (add_moves h₂)).trans (add_moves h₃)

theorem payRoyalty_moves {price bps : ℤ} {royalty : I128} {creator : Option Address}
    (hr : FairRoyalty price bps (royalty, creator)) (h : (payRoyalty s royalty creator).run .exact = some s') :
    ∃ payee, Moves s.currency s'.currency (single payee royalty) 0 := by
  revert s' h
  show Ensures .exact (payRoyalty s royalty creator) fun s' =>
    ∃ payee, Moves s.currency s'.currency (single payee royalty) 0
  have unpaid : ∀ payee, (royalty : ℤ) = 0 → Moves s.currency s.currency (single payee royalty) 0 :=
    fun payee h0 => ⟨by rw [h0, single_zero, add_zero], (add_zero _).symm⟩
  cases creator with
  | none => exact .pure ⟨⟨0⟩, unpaid _ (hr.payee rfl)⟩
  | some creator =>
    refine .ite (fun _ => ?_) fun h0 => .pure ⟨creator, unpaid _ (le_antisymm (not_lt.1 h0) hr.nonneg)⟩
    exact .bind fun c hc => .bind fun _ _ => .bind fun _ _ => .pure ⟨creator, add_moves hc⟩

/-- A sale moves the price from the buyer to the seller, the fee collector and the creator. -/
theorem settleSale_moves {buyer seller : Address} {price fee : I128} {bps : ℤ}
    {royaltyDue : Result (I128 × Option Address)} (hroy : Ensures .exact royaltyDue (FairRoyalty price bps))
    (h : (settleSale s buyer seller price royaltyDue).run .exact = some (fee, s')) :
    ∃ config payee royalty, (getMarketplaceConfig s).run .exact = some config ∧
      fee = cut price config.feePercentage ∧ 0 ≤ royalty ∧ royalty ≤ cut price bps ∧
      (price : ℤ) ≤ getCurrencyBalance s buyer ∧
      Moves s.currency s'.currency (salePayments buyer seller config.feeCollector payee price fee royalty) 0 := by
  unfold settleSale at h
  simp only [run_iff, run_unchecked_exact, Prod.exists, Prod.mk.injEq, not_lt] at h
  obtain ⟨-, hb, _, hcfg, fee, hfee, _, creator, hr, afterFee, ha, amount, hm, c, hc, s₁, h₁, rfl, rfl⟩ := h
  have hfair := hroy _ hr
  obtain ⟨_, hpay⟩ := payRoyalty_moves hfair h₁
  have hmoves := (movePayment_moves hc).trans hpay
  rw [hm, ha] at hmoves
  exact ⟨_, _, _, hcfg, feeOf_eq_cut hfee, hfair.nonneg, hfair.le, hb, hmoves⟩

end Sales

end ArenaX.VirtualEconomy
