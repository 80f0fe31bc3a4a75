/-
Conservation and solvency over whole runs: the supply is the sum of all balances as long as nobody pays
themselves, and no balance is negative as long as no batch burns more than its owners hold and fees and
royalties stay within the price.
-/
import ArenaX.VirtualEconomy.Money

namespace ArenaX.VirtualEconomy

open Machine Exec CurrencyStore MarketplaceManager
open Finsupp (single single_zero degree_single)

variable {buyer : Address} {r : BatchResult}

/-! ## Prices -/

section Prices

variable {m : Mode} {env : Env} {s s' : State} {c : Call}

theorem dutchAuctionPrice_pos {now : U64} {listing : DutchAuctionListing} (hv : listing.Valid) :
    Ensures .exact (dutchAuctionPrice now listing) fun price => 0 < (price : ℤ) := by
  obtain ⟨hf, hs, hw⟩ := hv
  refine .ite (fun _ => .pure (lt_of_lt_of_le hf hs)) fun h1 => .ite (fun _ => .pure hf) fun h2 => ?_
  refine .bind fun premium hp => ?_
  rw [run_unchecked_exact] at hp
  have hp0 : 0 ≤ (premium : ℤ) := by omega
  split
  · refine .bind fun product hm => .bind fun decayed hd => fun price hprice => ?_
    rw [run_unchecked_exact] at hm hprice
    rw [run_quot] at hd
    -- less than the whole window has passed, so less than the whole premium is gone
    have hdec : (decayed : ℤ) ≤ premium := by
      have hle : (premium : ℤ) * (now - listing.startTime) ≤ premium * (listing.endTime - listing.startTime) :=
        mul_le_mul_of_nonneg_left (by omega) hp0
      rw [hd.2, hm, Int.tdiv_eq_ediv_of_nonneg (mul_nonneg hp0 (by omega))]
      exact Int.ediv_le_of_le_mul (by omega) hle
    omega
  · refine .bind fun quarters _ => .bind fun steps _ => fun price hprice => ?_
    rw [run_unchecked_exact] at hprice
    have : 0 ≤ (premium : ℤ) >>> (max 0 (min (steps : ℤ) 4)).toNat := by
      rw [Int.shiftRight_eq_div_pow]
      positivity
    omega

theorem bondingCurvePrice_pos {drop : BondingCurveDrop} (hb : 0 < (drop.basePrice : ℤ)) :
    Ensures .exact (bondingCurvePrice drop) fun price => 0 < (price : ℤ) := by
  refine .bind fun slope hs => .bind fun product hm => .bind fun rise hr => fun price hp => ?_
  rw [run_unchecked_exact] at hs hm hp
  rw [run_quot] at hr
  have hm0 : 0 ≤ (product : ℤ) := by
    rw [hm, hs]
    exact mul_nonneg (mul_nonneg hb.le drop.slopeBps.lo) drop.minted.lo
  have := Int.tdiv_nonneg hm0 (show (0 : ℤ) ≤ 10000 by norm_num)
  omega

/-- Everything on offer has a positive price. -/
structure Priced (s : State) : Prop where
  orders : s.orders.order.All fun _ order => 0 < (order.price : ℤ)
  auctions : s.pricing.auction.All fun _ listing => listing.Valid
  drops : s.pricing.drop.All fun _ drop => 0 < (drop.basePrice : ℤ)

theorem execute_priced (hs : Priced s) (h : (execute env s c).run m = some s') : Priced s' := by
  have hkept := execute_frame h
  cases c with
  | burnNft owner tokenId =>
    obtain ⟨orders, n, _, _, ho, -, -, rfl⟩ := burnNft_spec h
    -- cancelling an order keeps its price
    have hall : (cancelActiveOrder s.orders s.analytics.activeOrders tokenId).1.order.All _ :=
      cancelActiveOrder_all hs.orders fun _ _ => id
    rw [ho] at hall
    exact ⟨hall, hs.auctions, hs.drops⟩
  | createMarketplaceOrder =>
    obtain ⟨_, h⟩ := run_snd_map h
    obtain ⟨_, -, -, hp, -, rfl⟩ := createMarketplaceOrder_spec h
    exact ⟨hs.orders.set hp, hs.auctions, hs.drops⟩
  | executeMarketplaceTrade =>
    obtain ⟨_, h₁, rfl⟩ := executeMarketplaceTrade_spec h
    obtain ⟨order, _, _, _, _, _, _, _, ho, -, -, -, -, rfl⟩ := executeMarketplaceTradeUnguarded_spec h₁
    exact ⟨hs.orders.set (hs.orders _ order ho), hs.auctions, hs.drops⟩
  | cancelMarketplaceOrder =>
    obtain ⟨order, ho, -, rfl⟩ := cancelMarketplaceOrder_spec h
    exact ⟨hs.orders.set (hs.orders _ order ho), hs.auctions, hs.drops⟩
  | createDutchAuction =>
    obtain ⟨_, h⟩ := run_snd_map h
    obtain ⟨listing, hv, _, _, rfl⟩ := createDutchAuction_spec h
    exact ⟨hs.orders, hs.auctions.set hv, hs.drops⟩
  | purchaseDutchAuction =>
    obtain ⟨_, h₁, rfl⟩ := purchaseDutchAuction_spec h
    obtain ⟨listing, _, _, _, _, _, _, _, hl, -, -, -, rfl⟩ := purchaseDutchAuctionUnguarded_spec h₁
    have hv := hs.auctions _ listing hl
    exact ⟨hs.orders, hs.auctions.set ⟨hv.floorPos, hv.floorLe, hv.window⟩, hs.drops⟩
  | cancelDutchAuction =>
    obtain ⟨listing, hl, rfl⟩ := cancelDutchAuction_spec h
    have hv := hs.auctions _ listing hl
    exact ⟨hs.orders, hs.auctions.set ⟨hv.floorPos, hv.floorLe, hv.window⟩, hs.drops⟩
  | createBondingCurveDrop =>
    obtain ⟨_, h⟩ := run_snd_map h
    obtain ⟨drop, hb, _, _, rfl⟩ := createBondingCurveDrop_spec h
    exact ⟨hs.orders, hs.auctions, hs.drops.set hb⟩
  | mintFromDrop =>
    obtain ⟨_, h⟩ := run_snd_map h
    obtain ⟨_, h₁, rfl⟩ := mintFromDrop_spec h
    obtain ⟨drop, _, _, _, _, _, _, _, _, _, _, hd, -, -, -, -, -, -, -, rfl⟩ := mintFromDropUnguarded_spec h₁
    exact ⟨hs.orders, hs.auctions, hs.drops.set (hs.drops _ drop hd)⟩
  | setDropActive =>
    obtain ⟨drop, hd, rfl⟩ := setDropActive_spec h
    exact ⟨hs.orders, hs.auctions, hs.drops.set (hs.drops _ drop hd)⟩
  | _ =>
    -- nothing is put on offer or taken off
    refine ⟨?_, ?_, ?_⟩
    · rw [(hkept.orders rfl).1]
      exact hs.orders
    · rw [hkept.auctions rfl]
      exact hs.auctions
    · rw [hkept.drops rfl]
      exact hs.drops

end Prices

/-! ## Conservation -/

section Conservation

variable {env : Env} {s s' : State} {c : Call}

/-- A transfer, single or in a batch, does not pay its own sender. -/
def Call.PaysOthers : Call → Prop
  | .transferCurrency sender recipient _ => sender ≠ recipient
  | .batchTransferCurrency sender items => ∀ item ∈ items, item.recipient ≠ sender
  | _ => True

instance : ∀ c : Call, Decidable c.PaysOthers := by
  intro c
  cases c <;> dsimp only [Call.PaysOthers] <;> infer_instance

/-- Nobody pays themselves, and no unchecked operation wraps. -/
def Conserving : Rule := fun _ env s c => c.InRange env s ∧ c.PaysOthers
deriving Decidable

theorem transferCurrency_balanced {sender recipient : Address} {amount : I128} (hne : sender ≠ recipient)
    (h : (transferCurrency env s sender recipient amount).run .exact = some s') (hb : s.currency.Balanced) :
    s'.currency.Balanced := by
  obtain ⟨x, y, -, -, hx, hy, rfl⟩ := transferCurrency_spec h
  have hsend : Moves s.currency (s.currency.set sender x) (single sender (-amount)) 0 :=
    set_moves (by rw [hx, sub_eq_add_neg])
  -- the recipient's balance, read before the sender's was written, is still there
  have hrecv : Moves (s.currency.set sender x) ((s.currency.set sender x).set recipient y)
      (single recipient amount) 0 := by
    refine set_moves ?_
    rw [hy, CurrencyStore.get_set, if_neg hne.symm]
  exact (hsend.trans hrecv).balanced (by simp) hb

theorem batchTransferCurrency_balanced {sender : Address} {items : List BatchTransferItem}
    (hne : ∀ item ∈ items, item.recipient ≠ sender)
    (h : (batchTransferCurrency env s sender items).run .exact = some (r, s')) (hb : s.currency.Balanced) :
    s'.currency.Balanced := by
  obtain ⟨c, x, -, -, hc, hx, rfl⟩ := batchTransferCurrency_spec h
  have hcredit := creditAll_moves hc
  have hkept : (c.get sender : ℤ) = s.currency.get sender := by
    rw [← ledger_apply, hcredit.ledger, Finsupp.add_apply, ledger_apply, credits, payments_apply_eq_zero, add_zero]
    intro i hi
    obtain ⟨item, hitem, rfl⟩ := List.mem_map.1 hi
    exact hne item hitem
  have hdebit : Moves c (c.set sender x) (single sender (-sumAmounts (items.map BatchTransferItem.amount))) 0 :=
    set_moves (by rw [hx, hkept, sub_eq_add_neg])
  refine (hcredit.trans hdebit).balanced ?_ hb
  rw [map_add, degree_single, credits, degree_payments, List.map_map, sumAmounts, List.map_map]
  exact add_neg_cancel _

theorem burnCurrency_balanced {owner : Address} {amount : I128}
    (h : (burnCurrency env s owner amount).run .exact = some s') (hb : s.currency.Balanced) :
    s'.currency.Balanced := by
  obtain ⟨x, supply, _, -, -, hx, hs, rfl⟩ := burnCurrency_spec h
  have hm : Moves s.currency (s.currency.set owner x) (single owner (-amount)) 0 :=
    set_moves (by rw [hx, sub_eq_add_neg])
  exact (hm.withSupply (hs.trans (sub_eq_add_neg _ _))).balanced (degree_single _ _) hb

theorem batchBurnCurrency_balanced {owners : List Address} {amounts : List I128}
    (h : (batchBurnCurrency env s owners amounts).run .exact = some (r, s')) (hb : s.currency.Balanced) :
    s'.currency.Balanced := by
  obtain ⟨total, supply, c, _, hl, ht, hc, hs, rfl⟩ := batchBurnCurrency_spec h
  obtain ⟨-, rfl, hfit⟩ := (run_sumPositive _ _ _).1 ht
  rw [run_unchecked_exact, wrap_of_fits (hfit rfl)] at hs
  refine ((debitAll_moves hc).withSupply (hs.trans (sub_eq_add_neg _ _))).balanced ?_ hb
  rw [map_neg, degree_credits_zip hl]

theorem executeMarketplaceTrade_balanced {orderId : BytesN32} (hp : Priced s)
    (h : (executeMarketplaceTrade env s buyer orderId).run .exact = some s') (hb : s.currency.Balanced) :
    s'.currency.Balanced := by
  obtain ⟨_, h₁, rfl⟩ := executeMarketplaceTrade_spec h
  obtain ⟨order, fee, _, _, _, _, _, _, ho, -, hs, -, -, rfl⟩ := executeMarketplaceTradeUnguarded_spec h₁
  obtain ⟨_, _, _, -, -, -, -, -, hm⟩ := settleSale_moves (orderRoyalty_fair (hp.orders _ order ho).le) hs
  exact hm.balanced (degree_salePayments ..) hb

theorem purchaseDutchAuction_balanced {listingId : BytesN32} (hp : Priced s)
    (h : (purchaseDutchAuction env s buyer listingId).run .exact = some s') (hb : s.currency.Balanced) :
    s'.currency.Balanced := by
  obtain ⟨_, h₁, rfl⟩ := purchaseDutchAuction_spec h
  obtain ⟨listing, price, fee, _, _, _, _, _, hl, hprice, hs, -, rfl⟩ := purchaseDutchAuctionUnguarded_spec h₁
  have hpos := dutchAuctionPrice_pos (hp.auctions _ listing hl) price hprice
  obtain ⟨_, _, _, -, -, -, -, -, hm⟩ := settleSale_moves (royaltyOf_fair hpos.le) hs
  exact hm.balanced (degree_salePayments ..) hb

/-- A mint from a drop is paid like a sale without royalty. -/
theorem mintFromDrop_moves {dropId id : BytesN32} (hp : Priced s)
    (h : (mintFromDrop env s buyer dropId).run .exact = some (id, s')) :
    ∃ seller config price fee, 0 < price ∧ (getMarketplaceConfig s).run .exact = some config ∧
      fee = cut price config.feePercentage ∧ price ≤ getCurrencyBalance s buyer ∧
      Moves s.currency s'.currency (salePayments buyer seller config.feeCollector buyer price fee 0) 0 := by
  obtain ⟨_, h₁, rfl⟩ := mintFromDrop_spec h
  obtain ⟨drop, price, _, _, amount, c, _, _, _, _, _, hd, hprice, hb, hcfg, hfee, ha, hm, -, rfl⟩ :=
    mintFromDropUnguarded_spec h₁
  rw [run_unchecked_exact] at ha
  have hmoves := movePayment_moves hm
  refine ⟨drop.creator, _, price, _, bondingCurvePrice_pos (hp.drops _ drop hd) price hprice, hcfg,
    feeOf_eq_cut hfee, hb, ?_⟩
  rw [salePayments, sub_zero, single_zero, add_zero, ← ha]
  exact hmoves

theorem execute_balanced (hp : Priced s) (hc : c.PaysOthers) (h : (execute env s c).run .exact = some s')
    (hb : s.currency.Balanced) : s'.currency.Balanced := by
  cases c with
  | transferCurrency => exact transferCurrency_balanced hc h hb
  | burnCurrency => exact burnCurrency_balanced h hb
  | batchTransferCurrency => obtain ⟨_, h⟩ := run_snd_map h; exact batchTransferCurrency_balanced hc h hb
  | batchBurnCurrency => obtain ⟨_, h⟩ := run_snd_map h; exact batchBurnCurrency_balanced h hb
  | executeMarketplaceTrade => exact executeMarketplaceTrade_balanced hp h hb
  | purchaseDutchAuction => exact purchaseDutchAuction_balanced hp h hb
  | mintFromDrop =>
    obtain ⟨_, h⟩ := run_snd_map h
    obtain ⟨_, _, _, _, -, -, -, -, hm⟩ := mintFromDrop_moves hp h
    exact hm.balanced (degree_salePayments ..) hb
  | mintCurrency | batchMintCurrency | distributeRewards | claimReferralRewards | calculateMonthlyRebates
  | purchaseFairLaunch | unstakeNft | claimNftStakingRewards => exact (execute_issues rfl h).balanced hb
  | _ => rw [(execute_frame h).currency rfl]; exact hb

/-- Wherever nobody pays themselves and nothing wraps, the total supply is the sum of all balances, in
every state reached. -/
theorem supply_eq_sum_of_balances {s : State} (h : contract.Reach Conserving env s) :
    (getTotalCurrencySupply s : ℤ) = ∑ᶠ a, (getCurrencyBalance s a : ℤ) := by
  have hinv : Priced s ∧ s.currency.Balanced := by
    refine reach_invariant (P := fun s => Priced s ∧ s.currency.Balanced) ?_ ?_ h
    · intro _ _ _
      refine ⟨⟨Table.All.empty, Table.All.empty, Table.All.empty⟩, ?_⟩
      show (0 : ℤ) = (Machine.ledger ∅).degree
      rw [ledger_empty, map_zero]
    · intro _ env s c s' hs hok hstep
      exact ⟨execute_priced hs.1 hstep, execute_balanced hs.1 hok.2 (run_exact_of_wrapping hok.1 hstep) hs.2⟩
  exact hinv.2.trans (degree_ledger _)

end Conservation

/-! ## Solvency -/

section Solvency

variable {m : Mode} {env : Env} {s s' : State} {c : Call}

/-- The marketplace fee in force, in basis points. -/
def State.feeBps (s : State) : ℤ := (s.marketplaceConfig.map fun config => (config.feePercentage : ℤ)).getD 250

/-- A batch burns no more than each of its owners holds, and fee and royalty of a sale are within its price. -/
def Call.Covered (s : State) : Call → Prop
  | .batchBurnCurrency owners amounts =>
    ∀ owner ∈ owners, amountFor (owners.zip amounts) owner ≤ getCurrencyBalance s owner
  | .executeMarketplaceTrade _ orderId =>
    ∀ order ∈ s.orders.order.get orderId, s.feeBps + s.royaltyBps order.asset ≤ 10000
  | .purchaseDutchAuction _ listingId =>
    ∀ listing ∈ s.pricing.auction.get listingId, s.feeBps + s.royaltyBps (.nft listing.tokenId) ≤ 10000
  | .mintFromDrop .. => s.feeBps ≤ 10000
  | _ => True

instance (s : State) : ∀ c : Call, Decidable (c.Covered s) := by
  intro c
  cases c <;> dsimp only [Call.Covered] <;> infer_instance

/-- Burns and fees are covered, and no unchecked operation wraps. -/
def Covering : Rule := fun _ env s c => c.InRange env s ∧ c.Covered s
deriving Decidable

theorem feePercentage_eq_feeBps {config : MarketplaceConfig} (h : (getMarketplaceConfig s).run m = some config) :
    config.feePercentage = s.feeBps := by
  unfold getMarketplaceConfig at h
  simp only [run_iff] at h
  obtain ⟨_, -, rfl⟩ := h
  unfold State.feeBps
  cases s.marketplaceConfig <;> rfl

theorem royaltyBps_nonneg (s : State) (asset : MarketplaceAsset) : 0 ≤ s.royaltyBps asset := by
  unfold State.royaltyBps
  split
  · rename_i tokenId
    cases s.nft.metadata.get tokenId with
    | none => exact le_rfl
    | some metadata => exact metadata.royaltyBps.lo
  · exact le_rfl

theorem settleSale_solvent (asset : MarketplaceAsset) {buyer seller : Address} {price fee : I128}
    {royaltyDue : Result (I128 × Option Address)} (hp : 0 < (price : ℤ))
    (hroy : Ensures .exact royaltyDue (FairRoyalty price (s.royaltyBps asset)))
    (hle : s.feeBps + s.royaltyBps asset ≤ 10000)
    (h : (settleSale s buyer seller price royaltyDue).run .exact = some (fee, s')) (hs : s.currency.Solvent) :
    s'.currency.Solvent := by
  obtain ⟨config, payee, royalty, hcfg, hfee, hr0, hr, hb, hm⟩ := settleSale_moves hroy h
  have hbps := feePercentage_eq_feeBps hcfg
  have hfee0 : 0 ≤ (fee : ℤ) := hfee ▸ cut_nonneg hp.le config.feePercentage.lo
  have hsum := cut_add_cut_le hp.le config.feePercentage.lo (royaltyBps_nonneg s asset) (hbps ▸ hle)
  exact hm.solvent (salePayments_nonneg _ _ _ (solvent_iff.1 hs) hb hfee0 hr0 (by omega))

theorem executeMarketplaceTradeUnguarded_solvent {orderId : BytesN32} (hp : Priced s)
    (hcov : ∀ order ∈ s.orders.order.get orderId, s.feeBps + s.royaltyBps order.asset ≤ 10000)
    (h : (executeMarketplaceTradeUnguarded env s buyer orderId).run .exact = some s') (hs : s.currency.Solvent) :
    s'.currency.Solvent := by
  obtain ⟨order, fee, _, _, _, _, _, _, ho, -, hsale, -, -, rfl⟩ := executeMarketplaceTradeUnguarded_spec h
  have hpos := hp.orders _ order ho
  have hsold := settleSale_solvent order.asset hpos (orderRoyalty_fair hpos.le) (hcov order ho) hsale hs
  exact hsold

theorem purchaseDutchAuctionUnguarded_solvent {listingId : BytesN32} (hp : Priced s)
    (hcov : ∀ listing ∈ s.pricing.auction.get listingId, s.feeBps + s.royaltyBps (.nft listing.tokenId) ≤ 10000)
    (h : (purchaseDutchAuctionUnguarded env s buyer listingId).run .exact = some s') (hs : s.currency.Solvent) :
    s'.currency.Solvent := by
  obtain ⟨listing, price, fee, _, _, _, _, _, hl, hprice, hsale, -, rfl⟩ := purchaseDutchAuctionUnguarded_spec h
  have hpos := dutchAuctionPrice_pos (hp.auctions _ listing hl) price hprice
  have hsold := settleSale_solvent (.nft listing.tokenId) hpos (royaltyOf_fair hpos.le) (hcov listing hl) hsale hs
  exact hsold

theorem transferCurrency_solvent {sender recipient : Address} {amount : I128}
    (h : (transferCurrency env s sender recipient amount).run m = some s') (hs : s.currency.Solvent) :
    s'.currency.Solvent := by
  obtain ⟨x, y, ha, hb, hx, hy, rfl⟩ := transferCurrency_spec h
  have hr : 0 ≤ (getCurrencyBalance s recipient : ℤ) := hs recipient
  exact (hs.set (by omega)).set (by omega)

theorem batchTransferCurrency_solvent {sender : Address} {items : List BatchTransferItem}
    (h : (batchTransferCurrency env s sender items).run m = some (r, s')) (hs : s.currency.Solvent) :
    s'.currency.Solvent := by
  obtain ⟨c, x, hpos, hle, hc, hx, rfl⟩ := batchTransferCurrency_spec h
  have hcredits : 0 ≤ credits (items.map fun item => (item.recipient, item.amount)) := by
    refine credits_nonneg fun i hi => ?_
    obtain ⟨item, hitem, rfl⟩ := List.mem_map.1 hi
    exact hpos item hitem
  exact ((creditAll_moves hc).solvent (add_nonneg (solvent_iff.1 hs) hcredits)).set (by omega)

theorem batchBurnCurrency_solvent {owners : List Address} {amounts : List I128}
    (hcov : ∀ owner ∈ owners, amountFor (owners.zip amounts) owner ≤ getCurrencyBalance s owner)
    (h : (batchBurnCurrency env s owners amounts).run .exact = some (r, s')) (hs : s.currency.Solvent) :
    s'.currency.Solvent := by
  obtain ⟨total, supply, c, _, -, -, hc, -, rfl⟩ := batchBurnCurrency_spec h
  refine (debitAll_moves hc).solvent fun a => ?_
  show 0 ≤ getCurrencyBalance s a + -credits (owners.zip amounts) a
  by_cases ha : a ∈ owners
  · rw [credits_apply]
    have := hcov a ha
    omega
  · -- an address that is not an owner is not charged
    have hnone : credits (owners.zip amounts) a = 0 :=
      payments_apply_eq_zero fun i hi e => ha (e ▸ (List.of_mem_zip hi).1)
    have : 0 ≤ (getCurrencyBalance s a : ℤ) := hs a
    omega

theorem execute_solvent (hp : Priced s) (hc : c.Covered s) (h : (execute env s c).run .exact = some s')
    (hs : s.currency.Solvent) : s'.currency.Solvent := by
  cases c with
  | transferCurrency => exact transferCurrency_solvent h hs
  | burnCurrency =>
    obtain ⟨x, _, _, -, hb, hx, -, rfl⟩ := burnCurrency_spec h
    exact Solvent.set hs (by omega)
  | batchTransferCurrency => obtain ⟨_, h⟩ := run_snd_map h; exact batchTransferCurrency_solvent h hs
  | batchBurnCurrency => obtain ⟨_, h⟩ := run_snd_map h; exact batchBurnCurrency_solvent hc h hs
  | executeMarketplaceTrade =>
    obtain ⟨_, h₁, rfl⟩ := executeMarketplaceTrade_spec h
    have hp' : Priced { s with reentrancyGuard := true } := ⟨hp.orders, hp.auctions, hp.drops⟩
    have hsold := executeMarketplaceTradeUnguarded_solvent hp' hc h₁ hs
    exact hsold
  | purchaseDutchAuction =>
    obtain ⟨_, h₁, rfl⟩ := purchaseDutchAuction_spec h
    have hp' : Priced { s with reentrancyGuard := true } := ⟨hp.orders, hp.auctions, hp.drops⟩
    have hsold := purchaseDutchAuctionUnguarded_solvent hp' hc h₁ hs
    exact hsold
  | mintFromDrop =>
    obtain ⟨_, h⟩ := run_snd_map h
    obtain ⟨_, config, price, fee, hpos, hcfg, rfl, hb, hm⟩ := mintFromDrop_moves hp h
    have hle : (config.feePercentage : ℤ) + 0 ≤ 10000 := by rw [feePercentage_eq_feeBps hcfg, add_zero]; exact hc
    have hfee := cut_add_cut_le hpos.le config.feePercentage.lo le_rfl hle
    have hzero := cut_nonneg hpos.le (le_refl (0 : ℤ))
    exact hm.solvent (salePayments_nonneg _ _ _ (solvent_iff.1 hs) hb (cut_nonneg hpos.le config.feePercentage.lo)
      le_rfl (by omega))
  | mintCurrency | batchMintCurrency | distributeRewards | claimReferralRewards | calculateMonthlyRebates
  | purchaseFairLaunch | unstakeNft | claimNftStakingRewards => exact (execute_issues rfl h).solvent hs
  | _ => rw [(execute_frame h).currency rfl]; exact hs

/-- Wherever burns and fees are covered and nothing wraps, no balance is negative, in every state reached. -/
theorem balance_nonneg {s : State} (h : contract.Reach Covering env s) (a : Address) :
    0 ≤ (getCurrencyBalance s a : ℤ) := by
  have hinv : Priced s ∧ s.currency.Solvent := by
    refine reach_invariant (P := fun s => Priced s ∧ s.currency.Solvent) ?_ ?_ h
    · intro _ _ _
      refine ⟨⟨Table.All.empty, Table.All.empty, Table.All.empty⟩, solvent_iff.2 ?_⟩
      show 0 ≤ Machine.ledger ∅
      rw [ledger_empty]
    · intro _ env s c s' hs hok hstep
      exact ⟨execute_priced hs.1 hstep, execute_solvent hs.1 hok.2 (run_exact_of_wrapping hok.1 hstep) hs.2⟩
  exact hinv.2 a

end Solvency

section Runs

open Sample

/-- A sale with royalty and fee, a batch, a burn. -/
def marketDay : List (Env × Call) :=
  [signed 1 (.batchMintCurrency [alice, bob, alice] [500, 1000, 50]),
    signed 2 (.mintNft alice ⟨3, "swords", carol, 1000⟩ none),
    signed 3 (.createMarketplaceOrder alice (.nft (idOfCounter 1)) 400 none),
    signed 4 (.executeMarketplaceTrade bob (idOfCounter 1)),
    signed 5 (.transferCurrency bob alice 10),
    signed 6 (.burnCurrency bob 90)]

/-- The market day meets the condition to its end, and its supply is the sum of the balances. -/
theorem supply_after_marketDay : ∃ r, (deployment 1000000 250).after Conserving marketDay = some r ∧
    getTotalCurrencySupply r.2 = i128.wrap 1460 ∧ (getTotalCurrencySupply r.2 : ℤ) = ∑ᶠ a,
      (getCurrencyBalance r.2 a : ℤ) := by
  refine ⟨_, evaluated, by decide +kernel, ?_⟩
  exact supply_eq_sum_of_balances (reach_after (evaluated _))

/-- Paying oneself creates currency: the recipient's balance, read before the sender's is written, is
written last. -/
theorem self_transfer_creates_currency : ∃ r, contract.Reach Unrestricted r.1 r.2 ∧
    (deployment 1000000 250).after Unrestricted
      [signed 1 (.mintCurrency alice 100), signed 2 (.transferCurrency alice alice 50)] =
        some r ∧
    (getTotalCurrencySupply r.2 : ℤ) = 100 ∧ ∑ᶠ a, (getCurrencyBalance r.2 a : ℤ) = 150 := by
  refine ⟨_, ?_, evaluated, by decide +kernel, ?_⟩
  · exact reach_after (evaluated _)
  · exact (degree_ledger _).symm.trans ((degree_ledger_eq_total _).trans (by decide +kernel))

/-- The market day also meets this condition, and leaves no balance negative. -/
theorem balances_after_marketDay : ∃ r, (deployment 1000000 250).after Covering
    (marketDay ++ [signed 7 (.batchBurnCurrency [alice, bob] [60, 60])]) = some r ∧
    ∀ a, 0 ≤ (getCurrencyBalance r.2 a : ℤ) := by
  refine ⟨_, evaluated, ?_⟩
  exact balance_nonneg (reach_after (evaluated _))

/-- A batch that burns from one owner twice overdraws the owner: both items are checked against the
balance before the batch. -/
theorem repeated_burn_overdraws : ∃ r, contract.Reach Unrestricted r.1 r.2 ∧
    (deployment 1000000 250).after Unrestricted
      [signed 1 (.mintCurrency alice 100),
        signed 2 (.batchBurnCurrency [alice, alice] [100, 100])] = some r ∧
    (getCurrencyBalance r.2 alice : ℤ) = -100 := by
  refine ⟨_, ?_, evaluated, by decide +kernel⟩
  exact reach_after (evaluated _)

end Runs

end ArenaX.VirtualEconomy
