/-
Dynamic pricing: Dutch auctions, whose price falls with time, and bonding-curve drops, whose price
rises with the units minted. The price of an auction never rises and stays between its bounds.
-/
import ArenaX.VirtualEconomy.Market

namespace ArenaX.VirtualEconomy

open Machine Exec

namespace MarketplaceManager

/-- The price of an auction at a time. -/
def dutchAuctionPrice (now : U64) (listing : DutchAuctionListing) : Result I128 :=
  if (now : Int) ≤ listing.startTime then pure listing.startPrice
  else if (now : Int) ≥ listing.endTime then pure listing.floorPrice
  else do
    let elapsed : Int := now - listing.startTime
    let duration : Int := listing.endTime - listing.startTime
    let premium ← unchecked i128 (listing.startPrice - listing.floorPrice)
    match listing.curve with
    | .linear =>
      let product ← unchecked i128 (premium * elapsed)
      let decayed ← quot i128 product duration
      unchecked i128 (listing.startPrice - decayed)
    | .exponential =>
      let quarters ← unchecked i128 (elapsed * 4)
      let steps ← quot i128 quarters duration
      let steps := max 0 (min (steps : Int) 4)
      unchecked i128 (listing.floorPrice + ((premium : Int) >>> steps.toNat))

/-- The mint price of a drop, from the units minted so far. -/
def bondingCurvePrice (drop : BondingCurveDrop) : Result I128 := do
  let slope ← unchecked i128 (drop.basePrice * drop.slopeBps)
  let product ← unchecked i128 (slope * drop.minted)
  let rise ← quot i128 product 10000
  unchecked i128 (drop.basePrice + rise)

def validateAuctionParams (startPrice floorPrice : I128) (startTime endTime : U64) : Result Unit := do
  reject ((startPrice : Int) ≤ 0 ∨ (floorPrice : Int) ≤ 0 ∨ (floorPrice : Int) > startPrice) .invalidAuctionParams
  reject ((endTime : Int) ≤ startTime) .invalidAuctionParams

def validateCurveParams (basePrice : I128) (maxSupply : Option U32) : Result Unit := do
  reject ((basePrice : Int) ≤ 0) .invalidCurveParams
  reject (maxSupply = some 0) .invalidCurveParams

end MarketplaceManager

open MarketplaceManager

/-! ## Dutch auctions -/

section

variable (env : Env) (s : State)

/-- List an NFT in a Dutch auction. -/
def createDutchAuction (seller : Address) (tokenId : BytesN32) (startPrice floorPrice : I128)
    (startTime endTime : U64) (curve : PriceCurve) : Result (BytesN32 × State) := do
  env.requireAuth seller
  requireNftOwner s tokenId seller
  validateAuctionParams startPrice floorPrice startTime endTime
  let newCounter ← unchecked u64 (s.pricing.auctionCounter + 1)
  let listingId := idOfCounter newCounter
  let listing : DutchAuctionListing :=
    ⟨listingId, seller, tokenId, startPrice, floorPrice, startTime, endTime, curve, .active⟩
  let totalAuctionsCreated ← unchecked u64 (s.pricing.analytics.totalAuctionsCreated + 1)
  pure (listingId, { s with
    pricing.auctionCounter := newCounter
    pricing.auction := s.pricing.auction.set listingId listing
    pricing.analytics.totalAuctionsCreated := totalAuctionsCreated })

def getDutchAuction (s : State) (listingId : BytesN32) : Result DutchAuctionListing :=
  okOr (s.pricing.auction.get listingId) .auctionNotFound

def purchaseDutchAuctionUnguarded (buyer : Address) (listingId : BytesN32) :
    Result State := do
  let listing ← getDutchAuction s listingId
  reject (listing.status ≠ .active) .auctionNotActive
  reject ((env.timestamp : Int) ≥ listing.endTime) .auctionEnded
  let price ← dutchAuctionPrice env.timestamp listing
  let (_, s) ← settleSale s buyer listing.seller price (royaltyOf s buyer listing.seller listing.tokenId price)
  let s ← transferNft env s listing.seller buyer listing.tokenId
  let totalAuctionsSettled ← unchecked u64 (s.pricing.analytics.totalAuctionsSettled + 1)
  let totalAuctionVolume ← unchecked i128 (s.pricing.analytics.totalAuctionVolume + price)
  let s := { s with
    pricing.auction := s.pricing.auction.set listingId { listing with status := .completed }
    pricing.analytics := { s.pricing.analytics with totalAuctionsSettled, totalAuctionVolume } }
  let s ← recordTradeVolume s buyer price
  let s ← recordTradeVolume s listing.seller price
  pure (recordCollectionSale env s listing.tokenId price)

/-- Buy an auctioned NFT at its current price, holding the re-entrancy guard. -/
def purchaseDutchAuction (buyer : Address) (listingId : BytesN32) : Result State := do
  env.requireAuth buyer
  let s ← enterReentrancyGuard s
  let s ← purchaseDutchAuctionUnguarded env s buyer listingId
  pure (exitReentrancyGuard s)

def cancelDutchAuction (listingId : BytesN32) : Result State := do
  let listing ← getDutchAuction s listingId
  env.requireAuth listing.seller
  reject (listing.status ≠ .active) .auctionNotActive
  pure { s with pricing.auction := s.pricing.auction.set listingId { listing with status := .cancelled } }

/-! ## Bonding-curve drops -/

/-- Create a drop. -/
def createBondingCurveDrop (creator : Address) (basePrice : I128) (slopeBps : U32)
    (maxSupply : Option U32) (metadataTemplate : NFTMetadata) : Result (BytesN32 × State) := do
  env.requireAuth creator
  validateCurveParams basePrice maxSupply
  let newCounter ← unchecked u64 (s.pricing.dropCounter + 1)
  let dropId := dropIdOfCounter newCounter
  let drop : BondingCurveDrop := ⟨dropId, creator, basePrice, slopeBps, maxSupply, 0, metadataTemplate, true⟩
  let totalDropsCreated ← unchecked u64 (s.pricing.analytics.totalDropsCreated + 1)
  pure (dropId, { s with
    pricing.dropCounter := newCounter
    pricing.drop := s.pricing.drop.set dropId drop
    pricing.analytics.totalDropsCreated := totalDropsCreated })

end

def getBondingCurveDrop (s : State) (dropId : BytesN32) : Result BondingCurveDrop :=
  okOr (s.pricing.drop.get dropId) .dropNotFound

/-- A drop has minted all it may. -/
def BondingCurveDrop.soldOut (drop : BondingCurveDrop) : Prop := ∃ max ∈ drop.maxSupply, (drop.minted : Int) ≥ max
deriving Decidable

def mintFromDropUnguarded (env : Env) (s : State) (buyer : Address) (dropId : BytesN32) :
    Result (BytesN32 × State) := do
  let drop ← getBondingCurveDrop s dropId
  reject (drop.active = false) .dropInactive
  reject drop.soldOut .dropSupplyExceeded
  let price ← bondingCurvePrice drop
  reject ((getCurrencyBalance s buyer : Int) < price) .insufficientBalance
  let config ← getMarketplaceConfig s
  let fee ← feeOf config price
  let creatorAmount ← unchecked i128 (price - fee)
  let currency ← movePayment s.currency buyer drop.creator config.feeCollector price creatorAmount fee
  let (tokenId, s) ← mintNft env { s with currency } buyer drop.metadataTemplate none
  let minted ← unchecked u32 (drop.minted + 1)
  let totalDropMints ← unchecked u64 (s.pricing.analytics.totalDropMints + 1)
  let totalDropVolume ← unchecked i128 (s.pricing.analytics.totalDropVolume + price)
  pure (tokenId, { s with
    pricing.drop := s.pricing.drop.set dropId { drop with minted }
    pricing.analytics := { s.pricing.analytics with totalDropMints, totalDropVolume } })

/-- Mint the next unit of a drop, holding the re-entrancy guard. -/
def mintFromDrop (env : Env) (s : State) (buyer : Address) (dropId : BytesN32) : Result (BytesN32 × State) := do
  env.requireAuth buyer
  let s ← enterReentrancyGuard s
  let (tokenId, s) ← mintFromDropUnguarded env s buyer dropId
  pure (tokenId, exitReentrancyGuard s)

def setDropActive (env : Env) (s : State) (dropId : BytesN32) (caller : Address) (active : Bool) : Result State := do
  env.requireAuth caller
  let drop ← getBondingCurveDrop s dropId
  reject (drop.creator ≠ caller) .unauthorized
  pure { s with pricing.drop := s.pricing.drop.set dropId { drop with active } }

/-! ## What the calls do -/

section Spec

variable {m : Mode} {env : Env} {s s' : State} {buyer : Address} {listingId : BytesN32}

/-- The parameters an auction is accepted with. -/
structure DutchAuctionListing.Valid (listing : DutchAuctionListing) : Prop where
  floorPos : 0 < (listing.floorPrice : Int)
  floorLe : (listing.floorPrice : Int) ≤ listing.startPrice
  window : (listing.startTime : Int) < listing.endTime

theorem createDutchAuction_spec {seller : Address} {tokenId : BytesN32} {startPrice floorPrice : I128}
    {startTime endTime : U64} {curve : PriceCurve} {id : BytesN32}
    (h : (createDutchAuction env s seller tokenId startPrice floorPrice startTime endTime curve).run m =
      some (id, s')) :
    ∃ listing : DutchAuctionListing, listing.Valid ∧ ∃ counter x, s' = { s with
      pricing.auctionCounter := counter
      pricing.auction := s.pricing.auction.set id listing
      pricing.analytics := x } := by
  unfold createDutchAuction validateAuctionParams at h
  simp only [run_iff, Prod.mk.injEq, not_or, not_le, gt_iff_lt, not_lt] at h
  obtain ⟨-, -, -, -, -, ⟨-, ⟨-, hf, hs⟩, hw⟩, _, -, x, -, rfl, rfl⟩ := h
  exact ⟨_, ⟨hf, hs, hw⟩, _, _, rfl⟩

theorem purchaseDutchAuctionUnguarded_spec
    (h : (purchaseDutchAuctionUnguarded env s buyer listingId).run m = some s') :
    ∃ listing price fee c roy reb col x, s.pricing.auction.get listingId = some listing ∧
      (dutchAuctionPrice env.timestamp listing).run m = some price ∧
      (settleSale s buyer listing.seller price (royaltyOf s buyer listing.seller listing.tokenId price)).run m =
        some (fee, { s with currency := c, royalty := roy }) ∧
      s.nft.owner.get listing.tokenId = some listing.seller ∧
      s' = { s with
        currency := c, royalty := roy, rebate := reb, collection := col
        nft := s.nft.transfer listing.seller buyer listing.tokenId
        pricing.auction := s.pricing.auction.set listingId { listing with status := .completed }
        pricing.analytics := x } := by
  unfold purchaseDutchAuctionUnguarded getDutchAuction at h
  simp only [run_iff, Prod.exists] at h
  obtain ⟨listing, hl, -, -, -, -, price, hp, _, s₁, h₁, s₂, h₂, _, -, _, -, s₃, h₃, s₄, h₄, rfl⟩ := h
  obtain ⟨_, _, rfl⟩ := settleSale_frame _ h₁
  obtain ⟨ho, rfl⟩ := transferNft_spec h₂
  obtain ⟨_, rfl⟩ := recordTradeVolume_frame s₃ h₃
  obtain ⟨_, rfl⟩ := recordTradeVolume_frame s₄ h₄
  obtain ⟨_, hcol⟩ := recordCollectionSale_eq env _ listing.tokenId price
  exact ⟨listing, price, _, _, _, _, _, _, hl, hp, h₁, ho, hcol⟩

theorem purchaseDutchAuction_spec
    (h : (purchaseDutchAuction env s buyer listingId).run m = some s') :
    ∃ s₁, (purchaseDutchAuctionUnguarded env { s with reentrancyGuard := true } buyer listingId).run m = some s₁ ∧
      s' = { s₁ with reentrancyGuard := false } := by
  unfold purchaseDutchAuction enterReentrancyGuard exitReentrancyGuard at h
  simp only [run_iff] at h
  obtain ⟨-, -, _, ⟨-, -, rfl⟩, _, h₁, rfl⟩ := h
  exact ⟨_, h₁, rfl⟩

theorem cancelDutchAuction_spec (h : (cancelDutchAuction env s listingId).run m = some s') :
    ∃ listing, s.pricing.auction.get listingId = some listing ∧ s' = { s with
      pricing.auction := s.pricing.auction.set listingId { listing with status := .cancelled } } := by
  unfold cancelDutchAuction getDutchAuction at h
  simp only [run_iff] at h
  obtain ⟨_, hl, -, -, -, -, rfl⟩ := h
  exact ⟨_, hl, rfl⟩

theorem createBondingCurveDrop_spec {creator : Address} {basePrice : I128} {slopeBps : U32} {maxSupply : Option U32}
    {metadataTemplate : NFTMetadata} {id : BytesN32}
    (h : (createBondingCurveDrop env s creator basePrice slopeBps maxSupply metadataTemplate).run m = some (id, s')) :
    ∃ drop : BondingCurveDrop, 0 < (drop.basePrice : Int) ∧ ∃ counter x, s' = { s with
      pricing.dropCounter := counter
      pricing.drop := s.pricing.drop.set id drop
      pricing.analytics := x } := by
  unfold createBondingCurveDrop validateCurveParams at h
  simp only [run_iff, Prod.mk.injEq, not_le] at h
  obtain ⟨-, -, -, ⟨-, hb, -⟩, _, -, x, -, rfl, rfl⟩ := h
  exact ⟨_, hb, _, _, rfl⟩

/-- What a mint from a drop moves: the buyer pays the price, the creator and the fee collector share it. -/
theorem mintFromDropUnguarded_spec {dropId id : BytesN32}
    (h : (mintFromDropUnguarded env s buyer dropId).run m = some (id, s')) :
    ∃ drop price config fee amount c n x col minted y, s.pricing.drop.get dropId = some drop ∧
      (bondingCurvePrice drop).run m = some price ∧ (price : Int) ≤ getCurrencyBalance s buyer ∧
      (getMarketplaceConfig s).run m = some config ∧ (feeOf config price).run m = some fee ∧
      (unchecked i128 (price - fee) : Result I128).run m = some amount ∧
      (movePayment s.currency buyer drop.creator config.feeCollector price amount fee).run m = some c ∧
      (chooseTokenId s.nft none).run m = some (id, n) ∧
      s' = { s with
        currency := c, analytics.totalNftsMinted := x, collection := col
        nft := n.mint buyer drop.metadataTemplate id
        pricing.drop := s.pricing.drop.set dropId { drop with minted }
        pricing.analytics := y } := by
  unfold mintFromDropUnguarded getBondingCurveDrop at h
  simp only [run_iff, Prod.exists, Prod.mk.injEq, not_lt] at h
  obtain ⟨_, hd, -, -, -, -, _, hp, -, hb, _, hc, _, hf, _, ha, _, hm, _, s₁, h₁, _, -, _, -,
    _, -, rfl, rfl⟩ := h
  obtain ⟨_, _, _, hn, rfl⟩ := mintNft_spec h₁
  exact ⟨_, _, _, _, _, _, _, _, _, _, _, hd, hp, hb, hc, hf, ha, hm, hn, rfl⟩

theorem mintFromDrop_spec {dropId id : BytesN32}
    (h : (mintFromDrop env s buyer dropId).run m = some (id, s')) :
    ∃ s₁, (mintFromDropUnguarded env { s with reentrancyGuard := true } buyer dropId).run m = some (id, s₁) ∧
      s' = { s₁ with reentrancyGuard := false } := by
  unfold mintFromDrop enterReentrancyGuard exitReentrancyGuard at h
  simp only [run_iff, Prod.exists, Prod.mk.injEq] at h
  obtain ⟨-, -, _, ⟨-, -, rfl⟩, _, _, h₁, rfl, rfl⟩ := h
  exact ⟨_, h₁, rfl⟩

theorem setDropActive_spec {dropId : BytesN32} {caller : Address} {active : Bool}
    (h : (setDropActive env s dropId caller active).run m = some s') :
    ∃ drop, s.pricing.drop.get dropId = some drop ∧
      s' = { s with pricing.drop := s.pricing.drop.set dropId { drop with active } } := by
  unfold setDropActive getBondingCurveDrop at h
  simp only [run_iff] at h
  obtain ⟨-, -, _, hd, -, -, rfl⟩ := h
  exact ⟨_, hd, rfl⟩

end Spec

/-! ## The price of an auction falls -/

section Curve

/-- What is left of a premium after a part of the duration. -/
def PriceCurve.rest : PriceCurve → ℤ → ℤ → ℤ → ℤ
  | .linear, premium, duration, elapsed => premium - premium * elapsed / duration
  | .exponential, premium, duration, elapsed => premium / 2 ^ (elapsed * 4 / duration).toNat

variable {p d e x : ℤ} (hp : 0 ≤ p) (hd : 0 < d)
include hp hd

theorem PriceCurve.rest_antitone (he : e ≤ x) : ∀ curve : PriceCurve, curve.rest p d x ≤ curve.rest p d e
  | .linear => sub_le_sub_left (Int.ediv_le_ediv hd (mul_le_mul_of_nonneg_left he hp)) p
  | .exponential => by
    obtain ⟨k, hk⟩ := Nat.exists_eq_add_of_le (Int.toNat_le_toNat (Int.ediv_le_ediv hd (show e * 4 ≤ x * 4 by omega)))
    rw [rest, rest, hk, pow_add, ← Int.ediv_ediv_of_nonneg (by positivity)]
    exact Int.ediv_le_self _ (by positivity)

theorem PriceCurve.rest_bounds (h0 : 0 ≤ e) (he : e ≤ d) (curve : PriceCurve) :
    0 ≤ curve.rest p d e ∧ curve.rest p d e ≤ p ∧ (curve = .exponential → p / 16 ≤ curve.rest p d e) := by
  have hfirst := rest_antitone hp hd h0 curve
  have hlast := rest_antitone hp hd he curve
  cases curve <;> simp [rest, hd.ne'] at hfirst hlast ⊢ <;> omega

end Curve

section Price

variable {listing : DutchAuctionListing} {now : U64}

/-- The price, where the premium over the whole duration is representable. -/
theorem run_dutchAuctionPrice (hv : listing.Valid)
    (hfits : i128.Fits ((listing.startPrice - listing.floorPrice) * (listing.endTime - listing.startTime)))
    (now : U64) :
    ∃ price : I128, (∀ m, (dutchAuctionPrice now listing).run m = some price) ∧ (price : ℤ) = listing.floorPrice +
      if (listing.endTime : ℤ) ≤ now then 0 else listing.curve.rest (listing.startPrice - listing.floorPrice)
        (listing.endTime - listing.startTime) (max (now - listing.startTime) 0) := by
  obtain ⟨hf, hs, hw⟩ := hv
  unfold dutchAuctionPrice
  by_cases hstart : (now : ℤ) ≤ listing.startTime
  · rw [if_pos hstart, if_neg (by omega), max_eq_right (by omega)]
    exact ⟨_, fun m => run_pure m _, by cases listing.curve <;> simp [PriceCurve.rest]⟩
  by_cases hend : (listing.endTime : ℤ) ≤ now
  · rw [if_neg hstart, if_pos hend, if_pos hend]
    exact ⟨_, fun m => run_pure m _, (add_zero _).symm⟩
  rw [if_neg hstart, if_neg hend, if_neg hend, max_eq_left (by omega)]
  have hmax := listing.startPrice.hi
  set p : ℤ := listing.startPrice - listing.floorPrice with hp
  set d : ℤ := listing.endTime - listing.startTime with hd
  set e : ℤ := now - listing.startTime with he
  obtain ⟨hrest, hrest', -⟩ := listing.curve.rest_bounds (p := p) (d := d) (e := e) (by omega) (by omega)
    (by omega) (by omega)
  have hprice := wrap_of_nonneg (t := i128) (x := listing.floorPrice + listing.curve.rest p d e) (by omega) (by omega)
  refine ⟨_, run_of_exact ?_, hprice⟩
  have hpremium := wrap_of_nonneg (t := i128) (x := p) (by omega) (by omega)
  simp only [run_bind_iff, run_unchecked_exact]
  refine ⟨_, hpremium, ?_⟩
  rw [hpremium]
  cases hcurve : listing.curve with
  | linear =>
    rw [hcurve, PriceCurve.rest] at hrest hprice
    have hle : p * e ≤ p * d := mul_le_mul_of_nonneg_left (by omega) (by omega)
    have hnonneg : 0 ≤ p * e := mul_nonneg (by omega) (by omega)
    have hproduct := wrap_of_nonneg (t := i128) hnonneg (hle.trans hfits.2)
    have hdecayed := wrap_of_nonneg (t := i128) (Int.ediv_nonneg hnonneg (show 0 ≤ d by omega)) (by omega)
    simp only [run_bind_iff, run_unchecked_exact, run_quot]
    refine ⟨_, hproduct, _, ⟨by omega, hdecayed.trans ?_⟩, ?_⟩
    · rw [hproduct, Int.tdiv_eq_ediv_of_nonneg hnonneg]
    · rw [PriceCurve.rest, hprice, hdecayed]
      omega
  | exponential =>
    have hbounds := now.bounds
    have hpast := listing.startTime.bounds
    have hquarters := wrap_of_nonneg (t := i128) (x := e * 4) (by omega) (by rw [i128_max]; omega)
    have hsteps : 0 ≤ e * 4 / d ∧ e * 4 / d < 4 :=
      ⟨Int.ediv_nonneg (by omega) (by omega), Int.ediv_lt_of_lt_mul (by omega) (by omega)⟩
    have hquot := wrap_of_nonneg (t := i128) hsteps.1 (by rw [i128_max]; omega)
    simp only [run_bind_iff, run_unchecked_exact, run_quot]
    refine ⟨_, hquarters, _, ⟨by omega, hquot.trans ?_⟩, ?_⟩
    · rw [hquarters, Int.tdiv_eq_ediv_of_nonneg (by omega)]
    · rw [hcurve] at hprice
      rw [hprice, hquot, max_eq_right (by omega), min_eq_left (by omega), Int.shiftRight_eq_div_pow]
      rfl

/-- The price falls from the start price to the floor price, and on the exponential curve it keeps a sixteenth of the
premium up to the end. -/
theorem auction_price_falls {t : U64}
    (hv : (validateAuctionParams listing.startPrice listing.floorPrice listing.startTime listing.endTime).run
      .wrapping = some ())
    (hfits : i128.Fits ((listing.startPrice - listing.floorPrice) * (listing.endTime - listing.startTime)))
    (ht : (now : ℤ) ≤ t) : ∃ price price' : I128, (∀ m, (dutchAuctionPrice now listing).run m = some price) ∧
      (∀ m, (dutchAuctionPrice t listing).run m = some price') ∧ (listing.floorPrice : ℤ) ≤ price' ∧
      (price' : ℤ) ≤ price ∧
      (price : ℤ) ≤ listing.startPrice ∧ (listing.curve = .exponential → (now : ℤ) < listing.endTime →
        (listing.floorPrice : ℤ) + (listing.startPrice - listing.floorPrice) / 16 ≤ price) := by
  simp only [validateAuctionParams, run_iff, not_or, not_le, gt_iff_lt, not_lt] at hv
  obtain ⟨-, ⟨-, hf, hs⟩, hw⟩ := hv
  obtain ⟨price, hrun, hprice⟩ := run_dutchAuctionPrice ⟨hf, hs, hw⟩ hfits now
  obtain ⟨price', hrun', hprice'⟩ := run_dutchAuctionPrice ⟨hf, hs, hw⟩ hfits t
  refine ⟨price, price', hrun, hrun', ?_⟩
  set p : ℤ := listing.startPrice - listing.floorPrice with hp
  set d : ℤ := listing.endTime - listing.startTime with hd
  have hbounds : ∀ x : ℤ, x < listing.endTime → _ := fun x hx =>
    listing.curve.rest_bounds (p := p) (d := d) (e := max (x - listing.startTime) 0) (by omega) (by omega)
      (by omega) (by omega)
  have hfall := listing.curve.rest_antitone (p := p) (d := d) (e := max (now - listing.startTime) 0)
    (x := max (t - listing.startTime) 0) (by omega) (by omega) (by omega)
  have := hbounds now
  have := hbounds t
  split at hprice <;> split at hprice' <;> grind

/-- An auction over a hundred seconds, from 1600 down to 800. -/
def halving : DutchAuctionListing :=
  ⟨0, ⟨1⟩, 0, 1600, 800, 0, 100, .exponential, .active⟩

theorem halving_price_falls : ∃ price price' : I128, (dutchAuctionPrice 30 halving).run .wrapping = some price ∧
    (dutchAuctionPrice 90 halving).run .wrapping = some price' ∧ (price' : ℤ) ≤ price ∧ 850 ≤ (price : ℤ) := by
  obtain ⟨price, price', hprice, hprice', -, hle, -, hkeeps⟩ :=
    @auction_price_falls halving 30 90 rfl (by decide) (by decide)
  exact ⟨price, price', hprice _, hprice' _, hle, hkeeps rfl (by decide)⟩

end Price

end ArenaX.VirtualEconomy
