/-
The marketplace: fixed-price orders, Dutch auctions and bonding-curve drops.
-/
import ArenaX.VirtualEconomy.Currency
import ArenaX.VirtualEconomy.Nft

namespace ArenaX.VirtualEconomy

open Machine Exec

/-! ## Re-entrancy guard -/

def enterReentrancyGuard (s : State) : Result State := do
  reject s.reentrancyGuard .reentrancy
  pure { s with reentrancyGuard := true }

def exitReentrancyGuard (s : State) : State := { s with reentrancyGuard := false }

/-! ## Payment -/

/-- The marketplace fee on a price. -/
def feeOf (config : MarketplaceConfig) (price : I128) : Result I128 := do
  let gross ← unchecked i128 (price * config.feePercentage)
  quot i128 gross 10000

/-- The royalty on a sale of a token, and the token's creator: nothing on a primary sale, for an exempt
buyer, or for a token without metadata. -/
def royaltyOf (s : State) (buyer seller : Address) (tokenId : BytesN32) (price : I128) :
    Result (I128 × Option Address) :=
  match s.nft.metadata.get tokenId with
  | none => pure (0, none)
  | some metadata =>
    let isPrimarySale := metadata.creator = seller
    let isExempt := (s.royalty.exempt.get buyer).getD false = true
    if ¬ isPrimarySale ∧ ¬ isExempt ∧ (metadata.royaltyBps : Int) > 0 then do
      let gross ← unchecked i128 (price * metadata.royaltyBps)
      let royalty ← quot i128 gross 10000
      pure (royalty, some metadata.creator)
    else pure (0, some metadata.creator)

/-- Pay a royalty to the creator and count it. -/
def payRoyalty (s : State) (royalty : I128) (creator : Option Address) : Result State :=
  match creator with
  | some creator =>
    if (royalty : Int) > 0 then do
      let currency ← s.currency.add creator royalty
      let totalRoyaltiesPaid ← unchecked i128 (s.royalty.analytics.totalRoyaltiesPaid + royalty)
      let totalRoyaltyTransactions ← unchecked u64 (s.royalty.analytics.totalRoyaltyTransactions + 1)
      pure { s with
        currency := currency
        royalty.analytics.totalRoyaltiesPaid := totalRoyaltiesPaid
        royalty.analytics.totalRoyaltyTransactions := totalRoyaltyTransactions }
    else pure s
  | none => pure s

/-- Move a sale's payment: the buyer pays the price, the fee collector receives the fee and the seller
`sellerAmount`, each balance read after the writes before it. -/
def movePayment (c : CurrencyStore) (buyer seller feeCollector : Address) (price sellerAmount fee : I128) :
    Result CurrencyStore := do
  let c ← c.add buyer (-price)
  let c ← c.add seller sellerAmount
  c.add feeCollector fee

/-- Settle a sale of either kind: check the buyer's funds, split the price into fee, royalty and the
seller's part, and pay them out. Returns the fee. -/
def settleSale (s : State) (buyer seller : Address) (price : I128) (royaltyDue : Result (I128 × Option Address)) :
    Result (I128 × State) := do
  reject ((getCurrencyBalance s buyer : Int) < price) .insufficientBalance
  let config ← getMarketplaceConfig s
  let fee ← feeOf config price
  let (royalty, creator) ← royaltyDue
  let afterFee ← unchecked i128 (price - fee)
  let sellerAmount ← unchecked i128 (afterFee - royalty)
  let currency ← movePayment s.currency buyer seller config.feeCollector price sellerAmount fee
  let s ← payRoyalty { s with currency } royalty creator
  pure (fee, s)

/-- Accrue rebate volume for a trader, tracking the trader on the first accrual. -/
def recordTradeVolume (s : State) (trader : Address) (amount : I128) : Result State := do
  if (amount : Int) ≤ 0 then pure s
  else
    let existing := (s.rebate.traderVolume.get trader).getD 0
    let tracked := s.rebate.trackedTraders
    let tracked := if (existing : Int) = 0 ∧ trader ∉ tracked then tracked ++ [trader] else tracked
    let volume ← unchecked i128 (existing + amount)
    pure { s with
      rebate.trackedTraders := tracked
      rebate.traderVolume := s.rebate.traderVolume.set trader volume }

/-- Update the collection of a sold token. -/
def recordCollectionSale (env : Env) (s : State) (tokenId : BytesN32) (price : I128) : State :=
  match s.nft.metadata.get tokenId with
  | some metadata => { s with collection := env.updateCollectionOnSale s.collection metadata.category price }
  | none => s

/-! ## Fixed-price orders -/

/-- The seller owns what is offered. -/
def requireAsset (s : State) (seller : Address) (asset : MarketplaceAsset) : Result Unit :=
  match asset with
  | .nft tokenId => requireNftOwner s tokenId seller
  | .currency amount => reject ((getCurrencyBalance s seller : Int) < amount) .insufficientBalance

/-- Store a new order; one for a token takes over the token's `NftActiveOrder` entry. -/
def openOrder (o : OrderStore) (counter : U64) (order : MarketplaceOrder) : OrderStore where
  orderCounter := counter
  order := o.order.set order.orderId order
  activeOrder := match order.asset with
    | .nft tokenId => o.activeOrder.set tokenId order.orderId
    | .currency _ => o.activeOrder

/-- Create an order. -/
def createMarketplaceOrder (env : Env) (s : State) (seller : Address) (asset : MarketplaceAsset) (price : I128)
    (expiry : Option U64) : Result (BytesN32 × State) := do
  env.requireAuth seller
  reject ((price : Int) ≤ 0) .invalidPrice
  requireAsset s seller asset
  let newCounter ← unchecked u64 (s.orders.orderCounter + 1)
  let orderId := idOfCounter newCounter
  let activeOrders ← unchecked u32 (s.analytics.activeOrders + 1)
  pure (orderId, { s with
    orders := openOrder s.orders newCounter ⟨orderId, seller, asset, price, env.timestamp, expiry, .active⟩
    analytics.activeOrders := activeOrders })

/-- An order has expired. -/
def MarketplaceOrder.expired (order : MarketplaceOrder) (now : U64) : Prop :=
  ∃ expiry ∈ order.expiry, (now : Int) > expiry
deriving Decidable

/-- Close an order with a status: its token's `NftActiveOrder` entry goes, whichever order it points to. -/
def closeOrder (o : OrderStore) (orderId : BytesN32) (order : MarketplaceOrder) (status : OrderStatus) : OrderStore :=
  { o with
    order := o.order.set orderId { order with status }
    activeOrder := match order.asset with
      | .nft tokenId => o.activeOrder.remove tokenId
      | .currency _ => o.activeOrder }

/-- The royalty on an order. -/
def orderRoyalty (s : State) (buyer : Address) (order : MarketplaceOrder) : Result (I128 × Option Address) :=
  match order.asset with
  | .nft tokenId => royaltyOf s buyer order.seller tokenId order.price
  | .currency _ => pure (0, none)

section

variable (env : Env) (s : State)

/-- Hand over what an order sells; a currency order hands over nothing beyond its payment. -/
def deliverOrder (buyer : Address) (order : MarketplaceOrder) : Result State :=
  match order.asset with
  | .nft tokenId => transferNft env s order.seller buyer tokenId
  | .currency _ => pure s

def executeMarketplaceTradeUnguarded (buyer : Address) (orderId : BytesN32) :
    Result State := do
  let order ← okOr (s.orders.order.get orderId) .orderNotFound
  reject (order.status ≠ .active) .orderNotActive
  reject (order.expired env.timestamp) .orderExpired
  let (fee, s) ← settleSale s buyer order.seller order.price (orderRoyalty s buyer order)
  let s ← deliverOrder env s buyer order
  let activeOrders ← unchecked u32 (s.analytics.activeOrders - 1)
  let totalTradesExecuted ← unchecked u64 (s.analytics.totalTradesExecuted + 1)
  let totalTradeVolume ← unchecked i128 (s.analytics.totalTradeVolume + order.price)
  let totalFeesCollected ← unchecked i128 (s.analytics.totalFeesCollected + fee)
  let s := { s with
    orders := closeOrder s.orders orderId order .completed
    analytics := { s.analytics with activeOrders, totalTradesExecuted, totalTradeVolume, totalFeesCollected } }
  let s ← recordTradeVolume s buyer order.price
  let s ← recordTradeVolume s order.seller order.price
  pure (match order.asset with
    | .nft tokenId => recordCollectionSale env s tokenId order.price
    | .currency _ => s)

/-- Execute a trade, holding the re-entrancy guard. -/
def executeMarketplaceTrade (buyer : Address) (orderId : BytesN32) : Result State := do
  env.requireAuth buyer
  let s ← enterReentrancyGuard s
  let s ← executeMarketplaceTradeUnguarded env s buyer orderId
  pure (exitReentrancyGuard s)

def cancelMarketplaceOrder (orderId : BytesN32) : Result State := do
  let order ← okOr (s.orders.order.get orderId) .orderNotFound
  env.requireAuth order.seller
  reject (order.status ≠ .active) .orderNotActive
  let activeOrders ← unchecked u32 (s.analytics.activeOrders - 1)
  pure { s with
    orders := closeOrder s.orders orderId order .cancelled
    analytics.activeOrders := activeOrders }

end

/-! ## What the calls do -/

section Spec

variable {m : Mode} {env : Env} {s s' : State} {orderId : BytesN32} {buyer : Address}

theorem payRoyalty_frame {royalty : I128} {creator : Option Address} :
    Ensures m (payRoyalty s royalty creator) fun s' => ∃ c r, s' = { s with currency := c, royalty := r } := by
  cases creator with
  | none => exact .pure ⟨_, _, rfl⟩
  | some creator =>
    refine .ite (fun _ => ?_) fun _ => .pure ⟨_, _, rfl⟩
    refine .bind fun _ _ => .bind fun _ _ => .bind fun _ _ => .pure ⟨_, _, rfl⟩

theorem settleSale_frame {buyer seller : Address} {price : I128} {royaltyDue : Result (I128 × Option Address)} :
    Ensures m (settleSale s buyer seller price royaltyDue) fun r =>
      ∃ c roy, r.2 = { s with currency := c, royalty := roy } := by
  refine .bind fun _ _ => .bind fun _ _ => .bind fun _ _ => .bind fun _ _ => .bind fun _ _ => .bind fun _ _ =>
    .bind fun _ _ => .bind fun s₁ h₁ => .pure ?_
  obtain ⟨_, _, rfl⟩ := payRoyalty_frame s₁ h₁
  exact ⟨_, _, rfl⟩

theorem recordTradeVolume_frame {trader : Address} {amount : I128} :
    Ensures m (recordTradeVolume s trader amount) fun s' => ∃ r, s' = { s with rebate := r } := by
  exact .ite (fun _ => .pure ⟨_, rfl⟩) fun _ => .bind fun _ _ => .pure ⟨_, rfl⟩

theorem recordCollectionSale_eq (env : Env) (s : State) (tokenId : BytesN32) (price : I128) :
    ∃ col, recordCollectionSale env s tokenId price = { s with collection := col } := by
  unfold recordCollectionSale
  split <;> exact ⟨_, rfl⟩

theorem createMarketplaceOrder_spec {seller : Address} {asset : MarketplaceAsset} {price : I128} {expiry : Option U64}
    {id : BytesN32} (h : (createMarketplaceOrder env s seller asset price expiry).run m = some (id, s')) :
    ∃ counter, id = idOfCounter counter ∧ counter = u64.wrap (s.orders.orderCounter + 1) ∧ 0 < (price : Int) ∧
      (∀ t, asset = .nft t → s.nft.owner.get t = some seller) ∧
      s' = { s with
        orders := openOrder s.orders counter ⟨id, seller, asset, price, env.timestamp, expiry, .active⟩
        analytics.activeOrders := u32.wrap (s.analytics.activeOrders + 1) } := by
  unfold createMarketplaceOrder at h
  simp only [run_iff, run_unchecked, Prod.mk.injEq, not_le] at h
  obtain ⟨-, -, -, hp, _, ha, _, ⟨rfl, -⟩, _, ⟨rfl, -⟩, rfl, rfl⟩ := h
  refine ⟨_, rfl, rfl, hp, ?_, rfl⟩
  rintro t rfl
  exact (run_requireNftOwner m s t seller _).1 ha

/-- What an order hands over. -/
inductive Delivered (n : NftStore) (buyer : Address) (order : MarketplaceOrder) : NftStore → Prop where
  | nft {tokenId} (asset : order.asset = .nft tokenId) (owned : n.owner.get tokenId = some order.seller) :
      Delivered n buyer order (n.transfer order.seller buyer tokenId)
  | currency {amount} (asset : order.asset = .currency amount) : Delivered n buyer order n

theorem deliverOrder_spec {order : MarketplaceOrder}
    (h : (deliverOrder env s buyer order).run m = some s') :
    ∃ n, Delivered s.nft buyer order n ∧ s' = { s with nft := n } := by
  unfold deliverOrder at h
  split at h
  · rename_i tokenId ha
    obtain ⟨ho, rfl⟩ := transferNft_spec h
    exact ⟨_, .nft ha ho, rfl⟩
  · rename_i amount ha
    rw [run_pure] at h
    cases h
    exact ⟨_, .currency ha, rfl⟩

theorem executeMarketplaceTradeUnguarded_spec
    (h : (executeMarketplaceTradeUnguarded env s buyer orderId).run m = some s') :
    ∃ order fee c roy n reb col an, s.orders.order.get orderId = some order ∧ order.status = .active ∧
      (settleSale s buyer order.seller order.price (orderRoyalty s buyer order)).run m =
        some (fee, { s with currency := c, royalty := roy }) ∧
      Delivered s.nft buyer order n ∧ an.activeOrders = u32.wrap (s.analytics.activeOrders - 1) ∧
      s' = { s with
        currency := c, royalty := roy, nft := n, rebate := reb, collection := col, analytics := an
        orders := closeOrder s.orders orderId order .completed } := by
  unfold executeMarketplaceTradeUnguarded at h
  simp only [run_iff, run_unchecked, Prod.exists, not_not] at h
  obtain ⟨order, ho, -, hs, -, -, _, s₁, h₁, s₂, h₂, _, ⟨rfl, -⟩, _, -, _, -, _, -, s₃, h₃, s₄, h₄, rfl⟩ := h
  obtain ⟨_, _, rfl⟩ := settleSale_frame _ h₁
  obtain ⟨_, hn, rfl⟩ := deliverOrder_spec h₂
  obtain ⟨_, rfl⟩ := recordTradeVolume_frame s₃ h₃
  obtain ⟨_, rfl⟩ := recordTradeVolume_frame s₄ h₄
  -- the collection is updated last, for an NFT only
  have hcol : ∀ t : State, ∃ col, (match order.asset with
      | .nft tokenId => recordCollectionSale env t tokenId order.price
      | .currency _ => t) = { t with collection := col } := by
    intro t
    split
    · exact recordCollectionSale_eq env t _ _
    · exact ⟨_, rfl⟩
  obtain ⟨_, hcol⟩ := hcol _
  exact ⟨order, _, _, _, _, _, _, _, ho, hs, h₁, hn, rfl, hcol⟩

/-- A trade is the unguarded trade with the guard set, and released after it. -/
theorem executeMarketplaceTrade_spec
    (h : (executeMarketplaceTrade env s buyer orderId).run m = some s') :
    ∃ s₁, (executeMarketplaceTradeUnguarded env { s with reentrancyGuard := true } buyer orderId).run m = some s₁ ∧
      s' = { s₁ with reentrancyGuard := false } := by
  unfold executeMarketplaceTrade enterReentrancyGuard exitReentrancyGuard at h
  simp only [run_iff] at h
  obtain ⟨-, -, _, ⟨-, -, rfl⟩, _, h₁, rfl⟩ := h
  exact ⟨_, h₁, rfl⟩

theorem cancelMarketplaceOrder_spec (h : (cancelMarketplaceOrder env s orderId).run m = some s') :
    ∃ order, s.orders.order.get orderId = some order ∧ order.status = .active ∧
      s' = { s with
        orders := closeOrder s.orders orderId order .cancelled
        analytics.activeOrders := u32.wrap (s.analytics.activeOrders - 1) } := by
  unfold cancelMarketplaceOrder at h
  simp only [run_iff, run_unchecked, not_not] at h
  obtain ⟨_, ho, -, -, -, hs, _, ⟨rfl, -⟩, rfl⟩ := h
  exact ⟨_, ho, hs, rfl⟩

end Spec

end ArenaX.VirtualEconomy
