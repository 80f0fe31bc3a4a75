/-
NFTs: minting, transfers and burns over the two redundant ownership indexes, collections, royalties.
-/
import ArenaX.VirtualEconomy.State

namespace ArenaX.VirtualEconomy

open Machine Exec

namespace NftStore

/-- The tokens listed for an owner; an absent list is empty. -/
def getOwnedNfts (n : NftStore) (owner : Address) : List BytesN32 := (n.owned.get owner).getD []

/-- The records of a new token. -/
def mint (n : NftStore) (owner : Address) (metadata : NFTMetadata) (tokenId : BytesN32) : NftStore :=
  { n with
    owner := n.owner.set tokenId owner
    metadata := n.metadata.set tokenId metadata
    owned := n.owned.set owner (n.getOwnedNfts owner ++ [tokenId]) }

/-- Hand a token over: the old owner's list is written before the new owner's is read. -/
def transfer (n : NftStore) (sender recipient : Address) (tokenId : BytesN32) : NftStore :=
  let n := { n with
    owner := n.owner.set tokenId recipient
    owned := n.owned.set sender ((n.getOwnedNfts sender).filter (· ≠ tokenId)) }
  { n with owned := n.owned.set recipient (n.getOwnedNfts recipient ++ [tokenId]) }

/-- Drop a token's records. -/
def burn (n : NftStore) (owner : Address) (tokenId : BytesN32) : NftStore :=
  { n with
    owner := n.owner.remove tokenId
    metadata := n.metadata.remove tokenId
    owned := n.owned.set owner ((n.getOwnedNfts owner).filter (· ≠ tokenId)) }

end NftStore

def getNftOwner (s : State) (tokenId : BytesN32) : Result Address := okOr (s.nft.owner.get tokenId) .tokenNotFound

/-- The owner check of the entry points that dispose of a token. -/
def requireNftOwner (s : State) (tokenId : BytesN32) (owner : Address) : Result Unit := do
  let currentOwner ← getNftOwner s tokenId
  reject (currentOwner ≠ owner) .notOwner

/-! ## Mint -/

/-- The id of a new token: the caller's, which must be free, or the next of the counter's. -/
def chooseTokenId (n : NftStore) (tokenId : Option BytesN32) : Result (BytesN32 × NftStore) :=
  match tokenId with
  | some id => do
    reject (n.owner.get id).isSome .tokenAlreadyExists
    pure (id, n)
  | none => do
    -- a generated id is not looked up: a token minted under it earlier is overwritten
    let newCounter ← unchecked u64 (n.tokenCounter + 1)
    pure (idOfCounter newCounter, { n with tokenCounter := newCounter })

/-- Count a mint toward the collection its category names, if there is one. -/
def countMint (collections : Table String NFTCollection) (category : String) : Result (Table String NFTCollection) :=
  match collections.get category with
  | some collection => do
    let itemCount ← unchecked u32 (collection.itemCount + 1)
    pure (collections.set category { collection with itemCount })
  | none => pure collections

section

variable (env : Env) (s : State)

/-- Mint an NFT. -/
def mintNft (owner : Address) (metadata : NFTMetadata) (tokenId : Option BytesN32) :
    Result (BytesN32 × State) := do
  requireAuthorizedMinter env s
  reject ((metadata.royaltyBps : Int) > 1000) .royaltyTooHigh
  let (finalTokenId, nft) ← chooseTokenId s.nft tokenId
  let totalNftsMinted ← unchecked u64 (s.analytics.totalNftsMinted + 1)
  let collection ← countMint s.collection metadata.category
  pure (finalTokenId, { s with
    nft := nft.mint owner metadata finalTokenId
    analytics.totalNftsMinted := totalNftsMinted
    collection := collection })

/-- Register a collection. -/
def createCollection (creator : Address) (name : String) (defaultRoyaltyBps : U32) :
    Result State := do
  env.requireAuth creator
  reject ((defaultRoyaltyBps : Int) > 1000) .royaltyTooHigh
  reject (s.collection.get name).isSome .invalidConfig
  pure { s with collection := s.collection.set name ⟨name, creator, defaultRoyaltyBps, 0, 0, 0, 0, 0, 0⟩ }

/-! ## Transfer and burn -/

/-- Transfer an NFT. Only ownership is checked. -/
def transferNft (sender recipient : Address) (tokenId : BytesN32) : Result State := do
  env.requireAuth sender
  requireNftOwner s tokenId sender
  pure { s with nft := s.nft.transfer sender recipient tokenId }

/-- Cancel the order the token's `NftActiveOrder` entry points to, if it is active, and drop the entry.
Returns the orders and the count of active ones. -/
def cancelActiveOrder (o : OrderStore) (activeOrders : U32) (tokenId : BytesN32) : OrderStore × U32 :=
  match o.activeOrder.get tokenId with
  | none => (o, activeOrders)
  | some orderId =>
    let released := { o with activeOrder := o.activeOrder.remove tokenId }
    match o.order.get orderId with
    | none => (released, activeOrders)
    | some order =>
      if order.status = OrderStatus.active then
        ({ released with order := o.order.set orderId { order with status := .cancelled } },
          u32.saturate (activeOrders - 1))
      else (released, activeOrders)

/-- Take a burned token out of the count of its collection. -/
def uncountMint (collections : Table String NFTCollection) (category : String) : Table String NFTCollection :=
  match collections.get category with
  | some collection =>
    collections.set category { collection with itemCount := u32.saturate (collection.itemCount - 1) }
  | none => collections

/-- Burn an NFT: refused while it is staked; its active order is cancelled. -/
def burnNft (owner : Address) (tokenId : BytesN32) : Result State := do
  env.requireAuth owner
  requireNftOwner s tokenId owner
  reject (s.staking.position.get tokenId).isSome .nftCurrentlyStaked
  let (orders, activeOrders) := cancelActiveOrder s.orders s.analytics.activeOrders tokenId
  let metadata ← okOr (s.nft.metadata.get tokenId) .tokenNotFound
  let totalNftsBurned ← unchecked u64 (s.analytics.totalNftsBurned + 1)
  pure { s with
    orders := orders
    nft := s.nft.burn owner tokenId
    analytics := { s.analytics with activeOrders, totalNftsBurned }
    collection := uncountMint s.collection metadata.category }

/-! ## Royalties -/

def updateRoyaltyBps (tokenId : BytesN32) (caller : Address) (newBps : U32) :
    Result State := do
  env.requireAuth caller
  let metadata ← okOr (s.nft.metadata.get tokenId) .tokenNotFound
  reject (metadata.creator ≠ caller) .unauthorized
  reject ((newBps : Int) > 1000) .royaltyTooHigh
  pure { s with nft.metadata := s.nft.metadata.set tokenId { metadata with royaltyBps := newBps } }

def setRoyaltyExempt (address : Address) (exempt : Bool) : Result State := do
  requireAdmin env s
  if exempt then
    let totalExemptionsApplied ← unchecked u32 (s.royalty.analytics.totalExemptionsApplied + 1)
    pure { s with
      royalty.exempt := s.royalty.exempt.set address true
      royalty.analytics.totalExemptionsApplied := totalExemptionsApplied }
  else pure { s with royalty.exempt := s.royalty.exempt.remove address }

end

/-! ## What the calls do -/

section Spec

variable {m : Mode} {env : Env} {s s' : State} {tokenId : BytesN32}

@[simp] theorem run_requireNftOwner (m : Mode) (s : State) (tokenId : BytesN32) (owner : Address) (u : Unit) :
    (requireNftOwner s tokenId owner).run m = some u ↔ s.nft.owner.get tokenId = some owner := by
  unfold requireNftOwner getNftOwner
  simp only [run_bind, run_iff, Option.bind_eq_some_iff, not_not, exists_eq_right]

/-- The id of the next token the counter yields. -/
def NftStore.nextTokenId (n : NftStore) : BytesN32 := idOfCounter (u64.wrap (n.tokenCounter + 1))

/-- A new token's id is the caller's, and free, or the next one, free or not. -/
theorem chooseTokenId_spec {n n' : NftStore} {tokenId : Option BytesN32} {id : BytesN32}
    (h : (chooseTokenId n tokenId).run m = some (id, n')) :
    (tokenId = some id ∧ n.owner.get id = none ∧ n' = n) ∨
      (tokenId = none ∧ id = n.nextTokenId ∧ n' = { n with tokenCounter := u64.wrap (n.tokenCounter + 1) }) := by
  cases tokenId with
  | some i =>
    simp only [chooseTokenId, run_iff, Prod.mk.injEq, Bool.not_eq_true, Option.isSome_eq_false_iff,
      Option.isNone_iff_eq_none] at h
    obtain ⟨-, hi, rfl, rfl⟩ := h
    exact .inl ⟨rfl, hi, rfl⟩
  | none =>
    simp only [chooseTokenId, run_iff, run_unchecked, Prod.mk.injEq] at h
    obtain ⟨_, ⟨rfl, -⟩, rfl, rfl⟩ := h
    exact .inr ⟨rfl, rfl, rfl⟩

theorem mintNft_spec {owner : Address} {metadata : NFTMetadata} {tokenId : Option BytesN32} {id : BytesN32}
    (h : (mintNft env s owner metadata tokenId).run m = some (id, s')) :
    ∃ n x col, (chooseTokenId s.nft tokenId).run m = some (id, n) ∧
      s' = { s with nft := n.mint owner metadata id, analytics.totalNftsMinted := x, collection := col } := by
  unfold mintNft at h
  simp only [run_iff, Prod.mk.injEq, Prod.exists] at h
  obtain ⟨-, -, -, -, _, _, hn, _, -, _, -, rfl, rfl⟩ := h
  exact ⟨_, _, _, hn, rfl⟩

theorem transferNft_spec {sender recipient : Address}
    (h : (transferNft env s sender recipient tokenId).run m = some s') :
    s.nft.owner.get tokenId = some sender ∧ s' = { s with nft := s.nft.transfer sender recipient tokenId } := by
  unfold transferNft at h
  simp only [run_iff, run_requireNftOwner] at h
  obtain ⟨-, -, -, ho, rfl⟩ := h
  exact ⟨ho, rfl⟩

theorem burnNft_spec {owner : Address} (h : (burnNft env s owner tokenId).run m = some s') :
    ∃ orders activeOrders x col, cancelActiveOrder s.orders s.analytics.activeOrders tokenId = (orders, activeOrders) ∧
      s.nft.owner.get tokenId = some owner ∧ s.staking.position.get tokenId = none ∧
      s' = { s with
        orders := orders
        nft := s.nft.burn owner tokenId
        analytics := { s.analytics with activeOrders, totalNftsBurned := x }
        collection := col } := by
  unfold burnNft at h
  simp only [run_iff, run_requireNftOwner, Bool.not_eq_true, Option.isSome_eq_false_iff, Option.isNone_iff_eq_none] at h
  obtain ⟨-, -, -, ho, -, hp, _, -, _, -, rfl⟩ := h
  exact ⟨_, _, _, _, rfl, ho, hp, rfl⟩

theorem cancelActiveOrder_all {P : BytesN32 → MarketplaceOrder → Prop} {o : OrderStore} {n : U32}
    (h : o.order.All P) (hP : ∀ id order, P id order → P id { order with status := .cancelled }) :
    (cancelActiveOrder o n tokenId).1.order.All P := by
  unfold cancelActiveOrder
  split
  · exact h
  · split
    · exact h
    · rename_i ho
      split
      · exact h.set (hP _ _ (h _ _ ho))
      · exact h

end Spec

end ArenaX.VirtualEconomy
