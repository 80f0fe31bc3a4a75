/-
The order book over whole runs: the count of active orders, and the tokens behind them. A burn cancels the
one order its token's `NftActiveOrder` entry points to; an older order for the token stays active.
-/
import ArenaX.VirtualEconomy.Ownership

namespace ArenaX.VirtualEconomy

open Machine Exec Registry Sample

variable {m : Mode} {env : Env} {s s' : State} {c : Call} {id : BytesN32} {order : MarketplaceOrder}

/-! ## What the calls leave alone -/

/-- The calls that open or close orders. -/
def Call.changesOrders : Call → Bool
  | .createMarketplaceOrder .. | .executeMarketplaceTrade .. | .cancelMarketplaceOrder .. | .burnNft .. => true
  | _ => false

/-- Two states with the same order book, `NftActiveOrder` entries apart. -/
structure SameOrders (s s' : State) : Prop where
  order : s'.orders.order = s.orders.order
  orderCounter : s'.orders.orderCounter = s.orders.orderCounter
  activeOrders : s'.analytics.activeOrders = s.analytics.activeOrders

theorem execute_sameOrders (hc : c.changesOrders = false) (h : (execute env s c).run m = some s') :
    SameOrders s s' := by
  have hkept : c.footprint.contains .orders = false := by cases c <;> first | rfl | cases hc
  obtain ⟨horders, hactive⟩ := (execute_frame h).orders hkept
  exact ⟨by rw [horders], by rw [horders], hactive⟩

/-- Does the call burn an NFT? -/
def Call.burnsNft : Call → Bool
  | .burnNft .. => true
  | _ => false

theorem Call.moves_isBurn (hc : c.burnsNft = false) : ∀ m ∈ c.moves s, m.isBurn = false := by
  have hmint : ∀ m : Move BytesN32 Address, m.isMint = true → m.isBurn = false
    | .mint .., _ => rfl
  cases c with
  | burnNft => cases hc
  | distributeRewards rewards => exact fun m hm => hmint m (rewardMoves_isMint rewards _ m hm)
  | executeMarketplaceTrade buyer orderId =>
    simp only [Call.moves]
    cases s.orders.order.get orderId with
    | none => exact List.forall_mem_nil _
    | some order =>
      show ∀ m ∈ order.moves buyer, m.isBurn = false
      unfold MarketplaceOrder.moves
      split
      · exact List.forall_mem_singleton.2 rfl
      · exact List.forall_mem_nil _
  | purchaseDutchAuction buyer listingId =>
    simp only [Call.moves]
    cases s.pricing.auction.get listingId with
    | none => exact List.forall_mem_nil _
    | some listing => exact List.forall_mem_singleton.2 rfl
  | mintNft | mintFromDrop | transferNft | stakeNft | unstakeNft => exact List.forall_mem_singleton.2 rfl
  | _ => exact List.forall_mem_nil _

/-- A token keeps having an owner until it is burned. -/
theorem execute_owned (hc : c.burnsNft = false) (h : (execute env s c).run m = some s') {t : BytesN32}
    (ht : (s.nft.owner.get t).isSome) : (s'.nft.owner.get t).isSome := by
  show (s'.registry.owner t).isSome
  rw [(execute_refines h).registry]
  exact isSome_owner_run (Call.moves_isBurn hc) ht

/-! ## The invariant -/

/-- The number of stored orders that are active. -/
def OrderStore.activeCount (o : OrderStore) : ℕ := o.order.count (·.status = .active)

/-- The order book agrees with its count, its counter and the tokens it offers. -/
structure BookSound (s : State) : Prop where
  count : (s.analytics.activeOrders : Int) = s.orders.activeCount
  ids : s.orders.order.All fun id _ => ∃ k : U64, id = idOfCounter k ∧ (k : Int) ≤ s.orders.orderCounter
  tokens : s.orders.order.All fun _ order =>
    order.status = .active → ∀ t, order.asset = .nft t → (s.nft.owner.get t).isSome

theorem activeCount_close {o : OrderStore} {status : OrderStatus}
    (ho : o.order.get id = some order) (ha : order.status = .active) (hs : status ≠ .active) :
    (o.order.set id { order with status }).count (·.status = .active) + 1 = o.activeCount := by
  have h := Table.count_set (fun order : MarketplaceOrder => order.status = .active) o.order id { order with status }
  rw [if_pos ⟨order, ho, ha⟩, if_neg hs, zero_add] at h
  rw [add_comm]
  exact h

theorem activeCount_open {o : OrderStore}
    (ho : o.order.get id = none) (ha : order.status = .active) :
    (o.order.set id order).count (·.status = .active) = o.activeCount + 1 := by
  have h := Table.count_set (fun order : MarketplaceOrder => order.status = .active) o.order id order
  rw [if_neg (by simp [ho]), if_pos ha, zero_add] at h
  rw [h, add_comm]
  rfl

/-- A step does not burn a token that an active order offers. -/
def KeepsOffered (s s' : State) : Prop := s'.orders.order.All fun _ order =>
  order.status = .active → ∀ t, order.asset = .nft t → (s.nft.owner.get t).isSome → (s'.nft.owner.get t).isSome

theorem KeepsOffered.of_owned (h : ∀ t, (s.nft.owner.get t).isSome → (s'.nft.owner.get t).isSome) :
    KeepsOffered s s' := fun _ _ _ _ t _ => h t

/-- A book left alone stays sound. -/
theorem BookSound.of_same (hs : BookSound s) (h : SameOrders s s') (hown : KeepsOffered s s') : BookSound s' where
  count := by rw [h.activeOrders, OrderStore.activeCount, h.order]; exact hs.count
  ids := by rw [h.order, h.orderCounter]; exact hs.ids
  tokens := fun id order ho ha t ht => hown id order ho ha t ht (hs.tokens id order (h.order ▸ ho) ha t ht)

/-- Closing an active order, and counting one less, keeps the book sound. -/
theorem BookSound.close (hs : BookSound s) (status : OrderStatus)
    (ho : s.orders.order.get id = some order) (ha : order.status = .active) (hne : status ≠ .active)
    (horder : s'.orders.order = s.orders.order.set id { order with status })
    (hcounter : s'.orders.orderCounter = s.orders.orderCounter)
    (hactive : u32.Fits (s.analytics.activeOrders - 1) →
      (s'.analytics.activeOrders : Int) = s.analytics.activeOrders - 1)
    (hown : KeepsOffered s s') : BookSound s' := by
  -- an active order is stored, so the count is not zero and does not wrap
  have hcount := activeCount_close ho ha hne
  have hn := hs.count
  have hb := U32.bounds s.analytics.activeOrders
  refine ⟨?_, ?_, fun k order' hk ha' t ht => hown k order' hk ha' t ht ?_⟩
  · rw [hactive ⟨by show (0 : Int) ≤ _; omega, by show _ ≤ (4294967295 : Int); omega⟩, hn, ← hcount]
    unfold OrderStore.activeCount
    rw [horder]
    push_cast
    ring
  · rw [horder, hcounter]
    exact hs.ids.set (hs.ids id order ho)
  · -- the closed order asks nothing of its token any more
    have htokens := hs.tokens.set (k := id) (v := { order with status }) fun h => absurd h hne
    exact htokens k order' (horder ▸ hk) ha' t ht

theorem createMarketplaceOrder_bookSound {seller : Address} {asset : MarketplaceAsset} {price : I128}
    {expiry : Option U64} (hs : BookSound s) (hcounter : s.orders.orderCounter < u64.max)
    (hactive : s.analytics.activeOrders < u32.max)
    (h : (createMarketplaceOrder env s seller asset price expiry).run m = some (id, s')) : BookSound s' := by
  obtain ⟨counter, rfl, rfl, -, hasset, rfl⟩ := createMarketplaceOrder_spec h
  have hc := U64.bounds s.orders.orderCounter
  have hnext : (u64.wrap (s.orders.orderCounter + 1) : Int) = s.orders.orderCounter + 1 :=
    wrap_of_fits ⟨by show (0 : Int) ≤ _; omega, by omega⟩
  -- every stored id comes from a smaller counter
  have hfree : s.orders.order.get (idOfCounter (u64.wrap (s.orders.orderCounter + 1))) = none := by
    by_contra hne
    obtain ⟨order, ho⟩ := Option.ne_none_iff_exists'.1 hne
    obtain ⟨k, hk, hle⟩ := hs.ids _ _ ho
    rw [← idOfCounter_inj hk] at hle
    omega
  refine ⟨?_, ?_, ?_⟩
  · have hb := U32.bounds s.analytics.activeOrders
    have hn := hs.count
    show (u32.wrap (s.analytics.activeOrders + 1) : Int) = ((s.orders.order.set _ _).count (·.status = .active) : ℕ)
    rw [activeCount_open hfree rfl, wrap_of_fits ⟨by show (0 : Int) ≤ _; omega, by omega⟩, hn]
    rfl
  · refine Table.All.set (hs.ids.imp fun _ _ ⟨k, hk, hle⟩ => ⟨k, hk, ?_⟩) ⟨_, rfl, le_rfl⟩
    show (k : Int) ≤ u64.wrap (s.orders.orderCounter + 1)
    omega
  · refine Table.All.set hs.tokens fun _ t ht => ?_
    rw [hasset t ht]
    rfl

/-- A burn leaves the orders alone, or cancels the active order its token's entry points to. -/
theorem cancelActiveOrder_cases {o o' : OrderStore} {n n' : U32} {t : BytesN32}
    (h : cancelActiveOrder o n t = (o', n')) : o'.orderCounter = o.orderCounter ∧
    ((o'.order = o.order ∧ n' = n ∧
        ∀ id order, o.activeOrder.get t = some id → o.order.get id = some order → order.status ≠ .active) ∨
      ∃ id order, o.activeOrder.get t = some id ∧ o.order.get id = some order ∧ order.status = .active ∧
        o'.order = o.order.set id { order with status := .cancelled } ∧ n' = u32.saturate (n - 1)) := by
  unfold cancelActiveOrder at h
  cases hp : o.activeOrder.get t with
  | none =>
    rw [hp] at h
    cases h
    exact ⟨rfl, .inl ⟨rfl, rfl, fun _ _ h => by cases h⟩⟩
  | some id =>
    rw [hp] at h
    cases ho : o.order.get id with
    | none =>
      simp only [ho] at h
      cases h
      exact ⟨rfl, .inl ⟨rfl, rfl, fun _ _ h h' => by cases h; rw [ho] at h'; cases h'⟩⟩
    | some order =>
      simp only [ho] at h
      split at h
      · rename_i ha
        cases h
        exact ⟨rfl, .inr ⟨id, order, rfl, ho, ha, rfl, rfl⟩⟩
      · rename_i ha
        cases h
        exact ⟨rfl, .inl ⟨rfl, rfl, fun _ _ h h' => by cases h; rw [ho] at h'; cases h'; exact ha⟩⟩

/-- The active orders for a token are at most the one its entry points to. -/
def PointsToAll (o : OrderStore) (t : BytesN32) : Prop := o.order.All fun id order =>
  order.status = .active → order.asset = .nft t → o.activeOrder.get t = some id

theorem burnNft_bookSound {owner : Address} {t : BytesN32} (hs : BookSound s) (hpoint : PointsToAll s.orders t)
    (h : (burnNft env s owner t).run m = some s') : BookSound s' := by
  obtain ⟨orders, activeOrders, _, _, hcancel, -, -, rfl⟩ := burnNft_spec h
  obtain ⟨hcounter, hcases⟩ := cancelActiveOrder_cases hcancel
  -- what is left to show in either case is that no active order offers the token any more
  have hkeep {s' : State} (hgone : s'.orders.order.All fun _ order => order.status = .active → order.asset ≠ .nft t)
      (howner : s'.nft.owner = s.nft.owner.remove t) : KeepsOffered s s' := by
    intro k order' hk ha' t' ht hown
    have hne : t' ≠ t := by
      rintro rfl
      exact hgone k order' hk ha' ht
    rw [howner, Table.get_remove, if_neg hne]
    exact hown
  rcases hcases with ⟨horder, hn, hidle⟩ | ⟨id, order, hid, ho, ha, horder, hn⟩
  · refine hs.of_same ⟨horder, hcounter, hn⟩ (hkeep (fun k order' hk ha' ht => ?_) rfl)
    have hk : s.orders.order.get k = some order' := horder ▸ hk
    exact hidle k order' (hpoint k order' hk ha' ht) hk ha'
  · refine hs.close .cancelled ho ha (by decide) horder hcounter (fun hfit => ?_)
      (hkeep (fun k order' hk ha' ht => ?_) rfl)
    · show (activeOrders : Int) = _
      rw [hn, saturate_of_fits hfit]
    · have hk : (s.orders.order.set id { order with status := .cancelled }).get k = some order' := horder ▸ hk
      rw [Table.get_set] at hk
      split at hk
      · cases hk
        cases ha'
      · rename_i hne
        have hid' := hpoint k order' hk ha' ht
        rw [hid] at hid'
        exact hne (Option.some.inj hid').symm

/-! ## Runs -/

/-- The counters of the order book have room for a new order, and a burn finds every active order for its
token through the token's entry. -/
def KeepsBook : Rule
  | _, _, s, .createMarketplaceOrder .. =>
    (s.orders.orderCounter : Int) < u64.max ∧ (s.analytics.activeOrders : Int) < u32.max
  | _, _, s, .burnNft _ tokenId => PointsToAll s.orders tokenId
  | _, _, _, _ => True

instance (o : OrderStore) (t : BytesN32) : Decidable (PointsToAll o t) := by
  unfold PointsToAll; infer_instance

instance (e env : Env) (s : State) (c : Call) : Decidable (KeepsBook e env s c) := by
  apply Call.casesOn (motive := fun c => Decidable (KeepsBook e env s c)) c <;> intros <;>
    dsimp only [KeepsBook] <;> infer_instance

theorem execute_bookSound (hs : BookSound s) (hok : KeepsBook e env s c) (h : (execute env s c).run m = some s') :
    BookSound s' := by
  cases c with
  | createMarketplaceOrder =>
    obtain ⟨_, h⟩ := run_snd_map h
    exact createMarketplaceOrder_bookSound hs hok.1 hok.2 h
  | executeMarketplaceTrade =>
    have hkeep := KeepsOffered.of_owned fun _ => execute_owned rfl h
    obtain ⟨s₁, h₁, rfl⟩ := executeMarketplaceTrade_spec h
    obtain ⟨_, _, _, _, _, _, _, _, ho, ha, -, -, hactive, rfl⟩ := executeMarketplaceTradeUnguarded_spec h₁
    refine hs.close .completed ho ha (by decide) rfl rfl (fun hfit => ?_) hkeep
    exact (congrArg _ hactive).trans (wrap_of_fits hfit)
  | cancelMarketplaceOrder =>
    have hkeep := KeepsOffered.of_owned fun _ => execute_owned rfl h
    obtain ⟨_, ho, ha, rfl⟩ := cancelMarketplaceOrder_spec h
    exact hs.close .cancelled ho ha (by decide) rfl rfl wrap_of_fits hkeep
  | burnNft => exact burnNft_bookSound hs hok h
  | _ => exact hs.of_same (execute_sameOrders rfl h) (.of_owned fun _ => execute_owned rfl h)

/-- Where burns find every active order and the counters do not wrap, the count of active orders is right
in every state reached, and every active order for a token offers a token that exists. -/
theorem order_book_consistent (h : contract.Reach KeepsBook env s) :
    (s.analytics.activeOrders : Int) = s.orders.activeCount ∧
    ∀ id order t, s.orders.order.get id = some order → order.status = .active → order.asset = .nft t →
      ∃ owner, s.nft.owner.get t = some owner := by
  have hinv : BookSound s := by
    refine reach_invariant (P := BookSound) ?_ (fun hs hok hstep => execute_bookSound hs hok hstep) h
    intro _ _ _
    exact ⟨rfl, Table.All.empty, Table.All.empty⟩
  exact ⟨hinv.count, fun id order t ho ha ht => Option.isSome_iff_exists.1 (hinv.tokens id order ho ha t ht)⟩

/-- Orders for two tokens: one is cancelled and offered again, and sold; the other is burned. -/
def orderDay : List (Env × Call) :=
  [signed 1 (.mintNft alice sword none),
    signed 2 (.mintNft alice sword none),
    signed 3 (.mintCurrency bob 1000),
    signed 4 (.createMarketplaceOrder alice (.nft (idOfCounter 1)) 400 none),
    signed 5 (.createMarketplaceOrder alice (.nft (idOfCounter 2)) 300 none),
    signed 6 (.cancelMarketplaceOrder (idOfCounter 1)),
    signed 7 (.createMarketplaceOrder alice (.nft (idOfCounter 1)) 350 none),
    signed 8 (.createMarketplaceOrder bob (.currency 10) 20 none),
    signed 9 (.executeMarketplaceTrade bob (idOfCounter 3)),
    signed 10 (.burnNft alice (idOfCounter 2))]

theorem order_book_after_orderDay : ∃ r, (deployment 1000000 250).after KeepsBook orderDay = some r ∧
    r.2.orders.activeCount = 1 ∧ (r.2.analytics.activeOrders : Int) = r.2.orders.activeCount := by
  refine ⟨_, evaluated, by decide +kernel, ?_⟩
  exact (order_book_consistent (reach_after (evaluated _))).1

/-- The first of two orders for a token survives the burn of the token, active. -/
theorem older_order_survives_burn : ∃ r order, contract.Reach Unrestricted r.1 r.2 ∧
    (deployment 1000000 250).after Unrestricted
      [signed 1 (.mintNft alice sword none),
        signed 2 (.createMarketplaceOrder alice (.nft (idOfCounter 1)) 400 none),
        signed 3 (.createMarketplaceOrder alice (.nft (idOfCounter 1)) 300 none),
        signed 4 (.burnNft alice (idOfCounter 1))] = some r ∧
    r.2.orders.order.get (idOfCounter 1) = some order ∧ order.status = .active ∧
    order.asset = .nft (idOfCounter 1) ∧ r.2.nft.owner.get (idOfCounter 1) = none := by
  refine ⟨_, _, ?_, evaluated, evaluated, by decide +kernel⟩
  exact reach_after (evaluated _)

end ArenaX.VirtualEconomy
