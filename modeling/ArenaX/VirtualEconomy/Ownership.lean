/-
Token ownership over whole runs. Every call of the contract is a sequence of moves of a token registry;
the agreement of the two ownership indexes and the lock on staked tokens are invariants of the registry.
-/
import ArenaX.Lib.Registry
import ArenaX.VirtualEconomy.Frame

namespace ArenaX.VirtualEconomy

open Machine Exec Registry Sample

/-! ## The registry behind a state -/

/-- The owners, the lists of owned tokens, and the stakers. -/
def registryOf (n : NftStore) (positions : Table BytesN32 NftStakedPosition) : Registry BytesN32 Address where
  owner := n.owner.get
  listed := n.getOwnedNfts
  lock tokenId := (positions.get tokenId).map NftStakedPosition.owner

def State.registry (s : State) : Registry BytesN32 Address := registryOf s.nft s.staking.position

section Moves

variable (n : NftStore) (p : Table BytesN32 NftStakedPosition) (a b : Address) (t : BytesN32)

theorem NftStore.getOwnedNfts_set (l : List BytesN32) :
    getOwnedNfts { n with owned := n.owned.set a l } = Function.update n.getOwnedNfts a l := by
  show (fun o : Option (List BytesN32) => o.getD []) ∘ (n.owned.set a l).get = _
  rw [Table.get_set_eq_update, Function.comp_update]
  rfl

theorem registryOf_mint (metadata : NFTMetadata) :
    registryOf (n.mint a metadata t) p = (registryOf n p).apply (.mint a t) := by
  ext1
  · exact Table.get_set_eq_update _ _ _
  · exact n.getOwnedNfts_set a _
  · rfl

theorem registryOf_transfer : registryOf (n.transfer a b t) p = (registryOf n p).apply (.transfer a b t) := by
  ext1
  · exact Table.get_set_eq_update _ _ _
  · -- the recipient's list is read after the sender's is written
    let n₁ : NftStore :=
      { n with owner := n.owner.set t b, owned := n.owned.set a ((n.getOwnedNfts a).filter (· ≠ t)) }
    have h₁ : n₁.getOwnedNfts = (registryOf n p).unlist a t := n.getOwnedNfts_set a _
    have h₂ := n₁.getOwnedNfts_set b (n₁.getOwnedNfts b ++ [t])
    exact h₂.trans (by rw [h₁]; rfl)
  · rfl

theorem registryOf_burn : registryOf (n.burn a t) p = (registryOf n p).apply (.burn a t) := by
  ext1
  · exact Table.get_remove_eq_update _ _
  · exact n.getOwnedNfts_set a _
  · rfl

theorem registryOf_stake (position : NftStakedPosition) :
    registryOf n (p.set t position) = (registryOf n p).apply (.lock position.owner t) := by
  ext1
  · rfl
  · rfl
  · show Option.map _ ∘ (p.set t position).get = _
    rw [Table.get_set_eq_update, Function.comp_update]
    rfl

theorem registryOf_unstake : registryOf n (p.remove t) = (registryOf n p).apply (.unlock t) := by
  ext1
  · rfl
  · rfl
  · show Option.map _ ∘ (p.remove t).get = _
    rw [Table.get_remove_eq_update, Function.comp_update]
    rfl

/-- Writing a position back for the same staker changes nothing. -/
theorem registryOf_restake {position position' : NftStakedPosition} (h : p.get t = some position)
    (howner : position'.owner = position.owner) : registryOf n (p.set t position') = registryOf n p := by
  ext1
  · rfl
  · rfl
  · funext t'
    show ((p.set t position').get t').map _ = (p.get t').map _
    rw [Table.get_set]
    split
    · rename_i ht
      rw [ht, h, Option.map_some, Option.map_some, howner]
    · rfl

end Moves

/-! ## Calls as moves -/

/-- The mints of a list of rewards, with ids generated from a counter. -/
def rewardMoves (counter : U64) : List RewardDistribution → List (Move BytesN32 Address)
  | [] => []
  | reward :: rewards =>
    match reward.rewardType with
    | .currency _ => rewardMoves counter rewards
    | .nft _ =>
      let counter := u64.wrap (counter + 1)
      .mint reward.recipient (idOfCounter counter) :: rewardMoves counter rewards

/-- The transfer that delivers an order. -/
def MarketplaceOrder.moves (order : MarketplaceOrder) (buyer : Address) : List (Move BytesN32 Address) :=
  match order.asset with
  | .nft tokenId => [.transfer order.seller buyer tokenId]
  | .currency _ => []

/-- The transfer that delivers an auctioned token. -/
def DutchAuctionListing.moves (listing : DutchAuctionListing) (buyer : Address) : List (Move BytesN32 Address) :=
  [.transfer listing.seller buyer listing.tokenId]

/-- What a call does to tokens when it succeeds. -/
def Call.moves (s : State) : Call → List (Move BytesN32 Address)
  | .mintNft owner _ tokenId => [.mint owner (tokenId.getD s.nft.nextTokenId)]
  | .mintFromDrop buyer _ => [.mint buyer s.nft.nextTokenId]
  | .distributeRewards rewards => rewardMoves s.nft.tokenCounter rewards
  | .transferNft sender recipient tokenId => [.transfer sender recipient tokenId]
  | .executeMarketplaceTrade buyer orderId =>
    ((s.orders.order.get orderId).map fun order => order.moves buyer).getD []
  | .purchaseDutchAuction buyer listingId =>
    ((s.pricing.auction.get listingId).map fun listing => listing.moves buyer).getD []
  | .burnNft owner tokenId => [.burn owner tokenId]
  | .stakeNft owner tokenId => [.lock owner tokenId]
  | .unstakeNft _ tokenId => [.unlock tokenId]
  | _ => []

/-- A step of the contract carried out by moves, each of them checked. -/
structure Refines (s s' : State) (moves : List (Move BytesN32 Address)) : Prop where
  registry : s'.registry = s.registry.run moves
  checked : Meets Checked s.registry moves

section Refines

variable {m : Mode} {env : Env} {s s' : State} {c : Call} {buyer : Address}

theorem Frame.refines {written : List Store} (h : Frame written s s') (htokens : written.contains .tokens = false)
    (hpositions : written.contains .positions = false) : Refines s s' [] where
  registry := by
    unfold State.registry registryOf NftStore.getOwnedNfts
    rw [(h.tokens htokens).2.1, (h.tokens htokens).2.2, h.positions hpositions]
    rfl
  checked := trivial

theorem chooseTokenId_registry {n n' : NftStore} {tokenId : Option BytesN32} {id : BytesN32}
    (h : (chooseTokenId n tokenId).run m = some (id, n')) (p : Table BytesN32 NftStakedPosition) :
    id = tokenId.getD n.nextTokenId ∧ registryOf n' p = registryOf n p := by
  obtain ⟨rfl, -, rfl⟩ | ⟨rfl, rfl, rfl⟩ := chooseTokenId_spec h <;> exact ⟨rfl, rfl⟩

theorem mintNft_refines {owner : Address} {metadata : NFTMetadata} {tokenId : Option BytesN32} {id : BytesN32}
    (h : (mintNft env s owner metadata tokenId).run m = some (id, s')) :
    Refines s s' [.mint owner (tokenId.getD s.nft.nextTokenId)] := by
  obtain ⟨n, _, _, hn, rfl⟩ := mintNft_spec h
  obtain ⟨rfl, hreg⟩ := chooseTokenId_registry hn s.staking.position
  refine ⟨(registryOf_mint n s.staking.position owner _ metadata).trans ?_, trivial, trivial⟩
  rw [hreg]
  rfl

theorem Refines.trans {s₁ s₂ : State} {ms ms' : List (Move BytesN32 Address)} (h : Refines s s₁ ms)
    (h' : Refines s₁ s₂ ms') : Refines s s₂ (ms ++ ms') where
  registry := by rw [run_append, ← h.registry, h'.registry]
  checked := h.checked.append (h.registry ▸ h'.checked)

theorem foldlM_grantReward_refines : ∀ {rewards : List RewardDistribution} {s : State},
    (rewards.foldlM (grantReward env) s).run m = some s' → Refines s s' (rewardMoves s.nft.tokenCounter rewards)
  | [], s, h => by
    rw [List.foldlM_nil, run_pure] at h
    cases h
    exact ⟨rfl, trivial⟩
  | reward :: rewards, s, h => by
    rw [List.foldlM_cons, run_bind] at h
    obtain ⟨s₁, h₁, h⟩ := Option.bind_eq_some_iff.1 h
    -- the rest generates its ids from the counter this reward leaves
    have ih := foldlM_grantReward_refines h
    unfold grantReward at h₁
    split at h₁
    · rename_i hreward
      simp only [rewardMoves, hreward]
      have hsame := execute_frame (c := .mintCurrency reward.recipient _) h₁
      rw [(hsame.tokens rfl).1] at ih
      exact (hsame.refines rfl rfl).trans ih
    · rename_i hreward
      simp only [rewardMoves, hreward]
      obtain ⟨id, h₁⟩ := run_snd_map h₁
      have hcounter : s₁.nft.tokenCounter = u64.wrap (s.nft.tokenCounter + 1) := by
        obtain ⟨n, _, _, hn, rfl⟩ := mintNft_spec h₁
        obtain ⟨hnone, -⟩ | ⟨-, -, rfl⟩ := chooseTokenId_spec hn
        · cases hnone
        · rfl
      rw [hcounter] at ih
      exact (mintNft_refines h₁).trans ih

theorem executeMarketplaceTradeUnguarded_refines {orderId : BytesN32}
    (h : (executeMarketplaceTradeUnguarded env s buyer orderId).run m = some s') :
    Refines s s' (((s.orders.order.get orderId).map fun order => order.moves buyer).getD []) := by
  obtain ⟨order, _, _, _, n, _, _, _, ho, -, -, hn, -, rfl⟩ := executeMarketplaceTradeUnguarded_spec h
  rw [ho, Option.map_some]
  cases hn with
  | nft hasset howner =>
    simp only [MarketplaceOrder.moves, hasset]
    exact ⟨registryOf_transfer _ _ _ _ _, howner, trivial⟩
  | currency hasset =>
    simp only [MarketplaceOrder.moves, hasset]
    exact ⟨rfl, trivial⟩

theorem purchaseDutchAuctionUnguarded_refines {listingId : BytesN32}
    (h : (purchaseDutchAuctionUnguarded env s buyer listingId).run m = some s') :
    Refines s s' (((s.pricing.auction.get listingId).map fun listing => listing.moves buyer).getD []) := by
  obtain ⟨listing, _, _, _, _, _, _, _, hl, -, -, howner, rfl⟩ := purchaseDutchAuctionUnguarded_spec h
  rw [hl]
  exact ⟨registryOf_transfer _ _ _ _ _, howner, trivial⟩

theorem mintFromDropUnguarded_refines {dropId id : BytesN32}
    (h : (mintFromDropUnguarded env s buyer dropId).run m = some (id, s')) :
    Refines s s' [.mint buyer s.nft.nextTokenId] := by
  obtain ⟨drop, _, _, _, _, _, n, _, _, _, _, -, -, -, -, -, -, -, hn, rfl⟩ := mintFromDropUnguarded_spec h
  obtain ⟨rfl, hreg⟩ := chooseTokenId_registry hn s.staking.position
  refine ⟨(registryOf_mint n s.staking.position buyer _ drop.metadataTemplate).trans ?_, trivial, trivial⟩
  rw [hreg]
  rfl

/-- Every call that succeeds carries out its moves, and has checked them. -/
theorem execute_refines (h : (execute env s c).run m = some s') : Refines s s' (c.moves s) := by
  cases c with
  | mintNft => obtain ⟨_, h⟩ := run_snd_map h; exact mintNft_refines h
  | mintFromDrop =>
    obtain ⟨_, h⟩ := run_snd_map h
    obtain ⟨s₁, h₁, rfl⟩ := mintFromDrop_spec h
    -- the guard is no part of the registry
    have hr := mintFromDropUnguarded_refines h₁
    exact ⟨hr.registry, hr.checked⟩
  | distributeRewards =>
    simp only [execute, distributeRewards, run_iff] at h
    obtain ⟨-, -, h⟩ := h
    exact foldlM_grantReward_refines h
  | transferNft =>
    obtain ⟨howner, rfl⟩ := transferNft_spec h
    exact ⟨registryOf_transfer _ _ _ _ _, howner, trivial⟩
  | executeMarketplaceTrade =>
    obtain ⟨_, h₁, rfl⟩ := executeMarketplaceTrade_spec h
    have hr := executeMarketplaceTradeUnguarded_refines h₁
    exact ⟨hr.registry, hr.checked⟩
  | purchaseDutchAuction =>
    obtain ⟨_, h₁, rfl⟩ := purchaseDutchAuction_spec h
    have hr := purchaseDutchAuctionUnguarded_refines h₁
    exact ⟨hr.registry, hr.checked⟩
  | burnNft owner tokenId =>
    obtain ⟨_, _, _, _, -, howner, hstaked, rfl⟩ := burnNft_spec h
    refine ⟨registryOf_burn _ _ _ _, ⟨howner, ?_⟩, trivial⟩
    show (s.staking.position.get tokenId).map _ = none
    rw [hstaked, Option.map_none]
  | stakeNft =>
    obtain ⟨howner, position, _, _, rfl, rfl⟩ := stakeNft_spec h
    exact ⟨registryOf_stake _ _ _ position, howner, trivial⟩
  | unstakeNft =>
    obtain ⟨_, h⟩ := run_snd_map h
    obtain ⟨_, _, _, _, _, -, -, -, -, rfl⟩ := unstakeNft_spec h
    exact ⟨registryOf_unstake _ _ _, trivial, trivial⟩
  | claimNftStakingRewards =>
    obtain ⟨_, h⟩ := run_snd_map h
    obtain ⟨_, _, _, _, _, _, -, hp, -, -, rfl | ⟨_, howner, rfl⟩, rfl⟩ := claimNftStakingRewards_spec h
    · exact ⟨rfl, trivial⟩
    · exact ⟨registryOf_restake _ _ _ hp howner, trivial⟩
  | _ => exact (execute_frame h).refines rfl rfl

end Refines

/-! ## The two indexes agree -/

section Indexes

variable {s : State}

/-- A call mints NFTs. -/
def Call.mintsNfts : Call → Bool
  | .mintNft .. | .mintFromDrop .. | .distributeRewards .. => true
  | _ => false

/-- Every token id the call mints under is free at that moment, a generated one too. -/
def FreshTokens : Rule := fun _ _ s c => Meets Fresh s.registry (c.moves s)
deriving Decidable

theorem rewardMoves_isMint : ∀ (rewards : List RewardDistribution) (counter : U64),
    ∀ m ∈ rewardMoves counter rewards, m.isMint = true
  | [], _ => by simp [rewardMoves]
  | reward :: rewards, counter => by
    unfold rewardMoves
    split
    · exact rewardMoves_isMint rewards counter
    · exact List.forall_mem_cons.2 ⟨rfl, rewardMoves_isMint rewards _⟩

theorem Call.moves_isMint {c : Call} (hc : c.mintsNfts = true) : ∀ m ∈ c.moves s, m.isMint = true := by
  cases c with
  | mintNft | mintFromDrop => exact List.forall_mem_singleton.2 rfl
  | distributeRewards rewards => exact rewardMoves_isMint rewards _
  | _ => cases hc

/-- Fresh mints take no token from its owner. -/
theorem owner_run_of_fresh {r : Registry BytesN32 Address} {ms : List (Move BytesN32 Address)} {t : BytesN32}
    {o : Address} (hf : Meets Fresh r ms) (hm : ∀ m ∈ ms, m.isMint = true) (ho : r.owner t = some o) :
    (r.run ms).owner t = some o := by
  refine (hf.and (Meets.of_forall hm)).invariant (P := fun r => r.owner t = some o) ?_ ho
  intro r m hr hok
  cases m with
  | mint => exact owner_mint_of_fresh hok.1 hr
  | _ => cases hok.2

/-- Where generated ids are free, a token is listed exactly once, for its owner, in every state reached;
and no mint changes the owner of an existing token. -/
theorem ownership_indexes_agree (h : contract.Reach FreshTokens env s) :
    (∀ o t, (s.nft.getOwnedNfts o).count t = if s.nft.owner.get t = some o then 1 else 0) ∧
    ∀ {e env c s'}, c.mintsNfts = true → FreshTokens e env s c → (execute env s c).run .wrapping = some s' →
      ∀ t o, s.nft.owner.get t = some o → s'.nft.owner.get t = some o := by
  constructor
  · refine reach_invariant (P := fun s => s.registry.Indexed) ?_ ?_ h
    · intro _ _ _ o t
      rfl
    · intro _ env s c s' hs hok hstep
      have hr := execute_refines hstep
      show s'.registry.Indexed
      rw [hr.registry]
      exact (hr.checked.and hok).invariant (fun hi hm => hi.apply hm.1 hm.2) hs
  · intro _ env c s' hc hok hstep t o ho
    show s'.registry.owner t = some o
    rw [(execute_refines hstep).registry]
    exact owner_run_of_fresh hok (Call.moves_isMint hc) ho

def sword : NFTMetadata := ⟨3, "swords", carol, 1000⟩

/-- Mints of both kinds, a transfer to oneself, a sale, a burn, and a second life for the burned id. -/
def tokenDay : List (Env × Call) :=
  [signed 1 (.mintNft alice sword none),
    signed 2 (.mintNft alice sword (some 77)),
    signed 3 (.transferNft alice alice 77),
    signed 4 (.mintCurrency bob 1000),
    signed 5 (.createMarketplaceOrder alice (.nft (idOfCounter 1)) 400 none),
    signed 6 (.executeMarketplaceTrade bob (idOfCounter 1)),
    signed 7 (.burnNft alice 77),
    signed 8 (.mintNft carol sword (some 77)),
    signed 9 (.distributeRewards [⟨bob, .nft sword⟩, ⟨carol, .nft sword⟩])]

theorem indexes_after_tokenDay : ∃ r, (deployment 1000000 250).after FreshTokens tokenDay = some r ∧
    r.2.nft.getOwnedNfts carol = [77, idOfCounter 3] ∧
    ∀ o t, (r.2.nft.getOwnedNfts o).count t = if r.2.nft.owner.get t = some o then 1 else 0 := by
  refine ⟨_, evaluated, by decide +kernel, ?_⟩
  exact (ownership_indexes_agree (reach_after (evaluated _))).1

/-- A token minted under the first generated id is taken over by the first generated mint, and stays on
its first owner's list. -/
theorem generated_mint_takes_over : ∃ r, contract.Reach Unrestricted r.1 r.2 ∧
    (deployment 1000000 250).after Unrestricted
      [signed 1 (.mintNft alice sword (some (idOfCounter 1))), signed 2 (.mintNft bob sword none)] = some r ∧
    r.2.nft.owner.get (idOfCounter 1) = some bob ∧ (r.2.nft.getOwnedNfts alice).count (idOfCounter 1) = 1 := by
  refine ⟨_, ?_, evaluated, by decide +kernel⟩
  exact reach_after (evaluated _)

end Indexes

/-! ## Staked tokens stay with their staker -/

section Staking

variable {s : State}

/-- A token that the call gives a new owner is not staked, or staked by the new owner. -/
def RespectsStakes : Rule := fun _ _ s c => Meets RespectsLock s.registry (c.moves s)
deriving Decidable

/-- Where staked tokens are not handed over, a staked token is owned by its staker in every state reached. -/
theorem staked_token_owned_by_staker (h : contract.Reach RespectsStakes env s) {t : BytesN32}
    {position : NftStakedPosition} (hp : s.staking.position.get t = some position) :
    s.nft.owner.get t = some position.owner := by
  have hinv : s.registry.Secured := by
    refine reach_invariant (P := fun s => s.registry.Secured) ?_ ?_ h
    · intro _ _ _ t a ha
      cases ha
    · intro _ env s c s' hs hok hstep
      have hr := execute_refines hstep
      show s'.registry.Secured
      rw [hr.registry]
      exact (hr.checked.and hok).invariant (fun hi hm => hi.apply hm.1 hm.2) hs
  exact hinv t position.owner (by show (s.staking.position.get t).map _ = _; rw [hp, Option.map_some])

/-- Two tokens are staked; one is unstaked and sold. -/
def stakingDay : List (Env × Call) :=
  [signed 1 (.configureNftStaking ⟨100, 10, 0, false⟩),
    signed 2 (.mintNft alice sword none),
    signed 3 (.mintNft alice sword (some 77)),
    signed 4 (.stakeNft alice (idOfCounter 1)),
    signed 5 (.stakeNft alice 77),
    signed 26 (.claimNftStakingRewards alice 77),
    signed 36 (.unstakeNft alice (idOfCounter 1)),
    signed 37 (.transferNft alice bob (idOfCounter 1))]

theorem staked_after_stakingDay : ∃ r position, (deployment 1000000 250).after RespectsStakes stakingDay = some r ∧
    r.2.staking.position.get 77 = some position ∧ r.2.nft.owner.get 77 = some position.owner := by
  refine ⟨_, _, evaluated, evaluated, ?_⟩
  exact staked_token_owned_by_staker (reach_after (evaluated _))
    (evaluated _)

/-- A transfer does not ask whether the token is staked. -/
theorem staked_token_transferred : ∃ r, contract.Reach Unrestricted r.1 r.2 ∧
    (deployment 1000000 250).after Unrestricted
      [signed 1 (.configureNftStaking ⟨100, 10, 0, false⟩), signed 2 (.mintNft alice sword none),
        signed 3 (.stakeNft alice (idOfCounter 1)), signed 4 (.transferNft alice bob (idOfCounter 1))] = some r ∧
    (r.2.staking.position.get (idOfCounter 1)).map NftStakedPosition.owner = some alice ∧
    r.2.nft.owner.get (idOfCounter 1) = some bob := by
  refine ⟨_, ?_, evaluated, by decide +kernel⟩
  exact reach_after (evaluated _)

end Staking

end ArenaX.VirtualEconomy
