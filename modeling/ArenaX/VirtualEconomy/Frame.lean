/-
What calls leave alone. Each call writes some of the stores that the invariants look at, and keeps the others.
-/
import ArenaX.VirtualEconomy.Contract

namespace ArenaX.VirtualEconomy

open Machine Exec

/-- The stores that the invariants look at. -/
inductive Store where
  | currency | tokens | orders | auctions | drops | positions | referral | fairLaunch
deriving DecidableEq

/-- The stores a call writes. -/
def Call.footprint : Call → List Store
  | .mintCurrency .. | .transferCurrency .. | .burnCurrency .. | .batchMintCurrency .. | .batchTransferCurrency ..
  | .batchBurnCurrency .. | .calculateMonthlyRebates => [.currency]
  | .mintNft .. | .transferNft .. => [.tokens]
  | .distributeRewards .. => [.currency, .tokens]
  | .burnNft .. => [.tokens, .orders]
  | .createMarketplaceOrder .. | .cancelMarketplaceOrder .. => [.orders]
  | .executeMarketplaceTrade .. => [.currency, .tokens, .orders]
  | .createDutchAuction .. | .cancelDutchAuction .. => [.auctions]
  | .purchaseDutchAuction .. => [.currency, .tokens, .auctions]
  | .createBondingCurveDrop .. | .setDropActive .. => [.drops]
  | .mintFromDrop .. => [.currency, .tokens, .drops]
  | .stakeNft .. => [.positions]
  | .unstakeNft .. | .claimNftStakingRewards .. => [.currency, .positions]
  | .configureReferrals .. | .registerReferral .. | .recordReferralActivity .. | .setReferralFraudFlag .. => [.referral]
  | .claimReferralRewards .. => [.currency, .referral]
  | .configureFairLaunch .. | .addToWhitelist .. => [.fairLaunch]
  | .purchaseFairLaunch .. => [.currency, .fairLaunch]
  | .createCollection .. | .updateRoyaltyBps .. | .setRoyaltyExempt .. | .configureRebates ..
  | .updateInflationControls ..
  | .emergencyPause | .emergencyResume | .configureNftStaking .. => []

/-- The calls that issue currency. -/
def Call.issuesCurrency : Call → Bool
  | .mintCurrency .. | .batchMintCurrency .. | .distributeRewards .. | .claimReferralRewards ..
  | .calculateMonthlyRebates | .purchaseFairLaunch .. | .unstakeNft .. | .claimNftStakingRewards .. => true
  | _ => false

/-- What a state holds in the stores, except those that are written. -/
def State.kept (s : State) (written : List Store) : State where
  currency := if written.contains .currency then {} else s.currency
  nft := if written.contains .tokens then {} else { s.nft with metadata := ∅ }
  orders := if written.contains .orders then {} else s.orders
  analytics.activeOrders := if written.contains .orders then 0 else s.analytics.activeOrders
  pricing.auction := if written.contains .auctions then ∅ else s.pricing.auction
  pricing.drop := if written.contains .drops then ∅ else s.pricing.drop
  staking.position := if written.contains .positions then ∅ else s.staking.position
  referral := if written.contains .referral then {} else s.referral
  fairLaunch := if written.contains .fairLaunch then {} else s.fairLaunch

/-- A step that writes only some of the stores. -/
def Frame (written : List Store) (s s' : State) : Prop := s'.kept written = s.kept written

namespace Frame

variable {s s' : State} {written : List Store} (h : Frame written s s')
include h

theorem currency (hw : written.contains .currency = false) : s'.currency = s.currency := by
  simpa only [State.kept, hw, Bool.false_eq_true, if_false] using congrArg State.currency h

theorem tokens (hw : written.contains .tokens = false) :
    s'.nft.tokenCounter = s.nft.tokenCounter ∧ s'.nft.owner = s.nft.owner ∧ s'.nft.owned = s.nft.owned := by
  simpa only [State.kept, hw, Bool.false_eq_true, if_false, NftStore.mk.injEq, true_and] using congrArg State.nft h

theorem orders (hw : written.contains .orders = false) :
    s'.orders = s.orders ∧ s'.analytics.activeOrders = s.analytics.activeOrders := by
  constructor
  · simpa only [State.kept, hw, Bool.false_eq_true, if_false] using congrArg State.orders h
  · simpa only [State.kept, hw, Bool.false_eq_true, if_false] using congrArg (·.analytics.activeOrders) h

theorem auctions (hw : written.contains .auctions = false) : s'.pricing.auction = s.pricing.auction := by
  simpa only [State.kept, hw, Bool.false_eq_true, if_false] using congrArg (·.pricing.auction) h

theorem drops (hw : written.contains .drops = false) : s'.pricing.drop = s.pricing.drop := by
  simpa only [State.kept, hw, Bool.false_eq_true, if_false] using congrArg (·.pricing.drop) h

theorem positions (hw : written.contains .positions = false) : s'.staking.position = s.staking.position := by
  simpa only [State.kept, hw, Bool.false_eq_true, if_false] using congrArg (·.staking.position) h

theorem referral (hw : written.contains .referral = false) : s'.referral = s.referral := by
  simpa only [State.kept, hw, Bool.false_eq_true, if_false] using congrArg State.referral h

theorem fairLaunch (hw : written.contains .fairLaunch = false) : s'.fairLaunch = s.fairLaunch := by
  simpa only [State.kept, hw, Bool.false_eq_true, if_false] using congrArg State.fairLaunch h

end Frame

section Steps

variable {m : Mode} {env : Env} {s s' : State} {c : Call}

theorem grantReward_frame {reward : RewardDistribution} (h : (grantReward env s reward).run m = some s') :
    Frame [.currency, .tokens] s s' := by
  unfold grantReward at h
  split at h
  · obtain ⟨_, _, _, -, -, -, -, rfl⟩ := mintCurrency_spec h; rfl
  · obtain ⟨_, h⟩ := run_snd_map h
    obtain ⟨_, _, _, -, rfl⟩ := mintNft_spec h; rfl

/-- A call writes nothing but its footprint. -/
theorem execute_frame (h : (execute env s c).run m = some s') : Frame c.footprint s s' := by
  cases c with
  | executeMarketplaceTrade =>
    obtain ⟨_, h₁, rfl⟩ := executeMarketplaceTrade_spec h
    obtain ⟨_, _, _, _, _, _, _, _, -, -, -, -, -, rfl⟩ := executeMarketplaceTradeUnguarded_spec h₁; rfl
  | purchaseDutchAuction =>
    obtain ⟨_, h₁, rfl⟩ := purchaseDutchAuction_spec h
    obtain ⟨_, _, _, _, _, _, _, _, -, -, -, -, rfl⟩ := purchaseDutchAuctionUnguarded_spec h₁; rfl
  | mintFromDrop =>
    obtain ⟨_, h⟩ := run_snd_map h
    obtain ⟨_, h₁, rfl⟩ := mintFromDrop_spec h
    obtain ⟨_, _, _, _, _, _, _, _, _, _, _, -, -, -, -, -, -, -, -, rfl⟩ := mintFromDropUnguarded_spec h₁; rfl
  | distributeRewards =>
    simp only [execute, distributeRewards, run_iff] at h
    obtain ⟨-, -, h⟩ := h
    exact foldlM_inv m (fun _ => Frame _ s) (fun _ _ _ _ ht h => (grantReward_frame h).trans ht) rfl h
  | _ =>
    -- chains of checks and additions that end in a single write
    revert s' h
    show Ensures m _ _
    try refine .map ?_
    repeat' first
      | exact .pure rfl
      | refine .bind fun _ _ => ?_
      | refine .ite (fun _ => ?_) fun _ => ?_
      | exact fun _ _ => rfl

end Steps

end ArenaX.VirtualEconomy
