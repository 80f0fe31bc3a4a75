/-
The contract as a state machine: its state-changing entry points as calls, and the states reached
from `initialize` by runs of calls, each of which may be required to meet a condition on the state it
is made in.
-/
import ArenaX.VirtualEconomy.Pricing
import ArenaX.VirtualEconomy.Rewards
import ArenaX.VirtualEconomy.Staking

namespace ArenaX.VirtualEconomy

open Machine Exec

/-! ## Administration -/

section

variable (env : Env) (s : State)

/-- Set up a fresh contract. The marketplace configuration is stored unchecked. -/
def initializeContract (admin : Address) (currencyConfig : CurrencyConfig)
    (marketplaceConfig : MarketplaceConfig) : Result State := do
  reject s.admin.isSome .alreadyInitialized
  validateAddress env admin
  pure { s with
    admin := some admin
    currencyConfig := some currencyConfig
    marketplaceConfig := some marketplaceConfig
    nft.tokenCounter := 0
    orders.orderCounter := 0
    analytics := {}
    royalty.analytics := {} }

def updateInflationControls (config : CurrencyConfig) : Result State := do
  requireAdmin env s
  pure { s with currencyConfig := some config }

def emergencyPause : Result State := do
  requireAdmin env s
  pure { s with emergencyPaused := true }

def emergencyResume : Result State := do
  requireAdmin env s
  pure { s with emergencyPaused := false }

end

/-! ## Calls -/

/-- A call of the initialized contract. -/
inductive Call where
  | mintCurrency (recipient : Address) (amount : I128)
  | transferCurrency (sender recipient : Address) (amount : I128)
  | burnCurrency (owner : Address) (amount : I128)
  | batchMintCurrency (recipients : List Address) (amounts : List I128)
  | batchTransferCurrency (sender : Address) (items : List BatchTransferItem)
  | batchBurnCurrency (owners : List Address) (amounts : List I128)
  | mintNft (owner : Address) (metadata : NFTMetadata) (tokenId : Option BytesN32)
  | createCollection (creator : Address) (name : String) (defaultRoyaltyBps : U32)
  | transferNft (sender recipient : Address) (tokenId : BytesN32)
  | burnNft (owner : Address) (tokenId : BytesN32)
  | updateRoyaltyBps (tokenId : BytesN32) (caller : Address) (newBps : U32)
  | setRoyaltyExempt (address : Address) (exempt : Bool)
  | createMarketplaceOrder (seller : Address) (asset : MarketplaceAsset) (price : I128) (expiry : Option U64)
  | executeMarketplaceTrade (buyer : Address) (orderId : BytesN32)
  | cancelMarketplaceOrder (orderId : BytesN32)
  | createDutchAuction (seller : Address) (tokenId : BytesN32) (startPrice floorPrice : I128)
    (startTime endTime : U64) (curve : PriceCurve)
  | purchaseDutchAuction (buyer : Address) (listingId : BytesN32)
  | cancelDutchAuction (listingId : BytesN32)
  | createBondingCurveDrop (creator : Address) (basePrice : I128) (slopeBps : U32) (maxSupply : Option U32)
    (metadataTemplate : NFTMetadata)
  | mintFromDrop (buyer : Address) (dropId : BytesN32)
  | setDropActive (dropId : BytesN32) (caller : Address) (active : Bool)
  | distributeRewards (rewards : List RewardDistribution)
  | configureReferrals (config : ReferralConfig)
  | registerReferral (referee referrer : Address)
  | recordReferralActivity (referee : Address) (amount : I128)
  | claimReferralRewards (account : Address)
  | setReferralFraudFlag (account : Address) (flagged : Bool)
  | configureRebates (tier1MinVolume tier2MinVolume tier3MinVolume : I128) (periodSeconds : U64)
  | calculateMonthlyRebates
  | updateInflationControls (config : CurrencyConfig)
  | emergencyPause
  | emergencyResume
  | configureFairLaunch (config : FairLaunchConfig)
  | addToWhitelist (address : Address)
  | purchaseFairLaunch (buyer : Address) (amount : I128)
  | configureNftStaking (config : NftStakeConfig)
  | stakeNft (owner : Address) (tokenId : BytesN32)
  | unstakeNft (owner : Address) (tokenId : BytesN32)
  | claimNftStakingRewards (owner : Address) (tokenId : BytesN32)

/-- The state a call leaves behind. -/
def execute (env : Env) (s : State) : Call → Result State
  | .mintCurrency recipient amount => mintCurrency env s recipient amount
  | .transferCurrency sender recipient amount => transferCurrency env s sender recipient amount
  | .burnCurrency owner amount => burnCurrency env s owner amount
  | .batchMintCurrency recipients amounts => Prod.snd <$> batchMintCurrency env s recipients amounts
  | .batchTransferCurrency sender items => Prod.snd <$> batchTransferCurrency env s sender items
  | .batchBurnCurrency owners amounts => Prod.snd <$> batchBurnCurrency env s owners amounts
  | .mintNft owner metadata tokenId => Prod.snd <$> mintNft env s owner metadata tokenId
  | .createCollection creator name defaultRoyaltyBps => createCollection env s creator name defaultRoyaltyBps
  | .transferNft sender recipient tokenId => transferNft env s sender recipient tokenId
  | .burnNft owner tokenId => burnNft env s owner tokenId
  | .updateRoyaltyBps tokenId caller newBps => updateRoyaltyBps env s tokenId caller newBps
  | .setRoyaltyExempt address exempt => setRoyaltyExempt env s address exempt
  | .createMarketplaceOrder seller asset price expiry =>
    Prod.snd <$> createMarketplaceOrder env s seller asset price expiry
  | .executeMarketplaceTrade buyer orderId => executeMarketplaceTrade env s buyer orderId
  | .cancelMarketplaceOrder orderId => cancelMarketplaceOrder env s orderId
  | .createDutchAuction seller tokenId startPrice floorPrice startTime endTime curve =>
    Prod.snd <$> createDutchAuction env s seller tokenId startPrice floorPrice startTime endTime curve
  | .purchaseDutchAuction buyer listingId => purchaseDutchAuction env s buyer listingId
  | .cancelDutchAuction listingId => cancelDutchAuction env s listingId
  | .createBondingCurveDrop creator basePrice slopeBps maxSupply metadataTemplate =>
    Prod.snd <$> createBondingCurveDrop env s creator basePrice slopeBps maxSupply metadataTemplate
  | .mintFromDrop buyer dropId => Prod.snd <$> mintFromDrop env s buyer dropId
  | .setDropActive dropId caller active => setDropActive env s dropId caller active
  | .distributeRewards rewards => distributeRewards env s rewards
  | .configureReferrals config => configureReferrals env s config
  | .registerReferral referee referrer => registerReferral env s referee referrer
  | .recordReferralActivity referee amount => Prod.snd <$> recordReferralActivity env s referee amount
  | .claimReferralRewards account => Prod.snd <$> claimReferralRewards env s account
  | .setReferralFraudFlag account flagged => setReferralFraudFlag env s account flagged
  | .configureRebates tier1MinVolume tier2MinVolume tier3MinVolume periodSeconds =>
    configureRebates env s tier1MinVolume tier2MinVolume tier3MinVolume periodSeconds
  | .calculateMonthlyRebates => Prod.snd <$> calculateMonthlyRebates env s
  | .updateInflationControls config => updateInflationControls env s config
  | .emergencyPause => emergencyPause env s
  | .emergencyResume => emergencyResume env s
  | .configureFairLaunch config => configureFairLaunch env s config
  | .addToWhitelist address => addToWhitelist env s address
  | .purchaseFairLaunch buyer amount => purchaseFairLaunch env s buyer amount
  | .configureNftStaking config => configureNftStaking env s config
  | .stakeNft owner tokenId => stakeNft env s owner tokenId
  | .unstakeNft owner tokenId => Prod.snd <$> unstakeNft env s owner tokenId
  | .claimNftStakingRewards owner tokenId => Prod.snd <$> claimNftStakingRewards env s owner tokenId

/-- No unchecked operation of the call leaves the range of its type. -/
def Call.InRange (env : Env) (s : State) (c : Call) : Prop := (execute env s c).wrapped = false
deriving Decidable

/-! ## Runs -/

/-- The deployed contract, from `initialize` on. -/
def contract : TransitionSystem Env State Call where
  init env s := ∃ admin currencyConfig marketplaceConfig,
    (initializeContract env {} admin currencyConfig marketplaceConfig).run .wrapping = some s
  step env s c := (execute env s c).run .wrapping

abbrev Rule := TransitionSystem.Rule Env State Call

export TransitionSystem (Unrestricted)

/-- What `initialize` sets up and every call that the rule allows keeps holds in every state reached. -/
theorem reach_invariant {ok : Rule} {P : State → Prop}
    (hinit : ∀ {admin cc mc}, P { admin := some admin, currencyConfig := some cc, marketplaceConfig := some mc })
    (hstep : ∀ {e env s c s'}, P s → ok e env s c → (execute env s c).run .wrapping = some s' → P s')
    {env : Env} {s : State} (h : contract.Reach ok env s) : P s := by
  refine h.invariant (P := fun _ s => P s) ?_ hstep
  rintro e s ⟨_, _, _, h⟩
  simp only [initializeContract, run_iff] at h
  obtain ⟨-, -, -, -, rfl⟩ := h
  exact hinit

/-! ## A small deployment

Four accounts, all of which sign, for the concrete runs below the theorems about all runs. -/

namespace Sample

export Host.Accounts (admin alice bob carol)
export TransitionSystem.Deployment (reach_after)

/-- A transaction at a time, signed by everyone; sales leave the collections alone. -/
def signedAt (time : Int) : Env := ⟨.signed [admin, alice, bob, carol] 0 time, fun collections _ _ => collections⟩

def signed (time : Int) (c : Call) : Env × Call := (signedAt time, c)

/-- The contract after `initialize` with a supply limit and a marketplace fee paid to the admin. -/
def deployed (maxSupply fee : Int) : State :=
  { admin := some admin
    currencyConfig := some ⟨i128.wrap maxSupply⟩
    marketplaceConfig := some ⟨u32.wrap fee, admin⟩ }

def deployment (maxSupply fee : Int) : contract.Deployment where
  env := signedAt 0
  state := deployed maxSupply fee
  starts := ⟨admin, ⟨i128.wrap maxSupply⟩, ⟨u32.wrap fee, admin⟩, rfl⟩

end Sample

end ArenaX.VirtualEconomy
