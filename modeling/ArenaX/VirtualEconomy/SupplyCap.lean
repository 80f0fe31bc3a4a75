/-
The supply limit. Five of the issuing calls compare the new supply with `max_supply`; the fair-launch sale
and the two payouts of staking rewards do not, and keep to the limit exactly when the amount they issue
happens to.
-/
import ArenaX.VirtualEconomy.Frame

namespace ArenaX.VirtualEconomy

open Machine Exec Sample

variable {m : Mode} {env : Env} {s s' : State} {c : Call} {owner : Address}

/-- The limit in force. -/
def State.maxSupply (s : State) : I128 := (getCurrencyConfig s).maxSupply

/-! ## Calls that look at the limit -/

/-- The supply is left alone or within a limit. -/
def WithinLimit (limit before after : I128) : Prop := after = before ∨ (after : Int) ≤ limit

theorem grantReward_withinLimit {start : I128} {reward : RewardDistribution} {t : State}
    (hs : s.currencyConfig = t.currencyConfig ∧ WithinLimit t.maxSupply start (getTotalCurrencySupply s))
    (h : (grantReward env s reward).run m = some s') :
    s'.currencyConfig = t.currencyConfig ∧ WithinLimit t.maxSupply start (getTotalCurrencySupply s') := by
  unfold grantReward at h
  split at h
  · obtain ⟨supply, _, _, -, -, hle, -, rfl⟩ := mintCurrency_spec h
    refine ⟨hs.1, .inr ?_⟩
    have hmax : getCurrencyConfig s = getCurrencyConfig t := by unfold getCurrencyConfig; rw [hs.1]
    rw [hmax] at hle
    exact hle
  · obtain ⟨_, h⟩ := run_snd_map h
    obtain ⟨_, _, _, -, rfl⟩ := mintNft_spec h
    exact hs

theorem payRebate_withinLimit {now : U64} {limit start : I128} {run : RebateRun} {trader : Address} {volume : I128}
    {bps : U32} (hs : WithinLimit limit start run.supply) :
    Ensures m (payRebate now limit run trader volume bps) fun run' => WithinLimit limit start run'.supply := by
  refine .ite (fun _ => ?_) fun _ => .pure hs
  refine .bind fun _ _ => .bind fun amount _ => .ite (fun ha => ?_) fun _ => .pure hs
  refine .bind fun supply _ => .ite (fun hle => ?_) fun _ => .pure hs
  exact .bind fun c hc => .bind fun _ _ => .pure (.inr hle)

theorem settleTrader_withinLimit {now : U64} {limit start : I128} {config : RebateConfig} {run run' : RebateRun}
    {trader : Address} (hs : WithinLimit limit start run.supply)
    (h : (settleTrader now limit config run trader).run m = some run') : WithinLimit limit start run'.supply := by
  unfold settleTrader at h
  simp only [run_iff] at h
  obtain ⟨run₁, h₁, rfl⟩ := h
  exact payRebate_withinLimit hs run₁ h₁

/-- The calls that compare the supply they are about to leave with the limit. -/
def Call.checksLimit : Call → Bool
  | .mintCurrency .. | .batchMintCurrency .. | .distributeRewards .. | .claimReferralRewards ..
  | .calculateMonthlyRebates => true
  | _ => false

theorem execute_withinLimit (hc : c.checksLimit = true) (h : (execute env s c).run m = some s') :
    WithinLimit s.maxSupply (getTotalCurrencySupply s) (getTotalCurrencySupply s') := by
  cases c with
  | mintCurrency =>
    obtain ⟨_, _, _, -, -, hle, -, rfl⟩ := mintCurrency_spec h
    exact .inr hle
  | batchMintCurrency =>
    obtain ⟨_, h⟩ := run_snd_map h
    obtain ⟨_, _, _, _, -, -, -, -, hle, rfl⟩ := batchMintCurrency_spec h
    exact .inr hle
  | distributeRewards rewards =>
    simp only [execute, distributeRewards, run_iff] at h
    obtain ⟨-, -, h⟩ := h
    -- the limit itself must not change along the way
    refine (foldlM_inv m (fun _ t => t.currencyConfig = s.currencyConfig ∧
      WithinLimit s.maxSupply (getTotalCurrencySupply s) (getTotalCurrencySupply t)) ?_ ⟨rfl, .inl rfl⟩ h).2
    intro _ _ _ _ ht hg
    exact grantReward_withinLimit ht hg
  | claimReferralRewards =>
    obtain ⟨_, h⟩ := run_snd_map h
    obtain ⟨_, _, _, _, -, -, hle, -, rfl⟩ := claimReferralRewards_spec h
    exact .inr hle
  | calculateMonthlyRebates =>
    obtain ⟨_, h⟩ := run_snd_map h
    obtain ⟨_, run, _, _, -, hr, rfl⟩ := calculateMonthlyRebates_spec h
    refine foldlM_inv m (fun _ r => WithinLimit s.maxSupply (getTotalCurrencySupply s) r.supply) ?_ (.inl rfl) hr
    intro _ _ _ _ ht hg
    exact settleTrader_withinLimit ht hg
  | _ => cases hc

/-! ## Calls that do not -/

/-- The rewards a staked token has earned; 0 where there is nothing staked. -/
def stakingRewards (env : Env) (s : State) (tokenId : BytesN32) : Int :=
  let rewards : Option I128 := do
    let config ← s.staking.config
    let position ← s.staking.position.get tokenId
    (rewardsDue env s config position tokenId).run .wrapping
  (rewards.getD 0 : I128)

/-- What a call issues without a look at the limit. -/
def Call.unlimited (env : Env) (s : State) : Call → Int
  | .purchaseFairLaunch _ amount => amount
  | .unstakeNft _ tokenId | .claimNftStakingRewards _ tokenId => stakingRewards env s tokenId
  | _ => 0

theorem stakingRewards_eq {tokenId : BytesN32} {config : NftStakeConfig} {position : NftStakedPosition} {rewards : I128}
    (hc : s.staking.config = some config) (hp : s.staking.position.get tokenId = some position)
    (hr : (rewardsDue env s config position tokenId).run .wrapping = some rewards) :
    stakingRewards env s tokenId = rewards := by
  unfold stakingRewards
  rw [hc, hp]
  show (((rewardsDue env s config position tokenId).run .wrapping).getD 0 : Int) = rewards
  rw [hr]
  rfl

theorem issue_supply {c c' : CurrencyStore} {amount : I128}
    (h : (issue c owner amount).run .wrapping = some c') : c'.totalSupply = i128.wrap (c.totalSupply + amount) := by
  obtain ⟨_, ⟨_, -, rfl⟩, _, ⟨rfl, -⟩, rfl⟩ := h
  rfl

/-- Issuing keeps to a limit exactly when the amount does, or the supply wraps around and falls. -/
theorem issue_withinLimit_iff {c c' : CurrencyStore} {amount : I128} (ha : 0 < (amount : Int))
    (h : (issue c owner amount).run .wrapping = some c') (limit : I128) :
    ((c.totalSupply : Int) < c'.totalSupply → (c'.totalSupply : Int) ≤ limit) ↔
      (amount : Int) ≤ 0 ∨ (c.totalSupply : Int) + amount ≤ limit ∨ i128.max < c.totalSupply + amount := by
  rw [issue_supply h]
  have hlo := c.totalSupply.lo
  rcases le_or_gt ((c.totalSupply : Int) + amount) i128.max with hfit | hover
  · rw [wrap_of_fits ⟨by omega, hfit⟩]
    omega
  · have hw := IntType.wrap_le_of_lt hover
    have hamount := amount.hi
    rw [i128_min] at *
    omega

theorem payRewards_withinLimit_iff {c c' : CurrencyStore} {rewards : I128}
    (h : (payRewards c owner rewards).run .wrapping = some c') (limit : I128) :
    ((c.totalSupply : Int) < c'.totalSupply → (c'.totalSupply : Int) ≤ limit) ↔
      (rewards : Int) ≤ 0 ∨ (c.totalSupply : Int) + rewards ≤ limit ∨ i128.max < c.totalSupply + rewards := by
  unfold payRewards at h
  split at h
  · rename_i hr
    exact issue_withinLimit_iff hr h limit
  · rename_i hr
    cases h
    exact ⟨fun _ => .inl (not_lt.1 hr), fun _ hlt => absurd hlt (lt_irrefl _)⟩

/-! ## The limit, call by call -/

/-- An issuing call that raises the supply stays within the limit in force exactly when it looks at the
limit, or issues nothing, or what it issues fits; past the largest `i128` the supply falls instead. -/
theorem issuance_within_limit_iff (hc : c.issuesCurrency = true) (h : (execute env s c).run .wrapping = some s') :
    ((getTotalCurrencySupply s : Int) < getTotalCurrencySupply s' → (getTotalCurrencySupply s' : Int) ≤ s.maxSupply) ↔
      c.unlimited env s ≤ 0 ∨ (getTotalCurrencySupply s : Int) + c.unlimited env s ≤ s.maxSupply ∨
        i128.max < getTotalCurrencySupply s + c.unlimited env s := by
  -- a call that checks the limit issues nothing without a check
  have hlimited (hl : c.checksLimit = true) (h0 : c.unlimited env s = 0) :
      ((getTotalCurrencySupply s : Int) < getTotalCurrencySupply s' →
        (getTotalCurrencySupply s' : Int) ≤ s.maxSupply) ↔
      c.unlimited env s ≤ 0 ∨ (getTotalCurrencySupply s : Int) + c.unlimited env s ≤ s.maxSupply ∨
        i128.max < getTotalCurrencySupply s + c.unlimited env s := by
    refine ⟨fun _ => .inl h0.le, fun _ hlt => ?_⟩
    rcases execute_withinLimit hl h with heq | hle
    · rw [heq] at hlt
      exact absurd hlt (lt_irrefl _)
    · exact hle
  cases c with
  | mintCurrency | batchMintCurrency | distributeRewards | claimReferralRewards | calculateMonthlyRebates =>
    exact hlimited rfl rfl
  | purchaseFairLaunch buyer amount =>
    obtain ⟨ha, _, _, hc, rfl⟩ := purchaseFairLaunch_spec h
    exact issue_withinLimit_iff ha hc s.maxSupply
  | unstakeNft owner tokenId =>
    obtain ⟨_, h⟩ := run_snd_map h
    obtain ⟨_, _, _, _, _, hc, hp, hr, hpay, rfl⟩ := unstakeNft_spec h
    rw [Call.unlimited, stakingRewards_eq hc hp hr]
    exact payRewards_withinLimit_iff hpay s.maxSupply
  | claimNftStakingRewards owner tokenId =>
    obtain ⟨_, h⟩ := run_snd_map h
    obtain ⟨_, _, _, _, _, _, hc, hp, hr, hpay, -, rfl⟩ := claimNftStakingRewards_spec h
    rw [Call.unlimited, stakingRewards_eq hc hp hr]
    exact payRewards_withinLimit_iff hpay s.maxSupply
  | _ => cases hc

/-- A sale open to everyone, of up to 1000 units. -/
def publicSale : FairLaunchConfig :=
  ⟨1, 2, 2, 100, 1, 1000, 1000, 1000, 0⟩

theorem publicSale_within_limit : ∃ r s', (deployment 600 0).after Unrestricted
      [signed 1 (.configureFairLaunch publicSale), signed 10 (.mintCurrency bob 100)] = some r ∧
    (execute (signedAt 20) r.2 (.purchaseFairLaunch alice 500)).run .wrapping = some s' ∧
    ((getTotalCurrencySupply r.2 : Int) < getTotalCurrencySupply s' → (getTotalCurrencySupply s' : Int) ≤
      r.2.maxSupply) := by
  refine ⟨_, _, evaluated, evaluated, ?_⟩
  exact (issuance_within_limit_iff rfl (evaluated _)).2 (.inr (.inl (by decide +kernel)))

/-- A sale larger than the supply limit takes the supply past the limit. -/
theorem publicSale_exceeds_limit : ∃ env s s', contract.Reach Unrestricted env s ∧
    (execute (signedAt 20) s (.purchaseFairLaunch alice 500)).run .wrapping = some s' ∧
    (s.maxSupply : Int) = 100 ∧ (getTotalCurrencySupply s : Int) = 0 ∧ (getTotalCurrencySupply s' : Int) = 500 := by
  have hreach := reach_after (evaluated
    (o := (deployment 100 0).after Unrestricted [signed 1 (.configureFairLaunch publicSale)]))
  exact ⟨_, _, _, hreach, evaluated, by decide +kernel⟩

end ArenaX.VirtualEconomy
