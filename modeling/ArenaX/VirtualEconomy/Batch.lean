/-
Batch operations against the same items one after another. A batch mint checks the supply limit once,
against a sum that wraps around; a batch burn checks every item against the balances before the batch.
Both agree with the single operations exactly where these shortcuts do not matter.
-/
import ArenaX.VirtualEconomy.Contract

namespace ArenaX.VirtualEconomy

open Machine Exec BatchManager Sample

variable {amounts : List I128} {item : Address × I128} {items : List (Address × I128)}

/-! ## Balances after a list of items -/

namespace CurrencyStore

/-- Adjust balances one after another, wrapping around. -/
def adjusted (c : CurrencyStore) (items : List (Address × Int)) : CurrencyStore :=
  items.foldl (fun c item => c.set item.1 (i128.wrap (c.get item.1 + item.2))) c

theorem adjusted_withSupply (x : I128) : ∀ (items : List (Address × Int)) (c : CurrencyStore),
    adjusted { c with totalSupply := x } items = { c.adjusted items with totalSupply := x }
  | [], _ => rfl
  | item :: items, c => adjusted_withSupply x items (c.set item.1 (i128.wrap (c.get item.1 + item.2)))

theorem run_checkedAdd (m : Mode) (c c' : CurrencyStore) (a : Address) (x : Int) :
    (c.checkedAdd a x).run m = some c' ↔ i128.Fits (c.get a + x) ∧ c' = c.set a (i128.wrap (c.get a + x)) := by
  unfold checkedAdd
  simp only [run_iff, checked_eq_some]
  constructor
  · rintro ⟨v, hv, rfl⟩
    rw [← hv, wrap_toInt]
    exact ⟨v.fits, rfl⟩
  · rintro ⟨hf, rfl⟩
    exact ⟨_, wrap_of_fits hf, rfl⟩

end CurrencyStore

theorem amountFor_cons (item : Address × I128) (items : List (Address × I128)) (a : Address) :
    amountFor (item :: items) a = (if item.1 = a then (item.2 : Int) else 0) + amountFor items a := by
  unfold amountFor
  by_cases h : item.1 = a <;> simp [h]

theorem amountFor_nonneg (h : ∀ i ∈ items, 0 < (i.2 : Int)) (a : Address) :
    0 ≤ amountFor items a := by
  refine List.sum_nonneg fun x hx => ?_
  obtain ⟨i, hi, rfl⟩ := List.mem_map.1 hx
  exact (h i (List.mem_filter.1 hi).1).le

theorem le_amountFor (h : ∀ i ∈ items, 0 < (i.2 : Int)) :
    ∀ i ∈ items, i.2 ≤ amountFor items i.1 := by
  intro i hi
  refine List.single_le_sum (fun x hx => ?_) _ (List.mem_map.2 ⟨i, List.mem_filter.2 ⟨hi, by simp⟩, rfl⟩)
  obtain ⟨j, hj, rfl⟩ := List.mem_map.1 hx
  exact (h j (List.mem_filter.1 hj).1).le

/-- After one item of a list, what the rest adds up to with the new balance is what the whole list adds up
to with the old one. -/
theorem get_set_add_amountFor (c : CurrencyStore) (item : Address × I128) (items : List (Address × I128)) (a : Address)
    {v : I128} (hv : (v : Int) = c.get item.1 + item.2) :
    ((c.set item.1 v).get a : Int) + amountFor items a = c.get a + amountFor (item :: items) a := by
  rw [CurrencyStore.get_set, amountFor_cons]
  by_cases h : a = item.1
  · subst h; simp [hv, add_assoc]
  · simp [h, Ne.symm h]

/-- Positive credits succeed exactly when every recipient's final balance is representable. -/
theorem run_creditAll (m : Mode) : ∀ {items : List (Address × I128)} {c c' : CurrencyStore},
    (∀ i ∈ items, 0 < (i.2 : Int)) →
    ((c.creditAll items).run m = some c' ↔ (∀ a, c.get a + amountFor items a ≤ i128.max) ∧
      c' = c.adjusted (items.map fun i => (i.1, i.2.toInt)))
  | [], c, c', _ => by
    have hle : ∀ a, c.get a + amountFor [] a ≤ i128.max := fun a => by
      rw [amountFor, List.filter_nil, List.map_nil, List.sum_nil, add_zero]; exact (c.get a).hi
    simp [CurrencyStore.creditAll, CurrencyStore.adjusted, hle, eq_comm]
  | item :: items, c, c', hpos => by
    obtain ⟨hi, hrest⟩ := List.forall_mem_cons.1 hpos
    have hfits : i128.Fits (c.get item.1 + item.2) ↔ c.get item.1 + item.2 ≤ i128.max :=
      ⟨And.right, fun h => ⟨by have := (c.get item.1).lo; omega, h⟩⟩
    unfold CurrencyStore.creditAll
    rw [List.foldlM_cons, run_bind_iff]
    simp only [CurrencyStore.run_checkedAdd]
    constructor
    · rintro ⟨_, ⟨hf, rfl⟩, h⟩
      obtain ⟨hle, hc⟩ := (run_creditAll m hrest).1 h
      refine ⟨fun a => ?_, hc⟩
      rw [← get_set_add_amountFor c item items a (wrap_of_fits hf)]
      exact hle a
    · rintro ⟨hle, rfl⟩
      -- the recipient's later items only add to the balance, so this one fits too
      have hitem := hle item.1
      rw [amountFor_cons, if_pos rfl] at hitem
      have h0 := amountFor_nonneg hrest item.1
      have hf := hfits.2 (by omega)
      refine ⟨_, ⟨hf, rfl⟩, (run_creditAll m hrest).2 ⟨fun a => ?_, rfl⟩⟩
      rw [get_set_add_amountFor c item items a (wrap_of_fits hf)]
      exact hle a

/-- Unchecked debits always succeed. -/
theorem run_debitAll : ∀ (items : List (Address × I128)) (c : CurrencyStore),
    (c.debitAll items).run .wrapping = some (c.adjusted (items.map fun i => (i.1, -i.2.toInt)))
  | [], c => by simp [CurrencyStore.debitAll, CurrencyStore.adjusted]
  | item :: items, c => by
    unfold CurrencyStore.debitAll
    rw [List.foldlM_cons, run_bind]
    exact run_debitAll items _

theorem run_sumPositive_wrapping {total : I128} :
    (sumPositive amounts).run .wrapping = some total ↔
      (∀ a ∈ amounts, 0 < (a : Int)) ∧ total = i128.wrap (sumAmounts amounts) := by
  rw [run_sumPositive]
  exact and_congr_right fun _ => and_iff_left fun h => by cases h

/-! ## Mint -/

section Mint

variable {env : Env} {s s' : State} {recipients : List Address}

/-- Mint the items one after another. -/
def mintEach (env : Env) (s : State) (items : List (Address × I128)) : Result State :=
  items.foldlM (fun s item => mintCurrency env s item.1 item.2) s

/-- The state after minting items, however it was done. -/
def State.afterMint (s : State) (items : List (Address × I128)) : State :=
  { s with
    currency := { s.currency.adjusted (items.map fun i => (i.1, i.2.toInt)) with
      totalSupply := i128.wrap (getTotalCurrencySupply s + sumAmounts (items.map Prod.snd)) }
    analytics.totalCurrencyMinted :=
      i128.wrap (s.analytics.totalCurrencyMinted + sumAmounts (items.map Prod.snd)) }

theorem afterMint_nil (s : State) : s.afterMint [] = s := by
  simp [State.afterMint, CurrencyStore.adjusted]

theorem afterMint_cons (s : State) (item : Address × I128) (items : List (Address × I128)) :
    (s.afterMint [item]).afterMint items = s.afterMint (item :: items) := by
  unfold State.afterMint
  simp only [getTotalCurrencySupply, CurrencyStore.adjusted_withSupply, List.map_cons, List.map_nil, sumAmounts_cons,
    sumAmounts_nil, add_zero, wrap_wrap_add, add_assoc]
  rfl

/-- When a single mint succeeds. -/
structure MintAllowed (env : Env) (s : State) (item : Address × I128) : Prop where
  minter : MinterSigned env s
  positive : 0 < (item.2 : Int)
  recipient : item.1 ≠ env.currentContract
  limit : (getTotalCurrencySupply s : Int) + item.2 ≤ (getCurrencyConfig s).maxSupply
  room : (getCurrencyBalance s item.1 : Int) + item.2 ≤ i128.max

theorem run_mintCurrency (item : Address × I128) :
    (mintCurrency env s item.1 item.2).run .wrapping = some s' ↔ MintAllowed env s item ∧ s' = s.afterMint [item] := by
  unfold mintCurrency
  simp only [run_iff, run_requireAuthorizedMinter, run_validateAddress, checked_eq_some, run_unchecked_wrapping, not_le,
    gt_iff_lt, not_lt, CurrencyStore.run_checkedAdd]
  constructor
  · rintro ⟨-, hm, -, ha, -, hr, supply, hs, -, hle, _, ⟨hf, rfl⟩, _, rfl, rfl⟩
    refine ⟨⟨hm, ha, hr, hs ▸ hle, hf.2⟩, ?_⟩
    have : i128.wrap (getTotalCurrencySupply s + item.2) = supply := by rw [← hs, wrap_toInt]
    simp only [State.afterMint, List.map_cons, List.map_nil, sumAmounts_cons, sumAmounts_nil, add_zero, this]
    rfl
  · rintro ⟨⟨hm, ha, hr, hle, hroom⟩, rfl⟩
    have hfit : i128.Fits (getTotalCurrencySupply s + item.2) :=
      ⟨by have := (getTotalCurrencySupply s).lo; omega, hle.trans (getCurrencyConfig s).maxSupply.hi⟩
    have hbal : i128.Fits (getCurrencyBalance s item.1 + item.2) :=
      ⟨by have := (getCurrencyBalance s item.1).lo; omega, hroom⟩
    refine ⟨(), hm, (), ha, (), hr, _, wrap_of_fits hfit, (), ?_, _, ⟨hbal, rfl⟩, _, rfl, ?_⟩
    · rw [wrap_of_fits hfit]; exact hle
    · simp only [State.afterMint, List.map_cons, List.map_nil, sumAmounts_cons, sumAmounts_nil, add_zero]
      rfl

theorem getCurrencyBalance_afterMint (h : MintAllowed env s item)
    (items : List (Address × I128)) (a : Address) :
    (getCurrencyBalance (s.afterMint [item]) a : Int) + amountFor items a =
      getCurrencyBalance s a + amountFor (item :: items) a := by
  have hlo := (getCurrencyBalance s item.1).lo
  have hpos := h.positive
  have hfit : i128.Fits (getCurrencyBalance s item.1 + item.2) := ⟨by omega, h.room⟩
  exact get_set_add_amountFor s.currency item items a (wrap_of_fits hfit)

theorem getTotalCurrencySupply_afterMint (h : MintAllowed env s item) :
    (getTotalCurrencySupply (s.afterMint [item]) : Int) = getTotalCurrencySupply s + item.2 := by
  show ((i128.wrap (getTotalCurrencySupply s + sumAmounts [item.2]) : I128) : Int) = _
  rw [sumAmounts_cons, sumAmounts_nil, add_zero]
  have hlo := (getTotalCurrencySupply s).lo
  have hpos := h.positive
  exact wrap_of_fits ⟨by omega, h.limit.trans (getCurrencyConfig s).maxSupply.hi⟩

/-- Minting items one after another succeeds when the minter signed, the items are good, the whole sum
stays within the limit, and every recipient's final balance is representable. -/
theorem run_mintEach : ∀ {items : List (Address × I128)} {s s' : State},
    (mintEach env s items).run .wrapping = some s' ↔
      (items ≠ [] → MinterSigned env s ∧
        getTotalCurrencySupply s + sumAmounts (items.map Prod.snd) ≤ (getCurrencyConfig s).maxSupply) ∧
      (∀ i ∈ items, 0 < (i.2 : Int) ∧ i.1 ≠ env.currentContract) ∧
      (∀ a, getCurrencyBalance s a + amountFor items a ≤ i128.max) ∧ s' = s.afterMint items
  | [], s, s' => by
    have hle : ∀ a, getCurrencyBalance s a + amountFor [] a ≤ i128.max := fun a => by
      rw [amountFor, List.filter_nil, List.map_nil, List.sum_nil, add_zero]; exact (getCurrencyBalance s a).hi
    simp [mintEach, afterMint_nil, hle, eq_comm]
  | item :: items, s, s' => by
    unfold mintEach
    rw [List.foldlM_cons, run_bind_iff]
    simp only [run_mintCurrency]
    constructor
    · rintro ⟨_, ⟨hok, rfl⟩, h⟩
      obtain ⟨hlimit, hitems, hroom, rfl⟩ := run_mintEach.1 h
      refine ⟨fun _ => ⟨hok.minter, ?_⟩, List.forall_mem_cons.2 ⟨⟨hok.positive, hok.recipient⟩, hitems⟩, fun a => ?_,
        afterMint_cons s item items⟩
      · rw [List.map_cons, sumAmounts_cons, ← add_assoc, ← getTotalCurrencySupply_afterMint hok]
        -- after the last item the limit is that of the item itself
        by_cases hnil : items = []
        · subst hnil
          rw [List.map_nil, sumAmounts_nil, add_zero, getTotalCurrencySupply_afterMint hok]
          exact hok.limit
        · exact (hlimit hnil).2
      · rw [← getCurrencyBalance_afterMint hok]
        exact hroom a
    · rintro ⟨hlimit, hitems, hroom, rfl⟩
      obtain ⟨hm, hle⟩ := hlimit (List.cons_ne_nil _ _)
      obtain ⟨⟨hpos, hrec⟩, hrest⟩ := List.forall_mem_cons.1 hitems
      have hpos' : ∀ i ∈ items, 0 < (i.2 : Int) := fun i hi => (hrest i hi).1
      rw [List.map_cons, sumAmounts_cons, ← add_assoc] at hle
      have hsum : 0 ≤ sumAmounts (items.map Prod.snd) := sumAmounts_nonneg fun a ha => by
        obtain ⟨i, hi, rfl⟩ := List.mem_map.1 ha
        exact hpos' i hi
      have hitem := hroom item.1
      rw [amountFor_cons, if_pos rfl] at hitem
      have hfor := amountFor_nonneg hpos' item.1
      have hok : MintAllowed env s item := ⟨hm, hpos, hrec, by omega, by omega⟩
      refine ⟨_, ⟨hok, rfl⟩, run_mintEach.2 ⟨fun _ => ⟨hm, ?_⟩, hrest, fun a => ?_, (afterMint_cons s item items).symm⟩⟩
      · rw [getTotalCurrencySupply_afterMint hok]
        exact hle
      · rw [getCurrencyBalance_afterMint hok]
        exact hroom a

theorem run_validateBatchSize (m : Mode) (len : Nat) (u : Unit) :
    (validateBatchSize len).run m = some u ↔ 1 ≤ len ∧ len ≤ maxBatchSize := by
  unfold validateBatchSize
  simp only [run_iff, exists_const]
  omega

theorem forall_mem_zip_fst {α β : Type*} {P : α → Prop} {l : List α} {l' : List β} (h : l.length = l'.length) :
    (∀ i ∈ l.zip l', P i.1) ↔ ∀ a ∈ l, P a := by
  conv_rhs => rw [← List.map_fst_zip h.le]
  rw [List.forall_mem_map]

theorem forall_mem_zip_snd {α β : Type*} {P : β → Prop} {l : List α} {l' : List β} (h : l.length = l'.length) :
    (∀ i ∈ l.zip l', P i.2) ↔ ∀ b ∈ l', P b := by
  conv_rhs => rw [← List.map_snd_zip h.ge]
  rw [List.forall_mem_map]

/-- A batch mint checks the supply limit against the wrapped sum, and is otherwise the mints one after
another. -/
theorem run_batchMintCurrency {r : BatchResult}
    (hlen : recipients.length = amounts.length) (hsize : 1 ≤ amounts.length ∧ amounts.length ≤ maxBatchSize) :
    (batchMintCurrency env s recipients amounts).run .wrapping = some (r, s') ↔
      MinterSigned env s ∧ (∀ i ∈ recipients.zip amounts, 0 < (i.2 : Int) ∧ i.1 ≠ env.currentContract) ∧
      (∀ a, getCurrencyBalance s a + amountFor (recipients.zip amounts) a ≤ i128.max) ∧
      (i128.Fits (getTotalCurrencySupply s + i128.wrap (sumAmounts amounts)) ∧
        (getTotalCurrencySupply s : Int) + i128.wrap (sumAmounts amounts) ≤ (getCurrencyConfig s).maxSupply) ∧
      r = ⟨recipients.length, i128.wrap (sumAmounts amounts)⟩ ∧ s' = s.afterMint (recipients.zip amounts) := by
  have hitems : (∀ i ∈ recipients.zip amounts, 0 < (i.2 : Int) ∧ i.1 ≠ env.currentContract) ↔
      (∀ a ∈ amounts, 0 < (a : Int)) ∧ ∀ a ∈ recipients, a ≠ env.currentContract := by
    rw [forall₂_and]
    exact and_congr (forall_mem_zip_snd (P := fun b : I128 => 0 < (b : Int)) hlen)
      (forall_mem_zip_fst (P := (· ≠ env.currentContract)) hlen)
  -- wrapping the sum first changes nothing in the wrapped supply and minted total
  have hafter : s.afterMint (recipients.zip amounts) =
      { s with
        currency := { s.currency.adjusted ((recipients.zip amounts).map fun i => (i.1, i.2.toInt)) with
          totalSupply := i128.wrap (getTotalCurrencySupply s + i128.wrap (sumAmounts amounts)) }
        analytics.totalCurrencyMinted :=
          i128.wrap (s.analytics.totalCurrencyMinted + i128.wrap (sumAmounts amounts)) } := by
    simp only [State.afterMint, List.map_snd_zip hlen.ge, IntType.wrap_add_wrap]
  unfold batchMintCurrency validateMatchingLengths
  simp only [run_iff, run_requireAuthorizedMinter, run_validateBatchSize, run_sumPositive_wrapping, run_forM,
    run_validateAddress,
    checked_eq_some, run_unchecked_wrapping, Prod.mk.injEq, gt_iff_lt, not_lt, not_not, exists_const]
  rw [hitems]
  constructor
  · rintro ⟨hm, -, -, _, ⟨hpos, rfl⟩, hrec, supply, hs, hle, c, hc, _, rfl, _, rfl, rfl, rfl⟩
    obtain ⟨hroom, rfl⟩ := (run_creditAll .wrapping ((forall_mem_zip_snd hlen).2 hpos)).1 hc
    exact ⟨hm, ⟨hpos, hrec⟩, hroom, ⟨hs ▸ supply.fits, hs ▸ hle⟩, rfl, hafter.symm⟩
  · rintro ⟨hm, ⟨hpos, hrec⟩, hroom, ⟨hfit, hle⟩, rfl, rfl⟩
    have hs := wrap_of_fits hfit
    exact ⟨hm, hlen ▸ hsize, hlen, _, ⟨hpos, rfl⟩, hrec, _, hs, hs.le.trans hle, _,
      (run_creditAll .wrapping ((forall_mem_zip_snd hlen).2 hpos)).2 ⟨hroom, rfl⟩, _, rfl, _, rfl, rfl,
      hafter.symm⟩

/-- The checks on the items of several mints, the supply limit apart. -/
structure ItemsMintable (env : Env) (s : State) (items : List (Address × I128)) : Prop where
  minter : MinterSigned env s
  item : ∀ i ∈ items, 0 < (i.2 : Int) ∧ i.1 ≠ env.currentContract
  room : ∀ a, (getCurrencyBalance s a : Int) + amountFor items a ≤ i128.max

/-- A batch mint and the same mints one after another both succeed or both fail, and leave the same
balances, supply and minted total. -/
structure BatchMintAgrees (env : Env) (s : State) (recipients : List Address) (amounts : List I128) : Prop where
  success : ((batchMintCurrency env s recipients amounts).run .wrapping).isSome ↔
    ((mintEach env s (recipients.zip amounts)).run .wrapping).isSome
  result : ∀ {r s₁ s₂}, (batchMintCurrency env s recipients amounts).run .wrapping = some (r, s₁) →
    (mintEach env s (recipients.zip amounts)).run .wrapping = some s₂ →
    (∀ a, getCurrencyBalance s₁ a = getCurrencyBalance s₂ a) ∧
      getTotalCurrencySupply s₁ = getTotalCurrencySupply s₂ ∧
      s₁.analytics.totalCurrencyMinted = s₂.analytics.totalCurrencyMinted

theorem sumAmounts_pos (h : ∀ i ∈ items, 0 < (i.2 : Int)) :
    0 ≤ sumAmounts (items.map Prod.snd) :=
  sumAmounts_nonneg (List.forall_mem_map.2 h)

theorem batchMintAgrees_iff (hlen : recipients.length = amounts.length)
    (hsize : 1 ≤ amounts.length ∧ amounts.length ≤ maxBatchSize) :
    BatchMintAgrees env s recipients amounts ↔ (ItemsMintable env s (recipients.zip amounts) →
      ((i128.Fits (getTotalCurrencySupply s + i128.wrap (sumAmounts amounts)) ∧
          (getTotalCurrencySupply s : Int) + i128.wrap (sumAmounts amounts) ≤ (getCurrencyConfig s).maxSupply) ↔
        getTotalCurrencySupply s + sumAmounts amounts ≤ (getCurrencyConfig s).maxSupply)) := by
  have hsnd : (recipients.zip amounts).map Prod.snd = amounts := List.map_snd_zip hlen.ge
  have hne : recipients.zip amounts ≠ [] := by
    rintro h
    rw [h] at hsnd
    simp [← hsnd] at hsize
  have hbatch : ((batchMintCurrency env s recipients amounts).run .wrapping).isSome ↔
      ItemsMintable env s (recipients.zip amounts) ∧
        i128.Fits (getTotalCurrencySupply s + i128.wrap (sumAmounts amounts)) ∧
        (getTotalCurrencySupply s : Int) + i128.wrap (sumAmounts amounts) ≤ (getCurrencyConfig s).maxSupply := by
    rw [Option.isSome_iff_exists, Prod.exists]
    simp only [run_batchMintCurrency hlen hsize]
    exact ⟨fun ⟨_, _, hm, hi, hr, hl, _⟩ => ⟨⟨hm, hi, hr⟩, hl⟩,
      fun ⟨⟨hm, hi, hr⟩, hl⟩ => ⟨_, _, hm, hi, hr, hl, rfl, rfl⟩⟩
  have heach : ((mintEach env s (recipients.zip amounts)).run .wrapping).isSome ↔
      ItemsMintable env s (recipients.zip amounts) ∧
        getTotalCurrencySupply s + sumAmounts amounts ≤ (getCurrencyConfig s).maxSupply := by
    rw [Option.isSome_iff_exists]
    simp only [run_mintEach, hsnd]
    exact ⟨fun ⟨_, hl, hi, hr, _⟩ => ⟨⟨(hl hne).1, hi, hr⟩, (hl hne).2⟩,
      fun ⟨⟨hm, hi, hr⟩, hl⟩ => ⟨_, fun _ => ⟨hm, hl⟩, hi, hr, rfl⟩⟩
  constructor
  · intro h hgood
    have := h.success
    rw [hbatch, heach] at this
    simpa only [hgood, true_and] using this
  · refine fun h => ⟨by rw [hbatch, heach]; exact and_congr_right h, fun h₁ h₂ => ?_⟩
    obtain ⟨-, -, -, -, -, rfl⟩ := (run_batchMintCurrency hlen hsize).1 h₁
    obtain ⟨-, -, -, rfl⟩ := run_mintEach.1 h₂
    exact ⟨fun _ => rfl, rfl, rfl⟩

/-- A batch mint agrees with the mints one after another exactly when the sum of the amounts is
representable, or the items are refused anyway, or both the true and the wrapped sum break the limit. -/
theorem batchMint_agrees_iff_sum_representable {recipients : List Address} {amounts : List I128}
    (hlen : recipients.length = amounts.length) (hsize : 1 ≤ amounts.length ∧ amounts.length ≤ maxBatchSize) :
    BatchMintAgrees env s recipients amounts ↔
      sumAmounts amounts ≤ i128.max ∨ ¬ ItemsMintable env s (recipients.zip amounts) ∨
      ((getCurrencyConfig s).maxSupply : Int) < getTotalCurrencySupply s + sumAmounts amounts ∧
        ((getTotalCurrencySupply s : Int) + i128.wrap (sumAmounts amounts) < i128.min ∨
          ((getCurrencyConfig s).maxSupply : Int) < getTotalCurrencySupply s + i128.wrap (sumAmounts amounts)) := by
  rw [batchMintAgrees_iff hlen hsize]
  have hmax := (getCurrencyConfig s).maxSupply.hi
  have hlo := (getTotalCurrencySupply s).lo
  by_cases hgood : ItemsMintable env s (recipients.zip amounts)
  · simp only [hgood, true_imp_iff, not_true_eq_false, false_or]
    rcases le_or_gt (sumAmounts amounts) i128.max with hsum | hsum
    · have h0 := sumAmounts_pos fun i hi => (hgood.item i hi).1
      rw [List.map_snd_zip hlen.ge] at h0
      have hw := wrap_of_fits (t := i128) (x := sumAmounts amounts) ⟨by rw [i128_min]; omega, hsum⟩
      rw [hw]
      exact ⟨fun _ => .inl hsum, fun _ => ⟨And.right, fun h => ⟨⟨by omega, h.trans hmax⟩, h⟩⟩⟩
    · -- the wrapped sum is so far below that the two limits cannot both be met
      have hw := IntType.wrap_le_of_lt hsum
      simp only [IntType.Fits, not_le.2 hsum, false_or]
      rw [i128_min, i128_max] at *
      omega
  · simp [hgood]

theorem batchMint_agrees_small :
    ((batchMintCurrency (signedAt 1) (deployed 1000 0) [alice, bob, alice]
      [10, 20, 30]).run .wrapping).isSome ∧
    BatchMintAgrees (signedAt 1) (deployed 1000 0) [alice, bob, alice] [10, 20, 30] :=
  ⟨by decide +kernel,
    (batchMint_agrees_iff_sum_representable (by decide) (by decide)).2 (.inl (by decide +kernel))⟩

/-- Amounts that add up to `2^128 + 1` pass the batch's limit as a single unit, where the mints one after
another stop at the second one. -/
theorem batchMint_wraps_past_limit :
    ((batchMintCurrency (signedAt 1) (deployed (2 ^ 127 - 1) 0) [alice, bob, carol]
      [i128.wrap (2 ^ 127 - 1), i128.wrap (2 ^ 127 - 1), 3]).run .wrapping).isSome ∧
    (mintEach (signedAt 1) (deployed (2 ^ 127 - 1) 0) ([alice, bob, carol].zip
      [i128.wrap (2 ^ 127 - 1), i128.wrap (2 ^ 127 - 1), 3])).run .wrapping = none ∧
    ¬ BatchMintAgrees (signedAt 1) (deployed (2 ^ 127 - 1) 0) [alice, bob, carol]
      [i128.wrap (2 ^ 127 - 1), i128.wrap (2 ^ 127 - 1), 3] := by
  have hbatch : ((batchMintCurrency (signedAt 1) (deployed (2 ^ 127 - 1) 0) [alice, bob, carol]
      [i128.wrap (2 ^ 127 - 1), i128.wrap (2 ^ 127 - 1), 3]).run .wrapping).isSome := by decide +kernel
  have heach : (mintEach (signedAt 1) (deployed (2 ^ 127 - 1) 0) ([alice, bob, carol].zip
      [i128.wrap (2 ^ 127 - 1), i128.wrap (2 ^ 127 - 1), 3])).run .wrapping = none :=
    Option.isNone_iff_eq_none.1 (by decide +kernel)
  refine ⟨hbatch, heach, fun h => ?_⟩
  have hsome := h.success.1 hbatch
  rw [heach] at hsome
  cases hsome

end Mint

/-! ## Burn -/

section Burn

variable {env : Env} {s s' : State} {owners : List Address}

/-- Burn the items one after another. -/
def burnEach (env : Env) (s : State) (items : List (Address × I128)) : Result State :=
  items.foldlM (fun s item => burnCurrency env s item.1 item.2) s

/-- The state after burning items, however it was done. -/
def State.afterBurn (s : State) (items : List (Address × I128)) : State :=
  { s with
    currency := { s.currency.adjusted (items.map fun i => (i.1, -i.2.toInt)) with
      totalSupply := i128.wrap (getTotalCurrencySupply s - sumAmounts (items.map Prod.snd)) }
    analytics.totalCurrencyBurned :=
      i128.wrap (s.analytics.totalCurrencyBurned + sumAmounts (items.map Prod.snd)) }

theorem afterBurn_nil (s : State) : s.afterBurn [] = s := by
  simp [State.afterBurn, CurrencyStore.adjusted]

theorem afterBurn_cons (s : State) (item : Address × I128) (items : List (Address × I128)) :
    (s.afterBurn [item]).afterBurn items = s.afterBurn (item :: items) := by
  unfold State.afterBurn
  simp only [getTotalCurrencySupply, CurrencyStore.adjusted_withSupply, List.map_cons, List.map_nil, sumAmounts_cons,
    sumAmounts_nil, add_zero, wrap_wrap_add, IntType.wrap_wrap_sub, add_assoc, sub_sub]
  rfl

/-- When a single burn succeeds. -/
structure BurnAllowed (env : Env) (s : State) (item : Address × I128) : Prop where
  signer : item.1 ∈ env.signers
  owner : item.1 ≠ env.currentContract
  positive : 0 < (item.2 : Int)
  funds : (item.2 : Int) ≤ getCurrencyBalance s item.1
  supply : i128.min ≤ (getTotalCurrencySupply s : Int) - item.2

theorem run_burnCurrency (item : Address × I128) :
    (burnCurrency env s item.1 item.2).run .wrapping = some s' ↔ BurnAllowed env s item ∧ s' = s.afterBurn [item] := by
  unfold burnCurrency
  simp only [run_iff, run_requireAuth, run_validateAddress, checked_eq_some, run_unchecked_wrapping, not_le, not_lt]
  constructor
  · rintro ⟨-, hs, -, ho, -, ha, -, hb, balance, hbal, supply, hsup, _, rfl, rfl⟩
    refine ⟨⟨hs, ho, ha, hb, hsup ▸ supply.lo⟩, ?_⟩
    have hb' : i128.wrap (getCurrencyBalance s item.1 + -item.2) = balance := by
      rw [← sub_eq_add_neg, ← hbal, wrap_toInt]
    have hs' : i128.wrap (getTotalCurrencySupply s - item.2) = supply := by rw [← hsup, wrap_toInt]
    simp only [State.afterBurn, List.map_cons, List.map_nil, sumAmounts_cons, sumAmounts_nil, add_zero, hs',
      CurrencyStore.adjusted, List.foldl_cons, List.foldl_nil, hb']
  · rintro ⟨⟨hs, ho, ha, hb, hsup⟩, rfl⟩
    have hfit : i128.Fits (getTotalCurrencySupply s - item.2) :=
      ⟨hsup, by have := (getTotalCurrencySupply s).hi; omega⟩
    have hbal : i128.Fits (getCurrencyBalance s item.1 - item.2) :=
      ⟨by rw [i128_min]; omega, by have := (getCurrencyBalance s item.1).hi; omega⟩
    refine ⟨(), hs, (), ho, (), ha, (), hb, _, wrap_of_fits hbal, _, wrap_of_fits hfit, _,
      rfl, ?_⟩
    simp only [State.afterBurn, List.map_cons, List.map_nil, sumAmounts_cons, sumAmounts_nil, add_zero,
      CurrencyStore.adjusted, List.foldl_cons, List.foldl_nil, ← sub_eq_add_neg]

theorem getCurrencyBalance_afterBurn (h : BurnAllowed env s item) (a : Address) :
    (getCurrencyBalance (s.afterBurn [item]) a : Int) = getCurrencyBalance s a - if item.1 =
      a then (item.2 : Int) else 0 := by
  have hfit : i128.Fits (getCurrencyBalance s item.1 + -item.2) := by
    have hpos := h.positive
    have hle := h.funds
    have hhi := (getCurrencyBalance s item.1).hi
    exact ⟨by rw [i128_min]; omega, by omega⟩
  show ((s.currency.set item.1 _).get a : Int) = _
  rw [CurrencyStore.get_set]
  by_cases ha : a = item.1
  · subst ha
    rw [if_pos rfl, if_pos rfl, wrap_of_fits hfit, ← sub_eq_add_neg]
  · rw [if_neg ha, if_neg (Ne.symm ha), sub_zero]

theorem getTotalCurrencySupply_afterBurn (h : BurnAllowed env s item) :
    (getTotalCurrencySupply (s.afterBurn [item]) : Int) = getTotalCurrencySupply s - item.2 := by
  show ((i128.wrap (getTotalCurrencySupply s - sumAmounts [item.2]) : I128) : Int) = _
  rw [sumAmounts_cons, sumAmounts_nil, add_zero]
  have hhi := (getTotalCurrencySupply s).hi
  have hpos := h.positive
  exact wrap_of_fits ⟨h.supply, by omega⟩

/-- Every address the items debit can pay all of them. -/
def Affordable (s : State) (items : List (Address × I128)) : Prop :=
  ∀ a, 0 < amountFor items a → amountFor items a ≤ getCurrencyBalance s a

theorem affordable_cons (h : BurnAllowed env s item) :
    Affordable s (item :: items) ↔ Affordable (s.afterBurn [item]) items := by
  refine forall_congr' fun a => ?_
  have hfunds := h.funds
  have hitem := h.positive
  rw [amountFor_cons, getCurrencyBalance_afterBurn h]
  by_cases ha : item.1 = a
  · subst ha
    omega
  · rw [if_neg ha]
    omega

/-- Burning items one after another succeeds when every owner signed and can pay all the owner's items, and
the supply stays representable. -/
theorem run_burnEach : ∀ {items : List (Address × I128)} {s s' : State},
    (burnEach env s items).run .wrapping = some s' ↔
      (∀ i ∈ items, i.1 ∈ env.signers ∧ i.1 ≠ env.currentContract ∧ 0 < (i.2 : Int)) ∧ Affordable s items ∧
      i128.min ≤ getTotalCurrencySupply s - sumAmounts (items.map Prod.snd) ∧ s' = s.afterBurn items
  | [], s, s' => by
    have hlo := (getTotalCurrencySupply s).lo
    simp [burnEach, afterBurn_nil, eq_comm, Affordable, amountFor, hlo]
  | item :: items, s, s' => by
    unfold burnEach
    rw [List.foldlM_cons, run_bind_iff]
    simp only [run_burnCurrency]
    rw [List.map_cons, sumAmounts_cons, ← sub_sub]
    constructor
    · rintro ⟨_, ⟨hok, rfl⟩, h⟩
      obtain ⟨hitems, hfunds, hlimit, rfl⟩ := run_burnEach.1 h
      rw [getTotalCurrencySupply_afterBurn hok] at hlimit
      exact ⟨List.forall_mem_cons.2 ⟨⟨hok.signer, hok.owner, hok.positive⟩, hitems⟩,
        (affordable_cons hok).2 hfunds, hlimit, afterBurn_cons s item items⟩
    · rintro ⟨hitems, hfunds, hlimit, rfl⟩
      obtain ⟨⟨hsigner, howner, hpos⟩, hrest⟩ := List.forall_mem_cons.1 hitems
      have hpos' : ∀ i ∈ items, 0 < (i.2 : Int) := fun i hi => (hrest i hi).2.2
      have hsum := sumAmounts_pos hpos'
      -- the owner's balance covers this item and the owner's later ones together
      have hfirst := hfunds item.1
      rw [amountFor_cons, if_pos rfl] at hfirst
      have hnonneg := amountFor_nonneg hpos' item.1
      have hok : BurnAllowed env s item := ⟨hsigner, howner, hpos, by omega, by omega⟩
      refine ⟨_, ⟨hok, rfl⟩, run_burnEach.2 ⟨hrest, (affordable_cons hok).1 hfunds, ?_,
        (afterBurn_cons s item items).symm⟩⟩
      rw [getTotalCurrencySupply_afterBurn hok]
      exact hlimit

/-- For positive items it is enough to look at the owners listed. -/
theorem affordable_iff (hpos : ∀ i ∈ items, 0 < (i.2 : Int)) :
    Affordable s items ↔ ∀ i ∈ items, amountFor items i.1 ≤ getCurrencyBalance s i.1 := by
  constructor
  · intro h i hi
    exact h i.1 ((hpos i hi).trans_le (le_amountFor hpos i hi))
  · intro h a ha
    by_cases hex : ∃ i ∈ items, i.1 = a
    · obtain ⟨i, hi, rfl⟩ := hex
      exact h i hi
    · have hnil : items.filter (·.1 = a) = [] := List.filter_eq_nil_iff.2 fun i hi => by
        simpa using fun h => hex ⟨i, hi, h⟩
      rw [amountFor, hnil] at ha
      cases ha

/-- A batch burn checks every item against the balances before the batch. -/
theorem run_batchBurnCurrency {r : BatchResult}
    (hlen : owners.length = amounts.length) (hsize : 1 ≤ amounts.length ∧ amounts.length ≤ maxBatchSize) :
    (batchBurnCurrency env s owners amounts).run .wrapping = some (r, s') ↔
      (∀ i ∈ owners.zip amounts, i.1 ∈ env.signers ∧ 0 < (i.2 : Int) ∧ (i.2 : Int) ≤ getCurrencyBalance s i.1) ∧
      r = ⟨owners.length, i128.wrap (sumAmounts amounts)⟩ ∧ s' = s.afterBurn (owners.zip amounts) := by
  have hafter : s.afterBurn (owners.zip amounts) =
      { s with
        currency := { s.currency.adjusted ((owners.zip amounts).map fun i => (i.1, -i.2.toInt)) with
          totalSupply := i128.wrap (getTotalCurrencySupply s - i128.wrap (sumAmounts amounts)) }
        analytics.totalCurrencyBurned :=
          i128.wrap (s.analytics.totalCurrencyBurned + i128.wrap (sumAmounts amounts)) } := by
    simp only [State.afterBurn, List.map_snd_zip hlen.ge, IntType.wrap_add_wrap, IntType.wrap_sub_wrap]
  unfold batchBurnCurrency validateMatchingLengths
  simp only [run_iff, run_validateBatchSize, run_forM, run_requireAuth, run_sumPositive_wrapping, run_debitAll,
    run_unchecked_wrapping, run_pure, Option.some.injEq, Prod.mk.injEq, not_le, not_lt, not_not, exists_const]
  constructor
  · rintro ⟨-, -, hitems, _, ⟨-, rfl⟩, _, rfl, _, rfl, _, rfl, rfl, rfl⟩
    exact ⟨hitems, rfl, hafter.symm⟩
  · rintro ⟨hitems, rfl, rfl⟩
    have hpos := (forall_mem_zip_snd (P := fun b : I128 => 0 < (b : Int)) hlen).1 fun i hi => (hitems i hi).2.1
    exact ⟨hlen ▸ hsize, hlen, hitems, _, ⟨hpos, rfl⟩, _, rfl, _, rfl, _, rfl, rfl, hafter.symm⟩

/-- A batch burn and the same burns one after another both succeed or both fail, and leave the same
balances, supply and burned total. -/
structure BatchBurnAgrees (env : Env) (s : State) (owners : List Address) (amounts : List I128) : Prop where
  success : ((batchBurnCurrency env s owners amounts).run .wrapping).isSome ↔
    ((burnEach env s (owners.zip amounts)).run .wrapping).isSome
  result : ∀ {r s₁ s₂}, (batchBurnCurrency env s owners amounts).run .wrapping = some (r, s₁) →
    (burnEach env s (owners.zip amounts)).run .wrapping = some s₂ →
    (∀ a, getCurrencyBalance s₁ a = getCurrencyBalance s₂ a) ∧
      getTotalCurrencySupply s₁ = getTotalCurrencySupply s₂ ∧
      s₁.analytics.totalCurrencyBurned = s₂.analytics.totalCurrencyBurned

/-- Every item of a batch burn passes on the balances before the batch. -/
def ItemsBurnable (env : Env) (s : State) (items : List (Address × I128)) : Prop :=
  ∀ i ∈ items, i.1 ∈ env.signers ∧ 0 < (i.2 : Int) ∧ (i.2 : Int) ≤ getCurrencyBalance s i.1

/-- The burns of the items pass one after another. -/
structure ItemsBurnableInTurn (env : Env) (s : State) (items : List (Address × I128)) : Prop where
  item : ∀ i ∈ items, i.1 ∈ env.signers ∧ i.1 ≠ env.currentContract ∧ 0 < (i.2 : Int)
  funds : Affordable s items
  supply : i128.min ≤ getTotalCurrencySupply s - sumAmounts (items.map Prod.snd)

/-- What passes one after another passes as a batch. -/
theorem ItemsBurnableInTurn.burnable (h : ItemsBurnableInTurn env s items) :
    ItemsBurnable env s items := by
  have hpos : ∀ i ∈ items, 0 < (i.2 : Int) := fun i hi => (h.item i hi).2.2
  intro i hi
  exact ⟨(h.item i hi).1, hpos i hi, (le_amountFor hpos i hi).trans ((affordable_iff hpos).1 h.funds i hi)⟩

theorem isSome_batchBurnCurrency
    (hlen : owners.length = amounts.length) (hsize : 1 ≤ amounts.length ∧ amounts.length ≤ maxBatchSize) :
    ((batchBurnCurrency env s owners amounts).run .wrapping).isSome ↔ ItemsBurnable env s (owners.zip amounts) := by
  rw [Option.isSome_iff_exists, Prod.exists]
  simp only [run_batchBurnCurrency hlen hsize]
  exact ⟨fun ⟨_, _, h, _⟩ => h, fun h => ⟨_, _, h, rfl, rfl⟩⟩

theorem isSome_burnEach : ((burnEach env s items).run .wrapping).isSome ↔ ItemsBurnableInTurn env s items := by
  rw [Option.isSome_iff_exists]
  simp only [run_burnEach]
  exact ⟨fun ⟨_, hi, ha, hl, _⟩ => ⟨hi, ha, hl⟩, fun ⟨hi, ha, hl⟩ => ⟨_, hi, ha, hl, rfl⟩⟩

/-- Where both ways succeed they leave the same state, so agreement is about success alone. -/
theorem batchBurnAgrees_iff
    (hlen : owners.length = amounts.length) (hsize : 1 ≤ amounts.length ∧ amounts.length ≤ maxBatchSize) :
    BatchBurnAgrees env s owners amounts ↔
      (ItemsBurnable env s (owners.zip amounts) → ItemsBurnableInTurn env s (owners.zip amounts)) := by
  rw [← isSome_batchBurnCurrency hlen hsize, ← isSome_burnEach]
  constructor
  · exact fun h => h.success.1
  · refine fun h => ⟨⟨h, fun h' => ?_⟩, fun h₁ h₂ => ?_⟩
    · exact (isSome_batchBurnCurrency hlen hsize).2 (isSome_burnEach.1 h').burnable
    · obtain ⟨-, -, rfl⟩ := (run_batchBurnCurrency hlen hsize).1 h₁
      obtain ⟨-, -, -, rfl⟩ := run_burnEach.1 h₂
      exact ⟨fun _ => rfl, rfl, rfl⟩

/-- A batch burn agrees with the burns one after another exactly when an item is refused on the balances
before the batch, or every owner, none of them the contract, can pay all the owner's items and the supply
stays representable. -/
theorem batchBurn_agrees_iff_owners_afford {owners : List Address} {amounts : List I128}
    (hlen : owners.length = amounts.length) (hsize : 1 ≤ amounts.length ∧ amounts.length ≤ maxBatchSize) :
    BatchBurnAgrees env s owners amounts ↔
      (∃ i ∈ owners.zip amounts, i.1 ∉ env.signers ∨ (i.2 : Int) ≤ 0 ∨ (getCurrencyBalance s i.1 : Int) < i.2) ∨
      (∀ i ∈ owners.zip amounts,
        i.1 ≠ env.currentContract ∧ amountFor (owners.zip amounts) i.1 ≤ getCurrencyBalance s i.1) ∧
        i128.min ≤ getTotalCurrencySupply s - sumAmounts amounts := by
  rw [batchBurnAgrees_iff hlen hsize]
  have hsnd : (owners.zip amounts).map Prod.snd = amounts := List.map_snd_zip hlen.ge
  constructor
  · intro h
    by_cases hall : ItemsBurnable env s (owners.zip amounts)
    · obtain ⟨hitems, hfunds, hlimit⟩ := h hall
      have hle := (affordable_iff fun i hi => (hitems i hi).2.2).1 hfunds
      exact .inr ⟨fun i hi => ⟨(hitems i hi).2.1, hle i hi⟩, hsnd ▸ hlimit⟩
    · unfold ItemsBurnable at hall
      push Not at hall
      obtain ⟨i, hi, hbad⟩ := hall
      refine .inl ⟨i, hi, ?_⟩
      rw [or_iff_not_imp_left, or_iff_not_imp_left, not_not, not_le]
      exact hbad
  · rintro (⟨i, hi, hbad⟩ | ⟨hitems, hlimit⟩) hall
    · obtain ⟨hsigner, hpos, hle⟩ := hall i hi
      rcases hbad with hbad | hbad | hbad
      · exact absurd hsigner hbad
      · omega
      · omega
    · exact ⟨fun i hi => ⟨(hall i hi).1, (hitems i hi).1, (hall i hi).2.1⟩,
        (affordable_iff fun i hi => (hall i hi).2.1).2 fun i hi => (hitems i hi).2, hsnd.symm ▸ hlimit⟩

/-- Alice and Bob hold 100 each. -/
def funded : State :=
  { deployed 1000 0 with
    currency.balance := ((∅ : Table Address I128).set alice 100).set bob 100
    currency.totalSupply := i128.wrap 200 }

theorem batchBurn_agrees_small :
    ((batchBurnCurrency (signedAt 1) funded [alice, bob, alice]
      [30, 20, 70]).run .wrapping).isSome ∧
    BatchBurnAgrees (signedAt 1) funded [alice, bob, alice] [30, 20, 70] :=
  ⟨by decide +kernel, (batchBurn_agrees_iff_owners_afford (by decide) (by decide)).2 (.inr (by decide +kernel))⟩

/-- One owner listed twice is checked twice against the same balance. -/
theorem batchBurn_repeated_owner :
    ((batchBurnCurrency (signedAt 1) funded [alice, alice] [100, 100]).run .wrapping).isSome ∧
    (burnEach (signedAt 1) funded ([alice, alice].zip [100, 100])).run .wrapping = none ∧
    ¬ BatchBurnAgrees (signedAt 1) funded [alice, alice] [100, 100] := by
  have hbatch : ((batchBurnCurrency (signedAt 1) funded [alice, alice]
      [100, 100]).run .wrapping).isSome := by decide +kernel
  have heach : (burnEach (signedAt 1) funded ([alice, alice].zip [100, 100])).run .wrapping = none :=
    Option.isNone_iff_eq_none.1 (by decide +kernel)
  refine ⟨hbatch, heach, fun h => ?_⟩
  have hsome := h.success.1 hbatch
  rw [heach] at hsome
  cases hsome

end Burn

end ArenaX.VirtualEconomy
