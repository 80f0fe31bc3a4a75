/-
Batch minting against minting the entries one after another. Both issue the same amounts to the same addresses
and refuse alike, except that only single mints record voting power.
-/
import ArenaX.AxToken.Checkpoints

namespace ArenaX.AxToken

open Machine Exec Sample
open Host (Address)

/-- What a list of entries pays to one address. -/
def amountTo (entries : List (Address × I128)) (a : Address) : ℤ :=
  ((entries.filter (·.1 = a)).map fun e => (e.2 : ℤ)).sum

theorem credits_apply (entries : List (Address × I128)) (a : Address) : credits entries a = amountTo entries a :=
  payments_apply a entries

theorem credits_nonneg {entries : List (Address × I128)} (h : ∀ e ∈ entries, 0 < (e.2 : ℤ)) : 0 ≤ credits entries :=
  payments_nonneg fun e he => (h e he).le

/-! ## The batch -/

section Batch

variable {m : Mode} {env : Env} {s s' : State}

/-- Merging keeps the total and, per address, the sum of what has been merged. -/
theorem mergeEntries_spec : ∀ {entries : List (Address × I128)} {acc r : Table Address I128 × I128},
    (entries.foldlM mergeEntry acc).run m = some r →
      (∀ e ∈ entries, 0 < (e.2 : ℤ)) ∧ r.2 = acc.2 + totalAmount entries ∧
      ledger r.1 = ledger acc.1 + credits entries
  | [], acc, r, h => by
    rw [List.foldlM_nil, run_pure] at h
    cases h
    simp [totalAmount, credits, payments]
  | e :: entries, acc, r, h => by
    rw [List.foldlM_cons, run_bind] at h
    obtain ⟨acc', hstep, h⟩ := Option.bind_eq_some_iff.1 h
    obtain ⟨hpos, htotal, hledger⟩ := mergeEntries_spec h
    simp only [mergeEntry, run_iff, checked_eq_some, not_le] at hstep
    obtain ⟨-, he, total, ht, delta, hd, rfl⟩ := hstep
    refine ⟨List.forall_mem_cons.2 ⟨he, hpos⟩, ?_, ?_⟩
    · rw [htotal, ht, totalAmount, totalAmount, List.map_cons, List.sum_cons, add_assoc]
    · rw [hledger, ledger_set_add hd, credits, credits, payments, add_assoc]

theorem creditLoop_spec {delta : Address → I128} : ∀ {l : List Address} {b r : Table Address I128},
    (l.foldlM (fun b a => creditChecked b a (delta a)) b).run m = some r →
      ledger r = ledger b + payments id (fun a => delta a) l
  | [], b, r, h => by
    rw [List.foldlM_nil, run_pure] at h
    cases h
    simp [payments]
  | a :: l, b, r, h => by
    rw [List.foldlM_cons, run_bind] at h
    obtain ⟨b', hstep, h⟩ := Option.bind_eq_some_iff.1 h
    obtain ⟨y, hy, rfl⟩ := (run_creditChecked m b b' a (delta a)).1 hstep
    rw [creditLoop_spec h, ledger_set_add hy, payments, add_assoc, id]

/-- A batch pays each entry and issues the total, within the cap, and leaves everything else as it was. -/
theorem batchMint_spec {recipients : List Address} {amounts : List I128}
    (h : (batchMint env s recipients amounts).run m = some s') :
    env.AdminSigned s.admin ∧ recipients.length = amounts.length ∧ recipients ≠ [] ∧
      (∀ e ∈ recipients.zip amounts, 0 < (e.2 : ℤ)) ∧ ∃ b supply,
      s' = { s with token.balance := b, token.totalSupply := supply } ∧
      ledger b = ledger s.token.balance + credits (recipients.zip amounts) ∧
      supply = s.totalSupply + totalAmount (recipients.zip amounts) ∧
      (0 < (s.getSupplyCap : ℤ) → (supply : ℤ) ≤ s.getSupplyCap) := by
  simp only [batchMint, run_iff, run_requireAdmin, run_issueSupply, ne_eq, not_not] at h
  obtain ⟨-, hadmin, -, hlen, -, hne, merged, hmerge, _, ⟨hsupply, hcap⟩, _, hloop, rfl⟩ := h
  obtain ⟨hpos, htotal, hledger⟩ := mergeEntries_spec hmerge
  simp only [ledger_empty, zero_add] at hledger
  refine ⟨hadmin, hlen, hne, hpos, _, _, rfl, ?_, ?_, hcap⟩
  · rw [creditLoop_spec hloop]
    -- the merged deltas are the credits, and their keys are the distinct recipients
    have hself := payments_eq_self (f := credits (recipients.zip amounts)) recipients.nodup_dedup fun a ha => ?_
    · rw [← hledger] at hself ⊢
      exact congrArg _ hself
    · refine payments_apply_eq_zero fun e he hea => ha (List.mem_dedup.2 ?_)
      exact hea ▸ (List.of_mem_zip he).1
  · rw [hsupply, htotal]
    simp

end Batch

/-! ## One after another -/

/-- Mint the entries one after another. -/
def mintAll (env : Env) (s : State) (entries : List (Address × I128)) : Result State :=
  entries.foldlM (fun s e => mint env s e.1 e.2) s

/-- The power single mints record, at the holder of each recipient's power. -/
def powerChanges (v : VotingStore) (entries : List (Address × I128)) : List (Address × ℤ) :=
  entries.map fun e => (v.votingPowerHolder e.1, (e.2 : ℤ))

/-- The amounts are positive, and they fit: on top of the supply, under the cap, and on top of every balance. -/
structure Mintable (s : State) (entries : List (Address × I128)) : Prop where
  positive : ∀ e ∈ entries, 0 < (e.2 : ℤ)
  supply : (s.totalSupply : ℤ) + totalAmount entries ≤ i128.max
  cap : 0 < (s.getSupplyCap : ℤ) → (s.totalSupply : ℤ) + totalAmount entries ≤ s.getSupplyCap
  balances : ∀ a, (s.balance a : ℤ) + amountTo entries a ≤ i128.max

section Sequence

variable {m : Mode} {env : Env} {s s' : State} {a : Address} {x : I128} {entries : List (Address × I128)}

theorem mintAll_spec : ∀ {entries : List (Address × I128)} {s s' : State}, (mintAll env s entries).run m = some s' →
    (∀ e ∈ entries, 0 < (e.2 : ℤ)) ∧ (entries ≠ [] → env.AdminSigned s.admin) ∧ ∃ b supply,
      s' = { s with
        token.balance := b
        token.totalSupply := supply
        voting := (powerChanges s.voting entries).foldl (VotingStore.shift env) s.voting } ∧
      ledger b = ledger s.token.balance + credits entries ∧ supply = s.totalSupply + totalAmount entries ∧
      (entries ≠ [] → 0 < (s.getSupplyCap : ℤ) → (supply : ℤ) ≤ s.getSupplyCap)
  | [], s, s', h => by
    rw [mintAll, List.foldlM_nil, run_pure] at h
    cases h
    exact ⟨by simp, by simp, s.token.balance, s.totalSupply, rfl, by simp [credits, payments], by simp [totalAmount],
      by simp⟩
  | e :: entries, s, s', h => by
    rw [mintAll, List.foldlM_cons, run_bind] at h
    obtain ⟨s₁, hmint, h⟩ := Option.bind_eq_some_iff.1 h
    obtain ⟨hadmin, hx, supply₁, bal, hsupply₁, hcap₁, hbal, rfl⟩ := mint_spec hmint
    obtain ⟨hpos, -, _, _, rfl, hledger, hsupply, hcap⟩ := mintAll_spec h
    refine ⟨List.forall_mem_cons.2 ⟨hx, hpos⟩, fun _ => hadmin, _, _, rfl, ?_, ?_, fun _ => ?_⟩
    · rw [hledger, ledger_set_add hbal, credits, credits, payments, add_assoc]
    · rw [hsupply, totalAmount, totalAmount, List.map_cons, List.sum_cons, ← add_assoc, ← hsupply₁]
      rfl
    · cases entries with
      | nil =>
        simp only [totalAmount, List.map_nil, List.sum_nil, add_zero] at hsupply
        rw [hsupply]
        exact hcap₁
      | cons => exact hcap (by simp)

theorem mint_succeeds (hadmin : env.AdminSigned s.admin) (hx : 0 < (x : ℤ)) (hsupply : s.totalSupply + x ≤ i128.max)
    (hcap : 0 < (s.getSupplyCap : ℤ) → (s.totalSupply : ℤ) + x ≤ s.getSupplyCap)
    (hbal : (s.balance a : ℤ) + x ≤ i128.max) : ∃ s', (mint env s a x).run .wrapping = some s' := by
  have hlo := s.totalSupply.lo
  have hblo := (s.balance a).lo
  simp only [mint, run_iff, run_requireAdmin, run_issueSupply, run_creditChecked, not_le, VotingStore.checkpointAdd,
    run_unchecked_wrapping]
  exact ⟨_, (), hadmin, (), hx, ⟨s.totalSupply + x, by omega, hsupply⟩, ⟨rfl, hcap⟩, _,
    ⟨⟨s.balance a + x, by omega, hbal⟩, rfl, rfl⟩, _, ⟨_, rfl, rfl⟩, rfl⟩

theorem amountTo_nonneg (h : ∀ e ∈ entries, 0 < (e.2 : ℤ)) (a : Address) : 0 ≤ amountTo entries a := by
  rw [← credits_apply]
  exact credits_nonneg h a

theorem totalAmount_nonneg (h : ∀ e ∈ entries, 0 < (e.2 : ℤ)) : 0 ≤ totalAmount entries := by
  rw [← degree_credits]
  exact degree_nonneg (credits_nonneg h)

theorem amountTo_cons (e : Address × I128) (entries : List (Address × I128)) (a : Address) :
    amountTo (e :: entries) a = (if e.1 = a then (e.2 : ℤ) else 0) + amountTo entries a := by
  rw [← credits_apply, ← credits_apply, credits, payments, Finsupp.add_apply, Finsupp.single_apply]
  rfl

theorem totalAmount_cons (e : Address × I128) (entries : List (Address × I128)) :
    totalAmount (e :: entries) = e.2 + totalAmount entries := by
  rw [totalAmount, List.map_cons, List.sum_cons, totalAmount]

theorem Mintable.next {e : Address × I128} (h : Mintable s (e :: entries))
    (hmint : (mint env s e.1 e.2).run m = some s') : Mintable s' entries := by
  obtain ⟨-, -, supply, bal, hsupply, -, hbal, rfl⟩ := mint_spec hmint
  have htotal := totalAmount_cons e entries
  refine ⟨(List.forall_mem_cons.1 h.positive).2, ?_, fun h0 => ?_, fun a => ?_⟩
  · have := h.supply
    show (supply : ℤ) + _ ≤ _
    omega
  · have := h.cap h0
    show supply + _ ≤ (s.getSupplyCap : ℤ)
    omega
  · have := h.balances a
    rw [amountTo_cons] at this
    show ((balance (s.token.balance.set e.1 bal) a : I128) : ℤ) + _ ≤ _
    rw [balance_set]
    by_cases ha : a = e.1
    · subst ha
      rw [if_pos rfl] at this ⊢
      omega
    · rw [if_neg (Ne.symm ha), zero_add] at this
      rwa [if_neg ha]

/-- What fits as a whole fits entry by entry. -/
theorem mintAll_succeeds :
    ∀ {entries : List (Address × I128)} {s : State}, env.AdminSigned s.admin → Mintable s entries →
    ∃ s', (mintAll env s entries).run .wrapping = some s'
  | [], s, _, _ => ⟨s, run_pure _ s⟩
  | e :: entries, s, hadmin, h => by
    obtain ⟨hx, hpos⟩ := List.forall_mem_cons.1 h.positive
    have hrest := totalAmount_nonneg hpos
    have hto := amountTo_nonneg hpos e.1
    have hsupply := h.supply
    have hcap := h.cap
    have hbal := h.balances e.1
    rw [totalAmount_cons] at hsupply hcap
    rw [amountTo_cons, if_pos rfl] at hbal
    obtain ⟨s₁, hmint⟩ := mint_succeeds (a := e.1) hadmin hx (by omega) (fun h0 => by have := hcap h0; omega) (by omega)
    have hadmin₁ : env.AdminSigned s₁.admin := by
      obtain ⟨-, -, _, _, -, -, -, rfl⟩ := mint_spec hmint
      exact hadmin
    obtain ⟨s', hs'⟩ := mintAll_succeeds hadmin₁ (h.next hmint)
    refine ⟨s', ?_⟩
    rw [mintAll, List.foldlM_cons, run_bind, hmint]
    exact hs'

/-- Minting one after another succeeds exactly if the admin has signed and the entries fit. -/
theorem mintAll_succeeds_iff (hne : entries ≠ []) :
    (∃ s', (mintAll env s entries).run .wrapping = some s') ↔ env.AdminSigned s.admin ∧ Mintable s entries := by
  constructor
  · rintro ⟨s', h⟩
    obtain ⟨hpos, hadmin, b, supply, rfl, hledger, hsupply, hcap⟩ := mintAll_spec h
    refine ⟨hadmin hne, hpos, hsupply ▸ supply.hi, fun h0 => hsupply ▸ hcap hne h0, fun a => ?_⟩
    have := DFunLike.congr_fun hledger a
    rw [Finsupp.add_apply, credits_apply, ledger_apply, ledger_apply] at this
    rw [State.balance, ← this]
    exact (balance b a).hi
  · rintro ⟨hadmin, h⟩
    exact mintAll_succeeds hadmin h

end Sequence

/-! ## The comparison -/

/-- Two states a reader cannot tell apart by balances, supply and voting power, now or at any ledger. -/
structure SameObservables (s₁ s₂ : State) : Prop where
  balances : ∀ a, s₁.balance a = s₂.balance a
  supply : s₁.totalSupply = s₂.totalSupply
  powers : ∀ a ledger, getVotingPowerAt s₁ a ledger = getVotingPowerAt s₂ a ledger

/-- Two calls that are both refused, or both succeed and leave the same observable state. -/
def Agree : Option State → Option State → Prop
  | none, none => True
  | some s₁, some s₂ => SameObservables s₁ s₂
  | _, _ => False

section Comparison

variable {env : Env} {s s₁ s₂ : State} {recipients : List Address} {amounts : List I128}
  {entries : List (Address × I128)}

theorem mergeEntries_succeeds : ∀ {entries : List (Address × I128)} {acc : Table Address I128 × I128},
    (∀ e ∈ entries, 0 < (e.2 : ℤ)) → (∀ a, (balance acc.1 a : ℤ) ≤ acc.2) →
    acc.2 + totalAmount entries ≤ i128.max → ∃ r, (entries.foldlM mergeEntry acc).run .wrapping = some r
  | [], acc, _, _, _ => ⟨acc, run_pure _ acc⟩
  | e :: entries, acc, hpos, hle, hmax => by
    obtain ⟨hx, hpos⟩ := List.forall_mem_cons.1 hpos
    have hrest := totalAmount_nonneg hpos
    have hblo := (balance acc.1 e.1).lo
    have he := hle e.1
    rw [totalAmount_cons] at hmax
    -- a merged delta is part of the total, so it fits where the total does
    let total : I128 := ⟨acc.2 + e.2, by omega, by omega⟩
    let delta : I128 := ⟨balance acc.1 e.1 + e.2, by omega, by omega⟩
    have hstep : (mergeEntry acc e).run .wrapping = some (acc.1.set e.1 delta, total) := by
      simp only [mergeEntry, run_iff, checked_eq_some, run_pure, not_le]
      exact ⟨(), hx, total, rfl, delta, rfl, rfl⟩
    rw [List.foldlM_cons, run_bind, hstep]
    refine mergeEntries_succeeds hpos (fun a => ?_) ?_
    · have := hle a
      rw [balance_set]
      show _ ≤ (acc.2 : ℤ) + e.2
      split
      · show (balance acc.1 e.1 : ℤ) + e.2 ≤ _
        omega
      · omega
    · show (acc.2 : ℤ) + e.2 + _ ≤ _
      omega

theorem creditLoop_succeeds {delta : Address → I128} (hdelta : ∀ a, 0 ≤ (delta a : ℤ)) :
    ∀ {l : List Address} {b : Table Address I128}, l.Nodup → (∀ a ∈ l, balance b a + delta a ≤ i128.max) →
      ∃ r, (l.foldlM (fun b a => creditChecked b a (delta a)) b).run .wrapping = some r
  | [], b, _, _ => ⟨b, run_pure _ b⟩
  | a :: l, b, hnodup, hmax => by
    obtain ⟨ha, hnodup⟩ := List.nodup_cons.1 hnodup
    obtain ⟨hmaxa, hmax⟩ := List.forall_mem_cons.1 hmax
    have hlo := (balance b a).lo
    have hnonneg := hdelta a
    obtain ⟨b', hb'⟩ : ∃ b', (creditChecked b a (delta a)).run .wrapping = some b' :=
      ⟨_, (run_creditChecked ..).2 ⟨⟨balance b a + delta a, by omega, hmaxa⟩, rfl, rfl⟩⟩
    obtain ⟨r, hr⟩ := creditLoop_succeeds (b := b') hdelta hnodup fun a' ha' => by
      obtain ⟨y, -, rfl⟩ := (run_creditChecked ..).1 hb'
      have hne : a' ≠ a := by
        rintro rfl
        exact ha ha'
      rw [balance_set, if_neg hne]
      exact hmax a' ha'
    refine ⟨r, ?_⟩
    rw [List.foldlM_cons, run_bind, hb']
    exact hr

/-- On top of a supply that is not negative, a batch succeeds where its entries fit. -/
theorem batchMint_succeeds (hlen : recipients.length = amounts.length) (hne : recipients ≠ [])
    (hsupply : 0 ≤ (s.totalSupply : ℤ)) (hadmin : env.AdminSigned s.admin) (h : Mintable s (recipients.zip amounts)) :
    ∃ s', (batchMint env s recipients amounts).run .wrapping = some s' := by
  have hmax := h.supply
  have hnonneg := totalAmount_nonneg h.positive
  obtain ⟨merged, hmerge⟩ : ∃ r, ((recipients.zip amounts).foldlM mergeEntry (∅, 0)).run .wrapping = some r :=
    mergeEntries_succeeds h.positive (fun a => by simp [balance])
      (by simpa using (by omega : totalAmount (recipients.zip amounts) ≤ i128.max))
  obtain ⟨-, htotal, hledger⟩ := mergeEntries_spec hmerge
  simp only [ledger_empty, zero_add, toInt_zero] at htotal hledger
  have hdelta (a : Address) : (balance merged.1 a : ℤ) = amountTo (recipients.zip amounts) a := by
    rw [← credits_apply, ← hledger, ledger_apply]
  obtain ⟨b, hb⟩ : ∃ b, (recipients.dedup.foldlM (fun b a => creditChecked b a (balance merged.1 a))
      s.token.balance).run .wrapping = some b :=
    creditLoop_succeeds (fun a => by rw [hdelta]; exact amountTo_nonneg h.positive a) recipients.nodup_dedup
      fun a _ => by rw [hdelta]; exact h.balances a
  have hlo := s.totalSupply.lo
  simp only [batchMint, run_iff, run_requireAdmin, run_issueSupply, ne_eq, not_not]
  exact ⟨_, (), hadmin, (), hlen, (), hne, merged, hmerge, ⟨s.totalSupply + merged.2, by omega, by omega⟩,
    ⟨rfl, fun h0 => by have := h.cap h0; show (s.totalSupply : ℤ) + merged.2 ≤ _; omega⟩, b, hb, rfl⟩

/-- Where a batch succeeds the entries fit, so single mints succeed as well. -/
theorem Mintable.of_batchMint (h : (batchMint env s recipients amounts).run .wrapping = some s₁) :
    env.AdminSigned s.admin ∧ Mintable s (recipients.zip amounts) := by
  obtain ⟨hadmin, -, -, hpos, b, supply, rfl, hledger, hsupply, hcap⟩ := batchMint_spec h
  refine ⟨hadmin, hpos, hsupply ▸ supply.hi, fun h0 => hsupply ▸ hcap h0, fun a => ?_⟩
  have := DFunLike.congr_fun hledger a
  rw [Finsupp.add_apply, credits_apply, ledger_apply, ledger_apply] at this
  rw [State.balance, ← this]
  exact (balance b a).hi

/-- Both issue the same amounts. -/
theorem batchMint_same_balances (h₁ : (batchMint env s recipients amounts).run .wrapping = some s₁)
    (h₂ : (mintAll env s (recipients.zip amounts)).run .wrapping = some s₂) :
    (∀ a, s₁.balance a = s₂.balance a) ∧ s₁.totalSupply = s₂.totalSupply := by
  obtain ⟨-, -, -, -, b₁, supply₁, rfl, hledger₁, hsupply₁, -⟩ := batchMint_spec h₁
  obtain ⟨-, -, b₂, supply₂, rfl, hledger₂, hsupply₂, -⟩ := mintAll_spec h₂
  refine ⟨fun a => IntType.Val.ext ?_, IntType.Val.ext (hsupply₁.trans hsupply₂.symm)⟩
  exact DFunLike.congr_fun (hledger₁.trans hledger₂.symm) a

theorem zip_ne_nil (hlen : recipients.length = amounts.length) (hne : recipients ≠ []) :
    recipients.zip amounts ≠ [] := by
  rw [Ne, List.zip_eq_nil_iff]
  rintro (rfl | rfl)
  · exact hne rfl
  · exact hne (List.length_eq_zero_iff.1 hlen)

theorem net_powerChanges_nonneg (v : VotingStore) (hpos : ∀ e ∈ entries, 0 < (e.2 : ℤ)) :
    0 ≤ net (powerChanges v entries) := by
  refine payments_nonneg fun c hc => ?_
  obtain ⟨e, he, rfl⟩ := List.mem_map.1 hc
  exact (hpos e he).le

theorem degree_net_powerChanges (v : VotingStore) (entries : List (Address × I128)) :
    (net (powerChanges v entries)).degree = totalAmount entries := by
  rw [net, degree_payments, powerChanges, List.map_map]
  rfl

theorem net_powerChanges_pos (v : VotingStore) {e : Address × I128} (hpos : ∀ e' ∈ e :: entries, 0 < (e'.2 : ℤ)) :
    0 < net (powerChanges v (e :: entries)) (v.votingPowerHolder e.1) := by
  obtain ⟨he, hpos⟩ := List.forall_mem_cons.1 hpos
  have hrest : 0 ≤ net (powerChanges v entries) (v.votingPowerHolder e.1) := net_powerChanges_nonneg v hpos _
  have hcons : net (powerChanges v (e :: entries)) (v.votingPowerHolder e.1) =
      e.2 + net (powerChanges v entries) (v.votingPowerHolder e.1) := by
    rw [← Finsupp.single_eq_same (a := v.votingPowerHolder e.1) (b := (e.2 : ℤ))]
    rfl
  omega

/-- Single mints raise the power recorded for the holder of the first recipient; a batch does not. -/
theorem batchMint_other_powers (h₁ : (batchMint env s recipients amounts).run .wrapping = some s₁)
    (h₂ : (mintAll env s (recipients.zip amounts)).run .wrapping = some s₂) : ¬ SameObservables s₁ s₂ := by
  intro hsame
  obtain ⟨-, hlen, hne, hpos, _, _, rfl, -⟩ := batchMint_spec h₁
  obtain ⟨-, -, _, supply, rfl, -, hsupply, -⟩ := mintAll_spec h₂
  obtain ⟨e, entries, hentries⟩ := List.exists_cons_of_ne_nil (zip_ne_nil hlen hne)
  rw [hentries] at hpos hsupply hsame
  have hpower := hsame.powers (s.voting.votingPowerHolder e.1) lastLedger
  simp only [getVotingPowerAt, VotingStore.powerAt_lastLedger, VotingStore.lastPower_shifts] at hpower
  -- what the mints add is positive and less than the number of `i128` values
  have hpositive := net_powerChanges_pos s.voting hpos
  have hle := le_degree (net_powerChanges_nonneg s.voting hpos) (s.voting.votingPowerHolder e.1)
  rw [degree_net_powerChanges] at hle
  have hmax := supply.hi
  have hmin := s.totalSupply.lo
  exact IntType.wrap_add_ne hpositive (by omega) hpower.symm

/-- A batch and the single mints agree exactly if both are refused: where the admin has signed and the entries
fit, the voting power they leave differs. On a supply that is not negative they succeed alike, and with the same
balances and supply. -/
theorem batchMint_agrees_iff_refused (env : Env) (s : State) (hlen : recipients.length = amounts.length)
    (hne : recipients ≠ []) :
    (Agree ((batchMint env s recipients amounts).run .wrapping)
        ((mintAll env s (recipients.zip amounts)).run .wrapping) ↔
      ¬ (env.AdminSigned s.admin ∧ Mintable s (recipients.zip amounts))) ∧
    (0 ≤ (s.totalSupply : ℤ) → ((∃ s₁, (batchMint env s recipients amounts).run .wrapping = some s₁) ↔
      ∃ s₂, (mintAll env s (recipients.zip amounts)).run .wrapping = some s₂)) ∧
    ∀ s₁ s₂, (batchMint env s recipients amounts).run .wrapping = some s₁ →
      (mintAll env s (recipients.zip amounts)).run .wrapping = some s₂ →
      (∀ a, s₁.balance a = s₂.balance a) ∧ s₁.totalSupply = s₂.totalSupply := by
  have hseq : (∃ s', (mintAll env s (recipients.zip amounts)).run .wrapping = some s') ↔ _ :=
    mintAll_succeeds_iff (zip_ne_nil hlen hne)
  refine ⟨?_, fun hsupply => ?_, fun s₁ s₂ => batchMint_same_balances⟩
  · cases h₁ : (batchMint env s recipients amounts).run .wrapping with
    | none =>
      cases h₂ : (mintAll env s (recipients.zip amounts)).run .wrapping with
      | none =>
        refine ⟨fun _ hok => ?_, fun _ => trivial⟩
        obtain ⟨s', hs'⟩ := hseq.2 hok
        rw [h₂] at hs'; cases hs'
      | some s₂ => exact ⟨False.elim, fun hrefused => hrefused (hseq.1 ⟨s₂, h₂⟩)⟩
    | some s₁ =>
      have hok := Mintable.of_batchMint h₁
      obtain ⟨s₂, h₂⟩ := hseq.2 hok
      rw [h₂]
      exact ⟨fun hsame => absurd hsame (batchMint_other_powers h₁ h₂), fun hrefused => absurd hok hrefused⟩
  · rw [hseq]
    exact ⟨fun ⟨_, h₁⟩ => Mintable.of_batchMint h₁, fun hok => batchMint_succeeds hlen hne hsupply hok.1 hok.2⟩

end Comparison

/-- A batch with an amount of zero is refused as the single mints are. -/
theorem batch_with_zero_amount_agrees : [alice, bob].length = [5, 0].length ∧
    Agree ((batchMint (signedAt 1 1) deployed [alice, bob] [5, 0]).run .wrapping)
      ((mintAll (signedAt 1 1) deployed ([alice, bob].zip [5, 0])).run .wrapping) := by
  refine ⟨rfl, (batchMint_agrees_iff_refused (signedAt 1 1) deployed rfl (by simp)).1.2 ?_⟩
  rintro ⟨-, h⟩
  exact absurd (h.positive (bob, i128.wrap 0) (by decide)) (by decide)

/-- After a batch the recipient of 5 tokens has no voting power; after a mint of 5 tokens its power is 5. -/
theorem batch_records_no_power : ∃ s₁ s₂,
    (batchMint (signedAt 1 1) deployed [alice] [5]).run .wrapping = some s₁ ∧
    (mintAll (signedAt 1 1) deployed ([alice].zip [5])).run .wrapping = some s₂ ∧
    s₁.balance alice = s₂.balance alice ∧
    getVotingPowerAt s₁ alice 1 = 0 ∧ getVotingPowerAt s₂ alice 1 = i128.wrap 5 := by
  exact ⟨_, _, evaluated, evaluated, by decide +kernel⟩

end ArenaX.AxToken
