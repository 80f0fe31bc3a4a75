/-
Claims of the airdrop over whole runs. An address is paid once, by whichever of the three ways to claim; what was
claimed is what was paid and stays within the total; and a batch does what its entries would do as single claims, except
that it does not ask for the snapshot amount.
-/
import ArenaX.Airdrop.Contract
import ArenaX.Lib.Lists

namespace ArenaX.Airdrop

open Machine Exec
open Host (Address Holdings)
open Sample

/-! ## Payments -/

/-- How often receipts name an address. -/
def timesPaid (a : Address) (results : List ClaimResult) : ℕ := (results.map ClaimResult.claimant).count a

/-- What receipts say an address got. -/
def paidTo (a : Address) (results : List ClaimResult) : ℤ :=
  ((results.filter (·.claimant = a)).map fun r => (r.amount : ℤ)).sum

/-- What receipts say was paid to all. -/
def paidOut (results : List ClaimResult) : ℤ := (results.map fun r => (r.amount : ℤ)).sum

/-- What the payments of some receipts make of a state. -/
structure Settles (m : Mode) (env : Env) (s : State) (results : List ClaimResult) (s' : State) : Prop where
  root : s'.merkleRoot = s.merkleRoot
  total : s'.totalAmount = s.totalAmount
  token : s'.token = s.token
  fresh : ∀ a ∈ results.map ClaimResult.claimant, s.hasClaimed a = false
  nodup : (results.map ClaimResult.claimant).Nodup
  claimed : ∀ a, s'.hasClaimed a = (s.hasClaimed a || decide (a ∈ results.map ClaimResult.claimant))
  amount : m = .exact → (s'.claimedAmount : ℤ) = s.claimedAmount + paidOut results
  within : results ≠ [] → ∀ total ∈ s.totalAmount, (s'.claimedAmount : ℤ) ≤ total
  tokens : ∀ token ∈ s.token, ∀ a, a ≠ env.currentContract → s'.tokens token a = s.tokens token a + paidTo a results

section Payments

variable {m : Mode} {env : Env} {s s' : State} {results : List ClaimResult} {claimant token : Address}
  {amount total : I128} {root : BytesN 32} {c : Call}

theorem paidTo_concat (a : Address) (r : ClaimResult) :
    paidTo a (results ++ [r]) = paidTo a results + if r.claimant = a then (r.amount : ℤ) else 0 := by
  unfold paidTo
  by_cases h : r.claimant = a <;> simp [h]

theorem paidOut_concat (r : ClaimResult) : paidOut (results ++ [r]) = paidOut results + r.amount := by
  simp [paidOut]

theorem State.hasClaimed_pay (s : State) (a : Address) :
    (s.pay env token claimant amount).hasClaimed a = (s.hasClaimed a || decide (a = claimant)) := by
  unfold State.hasClaimed State.pay
  rw [Table.get_set]
  by_cases h : a = claimant <;> simp [h]

theorem Settles.refl : Settles m env s [] s where
  root := rfl
  total := rfl
  token := rfl
  fresh _ h := by cases h
  nodup := List.nodup_nil
  claimed _ := (Bool.or_false _).symm
  amount _ := (add_zero _).symm
  within h := absurd rfl h
  tokens _ _ _ _ := (add_zero _).symm

/-- One more payment, to whom is entitled to it. -/
theorem Settles.pay (h : Settles m env s results s') (htotal : s.totalAmount = some total)
    (htoken : s.token = some token) (hentitled : Entitled m env s' token total s'.claimedAmount claimant amount) :
    Settles m env s (results ++ [⟨claimant, amount, env.timestamp⟩])
      { s'.pay env token claimant amount with claimedAmount := i128.wrap (s'.claimedAmount + amount) } := by
  have hfresh := hentitled.fresh
  rw [h.claimed, Bool.or_eq_false_iff, decide_eq_false_iff_not] at hfresh
  refine ⟨h.root, h.total, h.token, ?_, ?_, ?_, ?_, ?_, ?_⟩
  · intro a ha
    rw [List.map_append, List.mem_append] at ha
    rcases ha with ha | ha
    · exact h.fresh a ha
    · cases List.mem_singleton.1 ha
      exact hfresh.1
  · rw [List.map_append]
    exact (List.nodup_append_comm.1 (List.nodup_cons.2 ⟨hfresh.2, h.nodup⟩))
  · intro a
    show (s'.pay env token claimant amount).hasClaimed a = _
    rw [State.hasClaimed_pay, h.claimed, Bool.or_assoc, List.map_append, List.map_singleton]
    simp only [List.mem_append, List.mem_singleton, Bool.decide_or]
  · intro hm
    rw [wrap_of_fits (hentitled.fits hm), h.amount hm, paidOut_concat, add_assoc]
  · intro _ t ht
    cases htotal.symm.trans ht
    exact hentitled.within
  · intro t ht a ha
    cases htoken.symm.trans ht
    show s'.tokens.move token env.currentContract claimant amount token a = _
    rw [paidTo_concat, ← add_assoc, ← h.tokens token ht a ha]
    by_cases hc : claimant = a
    · subst hc
      rw [Holdings.move_in (Ne.symm ha), if_pos rfl]
    · rw [if_neg hc]
      simp [Holdings.move, ha, Ne.symm hc]

/-- The contract has a root, a total and a token. -/
structure State.Ready (s : State) (root : BytesN 32) (total : I128) (token : Address) : Prop where
  root : s.merkleRoot = some root
  total : s.totalAmount = some total
  token : s.token = some token

/-- The loop of a batch pays entry by entry. The invariant says what the receipts so far have made of the first state,
with the running total in the place of the stored one. -/
theorem batchClaim_settles {entries : List Entry} (hs : s.Ready root total token)
    (h : (batchClaim env s entries).run m = some (results, s')) : Settles m env s results s' := by
  rw [run_batchClaim hs.root hs.total hs.token] at h
  split at h
  · obtain ⟨r, hloop, hr⟩ := Option.map_eq_some_iff.1 h
    cases hr
    refine foldlM_inv m (fun _ r => Settles m env s r.1 { r.2.2 with claimedAmount := r.2.1 }) ?_ Settles.refl hloop
    rintro ⟨claimant, proof, amount⟩ _ ⟨results, claimedTotal, t⟩ r hr hstep
    obtain ⟨-, hentitled, rfl⟩ := run_claimEntry.1 hstep
    exact hr.pay hs.total hs.token { hentitled with }
  · cases h

theorem execute_settles (hs : s.Ready root total token) (hc : c.claims = true)
    (h : (execute env s c).run m = some (results, s')) : Settles m env s results s' := by
  cases c with
  | claimWithProofNodes =>
    rw [execute, run_map] at h
    obtain ⟨_, hr, h⟩ := Option.map_eq_some_iff.1 h
    obtain ⟨-, -, -, hentitled, rfl⟩ := (run_claimWithProofNodes hs.root hs.total hs.token).1 hr
    cases h
    exact Settles.refl.pay hs.total hs.token hentitled
  | claim =>
    rw [execute, run_map] at h
    obtain ⟨_, hr, h⟩ := Option.map_eq_some_iff.1 h
    obtain ⟨-, -, -, -, hentitled, rfl⟩ := claim_spec hs.root hs.total hs.token hr
    cases h
    exact Settles.refl.pay hs.total hs.token hentitled
  | batchClaim => exact batchClaim_settles hs h
  | _ => cases hc

theorem of_run_without_receipts {x : Result State} (h : (Prod.mk [] <$> x).run m = some (results, s')) :
    results = [] ∧ x.run m = some s' := by
  rw [run_map] at h
  obtain ⟨t, ht, h⟩ := Option.map_eq_some_iff.1 h
  cases h
  exact ⟨rfl, ht⟩

/-- What is not a claim pays no one, and does not lower the total. -/
theorem execute_administers (hs : s.Ready root total token) (hc : c.claims = false)
    (h : (execute env s c).run m = some (results, s')) :
    results = [] ∧ s'.claimed = s.claimed ∧ s'.claimedAmount = s.claimedAmount ∧
      ∃ root' total', s'.Ready root' total' token ∧ (m = .exact → (total : ℤ) ≤ total') := by
  cases c with
  | configureAirdrop =>
    obtain ⟨rfl, hrun⟩ := of_run_without_receipts h
    obtain ⟨-, -, rfl⟩ := configureAirdrop_spec hrun
    exact ⟨rfl, rfl, rfl, _, total, ⟨rfl, hs.total, hs.token⟩, fun _ => le_rfl⟩
  | recoverUnclaimed =>
    rw [execute, run_map] at h
    obtain ⟨r, hr, h⟩ := Option.map_eq_some_iff.1 h
    obtain ⟨-, tokens, hr⟩ := recoverUnclaimed_spec hr
    cases h
    rw [hr]
    exact ⟨rfl, rfl, rfl, root, total, ⟨hs.root, hs.total, hs.token⟩, fun _ => le_rfl⟩
  | updateMerkleRoot =>
    obtain ⟨rfl, hrun⟩ := of_run_without_receipts h
    -- the root changes in any case, the total only when an amount is added
    obtain ⟨-, hnonneg, ⟨-, rfl⟩ | ⟨total', htotal', hfits, rfl⟩⟩ := updateMerkleRoot_spec hrun
    · exact ⟨rfl, rfl, rfl, _, total, ⟨rfl, hs.total, hs.token⟩, fun _ => le_rfl⟩
    · cases hs.total.symm.trans htotal'
      refine ⟨rfl, rfl, rfl, _, _, ⟨rfl, rfl, hs.token⟩, fun hm => ?_⟩
      rw [wrap_of_fits (hfits hm)]
      omega
  | extendExpiry =>
    obtain ⟨rfl, hrun⟩ := of_run_without_receipts h
    obtain ⟨-, rfl⟩ := extendExpiry_spec hrun
    exact ⟨rfl, rfl, rfl, root, total, ⟨hs.root, hs.total, hs.token⟩, fun _ => le_rfl⟩
  | setPaused | setRecoveryAddress =>
    obtain ⟨rfl, hrun⟩ := of_run_without_receipts h
    obtain ⟨-, rfl⟩ := run_then_pure hrun
    exact ⟨rfl, rfl, rfl, root, total, ⟨hs.root, hs.total, hs.token⟩, fun _ => le_rfl⟩
  | _ => cases hc

end Payments

/-! ## Runs -/

/-- The receipts a call returns. -/
def receipts (m : Mode) (env : Env) (s : State) (c : Call) : List ClaimResult :=
  (((execute env s c).run m).map Prod.fst).getD []

section Runs

variable {m : Mode} {ok : Rule} {e env : Env} {s s' : State} {c : Call}

theorem exists_receipts (h : (contract m).step env s c = some s') :
    (execute env s c).run m = some (receipts m env s c, s') := by
  obtain ⟨r, hr, rfl⟩ := Option.map_eq_some_iff.1 h
  rw [receipts, hr]
  rfl

theorem contract_init (h : (contract m).init e s) : ∃ root, ∃ total : I128, ∃ token, s.Ready root total token ∧
    0 < (total : ℤ) ∧ s.claimedAmount = 0 ∧ s.claimed = ∅ := by
  obtain ⟨_, _, _, _, _, _, _, h⟩ := h
  obtain ⟨hpos, rfl⟩ := initializeContract_spec h
  exact ⟨_, _, _, ⟨rfl, rfl, rfl⟩, hpos, rfl, rfl⟩

/-- What was claimed is within the total. -/
theorem reach_within (h : (contract m).Reach ok e s) : ∃ root, ∃ total : I128, ∃ token, s.Ready root total token ∧
    (m = .exact → (s.claimedAmount : ℤ) ≤ total) := by
  refine h.invariant (P := fun _ s => ∃ root, ∃ total : I128, ∃ token, s.Ready root total token ∧
    (m = .exact → (s.claimedAmount : ℤ) ≤ total)) ?_ ?_
  · intro e s hinit
    obtain ⟨root, total, token, hready, hpos, hzero, -⟩ := contract_init hinit
    exact ⟨root, total, token, hready, fun _ => by rw [hzero]; exact hpos.le⟩
  · rintro e e' s c s' ⟨_, total, token, hready, hwithin⟩ - hstep
    have hrun := exists_receipts hstep
    cases hc : c.claims with
    | false =>
      obtain ⟨-, -, hamount, _, _, hready', hle⟩ := execute_administers hready hc hrun
      exact ⟨_, _, token, hready', fun hm => by rw [hamount]; exact (hwithin hm).trans (hle hm)⟩
    | true =>
      have hsettles := execute_settles hready hc hrun
      refine ⟨_, total, token, ⟨hsettles.root.trans hready.root, hsettles.total.trans hready.total,
        hsettles.token.trans hready.token⟩, fun hm => ?_⟩
      by_cases hnil : receipts m e' s c = []
      · rw [hsettles.amount hm, hnil]
        exact (add_zero _).le.trans (hwithin hm)
      · exact hsettles.within hnil total hready.total

/-- What a call pays is added to what was claimed. -/
theorem step_paidOut (h : (contract .exact).Reach ok e s) (hstep : (contract .exact).step env s c = some s') :
    s'.claimedAmount = s.claimedAmount + paidOut (receipts .exact env s c) := by
  obtain ⟨root, total, token, hready, -⟩ := reach_within h
  have hrun := exists_receipts hstep
  cases hc : c.claims with
  | false =>
    obtain ⟨hnil, -, hamount, -⟩ := execute_administers hready hc hrun
    rw [hnil, hamount]
    exact (add_zero _).symm
  | true => exact (execute_settles hready hc hrun).amount rfl

/-- Whom a call pays has not claimed before, and has claimed after. -/
theorem step_timesPaid (h : (contract m).Reach ok e s) (hstep : (contract m).step env s c = some s') (a : Address) :
    (if s'.hasClaimed a then 1 else 0) = (if s.hasClaimed a then 1 else 0) + timesPaid a (receipts m env s c) := by
  obtain ⟨root, total, token, hready, -⟩ := reach_within h
  have hrun := exists_receipts hstep
  cases hc : c.claims with
  | false =>
    obtain ⟨hnil, hclaimed, -⟩ := execute_administers hready hc hrun
    rw [hnil, State.hasClaimed, hclaimed]
    rfl
  | true =>
    have hsettles := execute_settles hready hc hrun
    rw [hsettles.claimed, timesPaid]
    by_cases ha : a ∈ (receipts m env s c).map ClaimResult.claimant
    · rw [hsettles.fresh a ha, List.count_eq_one_of_mem hsettles.nodup ha]
      simp [ha]
    · rw [List.count_eq_zero_of_not_mem ha]
      simp [ha]

theorem timesPaid_eq {a : Address} {n : ℕ}
    (h : (contract m).Tally ok (fun env s c => timesPaid a (receipts m env s c)) n e s) :
    n = if s.hasClaimed a then 1 else 0 := by
  refine h.invariant (P := fun n _ s => n = if s.hasClaimed a then 1 else 0) ?_ ?_
  · intro e s hinit
    obtain ⟨_, _, _, -, -, -, hempty⟩ := contract_init hinit
    rw [State.hasClaimed, hempty]
    rfl
  · intro n e e' s c s' hreach ih _ hstep
    rw [step_timesPaid hreach hstep a, ih]

theorem paidOut_eq {n : ℤ} (h : (contract .exact).Tally ok (fun env s c => paidOut (receipts .exact env s c)) n e s) :
    n = s.claimedAmount := by
  refine h.invariant (P := fun n _ s => n = s.claimedAmount) ?_ ?_
  · intro e s hinit
    obtain ⟨_, _, _, -, -, hzero, -⟩ := contract_init hinit
    rw [hzero]
    rfl
  · intro n e e' s c s' hreach ih _ hstep
    rw [step_paidOut hreach hstep, ih]

/-- In every run without overflow an address was paid once if it has claimed and never if it has not, the claimed
amount is the sum of all payments and within the total, and each claim moves to every account what its receipts
say. -/
theorem claims_are_paid_once (h : (contract .exact).Reach Unrestricted e s) :
    (∀ a n, (contract .exact).Tally Unrestricted (fun env s c => timesPaid a (receipts .exact env s c)) n e s ↔
      n = if s.hasClaimed a then 1 else 0) ∧
    (∀ n, (contract .exact).Tally Unrestricted (fun env s c => paidOut (receipts .exact env s c)) n e s ↔
      n = s.claimedAmount) ∧
    (∃ total, s.totalAmount = some total ∧ (s.claimedAmount : ℤ) ≤ total) ∧
    ∀ env c results s', c.claims = true → (execute env s c).run .exact = some (results, s') →
      ∀ token a, s.token = some token → a ≠ env.currentContract →
        s'.tokens token a = s.tokens token a + paidTo a results := by
  obtain ⟨root, total, token, hready, hwithin⟩ := reach_within h
  refine ⟨fun a => ?_, ?_, ⟨total, hready.total, hwithin rfl⟩, ?_⟩
  · exact TransitionSystem.iff_eq_of_exists (h.tally _) timesPaid_eq
  · exact TransitionSystem.iff_eq_of_exists (h.tally _) paidOut_eq
  · intro env c results s' hc hrun token a htoken ha
    exact (execute_settles hready hc hrun).tokens token htoken a ha

/-- After a claim of each kind. -/
theorem three_claims_are_paid : ∃ r, (deployment .exact).after Unrestricted threeClaims = some r ∧
    (contract .exact).Tally Unrestricted (fun env s c => timesPaid alice (receipts .exact env s c)) 1 r.1 r.2 ∧
    (contract .exact).Tally Unrestricted (fun env s c => paidOut (receipts .exact env s c)) 900 r.1 r.2 := by
  obtain ⟨htimes, hpaid, -⟩ := claims_are_paid_once (reach_after (evaluated
    (o := (deployment .exact).after Unrestricted threeClaims)))
  exact ⟨_, (evaluated _), (htimes alice 1).2 (by decide +kernel), (hpaid 900).2 (by decide +kernel)⟩

end Runs

/-! ## Batches -/

/-- The claim of an entry on its own, with the receipts of those before. -/
def claimNext (env : Env) : List ClaimResult × State → Entry → Result (List ClaimResult × State)
  | (results, s), (claimant, proof, amount) => do
    let (result, s) ← claimWithProofNodes env s claimant proof amount
    pure (results ++ [result], s)

/-- The entries of a batch claimed one after another. -/
def claimEach (env : Env) (s : State) (entries : List Entry) : Result (List ClaimResult × State) :=
  entries.foldlM (claimNext env) ([], s)

section Batches

variable {m : Mode} {env : Env} {s t : State} {results : List ClaimResult} {claimedTotal total : I128} {token : Address}
  {root : BytesN 32} {entries : List Entry}

theorem run_claimNext (entry : Entry) : (claimNext env (results, s) entry).run m =
    ((claimWithProofNodes env s entry.1 entry.2.1 entry.2.2).run m).map fun r => (results ++ [r.1], r.2) := by
  unfold claimNext
  rw [run_bind, Option.map_eq_bind]
  congr 1
  funext r
  exact run_pure m _

/-- Who is entitled does not depend on the stored total. -/
theorem entitled_iff {claimant : Address} {amount x : I128} :
    Entitled m env { s with claimedAmount := x } token total claimedTotal claimant amount ↔
      Entitled m env s token total claimedTotal claimant amount :=
  ⟨fun h => ⟨h.signed, h.positive, h.fresh, h.within, h.fits, h.accepted⟩,
    fun h => ⟨h.signed, h.positive, h.fresh, h.within, h.fits, h.accepted⟩⟩

/-- A turn of the batch loop is a single claim, where the snapshot amount is met. -/
theorem run_claimNext_eq (hs : s.Ready root total token) (hopen : s.Open env) {entry : Entry}
    (hsnapshot : s.Snapshot entry.2.2) :
    (claimNext env (results, { s with claimedAmount := claimedTotal }) entry).run m =
      ((claimEntry env root token total (results, claimedTotal, s) entry).run m).map
        fun r => (r.1, { r.2.2 with claimedAmount := r.2.1 }) := by
  rw [run_claimNext]
  ext r
  rw [Option.map_eq_some_iff, Option.map_eq_some_iff]
  constructor
  · rintro ⟨_, hq, rfl⟩
    obtain ⟨-, -, hvalid, hentitled, rfl⟩ :=
      (run_claimWithProofNodes (s := { s with claimedAmount := claimedTotal }) hs.root hs.total hs.token).1 hq
    exact ⟨_, run_claimEntry.2 ⟨hvalid, entitled_iff.1 hentitled, rfl⟩, rfl⟩
  · rintro ⟨_, hq, rfl⟩
    obtain ⟨hvalid, hentitled, rfl⟩ := run_claimEntry.1 hq
    exact ⟨_, (run_claimWithProofNodes (s := { s with claimedAmount := claimedTotal }) hs.root hs.total hs.token).2
      ⟨hopen, hsnapshot, hvalid, entitled_iff.2 hentitled, rfl⟩, rfl⟩

/-- The loop of a batch does what single claims do, from every receipts and running total on. -/
theorem run_foldlM_claimNext : ∀ {entries : List Entry} {s : State} {results : List ClaimResult} {claimedTotal : I128},
    s.Ready root total token → s.Open env → (∀ entry ∈ entries, s.Snapshot entry.2.2) →
    (entries.foldlM (claimNext env) (results, { s with claimedAmount := claimedTotal })).run m =
      ((entries.foldlM (claimEntry env root token total) (results, claimedTotal, s)).run m).map
        fun r => (r.1, { r.2.2 with claimedAmount := r.2.1 })
  | [], s, results, claimedTotal, _, _, _ => by
    rw [List.foldlM_nil, List.foldlM_nil, run_pure, run_pure]
    rfl
  | entry :: entries, s, results, claimedTotal, hs, hopen, hsnapshot => by
    rw [List.forall_mem_cons] at hsnapshot
    rw [List.foldlM_cons, List.foldlM_cons, run_bind, run_bind, run_claimNext_eq hs hopen hsnapshot.1]
    cases hstep : (claimEntry env root token total (results, claimedTotal, s) entry).run m with
    | none => rfl
    | some r =>
      obtain ⟨-, -, rfl⟩ := run_claimEntry.1 hstep
      exact run_foldlM_claimNext ⟨hs.root, hs.total, hs.token⟩ hopen hsnapshot.2

/-- A single claim leaves the checks that do not depend on who claims as they were. -/
theorem claimNext_keeps (hs : s.Ready root total token) {entry : Entry} {r : List ClaimResult × State}
    (h : (claimNext env (results, s) entry).run m = some r) :
    s.Open env ∧ s.Snapshot entry.2.2 ∧ r.2.Ready root total token ∧
      r.2.tokenAmountPerAddress = s.tokenAmountPerAddress := by
  rw [run_claimNext] at h
  obtain ⟨_, hr, rfl⟩ := Option.map_eq_some_iff.1 h
  obtain ⟨hopen, hsnapshot, -, -, rfl⟩ := (run_claimWithProofNodes hs.root hs.total hs.token).1 hr
  exact ⟨hopen, hsnapshot, ⟨hs.root, hs.total, hs.token⟩, rfl⟩

/-- Single claims that all succeed meet the snapshot amount. -/
theorem snapshot_of_foldlM_claimNext : ∀ {entries : List Entry} {s : State} {results : List ClaimResult}
    {r : List ClaimResult × State}, s.Ready root total token →
    (entries.foldlM (claimNext env) (results, s)).run m = some r → ∀ entry ∈ entries, s.Snapshot entry.2.2
  | [], _, _, _, _, _ => by simp
  | entry :: entries, s, results, r, hs, h => by
    rw [List.foldlM_cons, run_bind] at h
    obtain ⟨⟨results', s'⟩, hstep, h⟩ := Option.bind_eq_some_iff.1 h
    obtain ⟨-, hsnapshot, hready, hkeeps⟩ := claimNext_keeps hs hstep
    rw [List.forall_mem_cons]
    refine ⟨hsnapshot, fun entry' hentry => ?_⟩
    have := snapshot_of_foldlM_claimNext hready h entry' hentry
    unfold State.Snapshot at this ⊢
    rwa [← hkeeps]

theorem run_claimEach_of_not_open (hs : s.Ready root total token) (hopen : ¬ s.Open env) (hne : entries ≠ []) :
    (claimEach env s entries).run m = none := by
  obtain ⟨entry, entries, rfl⟩ := List.exists_cons_of_ne_nil hne
  rw [claimEach, List.foldlM_cons, run_bind]
  cases hstep : (claimNext env ([], s) entry).run m with
  | none => rfl
  | some r => exact absurd (claimNext_keeps hs hstep).1 hopen

/-! ## The checks of a batch -/

/-- The amounts of some entries together. -/
def amounts (entries : List Entry) : ℤ := (entries.map fun entry => (entry.2.2 : ℤ)).sum

/-- What everyone holds once some entries are paid. -/
def State.paidTo (env : Env) (s : State) (token : Address) (entries : List Entry) : Holdings :=
  entries.foldl (fun tokens entry => tokens.move token env.currentContract entry.1 entry.2.2) s.tokens

/-- The checks a batch makes of its entries: of each entry, and of the sum and the holdings that the entries up to it
lead to. -/
structure Payable (m : Mode) (env : Env) (s : State) (entries : List Entry) : Prop where
  nodup : (entries.map Prod.fst).Nodup
  signed : ∀ entry ∈ entries, entry.1 ∈ env.signers
  positive : ∀ entry ∈ entries, 0 < (entry.2.2 : ℤ)
  fresh : ∀ entry ∈ entries, s.hasClaimed entry.1 = false
  proven : ∀ root ∈ s.merkleRoot, ∀ entry ∈ entries,
    verifyMerkleProof env (computeLeaf env entry.1 entry.2.2) entry.2.1 root = true
  within : ∀ total ∈ s.totalAmount, ∀ paid entry, paid ++ [entry] <+: entries →
    (i128.wrap (s.claimedAmount + amounts (paid ++ [entry])) : ℤ) ≤ total ∧
      (m = .exact → i128.Fits (s.claimedAmount + amounts (paid ++ [entry])))
  accepted : ∀ token ∈ s.token, ∀ paid entry, paid ++ [entry] <+: entries →
    env.accepts (s.paidTo env token paid) token env.currentContract entry.1 entry.2.2 = true

/-- The sum that is checked after some more entries does not depend on where the first amount has been added. -/
theorem within_add_iff {claimed amount : I128} {more total : ℤ} (h : m = .exact → i128.Fits (claimed + amount)) :
    (i128.wrap (i128.wrap (claimed + amount) + more) : ℤ) ≤ total ∧
      (m = .exact → i128.Fits (i128.wrap (claimed + amount) + more)) ↔
    (i128.wrap (claimed + (amount + more)) : ℤ) ≤ total ∧ (m = .exact → i128.Fits (claimed + (amount + more))) := by
  rw [wrap_wrap_add, add_assoc]
  refine and_congr_right fun _ => forall_congr' fun hm => ?_
  rw [wrap_of_fits (h hm), add_assoc]

/-- The first entry is checked in the state, the others in the one its payment leaves. -/
theorem payable_cons (hs : s.Ready root total token) {claimant : Address} {proof : List ProofNode} {amount : I128} :
    Payable m env s ((claimant, proof, amount) :: entries) ↔
      verifyMerkleProof env (computeLeaf env claimant amount) proof root = true ∧
      Entitled m env s token total s.claimedAmount claimant amount ∧
      Payable m env { s.pay env token claimant amount with claimedAmount := i128.wrap (s.claimedAmount + amount) }
        entries := by
  have hsum (paid : List Entry) : amounts ((claimant, proof, amount) :: paid) = amount + amounts paid := List.sum_cons
  have hone : amounts [(claimant, proof, amount)] = amount := List.sum_singleton
  have hclaimed (a : Address) : (State.hasClaimed { s.pay env token claimant amount with
      claimedAmount := i128.wrap (s.claimedAmount + amount) } a = false) ↔ s.hasClaimed a = false ∧ a ≠ claimant := by
    show (s.pay env token claimant amount).hasClaimed a = false ↔ _
    rw [State.hasClaimed_pay, Bool.or_eq_false_iff, decide_eq_false_iff_not]
  constructor
  · rintro ⟨hnodup, hsigned, hpos, hfresh, hproven, hwithin, haccepted⟩
    have hproven := List.forall_mem_cons.1 (hproven root hs.root)
    obtain ⟨hfirst, hwithin⟩ := List.forall_concat_prefix_cons.1 (hwithin total hs.total)
    obtain ⟨hacceptedFirst, haccepted⟩ := List.forall_concat_prefix_cons.1 (haccepted token hs.token)
    rw [List.forall_mem_cons] at hsigned hpos hfresh
    rw [List.map_cons, List.nodup_cons] at hnodup
    rw [List.nil_append, hone] at hfirst
    refine ⟨hproven.1, ⟨hsigned.1, hpos.1, hfresh.1, hfirst.1, hfirst.2, hacceptedFirst⟩,
      hnodup.2, hsigned.2, hpos.2, ?_, ?_, ?_, ?_⟩
    · intro entry hentry
      refine (hclaimed _).2 ⟨hfresh.2 entry hentry, fun heq => hnodup.1 ?_⟩
      exact List.mem_map.2 ⟨entry, hentry, heq⟩
    · rintro root' hroot'
      cases hs.root.symm.trans hroot'
      exact hproven.2
    · rintro total' htotal' paid entry hp
      cases hs.total.symm.trans htotal'
      have hle := hwithin paid entry hp
      rw [List.cons_append, hsum] at hle
      exact (within_add_iff hfirst.2).2 hle
    · rintro token' htoken' paid entry hp
      cases hs.token.symm.trans htoken'
      exact haccepted paid entry hp
  · rintro ⟨hvalid, ⟨hsigned, hpos, hfresh, hfirst, hfits, haccepted⟩, h⟩
    have hfresh' (entry : Entry) (hentry : entry ∈ entries) := (hclaimed _).1 (h.fresh entry hentry)
    refine ⟨?_, List.forall_mem_cons.2 ⟨hsigned, h.signed⟩, List.forall_mem_cons.2 ⟨hpos, h.positive⟩,
      List.forall_mem_cons.2 ⟨hfresh, fun entry hentry => (hfresh' entry hentry).1⟩, ?_, ?_, ?_⟩
    · rw [List.map_cons, List.nodup_cons]
      refine ⟨fun hmem => ?_, h.nodup⟩
      obtain ⟨entry, hentry, heq⟩ := List.mem_map.1 hmem
      exact (hfresh' entry hentry).2 heq
    · rintro root' hroot'
      cases hs.root.symm.trans hroot'
      exact List.forall_mem_cons.2 ⟨hvalid, h.proven root hs.root⟩
    · rintro total' htotal'
      cases hs.total.symm.trans htotal'
      refine List.forall_concat_prefix_cons.2 ⟨by rw [List.nil_append, hone]; exact ⟨hfirst, hfits⟩,
        fun paid entry hp => ?_⟩
      rw [List.cons_append, hsum]
      exact (within_add_iff hfits).1 (h.within total hs.total paid entry hp)
    · rintro token' htoken'
      cases hs.token.symm.trans htoken'
      exact List.forall_concat_prefix_cons.2 ⟨haccepted, h.accepted token hs.token⟩

theorem run_foldlM_claimEntry : ∀ {entries : List Entry} {s : State} {results : List ClaimResult} {claimedTotal : I128},
    s.Ready root total token →
    (((entries.foldlM (claimEntry env root token total) (results, claimedTotal, s)).run m).isSome = true ↔
      Payable m env { s with claimedAmount := claimedTotal } entries)
  | [], s, results, claimedTotal, hs => by
    rw [List.foldlM_nil, run_pure]
    refine ⟨fun _ => ⟨List.nodup_nil, by simp, by simp, by simp, by simp, by simp, by simp⟩, fun _ => rfl⟩
  | (claimant, proof, amount) :: entries, s, results, claimedTotal, hs => by
    rw [List.foldlM_cons, run_bind, payable_cons (s := { s with claimedAmount := claimedTotal })
      ⟨hs.root, hs.total, hs.token⟩, entitled_iff]
    cases hstep : (claimEntry env root token total (results, claimedTotal, s) (claimant, proof, amount)).run m with
    | none =>
      refine iff_of_false Bool.false_ne_true ?_
      rintro ⟨hvalid, hentitled, -⟩
      cases hstep.symm.trans (run_claimEntry.2 ⟨hvalid, hentitled, rfl⟩)
    | some r =>
      obtain ⟨hvalid, hentitled, rfl⟩ := run_claimEntry.1 hstep
      rw [Option.bind_some, run_foldlM_claimEntry (s := s.pay env token claimant amount) ⟨hs.root, hs.total, hs.token⟩]
      exact ⟨fun h => ⟨hvalid, hentitled, h⟩, fun h => h.2.2⟩

theorem isSome_batchClaim (hs : s.Ready root total token) :
    ((batchClaim env s entries).run m).isSome = true ↔ s.Open env ∧ Payable m env s entries := by
  rw [run_batchClaim hs.root hs.total hs.token]
  split
  · rename_i hopen
    rw [Option.isSome_map, run_foldlM_claimEntry hs]
    exact (and_iff_right hopen).symm
  · rename_i hopen
    exact iff_of_false Bool.false_ne_true fun h => hopen h.1

/-- In every state reached, a batch does what its entries would do one after another, with the same receipts, payments
and totals, exactly if it is not an empty batch on a closed airdrop, and either all its amounts meet the snapshot or the
airdrop is closed or a check of the batch fails. -/
theorem batch_agrees_iff_snapshot {ok : Rule} {e : Env} (h : (contract m).Reach ok e s) :
    (batchClaim env s entries).run m = (claimEach env s entries).run m ↔
      (entries ≠ [] ∨ s.Open env) ∧
      ((∀ entry ∈ entries, s.Snapshot entry.2.2) ∨ ¬ (s.Open env ∧ Payable m env s entries)) := by
  obtain ⟨root, total, token, hready, -⟩ := reach_within h
  rw [← isSome_batchClaim hready, Bool.not_eq_true, Option.isSome_eq_false_iff, Option.isNone_iff_eq_none]
  have hbatch : (batchClaim env s entries).run m = _ := run_batchClaim hready.root hready.total hready.token
  by_cases hopen : s.Open env
  · rw [if_pos hopen] at hbatch
    refine ⟨fun hagree => ⟨.inr hopen, ?_⟩, ?_⟩
    · -- single claims that succeed have met the snapshot, so a batch that agrees with them has too
      cases hrun : (batchClaim env s entries).run m with
      | none => exact .inr rfl
      | some r => exact .inl (snapshot_of_foldlM_claimNext hready (hagree.symm.trans hrun))
    · rintro ⟨-, hsnapshot | hnone⟩
      · rw [hbatch]
        exact (run_foldlM_claimNext hready hopen hsnapshot).symm
      · rw [hnone]
        cases hrun : (claimEach env s entries).run m with
        | none => rfl
        | some r =>
          have hsnapshot := snapshot_of_foldlM_claimNext hready hrun
          have hagree : (claimEach env s entries).run m = _ := run_foldlM_claimNext hready hopen hsnapshot
          rw [← hbatch, hnone, hrun] at hagree
          exact hagree.symm
  · -- a closed airdrop refuses every batch, but no claims at all are not refused
    rw [if_neg hopen] at hbatch
    rw [hbatch]
    constructor
    · intro hagree
      refine ⟨.inl ?_, .inr rfl⟩
      rintro rfl
      rw [claimEach, List.foldlM_nil, run_pure] at hagree
      cases hagree
    · rintro ⟨hne | hopen', -⟩
      · exact (run_claimEach_of_not_open hready hopen hne).symm
      · exact absurd hopen' hopen

/-- A batch of one on the deployed contract, which has no snapshot, is Alice's claim. -/
theorem batch_agrees_without_snapshot :
    ((batchClaim (signedAt 10) deployed [(alice, [], i128.wrap 500)]).run .wrapping).isSome = true ∧
    (batchClaim (signedAt 10) deployed [(alice, [], i128.wrap 500)]).run .wrapping =
      (claimEach (signedAt 10) deployed [(alice, [], i128.wrap 500)]).run .wrapping := by
  refine ⟨by decide +kernel, ?_⟩
  have hreach : (contract .wrapping).Reach Unrestricted _ _ := .init (deployment .wrapping).starts
  refine (batch_agrees_iff_snapshot hreach).2 ⟨.inl (List.cons_ne_nil _ _), .inl ?_⟩
  decide

/-- The snapshot fixes an amount of 100; a batch pays Alice 500, which no single claim does. -/
theorem batch_ignores_snapshot : ∃ r, (deployment .wrapping).after Unrestricted
      [signed 5 (.configureAirdrop (leafOf alice 500) 100 1000)] = some r ∧
    ((batchClaim (signedAt 10) r.2 [(alice, [], i128.wrap 500)]).run .wrapping).map
      (fun q => (q.2.claimedAmount : ℤ)) = some 500 ∧
    ((claimWithProofNodes (signedAt 10) r.2 alice [] 500).run .wrapping).isSome = false := by
  exact ⟨_, evaluated, by decide +kernel⟩

end Batches

end ArenaX.Airdrop
