/-
The referral graph. An account record is created when its owner registers or when somebody registers under
it, so a referee who registers has no referees yet: the new link hangs below a node nobody points to, and
no cycle of any length can close. The number of referees is kept beside the links, in 32 bits.
-/
import ArenaX.Lib.Forest
import ArenaX.VirtualEconomy.Frame

namespace ArenaX.VirtualEconomy

open Machine Exec Sample
open Table (get_set get_set_of_ne)

variable {s : State}

/-- The referrer of an account, if it has one. -/
def State.referrer (s : State) (a : Address) : Option Address := (s.referral.account.get a).bind (·.referrer)

/-- The number of accounts whose referrer an account is. -/
noncomputable def State.referees (s : State) (a : Address) : ℕ := (Forest.children s.referrer a).ncard

/-- What a record contributes to the graph. -/
def ReferralAccount.links (account : ReferralAccount) : Option Address × U32 :=
  (account.referrer, account.referredCount)

/-- The links have no cycle, lead to accounts, and are counted up to the width of the counter. -/
structure Forested (s : State) : Prop where
  acyclic : Forest.Acyclic s.referrer
  known : ∀ {a b}, s.referrer a = some b → s.referral.account.get b ≠ none
  counted : s.referral.account.All fun a account => account.referredCount = u32.wrap (s.referees a)

section Steps

variable {m : Mode} {env : Env} {s s' : State} {c : Call} {a referee referrer : Address}

theorem referrer_eq_links (s : State) (a : Address) :
    s.referrer a = ((s.referral.account.get a).map ReferralAccount.links).bind Prod.fst := by
  unfold State.referrer
  cases s.referral.account.get a <;> rfl

/-- An account without a record has no referees. -/
theorem Forested.children_eq_empty (h : Forested s) (ha : s.referral.account.get a = none) :
    Forest.children s.referrer a = ∅ :=
  Set.eq_empty_iff_forall_notMem.2 fun _ hx => h.known hx ha

/-- The count of an account is right also where it has no record yet. -/
theorem Forested.counted_getD (h : Forested s) (a : Address) :
    ((s.referral.account.get a).getD {}).referredCount = u32.wrap (s.referees a) := by
  cases hget : s.referral.account.get a with
  | none =>
    unfold State.referees
    rw [h.children_eq_empty hget, Set.ncard_empty]
    rfl
  | some account => exact h.counted a account hget

theorem children_finite (s : State) (a : Address) : (Forest.children s.referrer a).Finite := by
  refine s.referral.account.finite_keys.subset fun x (hx : s.referrer x = some a) hnone => ?_
  rw [State.referrer, hnone] at hx
  cases hx

/-- Only the links of the records matter. -/
theorem Forested.of_links (h : Forested s)
    (hl : ∀ a, (s'.referral.account.get a).map ReferralAccount.links =
      (s.referral.account.get a).map ReferralAccount.links) : Forested s' := by
  have hparent : s'.referrer = s.referrer := by
    funext a
    rw [referrer_eq_links, referrer_eq_links, hl]
  refine ⟨hparent ▸ h.acyclic, fun {a b} hab => ?_, fun a account ha => ?_⟩
  · intro hb
    have := hl b
    rw [hb, Option.map_none, eq_comm, Option.map_eq_none_iff] at this
    exact h.known (hparent ▸ hab) this
  · have := hl a
    rw [ha, Option.map_some, eq_comm, Option.map_eq_some_iff] at this
    obtain ⟨old, hold, hlinks⟩ := this
    show account.links.2 = _
    unfold State.referees
    rw [hparent, ← hlinks]
    exact h.counted a old hold

theorem Forested.of_account (h : Forested s) (ha : s'.referral.account = s.referral.account) : Forested s' :=
  h.of_links fun a => by rw [ha]

/-- Writing a record back with the same links keeps the links. -/
theorem links_set {t : Table Address ReferralAccount} {old new : ReferralAccount} (hold : t.get a = some old)
    (hnew : new.links = old.links) (b : Address) :
    ((t.set a new).get b).map ReferralAccount.links = (t.get b).map ReferralAccount.links := by
  rw [get_set]
  split
  · rename_i hb; subst hb
    rw [hold, Option.map_some, Option.map_some, hnew]
  · rfl

theorem accrue_links {account account' : ReferralAccount} {reward : I128}
    (h : (account.accrue reward).run m = some account') : account'.links = account.links := by
  simp only [ReferralAccount.accrue, run_iff] at h
  obtain ⟨_, -, _, -, rfl⟩ := h
  rfl

theorem recordReferralActivity_forested {amount : I128} {rewards : I128 × I128} (hs : Forested s)
    (h : (recordReferralActivity env s referee amount).run m = some (rewards, s')) : Forested s' := by
  unfold recordReferralActivity at h
  simp only [run_iff, Prod.mk.injEq] at h
  obtain ⟨-, -, -, -, _, -, refereeAccount, hreferee, _, -, referrerAccount, hreferrer, -, -, _, -, -, -, volume, -, _,
    -, _, -, refereeAccount', h₁, referrerAccount', h₂, -, rfl⟩ := h
  have haccrued := accrue_links h₁
  have hlinks : ReferralAccount.links { refereeAccount' with
      qualifyingVolume := volume, lastActivity := env.timestamp } = refereeAccount.links := haccrued
  refine hs.of_links fun b => ?_
  rw [get_set]
  split
  · rename_i hb; subst hb
    rw [Option.map_some, accrue_links h₂, hreferrer, Option.map_some]
  · exact links_set hreferee hlinks b

theorem claimReferralRewards_forested {amount : I128} (hs : Forested s)
    (h : (claimReferralRewards env s a).run m = some (amount, s')) : Forested s' := by
  unfold claimReferralRewards at h
  simp only [run_iff, Prod.mk.injEq] at h
  obtain ⟨-, -, referral, hr, -, -, -, -, _, -, -, -, _, -, _, -, -, rfl⟩ := h
  exact hs.of_links (links_set hr rfl)

theorem setReferralFraudFlag_forested {flagged : Bool} (hs : Forested s)
    (h : (setReferralFraudFlag env s a flagged).run m = some s') : Forested s' := by
  simp only [setReferralFraudFlag, run_iff] at h
  obtain ⟨-, -, referral, hr, rfl⟩ := h
  exact hs.of_links (links_set hr rfl)

theorem configureReferrals_spec {config : ReferralConfig}
    (h : (configureReferrals env s config).run m = some s') : s' = { s with referral.config := some config } := by
  simp only [configureReferrals, run_iff] at h
  obtain ⟨-, -, -, -, _, -, rfl⟩ := h
  rfl

/-- A registration attaches the referee below the referrer and counts it there. -/
theorem registerReferral_spec (h : (registerReferral env s referee referrer).run .wrapping = some s') :
    referee ≠ referrer ∧ s.referral.account.get referee = none ∧
      ∃ account, (s.referral.account.get referrer).getD {} = account ∧
        s' = { s with
          referral.account := (s.referral.account.set referee ⟨some referrer, 0, 0, 0, 0, 0, false⟩).set referrer
            ({ account with referredCount := u32.wrap (account.referredCount + 1) }) } := by
  simp only [registerReferral, run_iff, run_unchecked_wrapping, Option.not_isSome_iff_eq_none] at h
  obtain ⟨-, -, -, -, -, hne, -, -, -, -, -, hnew, _, rfl, rfl⟩ := h
  refine ⟨hne, hnew, _, rfl, ?_⟩
  rw [get_set_of_ne _ _ (Ne.symm hne)]

theorem registerReferral_referrer (h : (registerReferral env s referee referrer).run .wrapping = some s') :
    s'.referrer = Function.update s.referrer referee (some referrer) := by
  obtain ⟨hne, -, account, haccount, rfl⟩ := registerReferral_spec h
  funext a
  unfold State.referrer
  rw [get_set, get_set, Function.update_apply]
  by_cases ha : a = referrer
  · subst ha
    rw [if_pos rfl, if_neg hne.symm, ← haccount]
    cases s.referral.account.get a <;> rfl
  · rw [if_neg ha]
    split <;> rfl

theorem registerReferral_forested (hs : Forested s)
    (h : (registerReferral env s referee referrer).run .wrapping = some s') : Forested s' := by
  have hparent := registerReferral_referrer h
  obtain ⟨hne, hnew, account, haccount, rfl⟩ := registerReferral_spec h
  have hleaf := hs.children_eq_empty hnew
  have hroot : s.referrer referee = none := by rw [State.referrer, hnew]; rfl
  refine ⟨hparent ▸ hs.acyclic.attach hleaf hne, fun {a b} hab => ?_, fun a account' ha => ?_⟩
  · rw [hparent, Function.update_apply] at hab
    rw [get_set, get_set]
    -- the new link leads to the referrer, whose record has just been written
    split at hab
    · cases hab; simp
    · have := hs.known hab
      split
      · simp
      · split <;> simp [this]
  · unfold State.referees
    rw [hparent]
    rw [get_set] at ha
    by_cases har : a = referrer
    · subst har
      rw [if_pos rfl, Option.some.injEq] at ha
      have hold : account.referredCount = u32.wrap (s.referees a) := haccount ▸ hs.counted_getD a
      have hmem : referee ∉ Forest.children s.referrer a := by
        show s.referrer referee ≠ some a
        rw [hroot]; simp
      rw [Forest.children_attach_self, Set.ncard_insert_of_notMem hmem (children_finite s a), ← ha, hold,
        wrap_wrap_add]
      push_cast; rfl
    · rw [if_neg har, get_set] at ha
      rw [Forest.children_attach_of_ne hroot har]
      split at ha
      · rename_i hre; subst hre
        rw [hleaf, Set.ncard_empty, ← Option.some.inj ha]
        rfl
      · exact hs.counted a account' ha

theorem execute_forested (hs : Forested s) (h : (execute env s c).run .wrapping = some s') : Forested s' := by
  cases c with
  | registerReferral => exact registerReferral_forested hs h
  | recordReferralActivity => obtain ⟨_, h⟩ := run_snd_map h; exact recordReferralActivity_forested hs h
  | claimReferralRewards => obtain ⟨_, h⟩ := run_snd_map h; exact claimReferralRewards_forested hs h
  | setReferralFraudFlag => exact setReferralFraudFlag_forested hs h
  | configureReferrals =>
    cases configureReferrals_spec h
    exact hs.of_account rfl
  | _ => exact hs.of_account (by rw [(execute_frame h).referral rfl])

end Steps

theorem forested_of_reach {ok : Rule} (h : contract.Reach ok env s) : Forested s := by
  refine reach_invariant (P := Forested) ?_ (fun hs _ h => execute_forested hs h) h
  intro _ _ _
  exact ⟨Forest.acyclic_none, (fun h => by cases h), Table.All.empty⟩

/-- In every state reached the referral graph has no cycle, and the count of an account's referees is right
exactly as long as the counter is wide enough for it. -/
theorem referral_graph_acyclic_and_counted {s : State} (h : contract.Reach Unrestricted env s) :
    (∀ x, ¬ Relation.TransGen (fun x y => s.referrer x = some y) x x) ∧
    ∀ a account, s.referral.account.get a = some account →
      ((account.referredCount : ℤ) = s.referees a ↔ (s.referees a : ℤ) ≤ u32.max) := by
  have hs := forested_of_reach h
  refine ⟨hs.acyclic, fun a account ha => ?_⟩
  have hcount := hs.counted a account ha
  constructor
  · intro heq
    rw [← heq]; exact account.referredCount.hi
  · intro hle
    rw [hcount, wrap_of_fits ⟨by positivity, hle⟩]

/-- Three accounts in a chain, and a second referee for the first. -/
def referralDay : List (Env × Call) :=
  [signed 1 (.configureReferrals ⟨[⟨0, 100, 100⟩], 10, 60⟩),
    signed 2 (.registerReferral bob alice),
    signed 3 (.registerReferral carol bob),
    signed 4 (.registerReferral admin alice)]

theorem referrals_after_referralDay : ∃ env s account, contract.Reach Unrestricted env s ∧
    s.referral.account.get alice = some account ∧ (account.referredCount : ℤ) = 2 ∧
    ((account.referredCount : ℤ) = s.referees alice ↔ (s.referees alice : ℤ) ≤ u32.max) := by
  have hreach := reach_after (evaluated
    (o := (deployment 1000000 250).after Unrestricted referralDay))
  refine ⟨_, _, _, hreach, evaluated, by decide +kernel, ?_⟩
  exact (referral_graph_acyclic_and_counted hreach).2 alice _ (evaluated _)

/-! ## Past the width of the counter -/

/-- A state in which `n` accounts have registered under one account, and the next `⟨10 + n⟩` has not. -/
structure Recruited (n : ℕ) (env : Env) (s : State) : Prop where
  reachable : contract.Reach Unrestricted env s
  configured : s.referral.config ≠ none
  recruiter : ∀ account ∈ s.referral.account.get alice, account.flagged = false ∧ account.referrer = none
  fresh : ∀ i, 10 + n ≤ i → s.referral.account.get ⟨i⟩ = none
  referees : s.referees alice = n

/-- A transaction signed by the next account. -/
def signedByNext (n : ℕ) : Env := ⟨.signed [⟨10 + n⟩] 0 0, (signedAt 0).updateCollectionOnSale⟩

theorem registerReferral_accepted {n : ℕ} (hs : Recruited n env s) :
    ∃ s', (registerReferral (signedByNext n) s ⟨10 + n⟩ alice).run .wrapping = some s' := by
  have hne : (⟨10 + n⟩ : Address) ≠ alice := by simp [alice]; omega
  have hflag : ¬ ∃ account ∈ s.referral.account.get alice, account.flagged = true := by
    rintro ⟨account, ha, hf⟩
    rw [(hs.recruiter account ha).1] at hf; cases hf
  have hback : ¬ ∃ account ∈ s.referral.account.get alice, account.referrer = some ⟨10 + n⟩ := by
    rintro ⟨account, ha, hr⟩
    rw [(hs.recruiter account ha).2] at hr; cases hr
  simp only [registerReferral, run_iff, run_unchecked_wrapping, run_requireAuth]
  exact ⟨_, (), by simp [signedByNext, Host.Env.signed], (), by simpa using hs.configured, (), hne, (), hflag, (),
    hback, (), by simp [hs.fresh _ le_rfl], _, rfl, rfl⟩

theorem Recruited.next {n : ℕ} (hs : Recruited n env s) : ∃ env' s', Recruited (n + 1) env' s' := by
  obtain ⟨s', h⟩ := registerReferral_accepted hs
  have hparent := registerReferral_referrer h
  have hstep : contract.step (signedByNext n) s (.registerReferral ⟨10 + n⟩ alice) = some s' := h
  have hreach : contract.Reach Unrestricted _ s' := .step hs.reachable trivial hstep
  obtain ⟨hne, hnew, account, haccount, rfl⟩ := registerReferral_spec h
  refine ⟨_, _, hreach, hs.configured, fun account' ha => ?_, fun i hi => ?_, ?_⟩
  · dsimp only at ha
    rw [Table.get_set_self, Option.mem_some_iff] at ha
    rw [← ha, ← haccount]
    cases hget : s.referral.account.get alice with
    | none => exact ⟨rfl, rfl⟩
    | some old => exact hs.recruiter old hget
  · dsimp only
    rw [get_set_of_ne _ _ (by simp [alice]; omega), get_set_of_ne _ _ (by simp; omega)]
    exact hs.fresh i (by omega)
  · have hmem : (⟨10 + n⟩ : Address) ∉ Forest.children s.referrer alice := by
      show s.referrer _ ≠ _
      rw [State.referrer, hnew]; simp
    unfold State.referees
    rw [hparent, Forest.children_attach_self, Set.ncard_insert_of_notMem hmem (children_finite s alice)]
    exact congrArg (· + 1) hs.referees

theorem recruited_zero : ∃ env s, Recruited 0 env s := by
  have hrun : ((configureReferrals (signedAt 1) (deployed 1000000 250)
      ⟨[⟨0, 0, 0⟩], 10, 60⟩).run .wrapping).isSome = true := by decide +kernel
  obtain ⟨s, hs⟩ := Option.isSome_iff_exists.1 hrun
  have hstep : contract.step (signedAt 1) (deployed 1000000 250)
      (.configureReferrals ⟨[⟨0, 0, 0⟩], 10, 60⟩) = some s := hs
  have hreach : contract.Reach Unrestricted _ s := .step (.init (deployment 1000000 250).starts) trivial hstep
  cases configureReferrals_spec hs
  refine ⟨_, _, hreach, by simp, ?_, fun _ _ => rfl, ?_⟩
  · intro account ha
    cases ha
  · rw [State.referees, (forested_of_reach hreach).children_eq_empty rfl, Set.ncard_empty]

theorem exists_recruited : ∀ n, ∃ env s, Recruited n env s
  | 0 => recruited_zero
  | n + 1 => by
    obtain ⟨env, s, hs⟩ := exists_recruited n
    exact hs.next

/-- With 2^32 referees the counter of their referrer is back at zero. -/
theorem referral_count_wraps : ∃ env s account, contract.Reach Unrestricted env s ∧
    s.referral.account.get alice = some account ∧ (account.referredCount : ℤ) = 0 ∧ s.referees alice = 2 ^ 32 := by
  obtain ⟨env, s, hs⟩ := exists_recruited (2 ^ 32)
  have hforest := (forested_of_reach hs.reachable)
  cases hget : s.referral.account.get alice with
  | none =>
    have hzero := hs.referees
    rw [State.referees, hforest.children_eq_empty hget, Set.ncard_empty] at hzero
    omega
  | some account =>
    refine ⟨env, s, account, hs.reachable, hget, ?_, hs.referees⟩
    rw [hforest.counted alice account hget, hs.referees]
    decide

end ArenaX.VirtualEconomy
