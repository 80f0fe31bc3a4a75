/-
What the order of the seeds is for: good seeds meet late. In a bracket of `2 ^ k` places, players can meet in round `r`
only if they start from the same block of `2 ^ r` places, and the first `2 ^ j` seeds have one block of `2 ^ (k - j)`
places each. The seeds that nobody has are the opponents of the best ones, who have a bye.
-/
import ArenaX.Orchestrator.Seeding

namespace ArenaX.Orchestrator

variable {order : List ℕ}

/-! ## Blocks of places -/

/-- The block of `size` places in which a seed is. -/
def block (order : List ℕ) (size seed : ℕ) : ℕ := order.idxOf seed / size

/-- The first seeds, any power of two of them, are in different blocks. -/
def Separated (k : ℕ) (order : List ℕ) : Prop :=
  ∀ j ≤ k, ((List.range' 1 (2 ^ j)).map (block order (2 ^ (k - j)))).Nodup

theorem SeedOrder.mem_iff {size seed : ℕ} (h : SeedOrder size order) :
    seed ∈ order ↔ 1 ≤ seed ∧ seed ≤ size := by
  rw [h.perm.mem_iff, List.mem_range'_1]
  omega

theorem idxOf_flatMap_pair {f g : ℕ → ℕ} {seed : ℕ} : ∀ {l : List ℕ}, seed ∈ l → (∀ x ∈ l, f x = x ∧ g x ≠ seed) →
    (l.flatMap fun x => [f x, g x]).idxOf seed = 2 * l.idxOf seed
  | x :: l, hmem, hfg => by
    obtain ⟨hf, hg⟩ := hfg x (by simp)
    rw [List.flatMap_cons, hf]
    by_cases hx : x = seed
    · simp [hx]
    · have hrest := idxOf_flatMap_pair (List.mem_of_ne_of_mem (Ne.symm hx) hmem) fun y hy => hfg y (by simp [hy])
      simp only [List.cons_append, List.nil_append, List.idxOf_cons_ne _ hx, List.idxOf_cons_ne _ hg, hrest]
      omega

/-- A pass doubles the place of every seed. -/
theorem SeedOrder.idxOf_nextOrder {size seed : ℕ} (h : SeedOrder size order) (hseed : seed ∈ order) :
    (Orchestrator.nextOrder order).idxOf seed = 2 * order.idxOf seed := by
  refine idxOf_flatMap_pair (f := fun x => x) hseed fun x hx => ⟨rfl, ?_⟩
  -- the opponents that come in are none of the seeds that are there
  have := h.mem_iff.1 hseed
  have := h.mem_iff.1 hx
  rw [h.length]
  omega

theorem SeedOrder.nodup_blocks {size : ℕ} (h : SeedOrder size order) :
    ((List.range' 1 size).map (block order 1)).Nodup := by
  refine List.Nodup.map_on ?_ List.nodup_range'
  intro x hx y _ hxy
  unfold block at hxy
  rw [Nat.div_one, Nat.div_one] at hxy
  exact (List.idxOf_inj (h.perm.mem_iff.2 hx)).1 hxy

theorem Separated.pass {k : ℕ} (h : SeedOrder (2 ^ k) order) (hsep : Separated k order) :
    Separated (k + 1) (nextOrder order) := by
  intro j hj
  rcases Nat.lt_or_ge k j with hlt | hle
  · obtain rfl : j = k + 1 := by omega
    rw [Nat.sub_self]
    exact h.pass.nodup_blocks
  · -- the blocks of the old seeds are twice as long as before, as their places are
    have hblock : ∀ seed ∈ List.range' 1 (2 ^ j), block (nextOrder order) (2 ^ (k + 1 - j)) seed =
        block order (2 ^ (k - j)) seed := by
      intro seed hseed
      have hmem : seed ∈ order := by
        have := Nat.pow_le_pow_right (n := 2) (by norm_num) hle
        rw [List.mem_range'_1] at hseed
        exact h.mem_iff.2 ⟨hseed.1, by omega⟩
      rw [block, h.idxOf_nextOrder hmem, Nat.succ_sub hle, pow_succ', Nat.mul_div_mul_left _ _ (by norm_num)]
      rfl
    rw [List.map_congr_left hblock]
    exact hsep j hle

theorem generateBracketOrder_separated {k : ℕ} (hk : 1 ≤ k) :
    SeedOrder (2 ^ k) (generateBracketOrder (2 ^ k)) ∧ Separated k (generateBracketOrder (2 ^ k)) := by
  refine generateBracketOrder_rule (P := fun j order => SeedOrder (2 ^ j) order ∧ Separated j order)
    (fun h => h.1.length) (fun h => ⟨h.1.pass, h.2.pass h.1⟩) ⟨⟨List.Perm.refl _, by decide⟩, ?_⟩ hk
  intro j hj
  interval_cases j <;> decide

/-- Seeds that start from one block of `2 ^ r` places, and so can meet in round `r`, are not both among the first `2 ^
j` as long as more than that many players are left. -/
theorem Separated.lt_of_block_eq {k j r s s' : ℕ} (h : Separated k order) (hj : j ≤ k)
    (hs : 1 ≤ s ∧ s ≤ 2 ^ j) (hs' : 1 ≤ s' ∧ s' ≤ 2 ^ j) (hne : s ≠ s')
    (hmeet : block order (2 ^ r) s = block order (2 ^ r) s') : k - j < r := by
  by_contra! hr
  refine hne (List.inj_on_of_nodup_map (h j hj) (List.mem_range'_1.2 (by omega)) (List.mem_range'_1.2 (by omega)) ?_)
  -- a block of `2 ^ r` places is a part of one of `2 ^ (k - j)`
  obtain ⟨d, hd⟩ := Nat.exists_eq_add_of_le hr
  unfold block at hmeet ⊢
  rw [hd, pow_add, ← Nat.div_div_eq_div_mul, ← Nat.div_div_eq_div_mul, hmeet]

/-! ## Byes -/

/-- The player who has a bye. -/
def Fixture.byePlayer (f : Fixture) : Option Uuid := if f.player2Id.isNone then f.player1Id else none

section Byes

variable {participants : List Uuid} {k : ℕ}

theorem seededPlayer_eq_none {seed : ℕ} (h : participants.length < seed) : seededPlayer participants seed = none :=
  if_neg (by omega)

theorem seededPlayer_eq_some {seed : ℕ} (h : 1 ≤ seed) (h' : seed ≤ participants.length) :
    ∃ p, seededPlayer participants seed = some p := by
  rw [seededPlayer, if_pos h']
  exact ⟨_, List.getElem?_eq_getElem (by omega)⟩

/-- The seeds whose opponent is not there. -/
theorem byePlayer_seedFixture {seeds : ℕ × ℕ} (hn : participants.length ≤ 2 ^ k)
    (hhalf : 2 ^ k < 2 * participants.length) (hpos : 1 ≤ seeds.1 ∧ 1 ≤ seeds.2)
    (hsum : seeds.1 + seeds.2 = 2 ^ k + 1) :
    ((seedFixture participants seeds).bind Fixture.byePlayer).toList = [seeds.1, seeds.2].flatMap fun seed =>
      if seed ≤ 2 ^ k - participants.length then (seededPlayer participants seed).toList else [] := by
  obtain ⟨a, b⟩ := seeds
  simp only [List.flatMap_cons, List.flatMap_nil, List.append_nil, seedFixture]
  rcases Nat.lt_or_ge participants.length a with ha | ha
  · obtain ⟨_, hp⟩ := seededPlayer_eq_some hpos.2 (by omega : b ≤ participants.length)
    rw [seededPlayer_eq_none ha, hp, if_neg (by omega), if_pos (by omega)]
    rfl
  · obtain ⟨_, hp⟩ := seededPlayer_eq_some hpos.1 ha
    rcases Nat.lt_or_ge participants.length b with hb | hb
    · rw [seededPlayer_eq_none hb, hp, if_pos (by omega), if_neg (by omega)]
      rfl
    · obtain ⟨q, hq⟩ := seededPlayer_eq_some hpos.2 hb
      rw [hp, hq, if_neg (by omega), if_neg (by omega)]
      rfl

theorem flatMap_seededPlayer_take {size m : ℕ} (h : participants.length ≤ size) :
    ((List.range' 1 size).flatMap fun seed => if seed ≤ m then (seededPlayer participants seed).toList else []) =
      participants.take m := by
  have hall : ((List.range size).flatMap fun i => (participants.take m)[i]?.toList) = participants.take m :=
    flatMap_range_getElem? (by simp; omega)
  refine Eq.trans ?_ hall
  rw [List.range'_eq_map_range, List.flatMap_map]
  refine List.flatMap_congr fun i _ => ?_
  rw [Nat.add_comm 1, seededPlayer_succ, List.getElem?_take]
  by_cases him : i < m
  · rw [if_pos him, if_pos (Nat.succ_le_of_lt him)]
  · rw [if_neg him, if_neg (mt Nat.lt_of_succ_le him)]
    rfl

end Byes

/-- The seeds of a bracket of `2 ^ k` places. Each has one place. The first `2 ^ j` are in different blocks of `2 ^ (k -
j)` places, so two of them can meet only when at most `2 ^ j` players are left. With `n` participants, more than half of
the places, every match of the first round has a player, and those have a bye who have the first `2 ^ k - n` seeds. -/
theorem seeding_fair {k : ℕ} (hk : 1 ≤ k) :
    (generateBracketOrder (2 ^ k)).Perm (List.range' 1 (2 ^ k)) ∧
    (∀ j ≤ k, ((List.range' 1 (2 ^ j)).map (block (generateBracketOrder (2 ^ k)) (2 ^ (k - j)))).Nodup) ∧
    (∀ j ≤ k, ∀ s ∈ List.range' 1 (2 ^ j), ∀ s' ∈ List.range' 1 (2 ^ j), s ≠ s' →
      ∀ r, block (generateBracketOrder (2 ^ k)) (2 ^ r) s = block (generateBracketOrder (2 ^ k)) (2 ^ r) s' →
        2 ^ (k + 1 - r) ≤ 2 ^ j) ∧
    ∀ participants : List Uuid, 2 ^ (k - 1) < participants.length → participants.length ≤ 2 ^ k →
      ∃ fs : List Fixture, (generateBracketOrder (2 ^ k)).pairs.map (seedFixture participants) = fs.map some ∧
        (∀ f ∈ fs, f.player1Id.isSome) ∧
        (fs.filterMap Fixture.byePlayer).Perm (participants.take (2 ^ k - participants.length)) := by
  obtain ⟨horder, hsep⟩ := generateBracketOrder_separated hk
  refine ⟨horder.perm, hsep, ?_, ?_⟩
  · intro j hj s hs s' hs' hne r hmeet
    rw [List.mem_range'_1] at hs hs'
    have := hsep.lt_of_block_eq hj (by omega) (by omega) hne hmeet
    exact Nat.pow_le_pow_right (by norm_num) (by omega)
  · intro participants hhalf hn
    set order := generateBracketOrder (2 ^ k)
    have hfixture : ∀ seeds ∈ order.pairs, _ := fun seeds => seedFixture_of_mem_pairs horder hk hhalf
    obtain ⟨fs, hfs⟩ := exists_map_some fun seeds hseeds => (hfixture seeds hseeds).imp fun _ h => h.1
    refine ⟨fs, hfs, ?_, ?_⟩
    · intro f hf
      obtain ⟨seeds, hseeds, heq⟩ := List.mem_map.1 (hfs ▸ List.mem_map_of_mem hf : some f ∈ _)
      obtain ⟨f', hf', hinitial, -⟩ := hfixture seeds hseeds
      rw [hf'] at heq
      cases heq
      obtain ⟨a, b, rfl⟩ | ⟨a, rfl⟩ := hinitial <;> rfl
    · have hpow : 2 ^ k = 2 * 2 ^ (k - 1) := by
        rw [← pow_succ', Nat.sub_add_cancel hk]
      have heven : order.length % 2 = 0 := by
        rw [horder.length, hpow]
        omega
      have hbyes : fs.filterMap Fixture.byePlayer = order.flatMap fun seed =>
          if seed ≤ 2 ^ k - participants.length then (seededPlayer participants seed).toList else [] :=
        calc fs.filterMap Fixture.byePlayer
          _ = (fs.map some).flatMap fun o => (o.bind Fixture.byePlayer).toList := by
            rw [List.flatMap_map, List.filterMap_eq_flatMap_toList]
            rfl
          _ = order.pairs.flatMap fun seeds => ((seedFixture participants seeds).bind Fixture.byePlayer).toList := by
            rw [← hfs, List.flatMap_map]
          _ = order.pairs.flatMap fun seeds => [seeds.1, seeds.2].flatMap fun seed =>
              if seed ≤ 2 ^ k - participants.length then (seededPlayer participants seed).toList else [] := by
            refine List.flatMap_congr fun seeds hseeds => ?_
            have hmem := List.mem_of_mem_pairs hseeds
            rw [horder.mem_iff, horder.mem_iff] at hmem
            exact byePlayer_seedFixture hn (by omega) ⟨hmem.1.1, hmem.2.1⟩ (horder.sums seeds hseeds)
          _ = _ := by rw [← List.flatMap_assoc, List.flatMap_pairs heven]
      rw [hbyes]
      refine (horder.perm.flatMap_right _).trans ?_
      rw [flatMap_seededPlayer_take hn]

/-- Five participants in a bracket of eight: the first three seeds have a bye. -/
theorem seeding_fair_five : ∃ fs : List Fixture,
    (generateBracketOrder 8).pairs.map (seedFixture [⟨1⟩, ⟨2⟩, ⟨3⟩, ⟨4⟩, ⟨5⟩]) = fs.map some ∧
      (fs.filterMap Fixture.byePlayer).Perm [⟨1⟩, ⟨2⟩, ⟨3⟩] := by
  obtain ⟨fs, hfs, -, hbyes⟩ := (seeding_fair (k := 3) (by decide)).2.2.2 [⟨1⟩, ⟨2⟩, ⟨3⟩, ⟨4⟩, ⟨5⟩] (by simp) (by simp)
  exact ⟨fs, hfs, hbyes⟩

end ArenaX.Orchestrator
