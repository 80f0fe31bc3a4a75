/-
Histories of a value: entries appended in the order of their keys, an entry with the key of the last one
taking its place, and a binary search for the entry in force at a key. Looking up after a write is the
written entry from its key on, and the old history before.
-/
import Mathlib.Tactic

namespace History

/-- Binary search in `low..high` for the first index at which `p` fails, in at most `fuel` rounds. -/
def bisect (p : ℕ → Bool) : ℕ → ℕ → ℕ → ℕ
  | 0, low, _ => low
  | fuel + 1, low, high =>
    if low < high then
      let mid := low + (high - low) / 2
      if p mid then bisect p fuel (mid + 1) high else bisect p fuel low mid
    else low

/-- As many rounds as there are indices are enough to find the partition point. -/
theorem bisect_eq {p : ℕ → Bool} {k : ℕ} (hp : ∀ i, p i = true ↔ i < k) :
    ∀ {fuel low high : ℕ}, high - low ≤ fuel → low ≤ k → k ≤ high → bisect p fuel low high = k
  | 0, low, high, hfuel, hlow, hhigh => by
    rw [bisect]; omega
  | fuel + 1, low, high, hfuel, hlow, hhigh => by
    rw [bisect]
    split
    · dsimp only
      split
      · rename_i hmid
        have := (hp _).1 hmid
        exact bisect_eq hp (by omega) (by omega) hhigh
      · rename_i hmid
        rw [hp] at hmid
        exact bisect_eq hp (by omega) hlow (by omega)
    · omega

variable {α T : Type} [LinearOrder T] (key : α → T)

/-- Record an entry, in place of the last one if that has the same key. -/
def put (l : List α) (c : α) : List α := match l.getLast? with
  | some last => if key last = key c then l.dropLast ++ [c] else l ++ [c]
  | none => l ++ [c]

/-- The entry in force at a key: the last one at or before it. -/
def lookup (l : List α) (t : T) : Option α :=
  let low := bisect (fun i => l[i]?.any fun c => key c ≤ t) l.length 0 l.length
  if low = 0 then none else l[low - 1]?

/-- The keys stand in order, and none is after `t`. -/
structure UpTo (t : T) (l : List α) : Prop where
  sorted : l.Pairwise fun c c' => key c ≤ key c'
  le : ∀ c ∈ l, key c ≤ t

variable {key} {l : List α} {c : α} {t t' : T}

theorem UpTo.nil : UpTo key t [] := ⟨.nil, by simp⟩

theorem UpTo.mono (h : UpTo key t l) (ht : t ≤ t') : UpTo key t' l := ⟨h.sorted, fun c hc => (h.le c hc).trans ht⟩

/-- A history falls into the entries at or before a key and those after it. -/
theorem lookup_append {pre post : List α} (hpre : ∀ c ∈ pre, key c ≤ t) (hpost : ∀ c ∈ post, t < key c) :
    lookup key (pre ++ post) t = pre.getLast? := by
  have hp : ∀ i, ((pre ++ post)[i]?.any fun c => key c ≤ t) = true ↔ i < pre.length := by
    intro i
    rcases lt_or_ge i pre.length with hi | hi
    · rw [List.getElem?_append_left hi, List.getElem?_eq_getElem hi, Option.any_some, decide_eq_true_iff]
      exact ⟨fun _ => hi, fun _ => hpre _ (List.getElem_mem hi)⟩
    · rw [List.getElem?_append_right hi]
      refine ⟨fun h => ?_, fun h => absurd h (by omega)⟩
      cases hc : post[i - pre.length]? with
      | none => rw [hc] at h; cases h
      | some c =>
        rw [hc, Option.any_some, decide_eq_true_iff] at h
        exact absurd h (hpost c (List.mem_of_getElem? hc)).not_ge
  unfold lookup
  rw [bisect_eq hp (by simp) (by simp) (by simp)]
  dsimp only
  split
  · rename_i hnil
    rw [List.length_eq_zero_iff.1 hnil, List.getLast?_nil]
  · rw [List.getElem?_append_left (by omega), List.getLast?_eq_getElem?]

theorem exists_split (t : T) : ∀ {l : List α}, l.Pairwise (fun c c' => key c ≤ key c') →
    ∃ pre post, l = pre ++ post ∧ (∀ c ∈ pre, key c ≤ t) ∧ ∀ c ∈ post, t < key c
  | [], _ => ⟨[], [], rfl, by simp, by simp⟩
  | c :: l, h => by
    obtain ⟨hc, hl⟩ := List.pairwise_cons.1 h
    rcases le_or_gt (key c) t with hle | hlt
    · obtain ⟨pre, _, rfl, hpre, hpost⟩ := exists_split t hl
      exact ⟨c :: pre, _, rfl, List.forall_mem_cons.2 ⟨hle, hpre⟩, hpost⟩
    · exact ⟨[], c :: l, rfl, by simp, List.forall_mem_cons.2 ⟨hlt, fun c' hc' => hlt.trans_le (hc c' hc')⟩⟩

/-- At or after every key, the last entry is in force. -/
theorem lookup_of_le (h : ∀ c ∈ l, key c ≤ t) : lookup key l t = l.getLast? := by
  simpa using lookup_append h (show ∀ c ∈ ([] : List α), t < key c by simp)

theorem getLast?_put (key : α → T) (l : List α) (c : α) : (put key l c).getLast? = some c := by
  unfold put
  split
  · split <;> simp
  · simp

/-- Recording keeps the entries before the last, and the last one if its key is another. -/
theorem put_eq (key : α → T) (l : List α) (c : α) : ∃ kept, put key l c = kept ++ [c] ∧
    (kept = l ∨ ∃ last, l = kept ++ [last] ∧ key last = key c) := by
  unfold put
  split
  · rename_i last hlast
    split
    · rename_i hkey
      refine ⟨l.dropLast, rfl, .inr ⟨last, ?_, hkey⟩⟩
      exact (List.dropLast_append_getLast? last hlast).symm
    · exact ⟨l, rfl, .inl rfl⟩
  · exact ⟨l, rfl, .inl rfl⟩

theorem UpTo.put (h : UpTo key (key c) l) : UpTo key (key c) (put key l c) := by
  obtain ⟨kept, hput, hkept⟩ := put_eq key l c
  have hsub : kept.Sublist l := by
    rcases hkept with rfl | ⟨last, rfl, -⟩
    · exact .refl _
    · exact List.sublist_append_left _ _
  rw [hput]
  refine ⟨List.pairwise_append.2 ⟨h.sorted.sublist hsub, List.pairwise_singleton _ _, ?_⟩, ?_⟩
  · intro c' hc' c'' hc''
    rw [List.mem_singleton.1 hc'']
    exact h.le c' (hsub.subset hc')
  · intro c' hc'
    rcases List.mem_append.1 hc' with hc' | hc'
    · exact h.le c' (hsub.subset hc')
    · rw [List.mem_singleton.1 hc']

/-- Keys that all differ go on differing: an entry with the key of the last one has taken its place. -/
theorem UpTo.strict_put (h : UpTo key (key c) l) (hs : l.Pairwise fun c c' => key c < key c') :
    (History.put key l c).Pairwise fun c c' => key c < key c' := by
  have append {kept : List α} (hkept : kept.Pairwise fun c c' => key c < key c')
      (hlt : ∀ c' ∈ kept, key c' < key c) : (kept ++ [c]).Pairwise fun c c' => key c < key c' :=
    List.pairwise_append.2 ⟨hkept, List.pairwise_singleton _ _, by simpa using hlt⟩
  unfold History.put
  split
  · rename_i last hlast
    obtain ⟨older, rfl⟩ := List.getLast?_eq_some_iff.1 hlast
    obtain ⟨holder, -, hlt⟩ := List.pairwise_append.1 hs
    have hlt (c' : α) (hc' : c' ∈ older) : key c' < key last := hlt c' hc' last (List.mem_singleton_self last)
    split
    · rename_i hkey
      rw [List.dropLast_concat]
      exact append holder fun c' hc' => hkey ▸ hlt c' hc'
    · rename_i hkey
      have hlast : key last < key c := (h.le last (by simp)).lt_of_ne hkey
      refine append hs fun c' hc' => ?_
      rcases List.mem_append.1 hc' with hc' | hc'
      · exact (hlt c' hc').trans hlast
      · rwa [List.mem_singleton.1 hc']
  · rename_i hnone
    rw [List.getLast?_eq_none_iff.1 hnone]
    exact List.pairwise_singleton _ _

/-- A recorded entry is in force from its key on, and changes nothing before it. -/
theorem lookup_put (h : UpTo key (key c) l) (t : T) :
    lookup key (put key l c) t = if key c ≤ t then some c else lookup key l t := by
  split
  · rename_i hle
    rw [lookup_of_le fun c' hc' => (h.put.le c' hc').trans hle, getLast?_put]
  · rename_i hlt
    rw [not_le] at hlt
    obtain ⟨kept, hput, hkept⟩ := put_eq key l c
    have hkeep : lookup key (kept ++ [c]) t = lookup key kept t := by
      obtain ⟨_, _, rfl, hpre, hpost⟩ := exists_split t (List.pairwise_append.1 (hput ▸ h.put.sorted)).1
      rw [lookup_append hpre hpost, List.append_assoc, lookup_append hpre]
      simpa [or_imp, forall_and] using ⟨hpost, hlt⟩
    rw [hput, hkeep]
    rcases hkept with rfl | ⟨last, rfl, hlast⟩
    · rfl
    · -- the entry it takes the place of has the same key, which is after `t` as well
      obtain ⟨_, _, rfl, hpre, hpost⟩ := exists_split t (List.pairwise_append.1 h.sorted).1
      rw [lookup_append hpre hpost, List.append_assoc, lookup_append hpre]
      simpa [or_imp, forall_and, hlast] using ⟨hpost, hlt⟩

end History
