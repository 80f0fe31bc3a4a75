/-
Byte strings: strings of a fixed length, and machine integers written in big-endian order, most significant byte
first and negative ones in two's complement.
-/
import ArenaX.Lib.MachineInt

namespace Machine

abbrev Bytes := List UInt8

/-- Byte strings of a length. -/
abbrev BytesN (n : ℕ) := { bytes : Bytes // bytes.length = n }

theorem BytesN.append_inj {n : ℕ} {a b c d : BytesN n} (h : a.1 ++ b.1 = c.1 ++ d.1) : a = c ∧ b = d := by
  obtain ⟨hleft, hright⟩ := List.append_inj h (a.2.trans c.2.symm)
  exact ⟨Subtype.ext hleft, Subtype.ext hright⟩

/-- The last `n` bytes of a number. -/
def beBytes : ℕ → ℕ → Bytes
  | 0, _ => []
  | n + 1, x => beBytes n (x / 256) ++ [UInt8.ofNat (x % 256)]

@[simp] theorem length_beBytes : ∀ n x, (beBytes n x).length = n
  | 0, _ => rfl
  | n + 1, x => by rw [beBytes, List.length_append, length_beBytes n, List.length_singleton]

/-- A number with at most `n` bytes is determined by them. -/
theorem beBytes_inj : ∀ {n x y : ℕ}, x < 256 ^ n → y < 256 ^ n → beBytes n x = beBytes n y → x = y
  | 0, x, y, hx, hy, _ => by omega
  | n + 1, x, y, hx, hy, h => by
    obtain ⟨hrest, hlast⟩ := List.append_inj' h rfl
    have hlast' : x % 256 = y % 256 := by
      have := congrArg UInt8.toNat (List.singleton_inj.1 hlast)
      rwa [UInt8.toNat_ofNat', UInt8.toNat_ofNat', Nat.mod_mod, Nat.mod_mod] at this
    have hrest' : x / 256 = y / 256 :=
      beBytes_inj (Nat.div_lt_of_lt_mul (by rwa [pow_succ'] at hx)) (Nat.div_lt_of_lt_mul (by rwa [pow_succ'] at hy))
        hrest
    rw [← Nat.div_add_mod x 256, ← Nat.div_add_mod y 256, hrest', hlast']

/-- The sixteen bytes of a 128-bit integer. -/
def I128.toBeBytes (x : I128) : Bytes := beBytes 16 ((x : ℤ) % 2 ^ 128).toNat

theorem I128.length_toBeBytes (x : I128) : x.toBeBytes.length = 16 := length_beBytes 16 _

theorem I128.toBeBytes_injective : Function.Injective I128.toBeBytes := by
  intro x y h
  have hx := x.bounds
  have hy := y.bounds
  have heq := beBytes_inj (by norm_num; omega) (by norm_num; omega) h
  apply IntType.Val.ext
  omega

end Machine
