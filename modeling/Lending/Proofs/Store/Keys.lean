import Lending.Store.Database
import Mathlib

/-!
# Keys of rows

The eight bytes that a row is kept under spell its number, so the order of the keys is the order of
the numbers.

* `compare_bigEndian`: the order.
* `ofBigEndian?_bigEndian`: the number of a key.
-/

namespace Lending

/-- The number that bytes spell, the highest first. -/
def spelled : Bytes → Nat
  | [] => 0
  | byte :: bytes => byte.toNat * 256 ^ bytes.length + spelled bytes

theorem spelled_lt (bytes : Bytes) : spelled bytes < 256 ^ bytes.length := by
  induction bytes with
  | nil => simp [spelled]
  | cons byte bytes ih =>
    have hbyte : byte.toNat + 1 ≤ 256 := byte.toNat_lt
    calc byte.toNat * 256 ^ bytes.length + spelled bytes
        < (byte.toNat + 1) * 256 ^ bytes.length := by rw [Nat.succ_mul]; omega
      _ ≤ 256 * 256 ^ bytes.length := Nat.mul_le_mul_right _ hbyte
      _ = 256 ^ (byte :: bytes).length := by rw [List.length_cons, Nat.pow_succ, Nat.mul_comm]

/-- Of two numbers with a higher and a lower part, the higher parts decide first. -/
theorem compare_parts {a b c d k : Nat} (hc : c < k) (hd : d < k) :
    compare (a * k + c) (b * k + d) = (compare a b).then (compare c d) := by
  rcases Nat.lt_trichotomy a b with hlt | rfl | hgt
  · have : a * k + k ≤ b * k := by
      rw [← Nat.succ_mul]
      exact Nat.mul_le_mul_right k hlt
    rw [Nat.compare_eq_lt.mpr hlt, Nat.compare_eq_lt.mpr (by omega)]
    rfl
  · rw [Nat.compare_eq_eq.mpr rfl]
    show compare (a * k + c) (a * k + d) = compare c d
    cases h : compare c d with
    | lt => exact Nat.compare_eq_lt.mpr (Nat.add_lt_add_left (Nat.compare_eq_lt.mp h) _)
    | eq => rw [Nat.compare_eq_eq.mp h, Nat.compare_eq_eq.mpr rfl]
    | gt => exact Nat.compare_eq_gt.mpr (Nat.add_lt_add_left (Nat.compare_eq_gt.mp h) _)
  · have : b * k + k ≤ a * k := by
      rw [← Nat.succ_mul]
      exact Nat.mul_le_mul_right k hgt
    rw [Nat.compare_eq_gt.mpr hgt, Nat.compare_eq_gt.mpr (by omega)]
    rfl

theorem UInt8.compare_toNat (x y : UInt8) : compare x y = compare x.toNat y.toNat := by
  cases h : compare x.toNat y.toNat with
  | lt => exact Std.compare_eq_lt.mpr (Nat.compare_eq_lt.mp h)
  | eq => exact Std.compare_eq_iff_eq.mpr (UInt8.toNat_inj.mp (Nat.compare_eq_eq.mp h))
  | gt => exact Std.compare_eq_gt.mpr (Nat.compare_eq_gt.mp h)

theorem UInt64.compare_toNat (x y : UInt64) : compare x y = compare x.toNat y.toNat := by
  cases h : compare x.toNat y.toNat with
  | lt => exact Std.compare_eq_lt.mpr (Nat.compare_eq_lt.mp h)
  | eq => exact Std.compare_eq_iff_eq.mpr (UInt64.toNat_inj.mp (Nat.compare_eq_eq.mp h))
  | gt => exact Std.compare_eq_gt.mpr (Nat.compare_eq_gt.mp h)

theorem compare_bytes {a b : Bytes} (h : a.length = b.length) :
    compare a b = compare (spelled a) (spelled b) := by
  induction a generalizing b with
  | nil =>
    obtain rfl : b = [] := List.length_eq_zero_iff.mp h.symm
    rfl
  | cons x xs ih =>
    cases b with
    | nil => simp at h
    | cons y ys =>
      have hlen : xs.length = ys.length := by simpa using h
      have hxs := spelled_lt xs
      have hys := spelled_lt ys
      rw [← hlen] at hys
      rw [spelled, spelled, ← hlen, compare_parts hxs hys, ← ih hlen, ← UInt8.compare_toNat,
        List.compare_cons_cons]

theorem spelled_bigEndian (n : UInt64) : spelled (bigEndian n) = n.toNat := by
  have hn := n.toNat_lt
  simp [bigEndian, spelled, Nat.shiftRight_eq_div_pow]
  omega

theorem compare_bigEndian (a b : UInt64) : compare (bigEndian a) (bigEndian b) = compare a b := by
  rw [compare_bytes (by rfl), spelled_bigEndian, spelled_bigEndian, UInt64.compare_toNat]

theorem bigEndian_injective {a b : UInt64} (h : bigEndian a = bigEndian b) : a = b := by
  rw [← UInt64.toNat_inj, ← spelled_bigEndian, h, spelled_bigEndian]

/-! ## Reading -/

theorem toNat_appendByte {n : UInt64} {byte : UInt8} (h : n.toNat * 256 + byte.toNat < 2 ^ 64) :
    ((n <<< 8) ||| byte.toUInt64).toNat = n.toNat * 256 + byte.toNat := by
  have hshift : (n <<< 8).toNat = n.toNat <<< 8 := by
    rw [UInt64.toNat_shiftLeft, show (8 : UInt64).toNat % 64 = 8 by decide]
    have hsmall : n.toNat <<< 8 < 2 ^ 64 := by
      rw [Nat.shiftLeft_eq]
      exact Nat.lt_of_le_of_lt (Nat.le_add_right _ _) h
    exact Nat.mod_eq_of_lt hsmall
  have hor := Nat.shiftLeft_add_eq_or_of_lt byte.toNat_lt n.toNat
  rw [UInt64.toNat_or, hshift, UInt8.toNat_toUInt64, ← hor, Nat.shiftLeft_eq]

theorem foldl_appendByte (bytes : Bytes) (n : UInt64)
    (h : n.toNat * 256 ^ bytes.length + spelled bytes < 2 ^ 64) :
    (bytes.foldl (fun (m : UInt64) byte => (m <<< 8) ||| byte.toUInt64) n).toNat =
      n.toNat * 256 ^ bytes.length + spelled bytes := by
  induction bytes generalizing n with
  | nil => simp [spelled]
  | cons byte bytes ih =>
    have hpow : (n.toNat * 256 + byte.toNat) * 256 ^ bytes.length + spelled bytes =
        n.toNat * 256 ^ (byte :: bytes).length + spelled (byte :: bytes) := by
      rw [List.length_cons, spelled, Nat.pow_succ, Nat.add_mul, Nat.mul_assoc,
        Nat.mul_comm 256, Nat.add_assoc]
    have hone : 1 ≤ 256 ^ bytes.length := Nat.pow_pos (by omega)
    have hsmall : n.toNat * 256 + byte.toNat < 2 ^ 64 :=
      calc n.toNat * 256 + byte.toNat
          ≤ (n.toNat * 256 + byte.toNat) * 256 ^ bytes.length := Nat.le_mul_of_pos_right _ hone
        _ < 2 ^ 64 := by omega
    rw [List.foldl_cons, ih _ (by rw [toNat_appendByte hsmall]; omega), toNat_appendByte hsmall,
      hpow]

theorem ofBigEndian?_bigEndian (n : UInt64) : ofBigEndian? (bigEndian n) = some n := by
  have hspelled := spelled_bigEndian n
  have hfold := foldl_appendByte (bigEndian n) 0 (by simpa [hspelled] using n.toNat_lt)
  rw [ofBigEndian?, if_pos (by rfl)]
  simp only [UInt64.toNat_zero, Nat.zero_mul, Nat.zero_add, hspelled] at hfold
  exact congrArg some (UInt64.toNat_inj.mp hfold)

end Lending
