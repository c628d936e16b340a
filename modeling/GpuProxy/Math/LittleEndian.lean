import Mathlib.Data.Nat.Basic
import Mathlib.Tactic.Ring

/-!
# Little-endian integers

Unsigned integers of a fixed number of bytes, least significant byte first.

## Main definitions

* `toBytes`, `ofBytes` — the bytes of an integer, and the integer of some bytes

## Main results

* `ofBytes_toBytes` — integers that fit are read back
* `eq_of_ofBytes_eq` — an integer has one representation of each length
-/

namespace GpuProxy.Math.LittleEndian

/-- The lowest `width` bytes of `n`. -/
def toBytes : ℕ → ℕ → List UInt8
  | 0, _ => []
  | width + 1, n => UInt8.ofNat n :: toBytes width (n / 256)

/-- The integer whose bytes are given. -/
def ofBytes : List UInt8 → ℕ
  | [] => 0
  | b :: bs => b.toNat + 256 * ofBytes bs

@[simp] theorem length_toBytes (width n : ℕ) : (toBytes width n).length = width := by
  induction width generalizing n with
  | zero => rfl
  | succ width ih => simp [toBytes, ih]

/-- Reading back the lowest bytes of `n` gives `n` modulo their range. -/
theorem ofBytes_toBytes_mod (width n : ℕ) : ofBytes (toBytes width n) = n % 256 ^ width := by
  induction width generalizing n with
  | zero => simp [toBytes, ofBytes, Nat.mod_one]
  | succ width ih =>
    have hbyte : (UInt8.ofNat n).toNat = n % 256 := by simp
    rw [toBytes, ofBytes, ih, hbyte, pow_succ, Nat.mul_comm (256 ^ width), Nat.mod_mul]

theorem ofBytes_toBytes {width n : ℕ} (h : n < 256 ^ width) : ofBytes (toBytes width n) = n := by
  rw [ofBytes_toBytes_mod, Nat.mod_eq_of_lt h]

/-- Bytes of one length are those of one integer only. -/
theorem eq_of_ofBytes_eq {bs cs : List UInt8} (hlength : bs.length = cs.length)
    (h : ofBytes bs = ofBytes cs) : bs = cs := by
  induction bs generalizing cs with
  | nil => exact (List.length_eq_zero_iff.mp hlength.symm).symm
  | cons b bs ih =>
    obtain ⟨c, cs, rfl⟩ := List.exists_cons_of_length_eq_add_one hlength.symm
    have hb : b.toNat < 256 := b.toNat_lt
    have hc : c.toNat < 256 := c.toNat_lt
    simp only [ofBytes] at h
    have hhead : b = c := UInt8.toNat_inj.mp (by omega)
    rw [hhead, ih (by simpa using hlength) (by omega)]

end GpuProxy.Math.LittleEndian
