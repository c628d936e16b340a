import Mathlib.Algebra.Group.Int.Defs
import Mathlib.Algebra.Group.Nat.Defs
import Mathlib.Data.Int.DivMod

/-!
# Machine integers of an expression

The value an integer type gives to an expression is the mathematical value reduced modulo
the type's range, however the intermediate results wrap around.

## Main definitions

* `uint`, `sint` — an `unsigned int` and an `int` of 32 bits
* `sizeT` — a `size_t`, or an address, of 64 bits
-/

namespace GpuProxy.Math

/-- The value of an expression as an `unsigned int`. -/
def uint (z : ℤ) : ℕ := (z % 2 ^ 32).toNat

/-- The value of an expression as an `int`, which wraps around as compilers do it. -/
def sint (z : ℤ) : ℤ := z.bmod (2 ^ 32)

/-- The value of an expression as a `size_t`. -/
def sizeT (z : ℤ) : ℕ := (z % 2 ^ 64).toNat

theorem uint_natCast (n : ℕ) : uint n = n % 2 ^ 32 := by
  unfold uint
  omega

theorem uint_natCast_of_lt {n : ℕ} (h : n < 2 ^ 32) : uint n = n := by
  rw [uint_natCast, Nat.mod_eq_of_lt h]

theorem sizeT_lt (z : ℤ) : sizeT z < 2 ^ 64 := by
  unfold sizeT
  omega

/-- A value in range is itself. -/
theorem sizeT_of_lt {n : ℕ} (h : n < 2 ^ 64) : sizeT n = n := by
  unfold sizeT
  omega

/-- Adding to a value that stays in range commutes with the reduction. -/
theorem sizeT_add {z : ℤ} {n : ℕ} (h : sizeT z + n < 2 ^ 64) : sizeT (z + n) = sizeT z + n := by
  unfold sizeT at h ⊢
  omega

end GpuProxy.Math
