import Mathlib.Algebra.Group.Nat.Basic
import Mathlib.Data.Nat.Defs

/-!
# The `util` alignment and bit helpers

`util::AlignDown`, `util::AlignUp`, `util::IsAligned`, `util::LeastSignificantOneBit` and
`util::FloorPowerOfTwo` are declared in headers outside the sources.  The kernel and the
file system call them on 64-bit values, and they are modelled by what they compute there:
`AlignUp` wraps modulo `2 ^ 64`, and the two bit helpers scan the 64 bits of their
argument.  On a positive value below `2 ^ 64` the lowest set bit is the largest power of
two dividing it, and the floor power of two is the power of two with the same top bit.

The alignment helpers mask with `alignment - 1`.  At a power-of-two alignment, the only
kind their callers pass (`PageSize`, 1 GB, `CarveoutAlignment`, `HeapBlockSize`,
`HeapAllocatableSizeTrim`), the mask keeps the remainder modulo `alignment`, and the
helpers are modelled by that remainder; at other alignments the model is not the code.
-/

namespace Ams.Util

/-- `util::AlignDown(value, alignment)`, `value & ~(alignment - 1)`: at a power-of-two
alignment, the largest multiple of `alignment` that is at most `value`. -/
def alignDown (value alignment : Nat) : Nat := value - value % alignment

/-- `util::IsAligned(value, alignment)`, `(value & (alignment - 1)) == 0`: at a power-of-two
alignment, whether `alignment` divides `value`. -/
def isAligned (value alignment : Nat) : Bool := value % alignment == 0

/-- `util::AlignUp(value, alignment)`: `(value + alignment - 1) & ~(alignment - 1)` for a
power-of-two alignment, the sum wrapping modulo `2 ^ 64`. -/
def alignUp (value alignment : Nat) : Nat :=
  alignDown ((value + (alignment - 1)) % 2 ^ 64) alignment

/-- The lowest set bit among the `k` lowest bits of `x`, `0` if there is none. -/
def lowestOneBit : Nat → Nat → Nat
  | 0, _ => 0
  | k + 1, x => if x % 2 = 1 then 1 else 2 * lowestOneBit k (x / 2)

/-- `util::LeastSignificantOneBit(x)`: `x & ~(x - 1)` on 64 bits. -/
def leastSignificantOneBit (x : Nat) : Nat := lowestOneBit 64 x

/-- The highest set bit among the `k` lowest bits of `x`, `0` if there is none. -/
def highestOneBit : Nat → Nat → Nat
  | 0, _ => 0
  | k + 1, x => if x < 2 then x else 2 * highestOneBit k (x / 2)

/-- `util::FloorPowerOfTwo(x)`: `1 << (63 - CountLeadingZeros(x))` on 64 bits, for a
positive `x`. -/
def floorPowerOfTwo (x : Nat) : Nat := highestOneBit 64 x

/-! ## Alignment -/

theorem alignDown_le (value alignment : Nat) : alignDown value alignment ≤ value :=
  Nat.sub_le _ _

theorem alignDown_mod (value alignment : Nat) : alignDown value alignment % alignment = 0 :=
  Nat.sub_mod_eq_zero_of_mod_eq (Nat.mod_mod _ _).symm

/-- Aligning down never goes below an aligned lower bound. -/
theorem le_alignDown {value alignment low : Nat} (hlow : alignment ∣ low) (h : low ≤ value) :
    low ≤ alignDown value alignment := by
  obtain ⟨k, rfl⟩ := hlow
  have hdiv : alignDown value alignment = alignment * (value / alignment) := by
    have := Nat.mod_add_div value alignment
    unfold alignDown
    omega
  rw [hdiv]
  rcases Nat.eq_zero_or_pos alignment with rfl | ha
  · simp
  · exact Nat.mul_le_mul_left _ ((Nat.le_div_iff_mul_le ha).mpr (by rw [Nat.mul_comm]; exact h))

/-- A value lies below the end of its aligned block. -/
theorem lt_alignDown_add (value : Nat) {alignment : Nat} (ha : 0 < alignment) :
    value < alignDown value alignment + alignment := by
  have := Nat.mod_lt value ha
  unfold alignDown
  omega

theorem alignDown_of_mod_eq_zero {value alignment : Nat} (h : value % alignment = 0) :
    alignDown value alignment = value := by
  simp [alignDown, h]

/-- Without wrapping, aligning up gives the least multiple of `alignment` at least
`value`. -/
theorem alignUp_spec {value alignment : Nat} (ha : 0 < alignment)
    (hwrap : value + alignment ≤ 2 ^ 64) :
    alignUp value alignment % alignment = 0 ∧ value ≤ alignUp value alignment ∧
      alignUp value alignment < value + alignment := by
  have hmod := Nat.mod_lt (value + (alignment - 1)) ha
  refine ⟨alignDown_mod _ _, ?_, ?_⟩ <;>
  · unfold alignUp alignDown
    rw [Nat.mod_eq_of_lt (by omega : value + (alignment - 1) < 2 ^ 64)]
    have := Nat.mod_add_div (value + (alignment - 1)) alignment
    have := Nat.mod_add_div value alignment
    have : value / alignment ≤ (value + (alignment - 1)) / alignment :=
      Nat.div_le_div_right (by omega)
    rcases Nat.lt_or_ge (value / alignment) ((value + (alignment - 1)) / alignment) with h | h
    · have := Nat.mul_le_mul_left alignment h
      rw [Nat.mul_succ] at this
      omega
    · have : (value + (alignment - 1)) / alignment = value / alignment := by omega
      have := Nat.mod_lt value ha
      omega

/-! ## The lowest and the highest set bit -/

/-- Below `2 ^ k`, the lowest set bit of a positive `x` is the largest power of two that
divides it. -/
theorem lowestOneBit_spec :
    ∀ {k x : Nat}, 0 < x → x < 2 ^ k →
      ∃ j, lowestOneBit k x = 2 ^ j ∧ 2 ^ j ∣ x ∧ ¬ 2 ^ (j + 1) ∣ x
  | 0, x, hpos, hlt => by simp at hlt; omega
  | k + 1, x, hpos, hlt => by
    by_cases hodd : x % 2 = 1
    · refine ⟨0, by simp [lowestOneBit, hodd], Nat.one_dvd _, ?_⟩
      rw [Nat.dvd_iff_mod_eq_zero]
      omega
    · have hx : x = 2 * (x / 2) := by omega
      obtain ⟨j, hj, hdvd, hndvd⟩ :=
        lowestOneBit_spec (by omega : 0 < x / 2)
          (by rw [Nat.pow_succ] at hlt; omega : x / 2 < 2 ^ k)
      refine ⟨j + 1, by simp [lowestOneBit, hodd, hj, Nat.pow_succ, Nat.mul_comm], ?_, ?_⟩
      · rw [hx, Nat.pow_succ, Nat.mul_comm]
        exact Nat.mul_dvd_mul_left 2 hdvd
      · rw [hx, Nat.pow_succ, Nat.mul_comm]
        exact fun h => hndvd (Nat.dvd_of_mul_dvd_mul_left Nat.zero_lt_two h)

/-- Below `2 ^ k`, the highest set bit of a positive `x` is the power of two with
`2 ^ i ≤ x < 2 ^ (i + 1)`. -/
theorem highestOneBit_spec :
    ∀ {k x : Nat}, 0 < x → x < 2 ^ k →
      ∃ i, highestOneBit k x = 2 ^ i ∧ 2 ^ i ≤ x ∧ x < 2 ^ (i + 1)
  | 0, x, hpos, hlt => by simp at hlt; omega
  | k + 1, x, hpos, hlt => by
    by_cases hsmall : x < 2
    · exact ⟨0, by simp [highestOneBit, hsmall]; omega, by simp; omega, by simp; omega⟩
    · obtain ⟨i, hi, hle, hlt'⟩ :=
        highestOneBit_spec (by omega : 0 < x / 2)
          (by rw [Nat.pow_succ] at hlt; omega : x / 2 < 2 ^ k)
      refine ⟨i + 1, by simp [highestOneBit, hsmall, hi, Nat.pow_succ, Nat.mul_comm], ?_,
        ?_⟩ <;>
      · rw [Nat.pow_succ] at hlt' ⊢
        try rw [Nat.pow_succ]
        omega

end Ams.Util
