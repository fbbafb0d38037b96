import Mathlib.Algebra.Group.Nat.Basic
import Mathlib.Data.List.Basic

/-!
# Memory blocks and the tiling of an address space

A `KMemoryBlock` of `kern_k_memory_layout.cpp` is an interval
`[address, address + size)` of the physical or the virtual address space, tagged with
a region type, an attribute word and the address of its counterpart in the other
space.  Addresses and sizes are `uintptr_t`/`size_t` values: the block's derived
addresses are computed with 64-bit wrap-around, exactly as `GetEndAddress` and
`GetLastAddress` compute them.

A `KMemoryBlockTree` keeps its blocks ordered by address.  Its invariant, `Tiles`,
says that the blocks, read in order, are non-empty and contiguous from a first
address `lo` to an exclusive end `e`; ordering, pairwise disjointness and exact
coverage of `[lo, e)` all follow from it.
-/

namespace Ams.Kern

/-- Sums of `uintptr_t` values wrap modulo `2 ^ 64`. -/
def addU64 (a b : Nat) : Nat := (a + b) % 2 ^ 64

/-- Differences of `uintptr_t` values wrap modulo `2 ^ 64`. -/
def subU64 (a b : Nat) : Nat := (a + 2 ^ 64 - b) % 2 ^ 64

/-- `std::numeric_limits<uintptr_t>::max()`, the pair address of a block that has no
counterpart in the other address space. -/
def uintptrMax : Nat := 2 ^ 64 - 1

theorem addU64_of_lt {a b : Nat} (h : a + b < 2 ^ 64) : addU64 a b = a + b :=
  Nat.mod_eq_of_lt h

/-- A sum that the code sees grow did not wrap. -/
theorem add_lt_of_lt_addU64 {a n : Nat} (h : a < addU64 a n) (hn : n < 2 ^ 64) :
    a + n < 2 ^ 64 := by
  unfold addU64 at h
  omega

theorem subU64_of_le {a b : Nat} (hba : b ≤ a) (ha : a < 2 ^ 64) : subU64 a b = a - b := by
  unfold subU64
  omega

/-- A common divisor of `2 ^ 64` and two `uintptr_t` values divides their wrapped sum. -/
theorem dvd_addU64 {p a b : Nat} (hp : p ∣ 2 ^ 64) (ha : p ∣ a) (hb : p ∣ b) :
    p ∣ addU64 a b :=
  (Nat.dvd_mod_iff hp).mpr (Nat.dvd_add ha hb)

/-- A common divisor of `2 ^ 64` and two `uintptr_t` values divides their wrapped
difference. -/
theorem dvd_subU64 {p a b : Nat} (hp : p ∣ 2 ^ 64) (ha : p ∣ a) (hb : p ∣ b) :
    p ∣ subU64 a b :=
  (Nat.dvd_mod_iff hp).mpr (Nat.dvd_sub' (Nat.dvd_add ha hp) hb)

/-- One block of a memory block tree, with the fields of the five-argument
`KMemoryBlock` constructor in its order. -/
structure KMemoryBlock where
  address : Nat
  size : Nat
  pairAddress : Nat
  attributes : Nat
  typeId : Nat
  deriving Repr, DecidableEq

namespace KMemoryBlock

/-- `GetEndAddress`: `address + size`, wrapping. -/
def endAddress (b : KMemoryBlock) : Nat := addU64 b.address b.size

/-- `GetLastAddress`: `GetEndAddress() - 1`, wrapping. -/
def lastAddress (b : KMemoryBlock) : Nat := subU64 b.endAddress 1

/-- `Contains`: the block's closed range `[address, last]` holds `x`. -/
def Contains (b : KMemoryBlock) (x : Nat) : Prop := b.address ≤ x ∧ x ≤ b.lastAddress

instance (b : KMemoryBlock) (x : Nat) : Decidable (b.Contains x) :=
  inferInstanceAs (Decidable (_ ∧ _))

/-- A non-empty block that does not run past the top of the address space has its
last address at `address + size - 1`. -/
theorem lastAddress_eq {b : KMemoryBlock} (hs : 0 < b.size) (he : b.address + b.size ≤ 2 ^ 64) :
    b.lastAddress = b.address + b.size - 1 := by
  unfold lastAddress endAddress addU64 subU64
  omega

theorem contains_iff {b : KMemoryBlock} {x : Nat} (hs : 0 < b.size)
    (he : b.address + b.size ≤ 2 ^ 64) :
    b.Contains x ↔ b.address ≤ x ∧ x < b.address + b.size := by
  rw [Contains, lastAddress_eq hs he]
  omega

end KMemoryBlock

open KMemoryBlock

/-! ## The tiling invariant -/

/-- `Tiles lo bs e`: the blocks `bs`, in order, are non-empty and contiguous, the
first starting at `lo` and the last ending at `e` (exclusive). -/
def Tiles : Nat → List KMemoryBlock → Nat → Prop
  | lo, [], e => lo = e
  | lo, b :: bs, e => b.address = lo ∧ 0 < b.size ∧ Tiles (lo + b.size) bs e

instance decTiles : ∀ lo bs e, Decidable (Tiles lo bs e)
  | lo, [], e => inferInstanceAs (Decidable (lo = e))
  | lo, b :: bs, e =>
    have := decTiles (lo + b.size) bs e
    inferInstanceAs (Decidable (_ ∧ _ ∧ _))

@[simp] theorem tiles_nil {lo e : Nat} : Tiles lo [] e ↔ lo = e := Iff.rfl

@[simp] theorem tiles_cons {lo e : Nat} {b : KMemoryBlock} {bs : List KMemoryBlock} :
    Tiles lo (b :: bs) e ↔ b.address = lo ∧ 0 < b.size ∧ Tiles (lo + b.size) bs e :=
  Iff.rfl

/-- A tiling of `xs ++ ys` is cut at the end of `xs`. -/
theorem tiles_append {lo e : Nat} (xs ys : List KMemoryBlock) :
    Tiles lo (xs ++ ys) e ↔ ∃ m, Tiles lo xs m ∧ Tiles m ys e := by
  induction xs generalizing lo with
  | nil => simp
  | cons b bs ih => simp [ih, and_assoc]

/-- A tiling read around one of its blocks: the blocks before it end where it starts,
and the blocks after it start where it ends. -/
theorem tiles_around {lo e : Nat} {pre post : List KMemoryBlock} {it : KMemoryBlock} :
    Tiles lo (pre ++ it :: post) e ↔
      Tiles lo pre it.address ∧ 0 < it.size ∧ Tiles (it.address + it.size) post e := by
  rw [tiles_append]
  constructor
  · rintro ⟨m, hpre, rfl, hs, hpost⟩
    exact ⟨hpre, hs, hpost⟩
  · rintro ⟨hpre, hs, hpost⟩
    exact ⟨_, hpre, rfl, hs, hpost⟩

theorem Tiles.le {lo e : Nat} {bs : List KMemoryBlock} (h : Tiles lo bs e) : lo ≤ e := by
  induction bs generalizing lo with
  | nil => exact Nat.le_of_eq h
  | cons b bs ih => have := ih h.2.2; omega

/-- Every block of a tiling of `[lo, e)` is non-empty and lies inside `[lo, e)`. -/
theorem Tiles.bounds {lo e : Nat} {bs : List KMemoryBlock} (h : Tiles lo bs e)
    {b : KMemoryBlock} (hb : b ∈ bs) :
    lo ≤ b.address ∧ 0 < b.size ∧ b.address + b.size ≤ e := by
  induction bs generalizing lo with
  | nil => cases hb
  | cons c cs ih =>
    obtain ⟨rfl, hs, hcs⟩ := h
    rcases List.mem_cons.mp hb with rfl | hb
    · exact ⟨le_rfl, hs, hcs.le⟩
    · have := ih hcs hb
      omega

/-- The blocks of a tiling are ordered by address and pairwise disjoint. -/
theorem Tiles.pairwise {lo e : Nat} {bs : List KMemoryBlock} (h : Tiles lo bs e) :
    bs.Pairwise fun a b => a.address + a.size ≤ b.address := by
  induction bs generalizing lo with
  | nil => exact List.Pairwise.nil
  | cons c cs ih =>
    obtain ⟨rfl, -, hcs⟩ := h
    exact List.Pairwise.cons (fun b hb => (hcs.bounds hb).1) (ih hcs)

/-- A tiling of `[lo, e)` covers exactly `[lo, e)`. -/
theorem Tiles.covers {lo e x : Nat} {bs : List KMemoryBlock} (h : Tiles lo bs e) :
    (∃ b ∈ bs, b.address ≤ x ∧ x < b.address + b.size) ↔ lo ≤ x ∧ x < e := by
  induction bs generalizing lo with
  | nil =>
    have h : lo = e := h
    simp only [List.not_mem_nil, false_and, exists_false, false_iff]
    omega
  | cons c cs ih =>
    obtain ⟨rfl, hs, hcs⟩ := h
    have := hcs.le
    simp only [List.mem_cons, exists_eq_or_imp, ih hcs]
    omega

/-- No block of a tiling of `[lo, e)` contains an address outside `[lo, e)`. -/
theorem Tiles.find?_eq_none {lo e x : Nat} {bs : List KMemoryBlock} (h : Tiles lo bs e)
    (he : e ≤ 2 ^ 64) (hx : x < lo ∨ e ≤ x) : bs.find? (fun b => b.Contains x) = none := by
  refine List.find?_eq_none.mpr fun b hb hbx => ?_
  have hbb := h.bounds hb
  have := (contains_iff hbb.2.1 (by omega)).mp (of_decide_eq_true hbx)
  omega

/-- The first block of a tiling of `[lo, e)` that contains an address of `[lo, e)`. -/
theorem Tiles.find?_eq_some {lo e x : Nat} {bs : List KMemoryBlock} (h : Tiles lo bs e)
    (he : e ≤ 2 ^ 64) (hlo : lo ≤ x) (hx : x < e) :
    ∃ b ∈ bs, bs.find? (fun b => b.Contains x) = some b ∧
      b.address ≤ x ∧ x < b.address + b.size := by
  obtain ⟨c, hc, hcx⟩ := h.covers.mpr ⟨hlo, hx⟩
  have hcb := h.bounds hc
  have hsome : (bs.find? fun b => b.Contains x).isSome := List.find?_isSome.mpr
    ⟨c, hc, decide_eq_true ((contains_iff hcb.2.1 (by omega)).mpr hcx)⟩
  obtain ⟨b, hb⟩ := Option.isSome_iff_exists.mp hsome
  have hbb := h.bounds (List.mem_of_find?_eq_some hb)
  have hbx := List.find?_some hb
  simp only [decide_eq_true_eq] at hbx
  exact ⟨b, List.mem_of_find?_eq_some hb, hb, (contains_iff hbb.2.1 (by omega)).mp hbx⟩

/-- No block of a tiling of `[lo, e)` contains an address at or above `e`. -/
theorem Tiles.not_contains {lo e x : Nat} {bs : List KMemoryBlock} (h : Tiles lo bs e)
    (he : e ≤ 2 ^ 64) (hx : e ≤ x) : ∀ c ∈ bs, ¬ c.Contains x := by
  intro c hc hcx
  have hcb := h.bounds hc
  have := (contains_iff hcb.2.1 (by omega)).mp hcx
  omega

/-- The tree invariant of a `KMemoryBlockTree` governing the address range `[lo, hi]`:
its blocks tile `[lo, hi + 1)`, and `hi` is a `uintptr_t`. -/
def Covers (bs : List KMemoryBlock) (lo hi : Nat) : Prop :=
  Tiles lo bs (hi + 1) ∧ hi < 2 ^ 64

instance (bs : List KMemoryBlock) (lo hi : Nat) : Decidable (Covers bs lo hi) :=
  inferInstanceAs (Decidable (_ ∧ _))

/-- Replacing one block of a covering tree by blocks that tile it keeps the covering. -/
theorem Covers.replace {pre post xs : List KMemoryBlock} {b : KMemoryBlock} {lo hi : Nat}
    (h : Covers (pre ++ b :: post) lo hi) (hxs : Tiles b.address xs (b.address + b.size)) :
    Covers (pre ++ xs ++ post) lo hi :=
  let ⟨hpre, _, hpost⟩ := tiles_around.mp h.1
  ⟨(tiles_append _ _).mpr ⟨_, (tiles_append _ _).mpr ⟨_, hpre, hxs⟩, hpost⟩, h.2⟩

end Ams.Kern
