import Atmosphere.Kern.PoolPartition

/-!
# The pool boundaries of `SetupPoolPartitionMemoryBlocks`

The builder computes every pool boundary before it inserts anything, working down from the
end of DRAM in `uintptr_t` arithmetic.  This module proves what those computations give:
where the non-secure system pool starts, that the metadata pool holds the overhead of every
other pool, and when the regions passed to `InsertPoolPartitionBlockIntoBothTrees`, and
the pools they leave, are page-aligned.

The metadata pool's own overhead is computed from the room left below the non-secure pool
once the other overheads are taken out, which over-approximates the system pool that ends
up in that room: for a monotone overhead function this is what makes the pool large enough.
Page alignment survives every wrapped sum and difference, so it needs no no-wrap condition;
it is lost only at the DRAM midpoint, which halves a sum of page multiples.
-/

namespace Ams.Kern.Init

open KMemoryBlockTree Ams.Util

namespace PoolInputs

variable {i : PoolInputs}

/-! ## The non-secure system pool -/

theorem appletPoolStart_lt (i : PoolInputs) : i.appletPoolStart < 2 ^ 64 :=
  Nat.mod_lt _ (Nat.two_pow_pos 64)

theorem unsafeSystemPoolStart_lt (i : PoolInputs) : i.unsafeSystemPoolStart < 2 ^ 64 :=
  Nat.lt_of_le_of_lt (Nat.min_le_left _ _) (Nat.mod_lt _ (Nat.two_pow_pos 64))

/-- With `kernel_dram_start` on a carveout boundary and neither `applet_pool_start -
unsafe_system_pool_min_size` nor `kernel_dram_start + CarveoutSizeMax` wrapping: the
non-secure system pool starts on a carveout boundary at most `CarveoutSizeMax` above the
kernel's DRAM, and the size inserted for it is `applet_pool_start -
unsafe_system_pool_start`, at least `unsafe_system_pool_min_size`. -/
theorem unsafeSystemPoolStart_bounds (hkernel : carveoutAlignment ∣ i.kernelDramStart)
    (hcarveout : i.kernelDramStart + carveoutSizeMax < 2 ^ 64)
    (hmin : i.unsafeSystemPoolMinSize ≤ i.appletPoolStart) :
    carveoutAlignment ∣ i.unsafeSystemPoolStart ∧
      i.unsafeSystemPoolStart ≤ i.kernelDramStart + carveoutSizeMax ∧
      i.unsafeSystemPoolSize = i.appletPoolStart - i.unsafeSystemPoolStart ∧
      i.unsafeSystemPoolMinSize ≤ i.unsafeSystemPoolSize := by
  have hA := appletPoolStart_lt i
  have hstart : i.unsafeSystemPoolStart = min (i.kernelDramStart + carveoutSizeMax)
      (alignDown (i.appletPoolStart - i.unsafeSystemPoolMinSize) carveoutAlignment) := by
    rw [unsafeSystemPoolStart, addU64_of_lt hcarveout, subU64_of_le hmin hA]
  have hdown := alignDown_le (i.appletPoolStart - i.unsafeSystemPoolMinSize) carveoutAlignment
  have hsize : i.unsafeSystemPoolSize = i.appletPoolStart - i.unsafeSystemPoolStart :=
    subU64_of_le (by omega) hA
  refine ⟨?_, by omega, hsize, by omega⟩
  rw [hstart, Nat.min_def]
  split_ifs
  · exact Nat.dvd_add hkernel (by decide)
  · exact Nat.dvd_of_mod_eq_zero (alignDown_mod _ _)

/-- `unsafeSystemPoolStart_bounds` where the carveout limit is the smaller bound. -/
theorem unsafeSystemPoolStart_bounds_carveout_limited :
    let i : PoolInputs :=
      ⟨0x80000000, 0x100000000, 0x80060000, 0x80400000, 0x20000000, 0x10000000, 0x4000000⟩
    (carveoutAlignment ∣ i.kernelDramStart ∧
      i.kernelDramStart + carveoutSizeMax < 2 ^ 64 ∧
      i.unsafeSystemPoolMinSize ≤ i.appletPoolStart) ∧
    carveoutAlignment ∣ i.unsafeSystemPoolStart ∧
      i.unsafeSystemPoolStart ≤ i.kernelDramStart + carveoutSizeMax ∧
      i.unsafeSystemPoolSize = i.appletPoolStart - i.unsafeSystemPoolStart ∧
      i.unsafeSystemPoolMinSize ≤ i.unsafeSystemPoolSize :=
  ⟨⟨by decide, by decide, by decide⟩,
    @unsafeSystemPoolStart_bounds
      ⟨0x80000000, 0x100000000, 0x80060000, 0x80400000, 0x20000000, 0x10000000, 0x4000000⟩
      (by decide) (by decide) (by decide)⟩

/-! ## The metadata pool -/

variable (f : Nat → Nat)

/-- The overheads `total_overhead_size` adds up before the metadata pool's own (lines
249–269), in exact arithmetic: those of the one or two application pool blocks, of the
applet pool and of the non-secure system pool. -/
def poolsOverhead (i : PoolInputs) : Nat :=
  (if i.ApplicationPoolWhole then f i.applicationPoolSize
    else f i.firstApplicationPoolSize + f i.secondApplicationPoolSize) +
    f i.appletPoolSize + f i.unsafeSystemPoolSize

/-- Without wrapping, `total_overhead_size` before the metadata pool is the exact sum. -/
theorem poolsOverheadSize_eq (h : i.poolsOverhead f < 2 ^ 64) :
    i.poolsOverheadSize f = i.poolsOverhead f := by
  simp only [poolsOverheadSize, poolsOverhead, addU64] at h ⊢
  split_ifs at h ⊢ <;> omega

/-- For a monotone overhead function, when the overhead sums do not wrap, the overheads
taken out leave room below the non-secure pool, and the metadata pool starts at or above
`pool_partitions_start` without wrapping: the metadata pool is at least the sum of the
overheads of every other pool inserted, the one or two application pool blocks, the applet
pool, the non-secure system pool and the system pool. -/
theorem metadataPoolSize_covers_overheads (hmono : ∀ a b, a ≤ b → f a ≤ f b)
    (hwrap : i.poolsOverhead f +
      f (i.unsafeSystemPoolStart - i.poolPartitionsStart - i.poolsOverhead f) < 2 ^ 64)
    (htotal : i.poolPartitionsStart + i.poolsOverhead f ≤ i.unsafeSystemPoolStart)
    (hmeta : i.poolPartitionsStart + i.metadataPoolSize f ≤ i.unsafeSystemPoolStart) :
    i.poolsOverhead f + f (i.systemPoolSize f) ≤ i.metadataPoolSize f := by
  have hU := unsafeSystemPoolStart_lt i
  have hT : i.poolsOverheadSize f = i.poolsOverhead f := poolsOverheadSize_eq f (by omega)
  -- the metadata pool's overhead is computed from all the room left for the system pool
  have hM : i.metadataPoolSize f = i.poolsOverhead f +
      f (i.unsafeSystemPoolStart - i.poolPartitionsStart - i.poolsOverhead f) := by
    rw [metadataPoolSize, hT, subU64_of_le (by omega) hU, subU64_of_le (by omega) (by omega),
      addU64_of_lt hwrap]
  have hsystem : i.systemPoolSize f =
      i.unsafeSystemPoolStart - i.metadataPoolSize f - i.poolPartitionsStart := by
    rw [systemPoolSize, metadataPoolStart, subU64_of_le (by omega) hU,
      subU64_of_le (by omega) (by omega)]
  calc i.poolsOverhead f + f (i.systemPoolSize f)
      ≤ i.poolsOverhead f +
          f (i.unsafeSystemPoolStart - i.poolPartitionsStart - i.poolsOverhead f) :=
        Nat.add_le_add_left (hmono _ _ (by omega)) _
    _ = i.metadataPoolSize f := hM.symm

/-- `metadataPoolSize_covers_overheads` on 2 GB of DRAM from 2 GB, with an overhead of one
byte in 64. -/
theorem metadataPoolSize_covers_overheads_whole :
    let i : PoolInputs :=
      ⟨0x80000000, 0x100000000, 0x80060000, 0x80400000, 0x20000000, 0x10000000, 0x4000000⟩
    let f : Nat → Nat := fun n => n / 64
    ((∀ a b, a ≤ b → f a ≤ f b) ∧
      i.poolsOverhead f +
        f (i.unsafeSystemPoolStart - i.poolPartitionsStart - i.poolsOverhead f) < 2 ^ 64 ∧
      i.poolPartitionsStart + i.poolsOverhead f ≤ i.unsafeSystemPoolStart ∧
      i.poolPartitionsStart + i.metadataPoolSize f ≤ i.unsafeSystemPoolStart) ∧
    i.poolsOverhead f + f (i.systemPoolSize f) ≤ i.metadataPoolSize f :=
  ⟨⟨fun _ _ h => Nat.div_le_div_right h, by decide, by decide, by decide⟩,
    @metadataPoolSize_covers_overheads
      ⟨0x80000000, 0x100000000, 0x80060000, 0x80400000, 0x20000000, 0x10000000, 0x4000000⟩
      (fun n => n / 64) (fun _ _ h => Nat.div_le_div_right h) (by decide) (by decide)
      (by decide)⟩

end PoolInputs

/-! ## Page alignment of the inserted regions -/

/-- The boundaries the builder computes below DRAM's end are page multiples when DRAM ends on
a page, the application and applet pool sizes, `pool_partitions_start` and every overhead are
page multiples and `kernel_dram_start` is on a carveout boundary, as are the sizes it derives
from them; for any page size dividing `CarveoutAlignment`. -/
theorem poolBoundaries_aligned (f : Nat → Nat) {i : PoolInputs} {pageSize : Nat}
    (hpage : pageSize ∣ carveoutAlignment) (hend : pageSize ∣ i.dramEnd)
    (happ : pageSize ∣ i.applicationPoolSize) (happlet : pageSize ∣ i.appletPoolSize)
    (hpool : pageSize ∣ i.poolPartitionsStart) (hf : ∀ n, pageSize ∣ f n)
    (hkernel : carveoutAlignment ∣ i.kernelDramStart) :
    pageSize ∣ i.applicationPoolStart ∧ pageSize ∣ i.appletPoolStart ∧
      pageSize ∣ i.unsafeSystemPoolStart ∧ pageSize ∣ i.unsafeSystemPoolSize ∧
      pageSize ∣ i.metadataPoolSize f ∧ pageSize ∣ i.metadataPoolStart f ∧
      pageSize ∣ i.systemPoolSize f := by
  have h64 : pageSize ∣ 2 ^ 64 := Nat.dvd_trans hpage (by decide)
  have hA : pageSize ∣ i.applicationPoolStart := dvd_subU64 h64 hend happ
  have hB : pageSize ∣ i.appletPoolStart := dvd_subU64 h64 hA happlet
  have hU : pageSize ∣ i.unsafeSystemPoolStart := by
    rw [PoolInputs.unsafeSystemPoolStart, Nat.min_def]
    split_ifs
    · exact dvd_addU64 h64 (Nat.dvd_trans hpage hkernel) (Nat.dvd_trans hpage (by decide))
    · exact Nat.dvd_trans hpage (Nat.dvd_of_mod_eq_zero (alignDown_mod _ _))
  have hT : pageSize ∣ i.poolsOverheadSize f := by
    simp only [PoolInputs.poolsOverheadSize]
    split_ifs <;> repeat' first | exact hf _ | exact Nat.dvd_zero _ | apply dvd_addU64 h64
  have hM : pageSize ∣ i.metadataPoolSize f := dvd_addU64 h64 hT (hf _)
  have hMS : pageSize ∣ i.metadataPoolStart f := dvd_subU64 h64 hU hM
  exact ⟨hA, hB, hU, dvd_subU64 h64 hB hU, hM, hMS, dvd_subU64 h64 hMS hpool⟩

/-- Every region the builder passes to `InsertPoolPartitionBlockIntoBothTrees`, once
`kernel_dram_start` has passed its carveout check, starts and ends on a page when DRAM
ends on a page, the application and applet pool sizes, `pool_partitions_start` and every
overhead are page multiples, and, if the application pool is split, the DRAM midpoint is on
a page; for any page size dividing `CarveoutAlignment`. -/
theorem poolPartitionInserts_aligned (ty : PoolRegionTypes) (f : Nat → Nat) {i : PoolInputs}
    {pageSize : Nat} (hpage : pageSize ∣ carveoutAlignment) (hend : pageSize ∣ i.dramEnd)
    (happ : pageSize ∣ i.applicationPoolSize) (happlet : pageSize ∣ i.appletPoolSize)
    (hpool : pageSize ∣ i.poolPartitionsStart) (hf : ∀ n, pageSize ∣ f n)
    (hkernel : carveoutAlignment ∣ i.kernelDramStart)
    (hmid : ¬ i.ApplicationPoolWhole → pageSize ∣ i.dramMidpoint) :
    ∀ q ∈ poolPartitionInserts ty f i, pageSize ∣ q.start ∧ pageSize ∣ q.size := by
  have h64 : pageSize ∣ 2 ^ 64 := Nat.dvd_trans hpage (by decide)
  obtain ⟨hA, hB, hU, hUS, hM, hMS, hS⟩ :=
    poolBoundaries_aligned f hpage hend happ happlet hpool hf hkernel
  intro q hq
  simp only [poolPartitionInserts] at hq
  split_ifs at hq with hwhole
  · simp only [List.mem_append, List.mem_cons, List.not_mem_nil, or_false] at hq
    rcases hq with rfl | rfl | rfl | rfl | rfl
    exacts [⟨hA, happ⟩, ⟨hB, happlet⟩, ⟨hU, hUS⟩, ⟨hMS, hM⟩, ⟨hpool, hS⟩]
  · have hmid' := hmid hwhole
    have h₁ : pageSize ∣ i.firstApplicationPoolSize := dvd_subU64 h64 hmid' hA
    have h₂ : pageSize ∣ i.secondApplicationPoolSize :=
      dvd_subU64 h64 (dvd_addU64 h64 hA happ) hmid'
    simp only [List.mem_append, List.mem_cons, List.not_mem_nil, or_false] at hq
    rcases hq with (rfl | rfl) | rfl | rfl | rfl | rfl
    exacts [⟨hA, h₁⟩, ⟨hmid', h₂⟩, ⟨hB, happlet⟩, ⟨hU, hUS⟩, ⟨hMS, hM⟩, ⟨hpool, hS⟩]

/-- `poolPartitionInserts_aligned` on 1 GB of DRAM whose application pool straddles the
midpoint. -/
theorem poolPartitionInserts_aligned_split :
    let ty : PoolRegionTypes := ⟨0, 1, 2, 3, 4, 5, 6, 7, 8, 9, 10, 11, 12⟩
    let i : PoolInputs :=
      ⟨0x80000000, 0xC0000000, 0x80060000, 0x90000000, 0x20001000, 0x1000, 0x1000⟩
    let f : Nat → Nat := fun _ => 0x1000
    (0x1000 ∣ carveoutAlignment ∧ 0x1000 ∣ i.dramEnd ∧ 0x1000 ∣ i.applicationPoolSize ∧
      0x1000 ∣ i.appletPoolSize ∧ 0x1000 ∣ i.poolPartitionsStart ∧ (∀ n, 0x1000 ∣ f n) ∧
      carveoutAlignment ∣ i.kernelDramStart ∧
      (¬ i.ApplicationPoolWhole → 0x1000 ∣ i.dramMidpoint)) ∧
    ∀ q ∈ poolPartitionInserts ty f i, 0x1000 ∣ q.start ∧ 0x1000 ∣ q.size :=
  ⟨⟨by decide, by decide, by decide, by decide, by decide, fun _ => Nat.dvd_refl _, by decide,
      by decide⟩,
    @poolPartitionInserts_aligned ⟨0, 1, 2, 3, 4, 5, 6, 7, 8, 9, 10, 11, 12⟩ (fun _ => 0x1000)
      ⟨0x80000000, 0xC0000000, 0x80060000, 0x90000000, 0x20001000, 0x1000, 0x1000⟩ 0x1000
      (by decide) (by decide) (by decide) (by decide) (by decide) (fun _ => Nat.dvd_refl _)
      (by decide) (by decide)⟩

/-- On a DRAM extent of an odd number of pages whose application pool straddles the
midpoint, with every input page-aligned and the pool boundaries in order without wrapping,
the first block of the split application pool is half a page long. -/
theorem poolPartitionInserts_odd_pages_misaligned :
    let ty : PoolRegionTypes := ⟨0, 1, 2, 3, 4, 5, 6, 7, 8, 9, 10, 11, 12⟩
    let i : PoolInputs :=
      ⟨0x80000000, 0xC0001000, 0x80060000, 0x90000000, 0x20001000, 0x1000, 0x1000⟩
    let f : Nat → Nat := fun _ => 0x1000
    (0x1000 ∣ i.dramFirst ∧ 0x1000 ∣ i.dramEnd ∧ 0x1000 ∣ i.applicationPoolSize ∧
      0x1000 ∣ i.appletPoolSize ∧ 0x1000 ∣ i.unsafeSystemPoolMinSize ∧
      0x1000 ∣ i.poolPartitionsStart ∧ (∀ n, 0x1000 ∣ f n) ∧
      carveoutAlignment ∣ i.kernelDramStart) ∧
    (i.dramFirst + i.dramEnd < 2 ^ 64 ∧
      i.poolPartitionsStart ≤ i.metadataPoolStart f ∧
      i.metadataPoolStart f ≤ i.unsafeSystemPoolStart ∧
      i.unsafeSystemPoolStart ≤ i.appletPoolStart ∧ i.appletPoolStart ≤ i.applicationPoolStart ∧
      i.applicationPoolStart < i.dramEnd ∧ ∀ q ∈ poolPartitionInserts ty f i, 0 < q.size) ∧
    (poolPartitionInserts ty f i).head? = some ⟨0xA0000000, 0x800, 3, 8, 0⟩ ∧
      ¬ 0x1000 ∣ 0x800 :=
  ⟨⟨by decide, by decide, by decide, by decide, by decide, by decide, fun _ => Nat.dvd_refl _,
      by decide⟩, by decide, by decide⟩

end Ams.Kern.Init
