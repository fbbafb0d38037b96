import Atmosphere.Kern.RandomRegion
import Atmosphere.Kern.AddressMap

/-!
# `SetupCoreLocalRegionMemoryBlocks`

The builder chooses the core-local virtual region with `GetCoreLocalRegionVirtualAddress`
and inserts it into the virtual tree.  It then allocates one page per core, gives every
core but core 0 a copy of core 0's L1 translation table, and, in each core's table, maps
the first page of the region and one page per core after it.  It finally records each
core's boot arguments.

The page-table mapper and the boot-argument store are external: the model records the
calls the builder makes to them.  The page allocator is the sequence `allocate n` of the
values its calls return, in order; the random source is the list of values it returns;
`cpu::NumCores`, `PageSize` and the region types are parameters.

The search's checks place the guarded region inside one 1 GB window, the span of an L1
translation entry, that lies inside a single free block; after the `Insert` that window
holds the `CoreLocal` block and free blocks only.
-/

namespace Ams.Kern.Init

open Ams.Util

/-- One call of `KInitialPageTable::Map` on the table built over the L1 table `table`:
`size` bytes at `virtualAddress` mapped to `physicalAddress`, kernel read-write. -/
structure MapCall where
  table : Nat
  virtualAddress : Nat
  size : Nat
  physicalAddress : Nat
  deriving Repr, DecidableEq

/-- One call of `SetInitArguments(core_id, phys_addr, ttbr1)`. -/
structure InitArgumentsCall where
  coreId : Nat
  physicalAddress : Nat
  ttbr1 : Nat
  deriving Repr, DecidableEq

section

variable (numCores pageSize : Nat) (allocate : Nat → Nat) (ttbr1El1 : Nat)

/-- `core_local_region_start_phys[i]`: the page of the `i`-th call of the first loop. -/
def coreLocalRegionStartPhys (i : Nat) : Nat := allocate i

/-- `core_l1_ttbr1_phys[i]`: core 0 keeps the L1 table of `TTBR1_EL1`; core `i ≥ 1` gets
the page of the `i`-th call of the second loop, which follows the first. -/
def coreL1Ttbr1Phys (i : Nat) : Nat :=
  if i = 0 then alignDown ttbr1El1 pageSize else allocate (numCores + (i - 1))

/-- The `Map` calls of the third loop for core `i` (lines 211–215). -/
def coreLocalRegionMaps (coreLocalVirtStart i : Nat) : List MapCall :=
  ⟨coreL1Ttbr1Phys numCores pageSize allocate ttbr1El1 i, coreLocalVirtStart, pageSize,
      coreL1Ttbr1Phys numCores pageSize allocate ttbr1El1 i⟩ ::
    (List.range numCores).map fun j =>
      ⟨coreL1Ttbr1Phys numCores pageSize allocate ttbr1El1 i,
        coreLocalVirtStart + (j + 1) * pageSize, pageSize,
        coreL1Ttbr1Phys numCores pageSize allocate ttbr1El1 j⟩

/-- Lines 195–222 of `SetupCoreLocalRegionMemoryBlocks`: every `Map` call and every
`SetInitArguments` call the builder makes, in order. -/
def setupCoreLocalRegionPageTables (coreLocalVirtStart : Nat) :
    List MapCall × List InitArgumentsCall :=
  ((List.range numCores).flatMap
      (coreLocalRegionMaps numCores pageSize allocate ttbr1El1 coreLocalVirtStart),
    (List.range numCores).map fun i =>
      ⟨i, coreLocalRegionStartPhys allocate i,
        coreL1Ttbr1Phys numCores pageSize allocate ttbr1El1 i⟩)

/-- Every mapping the builder makes, for any allocator: in core `i`'s L1 table, the first
page of the region is mapped to that same L1 table, and the page `j + 1` after it to core
`j`'s L1 table. -/
theorem mem_setupCoreLocalRegionPageTables {coreLocalVirtStart : Nat} {m : MapCall}
    (hm : m ∈ (setupCoreLocalRegionPageTables numCores pageSize allocate ttbr1El1
      coreLocalVirtStart).1) :
    ∃ i < numCores, m.table = coreL1Ttbr1Phys numCores pageSize allocate ttbr1El1 i ∧
      m.size = pageSize ∧
      ((m.virtualAddress = coreLocalVirtStart ∧
          m.physicalAddress = coreL1Ttbr1Phys numCores pageSize allocate ttbr1El1 i) ∨
        ∃ j < numCores, m.virtualAddress = coreLocalVirtStart + (j + 1) * pageSize ∧
          m.physicalAddress = coreL1Ttbr1Phys numCores pageSize allocate ttbr1El1 j) := by
  simp only [setupCoreLocalRegionPageTables, List.mem_flatMap, List.mem_range,
    coreLocalRegionMaps, List.mem_cons, List.mem_map] at hm
  obtain ⟨i, hi, rfl | ⟨j, hj, rfl⟩⟩ := hm
  · exact ⟨i, hi, rfl, rfl, .inl ⟨rfl, rfl⟩⟩
  · exact ⟨i, hi, rfl, rfl, .inr ⟨j, hj, rfl, rfl⟩⟩

end

/-- Four cores, an allocator that hands out consecutive pages from `0x80000000`,
`TTBR1_EL1 = 0x7FFF0000`, and a region at `0xFFFFFFF000001000`, one page past a 1 GB
boundary as the search returns it: core 0's table maps the start of the region to its own
L1 table page and to no core-local page. -/
theorem setupCoreLocalRegion_maps_l1_table :
    ⟨0x7FFF0000, 0xFFFFFFF000001000, 0x1000, 0x7FFF0000⟩ ∈
        (setupCoreLocalRegionPageTables 4 0x1000 (fun n => 0x80000000 + n * 0x1000) 0x7FFF0000
          0xFFFFFFF000001000).1 ∧
      ¬ ∃ m ∈ (setupCoreLocalRegionPageTables 4 0x1000 (fun n => 0x80000000 + n * 0x1000)
          0x7FFF0000 0xFFFFFFF000001000).1,
        m.table = 0x7FFF0000 ∧ m.virtualAddress = 0xFFFFFFF000001000 ∧
          m.physicalAddress = 0x80000000 := by
  refine ⟨by decide, ?_⟩
  rintro ⟨m, hm, htable, hvirt, hphys⟩
  obtain ⟨i, -, hti, -, ⟨-, hpi⟩ | ⟨j, -, hvj, -⟩⟩ := mem_setupCoreLocalRegionPageTables _ _ _ _ hm
  -- the first page of a core's window maps to the table that holds the mapping
  · omega
  -- the other pages lie above the first
  · omega

/-! ## Choosing the region

`GetCoreLocalRegionVirtualAddress` draws candidates from `GetRandomAlignedRegion` until one
lies, with its guard pages, inside a free block that covers the whole 1 GB window around
it, so that the region has an L1 translation entry to itself.  All its calls of
`GetRandomAlignedRegion` read one random source: the model passes the values one call
leaves over to the next. -/

section Region

open KMemoryBlockTree

variable (isDerivedFrom : Nat → Nat → Bool) (numCores pageSize noneType : Nat)

/-- `CoreLocalRegionSize`: the shared page and one page per core. -/
def coreLocalRegionSize : Nat := pageSize * (1 + numCores)

/-- `CoreLocalRegionSizeWithGuards`: the region with a guard page on each side. -/
def coreLocalRegionSizeWithGuards : Nat := coreLocalRegionSize numCores pageSize + 2 * pageSize

/-- `CoreLocalRegionBoundsAlign`: `1_GB`, the span of one L1 translation entry. -/
def coreLocalRegionBoundsAlign : Nat := 0x40000000

/-- The loop of `GetCoreLocalRegionVirtualAddress` (lines 149–179), for at most `fuel`
iterations; `none` is an abort, or a loop that has not returned. -/
def coreLocalRegionLoop (t : List KMemoryBlock) : Nat → List Nat → Option Nat
  | 0, _ => none
  | fuel + 1, draws =>
    match getRandomAlignedRegion isDerivedFrom t (coreLocalRegionSizeWithGuards numCores pageSize)
        pageSize noneType draws with
    | none => none
    | some (candidateStart, rest) =>
      let candidateLast :=
        subU64 (addU64 candidateStart (coreLocalRegionSizeWithGuards numCores pageSize)) 1
      match findContainingBlock candidateStart t with
      | none => none
      | some (_, containingBlock, _) =>
        if candidateLast > containingBlock.lastAddress then coreLocalRegionLoop t fuel rest
        else if containingBlock.typeId ≠ noneType then coreLocalRegionLoop t fuel rest
        else if alignDown candidateStart coreLocalRegionBoundsAlign ≠
            alignDown candidateLast coreLocalRegionBoundsAlign then coreLocalRegionLoop t fuel rest
        else if containingBlock.address > alignDown candidateStart coreLocalRegionBoundsAlign then
          coreLocalRegionLoop t fuel rest
        else if subU64 (alignUp candidateLast coreLocalRegionBoundsAlign) 1 >
            containingBlock.lastAddress then coreLocalRegionLoop t fuel rest
        else some (addU64 candidateStart pageSize)

/-- `GetCoreLocalRegionVirtualAddress()` on the virtual tree `t`, with the values `draws` of
the random source: every iteration draws at least one value (`getRandomAlignedRegion_rest`),
so `draws.length + 1` iterations are more than the loop can make. -/
def getCoreLocalRegionVirtualAddress (t : List KMemoryBlock) (draws : List Nat) : Option Nat :=
  coreLocalRegionLoop isDerivedFrom numCores pageSize noneType t (draws.length + 1) draws

/-- The checks a candidate passes before the loop returns it (lines 159–175), against the
block that contains it. -/
def CoreLocalCandidateFits (containingBlock : KMemoryBlock) (candidateStart : Nat) : Prop :=
  let candidateLast :=
    subU64 (addU64 candidateStart (coreLocalRegionSizeWithGuards numCores pageSize)) 1
  candidateLast ≤ containingBlock.lastAddress ∧ containingBlock.typeId = noneType ∧
    alignDown candidateStart coreLocalRegionBoundsAlign =
      alignDown candidateLast coreLocalRegionBoundsAlign ∧
    containingBlock.address ≤ alignDown candidateStart coreLocalRegionBoundsAlign ∧
    subU64 (alignUp candidateLast coreLocalRegionBoundsAlign) 1 ≤ containingBlock.lastAddress

/-- One iteration of the loop: it draws a candidate that lies in a block of the tree, and
either returns it shifted past its guard page, having passed every check, or goes on with
the values left over. -/
theorem coreLocalRegionLoop_succ {t : List KMemoryBlock} {fuel v : Nat} {draws : List Nat}
    (h : coreLocalRegionLoop isDerivedFrom numCores pageSize noneType t (fuel + 1) draws =
      some v) :
    ∃ s rest pre b post, getRandomAlignedRegion isDerivedFrom t
        (coreLocalRegionSizeWithGuards numCores pageSize) pageSize noneType draws =
          some (s, rest) ∧
      findContainingBlock s t = some (pre, b, post) ∧
      ((CoreLocalCandidateFits numCores pageSize noneType b s ∧ v = addU64 s pageSize) ∨
        coreLocalRegionLoop isDerivedFrom numCores pageSize noneType t fuel rest = some v) := by
  simp only [coreLocalRegionLoop] at h
  split at h
  · cases h
  · rename_i s rest hg
    split at h
    · cases h
    · rename_i pre b post hf
      refine ⟨s, rest, pre, b, post, hg, hf, ?_⟩
      -- each of the five checks either sends the loop on or passes
      rcases ite_eq_iff.mp h with ⟨-, h⟩ | ⟨h1, h⟩
      · exact .inr h
      rcases ite_eq_iff.mp h with ⟨-, h⟩ | ⟨h2, h⟩
      · exact .inr h
      rcases ite_eq_iff.mp h with ⟨-, h⟩ | ⟨h3, h⟩
      · exact .inr h
      rcases ite_eq_iff.mp h with ⟨-, h⟩ | ⟨h4, h⟩
      · exact .inr h
      rcases ite_eq_iff.mp h with ⟨-, h⟩ | ⟨h5, h⟩
      · exact .inr h
      cases h
      exact .inl ⟨⟨by omega, not_not.mp h2, not_not.mp h3, by omega, by omega⟩, rfl⟩

/-- What the loop returns: the candidate that some call of `GetRandomAlignedRegion`
returned, on the values the calls before it left over, shifted past its guard page; it
passed every check against the block that contains it. -/
theorem coreLocalRegionLoop_returns {t : List KMemoryBlock} {v : Nat} :
    ∀ {fuel : Nat} {draws : List Nat},
      coreLocalRegionLoop isDerivedFrom numCores pageSize noneType t fuel draws = some v →
      ∃ ds, ds <:+ draws ∧ ∃ s rest pre b post, getRandomAlignedRegion isDerivedFrom t
          (coreLocalRegionSizeWithGuards numCores pageSize) pageSize noneType ds =
            some (s, rest) ∧
        findContainingBlock s t = some (pre, b, post) ∧
        CoreLocalCandidateFits numCores pageSize noneType b s ∧ v = addU64 s pageSize
  | 0, _, h => by cases h
  | fuel + 1, draws, h => by
    obtain ⟨s, rest, pre, b, post, hg, hf, ⟨hfit, rfl⟩ | h⟩ :=
      coreLocalRegionLoop_succ isDerivedFrom numCores pageSize noneType h
    · exact ⟨draws, List.suffix_refl _, s, rest, pre, b, post, hg, hf, hfit, rfl⟩
    · obtain ⟨ds, hds, hrest⟩ := coreLocalRegionLoop_returns h
      exact ⟨ds, hds.trans (getRandomAlignedRegion_rest isDerivedFrom hg).2, hrest⟩

/-- Rounding an address that is not on a 1 GB boundary up to the next one and stepping back
a byte gives the last address of its 1 GB window, also in the top window of the address
space, where `AlignUp` wraps to `0` and the step back wraps to the top. -/
theorem alignUp_boundsAlign_sub_one {last : Nat} (hlast : last < 2 ^ 64)
    (hmod : last % coreLocalRegionBoundsAlign ≠ 0) :
    subU64 (alignUp last coreLocalRegionBoundsAlign) 1 =
      alignDown last coreLocalRegionBoundsAlign + coreLocalRegionBoundsAlign - 1 := by
  unfold alignUp alignDown subU64 coreLocalRegionBoundsAlign at *
  omega

/-- What a returned address is, as its callers use it: the candidate `s` of the iteration
that returned, page-aligned and shifted past its guard page, with its guarded region not
wrapping, and the block that contains it, against which it passed every check. -/
theorem getCoreLocalRegionVirtualAddress_candidate {t : List KMemoryBlock} {v : Nat}
    {draws : List Nat} (hguards : coreLocalRegionSizeWithGuards numCores pageSize < 2 ^ 64)
    (hv : getCoreLocalRegionVirtualAddress isDerivedFrom numCores pageSize noneType t draws =
      some v) :
    ∃ s pre b post, v = s + pageSize ∧ s % pageSize = 0 ∧ 0 < pageSize ∧
      s + coreLocalRegionSizeWithGuards numCores pageSize < 2 ^ 64 ∧
      findContainingBlock s t = some (pre, b, post) ∧
      CoreLocalCandidateFits numCores pageSize noneType b s := by
  obtain ⟨_, _, s, _, pre, b, post, hg, hf, hfit, hvs⟩ :=
    coreLocalRegionLoop_returns isDerivedFrom numCores pageSize noneType hv
  obtain ⟨_, hnowrap, -⟩ := getRandomAlignedRegion_fits isDerivedFrom hg
  have hs := add_lt_of_lt_addU64 hnowrap hguards
  -- the guarded region is not empty, so a page is not either
  have hguarded : 0 < coreLocalRegionSizeWithGuards numCores pageSize := by
    unfold addU64 at hnowrap
    omega
  have hpage : 0 < pageSize := Nat.pos_of_ne_zero fun h0 => by
    simp [coreLocalRegionSizeWithGuards, coreLocalRegionSize, h0] at hguarded
  have hsizes : coreLocalRegionSizeWithGuards numCores pageSize =
      coreLocalRegionSize numCores pageSize + 2 * pageSize := rfl
  exact ⟨s, pre, b, post, hvs.trans (addU64_of_lt (by omega)),
    getRandomAlignedRegion_mod isDerivedFrom hg, hpage, hs, hf, hfit⟩

/-- Where a candidate that passed the checks lies: with its guard pages, inside the 1 GB
window that starts at `AlignDown(s, 1 GB)`, and that whole window inside the free block
that contains it. -/
theorem CoreLocalCandidateFits.window {b : KMemoryBlock} {s : Nat}
    (hfit : CoreLocalCandidateFits numCores pageSize noneType b s) (hpage : 0 < pageSize)
    (hs : s + coreLocalRegionSizeWithGuards numCores pageSize < 2 ^ 64) :
    let w := alignDown s coreLocalRegionBoundsAlign
    w ≤ s ∧ s + coreLocalRegionSizeWithGuards numCores pageSize - 1 ≤
        w + coreLocalRegionBoundsAlign - 1 ∧
      b.typeId = noneType ∧ b.address ≤ w ∧ w + coreLocalRegionBoundsAlign - 1 ≤ b.lastAddress := by
  obtain ⟨-, htype, hwindow, hstart, hend⟩ := hfit
  have hsizes : coreLocalRegionSizeWithGuards numCores pageSize =
      coreLocalRegionSize numCores pageSize + 2 * pageSize := rfl
  have hguarded : 0 < coreLocalRegionSizeWithGuards numCores pageSize := by omega
  rw [insertedBlockLast_eq hguarded hs.le] at hwindow hend
  -- the guarded region does not start its window, so its end rounds up to the next one
  have hmod : (s + coreLocalRegionSizeWithGuards numCores pageSize - 1) %
      coreLocalRegionBoundsAlign ≠ 0 := by
    unfold alignDown at hwindow
    unfold coreLocalRegionBoundsAlign at hwindow ⊢
    omega
  rw [alignUp_boundsAlign_sub_one (by omega) hmod, ← hwindow] at hend
  have hlast := lt_alignDown_add (s + coreLocalRegionSizeWithGuards numCores pageSize - 1)
    (by decide : 0 < coreLocalRegionBoundsAlign)
  rw [← hwindow] at hlast
  exact ⟨alignDown_le _ _, by omega, htype, hstart, hend⟩

/-- On a virtual tree that keeps the tiling invariant, whatever the random source returns:
when `GetCoreLocalRegionVirtualAddress` returns `v`, the candidate `s = v - PageSize` is
page-aligned, the guarded region `[s, v + CoreLocalRegionSize + PageSize - 1]` lies inside
the 1 GB window `W` that starts at `AlignDown(s, 1 GB)`, and the whole window lies inside one
`None` block, the only block of the tree that meets it. -/
theorem getCoreLocalRegionVirtualAddress_window {t : List KMemoryBlock} {lo hi v : Nat}
    {draws : List Nat} (hcov : Covers t lo hi)
    (hguards : coreLocalRegionSizeWithGuards numCores pageSize < 2 ^ 64)
    (hv : getCoreLocalRegionVirtualAddress isDerivedFrom numCores pageSize noneType t draws =
      some v) :
    let s := v - pageSize
    let w := alignDown s coreLocalRegionBoundsAlign
    s + pageSize = v ∧ s % pageSize = 0 ∧ w ≤ s ∧
      v + coreLocalRegionSize numCores pageSize + pageSize - 1 ≤
        w + coreLocalRegionBoundsAlign - 1 ∧
      ∃ b ∈ t, b.typeId = noneType ∧ b.address ≤ w ∧
        w + coreLocalRegionBoundsAlign - 1 ≤ b.lastAddress ∧
        ∀ c ∈ t, (∃ x, w ≤ x ∧ x ≤ w + coreLocalRegionBoundsAlign - 1 ∧ c.Contains x) →
          c = b := by
  obtain ⟨s, pre, b, post, rfl, hmod, hpage, hs, hf, hfit⟩ :=
    getCoreLocalRegionVirtualAddress_candidate isDerivedFrom numCores pageSize noneType hguards hv
  obtain ⟨hws, hwl, htype, hstart, hend⟩ := hfit.window numCores pageSize noneType hpage hs
  dsimp only
  rw [Nat.add_sub_cancel]
  obtain ⟨rfl, -, -⟩ := findContainingBlock_spec hf
  have hb : b ∈ pre ++ b :: post := List.mem_append_right _ (List.mem_cons_self _ _)
  have he : hi + 1 ≤ 2 ^ 64 := hcov.2
  have hsizes : coreLocalRegionSizeWithGuards numCores pageSize =
      coreLocalRegionSize numCores pageSize + 2 * pageSize := rfl
  refine ⟨rfl, hmod, hws, by omega, b, hb, htype, hstart, hend, ?_⟩
  rintro c hc ⟨x, hx₁, hx₂, hcx⟩
  obtain ⟨_, _, hfc⟩ := findContainingBlock_of_mem hcov.1 he hc hcx
  obtain ⟨_, _, hfb⟩ :=
    findContainingBlock_of_mem hcov.1 he hb (show b.Contains x from ⟨by omega, by omega⟩)
  rw [hfc] at hfb
  simp only [Option.some.injEq, Prod.mk.injEq] at hfb
  exact hfb.2.1

/-- `getCoreLocalRegionVirtualAddress_window` on four cores and one free block spanning the
address space, with a first draw at 1 GB. -/
theorem getCoreLocalRegionVirtualAddress_window_first_draw :
    let t : List KMemoryBlock := [⟨0, 2 ^ 64, uintptrMax, 0, 0⟩]
    (Covers t 0 (2 ^ 64 - 1) ∧ coreLocalRegionSizeWithGuards 4 0x1000 < 2 ^ 64 ∧
      getCoreLocalRegionVirtualAddress (fun a b => a == b) 4 0x1000 0 t [0x40000000] =
        some 0x40001000) ∧
    let s := 0x40001000 - 0x1000
    let w := alignDown s coreLocalRegionBoundsAlign
    s + 0x1000 = 0x40001000 ∧ s % 0x1000 = 0 ∧ w ≤ s ∧
      0x40001000 + coreLocalRegionSize 4 0x1000 + 0x1000 - 1 ≤
        w + coreLocalRegionBoundsAlign - 1 ∧
      ∃ b ∈ t, b.typeId = 0 ∧ b.address ≤ w ∧
        w + coreLocalRegionBoundsAlign - 1 ≤ b.lastAddress ∧
        ∀ c ∈ t, (∃ x, w ≤ x ∧ x ≤ w + coreLocalRegionBoundsAlign - 1 ∧ c.Contains x) →
          c = b :=
  ⟨⟨by decide, by decide, by decide⟩,
    @getCoreLocalRegionVirtualAddress_window (fun a b => a == b) 4 0x1000 0
      [⟨0, 2 ^ 64, uintptrMax, 0, 0⟩] 0 (2 ^ 64 - 1) 0x40001000 [0x40000000] (by decide)
      (by decide) (by decide)⟩

/-- `SetupCoreLocalRegionMemoryBlocks`: the region, its `Insert` into the virtual tree as a
`CoreLocal` block (line 193), and the page-table and boot-argument calls that follow; `none`
is an abort. -/
def setupCoreLocalRegionMemoryBlocks (canDerive : Nat → Nat → Bool) (coreLocalType : Nat)
    (allocate : Nat → Nat) (ttbr1El1 : Nat) (t : List KMemoryBlock) (draws : List Nat) :
    Option (List KMemoryBlock × List MapCall × List InitArgumentsCall) :=
  match getCoreLocalRegionVirtualAddress isDerivedFrom numCores pageSize noneType t draws with
  | none => none
  | some coreLocalVirtStart =>
    match insert canDerive t coreLocalVirtStart (coreLocalRegionSize numCores pageSize)
        coreLocalType 0 0 with
    | some ⟨true, t', _⟩ =>
      some (t',
        setupCoreLocalRegionPageTables numCores pageSize allocate ttbr1El1 coreLocalVirtStart)
    | _ => none

/-- What `SetupCoreLocalRegionMemoryBlocks` does once the search returns `v`, when free
blocks carry no attribute and a `CoreLocal` block can be cut out of one: the block `b` that
holds the candidate `s = v - PageSize` is split around `[v, v + CoreLocalRegionSize)`, the
new block being its `CoreLocal` part, and the virtual tree keeps its tiling. -/
theorem setupCoreLocalRegionMemoryBlocks_split (canDerive : Nat → Nat → Bool)
    (coreLocalType : Nat) (allocate : Nat → Nat) (ttbr1El1 : Nat) {t : List KMemoryBlock}
    {lo hi v : Nat} {draws : List Nat} (hcov : Covers t lo hi)
    (hguards : coreLocalRegionSizeWithGuards numCores pageSize < 2 ^ 64)
    (hattr : ∀ b ∈ t, b.typeId = noneType → b.attributes = 0)
    (hder : canDerive noneType coreLocalType = true)
    (hv : getCoreLocalRegionVirtualAddress isDerivedFrom numCores pageSize noneType t draws =
      some v) :
    ∃ s pre b post, v = s + pageSize ∧ 0 < pageSize ∧
      s + coreLocalRegionSizeWithGuards numCores pageSize < 2 ^ 64 ∧ t = pre ++ b :: post ∧
      CoreLocalCandidateFits numCores pageSize noneType b s ∧
      part b v (coreLocalRegionSize numCores pageSize) 0 coreLocalType ∈
        splitBlock b v (coreLocalRegionSize numCores pageSize) coreLocalType 0 0 ∧
      setupCoreLocalRegionMemoryBlocks isDerivedFrom numCores pageSize noneType canDerive
          coreLocalType allocate ttbr1El1 t draws =
        some (pre ++ splitBlock b v (coreLocalRegionSize numCores pageSize) coreLocalType 0 0 ++
          post, setupCoreLocalRegionPageTables numCores pageSize allocate ttbr1El1 v) ∧
      Covers (pre ++ splitBlock b v (coreLocalRegionSize numCores pageSize) coreLocalType 0 0 ++
        post) lo hi := by
  obtain ⟨s, pre, b, post, rfl, -, hpage, hs, hf, hfit⟩ :=
    getCoreLocalRegionVirtualAddress_candidate isDerivedFrom numCores pageSize noneType hguards hv
  obtain ⟨rfl, hcont, -⟩ := findContainingBlock_spec hf
  have hb : b ∈ pre ++ b :: post := List.mem_append_right _ (List.mem_cons_self _ _)
  obtain ⟨hpre, hbs, hpost⟩ := tiles_around.mp hcov.1
  have he : b.address + b.size ≤ 2 ^ 64 := by have := hpost.le; have := hcov.2; omega
  -- the region lies in `b`, between the guard pages
  have hsizes : coreLocalRegionSizeWithGuards numCores pageSize =
      coreLocalRegionSize numCores pageSize + 2 * pageSize := rfl
  have hregion : 0 < coreLocalRegionSize numCores pageSize :=
    Nat.mul_pos hpage (by omega)
  have hin := (KMemoryBlock.contains_iff hbs he).mp hcont
  have hlast := hfit.1
  rw [insertedBlockLast_eq (by omega) (by omega), KMemoryBlock.lastAddress_eq hbs he] at hlast
  have hlo : b.address ≤ s + pageSize := by omega
  have hhi : s + pageSize + coreLocalRegionSize numCores pageSize ≤ b.address + b.size := by
    omega
  have hins : ∃ drawn, insert canDerive (pre ++ b :: post) (s + pageSize)
      (coreLocalRegionSize numCores pageSize) coreLocalType 0 0 = some ⟨true, pre ++
        splitBlock b (s + pageSize) (coreLocalRegionSize numCores pageSize) coreLocalType 0 0 ++
          post, drawn⟩ :=
    insert_append canDerive (hpre.not_contains (by omega) hlo) he hlo hregion hhi
      (hattr b hb hfit.2.1) (hfit.2.1 ▸ hder)
  obtain ⟨drawn, hins⟩ := hins
  refine ⟨s, pre, b, post, rfl, hpage, hs, rfl, hfit, part_mem_splitBlock hbs he hlo hregion hhi,
    ?_, hcov.replace (splitBlock_tiles hbs he hlo hregion hhi)⟩
  simp only [setupCoreLocalRegionMemoryBlocks, hv, hins]

/-- After `SetupCoreLocalRegionMemoryBlocks` the core-local region has its 1 GB translation
slot to itself: every block of the new virtual tree that meets the window at
`AlignDown(v - PageSize, 1 GB)` is the `CoreLocal` block `[v, v + CoreLocalRegionSize)` or a
free block, so no other region is mapped through that L1 entry. -/
theorem setupCoreLocalRegionMemoryBlocks_window (canDerive : Nat → Nat → Bool)
    (coreLocalType : Nat) (allocate : Nat → Nat) (ttbr1El1 : Nat) {t : List KMemoryBlock}
    {lo hi v : Nat} {draws : List Nat} (hcov : Covers t lo hi)
    (hguards : coreLocalRegionSizeWithGuards numCores pageSize < 2 ^ 64)
    (hattr : ∀ b ∈ t, b.typeId = noneType → b.attributes = 0)
    (hder : canDerive noneType coreLocalType = true)
    (hv : getCoreLocalRegionVirtualAddress isDerivedFrom numCores pageSize noneType t draws =
      some v) :
    let w := alignDown (v - pageSize) coreLocalRegionBoundsAlign
    ∃ t', setupCoreLocalRegionMemoryBlocks isDerivedFrom numCores pageSize noneType canDerive
          coreLocalType allocate ttbr1El1 t draws =
        some (t', setupCoreLocalRegionPageTables numCores pageSize allocate ttbr1El1 v) ∧
      Covers t' lo hi ∧
      ∀ c ∈ t', (∃ x, w ≤ x ∧ x ≤ w + coreLocalRegionBoundsAlign - 1 ∧ c.Contains x) →
        (c.address = v ∧ c.size = coreLocalRegionSize numCores pageSize ∧
          c.typeId = coreLocalType) ∨ c.typeId = noneType := by
  obtain ⟨s, pre, b, post, rfl, hpage, hs, rfl, hfit, -, hsetup, hcov'⟩ :=
    setupCoreLocalRegionMemoryBlocks_split isDerivedFrom numCores pageSize noneType canDerive
      coreLocalType allocate ttbr1El1 hcov hguards hattr hder hv
  obtain ⟨-, -, htype, hstart, hend⟩ := hfit.window numCores pageSize noneType hpage hs
  obtain ⟨hpre, hbs, hpost⟩ := tiles_around.mp hcov.1
  have he : hi + 1 ≤ 2 ^ 64 := hcov.2
  have hbe : b.address + b.size ≤ 2 ^ 64 := by have := hpost.le; omega
  rw [KMemoryBlock.lastAddress_eq hbs hbe] at hend
  dsimp only
  rw [Nat.add_sub_cancel]
  refine ⟨_, hsetup, hcov', ?_⟩
  rintro c hc ⟨x, hx₁, hx₂, hcx⟩
  simp only [List.mem_append] at hc
  rcases hc with (hc | hc) | hc
  · -- the blocks before `b` end where it starts, below the window
    exact absurd hcx (hpre.not_contains (by omega) (by omega : b.address ≤ x) c hc)
  · -- the pieces of `b`: the new block, or parts that stay free
    exact (typeId_of_mem_splitBlock hc).symm.imp_right (·.trans htype)
  · -- the blocks after `b` start where it ends, above the window
    have hcb := hpost.bounds hc
    have := (KMemoryBlock.contains_iff hcb.2.1 (by omega)).mp hcx
    omega

/-- `setupCoreLocalRegionMemoryBlocks_window` for four cores on one free block spanning the
address space, with a first draw at 1 GB. -/
theorem setupCoreLocalRegionMemoryBlocks_window_first_draw :
    let t : List KMemoryBlock := [⟨0, 2 ^ 64, uintptrMax, 0, 0⟩]
    let w := alignDown (0x40001000 - 0x1000) coreLocalRegionBoundsAlign
    (Covers t 0 (2 ^ 64 - 1) ∧ coreLocalRegionSizeWithGuards 4 0x1000 < 2 ^ 64 ∧
      (∀ b ∈ t, b.typeId = 0 → b.attributes = 0) ∧ (fun _ _ => true : Nat → Nat → Bool) 0 1 = true ∧
      getCoreLocalRegionVirtualAddress (fun a b => a == b) 4 0x1000 0 t [0x40000000] =
        some 0x40001000) ∧
    ∃ t', setupCoreLocalRegionMemoryBlocks (fun a b => a == b) 4 0x1000 0 (fun _ _ => true) 1 id
          0 t [0x40000000] =
        some (t', setupCoreLocalRegionPageTables 4 0x1000 id 0 0x40001000) ∧
      Covers t' 0 (2 ^ 64 - 1) ∧
      ∀ c ∈ t', (∃ x, w ≤ x ∧ x ≤ w + coreLocalRegionBoundsAlign - 1 ∧ c.Contains x) →
        (c.address = 0x40001000 ∧ c.size = coreLocalRegionSize 4 0x1000 ∧ c.typeId = 1) ∨
          c.typeId = 0 :=
  ⟨⟨by decide, by decide, by decide, rfl, by decide⟩,
    @setupCoreLocalRegionMemoryBlocks_window (fun a b => a == b) 4 0x1000 0 (fun _ _ => true) 1
      id 0 [⟨0, 2 ^ 64, uintptrMax, 0, 0⟩] 0 (2 ^ 64 - 1) 0x40001000 [0x40000000] (by decide)
      (by decide) (by decide) rfl (by decide)⟩

/-- A call of `SetupCoreLocalRegionMemoryBlocks` that does not abort made an accepted
`Insert` of `[v, v + CoreLocalRegionSize)` as `CoreLocal`, where `v` is what the search
returned. -/
theorem setupCoreLocalRegionMemoryBlocks_insert (canDerive : Nat → Nat → Bool)
    (coreLocalType : Nat) (allocate : Nat → Nat) (ttbr1El1 : Nat) {t t' : List KMemoryBlock}
    {v : Nat} {draws : List Nat} {calls : List MapCall × List InitArgumentsCall}
    (hv : getCoreLocalRegionVirtualAddress isDerivedFrom numCores pageSize noneType t draws =
      some v)
    (h : setupCoreLocalRegionMemoryBlocks isDerivedFrom numCores pageSize noneType canDerive
      coreLocalType allocate ttbr1El1 t draws = some (t', calls)) :
    ∃ d, insert canDerive t v (coreLocalRegionSize numCores pageSize) coreLocalType 0 0 =
      some ⟨true, t', d⟩ := by
  simp only [setupCoreLocalRegionMemoryBlocks, hv] at h
  split at h
  · rename_i t₁ d hins
    cases h
    exact ⟨d, hins⟩
  · cases h

/-- `SetupCoreLocalRegionMemoryBlocks` changes the virtual address map only on the region:
on a virtual tree that keeps the tiling invariant, whose pair ranges fit and whose free
blocks carry no attribute, once the search returns `v` the builder does not abort, the tree
keeps both invariants, and its map is the old one with `[v, v + CoreLocalRegionSize)`
overwritten as `CoreLocal` with attributes `0`; every other address keeps its class. -/
theorem setupCoreLocalRegionMemoryBlocks_classify (canDerive : Nat → Nat → Bool)
    (coreLocalType : Nat) (allocate : Nat → Nat) (ttbr1El1 : Nat) {t : List KMemoryBlock}
    {lo hi v : Nat} {draws : List Nat} (hcov : Covers t lo hi) (hfit : PairsFit t)
    (hguards : coreLocalRegionSizeWithGuards numCores pageSize < 2 ^ 64)
    (hattr : ∀ b ∈ t, b.typeId = noneType → b.attributes = 0)
    (hder : canDerive noneType coreLocalType = true)
    (hv : getCoreLocalRegionVirtualAddress isDerivedFrom numCores pageSize noneType t draws =
      some v) :
    ∃ t', setupCoreLocalRegionMemoryBlocks isDerivedFrom numCores pageSize noneType canDerive
          coreLocalType allocate ttbr1El1 t draws =
        some (t', setupCoreLocalRegionPageTables numCores pageSize allocate ttbr1El1 v) ∧
      Covers t' lo hi ∧ PairsFit t' ∧
      classify t' = overwrite (classify t)
        ⟨v, coreLocalRegionSize numCores pageSize, coreLocalType, 0, 0⟩ := by
  obtain ⟨s, pre, b, post, rfl, hpage, hs, rfl, hfitb, -, hsetup, -⟩ :=
    setupCoreLocalRegionMemoryBlocks_split isDerivedFrom numCores pageSize noneType canDerive
      coreLocalType allocate ttbr1El1 hcov hguards hattr hder hv
  obtain ⟨hws, hwl, -, hstart, hend⟩ := hfitb.window numCores pageSize noneType hpage hs
  obtain ⟨d, hins⟩ := setupCoreLocalRegionMemoryBlocks_insert isDerivedFrom numCores pageSize
    noneType canDerive coreLocalType allocate ttbr1El1 hv hsetup
  -- the request lies in `b`, itself in `[lo, hi]`
  obtain ⟨hpre, hbs, hpost⟩ := tiles_around.mp hcov.1
  have he : hi + 1 ≤ 2 ^ 64 := hcov.2
  have hbe : b.address + b.size ≤ 2 ^ 64 := by have := hpost.le; omega
  rw [KMemoryBlock.lastAddress_eq hbs hbe] at hend
  have hsizes : coreLocalRegionSizeWithGuards numCores pageSize =
      coreLocalRegionSize numCores pageSize + 2 * pageSize := rfl
  have hregion : 0 < coreLocalRegionSize numCores pageSize := Nat.mul_pos hpage (by omega)
  have hq : InsertRequest.InRange lo hi
      ⟨s + pageSize, coreLocalRegionSize numCores pageSize, coreLocalType, 0, 0⟩ := by
    have := hpre.le
    have := hpost.le
    refine ⟨?_, ?_, ?_, ?_⟩ <;> dsimp only <;> omega
  obtain ⟨hmap, hcov', hfit'⟩ := insert_overwrite canDerive hcov hfit hq hins
  exact ⟨_, hsetup, hcov', hfit', hmap⟩

/-- `setupCoreLocalRegionMemoryBlocks_classify` for four cores on one free block spanning the
address space, with a first draw at 1 GB. -/
theorem setupCoreLocalRegionMemoryBlocks_classify_first_draw :
    let t : List KMemoryBlock := [⟨0, 2 ^ 64, uintptrMax, 0, 0⟩]
    (Covers t 0 (2 ^ 64 - 1) ∧ PairsFit t ∧ coreLocalRegionSizeWithGuards 4 0x1000 < 2 ^ 64 ∧
      (∀ b ∈ t, b.typeId = 0 → b.attributes = 0) ∧ (fun _ _ => true : Nat → Nat → Bool) 0 1 = true ∧
      getCoreLocalRegionVirtualAddress (fun a b => a == b) 4 0x1000 0 t [0x40000000] =
        some 0x40001000) ∧
    ∃ t', setupCoreLocalRegionMemoryBlocks (fun a b => a == b) 4 0x1000 0 (fun _ _ => true) 1 id
          0 t [0x40000000] =
        some (t', setupCoreLocalRegionPageTables 4 0x1000 id 0 0x40001000) ∧
      Covers t' 0 (2 ^ 64 - 1) ∧ PairsFit t' ∧
      classify t' = overwrite (classify t) ⟨0x40001000, coreLocalRegionSize 4 0x1000, 1, 0, 0⟩ :=
  ⟨⟨by decide, by decide, by decide, by decide, rfl, by decide⟩,
    @setupCoreLocalRegionMemoryBlocks_classify (fun a b => a == b) 4 0x1000 0 (fun _ _ => true) 1
      id 0 [⟨0, 2 ^ 64, uintptrMax, 0, 0⟩] 0 (2 ^ 64 - 1) 0x40001000 [0x40000000] (by decide)
      (by decide) (by decide) (by decide) rfl (by decide)⟩

end Region

end Ams.Kern.Init
