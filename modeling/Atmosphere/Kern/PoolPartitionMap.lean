import Atmosphere.Kern.AddressMap
import Atmosphere.Kern.PoolPartition

/-!
# What `SetupPoolPartitionMemoryBlocks` does to the physical address map

Every call of `InsertPoolPartitionBlockIntoBothTrees` inserts its pool into the physical
tree under `MESOSPHERE_INIT_ABORT_UNLESS`, and nothing else in the builder writes to that
tree.  A run of the builder that does not abort is therefore a run of init-time inserts
on the physical tree, one per pool in the order the builder computes them, and the
refinement of `Atmosphere.Kern.AddressMap` applies to it: whatever the inputs, the physical
map the builder leaves is the old one with each pool's range overwritten by the pool's
type and attribute, every address outside the pools keeping its class.

This holds without the ordering of the pool boundaries that the layout theorem of
`Atmosphere.Kern.PoolPartition` assumes; it needs only that every pool it inserts is a
non-empty range of the tree that does not wrap.
-/

namespace Ams.Kern

open KMemoryBlock KMemoryBlockTree

namespace Init

/-- The request `InsertPoolPartitionBlockIntoBothTrees` makes of the physical tree (line
185): `Insert(start, size, phys_type, attr)`, with the default old attributes `0`. -/
def PoolInsert.physRequest (q : PoolInsert) : InsertRequest :=
  ⟨q.start, q.size, q.physType, q.attr, 0⟩

variable (canDerive : Nat → Nat → Bool)

/-- What one call of `InsertPoolPartitionBlockIntoBothTrees` that does not abort did: an
accepted insert into the physical tree, then an accepted insert into the virtual tree at
the pair address of the block the lookup found. -/
theorem insertPoolPartitionBlockIntoBothTrees_eq_some {phys virt phys' virt' : List KMemoryBlock}
    {q : PoolInsert}
    (h : insertPoolPartitionBlockIntoBothTrees canDerive (phys, virt) q = some (phys', virt')) :
    (∃ d, insert canDerive phys q.start q.size q.physType q.attr 0 = some ⟨true, phys', d⟩) ∧
      ∃ b d', findFirstBlockByTypeAttr phys' q.physType q.attr = some b ∧
        insert canDerive virt b.pairAddress q.size q.virtType q.attr 0 =
          some ⟨true, virt', d'⟩ := by
  simp only [insertPoolPartitionBlockIntoBothTrees] at h
  split at h
  · rename_i phys₁ d hphys
    split at h
    · rename_i b hb
      split at h
      · rename_i virt₁ d' hvirt
        cases h
        exact ⟨⟨d, hphys⟩, b, d', hb, hvirt⟩
      · cases h
    · cases h
  · cases h

/-- On the physical tree, the calls of `InsertPoolPartitionBlockIntoBothTrees` are a run of
init-time inserts of their physical requests. -/
theorem insertPoolPartitionBlocks_physical :
    ∀ {phys virt phys' virt' : List KMemoryBlock} {qs : List PoolInsert},
      insertPoolPartitionBlocks canDerive (phys, virt) qs = some (phys', virt') →
      initInserts canDerive phys (qs.map PoolInsert.physRequest) = some phys'
  | _, _, _, _, [], h => by
    cases h
    rfl
  | _, _, _, _, q :: qs, h => by
    obtain ⟨⟨phys₁, virt₁⟩, hstep, hrest⟩ := Option.bind_eq_some.mp h
    obtain ⟨⟨d, hphys⟩, -⟩ := insertPoolPartitionBlockIntoBothTrees_eq_some canDerive hstep
    simp only [List.map_cons, initInserts, PoolInsert.physRequest, hphys]
    exact insertPoolPartitionBlocks_physical hrest

variable (isDerivedFrom : Nat → Nat → Bool) (ty : PoolRegionTypes) (f : Nat → Nat)

/-- For any inputs, a run of `SetupPoolPartitionMemoryBlocks` that does not abort, on a
physical tree that keeps the tiling and whose pair ranges fit, with every pool it inserts a
non-empty range of the tree that does not wrap, leaves a physical tree that keeps both and
whose map is the old one with each pool's range given the pool's type and attribute, in
the order the builder inserts them; every other address keeps its class. -/
theorem setupPoolPartitionMemoryBlocks_classify {phys virt phys' virt' : List KMemoryBlock}
    {loP hiP applicationPoolSize appletPoolSize unsafeSystemPoolMinSize : Nat} {i : PoolInputs}
    (hcov : Covers phys loP hiP) (hfit : PairsFit phys)
    (hread : readPoolInputs isDerivedFrom ty phys applicationPoolSize appletPoolSize
      unsafeSystemPoolMinSize = some i)
    (hin : ∀ q ∈ poolPartitionInserts ty f i, q.physRequest.InRange loP hiP)
    (h : setupPoolPartitionMemoryBlocks canDerive isDerivedFrom ty f phys virt
      applicationPoolSize appletPoolSize unsafeSystemPoolMinSize = some (phys', virt')) :
    classify phys' = (poolPartitionInserts ty f i).foldl
        (fun m q => overwrite m q.physRequest) (classify phys) ∧
      Covers phys' loP hiP ∧ PairsFit phys' := by
  simp only [setupPoolPartitionMemoryBlocks, hread] at h
  split_ifs at h
  have hrun := insertPoolPartitionBlocks_physical canDerive h
  rw [← List.foldl_map]
  exact initInserts_overwrites canDerive hcov hfit
    (fun r hr => by
      obtain ⟨q, hq, rfl⟩ := List.mem_map.mp hr
      exact hin q hq) hrun

/-- `setupPoolPartitionMemoryBlocks_classify` on 2 GiB of DRAM whose application pool
straddles the midpoint, mirrored by one free virtual block spanning the address space. -/
theorem setupPoolPartitionMemoryBlocks_classify_split :
    let ty : PoolRegionTypes := ⟨1, 2, 3, 4, 5, 6, 7, 8, 9, 10, 11, 12, 13⟩
    let isDerivedFrom : Nat → Nat → Bool := fun c p => c == p || (p == 1 && (c == 2 || c == 3))
    let overhead : Nat → Nat := fun _ => 0x100000
    let phys : List KMemoryBlock :=
      [⟨0x80000000, 0x100000, uintptrMax, 0, 2⟩, ⟨0x80100000, 0x7FF00000, 0x80100000, 0, 3⟩]
    let virt : List KMemoryBlock := [⟨0, 2 ^ 64, uintptrMax, 0, 14⟩]
    let i : PoolInputs :=
      ⟨0x80000000, 0x100000000, 0x80000000, 0x80100000, 0x50000000, 0x10000000, 0x2000000⟩
    let phys' : List KMemoryBlock := [⟨0x80000000, 0x100000, uintptrMax, 0, 2⟩,
      ⟨0x80100000, 0x1DA00000, 0x80100000, 4, 8⟩, ⟨0x9DB00000, 0x500000, 0x9DB00000, 0, 7⟩,
      ⟨0x9E000000, 0x2000000, 0x9E000000, 3, 6⟩, ⟨0xA0000000, 0x10000000, 0xA0000000, 2, 5⟩,
      ⟨0xB0000000, 0x10000000, 0xB0000000, 0, 4⟩, ⟨0xC0000000, 0x40000000, 0xC0000000, 1, 4⟩]
    let virt' : List KMemoryBlock := [⟨0, 0x80100000, uintptrMax, 0, 14⟩,
      ⟨0x80100000, 0x1DA00000, uintptrMax, 4, 13⟩, ⟨0x9DB00000, 0x500000, uintptrMax, 0, 12⟩,
      ⟨0x9E000000, 0x2000000, uintptrMax, 3, 11⟩, ⟨0xA0000000, 0x10000000, uintptrMax, 2, 10⟩,
      ⟨0xB0000000, 0x10000000, uintptrMax, 0, 9⟩, ⟨0xC0000000, 0x40000000, uintptrMax, 1, 9⟩,
      ⟨0x100000000, 2 ^ 64 - 0x100000000, uintptrMax, 0, 14⟩]
    (Covers phys 0x80000000 0xFFFFFFFF ∧ PairsFit phys ∧
      readPoolInputs isDerivedFrom ty phys 0x50000000 0x10000000 0x2000000 = some i ∧
      (∀ q ∈ poolPartitionInserts ty overhead i, q.physRequest.InRange 0x80000000 0xFFFFFFFF) ∧
      setupPoolPartitionMemoryBlocks (fun _ _ => true) isDerivedFrom ty overhead phys virt
        0x50000000 0x10000000 0x2000000 = some (phys', virt')) ∧
    classify phys' = (poolPartitionInserts ty overhead i).foldl
        (fun m q => overwrite m q.physRequest) (classify phys) ∧
      Covers phys' 0x80000000 0xFFFFFFFF ∧ PairsFit phys' := by
  intro ty isDerivedFrom overhead phys virt i phys' virt'
  exact ⟨⟨by decide, by decide, by decide, by decide, by decide⟩,
    @setupPoolPartitionMemoryBlocks_classify (fun _ _ => true) isDerivedFrom ty overhead phys virt
      phys' virt' 0x80000000 0xFFFFFFFF 0x50000000 0x10000000 0x2000000 i (by decide)
      (by decide) (by decide) (by decide) (by decide)⟩

end Init

end Ams.Kern
