import Atmosphere.Kern.RandomRegion

/-!
# `SetupPoolPartitionMemoryBlocks`

The builder cuts the DRAM pool partition `[pool_partitions_start, dram_end)` into the
system, metadata, non-secure system, applet and application pools, working down from the
end of DRAM.  Each pool is inserted into the physical tree and then, at the pair address
of the block just inserted, into the virtual tree (`InsertPoolPartitionBlockIntoBothTrees`).

The model computes the arguments of these calls first, as the builder does: none of the
values it computes reads the trees.  The region types, the pool sizes of
`KSystemControl::Init` and `KMemoryManager::CalculateMetadataOverheadSize` are declared
outside the sources and are parameters, as are `IsDerivedFrom` and `CanDerive`.

When the partition is one block with a valid pair, mirrored by an attribute-0 virtual
block, and no physical block has a pool type yet, every insert succeeds: each one carves
the top of what is left of the partition, in both trees at once.
-/

namespace Ams.Kern

open KMemoryBlock

namespace KMemoryBlockTree

/-- Modelled from the spec: `FindFirstBlockByTypeAttr(type_id, attr)`, the first block in
address order with exactly this type and these attributes; `none` is the init-time abort
when there is none. -/
def findFirstBlockByTypeAttr (t : List KMemoryBlock) (typeId attr : Nat) :
    Option KMemoryBlock :=
  t.find? fun b => b.typeId = typeId ∧ b.attributes = attr

/-- The first block with a type and attributes, behind blocks without both. -/
theorem findFirstBlockByTypeAttr_append {pre post : List KMemoryBlock} {b : KMemoryBlock}
    {typeId attr : Nat} (hpre : ∀ c ∈ pre, ¬ (c.typeId = typeId ∧ c.attributes = attr))
    (hb : b.typeId = typeId ∧ b.attributes = attr) :
    findFirstBlockByTypeAttr (pre ++ b :: post) typeId attr = some b := by
  have hnone : pre.find? (fun c => c.typeId = typeId ∧ c.attributes = attr) = none :=
    List.find?_eq_none.mpr fun c hc => by simpa using hpre c hc
  unfold findFirstBlockByTypeAttr
  rw [List.find?_append, hnone, Option.none_or]
  simp [List.find?_cons, hb]

/-- The block found is in the tree, with the type and attributes looked up. -/
theorem findFirstBlockByTypeAttr_some {t : List KMemoryBlock} {typeId attr : Nat}
    {b : KMemoryBlock} (h : findFirstBlockByTypeAttr t typeId attr = some b) :
    b ∈ t ∧ b.typeId = typeId ∧ b.attributes = attr :=
  ⟨List.mem_of_find?_eq_some h, by simpa using List.find?_some h⟩

variable (isDerivedFrom : Nat → Nat → Bool)

/-- Modelled from the spec: `FindFirstDerivedBlock(type_id)`, the first block whose type
derives from `type_id`; `none` is the init-time abort when there is none. -/
def findFirstDerivedBlock (t : List KMemoryBlock) (typeId : Nat) : Option KMemoryBlock :=
  t.find? fun b => isDerivedFrom b.typeId typeId

end KMemoryBlockTree

namespace Init

open KMemoryBlockTree Ams.Util

/-- `CarveoutAlignment`. -/
def carveoutAlignment : Nat := 0x20000

/-- `CarveoutSizeMax`: `512_MB - CarveoutAlignment`. -/
def carveoutSizeMax : Nat := 0x20000000 - carveoutAlignment

/-- The `KMemoryRegionType` values the builder names. -/
structure PoolRegionTypes where
  dram : Nat
  dramKernel : Nat
  dramPoolPartition : Nat
  dramApplicationPool : Nat
  dramAppletPool : Nat
  dramSystemNonSecurePool : Nat
  dramMetadataPool : Nat
  dramSystemPool : Nat
  virtualDramApplicationPool : Nat
  virtualDramAppletPool : Nat
  virtualDramSystemNonSecurePool : Nat
  virtualDramMetadataPool : Nat
  virtualDramSystemPool : Nat
  deriving Repr, DecidableEq

/-- The types of the five physical pools. -/
def PoolRegionTypes.physicalPoolTypes (ty : PoolRegionTypes) : List Nat :=
  [ty.dramApplicationPool, ty.dramAppletPool, ty.dramSystemNonSecurePool,
    ty.dramMetadataPool, ty.dramSystemPool]

/-- The types of the five virtual pools. -/
def PoolRegionTypes.virtualPoolTypes (ty : PoolRegionTypes) : List Nat :=
  [ty.virtualDramApplicationPool, ty.virtualDramAppletPool,
    ty.virtualDramSystemNonSecurePool, ty.virtualDramMetadataPool, ty.virtualDramSystemPool]

/-- What the builder reads before it inserts anything (lines 227–239). -/
structure PoolInputs where
  /-- `dram_extents.first_block->GetAddress()`. -/
  dramFirst : Nat
  /-- `dram_extents.last_block->GetEndAddress()`. -/
  dramEnd : Nat
  kernelDramStart : Nat
  poolPartitionsStart : Nat
  applicationPoolSize : Nat
  appletPoolSize : Nat
  unsafeSystemPoolMinSize : Nat
  deriving Repr, DecidableEq

namespace PoolInputs

variable (i : PoolInputs)

/-- `application_pool_start`. -/
def applicationPoolStart : Nat := subU64 i.dramEnd i.applicationPoolSize

/-- `applet_pool_start`. -/
def appletPoolStart : Nat := subU64 i.applicationPoolStart i.appletPoolSize

/-- `unsafe_system_pool_start`. -/
def unsafeSystemPoolStart : Nat :=
  min (addU64 i.kernelDramStart carveoutSizeMax)
    (alignDown (subU64 i.appletPoolStart i.unsafeSystemPoolMinSize) carveoutAlignment)

/-- `unsafe_system_pool_size`. -/
def unsafeSystemPoolSize : Nat := subU64 i.appletPoolStart i.unsafeSystemPoolStart

/-- `dram_midpoint`. -/
def dramMidpoint : Nat := addU64 i.dramFirst i.dramEnd / 2

/-- The application pool is inserted as one block (line 251). -/
def ApplicationPoolWhole : Prop :=
  i.dramEnd ≤ i.dramMidpoint ∨ i.dramMidpoint ≤ i.applicationPoolStart

instance : Decidable i.ApplicationPoolWhole := inferInstanceAs (Decidable (_ ∨ _))

/-- `first_application_pool_size`. -/
def firstApplicationPoolSize : Nat := subU64 i.dramMidpoint i.applicationPoolStart

/-- `second_application_pool_size`. -/
def secondApplicationPoolSize : Nat :=
  subU64 (addU64 i.applicationPoolStart i.applicationPoolSize) i.dramMidpoint

variable (calculateMetadataOverheadSize : Nat → Nat)

/-- `total_overhead_size` after the non-secure system pool (lines 248–269). -/
def poolsOverheadSize : Nat :=
  let application :=
    if i.ApplicationPoolWhole then addU64 0 (calculateMetadataOverheadSize i.applicationPoolSize)
    else addU64 (addU64 0 (calculateMetadataOverheadSize i.firstApplicationPoolSize))
      (calculateMetadataOverheadSize i.secondApplicationPoolSize)
  addU64 (addU64 application (calculateMetadataOverheadSize i.appletPoolSize))
    (calculateMetadataOverheadSize i.unsafeSystemPoolSize)

/-- `total_overhead_size` with the metadata pool's own overhead (line 272), which is the
metadata pool's size. -/
def metadataPoolSize : Nat :=
  addU64 (i.poolsOverheadSize calculateMetadataOverheadSize)
    (calculateMetadataOverheadSize (subU64 (subU64 i.unsafeSystemPoolStart i.poolPartitionsStart)
      (i.poolsOverheadSize calculateMetadataOverheadSize)))

/-- `metadata_pool_start`. -/
def metadataPoolStart : Nat :=
  subU64 i.unsafeSystemPoolStart (i.metadataPoolSize calculateMetadataOverheadSize)

/-- `system_pool_size`. -/
def systemPoolSize : Nat :=
  subU64 (i.metadataPoolStart calculateMetadataOverheadSize) i.poolPartitionsStart

/-! ### The boundaries when they are ordered

When the boundaries are ordered, no subtraction of the builder wraps, and the size it
passes for each pool is the distance between two boundaries. -/

section Ordered

variable {i} {calculateMetadataOverheadSize}

theorem applicationPoolSize_eq (hdram : i.dramFirst + i.dramEnd < 2 ^ 64)
    (happ : i.applicationPoolSize < 2 ^ 64) (h : i.applicationPoolStart < i.dramEnd) :
    i.applicationPoolSize = i.dramEnd - i.applicationPoolStart := by
  unfold applicationPoolStart subU64 at *
  omega

theorem appletPoolSize_eq (hdram : i.dramFirst + i.dramEnd < 2 ^ 64)
    (happlet : i.appletPoolSize < 2 ^ 64) (h : i.appletPoolStart < i.applicationPoolStart)
    (h' : i.applicationPoolStart < i.dramEnd) :
    i.appletPoolSize = i.applicationPoolStart - i.appletPoolStart := by
  unfold appletPoolStart subU64 at *
  omega

theorem unsafeSystemPoolSize_eq (hdram : i.dramFirst + i.dramEnd < 2 ^ 64)
    (h : i.unsafeSystemPoolStart < i.appletPoolStart)
    (h' : i.appletPoolStart < i.dramEnd) :
    i.unsafeSystemPoolSize = i.appletPoolStart - i.unsafeSystemPoolStart :=
  subU64_of_le h.le (by omega)

theorem metadataPoolSize_eq (hdram : i.dramFirst + i.dramEnd < 2 ^ 64)
    (h : i.metadataPoolStart calculateMetadataOverheadSize < i.unsafeSystemPoolStart)
    (h' : i.unsafeSystemPoolStart < i.dramEnd) :
    i.metadataPoolSize calculateMetadataOverheadSize =
      i.unsafeSystemPoolStart - i.metadataPoolStart calculateMetadataOverheadSize := by
  have hsize : i.metadataPoolSize calculateMetadataOverheadSize < 2 ^ 64 := by
    unfold metadataPoolSize addU64
    exact Nat.mod_lt _ (Nat.two_pow_pos 64)
  unfold metadataPoolStart subU64 at *
  omega

theorem systemPoolSize_eq (hdram : i.dramFirst + i.dramEnd < 2 ^ 64)
    (h : i.poolPartitionsStart < i.metadataPoolStart calculateMetadataOverheadSize)
    (h' : i.metadataPoolStart calculateMetadataOverheadSize < i.dramEnd) :
    i.systemPoolSize calculateMetadataOverheadSize =
      i.metadataPoolStart calculateMetadataOverheadSize - i.poolPartitionsStart :=
  subU64_of_le h.le (by omega)

theorem firstApplicationPoolSize_eq (hdram : i.dramFirst + i.dramEnd < 2 ^ 64)
    (h : i.applicationPoolStart < i.dramMidpoint) (h' : i.dramMidpoint < i.dramEnd) :
    i.firstApplicationPoolSize = i.dramMidpoint - i.applicationPoolStart :=
  subU64_of_le h.le (by omega)

theorem secondApplicationPoolSize_eq (hdram : i.dramFirst + i.dramEnd < 2 ^ 64)
    (happ : i.applicationPoolSize < 2 ^ 64) (h : i.applicationPoolStart < i.dramEnd)
    (h' : i.dramMidpoint < i.dramEnd) :
    i.secondApplicationPoolSize = i.dramEnd - i.dramMidpoint := by
  have := applicationPoolSize_eq hdram happ h
  rw [secondApplicationPoolSize, addU64_of_lt (by omega), subU64_of_le (by omega) (by omega)]
  omega

/-- Between boundaries in order, a positive size makes the order strict: a pool of positive
size ending at a boundary starts below it. -/
theorem ordered_of_pos (happlet : i.appletPoolSize < 2 ^ 64)
    (h₁ : i.poolPartitionsStart ≤ i.metadataPoolStart calculateMetadataOverheadSize)
    (h₂ : i.metadataPoolStart calculateMetadataOverheadSize ≤ i.unsafeSystemPoolStart)
    (h₃ : i.unsafeSystemPoolStart ≤ i.appletPoolStart)
    (h₄ : i.appletPoolStart ≤ i.applicationPoolStart)
    (hsystem : 0 < i.systemPoolSize calculateMetadataOverheadSize)
    (hmetadata : 0 < i.metadataPoolSize calculateMetadataOverheadSize)
    (hnonSecure : 0 < i.unsafeSystemPoolSize) (happlet' : 0 < i.appletPoolSize) :
    i.poolPartitionsStart < i.metadataPoolStart calculateMetadataOverheadSize ∧
      i.metadataPoolStart calculateMetadataOverheadSize < i.unsafeSystemPoolStart ∧
      i.unsafeSystemPoolStart < i.appletPoolStart ∧
      i.appletPoolStart < i.applicationPoolStart := by
  have hM : i.metadataPoolStart calculateMetadataOverheadSize < 2 ^ 64 :=
    Nat.mod_lt _ (Nat.two_pow_pos 64)
  have hT : i.metadataPoolSize calculateMetadataOverheadSize < 2 ^ 64 :=
    Nat.mod_lt _ (Nat.two_pow_pos 64)
  unfold systemPoolSize at hsystem
  unfold unsafeSystemPoolSize at hnonSecure
  unfold subU64 at hsystem hnonSecure
  refine ⟨by omega, ?_, by omega, ?_⟩
  · unfold metadataPoolStart subU64 at h₂ ⊢
    omega
  · unfold appletPoolStart subU64 at h₄ ⊢
    omega

end Ordered

end PoolInputs

/-- The arguments of one call of `InsertPoolPartitionBlockIntoBothTrees(start, size,
phys_type, virt_type, cur_attr)`, with the attribute the call takes. -/
structure PoolInsert where
  start : Nat
  size : Nat
  physType : Nat
  virtType : Nat
  attr : Nat
  deriving Repr, DecidableEq

/-- The calls of `InsertPoolPartitionBlockIntoBothTrees` the builder makes, in order
(lines 249–280): `cur_pool_attr` counts from 0 over every pool but the metadata pool,
which takes its own counter's 0. -/
def poolPartitionInserts (ty : PoolRegionTypes) (calculateMetadataOverheadSize : Nat → Nat)
    (i : PoolInputs) : List PoolInsert :=
  let application : List PoolInsert :=
    if i.ApplicationPoolWhole then
      [⟨i.applicationPoolStart, i.applicationPoolSize, ty.dramApplicationPool,
        ty.virtualDramApplicationPool, 0⟩]
    else
      [⟨i.applicationPoolStart, i.firstApplicationPoolSize, ty.dramApplicationPool,
          ty.virtualDramApplicationPool, 0⟩,
        ⟨i.dramMidpoint, i.secondApplicationPoolSize, ty.dramApplicationPool,
          ty.virtualDramApplicationPool, 1⟩]
  let curAttr := application.length
  application ++
    [⟨i.appletPoolStart, i.appletPoolSize, ty.dramAppletPool, ty.virtualDramAppletPool,
        curAttr⟩,
      ⟨i.unsafeSystemPoolStart, i.unsafeSystemPoolSize, ty.dramSystemNonSecurePool,
        ty.virtualDramSystemNonSecurePool, curAttr + 1⟩,
      ⟨i.metadataPoolStart calculateMetadataOverheadSize,
        i.metadataPoolSize calculateMetadataOverheadSize, ty.dramMetadataPool,
        ty.virtualDramMetadataPool, 0⟩,
      ⟨i.poolPartitionsStart, i.systemPoolSize calculateMetadataOverheadSize, ty.dramSystemPool,
        ty.virtualDramSystemPool, curAttr + 2⟩]

/-- The pools in address order, as the builder is meant to lay them out from the
boundaries it computes: the system, metadata, non-secure system and applet pools, then
the application pool, split at the DRAM midpoint when it straddles it.  Attributes count
up from the application pool; the metadata pool has attribute 0. -/
def poolPartitionLayout (ty : PoolRegionTypes) (calculateMetadataOverheadSize : Nat → Nat)
    (i : PoolInputs) : List PoolInsert :=
  let metadataPoolStart := i.metadataPoolStart calculateMetadataOverheadSize
  let application : List PoolInsert :=
    if i.ApplicationPoolWhole then
      [⟨i.applicationPoolStart, i.dramEnd - i.applicationPoolStart, ty.dramApplicationPool,
        ty.virtualDramApplicationPool, 0⟩]
    else
      [⟨i.applicationPoolStart, i.dramMidpoint - i.applicationPoolStart, ty.dramApplicationPool,
          ty.virtualDramApplicationPool, 0⟩,
        ⟨i.dramMidpoint, i.dramEnd - i.dramMidpoint, ty.dramApplicationPool,
          ty.virtualDramApplicationPool, 1⟩]
  let n := application.length
  [⟨i.poolPartitionsStart, metadataPoolStart - i.poolPartitionsStart, ty.dramSystemPool,
      ty.virtualDramSystemPool, n + 2⟩,
    ⟨metadataPoolStart, i.unsafeSystemPoolStart - metadataPoolStart, ty.dramMetadataPool,
      ty.virtualDramMetadataPool, 0⟩,
    ⟨i.unsafeSystemPoolStart, i.appletPoolStart - i.unsafeSystemPoolStart,
      ty.dramSystemNonSecurePool, ty.virtualDramSystemNonSecurePool, n + 1⟩,
    ⟨i.appletPoolStart, i.applicationPoolStart - i.appletPoolStart, ty.dramAppletPool,
      ty.virtualDramAppletPool, n⟩] ++ application

variable (canDerive : Nat → Nat → Bool)

/-- `InsertPoolPartitionBlockIntoBothTrees` on the physical and the virtual tree: insert
into the physical tree, find the block just inserted by its type and attribute, and
insert at its pair address into the virtual tree; `none` is an abort. -/
def insertPoolPartitionBlockIntoBothTrees (trees : List KMemoryBlock × List KMemoryBlock)
    (q : PoolInsert) : Option (List KMemoryBlock × List KMemoryBlock) :=
  match insert canDerive trees.1 q.start q.size q.physType q.attr 0 with
  | some ⟨true, phys, _⟩ =>
    match findFirstBlockByTypeAttr phys q.physType q.attr with
    | some b =>
      match insert canDerive trees.2 b.pairAddress q.size q.virtType q.attr 0 with
      | some ⟨true, virt, _⟩ => some (phys, virt)
      | _ => none
    | none => none
  | _ => none

/-- The calls `qs` one after another; `none` if one of them aborts. -/
def insertPoolPartitionBlocks :
    List KMemoryBlock × List KMemoryBlock → List PoolInsert →
      Option (List KMemoryBlock × List KMemoryBlock)
  | trees, [] => some trees
  | trees, q :: qs => (insertPoolPartitionBlockIntoBothTrees canDerive trees q).bind
      fun trees => insertPoolPartitionBlocks trees qs

variable (isDerivedFrom : Nat → Nat → Bool) (ty : PoolRegionTypes)

/-- The reads at the start of the builder; `none` is an abort of one of the lookups. -/
def readPoolInputs (phys : List KMemoryBlock)
    (applicationPoolSize appletPoolSize unsafeSystemPoolMinSize : Nat) : Option PoolInputs :=
  match getDerivedRegionExtents isDerivedFrom phys ty.dram,
      findFirstDerivedBlock isDerivedFrom phys ty.dramKernel,
      findFirstBlockByTypeAttr phys ty.dramPoolPartition 0 with
  | some (firstBlock, lastBlock), some kernelBlock, some poolPartitionBlock =>
    some ⟨firstBlock.address, lastBlock.endAddress, kernelBlock.address,
      poolPartitionBlock.address, applicationPoolSize, appletPoolSize, unsafeSystemPoolMinSize⟩
  | _, _, _ => none

/-- `SetupPoolPartitionMemoryBlocks` on the physical and the virtual tree, with the pool
sizes `KSystemControl::Init` returns; `none` is an abort. -/
def setupPoolPartitionMemoryBlocks (calculateMetadataOverheadSize : Nat → Nat)
    (phys virt : List KMemoryBlock)
    (applicationPoolSize appletPoolSize unsafeSystemPoolMinSize : Nat) :
    Option (List KMemoryBlock × List KMemoryBlock) :=
  match readPoolInputs isDerivedFrom ty phys applicationPoolSize appletPoolSize
      unsafeSystemPoolMinSize with
  | none => none
  | some i =>
    if !isAligned i.kernelDramStart carveoutAlignment then none
    else insertPoolPartitionBlocks canDerive (phys, virt)
      (poolPartitionInserts ty calculateMetadataOverheadSize i)

/-- With every inserted size positive, the four pools below the application pool have
positive sizes. -/
theorem inserts_pos {ty : PoolRegionTypes} {calculateMetadataOverheadSize : Nat → Nat}
    {i : PoolInputs}
    (hpos : ∀ q ∈ poolPartitionInserts ty calculateMetadataOverheadSize i, 0 < q.size) :
    0 < i.systemPoolSize calculateMetadataOverheadSize ∧
      0 < i.metadataPoolSize calculateMetadataOverheadSize ∧ 0 < i.unsafeSystemPoolSize ∧
      0 < i.appletPoolSize := by
  simp only [poolPartitionInserts, List.mem_append, List.mem_cons, List.mem_singleton, or_imp,
    forall_and, forall_eq] at hpos
  exact ⟨hpos.2.2.2.2.1, hpos.2.2.2.1, hpos.2.2.1, hpos.2.1⟩

/-- The reads of the builder: the partition lookup gives the partition's start, and the
pool sizes are the arguments. -/
theorem readPoolInputs_spec {phys : List KMemoryBlock} {a b c : Nat} {i : PoolInputs}
    {partition : KMemoryBlock} (h : readPoolInputs isDerivedFrom ty phys a b c = some i)
    (hpart : findFirstBlockByTypeAttr phys ty.dramPoolPartition 0 = some partition) :
    i.poolPartitionsStart = partition.address ∧ i.applicationPoolSize = a ∧
      i.appletPoolSize = b := by
  unfold readPoolInputs at h
  rw [hpart] at h
  rcases h₁ : getDerivedRegionExtents isDerivedFrom phys ty.dram with _ | ⟨f, l⟩ <;>
    rcases h₂ : findFirstDerivedBlock isDerivedFrom phys ty.dramKernel with _ | k <;>
    simp only [h₁, h₂, reduceCtorEq, Option.some.injEq] at h
  subst h
  exact ⟨rfl, rfl, rfl⟩

/-- The layout tiles `[poolPartitionsStart, dramEnd)` when the boundaries are in strict
order. -/
theorem poolPartitionLayout_tiles {calculateMetadataOverheadSize : Nat → Nat} {i : PoolInputs}
    (b : KMemoryBlock)
    (h₁ : i.poolPartitionsStart < i.metadataPoolStart calculateMetadataOverheadSize)
    (h₂ : i.metadataPoolStart calculateMetadataOverheadSize < i.unsafeSystemPoolStart)
    (h₃ : i.unsafeSystemPoolStart < i.appletPoolStart)
    (h₄ : i.appletPoolStart < i.applicationPoolStart)
    (h₅ : i.applicationPoolStart < i.dramEnd) :
    Tiles i.poolPartitionsStart ((poolPartitionLayout ty calculateMetadataOverheadSize i).map
      fun q => part b q.start q.size q.attr q.physType) i.dramEnd := by
  simp only [poolPartitionLayout, PoolInputs.ApplicationPoolWhole]
  split_ifs with hwhole <;>
    simp (disch := omega) only [List.map, List.cons_append, List.nil_append, Tiles, part,
      Nat.add_sub_of_le, Nat.sub_pos_iff_lt, h₁, h₂, h₃, h₄, h₅, true_and, and_true]
  -- the split application pool: the midpoint lies strictly inside it
  omega

/-- `InsertPoolPartitionBlockIntoBothTrees` when both inserts succeed and the lookup
finds a block whose pair address is `s`. -/
theorem insertPoolPartitionBlockIntoBothTrees_of {phys virt phys' virt' : List KMemoryBlock}
    {q : PoolInsert} {b : KMemoryBlock} {s d d' : Nat}
    (hphys : insert canDerive phys q.start q.size q.physType q.attr 0 = some ⟨true, phys', d⟩)
    (hfind : findFirstBlockByTypeAttr phys' q.physType q.attr = some b) (hpair : b.pairAddress = s)
    (hvirt : insert canDerive virt s q.size q.virtType q.attr 0 = some ⟨true, virt', d'⟩) :
    insertPoolPartitionBlockIntoBothTrees canDerive (phys, virt) q = some (phys', virt') := by
  simp only [insertPoolPartitionBlockIntoBothTrees, hphys, hfind, hpair, hvirt]

/-! ## Carving the partition in both trees -/

/-- The calls `qs` cut `[bottom, x)` from the top down into consecutive non-empty
ranges. -/
def Carves (bottom : Nat) : Nat → List PoolInsert → Prop
  | x, [] => x = bottom
  | x, q :: qs =>
    bottom ≤ q.start ∧ 0 < q.size ∧ q.start + q.size = x ∧ Carves bottom q.start qs

theorem insertPoolPartitionBlocks_append (trees : List KMemoryBlock × List KMemoryBlock)
    (qs qs' : List PoolInsert) :
    insertPoolPartitionBlocks canDerive trees (qs ++ qs') =
      (insertPoolPartitionBlocks canDerive trees qs).bind
        fun trees => insertPoolPartitionBlocks canDerive trees qs' := by
  induction qs generalizing trees with
  | nil => rfl
  | cons q qs ih =>
    simp only [List.cons_append, insertPoolPartitionBlocks, List.append_eq, Option.bind_assoc, ih]

theorem insertPoolPartitionBlocks_singleton (trees : List KMemoryBlock × List KMemoryBlock)
    (q : PoolInsert) :
    insertPoolPartitionBlocks canDerive trees [q] =
      insertPoolPartitionBlockIntoBothTrees canDerive trees q :=
  Option.bind_some _

/-- The two trees around the partition, with what the builder needs of them: the
physical tree is `preP ++ partition :: postP`, the virtual tree is
`preV ++ mirror :: postV`, and `mirror` holds the partition's pair range. -/
structure PartitionFrame (canDerive : Nat → Nat → Bool) (ty : PoolRegionTypes) where
  preP : List KMemoryBlock
  postP : List KMemoryBlock
  partition : KMemoryBlock
  preV : List KMemoryBlock
  postV : List KMemoryBlock
  mirror : KMemoryBlock
  preP_below : ∀ c ∈ preP, ∀ x, partition.address ≤ x → ¬ c.Contains x
  preP_fresh : ∀ c ∈ preP, c.typeId ∉ ty.physicalPoolTypes
  partition_fresh : partition.typeId ∉ ty.physicalPoolTypes
  partition_attr : partition.attributes = 0
  partition_pair : partition.pairAddress ≠ uintptrMax
  partition_size : 0 < partition.size
  partition_end : partition.address + partition.size ≤ 2 ^ 64
  partition_derive : ∀ t ∈ ty.physicalPoolTypes, canDerive partition.typeId t = true
  preV_below : ∀ c ∈ preV, ∀ x, mirror.address ≤ x → ¬ c.Contains x
  mirror_attr : mirror.attributes = 0
  mirror_pair : mirror.pairAddress = uintptrMax ∨ mirror.pairAddress + mirror.size ≤ 2 ^ 64
  mirror_derive : ∀ t ∈ ty.virtualPoolTypes, canDerive mirror.typeId t = true
  mirror_lo : mirror.address ≤ partition.pairAddress
  mirror_hi : partition.pairAddress + partition.size ≤ mirror.address + mirror.size
  mirror_end : mirror.address + mirror.size ≤ 2 ^ 64

namespace PartitionFrame

variable {canDerive} {ty} (F : PartitionFrame canDerive ty)

/-- The frame of a partition block and a mirror block of two covering trees: the tiling
gives the bounds, the rest is what the builder needs of the two blocks. -/
def ofCovers {preP postP preV postV : List KMemoryBlock} {partition mirror : KMemoryBlock}
    {loP hiP loV hiV : Nat} (hphys : Covers (preP ++ partition :: postP) loP hiP)
    (hvirt : Covers (preV ++ mirror :: postV) loV hiV)
    (hfresh : ∀ c ∈ preP ++ partition :: postP, c.typeId ∉ ty.physicalPoolTypes)
    (hattr : partition.attributes = 0) (hpair : partition.pairAddress ≠ uintptrMax)
    (hderP : ∀ t ∈ ty.physicalPoolTypes, canDerive partition.typeId t = true)
    (hmattr : mirror.attributes = 0)
    (hmpair : mirror.pairAddress = uintptrMax ∨ mirror.pairAddress + mirror.size ≤ 2 ^ 64)
    (hderV : ∀ t ∈ ty.virtualPoolTypes, canDerive mirror.typeId t = true)
    (hmlo : mirror.address ≤ partition.pairAddress)
    (hmhi : partition.pairAddress + partition.size ≤ mirror.address + mirror.size) :
    PartitionFrame canDerive ty where
  preP := preP
  postP := postP
  partition := partition
  preV := preV
  postV := postV
  mirror := mirror
  preP_below c hc _ hx := by
    obtain ⟨hpre, -, hpost⟩ := tiles_around.mp hphys.1
    exact hpre.not_contains (by have := hpost.le; have := hphys.2; omega) hx c hc
  preP_fresh c hc := hfresh c (List.mem_append_left _ hc)
  partition_fresh := hfresh partition (List.mem_append_right _ (List.mem_cons_self _ _))
  partition_attr := hattr
  partition_pair := hpair
  partition_size := (tiles_around.mp hphys.1).2.1
  partition_end := by
    have := (tiles_around.mp hphys.1).2.2.le
    have := hphys.2
    omega
  partition_derive := hderP
  preV_below c hc _ hx := by
    obtain ⟨hpre, -, hpost⟩ := tiles_around.mp hvirt.1
    exact hpre.not_contains (by have := hpost.le; have := hvirt.2; omega) hx c hc
  mirror_attr := hmattr
  mirror_pair := hmpair
  mirror_derive := hderV
  mirror_lo := hmlo
  mirror_hi := hmhi
  mirror_end := by
    have := (tiles_around.mp hvirt.1).2.2.le
    have := hvirt.2
    omega

/-- The virtual address that mirrors the partition address `x`. -/
def mirrorOf (x : Nat) : Nat := F.partition.pairAddress + (x - F.partition.address)

/-- The end of the partition. -/
def top : Nat := F.partition.address + F.partition.size

/-- The physical tree once the partition is cut down to `[partition.address, x)`, with
the pools `carved` above it. -/
def physAt (x : Nat) (carved : List KMemoryBlock) : List KMemoryBlock :=
  F.preP ++ rest F.partition F.partition.address x ++ (carved ++ F.postP)

/-- The virtual tree once the mirror is cut down below `mirrorOf x`, with the mirrored
pools `carved` above it and then what is left of the mirror above the partition's. -/
def virtAt (x : Nat) (carved : List KMemoryBlock) : List KMemoryBlock :=
  F.preV ++ rest F.mirror F.mirror.address (F.mirrorOf x) ++
    (carved ++ (rest F.mirror (F.mirrorOf F.top) (F.mirror.address + F.mirror.size) ++ F.postV))

/-- The physical block of a pool. -/
def poolBlock (q : PoolInsert) : KMemoryBlock := part F.partition q.start q.size q.attr q.physType

/-- The virtual block of a pool. -/
def virtualPoolBlock (q : PoolInsert) : KMemoryBlock :=
  part F.mirror (F.mirrorOf q.start) q.size q.attr q.virtType

theorem partition_pairRange :
    F.partition.pairAddress = uintptrMax ∨
      F.partition.pairAddress + F.partition.size ≤ 2 ^ 64 :=
  .inr (by have := F.mirror_hi; have := F.mirror_end; omega)

/-- A pool block's pair address is the mirror of its start. -/
theorem poolBlock_pairAddress {q : PoolInsert} (hlo : F.partition.address ≤ q.start)
    (hhi : q.start < F.top) : (F.poolBlock q).pairAddress = F.mirrorOf q.start := by
  have := F.mirror_hi
  have := F.mirror_end
  unfold top at hhi
  unfold poolBlock part mirrorOf pairAt
  rw [if_pos F.partition_pair]
  apply addU64_of_lt
  omega

/-- A pool that takes the top `[s, x)` of what is left of the partition. -/
theorem insert_physAt {x : Nat} {carved : List KMemoryBlock} {q : PoolInsert}
    (hlo : F.partition.address ≤ q.start) (hsize : 0 < q.size) (hx : q.start + q.size = x)
    (hle : x ≤ F.top) (htype : q.physType ∈ ty.physicalPoolTypes) :
    ∃ d, insert canDerive (F.physAt x carved) q.start q.size q.physType q.attr 0 =
      some ⟨true, F.physAt q.start (F.poolBlock q :: carved), d⟩ := by
  subst hx
  exact insert_rest_top canDerive (fun c hc => F.preP_below c hc _ hlo) F.partition_pairRange
    le_rfl hlo hsize hle F.partition_end F.partition_attr (F.partition_derive _ htype)

/-- The lookup after a pool's physical insert finds the block just inserted. -/
theorem find_physAt {carved : List KMemoryBlock} {q : PoolInsert}
    (htype : q.physType ∈ ty.physicalPoolTypes) :
    findFirstBlockByTypeAttr (F.physAt q.start (F.poolBlock q :: carved)) q.physType q.attr =
      some (F.poolBlock q) := by
  have hpre : ∀ c ∈ F.preP ++ rest F.partition F.partition.address q.start,
      ¬ (c.typeId = q.physType ∧ c.attributes = q.attr) := by
    intro c hc hcq
    rcases List.mem_append.mp hc with hc | hc
    · exact F.preP_fresh c hc (hcq.1 ▸ htype)
    · rw [mem_rest hc] at hcq
      exact F.partition_fresh (hcq.1 ▸ htype)
  exact findFirstBlockByTypeAttr_append hpre ⟨rfl, rfl⟩

/-- The top `[mirrorOf s, mirrorOf x)` of what is left of the mirror. -/
theorem insert_virtAt {x : Nat} {carved : List KMemoryBlock} {q : PoolInsert}
    (hlo : F.partition.address ≤ q.start) (hsize : 0 < q.size) (hx : q.start + q.size = x)
    (hle : x ≤ F.top) (htype : q.virtType ∈ ty.virtualPoolTypes) :
    ∃ d, insert canDerive (F.virtAt x carved) (F.mirrorOf q.start) q.size q.virtType q.attr 0 =
      some ⟨true, F.virtAt q.start (F.virtualPoolBlock q :: carved), d⟩ := by
  have hmirror : F.mirrorOf x = F.mirrorOf q.start + q.size := by unfold mirrorOf; omega
  have := F.mirror_lo
  have := F.mirror_hi
  unfold top at hle
  unfold virtAt
  rw [hmirror]
  exact insert_rest_top canDerive (fun c hc => F.preV_below c hc _ (by unfold mirrorOf; omega))
    F.mirror_pair le_rfl (by unfold mirrorOf; omega) hsize (by unfold mirrorOf; omega) F.mirror_end
    F.mirror_attr (F.mirror_derive _ htype)

/-- One pool that cuts the top of what is left of the partition, in both trees. -/
theorem insertPoolPartitionBlockIntoBothTrees_top {x : Nat} {carved carvedV : List KMemoryBlock}
    {q : PoolInsert} (hlo : F.partition.address ≤ q.start) (hsize : 0 < q.size)
    (hx : q.start + q.size = x) (hle : x ≤ F.top)
    (htype : q.physType ∈ ty.physicalPoolTypes ∧ q.virtType ∈ ty.virtualPoolTypes) :
    insertPoolPartitionBlockIntoBothTrees canDerive (F.physAt x carved, F.virtAt x carvedV) q =
      some (F.physAt q.start (F.poolBlock q :: carved),
        F.virtAt q.start (F.virtualPoolBlock q :: carvedV)) := by
  obtain ⟨d, hphys⟩ := F.insert_physAt hlo hsize hx hle htype.1
  obtain ⟨d', hvirt⟩ := F.insert_virtAt hlo hsize hx hle htype.2
  exact insertPoolPartitionBlockIntoBothTrees_of canDerive hphys (F.find_physAt htype.1)
    (F.poolBlock_pairAddress hlo (by omega)) hvirt

/-- A run of calls that each cut the top of what is left of the partition, down to
`bottom`: the pools lie above it in address order. -/
theorem insertPoolPartitionBlocks_carves {bottom : Nat} (hbottom : F.partition.address ≤ bottom) :
    ∀ (qs : List PoolInsert) {x : Nat} {carved carvedV : List KMemoryBlock},
      Carves bottom x qs → x ≤ F.top →
      (∀ q ∈ qs, q.physType ∈ ty.physicalPoolTypes ∧ q.virtType ∈ ty.virtualPoolTypes) →
      insertPoolPartitionBlocks canDerive (F.physAt x carved, F.virtAt x carvedV) qs =
        some (F.physAt bottom ((qs.map F.poolBlock).reverse ++ carved),
          F.virtAt bottom ((qs.map F.virtualPoolBlock).reverse ++ carvedV))
  | [], x, carved, carvedV, hc, _, _ => by
    obtain rfl : x = bottom := hc
    rfl
  | q :: qs, x, carved, carvedV, ⟨hlo, hsize, hx, hc⟩, hle, htypes => by
    simp only [insertPoolPartitionBlocks, F.insertPoolPartitionBlockIntoBothTrees_top
      (le_trans hbottom hlo) hsize hx hle (htypes q (List.mem_cons_self _ _)), Option.some_bind]
    rw [insertPoolPartitionBlocks_carves hbottom qs hc (by omega)
      fun q' h => htypes q' (List.mem_cons_of_mem _ h)]
    simp only [List.map_cons, List.reverse_cons, List.append_assoc, List.singleton_append]

theorem mirror_size_pos : 0 < F.mirror.size := by
  have := F.mirror_lo
  have := F.mirror_hi
  have := F.partition_size
  omega

theorem not_contains_part {b : KMemoryBlock} {a n attr typeId x : Nat} (hn : 0 < n)
    (he : a + n ≤ 2 ^ 64) (hx : a + n ≤ x) : ¬ (part b a n attr typeId).Contains x := by
  simp only [Contains, lastAddress, endAddress, part, addU64, subU64]
  omega

theorem not_contains_rest {b : KMemoryBlock} {a top x : Nat} (hle : a ≤ top)
    (he : top ≤ 2 ^ 64) (hx : top ≤ x) : ∀ c ∈ rest b a top, ¬ c.Contains x := by
  intro c hc
  unfold rest at hc
  split_ifs at hc with h
  · cases hc
  · rw [List.mem_singleton.mp hc]
    exact not_contains_part (by omega) (by omega) (by omega)

/-- A pool cut out of the whole partition: what is left of the partition lies on either
side of it. -/
theorem insert_partition_whole {q : PoolInsert} (hlo : F.partition.address ≤ q.start)
    (hsize : 0 < q.size) (hle : q.start + q.size ≤ F.top)
    (htype : q.physType ∈ ty.physicalPoolTypes) :
    ∃ d, insert canDerive (F.preP ++ F.partition :: F.postP) q.start q.size q.physType q.attr 0 =
      some ⟨true, F.physAt q.start (F.poolBlock q :: rest F.partition (q.start + q.size) F.top),
        d⟩ := by
  have h : ∃ d, insert canDerive (F.preP ++ part F.partition F.partition.address
        F.partition.size F.partition.attributes F.partition.typeId :: F.postP) q.start q.size
        q.physType q.attr 0 =
      some ⟨true, F.preP ++ (rest F.partition F.partition.address q.start ++
        F.poolBlock q :: rest F.partition (q.start + q.size) F.top) ++ F.postP, d⟩ :=
    insert_part canDerive (fun c hc => F.preP_below c hc _ hlo) F.partition_pairRange le_rfl
      le_rfl F.partition_end hlo hsize hle F.partition_attr (F.partition_derive _ htype)
  rw [part_self F.partition_pairRange F.partition_size] at h
  simpa only [physAt, List.append_assoc, List.cons_append] using h

/-- The mirror of a pool cut out of the whole mirror: what is left of the mirror lies on
either side of it. -/
theorem insert_mirror_whole {q : PoolInsert} (hlo : F.partition.address ≤ q.start)
    (hsize : 0 < q.size) (hle : q.start + q.size ≤ F.top)
    (htype : q.virtType ∈ ty.virtualPoolTypes) :
    ∃ d, insert canDerive (F.preV ++ F.mirror :: F.postV) (F.mirrorOf q.start) q.size
        q.virtType q.attr 0 =
      some ⟨true, F.preV ++ rest F.mirror F.mirror.address (F.mirrorOf q.start) ++
        (F.virtualPoolBlock q :: (rest F.mirror (F.mirrorOf (q.start + q.size))
          (F.mirror.address + F.mirror.size) ++ F.postV)), d⟩ := by
  have := F.mirror_lo
  have := F.mirror_hi
  unfold top at hle
  have hmlo : F.mirror.address ≤ F.mirrorOf q.start := by unfold mirrorOf; omega
  have h : ∃ d, insert canDerive (F.preV ++ part F.mirror F.mirror.address F.mirror.size
        F.mirror.attributes F.mirror.typeId :: F.postV) (F.mirrorOf q.start) q.size q.virtType
        q.attr 0 =
      some ⟨true, F.preV ++ (rest F.mirror F.mirror.address (F.mirrorOf q.start) ++
        F.virtualPoolBlock q :: rest F.mirror (F.mirrorOf q.start + q.size)
          (F.mirror.address + F.mirror.size)) ++ F.postV, d⟩ :=
    insert_part canDerive (fun c hc => F.preV_below c hc _ hmlo) F.mirror_pair le_rfl le_rfl
      F.mirror_end hmlo hsize (by unfold mirrorOf; omega) F.mirror_attr (F.mirror_derive _ htype)
  rw [part_self F.mirror_pair F.mirror_size_pos,
    show F.mirrorOf q.start + q.size = F.mirrorOf (q.start + q.size) by unfold mirrorOf; omega] at h
  simpa only [List.append_assoc, List.cons_append] using h

/-- The application pool as one block: the top of the partition, cut out of the whole
mirror. -/
theorem insert_application_whole {q : PoolInsert} (hlo : F.partition.address ≤ q.start)
    (hsize : 0 < q.size) (hx : q.start + q.size = F.top)
    (htype : q.physType ∈ ty.physicalPoolTypes ∧ q.virtType ∈ ty.virtualPoolTypes) :
    insertPoolPartitionBlockIntoBothTrees canDerive
        (F.preP ++ F.partition :: F.postP, F.preV ++ F.mirror :: F.postV) q =
      some (F.physAt q.start [F.poolBlock q], F.virtAt q.start [F.virtualPoolBlock q]) := by
  obtain ⟨d, hphys⟩ := F.insert_partition_whole hlo hsize hx.le htype.1
  obtain ⟨d', hvirt⟩ := F.insert_mirror_whole hlo hsize hx.le htype.2
  rw [hx, rest_self] at hphys
  rw [hx] at hvirt
  exact insertPoolPartitionBlockIntoBothTrees_of canDerive hphys (F.find_physAt htype.1)
    (F.poolBlock_pairAddress hlo (by omega)) hvirt

section Upper

variable {c q : PoolInsert} (hlo : F.partition.address ≤ c.start) (hsize₁ : 0 < c.size)
  (hmid : c.start + c.size = q.start) (hsize : 0 < q.size) (hx : q.start + q.size = F.top)
include hlo hsize₁ hmid hsize hx

/-- After a pool `c` cut out of the whole partition, the pool `q` above it takes what is
left of the partition. -/
theorem insert_physAt_upper (htype : q.physType ∈ ty.physicalPoolTypes) :
    ∃ d, insert canDerive (F.physAt c.start (F.poolBlock c :: rest F.partition q.start F.top))
        q.start q.size q.physType q.attr 0 =
      some ⟨true, F.physAt c.start [F.poolBlock c, F.poolBlock q], d⟩ := by
  have := F.partition_end
  unfold top at hx
  have hpre : ∀ b ∈ F.preP ++ rest F.partition F.partition.address c.start ++ [F.poolBlock c],
      ¬ b.Contains q.start := by
    intro b hb
    simp only [List.mem_append, List.mem_singleton] at hb
    rcases hb with (hb | hb) | rfl
    · exact F.preP_below b hb _ (by omega)
    · exact not_contains_rest hlo (by omega) (by omega) b hb
    · exact not_contains_part hsize₁ (by omega) (by omega)
  have h : ∃ d, insert canDerive (F.preP ++ rest F.partition F.partition.address c.start ++
        [F.poolBlock c] ++ rest F.partition q.start (q.start + q.size) ++ F.postP) q.start q.size
        q.physType q.attr 0 =
      some ⟨true, F.preP ++ rest F.partition F.partition.address c.start ++ [F.poolBlock c] ++
        rest F.partition q.start q.start ++ F.poolBlock q :: F.postP, d⟩ :=
    insert_rest_top canDerive hpre F.partition_pairRange (by omega) le_rfl hsize (by omega)
      F.partition_end F.partition_attr (F.partition_derive _ htype)
  simpa only [physAt, top, hx, rest_self, List.append_assoc, List.cons_append,
    List.singleton_append, List.nil_append] using h

/-- After the mirror of `c`, the mirror of `q` takes what is left of the mirror up to the
mirror of the partition's end. -/
theorem insert_virtAt_upper (htype : q.virtType ∈ ty.virtualPoolTypes) :
    ∃ d, insert canDerive (F.preV ++ rest F.mirror F.mirror.address (F.mirrorOf c.start) ++
        (F.virtualPoolBlock c :: (rest F.mirror (F.mirrorOf q.start)
          (F.mirror.address + F.mirror.size) ++ F.postV))) (F.mirrorOf q.start) q.size
        q.virtType q.attr 0 =
      some ⟨true, F.virtAt c.start [F.virtualPoolBlock c, F.virtualPoolBlock q], d⟩ := by
  have := F.mirror_lo
  have := F.mirror_hi
  have := F.mirror_end
  have := F.partition_end
  unfold top at hx
  have hmlo : F.mirror.address ≤ F.mirrorOf c.start := by unfold mirrorOf; omega
  have hm₁ : F.mirrorOf c.start + c.size = F.mirrorOf q.start := by unfold mirrorOf; omega
  have hm₂ : F.mirrorOf q.start + q.size = F.mirrorOf F.top := by unfold mirrorOf top; omega
  have hmhi : F.mirrorOf F.top ≤ F.mirror.address + F.mirror.size := by
    unfold mirrorOf top; omega
  have hpre : ∀ b ∈ F.preV ++ rest F.mirror F.mirror.address (F.mirrorOf c.start) ++
      [F.virtualPoolBlock c], ¬ b.Contains (F.mirrorOf q.start) := by
    intro b hb
    simp only [List.mem_append, List.mem_singleton] at hb
    rcases hb with (hb | hb) | rfl
    · exact F.preV_below b hb _ (by omega)
    · exact not_contains_rest hmlo (by omega) (by omega) b hb
    · exact not_contains_part hsize₁ (by omega) (by omega)
  have hrest : rest F.mirror (F.mirrorOf q.start) (F.mirror.address + F.mirror.size) =
      [part F.mirror (F.mirrorOf q.start) (F.mirror.address + F.mirror.size - F.mirrorOf q.start)
        F.mirror.attributes F.mirror.typeId] := if_neg (by omega)
  have h : ∃ d, insert canDerive (F.preV ++ rest F.mirror F.mirror.address
        (F.mirrorOf c.start) ++ [F.virtualPoolBlock c] ++ part F.mirror (F.mirrorOf q.start)
        (F.mirror.address + F.mirror.size - F.mirrorOf q.start) F.mirror.attributes
        F.mirror.typeId :: F.postV) (F.mirrorOf q.start) q.size q.virtType q.attr 0 =
      some ⟨true, F.preV ++ rest F.mirror F.mirror.address (F.mirrorOf c.start) ++
        [F.virtualPoolBlock c] ++ (rest F.mirror (F.mirrorOf q.start) (F.mirrorOf q.start) ++
          F.virtualPoolBlock q :: rest F.mirror (F.mirrorOf q.start + q.size)
            (F.mirrorOf q.start + (F.mirror.address + F.mirror.size - F.mirrorOf q.start))) ++
        F.postV, d⟩ :=
    insert_part canDerive hpre F.mirror_pair (by omega) (by omega) F.mirror_end le_rfl hsize
      (by omega) F.mirror_attr (F.mirror_derive _ htype)
  rw [Nat.add_sub_cancel' (by omega : F.mirrorOf q.start ≤ F.mirror.address + F.mirror.size)]
    at h
  simpa only [virtAt, hrest, rest_self, hm₂, List.append_assoc, List.cons_append,
    List.singleton_append, List.nil_append] using h

end Upper

/-- The lookup after the second application block's physical insert finds it: the first
block, just below, has the other attribute. -/
theorem find_physAt_upper {c q : PoolInsert} (hattr : c.attr ≠ q.attr)
    (htype : q.physType ∈ ty.physicalPoolTypes) :
    findFirstBlockByTypeAttr (F.physAt c.start [F.poolBlock c, F.poolBlock q]) q.physType q.attr =
      some (F.poolBlock q) := by
  have hpre : ∀ b ∈ F.preP ++ rest F.partition F.partition.address c.start ++ [F.poolBlock c],
      ¬ (b.typeId = q.physType ∧ b.attributes = q.attr) := by
    intro b hb hbq
    simp only [List.mem_append, List.mem_singleton] at hb
    rcases hb with (hb | hb) | rfl
    · exact F.preP_fresh b hb (hbq.1 ▸ htype)
    · rw [mem_rest hb] at hbq
      exact F.partition_fresh (hbq.1 ▸ htype)
    · exact hattr hbq.2
  have h : findFirstBlockByTypeAttr (F.preP ++ rest F.partition F.partition.address c.start ++
      [F.poolBlock c] ++ F.poolBlock q :: F.postP) q.physType q.attr = some (F.poolBlock q) :=
    findFirstBlockByTypeAttr_append hpre ⟨rfl, rfl⟩
  simpa only [physAt, List.append_assoc, List.cons_append, List.singleton_append] using h

/-- The application pool in two blocks split at `q₂.start`: the first is cut out of the
middle of the partition and of the mirror, the second is all that is left above it. -/
theorem insert_application_split {q₁ q₂ : PoolInsert}
    (hlo : F.partition.address ≤ q₁.start)
    (hsize₁ : 0 < q₁.size) (hmid : q₁.start + q₁.size = q₂.start)
    (hsize₂ : 0 < q₂.size)
    (hx : q₂.start + q₂.size = F.top) (hattr : q₁.attr ≠ q₂.attr)
    (htype₁ : q₁.physType ∈ ty.physicalPoolTypes ∧ q₁.virtType ∈ ty.virtualPoolTypes)
    (htype₂ : q₂.physType ∈ ty.physicalPoolTypes ∧ q₂.virtType ∈ ty.virtualPoolTypes) :
    insertPoolPartitionBlocks canDerive
        (F.preP ++ F.partition :: F.postP, F.preV ++ F.mirror :: F.postV) [q₁, q₂] =
      some (F.physAt q₁.start [F.poolBlock q₁, F.poolBlock q₂],
        F.virtAt q₁.start [F.virtualPoolBlock q₁, F.virtualPoolBlock q₂]) := by
  have hle₁ : q₁.start + q₁.size ≤ F.top := by omega
  obtain ⟨d₁, hphys₁⟩ := F.insert_partition_whole hlo hsize₁ hle₁ htype₁.1
  obtain ⟨d₁', hvirt₁⟩ := F.insert_mirror_whole hlo hsize₁ hle₁ htype₁.2
  rw [hmid] at hphys₁ hvirt₁
  obtain ⟨d₂, hphys₂⟩ := F.insert_physAt_upper hlo hsize₁ hmid hsize₂ hx htype₂.1
  obtain ⟨d₂', hvirt₂⟩ := F.insert_virtAt_upper hlo hsize₁ hmid hsize₂ hx htype₂.2
  have hstep₁ := insertPoolPartitionBlockIntoBothTrees_of canDerive hphys₁
    (F.find_physAt htype₁.1) (F.poolBlock_pairAddress hlo (by omega)) hvirt₁
  have hstep₂ := insertPoolPartitionBlockIntoBothTrees_of canDerive hphys₂
    (F.find_physAt_upper hattr htype₂.1) (F.poolBlock_pairAddress (by omega) (by omega)) hvirt₂
  simp only [insertPoolPartitionBlocks, hstep₁, hstep₂, Option.some_bind]

/-- The application pool's calls `apps` take the top of the partition down to `x`, and the
calls `qs` then cut the rest from the top down: the pools lie in address order, all of the
partition, and the mirrors in the part of the mirror that holds its pair range. -/
theorem insertPoolPartitionBlocks_application_then_carves {apps qs : List PoolInsert} {x : Nat}
    (happs : insertPoolPartitionBlocks canDerive
        (F.preP ++ F.partition :: F.postP, F.preV ++ F.mirror :: F.postV) apps =
      some (F.physAt x (apps.map F.poolBlock), F.virtAt x (apps.map F.virtualPoolBlock)))
    (hc : Carves F.partition.address x qs) (hx : x ≤ F.top)
    (htypes : ∀ q ∈ qs,
      q.physType ∈ ty.physicalPoolTypes ∧ q.virtType ∈ ty.virtualPoolTypes) :
    insertPoolPartitionBlocks canDerive
        (F.preP ++ F.partition :: F.postP, F.preV ++ F.mirror :: F.postV) (apps ++ qs) =
      some (F.preP ++ (qs.reverse ++ apps).map F.poolBlock ++ F.postP,
        F.preV ++ rest F.mirror F.mirror.address F.partition.pairAddress ++
          (qs.reverse ++ apps).map F.virtualPoolBlock ++
          rest F.mirror (F.partition.pairAddress + F.partition.size)
            (F.mirror.address + F.mirror.size) ++ F.postV) := by
  rw [insertPoolPartitionBlocks_append, happs, Option.some_bind,
    F.insertPoolPartitionBlocks_carves le_rfl qs hc hx htypes]
  simp only [physAt, virtAt, mirrorOf, top, rest_self, Nat.sub_self, Nat.add_zero,
    Nat.add_sub_cancel_left, List.map_append, List.map_reverse, List.append_assoc,
    List.nil_append]

/-- The builder's calls on the frame, with the boundaries in strict order: the partition and
the part of the mirror that holds its pair range are cut into the pools of
`poolPartitionLayout`. -/
theorem insertPoolPartitionBlocks_layout {calculateMetadataOverheadSize : Nat → Nat}
    {i : PoolInputs} (hpps : i.poolPartitionsStart = F.partition.address)
    (htop : i.dramEnd = F.top) (hdram : i.dramFirst + i.dramEnd < 2 ^ 64)
    (happ : i.applicationPoolSize < 2 ^ 64) (happlet : i.appletPoolSize < 2 ^ 64)
    (h₁ : i.poolPartitionsStart < i.metadataPoolStart calculateMetadataOverheadSize)
    (h₂ : i.metadataPoolStart calculateMetadataOverheadSize < i.unsafeSystemPoolStart)
    (h₃ : i.unsafeSystemPoolStart < i.appletPoolStart)
    (h₄ : i.appletPoolStart < i.applicationPoolStart)
    (h₅ : i.applicationPoolStart < i.dramEnd) :
    insertPoolPartitionBlocks canDerive
        (F.preP ++ F.partition :: F.postP, F.preV ++ F.mirror :: F.postV)
        (poolPartitionInserts ty calculateMetadataOverheadSize i) =
      some (F.preP ++ (poolPartitionLayout ty calculateMetadataOverheadSize i).map F.poolBlock ++
          F.postP,
        F.preV ++ rest F.mirror F.mirror.address F.partition.pairAddress ++
          (poolPartitionLayout ty calculateMetadataOverheadSize i).map F.virtualPoolBlock ++
          rest F.mirror (F.partition.pairAddress + F.partition.size)
            (F.mirror.address + F.mirror.size) ++ F.postV) := by
  have htypes : ∀ q ∈ poolPartitionInserts ty calculateMetadataOverheadSize i,
      q.physType ∈ ty.physicalPoolTypes ∧ q.virtType ∈ ty.virtualPoolTypes := by
    simp only [poolPartitionInserts]
    split_ifs <;> simp only [List.forall_mem_append, List.forall_mem_cons, List.not_mem_nil,
      false_implies, implies_true, and_true] <;>
      simp only [PoolRegionTypes.physicalPoolTypes, PoolRegionTypes.virtualPoolTypes,
        List.mem_cons, true_or, or_true, and_self]
  simp only [poolPartitionInserts, poolPartitionLayout, PoolInputs.ApplicationPoolWhole]
    at htypes ⊢
  rw [PoolInputs.appletPoolSize_eq hdram happlet h₄ h₅,
    PoolInputs.unsafeSystemPoolSize_eq hdram h₃ (by omega),
    PoolInputs.metadataPoolSize_eq hdram h₂ (by omega),
    PoolInputs.systemPoolSize_eq hdram h₁ (by omega)] at htypes ⊢
  unfold top at htop
  split_ifs at htypes ⊢ with hwhole
  · rw [PoolInputs.applicationPoolSize_eq hdram happ h₅] at htypes ⊢
    exact F.insertPoolPartitionBlocks_application_then_carves
      ((insertPoolPartitionBlocks_singleton canDerive _ _).trans (F.insert_application_whole
        (by dsimp only; omega) (by dsimp only; omega) (by simp only [top]; omega)
        (htypes _ (List.mem_cons_self _ _))))
      (by simp only [Carves]; omega) (by simp only [top]; omega)
      fun q hq => htypes q (List.mem_append_right _ hq)
  · rw [PoolInputs.firstApplicationPoolSize_eq hdram (by omega) (by omega),
      PoolInputs.secondApplicationPoolSize_eq hdram happ h₅ (by omega)] at htypes ⊢
    exact F.insertPoolPartitionBlocks_application_then_carves
      (F.insert_application_split (by dsimp only; omega) (by dsimp only; omega)
        (by dsimp only; omega) (by dsimp only; omega) (by simp only [top]; omega)
        Nat.zero_ne_one (htypes _ (List.mem_cons_self _ _))
        (htypes _ (List.mem_cons_of_mem _ (List.mem_cons_self _ _))))
      (by simp only [Carves]; omega) (by simp only [top]; omega)
      fun q hq => htypes q (List.mem_append_right _ hq)

end PartitionFrame

/-- A kernel DRAM region that starts off the carveout alignment aborts the builder, though
the partition `[0x80100000, 0x100000000)` is one attribute-0 block with a valid pair
mirrored by an attribute-0 virtual block, the DRAM extents do not wrap, and the pool
boundaries are ordered with every size positive. -/
theorem setupPoolPartition_misaligned_kernel_aborts :
    let ty : PoolRegionTypes := ⟨1, 2, 3, 4, 5, 6, 7, 8, 9, 10, 11, 12, 13⟩
    let isDerivedFrom : Nat → Nat → Bool := fun c p => c == p || (p == 1 && (c == 2 || c == 3))
    let phys : List KMemoryBlock := [⟨0x80000000, 0x1000, uintptrMax, 0, 1⟩,
      ⟨0x80001000, 0xFF000, uintptrMax, 0, 2⟩, ⟨0x80100000, 0x7FF00000, 0x80100000, 0, 3⟩]
    let virt : List KMemoryBlock := [⟨0, 2 ^ 64, uintptrMax, 0, 14⟩]
    let overhead : Nat → Nat := fun _ => 0x100000
    let i : PoolInputs := ⟨0x80000000, 0x100000000, 0x80001000, 0x80100000, 0x20000000,
      0x10000000, 0x2000000⟩
    Covers phys 0x80000000 0xFFFFFFFF ∧ Covers virt 0 uintptrMax ∧
      readPoolInputs isDerivedFrom ty phys 0x20000000 0x10000000 0x2000000 = some i ∧
      findFirstBlockByTypeAttr phys ty.dramPoolPartition 0 =
        some ⟨0x80100000, 0x7FF00000, 0x80100000, 0, 3⟩ ∧
      0x80100000 + 0x7FF00000 = i.dramEnd ∧ 0x80100000 ≠ uintptrMax ∧
      (∃ v ∈ virt, v.attributes = 0 ∧ v.address ≤ 0x80100000 ∧
        0x80100000 + 0x7FF00000 ≤ v.address + v.size) ∧
      i.dramFirst + i.dramEnd < 2 ^ 64 ∧
      i.poolPartitionsStart < i.metadataPoolStart overhead ∧
      i.metadataPoolStart overhead < i.unsafeSystemPoolStart ∧
      i.unsafeSystemPoolStart < i.appletPoolStart ∧
      i.appletPoolStart < i.applicationPoolStart ∧ i.applicationPoolStart < i.dramEnd ∧
      (∀ q ∈ poolPartitionInserts ty overhead i, 0 < q.size) ∧
      setupPoolPartitionMemoryBlocks (fun _ _ => true) isDerivedFrom ty overhead phys virt
        0x20000000 0x10000000 0x2000000 = none := by
  decide

/-- On trees that tile their ranges, with the partition `[pool_partitions_start, dram_end)`
one attribute-0 block whose pair range `[p, p + size)` lies in one attribute-0 virtual
block, every pool type derivable from both, the DRAM extents not wrapping, and boundaries
in order with every inserted size positive, the builder does not abort when the kernel
DRAM region starts on the carveout alignment, no physical block has a pool type yet, the
mirror's pair range does not wrap, and the pool sizes fit a `size_t`.  The partition is
then cut into the pools of `poolPartitionLayout`, contiguous and in address order, and
the mirror's part `[p, p + size)` into their mirrors at `p + (start - pool_partitions_start)`;
every other block of both trees is kept. -/
theorem setupPoolPartitionMemoryBlocks_layout (canDerive isDerivedFrom : Nat → Nat → Bool)
    (ty : PoolRegionTypes) (calculateMetadataOverheadSize : Nat → Nat)
    {phys virt : List KMemoryBlock} {loP hiP loV hiV : Nat}
    {applicationPoolSize appletPoolSize unsafeSystemPoolMinSize : Nat} {i : PoolInputs}
    {partition mirror : KMemoryBlock} (hphys : Covers phys loP hiP) (hvirt : Covers virt loV hiV)
    (hread : readPoolInputs isDerivedFrom ty phys applicationPoolSize appletPoolSize
      unsafeSystemPoolMinSize = some i)
    (hpart : findFirstBlockByTypeAttr phys ty.dramPoolPartition 0 = some partition)
    (hend : partition.address + partition.size = i.dramEnd)
    (hpair : partition.pairAddress ≠ uintptrMax) (hmirror : mirror ∈ virt)
    (hmattr : mirror.attributes = 0) (hmlo : mirror.address ≤ partition.pairAddress)
    (hmhi : partition.pairAddress + partition.size ≤ mirror.address + mirror.size)
    (hderP : ∀ t ∈ ty.physicalPoolTypes, canDerive partition.typeId t = true)
    (hderV : ∀ t ∈ ty.virtualPoolTypes, canDerive mirror.typeId t = true)
    (hdram : i.dramFirst + i.dramEnd < 2 ^ 64)
    (h₁ : i.poolPartitionsStart ≤ i.metadataPoolStart calculateMetadataOverheadSize)
    (h₂ : i.metadataPoolStart calculateMetadataOverheadSize ≤ i.unsafeSystemPoolStart)
    (h₃ : i.unsafeSystemPoolStart ≤ i.appletPoolStart)
    (h₄ : i.appletPoolStart ≤ i.applicationPoolStart) (h₅ : i.applicationPoolStart < i.dramEnd)
    (hpos : ∀ q ∈ poolPartitionInserts ty calculateMetadataOverheadSize i, 0 < q.size)
    (halign : i.kernelDramStart % carveoutAlignment = 0)
    (hfresh : ∀ c ∈ phys, c.typeId ∉ ty.physicalPoolTypes)
    (hmpair : mirror.pairAddress = uintptrMax ∨ mirror.pairAddress + mirror.size ≤ 2 ^ 64)
    (happ : applicationPoolSize < 2 ^ 64) (happlet : appletPoolSize < 2 ^ 64) :
    ∃ preP postP preV postV, phys = preP ++ partition :: postP ∧
      virt = preV ++ mirror :: postV ∧
      setupPoolPartitionMemoryBlocks canDerive isDerivedFrom ty calculateMetadataOverheadSize phys
          virt applicationPoolSize appletPoolSize unsafeSystemPoolMinSize =
        some (preP ++ (poolPartitionLayout ty calculateMetadataOverheadSize i).map
            (fun q => part partition q.start q.size q.attr q.physType) ++ postP,
          preV ++ rest mirror mirror.address partition.pairAddress ++
            (poolPartitionLayout ty calculateMetadataOverheadSize i).map (fun q => part mirror
              (partition.pairAddress + (q.start - partition.address)) q.size q.attr q.virtType) ++
            rest mirror (partition.pairAddress + partition.size) (mirror.address + mirror.size) ++
            postV) ∧
      Tiles partition.address ((poolPartitionLayout ty calculateMetadataOverheadSize i).map
        fun q => part partition q.start q.size q.attr q.physType) i.dramEnd := by
  obtain ⟨hpps, rfl, rfl⟩ := readPoolInputs_spec isDerivedFrom ty hread hpart
  obtain ⟨hsystem, hmetadata, hnonSecure, happlet'⟩ := inserts_pos hpos
  obtain ⟨h₁, h₂, h₃, h₄⟩ :=
    PoolInputs.ordered_of_pos happlet h₁ h₂ h₃ h₄ hsystem hmetadata hnonSecure happlet'
  obtain ⟨hPmem, -, hPattr⟩ := findFirstBlockByTypeAttr_some hpart
  obtain ⟨preP, postP, rfl⟩ := List.append_of_mem hPmem
  obtain ⟨preV, postV, rfl⟩ := List.append_of_mem hmirror
  have haligned : isAligned i.kernelDramStart carveoutAlignment = true := by
    simp [isAligned, halign]
  refine ⟨preP, postP, preV, postV, rfl, rfl, ?_, hpps ▸ poolPartitionLayout_tiles ty partition
    h₁ h₂ h₃ h₄ h₅⟩
  simp only [setupPoolPartitionMemoryBlocks, hread, haligned, Bool.not_true, Bool.false_eq_true,
    ↓reduceIte]
  exact (PartitionFrame.ofCovers hphys hvirt hfresh hPattr hpair hderP hmattr hmpair hderV hmlo
    hmhi).insertPoolPartitionBlocks_layout hpps hend.symm hdram happ happlet h₁ h₂ h₃ h₄ h₅

/-- A 2 GiB DRAM whose application pool straddles the midpoint: the builder cuts the
partition into the system, metadata, non-secure system and applet pools and the two halves
of the application pool. -/
theorem setupPoolPartitionMemoryBlocks_layout_split :
    let ty : PoolRegionTypes := ⟨1, 2, 3, 4, 5, 6, 7, 8, 9, 10, 11, 12, 13⟩
    let isDerivedFrom : Nat → Nat → Bool := fun c p => c == p || (p == 1 && (c == 2 || c == 3))
    let overhead : Nat → Nat := fun _ => 0x100000
    let partition : KMemoryBlock := ⟨0x80100000, 0x7FF00000, 0x80100000, 0, 3⟩
    let mirror : KMemoryBlock := ⟨0, 2 ^ 64, uintptrMax, 0, 14⟩
    let phys : List KMemoryBlock := [⟨0x80000000, 0x100000, uintptrMax, 0, 2⟩, partition]
    let i : PoolInputs := ⟨0x80000000, 0x100000000, 0x80000000, 0x80100000, 0x50000000,
      0x10000000, 0x2000000⟩
    ∃ preP postP preV postV, phys = preP ++ partition :: postP ∧
      [mirror] = preV ++ mirror :: postV ∧
      setupPoolPartitionMemoryBlocks (fun _ _ => true) isDerivedFrom ty overhead phys [mirror]
          0x50000000 0x10000000 0x2000000 =
        some (preP ++ (poolPartitionLayout ty overhead i).map
            (fun q => part partition q.start q.size q.attr q.physType) ++ postP,
          preV ++ rest mirror mirror.address partition.pairAddress ++
            (poolPartitionLayout ty overhead i).map (fun q => part mirror
              (partition.pairAddress + (q.start - partition.address)) q.size q.attr q.virtType) ++
            rest mirror (partition.pairAddress + partition.size) (mirror.address + mirror.size) ++
            postV) ∧
      Tiles partition.address ((poolPartitionLayout ty overhead i).map
        fun q => part partition q.start q.size q.attr q.physType) i.dramEnd := by
  intro ty isDerivedFrom overhead partition mirror phys i
  exact setupPoolPartitionMemoryBlocks_layout (fun _ _ => true) isDerivedFrom ty overhead
    (show Covers phys 0x80000000 0xFFFFFFFF by decide) (show Covers [mirror] 0 uintptrMax by decide)
    (by decide) (by decide) (by decide) (by decide) (by decide) (by decide) (by decide)
    (by decide) (by decide) (by decide) (by decide) (by decide) (by decide) (by decide)
    (by decide) (by decide) (by decide) (by decide) (by decide) (by decide) (by decide)
    (by decide)

end Init

end Ams.Kern
