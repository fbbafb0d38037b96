import Atmosphere.Kern.MemoryBlockTree

/-!
# `KMemoryLayout::InitializeLinearMemoryBlockTrees`

Beside the physical and the virtual tree, the layout keeps two linear trees, copies of
the physical blocks whose type carries the `LinearMapped` attribute and of the virtual
blocks deriving from `Dram`, and the two differences that translate between linearly
mapped physical and virtual addresses.  `InitializeLinearMemoryBlockTrees` sets the
differences and fills each linear tree by walking its full tree in address order.

A linear tree is an intrusive tree ordered by address, so each copy is an ordered
insertion.  Walking a tiled tree in order, every copy lands after the copies before it:
a linear tree filled from empty is the sublist of the full tree that passes the test,
and it inherits the order and the disjointness of the tiling.

The type tests `HasTypeAttribute(KMemoryRegionAttr_LinearMapped)` and
`IsDerivedFrom(KMemoryRegionType_Dram)`, the intrusive tree and the block constructor
are declared outside the sources: the tests are parameters.
-/

namespace Ams.Kern

/-- The state of `KMemoryLayout`: the four trees and the two linear differences. -/
structure MemoryLayout where
  physicalTree : List KMemoryBlock
  virtualTree : List KMemoryBlock
  physicalLinearTree : List KMemoryBlock
  virtualLinearTree : List KMemoryBlock
  linearPhysToVirtDiff : Nat
  linearVirtToPhysDiff : Nat
  deriving Repr, DecidableEq

namespace MemoryLayout

open KMemoryBlockTree

/-- `GetMemoryBlockAllocator().Create(address, size, attributes, type_id)`: the four values
of `b`, and no pair (the four-argument constructor leaves the pair at its sentinel). -/
def copyBlock (b : KMemoryBlock) : KMemoryBlock :=
  ⟨b.address, b.size, uintptrMax, b.attributes, b.typeId⟩

/-- `insert` into a tree ordered by address: the block goes after every block that does not
start above it. -/
def insertOrdered (b : KMemoryBlock) : List KMemoryBlock → List KMemoryBlock
  | [] => [b]
  | c :: cs => if b.address < c.address then b :: c :: cs else c :: insertOrdered b cs

/-- One iteration of either loop: a copy of `b` goes into the linear tree `lt` when `b`'s
type passes `test`. -/
def insertIfLinear (test : Nat → Bool) (lt : List KMemoryBlock) (b : KMemoryBlock) :
    List KMemoryBlock :=
  if test b.typeId then insertOrdered (copyBlock b) lt else lt

/-- One loop of `InitializeLinearMemoryBlockTrees`: the blocks of `t` in address order. -/
def fillLinearTree (test : Nat → Bool) (lt t : List KMemoryBlock) : List KMemoryBlock :=
  t.foldl (insertIfLinear test) lt

variable (isLinearMapped isDerivedFromDram : Nat → Bool)

/-- `InitializeLinearMemoryBlockTrees(aligned_linear_phys_start, linear_virtual_start)`
(lines 113–132). -/
def initializeLinearMemoryBlockTrees (m : MemoryLayout)
    (alignedLinearPhysStart linearVirtualStart : Nat) : MemoryLayout :=
  { m with
    linearPhysToVirtDiff := subU64 linearVirtualStart alignedLinearPhysStart
    linearVirtToPhysDiff := subU64 alignedLinearPhysStart linearVirtualStart
    physicalLinearTree := fillLinearTree isLinearMapped m.physicalLinearTree m.physicalTree
    virtualLinearTree := fillLinearTree isDerivedFromDram m.virtualLinearTree m.virtualTree }

/-- What a linear tree is meant to be, for its full tree `t` and the type test of its loop:
the copies, in address order, of the blocks of `t` that pass the test, each with the
block's address, size, attributes and type and the sentinel pair, ordered and disjoint, in
which the lookup of any address finds the copy of the block that the lookup in `t` finds. -/
def LinearCopy (test : Nat → Bool) (t lt : List KMemoryBlock) : Prop :=
  lt = (t.filter fun b => test b.typeId).map
      (fun b => ⟨b.address, b.size, uintptrMax, b.attributes, b.typeId⟩) ∧
    lt.Pairwise (fun a b => a.address + a.size ≤ b.address) ∧
    ∀ x pre c post, findContainingBlock x lt = some (pre, c, post) →
      ∃ pre' b post', findContainingBlock x t = some (pre', b, post') ∧
        c = ⟨b.address, b.size, uintptrMax, b.attributes, b.typeId⟩

/-! ## Filling a linear tree in address order -/

/-- A block that no block of the tree starts above goes at the end. -/
theorem insertOrdered_of_le {b : KMemoryBlock} :
    ∀ {lt : List KMemoryBlock}, (∀ c ∈ lt, c.address ≤ b.address) →
      insertOrdered b lt = lt ++ [b]
  | [], _ => rfl
  | c :: cs, h => by
    have hc := h c (List.mem_cons_self _ _)
    simp only [insertOrdered, if_neg (Nat.not_lt.mpr hc), List.cons_append,
      insertOrdered_of_le fun c' hc' => h c' (List.mem_cons_of_mem _ hc')]

/-- Walking blocks in address order, all above the copies already in the linear tree,
appends the copies of those that pass the test. -/
theorem fillLinearTree_ordered (test : Nat → Bool) :
    ∀ {lt t : List KMemoryBlock}, t.Pairwise (fun a b => a.address ≤ b.address) →
      (∀ c ∈ lt, ∀ b ∈ t, c.address ≤ b.address) →
      fillLinearTree test lt t = lt ++ (t.filter fun b => test b.typeId).map copyBlock
  | lt, [], _, _ => (List.append_nil lt).symm
  | lt, b :: bs, hsorted, habove => by
    obtain ⟨hb, hbs⟩ := List.pairwise_cons.mp hsorted
    have hrest : ∀ c ∈ lt, ∀ b' ∈ bs, c.address ≤ b'.address :=
      fun c hc b' hb' => habove c hc b' (List.mem_cons_of_mem _ hb')
    show fillLinearTree test (insertIfLinear test lt b) bs = _
    by_cases htest : test b.typeId
    · have hins : insertIfLinear test lt b = lt ++ [copyBlock b] := by
        rw [insertIfLinear, if_pos htest]
        exact insertOrdered_of_le fun c hc => habove c hc b (List.mem_cons_self _ _)
      have habove' : ∀ c ∈ lt ++ [copyBlock b], ∀ b' ∈ bs, c.address ≤ b'.address := by
        intro c hc b' hb'
        rcases List.mem_append.mp hc with hc | hc
        · exact hrest c hc b' hb'
        · rw [List.mem_singleton.mp hc]
          exact hb b' hb'
      rw [hins, fillLinearTree_ordered test hbs habove']
      simp only [List.filter_cons, htest, if_true, List.map_cons, List.append_assoc,
        List.singleton_append]
    · rw [show insertIfLinear test lt b = lt from if_neg htest,
        fillLinearTree_ordered test hbs hrest]
      simp only [List.filter_cons, htest, Bool.false_eq_true, if_false]

section Tiled

variable {lo e : Nat} {t : List KMemoryBlock}

/-- Filled from empty, a linear tree is the in-order sublist of copies of the blocks of a
tiled tree that pass the test. -/
theorem fillLinearTree_of_tiles (test : Nat → Bool) (h : Tiles lo t e) :
    fillLinearTree test [] t = (t.filter fun b => test b.typeId).map copyBlock :=
  fillLinearTree_ordered test (h.pairwise.imp fun hab => by omega) (by simp)

/-- The copies in a linear tree filled from a tiled tree are in address order and pairwise
disjoint. -/
theorem fillLinearTree_pairwise (test : Nat → Bool) (h : Tiles lo t e) :
    (fillLinearTree test [] t).Pairwise fun a b => a.address + a.size ≤ b.address := by
  rw [fillLinearTree_of_tiles test h, List.pairwise_map]
  exact h.pairwise.filter _

/-- A lookup in a linear tree filled from a tiled tree finds the copy of the block that the
lookup in the tiled tree finds: a copy has the bounds of its block, and no other block of
the tiling contains the address. -/
theorem fillLinearTree_findContainingBlock (test : Nat → Bool) (h : Tiles lo t e)
    (he : e ≤ 2 ^ 64) {x : Nat} {pre post : List KMemoryBlock} {c : KMemoryBlock}
    (hc : findContainingBlock x (fillLinearTree test [] t) = some (pre, c, post)) :
    ∃ pre' b post', findContainingBlock x t = some (pre', b, post') ∧ c = copyBlock b := by
  obtain ⟨hsplit, hcx, -⟩ := findContainingBlock_spec hc
  have hmem : c ∈ fillLinearTree test [] t :=
    hsplit ▸ List.mem_append_right _ (List.mem_cons_self _ _)
  rw [fillLinearTree_of_tiles test h] at hmem
  obtain ⟨b, hb, rfl⟩ := List.mem_map.mp hmem
  obtain ⟨pre', post', hf⟩ := findContainingBlock_of_mem h he (List.mem_filter.mp hb).1 hcx
  exact ⟨pre', b, post', hf, rfl⟩

/-- A linear tree filled from empty out of a tiled tree is its linear copy. -/
theorem fillLinearTree_linearCopy (test : Nat → Bool) (h : Tiles lo t e) (he : e ≤ 2 ^ 64) :
    LinearCopy test t (fillLinearTree test [] t) :=
  ⟨fillLinearTree_of_tiles test h, fillLinearTree_pairwise test h,
    fun _ _ _ _ hc => fillLinearTree_findContainingBlock test h he hc⟩

end Tiled

/-- `InitializeLinearMemoryBlockTrees` on a physical and a virtual tree that keep the tiling
invariant, with both linear trees empty: the physical-linear tree is the linear copy of the
physical tree for `LinearMapped`, and the virtual-linear tree that of the virtual tree for
the types deriving from `Dram`. -/
theorem initializeLinearMemoryBlockTrees_linearCopy {m : MemoryLayout}
    {plo phi vlo vhi : Nat} (hphys : Covers m.physicalTree plo phi)
    (hvirt : Covers m.virtualTree vlo vhi) (hpl : m.physicalLinearTree = [])
    (hvl : m.virtualLinearTree = []) (alignedLinearPhysStart linearVirtualStart : Nat) :
    let m' := initializeLinearMemoryBlockTrees isLinearMapped isDerivedFromDram m
      alignedLinearPhysStart linearVirtualStart
    LinearCopy isLinearMapped m.physicalTree m'.physicalLinearTree ∧
      LinearCopy isDerivedFromDram m.virtualTree m'.virtualLinearTree := by
  dsimp only [initializeLinearMemoryBlockTrees]
  rw [hpl, hvl]
  exact ⟨fillLinearTree_linearCopy _ hphys.1 hphys.2, fillLinearTree_linearCopy _ hvirt.1 hvirt.2⟩

/-- `initializeLinearMemoryBlockTrees_linearCopy` on a physical tree of two blocks, one of
them linearly mapped, and a virtual tree of one block deriving from `Dram`. -/
theorem initializeLinearMemoryBlockTrees_linearCopy_two_blocks :
    let m : MemoryLayout := ⟨[⟨0, 0x1000, uintptrMax, 0, 1⟩, ⟨0x1000, 0x1000, uintptrMax, 0, 2⟩],
      [⟨0, 0x2000, uintptrMax, 0, 1⟩], [], [], 0, 0⟩
    (Covers m.physicalTree 0 0x1FFF ∧ Covers m.virtualTree 0 0x1FFF ∧
      m.physicalLinearTree = [] ∧ m.virtualLinearTree = []) ∧
    let m' := initializeLinearMemoryBlockTrees (fun ty => ty == 1) (fun ty => ty == 1) m 0 0
    LinearCopy (fun ty => ty == 1) m.physicalTree m'.physicalLinearTree ∧
      LinearCopy (fun ty => ty == 1) m.virtualTree m'.virtualLinearTree :=
  ⟨⟨by decide, by decide, rfl, rfl⟩,
    @initializeLinearMemoryBlockTrees_linearCopy (fun ty => ty == 1) (fun ty => ty == 1)
      ⟨[⟨0, 0x1000, uintptrMax, 0, 1⟩, ⟨0x1000, 0x1000, uintptrMax, 0, 2⟩],
        [⟨0, 0x2000, uintptrMax, 0, 1⟩], [], [], 0, 0⟩ 0 0x1FFF 0 0x1FFF
      (by decide) (by decide) rfl rfl 0 0⟩

/-! ## The linear differences -/

section Translation

variable {m : MemoryLayout} {alignedLinearPhysStart linearVirtualStart : Nat}
  (hp : alignedLinearPhysStart < 2 ^ 64) (hv : linearVirtualStart < 2 ^ 64)
include hp hv

end Translation

end MemoryLayout

end Ams.Kern
