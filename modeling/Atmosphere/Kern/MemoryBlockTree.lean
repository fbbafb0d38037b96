import Atmosphere.Kern.MemoryBlock

/-!
# `KMemoryBlockTree::Insert`

The tree is the ordered list of its blocks.  `FindContainingBlock` returns an iterator,
modelled as the position it points at: the blocks before it, the block, and the blocks
after it.  `Insert` checks the block it finds, erases it, and inserts up to three
blocks in its place; since every one of them lies inside the erased block whenever
the inserted range does not wrap, they take its place in the address order.

The region-type lattice of `kern_k_memory_region_type.hpp` is not among the sources:
`CanDerive` is a parameter `canDerive old new` throughout.
-/

namespace Ams.Kern

open KMemoryBlock

namespace KMemoryBlockTree

/-- Modelled from the spec: `FindContainingBlock(address)`, the position of the first block
that contains `address`, or `none` for the init-time abort when there is none. -/
def findContainingBlock (address : Nat) :
    List KMemoryBlock → Option (List KMemoryBlock × KMemoryBlock × List KMemoryBlock)
  | [] => none
  | b :: bs =>
    if b.Contains address then some ([], b, bs)
    else (findContainingBlock address bs).map fun (pre, it, post) => (b :: pre, it, post)

/-- What a position found by `findContainingBlock` is. -/
theorem findContainingBlock_spec {address : Nat} {t pre post : List KMemoryBlock}
    {it : KMemoryBlock} (h : findContainingBlock address t = some (pre, it, post)) :
    t = pre ++ it :: post ∧ it.Contains address ∧ ∀ b ∈ pre, ¬ b.Contains address := by
  induction t generalizing pre with
  | nil => cases h
  | cons b bs ih =>
    unfold findContainingBlock at h
    split_ifs at h with hb
    · cases h
      exact ⟨rfl, hb, by simp⟩
    · obtain ⟨⟨pre', it', post'⟩, h', he⟩ := Option.map_eq_some'.mp h
      cases he
      obtain ⟨rfl, hit, hpre⟩ := ih h'
      exact ⟨rfl, hit, by simpa [hb] using hpre⟩

/-- In a tiling, the block found for an address is the block of the tree that
contains it. -/
theorem findContainingBlock_of_mem {lo e x : Nat} {t : List KMemoryBlock}
    (h : Tiles lo t e) (he : e ≤ 2 ^ 64) {b : KMemoryBlock} (hb : b ∈ t) (hx : b.Contains x) :
    ∃ pre post, findContainingBlock x t = some (pre, b, post) := by
  induction t generalizing lo with
  | nil => cases hb
  | cons c cs ih =>
    obtain ⟨rfl, hs, hcs⟩ := h
    unfold findContainingBlock
    rcases List.mem_cons.mp hb with rfl | hb'
    · exact ⟨[], cs, by simp [hx]⟩
    · have hbb := hcs.bounds hb'
      have hcx : ¬ c.Contains x := by
        rw [contains_iff hs (by have := hcs.le; omega)]
        rw [contains_iff hbb.2.1 (by omega)] at hx
        omega
      obtain ⟨pre, post, hf⟩ := ih hcs hb'
      exact ⟨c :: pre, post, by simp [hcx, hf]⟩

/-- In a tiling of `[lo, e)`, every address of `[lo, e)` has a containing block. -/
theorem findContainingBlock_of_tiles {lo e x : Nat} {t : List KMemoryBlock}
    (h : Tiles lo t e) (he : e ≤ 2 ^ 64) (hlo : lo ≤ x) (hx : x < e) :
    ∃ pre it post, findContainingBlock x t = some (pre, it, post) := by
  obtain ⟨b, hb, hbx⟩ := h.covers.mpr ⟨hlo, hx⟩
  have hbb := h.bounds hb
  obtain ⟨pre, post, hf⟩ :=
    findContainingBlock_of_mem h he hb ((contains_iff hbb.2.1 (by omega)).mpr hbx)
  exact ⟨pre, b, post, hf⟩

/-! ## Splitting a block -/

/-- The pair address of the part of `it` that starts `offset` bytes into it (lines 61
and 67): the old pair address shifted by `offset` when it is valid, the sentinel
`uintptrMax` otherwise. -/
def pairAt (it : KMemoryBlock) (offset : Nat) : Nat :=
  if it.pairAddress ≠ uintptrMax then addU64 it.pairAddress offset else it.pairAddress

/-- The blocks that take the place of `it` in `Insert(address, size, type_id, new_attr,
old_attr)` (lines 41–69): the part of `it` before `address`, the new block, and the part
of `it` after the new block, each part only when the code creates it. -/
def splitBlock (it : KMemoryBlock) (address size typeId newAttr oldAttr : Nat) :
    List KMemoryBlock :=
  let insertedBlockEnd := addU64 address size
  let insertedBlockLast := subU64 insertedBlockEnd 1
  (if it.address ≠ address then
    [⟨it.address, subU64 address it.address, it.pairAddress, oldAttr, it.typeId⟩] else []) ++
  ⟨address, size, pairAt it (subU64 address it.address), newAttr, typeId⟩ ::
  (if it.lastAddress ≠ insertedBlockLast then
    [⟨insertedBlockEnd, subU64 it.endAddress insertedBlockEnd,
      pairAt it (subU64 insertedBlockEnd it.address), oldAttr, it.typeId⟩] else [])

theorem insertedBlockLast_eq {address size : Nat} (hsize : 0 < size)
    (hwrap : address + size ≤ 2 ^ 64) :
    subU64 (addU64 address size) 1 = address + size - 1 := by
  unfold addU64 subU64
  omega

/-- `Insert` makes a part after the inserted range exactly when that range ends before
the block does. -/
theorem lastAddress_eq_insertedBlockLast_iff {it : KMemoryBlock} {address size : Nat}
    (hs : 0 < it.size) (he : it.address + it.size ≤ 2 ^ 64) (hsize : 0 < size)
    (hhi : address + size ≤ it.address + it.size) :
    it.lastAddress = subU64 (addU64 address size) 1 ↔ address + size = it.address + it.size := by
  rw [lastAddress_eq hs he, insertedBlockLast_eq hsize (by omega)]
  omega

/-- The part after an inserted range that ends inside a block: its start does not wrap,
and its size is what is left of the block. -/
theorem after_eq {it : KMemoryBlock} {address size : Nat} (hsize : 0 < size)
    (he : it.address + it.size ≤ 2 ^ 64) (hafter : address + size < it.address + it.size) :
    addU64 address size = address + size ∧
      subU64 it.endAddress (address + size) = it.address + it.size - (address + size) := by
  unfold endAddress addU64 subU64
  omega

section Split

variable {it : KMemoryBlock} {address size typeId newAttr oldAttr : Nat}
  (hs : 0 < it.size) (he : it.address + it.size ≤ 2 ^ 64) (hlo : it.address ≤ address)
  (hsize : 0 < size) (hhi : address + size ≤ it.address + it.size)
include hs he hlo hsize hhi

/-- The pieces of a split in exact arithmetic: the part before `address` unless `address`
starts the block, the new block, and the part after it unless it ends the block. -/
theorem splitBlock_eq :
    splitBlock it address size typeId newAttr oldAttr =
      (if it.address = address then [] else
        [⟨it.address, address - it.address, it.pairAddress, oldAttr, it.typeId⟩]) ++
      ⟨address, size, pairAt it (address - it.address), newAttr, typeId⟩ ::
      (if address + size = it.address + it.size then [] else
        [⟨address + size, it.address + it.size - (address + size),
          pairAt it (address + size - it.address), oldAttr, it.typeId⟩]) := by
  have hbefore : subU64 address it.address = address - it.address :=
    subU64_of_le hlo (by omega)
  unfold splitBlock
  simp only [hbefore, ne_eq, lastAddress_eq_insertedBlockLast_iff hs he hsize hhi, ite_not]
  by_cases hend : address + size = it.address + it.size
  · simp only [hend, if_true]
  · obtain ⟨h1, h2⟩ := after_eq hsize he (by omega : address + size < it.address + it.size)
    simp only [hend, if_false, h1, h2,
      subU64_of_le (by omega : it.address ≤ address + size) (by omega)]

/-- A non-empty range inside a block splits it into pieces that tile it. -/
theorem splitBlock_tiles :
    Tiles it.address (splitBlock it address size typeId newAttr oldAttr)
      (it.address + it.size) := by
  rw [splitBlock_eq hs he hlo hsize hhi]
  split_ifs <;> simp only [Tiles, List.nil_append, List.cons_append, List.singleton_append,
    true_and] <;> omega

end Split

/-- The split has one piece, plus one for a part before `address` and one for a part
after `address + size`. -/
theorem length_splitBlock {it : KMemoryBlock} {address size : Nat} (typeId newAttr oldAttr : Nat)
    (hs : 0 < it.size) (he : it.address + it.size ≤ 2 ^ 64) (hsize : 0 < size)
    (hhi : address + size ≤ it.address + it.size) :
    (splitBlock it address size typeId newAttr oldAttr).length =
      1 + (if it.address = address then 0 else 1) +
        (if address + size = it.address + it.size then 0 else 1) := by
  unfold splitBlock
  simp only [ne_eq, lastAddress_eq_insertedBlockLast_iff hs he hsize hhi]
  split_ifs <;> rfl

/-! ## Parts of a block -/

/-- The block `[a, a + n)` cut out of `b`, with the attributes and type given and the
pair address that `b` gives to `a`. -/
def part (b : KMemoryBlock) (a n attr typeId : Nat) : KMemoryBlock :=
  ⟨a, n, pairAt b (a - b.address), attr, typeId⟩

/-- The new block of a split is the part of `it` at `address`. -/
theorem part_mem_splitBlock {it : KMemoryBlock} {address size typeId newAttr oldAttr : Nat}
    (hs : 0 < it.size) (he : it.address + it.size ≤ 2 ^ 64) (hlo : it.address ≤ address)
    (hsize : 0 < size) (hhi : address + size ≤ it.address + it.size) :
    part it address size newAttr typeId ∈ splitBlock it address size typeId newAttr oldAttr := by
  rw [splitBlock_eq hs he hlo hsize hhi]
  exact List.mem_append_right _ (List.mem_cons_self _ _)

/-- Every piece of a split other than the new block `[address, address + size)` keeps the
type of the block it was cut from. -/
theorem typeId_of_mem_splitBlock {it c : KMemoryBlock} {address size typeId newAttr oldAttr : Nat}
    (hc : c ∈ splitBlock it address size typeId newAttr oldAttr) :
    c.typeId = it.typeId ∨ c.address = address ∧ c.size = size ∧ c.typeId = typeId := by
  simp only [splitBlock, List.mem_append, List.mem_cons, List.mem_ite_nil_right,
    List.not_mem_nil, or_false] at hc
  rcases hc with ⟨-, rfl⟩ | rfl | ⟨-, rfl⟩
  exacts [.inl rfl, .inr ⟨rfl, rfl, rfl⟩, .inl rfl]

/-- What is left of `b` in `[a, top)`, with its attributes and type: nothing if the
range is empty. -/
def rest (b : KMemoryBlock) (a top : Nat) : List KMemoryBlock :=
  if a = top then [] else [part b a (top - a) b.attributes b.typeId]

@[simp]
theorem rest_self (b : KMemoryBlock) (a : Nat) : rest b a a = [] := if_pos rfl

theorem mem_rest {b c : KMemoryBlock} {a top : Nat} (hc : c ∈ rest b a top) :
    c = part b a (top - a) b.attributes b.typeId := by
  unfold rest at hc
  split_ifs at hc
  · cases hc
  · exact List.mem_singleton.mp hc

section Part

variable {b : KMemoryBlock}
  (hpair : b.pairAddress = uintptrMax ∨ b.pairAddress + b.size ≤ 2 ^ 64)
include hpair

/-- A part passes on the pair addresses of `b`: shifting the part's pair address by `o`
gives the one `b` gives to the same address. -/
theorem pairAt_part {a n attr typeId o : Nat} (ha : b.address ≤ a)
    (ho : a + o < b.address + b.size) :
    pairAt (part b a n attr typeId) o = pairAt b (a + o - b.address) := by
  rw [show a + o - b.address = a - b.address + o by omega]
  unfold part pairAt
  by_cases hmax : b.pairAddress = uintptrMax
  · simp [hmax]
  have h := hpair.resolve_left hmax
  have hfirst : addU64 b.pairAddress (a - b.address) = b.pairAddress + (a - b.address) :=
    addU64_of_lt (by omega)
  simp only [ne_eq, hmax, not_false_eq_true, if_true, hfirst]
  by_cases hpart : b.pairAddress + (a - b.address) = uintptrMax
  · -- the part's pair is the sentinel only at the last address of `b`, where `o = 0`
    obtain rfl : o = 0 := by unfold uintptrMax at hpart; omega
    rw [if_neg (not_not.mpr hpart), Nat.add_zero, hfirst]
  · rw [if_pos hpart]
    unfold addU64
    rw [Nat.add_assoc]

/-- `b` is the part of itself that covers it. -/
theorem part_self (hs : 0 < b.size) : part b b.address b.size b.attributes b.typeId = b := by
  have hpair0 : pairAt b 0 = b.pairAddress := by
    unfold pairAt addU64
    split_ifs
    · rcases hpair with h | h
      · contradiction
      · exact Nat.mod_eq_of_lt (by omega)
    · rfl
  simp only [part, Nat.sub_self, hpair0]

/-- Splitting a part of `b` that keeps its attributes and type gives parts of `b`. -/
theorem splitBlock_part {a m s n typeId newAttr : Nat} (hba : b.address ≤ a)
    (hm : a + m ≤ b.address + b.size) (hbe : b.address + b.size ≤ 2 ^ 64) (has : a ≤ s)
    (hn : 0 < n) (hsn : s + n ≤ a + m) :
    splitBlock (part b a m b.attributes b.typeId) s n typeId newAttr b.attributes =
      rest b a s ++ part b s n newAttr typeId :: rest b (s + n) (a + m) := by
  have hpart : ∀ o, a + o < b.address + b.size →
      pairAt ⟨a, m, pairAt b (a - b.address), b.attributes, b.typeId⟩ o =
        pairAt b (a + o - b.address) :=
    fun o ho => pairAt_part hpair hba ho
  rw [splitBlock_eq (show 0 < m by omega) (show a + m ≤ 2 ^ 64 by omega) has hn hsn]
  simp only [part, rest]
  rw [hpart (s - a) (by omega), Nat.add_sub_cancel' has]
  congr 2
  split_ifs
  · rfl
  · rw [hpart (s + n - a) (by omega), Nat.add_sub_cancel' (by omega : a ≤ s + n)]

end Part

/-! ## `Insert` -/

/-- What a call of `Insert` leaves: its return value, the tree, and the number of blocks
it drew from the block allocator. -/
structure InsertResult where
  result : Bool
  tree : List KMemoryBlock
  drawn : Nat
  deriving Repr, DecidableEq

variable (canDerive : Nat → Nat → Bool)

/-- `KMemoryBlockTree::Insert(address, size, type_id, new_attr, old_attr)`; `none` is the
abort of `FindContainingBlock`.  The part before `address` reuses the erased block's
storage, so the new block is drawn from the allocator exactly when that part exists,
and the part after the new block always is. -/
def insert (t : List KMemoryBlock) (address size typeId newAttr oldAttr : Nat) :
    Option InsertResult :=
  match findContainingBlock address t with
  | none => none
  | some (pre, it, post) =>
    let insertedBlockLast := subU64 (addU64 address size) 1
    if it.attributes ≠ oldAttr then some ⟨false, t, 0⟩
    else if it.lastAddress < insertedBlockLast then some ⟨false, t, 0⟩
    else if !canDerive it.typeId typeId then some ⟨false, t, 0⟩
    else some ⟨true, pre ++ splitBlock it address size typeId newAttr oldAttr ++ post,
      (if it.address ≠ address then 1 else 0) +
        (if it.lastAddress ≠ insertedBlockLast then 1 else 0)⟩

/-- The three checks `Insert` makes on the block `it` that contains `address`, with the
last address of the inserted range computed as the code computes it. -/
def InsertAccepts (it : KMemoryBlock) (address size typeId oldAttr : Nat) : Prop :=
  it.attributes = oldAttr ∧ subU64 (addU64 address size) 1 ≤ it.lastAddress ∧
    canDerive it.typeId typeId = true

instance (it : KMemoryBlock) (address size typeId oldAttr : Nat) :
    Decidable (InsertAccepts canDerive it address size typeId oldAttr) :=
  inferInstanceAs (Decidable (_ ∧ _ ∧ _))

/-- `Insert` on the block it finds: a split when the three checks pass, and otherwise
`false` with the tree unchanged. -/
theorem insert_of_find {t pre post : List KMemoryBlock} {it : KMemoryBlock}
    {address size typeId newAttr oldAttr : Nat}
    (hf : findContainingBlock address t = some (pre, it, post)) :
    insert canDerive t address size typeId newAttr oldAttr =
      some (if InsertAccepts canDerive it address size typeId oldAttr then
        ⟨true, pre ++ splitBlock it address size typeId newAttr oldAttr ++ post,
          (if it.address ≠ address then 1 else 0) +
            (if it.lastAddress ≠ subU64 (addU64 address size) 1 then 1 else 0)⟩
      else ⟨false, t, 0⟩) := by
  unfold insert InsertAccepts
  rw [hf]
  by_cases h1 : it.attributes = oldAttr
  · by_cases h2 : it.lastAddress < subU64 (addU64 address size) 1
    · simp [h1, h2, Nat.not_le.mpr h2]
    · by_cases h3 : canDerive it.typeId typeId = true <;> simp [h1, h2, h3, Nat.not_lt.mp h2]
  · simp [h1]

/-- A call that returns finds its block, and succeeds exactly when the three checks pass. -/
theorem insert_eq_some {t : List KMemoryBlock} {address size typeId newAttr oldAttr : Nat}
    {r : InsertResult} (h : insert canDerive t address size typeId newAttr oldAttr = some r) :
    ∃ pre it post, findContainingBlock address t = some (pre, it, post) ∧
      (r.result = true ↔ InsertAccepts canDerive it address size typeId oldAttr) ∧
      (r.result = true →
        r.tree = pre ++ splitBlock it address size typeId newAttr oldAttr ++ post) ∧
      (r.result = false → r.tree = t) := by
  cases hf : findContainingBlock address t with
  | none => simp [insert, hf] at h
  | some p =>
    obtain ⟨pre, it, post⟩ := p
    rw [insert_of_find canDerive hf, Option.some.injEq] at h
    subst h
    refine ⟨pre, it, post, rfl, ?_⟩
    split_ifs with hacc <;> simp [hacc]

/-- `FindContainingBlock` stops at the first block that contains the address. -/
theorem findContainingBlock_append {x : Nat} {pre post : List KMemoryBlock} {b : KMemoryBlock}
    (hpre : ∀ c ∈ pre, ¬ c.Contains x) (hb : b.Contains x) :
    findContainingBlock x (pre ++ b :: post) = some (pre, b, post) := by
  induction pre with
  | nil => simp [findContainingBlock, hb]
  | cons c cs ih =>
    simp only [List.cons_append, findContainingBlock, hpre c (List.mem_cons_self _ _), if_false,
      List.append_eq, ih fun c' h => hpre c' (List.mem_cons_of_mem _ h), Option.map_some']

/-- `Insert` of a non-empty range inside a block that passes its checks, behind blocks
that do not contain the address, splits that block. -/
theorem insert_append {pre post : List KMemoryBlock} {b : KMemoryBlock}
    {address size typeId newAttr oldAttr : Nat} (hpre : ∀ c ∈ pre, ¬ c.Contains address)
    (he : b.address + b.size ≤ 2 ^ 64) (hlo : b.address ≤ address) (hsize : 0 < size)
    (hhi : address + size ≤ b.address + b.size) (hattr : b.attributes = oldAttr)
    (hder : canDerive b.typeId typeId = true) :
    ∃ drawn, insert canDerive (pre ++ b :: post) address size typeId newAttr oldAttr =
      some ⟨true, pre ++ splitBlock b address size typeId newAttr oldAttr ++ post, drawn⟩ := by
  have hs : 0 < b.size := by omega
  have hlast : subU64 (addU64 address size) 1 ≤ b.lastAddress := by
    rw [insertedBlockLast_eq hsize (by omega), lastAddress_eq hs he]
    omega
  rw [insert_of_find canDerive (findContainingBlock_append hpre
    ((contains_iff hs he).mpr ⟨hlo, by omega⟩)), if_pos ⟨hattr, hlast, hder⟩]
  exact ⟨_, rfl⟩

/-- `Insert` into a part of `b` that keeps its attributes and type, behind blocks that do
not contain the address, cuts it into parts of `b`. -/
theorem insert_part {pre post : List KMemoryBlock} {b : KMemoryBlock}
    {a m s n typeId newAttr oldAttr : Nat} (hpre : ∀ c ∈ pre, ¬ c.Contains s)
    (hpair : b.pairAddress = uintptrMax ∨ b.pairAddress + b.size ≤ 2 ^ 64)
    (hba : b.address ≤ a) (hm : a + m ≤ b.address + b.size)
    (hbe : b.address + b.size ≤ 2 ^ 64) (has : a ≤ s) (hn : 0 < n) (hsn : s + n ≤ a + m)
    (hattr : b.attributes = oldAttr) (hder : canDerive b.typeId typeId = true) :
    ∃ drawn, insert canDerive (pre ++ part b a m b.attributes b.typeId :: post) s n typeId
        newAttr oldAttr =
      some ⟨true,
        pre ++ (rest b a s ++ part b s n newAttr typeId :: rest b (s + n) (a + m)) ++ post,
        drawn⟩ := by
  rw [← splitBlock_part hpair hba hm hbe has hn hsn, ← hattr]
  exact insert_append canDerive hpre (show a + m ≤ 2 ^ 64 by omega) has hn hsn rfl hder

/-- `Insert` of the top `[s, s + n)` of what is left of `b` in `[a, s + n)` leaves what is
left of `b` in `[a, s)` and the new part. -/
theorem insert_rest_top {pre post : List KMemoryBlock} {b : KMemoryBlock}
    {a s n typeId newAttr oldAttr : Nat} (hpre : ∀ c ∈ pre, ¬ c.Contains s)
    (hpair : b.pairAddress = uintptrMax ∨ b.pairAddress + b.size ≤ 2 ^ 64)
    (hba : b.address ≤ a) (has : a ≤ s) (hn : 0 < n) (hend : s + n ≤ b.address + b.size)
    (hbe : b.address + b.size ≤ 2 ^ 64) (hattr : b.attributes = oldAttr)
    (hder : canDerive b.typeId typeId = true) :
    ∃ drawn, insert canDerive (pre ++ rest b a (s + n) ++ post) s n typeId newAttr oldAttr =
      some ⟨true, pre ++ rest b a s ++ part b s n newAttr typeId :: post, drawn⟩ := by
  have hrest : rest b a (s + n) = [part b a (s + n - a) b.attributes b.typeId] := if_neg (by omega)
  obtain ⟨d, h⟩ := insert_part canDerive hpre hpair hba
    (show a + (s + n - a) ≤ b.address + b.size by omega) hbe has hn (by omega) hattr hder
  rw [Nat.add_sub_cancel' (by omega : a ≤ s + n), rest_self] at h
  refine ⟨d, ?_⟩
  rw [hrest, List.append_assoc, List.singleton_append, h]
  simp only [List.append_assoc, List.cons_append, List.nil_append, List.singleton_append]

/-- The containment check compares last addresses only, so a call of size `0` strictly
inside a block passes it: with the region types' `CanDerive`, `(type | new) == new`,
`Insert` returns `true` and puts a zero-length block into the tree. -/
theorem insert_accepts_empty_range :
    insert (fun ty new => (ty ||| new) == new) [⟨0, 0x1000, uintptrMax, 0, 1⟩] 0x800 0 3 1 0 =
      some ⟨true, [⟨0, 0x800, uintptrMax, 0, 1⟩, ⟨0x800, 0, uintptrMax, 1, 3⟩,
        ⟨0x800, 0x800, uintptrMax, 0, 1⟩], 2⟩ := by
  decide

/-! ## The tiling law -/

/-- On a tree that tiles `[lo, hi]`, a call with `address` in `[lo, hi]`, a positive size
and no wrap-around of `address + size - 1` finds its block and keeps the tiling; when it
succeeds, the block containing `address` has been replaced by one non-empty block, plus
one before `address` unless `address` is its start, plus one after the inserted range
unless that range ends where it ends, and the call drew one block from the allocator
for each piece past the first. -/
theorem insert_covers (typeId newAttr oldAttr : Nat) {t : List KMemoryBlock}
    {lo hi address size : Nat} (hcov : Covers t lo hi) (hlo : lo ≤ address) (hhi : address ≤ hi)
    (hsize : 1 ≤ size) (hwrap : address + size - 1 < 2 ^ 64) :
    ∃ r, insert canDerive t address size typeId newAttr oldAttr = some r ∧
      Covers r.tree lo hi ∧
      (r.result = true → ∃ pre it post pieces, t = pre ++ it :: post ∧ it.Contains address ∧
        r.tree = pre ++ pieces ++ post ∧
        pieces.length = 1 + (if it.address = address then 0 else 1) +
          (if address + size = it.address + it.size then 0 else 1) ∧
        (∀ p ∈ pieces, 0 < p.size) ∧ r.drawn + 1 = pieces.length ∧ r.drawn ≤ 2) := by
  obtain ⟨pre, it, post, hf⟩ :=
    findContainingBlock_of_tiles hcov.1 (by have := hcov.2; omega) hlo (by omega)
  obtain ⟨rfl, hit, -⟩ := findContainingBlock_spec hf
  obtain ⟨-, hs, hpost⟩ := tiles_around.mp hcov.1
  have he : it.address + it.size ≤ 2 ^ 64 := by have := hpost.le; have := hcov.2; omega
  rw [insert_of_find canDerive hf]
  by_cases hacc : InsertAccepts canDerive it address size typeId oldAttr
  · rw [if_pos hacc]
    have hin := (contains_iff hs he).mp hit
    have hhi' : address + size ≤ it.address + it.size := by
      have := hacc.2.1
      rw [lastAddress_eq hs he, insertedBlockLast_eq hsize (by omega : address + size ≤ 2 ^ 64)]
        at this
      omega
    have hsplit : Tiles it.address (splitBlock it address size typeId newAttr oldAttr)
        (it.address + it.size) := splitBlock_tiles hs he hin.1 hsize hhi'
    have hlen := length_splitBlock typeId newAttr oldAttr hs he hsize hhi'
    have hafter := lastAddress_eq_insertedBlockLast_iff hs he hsize hhi'
    refine ⟨_, rfl, hcov.replace hsplit, fun _ => ⟨pre, it, post, _, rfl, hit, rfl, hlen,
      fun p hp => (hsplit.bounds hp).2.1, ?_, ?_⟩⟩ <;>
    · simp only [ne_eq, hafter, hlen]
      split_ifs <;> decide
  · exact ⟨_, by rw [if_neg hacc], hcov, fun h => by cases h⟩

/-- The arguments of one call of `Insert`. -/
structure InsertRequest where
  address : Nat
  size : Nat
  typeId : Nat
  newAttr : Nat
  oldAttr : Nat
  deriving Repr, DecidableEq

/-- The side conditions of the tiling law on one call: `address` lies in `[lo, hi]`, the
size is positive, and `address + size - 1` does not wrap. -/
def InsertRequest.InRange (lo hi : Nat) (q : InsertRequest) : Prop :=
  lo ≤ q.address ∧ q.address ≤ hi ∧ 1 ≤ q.size ∧ q.address + q.size - 1 < 2 ^ 64

/-- A run of `Insert` calls on one tree, each on the tree the previous one left;
`none` if one of them aborts. -/
def runInserts (t : List KMemoryBlock) : List InsertRequest → Option (List KMemoryBlock)
  | [] => some t
  | q :: qs => (insert canDerive t q.address q.size q.typeId q.newAttr q.oldAttr).bind
      fun r => runInserts r.tree qs

/-- A run of any length of in-range calls never aborts and keeps the tiling. -/
theorem runInserts_covers {lo hi : Nat} :
    ∀ {t : List KMemoryBlock} {qs : List InsertRequest}, Covers t lo hi →
      (∀ q ∈ qs, q.InRange lo hi) →
        ∃ t', runInserts canDerive t qs = some t' ∧ Covers t' lo hi
  | t, [], hcov, _ => ⟨t, rfl, hcov⟩
  | t, q :: qs, hcov, hqs => by
    obtain ⟨hlo, hhi, hsize, hwrap⟩ := hqs q (List.mem_cons_self _ _)
    obtain ⟨r, hr, hrcov, -⟩ :=
      insert_covers canDerive q.typeId q.newAttr q.oldAttr hcov hlo hhi hsize hwrap
    simpa [runInserts, hr] using
      runInserts_covers hrcov fun q' hq' => hqs q' (List.mem_cons_of_mem _ hq')

/-- The tiling law of `Insert`: one call keeps the tiling and replaces the containing
block by exactly the pieces it needs, and so does every run of such calls. -/
theorem insert_tiling_invariant :
    (∀ (t : List KMemoryBlock) (lo hi address size typeId newAttr oldAttr : Nat),
      Covers t lo hi → lo ≤ address → address ≤ hi → 1 ≤ size →
      address + size - 1 < 2 ^ 64 →
      ∃ r, insert canDerive t address size typeId newAttr oldAttr = some r ∧
        Covers r.tree lo hi ∧
        (r.result = true → ∃ pre it post pieces, t = pre ++ it :: post ∧ it.Contains address ∧
          r.tree = pre ++ pieces ++ post ∧
          pieces.length = 1 + (if it.address = address then 0 else 1) +
            (if address + size = it.address + it.size then 0 else 1) ∧
          (∀ p ∈ pieces, 0 < p.size) ∧ r.drawn + 1 = pieces.length ∧ r.drawn ≤ 2)) ∧
    (∀ (t : List KMemoryBlock) (lo hi : Nat) (qs : List InsertRequest),
      Covers t lo hi → (∀ q ∈ qs, q.InRange lo hi) →
      ∃ t', runInserts canDerive t qs = some t' ∧ Covers t' lo hi) :=
  ⟨fun _ _ _ _ _ _ _ _ hcov hlo hhi hsize hwrap =>
      insert_covers canDerive _ _ _ hcov hlo hhi hsize hwrap,
    fun _ _ _ _ hcov hqs => runInserts_covers canDerive hcov hqs⟩

end KMemoryBlockTree

end Ams.Kern
