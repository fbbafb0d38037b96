import Atmosphere.Kern.MemoryBlockTree

/-!
# What `Insert` does to each address

`classify t x` reads a tree as a map on addresses: the type and attributes of the block
that contains `x`, and the address that `x` corresponds to in the other space.  In
this reading a successful `Insert(address, size, type_id, new_attr, old_attr)` is a
point update of `[address, address + size)`: those addresses take the new type and
attributes and keep their counterparts, and every other address keeps its class.  The
before and after remainders, and the pair addresses `Insert` computes for the pieces,
are what make the second half true.
-/

namespace Ams.Kern

open KMemoryBlock

/-- What a tree says about one address. -/
structure AddressClass where
  typeId : Nat
  attributes : Nat
  /-- The corresponding address in the other space, `none` for a block without a pair. -/
  pairImage : Option Nat
  deriving Repr, DecidableEq

namespace KMemoryBlock

/-- The counterpart of `x` through `b`: `b`'s pair address shifted by `x`'s offset. -/
def pairImage (b : KMemoryBlock) (x : Nat) : Option Nat :=
  if b.pairAddress = uintptrMax then none else some (b.pairAddress + (x - b.address))

/-- The class `b` gives to an address it contains. -/
def classOf (b : KMemoryBlock) (x : Nat) : AddressClass :=
  ⟨b.typeId, b.attributes, b.pairImage x⟩

end KMemoryBlock

namespace KMemoryBlockTree

/-- The class of `x`: that of the first block containing it. -/
def classify (t : List KMemoryBlock) (x : Nat) : Option AddressClass :=
  (t.find? fun b => b.Contains x).map fun b => b.classOf x

/-- A part of `it` that starts `k` bytes into it and carries the pair address
`pairAt it k` maps each of its addresses to the counterpart `it` gave it. -/
theorem pairImage_part {it b : KMemoryBlock} {k x : Nat}
    (hpair : it.pairAddress = uintptrMax ∨ it.pairAddress + it.size ≤ uintptrMax)
    (hb : b.address = it.address + k) (hbp : b.pairAddress = pairAt it k) (hk : k < it.size)
    (hx : b.address ≤ x) :
    b.pairImage x = it.pairImage x := by
  unfold pairImage
  rw [hbp, hb]
  unfold pairAt
  rcases hpair with h | h
  · simp [h]
  · have hne : it.pairAddress ≠ uintptrMax := by unfold uintptrMax at *; omega
    have hsum : addU64 it.pairAddress k = it.pairAddress + k := by
      unfold uintptrMax at h; exact addU64_of_lt (by omega)
    have hne' : it.pairAddress + k ≠ uintptrMax := by unfold uintptrMax at *; omega
    simp only [ne_eq, hne, not_false_eq_true, if_true, hsum, hne', if_false, Option.some.injEq]
    omega

section Split

variable {it b : KMemoryBlock} {address size typeId newAttr x : Nat}
  (hs : 0 < it.size) (he : it.address + it.size ≤ 2 ^ 64) (hlo : it.address ≤ address)
  (hsize : 0 < size) (hhi : address + size ≤ it.address + it.size)
  (hpair : it.pairAddress = uintptrMax ∨ it.pairAddress + it.size ≤ uintptrMax)
include hs he hlo hsize hhi hpair

/-- Each piece of a split gives an address it holds the class `Insert` promises: the new
type and attributes inside the inserted range, the old ones outside it, and in both
the counterpart the address had in `it`. -/
theorem classOf_of_mem_splitBlock
    (hb : b ∈ splitBlock it address size typeId newAttr it.attributes)
    (hx : b.address ≤ x ∧ x < b.address + b.size) :
    b.classOf x = if address ≤ x ∧ x < address + size then ⟨typeId, newAttr, it.pairImage x⟩
      else it.classOf x := by
  rw [splitBlock_eq hs he hlo hsize hhi] at hb
  simp only [List.mem_append, List.mem_cons, List.mem_ite_nil_left, List.not_mem_nil, or_false]
    at hb
  rcases hb with ⟨-, rfl⟩ | rfl | ⟨-, rfl⟩
  · -- the part before the inserted range keeps the block's class
    simp only at hx
    rw [if_neg (by omega)]
    rfl
  · simp only at hx
    rw [if_pos hx]
    simp only [classOf, AddressClass.mk.injEq, true_and]
    exact pairImage_part hpair (by simp only; omega) rfl (by omega) hx.1
  · -- the part after it keeps the class too, with its pair shifted along
    simp only at hx
    rw [if_neg (by omega)]
    simp only [classOf, AddressClass.mk.injEq, true_and]
    exact pairImage_part hpair (by simp only; omega) rfl (by omega) hx.1

end Split

variable (canDerive : Nat → Nat → Bool)

/-- `Insert` as a point update: on a tiled tree, a successful call with a positive,
non-wrapping size whose containing block has no pair or a pair range that neither wraps
nor reaches the sentinel gives every address of `[address, address + size)` the new
type and attributes with its old counterpart, and leaves the class of every other
address as it was. -/
theorem insert_classify {t : List KMemoryBlock} {lo hi address size typeId newAttr oldAttr : Nat}
    {r : InsertResult} (hcov : Covers t lo hi) (hsize : 1 ≤ size)
    (hwrap : address + size - 1 < 2 ^ 64)
    (hr : insert canDerive t address size typeId newAttr oldAttr = some r)
    (hok : r.result = true)
    (hpair : ∀ b ∈ t, b.Contains address →
      b.pairAddress = uintptrMax ∨ b.pairAddress + b.size ≤ uintptrMax) :
    (∀ x, address ≤ x → x < address + size →
      ∃ c, classify t x = some c ∧ classify r.tree x = some ⟨typeId, newAttr, c.pairImage⟩) ∧
    (∀ x, ¬ (address ≤ x ∧ x < address + size) → classify r.tree x = classify t x) := by
  obtain ⟨pre, it, post, hf, hacc, htree, -⟩ := insert_eq_some canDerive hr
  obtain ⟨rfl, hit, -⟩ := findContainingBlock_spec hf
  obtain ⟨rfl, hlast, -⟩ := hacc.mp hok
  rw [htree hok]
  obtain ⟨hpre, hs, hpost⟩ := tiles_around.mp hcov.1
  have he : it.address + it.size ≤ 2 ^ 64 := by have := hpost.le; have := hcov.2; omega
  have hin := (contains_iff hs he).mp hit
  have hhi : address + size ≤ it.address + it.size := by
    rw [lastAddress_eq hs he, insertedBlockLast_eq hsize (by omega : address + size ≤ 2 ^ 64)]
      at hlast
    omega
  have hpit := hpair it (List.mem_append_right _ (List.mem_cons_self _ _)) hit
  have hsplit : Tiles it.address (splitBlock it address size typeId newAttr it.attributes)
      (it.address + it.size) := splitBlock_tiles hs he hin.1 hsize hhi
  -- An address of `it` was classed by `it`, and is now classed by its piece.
  have hinside : ∀ x, it.address ≤ x → x < it.address + it.size →
      classify (pre ++ it :: post) x = some (it.classOf x) ∧
      classify (pre ++ splitBlock it address size typeId newAttr it.attributes ++ post) x =
        some (if address ≤ x ∧ x < address + size then ⟨typeId, newAttr, it.pairImage x⟩
          else it.classOf x) := by
    intro x hx1 hx2
    have hnone := hpre.find?_eq_none (by omega) (Or.inr hx1)
    obtain ⟨b, hb, hfb, hbx⟩ := hsplit.find?_eq_some he hx1 hx2
    have hitx : it.Contains x := (contains_iff hs he).mpr ⟨hx1, hx2⟩
    refine ⟨by simp [classify, hnone, hitx], ?_⟩
    simp only [classify, List.append_assoc, List.find?_append, hnone, hfb, Option.none_or,
      Option.or_some, Option.map_some']
    rw [classOf_of_mem_splitBlock hs he hin.1 hsize hhi hpit hb hbx]
  refine ⟨fun x hx1 hx2 => ?_, fun x hx => ?_⟩
  · obtain ⟨h1, h2⟩ := hinside x (by omega) (by omega)
    exact ⟨_, h1, by rw [h2, if_pos ⟨hx1, hx2⟩]; rfl⟩
  · by_cases hxit : it.address ≤ x ∧ x < it.address + it.size
    · obtain ⟨h1, h2⟩ := hinside x hxit.1 hxit.2
      rw [h1, h2, if_neg hx]
    · have hnone : (splitBlock it address size typeId newAttr it.attributes).find?
          (fun b => b.Contains x) = none := hsplit.find?_eq_none he (by omega)
      have hitx : ¬ it.Contains x := by rw [contains_iff hs he]; exact hxit
      simp [classify, List.find?_append, hnone, hitx]

/-- `insert_classify` on a block with a pair, split in three. -/
theorem insert_classify_three_pieces :
    (∀ x, 0x100 ≤ x → x < 0x100 + 0x200 →
      ∃ c, classify [⟨0, 0x1000, 0x8000, 0, 1⟩] x = some c ∧
        classify [⟨0, 0x100, 0x8000, 0, 1⟩, ⟨0x100, 0x200, 0x8100, 1, 2⟩,
          ⟨0x300, 0xD00, 0x8300, 0, 1⟩] x = some ⟨2, 1, c.pairImage⟩) ∧
    (∀ x, ¬ (0x100 ≤ x ∧ x < 0x100 + 0x200) →
      classify [⟨0, 0x100, 0x8000, 0, 1⟩, ⟨0x100, 0x200, 0x8100, 1, 2⟩,
          ⟨0x300, 0xD00, 0x8300, 0, 1⟩] x = classify [⟨0, 0x1000, 0x8000, 0, 1⟩] x) :=
  insert_classify (fun _ _ => true) (by decide : Covers [⟨0, 0x1000, 0x8000, 0, 1⟩] 0 0xFFF)
    (by decide) (by decide)
    (by decide : insert (fun _ _ => true) [⟨0, 0x1000, 0x8000, 0, 1⟩] 0x100 0x200 2 1 0 =
      some ⟨true, [⟨0, 0x100, 0x8000, 0, 1⟩, ⟨0x100, 0x200, 0x8100, 1, 2⟩,
        ⟨0x300, 0xD00, 0x8300, 0, 1⟩], 2⟩)
    rfl (by decide)

end KMemoryBlockTree

end Ams.Kern
