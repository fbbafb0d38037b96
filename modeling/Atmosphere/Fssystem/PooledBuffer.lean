import Atmosphere.Util.Alignment

/-!
# `fssystem::PooledBuffer`

A pooled buffer is a block of the global buddy heap, whose blocks are 4 KB times a power
of two.  `AllocateCore` asks the heap for a block no larger than half of what it can give,
retrying until other threads have freed enough, and trims what it gets with `Shrink`.
`Shrink` gives the tail of the buffer back to the heap in power-of-two chunks, each no
larger than the lowest set bit of the current size, until the buffer has the size asked
for: since every chunk divides the size it is cut from, each one starts at a multiple of
its own size, as the buddy heap requires.

`FileSystemBuddyHeap` is declared outside the sources: the model takes it as a record of
the members the buffer calls, and the states the retry loop finds the heap in, after
whatever other threads did, are an input.  The loop's metrics are returned as counts.
-/

namespace Ams.Fssystem

open Ams.Util

/-- `HeapBlockSize`: `BufferPoolAlignment`, 4 KB. -/
def heapBlockSize : Nat := 0x1000

/-- `HeapOrderTrim`. -/
def heapOrderTrim : Nat := 3

/-- `HeapOrderMax`. -/
def heapOrderMax : Nat := 7

/-- `HeapOrderMaxForLarge`. -/
def heapOrderMaxForLarge : Nat := heapOrderMax + 3

/-- `HeapAllocatableSizeTrim`: 32 KB. -/
def heapAllocatableSizeTrim : Nat := heapBlockSize * 2 ^ heapOrderTrim

/-- `HeapAllocatableSizeMax`: 512 KB. -/
def heapAllocatableSizeMax : Nat := heapBlockSize * 2 ^ heapOrderMax

/-- `HeapAllocatableSizeMaxForLarge`: 4 MB. -/
def heapAllocatableSizeMaxForLarge : Nat := heapBlockSize * 2 ^ heapOrderMaxForLarge

/-- `PooledBuffer::GetAllocatableSizeMaxCore(large)`. -/
def getAllocatableSizeMaxCore (large : Bool) : Nat :=
  if large then heapAllocatableSizeMaxForLarge else heapAllocatableSizeMax

/-- A `PooledBuffer`: `m_buffer`, with `0` for `nullptr`, and `m_size`. -/
structure PooledBuffer where
  buffer : Nat
  size : Nat
  deriving Repr, DecidableEq

/-- One call `g_heap.Free(address, order)` of `Shrink`, with the size `free_size` the loop
computed for it. -/
structure FreeCall where
  address : Nat
  size : Nat
  order : Nat
  deriving Repr, DecidableEq

/-- The members of `FileSystemBuddyHeap` that a pooled buffer calls, on the heap's state. -/
structure BuddyHeap (σ : Type) where
  getAllocatableSizeMax : σ → Nat
  getOrderFromBytes : Nat → Nat
  getBytesFromOrder : Nat → Nat
  /-- `AllocateByOrder(order)`: the address of the block, `0` for `nullptr`. -/
  allocateByOrder : σ → Nat → Nat

section

variable {σ : Type} (heap : BuddyHeap σ)

/-- The size `Shrink` frees from the tail of a buffer of `size` bytes on its way down to
`newSize`: the floor power of two of what is left to free, capped by the tail's
alignment. -/
def shrinkFreeSize (newSize size : Nat) : Nat :=
  min (floorPowerOfTwo (size - newSize)) (leastSignificantOneBit size)

/-- The loop of `Shrink` (lines 175–188) on the buffer at `buffer`, from `m_size = size`
down to `newSize`, for at most `fuel` iterations: its `Free` calls and the final `m_size`. -/
def shrinkLoop (buffer newSize : Nat) : Nat → Nat → List FreeCall × Nat
  | 0, size => ([], size)
  | fuel + 1, size =>
    if newSize < size then
      let freeSize := shrinkFreeSize newSize size
      let rest := shrinkLoop buffer newSize fuel (size - freeSize)
      (⟨buffer + size - freeSize, freeSize, heap.getOrderFromBytes freeSize⟩ :: rest.1, rest.2)
    else ([], size)

/-- `PooledBuffer::Shrink(ideal_size)`: the `Free` calls and the buffer after them.  Every
iteration frees at least one byte, so `m_size` iterations are enough
(`shrinkLoop_spec`). -/
def shrink (b : PooledBuffer) (idealSize : Nat) : List FreeCall × PooledBuffer :=
  if b.size > idealSize then
    let r := shrinkLoop heap b.buffer (alignUp idealSize heapBlockSize) b.size b.size
    (r.1, ⟨if r.2 = 0 then 0 else b.buffer, r.2⟩)
  else ([], b)

/-- What the retry loop may take from the heap in state `s` (lines 115–118): what the heap
can give, halved when that is more than one block, so that no more than half the heap is
taken. -/
def allocatableSize (s : σ) : Nat :=
  let allocatableSize := heap.getAllocatableSizeMax s
  if allocatableSize > heapBlockSize then allocatableSize / 2 else allocatableSize

/-- One iteration of the retry loop of `AllocateCore` under `g_heap_mutex` (lines 111–128),
on the heap in state `s`: `m_buffer` and `m_size` after it.  `m_size` is set even when
`AllocateByOrder` returns `nullptr`. -/
def tryAllocate (requiredSize targetSize : Nat) (b : PooledBuffer) (s : σ) : PooledBuffer :=
  if allocatableSize heap s ≥ requiredSize then
    let order := heap.getOrderFromBytes (min targetSize (allocatableSize heap s))
    ⟨heap.allocateByOrder s order, heap.getBytesFromOrder order⟩
  else b

/-- The retry loop of `AllocateCore`, on the heap states `heaps` its iterations find: the
buffer it allocates and the number of retries; `none` while it is still retrying. -/
def allocateLoop (requiredSize targetSize : Nat) :
    PooledBuffer → List σ → Option (PooledBuffer × Nat)
  | _, [] => none
  | b, s :: ss =>
    let b := tryAllocate heap requiredSize targetSize b s
    if b.buffer ≠ 0 then some (b, 0)
    else (allocateLoop requiredSize targetSize b ss).map fun r => (r.1, r.2 + 1)

/-- `PooledBuffer::AllocateCore(ideal_size, required_size, large)` on a buffer without a
block: the buffer, the `Free` calls of the trim, the retries (what `g_retry_count` gains)
and whether the allocation came out reduced (what `g_reduce_allocation_count` gains);
`none` while it is still retrying. -/
def allocateCore (b : PooledBuffer) (idealSize requiredSize : Nat) (large : Bool)
    (heaps : List σ) : Option (PooledBuffer × List FreeCall × Nat × Bool) :=
  let targetSize := min (max idealSize requiredSize) (getAllocatableSizeMaxCore large)
  match allocateLoop heap requiredSize targetSize b heaps with
  | none => none
  | some (b, retries) =>
    let trimmed :=
      if b.size ≥ targetSize + heapAllocatableSizeTrim then
        shrink heap b (alignUp targetSize heapAllocatableSizeTrim)
      else ([], b)
    some (trimmed.2, trimmed.1, retries, trimmed.2.size < min targetSize heapAllocatableSizeMax)

/-! ## The loop of `Shrink` -/

/-- The calls free `[newSize, size)` of the buffer at `buffer` in non-empty chunks, each
ending where the one before it starts. -/
def FreesDown (buffer newSize : Nat) : Nat → List FreeCall → Prop
  | size, [] => size = newSize
  | size, c :: cs => 0 < c.size ∧ c.size ≤ size - newSize ∧
      c.address = buffer + size - c.size ∧ FreesDown buffer newSize (size - c.size) cs

/-- One iteration of the loop, on sizes that are multiples of a heap block: it frees a
power of two that is a multiple of a heap block, divides the current size, and does not
go below `newSize`. -/
theorem shrinkFreeSize_spec {newSize size : Nat} (hlt : newSize < size) (hsize : size < 2 ^ 64)
    (hs : heapBlockSize ∣ size) (hn : heapBlockSize ∣ newSize) :
    (∃ k, shrinkFreeSize newSize size = 2 ^ k) ∧
      heapBlockSize ∣ shrinkFreeSize newSize size ∧ shrinkFreeSize newSize size ∣ size ∧
      shrinkFreeSize newSize size ≤ size - newSize := by
  have hblock : heapBlockSize = 2 ^ 12 := rfl
  have hd : 2 ^ 12 ∣ size - newSize := hblock ▸ Nat.dvd_sub' hs hn
  obtain ⟨i, hi, hile, hilt⟩ :=
    highestOneBit_spec (by omega : 0 < size - newSize) (by omega : size - newSize < 2 ^ 64)
  obtain ⟨j, hj, hjdvd, hjndvd⟩ := lowestOneBit_spec (by omega : 0 < size) hsize
  -- the floor power of two and the tail's alignment are both at least a heap block
  have hi12 : 12 ≤ i := by
    by_contra h
    have := Nat.pow_le_pow_right Nat.two_pos (by omega : i + 1 ≤ 12)
    have := Nat.le_of_dvd (by omega) hd
    omega
  have hj12 : 12 ≤ j := by
    by_contra h
    exact hjndvd (Nat.dvd_trans (Nat.pow_dvd_pow 2 (by omega : j + 1 ≤ 12)) (hblock ▸ hs))
  have hmin : shrinkFreeSize newSize size = 2 ^ min i j := by
    unfold shrinkFreeSize floorPowerOfTwo leastSignificantOneBit
    rw [hi, hj]
    rcases Nat.le_total i j with h | h
    · rw [Nat.min_eq_left h, Nat.min_eq_left (Nat.pow_le_pow_right Nat.two_pos h)]
    · rw [Nat.min_eq_right h, Nat.min_eq_right (Nat.pow_le_pow_right Nat.two_pos h)]
  rw [hmin, hblock]
  refine ⟨⟨_, rfl⟩, Nat.pow_dvd_pow 2 (Nat.le_min.mpr ⟨hi12, hj12⟩),
    Nat.dvd_trans (Nat.pow_dvd_pow 2 (Nat.min_le_right i j)) hjdvd, ?_⟩
  calc 2 ^ min i j ≤ 2 ^ i := Nat.pow_le_pow_right Nat.two_pos (Nat.min_le_left i j)
    _ ≤ size - newSize := hile

/-- The whole loop, from a size that is a multiple of a heap block down to one that is:
with enough fuel it ends exactly at `newSize`, having freed `[newSize, size)` from the top
down in chunks that are powers of two, multiples of a heap block, and aligned to their own
size within the buffer. -/
theorem shrinkLoop_spec {buffer newSize : Nat} (hn : heapBlockSize ∣ newSize) :
    ∀ {fuel size : Nat}, newSize ≤ size → size < 2 ^ 64 → heapBlockSize ∣ size →
      size - newSize ≤ fuel →
      (shrinkLoop heap buffer newSize fuel size).2 = newSize ∧
        FreesDown buffer newSize size (shrinkLoop heap buffer newSize fuel size).1 ∧
        ∀ c ∈ (shrinkLoop heap buffer newSize fuel size).1,
          (∃ k, c.size = 2 ^ k) ∧ heapBlockSize ∣ c.size ∧ c.size ∣ c.address - buffer
  | 0, size, hle, _, _, hfuel => by
    obtain rfl : size = newSize := by omega
    exact ⟨rfl, rfl, fun c hc => absurd hc (List.not_mem_nil c)⟩
  | fuel + 1, size, hle, hsize, hs, hfuel => by
    by_cases hlt : newSize < size
    · obtain ⟨⟨k, hk⟩, hfblock, hfdvd, hfle⟩ := shrinkFreeSize_spec hlt hsize hs hn
      have hpos : 0 < shrinkFreeSize newSize size := hk ▸ Nat.two_pow_pos k
      obtain ⟨hfinal, hfrees, hcalls⟩ := shrinkLoop_spec hn (by omega : newSize ≤ size - _)
        (by omega) (Nat.dvd_sub' hs hfblock)
        (by omega : size - shrinkFreeSize newSize size - newSize ≤ fuel)
      simp only [shrinkLoop, if_pos hlt, List.mem_cons, forall_eq_or_imp]
      refine ⟨hfinal, ⟨hpos, hfle, rfl, hfrees⟩, ⟨⟨k, hk⟩, hfblock, ?_⟩, hcalls⟩
      rw [Nat.add_sub_assoc (Nat.le_of_dvd (by omega) hfdvd), Nat.add_sub_cancel_left]
      exact Nat.dvd_sub' hfdvd (Nat.dvd_refl _)
    · obtain rfl : size = newSize := by omega
      rw [shrinkLoop, if_neg hlt]
      exact ⟨rfl, rfl, fun c hc => absurd hc (List.not_mem_nil c)⟩

/-- Each `Free` call of the loop passes the order the heap gives for its size. -/
theorem shrinkLoop_order {buffer newSize : Nat} :
    ∀ {fuel size : Nat}, ∀ c ∈ (shrinkLoop heap buffer newSize fuel size).1,
      c.order = heap.getOrderFromBytes c.size
  | 0, _, c, hc => absurd hc (List.not_mem_nil c)
  | fuel + 1, size, c, hc => by
    unfold shrinkLoop at hc
    split_ifs at hc
    · rcases List.mem_cons.mp hc with rfl | hc
      · rfl
      · exact shrinkLoop_order c hc
    · exact absurd hc (List.not_mem_nil c)

/-- Shrinking a 28 KB buffer at `0x10000` to 4 KB frees, from the top down, 4 KB, 8 KB,
8 KB and 4 KB, each at an offset that is a multiple of its size. -/
example : (shrink (⟨fun _ => 0, fun _ => 0, fun _ => 0, fun _ _ => 0⟩ : BuddyHeap Unit)
    ⟨0x10000, 0x7000⟩ 0x1000).1.map (fun c => (c.address, c.size)) =
      [(0x16000, 0x1000), (0x14000, 0x2000), (0x12000, 0x2000), (0x11000, 0x1000)] := by
  decide

/-- `Shrink` keeps the buffer's address unless it shrinks it to nothing. -/
theorem shrink_buffer (b : PooledBuffer) (idealSize : Nat) :
    (shrink heap b idealSize).2.buffer = b.buffer ∨ (shrink heap b idealSize).2.buffer = 0 := by
  unfold shrink
  split_ifs
  · dsimp only
    split_ifs
    · exact .inr rfl
    · exact .inl rfl
  · exact .inl rfl

/-! ## What `Shrink` frees -/

section Frees

variable {buffer newSize : Nat}

/-- A run that frees down to `newSize` starts at or above it, and each of its chunks lies in
`[buffer + newSize, buffer + size)`. -/
theorem FreesDown.bounds :
    ∀ {size : Nat} {cs : List FreeCall}, FreesDown buffer newSize size cs →
      newSize ≤ size ∧
        ∀ c ∈ cs, buffer + newSize ≤ c.address ∧ c.address + c.size ≤ buffer + size
  | _, [], h => ⟨Nat.le_of_eq h.symm, fun _ hc => absurd hc (List.not_mem_nil _)⟩
  | _, _ :: _, ⟨_, hle, haddr, hcs⟩ => by
    obtain ⟨hn, hin⟩ := FreesDown.bounds hcs
    refine ⟨by omega, ?_⟩
    simp only [List.mem_cons, forall_eq_or_imp]
    exact ⟨by omega, fun d hd => by have := hin d hd; omega⟩

/-- The chunks are disjoint, each below the one freed before it. -/
theorem FreesDown.pairwise :
    ∀ {size : Nat} {cs : List FreeCall}, FreesDown buffer newSize size cs →
      cs.Pairwise fun c d => d.address + d.size ≤ c.address
  | _, [], _ => List.Pairwise.nil
  | _, _ :: _, ⟨_, hle, haddr, hcs⟩ =>
    List.Pairwise.cons (fun d hd => by have := (FreesDown.bounds hcs).2 d hd; omega)
      (FreesDown.pairwise hcs)

/-- Together the chunks are exactly `[buffer + newSize, buffer + size)`. -/
theorem FreesDown.covers {x : Nat} :
    ∀ {size : Nat} {cs : List FreeCall}, FreesDown buffer newSize size cs →
      ((∃ c ∈ cs, c.address ≤ x ∧ x < c.address + c.size) ↔
        buffer + newSize ≤ x ∧ x < buffer + size)
  | size, [], h => by
    have h : size = newSize := h
    simp only [List.not_mem_nil, false_and, exists_false, false_iff]
    omega
  | _, _ :: _, ⟨_, hle, haddr, hcs⟩ => by
    have := (FreesDown.bounds hcs).1
    simp only [List.mem_cons, exists_eq_or_imp, FreesDown.covers hcs]
    omega

end Frees

/-- `Shrink` of a buffer whose size is a multiple of a heap block, to an ideal size below
that size: the loop ends at `AlignUp(ideal_size, HeapBlockSize)`, having freed the tail down
to it in chunks that are powers of two, multiples of a heap block and aligned to their own
size, and the buffer is dropped exactly when nothing is left. -/
theorem shrink_spec {b : PooledBuffer} {idealSize : Nat} (hblock : heapBlockSize ∣ b.size)
    (hsize : b.size < 2 ^ 64) (hlt : idealSize < b.size) :
    let r := shrink heap b idealSize
    r.2.size = alignUp idealSize heapBlockSize ∧ alignUp idealSize heapBlockSize ≤ b.size ∧
      r.2.buffer = (if r.2.size = 0 then 0 else b.buffer) ∧
      FreesDown b.buffer r.2.size b.size r.1 ∧
      ∀ c ∈ r.1, (∃ k, c.size = 2 ^ k) ∧ heapBlockSize ∣ c.size ∧
        c.size ∣ c.address - b.buffer := by
  have hblock' : 4096 ∣ b.size := hblock
  obtain ⟨hmod, hge, hlt'⟩ := alignUp_spec (by decide : 0 < heapBlockSize)
    (by unfold heapBlockSize; omega : idealSize + heapBlockSize ≤ 2 ^ 64)
  have hle : alignUp idealSize heapBlockSize ≤ b.size := by unfold heapBlockSize at *; omega
  obtain ⟨hfinal, hfrees, hcalls⟩ := @shrinkLoop_spec σ heap b.buffer _
    (Nat.dvd_of_mod_eq_zero hmod) b.size b.size hle hsize hblock (Nat.sub_le _ _)
  unfold shrink
  rw [if_pos (show b.size > idealSize from hlt)]
  dsimp only
  rw [hfinal]
  exact ⟨rfl, hle, rfl, hfrees, hcalls⟩

/-! ## `Shrink` twice -/

/-- `Shrink` to an ideal size at or above the buffer's size changes nothing. -/
theorem shrink_of_le {b : PooledBuffer} {idealSize : Nat} (h : b.size ≤ idealSize) :
    shrink heap b idealSize = ([], b) :=
  if_neg (Nat.not_lt.mpr h)

section Shrunk

variable {b : PooledBuffer} {idealSize : Nat} (hblock : heapBlockSize ∣ b.size)
  (hsize : b.size < 2 ^ 64) (hlt : idealSize < b.size)
include hblock hsize hlt

/-- The buffer `Shrink` leaves: `AlignUp(ideal_size, HeapBlockSize)` bytes at the same
address, or nothing. -/
theorem shrink_snd :
    (shrink heap b idealSize).2 = ⟨if alignUp idealSize heapBlockSize = 0 then 0 else b.buffer,
      alignUp idealSize heapBlockSize⟩ := by
  obtain ⟨hfinal, -, hbuffer, -⟩ := shrink_spec heap hblock hsize hlt
  rw [hfinal] at hbuffer
  rw [← hbuffer, ← hfinal]

/-- The bytes `Shrink` frees: the tail above `AlignUp(ideal_size, HeapBlockSize)`. -/
theorem shrink_covers (x : Nat) :
    (∃ d ∈ (shrink heap b idealSize).1, d.address ≤ x ∧ x < d.address + d.size) ↔
      b.buffer + alignUp idealSize heapBlockSize ≤ x ∧ x < b.buffer + b.size := by
  obtain ⟨hfinal, -, -, hfrees, -⟩ := shrink_spec heap hblock hsize hlt
  rw [← hfinal]
  exact hfrees.covers

end Shrunk

/-- Below the top of the address space, aligning up to a heap block commutes with `min`. -/
theorem alignUp_min {a c : Nat} (ha : a + heapBlockSize ≤ 2 ^ 64)
    (hc : c + heapBlockSize ≤ 2 ^ 64) :
    alignUp (min a c) heapBlockSize = min (alignUp a heapBlockSize) (alignUp c heapBlockSize) := by
  have hA := alignUp_spec (by decide : 0 < heapBlockSize) ha
  have hC := alignUp_spec (by decide : 0 < heapBlockSize) hc
  have hM := alignUp_spec (by decide : 0 < heapBlockSize)
    (by omega : min a c + heapBlockSize ≤ 2 ^ 64)
  unfold heapBlockSize at *
  omega

/-- Shrinking a buffer whose size is a multiple of a heap block to `a` and then to `c` leaves
the buffer that shrinking it once to `min a c` leaves, and the two shrinks free together
exactly the bytes that the one frees. -/
theorem shrink_shrink {b : PooledBuffer} (a c : Nat) (hblock : heapBlockSize ∣ b.size)
    (hsize : b.size < 2 ^ 64) :
    (shrink heap (shrink heap b a).2 c).2 = (shrink heap b (min a c)).2 ∧
      ∀ x, (∃ d ∈ (shrink heap b a).1 ++ (shrink heap (shrink heap b a).2 c).1,
          d.address ≤ x ∧ x < d.address + d.size) ↔
        ∃ d ∈ (shrink heap b (min a c)).1, d.address ≤ x ∧ x < d.address + d.size := by
  by_cases ha : b.size ≤ a
  · -- the first shrink does nothing
    rw [shrink_of_le heap ha, List.nil_append]
    by_cases hc : b.size ≤ c
    · rw [shrink_of_le heap hc, shrink_of_le heap (le_min ha hc)]
      exact ⟨rfl, fun _ => Iff.rfl⟩
    · rw [min_eq_right (by omega)]
      exact ⟨rfl, fun _ => Iff.rfl⟩
  have ha : a < b.size := Nat.lt_of_not_le ha
  have hroom : b.size + heapBlockSize ≤ 2 ^ 64 := by unfold heapBlockSize at *; omega
  obtain ⟨hAmod, hAge, -⟩ := alignUp_spec (by decide : 0 < heapBlockSize)
    (by omega : a + heapBlockSize ≤ 2 ^ 64)
  obtain ⟨hAsize, hAle, -⟩ := shrink_spec heap hblock hsize ha
  by_cases hc : alignUp a heapBlockSize ≤ c
  · -- the second shrink does nothing, and `a` is the smaller ideal size
    rw [shrink_of_le heap (hAsize.symm ▸ hc : (shrink heap b a).2.size ≤ c),
      min_eq_left (by omega), List.append_nil]
    exact ⟨rfl, fun _ => Iff.rfl⟩
  -- both shrinks leave something, at `b.buffer`, and the second ends below the first
  have hc : c < alignUp a heapBlockSize := Nat.lt_of_not_le hc
  let b₁ : PooledBuffer := ⟨b.buffer, alignUp a heapBlockSize⟩
  have hb₁ : (shrink heap b a).2 = b₁ := by
    rw [shrink_snd heap hblock hsize ha, if_neg (by omega)]
  have hCA : alignUp c heapBlockSize ≤ alignUp a heapBlockSize := by
    have hC := alignUp_spec (by decide : 0 < heapBlockSize)
      (by omega : c + heapBlockSize ≤ 2 ^ 64)
    unfold heapBlockSize at *
    omega
  have hmin : alignUp (min a c) heapBlockSize = alignUp c heapBlockSize := by
    rw [alignUp_min (by omega) (by omega), min_eq_right hCA]
  have hblock₁ : heapBlockSize ∣ b₁.size := Nat.dvd_of_mod_eq_zero hAmod
  have hsize₁ : b₁.size < 2 ^ 64 := by dsimp only [b₁]; omega
  have hlt : min a c < b.size := by omega
  rw [hb₁]
  refine ⟨?_, fun x => ?_⟩
  · rw [shrink_snd heap hblock₁ hsize₁ hc, shrink_snd heap hblock hsize hlt, hmin]
  · simp only [List.mem_append, or_and_right, exists_or]
    rw [shrink_covers heap hblock hsize ha, shrink_covers heap hblock₁ hsize₁ hc,
      shrink_covers heap hblock hsize hlt, hmin]
    dsimp only [b₁]
    omega

/-- `shrink_shrink` on a 28 KB buffer at `0x10000` shrunk to 20 KB and then to 4 KB. -/
theorem shrink_shrink_seven_blocks :
    let heap : BuddyHeap Unit := ⟨fun _ => 0, fun _ => 0, fun _ => 0, fun _ _ => 0⟩
    let b : PooledBuffer := ⟨0x10000, 0x7000⟩
    (heapBlockSize ∣ b.size ∧ b.size < 2 ^ 64) ∧
      (shrink heap (shrink heap b 0x5000).2 0x1000).2 = (shrink heap b (min 0x5000 0x1000)).2 ∧
      ∀ x, (∃ d ∈ (shrink heap b 0x5000).1 ++ (shrink heap (shrink heap b 0x5000).2 0x1000).1,
          d.address ≤ x ∧ x < d.address + d.size) ↔
        ∃ d ∈ (shrink heap b (min 0x5000 0x1000)).1, d.address ≤ x ∧ x < d.address + d.size :=
  ⟨by decide, shrink_shrink ⟨fun _ => 0, fun _ => 0, fun _ => 0, fun _ _ => 0⟩ 0x5000 0x1000
    (by decide) (by decide)⟩

/-! ## The retry loop of `AllocateCore` -/

section Retry

variable {requiredSize targetSize : Nat}

/-- An iteration that starts without a buffer and ends with one could take at least
`requiredSize`, and took a block of the order for `min targetSize (allocatableSize heap s)`. -/
theorem tryAllocate_of_null {b : PooledBuffer} {s : σ} (hb : b.buffer = 0)
    (hne : (tryAllocate heap requiredSize targetSize b s).buffer ≠ 0) :
    requiredSize ≤ allocatableSize heap s ∧
      let order := heap.getOrderFromBytes (min targetSize (allocatableSize heap s))
      tryAllocate heap requiredSize targetSize b s =
        ⟨heap.allocateByOrder s order, heap.getBytesFromOrder order⟩ := by
  unfold tryAllocate at hne ⊢
  split_ifs at hne ⊢ with h
  · exact ⟨h, rfl⟩
  · exact absurd hb hne

/-- The retry loop, started without a buffer, returns after `n` retries with the block the
heap gave in the `n`-th state it found. -/
theorem allocateLoop_some :
    ∀ {b b' : PooledBuffer} {heaps : List σ} {n : Nat}, b.buffer = 0 →
      allocateLoop heap requiredSize targetSize b heaps = some (b', n) →
      b'.buffer ≠ 0 ∧ ∃ s, heaps[n]? = some s ∧ requiredSize ≤ allocatableSize heap s ∧
        let order := heap.getOrderFromBytes (min targetSize (allocatableSize heap s))
        b' = ⟨heap.allocateByOrder s order, heap.getBytesFromOrder order⟩
  | _, _, [], _, _, h => nomatch h
  | b, b', s :: ss, n, hb, h => by
    simp only [allocateLoop] at h
    by_cases hne : (tryAllocate heap requiredSize targetSize b s).buffer ≠ 0
    · rw [if_pos hne] at h
      obtain ⟨rfl, rfl⟩ := Prod.mk.inj (Option.some.inj h)
      exact ⟨hne, s, List.getElem?_cons_zero, tryAllocate_of_null heap hb hne⟩
    · rw [if_neg hne] at h
      obtain ⟨⟨b'', r⟩, hr, heq⟩ := Option.map_eq_some'.mp h
      obtain ⟨rfl, rfl⟩ := Prod.mk.inj heq
      obtain ⟨hne', s', hs', hrest⟩ := allocateLoop_some (not_not.mp hne) hr
      exact ⟨hne', s', by rw [List.getElem?_cons_succ]; exact hs', hrest⟩

/-- A buffer that `AllocateCore` returns on a buffer without a block, if not null, is a
block the heap gave in one of the states the retry loop found. -/
theorem allocateCore_buffer {b : PooledBuffer} {idealSize requiredSize : Nat} {large : Bool}
    {heaps : List σ} {r : PooledBuffer × List FreeCall × Nat × Bool} (hb : b.buffer = 0)
    (h : allocateCore heap b idealSize requiredSize large heaps = some r) (hne : r.1.buffer ≠ 0) :
    ∃ s ∈ heaps, ∃ order, r.1.buffer = heap.allocateByOrder s order := by
  dsimp only [allocateCore] at h
  split at h
  · exact nomatch h
  · rename_i b₁ n hloop
    obtain ⟨-, s, hs, -, hb₁⟩ := allocateLoop_some heap hb hloop
    obtain rfl := (Option.some.inj h).symm
    refine ⟨s, List.getElem?_mem hs, _, Eq.trans ?_ (congrArg PooledBuffer.buffer hb₁)⟩
    dsimp only at hne ⊢
    split_ifs at hne ⊢
    · exact (shrink_buffer heap _ _).resolve_right hne
    · rfl

end Retry

/-! ## The heap's orders -/

/-- What the pooled buffer relies on from `GetOrderFromBytes` and `GetBytesFromOrder`: the
block of the order for `n` bytes is the least `HeapBlockSize * 2 ^ k` that holds
`max n 1` bytes. -/
def BuddyHeap.LeastBlock : Prop :=
  ∀ n, ∃ k, heap.getBytesFromOrder (heap.getOrderFromBytes n) = heapBlockSize * 2 ^ k ∧
    max n 1 ≤ heapBlockSize * 2 ^ k ∧ ∀ j, max n 1 ≤ heapBlockSize * 2 ^ j → k ≤ j

/-- What the heap's states promise: `GetAllocatableSizeMax` is `0` or a power-of-two number
of heap blocks, and `AllocateByOrder` gives a block of any order no larger than that. -/
def BuddyHeap.Allocates : Prop :=
  (∀ s, heap.getAllocatableSizeMax s = 0 ∨
    ∃ k, heap.getAllocatableSizeMax s = heapBlockSize * 2 ^ k) ∧
  ∀ s order, heap.getBytesFromOrder order ≤ heap.getAllocatableSizeMax s →
    heap.allocateByOrder s order ≠ 0

namespace BuddyHeap.LeastBlock

variable {heap} (hleast : heap.LeastBlock)
include hleast

/-- The block for `n` bytes holds them. -/
theorem le_bytes (n : Nat) : n ≤ heap.getBytesFromOrder (heap.getOrderFromBytes n) :=
  let ⟨_, hk, hge, _⟩ := hleast n
  hk ▸ (Nat.max_le.mp hge).1

/-- The block for `n` bytes is a whole number of heap blocks. -/
theorem dvd_bytes (n : Nat) : heapBlockSize ∣ heap.getBytesFromOrder (heap.getOrderFromBytes n) :=
  let ⟨_, hk, _⟩ := hleast n
  hk ▸ Nat.dvd_mul_right _ _

/-- The block for `n` bytes is no larger than any power-of-two number of heap blocks that
holds `max n 1` bytes. -/
theorem bytes_le {n j : Nat} (h : max n 1 ≤ heapBlockSize * 2 ^ j) :
    heap.getBytesFromOrder (heap.getOrderFromBytes n) ≤ heapBlockSize * 2 ^ j :=
  let ⟨_, hk, _, hmin⟩ := hleast n
  hk ▸ Nat.mul_le_mul_left _ (Nat.pow_le_pow_right Nat.two_pos (hmin j h))

/-- A power-of-two number of heap blocks is its own block. -/
theorem bytes_eq (j : Nat) :
    heap.getBytesFromOrder (heap.getOrderFromBytes (heapBlockSize * 2 ^ j)) =
      heapBlockSize * 2 ^ j :=
  Nat.le_antisymm
    (hleast.bytes_le (Nat.max_le.mpr ⟨Nat.le_refl _, Nat.mul_pos (by decide) (Nat.two_pow_pos j)⟩))
    (hleast.le_bytes _)

end BuddyHeap.LeastBlock

/-- With the heap's orders, both assertions in the loop of `Shrink` hold: every size it
frees is aligned to a heap block, and is the size of the order it frees. -/
theorem shrink_asserts (hleast : heap.LeastBlock) {b : PooledBuffer} {idealSize : Nat}
    (hblock : heapBlockSize ∣ b.size) (hsize : b.size < 2 ^ 64) (hlt : idealSize < b.size) :
    ∀ c ∈ (shrink heap b idealSize).1,
      isAligned c.size heapBlockSize = true ∧ c.size = heap.getBytesFromOrder c.order := by
  intro c hc
  obtain ⟨⟨k, hk⟩, hdvd, -⟩ := (shrink_spec heap hblock hsize hlt).2.2.2.2 c hc
  have horder : c.order = heap.getOrderFromBytes c.size := by
    unfold shrink at hc
    rw [if_pos (show b.size > idealSize from hlt)] at hc
    exact shrinkLoop_order heap c hc
  have h12 : 12 ≤ k := (Nat.pow_dvd_pow_iff_le_right (by decide : 1 < 2)).mp (hk ▸ hdvd)
  have hblocks : c.size = heapBlockSize * 2 ^ (k - 12) := by
    rw [hk, show k = 12 + (k - 12) by omega, Nat.pow_add, Nat.add_sub_cancel_left]
    rfl
  refine ⟨by simp [isAligned, Nat.mod_eq_zero_of_dvd hdvd], ?_⟩
  rw [horder, hblocks, hleast.bytes_eq]

/-- The least order from `k` on whose block holds `n` bytes, looking at most `fuel` orders
past `k`. -/
def leastOrderFrom (n : Nat) : Nat → Nat → Nat
  | k, 0 => k
  | k, fuel + 1 => if n ≤ heapBlockSize * 2 ^ k then k else leastOrderFrom n (k + 1) fuel

/-- The least order whose block holds `max n 1` bytes. -/
def leastOrder (n : Nat) : Nat := leastOrderFrom (max n 1) 0 n

/-- The search finds an order that holds `n` when there is one within its fuel, and passes
over only orders that do not. -/
theorem leastOrderFrom_spec {n : Nat} :
    ∀ {k fuel : Nat}, (∀ j < k, heapBlockSize * 2 ^ j < n) →
      n ≤ heapBlockSize * 2 ^ (k + fuel) →
      n ≤ heapBlockSize * 2 ^ leastOrderFrom n k fuel ∧
        ∀ j < leastOrderFrom n k fuel, heapBlockSize * 2 ^ j < n
  | _, 0, hbelow, hfits => ⟨hfits, hbelow⟩
  | k, fuel + 1, hbelow, hfits => by
    unfold leastOrderFrom
    split_ifs with hk
    · exact ⟨hk, hbelow⟩
    · refine leastOrderFrom_spec (fun j hj => ?_)
        (by rwa [show k + (fuel + 1) = k + 1 + fuel by omega] at hfits)
      rcases Nat.lt_succ_iff_lt_or_eq.mp hj with hj | rfl
      · exact hbelow j hj
      · exact Nat.lt_of_not_le hk

/-- A heap whose orders are `leastOrder` and whose blocks are `HeapBlockSize * 2 ^ order`
bytes meets `BuddyHeap.LeastBlock`. -/
theorem leastBlock_of_leastOrder (getAllocatableSizeMax : σ → Nat)
    (allocateByOrder : σ → Nat → Nat) :
    (⟨getAllocatableSizeMax, leastOrder, fun order => heapBlockSize * 2 ^ order,
      allocateByOrder⟩ : BuddyHeap σ).LeastBlock := by
  intro n
  have hfits : max n 1 ≤ heapBlockSize * 2 ^ (0 + n) := by
    rw [Nat.zero_add]
    exact Nat.le_trans (Nat.max_le.mpr ⟨Nat.le_of_lt (Nat.lt_two_pow n), Nat.one_le_two_pow⟩)
      (Nat.le_mul_of_pos_left _ (by decide))
  obtain ⟨hge, hbelow⟩ := leastOrderFrom_spec (fun j hj => absurd hj (Nat.not_lt_zero j)) hfits
  exact ⟨leastOrder n, rfl, hge, fun j hj => Nat.le_of_not_lt fun hlt =>
    Nat.lt_irrefl _ (Nat.lt_of_lt_of_le (hbelow j hlt) hj)⟩

/-- `PooledBuffer::Shrink(ideal_size)` on a buffer whose size `m` is a multiple of a heap
block, for an ideal size below `m`: the loop ends with `m_size = min(m, AlignUp(ideal_size,
4 KB))`; every chunk it frees ends where the size before that iteration ends, is a power of
two and a multiple of a heap block, and starts at an offset from `m_buffer` that is a
multiple of its size; the chunks are disjoint and together are exactly the tail
`[m_buffer + m_size, m_buffer + m)`; `m_buffer` becomes null exactly when the final size
is `0`; and with the heap's orders both assertions in the loop hold. -/
theorem shrink_frees_tail {b : PooledBuffer} {idealSize : Nat} (hbuf : b.buffer ≠ 0)
    (hblock : heapBlockSize ∣ b.size) (hsize : b.size < 2 ^ 64) (hlt : idealSize < b.size) :
    let r := shrink heap b idealSize
    r.2.size = min b.size (alignUp idealSize heapBlockSize) ∧
      FreesDown b.buffer r.2.size b.size r.1 ∧
      (∀ c ∈ r.1, (∃ k, c.size = 2 ^ k) ∧ heapBlockSize ∣ c.size ∧
        c.size ∣ c.address - b.buffer) ∧
      r.1.Pairwise (fun c d => d.address + d.size ≤ c.address) ∧
      (∀ x, (∃ c ∈ r.1, c.address ≤ x ∧ x < c.address + c.size) ↔
        b.buffer + r.2.size ≤ x ∧ x < b.buffer + b.size) ∧
      (r.2.buffer = 0 ↔ r.2.size = 0) ∧
      (heap.LeastBlock → ∀ c ∈ r.1,
        isAligned c.size heapBlockSize = true ∧ c.size = heap.getBytesFromOrder c.order) := by
  obtain ⟨hfinal, hle, hbuffer, hfrees, hcalls⟩ := shrink_spec heap hblock hsize hlt
  refine ⟨by rw [hfinal, Nat.min_eq_right hle], hfrees, hcalls, hfrees.pairwise,
    fun _ => hfrees.covers, ?_, fun hleast => shrink_asserts heap hleast hblock hsize hlt⟩
  rw [hbuffer]
  split_ifs with h0 <;> simp [h0, hbuf]

/-- `shrink_frees_tail` on a 28 KB buffer at `0x10000` shrunk to 4 KB, on a heap whose
orders are the least blocks. -/
theorem shrink_frees_tail_seven_blocks :
    let heap : BuddyHeap Unit :=
      ⟨fun _ => 0, leastOrder, fun order => heapBlockSize * 2 ^ order, fun _ _ => 0⟩
    let b : PooledBuffer := ⟨0x10000, 0x7000⟩
    (b.buffer ≠ 0 ∧ heapBlockSize ∣ b.size ∧ b.size < 2 ^ 64 ∧ 0x1000 < b.size) ∧
      let r := shrink heap b 0x1000
      r.2.size = min b.size (alignUp 0x1000 heapBlockSize) ∧
        FreesDown b.buffer r.2.size b.size r.1 ∧
        (∀ c ∈ r.1, (∃ k, c.size = 2 ^ k) ∧ heapBlockSize ∣ c.size ∧
          c.size ∣ c.address - b.buffer) ∧
        r.1.Pairwise (fun c d => d.address + d.size ≤ c.address) ∧
        (∀ x, (∃ c ∈ r.1, c.address ≤ x ∧ x < c.address + c.size) ↔
          b.buffer + r.2.size ≤ x ∧ x < b.buffer + b.size) ∧
        (r.2.buffer = 0 ↔ r.2.size = 0) ∧
        (heap.LeastBlock → ∀ c ∈ r.1,
          isAligned c.size heapBlockSize = true ∧ c.size = heap.getBytesFromOrder c.order) :=
  ⟨by decide, @shrink_frees_tail Unit
    ⟨fun _ => 0, leastOrder, fun order => heapBlockSize * 2 ^ order, fun _ _ => 0⟩
    ⟨0x10000, 0x7000⟩ 0x1000 (by decide) (by decide) (by decide) (by decide)⟩

/-! ## What `AllocateCore` returns -/

/-- `GetAllocatableSizeMaxCore(large)` is a power-of-two number of heap blocks, a multiple
of `HeapAllocatableSizeTrim`, and at most 4 MB. -/
theorem getAllocatableSizeMaxCore_eq (large : Bool) :
    ∃ j, getAllocatableSizeMaxCore large = heapBlockSize * 2 ^ j ∧
      getAllocatableSizeMaxCore large % heapAllocatableSizeTrim = 0 ∧
      getAllocatableSizeMaxCore large ≤ 0x400000 := by
  cases large <;> exact ⟨_, rfl, by decide, by decide⟩

section Allocate

variable {requiredSize targetSize : Nat}

/-- The block the retry loop takes, started without a buffer, for a target of at least
`required_size`: it is not null, is a whole number of heap blocks, holds `required_size`,
and is no larger than any power-of-two number of blocks that holds `max(target_size, 1)`. -/
theorem allocateLoop_block (hleast : heap.LeastBlock) {b b₁ : PooledBuffer} {heaps : List σ}
    {n : Nat} (hb : b.buffer = 0) (htarget : requiredSize ≤ targetSize)
    (hloop : allocateLoop heap requiredSize targetSize b heaps = some (b₁, n)) :
    b₁.buffer ≠ 0 ∧ heapBlockSize ∣ b₁.size ∧ requiredSize ≤ b₁.size ∧
      ∀ j, max targetSize 1 ≤ heapBlockSize * 2 ^ j → b₁.size ≤ heapBlockSize * 2 ^ j := by
  obtain ⟨hne, s, -, hreq, hb₁⟩ := allocateLoop_some heap hb hloop
  have hsize := congrArg PooledBuffer.size hb₁
  dsimp only at hsize
  rw [hsize]
  refine ⟨hne, hleast.dvd_bytes _,
    Nat.le_trans (Nat.le_min.mpr ⟨htarget, hreq⟩) (hleast.le_bytes _), fun j hj => ?_⟩
  exact hleast.bytes_le (Nat.le_trans (Nat.max_le.mpr ⟨Nat.le_trans (Nat.min_le_left _ _)
    (Nat.le_max_left _ _), Nat.le_max_right _ _⟩) hj)

/-- Trimming a whole number of heap blocks holding at least `target + 32 KB` to
`AlignUp(target, HeapAllocatableSizeTrim)` leaves exactly that many bytes: a whole number
of heap blocks in `[target, target + 32 KB)`, no larger than any multiple of 32 KB that is
at least `target`; and it keeps the buffer unless that is `0`. -/
theorem shrink_trim {b : PooledBuffer} {target : Nat} (hblock : heapBlockSize ∣ b.size)
    (hsize : b.size < 2 ^ 64) (htrim : b.size ≥ target + heapAllocatableSizeTrim) :
    let b' := (shrink heap b (alignUp target heapAllocatableSizeTrim)).2
    b'.size = alignUp target heapAllocatableSizeTrim ∧ (b'.size ≠ 0 → b'.buffer = b.buffer) ∧
      heapBlockSize ∣ b'.size ∧ target ≤ b'.size ∧
      b'.size < target + heapAllocatableSizeTrim ∧
      ∀ m, m % heapAllocatableSizeTrim = 0 → target ≤ m → b'.size ≤ m := by
  have hblock' : 0x1000 ∣ b.size := hblock
  have htrim' : b.size ≥ target + 0x8000 := htrim
  obtain ⟨hmod, hge, hlt⟩ := alignUp_spec (by decide : 0 < heapAllocatableSizeTrim)
    (by omega : target + heapAllocatableSizeTrim ≤ 2 ^ 64)
  have hmod' : alignUp target heapAllocatableSizeTrim % 0x8000 = 0 := hmod
  have hlt' : alignUp target heapAllocatableSizeTrim < target + 0x8000 := hlt
  have hI : alignUp target heapAllocatableSizeTrim < b.size := by omega
  obtain ⟨hfinal, -, hbuffer, -, -⟩ := shrink_spec heap hblock hsize hI
  -- a multiple of 32 KB is its own round-up to a heap block
  obtain ⟨h4mod, h4ge, h4lt⟩ := alignUp_spec (by decide : 0 < heapBlockSize)
    (by unfold heapBlockSize; omega :
      alignUp target heapAllocatableSizeTrim + heapBlockSize ≤ 2 ^ 64)
  have h4mod' : alignUp (alignUp target heapAllocatableSizeTrim) heapBlockSize % 0x1000 = 0 :=
    h4mod
  have h4lt' : alignUp (alignUp target heapAllocatableSizeTrim) heapBlockSize <
      alignUp target heapAllocatableSizeTrim + 0x1000 := h4lt
  rw [show alignUp (alignUp target heapAllocatableSizeTrim) heapBlockSize =
    alignUp target heapAllocatableSizeTrim by omega] at hfinal
  dsimp only
  rw [hfinal]
  exact ⟨rfl, fun h0 => by rw [hbuffer, hfinal, if_neg h0],
    Nat.dvd_of_mod_eq_zero (show _ % 0x1000 = 0 by omega), hge, hlt,
    fun m hm hle => by have hm' : m % 0x8000 = 0 := hm; omega⟩

end Allocate

/-- `PooledBuffer::AllocateCore(ideal_size, required_size, large)`, on a buffer without a
block and with `required_size <= GetAllocatableSizeMaxCore(large)`, for a heap whose orders
round up to the least power-of-two number of blocks, in whatever states the retry loop
finds it: when it returns, the buffer is not null, its size is a multiple of a heap block,
at least `required_size`, at most `GetAllocatableSizeMaxCore(large)`, and below
`target_size + HeapAllocatableSizeTrim`. -/
theorem allocateCore_size (hleast : heap.LeastBlock) {b : PooledBuffer}
    {idealSize requiredSize : Nat} {large : Bool} {heaps : List σ}
    {r : PooledBuffer × List FreeCall × Nat × Bool} (hb : b.buffer = 0)
    (hreq : requiredSize ≤ getAllocatableSizeMaxCore large)
    (h : allocateCore heap b idealSize requiredSize large heaps = some r) :
    let targetSize := min (max idealSize requiredSize) (getAllocatableSizeMaxCore large)
    r.1.buffer ≠ 0 ∧ heapBlockSize ∣ r.1.size ∧ requiredSize ≤ r.1.size ∧
      r.1.size ≤ getAllocatableSizeMaxCore large ∧
      r.1.size < targetSize + heapAllocatableSizeTrim := by
  obtain ⟨j, hj, hjtrim, hjmax⟩ := getAllocatableSizeMaxCore_eq large
  dsimp only [allocateCore] at h ⊢
  split at h
  · exact nomatch h
  rename_i b₁ n hloop
  obtain rfl := (Option.some.inj h).symm
  dsimp only
  obtain ⟨hne, hblock, hreq₁, hle⟩ := allocateLoop_block heap hleast hb (by omega) hloop
  have hmax : b₁.size ≤ getAllocatableSizeMaxCore large :=
    hj ▸ hle j (hj ▸ Nat.max_le.mpr ⟨Nat.min_le_right _ _, by cases large <;> decide⟩)
  split_ifs with htrim
  · -- a target of `0` asks for one block, too little to trim
    have htarget : min (max idealSize requiredSize) (getAllocatableSizeMaxCore large) ≠ 0 :=
      fun h0 => by
        have := hle 0 (by rw [h0]; decide)
        have : heapAllocatableSizeTrim = 0x8000 := rfl
        unfold heapBlockSize at *
        omega
    obtain ⟨-, hbuffer, hdvd, hge, hlt, hle'⟩ := shrink_trim heap hblock (by omega) htrim
    exact ⟨by rw [hbuffer (by omega)]; exact hne, hdvd, by omega,
      hle' _ hjtrim (Nat.min_le_right _ _), hlt⟩
  · exact ⟨hne, hblock, hreq₁, hmax, Nat.lt_of_not_le htrim⟩

/-- `allocateCore_size` on a heap with 1 MB to give, asked for 132 KB: it takes a 256 KB
block and trims it to 160 KB. -/
theorem allocateCore_size_trimmed :
    let heap : BuddyHeap Nat :=
      ⟨fun s => s, leastOrder, fun order => heapBlockSize * 2 ^ order, fun _ _ => 0x100000⟩
    let r : PooledBuffer × List FreeCall × Nat × Bool :=
      (⟨0x100000, 0x28000⟩, [⟨0x130000, 0x10000, 4⟩, ⟨0x128000, 0x8000, 3⟩], 0, false)
    (heap.LeastBlock ∧ (⟨0, 0⟩ : PooledBuffer).buffer = 0 ∧
      0x1000 ≤ getAllocatableSizeMaxCore false ∧
      allocateCore heap ⟨0, 0⟩ 0x21000 0x1000 false [0x100000] = some r) ∧
    let targetSize := min (max 0x21000 0x1000) (getAllocatableSizeMaxCore false)
    r.1.buffer ≠ 0 ∧ heapBlockSize ∣ r.1.size ∧ 0x1000 ≤ r.1.size ∧
      r.1.size ≤ getAllocatableSizeMaxCore false ∧
      r.1.size < targetSize + heapAllocatableSizeTrim :=
  ⟨⟨leastBlock_of_leastOrder _ _, rfl, by decide, by decide⟩,
    @allocateCore_size Nat ⟨fun s => s, leastOrder, fun order => heapBlockSize * 2 ^ order,
      fun _ _ => 0x100000⟩ (leastBlock_of_leastOrder _ _) ⟨0, 0⟩ 0x21000 0x1000 false
      [0x100000] _ rfl (by decide) (by decide)⟩

/-! ## When `AllocateCore` returns -/

section Progress

variable {requiredSize targetSize : Nat}

/-- An iteration that finds the heap with something to give and at least `required_size`
allocatable takes a block, from a heap that keeps its promises. -/
theorem tryAllocate_ne_null (hleast : heap.LeastBlock) (halloc : heap.Allocates)
    (b : PooledBuffer) {s : σ} (hpos : 0 < heap.getAllocatableSizeMax s)
    (hreq : requiredSize ≤ allocatableSize heap s) :
    (tryAllocate heap requiredSize targetSize b s).buffer ≠ 0 := by
  unfold tryAllocate
  rw [if_pos hreq]
  apply halloc.2
  obtain ⟨k, hk⟩ := (halloc.1 s).resolve_left (Nat.pos_iff_ne_zero.mp hpos)
  -- what the loop may take is a power-of-two number of blocks, at most what the heap has
  have htake : ∃ k', allocatableSize heap s = heapBlockSize * 2 ^ k' ∧
      allocatableSize heap s ≤ heap.getAllocatableSizeMax s := by
    dsimp only [allocatableSize]
    rw [hk]
    rcases k with _ | k
    · exact ⟨0, by simp, by simp⟩
    · have hdouble : heapBlockSize * 2 ^ (k + 1) = 2 * (heapBlockSize * 2 ^ k) := by
        rw [Nat.pow_succ]
        unfold heapBlockSize
        omega
      have hlt : heapBlockSize * 2 ^ (k + 1) > heapBlockSize := by
        have := Nat.mul_le_mul_left heapBlockSize (Nat.one_le_two_pow : 1 ≤ 2 ^ k)
        rw [hdouble]
        unfold heapBlockSize at *
        omega
      refine ⟨k, ?_, ?_⟩ <;> rw [if_pos hlt, hdouble] <;> omega
  obtain ⟨k', hk', hle⟩ := htake
  have hfits : max (min targetSize (allocatableSize heap s)) 1 ≤ heapBlockSize * 2 ^ k' := by
    rw [← hk']
    exact Nat.max_le.mpr ⟨Nat.min_le_right _ _,
      hk' ▸ Nat.mul_pos (by decide) (Nat.two_pow_pos k')⟩
  exact Nat.le_trans (hleast.bytes_le hfits) (hk' ▸ hle)

/-- The retry loop returns once it meets a state with something to give and at least
`required_size` allocatable. -/
theorem allocateLoop_isSome (hleast : heap.LeastBlock) (halloc : heap.Allocates) {s : σ}
    (hpos : 0 < heap.getAllocatableSizeMax s) (hreq : requiredSize ≤ allocatableSize heap s) :
    ∀ {b : PooledBuffer} {heaps : List σ}, s ∈ heaps →
      (allocateLoop heap requiredSize targetSize b heaps).isSome
  | _, _ :: ss, hs => by
    simp only [allocateLoop]
    split_ifs with hne
    · rfl
    · rcases List.mem_cons.mp hs with rfl | hs
      · exact absurd (tryAllocate_ne_null heap hleast halloc _ hpos hreq) hne
      · rw [Option.isSome_map']
        exact allocateLoop_isSome hleast halloc hpos hreq hs

/-- `AllocateCore` returns on any run of heap states that meets a state with something to
give and at least `required_size` allocatable: with the heap's promises, the retry loop
does not spin for ever. -/
theorem allocateCore_isSome (hleast : heap.LeastBlock) (halloc : heap.Allocates)
    {b : PooledBuffer} {idealSize : Nat} {large : Bool} {heaps : List σ} {s : σ} (hs : s ∈ heaps)
    (hpos : 0 < heap.getAllocatableSizeMax s) (hreq : requiredSize ≤ allocatableSize heap s) :
    (allocateCore heap b idealSize requiredSize large heaps).isSome := by
  have h : (allocateLoop heap requiredSize
      (min (max idealSize requiredSize) (getAllocatableSizeMaxCore large)) b heaps).isSome :=
    allocateLoop_isSome heap hleast halloc hpos hreq hs
  dsimp only [allocateCore]
  split
  · rename_i hnone
    rw [hnone] at h
    exact absurd h Bool.false_ne_true
  · rfl

/-- `allocateCore_isSome` on a heap whose first state gives too little, so that the loop
retries, and whose second gives 64 KB. -/
theorem allocateCore_isSome_second_try :
    let heap : BuddyHeap Nat := ⟨fun k => heapBlockSize * 2 ^ k, leastOrder,
      fun order => heapBlockSize * 2 ^ order, fun _ _ => 0x100000⟩
    (heap.LeastBlock ∧ heap.Allocates ∧ 4 ∈ [0, 4] ∧ 0 < heap.getAllocatableSizeMax 4 ∧
      0x8000 ≤ allocatableSize heap 4) ∧
      (allocateCore heap ⟨0, 0⟩ 0x10000 0x8000 false [0, 4]).isSome :=
  have halloc : BuddyHeap.Allocates (⟨fun k => heapBlockSize * 2 ^ k, leastOrder,
      fun order => heapBlockSize * 2 ^ order, fun _ _ => 0x100000⟩ : BuddyHeap Nat) :=
    ⟨fun k => .inr ⟨k, rfl⟩, fun _ _ _ => Nat.succ_ne_zero _⟩
  ⟨⟨leastBlock_of_leastOrder _ _, halloc, by decide, by decide, by decide⟩,
    @allocateCore_isSome Nat ⟨fun k => heapBlockSize * 2 ^ k, leastOrder,
      fun order => heapBlockSize * 2 ^ order, fun _ _ => 0x100000⟩ 0x8000
      (leastBlock_of_leastOrder _ _) halloc ⟨0, 0⟩ 0x10000 false [0, 4] 4 (by decide) (by decide)
      (by decide)⟩

end Progress

end

end Ams.Fssystem
