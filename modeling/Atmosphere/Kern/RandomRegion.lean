import Atmosphere.Kern.MemoryBlockTree
import Atmosphere.Util.Alignment

/-!
# `KMemoryBlockTree::GetRandomAlignedRegion`

The call takes the extent of the blocks deriving from `type_id`, and then samples: it
aligns each value of the random source down, and returns the first candidate that does
not wrap, ends inside the extent, and lies inside one block of exactly `type_id`.  The
loop is modelled over the finite list of values the random source returns before the
call returns, so a statement about every such list is a statement about every run.

`GetDerivedRegionExtents` is not among the sources and is modelled from the spec; the
region-type test `IsDerivedFrom` is a parameter.
-/

namespace Ams.Kern

open KMemoryBlock Ams.Util

namespace KMemoryBlockTree

variable (isDerivedFrom : Nat → Nat → Bool)

/-- Modelled from the spec: `GetDerivedRegionExtents(type_id)`, the first and the last
block whose type derives from `type_id`; `none` is the init abort when there is none. -/
def getDerivedRegionExtents (t : List KMemoryBlock) (typeId : Nat) :
    Option (KMemoryBlock × KMemoryBlock) :=
  match t.filter fun b => isDerivedFrom b.typeId typeId with
  | [] => none
  | b :: bs => some (b, (b :: bs).getLast (List.cons_ne_nil _ _))

/-- The loop of `GetRandomAlignedRegion` (lines 84–110) over the values the random
source returns: the first candidate that passes every check, and the values left over.
`none` means the call has not returned after these values: it aborted in
`FindContainingBlock`, or it is still sampling. -/
def randomAlignedRegionLoop (t : List KMemoryBlock) (size alignment typeId lastAddress : Nat) :
    List Nat → Option (Nat × List Nat)
  | [] => none
  | r :: rs =>
    let candidate := alignDown r alignment
    if ¬ candidate < addU64 candidate size then
      randomAlignedRegionLoop t size alignment typeId lastAddress rs
    else
      let candidateLast := subU64 (addU64 candidate size) 1
      if candidateLast > lastAddress then
        randomAlignedRegionLoop t size alignment typeId lastAddress rs
      else
        match findContainingBlock candidate t with
        | none => none
        | some (_, candidateBlock, _) =>
          if candidateLast > candidateBlock.lastAddress then
            randomAlignedRegionLoop t size alignment typeId lastAddress rs
          else if candidateBlock.typeId ≠ typeId then
            randomAlignedRegionLoop t size alignment typeId lastAddress rs
          else some (candidate, rs)

/-- `GetRandomAlignedRegion(size, alignment, type_id)` with the values `draws` of
`GenerateRandomRange(first_address, last_address)`. -/
def getRandomAlignedRegion (t : List KMemoryBlock) (size alignment typeId : Nat)
    (draws : List Nat) : Option (Nat × List Nat) :=
  match getDerivedRegionExtents isDerivedFrom t typeId with
  | none => none
  | some (firstBlock, lastBlock) =>
    if ¬ isAligned firstBlock.address alignment then none
    else randomAlignedRegionLoop t size alignment typeId lastBlock.lastAddress draws

/-! ## What the loop returns -/

/-- The checks of the loop that a returned candidate has passed. -/
def CandidateFits (t : List KMemoryBlock) (size typeId lastAddress candidate : Nat) : Prop :=
  candidate < addU64 candidate size ∧ subU64 (addU64 candidate size) 1 ≤ lastAddress ∧
    ∃ pre b post, findContainingBlock candidate t = some (pre, b, post) ∧
      subU64 (addU64 candidate size) 1 ≤ b.lastAddress ∧ b.typeId = typeId

section Loop

variable {t : List KMemoryBlock} {size alignment typeId lastAddress : Nat}

/-- One iteration: the loop returns its draw's candidate, which fits, or goes on. -/
theorem randomAlignedRegionLoop_cons {r c : Nat} {rs rest : List Nat}
    (h : randomAlignedRegionLoop t size alignment typeId lastAddress (r :: rs) = some (c, rest)) :
    (c = alignDown r alignment ∧ rest = rs ∧ CandidateFits t size typeId lastAddress c) ∨
      randomAlignedRegionLoop t size alignment typeId lastAddress rs = some (c, rest) := by
  simp only [randomAlignedRegionLoop] at h
  split_ifs at h with h1 h2
  all_goals first | exact .inr h | skip
  split at h
  · cases h
  · rename_i b post hf
    split_ifs at h with h3 h4
    all_goals first | exact .inr h | skip
    cases h
    exact .inl ⟨rfl, rfl, by omega, by omega, _, b, post, hf, by omega, by simpa using h4⟩

/-- A returning loop leaves over the values after the draw it returned on. -/
theorem randomAlignedRegionLoop_rest {c : Nat} {rest : List Nat} :
    ∀ {draws : List Nat},
      randomAlignedRegionLoop t size alignment typeId lastAddress draws = some (c, rest) →
      rest.length < draws.length ∧ rest <:+ draws
  | [], h => by cases h
  | r :: rs, h => by
    rcases randomAlignedRegionLoop_cons h with ⟨-, rfl, -⟩ | h
    · exact ⟨Nat.lt_succ_self _, List.suffix_cons _ _⟩
    · obtain ⟨hlt, hsuf⟩ := randomAlignedRegionLoop_rest h
      exact ⟨Nat.lt_succ_of_lt hlt, hsuf.trans (List.suffix_cons _ _)⟩

/-- A returned candidate is the aligned-down value of one of the draws, and fits. -/
theorem randomAlignedRegionLoop_fits {c : Nat} {rest : List Nat} :
    ∀ {draws : List Nat},
      randomAlignedRegionLoop t size alignment typeId lastAddress draws = some (c, rest) →
      ∃ r ∈ draws, c = alignDown r alignment ∧ CandidateFits t size typeId lastAddress c
  | [], h => by cases h
  | r :: rs, h => by
    rcases randomAlignedRegionLoop_cons h with ⟨rfl, -, hfit⟩ | h
    · exact ⟨r, List.mem_cons_self _ _, rfl, hfit⟩
    · obtain ⟨r', hr', hc, hfit⟩ := randomAlignedRegionLoop_fits h
      exact ⟨r', List.mem_cons_of_mem _ hr', hc, hfit⟩

/-- A candidate that fits is returned at once when it is the first draw. -/
theorem randomAlignedRegionLoop_of_fits {c : Nat} {rest : List Nat}
    (hc : c % alignment = 0) (hfit : CandidateFits t size typeId lastAddress c) :
    randomAlignedRegionLoop t size alignment typeId lastAddress (c :: rest) = some (c, rest) := by
  obtain ⟨h1, h2, pre, b, post, hf, h3, h4⟩ := hfit
  simp [randomAlignedRegionLoop, alignDown_of_mod_eq_zero hc, h1, hf, h4, Nat.not_lt.mpr h2,
    Nat.not_lt.mpr h3]

/-- With `size = 0` no candidate passes the overflow check, so the loop never returns. -/
theorem randomAlignedRegionLoop_size_zero :
    ∀ draws : List Nat, randomAlignedRegionLoop t 0 alignment typeId lastAddress draws = none
  | [] => rfl
  | r :: rs => by
    have : ¬ alignDown r alignment < addU64 (alignDown r alignment) 0 := by
      unfold addU64
      exact Nat.not_lt.mpr (Nat.mod_le _ _)
    simp only [randomAlignedRegionLoop, this, not_false_eq_true, if_true]
    exact randomAlignedRegionLoop_size_zero rs

end Loop

section Call

variable {t : List KMemoryBlock} {size alignment typeId c : Nat} {draws rest : List Nat}

/-- A returning call of `GetRandomAlignedRegion` is a returning run of its loop. -/
theorem getRandomAlignedRegion_loop
    (h : getRandomAlignedRegion isDerivedFrom t size alignment typeId draws = some (c, rest)) :
    ∃ lastAddress, randomAlignedRegionLoop t size alignment typeId lastAddress draws =
      some (c, rest) := by
  unfold getRandomAlignedRegion at h
  split at h
  · cases h
  · split_ifs at h
    exact ⟨_, h⟩

/-- A returning call leaves over the values after the draw it returned on. -/
theorem getRandomAlignedRegion_rest
    (h : getRandomAlignedRegion isDerivedFrom t size alignment typeId draws = some (c, rest)) :
    rest.length < draws.length ∧ rest <:+ draws :=
  let ⟨_, hloop⟩ := getRandomAlignedRegion_loop isDerivedFrom h
  randomAlignedRegionLoop_rest hloop

/-- A candidate the call returns passed the loop's checks: it does not wrap, and it lies in
a block of exactly `type_id`. -/
theorem getRandomAlignedRegion_fits
    (h : getRandomAlignedRegion isDerivedFrom t size alignment typeId draws = some (c, rest)) :
    ∃ lastAddress, CandidateFits t size typeId lastAddress c :=
  let ⟨_, hloop⟩ := getRandomAlignedRegion_loop isDerivedFrom h
  let ⟨_, _, _, hfit⟩ := randomAlignedRegionLoop_fits hloop
  ⟨_, hfit⟩

/-- A candidate the call returns is aligned. -/
theorem getRandomAlignedRegion_mod
    (h : getRandomAlignedRegion isDerivedFrom t size alignment typeId draws = some (c, rest)) :
    c % alignment = 0 :=
  let ⟨_, hloop⟩ := getRandomAlignedRegion_loop isDerivedFrom h
  let ⟨r, _, hc, _⟩ := randomAlignedRegionLoop_fits hloop
  hc ▸ alignDown_mod r alignment

end Call

/-- The placements `GetRandomAlignedRegion(size, alignment, type_id)` is meant to return,
as the spec lists them: `c` is aligned, `c + size` does not wrap, `[c, c + size - 1]`
lies inside the extent `[firstAddress, lastAddress]` and inside one block of exactly
`type_id`. -/
def ValidPlacement (t : List KMemoryBlock)
    (size alignment typeId firstAddress lastAddress c : Nat) : Prop :=
  c % alignment = 0 ∧ c + size < 2 ^ 64 ∧ firstAddress ≤ c ∧ c + size - 1 ≤ lastAddress ∧
    ∃ b ∈ t, b.address ≤ c ∧ c + size - 1 ≤ b.lastAddress ∧ b.typeId = typeId

instance (t : List KMemoryBlock) (size alignment typeId firstAddress lastAddress c : Nat) :
    Decidable (ValidPlacement t size alignment typeId firstAddress lastAddress c) :=
  inferInstanceAs (Decidable (_ ∧ _ ∧ _ ∧ _ ∧ _))

theorem lastAddress_lt (b : KMemoryBlock) : b.lastAddress < 2 ^ 64 :=
  Nat.mod_lt _ (Nat.two_pow_pos 64)

/-- On a tiled tree whose blocks deriving from `type_id` span `[firstAddress, lastAddress]`
with `firstAddress` aligned to a power of two, the alignments at which `util`'s masks clear
the remainder: whatever the random source returns inside that range,
every address `GetRandomAlignedRegion` returns is a valid placement; and for a positive
size every valid placement is returned when it is the first value drawn, while for size
`0` the call never returns. -/
theorem getRandomAlignedRegion_placements {t : List KMemoryBlock}
    {lo hi size alignment typeId : Nat} {firstBlock lastBlock : KMemoryBlock}
    (hcov : Covers t lo hi)
    (hext : getDerivedRegionExtents isDerivedFrom t typeId = some (firstBlock, lastBlock))
    (hpow : ∃ k, alignment = 2 ^ k) (halign : alignment ∣ firstBlock.address)
    (hsize : size < 2 ^ 64) :
    (∀ draws c rest, (∀ r ∈ draws, firstBlock.address ≤ r ∧ r ≤ lastBlock.lastAddress) →
      getRandomAlignedRegion isDerivedFrom t size alignment typeId draws = some (c, rest) →
      ValidPlacement t size alignment typeId firstBlock.address lastBlock.lastAddress c) ∧
    (0 < size → ∀ c rest,
      ValidPlacement t size alignment typeId firstBlock.address lastBlock.lastAddress c →
      getRandomAlignedRegion isDerivedFrom t size alignment typeId (c :: rest) = some (c, rest)) ∧
    (size = 0 → ∀ draws,
      getRandomAlignedRegion isDerivedFrom t size alignment typeId draws = none) := by
  have hgo : ∀ draws, getRandomAlignedRegion isDerivedFrom t size alignment typeId draws =
      randomAlignedRegionLoop t size alignment typeId lastBlock.lastAddress draws := by
    simp [getRandomAlignedRegion, hext, isAligned, Nat.mod_eq_zero_of_dvd halign]
  have hlt := lastAddress_lt lastBlock
  refine ⟨fun draws c rest hdraws h => ?_, fun hpos c rest hc => ?_,
    fun h0 draws => by rw [hgo, h0, randomAlignedRegionLoop_size_zero]⟩
  · rw [hgo] at h
    obtain ⟨r, hr, rfl, h1, h2, pre, b, post, hf, h3, h4⟩ := randomAlignedRegionLoop_fits h
    have hr' := hdraws r hr
    have hle := alignDown_le r alignment
    have hwrap : alignDown r alignment + size < 2 ^ 64 ∧ 0 < size := by
      unfold addU64 at h1
      omega
    rw [insertedBlockLast_eq hwrap.2 hwrap.1.le] at h2 h3
    obtain ⟨rfl, hbc, -⟩ := findContainingBlock_spec hf
    exact ⟨alignDown_mod _ _, hwrap.1, le_alignDown halign hr'.1, h2, b, by simp, hbc.1, h3, h4⟩
  · obtain ⟨hmod, hwrap, -, hlast, b, hb, hbc, hbl, hbt⟩ := hc
    have hins := insertedBlockLast_eq hpos hwrap.le
    have hadd : addU64 c size = c + size := addU64_of_lt hwrap
    obtain ⟨pre, post, hf⟩ :=
      findContainingBlock_of_mem hcov.1 (by have := hcov.2; omega) hb ⟨hbc, by omega⟩
    rw [hgo]
    exact randomAlignedRegionLoop_of_fits hmod
      ⟨by omega, by rw [hins]; exact hlast, pre, b, post, hf, by rw [hins]; exact hbl, hbt⟩

/-- `getRandomAlignedRegion_placements` on a single block of the requested type. -/
theorem getRandomAlignedRegion_placements_single_block :
    (∀ draws c rest, (∀ r ∈ draws, 0 ≤ r ∧ r ≤ 0xFFF) →
      getRandomAlignedRegion (fun a b => a == b) [⟨0, 0x1000, uintptrMax, 0, 1⟩] 0x100 0x100 1
        draws = some (c, rest) →
      ValidPlacement [⟨0, 0x1000, uintptrMax, 0, 1⟩] 0x100 0x100 1 0 0xFFF c) ∧
    (0 < 0x100 → ∀ c rest, ValidPlacement [⟨0, 0x1000, uintptrMax, 0, 1⟩] 0x100 0x100 1 0 0xFFF c →
      getRandomAlignedRegion (fun a b => a == b) [⟨0, 0x1000, uintptrMax, 0, 1⟩] 0x100 0x100 1
        (c :: rest) = some (c, rest)) ∧
    (0x100 = 0 → ∀ draws, getRandomAlignedRegion (fun a b => a == b)
      [⟨0, 0x1000, uintptrMax, 0, 1⟩] 0x100 0x100 1 draws = none) :=
  getRandomAlignedRegion_placements (fun a b => a == b)
    (by decide : Covers [⟨0, 0x1000, uintptrMax, 0, 1⟩] 0 0xFFF)
    (by decide : getDerivedRegionExtents (fun a b => a == b) [⟨0, 0x1000, uintptrMax, 0, 1⟩] 1 =
      some (⟨0, 0x1000, uintptrMax, 0, 1⟩, ⟨0, 0x1000, uintptrMax, 0, 1⟩))
    ⟨8, rfl⟩ (by decide) (by decide)

/-- With `size = 0` the overflow check `candidate < candidate + size` rejects every
candidate: a placement that meets the listed conditions is not returned even when it
is the first value drawn. -/
theorem getRandomAlignedRegion_empty_placement_not_returned :
    ValidPlacement [⟨0, 0x1000, uintptrMax, 0, 1⟩] 0 1 1 0 0xFFF 0 ∧
      getRandomAlignedRegion (fun a b => a == b) [⟨0, 0x1000, uintptrMax, 0, 1⟩] 0 1 1 [0] =
        none := by
  decide

end KMemoryBlockTree

end Ams.Kern
