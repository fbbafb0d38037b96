import Atmosphere.Kern.Classification

/-!
# The block tree as an address map

Read through `classify`, a tree is a map from each address to its type, its attributes and
its counterpart in the other space.  The init code changes a tree only through `Insert`
calls whose `false` aborts the boot (`MESOSPHERE_INIT_ABORT_UNLESS`), and this module shows
that such a run acts on the map as a sequence of range overwrites: each call gives the
addresses of its range the new type and attributes, keeps their counterparts, and leaves
every other address as it was.

Besides the tiling, the step needs that no block's pair range reaches the sentinel
`uintptrMax`: otherwise a piece cut out of a block with a pair could receive the sentinel as
its own pair address and lose its counterpart.  `Insert` keeps that condition, so it holds
along the whole run.
-/

namespace Ams.Kern

open KMemoryBlock

namespace KMemoryBlockTree

instance (lo hi : Nat) (q : InsertRequest) : Decidable (q.InRange lo hi) :=
  inferInstanceAs (Decidable (_ ∧ _ ∧ _ ∧ _))

/-- No block's pair range reaches the sentinel: a block has no pair, or its pair range ends
below `uintptrMax`. -/
def PairsFit (t : List KMemoryBlock) : Prop :=
  ∀ b ∈ t, b.pairAddress = uintptrMax ∨ b.pairAddress + b.size ≤ uintptrMax

instance (t : List KMemoryBlock) : Decidable (PairsFit t) :=
  inferInstanceAs (Decidable (∀ b ∈ t, _))

/-- The range a request asks for holds `x`. -/
def InsertRequest.Contains (q : InsertRequest) (x : Nat) : Prop :=
  q.address ≤ x ∧ x < q.address + q.size

instance (q : InsertRequest) (x : Nat) : Decidable (q.Contains x) :=
  inferInstanceAs (Decidable (_ ∧ _))

/-- The class `q` gives to an address of its range that had the class `c`. -/
def InsertRequest.classOf (q : InsertRequest) (c : AddressClass) : AddressClass :=
  ⟨q.typeId, q.newAttr, c.pairImage⟩

/-- What an accepted `Insert` does to the map: the addresses of `[address, address + size)`
take the new type and attributes and keep their counterparts; the others keep their class. -/
def overwrite (m : Nat → Option AddressClass) (q : InsertRequest) : Nat → Option AddressClass :=
  fun x => if q.Contains x then (m x).map q.classOf else m x

/-! ## Runs of overwrites -/

/-- Overwriting keeps every address's counterpart. -/
theorem overwrite_pairImage (m : Nat → Option AddressClass) (q : InsertRequest) (x : Nat) :
    (overwrite m q x).map AddressClass.pairImage = (m x).map AddressClass.pairImage := by
  unfold overwrite
  split_ifs
  · rw [Option.map_map]
    rfl
  · rfl

theorem foldl_overwrite_pairImage (x : Nat) :
    ∀ (m : Nat → Option AddressClass) (qs : List InsertRequest),
      (qs.foldl overwrite m x).map AddressClass.pairImage = (m x).map AddressClass.pairImage
  | _, [] => rfl
  | m, q :: qs => (foldl_overwrite_pairImage x (overwrite m q) qs).trans (overwrite_pairImage m q x)

/-- Requests that do not hold `x` leave its class. -/
theorem foldl_overwrite_of_not_contains {x : Nat} :
    ∀ {m : Nat → Option AddressClass} {qs : List InsertRequest}, (∀ q ∈ qs, ¬ q.Contains x) →
      qs.foldl overwrite m x = m x
  | _, [], _ => rfl
  | m, q :: qs, h => by
    rw [List.foldl_cons,
      foldl_overwrite_of_not_contains fun r hr => h r (List.mem_cons_of_mem _ hr)]
    exact if_neg (h q (List.mem_cons_self _ _))

/-- The last request that holds `x` decides its type and attributes, whatever the requests
before it did; its counterpart is the one it had at the start. -/
theorem foldl_overwrite_last {x : Nat} {m : Nat → Option AddressClass}
    {pre post : List InsertRequest} {q : InsertRequest} (hq : q.Contains x)
    (hpost : ∀ r ∈ post, ¬ r.Contains x) :
    (pre ++ q :: post).foldl overwrite m x = (m x).map q.classOf := by
  rw [List.foldl_append, List.foldl_cons, foldl_overwrite_of_not_contains hpost, overwrite,
    if_pos hq]
  -- `classOf` reads only the counterpart, which the requests before `q` kept
  have hmap : ∀ o : Option AddressClass, o.map q.classOf =
      (o.map AddressClass.pairImage).map fun p => ⟨q.typeId, q.newAttr, p⟩ := by
    intro o
    cases o <;> rfl
  rw [hmap, foldl_overwrite_pairImage, ← hmap]

variable (canDerive : Nat → Nat → Bool)

/-- `MESOSPHERE_INIT_ABORT_UNLESS(tree.Insert(...))` for each request in turn, as the init
code calls `Insert` (lines 185, 186 and 193): `none` unless every call returns `true`. -/
def initInserts (t : List KMemoryBlock) : List InsertRequest → Option (List KMemoryBlock)
  | [] => some t
  | q :: qs =>
    match insert canDerive t q.address q.size q.typeId q.newAttr q.oldAttr with
    | some ⟨true, t', _⟩ => initInserts t' qs
    | _ => none

/-- A run that does not abort starts with an accepted call. -/
theorem initInserts_cons {t t' : List KMemoryBlock} {q : InsertRequest}
    {qs : List InsertRequest} (h : initInserts canDerive t (q :: qs) = some t') :
    ∃ t₁ drawn, insert canDerive t q.address q.size q.typeId q.newAttr q.oldAttr =
      some ⟨true, t₁, drawn⟩ ∧ initInserts canDerive t₁ qs = some t' := by
  simp only [initInserts] at h
  split at h
  · rename_i t₁ drawn hins
    exact ⟨t₁, drawn, hins, h⟩
  · cases h

/-! ## Pair ranges -/

/-- A part of `it` that starts `k` bytes in and ends inside it gets the sentinel when `it`
has no pair, and otherwise a pair range that ends where `it`'s does or below. -/
theorem pairAt_fits {it : KMemoryBlock} {k n : Nat}
    (hpair : it.pairAddress = uintptrMax ∨ it.pairAddress + it.size ≤ uintptrMax)
    (hk : k + n ≤ it.size) :
    pairAt it k = uintptrMax ∨ pairAt it k + n ≤ uintptrMax := by
  unfold pairAt
  by_cases hne : it.pairAddress = uintptrMax
  · exact .inl (by simp [hne])
  · have h := hpair.resolve_left hne
    rw [if_pos hne, addU64_of_lt (by unfold uintptrMax at h; omega)]
    exact .inr (by omega)

/-- The pieces of a split keep their pair ranges below the sentinel when the block's does. -/
theorem pairsFit_splitBlock {it : KMemoryBlock} {address size typeId newAttr oldAttr : Nat}
    (hs : 0 < it.size) (he : it.address + it.size ≤ 2 ^ 64) (hlo : it.address ≤ address)
    (hsize : 0 < size) (hhi : address + size ≤ it.address + it.size)
    (hpair : it.pairAddress = uintptrMax ∨ it.pairAddress + it.size ≤ uintptrMax) :
    PairsFit (splitBlock it address size typeId newAttr oldAttr) := by
  rw [splitBlock_eq hs he hlo hsize hhi]
  simp only [PairsFit, List.mem_append, List.mem_cons, List.mem_ite_nil_left, List.not_mem_nil,
    or_false]
  rintro c (⟨-, rfl⟩ | rfl | ⟨-, rfl⟩)
  · -- the part before the range keeps the block's pair address
    rcases hpair with h | h
    exacts [.inl h, .inr (by dsimp only; omega)]
  · exact pairAt_fits hpair (by dsimp only; omega)
  · exact pairAt_fits hpair (by dsimp only; omega)

/-- Replacing a block by its split keeps the pair ranges fitting. -/
theorem pairsFit_replace {pre post : List KMemoryBlock} {it : KMemoryBlock}
    {address size typeId newAttr oldAttr : Nat} (hfit : PairsFit (pre ++ it :: post))
    (hs : 0 < it.size) (he : it.address + it.size ≤ 2 ^ 64) (hlo : it.address ≤ address)
    (hsize : 0 < size) (hhi : address + size ≤ it.address + it.size) :
    PairsFit (pre ++ splitBlock it address size typeId newAttr oldAttr ++ post) := by
  intro c hc
  simp only [List.mem_append] at hc
  rcases hc with (hc | hc) | hc
  · exact hfit c (List.mem_append_left _ hc)
  · exact pairsFit_splitBlock hs he hlo hsize hhi
      (hfit it (List.mem_append_right _ (List.mem_cons_self _ _))) c hc
  · exact hfit c (List.mem_append_right _ (List.mem_cons_of_mem _ hc))

/-! ## One call, then a run -/

/-- Cutting `[address, address + size)` out of a block of a tiling, as `Insert` does,
overwrites the map on that range and leaves it elsewhere. -/
theorem classify_splitBlock {pre post : List KMemoryBlock} {it : KMemoryBlock} {lo e : Nat}
    {address size typeId newAttr oldAttr : Nat} (htiles : Tiles lo (pre ++ it :: post) e)
    (he : e ≤ 2 ^ 64)
    (hpair : it.pairAddress = uintptrMax ∨ it.pairAddress + it.size ≤ uintptrMax)
    (hlo : it.address ≤ address) (hsize : 0 < size)
    (hhi : address + size ≤ it.address + it.size) :
    classify (pre ++ splitBlock it address size typeId newAttr it.attributes ++ post) =
      overwrite (classify (pre ++ it :: post)) ⟨address, size, typeId, newAttr, oldAttr⟩ := by
  obtain ⟨hpre, hs, hpost⟩ := tiles_around.mp htiles
  have he' : it.address + it.size ≤ 2 ^ 64 := by have := hpost.le; omega
  have hsplit : Tiles it.address (splitBlock it address size typeId newAttr it.attributes)
      (it.address + it.size) := splitBlock_tiles hs he' hlo hsize hhi
  funext x
  by_cases hxit : it.address ≤ x ∧ x < it.address + it.size
  · -- inside `it`, the piece that holds `x` gives the class the overwrite promises
    have hnone := hpre.find?_eq_none (by omega) (Or.inr hxit.1)
    obtain ⟨b, hb, hfb, hbx⟩ := hsplit.find?_eq_some he' hxit.1 hxit.2
    have hold : classify (pre ++ it :: post) x = some (it.classOf x) := by
      simp [classify, hnone, (contains_iff hs he').mpr hxit]
    simp only [overwrite, InsertRequest.Contains]
    rw [hold]
    simp only [classify, List.append_assoc, List.find?_append, hnone, hfb, Option.none_or,
      Option.or_some, Option.map_some']
    rw [classOf_of_mem_splitBlock hs he' hlo hsize hhi hpair hb hbx]
    split_ifs <;> rfl
  · -- outside `it`, neither map changes
    have hx : ¬ (address ≤ x ∧ x < address + size) := by omega
    have hnone : (splitBlock it address size typeId newAttr it.attributes).find?
        (fun b => b.Contains x) = none := hsplit.find?_eq_none he' (by omega)
    have hitx : ¬ it.Contains x := by rw [contains_iff hs he']; exact hxit
    simp [classify, overwrite, InsertRequest.Contains, hx, List.find?_append, hnone, hitx]

/-- One accepted `Insert` with a request in range, on a tree that keeps the tiling and whose
pair ranges fit: the new tree keeps both, and its map is the old one with the request's
range overwritten. -/
theorem insert_overwrite {t t' : List KMemoryBlock} {lo hi : Nat} {q : InsertRequest}
    {drawn : Nat} (hcov : Covers t lo hi) (hfit : PairsFit t) (hq : q.InRange lo hi)
    (h : insert canDerive t q.address q.size q.typeId q.newAttr q.oldAttr =
      some ⟨true, t', drawn⟩) :
    classify t' = overwrite (classify t) q ∧ Covers t' lo hi ∧ PairsFit t' := by
  obtain ⟨address, size, typeId, newAttr, oldAttr⟩ := q
  obtain ⟨hlo, hhi', hsize, hwrap⟩ := hq
  dsimp only at h hlo hhi' hsize hwrap
  obtain ⟨r, hr, hrcov, -⟩ :=
    insert_covers canDerive typeId newAttr oldAttr hcov hlo hhi' hsize hwrap
  obtain rfl : ⟨true, t', drawn⟩ = r := Option.some.inj (h.symm.trans hr)
  obtain ⟨pre, it, post, hf, hacc, htree, -⟩ := insert_eq_some canDerive h
  obtain ⟨rfl, hit, -⟩ := findContainingBlock_spec hf
  obtain ⟨rfl, hlast, -⟩ := hacc.mp rfl
  obtain rfl : t' = pre ++ splitBlock it address size typeId newAttr it.attributes ++ post :=
    htree rfl
  -- the request lies inside the block `FindContainingBlock` found
  obtain ⟨-, hs, hpost⟩ := tiles_around.mp hcov.1
  have he : it.address + it.size ≤ 2 ^ 64 := by have := hpost.le; have := hcov.2; omega
  have hin := (contains_iff hs he).mp hit
  have hhi : address + size ≤ it.address + it.size := by
    rw [lastAddress_eq hs he, insertedBlockLast_eq hsize (by omega : address + size ≤ 2 ^ 64)]
      at hlast
    omega
  exact ⟨classify_splitBlock hcov.1 hcov.2 (hfit it (List.mem_append_right _
      (List.mem_cons_self _ _))) hin.1 hsize hhi, hrcov,
    pairsFit_replace hfit hs he hin.1 hsize hhi⟩

/-- A run of in-range init-time inserts from a tree that keeps the tiling and whose pair
ranges fit keeps both, and its map is the old map with each request's range overwritten in
turn. -/
theorem initInserts_overwrites {lo hi : Nat} :
    ∀ {t t' : List KMemoryBlock} {qs : List InsertRequest}, Covers t lo hi → PairsFit t →
      (∀ q ∈ qs, q.InRange lo hi) → initInserts canDerive t qs = some t' →
      classify t' = qs.foldl overwrite (classify t) ∧ Covers t' lo hi ∧ PairsFit t'
  | _, _, [], hcov, hfit, _, h => by
    obtain rfl := Option.some.inj h
    exact ⟨rfl, hcov, hfit⟩
  | _, _, q :: qs, hcov, hfit, hqs, h => by
    obtain ⟨t₁, drawn, hins, hrest⟩ := initInserts_cons canDerive h
    obtain ⟨hmap, hcov₁, hfit₁⟩ :=
      insert_overwrite canDerive hcov hfit (hqs q (List.mem_cons_self _ _)) hins
    obtain ⟨hmap', hcov', hfit'⟩ := initInserts_overwrites hcov₁ hfit₁
      (fun q' hq' => hqs q' (List.mem_cons_of_mem _ hq')) hrest
    exact ⟨by rw [hmap', hmap, List.foldl_cons], hcov', hfit'⟩

/-- The init-time inserts refine range overwrites of the address map: from a tree that
keeps the tiling and whose pair ranges fit, every run of in-range `Insert` calls that the
boot does not abort leaves a tree that keeps both, in which an address no request holds
keeps its class, and an address takes the type and attributes of the last request that
holds it, keeping the counterpart it had before the run. -/
theorem initInserts_classify {lo hi : Nat} {t t' : List KMemoryBlock}
    {qs : List InsertRequest} (hcov : Covers t lo hi) (hfit : PairsFit t)
    (hqs : ∀ q ∈ qs, q.InRange lo hi) (h : initInserts canDerive t qs = some t') :
    Covers t' lo hi ∧ PairsFit t' ∧
      (∀ x, (∀ q ∈ qs, ¬ q.Contains x) → classify t' x = classify t x) ∧
      ∀ x pre q post, qs = pre ++ q :: post → q.Contains x → (∀ r ∈ post, ¬ r.Contains x) →
        classify t' x = (classify t x).map q.classOf := by
  obtain ⟨hmap, hcov', hfit'⟩ := initInserts_overwrites canDerive hcov hfit hqs h
  refine ⟨hcov', hfit', fun x hx => ?_, fun x pre q post hsplit hq hpost => ?_⟩
  · rw [hmap, foldl_overwrite_of_not_contains hx]
  · rw [hmap, hsplit, foldl_overwrite_last hq hpost]

/-- `initInserts_classify` on one block with a pair: a block cut out of its middle, then a
block cut out of the start of that one. -/
theorem initInserts_classify_nested :
    let t : List KMemoryBlock := [⟨0, 0x1000, 0x8000, 0, 1⟩]
    let qs : List InsertRequest := [⟨0x100, 0x200, 2, 1, 0⟩, ⟨0x100, 0x100, 3, 2, 1⟩]
    let t' : List KMemoryBlock := [⟨0, 0x100, 0x8000, 0, 1⟩, ⟨0x100, 0x100, 0x8100, 2, 3⟩,
      ⟨0x200, 0x100, 0x8200, 1, 2⟩, ⟨0x300, 0xD00, 0x8300, 0, 1⟩]
    (Covers t 0 0xFFF ∧ PairsFit t ∧ (∀ q ∈ qs, q.InRange 0 0xFFF) ∧
      initInserts (fun _ _ => true) t qs = some t') ∧
    Covers t' 0 0xFFF ∧ PairsFit t' ∧
      (∀ x, (∀ q ∈ qs, ¬ q.Contains x) → classify t' x = classify t x) ∧
      ∀ x pre q post, qs = pre ++ q :: post → q.Contains x → (∀ r ∈ post, ¬ r.Contains x) →
        classify t' x = (classify t x).map q.classOf :=
  ⟨⟨by decide, by decide, by decide, by decide⟩,
    initInserts_classify (fun _ _ => true) (by decide) (by decide) (by decide) (by decide)⟩

end KMemoryBlockTree

end Ams.Kern
