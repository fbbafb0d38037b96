import Atmosphere.Fs.FileStorage

/-!
# The size cache is invisible to a caller

`FileStorage` and `FileHandleStorage` keep the base file's size in `m_size` so as not to
ask the base file for it on every access.  This module compares each storage with the
same storage without the cache: its members run on a cache reset to `InvalidSize`, so
that `UpdateSize` asks the base file every time.  When the base file's `GetSize` is a
query (it succeeds, reports the size and changes nothing), the two are indistinguishable
along any sequence of calls: the same results, the same output sizes, the same base file
after each call, and the same base calls, save one `GetSize` in front that the cache
spared.
-/

namespace Ams.Fs

variable {σ : Type} {f : BaseFile σ} {invalidSize : Int} {size : σ → Int}
  {st : StorageState σ}

/-- A base file whose `GetSize` always succeeds, reports the size and changes nothing. -/
def GetSizeQuery (f : BaseFile σ) (size : σ → Int) : Prop :=
  ∀ s out, f.getSize s out = (.success, size s, s)

/-- Specification side: the storage with no size cache, each member run on a cache reset
to `InvalidSize`. -/
def uncached (invalidSize : Int) (callFn : StorageState σ → StorageCall → Reply σ)
    (st : StorageState σ) (c : StorageCall) : Reply σ :=
  callFn ⟨invalidSize, st.file⟩ c

/-- Replies a caller cannot tell apart: the same result, output and base file after, and
the same base calls, the second reply's with at most one `GetSize` in front. -/
def Reply.Agrees (r r' : Reply σ) : Prop :=
  r.result = r'.result ∧ r.outSize = r'.outSize ∧ r.state.file = r'.state.file ∧
    (r'.calls = r.calls ∨ r'.calls = .getSize :: r.calls)

theorem Reply.agrees_self (r : Reply σ) : r.Agrees r :=
  ⟨rfl, rfl, rfl, .inl rfl⟩

/-- A reply made before `UpdateSize` depends on the cache only through the state it
returns. -/
theorem agrees_of_file {r : FsResult} {out : Option Int} {calls : List BaseCall}
    {s s' : StorageState σ} (h : s.file = s'.file) :
    Reply.Agrees ⟨r, out, calls, s⟩ ⟨r, out, calls, s'⟩ :=
  ⟨rfl, rfl, h, .inl rfl⟩

theorem agrees_of_query {r : FsResult} {out : Option Int} {calls : List BaseCall}
    {s : StorageState σ} : Reply.Agrees ⟨r, out, calls, s⟩ ⟨r, out, .getSize :: calls, s⟩ :=
  ⟨rfl, rfl, rfl, .inr rfl⟩

/-- With a cache holding the base file's size, `UpdateSize` calls nothing. -/
theorem updateSize_of_cached (hs : st.mSize ≠ invalidSize) :
    FileStorage.updateSize f invalidSize st = (.success, [], st) :=
  if_pos hs

/-- On a reset cache, a query `GetSize` refills it with the base file's size, which is
what a valid cache already held. -/
theorem updateSize_of_reset (hq : GetSizeQuery f size) (hs : st.mSize ≠ invalidSize)
    (hst : CacheValid invalidSize size st) :
    FileStorage.updateSize f invalidSize ⟨invalidSize, st.file⟩ = (.success, [.getSize], st) := by
  rw [FileStorage.updateSize, if_neg (not_not.mpr rfl), hq, ← hst.resolve_left hs]

section Cached

variable (hq : GetSizeQuery f size) (hs : st.mSize ≠ invalidSize)
  (hst : CacheValid invalidSize size st)
include hq hs hst

theorem forwardAccess_agrees (checkAccessRange : Int → Nat → Int → Bool)
    (forward : σ → Int → Nat → FsResult × σ) (record : Int → Nat → BaseCall) (offset : Int)
    (bufferNull : Bool) (n : Nat) :
    (FileStorage.forwardAccess f invalidSize checkAccessRange forward record st offset
      bufferNull n).Agrees
      (FileStorage.forwardAccess f invalidSize checkAccessRange forward record
        ⟨invalidSize, st.file⟩ offset bufferNull n) := by
  unfold FileStorage.forwardAccess
  rw [updateSize_of_cached hs, updateSize_of_reset hq hs hst]
  simp only [ne_eq, not_true_eq_false, if_false]
  split_ifs
  · exact agrees_of_file rfl
  · exact agrees_of_file rfl
  all_goals exact agrees_of_query

theorem getSize_agrees :
    (FileStorage.getSize f invalidSize st).Agrees
      (FileStorage.getSize f invalidSize ⟨invalidSize, st.file⟩) := by
  unfold FileStorage.getSize
  rw [updateSize_of_cached hs, updateSize_of_reset hq hs hst]
  simp only [ne_eq, not_true_eq_false, if_false]
  exact agrees_of_query

theorem FileStorage.operateRange_agrees (checkOffsetAndSize : Int → Int → Bool)
    (queryRangeInfoSize : Nat) (dstNull : Bool) (dstSize : Nat) (opId : OperationId)
    (offset n : Int) :
    (FileStorage.operateRange f invalidSize checkOffsetAndSize queryRangeInfoSize st dstNull
      dstSize opId offset n).Agrees
      (FileStorage.operateRange f invalidSize checkOffsetAndSize queryRangeInfoSize
        ⟨invalidSize, st.file⟩ dstNull dstSize opId offset n) := by
  unfold FileStorage.operateRange
  rw [updateSize_of_cached hs, updateSize_of_reset hq hs hst]
  cases opId with
  | other => exact agrees_of_file rfl
  | invalidate | queryRange =>
    simp only [ne_eq, not_true_eq_false, if_false]
    split_ifs
    all_goals first | exact agrees_of_file rfl | exact agrees_of_query

end Cached

theorem FileHandleStorage.operateRange_agrees (queryRangeInfoSize : Nat) (dstNull : Bool)
    (dstSize : Nat) (opId : OperationId) (offset n : Int) :
    (FileHandleStorage.operateRange f queryRangeInfoSize st dstNull dstSize opId offset
      n).Agrees
      (FileHandleStorage.operateRange f queryRangeInfoSize ⟨invalidSize, st.file⟩ dstNull
        dstSize opId offset n) := by
  unfold FileHandleStorage.operateRange
  cases opId with
  | queryRange =>
    simp only
    split_ifs
    all_goals exact agrees_of_file rfl
  | _ => exact agrees_of_file rfl

/-- From a valid cache, every member agrees with the same member without the cache,
given an `OperateRange` that does. -/
theorem call_agrees (hq : GetSizeQuery f size) (checkAccessRange : Int → Nat → Int → Bool)
    {operate : StorageState σ → Bool → Nat → OperationId → Int → Int → Reply σ}
    (hoperate : ∀ st dstNull dstSize opId offset n, st.mSize ≠ invalidSize →
      CacheValid invalidSize size st →
      (operate st dstNull dstSize opId offset n).Agrees
        (operate ⟨invalidSize, st.file⟩ dstNull dstSize opId offset n))
    (hst : CacheValid invalidSize size st) (c : StorageCall) :
    (FileStorage.call f invalidSize checkAccessRange operate st c).Agrees
      (uncached invalidSize (FileStorage.call f invalidSize checkAccessRange operate) st c) := by
  by_cases hs : st.mSize = invalidSize
  · have hreset : (⟨invalidSize, st.file⟩ : StorageState σ) = st := by rw [← hs]
    rw [uncached, hreset]
    exact Reply.agrees_self _
  cases c with
  | read offset bufferNull n =>
    exact forwardAccess_agrees hq hs hst checkAccessRange f.read .read offset bufferNull n
  | write offset bufferNull n =>
    exact forwardAccess_agrees hq hs hst checkAccessRange f.write .write offset bufferNull n
  | flush => exact agrees_of_file rfl
  | getSize => exact getSize_agrees hq hs hst
  | setSize n => exact agrees_of_file rfl
  | operateRange dstNull dstSize opId offset n =>
    exact hoperate st dstNull dstSize opId offset n hs hst

/-- Along any run from a valid cache, the storage and the uncached storage fed the same
calls from a base file in the same state keep the base file in step, and agree on the
next call. -/
theorem runCalls_agrees {callFn : StorageState σ → StorageCall → Reply σ}
    (hvalid : ∀ st c, CacheValid invalidSize size st →
      CacheValid invalidSize size (callFn st c).state)
    (hcall : ∀ st c, CacheValid invalidSize size st →
      (callFn st c).Agrees (uncached invalidSize callFn st c)) :
    ∀ (cs : List StorageCall) {st s : StorageState σ}, CacheValid invalidSize size st →
      st.file = s.file →
      (runCalls callFn st cs).file = (runCalls (uncached invalidSize callFn) s cs).file ∧
        ∀ c, (callFn (runCalls callFn st cs) c).Agrees
          (uncached invalidSize callFn (runCalls (uncached invalidSize callFn) s cs) c)
  | [], st, s, hst, hfile => ⟨hfile, fun c => by
      simpa only [uncached, runCalls, hfile] using hcall st c hst⟩
  | c :: cs, st, s, hst, hfile => by
    have hstep : (callFn st c).state.file = (uncached invalidSize callFn s c).state.file := by
      simpa only [uncached, hfile] using (hcall st c hst).2.2.1
    exact runCalls_agrees hvalid hcall cs (hvalid st c hst) hstep

/-- `SetSize` leaves no stale size behind: on either storage (they share `SetSize` and
`GetSize`), whatever the cache held, after a successful `SetSize(n)` a `GetSize` that
succeeds reports `n`. -/
theorem getSize_after_setSize (hf : SizeContract f size)
    (checkAccessRange : Int → Nat → Int → Bool)
    (operate : StorageState σ → Bool → Nat → OperationId → Int → Int → Reply σ)
    (st : StorageState σ) (n : Int) (hset : (f.setSize st.file n).1 = .success) :
    let callFn := FileStorage.call f invalidSize checkAccessRange operate
    (callFn (callFn st (.setSize n)).state .getSize).result = .success →
      (callFn (callFn st (.setSize n)).state .getSize).outSize = some n := by
  intro callFn hok
  have hst : CacheValid invalidSize size (callFn st (.setSize n)).state := .inl rfl
  exact ((getSize_keeps hf hst).2 hok).trans
    (congrArg some (hf.setSize_success st.file n hset))

/-- `getSize_after_setSize` on a `FileStorage` holding the size of a 4 KiB file, shrunk to
2 KiB. -/
theorem getSize_after_setSize_shrink :
    let callFn := FileStorage.members sizeOnlyFile (-1)
      (fun o n t => decide (0 ≤ o ∧ o + n ≤ t)) (fun _ _ => true) 0x40
    (SizeContract sizeOnlyFile id ∧ (sizeOnlyFile.setSize 0x1000 0x800).1 = .success) ∧
      ((callFn (callFn ⟨0x1000, 0x1000⟩ (.setSize 0x800)).state .getSize).result = .success →
        (callFn (callFn ⟨0x1000, 0x1000⟩ (.setSize 0x800)).state .getSize).outSize =
          some 0x800) :=
  ⟨⟨sizeOnlyFile_sizeContract, rfl⟩,
    getSize_after_setSize sizeOnlyFile_sizeContract (fun o n t => decide (0 ≤ o ∧ o + n ≤ t))
      (FileStorage.operateRange sizeOnlyFile (-1) (fun _ _ => true) 0x40) ⟨0x1000, 0x1000⟩ 0x800
      rfl⟩

/-- A storage whose `OperateRange` keeps the cache and agrees with itself without the cache
agrees with its uncached form along every run from a valid cache. -/
theorem call_runCalls_agrees (hf : SizeContract f size) (hq : GetSizeQuery f size)
    (checkAccessRange : Int → Nat → Int → Bool)
    (hcheck : ∀ o n t, checkAccessRange o n t = true ↔ 0 ≤ o ∧ o + n ≤ t)
    {operate : StorageState σ → Bool → Nat → OperationId → Int → Int → Reply σ}
    (hkeeps : ∀ st dstNull dstSize opId offset n, CacheValid invalidSize size st →
      Keeps invalidSize size st (operate st dstNull dstSize opId offset n))
    (hagrees : ∀ st dstNull dstSize opId offset n, st.mSize ≠ invalidSize →
      CacheValid invalidSize size st →
      (operate st dstNull dstSize opId offset n).Agrees
        (operate ⟨invalidSize, st.file⟩ dstNull dstSize opId offset n))
    (hst : CacheValid invalidSize size st) (cs : List StorageCall) :
    let callFn := FileStorage.call f invalidSize checkAccessRange operate
    (runCalls callFn st cs).file = (runCalls (uncached invalidSize callFn) st cs).file ∧
      ∀ c, (callFn (runCalls callFn st cs) c).Agrees
        (uncached invalidSize callFn (runCalls (uncached invalidSize callFn) st cs) c) :=
  runCalls_agrees (fun _ c hst => (call_keeps hf checkAccessRange hcheck hkeeps hst c).1.1)
    (fun _ c hst => call_agrees hq checkAccessRange hagrees hst c) cs hst rfl

/-- Over a base file that keeps `SizeContract` and whose `GetSize` is a query, a
`FileStorage` or a `FileHandleStorage` whose cache starts valid cannot be told apart from
the same storage without the cache: fed the same calls, the two keep the base file in the
same state, and at every point the next call gives the same result and output size and
makes the same base calls, save one `GetSize` that the cache spared. -/
theorem storage_cache_transparent (hf : SizeContract f size) (hq : GetSizeQuery f size)
    (checkAccessRange : Int → Nat → Int → Bool)
    (hcheck : ∀ o n t, checkAccessRange o n t = true ↔ 0 ≤ o ∧ o + n ≤ t)
    (checkOffsetAndSize : Int → Int → Bool) (queryRangeInfoSize : Nat)
    (hst : CacheValid invalidSize size st) (cs : List StorageCall) :
    let fileStorage :=
      FileStorage.members f invalidSize checkAccessRange checkOffsetAndSize queryRangeInfoSize
    let fileHandleStorage :=
      FileHandleStorage.members f invalidSize checkAccessRange queryRangeInfoSize
    ((runCalls fileStorage st cs).file =
        (runCalls (uncached invalidSize fileStorage) st cs).file ∧
      ∀ c, (fileStorage (runCalls fileStorage st cs) c).Agrees
        (uncached invalidSize fileStorage (runCalls (uncached invalidSize fileStorage) st cs) c)) ∧
    ((runCalls fileHandleStorage st cs).file =
        (runCalls (uncached invalidSize fileHandleStorage) st cs).file ∧
      ∀ c, (fileHandleStorage (runCalls fileHandleStorage st cs) c).Agrees
        (uncached invalidSize fileHandleStorage
          (runCalls (uncached invalidSize fileHandleStorage) st cs) c)) :=
  ⟨call_runCalls_agrees hf hq checkAccessRange hcheck
      (fun _ dstNull dstSize opId offset n hst =>
        FileStorage.operateRange_keeps hf checkOffsetAndSize queryRangeInfoSize hst dstNull
          dstSize opId offset n)
      (fun _ dstNull dstSize opId offset n hs hst =>
        FileStorage.operateRange_agrees hq hs hst checkOffsetAndSize queryRangeInfoSize dstNull
          dstSize opId offset n) hst cs,
    call_runCalls_agrees hf hq checkAccessRange hcheck
      (fun _ dstNull dstSize opId offset n hst =>
        FileHandleStorage.operateRange_keeps hf queryRangeInfoSize hst dstNull dstSize opId
          offset n)
      (fun _ dstNull dstSize opId offset n _ _ =>
        FileHandleStorage.operateRange_agrees queryRangeInfoSize dstNull dstSize opId offset n)
      hst cs⟩

/-- `storage_cache_transparent` on a storage that holds the size of a 4 KiB file, over a
write of its last 256 bytes, a shrink to 2 KiB and a size query. -/
theorem storage_cache_transparent_resized :
    let fileStorage := FileStorage.members sizeOnlyFile (-1)
      (fun o n t => decide (0 ≤ o ∧ o + n ≤ t)) (fun _ _ => true) 0x40
    let fileHandleStorage := FileHandleStorage.members sizeOnlyFile (-1)
      (fun o n t => decide (0 ≤ o ∧ o + n ≤ t)) 0x40
    let st : StorageState Int := ⟨0x1000, 0x1000⟩
    let cs : List StorageCall := [.write 0xF00 false 0x100, .setSize 0x800, .getSize]
    (SizeContract sizeOnlyFile id ∧ GetSizeQuery sizeOnlyFile id ∧
      (∀ o n t, decide (0 ≤ o ∧ o + n ≤ t) = true ↔ 0 ≤ o ∧ o + n ≤ t) ∧
      CacheValid (-1) id st) ∧
    ((runCalls fileStorage st cs).file = (runCalls (uncached (-1) fileStorage) st cs).file ∧
      ∀ c, (fileStorage (runCalls fileStorage st cs) c).Agrees
        (uncached (-1) fileStorage (runCalls (uncached (-1) fileStorage) st cs) c)) ∧
    ((runCalls fileHandleStorage st cs).file =
        (runCalls (uncached (-1) fileHandleStorage) st cs).file ∧
      ∀ c, (fileHandleStorage (runCalls fileHandleStorage st cs) c).Agrees
        (uncached (-1) fileHandleStorage (runCalls (uncached (-1) fileHandleStorage) st cs) c)) :=
  ⟨⟨sizeOnlyFile_sizeContract, fun _ _ => rfl, fun _ _ _ => decide_eq_true_iff, .inr rfl⟩,
    storage_cache_transparent sizeOnlyFile_sizeContract (fun _ _ => rfl)
      (fun o n t => decide (0 ≤ o ∧ o + n ≤ t)) (fun _ _ _ => decide_eq_true_iff)
      (fun _ _ => true) 0x40 (.inr rfl) [.write 0xF00 false 0x100, .setSize 0x800, .getSize]⟩

end Ams.Fs
