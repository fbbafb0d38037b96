import Mathlib.Data.List.Basic

/-!
# `FileStorage` and `FileHandleStorage` over their base file

Both storages forward to a base file and cache its size in `m_size`, which `SetSize`
resets to `InvalidSize` and `UpdateSize` refills from the base file when it is needed.
The base file is any implementation of the members the storages call: the model takes
it as a record of functions on the file's state, and what the storages rely on (a
successful `GetSize` reports the size, and only `SetSize` and writes past the end change
it) is the hypothesis `SizeContract`.  `FileHandleStorage` calls the handle functions
(`GetFileSize`, `ReadFile`, ...) where `FileStorage` calls `IFile` members; with those
as its base file its members are `FileStorage`'s, `OperateRange` apart.

Over that contract the cache is never stale: along every sequence of calls `m_size` is
`InvalidSize` or the base file's size, so `GetSize` reports the size and every `Read` or
`Write` that reaches the base file lies inside it.  `IStorage::CheckAccessRange`,
`IStorage::CheckOffsetAndSize`, `InvalidSize` and `sizeof(QueryRangeInfo)` are declared
in headers outside the sources and are parameters.
-/

namespace Ams.Fs

/-- `Result`, with the codes the storages return; `base code` is a failure of the base
file, passed on unchanged. -/
inductive FsResult
  | success
  | nullptrArgument
  | outOfRange
  | invalidSize
  | unsupportedOperationInFileStorageA
  | unsupportedOperationInFileStorageB
  | base (code : Nat)
  deriving Repr, DecidableEq

/-- `OperationId`, as far as `OperateRange` tells its values apart. -/
inductive OperationId
  | invalidate
  | queryRange
  | other (value : Nat)
  deriving Repr, DecidableEq

/-- A call a storage makes on its base file. -/
inductive BaseCall
  | getSize
  | read (offset : Int) (size : Nat)
  | write (offset : Int) (size : Nat)
  | flush
  | setSize (size : Int)
  | operateRange (opId : OperationId) (offset size : Int)
  deriving Repr, DecidableEq

/-- The base file's members, each mapping the file's state to its result and next state;
`getSize` also takes and returns its output argument. -/
structure BaseFile (σ : Type) where
  getSize : σ → Int → FsResult × Int × σ
  read : σ → Int → Nat → FsResult × σ
  write : σ → Int → Nat → FsResult × σ
  flush : σ → FsResult × σ
  setSize : σ → Int → FsResult × σ
  operateRange : σ → OperationId → Int → Int → FsResult × σ

/-- A storage: the cached size `m_size` and the state of its base file. -/
structure StorageState (σ : Type) where
  mSize : Int
  file : σ

/-- What a member call gives back: its `Result`, `*out_size` when it was written, the
calls made on the base file in order, and the storage after the call. -/
structure Reply (σ : Type) where
  result : FsResult
  outSize : Option Int
  calls : List BaseCall
  state : StorageState σ

/-- A member call on a storage. -/
inductive StorageCall
  /-- `Read(offset, buffer, size)`; `bufferNull` is `buffer == nullptr`. -/
  | read (offset : Int) (bufferNull : Bool) (size : Nat)
  /-- `Write(offset, buffer, size)`. -/
  | write (offset : Int) (bufferNull : Bool) (size : Nat)
  | flush
  | getSize
  | setSize (size : Int)
  /-- `OperateRange(dst, dst_size, op_id, offset, size, src, src_size)`. -/
  | operateRange (dstNull : Bool) (dstSize : Nat) (opId : OperationId) (offset size : Int)
  deriving Repr, DecidableEq

variable {σ : Type} (f : BaseFile σ) (invalidSize : Int)

namespace FileStorage

/-- `UpdateSize()`: the cached size, or the base file's `GetSize` into `m_size`. -/
def updateSize (st : StorageState σ) : FsResult × List BaseCall × StorageState σ :=
  if st.mSize ≠ invalidSize then (.success, [], st)
  else
    let (r, out, file) := f.getSize st.file st.mSize
    (r, [.getSize], ⟨out, file⟩)

variable (checkAccessRange : Int → Nat → Int → Bool)

/-- The body `Read` and `Write` share: they differ only in the base member they forward
to, `forward`, recorded as `record`. -/
def forwardAccess (forward : σ → Int → Nat → FsResult × σ)
    (record : Int → Nat → BaseCall) (st : StorageState σ) (offset : Int) (bufferNull : Bool)
    (size : Nat) : Reply σ :=
  if size = 0 then ⟨.success, none, [], st⟩
  else if bufferNull then ⟨.nullptrArgument, none, [], st⟩
  else
    let (r, calls, st) := updateSize f invalidSize st
    if r ≠ .success then ⟨r, none, calls, st⟩
    else if !checkAccessRange offset size st.mSize then ⟨.outOfRange, none, calls, st⟩
    else
      let (r, file) := forward st.file offset size
      ⟨r, none, calls ++ [record offset size], { st with file := file }⟩

/-- `Read(offset, buffer, size)`. -/
def read : StorageState σ → Int → Bool → Nat → Reply σ :=
  forwardAccess f invalidSize checkAccessRange f.read .read

/-- `Write(offset, buffer, size)`. -/
def write : StorageState σ → Int → Bool → Nat → Reply σ :=
  forwardAccess f invalidSize checkAccessRange f.write .write

/-- `Flush()`. -/
def flush (st : StorageState σ) : Reply σ :=
  let (r, file) := f.flush st.file
  ⟨r, none, [.flush], { st with file := file }⟩

/-- `GetSize(out_size)`. -/
def getSize (st : StorageState σ) : Reply σ :=
  let (r, calls, st) := updateSize f invalidSize st
  if r ≠ .success then ⟨r, none, calls, st⟩ else ⟨.success, some st.mSize, calls, st⟩

/-- `SetSize(size)`: forget the cached size, then resize the base file. -/
def setSize (st : StorageState σ) (size : Int) : Reply σ :=
  let (r, file) := f.setSize st.file size
  ⟨r, none, [.setSize size], ⟨invalidSize, file⟩⟩

variable (checkOffsetAndSize : Int → Int → Bool) (queryRangeInfoSize : Nat)

/-- `FileStorage::OperateRange`: `Invalidate` and `QueryRange` are forwarded once the size
is known; an empty range succeeds at once, after `QueryRange`'s checks of `dst`. -/
def operateRange (st : StorageState σ) (dstNull : Bool) (dstSize : Nat) (opId : OperationId)
    (offset size : Int) : Reply σ :=
  match opId with
  | .invalidate | .queryRange =>
    if size = 0 then
      if opId = .queryRange then
        if dstNull then ⟨.nullptrArgument, none, [], st⟩
        else if dstSize ≠ queryRangeInfoSize then ⟨.invalidSize, none, [], st⟩
        else ⟨.success, none, [], st⟩
      else ⟨.success, none, [], st⟩
    else
      let (r, calls, st) := updateSize f invalidSize st
      if r ≠ .success then ⟨r, none, calls, st⟩
      else if !checkOffsetAndSize offset size then ⟨.outOfRange, none, calls, st⟩
      else
        let (r, file) := f.operateRange st.file opId offset size
        ⟨r, none, calls ++ [.operateRange opId offset size], { st with file := file }⟩
  | .other _ => ⟨.unsupportedOperationInFileStorageA, none, [], st⟩

/-- The members of a storage whose `OperateRange` is `operate`. -/
def call (operate : StorageState σ → Bool → Nat → OperationId → Int → Int → Reply σ)
    (st : StorageState σ) : StorageCall → Reply σ
  | .read offset bufferNull size => read f invalidSize checkAccessRange st offset bufferNull size
  | .write offset bufferNull size => write f invalidSize checkAccessRange st offset bufferNull size
  | .flush => flush f st
  | .getSize => getSize f invalidSize st
  | .setSize size => setSize f invalidSize st size
  | .operateRange dstNull dstSize opId offset size => operate st dstNull dstSize opId offset size

/-- `FileStorage`'s members. -/
def members : StorageState σ → StorageCall → Reply σ :=
  call f invalidSize checkAccessRange
    (operateRange f invalidSize checkOffsetAndSize queryRangeInfoSize)

end FileStorage

namespace FileHandleStorage

variable (checkAccessRange : Int → Nat → Int → Bool) (queryRangeInfoSize : Nat)

/-- `FileHandleStorage::OperateRange`: only `QueryRange`, forwarded to the handle's
`QueryRange` once `dst` is checked. -/
def operateRange (st : StorageState σ) (dstNull : Bool) (dstSize : Nat) (opId : OperationId)
    (offset size : Int) : Reply σ :=
  match opId with
  | .queryRange =>
    if dstNull then ⟨.nullptrArgument, none, [], st⟩
    else if dstSize ≠ queryRangeInfoSize then ⟨.invalidSize, none, [], st⟩
    else
      let (r, file) := f.operateRange st.file .queryRange offset size
      ⟨r, none, [.operateRange .queryRange offset size], { st with file := file }⟩
  | _ => ⟨.unsupportedOperationInFileStorageB, none, [], st⟩

/-- `FileHandleStorage`'s members: `FileStorage`'s over the handle functions, with its own
`OperateRange`. -/
def members : StorageState σ → StorageCall → Reply σ :=
  FileStorage.call f invalidSize checkAccessRange (operateRange f queryRangeInfoSize)

end FileHandleStorage

/-- The storage after a sequence of calls of `callFn`. -/
def runCalls (callFn : StorageState σ → StorageCall → Reply σ) :
    StorageState σ → List StorageCall → StorageState σ
  | st, [] => st
  | st, c :: cs => runCalls callFn (callFn st c).state cs

/-! ## The size contract and the cache invariant -/

/-- What the storages assume of a base file whose size `size` changes only through them:
`GetSize` reports the size on success and leaves its output alone on failure, a
successful `SetSize(s)` makes the size `s`, a write inside the file keeps it, and no other
member changes it. -/
structure SizeContract (size : σ → Int) : Prop where
  getSize_success : ∀ s out, (f.getSize s out).1 = .success → (f.getSize s out).2.1 = size s
  getSize_failure : ∀ s out, (f.getSize s out).1 ≠ .success → (f.getSize s out).2.1 = out
  getSize_size : ∀ s out, size (f.getSize s out).2.2 = size s
  read_size : ∀ s o n, size (f.read s o n).2 = size s
  write_size : ∀ s o (n : Nat), 0 ≤ o → o + n ≤ size s → size (f.write s o n).2 = size s
  flush_size : ∀ s, size (f.flush s).2 = size s
  setSize_success : ∀ s n, (f.setSize s n).1 = .success → size (f.setSize s n).2 = n
  operateRange_size : ∀ s op o n, size (f.operateRange s op o n).2 = size s

/-- The cached size is `InvalidSize` or the base file's size. -/
def CacheValid (size : σ → Int) (st : StorageState σ) : Prop :=
  st.mSize = invalidSize ∨ st.mSize = size st.file

/-- A `Read` or `Write` of the base file lies inside `[0, bound]`; the other calls access
no range of it. -/
def BaseCall.Inside (bound : Int) : BaseCall → Prop
  | .read offset size | .write offset size => 0 ≤ offset ∧ offset + size ≤ bound
  | _ => True

/-- A reply from `st` leaves a valid cache, and each base call it made lies inside the
base file of `st`. -/
def Keeps (size : σ → Int) (st : StorageState σ) (reply : Reply σ) : Prop :=
  CacheValid invalidSize size reply.state ∧ ∀ c ∈ reply.calls, c.Inside (size st.file)

/-- What one call from `st` keeps: the cache is valid after it, every `Read` or `Write`
forwarded to the base file lies inside it, and a successful `GetSize` reports its size. -/
def CallKeeps (size : σ → Int) (st : StorageState σ) (c : StorageCall) (reply : Reply σ) :
    Prop :=
  Keeps invalidSize size st reply ∧
    (c = .getSize → reply.result = .success → reply.outSize = some (size st.file))

variable {f invalidSize} {size : σ → Int} {st st' : StorageState σ}

theorem keeps_of_calls_nil {r : FsResult} {out : Option Int}
    (hst : CacheValid invalidSize size st) : Keeps invalidSize size st ⟨r, out, [], st⟩ :=
  ⟨hst, fun _ h => absurd h (List.not_mem_nil _)⟩

theorem cacheValid_with_file {file : σ} (hst : CacheValid invalidSize size st)
    (hsize : size file = size st.file) : CacheValid invalidSize size { st with file := file } :=
  hst.imp id fun h => h.trans hsize.symm

theorem inside_of_getSize {calls : List BaseCall} (hcalls : ∀ c ∈ calls, c = .getSize)
    (bound : Int) : ∀ c ∈ calls, c.Inside bound := by
  intro c hc
  rw [hcalls c hc]
  trivial

theorem setSize_keeps (n : Int) :
    Keeps invalidSize size st (FileStorage.setSize f invalidSize st n) :=
  ⟨.inl rfl, fun c hc => by rw [List.mem_singleton.mp hc]; trivial⟩

/-- A run of calls that each keep the cache valid keeps it valid. -/
theorem runCalls_cacheValid {callFn : StorageState σ → StorageCall → Reply σ}
    (hcall : ∀ st c, CacheValid invalidSize size st →
      CacheValid invalidSize size (callFn st c).state) :
    ∀ (cs : List StorageCall) {st : StorageState σ}, CacheValid invalidSize size st →
      CacheValid invalidSize size (runCalls callFn st cs)
  | [], _, hst => hst
  | c :: cs, st, hst => runCalls_cacheValid hcall cs (hcall st c hst)

section Contract

variable (hf : SizeContract f size)
include hf

/-- `UpdateSize` keeps the cache valid and the base file's size, calls at most `GetSize`,
and on success leaves the base file's size in `m_size`. -/
theorem updateSize_spec {r : FsResult} {calls : List BaseCall}
    (hst : CacheValid invalidSize size st)
    (hu : FileStorage.updateSize f invalidSize st = (r, calls, st')) :
    CacheValid invalidSize size st' ∧ size st'.file = size st.file ∧
      (r = .success → st'.mSize = size st'.file) ∧ ∀ c ∈ calls, c = .getSize := by
  unfold FileStorage.updateSize at hu
  split_ifs at hu with hcached
  · simp only [Prod.mk.injEq] at hu
    obtain ⟨rfl, rfl, rfl⟩ := hu
    have hsize : st.mSize = size st.file := hst.resolve_left hcached
    exact ⟨hst, rfl, fun _ => hsize, fun _ h => absurd h (List.not_mem_nil _)⟩
  · rcases hg : f.getSize st.file st.mSize with ⟨r0, out, file⟩
    simp only [hg, Prod.mk.injEq] at hu
    obtain ⟨rfl, rfl, rfl⟩ := hu
    have hsize : size file = size st.file := by
      simpa only [hg] using hf.getSize_size st.file st.mSize
    have hok : r0 = .success → out = size file := fun hr => by
      rw [hsize]
      simpa only [hg] using hf.getSize_success st.file st.mSize (by rw [hg]; exact hr)
    have hfail : r0 ≠ .success → out = st.mSize := fun hr => by
      simpa only [hg] using hf.getSize_failure st.file st.mSize (by rw [hg]; exact hr)
    refine ⟨?_, hsize, hok, fun c hc => List.mem_singleton.mp hc⟩
    by_cases hr : r0 = .success
    · exact .inr (hok hr)
    · exact .inl ((hfail hr).trans (not_not.mp hcached))

/-- A reply made after `UpdateSize` and nothing else keeps the cache. -/
theorem keeps_of_updateSize {r r' : FsResult} {calls : List BaseCall} {out : Option Int}
    (hst : CacheValid invalidSize size st)
    (hu : FileStorage.updateSize f invalidSize st = (r, calls, st')) :
    Keeps invalidSize size st ⟨r', out, calls, st'⟩ := by
  obtain ⟨hv, -, -, hcalls⟩ := updateSize_spec hf hst hu
  exact ⟨hv, inside_of_getSize hcalls _⟩

/-- A reply that, after `UpdateSize`, makes one base call `c` inside the file that keeps
its size, keeps the cache. -/
theorem keeps_of_forward {r r' : FsResult} {calls : List BaseCall} {c : BaseCall} {file : σ}
    (hst : CacheValid invalidSize size st)
    (hu : FileStorage.updateSize f invalidSize st = (r, calls, st'))
    (hsize : size file = size st'.file) (hc : c.Inside (size st.file)) :
    Keeps invalidSize size st ⟨r', none, calls ++ [c], { st' with file := file }⟩ := by
  obtain ⟨hv, -, -, hcalls⟩ := updateSize_spec hf hst hu
  refine ⟨cacheValid_with_file hv hsize, fun c' hc' => ?_⟩
  rcases List.mem_append.mp hc' with hc' | hc'
  · exact inside_of_getSize hcalls _ c' hc'
  · rw [List.mem_singleton.mp hc']
    exact hc

theorem flush_keeps (hst : CacheValid invalidSize size st) :
    Keeps invalidSize size st (FileStorage.flush f st) :=
  ⟨cacheValid_with_file hst (hf.flush_size st.file),
    fun c hc => by rw [List.mem_singleton.mp hc]; trivial⟩

/-- `GetSize` keeps the cache, and when it succeeds it reports the base file's size. -/
theorem getSize_keeps (hst : CacheValid invalidSize size st) :
    Keeps invalidSize size st (FileStorage.getSize f invalidSize st) ∧
      ((FileStorage.getSize f invalidSize st).result = .success →
        (FileStorage.getSize f invalidSize st).outSize = some (size st.file)) := by
  unfold FileStorage.getSize
  rcases hu : FileStorage.updateSize f invalidSize st with ⟨r, calls, st'⟩
  obtain ⟨-, hsize, hok, -⟩ := updateSize_spec hf hst hu
  simp only
  split_ifs with hr
  · exact ⟨keeps_of_updateSize hf hst hu, fun h => absurd h hr⟩
  · exact ⟨keeps_of_updateSize hf hst hu, fun _ => by rw [hok (not_not.mp hr), hsize]⟩

theorem FileStorage.operateRange_keeps (checkOffsetAndSize : Int → Int → Bool)
    (queryRangeInfoSize : Nat) (hst : CacheValid invalidSize size st) (dstNull : Bool)
    (dstSize : Nat) (opId : OperationId) (offset n : Int) :
    Keeps invalidSize size st (FileStorage.operateRange f invalidSize checkOffsetAndSize
      queryRangeInfoSize st dstNull dstSize opId offset n) := by
  unfold FileStorage.operateRange
  cases opId with
  | other => exact keeps_of_calls_nil hst
  | invalidate | queryRange =>
    rcases hu : FileStorage.updateSize f invalidSize st with ⟨r, calls, st'⟩
    by_cases hn : n = 0
    · -- returns before `UpdateSize`
      simp only [if_pos hn]
      repeat' split
      all_goals exact keeps_of_calls_nil hst
    · -- returns after `UpdateSize`, or after the forwarded call
      simp only [if_neg hn]
      split_ifs
      · exact keeps_of_updateSize hf hst hu
      · exact keeps_of_updateSize hf hst hu
      · exact keeps_of_forward hf hst hu (hf.operateRange_size _ _ _ _) trivial

theorem FileHandleStorage.operateRange_keeps (queryRangeInfoSize : Nat)
    (hst : CacheValid invalidSize size st) (dstNull : Bool) (dstSize : Nat) (opId : OperationId)
    (offset n : Int) :
    Keeps invalidSize size st (FileHandleStorage.operateRange f queryRangeInfoSize st dstNull
      dstSize opId offset n) := by
  unfold FileHandleStorage.operateRange
  cases opId with
  | queryRange =>
    simp only
    split_ifs
    · exact keeps_of_calls_nil hst
    · exact keeps_of_calls_nil hst
    · exact ⟨cacheValid_with_file hst (hf.operateRange_size _ _ _ _),
        fun c hc => by rw [List.mem_singleton.mp hc]; trivial⟩
  | _ => exact keeps_of_calls_nil hst

variable (checkAccessRange : Int → Nat → Int → Bool)
  (hcheck : ∀ o n t, checkAccessRange o n t = true ↔ 0 ≤ o ∧ o + n ≤ t)
include hcheck

/-- `Read` and `Write` forward only accesses inside the base file, found so by
`CheckAccessRange` against a size that `UpdateSize` made current. -/
theorem forwardAccess_keeps {forward : σ → Int → Nat → FsResult × σ}
    {record : Int → Nat → BaseCall}
    (hforward : ∀ s o (n : Nat), 0 ≤ o → o + n ≤ size s → size (forward s o n).2 = size s)
    (hrecord : ∀ (o : Int) (n : Nat) b, 0 ≤ o ∧ o + n ≤ b → (record o n).Inside b)
    (hst : CacheValid invalidSize size st) (offset : Int) (bufferNull : Bool) (n : Nat) :
    Keeps invalidSize size st
      (FileStorage.forwardAccess f invalidSize checkAccessRange forward record st offset
        bufferNull n) := by
  unfold FileStorage.forwardAccess
  split_ifs
  · exact keeps_of_calls_nil hst
  · exact keeps_of_calls_nil hst
  rcases hu : FileStorage.updateSize f invalidSize st with ⟨r, calls, st'⟩
  obtain ⟨-, hsize, hok, -⟩ := updateSize_spec hf hst hu
  simp only
  split_ifs with hr hchk
  · exact keeps_of_updateSize hf hst hu
  · exact keeps_of_updateSize hf hst hu
  · have hm : st'.mSize = size st'.file := hok (not_not.mp hr)
    have hin : 0 ≤ offset ∧ offset + n ≤ size st'.file := by
      rw [← hm]
      exact (hcheck _ _ _).mp (by simpa using hchk)
    exact keeps_of_forward hf hst hu (hforward _ _ _ hin.1 hin.2)
      (hrecord _ _ _ (hsize ▸ hin))

/-- Every member keeps the cache, given an `OperateRange` that does. -/
theorem call_keeps
    {operate : StorageState σ → Bool → Nat → OperationId → Int → Int → Reply σ}
    (hoperate : ∀ st dstNull dstSize opId offset n, CacheValid invalidSize size st →
      Keeps invalidSize size st (operate st dstNull dstSize opId offset n))
    (hst : CacheValid invalidSize size st) (c : StorageCall) :
    CallKeeps invalidSize size st c
      (FileStorage.call f invalidSize checkAccessRange operate st c) := by
  cases c with
  | read offset bufferNull n =>
    exact ⟨forwardAccess_keeps hf checkAccessRange hcheck (fun s o n _ _ => hf.read_size s o n)
      (fun _ _ _ h => by exact h) hst offset bufferNull n, nofun⟩
  | write offset bufferNull n =>
    exact ⟨forwardAccess_keeps hf checkAccessRange hcheck hf.write_size
      (fun _ _ _ h => by exact h) hst offset bufferNull n, nofun⟩
  | flush => exact ⟨flush_keeps hf hst, nofun⟩
  | getSize => exact ⟨(getSize_keeps hf hst).1, fun _ => (getSize_keeps hf hst).2⟩
  | setSize n => exact ⟨setSize_keeps n, nofun⟩
  | operateRange dstNull dstSize opId offset n =>
    exact ⟨hoperate st dstNull dstSize opId offset n hst, nofun⟩

/-- Every state a run reaches has a valid cache, so the next call keeps it too. -/
theorem runCalls_callKeeps
    {operate : StorageState σ → Bool → Nat → OperationId → Int → Int → Reply σ}
    (hoperate : ∀ st dstNull dstSize opId offset n, CacheValid invalidSize size st →
      Keeps invalidSize size st (operate st dstNull dstSize opId offset n))
    (hst : CacheValid invalidSize size st) (cs : List StorageCall) (c : StorageCall) :
    CallKeeps invalidSize size
      (runCalls (FileStorage.call f invalidSize checkAccessRange operate) st cs) c
      (FileStorage.call f invalidSize checkAccessRange operate
        (runCalls (FileStorage.call f invalidSize checkAccessRange operate) st cs) c) :=
  call_keeps hf checkAccessRange hcheck hoperate
    (runCalls_cacheValid (fun _ c hst => (call_keeps hf checkAccessRange hcheck hoperate hst c).1.1)
      cs hst) c

end Contract

/-- A base file that is nothing but its size, and whose members all succeed. -/
def sizeOnlyFile : BaseFile Int where
  getSize s _ := (.success, s, s)
  read s _ _ := (.success, s)
  write s _ _ := (.success, s)
  flush s := (.success, s)
  setSize _ n := (.success, n)
  operateRange s _ _ _ := (.success, s)

theorem sizeOnlyFile_sizeContract : SizeContract sizeOnlyFile id :=
  ⟨fun _ _ _ => rfl, fun _ _ h => absurd rfl h, fun _ _ => rfl, fun _ _ _ => rfl,
    fun _ _ _ _ _ => rfl, fun _ => rfl, fun _ _ _ => rfl, fun _ _ _ _ => rfl⟩

/-- Over a base file that keeps `SizeContract`, a `FileStorage` or a `FileHandleStorage`
whose cache starts valid never holds a stale size: after any sequence of calls the cache is
`InvalidSize` or the base file's size, the next call keeps it so, a successful `GetSize`
reports the base file's size, and a `Read` or `Write` reaches the base file only inside
`[0, size]`. -/
theorem storage_cache_never_stale (f : BaseFile σ) (size : σ → Int) (hf : SizeContract f size)
    (invalidSize : Int) (checkAccessRange : Int → Nat → Int → Bool)
    (hcheck : ∀ o n t, checkAccessRange o n t = true ↔ 0 ≤ o ∧ o + n ≤ t)
    (checkOffsetAndSize : Int → Int → Bool) (queryRangeInfoSize : Nat) (st : StorageState σ)
    (hst : CacheValid invalidSize size st) (cs : List StorageCall) (c : StorageCall) :
    let fileStorage :=
      FileStorage.members f invalidSize checkAccessRange checkOffsetAndSize queryRangeInfoSize
    let fileHandleStorage :=
      FileHandleStorage.members f invalidSize checkAccessRange queryRangeInfoSize
    CallKeeps invalidSize size (runCalls fileStorage st cs) c
        (fileStorage (runCalls fileStorage st cs) c) ∧
      CallKeeps invalidSize size (runCalls fileHandleStorage st cs) c
        (fileHandleStorage (runCalls fileHandleStorage st cs) c) :=
  ⟨runCalls_callKeeps hf checkAccessRange hcheck
      (fun _ dstNull dstSize opId offset n hst =>
        FileStorage.operateRange_keeps hf checkOffsetAndSize queryRangeInfoSize hst dstNull
          dstSize opId offset n) hst cs c,
    runCalls_callKeeps hf checkAccessRange hcheck
      (fun _ dstNull dstSize opId offset n hst =>
        FileHandleStorage.operateRange_keeps hf queryRangeInfoSize hst dstNull dstSize opId
          offset n) hst cs c⟩

/-- `storage_cache_never_stale` on a fresh storage of a 4 KiB file, after it was shrunk to
2 KiB and asked for its size, at a write of its last 256 bytes. -/
theorem storage_cache_never_stale_resized :
    SizeContract sizeOnlyFile id ∧
      (∀ o n t, decide (0 ≤ o ∧ o + n ≤ t) = true ↔ 0 ≤ o ∧ o + n ≤ t) ∧
      CacheValid (-1) id ⟨-1, 0x1000⟩ ∧
      let fileStorage := FileStorage.members sizeOnlyFile (-1)
        (fun o n t => decide (0 ≤ o ∧ o + n ≤ t)) (fun _ _ => true) 0x40
      let fileHandleStorage := FileHandleStorage.members sizeOnlyFile (-1)
        (fun o n t => decide (0 ≤ o ∧ o + n ≤ t)) 0x40
      CallKeeps (-1) id (runCalls fileStorage ⟨-1, 0x1000⟩ [.setSize 0x800, .getSize])
          (.write 0x700 false 0x100)
          (fileStorage (runCalls fileStorage ⟨-1, 0x1000⟩ [.setSize 0x800, .getSize])
            (.write 0x700 false 0x100)) ∧
        CallKeeps (-1) id (runCalls fileHandleStorage ⟨-1, 0x1000⟩ [.setSize 0x800, .getSize])
          (.write 0x700 false 0x100)
          (fileHandleStorage (runCalls fileHandleStorage ⟨-1, 0x1000⟩ [.setSize 0x800, .getSize])
            (.write 0x700 false 0x100)) :=
  ⟨sizeOnlyFile_sizeContract, fun _ _ _ => decide_eq_true_iff, .inl rfl,
    storage_cache_never_stale sizeOnlyFile id sizeOnlyFile_sizeContract (-1)
      (fun o n t => decide (0 ≤ o ∧ o + n ≤ t)) (fun _ _ _ => decide_eq_true_iff)
      (fun _ _ => true) 0x40 ⟨-1, 0x1000⟩ (.inl rfl) [.setSize 0x800, .getSize]
      (.write 0x700 false 0x100)⟩

end Ams.Fs
