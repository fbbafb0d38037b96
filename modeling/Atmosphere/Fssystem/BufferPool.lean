import Mathlib.Algebra.Order.Ring.Nat
import Atmosphere.Fssystem.PooledBuffer

/-!
# The globals of the `fssystem` buffer pool

`InitializeBufferPool` gives the buddy heap its memory and records the pool's extent, which
`IsPooledBuffer` tests pointers against: every buffer `AllocateCore` hands out passes that
test when the heap's blocks lie in its memory.  `AllocateCore` and `ClearPooledBufferPeak`
keep three metrics, and after any run each means what its getter's name says: the retries
and the reduced allocations since the last clear, and the least total free size the heap
reported since then.

Beside the pool, one range of device addresses may be registered.  The entry's three fields
refine an optional range, in which the first registration wins and only the registered
address unregisters.  `Includes` compares against `m_address + m_size` computed in
`uintptr_t`: it answers as the range does when the range ends below `2 ^ 64`, and a range
that reaches `2 ^ 64` includes no address at all.
-/

namespace Ams.Fssystem

/-! ## The pool and its metrics -/

/-- The globals `g_heap_buffer` (`0` for `nullptr`), `g_heap_size`,
`g_heap_free_size_peak`, `g_retry_count` and `g_reduce_allocation_count`. -/
structure PoolGlobals where
  heapBuffer : Nat
  heapSize : Nat
  heapFreeSizePeak : Nat
  retryCount : Nat
  reduceAllocationCount : Nat
  deriving Repr, DecidableEq

namespace PoolGlobals

/-- `InitializeBufferPool(buffer, size)` and its overload with a work buffer
(lines 200–231), given whether `g_heap.Initialize` succeeded: on failure its result is
returned and the globals stay as they were. -/
def initializeBufferPool (g : PoolGlobals) (buffer size : Nat) (heapInitialized : Bool) :
    Option PoolGlobals :=
  if heapInitialized then
    some { g with heapBuffer := buffer, heapSize := size, heapFreeSizePeak := size }
  else none

/-- `IsPooledBuffer(buffer)` (lines 233–236). -/
def isPooledBuffer (g : PoolGlobals) (buffer : Nat) : Bool :=
  decide (g.heapBuffer ≤ buffer) && decide (buffer < g.heapBuffer + g.heapSize)

/-- The metrics `AllocateCore` updates (lines 139–159): the retries it slept through, one
reduction if its buffer came out smaller than asked, and the heap's total free size after
it if that is a new low. -/
def noteAllocation (g : PoolGlobals) (retries : Nat) (reduced : Bool) (freeSize : Nat) :
    PoolGlobals :=
  { g with
    retryCount := g.retryCount + retries
    reduceAllocationCount :=
      if reduced then g.reduceAllocationCount + 1 else g.reduceAllocationCount
    heapFreeSizePeak := if freeSize < g.heapFreeSizePeak then freeSize else g.heapFreeSizePeak }

/-- `ClearPooledBufferPeak()` (lines 250–255), the heap having `freeSize` bytes free. -/
def clearPooledBufferPeak (g : PoolGlobals) (freeSize : Nat) : PoolGlobals :=
  { g with heapFreeSizePeak := freeSize, retryCount := 0, reduceAllocationCount := 0 }

/-- What a call does to the metrics: an `AllocateCore` that slept through `retries`
retries, came out `reduced` or not and left `freeSize` bytes free in the heap, or a
`ClearPooledBufferPeak` that found `freeSize` bytes free. -/
inductive MetricsEvent
  | allocation (retries : Nat) (reduced : Bool) (freeSize : Nat)
  | clear (freeSize : Nat)
  deriving Repr, DecidableEq

namespace MetricsEvent

/-- The heap's total free size the call read. -/
def freeSize : MetricsEvent → Nat
  | allocation _ _ f => f
  | clear f => f

/-- The retries an allocation slept through. -/
def retries : MetricsEvent → Nat
  | allocation r _ _ => r
  | clear _ => 0

/-- Whether the call was an allocation that came out reduced. -/
def reduced : MetricsEvent → Bool
  | allocation _ red _ => red
  | clear _ => false

/-- Whether the call was a clear. -/
def isClear : MetricsEvent → Bool
  | allocation _ _ _ => false
  | clear _ => true

end MetricsEvent

/-- One call's effect on the globals. -/
def step (g : PoolGlobals) : MetricsEvent → PoolGlobals
  | .allocation retries reduced freeSize => g.noteAllocation retries reduced freeSize
  | .clear freeSize => g.clearPooledBufferPeak freeSize

/-- The globals after the calls `es`, in the order the locks admitted them. -/
def run (g : PoolGlobals) (es : List MetricsEvent) : PoolGlobals :=
  es.foldl step g

@[simp] theorem run_nil (g : PoolGlobals) : g.run [] = g := rfl

@[simp] theorem run_cons (g : PoolGlobals) (e : MetricsEvent) (es : List MetricsEvent) :
    g.run (e :: es) = (g.step e).run es := rfl

/-- The metrics calls leave the pool's extent alone. -/
theorem run_extent (g : PoolGlobals) :
    ∀ es : List MetricsEvent,
      (g.run es).heapBuffer = g.heapBuffer ∧ (g.run es).heapSize = g.heapSize
  | [] => ⟨rfl, rfl⟩
  | .allocation .. :: es => run_extent _ es
  | .clear _ :: es => run_extent _ es

/-- One allocation: the counters grow by its retries and its reduction, and the peak moves
down to its free size if that is lower. -/
theorem step_allocation (g : PoolGlobals) (retries : Nat) (reduced : Bool) (freeSize : Nat) :
    (g.step (.allocation retries reduced freeSize)).retryCount = g.retryCount + retries ∧
      (g.step (.allocation retries reduced freeSize)).reduceAllocationCount =
        g.reduceAllocationCount + (if reduced then 1 else 0) ∧
      (g.step (.allocation retries reduced freeSize)).heapFreeSizePeak =
        min g.heapFreeSizePeak freeSize := by
  refine ⟨rfl, by cases reduced <;> rfl, ?_⟩
  show (if freeSize < g.heapFreeSizePeak then freeSize else g.heapFreeSizePeak) = _
  split_ifs with h <;> omega

/-- A run without a clear adds its retries and its reductions to the counters, and takes
the peak down to the least free size it reported. -/
theorem run_of_no_clear :
    ∀ (g : PoolGlobals) (es : List MetricsEvent), (∀ e ∈ es, e.isClear = false) →
      (g.run es).retryCount = g.retryCount + (es.map MetricsEvent.retries).sum ∧
        (g.run es).reduceAllocationCount =
          g.reduceAllocationCount + (es.filter MetricsEvent.reduced).length ∧
        (g.run es).heapFreeSizePeak ≤ g.heapFreeSizePeak ∧
        (∀ e ∈ es, (g.run es).heapFreeSizePeak ≤ e.freeSize) ∧
        ((g.run es).heapFreeSizePeak = g.heapFreeSizePeak ∨
          ∃ e ∈ es, (g.run es).heapFreeSizePeak = e.freeSize)
  | g, [], _ => ⟨rfl, rfl, le_rfl, fun _ h => absurd h (List.not_mem_nil _), .inl rfl⟩
  | _, .clear _ :: _, h => absurd (h _ (List.mem_cons_self _ _)) Bool.noConfusion
  | g, .allocation retries reduced freeSize :: es, h => by
    obtain ⟨hr, hred, hpeak⟩ := step_allocation g retries reduced freeSize
    obtain ⟨hr', hred', hle, hall, hmem⟩ :=
      run_of_no_clear (g.step (.allocation retries reduced freeSize)) es
        fun e he => h e (List.mem_cons_of_mem _ he)
    simp only [run_cons, List.map_cons, List.sum_cons, List.filter_cons, List.mem_cons,
      forall_eq_or_imp, exists_eq_or_imp, MetricsEvent.retries, MetricsEvent.reduced,
      MetricsEvent.freeSize]
    rw [hpeak] at hle hmem
    refine ⟨by omega, ?_, by omega, ⟨by omega, hall⟩, ?_⟩
    · cases reduced <;> simp only [hred', hred, if_true, if_false, Bool.false_eq_true,
        List.length_cons] <;> omega
    · rcases hmem with hmem | hmem
      · rcases Nat.le_total g.heapFreeSizePeak freeSize with hf | hf
        · exact .inl (by omega)
        · exact .inr (.inl (by omega))
      · exact .inr (.inr hmem)

/-- After any run, each metric means what its getter's name says: since the last
`ClearPooledBufferPeak`, `GetPooledBufferRetriedCount` is the number of retries,
`GetPooledBufferReduceAllocationCount` the number of reduced allocations, and
`GetPooledBufferFreeSizePeak` the least free size reported, the clear's included. -/
theorem run_metrics_since_clear (g : PoolGlobals) (es : List MetricsEvent) (freeSize : Nat)
    (es' : List MetricsEvent) (h : ∀ e ∈ es', e.isClear = false) :
    let g' := g.run (es ++ .clear freeSize :: es')
    g'.retryCount = (es'.map MetricsEvent.retries).sum ∧
      g'.reduceAllocationCount = (es'.filter MetricsEvent.reduced).length ∧
      g'.heapFreeSizePeak ≤ freeSize ∧ (∀ e ∈ es', g'.heapFreeSizePeak ≤ e.freeSize) ∧
      (g'.heapFreeSizePeak = freeSize ∨ ∃ e ∈ es', g'.heapFreeSizePeak = e.freeSize) := by
  obtain ⟨hr, hred, hle, hall, hmem⟩ :=
    run_of_no_clear ((g.run es).clearPooledBufferPeak freeSize) es' h
  simp only [run, List.foldl_append, List.foldl_cons] at hr hred hle hall hmem ⊢
  exact ⟨hr.trans (Nat.zero_add _), hred.trans (Nat.zero_add _), hle, hall, hmem⟩

/-- `run_metrics_since_clear` on an allocation, a clear, and two allocations after it. -/
theorem run_metrics_since_clear_two_allocations :
    let g : PoolGlobals := ⟨0x10000, 0x8000, 0x8000, 0, 0⟩
    let es : List MetricsEvent := [.allocation 1 false 0x2000]
    let es' : List MetricsEvent := [.allocation 2 true 0x3000, .allocation 0 false 0x5000]
    (∀ e ∈ es', e.isClear = false) ∧
      let g' := g.run (es ++ .clear 0x6000 :: es')
      g'.retryCount = (es'.map MetricsEvent.retries).sum ∧
        g'.reduceAllocationCount = (es'.filter MetricsEvent.reduced).length ∧
        g'.heapFreeSizePeak ≤ 0x6000 ∧ (∀ e ∈ es', g'.heapFreeSizePeak ≤ e.freeSize) ∧
        (g'.heapFreeSizePeak = 0x6000 ∨ ∃ e ∈ es', g'.heapFreeSizePeak = e.freeSize) :=
  ⟨by decide, run_metrics_since_clear _ _ _ _ (by decide)⟩

/-- A peak at most `bound` stays so along a run whose free sizes are all at most `bound`. -/
theorem run_peak_le {bound : Nat} :
    ∀ (g : PoolGlobals) (es : List MetricsEvent), g.heapFreeSizePeak ≤ bound →
      (∀ e ∈ es, e.freeSize ≤ bound) → (g.run es).heapFreeSizePeak ≤ bound
  | _, [], hg, _ => hg
  | g, e :: es, hg, hes => by
    refine run_peak_le _ es ?_ fun e' he' => hes e' (List.mem_cons_of_mem _ he')
    cases e with
    | allocation retries reduced freeSize =>
      rw [(step_allocation g retries reduced freeSize).2.2]
      exact le_trans (Nat.min_le_left _ _) hg
    | clear freeSize => exact hes _ (List.mem_cons_self _ _)

/-- From `InitializeBufferPool`, the peak never exceeds the pool's size while the heap
reports no more free bytes than it was given. -/
theorem initializeBufferPool_peak_le {g g₀ : PoolGlobals} {buffer size : Nat}
    (hinit : g.initializeBufferPool buffer size true = some g₀) :
    ∀ es : List MetricsEvent, (∀ e ∈ es, e.freeSize ≤ size) →
      (g₀.run es).heapFreeSizePeak ≤ (g₀.run es).heapSize := by
  obtain rfl := (Option.some.inj hinit).symm
  intro es hes
  rw [(run_extent _ es).2]
  exact run_peak_le _ es le_rfl hes

/-- `initializeBufferPool_peak_le` on a 32 KB pool, an allocation and a clear. -/
theorem initializeBufferPool_peak_le_clear :
    let g₀ : PoolGlobals := ⟨0x10000, 0x8000, 0x8000, 0, 0⟩
    let es : List MetricsEvent := [.allocation 0 false 0x6000, .clear 0x7000]
    (initializeBufferPool ⟨0, 0, 0, 0, 0⟩ 0x10000 0x8000 true = some g₀ ∧
      ∀ e ∈ es, e.freeSize ≤ 0x8000) ∧
      (g₀.run es).heapFreeSizePeak ≤ (g₀.run es).heapSize :=
  ⟨⟨rfl, by decide⟩, @initializeBufferPool_peak_le ⟨0, 0, 0, 0, 0⟩ ⟨0x10000, 0x8000, 0x8000, 0, 0⟩
    0x10000 0x8000 rfl _ (by decide)⟩

end PoolGlobals

section Pooled

variable {σ : Type} (heap : BuddyHeap σ)

/-- Every buffer `AllocateCore` hands out passes `IsPooledBuffer`, when every block the heap
gives lies in the pool `[g_heap_buffer, g_heap_buffer + g_heap_size)`. -/
theorem allocateCore_isPooledBuffer {g : PoolGlobals}
    (hheap : ∀ s order, heap.allocateByOrder s order ≠ 0 →
      g.heapBuffer ≤ heap.allocateByOrder s order ∧
        heap.allocateByOrder s order < g.heapBuffer + g.heapSize)
    {b : PooledBuffer} {idealSize requiredSize : Nat} {large : Bool} {heaps : List σ}
    {r : PooledBuffer × List FreeCall × Nat × Bool} (hb : b.buffer = 0)
    (h : allocateCore heap b idealSize requiredSize large heaps = some r) (hne : r.1.buffer ≠ 0) :
    g.isPooledBuffer r.1.buffer = true := by
  obtain ⟨s, -, order, hbuf⟩ := allocateCore_buffer heap hb h hne
  rw [hbuf] at hne ⊢
  obtain ⟨hlo, hhi⟩ := hheap s order hne
  simp only [PoolGlobals.isPooledBuffer, decide_eq_true hlo, decide_eq_true hhi, Bool.and_self]

/-- `allocateCore_isPooledBuffer` on a 1 MB pool at `0x100000` whose heap gives its first
block to a request for 132 KB, which the trim cuts down. -/
theorem allocateCore_isPooledBuffer_trimmed :
    let heap : BuddyHeap Nat :=
      ⟨fun s => s, leastOrder, fun order => heapBlockSize * 2 ^ order, fun _ _ => 0x100000⟩
    let g : PoolGlobals := ⟨0x100000, 0x100000, 0x100000, 0, 0⟩
    let r : PooledBuffer × List FreeCall × Nat × Bool :=
      (⟨0x100000, 0x28000⟩, [⟨0x130000, 0x10000, 4⟩, ⟨0x128000, 0x8000, 3⟩], 0, false)
    ((∀ s order, heap.allocateByOrder s order ≠ 0 →
        g.heapBuffer ≤ heap.allocateByOrder s order ∧
          heap.allocateByOrder s order < g.heapBuffer + g.heapSize) ∧
      (⟨0, 0⟩ : PooledBuffer).buffer = 0 ∧
      allocateCore heap ⟨0, 0⟩ 0x21000 0x1000 false [0x100000] = some r ∧ r.1.buffer ≠ 0) ∧
      g.isPooledBuffer r.1.buffer = true :=
  have hheap : 0x100000 ≤ 0x100000 ∧ 0x100000 < 0x100000 + 0x100000 := by decide
  ⟨⟨fun _ _ _ => hheap, rfl, by decide, by decide⟩,
    @allocateCore_isPooledBuffer Nat
      ⟨fun s => s, leastOrder, fun order => heapBlockSize * 2 ^ order, fun _ _ => 0x100000⟩
      ⟨0x100000, 0x100000, 0x100000, 0, 0⟩ (fun _ _ _ => hheap) ⟨0, 0⟩ 0x21000 0x1000 false
      [0x100000] (⟨0x100000, 0x28000⟩, [⟨0x130000, 0x10000, 4⟩, ⟨0x128000, 0x8000, 3⟩], 0, false)
      rfl (by decide) (by decide)⟩

end Pooled

/-! ## `AdditionalDeviceAddressEntry` -/

/-- `AdditionalDeviceAddressEntry`: `m_is_registered`, `m_address` and `m_size`. -/
structure AdditionalDeviceAddressEntry where
  isRegistered : Bool
  address : Nat
  size : Nat
  deriving Repr, DecidableEq

namespace AdditionalDeviceAddressEntry

/-- The `constexpr` constructor: nothing registered, every field zero. -/
def init : AdditionalDeviceAddressEntry := ⟨false, 0, 0⟩

/-- `Register(addr, sz)` (lines 31–40): ignored when a range is registered already. -/
def register (e : AdditionalDeviceAddressEntry) (addr sz : Nat) : AdditionalDeviceAddressEntry :=
  if !e.isRegistered then ⟨true, addr, sz⟩ else e

/-- `Unregister(addr)` (lines 42–50). -/
def unregister (e : AdditionalDeviceAddressEntry) (addr : Nat) : AdditionalDeviceAddressEntry :=
  if e.isRegistered && e.address == addr then ⟨false, 0, 0⟩ else e

/-- `Includes(ptr)` (lines 52–61), the end of the range computed in `uintptr_t`. -/
def includes (e : AdditionalDeviceAddressEntry) (ptr : Nat) : Bool :=
  if e.isRegistered then
    decide (e.address ≤ ptr) && decide (ptr < (e.address + e.size) % 2 ^ 64)
  else false

/-- A call of `RegisterAdditionalDeviceAddress` or `UnregisterAdditionalDeviceAddress`. -/
inductive EntryCall
  | register (address size : Nat)
  | unregister (address : Nat)
  deriving Repr, DecidableEq

/-- One call, under the entry's mutex. -/
def call (e : AdditionalDeviceAddressEntry) : EntryCall → AdditionalDeviceAddressEntry
  | .register address size => e.register address size
  | .unregister address => e.unregister address

/-- The entry after the calls `cs`, in the order the mutex admitted them. -/
def runCalls (e : AdditionalDeviceAddressEntry) (cs : List EntryCall) :
    AdditionalDeviceAddressEntry :=
  cs.foldl call e

/-! ### What the entry is for -/

/-- Specification side: at most one registered range, as its start and its size; the first
registration wins and only the registered start unregisters. -/
def specCall : Option (Nat × Nat) → EntryCall → Option (Nat × Nat)
  | none, .register address size => some (address, size)
  | some r, .register _ _ => some r
  | some (address', size), .unregister address =>
    if address' = address then none else some (address', size)
  | none, .unregister _ => none

/-- Specification side: the addresses of the registered range. -/
def specIncludes : Option (Nat × Nat) → Nat → Bool
  | some (address, size), ptr => decide (address ≤ ptr) && decide (ptr < address + size)
  | none, _ => false

/-- The range the entry holds. -/
def view (e : AdditionalDeviceAddressEntry) : Option (Nat × Nat) :=
  if e.isRegistered then some (e.address, e.size) else none

/-- The entry for a range: the constructor's zeroes when there is none. -/
def ofView : Option (Nat × Nat) → AdditionalDeviceAddressEntry
  | none => init
  | some (address, size) => ⟨true, address, size⟩

/-- Every call does to the entry's range what the specification does. -/
theorem call_view (e : AdditionalDeviceAddressEntry) (c : EntryCall) :
    (e.call c).view = specCall e.view c := by
  rcases e with ⟨_ | _, address', size'⟩ <;> cases c with
  | register address size => rfl
  | unregister address =>
    by_cases h : address' = address <;> simp [call, unregister, view, specCall, h]

/-- The entry refines its specification over every run. -/
theorem runCalls_view (e : AdditionalDeviceAddressEntry) (cs : List EntryCall) :
    (e.runCalls cs).view = cs.foldl specCall e.view := by
  induction cs generalizing e with
  | nil => rfl
  | cons c cs ih => rw [runCalls, List.foldl_cons, ← runCalls, ih, call_view, List.foldl_cons]

/-- An entry whose fields are zero whenever nothing is registered is its range's entry. -/
def Cleared (e : AdditionalDeviceAddressEntry) : Prop :=
  e.isRegistered = false → e.address = 0 ∧ e.size = 0

theorem call_cleared {e : AdditionalDeviceAddressEntry} (he : e.Cleared) :
    ∀ c : EntryCall, (e.call c).Cleared
  | .register address size => by
    show (e.register address size).Cleared
    unfold register
    split_ifs
    · intro h
      cases h
    · exact he
  | .unregister address => by
    show (e.unregister address).Cleared
    unfold unregister
    split_ifs
    · exact fun _ => ⟨rfl, rfl⟩
    · exact he

theorem ofView_view {e : AdditionalDeviceAddressEntry} (he : e.Cleared) : ofView e.view = e := by
  rcases e with ⟨_ | _, address, size⟩
  · obtain ⟨rfl, rfl⟩ := he rfl
    rfl
  · rfl

/-- Every entry the calls reach from the constructor is the entry of the range the
specification holds: the fields carry nothing beyond the range. -/
theorem runCalls_init (cs : List EntryCall) :
    init.runCalls cs = ofView (cs.foldl specCall none) := by
  have hcleared : ∀ (e : AdditionalDeviceAddressEntry) (cs : List EntryCall), e.Cleared →
      (e.runCalls cs).Cleared := by
    intro e cs he
    induction cs generalizing e with
    | nil => exact he
    | cons c cs ih => exact ih _ (call_cleared he c)
  show _ = ofView (cs.foldl specCall init.view)
  rw [← runCalls_view init cs]
  exact (ofView_view (hcleared init cs fun _ => ⟨rfl, rfl⟩)).symm

/-- The range the specification holds after a call was there before or is the call's. -/
theorem mem_specCall {r : Option (Nat × Nat)} {p : Nat × Nat} :
    ∀ {c : EntryCall}, p ∈ specCall r c → p ∈ r ∨ c = .register p.1 p.2
  | .register address size, hp => by
    cases r with
    | none => exact .inr (by rw [← Option.some.inj hp])
    | some r => exact .inl hp
  | .unregister address, hp => by
    rcases r with _ | ⟨address', size'⟩
    · exact absurd hp (Option.not_mem_none _)
    · simp only [specCall] at hp
      split_ifs at hp
      · exact absurd hp (Option.not_mem_none _)
      · exact .inl hp

/-- The range the specification holds after a run was there before or was registered by
one of its calls. -/
theorem mem_foldl_specCall {p : Nat × Nat} :
    ∀ {r : Option (Nat × Nat)} {cs : List EntryCall},
      p ∈ cs.foldl specCall r → p ∈ r ∨ EntryCall.register p.1 p.2 ∈ cs
  | _, [], hp => .inl hp
  | r, c :: cs, hp => by
    have hp' : p ∈ cs.foldl specCall (specCall r c) := hp
    rcases mem_foldl_specCall hp' with hp | hp
    · rcases mem_specCall hp with hp | rfl
      · exact .inl hp
      · exact .inr (List.mem_cons_self _ _)
    · exact .inr (List.mem_cons_of_mem _ hp)

/-- `Includes` answers as the range does when the range ends below `2 ^ 64`. -/
theorem includes_eq_specIncludes {e : AdditionalDeviceAddressEntry}
    (hwrap : e.address + e.size < 2 ^ 64) (ptr : Nat) :
    e.includes ptr = specIncludes e.view ptr := by
  unfold includes view
  split_ifs
  · rw [Nat.mod_eq_of_lt hwrap]
    rfl
  · rfl

/-- A registered range that reaches `2 ^ 64` includes no address: the end wraps below the
start. -/
theorem includes_of_wrap {e : AdditionalDeviceAddressEntry} (haddr : e.address < 2 ^ 64)
    (hsize : e.size < 2 ^ 64) (hwrap : 2 ^ 64 ≤ e.address + e.size) (ptr : Nat) :
    e.includes ptr = false := by
  have hend : (e.address + e.size) % 2 ^ 64 = e.address + e.size - 2 ^ 64 := by
    rw [Nat.mod_eq_sub_mod hwrap, Nat.mod_eq_of_lt (by omega)]
  unfold includes
  split_ifs
  · rw [hend]
    simp only [Bool.and_eq_false_iff, decide_eq_false_iff_not]
    omega
  · rfl

/-- `includes_of_wrap` on a range of 8 KB registered 4 KB below the top of the address space,
at an address inside it. -/
theorem includes_of_wrap_top :
    let e : AdditionalDeviceAddressEntry := ⟨true, 2 ^ 64 - 0x1000, 0x2000⟩
    (e.address < 2 ^ 64 ∧ e.size < 2 ^ 64 ∧ 2 ^ 64 ≤ e.address + e.size) ∧
      e.includes (2 ^ 64 - 0x800) = false :=
  ⟨by decide, includes_of_wrap (by decide) (by decide) (by decide) _⟩

/-- After any run from the constructor in which every registered range ends below `2 ^ 64`,
`IsAdditionalDeviceAddress` answers as the specification's range does. -/
theorem runCalls_includes (cs : List EntryCall)
    (hcs : ∀ address size, EntryCall.register address size ∈ cs → address + size < 2 ^ 64)
    (ptr : Nat) :
    (init.runCalls cs).includes ptr = specIncludes (cs.foldl specCall none) ptr := by
  rw [runCalls_init]
  rcases hr : cs.foldl specCall none with _ | ⟨address, size⟩
  · rfl
  · have hmem : (address, size) ∈ cs.foldl specCall none := by simp [hr]
    have hreg := (mem_foldl_specCall hmem).resolve_left (Option.not_mem_none _)
    exact includes_eq_specIncludes (hcs _ _ hreg) ptr

/-- `runCalls_includes` on two registrations, the second ignored, an unregistration and a
registration again. -/
theorem runCalls_includes_reregister :
    let cs : List EntryCall := [.register 0x1000 0x2000, .register 0x5000 0x1000,
      .unregister 0x1000, .register 0x5000 0x1000]
    (∀ address size, EntryCall.register address size ∈ cs → address + size < 2 ^ 64) ∧
      (init.runCalls cs).includes 0x5800 = specIncludes (cs.foldl specCall none) 0x5800 :=
  have hcs : ∀ address size, EntryCall.register address size ∈ [.register 0x1000 0x2000,
      .register 0x5000 0x1000, .unregister 0x1000, .register 0x5000 0x1000] →
      address + size < 2 ^ 64 := by
    intro address size h
    simp at h
    omega
  ⟨hcs, runCalls_includes _ hcs _⟩

end AdditionalDeviceAddressEntry

end Ams.Fssystem
