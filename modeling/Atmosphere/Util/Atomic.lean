import Mathlib.Algebra.Group.Nat.Basic
import Mathlib.Data.List.Basic

/-!
# `util::Atomic`

A thin wrapper over `std::atomic<T>`: the body of each member is one call of
`std::atomic<T>` on `m_v`.  The model has three layers.  `StdAtomic` gives the
single-threaded effect of those calls on the stored value; `Atomic.step` sends each member
to the call its body makes, with the arguments it passes; and `Atomic.plainStep` says what
each member means on a plain variable, by its name.  Every member refines the plain
variable except `Store`, whose body is `m_v.store(Order)`: it passes the memory-order
template argument where the value belongs, so `arg` is never stored.

`std::memory_order` converts to no value type but itself, so `Store` is well formed only
for `T = std::memory_order`; the conversion is a parameter `convert` of the model.  The
`Fetch` members exist only for an integral `T`, modelled as `BitVec w` for a `w`-bit type,
on which the `fetch_*` calls of `std::atomic<T>` wrap modulo `2 ^ w`; the plain variable
they are compared with holds a number.  The spurious failure of `compare_exchange_weak` is
an input.
-/

namespace Ams.Util

/-- `std::memory_order`. -/
inductive MemoryOrder
  | relaxed
  | consume
  | acquire
  | release
  | acqRel
  | seqCst
  deriving Repr, DecidableEq

/-- `util::Atomic<T>`: the `std::atomic<T>` member `m_v`. -/
structure Atomic (T : Type) where
  mV : T
  deriving Repr, DecidableEq

/-- What a call hands back: nothing (`Store`), the `T` it returns, or the `bool` a
compare-exchange returns with the value it leaves in `expected`. -/
inductive Returned (T : Type)
  | void
  | value (v : T)
  | exchanged (ok : Bool) (expected : T)
  deriving Repr, DecidableEq

/-- What a call hands back, its values read through `f`. -/
def Returned.map {T U : Type} (f : T → U) : Returned T → Returned U
  | .void => .void
  | .value v => .value (f v)
  | .exchanged ok expected => .exchanged ok (f expected)

/-- What the calls `calls` hand back, made one after another from the state `s`. -/
def runSteps {σ α β : Type} (step : σ → α → β × σ) (s : σ) : List α → List β
  | [] => []
  | c :: cs => (step s c).1 :: runSteps step (step s c).2 cs

/-- Two step functions that hand back related values and keep their states related on
every call that `P` allows do so on every run of such calls. -/
theorem runSteps_map {σ τ α β γ : Type} {stepA : σ → α → β × σ} {stepB : τ → α → γ × τ}
    {f : β → γ} {R : σ → τ → Prop} {P : α → Prop}
    (hstep : ∀ s t c, R s t → P c →
      f (stepA s c).1 = (stepB t c).1 ∧ R (stepA s c).2 (stepB t c).2) :
    ∀ {s : σ} {t : τ} {cs : List α}, R s t → (∀ c ∈ cs, P c) →
      (runSteps stepA s cs).map f = runSteps stepB t cs
  | _, _, [], _, _ => rfl
  | s, t, c :: cs, hR, hP => by
    obtain ⟨hout, hR'⟩ := hstep s t c hR (hP c (List.mem_cons_self _ _))
    simp only [runSteps, List.map_cons, hout,
      runSteps_map hstep hR' fun c' h => hP c' (List.mem_cons_of_mem _ h)]

/-! ## `std::atomic<T>` -/

namespace StdAtomic

variable {T : Type}

/-- `operator=(desired)`: stores `desired` and returns it. -/
def assign (desired : T) : Returned T × T := (.value desired, desired)

/-- `load(order)`: returns the stored value. -/
def load (v : T) : Returned T × T := (.value v, v)

/-- `store(desired, order)`: stores `desired`. -/
def store (desired : T) : Returned T × T := (.void, desired)

/-- `exchange(desired, order)`: stores `desired` and returns the value it replaces. -/
def exchange (v desired : T) : Returned T × T := (.value v, desired)

/-- `compare_exchange_strong(expected, desired, order)`: when the stored value equals
`expected`, stores `desired` and returns `true`; otherwise writes the stored value into
`expected` and returns `false`. -/
def compareExchangeStrong [DecidableEq T] (v expected desired : T) : Returned T × T :=
  if v = expected then (.exchanged true expected, desired) else (.exchanged false v, v)

/-- `compare_exchange_weak(expected, desired, order)`: the strong form, except that it may
fail although the values are equal (`spurious`), writing the stored value into `expected`. -/
def compareExchangeWeak [DecidableEq T] (v expected desired : T) (spurious : Bool) :
    Returned T × T :=
  if spurious then (.exchanged false v, v) else compareExchangeStrong v expected desired

/-- `fetch_key(arg, order)` on a `w`-bit integral type: stores `v key arg`, wrapping modulo
`2 ^ w`, and returns the value it replaces. -/
def fetchKey {w : Nat} (key : BitVec w → BitVec w → BitVec w) (v arg : BitVec w) :
    Returned (BitVec w) × BitVec w :=
  (.value v, key v arg)

/-- `fetch_add(arg, order)`. -/
def fetchAdd {w : Nat} : BitVec w → BitVec w → Returned (BitVec w) × BitVec w :=
  fetchKey (· + ·)

/-- `fetch_sub(arg, order)`. -/
def fetchSub {w : Nat} : BitVec w → BitVec w → Returned (BitVec w) × BitVec w :=
  fetchKey (· - ·)

/-- `fetch_and(arg, order)`. -/
def fetchAnd {w : Nat} : BitVec w → BitVec w → Returned (BitVec w) × BitVec w :=
  fetchKey (· &&& ·)

/-- `fetch_or(arg, order)`. -/
def fetchOr {w : Nat} : BitVec w → BitVec w → Returned (BitVec w) × BitVec w :=
  fetchKey (· ||| ·)

/-- `fetch_xor(arg, order)`. -/
def fetchXor {w : Nat} : BitVec w → BitVec w → Returned (BitVec w) × BitVec w :=
  fetchKey (· ^^^ ·)

end StdAtomic

/-! ## The members -/

/-- One call of a member of `util::Atomic<T>` that every `T` has. -/
inductive AtomicOp (T : Type)
  /-- `operator=(desired)`. -/
  | assign (desired : T)
  /-- `Load<Order>()`. -/
  | load
  /-- `Store<Order>(arg)`. -/
  | store (order : MemoryOrder) (arg : T)
  /-- `Exchange<Order>(arg)`. -/
  | exchange (arg : T)
  /-- `CompareExchangeWeak<Order>(expected, desired)`; `spurious` is a failure although the
  values are equal. -/
  | compareExchangeWeak (expected desired : T) (spurious : Bool)
  /-- `CompareExchangeStrong<Order>(expected, desired)`. -/
  | compareExchangeStrong (expected desired : T)
  deriving Repr, DecidableEq

/-- The same call, its arguments read through `f`. -/
def AtomicOp.map {T U : Type} (f : T → U) : AtomicOp T → AtomicOp U
  | .assign desired => .assign (f desired)
  | .load => .load
  | .store order arg => .store order (f arg)
  | .exchange arg => .exchange (f arg)
  | .compareExchangeWeak expected desired spurious =>
    .compareExchangeWeak (f expected) (f desired) spurious
  | .compareExchangeStrong expected desired => .compareExchangeStrong (f expected) (f desired)

/-- Whether the call is a `Store`. -/
def AtomicOp.isStore {T : Type} : AtomicOp T → Bool
  | .store _ _ => true
  | _ => false

/-- One call of a member of `util::Atomic<T>` for a `w`-bit integral `T`: a member every `T`
has, or one that `AMS_UTIL_IMPL_DEFINE_ATOMIC_FETCH_OPERATE_FUNCTION` defines. -/
inductive IntegralOp (w : Nat)
  | member (op : AtomicOp (BitVec w))
  /-- `FetchAdd(arg)`. -/
  | fetchAdd (arg : BitVec w)
  /-- `FetchSub(arg)`. -/
  | fetchSub (arg : BitVec w)
  /-- `FetchAnd(arg)`. -/
  | fetchAnd (arg : BitVec w)
  /-- `FetchOr(arg)`. -/
  | fetchOr (arg : BitVec w)
  /-- `FetchXor(arg)`. -/
  | fetchXor (arg : BitVec w)
  deriving Repr, DecidableEq

/-- Whether the call is a `Store`. -/
def IntegralOp.isStore {w : Nat} : IntegralOp w → Bool
  | .member op => op.isStore
  | _ => false

namespace Atomic

variable {T : Type} [DecidableEq T] (convert : MemoryOrder → T)

/-- The wrapper after a `std::atomic<T>` call on its `m_v`, with what the call hands back. -/
def ofStd (r : Returned T × T) : Returned T × Atomic T := (r.1, ⟨r.2⟩)

/-- One member call on `util::Atomic<T>`: the `std::atomic<T>` call its body makes. -/
def step (a : Atomic T) : AtomicOp T → Returned T × Atomic T
  | .assign desired => ofStd (StdAtomic.assign desired)
  | .load => ofStd (StdAtomic.load a.mV)
  -- `m_v.store(Order)`: the memory order, converted, is the value stored
  | .store order _ => ofStd (StdAtomic.store (convert order))
  | .exchange arg => ofStd (StdAtomic.exchange a.mV arg)
  | .compareExchangeWeak expected desired spurious =>
    ofStd (StdAtomic.compareExchangeWeak a.mV expected desired spurious)
  | .compareExchangeStrong expected desired =>
    ofStd (StdAtomic.compareExchangeStrong a.mV expected desired)

section Integral

variable {w : Nat}

/-- `AMS_UTIL_IMPL_DEFINE_ATOMIC_FETCH_OPERATE_FUNCTION(_OPERATION_, _OPERATION_LOWER_)`:
the member `Fetch_OPERATION_(arg)` returns `m_v.fetch_OPERATION_LOWER_(arg)`. -/
def fetchOperate (fetchLower : BitVec w → BitVec w → Returned (BitVec w) × BitVec w)
    (a : Atomic (BitVec w)) (arg : BitVec w) : Returned (BitVec w) × Atomic (BitVec w) :=
  ofStd (fetchLower a.mV arg)

/-- `FetchAdd(arg)`, from `(Add, add)`. -/
def fetchAdd (a : Atomic (BitVec w)) (arg : BitVec w) :=
  fetchOperate StdAtomic.fetchAdd a arg

/-- `FetchSub(arg)`, from `(Sub, sub)`. -/
def fetchSub (a : Atomic (BitVec w)) (arg : BitVec w) :=
  fetchOperate StdAtomic.fetchSub a arg

/-- `FetchAnd(arg)`, from `(And, and)`. -/
def fetchAnd (a : Atomic (BitVec w)) (arg : BitVec w) :=
  fetchOperate StdAtomic.fetchAnd a arg

/-- `FetchOr(arg)`, from `(Or, or)`. -/
def fetchOr (a : Atomic (BitVec w)) (arg : BitVec w) :=
  fetchOperate StdAtomic.fetchOr a arg

/-- `FetchXor(arg)`, from `(Xor, xor)`. -/
def fetchXor (a : Atomic (BitVec w)) (arg : BitVec w) :=
  fetchOperate StdAtomic.fetchXor a arg

/-- One member call on `util::Atomic<T>` for a `w`-bit integral `T`. -/
def integralStep (convert : MemoryOrder → BitVec w) (a : Atomic (BitVec w)) :
    IntegralOp w → Returned (BitVec w) × Atomic (BitVec w)
  | .member op => step convert a op
  | .fetchAdd arg => a.fetchAdd arg
  | .fetchSub arg => a.fetchSub arg
  | .fetchAnd arg => a.fetchAnd arg
  | .fetchOr arg => a.fetchOr arg
  | .fetchXor arg => a.fetchXor arg

end Integral

/-! ## A plain variable -/

/-- What each member means on a plain variable holding `v`, by its name: what the call
hands back, and what the variable holds after it. -/
def plainStep (v : T) : AtomicOp T → Returned T × T
  | .assign desired => (.value desired, desired)
  | .load => (.value v, v)
  | .store _ arg => (.void, arg)
  | .exchange arg => (.value v, arg)
  | .compareExchangeWeak expected desired spurious =>
    if v = expected ∧ spurious = false then (.exchanged true expected, desired)
    else (.exchanged false v, v)
  | .compareExchangeStrong expected desired =>
    if v = expected then (.exchanged true expected, desired) else (.exchanged false v, v)

/-- What each member of the `w`-bit integral wrapper means on a plain variable holding the
number `v`: the `Fetch` members apply their operator modulo `2 ^ w` and hand back the old
value; the subtraction adds `2 ^ w - arg`. -/
def plainIntegralStep (w : Nat) (v : Nat) : IntegralOp w → Returned Nat × Nat
  | .member op => plainStep v (op.map BitVec.toNat)
  | .fetchAdd arg => (.value v, (v + arg.toNat) % 2 ^ w)
  | .fetchSub arg => (.value v, (v + (2 ^ w - arg.toNat)) % 2 ^ w)
  | .fetchAnd arg => (.value v, v &&& arg.toNat)
  | .fetchOr arg => (.value v, v ||| arg.toNat)
  | .fetchXor arg => (.value v, v ^^^ arg.toNat)

/-- The values a run of calls hands back, from the wrapper `a`. -/
def run (a : Atomic T) (ops : List (AtomicOp T)) : List (Returned T) :=
  runSteps (step convert) a ops

/-- The values the same calls hand back on a plain variable holding `v`. -/
def plainRun (v : T) (ops : List (AtomicOp T)) : List (Returned T) :=
  runSteps plainStep v ops

/-- The values a run of calls hands back, from the `w`-bit integral wrapper `a`. -/
def integralRun {w : Nat} (convert : MemoryOrder → BitVec w) (a : Atomic (BitVec w))
    (ops : List (IntegralOp w)) : List (Returned (BitVec w)) :=
  runSteps (integralStep convert) a ops

/-- The values the same calls hand back on a plain variable holding the number `v`. -/
def plainIntegralRun (w : Nat) (v : Nat) (ops : List (IntegralOp w)) : List (Returned Nat) :=
  runSteps (plainIntegralStep w) v ops

/-! ## Refinement -/

/-- Every member but `Store` makes the call of `std::atomic<T>` that has its plain meaning. -/
theorem step_eq_plainStep (a : Atomic T) {op : AtomicOp T} (hop : op.isStore = false) :
    step convert a op = ofStd (plainStep a.mV op) := by
  cases op with
  | store => cases hop
  | compareExchangeWeak expected desired spurious =>
    by_cases h : a.mV = expected <;> cases spurious <;>
      simp [step, plainStep, StdAtomic.compareExchangeWeak, StdAtomic.compareExchangeStrong, h]
  | _ => rfl

/-- A plain variable read through an injective `f` answers every call read through `f` as
the variable itself does. -/
theorem plainStep_map {U : Type} [DecidableEq U] {f : T → U} (hf : Function.Injective f)
    (v : T) (op : AtomicOp T) :
    plainStep (f v) (op.map f) = ((plainStep v op).1.map f, f (plainStep v op).2) := by
  cases op with
  | compareExchangeWeak | compareExchangeStrong =>
    simp only [plainStep, AtomicOp.map, hf.eq_iff]
    split_ifs <;> rfl
  | _ => rfl

/-- Every member of the integral wrapper but `Store` hands back the number the plain
variable hands back, and leaves the number it leaves. -/
theorem integralStep_refines {w : Nat} (convert : MemoryOrder → BitVec w)
    (a : Atomic (BitVec w)) {op : IntegralOp w} (hop : op.isStore = false) :
    (integralStep convert a op).1.map BitVec.toNat = (plainIntegralStep w a.mV.toNat op).1 ∧
      (integralStep convert a op).2.mV.toNat = (plainIntegralStep w a.mV.toNat op).2 := by
  cases op with
  | member op =>
    rw [integralStep, step_eq_plainStep convert a hop, plainIntegralStep,
      plainStep_map (fun _ _ => BitVec.eq_of_toNat_eq)]
    exact ⟨rfl, rfl⟩
  | fetchSub arg => exact ⟨rfl, congrArg (· % 2 ^ w) (Nat.add_comm _ _)⟩
  | _ => exact ⟨rfl, rfl⟩

/-- On every run of members without `Store`, the `w`-bit integral wrapper hands back the
numbers a plain variable holding its number hands back, when every `Fetch` member applies
its operator modulo `2 ^ w` and only the weak compare-exchange may fail spuriously. -/
theorem integralRun_refines_plain {w : Nat} (convert : MemoryOrder → BitVec w)
    (a : Atomic (BitVec w)) (ops : List (IntegralOp w)) (hops : ∀ op ∈ ops, op.isStore = false) :
    (integralRun convert a ops).map (Returned.map BitVec.toNat) =
      plainIntegralRun w a.mV.toNat ops :=
  runSteps_map (R := fun a v => a.mV.toNat = v)
    (fun a _ _ hR hop => hR ▸ integralStep_refines convert a hop) rfl hops

/-- `integralRun_refines_plain` on a byte holding `250`: `FetchAdd(10)` wraps to `4`,
`FetchSub(5)` wraps to `255`, a strong compare-exchange finds `255` and stores `1`,
`FetchXor(3)` gives `2`, and a `Load` reads it. -/
theorem integralRun_refines_plain_byte :
    let ops : List (IntegralOp 8) := [.fetchAdd 10, .fetchSub 5,
      .member (.compareExchangeStrong 255 1), .fetchXor 3, .member .load]
    (∀ op ∈ ops, op.isStore = false) ∧
      (integralRun (fun _ => 0) ⟨250⟩ ops).map (Returned.map BitVec.toNat) =
        plainIntegralRun 8 250 ops :=
  ⟨by decide, integralRun_refines_plain (fun _ => 0) ⟨250⟩ _ (by decide)⟩

end Atomic

/-- On `util::Atomic<std::memory_order>` holding `relaxed`, `Store<seq_cst>(acquire)`
followed by `Load` returns `seq_cst`, where a plain variable returns `acquire`. -/
theorem atomic_store_ignores_arg :
    Atomic.run id ⟨MemoryOrder.relaxed⟩ [.store .seqCst .acquire, .load] =
        [.void, .value .seqCst] ∧
      Atomic.plainRun MemoryOrder.relaxed [.store .seqCst .acquire, .load] =
        [.void, .value .acquire] := by
  decide

end Ams.Util
