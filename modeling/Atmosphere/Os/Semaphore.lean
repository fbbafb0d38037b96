import Mathlib.Algebra.Ring.Int.Defs
import Mathlib.Data.List.Basic

/-!
# `os::SemaphoreType` under any interleaving of threads

Every call on a semaphore runs under `cs_sema`, releasing it only while it waits on
`cv_not_zero`; each locked section is one atomic step.  The threads all run the same
code, so the state counts the threads in each phase of it: outside every call, blocked
in `Wait` or `TimedWait` and not woken, or woken and not yet back in `cs_sema`.  A
`TimedWait` may end at its timeout, and `cv_not_zero.Signal()` wakes one blocked thread,
if there is one.

Both `ReleaseSemaphore` overloads add their amount and then call `Signal()` once, even
when the amount is larger than one; a release of several permits to several waiters
therefore wakes only one of them.  The release assertion `count + amount <= max_count`
is evaluated in `s32` arithmetic and bounds the count from above only.
-/

namespace Ams.Os

/-- `s32` arithmetic: the value wraps into `[-2^31, 2^31)`. -/
def toS32 (x : Int) : Int := (x + 2 ^ 31) % 2 ^ 32 - 2 ^ 31

theorem toS32_of_lt {x : Int} (h1 : -2 ^ 31 ≤ x) (h2 : x < 2 ^ 31) : toS32 x = x := by
  unfold toS32
  omega

/-- A `SemaphoreType` and the threads that call it. -/
structure SemaphoreState where
  count : Int
  maxCount : Int
  /-- Threads outside every call on the semaphore. -/
  idle : Nat
  /-- Threads blocked in `cv_not_zero.Wait` and not woken. -/
  waiting : Nat
  /-- Threads blocked in `cv_not_zero.TimedWait` and not woken. -/
  timedWaiting : Nat
  /-- Threads woken from `Wait` that have not re-entered `cs_sema`. -/
  woken : Nat
  /-- Threads woken from `TimedWait` that have not re-entered `cs_sema`. -/
  timedWoken : Nat
  deriving Repr, DecidableEq

/-- `InitializeSemaphore(sema, count, max_count)`, with `threads` threads yet to call it. -/
def initializeSemaphore (count maxCount : Int) (threads : Nat) : SemaphoreState :=
  ⟨count, maxCount, threads, 0, 0, 0, 0⟩

/-- The assertions of `InitializeSemaphore`, with `max_count` an `s32`. -/
def InitializeAdmitted (count maxCount : Int) : Prop :=
  1 ≤ maxCount ∧ 0 ≤ count ∧ count ≤ maxCount ∧ maxCount < 2 ^ 31

instance (count maxCount : Int) : Decidable (InitializeAdmitted count maxCount) :=
  inferInstanceAs (Decidable (_ ∧ _ ∧ _ ∧ _))

/-- Which thread `cv_not_zero.Signal()` wakes. -/
inductive SignalChoice
  | none
  | untimed
  | timed
  deriving Repr, DecidableEq

/-- `Signal()` wakes a blocked thread whenever there is one. -/
def SignalChoice.Valid (s : SemaphoreState) : SignalChoice → Prop
  | .none => s.waiting = 0 ∧ s.timedWaiting = 0
  | .untimed => 0 < s.waiting
  | .timed => 0 < s.timedWaiting

instance (s : SemaphoreState) : (c : SignalChoice) → Decidable (c.Valid s)
  | .none => inferInstanceAs (Decidable (_ ∧ _))
  | .untimed => inferInstanceAs (Decidable (_ < _))
  | .timed => inferInstanceAs (Decidable (_ < _))

/-- `cv_not_zero.Signal()`. -/
def signal (s : SemaphoreState) : SignalChoice → SemaphoreState
  | .none => s
  | .untimed => { s with waiting := s.waiting - 1, woken := s.woken + 1 }
  | .timed => { s with timedWaiting := s.timedWaiting - 1, timedWoken := s.timedWoken + 1 }

@[simp]
theorem signal_count (s : SemaphoreState) (c : SignalChoice) : (signal s c).count = s.count := by
  cases c <;> rfl

@[simp]
theorem signal_maxCount (s : SemaphoreState) (c : SignalChoice) :
    (signal s c).maxCount = s.maxCount := by
  cases c <;> rfl

/-- What a step does with permits. -/
inductive SemaphoreEvent
  /-- An acquire call returns with a permit. -/
  | acquired
  /-- A `ReleaseSemaphore` call adds `amount`. -/
  | released (amount : Int)
  | silent
  deriving Repr, DecidableEq

/-- One locked section of one thread. -/
inductive Step : SemaphoreState → SemaphoreEvent → SemaphoreState → Prop
  /-- An acquire call finds a permit on entry and takes it (lines 246, 260, 281). -/
  | take {s : SemaphoreState} (hidle : 0 < s.idle) (hc : s.count ≠ 0) :
      Step s .acquired { s with count := toS32 (s.count - 1) }
  /-- `TryAcquireSemaphore`, or a `TimedAcquireSemaphore` past its timeout, finds no permit
  and returns `false`. -/
  | fail {s : SemaphoreState} (hidle : 0 < s.idle) (hc : s.count = 0) : Step s .silent s
  /-- `AcquireSemaphore` finds no permit and waits on `cv_not_zero`. -/
  | wait {s : SemaphoreState} (hidle : 0 < s.idle) (hc : s.count = 0) :
      Step s .silent { s with idle := s.idle - 1, waiting := s.waiting + 1 }
  /-- `TimedAcquireSemaphore` finds no permit before its timeout and waits. -/
  | timedWait {s : SemaphoreState} (hidle : 0 < s.idle) (hc : s.count = 0) :
      Step s .silent { s with idle := s.idle - 1, timedWaiting := s.timedWaiting + 1 }
  /-- A `TimedWait` returns at its timeout. -/
  | timeout {s : SemaphoreState} (h : 0 < s.timedWaiting) :
      Step s .silent
        { s with timedWaiting := s.timedWaiting - 1, timedWoken := s.timedWoken + 1 }
  /-- A thread woken from `Wait` re-enters `cs_sema`, finds a permit and takes it. -/
  | retake {s : SemaphoreState} (h : 0 < s.woken) (hc : s.count ≠ 0) :
      Step s .acquired
        { s with count := toS32 (s.count - 1), woken := s.woken - 1, idle := s.idle + 1 }
  /-- A thread woken from `Wait` finds no permit and waits again. -/
  | rewait {s : SemaphoreState} (h : 0 < s.woken) (hc : s.count = 0) :
      Step s .silent { s with woken := s.woken - 1, waiting := s.waiting + 1 }
  /-- A thread woken from `TimedWait` re-enters `cs_sema`, finds a permit and takes it. -/
  | timedRetake {s : SemaphoreState} (h : 0 < s.timedWoken) (hc : s.count ≠ 0) :
      Step s .acquired { s with
        count := toS32 (s.count - 1), timedWoken := s.timedWoken - 1, idle := s.idle + 1 }
  /-- A thread woken from `TimedWait` finds no permit before its timeout and waits again. -/
  | timedRewait {s : SemaphoreState} (h : 0 < s.timedWoken) (hc : s.count = 0) :
      Step s .silent
        { s with timedWoken := s.timedWoken - 1, timedWaiting := s.timedWaiting + 1 }
  /-- A thread woken from `TimedWait` finds no permit after its timeout: `false`. -/
  | timedOut {s : SemaphoreState} (h : 0 < s.timedWoken) (hc : s.count = 0) :
      Step s .silent { s with timedWoken := s.timedWoken - 1, idle := s.idle + 1 }
  /-- `ReleaseSemaphore(sema)` (`amount = 1`) or `ReleaseSemaphore(sema, amount)`, admitted
  when its assertion holds in `s32` arithmetic: it adds `amount` and signals once. -/
  | release {s : SemaphoreState} (amount : Int) (wake : SignalChoice) (hidle : 0 < s.idle)
      (hamount : -2 ^ 31 ≤ amount ∧ amount < 2 ^ 31)
      (hassert : toS32 (s.count + amount) ≤ s.maxCount) (hwake : wake.Valid s) :
      Step s (.released amount) (signal { s with count := toS32 (s.count + amount) } wake)

/-- The runs whose steps all satisfy `ok`, with the events they make in order. -/
inductive Run (ok : SemaphoreState → SemaphoreEvent → Prop) :
    SemaphoreState → List SemaphoreEvent → SemaphoreState → Prop
  | nil (s : SemaphoreState) : Run ok s [] s
  | cons {s s' s'' : SemaphoreState} {e : SemaphoreEvent} {es : List SemaphoreEvent} :
      ok s e → Step s e s' → Run ok s' es s'' → Run ok s (e :: es) s''

theorem Run.mono {ok ok' : SemaphoreState → SemaphoreEvent → Prop} {s s' : SemaphoreState}
    {es : List SemaphoreEvent} (h : Run ok s es s') (hok : ∀ s e, ok s e → ok' s e) :
    Run ok' s es s' := by
  induction h with
  | nil => exact .nil _
  | cons he hstep _ ih => exact .cons (hok _ _ he) hstep ih

/-- Every step is allowed: every interleaving of every call. -/
def anyStep (_ : SemaphoreState) (_ : SemaphoreEvent) : Prop := True

/-- No thread sleeps in `cv_not_zero` while there are more permits than woken threads
on their way back to take them. -/
def NoLostWakeup (s : SemaphoreState) : Prop :=
  0 < s.waiting + s.timedWaiting → s.count ≤ s.woken + s.timedWoken

instance (s : SemaphoreState) : Decidable (NoLostWakeup s) :=
  inferInstanceAs (Decidable (_ → _))

/-! ## Runs that keep every permit -/

/-- What an event adds to the count, in exact arithmetic. -/
def SemaphoreEvent.delta : SemaphoreEvent → Int
  | .acquired => -1
  | .released amount => amount
  | .silent => 0

/-- A release of a positive amount whose assertion holds without wrapping. -/
def ExactRelease (s : SemaphoreState) : SemaphoreEvent → Prop
  | .released amount => 1 ≤ amount ∧ s.count + amount ≤ s.maxCount
  | _ => True

/-- `ReleaseSemaphore(sema)`, one permit, with its assertion holding without wrapping. -/
def UnitRelease (s : SemaphoreState) (e : SemaphoreEvent) : Prop :=
  ExactRelease s e ∧ ∀ amount, e = .released amount → amount = 1

/-- The count lies in `[0, max_count]`, and `max_count` is an `s32`. -/
def InRange (s : SemaphoreState) : Prop :=
  0 ≤ s.count ∧ s.count ≤ s.maxCount ∧ s.maxCount < 2 ^ 31

theorem initializeSemaphore_inRange {count maxCount : Int} (threads : Nat)
    (h : InitializeAdmitted count maxCount) :
    InRange (initializeSemaphore count maxCount threads) := by
  unfold InitializeAdmitted at h
  exact ⟨h.2.1, h.2.2.1, h.2.2.2⟩

theorem initializeSemaphore_noLostWakeup (count maxCount : Int) (threads : Nat) :
    NoLostWakeup (initializeSemaphore count maxCount threads) :=
  fun h => absurd h (Nat.lt_irrefl 0)

section

variable {s s' s'' : SemaphoreState} {e : SemaphoreEvent} {es : List SemaphoreEvent}

/-- One step with an exact release keeps the count in range and adds the event's delta,
computed without wrapping. -/
theorem Step.inRange (h : Step s e s') (hok : ExactRelease s e) (hs : InRange s) :
    InRange s' ∧ s'.count = s.count + e.delta := by
  unfold InRange at *
  cases h with
  | take _ hc | retake _ hc | timedRetake _ hc =>
    simp only [SemaphoreEvent.delta]
    rw [toS32_of_lt (by omega) (by omega)]
    omega
  | release amount wake _ _ _ _ =>
    simp only [ExactRelease] at hok
    simp only [signal_count, signal_maxCount, SemaphoreEvent.delta]
    rw [toS32_of_lt (by omega) (by omega)]
    omega
  | _ => simp only [SemaphoreEvent.delta]; omega

/-- Permits are neither lost nor conjured along a run of exact releases. -/
theorem Run.inRange (h : Run ExactRelease s es s') (hs : InRange s) :
    InRange s' ∧ s'.count = s.count + (es.map SemaphoreEvent.delta).sum := by
  induction h with
  | nil => exact ⟨hs, by simp⟩
  | cons hok hstep _ ih =>
    obtain ⟨hs', hc⟩ := hstep.inRange hok hs
    obtain ⟨hs'', hc'⟩ := ih hs'
    refine ⟨hs'', ?_⟩
    rw [hc', hc, List.map_cons, List.sum_cons]
    omega

/-- A release of one permit wakes a waiter whenever one sleeps, so it loses no wake-up. -/
theorem Step.noLostWakeup (h : Step s e s') (hok : UnitRelease s e) (hs : InRange s)
    (hw : NoLostWakeup s) : NoLostWakeup s' := by
  unfold NoLostWakeup at *
  unfold InRange at hs
  cases h with
  | take _ hc | retake _ hc | timedRetake _ hc =>
    simp only
    rw [toS32_of_lt (by omega) (by omega)]
    omega
  | release amount wake _ _ _ hwake =>
    obtain ⟨hexact, hone⟩ := hok
    obtain rfl := hone amount rfl
    simp only [ExactRelease] at hexact
    rw [toS32_of_lt (by omega) (by omega)] at *
    cases wake <;> simp only [signal, SignalChoice.Valid] at hwake ⊢ <;> omega
  | fail => exact hw
  | _ => simp only; omega

theorem Run.noLostWakeup (h : Run UnitRelease s es s') (hs : InRange s)
    (hw : NoLostWakeup s) : NoLostWakeup s' := by
  induction h with
  | nil => exact hw
  | cons hok hstep _ ih =>
    exact ih (hstep.inRange hok.1 hs).1 (hstep.noLostWakeup hok hs hw)

end

/-- From an admitted `InitializeSemaphore`, every interleaving whose releases are all
`ReleaseSemaphore(sema)` with their assertion holding without wrapping keeps the count in
`[0, max_count]`, equal to the initial count plus the releases less the successful
acquires, and loses no wake-up. -/
theorem unitRelease_run_safe {count maxCount : Int} {threads : Nat} {es : List SemaphoreEvent}
    {s : SemaphoreState} (hinit : InitializeAdmitted count maxCount)
    (h : Run UnitRelease (initializeSemaphore count maxCount threads) es s) :
    InRange s ∧ s.count = count + (es.map SemaphoreEvent.delta).sum ∧ NoLostWakeup s := by
  have hs := initializeSemaphore_inRange threads hinit
  obtain ⟨hr, hc⟩ := (h.mono fun _ _ hok => hok.1).inRange hs
  exact ⟨hr, hc, h.noLostWakeup hs (initializeSemaphore_noLostWakeup _ _ _)⟩

/-- `unitRelease_run_safe` on a semaphore of one permit, none free, and two threads: one
waits, a release wakes it, and it takes the permit. -/
theorem unitRelease_run_safe_wake :
    let es : List SemaphoreEvent := [.silent, .released 1, .acquired]
    let s : SemaphoreState := ⟨0, 1, 2, 0, 0, 0, 0⟩
    (InitializeAdmitted 0 1 ∧ Run UnitRelease (initializeSemaphore 0 1 2) es s) ∧
      InRange s ∧ s.count = 0 + (es.map SemaphoreEvent.delta).sum ∧ NoLostWakeup s :=
  have hrun : Run UnitRelease (initializeSemaphore 0 1 2) [.silent, .released 1, .acquired]
      ⟨0, 1, 2, 0, 0, 0, 0⟩ :=
    .cons ⟨trivial, nofun⟩ (.wait (by decide) rfl) <|
      .cons ⟨⟨Int.le_refl 1, by decide⟩, fun _ h => (SemaphoreEvent.released.inj h).symm⟩
        (.release 1 .untimed (by decide) (by decide) (by decide) (by decide)) <|
      .cons ⟨trivial, nofun⟩ (.retake (by decide) (by decide)) (.nil _)
  ⟨⟨by decide, hrun⟩, unitRelease_run_safe (by decide) hrun⟩

/-- Two threads wait on an empty semaphore; `ReleaseSemaphore(sema, 2)` makes two permits
and wakes one of them: the other sleeps while a permit is free. -/
theorem release_two_wakes_one :
    Run anyStep (initializeSemaphore 0 2 3) [.silent, .silent, .released 2]
        ⟨2, 2, 1, 1, 0, 1, 0⟩ ∧
      ¬ NoLostWakeup ⟨2, 2, 1, 1, 0, 1, 0⟩ :=
  ⟨.cons trivial (.wait (by decide) rfl) <| .cons trivial (.wait (by decide) rfl) <|
      .cons trivial (.release 2 .untimed (by decide) (by decide) (by decide) (by decide)) <|
      .nil _,
    by decide⟩

/-- `ReleaseSemaphore(sema, -1)` on a semaphore holding no permit passes its assertion
`0 + -1 <= max_count` and leaves the count at `-1`. -/
theorem release_negative_amount :
    Run anyStep (initializeSemaphore 0 1 1) [.released (-1)] ⟨-1, 1, 1, 0, 0, 0, 0⟩ ∧
      InitializeAdmitted 0 1 ∧ ¬ (0 : Int) ≤ -1 :=
  ⟨.cons trivial (.release (-1) .none (by decide) (by decide) (by decide) (by decide)) (.nil _),
    by decide, by decide⟩

end Ams.Os
