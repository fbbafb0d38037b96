import Mathlib.Data.List.Chain

/-!
# The `ams::lr` client

The client of the location resolver keeps one flag, `g_initialized`: `Initialize` asserts
it clear and sets it once `lrInitialize` succeeds, aborting otherwise, and `Finalize`
asserts it set and clears it.  The `Open` calls go to the service through libnx whatever
the flag says, and the two calls that have no libnx binding abort.

A run that passes every assertion and meets no abort therefore alternates `Initialize` and
`Finalize`, each flipping the flag, and ends with the flag the last of them left.  The
objects the `Open` calls make are not modelled: they do not touch the flag.
-/

namespace Ams.Lr

/-- A call of the client, with what the libnx call inside it returns: `ok` is whether it
succeeded. -/
inductive LrCall
  /-- `Initialize()`, with the result of `lrInitialize`. -/
  | init (ok : Bool)
  /-- `Finalize()`. -/
  | finalize
  /-- `OpenLocationResolver(out, storage_id)`, with the result of `lrOpenLocationResolver`. -/
  | openLocationResolver (ok : Bool)
  /-- `OpenRegisteredLocationResolver(out)`, with the result of
  `lrOpenRegisteredLocationResolver`. -/
  | openRegisteredLocationResolver (ok : Bool)
  /-- `OpenAddOnContentLocationResolver(out)`. -/
  | openAddOnContentLocationResolver
  /-- `RefreshLocationResolver(storage_id)`. -/
  | refreshLocationResolver
  deriving Repr, DecidableEq

namespace LrCall

/-- The flag an `Initialize` or a `Finalize` leaves; `none` for the other calls. -/
def lifecycle : LrCall → Option Bool
  | init _ => some true
  | finalize => some false
  | _ => none

end LrCall

/-- One call on `g_initialized` (`Initialize`, `Finalize`, the `Open` calls and
`RefreshLocationResolver`): the flag after it, or `none` for a failed `AMS_ASSERT`, a
failed `R_ABORT_UNLESS` or an `AMS_ABORT`. -/
def step (initialized : Bool) : LrCall → Option Bool
  | .init ok => if initialized then none else if ok then some true else none
  | .finalize => if initialized then some false else none
  | .openLocationResolver _ => some initialized
  | .openRegisteredLocationResolver _ => some initialized
  | .openAddOnContentLocationResolver => none
  | .refreshLocationResolver => none

/-- The flag after the calls `cs`, one after another; `none` once one aborts. -/
def run (initialized : Bool) : List LrCall → Option Bool
  | [] => some initialized
  | c :: cs => (step initialized c).bind fun i => run i cs

/-- What one call that does not abort does: `Initialize` and `Finalize` flip the flag, the
other calls leave it. -/
theorem step_eq_some {i i' : Bool} {c : LrCall} (h : step i c = some i') :
    (c.lifecycle = some i' ∧ i' = !i) ∨ (c.lifecycle = none ∧ i' = i) := by
  revert h
  cases c <;> cases i <;> cases i' <;> (try rename_i ok; cases ok) <;> decide

/-- Every run that does not abort alternates `Initialize` and `Finalize`, each flipping the
flag, and leaves the flag the last of them set. -/
theorem run_alternates :
    ∀ {i i' : Bool} {cs : List LrCall}, run i cs = some i' →
      (cs.filterMap LrCall.lifecycle).Chain (· ≠ ·) i ∧
        (i :: cs.filterMap LrCall.lifecycle).getLast (List.cons_ne_nil _ _) = i'
  | _, _, [], h => ⟨List.Chain.nil, (Option.some.inj h).symm ▸ rfl⟩
  | i, i', c :: cs, h => by
    obtain ⟨i₁, hstep, hrun⟩ := Option.bind_eq_some.mp h
    obtain ⟨hchain, hlast⟩ := run_alternates hrun
    rcases step_eq_some hstep with ⟨hc, rfl⟩ | ⟨hc, rfl⟩
    · simp only [List.filterMap_cons, hc]
      refine ⟨List.Chain.cons (by cases i <;> decide) hchain, ?_⟩
      rw [List.getLast_cons (List.cons_ne_nil _ _)]
      exact hlast
    · simp only [List.filterMap_cons, hc]
      exact ⟨hchain, hlast⟩

/-- `run_alternates` on an `Initialize`, an `OpenLocationResolver`, a `Finalize` and a second
`Initialize`. -/
theorem run_alternates_reinitialize :
    let cs : List LrCall := [.init true, .openLocationResolver true, .finalize, .init true]
    run false cs = some true ∧
      (cs.filterMap LrCall.lifecycle).Chain (· ≠ ·) false ∧
        (false :: cs.filterMap LrCall.lifecycle).getLast (List.cons_ne_nil _ _) = true :=
  ⟨rfl, @run_alternates false true [.init true, .openLocationResolver true, .finalize, .init true]
    rfl⟩

end Ams.Lr
