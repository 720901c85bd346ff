import Mathlib.Logic.Relation

set_option autoImplicit false

/-!
# Transition systems and their invariants

A system has initial states and a step relation labelled by the operation taken. What holds
initially and is kept by every step holds in every reachable state.

## Main definitions

* `System` — initial states and labelled steps; `System.Reachable` — the states of its runs.
* `System.ofExec` — the system of an executable operation with a guard.

## Main results

* `System.Reachable.invariant` — the invariant rule; `System.Reachable.map` — simulation.
* `System.Reachable.exec` — an executed list of operations is a run.
-/

/-- A transition system on states `σ` with operations `ι`. -/
structure System (σ ι : Type) where
  init : σ → Prop
  step : σ → ι → σ → Prop

namespace System

variable {σ ι τ κ : Type}

/-- The states that a run of the system can reach. -/
inductive Reachable (S : System σ ι) : σ → Prop
  | init {s : σ} (h : S.init s) : Reachable S s
  | step {s t : σ} {op : ι} (hs : Reachable S s) (h : S.step s op t) : Reachable S t

/-- **The invariant rule**: a predicate that holds initially and is kept by every step holds in
every reachable state. -/
lemma Reachable.invariant {S : System σ ι} {s : σ} (hs : S.Reachable s) (Inv : σ → Prop)
    (h0 : ∀ s, S.init s → Inv s) (hstep : ∀ s op t, Inv s → S.step s op t → Inv t) : Inv s := by
  induction hs with
  | init h => exact h0 _ h
  | step _ h ih => exact hstep _ _ _ ih h

/-- **Simulation**: a function of the states that keeps initial states and steps keeps runs. -/
lemma Reachable.map {S : System σ ι} {T : System τ κ} {s : σ} (hs : S.Reachable s) (f : σ → τ)
    (h0 : ∀ s, S.init s → T.init (f s))
    (hstep : ∀ s op t, S.step s op t → ∃ op', T.step (f s) op' (f t)) : T.Reachable (f s) := by
  refine hs.invariant (fun s => T.Reachable (f s)) (fun s h => .init (h0 s h)) fun s op t ih h => ?_
  obtain ⟨op', h'⟩ := hstep s op t h
  exact .step ih h'

/-- The system whose operations `exec` may be taken where `enabled` holds. -/
def ofExec (init : σ → Prop) (enabled : σ → ι → Bool) (exec : σ → ι → σ) : System σ ι where
  init := init
  step s op t := enabled s op = true ∧ t = exec s op

/-- Every operation of a list is enabled in the state in which it is taken. -/
def allEnabled (enabled : σ → ι → Bool) (exec : σ → ι → σ) : σ → List ι → Bool
  | _, [] => true
  | s, op :: ops => enabled s op && allEnabled enabled exec (exec s op) ops

/-- The operations of a list, taken one after the other, form a run. -/
lemma Reachable.exec {init : σ → Prop} {enabled : σ → ι → Bool} {exec : σ → ι → σ} {s : σ}
    (hs : (ofExec init enabled exec).Reachable s) {ops : List ι}
    (h : allEnabled enabled exec s ops = true) :
    (ofExec init enabled exec).Reachable (ops.foldl exec s) := by
  induction ops generalizing s with
  | nil => exact hs
  | cons op ops ih =>
    rw [allEnabled, Bool.and_eq_true] at h
    exact ih (.step hs ⟨h.1, rfl⟩) h.2

end System
