import Mathlib.Data.List.Basic

set_option autoImplicit false

/-!
# Machines with outputs

A machine reads letters one by one; every letter changes its state and puts out a list.

## Main definitions

* `Mealy.run` — the state after a word and what the word puts out.

## Main results

* `Mealy.run_of_abs` — a machine that implements another one.
* `Mealy.run_of_map` — a machine whose outputs are seen through a map.
-/

namespace Mealy

variable {σ ι ω : Type} (step : σ → ι → σ × List ω)

/-- The state after a word and what the word puts out. -/
def run : σ → List ι → σ × List ω
  | s, [] => (s, [])
  | s, x :: xs => ((run (step s x).1 xs).1, (step s x).2 ++ (run (step s x).1 xs).2)

variable {step} {s t : σ}

lemma run_nil (s : σ) : run step s [] = (s, []) := rfl

lemma run_cons (s : σ) (x : ι) (xs : List ι) : run step s (x :: xs) =
    ((run step (step s x).1 xs).1, (step s x).2 ++ (run step (step s x).1 xs).2) := rfl

/-- A letter that puts out nothing. -/
lemma run_cons_of_silent {x : ι} (h : step s x = (t, [])) (xs : List ι) :
    run step s (x :: xs) = run step t xs := by
  rw [run_cons, h, List.nil_append]

/-- **A machine that implements another one**: if every letter changes the abstract state and puts
out as the other machine does, so does every word. -/
lemma run_of_abs {τ : Type} {step' : τ → ι → τ × List ω} (abs : σ → τ)
    (h : ∀ s x, step' (abs s) x = (abs (step s x).1, (step s x).2)) (s : σ) (xs : List ι) :
    run step' (abs s) xs = (abs (run step s xs).1, (run step s xs).2) := by
  induction xs generalizing s with
  | nil => rfl
  | cons x xs ih => simp only [run_cons, h, ih]

/-- **A machine whose outputs are seen through a map.** -/
lemma run_of_map {ω' : Type} {step' : σ → ι → σ × List ω'} (f : ω → ω')
    (h : ∀ s x, step' s x = ((step s x).1, (step s x).2.map f)) (s : σ) (xs : List ι) :
    run step' s xs = ((run step s xs).1, (run step s xs).2.map f) := by
  induction xs generalizing s with
  | nil => rfl
  | cons x xs ih => simp only [run_cons, h, ih, List.map_append]

end Mealy
