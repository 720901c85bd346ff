import Mathlib.Data.List.ReduceOption
import Mathlib.Logic.Function.Basic
import BengalTiger.Lib.Mealy

set_option autoImplicit false

/-!
# Bounded queues and ring buffers

A bounded queue is a list with a capacity: a push to a full queue is lost, a pop takes the first
element or reports that there is none. A ring buffer implements it with an array and two indices
that run around the array; it is empty when the indices are equal, so that one slot is never used.

## Main definitions

* `Fifo.step`, `Fifo.run` — pushes and pops of a bounded queue; `Fifo.accepted` — the elements that
  were not lost.
* `RingBuffer` — the array and its indices; `RingBuffer.push`, `RingBuffer.pop`.
* `RingBuffer.items` — the elements from the tail to the head.

## Main results

* `Fifo.accepted_eq` — the accepted elements come out in order, and the rest is held.
* `RingBuffer.items_push`, `RingBuffer.pop_fst`, `RingBuffer.items_pop` — a ring buffer of `n` slots
  is a queue of capacity `n - 1`.
* `RingBuffer.run_eq` — the same for whole runs.
-/

namespace Fifo

variable {α : Type}

/-- An operation on a queue. -/
inductive Op (α : Type) where
  | push (x : α)
  | pop
  deriving DecidableEq

/-- A push, which is lost when the queue is full. -/
def push (cap : ℕ) (q : List α) (x : α) : List α := if q.length < cap then q ++ [x] else q

/-- An operation: the queue afterwards and what a pop returns, `none` for an empty queue. -/
def step (cap : ℕ) (q : List α) : Op α → List α × List (Option α)
  | .push x => (push cap q x, [])
  | .pop => (q.tail, [q.head?])

/-- The queue after some operations and what the pops among them returned. -/
abbrev run (cap : ℕ) (q : List α) (ops : List (Op α)) : List α × List (Option α) :=
  Mealy.run (step cap) q ops

/-- The elements pushed while the queue was not full. -/
def accepted (cap : ℕ) : List α → List (Op α) → List α
  | _, [] => []
  | q, .push x :: ops =>
    (if q.length < cap then [x] else []) ++ accepted cap (push cap q x) ops
  | q, .pop :: ops => accepted cap q.tail ops

/-- **Nothing is lost, repeated or reordered**: what was held and what was accepted comes out, and
the rest is still held.

**Proof sketch.** Induction on the operations, with the queue generalised. An accepted push moves
its element from the accepted ones to the held ones, and a pop from the held ones to the returned
ones. -/
lemma accepted_eq (cap : ℕ) (q : List α) (ops : List (Op α)) :
    q ++ accepted cap q ops = (run cap q ops).2.reduceOption ++ (run cap q ops).1 := by
  induction ops generalizing q with
  | nil => exact List.append_nil q
  | cons op ops ih =>
    rw [run, Mealy.run_cons]
    cases op with
    | push x =>
      simp only [step, accepted, List.nil_append]
      rw [← ih, push]
      split_ifs
      · simp only [List.append_assoc]
      · rw [List.nil_append]
    | pop =>
      simp only [step, accepted, List.singleton_append]
      cases q with
      | nil => exact ih []
      | cons x q =>
        simp only [List.head?_cons, List.tail_cons, List.reduceOption_cons_of_some,
          List.cons_append]
        exact congrArg (x :: ·) (ih q)

end Fifo

/-- A ring of `n` slots with the index of the next free slot and that of the first element. -/
structure RingBuffer (α : Type) (n : ℕ) where
  slots : ℕ → α
  head : ℕ
  tail : ℕ
  head_lt : head < n
  tail_lt : tail < n

namespace RingBuffer

open Function

variable {α : Type} {n : ℕ}

/-- A slot counted from slot 0, at most once around the ring. -/
def around (n i : ℕ) : ℕ := if i < n then i else i - n

lemma around_lt {i : ℕ} (h : i < 2 * n) : around n i < n := by
  unfold around
  split_ifs <;> omega

/-- An index modulo the number of slots. -/
lemma mod_eq_around {i : ℕ} (h : i < 2 * n) : i % n = around n i := by
  unfold around
  split_ifs with hi
  · exact Nat.mod_eq_of_lt hi
  · rw [Nat.mod_eq_sub_mod (by omega), Nat.mod_eq_of_lt (by omega)]

lemma around_succ_lt {i : ℕ} (h : i < n) : around n (i + 1) < n := around_lt (by omega)

variable (r : RingBuffer α n)

/-- A push; it is lost when the head would reach the tail. -/
def push (x : α) : RingBuffer α n :=
  if around n (r.head + 1) = r.tail then r
  else ⟨update r.slots r.head x, around n (r.head + 1), r.tail,
    around_succ_lt r.head_lt, r.tail_lt⟩

/-- A pop: the first element, unless the indices are equal. -/
def pop : Option α × RingBuffer α n :=
  if r.head = r.tail then (none, r)
  else (some (r.slots r.tail),
    ⟨r.slots, r.head, around n (r.tail + 1), r.head_lt, around_succ_lt r.tail_lt⟩)

/-- The number of elements. -/
def count : ℕ := if r.tail ≤ r.head then r.head - r.tail else r.head + n - r.tail

/-- The elements, from the tail to the head. -/
def items : List α := (List.range r.count).map fun j => r.slots (around n (r.tail + j))

variable {r}

lemma count_lt (r : RingBuffer α n) : r.count < n := by
  have h₁ := r.head_lt
  have h₂ := r.tail_lt
  unfold count
  split_ifs <;> omega

lemma length_items (r : RingBuffer α n) : r.items.length = r.count := by
  rw [items, List.length_map, List.length_range]

lemma items_eq_nil (h : r.head = r.tail) : r.items = [] := by
  have hcount : r.count = 0 := by
    rw [count, h, if_pos (Nat.le_refl _), Nat.sub_self]
  rw [items, hcount, List.range_zero, List.map_nil]

/-- The head follows the last element. -/
lemma around_count (r : RingBuffer α n) : around n (r.tail + r.count) = r.head := by
  have h₁ := r.head_lt
  have h₂ := r.tail_lt
  unfold around count
  split_ifs <;> omega

/-- The elements stand in slots apart from the head. -/
lemma around_ne_head {j : ℕ} (hj : j < r.count) : around n (r.tail + j) ≠ r.head := by
  have h₁ := r.head_lt
  have h₂ := r.tail_lt
  unfold count at hj
  unfold around
  split_ifs at hj ⊢ <;> omega

/-- The ring is full when the next head is the tail. -/
lemma full_iff (r : RingBuffer α n) : around n (r.head + 1) = r.tail ↔ r.count = n - 1 := by
  have h₁ := r.head_lt
  have h₂ := r.tail_lt
  unfold around count
  split_ifs <;> omega

/-- **A push** to the ring is a push to the queue. -/
lemma items_push (r : RingBuffer α n) (x : α) : (r.push x).items = Fifo.push (n - 1) r.items x := by
  have hlt := r.count_lt
  rw [Fifo.push, length_items, push]
  by_cases hfull : around n (r.head + 1) = r.tail
  · rw [if_pos hfull, if_neg (by rw [(full_iff r).1 hfull]; exact Nat.lt_irrefl _)]
  · have hne : r.count ≠ n - 1 := fun h => hfull ((full_iff r).2 h)
    rw [if_neg hfull, if_pos (by omega)]
    have hcount : (⟨update r.slots r.head x, around n (r.head + 1), r.tail,
        around_succ_lt r.head_lt, r.tail_lt⟩ : RingBuffer α n).count = r.count + 1 := by
      have h₁ := r.head_lt
      have h₂ := r.tail_lt
      unfold count at hne ⊢
      simp only [around] at hfull ⊢
      split_ifs at hne hfull ⊢ <;> omega
    rw [items, hcount, List.range_succ, List.map_append, List.map_singleton]
    refine congrArg₂ (· ++ ·) (List.map_congr_left fun j hj => ?_) ?_
    · exact update_of_ne (around_ne_head (List.mem_range.1 hj)) _ _
    · show [update r.slots r.head x (around n (r.tail + r.count))] = [x]
      rw [around_count, update_self]

/-- The elements of a ring that is not empty. -/
lemma items_eq_cons (h : r.head ≠ r.tail) : r.items = r.slots r.tail :: r.pop.2.items := by
  have h₁ := r.head_lt
  have h₂ := r.tail_lt
  have hcount : r.count = r.pop.2.count + 1 := by
    rw [pop, if_neg h]
    simp only [count, around]
    split_ifs <;> omega
  rw [items, hcount, List.range_succ_eq_map, List.map_cons, List.map_map, items]
  refine congrArg₂ List.cons ?_ (List.map_congr_left fun j hj => ?_)
  · rw [Nat.add_zero, around, if_pos h₂]
  · have hj := List.mem_range.1 hj
    have hlt := r.count_lt
    rw [pop, if_neg h]
    refine congrArg r.slots ?_
    simp only [around]
    split_ifs <;> omega

/-- **A pop** returns the first element of the queue. -/
lemma pop_fst (r : RingBuffer α n) : r.pop.1 = r.items.head? := by
  by_cases h : r.head = r.tail
  · rw [pop, if_pos h, items_eq_nil h, List.head?_nil]
  · rw [items_eq_cons h, List.head?_cons, pop, if_neg h]

/-- A pop leaves the other elements. -/
lemma items_pop (r : RingBuffer α n) : r.pop.2.items = r.items.tail := by
  by_cases h : r.head = r.tail
  · rw [pop, if_pos h, items_eq_nil h, List.tail_nil]
  · rw [items_eq_cons h, List.tail_cons]

/-- An operation on a ring. -/
def step (r : RingBuffer α n) : Fifo.Op α → RingBuffer α n × List (Option α)
  | .push x => (r.push x, [])
  | .pop => (r.pop.2, [r.pop.1])

/-- **A ring buffer is a bounded queue**, over whole runs. -/
lemma run_eq (r : RingBuffer α n) (ops : List (Fifo.Op α)) :
    ((Mealy.run step r ops).1.items, (Mealy.run step r ops).2) =
      Fifo.run (n - 1) r.items ops := by
  refine (Mealy.run_of_abs items (fun r op => ?_) r ops).symm
  cases op with
  | push x => exact congrArg (·, []) (items_push r x).symm
  | pop => exact congrArg₂ (fun q o => (q, [o])) (items_pop r).symm (pop_fst r).symm

end RingBuffer
