import Mathlib.Data.Finset.Basic

set_option autoImplicit false

/-!
# Allocators

What a client may assume about a memory allocator: a successful request returns a pointer that
nobody holds, and a release gives back exactly the pointer released. The states of an allocator
are described by the set of pointers that its clients hold.

## Main definitions

* `Allocator` — allocators with their two laws.
-/

/-- An allocator of blocks. `holds s L` says that in state `s` exactly the pointers of `L` are
handed out. Requests up to `maxRequest` are served or refused with the null pointer `0`. -/
structure Allocator where
  State : Type
  maxRequest : ℕ
  alloc : State → ℕ → State × ℕ
  free : State → ℕ → State
  Holds : State → Finset ℕ → Prop
  ne_zero {s : State} {L : Finset ℕ} : Holds s L → 0 ∉ L
  alloc_holds {s : State} {L : Finset ℕ} {n : ℕ} : Holds s L → n ≤ maxRequest →
    (alloc s n).2 = 0 ∧ Holds (alloc s n).1 L ∨
      (alloc s n).2 ∉ L ∧ Holds (alloc s n).1 (insert (alloc s n).2 L)
  free_holds {s : State} {L : Finset ℕ} {p : ℕ} : Holds s L → p ∈ L → Holds (free s p) (L.erase p)
