import Mathlib.Data.List.Nodup
import Mathlib.Logic.Function.Basic

set_option autoImplicit false

/-!
# Doubly linked segments and rings

Nodes are linked by two functions `next` and `prev`. A segment from `a` to `b` through a list of
nodes has every two neighbours linked in both directions; a ring is a segment from a node to
itself. The lemmas say what linking in and unlinking a node do to a segment.

## Main definitions

* `Ring.Seg` — doubly linked segments.

## Main results

* `Ring.seg_append` — splitting a segment at a node.
* `Ring.Seg.congr` — a segment depends only on the links of its nodes.
* `Ring.Seg.unlink`, `Ring.Seg.insertLast` — removing a node, adding one before the end.
* `Ring.Seg.rotate` — a ring may be entered at any of its nodes.
-/

namespace Ring

open Function List

variable {α : Type}

/-- The segment from `a` through the nodes of the list to `b`. -/
def Seg (next prev : α → α) : α → List α → α → Prop
  | a, [], b => next a = b ∧ prev b = a
  | a, x :: xs, b => (next a = x ∧ prev x = a) ∧ Seg next prev x xs b

variable {next prev next' prev' : α → α} {a b x : α} {xs ys : List α}

/-- A segment splits at a node. -/
lemma seg_append :
    Seg next prev a (xs ++ x :: ys) b ↔ Seg next prev a xs x ∧ Seg next prev x ys b := by
  induction xs generalizing a with
  | nil => rfl
  | cons y xs ih => simp only [cons_append, Seg, ih, and_assoc]

/-- A segment depends only on the links of its nodes. -/
lemma Seg.congr (h : Seg next prev a xs b) (hn : ∀ y ∈ a :: xs, next' y = next y)
    (hp : ∀ y ∈ xs ++ [b], prev' y = prev y) : Seg next' prev' a xs b := by
  induction xs generalizing a with
  | nil => exact ⟨(hn a (by simp)).trans h.1, (hp b (by simp)).trans h.2⟩
  | cons x xs ih =>
    obtain ⟨⟨h1, h2⟩, h3⟩ := h
    refine ⟨⟨(hn a (by simp)).trans h1, (hp x (by simp)).trans h2⟩, ih h3 ?_ ?_⟩
    · exact fun y hy => hn y (mem_cons_of_mem _ hy)
    · exact fun y hy => hp y (mem_cons_of_mem _ hy)

/-- The predecessor of the end of a segment. -/
lemma Seg.prev_mem (h : Seg next prev a xs b) : prev b ∈ a :: xs := by
  induction xs generalizing a with
  | nil => simp [h.2]
  | cons x xs ih => exact mem_cons_of_mem _ (ih h.2)

/-- The successor of the start of a segment. -/
lemma Seg.next_mem (h : Seg next prev a xs b) : next a ∈ xs ++ [b] := by
  cases xs with
  | nil => simp [h.1]
  | cons x xs => simp [h.1.1]

/-- A ring may be entered at any of its nodes. -/
lemma Seg.rotate (h : Seg next prev a (xs ++ x :: ys) a) : Seg next prev x (ys ++ a :: xs) x :=
  seg_append.mpr (seg_append.mp h).symm

variable [DecidableEq α]

/-- **Unlinking a node** from a segment: its neighbours are linked with each other.

**Proof sketch.** Induction on the nodes before `x`. Without any, `a` is the predecessor of `x`
and the cases are that `x` is the last node or not. Otherwise the first link of the segment is
untouched, since the predecessor of `x` comes after `a` and its successor after `x`. -/
lemma Seg.unlink (h : Seg next prev a (xs ++ x :: ys) b) (hnd : (xs ++ x :: ys).Nodup)
    (ha : a ∉ xs ++ x :: ys) (hb : b ∉ xs ++ x :: ys) :
    Seg (update next (prev x) (next x)) (update prev (next x) (prev x)) a
      (xs ++ ys) b := by
  induction xs generalizing a with
  | nil =>
    obtain ⟨⟨-, h2⟩, h3⟩ := h
    rw [h2]
    cases ys with
    | nil =>
      rw [h3.1]
      exact ⟨update_self _ _ _, update_self _ _ _⟩
    | cons y ys =>
      obtain ⟨⟨h4, -⟩, h5⟩ := h3
      rw [h4]
      simp only [nil_append, nodup_cons, mem_cons, not_or] at hnd ha hb
      refine ⟨⟨update_self _ _ _, update_self _ _ _⟩, h5.congr ?_ ?_⟩
      · intro z hz
        refine update_of_ne ?_ _ _
        rintro rfl
        rcases mem_cons.mp hz with rfl | hz
        · exact ha.2.1 rfl
        · exact ha.2.2 hz
      · intro z hz
        refine update_of_ne ?_ _ _
        rintro rfl
        rcases mem_append.mp hz with hz | hz
        · exact hnd.2.1 hz
        · exact hb.2.1 (mem_singleton.mp hz).symm
  | cons y xs ih =>
    obtain ⟨⟨h1, h2⟩, h3⟩ := h
    have hseg := seg_append.mp h3
    have hp := hseg.1.prev_mem
    have hn := hseg.2.next_mem
    simp only [cons_append, nodup_cons, mem_cons, mem_append, not_or]
      at hnd ha hb hp hn
    refine ⟨⟨?_, ?_⟩, ih h3 hnd.2 ?_ ?_⟩
    · rw [update_of_ne, h1]
      rintro rfl
      tauto
    · rw [update_of_ne, h2]
      intro he
      rw [← he] at hn
      have : y ∉ ([] : List α) := not_mem_nil
      tauto
    · simp only [mem_append, mem_cons, not_or]
      tauto
    · simp only [mem_append, mem_cons, not_or]
      tauto

/-- **Linking in a node** before the end of a segment. -/
lemma Seg.insertLast (h : Seg next prev a xs b) (hnd : (a :: xs).Nodup) (hb : b ∉ xs)
    (hx : x ∉ a :: xs) (hxb : x ≠ b) :
    Seg (update (update next x b) (prev b) x)
      (update (update prev x (prev b)) b x) a (xs ++ [x]) b := by
  induction xs generalizing a with
  | nil =>
    obtain ⟨h1, h2⟩ := h
    have hxa : x ≠ a := by simpa using hx
    subst h1
    rw [h2]
    refine ⟨⟨update_self _ _ _, ?_⟩, ?_, update_self _ _ _⟩
    · rw [update_of_ne hxb, update_self]
    · rw [update_of_ne hxa, update_self]
  | cons y xs ih =>
    obtain ⟨⟨h1, h2⟩, h3⟩ := h
    have hp := h3.prev_mem
    simp only [nodup_cons, mem_cons, not_or] at hnd hb hx hp
    refine ⟨⟨?_, ?_⟩, ih h3 (by simp [hnd]) hb.2 (by simp [hx])⟩
    · rw [update_of_ne, update_of_ne, h1]
      · exact fun he => hx.1 he.symm
      · rintro rfl
        tauto
    · rw [update_of_ne, update_of_ne, h2]
      · exact fun he => hx.2.1 he.symm
      · exact fun he => hb.1 he.symm

end Ring
