import Mathlib.Data.List.Basic

set_option autoImplicit false

/-!
# A text with a position

A text is kept as two strings, what stands before the position and what stands after it. Inserting
and erasing happen where the two meet; moving the position shifts elements from one string to the
other.

## Main definitions

* `Zipper` — the two strings; `Zipper.text` — the text.
* `Zipper.insert`, `Zipper.backspace`, `Zipper.delete` — the changes.
* `Zipper.moveLeft`, `Zipper.moveRight`, `Zipper.home`, `Zipper.toEnd` — the moves.

## Main results

* `Zipper.text_moveLeft`, `Zipper.text_moveRight`, `Zipper.text_home`, `Zipper.text_toEnd` — a move
  does not change the text.
-/

/-- A text with a position: `left` stands before it, `right` after it. -/
structure Zipper (α : Type) where
  left : List α
  right : List α

namespace Zipper

variable {α : Type} (z : Zipper α)

/-- The text. -/
def text : List α := z.left ++ z.right

/-- An element is inserted before the position. -/
def insert (c : α) : Zipper α := ⟨z.left ++ [c], z.right⟩

/-- The element before the position is erased. -/
def backspace : Zipper α := ⟨z.left.dropLast, z.right⟩

/-- The element after the position is erased. -/
def delete : Zipper α := ⟨z.left, z.right.tail⟩

/-- The position moves one element to the left. -/
def moveLeft : Zipper α := ⟨z.left.dropLast, z.left.getLast?.toList ++ z.right⟩

/-- The position moves one element to the right. -/
def moveRight : Zipper α := ⟨z.left ++ z.right.head?.toList, z.right.tail⟩

/-- The position moves to the beginning. -/
def home : Zipper α := ⟨[], z.text⟩

/-- The position moves to the end. -/
def toEnd : Zipper α := ⟨z.text, []⟩

/-- The text with the position at its end. -/
def ofText (text : List α) : Zipper α := ⟨text, []⟩

@[simp] lemma text_mk (l r : List α) : (Zipper.mk l r).text = l ++ r := rfl

lemma text_moveLeft : z.moveLeft.text = z.text := by
  obtain ⟨l, r⟩ := z
  rcases List.eq_nil_or_concat l with rfl | ⟨l, c, rfl⟩
  · rfl
  · simp [moveLeft]

lemma text_moveRight : z.moveRight.text = z.text := by
  obtain ⟨l, r⟩ := z
  cases r with
  | nil => simp [moveRight]
  | cons c r => simp [moveRight]

lemma text_home : z.home.text = z.text := rfl

lemma text_toEnd : z.toEnd.text = z.text := List.append_nil _

end Zipper
