import Mathlib.Data.List.Nodup
import Mathlib.Data.List.TakeDrop

set_option autoImplicit false

/-!
# Recency lists

A list of distinct keys, the most recently used one first. A use of a key moves it to the front.
The first `n` keys are what a cache of `n` places holds that gives up the least recently used
key: the lemmas say how a use changes them.

## Main definitions

* `Recency.touch` — the use of a key.

## Main results

* `Recency.take_touch_of_mem` — a key among the first `n` moves to the front of them.
* `Recency.take_touch_of_notMem` — another key pushes out the last of the first `n`.
-/

namespace Recency

open List

variable {κ : Type} [DecidableEq κ]

/-- A use of key `k`. -/
def touch (l : List κ) (k : κ) : List κ := k :: l.erase k

/-- The keys stay distinct. -/
lemma nodup_touch {l : List κ} (h : l.Nodup) (k : κ) : (touch l k).Nodup :=
  nodup_cons.2 ⟨h.not_mem_erase, h.erase k⟩

/-- A use adds its key and loses none. -/
lemma mem_touch {l : List κ} {k x : κ} : x ∈ touch l k ↔ x = k ∨ x ∈ l := by
  unfold touch
  by_cases e : x = k
  · simp [e]
  · simp [e, mem_erase_of_ne]

/-- A key among the first `n` moves to the front of them. -/
lemma take_touch_of_mem {l A B : List κ} {k : κ} {n : ℕ} (h : l.Nodup)
    (hl : l.take n = A ++ k :: B) : (touch l k).take n = k :: (A ++ B) := by
  have hsplit : l = A ++ k :: (B ++ l.drop n) := by
    calc l = l.take n ++ l.drop n := (take_append_drop n l).symm
      _ = A ++ k :: (B ++ l.drop n) := by rw [hl]; simp
  have hA : k ∉ A := by
    rw [hsplit] at h
    intro hk
    exact (nodup_append.1 h).2.2 k hk k (by simp) rfl
  have herase : l.erase k = A ++ (B ++ l.drop n) := by
    conv_lhs => rw [hsplit]
    rw [erase_append_right _ hA, erase_cons_head]
  have hlen : (l.take n).length = A.length + B.length + 1 := by
    rw [hl]
    simp
    omega
  rw [length_take] at hlen
  unfold touch
  rw [herase, ← append_assoc, ← cons_append]
  by_cases hn : n ≤ l.length
  · rw [take_append_of_le_length (by simp; omega), take_of_length_le (by simp; omega)]
  · rw [drop_of_length_le (by omega), append_nil]
    exact take_of_length_le (by simp; omega)

/-- A key not among the first `n + 1` pushes out the last of them. -/
lemma take_touch_of_notMem {l : List κ} {k : κ} {n : ℕ} (hk : k ∉ l.take (n + 1)) :
    (touch l k).take (n + 1) = k :: l.take n := by
  have hsplit := take_append_drop (n + 1) l
  unfold touch
  rw [take_succ_cons]
  congr 1
  conv_lhs => rw [← hsplit, erase_append_right _ hk]
  by_cases hn : n + 1 ≤ l.length
  · rw [take_append_of_le_length (by simp; omega), take_take]
    congr 1
    omega
  · rw [drop_of_length_le (by omega)]
    simp [take_take]

end Recency
