import Mathlib.Data.List.Destutter
import Mathlib.Data.List.DropRight

set_option autoImplicit false

/-!
# Histories of bounded length

A history keeps the last entries of a sequence, at most `cap` of them. An entry that repeats the
last one is not kept again; when the history is full, the oldest entry goes.

## Main definitions

* `History.push` — an entry comes in.

## Main results

* `History.foldl_push` — the history of a sequence: the last entries with repetitions merged.
* `History.isChain_foldl_push` — two neighbours differ.
* `History.getElem?_push_eq_iff` — which places keep their entry when another one comes in.
-/

namespace History

open List

variable {α : Type}

/-! ## The last elements of a list -/

/-- The last element of the last elements. -/
lemma getLast?_rtake {cap : ℕ} (hcap : 0 < cap) (l : List α) :
    (l.rtake cap).getLast? = l.getLast? := by
  rw [List.rtake, getLast?_drop]
  split_ifs with hle
  · have hnil : l = [] := length_eq_zero_iff.1 (by omega)
    rw [hnil, getLast?_nil]
  · rfl

lemma length_rtake (cap : ℕ) (l : List α) : (l.rtake cap).length = min cap l.length := by
  rw [List.rtake, length_drop]
  omega

/-- One more element at the end of the last elements. -/
lemma rtake_concat (cap : ℕ) (l : List α) (x : α) : (l ++ [x]).rtake (cap + 1) =
    if (l.rtake (cap + 1)).length < cap + 1 then l.rtake (cap + 1) ++ [x]
    else (l.rtake (cap + 1)).tail ++ [x] := by
  rw [rtake_concat_succ, length_rtake]
  split_ifs with hlt
  · rw [List.rtake, List.rtake, Nat.sub_eq_zero_of_le (by omega), Nat.sub_eq_zero_of_le (by omega)]
  · rw [List.rtake, List.rtake, tail_drop]
    congr 2
    omega

/-! ## Entries come in -/

variable [DecidableEq α]

/-- An entry comes in. -/
def push (cap : ℕ) (h : List α) (x : α) : List α :=
  if h.getLast? = some x then h
  else if h.length < cap then h ++ [x]
  else h.tail ++ [x]

/-- The last entry is merged with an equal one before it.

**Proof sketch.** Induction on the list with its first element generalised: an element that differs
from it takes its place, an equal one is dropped. -/
lemma destutter'_concat (a x : α) (xs : List α) : (xs ++ [x]).destutter' (· ≠ ·) a =
    if (xs.destutter' (· ≠ ·) a).getLast? = some x then xs.destutter' (· ≠ ·) a
    else xs.destutter' (· ≠ ·) a ++ [x] := by
  induction xs generalizing a with
  | nil =>
    by_cases hax : a = x
    · simp [hax]
    · simp [hax]
  | cons b xs ih =>
    rw [cons_append]
    by_cases hab : a = b
    · have hsame : ¬a ≠ b := not_not.2 hab
      rw [destutter'_cons_neg _ hsame, destutter'_cons_neg _ hsame, ih]
    · rw [destutter'_cons_pos _ hab, destutter'_cons_pos _ hab, ih, getLast?_cons]
      cases hlast : (xs.destutter' (· ≠ ·) b).getLast? with
      | none => exact absurd (getLast?_eq_none_iff.1 hlast) (destutter'_ne_nil _ _)
      | some y =>
        rw [Option.getD_some]
        split_ifs
        · rfl
        · rfl

lemma destutter_concat (xs : List α) (x : α) : (xs ++ [x]).destutter (· ≠ ·) =
    if (xs.destutter (· ≠ ·)).getLast? = some x then xs.destutter (· ≠ ·)
    else xs.destutter (· ≠ ·) ++ [x] := by
  cases xs with
  | nil => simp
  | cons a xs => exact destutter'_concat a x xs

/-- **The history of a sequence**: its last entries, with consecutive repetitions merged.

**Proof sketch.** Induction from the end: a repetition of the last entry changes neither side, and
any other entry is put behind the last ones on both. -/
theorem foldl_push {cap : ℕ} (hcap : 0 < cap) (xs : List α) :
    xs.foldl (push cap) [] = (xs.destutter (· ≠ ·)).rtake cap := by
  induction xs using List.reverseRecOn with
  | nil => simp
  | append_singleton xs x ih =>
    rw [foldl_concat, ih, push, getLast?_rtake hcap, destutter_concat]
    split_ifs with hlast hlen
    · rfl
    · obtain ⟨cap, rfl⟩ := Nat.exists_eq_add_of_lt hcap
      rw [Nat.zero_add] at hlen ⊢
      rw [rtake_concat, if_pos hlen]
    · obtain ⟨cap, rfl⟩ := Nat.exists_eq_add_of_lt hcap
      rw [Nat.zero_add] at hlen ⊢
      rw [rtake_concat, if_neg hlen]

/-- Two neighbours of a history differ. -/
lemma isChain_foldl_push {cap : ℕ} (hcap : 0 < cap) (xs : List α) :
    (xs.foldl (push cap) []).IsChain (· ≠ ·) := by
  rw [foldl_push hcap, List.rtake]
  exact (isChain_destutter _ xs).drop _

/-- A history holds at most `cap` entries. -/
lemma length_foldl_push_le {cap : ℕ} (hcap : 0 < cap) (xs : List α) :
    (xs.foldl (push cap) []).length ≤ cap := by
  rw [foldl_push hcap, length_rtake]
  exact Nat.min_le_left _ _

/-- The entry that came in is the last one. -/
lemma getLast?_push (cap : ℕ) (h : List α) (x : α) : (push cap h x).getLast? = some x := by
  unfold push
  split_ifs with hlast
  · exact hlast
  · exact getLast?_concat
  · exact getLast?_concat

/-- **Which places keep their entry** when another one comes in: all but the first free one as long
as there is room, and none of those that are in use when the history is full.

**Proof sketch.** In a full history the entries move down by one place, and each differs from the
one behind it. -/
lemma getElem?_push_eq_iff {cap : ℕ} {h : List α} {x : α} (hchain : h.IsChain (· ≠ ·))
    (hx : h.getLast? ≠ some x) (hne : h ≠ []) (i : ℕ) : (push cap h x)[i]? = h[i]? ↔
      if h.length < cap then i ≠ h.length else h.length ≤ i := by
  have hlong : (h ++ [x]).IsChain (· ≠ ·) := by
    refine hchain.append (.singleton x) ?_
    rintro y hy z hz rfl
    rw [head?_cons, Option.mem_some_iff] at hz
    exact hx (hz ▸ hy)
  rw [push, if_neg hx]
  split_ifs with hroom
  · rcases Nat.lt_trichotomy i h.length with hlt | rfl | hgt
    · rw [getElem?_append_left hlt]
      exact ⟨fun _ => hlt.ne, fun _ => rfl⟩
    · rw [getElem?_concat_length, getElem?_eq_none le_rfl]
      exact ⟨fun hsome => (Option.some_ne_none _ hsome).elim, fun hself => (hself rfl).elim⟩
    · have hlen : (h ++ [x]).length ≤ i := by
        rw [length_append, length_singleton]
        exact hgt
      rw [getElem?_eq_none hlen, getElem?_eq_none hgt.le]
      exact ⟨fun _ => hgt.ne', fun _ => rfl⟩
  · rw [← tail_append_of_ne_nil hne, getElem?_tail]
    rcases Nat.lt_or_ge i h.length with hlt | hge
    · have hlen : i + 1 < (h ++ [x]).length := by simpa using hlt
      have hdiff := isChain_iff_getElem.1 hlong i hlen
      have hleft : (h ++ [x])[i]? = h[i]? := getElem?_append_left hlt
      rw [getElem?_eq_getElem hlen, ← hleft, getElem?_eq_getElem (by omega)]
      exact ⟨fun heq => (hdiff (Option.some_inj.1 heq).symm).elim, fun hle => absurd hlt (by omega)⟩
    · rw [getElem?_eq_none (by simpa using hge), getElem?_eq_none hge]
      exact ⟨fun _ => hge, fun _ => rfl⟩

end History
