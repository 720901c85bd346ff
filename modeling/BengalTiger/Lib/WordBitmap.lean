import Mathlib.Data.Nat.Count
import Mathlib.Data.Fin.Basic
import Mathlib.Tactic.Ring

set_option autoImplicit false

/-!
# Bitmaps stored in machine words

A bitmap of `n` words of `w` bits represents a set of indices below `n * w`: index `f` is bit
`f % w` of word `f / w`. The lemmas say what masking one word does to that set, so that a
program on words can be read as a program on a set of indices.

## Main definitions

* `WordBitmap.Words` — an array of `n` words of `w` bits.
* `WordBitmap.bit` — membership of an index.
* `WordBitmap.setBit`, `WordBitmap.clearBit` — the word updates `|= 1 << j`, `&= ~(1 << j)`.

## Main results

* `WordBitmap.bit_setBit`, `WordBitmap.bit_clearBit` — the updates change one index.
* `WordBitmap.count_succ_of_flip` — flipping one index moves the count of a range by one.
* `WordBitmap.exists_clear_of_ne_allOnes` — a word that is not all ones has a clear bit.
-/

namespace WordBitmap

open Function

variable {n w : ℕ}

/-- An array of `n` words of `w` bits. -/
abbrev Words (n w : ℕ) := Fin n → BitVec w

/-- The mask `1 << j` of a word. -/
def mask (w j : ℕ) : BitVec w := 1#w <<< j

/-- Index `f` of the bitmap; indices past the array are read as clear. -/
def bit (bm : Words n w) (f : ℕ) : Bool :=
  if h : f / w < n then (bm ⟨f / w, h⟩).getLsbD (f % w) else false

/-- Set bit `j` of word `i`. -/
def setBit (bm : Words n w) (i : Fin n) (j : ℕ) : Words n w :=
  update bm i (bm i ||| mask w j)

/-- Clear bit `j` of word `i`. -/
def clearBit (bm : Words n w) (i : Fin n) (j : ℕ) : Words n w :=
  update bm i (bm i &&& ~~~(mask w j))

/-! ## One word -/

/-- The mask `1 << j` has bit `j` set and no other. -/
@[simp] lemma getLsbD_mask {j k : ℕ} (hj : j < w) : (mask w j).getLsbD k = decide (k = j) := by
  simp only [mask, BitVec.getLsbD_shiftLeft]
  by_cases hkj : k = j
  · subst hkj
    simp [hj]
    omega
  · by_cases hlt : k < j
    · simp [hlt, hkj]
    · have : k - j ≠ 0 := by omega
      simp [hkj, BitVec.getLsbD_one, this]

/-- Testing a word against the mask `1 << j` reads bit `j`. -/
lemma and_mask_eq_zero_iff {x : BitVec w} {j : ℕ} (hj : j < w) :
    x &&& mask w j = 0#w ↔ x.getLsbD j = false := by
  constructor
  · intro h
    have h' := congrArg (fun y => BitVec.getLsbD y j) h
    simpa only [BitVec.getLsbD_and, getLsbD_mask hj, BitVec.getLsbD_zero, decide_true,
      Bool.and_true] using h'
  · intro h
    apply BitVec.eq_of_getLsbD_eq
    intro k hk
    simp only [BitVec.getLsbD_and, getLsbD_mask hj, BitVec.getLsbD_zero]
    by_cases hkj : k = j
    · subst hkj
      simp [h]
    · simp [hkj]

/-- A word that is not all ones has a clear bit. -/
lemma exists_clear_of_ne_allOnes {x : BitVec w} (h : x ≠ BitVec.allOnes w) :
    ∃ j < w, x.getLsbD j = false := by
  by_contra hno
  push Not at hno
  apply h
  apply BitVec.eq_of_getLsbD_eq
  intro j hj
  have := hno j hj
  simp [hj, this]

/-! ## The whole array -/

/-- Bit `j` of word `i` is index `i * w + j`. -/
lemma bit_word (bm : Words n w) (i : Fin n) {j : ℕ} (hj : j < w) :
    bit bm (i * w + j) = (bm i).getLsbD j := by
  have hw : 0 < w := by omega
  have hdiv : (i * w + j) / w = i := by
    rw [Nat.mul_comm, Nat.mul_add_div hw, Nat.div_eq_of_lt hj, Nat.add_zero]
  have hmod : (i * w + j) % w = j := by
    rw [Nat.mul_comm, Nat.mul_add_mod, Nat.mod_eq_of_lt hj]
  have hlt : (i * w + j) / w < n := by rw [hdiv]; exact i.isLt
  unfold bit
  rw [dif_pos hlt, hmod]
  congr 2
  exact Fin.ext hdiv

/-- The index of bit `j` of word `i` is `f` exactly when `i` and `j` are its quotient and
remainder. -/
lemma index_eq_iff (hw : 0 < w) {i f j : ℕ} (hj : j < w) :
    f = i * w + j ↔ f / w = i ∧ f % w = j := by
  constructor
  · rintro rfl
    exact ⟨by rw [Nat.mul_comm, Nat.mul_add_div hw, Nat.div_eq_of_lt hj, Nat.add_zero],
      by rw [Nat.mul_comm, Nat.mul_add_mod, Nat.mod_eq_of_lt hj]⟩
  · rintro ⟨rfl, rfl⟩
    rw [Nat.mul_comm]
    exact (Nat.div_add_mod f w).symm

/-- A word is replaced. -/
lemma bit_update (bm : Words n w) (i : Fin n) (x : BitVec w) (f : ℕ) :
    bit (update bm i x) f = if f / w = i then x.getLsbD (f % w) else bit bm f := by
  unfold bit
  by_cases hi : f / w = i
  · have hlt : f / w < n := hi ▸ i.isLt
    rw [if_pos hi, dif_pos hlt, show (⟨f / w, hlt⟩ : Fin n) = i from Fin.ext hi, update_self]
  · rw [if_neg hi]
    split_ifs with hlt
    · rw [update_of_ne fun e => hi (congrArg Fin.val e)]
    · rfl

/-- The bit of a word at an index. -/
lemma bit_of_div_eq (bm : Words n w) {i : Fin n} {f : ℕ} (h : f / w = i) :
    bit bm f = (bm i).getLsbD (f % w) := by
  have hupdate := bit_update bm i (bm i) f
  rwa [update_eq_self, if_pos h] at hupdate

/-- Setting bit `j` of word `i` adds index `i * w + j`. -/
lemma bit_setBit (bm : Words n w) (i : Fin n) {j : ℕ} (hj : j < w) (f : ℕ) :
    bit (setBit bm i j) f = (bit bm f || decide (f = i * w + j)) := by
  simp only [setBit, bit_update, index_eq_iff (Nat.zero_lt_of_lt hj) hj]
  split_ifs with hi
  · simp [bit_of_div_eq bm hi, hj, hi]
  · simp [hi]

/-- Clearing bit `j` of word `i` removes index `i * w + j`. -/
lemma bit_clearBit (bm : Words n w) (i : Fin n) {j : ℕ} (hj : j < w) (f : ℕ) :
    bit (clearBit bm i j) f = (bit bm f && !decide (f = i * w + j)) := by
  simp only [clearBit, bit_update, index_eq_iff (Nat.zero_lt_of_lt hj) hj]
  split_ifs with hi
  · have hm : f % w < w := Nat.mod_lt _ (Nat.zero_lt_of_lt hj)
    simp only [bit_of_div_eq bm hi, BitVec.getLsbD_and, BitVec.getLsbD_not, getLsbD_mask hj, hm, hi,
      decide_true, Bool.true_and, true_and]
  · simp [hi]

/-! ## Counting -/

/-- Adding one index below `m` to a set raises its count below `m` by one.

**Proof sketch.** Induction on `m`: below the added index the two sets agree, at the index the
count of the larger one grows by one, above it both grow alike. -/
lemma count_succ_of_flip {p q : ℕ → Prop} [DecidablePred p] [DecidablePred q] {f : ℕ}
    (hp : ¬ p f) (hq : q f) (hpq : ∀ g, g ≠ f → (p g ↔ q g)) :
    ∀ m, Nat.count q m = Nat.count p m + if f < m then 1 else 0 := by
  intro m
  induction m with
  | zero => simp
  | succ m ih =>
    rw [Nat.count_succ, Nat.count_succ, ih]
    rcases lt_trichotomy f m with h | h | h
    · have := hpq m (by omega)
      simp only [h, if_true, show f < m + 1 by omega, this]
      omega
    · subst h
      simp [hp, hq]
    · have := hpq m (by omega)
      simp only [show ¬ f < m by omega, show ¬ f < m + 1 by omega, if_false, this]
      omega

/-- The clear and the set indices below `m` are `m` in number. -/
lemma count_add_count_not (p : ℕ → Prop) [DecidablePred p] (m : ℕ) :
    Nat.count p m + Nat.count (fun f => ¬ p f) m = m := by
  induction m with
  | zero => simp
  | succ m ih =>
    rw [Nat.count_succ, Nat.count_succ]
    by_cases h : p m <;> simp [h] <;> omega

end WordBitmap
