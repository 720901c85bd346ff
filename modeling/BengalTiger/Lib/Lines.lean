import Mathlib.Data.List.Basic

set_option autoImplicit false

/-!
# Lines of a text

A text over any alphabet is cut into lines after each occurrence of a separator. The lemmas say
how the lines of a concatenation arise when the cut is at the beginning of a line, and where a
separator must occur when all lines are short. Cutting at the separators instead gives one more
line, which is empty when the text ends with a separator; each of these has its place in the text.

## Main definitions

* `Lines.lines` — the lines of a text, each with its separator.
* `Lines.AtLineStart` — a text after which a new line begins.
* `Lines.IsLine` — a line with what stands before and after it.

## Main results

* `Lines.lines_append` — the lines of `pre ++ xs` when `xs` begins a line.
* `Lines.exists_separator` — a text longer than its longest line has an early separator.
* `Lines.exists_isLine`, `Lines.length_splitOn` — the places of the lines between separators.
-/

namespace Lines

open List

variable {α : Type} (nl : α)

/-- After this text a new line begins: it is empty or ends with the separator. -/
def AtLineStart (pre : List α) : Prop := ∀ c, pre.getLast? = some c → c = nl

variable {nl}

/-- The empty text is the beginning of a line. -/
lemma atLineStart_nil : AtLineStart nl ([] : List α) := by
  intro c hc
  simp at hc

/-- A new line begins after a separator. -/
lemma atLineStart_concat (pre : List α) : AtLineStart nl (pre ++ [nl]) := by
  intro c hc
  simpa using hc.symm

/-- The rest of a text at whose end a line begins. -/
lemma AtLineStart.of_cons {c d : α} {t : List α} (h : AtLineStart nl (c :: d :: t)) :
    AtLineStart nl (d :: t) := by
  intro e he
  apply h
  rw [getLast?_cons_cons, he]

/-- A text that is longer by one element at its beginning. -/
lemma AtLineStart.cons {c : α} {pre : List α} (h : AtLineStart nl pre)
    (hc : pre = [] → c = nl) : AtLineStart nl (c :: pre) := by
  cases pre with
  | nil =>
    intro e he
    rw [getLast?_singleton, Option.some_inj] at he
    rw [← he]
    exact hc rfl
  | cons d t =>
    intro e he
    rw [getLast?_cons_cons] at he
    exact h e he

variable [DecidableEq α]

/-- The lines of a text. Each ends with the separator, except perhaps the last. -/
def lines (nl : α) : List α → List (List α)
  | [] => []
  | c :: t =>
    if c = nl then [c] :: lines nl t else (c :: (lines nl t).headD []) :: (lines nl t).tail

/-- A text that is not empty has a line. -/
lemma lines_ne_nil {xs : List α} (h : xs ≠ []) : lines nl xs ≠ [] := by
  cases xs with
  | nil => exact absurd rfl h
  | cons c t =>
    unfold lines
    split_ifs <;> simp

/-- The lines of a text cut at the beginning of a line are those of the two parts. -/
lemma lines_append {pre : List α} (h : AtLineStart nl pre) (xs : List α) :
    lines nl (pre ++ xs) = lines nl pre ++ lines nl xs := by
  induction pre with
  | nil => rfl
  | cons c t ih =>
    cases t with
    | nil =>
      have hc : c = nl := h c rfl
      simp [lines, hc]
    | cons d t =>
      have ht : lines nl (d :: t) ≠ [] := lines_ne_nil (by simp)
      obtain ⟨l, ls, hl⟩ := exists_cons_of_ne_nil ht
      rw [cons_append, lines, lines, ih h.of_cons, hl]
      split_ifs <;> simp

/-- The first line is as long as the text before the first separator, and one longer. -/
lemma lt_length_headD {n : ℕ} {xs : List α} (h : ∀ i < n, xs[i]? ≠ some nl)
    (hn : n < xs.length) : n < ((lines nl xs).headD []).length := by
  induction xs generalizing n with
  | nil => simp at hn
  | cons c t ih =>
    cases n with
    | zero =>
      unfold lines
      split_ifs <;> simp
    | succ n =>
      have hc : c ≠ nl := by
        intro e
        apply h 0 (by omega)
        simp [e]
      have ht : n < ((lines nl t).headD []).length := by
        apply ih
        · intro i hi
          simpa using h (i + 1) (by omega)
        · simpa using hn
      rw [lines, if_neg hc]
      simpa using ht

/-- In a text that is longer than `n`, no line of which is, a separator occurs before place
`n`. -/
lemma exists_separator {n : ℕ} {xs : List α} (h : ∀ l ∈ lines nl xs, l.length ≤ n)
    (hn : n < xs.length) : ∃ i < n, xs[i]? = some nl := by
  by_contra hno
  push Not at hno
  have hlt := lt_length_headD hno hn
  have hne : lines nl xs ≠ [] := lines_ne_nil (ne_nil_of_length_pos (by omega))
  obtain ⟨l, ls, hl⟩ := exists_cons_of_ne_nil hne
  have := h l (by simp [hl])
  rw [hl, headD_cons] at hlt
  omega

/-! ## Lines between separators -/

/-- **A line of a text**: it has no separator, it begins after `pre` and ends before `post`. -/
structure IsLine (nl : α) (pre line post : List α) : Prop where
  start : AtLineStart nl pre
  notMem : nl ∉ line
  stop : ∀ c, post.head? = some c → c = nl

/-- A text after which a line begins is empty or has a separator. -/
lemma AtLineStart.eq_nil {pre : List α} (h : AtLineStart nl pre) (hcount : pre.count nl = 0) :
    pre = [] := by
  rcases eq_nil_or_concat pre with rfl | ⟨l, c, rfl⟩
  · rfl
  · have hc : c = nl := h c (by rw [concat_eq_append, getLast?_concat])
    rw [hc] at hcount
    simp at hcount

/-- The first line begins the text. -/
lemma splitOn_cons (nl c : α) (t : List α) : (c :: t).splitOn nl =
    if c = nl then [] :: t.splitOn nl else (t.splitOn nl).modifyHead (List.cons c) := by
  rw [List.splitOn, splitOnP_cons_eq_if_modifyHead, List.splitOn]
  simp only [beq_iff_eq]

/-- There is a line more than there are separators. -/
lemma length_splitOn (nl : α) (text : List α) :
    (text.splitOn nl).length = text.count nl + 1 := by
  induction text with
  | nil => simp
  | cons c t ih =>
    rw [splitOn_cons, count_cons]
    by_cases hc : c = nl
    · rw [if_pos hc, length_cons, ih, if_pos (beq_iff_eq.2 hc)]
    · rw [if_neg hc, length_modifyHead, ih, if_neg (by rwa [beq_iff_eq])]

/-- **The place of a line**: as many separators stand before it as there are lines.

**Proof sketch.** Induction on the text. A separator at its beginning is put before the other
lines; another element is put before the first line, or before what precedes another one. -/
lemma exists_isLine {text line : List α} {n : ℕ} (h : (text.splitOn nl)[n]? = some line) :
    ∃ pre post, text = pre ++ (line ++ post) ∧ IsLine nl pre line post ∧ pre.count nl = n := by
  induction text generalizing n line with
  | nil =>
    rw [splitOn_nil, getElem?_singleton] at h
    split_ifs at h with hn
    rw [Option.some_inj] at h
    refine ⟨[], [], by simp [← h], ⟨atLineStart_nil, by simp [← h], by simp⟩, by simp [hn]⟩
  | cons c t ih =>
    rw [splitOn_cons] at h
    split_ifs at h with hc
    · cases n with
      | zero =>
        rw [getElem?_cons_zero, Option.some_inj] at h
        refine ⟨[], c :: t, by simp [← h], ⟨atLineStart_nil, by simp [← h], ?_⟩, rfl⟩
        intro e he
        rw [head?_cons, Option.some_inj] at he
        rw [← he, hc]
      | succ n =>
        rw [getElem?_cons_succ] at h
        obtain ⟨pre, post, rfl, hline, hcount⟩ := ih h
        refine ⟨c :: pre, post, rfl, ⟨hline.start.cons fun _ => hc, hline.notMem, hline.stop⟩, ?_⟩
        rw [hc, count_cons_self, hcount]
    · cases n with
      | zero =>
        rw [getElem?_modifyHead_zero, Option.map_eq_some_iff] at h
        obtain ⟨rest, hrest, rfl⟩ := h
        obtain ⟨pre, post, rfl, hline, hcount⟩ := ih hrest
        have hpre := hline.start.eq_nil hcount
        subst hpre
        refine ⟨[], post, rfl, ⟨atLineStart_nil, ?_, hline.stop⟩, rfl⟩
        rw [mem_cons, not_or]
        exact ⟨Ne.symm hc, hline.notMem⟩
      | succ n =>
        rw [getElem?_modifyHead_succ] at h
        obtain ⟨pre, post, rfl, hline, hcount⟩ := ih h
        refine ⟨c :: pre, post, rfl,
          ⟨hline.start.cons fun hnil => ?_, hline.notMem, hline.stop⟩, ?_⟩
        · rw [hnil, count_nil] at hcount
          cases hcount
        · rw [count_cons_of_ne hc, hcount]

end Lines
