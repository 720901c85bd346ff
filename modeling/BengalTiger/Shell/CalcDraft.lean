import BengalTiger.Shell.Calc
import Mathlib.Data.List.DropRight

set_option autoImplicit false

/-!
# Drafts of expressions

The text of a `calc` command need not be an expression. The calculator still reads it from the left,
and computes, until it meets an error. What it can read is a *draft*: the tree of an expression in
which operands and closing parentheses may be missing. The reader of this module follows the grammar
and no values, and stops where the syntax is broken; a text is an expression exactly when its draft
is clean and nothing is left behind it.

Terms and expressions are chains of operands with operators between them, which differ in the
operators and in the level of the operands only. The reader has the level as a parameter.

## Main definitions

* `Calc.Draft`, `Calc.Draft.clean`, `Calc.Draft.tree` — drafts,
  those that nothing is missing in, and the expressions that they stand for.
* `Calc.read`, `Calc.draft` — the reader, and the draft of a text.

## Main results

* `Calc.readEnds` — the bound on the recursion suffices.
* `Calc.readSound` — a clean draft is generated by the grammar.
* `Calc.Gen.reads` — what the grammar generates is read as a clean draft.
* `Calc.generates_iff` — the expressions of a text.
-/

namespace BengalTiger.Calc

open List

/-! ## Blanks -/

/-- The text behind leading blanks. -/
def skip (s : List UInt8) : List UInt8 := s.dropWhile isBlank

section Blanks

variable {w s l : List UInt8} {ch : UInt8}

lemma blanks_nil : Blanks [] := fun _ h => by cases h

lemma Blanks.append {w' : List UInt8} (h : Blanks w) (h' : Blanks w') : Blanks (w ++ w') :=
  fun ch hch => (mem_append.mp hch).elim (h ch) (h' ch)

@[simp] lemma skip_skip (s : List UInt8) : skip (skip s) = skip s :=
  dropWhile_idempotent ..

lemma length_skip_le (s : List UInt8) : (skip s).length ≤ s.length :=
  (dropWhile_suffix _).length_le

lemma exists_skip (s : List UInt8) : ∃ w, Blanks w ∧ s = w ++ skip s :=
  ⟨s.takeWhile isBlank, fun ch h => all_eq_true.mp all_takeWhile ch h,
    takeWhile_append_dropWhile.symm⟩

lemma skip_of_blanks (hw : Blanks w) : skip w = [] := dropWhile_eq_nil_iff.mpr hw

/-- Blanks are skipped up to a token. -/
lemma skip_token (hw : Blanks w) (hch : isBlank ch = false) : skip (w ++ ch :: l) = ch :: l := by
  induction w with
  | nil => rw [skip, nil_append, dropWhile_cons_of_neg (by rw [hch]; simp)]
  | cons a w ih =>
    rw [skip, cons_append, dropWhile_cons_of_pos (hw a (mem_cons_self ..))]
    exact ih fun b hb => hw b (mem_cons_of_mem _ hb)

/-- A character that is not the terminating zero stands in the text. -/
lemma eq_cons_of_headD (h : s.headD 0 = ch) (hch : ch ≠ 0) : s = ch :: s.tail := by
  cases s with
  | nil => exact absurd h.symm hch
  | cons a l =>
    rw [headD_cons] at h
    rw [h, tail_cons]

/-- Blanks and a token in front of the rest. -/
lemma exists_token (h : (skip s).headD 0 = ch) (hch : ch ≠ 0) :
    ∃ w, Blanks w ∧ s = w ++ ch :: (skip s).tail := by
  obtain ⟨w, hw, e⟩ := exists_skip s
  exact ⟨w, hw, by rw [← eq_cons_of_headD h hch]; exact e⟩

/-- Reading a token makes the text shorter. -/
lemma length_tail_skip_lt (h : (skip s).headD 0 = ch) (hch : ch ≠ 0) :
    (skip s).tail.length < s.length := by
  have hs := length_skip_le s
  rw [eq_cons_of_headD h hch, length_cons] at hs
  omega

end Blanks

/-! ## Levels -/

lemma symbol_ne_zero (op : BinOp) : op.symbol ≠ 0 := by
  cases op <;> decide

lemma isBlank_symbol (op : BinOp) : isBlank op.symbol = false := by
  cases op <;> decide

lemma symbol_injective {op op' : BinOp} (h : op.symbol = op'.symbol) : op = op' := by
  revert h
  cases op <;> cases op' <;> decide

deriving instance DecidableEq for Level

namespace Level

/-- The operators between the operands of a level. -/
def ops : Level → List BinOp
  | factor => []
  | term => [.mul, .div, .rem]
  | expr => [.add, .sub]

/-- The level of the operands. -/
def operand : Level → Level
  | factor => factor
  | term => factor
  | expr => term

/-- The number of calls until a factor is read. -/
def depth : Level → ℕ
  | factor => 1
  | term => 2
  | expr => 3

/-- The operator of a level with a given character. -/
def opAt (lev : Level) (ch : UInt8) : Option BinOp := lev.ops.find? fun op => op.symbol = ch

variable {lev : Level} {op : BinOp} {ch : UInt8}

/-- An operator of a level is found at its symbol. -/
lemma opAt_eq_some : lev.opAt ch = some op ↔ op ∈ lev.ops ∧ ch = op.symbol := by
  rw [opAt]
  constructor
  · intro h
    have hs := find?_some h
    exact ⟨mem_of_find?_eq_some h, (of_decide_eq_true hs).symm⟩
  · rintro ⟨hop, rfl⟩
    cases h : lev.ops.find? fun op' => op'.symbol = op.symbol with
    | none =>
      have hne := find?_eq_none.mp h op hop
      simp at hne
    | some op' =>
      have hs := find?_some h
      rw [symbol_injective (of_decide_eq_true hs)]

lemma opAt_eq_none : lev.opAt ch = none ↔ ∀ op ∈ lev.ops, ch ≠ op.symbol := by
  rw [opAt, find?_eq_none]
  simp only [decide_eq_true_eq]
  exact forall₂_congr fun op _ => ne_comm

end Level

/-- Operators of a level between its operands are generated. -/
lemma Gen.bin {lev : Level} {op : BinOp} {l r : Tree} {u w u' : List UInt8} (hop : op ∈ lev.ops)
    (hl : Gen lev l u) (hw : Blanks w) (hr : Gen lev.operand r u') :
    Gen lev (.bin op l r) (u ++ (w ++ op.symbol :: u')) := by
  cases lev with
  | factor => cases hop
  | term => exact .mul hop hl hw hr
  | expr => exact .add hop hl hw hr

/-- An operand alone is of the level. -/
lemma Gen.of_operand {lev : Level} {t : Tree} {u : List UInt8} (h : Gen lev.operand t u) :
    Gen lev t u := by
  cases lev with
  | factor => exact h
  | term => exact .factor h
  | expr => exact .term h

/-! ## Drafts -/

/-- The value of a run of digits. -/
def literal (hex : Bool) (ds : List UInt8) : ℕ := if hex then hexValue ds else decValue ds

/-- The tree of a text as far as it can be read: a number without digits is a missing operand, and a
parenthesis may be left open. -/
inductive Draft
  | num (hex : Bool) (ds : List UInt8)
  | pos (d : Draft)
  | neg (d : Draft)
  | paren (closed : Bool) (d : Draft)
  | bin (op : BinOp) (l r : Draft)

namespace Draft

/-- No operand and no closing parenthesis is missing. -/
def clean : Draft → Bool
  | num _ ds => !ds.isEmpty
  | pos d => d.clean
  | neg d => d.clean
  | paren closed d => closed && d.clean
  | bin _ l r => l.clean && r.clean

/-- The expression of a draft. -/
def tree : Draft → Tree
  | num hex ds => .lit (literal hex ds)
  | pos d => .pos d.tree
  | neg d => .neg d.tree
  | paren _ d => d.tree
  | bin op l r => .bin op l.tree r.tree

end Draft

/-! ## The reader -/

/-- The value of a digit of a number. -/
def digitOf (hex : Bool) : UInt8 → Option ℕ := if hex then hexDigit else decDigit

/-- The digits of a number. -/
def isDigit (hex : Bool) (ch : UInt8) : Bool := (digitOf hex ch).isSome

/-- The text begins with `0x`. -/
def HexAhead (s : List UInt8) : Prop :=
  s.headD 0 = '0'.toUInt8 ∧ (s.tail.headD 0 = 'x'.toUInt8 ∨ s.tail.headD 0 = 'X'.toUInt8)

instance (s : List UInt8) : Decidable (HexAhead s) := by
  unfold HexAhead
  infer_instance

/-- A number, and the text behind it. -/
def readNumber (s : List UInt8) : Draft × List UInt8 :=
  if HexAhead s then
    (.num true ((s.drop 2).takeWhile (isDigit true)), (s.drop 2).dropWhile (isDigit true))
  else (.num false (s.takeWhile (isDigit false)), s.dropWhile (isDigit false))

/-- The end of a parenthesis. -/
def readClose (d : Draft) (s : List UInt8) : Draft × List UInt8 :=
  if (skip s).headD 0 = ')'.toUInt8 then (.paren true d, (skip s).tail)
  else (.paren false d, skip s)

mutual

/-- The draft of a text on a level, and the text behind it. -/
def read : ℕ → Level → List UInt8 → Option (Draft × List UInt8)
  | 0, _, _ => none
  | n + 1, .factor, s =>
    if (skip s).headD 0 = '+'.toUInt8 then
      (read n .factor (skip s).tail).map fun p => (.pos p.1, p.2)
    else if (skip s).headD 0 = '-'.toUInt8 then
      (read n .factor (skip s).tail).map fun p => (.neg p.1, p.2)
    else if (skip s).headD 0 = '('.toUInt8 then
      (read n .expr (skip s).tail).map fun p => readClose p.1 p.2
    else some (readNumber (skip s))
  | n + 1, .term, s => (read n .factor s).bind fun p => readLoop n .term p.1 p.2
  | n + 1, .expr, s => (read n .term s).bind fun p => readLoop n .expr p.1 p.2

/-- The operators and operands behind a draft. -/
def readLoop : ℕ → Level → Draft → List UInt8 → Option (Draft × List UInt8)
  | 0, _, _, _ => none
  | n + 1, lev, left, s =>
    if left.clean then
      match lev.opAt ((skip s).headD 0) with
      | none => some (left, skip s)
      | some op =>
        (read n lev.operand (skip s).tail).bind fun p => readLoop n lev (.bin op left p.1) p.2
    else some (left, s)

end

section Steps

variable {n : ℕ} {lev : Level} {left d : Draft} {s rest : List UInt8}

lemma read_plus (h : (skip s).headD 0 = '+'.toUInt8) :
    read (n + 1) .factor s = (read n .factor (skip s).tail).map fun p => (.pos p.1, p.2) := by
  rw [read, if_pos h]

lemma read_minus (h : (skip s).headD 0 = '-'.toUInt8) :
    read (n + 1) .factor s = (read n .factor (skip s).tail).map fun p => (.neg p.1, p.2) := by
  rw [read, if_neg (by rw [h]; decide), if_pos h]

lemma read_paren (h : (skip s).headD 0 = '('.toUInt8) :
    read (n + 1) .factor s = (read n .expr (skip s).tail).map fun p => readClose p.1 p.2 := by
  rw [read, if_neg (by rw [h]; decide), if_neg (by rw [h]; decide), if_pos h]

lemma read_number (h1 : (skip s).headD 0 ≠ '+'.toUInt8) (h2 : (skip s).headD 0 ≠ '-'.toUInt8)
    (h3 : (skip s).headD 0 ≠ '('.toUInt8) :
    read (n + 1) .factor s = some (readNumber (skip s)) := by
  rw [read, if_neg h1, if_neg h2, if_neg h3]

/-- A term and an expression begin with an operand. -/
lemma read_chain (hlev : lev ≠ .factor) :
    read (n + 1) lev s =
      (read n lev.operand s).bind fun p => readLoop n lev p.1 p.2 := by
  cases lev with
  | factor => exact absurd rfl hlev
  | term => rw [read, Level.operand]
  | expr => rw [read, Level.operand]

lemma readLoop_of_not_clean (h : left.clean = false) :
    readLoop (n + 1) lev left s = some (left, s) := by
  rw [readLoop, h]
  rfl

lemma readLoop_end (hc : left.clean = true) (h : lev.opAt ((skip s).headD 0) = none) :
    readLoop (n + 1) lev left s = some (left, skip s) := by
  rw [readLoop, if_pos hc, h]

lemma readLoop_op {op : BinOp} (hc : left.clean = true)
    (h : lev.opAt ((skip s).headD 0) = some op) :
    readLoop (n + 1) lev left s =
      (read n lev.operand (skip s).tail).bind fun p => readLoop n lev (.bin op left p.1) p.2 := by
  rw [readLoop, if_pos hc, h]

/-- **One step of the loop** of the reader. -/
lemma readLoop_cases (h : readLoop (n + 1) lev left s = some (d, rest)) :
    (left.clean = false ∧ d = left ∧ rest = s) ∨
    (left.clean = true ∧ lev.opAt ((skip s).headD 0) = none ∧ d = left ∧ rest = skip s) ∨
    ∃ op r s', left.clean = true ∧ lev.opAt ((skip s).headD 0) = some op ∧
      read n lev.operand (skip s).tail = some (r, s') ∧
      readLoop n lev (.bin op left r) s' = some (d, rest) := by
  cases hc : left.clean with
  | false =>
    rw [readLoop_of_not_clean hc] at h
    cases h
    exact .inl ⟨rfl, rfl, rfl⟩
  | true =>
    cases ho : lev.opAt ((skip s).headD 0) with
    | none =>
      rw [readLoop_end hc ho] at h
      cases h
      exact .inr (.inl ⟨rfl, rfl, rfl, rfl⟩)
    | some op =>
      rw [readLoop_op hc ho] at h
      obtain ⟨p, hp, hl⟩ := Option.bind_eq_some_iff.mp h
      exact .inr (.inr ⟨op, p.1, p.2, rfl, rfl, hp, hl⟩)

/-- **A factor** is read by its first character that is not blank. -/
lemma read_factor_cases (h : read (n + 1) .factor s = some (d, rest)) :
    ((skip s).headD 0 = '+'.toUInt8 ∧
      ∃ d', read n .factor (skip s).tail = some (d', rest) ∧ d = .pos d') ∨
    ((skip s).headD 0 = '-'.toUInt8 ∧
      ∃ d', read n .factor (skip s).tail = some (d', rest) ∧ d = .neg d') ∨
    ((skip s).headD 0 = '('.toUInt8 ∧
      ∃ d' s', read n .expr (skip s).tail = some (d', s') ∧ readClose d' s' = (d, rest)) ∨
    ((skip s).headD 0 ≠ '+'.toUInt8 ∧ (skip s).headD 0 ≠ '-'.toUInt8 ∧
      (skip s).headD 0 ≠ '('.toUInt8 ∧ readNumber (skip s) = (d, rest)) := by
  by_cases h1 : (skip s).headD 0 = '+'.toUInt8
  · rw [read_plus h1] at h
    obtain ⟨p, hp, e⟩ := Option.map_eq_some_iff.mp h
    cases e
    exact .inl ⟨h1, p.1, hp, rfl⟩
  by_cases h2 : (skip s).headD 0 = '-'.toUInt8
  · rw [read_minus h2] at h
    obtain ⟨p, hp, e⟩ := Option.map_eq_some_iff.mp h
    cases e
    exact .inr (.inl ⟨h2, p.1, hp, rfl⟩)
  by_cases h3 : (skip s).headD 0 = '('.toUInt8
  · rw [read_paren h3] at h
    obtain ⟨p, hp, e⟩ := Option.map_eq_some_iff.mp h
    exact .inr (.inr (.inl ⟨h3, p.1, p.2, hp, e⟩))
  · rw [read_number h1 h2 h3] at h
    exact .inr (.inr (.inr ⟨h1, h2, h3, Option.some.inj h⟩))

end Steps

/-! ## The bound on the recursion -/

/-- The reader ends within the bound `n`, and gives no characters back. -/
structure ReadEnds (n : ℕ) : Prop where
  read : ∀ (lev : Level) (s : List UInt8), 3 * s.length + lev.depth ≤ n →
    ∃ d rest, read n lev s = some (d, rest) ∧ rest.length ≤ s.length
  loop : ∀ (lev : Level) (left : Draft) (s : List UInt8), 3 * s.length + 1 ≤ n →
    ∃ d rest, readLoop n lev left s = some (d, rest) ∧ rest.length ≤ s.length

lemma length_readNumber_le (s : List UInt8) : (readNumber s).2.length ≤ s.length := by
  rw [readNumber]
  split_ifs
  · exact (dropWhile_suffix _).length_le.trans (drop_suffix _ _).length_le
  · exact (dropWhile_suffix _).length_le

lemma length_readClose_le (d : Draft) (s : List UInt8) : (readClose d s).2.length ≤ s.length := by
  have hs := length_skip_le s
  rw [readClose]
  split_ifs
  · exact (tail_suffix _).length_le.trans hs
  · exact hs

/-- A factor is read within the bound. -/
lemma ReadEnds.factor_succ {n : ℕ} (ih : ReadEnds n) {s : List UInt8}
    (hs : 3 * s.length + 1 ≤ n + 1) :
    ∃ d rest, Calc.read (n + 1) .factor s = some (d, rest) ∧ rest.length ≤ s.length := by
  by_cases h1 : (skip s).headD 0 = '+'.toUInt8
  · have hlt := length_tail_skip_lt h1 (by decide)
    obtain ⟨d, rest, e, hle⟩ := ih.read .factor (skip s).tail (by rw [Level.depth]; omega)
    exact ⟨.pos d, rest, by rw [read_plus h1, e]; rfl, by omega⟩
  by_cases h2 : (skip s).headD 0 = '-'.toUInt8
  · have hlt := length_tail_skip_lt h2 (by decide)
    obtain ⟨d, rest, e, hle⟩ := ih.read .factor (skip s).tail (by rw [Level.depth]; omega)
    exact ⟨.neg d, rest, by rw [read_minus h2, e]; rfl, by omega⟩
  by_cases h3 : (skip s).headD 0 = '('.toUInt8
  · have hlt := length_tail_skip_lt h3 (by decide)
    obtain ⟨d, rest, e, hle⟩ := ih.read .expr (skip s).tail (by rw [Level.depth]; omega)
    have hc := length_readClose_le d rest
    exact ⟨(readClose d rest).1, (readClose d rest).2, by rw [read_paren h3, e]; rfl, by omega⟩
  · exact ⟨_, _, read_number h1 h2 h3, (length_readNumber_le _).trans (length_skip_le s)⟩

/-- A term or an expression is read within the bound. -/
lemma ReadEnds.chain_succ {n : ℕ} (ih : ReadEnds n) {lev : Level} (hlev : lev ≠ .factor)
    {s : List UInt8} (hs : 3 * s.length + lev.depth ≤ n + 1) :
    ∃ d rest, Calc.read (n + 1) lev s = some (d, rest) ∧ rest.length ≤ s.length := by
  have hdepth : lev.operand.depth + 1 = lev.depth := by
    cases lev with
    | factor => exact absurd rfl hlev
    | term => rfl
    | expr => rfl
  have hpos : 1 ≤ lev.operand.depth := by cases lev <;> decide
  obtain ⟨d, s', e, hle⟩ := ih.read lev.operand s (by omega)
  obtain ⟨d', rest, e', hle'⟩ := ih.loop lev d s' (by omega)
  exact ⟨d', rest, by rw [read_chain hlev, e]; exact e', hle'.trans hle⟩

/-- The loop over the operators ends within the bound, as every operator takes a character. -/
lemma ReadEnds.loop_succ {n : ℕ} (ih : ReadEnds n) (lev : Level) (left : Draft) {s : List UInt8}
    (hs : 3 * s.length + 1 ≤ n + 1) :
    ∃ d rest, readLoop (n + 1) lev left s = some (d, rest) ∧ rest.length ≤ s.length := by
  cases hc : left.clean with
  | false => exact ⟨left, s, readLoop_of_not_clean hc, le_rfl⟩
  | true =>
    cases ho : lev.opAt ((skip s).headD 0) with
    | none => exact ⟨left, skip s, readLoop_end hc ho, length_skip_le s⟩
    | some op =>
      have hlt := length_tail_skip_lt (Level.opAt_eq_some.mp ho).2 (symbol_ne_zero op)
      have hdepth : lev.operand.depth ≤ 2 := by cases lev <;> decide
      obtain ⟨r, s', e, hle⟩ := ih.read lev.operand (skip s).tail (by omega)
      obtain ⟨d, rest, e', hle'⟩ := ih.loop lev (.bin op left r) s' (by omega)
      exact ⟨d, rest, by rw [readLoop_op hc ho, e]; exact e', by omega⟩

/-- **The bound suffices.**

**Proof sketch.** Induction on the bound. Between two calls on the same level, and between two
iterations of the loop, a character is consumed. -/
lemma readEnds (n : ℕ) : ReadEnds n := by
  induction n with
  | zero =>
    refine ⟨fun lev s h => ?_, fun lev left s h => by omega⟩
    have hpos : 1 ≤ lev.depth := by cases lev <;> decide
    omega
  | succ n ih =>
    refine ⟨fun lev s h => ?_, fun lev left s h => ih.loop_succ lev left h⟩
    by_cases hlev : lev = .factor
    · subst hlev
      exact ih.factor_succ h
    · exact ih.chain_succ hlev h

/-! ## Clean drafts are generated -/

section Sound

variable {n : ℕ} {lev : Level} {left d : Draft} {s rest : List UInt8}

lemma isDigit_takeWhile (hex : Bool) (s : List UInt8) :
    ∀ ch ∈ s.takeWhile (isDigit hex), isDigit hex ch = true :=
  fun ch h => all_eq_true.mp all_takeWhile ch h

/-- A number with digits is generated. -/
lemma readNumber_sound (h : readNumber s = (d, rest)) (hc : d.clean = true) {w : List UInt8}
    (hw : Blanks w) : ∃ u, Gen .factor d.tree (w ++ u) ∧ s = u ++ rest := by
  rw [readNumber] at h
  split_ifs at h with hx
  · cases h
    set ds := (s.drop 2).takeWhile (isDigit true) with hds
    have hne : ds ≠ [] := fun he => by
      rw [Draft.clean, he] at hc
      cases hc
    obtain ⟨x, hx'⟩ : ∃ x, s.tail.headD 0 = x := ⟨_, rfl⟩
    obtain ⟨h0, hX⟩ := hx
    rw [hx'] at hX
    have h1 : s = '0'.toUInt8 :: s.tail := eq_cons_of_headD h0 (by decide)
    have h2 : s.tail = x :: s.tail.tail :=
      eq_cons_of_headD hx' (by rcases hX with rfl | rfl <;> decide)
    have h3 : s.drop 2 = s.tail.tail := by
      rw [h1, h2]
      rfl
    refine ⟨'0'.toUInt8 :: x :: ds, .hex hw hX hne (isDigit_takeWhile true _), ?_⟩
    rw [cons_append, cons_append, hds, takeWhile_append_dropWhile, h3, ← h2, ← h1]
  · cases h
    have hne : s.takeWhile (isDigit false) ≠ [] := fun he => by
      rw [Draft.clean, he] at hc
      cases hc
    exact ⟨_, .dec hw hne (isDigit_takeWhile false _), takeWhile_append_dropWhile.symm⟩

/-- What is read is generated if it is clean; the loop continues a text `u` that was read before and
the blanks `w` behind it. -/
structure ReadSound (n : ℕ) : Prop where
  read : ∀ lev s d rest, read n lev s = some (d, rest) → d.clean = true →
    ∃ u w, Gen lev d.tree u ∧ Blanks w ∧ s = u ++ (w ++ rest)
  loop : ∀ lev left s d rest, readLoop n lev left s = some (d, rest) → d.clean = true →
    ∀ u w, Gen lev left.tree u → Blanks w →
      ∃ u' w', Gen lev d.tree (u ++ u') ∧ Blanks w' ∧ w ++ s = u' ++ (w' ++ rest)

/-- The loop does not mend a draft. -/
lemma clean_of_readLoop (h : readLoop n lev left s = some (d, rest)) (hc : d.clean = true) :
    left.clean = true := by
  cases n with
  | zero => cases h
  | succ n =>
    rcases readLoop_cases h with ⟨hl, rfl, -⟩ | ⟨hl, -⟩ | ⟨op, r, s', hl, -⟩
    · rw [hl] at hc
      cases hc
    · exact hl
    · exact hl

/-- A factor that is read without an error is generated by the grammar. -/
lemma ReadSound.factor_succ (ih : ReadSound n) (h : Calc.read (n + 1) .factor s = some (d, rest))
    (hc : d.clean = true) :
    ∃ u w, Gen .factor d.tree u ∧ Blanks w ∧ s = u ++ (w ++ rest) := by
  rcases read_factor_cases h with ⟨hp, d', e, rfl⟩ | ⟨hp, d', e, rfl⟩ | ⟨hp, d', s', e, hclose⟩ |
    ⟨-, -, -, e⟩
  · obtain ⟨w, hw, hs⟩ := exists_token hp (by decide)
    obtain ⟨u, w', hu, hw', hr⟩ := ih.read _ _ _ _ e hc
    exact ⟨_, w', .pos hw hu, hw', by rw [hs, hr, append_assoc, cons_append]⟩
  · obtain ⟨w, hw, hs⟩ := exists_token hp (by decide)
    obtain ⟨u, w', hu, hw', hr⟩ := ih.read _ _ _ _ e hc
    exact ⟨_, w', .neg hw hu, hw', by rw [hs, hr, append_assoc, cons_append]⟩
  · obtain ⟨w, hw, hs⟩ := exists_token hp (by decide)
    rw [readClose] at hclose
    split_ifs at hclose with hq
    · cases hclose
      obtain ⟨u, w₁, hu, hw₁, hr⟩ := ih.read _ _ _ _ e hc
      obtain ⟨w₂, hw₂, hs'⟩ := exists_token hq (by decide)
      refine ⟨_, [], .paren hw hu (hw₁.append hw₂), blanks_nil, ?_⟩
      rw [hs, hr]
      nth_rewrite 1 [hs']
      simp only [append_assoc, cons_append, nil_append]
    · cases hclose
      cases hc
  · obtain ⟨w, hw, hs⟩ := exists_skip s
    obtain ⟨u, hu, hr⟩ := readNumber_sound e hc hw
    exact ⟨_, [], hu, blanks_nil, by rw [nil_append, append_assoc, ← hr]; exact hs⟩

/-- So is a term or an expression. -/
lemma ReadSound.chain_succ (ih : ReadSound n) (hlev : lev ≠ .factor)
    (h : Calc.read (n + 1) lev s = some (d, rest)) (hc : d.clean = true) :
    ∃ u w, Gen lev d.tree u ∧ Blanks w ∧ s = u ++ (w ++ rest) := by
  rw [read_chain hlev] at h
  obtain ⟨p, e, hl⟩ := Option.bind_eq_some_iff.mp h
  obtain ⟨u, w, hu, hw, hs⟩ := ih.read _ _ _ _ e (clean_of_readLoop hl hc)
  obtain ⟨u', w', hu', hw', hs'⟩ := ih.loop _ _ _ _ _ hl hc u w hu.of_operand hw
  exact ⟨_, w', hu', hw', by rw [hs, hs', append_assoc]⟩

/-- So is what the loop over the operators has read. -/
lemma ReadSound.loop_succ (ih : ReadSound n) (h : readLoop (n + 1) lev left s = some (d, rest))
    (hc : d.clean = true) {u w : List UInt8} (hu : Gen lev left.tree u) (hw : Blanks w) :
    ∃ u' w', Gen lev d.tree (u ++ u') ∧ Blanks w' ∧ w ++ s = u' ++ (w' ++ rest) := by
  rcases readLoop_cases h with ⟨-, rfl, rfl⟩ | ⟨-, -, rfl, rfl⟩ | ⟨op, r, s', -, ho, e, hl⟩
  · exact ⟨[], w, by rwa [append_nil], hw, rfl⟩
  · obtain ⟨w', hw', hs⟩ := exists_skip s
    refine ⟨[], w ++ w', by rwa [append_nil], hw.append hw', ?_⟩
    rw [nil_append, append_assoc, ← hs]
  · obtain ⟨hop, hp⟩ := Level.opAt_eq_some.mp ho
    obtain ⟨w', hw', hs⟩ := exists_token hp (symbol_ne_zero op)
    have hbin := clean_of_readLoop hl hc
    rw [Draft.clean, Bool.and_eq_true] at hbin
    obtain ⟨u₁, w₁, hu₁, hw₁, hs₁⟩ := ih.read _ _ _ _ e hbin.2
    obtain ⟨u', w₂, hu', hw₂, hs₂⟩ := ih.loop _ _ _ _ _ hl hc _ w₁
      (hu.bin hop (hw.append hw') hu₁) hw₁
    refine ⟨((w ++ w') ++ op.symbol :: u₁) ++ u', w₂, ?_, hw₂, ?_⟩
    · rwa [← append_assoc]
    · rw [hs, hs₁, hs₂]
      simp only [append_assoc, cons_append]

/-- **A clean draft is generated by the grammar.**

**Proof sketch.** Induction on the bound. The loop builds the tree from the left: an iteration reads
an operator and an operand and goes on with the longer text. -/
lemma readSound (n : ℕ) : ReadSound n := by
  induction n with
  | zero => exact ⟨fun _ _ _ _ h => (by cases h), fun _ _ _ _ _ h => (by cases h)⟩
  | succ n ih =>
    refine ⟨fun lev s d rest h hc => ?_, fun lev left s d rest h hc u w hu hw =>
      ih.loop_succ h hc hu hw⟩
    by_cases hlev : lev = .factor
    · subst hlev
      exact ih.factor_succ h hc
    · exact ih.chain_succ hlev h hc

end Sound

/-! ## What is generated is read -/

/-- The text does not continue a number. -/
def Follows (rest : List UInt8) : Prop :=
  ∀ ch, rest.head? = some ch → hexDigit ch = none ∧ ch ≠ 'x'.toUInt8 ∧ ch ≠ 'X'.toUInt8

/-- The text does not continue an operand of the level. -/
def OperandEnds (lev : Level) (rest : List UInt8) : Prop :=
  lev.operand.opAt ((skip rest).headD 0) = none

/-- How the reader goes on behind a draft: a factor ends. -/
def goOn (m : ℕ) (lev : Level) (d : Draft) (rest : List UInt8) : Option (Draft × List UInt8) :=
  if lev = .factor then some (d, rest) else readLoop m lev d rest

/-- The reader reads a text as the tree, and goes on behind it. -/
def Reads (lev : Level) (t : Tree) (u : List UInt8) : Prop :=
  ∀ n rest, Follows rest → OperandEnds lev rest → 3 * (u ++ rest).length + lev.depth ≤ n →
    ∃ m d, 3 * rest.length + 1 ≤ m ∧ d.clean = true ∧ d.tree = t ∧
      read n lev (u ++ rest) = goOn m lev d rest

section Complete

variable {w rest l : List UInt8} {ch : UInt8}

/-- The text behind a number may begin with blanks and a token. -/
lemma follows_token (hw : Blanks w)
    (hch : hexDigit ch = none ∧ ch ≠ 'x'.toUInt8 ∧ ch ≠ 'X'.toUInt8) : Follows (w ++ ch :: l) := by
  intro a ha
  cases w with
  | nil =>
    cases ha
    exact hch
  | cons b w =>
    cases ha
    have hb : isBlank a = true := hw a (mem_cons_self ..)
    simp only [isBlank, decide_eq_true_eq] at hb
    rcases hb with rfl | rfl <;> decide

lemma follows_symbol (hw : Blanks w) (op : BinOp) : Follows (w ++ op.symbol :: l) :=
  follows_token hw (by cases op <;> decide)

lemma follows_blanks (hw : Blanks w) : Follows w := by
  intro a ha
  have hb : isBlank a = true := hw a (mem_of_mem_head? ha)
  simp only [isBlank, decide_eq_true_eq] at hb
  rcases hb with rfl | rfl <;> decide

lemma decDigit_of_hexDigit (h : hexDigit ch = none) : decDigit ch = none := by
  rw [hexDigit] at h
  split_ifs at h with h1
  exact if_neg h1

lemma isBlank_of_decDigit (h : (decDigit ch).isSome) : isBlank ch = false := by
  rw [decDigit] at h
  split_ifs at h with hd
  · simp only [isBlank, decide_eq_false_iff_not, not_or]
    refine ⟨?_, ?_⟩ <;> rintro rfl <;> exact absurd hd (by decide)
  · cases h

/-- Operands of operands are factors, which nothing continues. -/
lemma operandEnds_operand (lev : Level) (rest : List UInt8) : OperandEnds lev.operand rest := by
  cases lev <;> rfl

/-- An operator of a level does not continue the operand in front of it. -/
lemma opAt_operand_symbol {lev : Level} {op : BinOp} (h : op ∈ lev.ops) :
    lev.operand.opAt op.symbol = none := by
  revert op
  cases lev <;> decide

/-- Behind a clean draft the blanks do not matter. -/
lemma readLoop_congr {n : ℕ} {lev : Level} {d : Draft} {s s' : List UInt8} (hd : d.clean = true)
    (h : skip s = skip s') : readLoop n lev d s = readLoop n lev d s' := by
  cases n with
  | zero => rfl
  | succ n => rw [readLoop, readLoop, if_pos hd, if_pos hd, h]

/-- A text that is not continued. -/
lemma Reads.ends {lev : Level} {t : Tree} {u : List UInt8} (h : Reads lev t u) {n : ℕ}
    (hrest : Follows rest) (hop : OperandEnds lev rest)
    (hend : lev.opAt ((skip rest).headD 0) = none) (hn : 3 * (u ++ rest).length + lev.depth ≤ n) :
    ∃ d rest', d.clean = true ∧ d.tree = t ∧ read n lev (u ++ rest) = some (d, rest') ∧
      skip rest' = skip rest := by
  obtain ⟨m, d, hm, hc, ht, e⟩ := h n rest hrest hop hn
  obtain ⟨m, rfl⟩ : ∃ k, m = k + 1 := ⟨m - 1, by omega⟩
  rw [goOn] at e
  split_ifs at e
  · exact ⟨d, rest, hc, ht, e, rfl⟩
  · exact ⟨d, skip rest, hc, ht, e.trans (readLoop_end hc hend), skip_skip rest⟩

/-! ### One case per rule of the grammar -/

section Rules

variable {t : Tree} {u ds : List UInt8}

/-- A run of digits ends where the text does not continue a number. -/
lemma takeWhile_digits (hex : Bool) (hds : ∀ ch ∈ ds, isDigit hex ch = true)
    (hrest : Follows rest) :
    (ds ++ rest).takeWhile (isDigit hex) = ds ∧ (ds ++ rest).dropWhile (isDigit hex) = rest := by
  have hhead : ∀ ch, rest.head? = some ch → isDigit hex ch = false := fun ch hch => by
    obtain ⟨h, -⟩ := hrest ch hch
    have hnone : digitOf hex ch = none := by
      cases hex with
      | true => exact h
      | false => exact decDigit_of_hexDigit h
    rw [isDigit, hnone]
    rfl
  have htake : rest.takeWhile (isDigit hex) = [] ∧ rest.dropWhile (isDigit hex) = rest := by
    cases rest with
    | nil => exact ⟨rfl, rfl⟩
    | cons ch rest =>
      have hch : ¬ isDigit hex ch = true := by
        rw [hhead ch rfl]
        exact Bool.false_ne_true
      exact ⟨takeWhile_cons_of_neg hch, dropWhile_cons_of_neg hch⟩
  rw [takeWhile_append_of_pos hds, dropWhile_append_of_pos hds, htake.1, htake.2, append_nil]
  exact ⟨rfl, rfl⟩

/-- A decimal numeral is read as its value. No `x` follows its first digit, so it is not taken for a
hexadecimal one. -/
lemma reads_dec (hw : Blanks w) (hne : ds ≠ []) (hds : ∀ ch ∈ ds, (decDigit ch).isSome) :
    Reads .factor (.lit (decValue ds)) (w ++ ds) := by
  intro n rest hrest _ hn
  obtain ⟨n, rfl⟩ : ∃ k, n = k + 1 := ⟨n - 1, by rw [Level.depth] at hn; omega⟩
  refine ⟨_, .num false ds, le_rfl, ?_, rfl, ?_⟩
  · rw [Draft.clean, isEmpty_eq_false_iff.mpr hne]
    rfl
  obtain ⟨d, ds', rfl⟩ := exists_cons_of_ne_nil hne
  have hd := hds d (mem_cons_self ..)
  have hskip : skip ((w ++ d :: ds') ++ rest) = (d :: ds') ++ rest := by
    rw [append_assoc, cons_append, skip_token hw (isBlank_of_decDigit hd)]
  have hpeek : ∀ ch, decDigit ch = none → (skip ((w ++ d :: ds') ++ rest)).headD 0 ≠ ch := by
    intro ch hch
    rw [hskip, cons_append, headD_cons]
    rintro rfl
    rw [hch] at hd
    cases hd
  -- the second character is a digit or follows the number
  have hx : ¬ HexAhead ((d :: ds') ++ rest) := by
    rintro ⟨-, hx⟩
    cases ds' with
    | nil =>
      cases rest with
      | nil =>
        change (0 : UInt8) = _ ∨ (0 : UInt8) = _ at hx
        exact absurd hx (by decide)
      | cons ch rest => exact hx.elim (hrest ch rfl).2.1 (hrest ch rfl).2.2
    | cons d' ds' =>
      have hd' := hds d' (by simp)
      change d' = _ ∨ d' = _ at hx
      rcases hx with rfl | rfl <;> exact absurd hd' (by decide)
  obtain ⟨e1, e2⟩ := takeWhile_digits false hds hrest
  rw [read_number (hpeek _ (by decide)) (hpeek _ (by decide)) (hpeek _ (by decide)), hskip,
    readNumber, if_neg hx, e1, e2]
  rfl

/-- A hexadecimal numeral is read as its value. -/
lemma reads_hex {x : UInt8} (hw : Blanks w) (hx : x = 'x'.toUInt8 ∨ x = 'X'.toUInt8)
    (hne : ds ≠ []) (hds : ∀ ch ∈ ds, (hexDigit ch).isSome) :
    Reads .factor (.lit (hexValue ds)) (w ++ '0'.toUInt8 :: x :: ds) := by
  intro n rest hrest _ hn
  obtain ⟨n, rfl⟩ : ∃ k, n = k + 1 := ⟨n - 1, by rw [Level.depth] at hn; omega⟩
  refine ⟨_, .num true ds, le_rfl, ?_, rfl, ?_⟩
  · rw [Draft.clean, isEmpty_eq_false_iff.mpr hne]
    rfl
  have hskip : skip ((w ++ '0'.toUInt8 :: x :: ds) ++ rest) =
      '0'.toUInt8 :: x :: (ds ++ rest) := by
    rw [append_assoc, cons_append, cons_append, skip_token hw (by decide)]
  have hahead : HexAhead ('0'.toUInt8 :: x :: (ds ++ rest)) := ⟨rfl, hx⟩
  have hpeek : (skip ((w ++ '0'.toUInt8 :: x :: ds) ++ rest)).headD 0 = '0'.toUInt8 := by
    rw [hskip, headD_cons]
  obtain ⟨e1, e2⟩ := takeWhile_digits true hds hrest
  rw [read_number (by rw [hpeek]; decide) (by rw [hpeek]; decide) (by rw [hpeek]; decide), hskip,
    readNumber, if_pos hahead]
  change some (Draft.num true ((ds ++ rest).takeWhile (isDigit true)),
    (ds ++ rest).dropWhile (isDigit true)) = _
  rw [e1, e2]
  rfl

/-- A factor that a sign stands before. -/
lemma Reads.signed {c : UInt8} (h : Reads .factor t u) (hw : Blanks w) (hc : isBlank c = false)
    {n : ℕ} (hrest : Follows rest) (hn : 3 * ((w ++ c :: u) ++ rest).length + 1 ≤ n + 1) :
    skip ((w ++ c :: u) ++ rest) = c :: (u ++ rest) ∧
      ∃ d, d.clean = true ∧ d.tree = t ∧ read n .factor (u ++ rest) = some (d, rest) := by
  have hlen : 3 * (u ++ rest).length + Level.factor.depth ≤ n := by
    simp only [length_append, length_cons, Level.depth] at hn ⊢
    omega
  obtain ⟨m, d, -, hclean, ht, e⟩ := h n rest hrest rfl hlen
  refine ⟨?_, d, hclean, ht, e.trans (if_pos rfl)⟩
  rw [append_assoc, cons_append, skip_token hw hc]

/-- A factor is read behind a plus sign. -/
lemma reads_pos (hw : Blanks w) (h : Reads .factor t u) :
    Reads .factor (.pos t) (w ++ '+'.toUInt8 :: u) := by
  intro n rest hrest _ hn
  obtain ⟨n, rfl⟩ : ∃ k, n = k + 1 := ⟨n - 1, by rw [Level.depth] at hn; omega⟩
  obtain ⟨hskip, d, hc, rfl, e⟩ := h.signed hw (by decide) hrest hn
  refine ⟨_, .pos d, le_rfl, hc, rfl, ?_⟩
  rw [read_plus (by rw [hskip, headD_cons]), hskip, tail_cons, e]
  rfl

/-- And behind a minus sign. -/
lemma reads_neg (hw : Blanks w) (h : Reads .factor t u) :
    Reads .factor (.neg t) (w ++ '-'.toUInt8 :: u) := by
  intro n rest hrest _ hn
  obtain ⟨n, rfl⟩ : ∃ k, n = k + 1 := ⟨n - 1, by rw [Level.depth] at hn; omega⟩
  obtain ⟨hskip, d, hc, rfl, e⟩ := h.signed hw (by decide) hrest hn
  refine ⟨_, .neg d, le_rfl, hc, rfl, ?_⟩
  rw [read_minus (by rw [hskip, headD_cons]), hskip, tail_cons, e]
  rfl

/-- An expression in parentheses is read as a factor. -/
lemma reads_paren {w' : List UInt8} (hw : Blanks w) (h : Reads .expr t u) (hw' : Blanks w') :
    Reads .factor t (w ++ '('.toUInt8 :: (u ++ (w' ++ [')'.toUInt8]))) := by
  intro n rest hrest _ hn
  obtain ⟨n, rfl⟩ : ∃ k, n = k + 1 := ⟨n - 1, by rw [Level.depth] at hn; omega⟩
  have hskip : skip ((w ++ '('.toUInt8 :: (u ++ (w' ++ [')'.toUInt8]))) ++ rest) =
      '('.toUInt8 :: (u ++ (w' ++ ')'.toUInt8 :: rest)) := by
    simp only [append_assoc, cons_append, nil_append]
    exact skip_token hw (by decide)
  have hclose : skip (w' ++ ')'.toUInt8 :: rest) = ')'.toUInt8 :: rest :=
    skip_token hw' (by decide)
  have hnone : ∀ lev : Level, lev.opAt ((skip (w' ++ ')'.toUInt8 :: rest)).headD 0) = none := by
    intro lev
    rw [hclose, headD_cons]
    cases lev <;> decide
  have hlen : 3 * (u ++ (w' ++ ')'.toUInt8 :: rest)).length + Level.expr.depth ≤ n := by
    simp only [length_append, length_cons, length_nil, Level.depth] at hn ⊢
    omega
  obtain ⟨d, rest', hc, ht, e, hs⟩ :=
    h.ends (follows_token hw' (by decide)) (hnone _) (hnone _) hlen
  refine ⟨_, .paren true d, le_rfl, hc, ht, ?_⟩
  rw [read_paren (by rw [hskip, headD_cons]), hskip, tail_cons, e, Option.map_some,
    readClose, hs, hclose, headD_cons, if_pos rfl]
  rfl

/-- An operand is read as a chain of no operators. -/
lemma Reads.of_operand {lev : Level} (hlev : lev ≠ .factor) (h : Reads lev.operand t u) :
    Reads lev t u := by
  intro n rest hrest hop hn
  have hdepth : lev.operand.depth + 1 = lev.depth := by
    cases lev with
    | factor => exact absurd rfl hlev
    | term => rfl
    | expr => rfl
  obtain ⟨n, rfl⟩ : ∃ k, n = k + 1 := ⟨n - 1, by omega⟩
  have hpos : 1 ≤ lev.operand.depth := by cases lev <;> decide
  obtain ⟨d, rest', hc, ht, e, hs⟩ := h.ends (n := n) hrest (operandEnds_operand lev rest) hop
    (by omega)
  refine ⟨n, d, by rw [length_append] at hn; omega, hc, ht, ?_⟩
  rw [read_chain hlev, e, goOn, if_neg hlev]
  exact readLoop_congr hc hs

/-- A chain is read with one more operator: the loop that has read the left side goes on with the
operator. -/
lemma Reads.bin {lev : Level} {l r : Tree} {u' : List UInt8} {op : BinOp} (hop : op ∈ lev.ops)
    (hl : Reads lev l u) (hw : Blanks w) (hr : Reads lev.operand r u') :
    Reads lev (.bin op l r) (u ++ (w ++ op.symbol :: u')) := by
  intro n rest hrest hend hn
  have hlev : lev ≠ .factor := by
    rintro rfl
    cases hop
  have hassoc : (u ++ (w ++ op.symbol :: u')) ++ rest =
      u ++ (w ++ op.symbol :: (u' ++ rest)) := by
    simp only [append_assoc, cons_append]
  have hskip : skip (w ++ op.symbol :: (u' ++ rest)) = op.symbol :: (u' ++ rest) :=
    skip_token hw (isBlank_symbol op)
  have hends : OperandEnds lev (w ++ op.symbol :: (u' ++ rest)) := by
    rw [OperandEnds, hskip, headD_cons]
    exact opAt_operand_symbol hop
  rw [hassoc] at hn ⊢
  obtain ⟨m, d, hm, hc, ht, e⟩ := hl n _ (follows_symbol hw op) hends hn
  obtain ⟨m, rfl⟩ : ∃ k, m = k + 1 := ⟨m - 1, by omega⟩
  have hdepth : lev.operand.depth ≤ 2 := by cases lev <;> decide
  have hlen : 3 * (u' ++ rest).length + 2 ≤ m := by
    rw [length_append, length_cons] at hm
    omega
  obtain ⟨d', rest', hc', ht', e', hs'⟩ := hr.ends (n := m) hrest (operandEnds_operand lev rest)
    hend (by omega)
  have hclean : (Draft.bin op d d').clean = true := by
    rw [Draft.clean, hc, hc']
    rfl
  refine ⟨m, .bin op d d', by rw [length_append] at hlen; omega, hclean, ?_, ?_⟩
  · rw [Draft.tree, ht, ht']
  · have hat : lev.opAt ((skip (w ++ op.symbol :: (u' ++ rest))).headD 0) = some op := by
      rw [hskip, headD_cons]
      exact Level.opAt_eq_some.mpr ⟨hop, rfl⟩
    rw [e, goOn, goOn, if_neg hlev, if_neg hlev, readLoop_op hc hat, hskip, tail_cons, e']
    exact readLoop_congr hclean hs'

end Rules

/-- **What the grammar generates is read** as a clean draft with its tree.

**Proof sketch.** Induction on the derivation, one case per rule. -/
lemma Gen.reads {lev : Level} {t : Tree} {u : List UInt8} (h : Gen lev t u) : Reads lev t u := by
  induction h with
  | dec hw hne hds => exact reads_dec hw hne hds
  | hex hw hx hne hds => exact reads_hex hw hx hne hds
  | pos hw _ ih => exact reads_pos hw ih
  | neg hw _ ih => exact reads_neg hw ih
  | paren hw _ hw' ih => exact reads_paren hw ih hw'
  | factor _ ih => exact Reads.of_operand (by decide) ih
  | mul hop _ hw _ ihl ihr => exact Reads.bin hop ihl hw ihr
  | term _ ih => exact Reads.of_operand (by decide) ih
  | add hop _ hw _ ihl ihr => exact Reads.bin hop ihl hw ihr

end Complete

/-! ## The draft of a text -/

/-- The draft of a text, and the text behind it. -/
def draft (s : List UInt8) : Draft × List UInt8 :=
  (read (calcFuel s) .expr s).getD (.num false [], s)

lemma read_draft (s : List UInt8) : read (calcFuel s) .expr s = some (draft s) := by
  obtain ⟨d, rest, e, -⟩ := (readEnds (calcFuel s)).read .expr s le_rfl
  rw [draft, e]
  rfl

/-- **The expressions of a text**: a text is an expression exactly when nothing is missing in its
draft and nothing is left behind it, and then it is the expression of the draft. -/
lemma generates_iff {t : Tree} {s : List UInt8} :
    Generates t s ↔ (draft s).1.clean = true ∧ skip (draft s).2 = [] ∧ (draft s).1.tree = t := by
  constructor
  · rintro ⟨u, w, rfl, hu, hw⟩
    have hskip : skip w = [] := skip_of_blanks hw
    have hnone : ∀ lev : Level, lev.opAt ((skip w).headD 0) = none := by
      intro lev
      rw [hskip]
      cases lev <;> decide
    obtain ⟨d, rest, hc, ht, e, hs⟩ :=
      hu.reads.ends (n := calcFuel (u ++ w)) (follows_blanks hw) (hnone _) (hnone _) le_rfl
    have hd : draft (u ++ w) = (d, rest) := by
      rw [draft, e]
      rfl
    rw [hd]
    exact ⟨hc, hs.trans hskip, ht⟩
  · rintro ⟨hc, hs, rfl⟩
    obtain ⟨u, w, hu, hw, e⟩ := (readSound _).read _ _ _ _ (read_draft s) hc
    obtain ⟨w', hw', e'⟩ := exists_skip (draft s).2
    rw [hs, append_nil] at e'
    exact ⟨u, w ++ w', by rw [← e']; exact e, hu, hw.append hw'⟩

end BengalTiger.Calc
