import BengalTiger.Shell.CalcRun

set_option autoImplicit false

/-!
# The parser of the source

The functions of `kernel/shell.c` are the parser over the arithmetic of the language, in which an
operation that does not fit is undefined. What is known about the parser over any arithmetic
(`Shell.CalcRun`) holds of them.

## Main definitions

* `Calc.BinOp.step` — an operation as the parser performs it.
* `Calc.checked` — the arithmetic of the language.

## Main results

* `Calc.parseEq`, `Calc.shellCalc_eq_checked` — the functions of the source
  are the parser over this arithmetic.
* `Calc.shellCalc_sound` — what is accepted is an expression.
-/

namespace BengalTiger.Calc

/-! ## One step of the parser -/

/-- An operation as the parser performs it; `none` is a division by zero, which it reports. -/
def BinOp.step (op : BinOp) (l r : ℤ) : Except Fault (Option ℤ) :=
  match op with
  | .add => (toInt (l + r)).map some
  | .sub => (toInt (l - r)).map some
  | .mul => (toInt (l * r)).map some
  | .div => if r = 0 then .ok none else (intDiv l r).map some
  | .rem => if r = 0 then .ok none else (intMod l r).map some

section Steps

variable {n : ℕ} {left : ℤ} {c : Ctx}

lemma bind_map_some (x : Except Fault ℤ) (g : Option ℤ → Except Fault (ℤ × Ctx)) :
    (x.map some).bind g = x.bind fun v => g (some v) := by
  cases x <;> rfl

/-- The function of the source that reads an expression of a kind. -/
def Level.parser : Level → ℕ → Ctx → Except Fault (ℤ × Ctx)
  | factor => calcParseFactor
  | term => calcParseTerm
  | expr => calcParseExpr

/-- The loops of the source; a factor has none. -/
def Level.chain : Level → ℕ → ℤ → Ctx → Except Fault (ℤ × Ctx)
  | expr => exprLoop
  | _ => termLoop

variable {lev : Level}

/-- The loops end at an error. -/
lemma chain_of_err (h : c.err ≠ 0) : lev.chain (n + 1) left c = .ok (left, c) := by
  cases lev <;> exact if_pos h

/-- The loops end at a character that is none of their operators. -/
lemma chain_of_end (hlev : lev ≠ .factor) (h0 : c.err = 0)
    (h : ∀ op ∈ lev.ops, (calcSkipWs c).peek ≠ op.symbol) :
    lev.chain (n + 1) left c = .ok (left, calcSkipWs c) := by
  cases lev with
  | factor => exact absurd rfl hlev
  | term =>
    rw [Level.chain, termLoop, if_neg (not_not.mpr h0)]
    · exact if_pos ⟨h .mul (by decide), h .div (by decide), h .rem (by decide)⟩
    · simp
  | expr =>
    rw [Level.chain, exprLoop, if_neg (not_not.mpr h0)]
    exact if_pos ⟨h .add (by decide), h .sub (by decide)⟩

/-- An iteration of a loop. -/
lemma chain_op (h0 : c.err = 0) {op : BinOp} (hop : op ∈ lev.ops)
    (h : (calcSkipWs c).peek = op.symbol) :
    lev.chain (n + 1) left c = (lev.operand.parser n (calcSkipWs c).advance).bind fun p =>
      (op.step left p.1).bind (after (lev.chain n) p.2) := by
  have h1 : '/'.toUInt8 ≠ '*'.toUInt8 := by decide
  have h2 : '%'.toUInt8 ≠ '*'.toUInt8 := by decide
  have h3 : '%'.toUInt8 ≠ '/'.toUInt8 := by decide
  have h4 : '-'.toUInt8 ≠ '+'.toUInt8 := by decide
  -- the source compares with the symbols of a level one after the other
  cases lev with
  | factor => cases hop
  | term =>
    show termLoop (n + 1) left c = (calcParseFactor n _).bind fun p =>
      (op.step left p.1).bind (after (termLoop n) p.2)
    rw [termLoop, if_neg (not_not.mpr h0)]
    dsimp only
    rw [h]
    simp only [Level.ops, List.mem_cons, List.not_mem_nil, or_false] at hop
    rcases hop with rfl | rfl | rfl
    · simp only [BinOp.symbol, ne_eq, not_true_eq_false, false_and, if_false, if_true, BinOp.step,
        bind_map_some, after]
    · simp only [BinOp.symbol, h1, ne_eq, not_true_eq_false, false_and, and_false, if_false,
        if_true]
      congr 1
      funext p
      simp only [BinOp.step]
      split_ifs with hz
      · rfl
      · rw [bind_map_some]
        rfl
    · simp only [BinOp.symbol, h2, h3, ne_eq, not_true_eq_false, and_false, if_false]
      congr 1
      funext p
      simp only [BinOp.step]
      split_ifs with hz
      · rfl
      · rw [bind_map_some]
        rfl
  | expr =>
    show exprLoop (n + 1) left c = (calcParseTerm n _).bind fun p =>
      (op.step left p.1).bind (after (exprLoop n) p.2)
    rw [exprLoop, if_neg (not_not.mpr h0)]
    dsimp only
    rw [h]
    simp only [Level.ops, List.mem_cons, List.not_mem_nil, or_false] at hop
    rcases hop with rfl | rfl
    · simp only [BinOp.symbol, ne_eq, not_true_eq_false, false_and, if_false, if_true, BinOp.step,
        bind_map_some, after]
    · simp only [BinOp.symbol, h4, ne_eq, not_true_eq_false, and_false, if_false, BinOp.step,
        bind_map_some, after]

end Steps

/-! ## The arithmetic of the language -/

/-- An operation whose result does not fit is undefined. -/
def checked : Arith where
  digit v := if v ≤ 2147483647 then .ok v else .error .overflow
  signed v := v
  round := toInt

/-- The operators of the checked arithmetic. -/
lemma step_checked (op : BinOp) (l r : ℤ) : checked.step op l r = op.step l r := by
  cases op with
  | add => rfl
  | sub => rfl
  | mul => rfl
  | div =>
    rw [Arith.step, BinOp.step]
    by_cases hz : r = 0
    · rw [if_pos hz, if_pos hz]
    · simp only [idiv, intDiv, hz, false_or]
      split_ifs <;> rfl
  | rem =>
    rw [Arith.step, BinOp.step]
    by_cases hz : r = 0
    · rw [if_pos hz, if_pos hz]
    · simp only [idiv, intMod, hz, false_or]
      split_ifs <;> rfl

/-- The loops over the digits of a number. -/
lemma numLoop_eq_checked (hex : Bool) (s : List UInt8) (val k : ℕ) :
    numLoop (digitOf hex) (stepOf hex) s val k = checked.numLoop hex s val k := by
  induction s generalizing val k with
  | nil => rfl
  | cons ch s ih =>
    rw [numLoop, Arith.numLoop]
    cases digitOf hex ch with
    | none => rfl
    | some d =>
      dsimp only [checked]
      by_cases h : stepOf hex val d ≤ 2147483647
      · rw [if_pos h, if_pos h]
        exact ih _ _
      · rw [if_neg h, if_neg h]
        rfl

lemma calcNumber_eq_checked (c : Ctx) : calcNumber c = checked.number c := by
  rw [calcNumber, Arith.number, ← numLoop_eq_checked, ← numLoop_eq_checked]
  rfl

/-- The functions of the source are the parser, within the bound `n`. -/
structure ParseEq (n : ℕ) : Prop where
  parse : ∀ (lev : Level) c, lev.parser n c = checked.parse n lev c
  loop : ∀ (lev : Level), lev ≠ .factor → ∀ left c, lev.chain n left c = checked.loop n lev left c

section Step

variable {n : ℕ} (ih : ParseEq n)
include ih

/-- The bodies of the functions. -/
lemma ParseEq.parse_succ (lev : Level) (c : Ctx) :
    lev.parser (n + 1) c = checked.parse (n + 1) lev c := by
  have hfactor : calcParseFactor n = checked.parse n .factor := funext (ih.parse .factor)
  have hterm : calcParseTerm n = checked.parse n .term := funext (ih.parse .term)
  have hexpr : calcParseExpr n = checked.parse n .expr := funext (ih.parse .expr)
  cases lev with
  | factor =>
    rw [Level.parser, calcParseFactor, Arith.parse]
    dsimp only
    rw [hfactor, hexpr, calcNumber_eq_checked]
    rfl
  | term =>
    rw [Level.parser, calcParseTerm, Arith.parse, hfactor]
    simp only [← ih.loop .term (by simp)]
    rfl
  | expr =>
    rw [Level.parser, calcParseExpr, Arith.parse, hterm]
    simp only [← ih.loop .expr (by simp)]
    rfl

/-- The bodies of the loops. -/
lemma ParseEq.loop_succ {lev : Level} (hlev : lev ≠ .factor) (left : ℤ) (c : Ctx) :
    lev.chain (n + 1) left c = checked.loop (n + 1) lev left c := by
  rw [Arith.loop]
  by_cases h0 : c.err ≠ 0
  · rw [chain_of_err h0, if_pos h0]
  rw [if_neg h0]
  cases ho : lev.opAt (calcSkipWs c).peek with
  | none => exact chain_of_end hlev (not_not.mp h0) (Level.opAt_eq_none.mp ho)
  | some op =>
    obtain ⟨hop, hp⟩ := Level.opAt_eq_some.mp ho
    have hloop : lev.chain n = checked.loop n lev := funext₂ (ih.loop lev hlev)
    rw [chain_op (not_not.mp h0) hop hp, ih.parse, hloop]
    simp only [step_checked]

end Step

/-- **The functions of the source** are the parser over the arithmetic of the language.

**Proof sketch.** Induction on the bound; the bodies agree function by function. -/
lemma parseEq (n : ℕ) : ParseEq n := by
  induction n with
  | zero => exact ⟨fun lev _ => by cases lev <;> rfl, fun lev _ _ _ => by cases lev <;> rfl⟩
  | succ n ih => exact ⟨ih.parse_succ, fun _ => ih.loop_succ⟩

lemma shellCalc_eq_checked (s : List UInt8) : shellCalc s = checked.shellCalc s := by
  rw [shellCalc, Arith.shellCalc, ← (parseEq _).parse]
  rfl

/-! ## Literals -/

/-- The value of a run of digits is defined when it fits. -/
lemma digits_checked (hex : Bool) (ds : List UInt8) {val : ℕ} (hval : val ≤ 2147483647) :
    checked.digits hex ds val =
      if literalFrom hex val ds ≤ 2147483647 then .ok (literalFrom hex val ds)
      else .error .overflow := by
  induction ds generalizing val with
  | nil => exact (if_pos hval).symm
  | cons ch ds ih =>
    rw [Arith.digits, stepOf_eq, literalFrom_cons]
    by_cases h : val * baseOf hex + (digitOf hex ch).getD 0 ≤ 2147483647
    · have hdigit : checked.digit (val * baseOf hex + (digitOf hex ch).getD 0) =
          .ok (val * baseOf hex + (digitOf hex ch).getD 0) := if_pos h
      rw [hdigit]
      exact ih h
    · have hdigit : checked.digit (val * baseOf hex + (digitOf hex ch).getD 0) =
          .error .overflow := if_neg h
      have hle := le_literalFrom hex (val * baseOf hex + (digitOf hex ch).getD 0) ds
      rw [hdigit, if_neg (by omega)]
      rfl

/-- A loop over digits reads a number that is not continued. -/
lemma numLoop_digits (hex : Bool) {ds : List UInt8} (hds : ∀ ch ∈ ds, isDigit hex ch = true) :
    numLoop (digitOf hex) (stepOf hex) ds 0 0 =
      if literal hex ds ≤ 2147483647 then .ok (literal hex ds, ds.length, [])
      else .error .overflow := by
  have htake : ds.takeWhile (isDigit hex) = ds := List.takeWhile_eq_self_iff.mpr hds
  have hdrop : ds.dropWhile (isDigit hex) = [] := List.dropWhile_eq_nil_iff.mpr hds
  rw [numLoop_eq_checked, numLoop_eq, htake, hdrop, digits_checked hex ds (Nat.zero_le _),
    Nat.zero_add, literal_eq]
  split_ifs <;> rfl

/-! ## Runs -/

/-- A text that the `calc` command accepts is an expression. -/
lemma shellCalc_sound {s : List UInt8} {v : ℤ} (h : shellCalc s = .ok (v, 0)) (hs : 0 ∉ s) :
    ∃ t, Generates t s := by
  rw [shellCalc_eq_checked] at h
  obtain ⟨hclean, hskip, -⟩ := Arith.draft_of_accepts hs h
  exact ⟨_, generates_iff.mpr ⟨hclean, hskip, rfl⟩⟩

end BengalTiger.Calc
