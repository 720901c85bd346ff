import BengalTiger.Shell.CalcParse

set_option autoImplicit false

/-!
# The calculator evaluates expressions

What the grammar generates, the parser accepts with the value of the tree, as long as the processor
can perform every operation (`Tree.machine`); what the parser accepts without an error, the grammar
generates. Within the range of `int` the processor computes the value of the tree, except for the
remainder of `INT_MIN` by `-1`: the value is 0, but the division instruction raises an exception.

## Main definitions

* `Calc.Tree.machine` — the value with the operations of the processor.
* `Calc.Correct` — the calculator computes the value of an expression.

## Main results

* `Calc.Tree.machine_eq_some_iff` — when the processor computes the value.
* `Calc.run_checked_iff` — what the parser computes.
* `Calc.calc_correct_iff` — when the calculator is correct.
-/

namespace BengalTiger.Calc

open Option

/-! ## What the processor can compute -/

/-- The value of an operation, if the processor can perform it. -/
def BinOp.run (op : BinOp) (l r : ℤ) : Option ℤ :=
  match op.step l r with
  | .ok o => o
  | .error _ => none

/-- The value of an expression, if the processor can perform every operation and no divisor is
zero. -/
def Tree.machine : Tree → Option ℤ
  | .lit n => if n ≤ 2147483647 then some (n : ℤ) else none
  | .pos t => t.machine
  | .neg t => t.machine.bind fun v => (toInt (-v)).toOption
  | .bin op l r => l.machine.bind fun a => r.machine.bind fun b => op.run a b

section Machine

variable {t : Tree} {v : ℤ}

lemma toInt_of_range (h : intMin ≤ v ∧ v ≤ intMax) : toInt v = .ok v := if_pos h

lemma toInt_toOption_eq_some {w : ℤ} (h : (toInt v).toOption = some w) : w = v := by
  rw [toInt] at h
  split_ifs at h
  · cases h
    rfl
  · cases h

lemma toOption_of_map_some (x : Except Fault ℤ) :
    (match x.map some with
      | .ok o => o
      | .error _ => none) = x.toOption := by
  cases x <;> rfl

/-- The operations, without the error that a division by zero sets. -/
lemma BinOp.run_eq (op : BinOp) (l r : ℤ) : op.run l r = match op with
    | .add => (toInt (l + r)).toOption
    | .sub => (toInt (l - r)).toOption
    | .mul => (toInt (l * r)).toOption
    | .div => if r = 0 then none else (intDiv l r).toOption
    | .rem => if r = 0 then none else (intMod l r).toOption := by
  cases op with
  | add => exact toOption_of_map_some _
  | sub => exact toOption_of_map_some _
  | mul => exact toOption_of_map_some _
  | div =>
    rw [BinOp.run, BinOp.step]
    split_ifs
    · rfl
    · exact toOption_of_map_some _
  | rem =>
    rw [BinOp.run, BinOp.step]
    split_ifs
    · rfl
    · exact toOption_of_map_some _

/-- An operation that the processor performs has the value of the operation. -/
lemma BinOp.eval_of_run {op : BinOp} {l r : ℤ} (h : op.run l r = some v) :
    op.eval l r = some v := by
  rw [BinOp.run_eq] at h
  cases op with
  | add => rw [BinOp.eval, toInt_toOption_eq_some h]
  | sub => rw [BinOp.eval, toInt_toOption_eq_some h]
  | mul => rw [BinOp.eval, toInt_toOption_eq_some h]
  | div =>
    simp only [intDiv, BinOp.eval] at h ⊢
    split_ifs at h ⊢
    · cases h
    · exact h
  | rem =>
    simp only [intMod, BinOp.eval] at h ⊢
    split_ifs at h ⊢
    · cases h
    · exact h

/-- What the processor computes is the value. -/
lemma Tree.eval_of_machine (h : t.machine = some v) : t.eval = some v := by
  induction t generalizing v with
  | lit n =>
    rw [Tree.machine] at h
    split_ifs at h
    exact h
  | pos t ih => exact ih h
  | neg t ih =>
    obtain ⟨a, ha, e⟩ := bind_eq_some_iff.mp h
    rw [Tree.eval, ih ha, toInt_toOption_eq_some e]
    rfl
  | bin op l r ihl ihr =>
    obtain ⟨a, ha, h⟩ := bind_eq_some_iff.mp h
    obtain ⟨b, hb, h⟩ := bind_eq_some_iff.mp h
    rw [Tree.eval, ihl ha, bind_some, ihr hb, bind_some, BinOp.eval_of_run h]

/-- A quotient that does not fit. -/
lemma intMin_tdiv : intMin.tdiv (-1) = 2147483648 := by decide

/-- An operation whose value fits can be performed, unless it is the remainder of `INT_MIN` by
`-1`. -/
lemma BinOp.run_of_eval {op : BinOp} {l r : ℤ} (h : op.eval l r = some v)
    (hv : intMin ≤ v ∧ v ≤ intMax) :
    op.run l r = some v ↔ ¬ (op = .rem ∧ l = intMin ∧ r = -1) := by
  rw [BinOp.run_eq]
  cases op with
  | add =>
    cases h
    simp [toInt_of_range hv, Except.toOption]
  | sub =>
    cases h
    simp [toInt_of_range hv, Except.toOption]
  | mul =>
    cases h
    simp [toInt_of_range hv, Except.toOption]
  | div =>
    rw [BinOp.eval] at h
    split_ifs at h with hz
    cases h
    -- this quotient is out of range, but the remainder is 0
    have hq : ¬ (l = intMin ∧ r = -1) := by
      rintro ⟨rfl, rfl⟩
      rw [intMin_tdiv] at hv
      exact absurd hv.2 (by decide)
    simp [hz, intDiv, hq, Except.toOption]
  | rem =>
    rw [BinOp.eval] at h
    split_ifs at h with hz
    cases h
    by_cases hq : l = intMin ∧ r = -1
    · simp [intMod, hq, Except.toOption]
    · simp [hz, intMod, hq, Except.toOption]

/-- A value in range fits into an `int`. -/
lemma Tree.InRange.of_eval (ht : t.InRange) (h : t.eval = some v) : intMin ≤ v ∧ v ≤ intMax := by
  induction t with
  | lit n =>
    cases h
    exact ht _ (by simp [Tree.values])
  | pos t ih => exact ih ht h
  | neg t ih => exact ht _ (by rw [Tree.values, h]; simp)
  | bin op l r _ _ => exact ht _ (by rw [Tree.values, h]; simp)

/-- **Within the range of `int`** the processor computes the value of an expression exactly when no
remainder of `INT_MIN` by `-1` is taken.

**Proof sketch.** Induction on the tree. The operands have values within the range, so by induction
the processor computes them unless they take such a remainder; then `BinOp.run_of_eval`. -/
lemma Tree.machine_eq_some_iff (ht : t.InRange) (h : t.eval = some v) :
    t.machine = some v ↔ ¬ t.MinRem := by
  induction t generalizing v with
  | lit n =>
    have hn := ht.of_eval h
    cases h
    rw [Tree.machine, if_pos (by simp only [intMax] at hn; omega)]
    simp [Tree.MinRem]
  | pos t ih => exact ih ht h
  | neg t ih =>
    have hv := ht.of_eval h
    obtain ⟨a, ha, rfl⟩ := map_eq_some_iff.mp h
    have ih' := ih (fun x hx => ht x (List.mem_append_left _ hx)) ha
    rw [Tree.MinRem, ← ih', Tree.machine]
    constructor
    · intro h'
      obtain ⟨b, hb, -⟩ := bind_eq_some_iff.mp h'
      rw [← ha, Tree.eval_of_machine hb, hb]
    · intro h'
      rw [h', bind_some, toInt_of_range hv]
      rfl
  | bin op l r ihl ihr =>
    have hv := ht.of_eval h
    obtain ⟨a, ha, h'⟩ := bind_eq_some_iff.mp h
    obtain ⟨b, hb, h'⟩ := bind_eq_some_iff.mp h'
    have ihl' := ihl (fun x hx => ht x (List.mem_append_left _ (List.mem_append_left _ hx))) ha
    have ihr' := ihr (fun x hx => ht x (List.mem_append_left _ (List.mem_append_right _ hx))) hb
    have hrun := BinOp.run_of_eval h' hv
    rw [Tree.MinRem, not_or, not_or, ← ihl', ← ihr', ha, hb]
    simp only [Option.some.injEq]
    rw [← hrun, Tree.machine]
    constructor
    · intro hm
      obtain ⟨a', ha', hm⟩ := bind_eq_some_iff.mp hm
      obtain ⟨b', hb', hm⟩ := bind_eq_some_iff.mp hm
      have e1 := (Tree.eval_of_machine ha').symm.trans ha
      have e2 := (Tree.eval_of_machine hb').symm.trans hb
      cases e1
      cases e2
      exact ⟨ha', hb', hm⟩
    · rintro ⟨h1, h2, h3⟩
      rw [h1, bind_some, h2, bind_some, h3]

end Machine

/-! ## What the parser computes -/

section Run

variable {d : Draft} {v : ℤ}

lemma BinOp.run_eq_some_iff {op : BinOp} {l r : ℤ} :
    op.run l r = some v ↔ checked.step op l r = .ok (some v) := by
  rw [step_checked, BinOp.run]
  cases op.step l r with
  | error e => exact ⟨fun h => (by cases h), fun h => (by cases h)⟩
  | ok o => simp only [Except.ok.injEq]

lemma toInt_toOption_iff {w : ℤ} : (toInt v).toOption = some w ↔ toInt v = .ok w := by
  cases toInt v with
  | error e => exact ⟨fun h => (by cases h), fun h => (by cases h)⟩
  | ok a => simp only [Except.toOption, Option.some.injEq, Except.ok.injEq]

/-- A number with digits. -/
lemma run_num_iff {hex : Bool} {ds : List UInt8} (hne : ds ≠ []) :
    checked.run (.num hex ds) = .ok ⟨v, 0, true⟩ ↔
      (Tree.lit (literal hex ds)).machine = some v := by
  rw [Arith.run, digits_checked hex ds (Nat.zero_le _), ← literal_eq, Tree.machine]
  by_cases h : literal hex ds ≤ 2147483647
  · rw [if_pos h, if_pos h, if_neg hne]
    change Except.ok (Outcome.mk (literal hex ds : ℤ) 0 true) = _ ↔ _
    simp only [Except.ok.injEq, Outcome.mk.injEq, and_true, Option.some.injEq]
  · rw [if_neg h, if_neg h]
    exact ⟨fun h => (by cases h), fun h => (by cases h)⟩

/-- **The parser on an expression** computes what the processor computes.

**Proof sketch.** Induction on the draft. A parenthesis ends, and an operation without an error
comes after operands without an error. -/
lemma run_checked_iff (hc : d.clean = true) :
    checked.run d = .ok ⟨v, 0, true⟩ ↔ d.tree.machine = some v := by
  induction d generalizing v with
  | num hex ds =>
    refine run_num_iff fun he => ?_
    rw [Draft.clean, he] at hc
    cases hc
  | pos d ih => exact ih hc
  | neg d ih =>
    rw [Draft.tree, Tree.machine, bind_eq_some_iff]
    constructor
    · intro h
      obtain ⟨⟨a, err, whole⟩, ho, e⟩ := bind_eq_ok h
      obtain ⟨w, hw, e⟩ := bind_eq_ok e
      cases e
      exact ⟨a, (ih hc).mp ho, toInt_toOption_iff.mpr hw⟩
    · rintro ⟨a, ha, hv⟩
      rw [Arith.run, (ih hc).mpr ha]
      change (toInt (-a)).bind _ = _
      rw [toInt_toOption_iff.mp hv]
      rfl
  | paren closed d ih =>
    rw [Draft.clean, Bool.and_eq_true] at hc
    obtain ⟨rfl, hc⟩ := hc
    rw [Draft.tree, ← ih hc, Arith.run]
    constructor
    · intro h
      obtain ⟨o, ho, e⟩ := bind_eq_ok h
      rw [Outcome.close, Bool.and_true] at e
      split_ifs at e with hw
      · rw [ho, e]
      · cases e
    · intro h
      rw [h]
      rfl
  | bin op l r ihl ihr =>
    rw [Draft.clean, Bool.and_eq_true] at hc
    rw [Draft.tree, Tree.machine, bind_eq_some_iff]
    constructor
    · intro h
      obtain ⟨ol, hl, e⟩ := bind_eq_ok h
      by_cases h0 : ol.err = 0
      · rw [if_neg (not_not.mpr h0)] at e
        obtain ⟨⟨b, err, whole⟩, hr, e⟩ := bind_eq_ok e
        obtain ⟨x, hx, e⟩ := bind_eq_ok e
        cases x with
        | none => cases e
        | some w =>
          cases e
          have hl' : checked.run l = .ok ⟨ol.value, 0, true⟩ := by
            rw [hl, ← h0, ← (run_clean hl h0).2]
          exact ⟨ol.value, (ihl hc.1).mp hl', bind_eq_some_iff.mpr
            ⟨b, (ihr hc.2).mp hr, BinOp.run_eq_some_iff.mpr hx⟩⟩
      · rw [if_pos h0] at e
        have herr := congrArg Outcome.err (Except.ok.inj e)
        exact absurd herr h0
    · rintro ⟨a, ha, h⟩
      obtain ⟨b, hb, h⟩ := bind_eq_some_iff.mp h
      rw [Arith.run, (ihl hc.1).mpr ha, (ihr hc.2).mpr hb]
      change (checked.step op a b).bind _ = _
      rw [BinOp.run_eq_some_iff.mp h]
      rfl

end Run

/-- **The calculator on an expression** accepts exactly the values that the processor computes. -/
lemma Generates.shellCalc_eq_iff {t : Tree} {s : List UInt8} (h : Generates t s) (hs : 0 ∉ s)
    (v : ℤ) : shellCalc s = .ok (v, 0) ↔ t.machine = some v := by
  obtain ⟨hclean, hskip, rfl⟩ := generates_iff.mp h
  rw [shellCalc_eq_checked, ← run_checked_iff hclean]
  constructor
  · intro h
    exact (Arith.draft_of_accepts hs h).2.2
  · intro h
    rw [Arith.shellCalc_of_run hs h, if_neg fun hne => hne.2 hskip]

/-! ## When the calculator is correct -/

/-- The `calc` command, run on a text of the expression, ends without an error exactly when the
expression has a value, and then with that value. -/
def Correct (t : Tree) (s : List UInt8) : Prop :=
  ∀ v, shellCalc s = .ok (v, 0) ↔ t.eval = some v

/-- Within the range of `int`, the calculator is correct when the processor computes the value. -/
lemma correct_iff_machine {t : Tree} {s : List UInt8} (h : Generates t s) (hs : 0 ∉ s) :
    Correct t s ↔ ∀ v, t.eval = some v → t.machine = some v := by
  constructor
  · intro hc v hv
    exact (h.shellCalc_eq_iff hs v).mp ((hc v).mpr hv)
  · intro hm v
    rw [h.shellCalc_eq_iff hs v]
    exact ⟨Tree.eval_of_machine, hm v⟩

/-- **The calculator**: what it accepts without an error is an expression, and on an expression
whose literals and values fit into an `int` it is correct exactly when no remainder of `INT_MIN` by
`-1` is taken on the way to the value.

**Proof sketch.** The parser and the grammar agree up to the value that the processor computes
(`shellCalc_sound`, `Generates.shellCalc_eq_iff`); within the range that value is the value of the
expression, the remainder of `INT_MIN` by `-1` apart (`Tree.machine_eq_some_iff`). -/
theorem calc_correct_iff (s : List UInt8) (hs : 0 ∉ s) :
    (∀ v, shellCalc s = .ok (v, 0) → ∃ t, Generates t s) ∧
    ∀ t, Generates t s → t.InRange → (Correct t s ↔ (t.eval ≠ none → ¬ t.MinRem)) := by
  refine ⟨fun v h => shellCalc_sound h hs, fun t ht hr => ?_⟩
  rw [correct_iff_machine ht hs]
  constructor
  · intro hm hne
    obtain ⟨v, hv⟩ := ne_none_iff_exists'.mp hne
    exact (Tree.machine_eq_some_iff hr hv).mp (hm v hv)
  · intro hm v hv
    exact (Tree.machine_eq_some_iff hr hv).mpr (hm (by rw [hv]; simp))

section Texts

variable {t : Tree} {u : List UInt8}

lemma gen_dec {ds : List UInt8} {n : ℕ} (hne : ds ≠ [])
    (hds : (ds.all fun ch => (decDigit ch).isSome) = true) (hn : decValue ds = n) :
    Gen .factor (.lit n) ds := by
  rw [← hn]
  exact .dec blanks_nil hne (List.all_eq_true.mp hds)

lemma gen_neg (h : Gen .factor t u) : Gen .factor (.neg t) ('-'.toUInt8 :: u) := .neg blanks_nil h

lemma gen_paren (h : Gen .expr t u) :
    Gen .factor t ('('.toUInt8 :: (u ++ [')'.toUInt8])) := .paren blanks_nil h blanks_nil

lemma generates_of_gen (h : Gen .expr t u) : Generates t u := ⟨u, [], by simp, h, blanks_nil⟩

/-- A text without blanks of a term with an operator. -/
lemma gen_mul {l r : Tree} {u' : List UInt8} (op : BinOp) (hop : op ∈ [BinOp.mul, .div, .rem])
    (hl : Gen .term l u) (hr : Gen .factor r u') : Gen .term (.bin op l r) (u ++ op.symbol :: u') :=
  .mul hop hl blanks_nil hr

/-- A text without blanks of an expression with an operator. -/
lemma gen_add {l r : Tree} {u' : List UInt8} (op : BinOp) (hop : op ∈ [BinOp.add, .sub])
    (hl : Gen .expr l u) (hr : Gen .term r u') : Gen .expr (.bin op l r) (u ++ op.symbol :: u') :=
  .add hop hl blanks_nil hr

end Texts

/-- `(-2147483647-1)%-1`. -/
def minRemText : List UInt8 :=
  ['(', '-', '2', '1', '4', '7', '4', '8', '3', '6', '4', '7', '-', '1', ')', '%', '-', '1'].map
    Char.toUInt8

/-- The expression of `minRemText`. -/
def minRemTree : Tree :=
  .bin .rem (.bin .sub (.neg (.lit 2147483647)) (.lit 1)) (.neg (.lit 1))

lemma minRemTree_generates : Generates minRemTree minRemText := by
  have hone : Gen .factor (.lit 1) ['1'.toUInt8] := gen_dec (by simp) (by decide) (by decide)
  have hmax : Gen .factor (.lit 2147483647)
      (['2', '1', '4', '7', '4', '8', '3', '6', '4', '7'].map Char.toUInt8) :=
    gen_dec (by simp) (by decide) (by decide)
  have hmin := gen_add .sub (by simp) (.term (.factor (gen_neg hmax))) (.factor hone)
  exact generates_of_gen (.term
    (gen_mul .rem (by simp) (.factor (gen_paren hmin)) (gen_neg hone)))

/-- `calc (-2147483647-1)%-1` raises a divide error; the value is 0, and every value on the way fits
into an `int`. -/
theorem calc_minRem_divides :
    Generates minRemTree minRemText ∧ 0 ∉ minRemText ∧ minRemTree.InRange ∧
      minRemTree.eval = some 0 ∧ shellCalc minRemText = .error .divide ∧
      ¬ Correct minRemTree minRemText := by
  have hres : shellCalc minRemText = .error .divide := by rfl
  have heval : minRemTree.eval = some 0 := by decide
  refine ⟨minRemTree_generates, by decide, ?_, heval, hres, fun hc => ?_⟩
  · rw [Tree.InRange]
    decide
  · have h := (hc 0).mpr heval
    rw [hres] at h
    cases h

/-- On `-7/2` the calculator is correct: the value is -3. -/
theorem calc_correct_iff_quotient :
    Correct (.bin .div (.neg (.lit 7)) (.lit 2)) (['-', '7', '/', '2'].map Char.toUInt8) ∧
      (Tree.bin .div (.neg (.lit 7)) (.lit 2)).eval = some (-3) := by
  have hseven : Gen .factor (.lit 7) ['7'.toUInt8] := gen_dec (by simp) (by decide) (by decide)
  have htwo : Gen .factor (.lit 2) ['2'.toUInt8] := gen_dec (by simp) (by decide) (by decide)
  have hgen := generates_of_gen
    (.term (gen_mul .div (by simp) (.factor (gen_neg hseven)) htwo))
  refine ⟨((calc_correct_iff _ (by decide)).2 _ hgen ?_).mpr fun _ => ?_, by decide⟩
  · rw [Tree.InRange]
    decide
  · simp [Tree.MinRem]

end BengalTiger.Calc
