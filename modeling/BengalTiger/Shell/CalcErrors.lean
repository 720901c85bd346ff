import BengalTiger.Shell.CalcCorrect

set_option autoImplicit false

/-!
# Errors of the calculator

What the processor, which computes modulo `2^32`, makes of the text of a `calc` command, whether it
is an expression or not. A divisor of zero is caught by the parser, and a quotient of `INT_MIN` by
`-1` is not: the division instruction raises an exception. Of the two errors that the parser
reports, the last one written stays. A missing operand counts as zero, so that it is a division by
zero when it should be a divisor; and a division by zero inside parentheses stops the reading, so
that it turns into a syntax error unless the parenthesis ends right behind it.

## Main definitions

* `Calc.Draft.outcome` — what the processor makes of a draft.
* `Calc.Draft.Traps` — a quotient of `INT_MIN` by `-1` is reached.
* `Calc.Draft.Reports` — a division by zero is reached and stays the error.
* `Calc.Classified` — the error tells what is wrong with a text.

## Main results

* `Calc.calc_ends` — the command ends on every text.
* `Calc.calc_never_traps_iff` — when the calculator raises no divide error.
* `Calc.errors_classified_iff` — when its errors are right.
-/

namespace BengalTiger.Calc

/-! ## Values modulo `2^32` -/

section Wrap

variable {l r : ℤ}

/-- A quotient fits, unless it is that of `INT_MIN` by `-1`. -/
lemma tdiv_range (hl : intMin ≤ l ∧ l ≤ intMax) (hr : r ≠ 0) (h : ¬ (l = intMin ∧ r = -1)) :
    intMin ≤ l.tdiv r ∧ l.tdiv r ≤ intMax := by
  rw [intMin, intMax] at *
  by_cases h1 : r = -1
  · rw [h1, Int.tdiv_neg, Int.tdiv_one]
    omega
  by_cases h2 : r = 1
  · rw [h2, Int.tdiv_one]
    exact hl
  have habs : (l.tdiv r).natAbs ≤ l.natAbs / 2 := by
    rw [Int.natAbs_tdiv]
    exact Nat.div_le_div_left (by omega) (by decide)
  omega

/-- A remainder fits. -/
lemma tmod_range (hr : intMin ≤ r ∧ r ≤ intMax) (h0 : r ≠ 0) :
    intMin ≤ l.tmod r ∧ l.tmod r ≤ intMax := by
  rw [intMin, intMax] at *
  have h1 := Int.natAbs_tmod l r
  have h2 : l.natAbs % r.natAbs < r.natAbs := Nat.mod_lt _ (by omega)
  omega

end Wrap

/-- The operators that divide. -/
def BinOp.Divides (op : BinOp) : Prop := op = .div ∨ op = .rem

instance : DecidablePred BinOp.Divides := fun op => by
  unfold BinOp.Divides
  infer_instance

/-- There is no value exactly when a divisor is zero. -/
lemma BinOp.eval_eq_none_iff {op : BinOp} {l r : ℤ} :
    op.eval l r = none ↔ op.Divides ∧ r = 0 := by
  rw [BinOp.Divides]
  cases op <;> simp [BinOp.eval]

section Step

variable {op : BinOp} {l r : ℤ}

/-- The division instruction raises an exception. -/
lemma step_wrapping_error (hop : op.Divides) (hl : l = intMin) (hr : r = -1) :
    wrapping.step op l r = .error .divide := by
  subst hl hr
  rcases hop with rfl | rfl <;> rfl

/-- The other operations have their value, modulo `2^32`. -/
lemma step_wrapping_ok (hl : intMin ≤ l ∧ l ≤ intMax) (hr : intMin ≤ r ∧ r ≤ intMax)
    (h : ¬ (op.Divides ∧ l = intMin ∧ r = -1)) :
    wrapping.step op l r = .ok ((op.eval l r).map wrap) := by
  cases op with
  | add => rfl
  | sub => rfl
  | mul => rfl
  | div =>
    have h' : ¬ (l = intMin ∧ r = -1) := fun he => h ⟨.inl rfl, he⟩
    rw [Arith.step, BinOp.eval]
    by_cases hz : r = 0
    · rw [if_pos hz, if_pos hz]
      rfl
    · rw [if_neg hz, if_neg hz, idiv, if_neg (not_or.mpr ⟨hz, h'⟩), Option.map_some,
        wrap_of_range (tdiv_range hl hz h')]
      rfl
  | rem =>
    have h' : ¬ (l = intMin ∧ r = -1) := fun he => h ⟨.inr rfl, he⟩
    rw [Arith.step, BinOp.eval]
    by_cases hz : r = 0
    · rw [if_pos hz, if_pos hz]
      rfl
    · rw [if_neg hz, if_neg hz, idiv, if_neg (not_or.mpr ⟨hz, h'⟩), Option.map_some,
        wrap_of_range (tmod_range hr hz)]
      rfl

lemma signed_wrapping (v : ℕ) : wrapping.signed v = wrap v := by dsimp only [wrapping]

/-- A literal is computed modulo `2^32`. -/
lemma digits_wrapping (hex : Bool) (ds : List UInt8) {val : ℕ} (hval : val < 4294967296) :
    wrapping.digits hex ds val = .ok (literalFrom hex val ds % 4294967296) := by
  induction ds generalizing val with
  | nil => exact congrArg Except.ok (Nat.mod_eq_of_lt hval).symm
  | cons ch ds ih =>
    rw [Arith.digits, stepOf_eq, literalFrom_cons]
    change wrapping.digits hex ds ((val * baseOf hex + (digitOf hex ch).getD 0) % 4294967296) = _
    rw [ih (Nat.mod_lt _ (by decide)), literalFrom, Numeral.value_mod]
    rfl

end Step

/-! ## What the processor makes of a draft -/

namespace Draft

/-- What the processor makes of a draft, if the division instruction raises no exception. -/
def outcome : Draft → Outcome
  | num hex ds => ⟨wrap (literal hex ds), if ds = [] then 1 else 0, true⟩
  | pos d => d.outcome
  | neg d => { d.outcome with value := wrap (-d.outcome.value) }
  | paren closed d => d.outcome.close closed
  | bin op l r =>
    if l.outcome.err ≠ 0 then l.outcome.stop
    else r.outcome.apply ((op.eval l.outcome.value r.outcome.value).map wrap)

/-- The draft is read and computed to its end without an error. -/
def Fine (d : Draft) : Prop := d.outcome.err = 0

/-- A quotient or remainder of `INT_MIN` by `-1` is reached. -/
def Traps : Draft → Prop
  | num _ _ => False
  | pos d => d.Traps
  | neg d => d.Traps
  | paren _ d => d.Traps
  | bin op l r =>
    l.Traps ∨ l.Fine ∧
      (r.Traps ∨ op.Divides ∧ l.outcome.value = intMin ∧ r.outcome.value = -1)

/-- A division by zero is reached, and every parenthesis around it ends right behind it. -/
def Reports : Draft → Prop
  | num _ _ => False
  | pos d => d.Reports
  | neg d => d.Reports
  | paren closed d => closed = true ∧ d.outcome.whole = true ∧ d.Reports
  | bin op l r =>
    ¬ l.Fine ∧ l.Reports ∨ l.Fine ∧ (op.Divides ∧ r.outcome.value = 0 ∨ r.Reports)

instance : DecidablePred Fine := fun d => inferInstanceAs (Decidable (d.outcome.err = 0))

instance decidableTraps : DecidablePred Traps
  | num _ _ => inferInstanceAs (Decidable False)
  | pos d => decidableTraps d
  | neg d => decidableTraps d
  | paren _ d => decidableTraps d
  | bin op l r =>
    haveI := decidableTraps l
    haveI := decidableTraps r
    inferInstanceAs (Decidable (l.Traps ∨ l.Fine ∧
      (r.Traps ∨ op.Divides ∧ l.outcome.value = intMin ∧ r.outcome.value = -1)))

instance decidableReports : DecidablePred Reports
  | num _ _ => inferInstanceAs (Decidable False)
  | pos d => decidableReports d
  | neg d => decidableReports d
  | paren closed d =>
    haveI := decidableReports d
    inferInstanceAs (Decidable (closed = true ∧ d.outcome.whole = true ∧ d.Reports))
  | bin op l r =>
    haveI := decidableReports l
    haveI := decidableReports r
    inferInstanceAs (Decidable (¬ l.Fine ∧ l.Reports ∨
      l.Fine ∧ (op.Divides ∧ r.outcome.value = 0 ∨ r.Reports)))

end Draft

section Outcome

variable {d : Draft}

/-- The value of an outcome is of type `int`. -/
lemma outcome_range (d : Draft) : intMin ≤ d.outcome.value ∧ d.outcome.value ≤ intMax := by
  induction d with
  | num hex ds =>
    rw [Draft.outcome]
    dsimp only
    exact wrap_range _
  | pos d ih => exact ih
  | neg d ih => exact wrap_range (-d.outcome.value)
  | paren closed d ih =>
    rw [Draft.outcome, Outcome.close]
    split_ifs <;> exact ih
  | bin op l r ihl ihr =>
    rw [Draft.outcome]
    split_ifs
    · exact ihl
    · cases op.eval l.outcome.value r.outcome.value with
      | none =>
        change intMin ≤ 0 ∧ 0 ≤ intMax
        decide
      | some v => exact wrap_range v

/-- **The processor on a draft**: an exception if the draft traps, and its outcome otherwise.

**Proof sketch.** Induction on the draft. Behind an error in the left operand nothing is computed;
otherwise both operands have values within the range of `int`, and the operation raises an exception
or has its value modulo `2^32`. -/
lemma run_wrapping (d : Draft) :
    (d.Traps → wrapping.run d = .error .divide) ∧ (¬ d.Traps → wrapping.run d = .ok d.outcome) := by
  induction d with
  | num hex ds =>
    refine ⟨fun h => h.elim, fun _ => ?_⟩
    rw [Arith.run, digits_wrapping hex ds (by decide), ← literal_eq]
    have hval : wrap ((literal hex ds % 4294967296 : ℕ) : ℤ) = wrap (literal hex ds) := by
      rw [wrap, wrap, Int.natCast_mod]
      exact Int.emod_bmod _ 4294967296
    change Except.ok (Outcome.mk (wrapping.signed (literal hex ds % 4294967296)) _ true) = _
    rw [signed_wrapping, hval, Draft.outcome]
  | pos d ih => exact ih
  | neg d ih =>
    refine ⟨fun h => ?_, fun h => ?_⟩
    · rw [Arith.run, ih.1 h]
      rfl
    · rw [Arith.run, ih.2 h]
      rfl
  | paren closed d ih =>
    refine ⟨fun h => ?_, fun h => ?_⟩
    · rw [Arith.run, ih.1 h]
      rfl
    · rw [Arith.run, ih.2 h]
      rfl
  | bin op l r ihl ihr =>
    by_cases hl : l.Traps
    · refine ⟨fun _ => ?_, fun h => absurd (Or.inl hl) h⟩
      rw [Arith.run, ihl.1 hl]
      rfl
    by_cases h0 : l.outcome.err = 0
    · rw [run_bin_of_fine (ihl.2 hl) h0]
      by_cases hr : r.Traps
      · refine ⟨fun _ => ?_, fun h => absurd (Or.inr ⟨h0, .inl hr⟩) h⟩
        rw [ihr.1 hr]
        rfl
      rw [ihr.2 hr, Draft.outcome, if_neg (not_not.mpr h0)]
      change (_ → (wrapping.step op l.outcome.value r.outcome.value).bind _ = _) ∧
        (_ → (wrapping.step op l.outcome.value r.outcome.value).bind _ = _)
      by_cases hd : op.Divides ∧ l.outcome.value = intMin ∧ r.outcome.value = -1
      · refine ⟨fun _ => ?_, fun h => absurd (Or.inr ⟨h0, .inr hd⟩) h⟩
        rw [step_wrapping_error hd.1 hd.2.1 hd.2.2]
        rfl
      · refine ⟨fun h => ?_, fun _ => ?_⟩
        · rcases h with h | ⟨-, h | h⟩
          · exact absurd h hl
          · exact absurd h hr
          · exact absurd h hd
        · rw [step_wrapping_ok (outcome_range l) (outcome_range r) hd]
          rfl
    · rw [run_bin_of_err (ihl.2 hl) h0, Draft.outcome, if_pos h0]
      refine ⟨fun h => ?_, fun _ => rfl⟩
      rcases h with h | ⟨h, -⟩
      · exact absurd h hl
      · exact absurd h h0

/-- The errors are 1 and 2. -/
lemma outcome_err_le (d : Draft) : d.outcome.err ≤ 2 := by
  induction d with
  | num hex ds =>
    rw [Draft.outcome]
    dsimp only
    split_ifs <;> omega
  | pos d ih => exact ih
  | neg d ih => exact ih
  | paren closed d ih =>
    rw [Draft.outcome, Outcome.close]
    split_ifs
    · exact ih
    · exact one_le_two
  | bin op l r ihl ihr =>
    rw [Draft.outcome]
    split_ifs
    · exact ihl
    · cases op.eval l.outcome.value r.outcome.value with
      | none => exact le_rfl
      | some v => exact ihr

/-- **The error is a division by zero** exactly when one is reported. -/
lemma reports_iff (d : Draft) : d.Reports ↔ d.outcome.err = 2 := by
  induction d with
  | num hex ds =>
    rw [Draft.Reports, Draft.outcome]
    dsimp only
    split_ifs <;> simp
  | pos d ih => exact ih
  | neg d ih => exact ih
  | paren closed d ih =>
    rw [Draft.Reports, Draft.outcome, Outcome.close, ih]
    split_ifs with h
    · rw [Bool.and_eq_true] at h
      simp [h]
    · refine ⟨fun h' => ?_, fun h' => (by cases h')⟩
      rw [h'.1, h'.2.1] at h
      exact absurd rfl h
  | bin op l r ihl ihr =>
    rw [Draft.Reports, Draft.outcome, Draft.Fine, ihl, ihr, ← BinOp.eval_eq_none_iff]
    by_cases h0 : l.outcome.err = 0
    · rw [if_neg (not_not.mpr h0)]
      cases op.eval l.outcome.value r.outcome.value with
      | none => simp [h0, Outcome.apply]
      | some v => simp [h0, Outcome.apply]
    · rw [if_pos h0]
      simp [h0, Outcome.stop]

/-- On an expression whose values fit, the outcome is the value, or an error if there is none.

**Proof sketch.** Induction on the draft. A parenthesis ends, an error in an operand stays an error,
and a value that fits is its own residue. -/
lemma outcome_of_clean (hc : d.clean = true) (hr : d.tree.InRange) :
    (∀ v, d.tree.eval = some v → d.outcome = ⟨v, 0, true⟩) ∧
      (d.tree.eval = none → d.outcome.err ≠ 0) := by
  induction d with
  | num hex ds =>
    refine ⟨fun v hv => ?_, fun h => (by cases h)⟩
    have hds : ds ≠ [] := fun he => by
      rw [Draft.clean, he] at hc
      cases hc
    have hrange := hr.of_eval hv
    cases hv
    rw [Draft.outcome, wrap_of_range hrange, if_neg hds]
  | pos d ih => exact ih hc hr
  | neg d ih =>
    obtain ⟨ih1, ih2⟩ := ih hc fun x hx => hr x (List.mem_append_left _ hx)
    refine ⟨fun v hv => ?_, fun h => ?_⟩
    · have hrange := hr.of_eval hv
      obtain ⟨a, ha, rfl⟩ := Option.map_eq_some_iff.mp hv
      rw [Draft.outcome, ih1 a ha, wrap_of_range hrange]
    · exact ih2 (Option.map_eq_none_iff.mp h)
  | paren closed d ih =>
    rw [Draft.clean, Bool.and_eq_true] at hc
    obtain ⟨rfl, hc⟩ := hc
    obtain ⟨ih1, ih2⟩ := ih hc hr
    refine ⟨fun v hv => ?_, fun h => ?_⟩
    · rw [Draft.outcome, ih1 v hv]
      rfl
    · rw [Draft.outcome, Outcome.close]
      split_ifs
      · exact ih2 h
      · exact one_ne_zero
  | bin op l r ihl ihr =>
    rw [Draft.clean, Bool.and_eq_true] at hc
    obtain ⟨ihl1, ihl2⟩ := ihl hc.1 fun x hx =>
      hr x (List.mem_append_left _ (List.mem_append_left _ hx))
    obtain ⟨ihr1, ihr2⟩ := ihr hc.2 fun x hx =>
      hr x (List.mem_append_left _ (List.mem_append_right _ hx))
    refine ⟨fun v hv => ?_, fun h => ?_⟩
    · have hrange := hr.of_eval hv
      obtain ⟨a, ha, hv⟩ := Option.bind_eq_some_iff.mp hv
      obtain ⟨b, hb, hv⟩ := Option.bind_eq_some_iff.mp hv
      rw [Draft.outcome, ihl1 a ha, ihr1 b hb]
      dsimp only
      rw [if_neg (not_not.mpr rfl), hv, Option.map_some, wrap_of_range hrange]
      rfl
    · rw [Draft.outcome]
      by_cases h0 : l.outcome.err = 0
      · rw [if_neg (not_not.mpr h0)]
        cases hl : l.tree.eval with
        | none => exact absurd h0 (ihl2 hl)
        | some a =>
          cases hb : r.tree.eval with
          | none =>
            cases op.eval l.outcome.value r.outcome.value with
            | none => exact two_ne_zero
            | some v => exact ihr2 hb
          | some b =>
            rw [Draft.tree, Tree.eval, hl, Option.bind_some, hb, Option.bind_some] at h
            rw [ihl1 a hl, ihr1 b hb, h]
            exact two_ne_zero
      · rw [if_pos h0]
        exact h0

end Outcome

/-! ## The end of a run -/

lemma toInt_ne_timeout (v : ℤ) : toInt v ≠ .error .timeout := by
  rw [toInt]
  split_ifs <;> simp

lemma digit_checked_ne_timeout (v : ℕ) : checked.digit v ≠ .error .timeout := by
  dsimp only [checked]
  split_ifs <;> simp

/-- **The `calc` command ends** on every text, within the bound on the recursion, in the arithmetic
of the language and in that of the processor, which goes on after an overflow: there the command has
a value and an error, or a division raises a divide error. -/
theorem calc_ends (s : List UInt8) :
    shellCalc s ≠ .error .timeout ∧
      (wrapping.shellCalc s = .error .divide ∨ ∃ r, wrapping.shellCalc s = .ok r) := by
  constructor
  · rw [shellCalc_eq_checked, ne_eq, Arith.shellCalc_eq_error_iff]
    exact Arith.run_ne_timeout digit_checked_ne_timeout toInt_ne_timeout _
  · cases hcalc : wrapping.shellCalc s with
    | ok r => exact .inr ⟨r, rfl⟩
    | error e =>
      have hrun := Arith.shellCalc_eq_error_iff.mp hcalc
      by_cases ht : (draft s).1.Traps
      · rw [(run_wrapping _).1 ht] at hrun
        cases hrun
        exact .inl rfl
      · rw [(run_wrapping _).2 ht] at hrun
        cases hrun

/-! ## The divide exception -/

/-- **The calculator raises no divide error** exactly when no quotient or remainder of `INT_MIN` by
`-1` is reached in the text.

**Proof sketch.** The command does what `Arith.run` says on the draft of the text, and
`run_wrapping` says which drafts raise the exception. -/
theorem calc_never_traps_iff (s : List UInt8) :
    wrapping.shellCalc s ≠ .error .divide ↔ ¬ (draft s).1.Traps := by
  rw [not_iff_not, Arith.shellCalc_eq_error_iff]
  refine ⟨fun h => ?_, (run_wrapping _).1⟩
  by_contra ht
  rw [(run_wrapping _).2 ht] at h
  cases h

/-- The text that divides 2147483648 by -1. -/
def minQuotText : List UInt8 :=
  ['2', '1', '4', '7', '4', '8', '3', '6', '4', '8', '/', '-', '1'].map Char.toUInt8

/-- Dividing 2147483648 by -1 raises a divide error: the literal is `INT_MIN` modulo `2^32`. -/
theorem calc_minQuot_divides :
    0 ∉ minQuotText ∧ wrapping.shellCalc minQuotText = .error .divide :=
  ⟨by decide, by rfl⟩

/-! ## The classification of errors -/

/-- The errors are right: 2 for an expression with a divisor of zero, 1 for a text that is no
expression. -/
def Classified (s : List UInt8) : Prop :=
  ((∃ v, wrapping.shellCalc s = .ok (v, 2)) ↔ ∃ t, Generates t s ∧ t.eval = none) ∧
    ((∃ v, wrapping.shellCalc s = .ok (v, 1)) ↔ ¬ ∃ t, Generates t s)

section Classified

variable {s : List UInt8}

/-- The error that the command ends with. -/
lemma exists_shellCalc_iff (hs : 0 ∉ s) (e : ℕ) :
    (∃ v, wrapping.shellCalc s = .ok (v, e)) ↔ ¬ (draft s).1.Traps ∧
      (if (draft s).1.outcome.err = 0 ∧ skip (draft s).2 ≠ [] then 1
        else (draft s).1.outcome.err) = e := by
  by_cases ht : (draft s).1.Traps
  · rw [Arith.shellCalc_eq_error_iff.mpr ((run_wrapping _).1 ht)]
    exact ⟨fun h => (by obtain ⟨v, h⟩ := h; cases h), fun h => absurd ht h.1⟩
  · rw [Arith.shellCalc_of_run hs ((run_wrapping _).2 ht)]
    simp only [Except.ok.injEq, Prod.mk.injEq, exists_and_right, exists_eq', true_and]
    exact ⟨fun h => ⟨ht, h⟩, fun h => h.2⟩

/-- The command reports a division by zero. -/
lemma ends_with_two_iff (hs : 0 ∉ s) :
    (∃ v, wrapping.shellCalc s = .ok (v, 2)) ↔ (draft s).1.Reports ∧ ¬ (draft s).1.Traps := by
  rw [exists_shellCalc_iff hs, reports_iff, and_comm]
  refine and_congr_left fun _ => ?_
  split_ifs with h
  · simp [h.1]
  · exact Iff.rfl

/-- The command reports a syntax error: there is one in the draft, or a text is left behind it. -/
lemma ends_with_one_iff (hs : 0 ∉ s) :
    (∃ v, wrapping.shellCalc s = .ok (v, 1)) ↔ ¬ (draft s).1.Traps ∧
      ((draft s).1.outcome.err = 1 ∨ (draft s).1.outcome.err = 0 ∧ skip (draft s).2 ≠ []) := by
  rw [exists_shellCalc_iff hs]
  refine and_congr_right fun _ => ?_
  split_ifs with h
  · simp [h]
  · simp [h]

/-- A text that is no expression ends with an error. -/
lemma not_generates (hg : ¬ ∃ t, Generates t s) (ht : ¬ (draft s).1.Traps)
    (h0 : (draft s).1.outcome.err = 0) : skip (draft s).2 ≠ [] := by
  obtain ⟨hclean, -⟩ := run_clean ((run_wrapping _).2 ht) h0
  exact fun hskip => hg ⟨_, generates_iff.mpr ⟨hclean, hskip, rfl⟩⟩

/-- **The classification of errors.** The errors are right exactly when no quotient or remainder of
`INT_MIN` by `-1` is reached in a text that should end with an error, a division by zero in an
expression is reported, and none is reported in a text that is no expression.

**Proof sketch.** An expression without a divisor of zero has an outcome without an error, and one
with such a divisor has an outcome with an error (`outcome_of_clean`); a text that is no expression
ends with an error as well (`not_generates`). Which of the two errors it is, `reports_iff` says. -/
theorem errors_classified_iff (s : List UInt8) (hs : 0 ∉ s)
    (hr : ∀ t, Generates t s → t.InRange) :
    Classified s ↔
      ((∃ t, Generates t s ∧ t.eval = none) → (draft s).1.Reports ∧ ¬ (draft s).1.Traps) ∧
      ((¬ ∃ t, Generates t s) → ¬ (draft s).1.Reports ∧ ¬ (draft s).1.Traps) := by
  rw [Classified, ends_with_two_iff hs, ends_with_one_iff hs]
  have hle := outcome_err_le (draft s).1
  by_cases hg : ∃ t, Generates t s
  · -- an expression: its draft is clean, and its outcome decides between a value and an error
    obtain ⟨t, ht⟩ := hg
    obtain ⟨hclean, hskip, rfl⟩ := generates_iff.mp ht
    obtain ⟨hsome, hnone⟩ := outcome_of_clean hclean (hr _ ht)
    have hzero : (∃ t, Generates t s ∧ t.eval = none) ↔ (draft s).1.tree.eval = none := by
      refine ⟨fun h => ?_, fun h => ⟨_, ht, h⟩⟩
      obtain ⟨t', ht', he⟩ := h
      obtain ⟨-, -, rfl⟩ := generates_iff.mp ht'
      exact he
    have hgen : ∃ t, Generates t s := ⟨_, ht⟩
    rw [hzero, reports_iff]
    simp only [hgen, not_true_eq_false, false_implies, and_true, iff_false, hskip, ne_eq,
      and_false, or_false]
    cases heval : (draft s).1.tree.eval with
    | none =>
      have hne := hnone heval
      simp only [iff_true, forall_const]
      refine ⟨fun h => h.1, fun h => ⟨h, fun h1 => ?_⟩⟩
      omega
    | some v =>
      have h0 : (draft s).1.outcome.err = 0 := by rw [hsome v heval]
      simp [h0]
  · -- no expression: the error has to be the syntax error
    have hzero : ¬ ∃ t, Generates t s ∧ t.eval = none := fun h => by
      obtain ⟨t, ht, -⟩ := h
      exact hg ⟨t, ht⟩
    simp only [hzero, hg, iff_false, false_implies, true_and, not_false_eq_true, iff_true,
      forall_const, reports_iff]
    constructor
    · rintro ⟨h2, ht, -⟩
      exact ⟨fun h => h2 ⟨h, ht⟩, ht⟩
    · rintro ⟨h2, ht⟩
      refine ⟨fun h => h2 h.1, ht, ?_⟩
      by_cases h0 : (draft s).1.outcome.err = 0
      · exact .inr ⟨h0, not_generates hg ht h0⟩
      · exact .inl (by omega)

end Classified

/-- The text of a division without a divisor. -/
def noDivisorText : List UInt8 := ['5', '/'].map Char.toUInt8

/-- `(1/0+5)`. -/
def zeroInParens : List UInt8 := ['(', '1', '/', '0', '+', '5', ')'].map Char.toUInt8

/-- The expression of `zeroInParens`. -/
def zeroInParensTree : Tree := .bin .add (.bin .div (.lit 1) (.lit 0)) (.lit 5)

/-- A missing divisor is reported as a division by zero, and a division by zero in parentheses that
go on behind it as a syntax error. -/
theorem errors_misclassified :
    (0 ∉ noDivisorText ∧ (¬ ∃ t, Generates t noDivisorText) ∧
      wrapping.shellCalc noDivisorText = .ok (0, 2) ∧ ¬ Classified noDivisorText) ∧
    (0 ∉ zeroInParens ∧ Generates zeroInParensTree zeroInParens ∧ zeroInParensTree.InRange ∧
      zeroInParensTree.eval = none ∧ wrapping.shellCalc zeroInParens = .ok (0, 1) ∧
      ¬ Classified zeroInParens) := by
  have hno : ¬ ∃ t, Generates t noDivisorText := fun h => by
    obtain ⟨t, ht⟩ := h
    exact absurd (generates_iff.mp ht).1 (by decide)
  have htwo : wrapping.shellCalc noDivisorText = .ok (0, 2) := by rfl
  have hgen : Generates zeroInParensTree zeroInParens :=
    generates_iff.mpr ⟨by decide, by decide, by rfl⟩
  have hone : wrapping.shellCalc zeroInParens = .ok (0, 1) := by rfl
  refine ⟨⟨by decide, hno, htwo, fun hc => ?_⟩, by decide, hgen, ?_, by decide, hone, fun hc => ?_⟩
  · obtain ⟨t, ht, -⟩ := hc.1.mp ⟨0, htwo⟩
    exact hno ⟨t, ht⟩
  · rw [Tree.InRange]
    decide
  · obtain ⟨v, hv⟩ := hc.1.mpr ⟨_, hgen, by decide⟩
    rw [hone] at hv
    cases hv

/-- `(1/0)`. -/
def zeroAtEnd : List UInt8 := ['(', '1', '/', '0', ')'].map Char.toUInt8

/-- In `(1/0)` the parenthesis ends right behind the division, and the error is right. -/
theorem errors_classified_iff_at_end :
    Classified zeroAtEnd ∧ wrapping.shellCalc zeroAtEnd = .ok (0, 2) := by
  have htree : (draft zeroAtEnd).1.tree = .bin .div (.lit 1) (.lit 0) := by rfl
  have hgen : Generates (.bin .div (.lit 1) (.lit 0)) zeroAtEnd :=
    generates_iff.mpr ⟨by decide, by decide, htree⟩
  have hrange : ∀ t, Generates t zeroAtEnd → t.InRange := fun t ht => by
    obtain ⟨-, -, rfl⟩ := generates_iff.mp ht
    rw [htree, Tree.InRange]
    decide
  refine ⟨(errors_classified_iff zeroAtEnd (by decide) hrange).mpr ⟨fun _ => ?_, fun h => ?_⟩,
    by rfl⟩
  · exact ⟨by decide, by decide⟩
  · exact absurd ⟨_, hgen⟩ h

end BengalTiger.Calc
