import BengalTiger.Shell.CalcDraft

set_option autoImplicit false

/-!
# The calculator on drafts

The parser of the `calc` command over any arithmetic, and what it does on a draft. An arithmetic
says what a literal and the result of an operation become in a variable of type `int`: in the
language an operation that does not fit is undefined, on the processor it is computed modulo `2^32`.

The parser computes while it reads, so an error of a division stops the reading as well. The text
behind the division stays where it is, and an enclosing parenthesis finds an operator instead of its
end. `Arith.run` says this on drafts, where everything is read before anything is computed: besides
the value and the error it keeps whether the draft was read to its end.

## Main definitions

* `Calc.Arith`, `Calc.wrapping` — arithmetics.
* `Calc.Arith.parse`, `Calc.Arith.shellCalc` — the parser and the command.
* `Calc.Outcome`, `Calc.Arith.run` — what the parser does on a draft.

## Main results

* `Calc.simAt` — the parser on a text does what `Arith.run` says on its draft.
* `Calc.Arith.shellCalc_error`, `Calc.Arith.shellCalc_ok` — the command.
-/

namespace BengalTiger.Calc

/-! ## Arithmetics -/

/-- How values of type `int` are computed: a literal after one more digit, the value of a literal,
and the result of an operation. -/
structure Arith where
  digit : ℕ → Except Fault ℕ
  signed : ℕ → ℤ
  round : ℤ → Except Fault ℤ

/-- The value of type `int` that is congruent modulo `2^32`. -/
def wrap (v : ℤ) : ℤ := v.bmod 4294967296

lemma wrap_range (v : ℤ) : intMin ≤ wrap v ∧ wrap v ≤ intMax := by
  have h1 : -(2147483648 : ℤ) ≤ wrap v := Int.le_bmod (m := 4294967296) (by decide)
  have h2 : wrap v < 2147483648 := Int.bmod_lt (m := 4294967296) (by decide)
  rw [intMin, intMax]
  omega

lemma wrap_of_range {v : ℤ} (h : intMin ≤ v ∧ v ≤ intMax) : wrap v = v := by
  rw [intMin, intMax] at h
  exact Int.bmod_eq_of_le (m := 4294967296) (by simpa using h.1) (by norm_num; omega)

/-- The processor computes modulo `2^32`. -/
def wrapping : Arith where
  digit v := .ok (v % 4294967296)
  signed v := wrap v
  round v := .ok (wrap v)

/-- The division instruction: quotient and remainder. It raises a divide error when the divisor is
zero and when the quotient does not fit. -/
def idiv (l r : ℤ) : Except Fault (ℤ × ℤ) :=
  if r = 0 ∨ l = intMin ∧ r = -1 then .error .divide else .ok (l.tdiv r, l.tmod r)

/-- `val` after one more digit. -/
def stepOf (hex : Bool) : ℕ → ℕ → ℕ := if hex then hexStep else decStep

/-- The base of a number. -/
def baseOf (hex : Bool) : ℕ := if hex then 16 else 10

/-- The value of a run of digits behind a value. -/
def literalFrom (hex : Bool) (v : ℕ) (ds : List UInt8) : ℕ :=
  Numeral.value (baseOf hex) (fun ch => (digitOf hex ch).getD 0) v ds

section Digits

variable {ch : UInt8}

/-- The value of a hexadecimal digit. -/
lemma hexDigit_lt {d : ℕ} (h : hexDigit ch = some d) : d < 16 := by
  rw [hexDigit] at h
  simp only [UInt8.le_iff_toNat_le] at h
  split_ifs at h with h1 h2 h3
  · cases h
    rw [UInt8.toNat_sub_of_le _ _ (UInt8.le_iff_toNat_le.mpr h1.1)]
    have e1 : ('0'.toUInt8).toNat = 48 := by decide
    have e2 : ('9'.toUInt8).toNat = 57 := by decide
    omega
  · cases h
    rw [UInt8.toNat_sub_of_le _ _ (UInt8.le_iff_toNat_le.mpr h2.1)]
    have e1 : ('a'.toUInt8).toNat = 97 := by decide
    have e2 : ('f'.toUInt8).toNat = 102 := by decide
    omega
  · cases h
    rw [UInt8.toNat_sub_of_le _ _ (UInt8.le_iff_toNat_le.mpr h3.1)]
    have e1 : ('A'.toUInt8).toNat = 65 := by decide
    have e2 : ('F'.toUInt8).toNat = 70 := by decide
    omega

lemma hexStep_eq {v d : ℕ} (hd : d < 16) : hexStep v d = v * 16 + d := by
  rw [hexStep, ← Nat.shiftLeft_add_eq_or_of_lt (i := 4) hd, Nat.shiftLeft_eq]

/-- A digit multiplies the value so far by the base and is added. -/
lemma stepOf_eq (hex : Bool) (v : ℕ) (ch : UInt8) :
    stepOf hex v ((digitOf hex ch).getD 0) = v * baseOf hex + (digitOf hex ch).getD 0 := by
  cases hex with
  | false => rfl
  | true =>
    refine hexStep_eq ?_
    change (hexDigit ch).getD 0 < 16
    cases h : hexDigit ch with
    | none => decide
    | some d => exact hexDigit_lt h

lemma literal_eq (hex : Bool) (ds : List UInt8) : literal hex ds = literalFrom hex 0 ds := by
  cases hex <;> rfl

lemma literalFrom_cons (hex : Bool) (v : ℕ) (ch : UInt8) (ds : List UInt8) :
    literalFrom hex v (ch :: ds) =
      literalFrom hex (v * baseOf hex + (digitOf hex ch).getD 0) ds := rfl

lemma le_literalFrom (hex : Bool) (v : ℕ) (ds : List UInt8) : v ≤ literalFrom hex v ds :=
  Numeral.le_value _ _ (by cases hex <;> decide) v ds

end Digits

/-- How a loop goes on after an operation: a division by zero sets `err` and returns. -/
def after (loop : ℤ → Ctx → Except Fault (ℤ × Ctx)) (c : Ctx) :
    Option ℤ → Except Fault (ℤ × Ctx)
  | none => .ok (0, { c with err := 2 })
  | some v => loop v c

namespace Arith

/-- An operation as the parser performs it; `none` is a division by zero, which it reports. -/
def step (A : Arith) (op : BinOp) (l r : ℤ) : Except Fault (Option ℤ) :=
  match op with
  | .add => (A.round (l + r)).map some
  | .sub => (A.round (l - r)).map some
  | .mul => (A.round (l * r)).map some
  | .div => if r = 0 then .ok none else (idiv l r).map fun q => some q.1
  | .rem => if r = 0 then .ok none else (idiv l r).map fun q => some q.2

/-- The loops over the digits of a number: the value, the number of digits and the text behind. -/
def numLoop (A : Arith) (hex : Bool) :
    List UInt8 → ℕ → ℕ → Except Fault (ℕ × ℕ × List UInt8)
  | [], val, digits => .ok (val, digits, [])
  | ch :: rest, val, digits =>
    match digitOf hex ch with
    | none => .ok (val, digits, ch :: rest)
    | some d => (A.digit (stepOf hex val d)).bind fun val => A.numLoop hex rest val (digits + 1)

/-- The last part of `calc_parse_factor`: a number. -/
def number (A : Arith) (c : Ctx) : Except Fault (ℤ × Ctx) :=
  (if HexAhead c.rest then A.numLoop true (c.rest.drop 2) 0 0
  else A.numLoop false c.rest 0 0).bind fun p =>
  .ok (A.signed p.1, { rest := p.2.2, err := if p.2.1 = 0 then 1 else c.err })

mutual

/-- `calc_parse_factor`, `calc_parse_term` and `calc_parse_expr`, by level. -/
def parse (A : Arith) : ℕ → Level → Ctx → Except Fault (ℤ × Ctx)
  | 0, _, _ => .error .timeout
  | n + 1, .factor, c =>
    if (calcSkipWs c).peek = '+'.toUInt8 then A.parse n .factor (calcSkipWs c).advance
    else if (calcSkipWs c).peek = '-'.toUInt8 then
      (A.parse n .factor (calcSkipWs c).advance).bind fun p =>
        (A.round (-p.1)).bind fun v => .ok (v, p.2)
    else if (calcSkipWs c).peek = '('.toUInt8 then
      (A.parse n .expr (calcSkipWs c).advance).bind fun p =>
        if (calcSkipWs p.2).peek = ')'.toUInt8 then .ok (p.1, (calcSkipWs p.2).advance)
        else .ok (p.1, { calcSkipWs p.2 with err := 1 })
    else A.number (calcSkipWs c)
  | n + 1, .term, c => (A.parse n .factor c).bind fun p => A.loop n .term p.1 p.2
  | n + 1, .expr, c => (A.parse n .term c).bind fun p => A.loop n .expr p.1 p.2

/-- The loops of `calc_parse_term` and `calc_parse_expr`. -/
def loop (A : Arith) : ℕ → Level → ℤ → Ctx → Except Fault (ℤ × Ctx)
  | 0, _, _, _ => .error .timeout
  | n + 1, lev, left, c =>
    if c.err ≠ 0 then .ok (left, c)
    else
      match lev.opAt (calcSkipWs c).peek with
      | none => .ok (left, calcSkipWs c)
      | some op =>
        (A.parse n lev.operand (calcSkipWs c).advance).bind fun p =>
          (A.step op left p.1).bind (after (A.loop n lev) p.2)

end

/-- The parser and the check for trailing input, as in the `calc` command: the result and `err`. -/
def shellCalc (A : Arith) (s : List UInt8) : Except Fault (ℤ × ℕ) :=
  (A.parse (calcFuel s) .expr { rest := s, err := 0 }).bind fun p =>
    .ok (p.1, if (calcSkipWs p.2).peek ≠ 0 ∧ p.2.err = 0 then 1 else p.2.err)

end Arith

/-! ## Outcomes -/

/-- What comes of a draft: the value, the error, and whether it was read to its end. -/
structure Outcome where
  value : ℤ
  err : ℕ
  whole : Bool

namespace Outcome

/-- Behind an error that stops the reading, an operator stands where a parenthesis should end. -/
def close (o : Outcome) (closed : Bool) : Outcome :=
  if o.whole && closed then o else { o with err := 1 }

/-- The operands behind an error are not read. -/
def stop (o : Outcome) : Outcome := { o with whole := false }

/-- An operation, after the outcome of its right operand. -/
def apply (o : Outcome) : Option ℤ → Outcome
  | none => { o with value := 0, err := 2 }
  | some v => { o with value := v }

end Outcome

namespace Arith

variable (A : Arith)

/-- The value of a run of digits. -/
def digits (hex : Bool) : List UInt8 → ℕ → Except Fault ℕ
  | [], val => .ok val
  | ch :: ds, val => (A.digit (stepOf hex val ((digitOf hex ch).getD 0))).bind (digits hex ds)

/-- What the parser does on a draft. -/
def run : Draft → Except Fault Outcome
  | .num hex ds =>
    (A.digits hex ds 0).bind fun v => .ok ⟨A.signed v, if ds = [] then 1 else 0, true⟩
  | .pos d => run d
  | .neg d => (run d).bind fun o => (A.round (-o.value)).bind fun v => .ok { o with value := v }
  | .paren closed d => (run d).bind fun o => .ok (o.close closed)
  | .bin op l r =>
    (run l).bind fun o =>
      if o.err ≠ 0 then .ok o.stop
      else (run r).bind fun o' => (A.step op o.value o'.value).bind fun x => .ok (o'.apply x)

end Arith

lemma bind_eq_ok {α β : Type} {x : Except Fault α} {f : α → Except Fault β} {b : β}
    (h : x.bind f = .ok b) : ∃ a, x = .ok a ∧ f a = .ok b := by
  cases x with
  | error e => cases h
  | ok a => exact ⟨a, rfl, h⟩

section Run

variable {A : Arith} {d d' left : Draft} {o : Outcome}

/-- Without an error, nothing is missing in a draft and it is read to its end. -/
lemma run_clean (h : A.run d = .ok o) (h0 : o.err = 0) : d.clean = true ∧ o.whole = true := by
  induction d generalizing o with
  | num hex ds =>
    obtain ⟨v, -, e⟩ := bind_eq_ok h
    cases e
    dsimp only at h0
    split_ifs at h0 with hds
    refine ⟨?_, rfl⟩
    rw [Draft.clean, List.isEmpty_eq_false_iff.mpr hds]
    rfl
  | pos d ih => exact ih h h0
  | neg d ih =>
    obtain ⟨o', h', e⟩ := bind_eq_ok h
    obtain ⟨v, -, e⟩ := bind_eq_ok e
    cases e
    exact ih (o := o') h' h0
  | paren closed d ih =>
    obtain ⟨o', h', e⟩ := bind_eq_ok h
    cases e
    rw [Outcome.close] at h0 ⊢
    split_ifs at h0 ⊢ with hw
    obtain ⟨hc, hw'⟩ := ih h' h0
    rw [Bool.and_eq_true] at hw
    exact ⟨by rw [Draft.clean, hw.2, hc]; rfl, hw'⟩
  | bin op l r ihl ihr =>
    -- an error on the left would have been kept
    obtain ⟨ol, hl, e⟩ := bind_eq_ok h
    by_cases hne : ol.err ≠ 0
    · rw [if_pos hne] at e
      cases e
      exact absurd h0 hne
    rw [if_neg hne] at e
    obtain ⟨or, hr, e⟩ := bind_eq_ok e
    obtain ⟨x, -, e⟩ := bind_eq_ok e
    cases e
    cases x with
    | none => cases h0
    | some v =>
      obtain ⟨hcr, hw⟩ := ihr hr h0
      obtain ⟨hcl, -⟩ := ihl hl (not_not.mp hne)
      exact ⟨by rw [Draft.clean, hcl, hcr]; rfl, hw⟩

/-- The draft continues another one by operators and operands. -/
inductive Extends (d : Draft) : Draft → Prop
  | refl : Extends d d
  | bin {d' : Draft} (op : BinOp) (r : Draft) (h : Extends d d') : Extends d (.bin op d' r)

lemma Extends.trans {d'' : Draft} (h : Extends d d') (h' : Extends d' d'') : Extends d d'' := by
  induction h' with
  | refl => exact h
  | bin op r _ ih => exact .bin op r ih

/-- A draft that has no outcome has none when it is continued. -/
lemma Extends.run_error (h : Extends d d') {e : Fault} (he : A.run d = .error e) :
    A.run d' = .error e := by
  induction h with
  | refl => exact he
  | bin op r _ ih =>
    rw [Arith.run, ih]
    rfl

/-- Behind an error nothing changes. -/
lemma Extends.run_stop (h : Extends d d') (he : A.run d = .ok o.stop) (hne : o.err ≠ 0) :
    A.run d' = .ok o.stop := by
  induction h with
  | refl => exact he
  | bin op r _ ih =>
    rw [Arith.run, ih]
    exact if_pos hne

lemma run_bin_of_err (h : A.run d = .ok o) (hne : o.err ≠ 0) (op : BinOp) (r : Draft) :
    A.run (.bin op d r) = .ok o.stop := by
  rw [Arith.run, h]
  exact if_pos hne

lemma run_bin_of_fine (h : A.run d = .ok o) (h0 : o.err = 0) (op : BinOp) (r : Draft) :
    A.run (.bin op d r) = (A.run r).bind fun o' =>
      (A.step op o.value o'.value).bind fun x => .ok (o'.apply x) := by
  rw [Arith.run, h]
  exact if_neg (not_not.mpr h0)

end Run

/-! ## The simulation -/

/-- An operator stands first, behind blanks. -/
def OpAhead (s : List UInt8) : Prop := ∃ op : BinOp, (skip s).headD 0 = op.symbol

/-- Where the parser stands after an outcome, when the text behind the draft is `rest`. -/
structure Stands (o : Outcome) (rest : List UInt8) (c : Ctx) : Prop where
  err : c.err = o.err
  fine : o.err = 0 → c.rest = rest
  whole : o.whole = true → skip c.rest = skip rest
  ahead : o.whole = false → OpAhead c.rest

/-- The parser fails like the draft, or ends with its outcome. -/
def Simulates (x : Except Fault Outcome) (rest : List UInt8) (y : Except Fault (ℤ × Ctx)) : Prop :=
  match x with
  | .error e => y = .error e
  | .ok o => ∃ c, y = .ok (o.value, c) ∧ Stands o rest c

section Simulation

variable {A : Arith} {n : ℕ} {lev : Level} {left d : Draft} {s rest : List UInt8} {o : Outcome}
  {c : Ctx}

lemma simulates_ok (h : Stands o rest c) : Simulates (.ok o) rest (.ok (o.value, c)) :=
  ⟨c, rfl, h⟩

lemma Stands.setValue (h : Stands o rest c) (v : ℤ) : Stands { o with value := v } rest c :=
  ⟨h.err, h.fine, h.whole, h.ahead⟩

/-- The rule for a computation on the outcome that the parser performs as well. -/
lemma Simulates.bind {x : Except Fault Outcome} {y : Except Fault (ℤ × Ctx)} {rest' : List UInt8}
    {f : Outcome → Except Fault Outcome} {g : ℤ × Ctx → Except Fault (ℤ × Ctx)}
    (h : Simulates x rest y)
    (hf : ∀ o c, x = .ok o → Stands o rest c → Simulates (f o) rest' (g (o.value, c))) :
    Simulates (x.bind f) rest' (y.bind g) := by
  cases x with
  | error e =>
    have hy : y = .error e := h
    rw [hy]
    rfl
  | ok o =>
    obtain ⟨c, hy, hs⟩ := h
    rw [hy]
    exact hf o c rfl hs

/-- What the loop of the reader adds to a draft. -/
lemma readLoop_extends (h : readLoop n lev left s = some (d, rest)) :
    (d = left ∧ skip rest = skip s) ∨ (OpAhead s ∧ ∃ op r, Extends (.bin op left r) d) := by
  induction n generalizing left s with
  | zero => cases h
  | succ n ih =>
    rcases readLoop_cases h with ⟨-, rfl, rfl⟩ | ⟨-, -, rfl, rfl⟩ | ⟨op, r, s', -, ho, -, hl⟩
    · exact .inl ⟨rfl, rfl⟩
    · exact .inl ⟨rfl, skip_skip s⟩
    · refine .inr ⟨⟨op, (Level.opAt_eq_some.mp ho).2⟩, op, r, ?_⟩
      rcases ih hl with ⟨rfl, -⟩ | ⟨-, op', r', hext⟩
      · exact .refl
      · exact Extends.trans (.bin op' r' .refl) hext

/-- The loop of the reader goes on behind a draft without an outcome. -/
lemma run_readLoop_error (h : readLoop n lev left s = some (d, rest)) {e : Fault}
    (he : A.run left = .error e) : A.run d = .error e := by
  rcases readLoop_extends h with ⟨rfl, -⟩ | ⟨-, op, r, hext⟩
  · exact he
  · exact Extends.run_error (.trans (.bin op r .refl) hext) he

/-- **Behind an error** the parser stops, and the reader may go on. -/
lemma Stands.stuck (hst : Stands o s c) (h : readLoop n lev left s = some (d, rest))
    (hrun : A.run left = .ok o) (hne : o.err ≠ 0) :
    Simulates (A.run d) rest (.ok (o.value, c)) := by
  rcases readLoop_extends h with ⟨rfl, hskip⟩ | ⟨⟨op', hahead⟩, op, r, hext⟩
  · rw [hrun]
    exact simulates_ok ⟨hst.err, fun h0 => absurd h0 hne, fun hw => (hst.whole hw).trans hskip.symm,
      hst.ahead⟩
  · rw [hext.run_stop (run_bin_of_err hrun hne op r) hne]
    refine ⟨c, rfl, hst.err, fun h0 => absurd h0 hne, fun hw => (by cases hw), fun _ => ?_⟩
    cases hw : o.whole with
    | false => exact hst.ahead hw
    | true => exact ⟨op', by rw [hst.whole hw]; exact hahead⟩

/-- The parser simulates drafts within the bound `n`. -/
structure SimAt (A : Arith) (n : ℕ) : Prop where
  parse : ∀ lev s d rest, read n lev s = some (d, rest) →
    Simulates (A.run d) rest (A.parse n lev ⟨s, 0⟩)
  loop : ∀ lev left s d rest v, readLoop n lev left s = some (d, rest) →
    A.run left = .ok ⟨v, 0, true⟩ → Simulates (A.run d) rest (A.loop n lev v ⟨s, 0⟩)

lemma loop_of_err (hne : c.err ≠ 0) (v : ℤ) : A.loop (n + 1) lev v c = .ok (v, c) := by
  rw [Arith.loop, if_pos hne]

/-- The loop goes on behind an outcome. -/
lemma SimAt.resume (ih : SimAt A n) (hst : Stands o s c)
    (h : readLoop n lev left s = some (d, rest)) (hrun : A.run left = .ok o) :
    Simulates (A.run d) rest (A.loop n lev o.value c) := by
  by_cases h0 : o.err = 0
  · obtain ⟨-, hw⟩ := run_clean hrun h0
    obtain ⟨v, err, whole⟩ := o
    obtain ⟨r, e⟩ := c
    cases h0
    cases hw
    have hr : r = s := hst.fine rfl
    have he : e = 0 := hst.err
    rw [hr, he]
    exact ih.loop _ _ _ _ _ _ h hrun
  · cases n with
    | zero => cases h
    | succ n =>
      have hne : c.err ≠ 0 := by
        rw [hst.err]
        exact h0
      rw [loop_of_err hne]
      exact hst.stuck h hrun h0

/-- The digits of a number. -/
lemma numLoop_eq (hex : Bool) (s : List UInt8) (val k : ℕ) :
    A.numLoop hex s val k = (A.digits hex (s.takeWhile (isDigit hex)) val).bind fun v =>
      .ok (v, k + (s.takeWhile (isDigit hex)).length, s.dropWhile (isDigit hex)) := by
  induction s generalizing val k with
  | nil => rfl
  | cons ch s ih =>
    rw [Arith.numLoop]
    cases hd : digitOf hex ch with
    | none =>
      have hch : ¬ isDigit hex ch = true := by
        rw [isDigit, hd]
        exact Bool.false_ne_true
      rw [List.takeWhile_cons_of_neg hch, List.dropWhile_cons_of_neg hch]
      rfl
    | some a =>
      have hch : isDigit hex ch = true := by
        rw [isDigit, hd]
        rfl
      rw [List.takeWhile_cons_of_pos hch, List.dropWhile_cons_of_pos hch, Arith.digits, hd,
        Option.getD_some]
      dsimp only
      cases A.digit (stepOf hex val a) with
      | error e => rfl
      | ok v =>
        have hlen : k + (s.takeWhile (isDigit hex)).length + 1 =
            k + 1 + (s.takeWhile (isDigit hex)).length := by omega
        rw [List.length_cons, ← Nat.add_assoc, hlen]
        exact ih v (k + 1)

/-- A number ends where its digits end. -/
lemma simulates_digits (hex : Bool) (s : List UInt8) :
    Simulates (A.run (.num hex (s.takeWhile (isDigit hex)))) (s.dropWhile (isDigit hex))
      ((A.numLoop hex s 0 0).bind fun p =>
        .ok (A.signed p.1, { rest := p.2.2, err := if p.2.1 = 0 then 1 else 0 })) := by
  rw [numLoop_eq, Arith.run]
  cases A.digits hex (s.takeWhile (isDigit hex)) 0 with
  | error e => rfl
  | ok v =>
    refine ⟨_, rfl, ?_, fun _ => rfl, fun _ => rfl, fun hw => (by cases hw)⟩
    simp only [Nat.zero_add, List.length_eq_zero_iff]

/-- A number is parsed as it is read. -/
lemma simulates_number (h : readNumber s = (d, rest)) :
    Simulates (A.run d) rest (A.number ⟨s, 0⟩) := by
  rw [readNumber] at h
  rw [Arith.number]
  split_ifs at h with hx
  · cases h
    rw [if_pos hx]
    exact simulates_digits true (s.drop 2)
  · cases h
    rw [if_neg hx]
    exact simulates_digits false s

lemma readClose_fst (d : Draft) (s : List UInt8) :
    (readClose d s).1 = .paren (decide ((skip s).headD 0 = ')'.toUInt8)) d := by
  rw [readClose]
  split_ifs with h
  · rw [decide_eq_true h]
  · rw [decide_eq_false h]

/-- An operator is no closing parenthesis. -/
lemma OpAhead.ne_close (h : OpAhead s) : (skip s).headD 0 ≠ ')'.toUInt8 := by
  obtain ⟨op, h⟩ := h
  rw [h]
  cases op <;> decide

/-- A parenthesis that does not end behind the outcome. -/
lemma Stands.fail (hst : Stands o s c) (hrest : o.whole = true → skip rest = skip s) :
    Stands { o with err := 1 } rest { calcSkipWs c with err := 1 } := by
  refine ⟨rfl, fun h0 => (by cases h0), fun hw => ?_, fun hw => ?_⟩
  · exact (skip_skip c.rest).trans ((hst.whole hw).trans (hrest hw).symm)
  · obtain ⟨op, hop⟩ := hst.ahead hw
    exact ⟨op, (congrArg (fun l => List.headD l 0) (skip_skip c.rest)).trans hop⟩

/-- The end of a parenthesis. -/
lemma simulates_close (hst : Stands o s c) :
    Simulates (.ok (o.close (decide ((skip s).headD 0 = ')'.toUInt8)))) (readClose left s).2
      (if (skip c.rest).headD 0 = ')'.toUInt8 then .ok (o.value, (calcSkipWs c).advance)
        else .ok (o.value, { calcSkipWs c with err := 1 })) := by
  cases hw : o.whole with
  | false =>
    have hopen : ¬ (o.whole && decide ((skip s).headD 0 = ')'.toUInt8)) = true := by
      rw [hw, Bool.false_and]
      exact Bool.false_ne_true
    rw [if_neg (hst.ahead hw).ne_close, Outcome.close, if_neg hopen]
    exact ⟨_, rfl, hst.fail fun h => (by rw [hw] at h; cases h)⟩
  | true =>
    have hskip := hst.whole hw
    rw [hskip, readClose, Outcome.close]
    by_cases hq : (skip s).headD 0 = ')'.toUInt8
    · rw [if_pos hq, if_pos hq, if_pos (by rw [hw, decide_eq_true hq]; rfl)]
      refine simulates_ok ⟨hst.err, fun _ => congrArg List.tail hskip,
        fun _ => congrArg (fun l => skip (List.tail l)) hskip, fun h => ?_⟩
      rw [hw] at h
      cases h
    · have hopen : ¬ (o.whole && decide ((skip s).headD 0 = ')'.toUInt8)) = true := by
        rw [decide_eq_false hq, Bool.and_false]
        exact Bool.false_ne_true
      rw [if_neg hq, if_neg hq, if_neg hopen]
      exact ⟨_, rfl, hst.fail fun _ => skip_skip s⟩

section Step

variable (ih : SimAt A n)
include ih

/-- A factor is parsed as it is read. -/
lemma SimAt.factor_succ (h : read (n + 1) .factor s = some (d, rest)) :
    Simulates (A.run d) rest (A.parse (n + 1) .factor ⟨s, 0⟩) := by
  have hpeek : (calcSkipWs ⟨s, 0⟩).peek = (skip s).headD 0 := rfl
  have hadv : (calcSkipWs ⟨s, 0⟩).advance = ⟨(skip s).tail, 0⟩ := rfl
  rw [Arith.parse, hpeek, hadv]
  rcases read_factor_cases h with ⟨hp, d', e, rfl⟩ | ⟨hp, d', e, rfl⟩ | ⟨hp, d', s', e, hclose⟩ |
    ⟨h1, h2, h3, e⟩
  · rw [if_pos hp, Arith.run]
    exact ih.parse _ _ _ _ e
  · rw [if_neg (by rw [hp]; decide), if_pos hp, Arith.run]
    refine (ih.parse _ _ _ _ e).bind fun o c _ hst => ?_
    cases A.round (-o.value) with
    | error e => rfl
    | ok v => exact simulates_ok (hst.setValue v)
  · rw [if_neg (by rw [hp]; decide), if_neg (by rw [hp]; decide), if_pos hp]
    obtain ⟨rfl, rfl⟩ : d = .paren (decide ((skip s').headD 0 = ')'.toUInt8)) d' ∧
        rest = (readClose d' s').2 := ⟨by rw [← readClose_fst, hclose], by rw [hclose]⟩
    exact (ih.parse _ _ _ _ e).bind fun o c _ hst => simulates_close hst
  · rw [if_neg h1, if_neg h2, if_neg h3]
    exact simulates_number e

/-- A term or an expression is parsed as it is read. -/
lemma SimAt.chain_succ (hlev : lev ≠ .factor) (h : read (n + 1) lev s = some (d, rest)) :
    Simulates (A.run d) rest (A.parse (n + 1) lev ⟨s, 0⟩) := by
  have hparse : A.parse (n + 1) lev ⟨s, 0⟩ =
      (A.parse n lev.operand ⟨s, 0⟩).bind fun p => A.loop n lev p.1 p.2 := by
    cases lev with
    | factor => exact absurd rfl hlev
    | term => rw [Arith.parse, Level.operand]
    | expr => rw [Arith.parse, Level.operand]
  rw [read_chain hlev] at h
  obtain ⟨p, e, hl⟩ := Option.bind_eq_some_iff.mp h
  have hsim := ih.parse _ _ _ _ e
  rw [hparse]
  cases hrun : A.run p.1 with
  | error e =>
    rw [hrun] at hsim
    have hp : A.parse n lev.operand ⟨s, 0⟩ = .error e := hsim
    rw [hp, run_readLoop_error hl hrun]
    rfl
  | ok o =>
    rw [hrun] at hsim
    obtain ⟨c, hp, hst⟩ := hsim
    rw [hp]
    exact ih.resume hst hl hrun

/-- The loop of the parser goes as the loop of the reader. After an operator, both read an operand;
the step of the parser on the two values is the run of the new draft. -/
lemma SimAt.loop_succ (h : readLoop (n + 1) lev left s = some (d, rest)) {v : ℤ}
    (hrun : A.run left = .ok ⟨v, 0, true⟩) :
    Simulates (A.run d) rest (A.loop (n + 1) lev v ⟨s, 0⟩) := by
  have hpeek : (calcSkipWs ⟨s, 0⟩).peek = (skip s).headD 0 := rfl
  have hadv : (calcSkipWs ⟨s, 0⟩).advance = ⟨(skip s).tail, 0⟩ := rfl
  obtain ⟨hclean, -⟩ := run_clean hrun rfl
  rw [Arith.loop, if_neg (not_not.mpr rfl), hpeek, hadv]
  rcases readLoop_cases h with ⟨hf, -⟩ | ⟨-, ho, rfl, rfl⟩ | ⟨op, r, s', -, ho, e, hl⟩
  · rw [hclean] at hf
    cases hf
  · rw [ho, hrun]
    exact ⟨_, rfl, rfl, fun _ => rfl, fun _ => rfl, fun hw => (by cases hw)⟩
  · rw [ho]
    have hsim := ih.parse _ _ _ _ e
    have hbin : A.run (.bin op left r) = (A.run r).bind fun o' =>
        (A.step op v o'.value).bind fun x => .ok (o'.apply x) := run_bin_of_fine hrun rfl op r
    dsimp only
    cases hr : A.run r with
    | error e =>
      rw [hr] at hsim hbin
      have hp : A.parse n lev.operand ⟨(skip s).tail, 0⟩ = .error e := hsim
      rw [hp, run_readLoop_error hl hbin]
      rfl
    | ok o =>
      rw [hr] at hsim hbin
      obtain ⟨c, hp, hst⟩ := hsim
      rw [hp]
      change Simulates _ _ ((A.step op v o.value).bind (after (A.loop n lev) c))
      cases hstep : A.step op v o.value with
      | error e =>
        have hbin' : A.run (.bin op left r) = .error e := by
          rw [hbin]
          change (A.step op v o.value).bind _ = _
          rw [hstep]
          rfl
        rw [run_readLoop_error hl hbin']
        rfl
      | ok x =>
        have hbin' : A.run (.bin op left r) = .ok (o.apply x) := by
          rw [hbin]
          change (A.step op v o.value).bind _ = _
          rw [hstep]
          rfl
        cases x with
        | none =>
          have hst' : Stands (o.apply none) s' { c with err := 2 } :=
            ⟨rfl, fun h0 => (by cases h0), hst.whole, hst.ahead⟩
          exact hst'.stuck hl hbin' two_ne_zero
        | some v' => exact ih.resume (hst.setValue v') hl hbin'

end Step

/-- **The simulation.** On a text that is read as a draft, the parser does what `Arith.run` says.

**Proof sketch.** Induction on the bound. The parser and the reader go the same way until an error.
Then the parser stops, and the reader may go on by operators and operands that change nothing
(`Stands.stuck`). -/
lemma simAt (A : Arith) (n : ℕ) : SimAt A n := by
  induction n with
  | zero => exact ⟨fun _ _ _ _ h => (by cases h), fun _ _ _ _ _ _ h => (by cases h)⟩
  | succ n ih =>
    refine ⟨fun lev s d rest h => ?_, fun lev left s d rest v h hrun => ih.loop_succ h hrun⟩
    by_cases hlev : lev = .factor
    · subst hlev
      exact ih.factor_succ h
    · exact ih.chain_succ hlev h

end Simulation

/-! ## The command -/

namespace Arith

variable {A : Arith} {s : List UInt8}

/-- The parser on a text. -/
lemma simulates_draft (A : Arith) (s : List UInt8) :
    Simulates (A.run (draft s).1) (draft s).2 (A.parse (calcFuel s) .expr ⟨s, 0⟩) :=
  (simAt A _).parse _ _ _ _ (read_draft s)

/-- The command has no result exactly when the draft has no outcome. -/
lemma shellCalc_eq_error_iff {e : Fault} :
    A.shellCalc s = .error e ↔ A.run (draft s).1 = .error e := by
  have hsim := simulates_draft A s
  rw [shellCalc]
  cases hrun : A.run (draft s).1 with
  | error e' =>
    rw [hrun] at hsim
    have hp : A.parse (calcFuel s) .expr ⟨s, 0⟩ = .error e' := hsim
    rw [hp]
    change Except.error e' = Except.error e ↔ _
    simp only [Except.error.injEq]
  | ok o =>
    rw [hrun] at hsim
    obtain ⟨c, hp, -⟩ := hsim
    rw [hp]
    exact ⟨fun h => (by cases h), fun h => (by cases h)⟩

/-- The result of the command: what is left behind a draft without an error is an error. -/
lemma shellCalc_of_run {o : Outcome} (hs : 0 ∉ s) (hrun : A.run (draft s).1 = .ok o) :
    A.shellCalc s =
      .ok (o.value, if o.err = 0 ∧ skip (draft s).2 ≠ [] then 1 else o.err) := by
  have hsim := simulates_draft A s
  rw [hrun] at hsim
  obtain ⟨c, hp, hst⟩ := hsim
  rw [shellCalc, hp]
  change Except.ok (o.value, if (skip c.rest).headD 0 ≠ 0 ∧ c.err = 0 then 1 else c.err) = _
  rw [hst.err]
  by_cases h0 : o.err = 0
  · -- the rest is a part of the text, so no zero stands in it
    obtain ⟨hclean, -⟩ := run_clean hrun h0
    obtain ⟨u, w, -, -, e⟩ := (readSound _).read _ _ _ (draft s).2 (read_draft s) hclean
    obtain ⟨w', -, e'⟩ := exists_skip (draft s).2
    have hmem : (0 : UInt8) ∉ skip (draft s).2 := fun h => hs <| by
      rw [e, e']
      simp [h]
    have hhead : (skip (draft s).2).headD 0 ≠ 0 ↔ skip (draft s).2 ≠ [] := by
      cases hl : skip (draft s).2 with
      | nil => simp
      | cons ch l =>
        rw [hl] at hmem
        simp only [List.headD_cons, ne_eq, reduceCtorEq, not_false_eq_true, iff_true]
        rintro rfl
        exact hmem (List.mem_cons_self ..)
    rw [hst.fine h0]
    simp only [hhead, h0, and_true, true_and]
  · rw [if_neg fun h => h0 h.2, if_neg fun h => h0 h.1]

/-- What the command accepts: nothing is missing in the draft and nothing is left behind it. -/
lemma draft_of_accepts {v : ℤ} (hs : 0 ∉ s) (h : A.shellCalc s = .ok (v, 0)) :
    (draft s).1.clean = true ∧ skip (draft s).2 = [] ∧ A.run (draft s).1 = .ok ⟨v, 0, true⟩ := by
  cases hrun : A.run (draft s).1 with
  | error e =>
    rw [shellCalc_eq_error_iff.mpr hrun] at h
    cases h
  | ok o =>
    rw [shellCalc_of_run hs hrun] at h
    simp only [Except.ok.injEq, Prod.mk.injEq] at h
    obtain ⟨hv, h0⟩ := h
    split_ifs at h0 with hrest
    obtain ⟨hclean, hwhole⟩ := run_clean hrun h0
    refine ⟨hclean, by_contra fun hne => hrest ⟨h0, hne⟩, ?_⟩
    rw [← hv, ← h0, ← hwhole]

/-! ### Ends -/

lemma bind_ne_timeout {α β : Type} {x : Except Fault α} {f : α → Except Fault β}
    (hx : x ≠ .error .timeout) (hf : ∀ a, f a ≠ .error .timeout) : x.bind f ≠ .error .timeout := by
  cases x with
  | error e => exact fun h => hx (by cases h; rfl)
  | ok a => exact hf a

lemma idiv_map_ne_timeout (l r : ℤ) (f : ℤ × ℤ → Option ℤ) :
    (idiv l r).map f ≠ .error .timeout := by
  rw [idiv]
  split_ifs <;> simp [Except.map]

/-- An operator does not run out of fuel. -/
lemma step_ne_timeout (hround : ∀ v, A.round v ≠ .error .timeout) (op : BinOp) (l r : ℤ) :
    A.step op l r ≠ .error .timeout := by
  have hmap : ∀ v, (A.round v).map some ≠ .error .timeout := fun v =>
    bind_ne_timeout (hround v) fun a => by simp
  cases op with
  | add => exact hmap _
  | sub => exact hmap _
  | mul => exact hmap _
  | div =>
    rw [step]
    split_ifs
    · simp
    · exact idiv_map_ne_timeout _ _ _
  | rem =>
    rw [step]
    split_ifs
    · simp
    · exact idiv_map_ne_timeout _ _ _

lemma digits_ne_timeout (hdigit : ∀ v, A.digit v ≠ .error .timeout) (hex : Bool)
    (ds : List UInt8) (val : ℕ) : A.digits hex ds val ≠ .error .timeout := by
  induction ds generalizing val with
  | nil => simp [digits]
  | cons ch ds ih => exact bind_ne_timeout (hdigit _) ih

/-- A draft has an outcome or a fault of the arithmetic. -/
lemma run_ne_timeout (hdigit : ∀ v, A.digit v ≠ .error .timeout)
    (hround : ∀ v, A.round v ≠ .error .timeout) (d : Draft) : A.run d ≠ .error .timeout := by
  induction d with
  | num hex ds => exact bind_ne_timeout (digits_ne_timeout hdigit hex ds 0) fun v => by simp
  | pos d ih => exact ih
  | neg d ih => exact bind_ne_timeout ih fun o => bind_ne_timeout (hround _) fun v => by simp
  | paren closed d ih => exact bind_ne_timeout ih fun o => by simp
  | bin op l r ihl ihr =>
    refine bind_ne_timeout ihl fun o => ?_
    split_ifs
    · simp
    · exact bind_ne_timeout ihr fun o' =>
        bind_ne_timeout (step_ne_timeout hround _ _ _) fun x => by simp

end Arith

end BengalTiger.Calc
