import BengalTiger.Common
import BengalTiger.Lib.Numeral

set_option autoImplicit false

/-!
# The calculator

The recursive-descent calculator behind the `calc` command of `kernel/shell.c`, and the expressions
that it is for.

The parser works on the text from the current position on; the end of the list is the terminating
zero. Values are of type `int`: an operation whose result does not fit is undefined, and a division
or remainder whose quotient does not fit raises a divide error in the processor. Such a run has no
result. The recursion is bounded by a number that grows with the text.

Expressions are generated from the grammar of the command, with blanks and tabs before every token
and at the end. An expression is read as a tree, whose value is an integer of any size.

## Main definitions

* `Calc.calcParseFactor`, `calcParseTerm`, `calcParseExpr`, `shellCalc` — the parser.
* `Calc.Tree`, `Calc.Tree.eval` — expressions and their values.
* `Calc.Gen`, `Calc.Generates` — the grammar.
-/

namespace BengalTiger.Calc

/-! ## Values of type `int` -/

/-- Why a run has no result: an operation is undefined, the processor raises a divide error, or the
bound on the recursion is reached. -/
inductive Fault
  | overflow
  | divide
  | timeout
  deriving DecidableEq, Repr

/-- `INT_MIN`. -/
def intMin : ℤ := -2147483648

/-- `INT_MAX`. -/
def intMax : ℤ := 2147483647

/-- The result of an operation of type `int`. -/
def toInt (v : ℤ) : Except Fault ℤ :=
  if intMin ≤ v ∧ v ≤ intMax then .ok v else .error .overflow

/-- `left / right` for `right != 0`. -/
def intDiv (left right : ℤ) : Except Fault ℤ :=
  if left = intMin ∧ right = -1 then .error .divide else .ok (left.tdiv right)

/-- `left % right` for `right != 0`; the processor divides, so the quotient has to fit. -/
def intMod (left right : ℤ) : Except Fault ℤ :=
  if left = intMin ∧ right = -1 then .error .divide else .ok (left.tmod right)

/-! ## The parser -/

/-- `calc_ctx_t`: the text from `pos` on, and `err`. -/
structure Ctx where
  rest : List UInt8
  err : ℕ

/-- `c->s[c->pos]`. -/
def Ctx.peek (c : Ctx) : UInt8 := c.rest.headD 0

/-- `c->pos++`. -/
def Ctx.advance (c : Ctx) : Ctx := { c with rest := c.rest.tail }

/-- The characters between tokens. -/
def isBlank (ch : UInt8) : Bool := ch = ' '.toUInt8 ∨ ch = '\t'.toUInt8

/-- `calc_skip_ws`. -/
def calcSkipWs (c : Ctx) : Ctx := { c with rest := c.rest.dropWhile isBlank }

/-- The value of a decimal digit. -/
def decDigit (ch : UInt8) : Option ℕ :=
  if '0'.toUInt8 ≤ ch ∧ ch ≤ '9'.toUInt8 then some (ch - '0'.toUInt8).toNat else none

/-- The value of a hexadecimal digit. -/
def hexDigit (ch : UInt8) : Option ℕ :=
  if '0'.toUInt8 ≤ ch ∧ ch ≤ '9'.toUInt8 then some (ch - '0'.toUInt8).toNat
  else if 'a'.toUInt8 ≤ ch ∧ ch ≤ 'f'.toUInt8 then some (10 + (ch - 'a'.toUInt8).toNat)
  else if 'A'.toUInt8 ≤ ch ∧ ch ≤ 'F'.toUInt8 then some (10 + (ch - 'A'.toUInt8).toNat)
  else none

/-- The two loops over the digits of a number, with the update of `val`: the value, the number of
digits and the text behind them. -/
def numLoop (digit : UInt8 → Option ℕ) (step : ℕ → ℕ → ℕ) :
    List UInt8 → ℕ → ℕ → Except Fault (ℕ × ℕ × List UInt8)
  | [], val, digits => .ok (val, digits, [])
  | ch :: rest, val, digits =>
    match digit ch with
    | none => .ok (val, digits, ch :: rest)
    | some d =>
      if step val d ≤ 2147483647 then numLoop digit step rest (step val d) (digits + 1)
      else .error .overflow

/-- `val = val * 10 + d`. -/
def decStep (val d : ℕ) : ℕ := val * 10 + d

/-- `val = (val << 4) | d`. -/
def hexStep (val d : ℕ) : ℕ := (val <<< 4) ||| d

/-- The last part of `calc_parse_factor`: a number. -/
def calcNumber (c : Ctx) : Except Fault (ℤ × Ctx) :=
  (if c.peek = '0'.toUInt8 ∧ (c.advance.peek = 'x'.toUInt8 ∨ c.advance.peek = 'X'.toUInt8) then
    numLoop hexDigit hexStep (c.rest.drop 2) 0 0
  else numLoop decDigit decStep c.rest 0 0).bind fun (val, digits, rest) =>
  .ok (val, { rest := rest, err := if digits = 0 then 1 else c.err })

mutual

/-- `calc_parse_factor`. -/
def calcParseFactor : ℕ → Ctx → Except Fault (ℤ × Ctx)
  | 0, _ => .error .timeout
  | n + 1, c =>
    let c := calcSkipWs c
    if c.peek = '+'.toUInt8 then calcParseFactor n c.advance
    else if c.peek = '-'.toUInt8 then
      (calcParseFactor n c.advance).bind fun (v, c) => (toInt (-v)).bind fun v => .ok (v, c)
    else if c.peek = '('.toUInt8 then
      (calcParseExpr n c.advance).bind fun (v, c) =>
        let c := calcSkipWs c
        if c.peek = ')'.toUInt8 then .ok (v, c.advance) else .ok (v, { c with err := 1 })
    else calcNumber c

/-- `calc_parse_term`. -/
def calcParseTerm : ℕ → Ctx → Except Fault (ℤ × Ctx)
  | 0, _ => .error .timeout
  | n + 1, c => (calcParseFactor n c).bind fun (left, c) => termLoop n left c

/-- The loop of `calc_parse_term`. -/
def termLoop : ℕ → ℤ → Ctx → Except Fault (ℤ × Ctx)
  | 0, _, _ => .error .timeout
  | n + 1, left, c =>
    if c.err ≠ 0 then .ok (left, c)
    else
      let c := calcSkipWs c
      let op := c.peek
      if op ≠ '*'.toUInt8 ∧ op ≠ '/'.toUInt8 ∧ op ≠ '%'.toUInt8 then .ok (left, c)
      else
        (calcParseFactor n c.advance).bind fun (right, c) =>
          if op = '*'.toUInt8 then (toInt (left * right)).bind fun left => termLoop n left c
          else if right = 0 then .ok (0, { c with err := 2 })
          else if op = '/'.toUInt8 then (intDiv left right).bind fun left => termLoop n left c
          else (intMod left right).bind fun left => termLoop n left c

/-- `calc_parse_expr`. -/
def calcParseExpr : ℕ → Ctx → Except Fault (ℤ × Ctx)
  | 0, _ => .error .timeout
  | n + 1, c => (calcParseTerm n c).bind fun (left, c) => exprLoop n left c

/-- The loop of `calc_parse_expr`. -/
def exprLoop : ℕ → ℤ → Ctx → Except Fault (ℤ × Ctx)
  | 0, _, _ => .error .timeout
  | n + 1, left, c =>
    if c.err ≠ 0 then .ok (left, c)
    else
      let c := calcSkipWs c
      let op := c.peek
      if op ≠ '+'.toUInt8 ∧ op ≠ '-'.toUInt8 then .ok (left, c)
      else
        (calcParseTerm n c.advance).bind fun (right, c) =>
          if op = '+'.toUInt8 then (toInt (left + right)).bind fun left => exprLoop n left c
          else (toInt (left - right)).bind fun left => exprLoop n left c

end

/-- A bound on the recursion for a text. -/
def calcFuel (s : List UInt8) : ℕ := 3 * s.length + 3

/-- The parser and the check for trailing input, as in the `calc` command: the result and `err`. -/
def shellCalc (s : List UInt8) : Except Fault (ℤ × ℕ) :=
  (calcParseExpr (calcFuel s) { rest := s, err := 0 }).bind fun (res, c) =>
    let c := calcSkipWs c
    .ok (res, if c.peek ≠ 0 ∧ c.err = 0 then 1 else c.err)

/-! ## Expressions -/

/-- The operators with two operands. -/
inductive BinOp
  | add
  | sub
  | mul
  | div
  | rem
  deriving DecidableEq

/-- An expression: literals, signs and operators. -/
inductive Tree
  | lit (n : ℕ)
  | pos (t : Tree)
  | neg (t : Tree)
  | bin (op : BinOp) (l r : Tree)

namespace BinOp

/-- The character of an operator. -/
def symbol : BinOp → UInt8
  | add => '+'.toUInt8
  | sub => '-'.toUInt8
  | mul => '*'.toUInt8
  | div => '/'.toUInt8
  | rem => '%'.toUInt8

/-- The value of an operation; the division truncates toward zero, and there is none by zero. -/
def eval (op : BinOp) (l r : ℤ) : Option ℤ :=
  match op with
  | add => some (l + r)
  | sub => some (l - r)
  | mul => some (l * r)
  | div => if r = 0 then none else some (l.tdiv r)
  | rem => if r = 0 then none else some (l.tmod r)

end BinOp

namespace Tree

/-- The value of an expression, unless a divisor evaluates to zero. -/
def eval : Tree → Option ℤ
  | lit n => some n
  | pos t => t.eval
  | neg t => t.eval.map fun v => -v
  | bin op l r => l.eval.bind fun a => r.eval.bind fun b => op.eval a b

/-- The literals and the values of all parts of an expression. -/
def values : Tree → List ℤ
  | lit n => [(n : ℤ)]
  | pos t => t.values
  | neg t => t.values ++ (neg t).eval.toList
  | bin op l r => l.values ++ r.values ++ (bin op l r).eval.toList

/-- No literal and no value leaves the range of `int`. -/
def InRange (t : Tree) : Prop := ∀ v ∈ t.values, intMin ≤ v ∧ v ≤ intMax

/-- A remainder of `INT_MIN` by `-1` is taken. -/
def MinRem : Tree → Prop
  | lit _ => False
  | pos t => t.MinRem
  | neg t => t.MinRem
  | bin op l r =>
    l.MinRem ∨ r.MinRem ∨ op = .rem ∧ l.eval = some intMin ∧ r.eval = some (-1)

end Tree

/-! ## The grammar -/

/-- The three kinds of expressions of the grammar. -/
inductive Level
  | factor
  | term
  | expr

/-- Blanks and tabs. -/
def Blanks (w : List UInt8) : Prop := ∀ ch ∈ w, isBlank ch = true

/-- The value of a run of decimal digits. -/
def decValue (ds : List UInt8) : ℕ := Numeral.value 10 (fun ch => (decDigit ch).getD 0) 0 ds

/-- The value of a run of hexadecimal digits. -/
def hexValue (ds : List UInt8) : ℕ := Numeral.value 16 (fun ch => (hexDigit ch).getD 0) 0 ds

/-- **The grammar**: an expression of a kind, read as a tree, and a text of it.

`expr = term {(+|-) term}`, `term = factor {(*|/|%) factor}` and
`factor = (+|-) factor | ( expr ) | decimal | 0x hexdigits`; repetitions associate to the left. The
`x` and the digits may be of either case. -/
inductive Gen : Level → Tree → List UInt8 → Prop
  | dec {w ds : List UInt8} (hw : Blanks w) (hne : ds ≠ [])
      (hds : ∀ ch ∈ ds, (decDigit ch).isSome) : Gen .factor (.lit (decValue ds)) (w ++ ds)
  | hex {w ds : List UInt8} {x : UInt8} (hw : Blanks w)
      (hx : x = 'x'.toUInt8 ∨ x = 'X'.toUInt8) (hne : ds ≠ [])
      (hds : ∀ ch ∈ ds, (hexDigit ch).isSome) :
      Gen .factor (.lit (hexValue ds)) (w ++ '0'.toUInt8 :: x :: ds)
  | pos {w u : List UInt8} {t : Tree} (hw : Blanks w) (h : Gen .factor t u) :
      Gen .factor (.pos t) (w ++ '+'.toUInt8 :: u)
  | neg {w u : List UInt8} {t : Tree} (hw : Blanks w) (h : Gen .factor t u) :
      Gen .factor (.neg t) (w ++ '-'.toUInt8 :: u)
  | paren {w w' u : List UInt8} {t : Tree} (hw : Blanks w) (h : Gen .expr t u) (hw' : Blanks w') :
      Gen .factor t (w ++ '('.toUInt8 :: (u ++ (w' ++ [')'.toUInt8])))
  | factor {u : List UInt8} {t : Tree} (h : Gen .factor t u) : Gen .term t u
  | mul {u w u' : List UInt8} {l r : Tree} {op : BinOp} (hop : op ∈ [.mul, .div, .rem])
      (hl : Gen .term l u) (hw : Blanks w) (hr : Gen .factor r u') :
      Gen .term (.bin op l r) (u ++ (w ++ op.symbol :: u'))
  | term {u : List UInt8} {t : Tree} (h : Gen .term t u) : Gen .expr t u
  | add {u w u' : List UInt8} {l r : Tree} {op : BinOp} (hop : op ∈ [.add, .sub])
      (hl : Gen .expr l u) (hw : Blanks w) (hr : Gen .term r u') :
      Gen .expr (.bin op l r) (u ++ (w ++ op.symbol :: u'))

/-- The text is an expression with the given tree. -/
def Generates (t : Tree) (s : List UInt8) : Prop :=
  ∃ u w, s = u ++ w ∧ Gen .expr t u ∧ Blanks w

end BengalTiger.Calc
