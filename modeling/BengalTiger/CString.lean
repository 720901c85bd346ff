import Mathlib.Data.List.TakeWhile
import BengalTiger.Common

set_option autoImplicit false

/-!
# Strings and number texts

The string routines of `kernel/common.c`. A C string is the list of its bytes before the
terminator; `cstr` cuts a byte list at its first NUL, which is what a `while (*s)` loop reads.

## Main definitions

* `cstr` — the bytes that a loop over a C string visits.
* `kUtoa`, `kItoa` — the number texts of `k_utoa` and `k_itoa`.

## Main results

* `zero_not_mem_kUtoa`, `zero_not_mem_kItoa` — number texts hold no NUL.
-/

namespace BengalTiger

/-- The bytes of a C string constant. -/
def ascii (cs : List Char) : List UInt8 := cs.map Char.toUInt8

/-- The newline character. -/
def newline : UInt8 := 10

/-- The bytes before the first NUL. -/
def cstr (s : List UInt8) : List UInt8 := s.takeWhile (· ≠ 0)

/-- A C string holds no NUL. -/
lemma zero_not_mem_cstr (s : List UInt8) : 0 ∉ cstr s := by
  intro h
  simpa using List.mem_takeWhile_imp h

/-- A list without NUL is read whole. -/
lemma cstr_eq_self {s : List UInt8} (h : 0 ∉ s) : cstr s = s := by
  have hall : ∀ c ∈ s, decide (c ≠ 0) = true := by
    intro c hc
    simpa using ne_of_mem_of_not_mem hc h
  exact List.takeWhile_eq_self_iff.2 hall

/-! ## Number texts -/

/-- The table `digits` of `k_utoa`. -/
def digits : List UInt8 :=
  ascii ['0', '1', '2', '3', '4', '5', '6', '7', '8', '9', 'A', 'B', 'C', 'D', 'E', 'F']

/-- The digit loop of `k_utoa` and the reversal after it: `acc` holds the digits found so far,
the latest first. A `uint32_t` has at most 32 digits in any base. -/
def utoaLoop (base : ℕ) : ℕ → ℕ → List UInt8 → List UInt8
  | 0, _, acc => acc
  | fuel + 1, val, acc =>
    if val = 0 then acc else utoaLoop base fuel (val / base) (digits.getD (val % base) 0 :: acc)

/-- `k_utoa`: the text of `val`; a base outside 2..16 is read as 10. -/
def kUtoa (val base : ℕ) : List UInt8 :=
  if val = 0 then ascii ['0']
  else utoaLoop (if base < 2 ∨ 16 < base then 10 else base) 32 val []

/-- `k_itoa`: negative numbers get a sign in base 10 and wrap around in the other bases. -/
def kItoa (val : ℤ) (base : ℕ) : List UInt8 :=
  if val < 0 ∧ base = 10 then ascii ['-'] ++ kUtoa (u32 (-val).toNat) base
  else kUtoa (val % 4294967296).toNat base

/-- Every digit is a character. -/
lemma digits_getD_ne_zero {i : ℕ} (h : i < 16) : digits.getD i 0 ≠ 0 := by
  decide +revert

/-- The digit loop writes no NUL. -/
lemma zero_not_mem_utoaLoop {base : ℕ} (h2 : 2 ≤ base) (h16 : base ≤ 16) (fuel val : ℕ)
    {acc : List UInt8} (h : 0 ∉ acc) : 0 ∉ utoaLoop base fuel val acc := by
  induction fuel generalizing val acc with
  | zero => exact h
  | succ fuel ih =>
    unfold utoaLoop
    split_ifs
    · exact h
    · apply ih
      have hd : val % base < 16 := lt_of_lt_of_le (Nat.mod_lt _ (by omega)) h16
      rw [List.mem_cons, not_or]
      exact ⟨(digits_getD_ne_zero hd).symm, h⟩

/-- `k_utoa` writes no NUL before the terminator. -/
lemma zero_not_mem_kUtoa (val base : ℕ) : 0 ∉ kUtoa val base := by
  unfold kUtoa
  split_ifs with h0 hb
  · decide
  · apply zero_not_mem_utoaLoop _ _ 32 val List.not_mem_nil <;> omega
  · apply zero_not_mem_utoaLoop _ _ 32 val List.not_mem_nil <;> omega

/-- `k_itoa` writes no NUL before the terminator. -/
lemma zero_not_mem_kItoa (val : ℤ) (base : ℕ) : 0 ∉ kItoa val base := by
  unfold kItoa
  split_ifs
  · rw [List.mem_append, not_or]
    exact ⟨by decide, zero_not_mem_kUtoa _ _⟩
  · exact zero_not_mem_kUtoa _ _

end BengalTiger
