import Mathlib.Algebra.Order.Monoid.Defs
import Mathlib.Data.List.Basic
import Mathlib.Data.Nat.Digits.Defs
import Mathlib.Data.Nat.ModEq

set_option autoImplicit false

/-!
# Numerals

The value of a run of digits that is read from the left: every digit multiplies the value so far by
the base and is added.

## Main definitions

* `Numeral.value` — the value after a run of digits, begun with a value.

## Main results

* `Numeral.le_value` — reading on never makes the value smaller.
* `Numeral.value_mod` — the value modulo a number.
* `Numeral.value_text` — the digits of a number, written out.
-/

namespace Numeral

variable {α : Type} (base : ℕ) (digit : α → ℕ)

/-- The value after a run of digits is read, begun with `v`. -/
def value (v : ℕ) (run : List α) : ℕ := run.foldl (fun v c => v * base + digit c) v

@[simp] lemma value_nil (v : ℕ) : value base digit v [] = v := rfl

@[simp] lemma value_cons (v : ℕ) (c : α) (run : List α) :
    value base digit v (c :: run) = value base digit (v * base + digit c) run := rfl

/-- **Reading on** never makes the value smaller. -/
lemma le_value (hbase : 0 < base) (v : ℕ) (run : List α) : v ≤ value base digit v run := by
  induction run generalizing v with
  | nil => exact le_rfl
  | cons c run ih =>
    calc v ≤ v * base := Nat.le_mul_of_pos_right v hbase
      _ ≤ v * base + digit c := Nat.le_add_right _ _
      _ ≤ value base digit v (c :: run) := ih _

/-- **Modulo a number**, only the residue of the value at the beginning counts. -/
lemma value_mod (m v : ℕ) (run : List α) :
    value base digit (v % m) run % m = value base digit v run % m := by
  induction run generalizing v with
  | nil => exact Nat.mod_mod v m
  | cons c run ih =>
    have hstep : (v % m * base + digit c) % m = (v * base + digit c) % m :=
      ((Nat.mod_modEq v m).mul_right base).add_right (digit c)
    rw [value_cons, value_cons, ← ih (v % m * base + digit c), hstep, ih]

/-- The digits of a number as characters, the first digit first. -/
def text (char : ℕ → α) (n : ℕ) : List α := ((Nat.digits base n).map char).reverse

/-- **The digits of a number have its value.** -/
lemma value_text {char : ℕ → α} (hbase : 1 < base) (h : ∀ d < base, digit (char d) = d) (n : ℕ) :
    value base digit 0 (text base char n) = n := by
  have hfold : ∀ ds : List ℕ, (∀ d ∈ ds, d < base) →
      (ds.map char).foldr (fun c v => v * base + digit c) 0 = Nat.ofDigits base ds := by
    intro ds hds
    induction ds with
    | nil => rfl
    | cons d ds ih =>
      rw [List.map_cons, List.foldr_cons, ih fun e he => hds e (List.mem_cons_of_mem _ he),
        h d (hds d List.mem_cons_self), Nat.ofDigits_cons, Nat.mul_comm, Nat.add_comm]
  rw [value, text, List.foldl_reverse, hfold _ fun d hd => Nat.digits_lt_base hbase hd,
    Nat.ofDigits_digits]

end Numeral
