import Mathlib.Logic.Basic

set_option autoImplicit false

/-!
# Specifications of programs that may stop

A program that may stop early is an `Except` value. Its specification names what holds of a
result and what holds of the reason for stopping; the rules compose specifications along the
program text.

## Main definitions

* `Exc.Sat` — a program meets a specification.

## Main results

* `Exc.Sat.bind`, `Exc.Sat.mono`, `Exc.sat_ite` — the rules.
* `Exc.bind_eq_ok` — a result of two programs one after the other.
* `Exc.Extends.bind` — more fuel for two programs one after the other.
-/

namespace Exc

variable {ε α β : Type}

/-- The program ends with a result that satisfies `Q` or stops for a reason that satisfies `E`. -/
def Sat (x : Except ε α) (E : ε → Prop) (Q : α → Prop) : Prop :=
  match x with
  | .ok a => Q a
  | .error e => E e

variable {E : ε → Prop} {Q R : α → Prop}

@[simp] lemma sat_ok {a : α} : Sat (.ok a : Except ε α) E Q ↔ Q a := Iff.rfl

@[simp] lemma sat_pure {a : α} : Sat (pure a : Except ε α) E Q ↔ Q a := Iff.rfl

@[simp] lemma sat_error {e : ε} : Sat (.error e : Except ε α) E Q ↔ E e := Iff.rfl

/-- A weaker specification. -/
lemma Sat.mono {x : Except ε α} (h : Sat x E Q) (hQ : ∀ a, Q a → R a) : Sat x E R := by
  cases x with
  | ok a => exact hQ a h
  | error e => exact h

/-- Two programs one after the other. -/
lemma Sat.bind {x : Except ε α} {f : α → Except ε β} {S : β → Prop} (hx : Sat x E Q)
    (hf : ∀ a, Q a → Sat (f a) E S) : Sat (x >>= f) E S := by
  cases x with
  | ok a => exact hf a hx
  | error e => exact hx

/-- A case distinction. -/
lemma sat_ite {c : Prop} [Decidable c] {x y : Except ε α} (hx : c → Sat x E Q)
    (hy : ¬ c → Sat y E Q) : Sat (if c then x else y) E Q := by
  by_cases h : c
  · rw [if_pos h]
    exact hx h
  · rw [if_neg h]
    exact hy h

/-- What the specification says of a result. -/
lemma Sat.of_ok {x : Except ε α} (h : Sat x E Q) {a : α} (hx : x = .ok a) : Q a := by
  rw [hx] at h
  exact h

/-- A result of two programs one after the other. -/
lemma bind_eq_ok {x : Except ε α} {f : α → Except ε β} {b : β} :
    (x >>= f) = .ok b ↔ ∃ a, x = .ok a ∧ f a = .ok b := by
  cases x with
  | ok a =>
    constructor
    · intro h
      exact ⟨a, rfl, h⟩
    · rintro ⟨a', ha, h⟩
      cases ha
      exact h
  | error e =>
    constructor
    · intro h
      cases h
    · rintro ⟨a', ha, -⟩
      cases ha

/-! ## More fuel -/

/-- `y` is `x` with more fuel: a result stays, and a program that stops for a reason in `bad` stops
for such a reason again. -/
structure Extends (bad : ε → Prop) (x y : Except ε α) : Prop where
  ok : ∀ a, x = .ok a → y = .ok a
  error : ∀ e, x = .error e → bad e → ∃ e', y = .error e' ∧ bad e'

section Extends

variable {bad : ε → Prop}

lemma Extends.refl (x : Except ε α) : Extends bad x x where
  ok _ h := h
  error e h hbad := ⟨e, h, hbad⟩

lemma Extends.trans {x y z : Except ε α} (h : Extends bad x y) (h' : Extends bad y z) :
    Extends bad x z where
  ok a ha := h'.ok a (h.ok a ha)
  error e he hbad := by
    obtain ⟨e', he', hbad'⟩ := h.error e he hbad
    exact h'.error e' he' hbad'

/-- Two programs one after the other. -/
lemma Extends.bind {x y : Except ε α} {f g : α → Except ε β} (h : Extends bad x y)
    (hfg : ∀ a, Extends bad (f a) (g a)) : Extends bad (x >>= f) (y >>= g) := by
  cases x with
  | ok a =>
    rw [h.ok a rfl]
    exact hfg a
  | error e =>
    constructor
    · intro b hb
      cases hb
    · intro e₁ he hbad
      cases he
      obtain ⟨e', he', hbad'⟩ := h.error e rfl hbad
      rw [he']
      exact ⟨e', rfl, hbad'⟩

/-- A case distinction. -/
lemma extends_ite {c : Prop} [Decidable c] {x y x' y' : Except ε α} (hx : Extends bad x x')
    (hy : Extends bad y y') : Extends bad (if c then x else y) (if c then x' else y') := by
  by_cases h : c
  · rw [if_pos h, if_pos h]
    exact hx
  · rw [if_neg h, if_neg h]
    exact hy

end Extends

end Exc
