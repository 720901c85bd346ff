import Mathlib.Data.List.GetD
import Mathlib.Data.Nat.Digits.Lemmas
import BengalTiger.CString
import BengalTiger.Lib.ByteMem
import BengalTiger.Lib.Numeral
import BengalTiger.Shell.CalcRun
import BengalTiger.Shell.Command

set_option autoImplicit false

/-!
# Numbers and their texts

`k_utoa` and `k_itoa` of `kernel/common.c` with the memory that they write: the digits go to a
scratch buffer of 36 bytes, the last one first, and from there to the caller's buffer. The loops
never leave the scratch buffer, and what they write is the text that other modules use. `k_atoi`
reads the text of a number back, also that of the smallest one, whose magnitude is no `int`, if the
arithmetic is modulo `2 ^ 32`.

## Main definitions

* `utoaScratch`, `utoaOut` — the loops of `k_utoa`;
  `kUtoaMem`, `kItoaMem` — the functions on memory.
* `kAtoi32` — `k_atoi` modulo `2 ^ 32`.
* `IsNumeral` — a numeral without superfluous zeros.

## Main results

* `kUtoaMem_eq`, `kItoaMem_eq` — what the functions write.
* `kAtoi32_of_kAtoi` — without overflow the arithmetic does not matter.
* `number_texts` — the texts are numerals, and are read back.
-/

namespace BengalTiger

open ByteMem Calc Function List

/-! ## The code -/

/-- The digit loop of `k_utoa` with `room` bytes left in `tmp`: the bytes that it writes; `none` for
a write behind the end of `tmp`. -/
def utoaScratch (base : ℕ) : ℕ → ℕ → Option (List UInt8)
  | 0, val => if val > 0 then none else some []
  | room + 1, val =>
    if val > 0 then
      (utoaScratch base room (val / base)).map (digits.getD (val % base) 0 :: ·)
    else some []

/-- The loop that takes the digits from `tmp`, and the terminator behind them. -/
def utoaOut (tmp : List UInt8) (buf : ℕ) : ℕ → ℕ → Mem → Mem
  | 0, out, m => update m (buf + out) 0
  | pos + 1, out, m =>
    utoaOut tmp buf pos (out + 1) (update m (buf + out) (tmp.getD pos 0))

/-- `k_utoa` on memory. -/
def kUtoaMem (m : Mem) (val buf base : ℕ) : Option Mem :=
  let base := if base < 2 ∨ 16 < base then 10 else base
  if val = 0 then some (update (update m buf '0'.toUInt8) (buf + 1) 0)
  else (utoaScratch base 36 val).map fun tmp => utoaOut tmp buf tmp.length 0 m

/-- `k_itoa` on memory. -/
def kItoaMem (m : Mem) (val : ℤ) (buf base : ℕ) : Option Mem :=
  if val < 0 ∧ base = 10 then
    kUtoaMem (update m buf '-'.toUInt8) (u32 (-val).toNat) (buf + 1) base
  else kUtoaMem m (val % 4294967296).toNat buf base

/-- The loop of `k_atoi` modulo `2 ^ 32`. -/
def atoiLoop : List UInt8 → ℤ → ℤ
  | [], val => val
  | ch :: s, val => (decDigit ch).elim val fun d => atoiLoop s (wrap (val * 10 + d))

/-- `k_atoi` modulo `2 ^ 32`. -/
def kAtoi32 (s : List UInt8) : ℤ :=
  let s := s.dropWhile isBlank
  let sign : ℤ := if s.headD 0 = '-'.toUInt8 then -1 else 1
  let s := if s.headD 0 = '-'.toUInt8 ∨ s.headD 0 = '+'.toUInt8 then s.tail else s
  wrap (atoiLoop s 0 * sign)

/-! ## Writing -/

variable {base val : ℕ}

/-- The digit of a value. -/
def digitChar (d : ℕ) : UInt8 := digits.getD d 0

/-- The digit loop finds the digits from the last one on, if there is room for them.

**Proof sketch.** Induction on the room. A value below `base ^ (room + 1)` is below `base ^ room`
after the division. -/
lemma utoaScratch_eq (hbase : 1 < base) {room : ℕ} (h : val < base ^ room) :
    utoaScratch base room val = some ((Nat.digits base val).map digitChar) := by
  induction room generalizing val with
  | zero =>
    have hval : val = 0 := by simpa using h
    rw [hval, Nat.digits_zero]
    rfl
  | succ room ih =>
    rw [utoaScratch]
    split_ifs with hpos
    · have hdiv : val / base < base ^ room :=
        Nat.div_lt_of_lt_mul (by rwa [Nat.pow_succ'] at h)
      rw [ih hdiv, Nat.digits_def' hbase hpos, Option.map_some, map_cons]
      rfl
    · have hval : val = 0 := by omega
      rw [hval, Nat.digits_zero]
      rfl

/-- The digit loop of the text, if there is fuel for all digits. -/
lemma utoaLoop_eq (hbase : 1 < base) {fuel : ℕ} (h : val < base ^ fuel) (acc : List UInt8) :
    utoaLoop base fuel val acc = Numeral.text base digitChar val ++ acc := by
  induction fuel generalizing val acc with
  | zero =>
    have hval : val = 0 := by simpa using h
    rw [hval, Numeral.text, Nat.digits_zero]
    rfl
  | succ fuel ih =>
    rw [utoaLoop]
    split_ifs with hval
    · rw [hval, Numeral.text, Nat.digits_zero]
      rfl
    · have hdiv : val / base < base ^ fuel :=
        Nat.div_lt_of_lt_mul (by rwa [Nat.pow_succ'] at h)
      rw [ih hdiv, Numeral.text, Numeral.text, Nat.digits_def' hbase (Nat.pos_of_ne_zero hval),
        map_cons, reverse_cons, append_assoc]
      rfl

/-- The first byte of a write. -/
lemma write_cons (m : Mem) (a : ℕ) (b : UInt8) (bs : List UInt8) :
    write m a (b :: bs) = write (update m a b) (a + 1) bs := by
  funext x
  unfold write
  rw [length_cons]
  by_cases hx : x = a
  · rw [hx, if_pos (by omega), if_neg (by omega), Nat.sub_self, update_self]
    rfl
  · by_cases hin : a + 1 ≤ x ∧ x < a + 1 + bs.length
    · rw [if_pos (by omega), if_pos hin, show x - a = x - (a + 1) + 1 by omega, getD_cons_succ]
    · rw [if_neg (by omega), if_neg hin, update_of_ne hx]

lemma write_nil (m : Mem) (a : ℕ) : write m a [] = m := by
  funext x
  exact write_apply_of_outside m (by rw [length_nil]; omega)

/-- The second loop writes the digits in the other order. -/
lemma utoaOut_eq {tmp : List UInt8} (buf : ℕ) {pos : ℕ} (hpos : pos ≤ tmp.length) (out : ℕ)
    (m : Mem) :
    utoaOut tmp buf pos out m = write m (buf + out) ((tmp.take pos).reverse ++ [0]) := by
  induction pos generalizing out m with
  | zero => rw [utoaOut, take_zero, reverse_nil, nil_append, write_cons, write_nil]
  | succ pos ih =>
    have hlt : pos < tmp.length := by omega
    have htake : (tmp.take (pos + 1)).reverse = tmp.getD pos 0 :: (tmp.take pos).reverse := by
      rw [take_succ_eq_append_getElem hlt, reverse_append, getD_eq_getElem _ _ hlt]
      rfl
    rw [utoaOut, ih (by omega), htake, cons_append, write_cons, Nat.add_assoc]

/-- The base that `k_utoa` uses. -/
lemma base_range (base : ℕ) : 2 ≤ (if base < 2 ∨ 16 < base then 10 else base) ∧
    (if base < 2 ∨ 16 < base then 10 else base) ≤ 16 := by
  split_ifs <;> omega

/-- A 32-bit number has at most 32 digits. -/
lemma lt_pow_of_le (h2 : 2 ≤ base) (hval : val < 4294967296) : val < base ^ 32 :=
  hval.trans_le (show 2 ^ 32 ≤ base ^ 32 from Nat.pow_le_pow_left h2 32)

/-- The text of a number other than zero. -/
lemma kUtoa_eq (hval : val < 4294967296) (h0 : val ≠ 0) : kUtoa val base =
    Numeral.text (if base < 2 ∨ 16 < base then 10 else base) digitChar val := by
  have h2 := (base_range base).1
  rw [kUtoa, if_neg h0, utoaLoop_eq h2 (lt_pow_of_le h2 hval), append_nil]

/-- The digits fit in the scratch buffer. -/
lemma utoaScratch_of_lt (h2 : 2 ≤ base) (hval : val < 4294967296) :
    utoaScratch base 36 val = some ((Nat.digits base val).map digitChar) :=
  utoaScratch_eq h2 ((lt_pow_of_le h2 hval).trans_le (Nat.pow_le_pow_right (by omega) (by decide)))

/-- **`k_utoa` writes the text and a NUL**, and nothing else. -/
theorem kUtoaMem_eq (hval : val < 4294967296) (m : Mem) (buf base : ℕ) :
    kUtoaMem m val buf base = some (write m buf (kUtoa val base ++ [0])) := by
  unfold kUtoaMem
  by_cases h0 : val = 0
  · have htext : kUtoa 0 base = ['0'.toUInt8] := rfl
    rw [if_pos h0, h0, htext, singleton_append, write_cons, write_cons, write_nil]
  · have h2 := (base_range base).1
    rw [if_neg h0, utoaScratch_of_lt h2 hval, Option.map_some, utoaOut_eq buf le_rfl,
      take_length, Nat.add_zero, kUtoa_eq hval h0, Numeral.text]

/-- **`k_itoa` writes the text and a NUL**, and nothing else. -/
theorem kItoaMem_eq (m : Mem) (val : ℤ) (buf base : ℕ) :
    kItoaMem m val buf base = some (write m buf (kItoa val base ++ [0])) := by
  unfold kItoaMem kItoa
  split_ifs
  · have hsign : ascii ['-'] = ['-'.toUInt8] := rfl
    rw [kUtoaMem_eq (u32_lt _), hsign, append_assoc, singleton_append, write_cons]
  · rw [kUtoaMem_eq (by omega)]

/-! ## Numerals -/

/-- The value of a digit. -/
def digitValue (ch : UInt8) : ℕ := (hexDigit ch).getD 0

/-- **A numeral** of a base: digits from `0` to `9` and `A` to `F`, without superfluous zeros. -/
structure IsNumeral (base val : ℕ) (text : List UInt8) : Prop where
  isDigit : ∀ ch ∈ text, ∃ d < base, ch = digits.getD d 0
  value_eq : Numeral.value base digitValue 0 text = val
  ne_nil : text ≠ []
  first : text.head? = some '0'.toUInt8 → text = ['0'.toUInt8]

lemma digitValue_digitChar {d : ℕ} (h : d < 16) : digitValue (digitChar d) = d := by
  have hall : ∀ d < 16, digitValue (digitChar d) = d := by decide
  exact hall d h

/-- The text of `k_utoa` is the numeral of the value. -/
lemma isNumeral_kUtoa (h2 : 2 ≤ base) (h16 : base ≤ 16) (hval : val < 4294967296) :
    IsNumeral base val (kUtoa val base) := by
  by_cases h0 : val = 0
  · have htext : kUtoa 0 base = ['0'.toUInt8] := rfl
    have hzero : digitValue '0'.toUInt8 = 0 := by decide
    rw [h0, htext]
    refine ⟨fun ch hch => ⟨0, by omega, mem_singleton.1 hch⟩, ?_, cons_ne_nil _ _,
      fun _ => rfl⟩
    rw [Numeral.value_cons, Numeral.value_nil, Nat.zero_mul, hzero]
  · have hne : Nat.digits base val ≠ [] := Nat.digits_ne_nil_iff_ne_zero.2 h0
    rw [kUtoa_eq hval h0, if_neg (by omega)]
    refine ⟨fun ch hch => ?_, ?_, ?_, fun hhead => ?_⟩
    · rw [Numeral.text, mem_reverse, mem_map] at hch
      obtain ⟨d, hd, rfl⟩ := hch
      exact ⟨d, Nat.digits_lt_base h2 hd, rfl⟩
    · exact Numeral.value_text base digitValue h2
        (fun d hd => digitValue_digitChar (by omega)) val
    · rw [Numeral.text]
      simpa using hne
    · -- the first digit is the last one found, which is not zero
      rw [Numeral.text, head?_reverse, getLast?_map,
        getLast?_eq_some_getLast hne, Option.map_some, Option.some.injEq] at hhead
      have hlt := Nat.digits_lt_base h2 (getLast_mem hne)
      have hvalue := congrArg digitValue hhead
      rw [digitValue_digitChar (by omega)] at hvalue
      exact absurd hvalue (Nat.getLast_digit_ne_zero base h0)

/-- The digits fit into the buffer of 32 characters. -/
lemma length_kUtoa (h2 : 2 ≤ base) (h16 : base ≤ 16) (hval : val < 4294967296) :
    (kUtoa val base).length ≤ 32 ∧ ((Nat.digits base val).map digitChar).length ≤ 32 := by
  have hlen : (Nat.digits base val).length ≤ 32 :=
    (Nat.digits_length_le_iff h2 val).2 (lt_pow_of_le h2 hval)
  rw [length_map]
  refine ⟨?_, hlen⟩
  by_cases h0 : val = 0
  · rw [h0]
    show (ascii ['0']).length ≤ 32
    decide
  · rw [kUtoa_eq hval h0, if_neg (by omega), Numeral.text, length_reverse, length_map]
    exact hlen

/-! ## Reading -/

/-- The text does not begin with a digit. -/
def NoDigit (s : List UInt8) : Prop := ∀ ch ∈ s.head?, decDigit ch = none

lemma atoiLoop_of_noDigit {s : List UInt8} (h : NoDigit s) (val : ℤ) : atoiLoop s val = val := by
  cases s with
  | nil => rfl
  | cons ch s => rw [atoiLoop, h ch rfl, Option.elim_none]

/-- A digit may be added before or after the reduction. -/
lemma bmod_step (v d : ℤ) (n : ℕ) : (v.bmod n * 10 + d).bmod n = (v * 10 + d).bmod n := by
  rw [← Int.bmod_add_bmod, Int.bmod_mul_bmod, Int.bmod_add_bmod]

/-- The loop of `k_atoi` on digits, with a text behind them that begins otherwise. -/
lemma atoiLoop_append {ds post : List UInt8} (hds : ∀ ch ∈ ds, ∃ d < 10, ch = digits.getD d 0)
    (hpost : NoDigit post) (v : ℕ) : atoiLoop (ds ++ post) (wrap v) =
      wrap (Numeral.value 10 digitValue v ds : ℕ) := by
  induction ds generalizing v with
  | nil => exact atoiLoop_of_noDigit hpost _
  | cons ch ds ih =>
    obtain ⟨d, hd, hch⟩ := hds ch mem_cons_self
    have hread : decDigit ch = some d ∧ digitValue ch = d := by
      have hall : ∀ d < 10, decDigit (digits.getD d 0) = some d ∧
          digitValue (digits.getD d 0) = d := by decide
      rw [hch]
      exact hall d hd
    have hstep : wrap (wrap v * 10 + d) = wrap ((v * 10 + d : ℕ) : ℤ) := by
      push_cast
      exact bmod_step v d 4294967296
    rw [cons_append, atoiLoop, hread.1, Option.elim_some, hstep, Numeral.value_cons, hread.2]
    exact ih (fun c hc => hds c (mem_cons_of_mem _ hc)) _

/-- `k_atoi` behind blanks and a sign. -/
lemma kAtoi32_append {pre s : List UInt8} {ch : UInt8} (hpre : Blanks pre)
    (hch : isBlank ch = false) : kAtoi32 (pre ++ ch :: s) =
      wrap (atoiLoop (if ch = '-'.toUInt8 ∨ ch = '+'.toUInt8 then s else ch :: s) 0 *
        if ch = '-'.toUInt8 then -1 else 1) := by
  have hdrop : (pre ++ ch :: s).dropWhile isBlank = ch :: s := skip_token hpre hch
  unfold kAtoi32
  simp only [hdrop, headD_cons, tail_cons]

lemma wrap_mul (v k : ℤ) : wrap (wrap v * k) = wrap (v * k) := Int.bmod_mul_bmod

/-- The digits of a number are read back, modulo `2 ^ 32`. -/
lemma atoiLoop_kUtoa {v : ℕ} (hv : v < 4294967296) {post : List UInt8} (hpost : NoDigit post) :
    atoiLoop (kUtoa v 10 ++ post) 0 = wrap v := by
  have hnum : IsNumeral 10 v (kUtoa v 10) := isNumeral_kUtoa (by decide) (by decide) hv
  have hloop := atoiLoop_append hnum.isDigit hpost 0
  rw [hnum.value_eq] at hloop
  exact hloop

/-- **The text of an `int` is read back.** -/
lemma kAtoi32_kItoa {n : ℤ} (hn : intMin ≤ n ∧ n ≤ intMax) {pre post : List UInt8}
    (hpre : Blanks pre) (hpost : NoDigit post) : kAtoi32 (pre ++ kItoa n 10 ++ post) = n := by
  have hrange := hn
  rw [intMin, intMax] at hrange
  by_cases hneg : n < 0
  · have htext : kItoa n 10 = '-'.toUInt8 :: kUtoa (-n).toNat 10 := by
      rw [kItoa, if_pos ⟨hneg, rfl⟩, u32_of_lt (by omega)]
      rfl
    have hvalue : ((-n).toNat : ℤ) * -1 = n := by omega
    rw [htext, append_assoc, cons_append, kAtoi32_append hpre (by decide), if_pos (.inl rfl),
      if_pos rfl, atoiLoop_kUtoa (by omega) hpost, wrap_mul, hvalue, wrap_of_range hn]
  · have htext : kItoa n 10 = kUtoa n.toNat 10 := by
      rw [kItoa, if_neg (by omega)]
      congr 1
      omega
    have hnum : IsNumeral 10 n.toNat (kUtoa n.toNat 10) :=
      isNumeral_kUtoa (by decide) (by decide) (by omega)
    obtain ⟨ch, t, hcons⟩ := exists_cons_of_ne_nil hnum.ne_nil
    have hdigit : isBlank ch = false ∧ ¬ (ch = '-'.toUInt8 ∨ ch = '+'.toUInt8) := by
      obtain ⟨d, hd, hch⟩ := hnum.isDigit ch (by rw [hcons]; exact mem_cons_self)
      have hall : ∀ d < 10, isBlank (digits.getD d 0) = false ∧
          ¬ (digits.getD d 0 = '-'.toUInt8 ∨ digits.getD d 0 = '+'.toUInt8) := by decide
      rw [hch]
      exact hall d hd
    have hloop := atoiLoop_kUtoa (v := n.toNat) (by omega) hpost
    have hvalue : (n.toNat : ℤ) * 1 = n := by omega
    rw [hcons, cons_append] at hloop
    rw [htext, hcons, append_assoc, cons_append, kAtoi32_append hpre hdigit.1, if_neg hdigit.2,
      if_neg fun h => hdigit.2 (.inl h), hloop, wrap_mul, hvalue, wrap_of_range hn]

/-- The loop of `k_atoi` without overflow. -/
lemma atoiLoop_of_numLoop {s rest : List UInt8} {val v n k : ℕ}
    (h : numLoop decDigit decStep s val n = .ok (v, k, rest)) (hval : val ≤ 2147483647) :
    atoiLoop s val = v ∧ v ≤ 2147483647 := by
  induction s generalizing val n with
  | nil =>
    rw [numLoop] at h
    cases h
    exact ⟨rfl, hval⟩
  | cons ch s ih =>
    rw [numLoop] at h
    rw [atoiLoop]
    cases hch : decDigit ch with
    | none =>
      rw [hch] at h
      cases h
      exact ⟨rfl, hval⟩
    | some d =>
      rw [hch] at h
      dsimp only at h
      split_ifs at h with hle
      rw [decStep] at hle
      have hwrap : wrap ((val : ℤ) * 10 + d) = ((decStep val d : ℕ) : ℤ) := by
        rw [decStep, wrap_of_range (by rw [intMin, intMax]; omega)]
        push_cast
        rfl
      rw [Option.elim_some, hwrap]
      exact ih h hle

/-- **Without overflow** the two models of `k_atoi` agree. -/
theorem kAtoi32_of_kAtoi {s : List UInt8} {v : ℤ} (h : Shell.kAtoi s = some v) :
    kAtoi32 s = v := by
  unfold Shell.kAtoi at h
  unfold kAtoi32
  simp only at h ⊢
  split at h
  case h_1 val _ _ hloop =>
    obtain ⟨heq, hle⟩ := atoiLoop_of_numLoop hloop (by decide)
    rw [Option.some.injEq] at h
    rw [show (0 : ℤ) = ((0 : ℕ) : ℤ) from rfl, heq, h]
    refine wrap_of_range ?_
    rw [← h, intMin, intMax]
    split_ifs <;> omega
  case h_2 => cases h

/-- **Number texts.** `k_utoa` writes the numeral of every 32-bit value in every base, with a NUL
behind it, in at most 33 bytes and with at most 32 bytes of its scratch buffer. `k_atoi` reads the
text that `k_itoa` writes for an `int` back, behind any blanks and before any text that does not
begin with a digit. -/
theorem number_texts :
    (∀ (m : Mem) (val buf base : ℕ), val < 4294967296 → 2 ≤ base → base ≤ 16 →
      kUtoaMem m val buf base = some (write m buf (kUtoa val base ++ [0])) ∧
        IsNumeral base val (kUtoa val base) ∧ (kUtoa val base ++ [0]).length ≤ 33 ∧
        ∃ tmp, utoaScratch base 36 val = some tmp ∧ tmp.length ≤ 32) ∧
    ∀ (m : Mem) (n : ℤ) (buf : ℕ), intMin ≤ n ∧ n ≤ intMax →
      kItoaMem m n buf 10 = some (write m buf (kItoa n 10 ++ [0])) ∧
        ∀ pre post, Blanks pre → NoDigit post → kAtoi32 (pre ++ kItoa n 10 ++ post) = n := by
  refine ⟨fun m val buf base hval h2 h16 => ?_, fun m n buf hn => ?_⟩
  · obtain ⟨hout, htmp⟩ := length_kUtoa h2 h16 hval
    refine ⟨kUtoaMem_eq hval m buf base, isNumeral_kUtoa h2 h16 hval, ?_, _,
      utoaScratch_of_lt h2 hval, htmp⟩
    rw [length_append, length_singleton]
    omega
  · exact ⟨kItoaMem_eq m n buf 10, fun pre post hpre hpost => kAtoi32_kItoa hn hpre hpost⟩

/-- The numbers of the host test: `DEADBEEF`, and the smallest `int`, here with a text around it. -/
theorem number_texts_host :
    kUtoaMem (fun _ => 7) 0xDEADBEEF 0 16 =
        some (write (fun _ => 7) 0 (ascii "DEADBEEF".toList ++ [0])) ∧
      kItoa (-2147483648) 10 = ascii "-2147483648".toList ∧
      kAtoi32 (ascii " \t".toList ++ ascii "-2147483648".toList ++ ascii " x".toList) =
        -2147483648 := by
  have hhex : kUtoa 0xDEADBEEF 16 = ascii "DEADBEEF".toList := by decide
  have hmin : kItoa (-2147483648) 10 = ascii "-2147483648".toList := by decide
  refine ⟨?_, hmin, ?_⟩
  · rw [← hhex]
    exact (number_texts.1 _ _ 0 16 (by decide) (by decide) (by decide)).1
  · rw [← hmin]
    refine (number_texts.2 (fun _ => 7) _ 0 ⟨by decide, by decide⟩).2 _ _ ?_ ?_
    · exact all_eq_true.1 (show (ascii " \t".toList).all isBlank = true by decide)
    · intro ch hch
      have hhead : (ascii " x".toList).head? = some 0x20 := by decide
      rw [hhead] at hch
      cases hch
      decide

end BengalTiger
