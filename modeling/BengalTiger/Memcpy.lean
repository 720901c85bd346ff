import BengalTiger.Lib.ByteMem

set_option autoImplicit false

/-!
# Copying and filling memory

`memcpy` of `kernel/common.c`, which is `memmove` as well. It copies downwards when the destination
begins inside the source, and upwards otherwise, by words when both addresses are aligned. Each
loop reads what earlier rounds may have written; the result is a copy of the memory before all the
same. `memset` fills bytes up to an aligned address, then words, then the bytes that are left.

Addresses are natural numbers, for ranges that do not wrap around. If the source ends with the
address space, the C expression `s + len` is 0, but then no destination lies behind `s`.

## Main definitions

* `memcpy` — the function; `copyDown`, `copyWords`,
  `copyUp` — its loops; `memmove`.
* `memset` — the function; `setHead`, `setWords`,
  `setBytes` — its loops.

## Main results

* `memcpy_eq_copy` — the destination holds what the source held before.
* `memset_eq_fill` — the range holds the value.
* `block_primitives` — both, byte by byte.
-/

namespace BengalTiger

open ByteMem Function

/-- `while (len--) *--d = *--s`, where `d` and `s` are the addresses at which the loop ends. -/
def copyDown (m : Mem) (d s : ℕ) : ℕ → Mem
  | 0 => m
  | len + 1 => copyDown (update m (d + len) (m (s + len))) d s len

/-- `while (len--) *d++ = *s++`. -/
def copyUp (m : Mem) (d s : ℕ) : ℕ → Mem
  | 0 => m
  | len + 1 => copyUp (update m d (m s)) (d + 1) (s + 1) len

/-- The rounds of `while (len >= 4)`, each of which copies a word. -/
def copyWords (m : Mem) (d s : ℕ) : ℕ → Mem
  | 0 => m
  | rounds + 1 => copyWords (store32 m d (load32 m s)) (d + 4) (s + 4) rounds

/-- `memcpy`. -/
def memcpy (m : Mem) (dest src len : ℕ) : Mem :=
  if dest = src ∨ len = 0 then m
  else if dest > src ∧ dest < src + len then copyDown m dest src len
  else if len ≥ 4 ∧ dest % 4 = 0 ∧ src % 4 = 0 then
    copyUp (copyWords m dest src (len / 4)) (dest + 4 * (len / 4)) (src + 4 * (len / 4)) (len % 4)
  else copyUp m dest src len

/-- `memmove`: the memory and the pointer returned. -/
def memmove (m : Mem) (dest src len : ℕ) : Mem × ℕ := (memcpy m dest src len, dest)

/-- `while (len > 0) *d++ = val`. -/
def setBytes (val : UInt8) (m : Mem) (d : ℕ) : ℕ → Mem
  | 0 => m
  | len + 1 => setBytes val (update m d val) (d + 1) len

/-- `while ((d & 3) && len > 0)`: the memory, the address and the length afterwards. -/
def setHead (val : UInt8) (m : Mem) (d : ℕ) : ℕ → Mem × ℕ × ℕ
  | 0 => (m, d, 0)
  | len + 1 =>
    if d % 4 ≠ 0 then setHead val (update m d val) (d + 1) len else (m, d, len + 1)

/-- `val32`, the value in each of the four bytes of a word. -/
def val32 (val : UInt8) : ℕ :=
  val.toNat ||| val.toNat <<< 8 ||| val.toNat <<< 16 ||| val.toNat <<< 24

/-- The rounds of `while (len >= 4)`, each of which stores a word. -/
def setWords (val : UInt8) (m : Mem) (d : ℕ) : ℕ → Mem
  | 0 => m
  | rounds + 1 => setWords val (store32 m d (val32 val)) (d + 4) rounds

/-- `memset`. -/
def memset (m : Mem) (dest : ℕ) (val : UInt8) (len : ℕ) : Mem :=
  if len ≥ 4 then
    let r := setHead val m dest len
    setBytes val (setWords val r.1 r.2.1 (r.2.2 / 4)) (r.2.1 + 4 * (r.2.2 / 4)) (r.2.2 % 4)
  else setBytes val m dest len

/-! ## Copying -/

lemma copy_zero (m : Mem) (d s : ℕ) : copy m d s 0 = m := by
  funext x
  exact copy_apply_of_outside m (by omega)

lemma copy_one (m : Mem) (d s : ℕ) : copy m d s 1 = update m d (m s) := by
  funext x
  rcases eq_or_ne x d with rfl | hne
  · rw [copy, if_pos (by omega), update_self, Nat.sub_self, Nat.add_zero]
  · rw [copy_apply_of_outside m (by omega), update_of_ne hne]

/-- A word that is loaded and stored is four bytes that are copied. -/
lemma store32_load32 (m : Mem) (d s : ℕ) : store32 m d (load32 m s) = copy m d s 4 := by
  have h₀ := (m s).toNat_lt
  have h₁ := (m (s + 1)).toNat_lt
  have h₂ := (m (s + 2)).toNat_lt
  have h₃ := (m (s + 3)).toNat_lt
  have hbyte : ∀ {v : ℕ} {b : UInt8}, v % 256 = b.toNat → UInt8.ofNat v = b := by
    intro v b h
    rw [← UInt8.toNat_inj, UInt8.toNat_ofNat', ← h]
  funext x
  by_cases hx : d ≤ x ∧ x < d + 4
  · rw [copy, if_pos hx, store32]
    obtain rfl | rfl | rfl | rfl : x = d ∨ x = d + 1 ∨ x = d + 2 ∨ x = d + 3 := by omega
    · rw [if_pos rfl, Nat.sub_self, Nat.add_zero]
      exact hbyte (by unfold load32; omega)
    · rw [if_neg (by omega), if_pos rfl, Nat.add_sub_cancel_left]
      exact hbyte (by unfold load32; omega)
    · rw [if_neg (by omega), if_neg (by omega), if_pos rfl, Nat.add_sub_cancel_left]
      exact hbyte (by unfold load32; omega)
    · rw [if_neg (by omega), if_neg (by omega), if_neg (by omega), if_pos rfl,
        Nat.add_sub_cancel_left]
      exact hbyte (by unfold load32; omega)
  · rw [store32_apply_of_outside m _ (by omega), copy_apply_of_outside m (by omega)]

/-- **Copying on**: the second part of the source was not touched by the first copy. -/
lemma copy_copy {m : Mem} {d s n k : ℕ} (h : d ≤ s ∨ s + n + k ≤ d) :
    copy (copy m d s n) (d + n) (s + n) k = copy m d s (n + k) := by
  funext x
  by_cases hback : d + n ≤ x ∧ x < d + n + k
  · rw [copy, if_pos hback, copy_apply_of_outside m (by omega), copy, if_pos (by omega)]
    congr 1
    omega
  · rw [copy, if_neg hback]
    unfold copy
    split_ifs <;> first | rfl | omega

lemma copyUp_eq {len : ℕ} {m : Mem} {d s : ℕ} (h : d ≤ s ∨ s + len ≤ d) :
    copyUp m d s len = copy m d s len := by
  induction len generalizing m d s with
  | zero => rw [copyUp, copy_zero]
  | succ len ih =>
    rw [copyUp, ← copy_one, ih (by omega), copy_copy (by omega), Nat.add_comm]

/-- Aligned addresses are the same or four bytes apart. -/
lemma copyWords_eq {rounds : ℕ} {m : Mem} {d s : ℕ} (h : d ≤ s ∨ s + 4 * rounds ≤ d) :
    copyWords m d s rounds = copy m d s (4 * rounds) := by
  induction rounds generalizing m d s with
  | zero => rw [copyWords, Nat.mul_zero, copy_zero]
  | succ rounds ih =>
    rw [copyWords, store32_load32, ih (by omega), copy_copy (by omega), Nat.mul_succ, Nat.add_comm]

/-- Downwards, the bytes above are read before they are written. -/
lemma copyDown_eq {len : ℕ} {m : Mem} {d s : ℕ} (h : s ≤ d) :
    copyDown m d s len = copy m d s len := by
  induction len generalizing m with
  | zero => rw [copyDown, copy_zero]
  | succ len ih =>
    rw [copyDown, ih]
    funext x
    rcases lt_trichotomy x (d + len) with hlt | rfl | hgt
    · by_cases hx : d ≤ x
      · rw [copy, if_pos ⟨hx, hlt⟩, update_of_ne (by omega), copy, if_pos (by omega)]
      · rw [copy_apply_of_outside _ (by omega), update_of_ne (by omega),
          copy_apply_of_outside _ (by omega)]
    · rw [copy_apply_of_outside _ (by omega), update_self, copy, if_pos (by omega),
        Nat.add_sub_cancel_left]
    · rw [copy_apply_of_outside _ (by omega), update_of_ne (by omega),
        copy_apply_of_outside _ (by omega)]

/-- **`memcpy` copies**, whether the ranges overlap or not. -/
theorem memcpy_eq_copy (m : Mem) (dest src len : ℕ) :
    memcpy m dest src len = copy m dest src len := by
  unfold memcpy
  split_ifs with hnone hdown hwords
  · obtain rfl | rfl := hnone
    · funext x
      unfold copy
      split_ifs with hx
      · rw [Nat.add_sub_cancel' hx.1]
      · rfl
    · rw [copy_zero]
  · exact copyDown_eq (by omega)
  · rw [copyWords_eq (by omega), copyUp_eq (by omega), copy_copy (by omega), Nat.div_add_mod]
  · exact copyUp_eq (by omega)

/-! ## Filling -/

lemma fill_zero (m : Mem) (d : ℕ) (v : UInt8) : fill m d v 0 = m := by
  funext x
  exact fill_apply_of_outside m v (by omega)

lemma fill_one (m : Mem) (d : ℕ) (v : UInt8) : fill m d v 1 = update m d v := by
  funext x
  rcases eq_or_ne x d with rfl | hne
  · rw [fill, if_pos (by omega), update_self]
  · rw [fill_apply_of_outside m v (by omega), update_of_ne hne]

/-- **Filling on.** -/
lemma fill_fill (m : Mem) (d : ℕ) (v : UInt8) (n k : ℕ) :
    fill (fill m d v n) (d + n) v k = fill m d v (n + k) := by
  funext x
  by_cases hback : d + n ≤ x ∧ x < d + n + k
  · rw [fill, if_pos hback, fill, if_pos (by omega)]
  · rw [fill, if_neg hback]
    unfold fill
    split_ifs <;> first | rfl | omega

/-- The word holds the value four times. -/
lemma val32_eq (v : UInt8) : val32 v = v.toNat * 16843009 := by
  have hall : ∀ n < 256, n ||| n <<< 8 ||| n <<< 16 ||| n <<< 24 = n * 16843009 := by
    decide +kernel
  exact hall _ v.toNat_lt

/-- A word that is stored is four bytes that are filled. -/
lemma store32_val32 (m : Mem) (d : ℕ) (v : UInt8) : store32 m d (val32 v) = fill m d v 4 := by
  have hlt := v.toNat_lt
  have hbyte : ∀ {w : ℕ}, w % 256 = v.toNat → UInt8.ofNat w = v := by
    intro w h
    rw [← UInt8.toNat_inj, UInt8.toNat_ofNat', ← h]
  have h₁ : v.toNat * 16843009 / 256 = v.toNat * 65793 := by omega
  have h₂ : v.toNat * 16843009 / 65536 = v.toNat * 257 := by omega
  have h₃ : v.toNat * 16843009 / 16777216 = v.toNat := by omega
  rw [val32_eq]
  funext x
  by_cases hx : d ≤ x ∧ x < d + 4
  · rw [fill, if_pos hx, store32, h₁, h₂, h₃]
    split_ifs
    · exact hbyte (by omega)
    · exact hbyte (by omega)
    · exact hbyte (by omega)
    · exact hbyte (by omega)
    · omega
  · rw [store32_apply_of_outside m _ (by omega), fill_apply_of_outside m v (by omega)]

lemma setBytes_eq (v : UInt8) (len : ℕ) (m : Mem) (d : ℕ) :
    setBytes v m d len = fill m d v len := by
  induction len generalizing m d with
  | zero => rw [setBytes, fill_zero]
  | succ len ih => rw [setBytes, ih, ← fill_one, fill_fill, Nat.add_comm]

lemma setWords_eq (v : UInt8) (rounds : ℕ) (m : Mem) (d : ℕ) :
    setWords v m d rounds = fill m d v (4 * rounds) := by
  induction rounds generalizing m d with
  | zero => rw [setWords, Nat.mul_zero, fill_zero]
  | succ rounds ih => rw [setWords, ih, store32_val32, fill_fill, Nat.mul_succ, Nat.add_comm 4]

/-- The first loop fills some of the bytes. -/
lemma setHead_eq (v : UInt8) (len : ℕ) (m : Mem) (d : ℕ) :
    ∃ k ≤ len, setHead v m d len = (fill m d v k, d + k, len - k) := by
  induction len generalizing m d with
  | zero => exact ⟨0, le_rfl, by rw [setHead, fill_zero, Nat.add_zero]⟩
  | succ len ih =>
    rw [setHead]
    split_ifs
    · obtain ⟨k, hk, heq⟩ := ih (update m d v) (d + 1)
      refine ⟨1 + k, by omega, ?_⟩
      rw [heq, ← fill_one, fill_fill, Nat.add_assoc, Nat.add_comm 1 k, Nat.add_sub_add_right]
    · exact ⟨0, by omega, by rw [fill_zero]; rfl⟩

/-- **`memset` fills**, whatever the alignment. -/
theorem memset_eq_fill (m : Mem) (dest : ℕ) (val : UInt8) (len : ℕ) :
    memset m dest val len = fill m dest val len := by
  unfold memset
  split_ifs
  · obtain ⟨k, hk, heq⟩ := setHead_eq val len m dest
    simp only [heq]
    rw [setBytes_eq, setWords_eq, fill_fill, fill_fill, Nat.div_add_mod, Nat.add_sub_cancel' hk]
  · exact setBytes_eq val len m dest

/-- **The block primitives**, for all addresses and lengths, whether the ranges overlap or not and
whatever their alignment. -/
theorem block_primitives (m : Mem) (d s len : ℕ) (v : UInt8) :
    ((∀ i < len, memcpy m d s len (d + i) = m (s + i)) ∧
      ∀ a, a < d ∨ d + len ≤ a → memcpy m d s len a = m a) ∧
    ((∀ i < len, (memmove m d s len).1 (d + i) = m (s + i)) ∧
      ∀ a, a < d ∨ d + len ≤ a → (memmove m d s len).1 a = m a) ∧
    (∀ i < len, memset m d v len (d + i) = v) ∧
      ∀ a, a < d ∨ d + len ≤ a → memset m d v len a = m a := by
  have hcopy : (∀ i < len, memcpy m d s len (d + i) = m (s + i)) ∧
      ∀ a, a < d ∨ d + len ≤ a → memcpy m d s len a = m a := by
    rw [memcpy_eq_copy]
    refine ⟨fun i hi => ?_, fun a ha => copy_apply_of_outside m ha⟩
    rw [copy, if_pos (by omega), Nat.add_sub_cancel_left]
  refine ⟨hcopy, hcopy, ?_⟩
  rw [memset_eq_fill]
  refine ⟨fun i hi => ?_, fun a ha => fill_apply_of_outside m v ha⟩
  rw [fill, if_pos (by omega)]

end BengalTiger
