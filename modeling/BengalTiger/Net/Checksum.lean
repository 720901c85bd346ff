import Mathlib.Algebra.BigOperators.Group.List.Basic
import BengalTiger.Net.Packet

set_option autoImplicit false

/-!
# The Internet checksum

`net_checksum` adds the 16-bit words of a byte string in one's complement arithmetic. Whether a
string verifies is a matter of the sum of its words modulo 65535, with the two zeros of that
arithmetic kept apart by the sum itself: only the string of zeros has the sum 0.

## Main definitions

* `Net.words` — the big-endian words of a byte string, an odd last byte padded.

## Main results

* `Net.wordTotal_le` — the sum of a string of at most 65535 bytes fits into 32 bits.
* `Net.wordTotal_append` — the sum over the parts of a string.
* `Net.internet_checksum` — which strings verify, that a string with its checksum filled
  in does, and that a changed word is noticed.
-/

namespace BengalTiger.Net

open List

/-- The big-endian 16-bit words of a byte string; a last odd byte is padded with 0. -/
def words : List UInt8 → List ℕ
  | a :: b :: rest => be16 a b :: words rest
  | [a] => [a.toNat * 256]
  | [] => []

lemma be16_lt (a b : UInt8) : be16 a b < 65536 := by
  have ha := a.toNat_lt
  have hb := b.toNat_lt
  rw [be16]
  omega

/-- The sum of the words. -/
lemma sum_words (d : List UInt8) : (words d).sum = wordTotal d := by
  induction d using wordTotal.induct with
  | case1 a b rest ih => rw [words, wordTotal, sum_cons, ih]
  | case2 a => rw [words, wordTotal, sum_singleton]
  | case3 => rfl

/-- The words have 16 bits. -/
lemma lt_of_mem_words {d : List UInt8} {w : ℕ} (hw : w ∈ words d) : w < 65536 := by
  induction d using wordTotal.induct with
  | case1 a b rest ih =>
    rcases mem_cons.1 hw with rfl | hw
    · exact be16_lt a b
    · exact ih hw
  | case2 a =>
    have ha := a.toNat_lt
    rw [mem_singleton.1 hw]
    omega
  | case3 => exact absurd hw not_mem_nil

/-- Every two bytes add a word. -/
lemma wordTotal_le (d : List UInt8) : wordTotal d ≤ (d.length + 1) / 2 * 65535 := by
  induction d using wordTotal.induct with
  | case1 a b rest ih =>
    have hword := be16_lt a b
    rw [wordTotal, length_cons, length_cons]
    omega
  | case2 a =>
    have ha := a.toNat_lt
    rw [wordTotal, length_singleton]
    omega
  | case3 => exact Nat.zero_le _

/-- The sum of a string that an IPv4 packet can hold fits into 32 bits. -/
lemma wordTotal_lt {d : List UInt8} (h : d.length ≤ 65535) : wordTotal d < 4294967296 := by
  have hle := wordTotal_le d
  omega

/-- **The sum over the parts** of a string, where the first has whole words. -/
lemma wordTotal_append {pre : List UInt8} (h : Even pre.length) (post : List UInt8) :
    wordTotal (pre ++ post) = wordTotal pre + wordTotal post := by
  induction pre using wordTotal.induct with
  | case1 a b rest ih =>
    have hrest : Even rest.length := by
      rw [Nat.even_iff, length_cons, length_cons] at h
      rw [Nat.even_iff]
      omega
    rw [cons_append, cons_append, wordTotal, wordTotal, ih hrest, Nat.add_assoc]
  | case2 a => simp at h
  | case3 => rw [nil_append, wordTotal, Nat.zero_add]

/-- The checksum is a 16-bit number that completes the sum to a multiple of 65535. -/
lemma netChecksum_spec {d : List UInt8} (h : d.length ≤ 65535) : netChecksum d < 65536 ∧
    (wordTotal d + netChecksum d) % 65535 = 0 ∧ 0 < wordTotal d + netChecksum d := by
  obtain ⟨hlt, hmod, hpos⟩ := foldCarry_spec (wordTotal_lt h)
  rw [netChecksum_eq (wordTotal_lt h)]
  refine ⟨by omega, by omega, ?_⟩
  rcases Nat.eq_zero_or_pos (wordTotal d) with h0 | h0
  · rw [h0]
    decide
  · omega

/-- **A filled-in checksum verifies.** -/
lemma netChecksum_fill {pre post : List UInt8} (hlen : (pre ++ 0 :: 0 :: post).length ≤ 65535)
    (heven : Even pre.length) :
    netChecksum (pre ++ toBe16 (netChecksum (pre ++ 0 :: 0 :: post)) ++ post) = 0 := by
  obtain ⟨hlt, hmod, hpos⟩ := netChecksum_spec hlen
  generalize netChecksum (pre ++ 0 :: 0 :: post) = sum at hlt hmod hpos
  have hfilled : wordTotal (pre ++ toBe16 sum ++ post) =
      wordTotal (pre ++ 0 :: 0 :: post) + sum := by
    rw [append_assoc, wordTotal_append heven, wordTotal_append heven, toBe16, cons_append,
      cons_append, nil_append, wordTotal, wordTotal, be16_toBe16, u16, be16, Nat.mod_eq_of_lt hlt]
    simp only [UInt8.toNat_zero]
    omega
  have hlen' : (pre ++ toBe16 sum ++ post).length ≤ 65535 := by
    simp only [toBe16, length_append, length_cons, length_nil] at hlen ⊢
    omega
  rw [netChecksum_eq_zero_iff (wordTotal_lt hlen'), hfilled]
  exact ⟨hpos, hmod⟩

/-- **The Internet checksum** of a string of at most 65535 bytes: it is 0 when the sum of the words
is positive and divisible by 65535; a string in which the checksum was filled into two zero bytes at
an even place verifies; and if a single word of a string that verifies is changed, but for an
exchange of the two zeros of the arithmetic, the result does not verify. -/
theorem internet_checksum (d : List UInt8) (hlen : d.length ≤ 65535) :
    (netChecksum d = 0 ↔ 0 < (words d).sum ∧ 65535 ∣ (words d).sum) ∧
    (∀ pre post, d = pre ++ 0 :: 0 :: post → Even pre.length →
      netChecksum (pre ++ toBe16 (netChecksum d) ++ post) = 0) ∧
    ∀ (d' : List UInt8) (i w w' : ℕ), netChecksum d = 0 → d'.length = d.length →
      (words d)[i]? = some w → words d' = (words d).set i w' → w' ≠ w →
      ¬(w = 0 ∧ w' = 65535) → ¬(w = 65535 ∧ w' = 0) → netChecksum d' ≠ 0 := by
  refine ⟨?_, ?_, ?_⟩
  · rw [sum_words, netChecksum_eq_zero_iff (wordTotal_lt hlen), Nat.dvd_iff_mod_eq_zero]
  · rintro pre post rfl heven
    exact netChecksum_fill hlen heven
  · intro d' i w w' hd hlen' hi hset hne hzero hzero' hd'
    have hlt : i < (words d).length := (List.getElem?_eq_some_iff.1 hi).1
    have hget : (words d)[i] = w := (List.getElem?_eq_some_iff.1 hi).2
    have hw : w < 65536 := lt_of_mem_words (hget ▸ getElem_mem hlt)
    have hw' : w' < 65536 := by
      refine lt_of_mem_words (d := d') ?_
      rw [hset]
      exact mem_set hlt w'
    have hsum : wordTotal d' + w = wordTotal d + w' := by
      have hsplit := sum_take_add_sum_drop (words d) i
      rw [drop_eq_getElem_cons hlt, sum_cons, hget] at hsplit
      rw [← sum_words, ← sum_words, hset, sum_set, if_pos hlt]
      omega
    rw [netChecksum_eq_zero_iff (wordTotal_lt hlen)] at hd
    rw [netChecksum_eq_zero_iff (wordTotal_lt (hlen' ▸ hlen))] at hd'
    omega

/-- The checksum at work: two words with their checksum behind them, and a word changed in them. -/
theorem internet_checksum_two_words :
    netChecksum ([0x45, 0x00, 0x12, 0x34] ++ toBe16 (netChecksum [0x45, 0x00, 0x12, 0x34, 0, 0]) ++
      []) = 0 ∧
    netChecksum [0x45, 0x00, 0x12, 0x35, 0xA8, 0xCB] ≠ 0 := by
  refine ⟨(internet_checksum [0x45, 0x00, 0x12, 0x34, 0, 0] (by decide)).2.1 _ _ rfl
    (by decide), ?_⟩
  exact (internet_checksum [0x45, 0x00, 0x12, 0x34, 0xA8, 0xCB] (by decide)).2.2 _ 1 0x1234 0x1235
    (by decide) rfl rfl rfl (by decide) (by decide) (by decide)

end BengalTiger.Net
