import BengalTiger.Net.Packet
import BengalTiger.Number

set_option autoImplicit false

/-!
# Addresses as text

`net_parse_ip` reads an address from a string character by character; `net_format_ip` writes one.

## Main definitions

* `Net.netParseIp`, `Net.netFormatIp`, `Net.netMakeIp` — the code.
* `Net.Dotted` — the strings that stand for an address.

## Main results

* `Net.parseLoop_eq_some_iff` — the loop reads one run of digits after the other.
* `Net.ip_text_conversion` — exactly the dotted strings are accepted, and what was
  written is read back.
-/

namespace BengalTiger.Net

open Function List

/-! ## The code -/

/-- `net_make_ip`. -/
def netMakeIp (a b c d : UInt8) : UInt32 :=
  (a.toUInt32 <<< 24) ||| (b.toUInt32 <<< 16) ||| (c.toUInt32 <<< 8) ||| d.toUInt32

/-- A decimal digit. -/
def IsDigit (c : UInt8) : Prop := 0x30 ≤ c ∧ c ≤ 0x39

instance (c : UInt8) : Decidable (IsDigit c) := by
  unfold IsDigit
  infer_instance

/-- The end of the loop of `net_parse_ip`. -/
def parseEnd (parts : ℕ → ℕ) (idx : ℕ) (hasDigit : Bool) : Option (ℕ → ℕ) :=
  if hasDigit = false ∨ idx ≠ 3 then none else some parts

/-- The loop of `net_parse_ip`: the four values, or nothing where it returns -1. -/
def parseLoop : List UInt8 → (ℕ → ℕ) → ℕ → Bool → Option (ℕ → ℕ)
  | [], parts, idx, hasDigit => parseEnd parts idx hasDigit
  | c :: str, parts, idx, hasDigit =>
    if IsDigit c then
      let part := parts idx * 10 + (c - 0x30).toNat
      if part > 255 then none else parseLoop str (update parts idx part) idx true
    else if c = 0x2E then
      if hasDigit = false ∨ idx ≥ 3 then none else parseLoop str parts (idx + 1) false
    else if c = 0 ∨ c = 0x20 then parseEnd parts idx hasDigit
    else none

/-- `net_parse_ip` on the bytes of a string: the result and `*out_ip`. -/
def netParseIp (str : List UInt8) (outIp : UInt32) : ℤ × UInt32 :=
  match parseLoop str (fun _ => 0) 0 false with
  | some parts => (0, netMakeIp (UInt8.ofNat (parts 0)) (UInt8.ofNat (parts 1))
      (UInt8.ofNat (parts 2)) (UInt8.ofNat (parts 3)))
  | none => (-1, outIp)

/-- `net_format_ip`. -/
def netFormatIp (ip : UInt32) : List UInt8 :=
  [(3 : UInt32), 2, 1, 0].foldl (fun buf i => buf ++ kUtoa ((ip >>> (i * 8)) &&& 0xFF).toNat 10 ++
    if i > 0 then [0x2E] else []) []

/-! ## Dotted strings -/

/-- What stands before the first NUL or blank. -/
def field (str : List UInt8) : List UInt8 := str.takeWhile fun c => c ≠ 0 ∧ c ≠ 0x20

/-- Neither NUL nor blank stands before the first of them. -/
lemma forall_mem_field (str : List UInt8) : ∀ c ∈ field str, c ≠ 0 ∧ c ≠ 0x20 := fun c hc => by
  simpa using mem_takeWhile_imp hc

/-- A run of digits with its value: not empty, and the value fits into a byte. -/
structure Octet (run : List UInt8) (v : ℕ) : Prop where
  ne_nil : run ≠ []
  digits : ∀ c ∈ run, IsDigit c
  value_eq : Numeral.value 10 digitValue 0 run = v
  le : v ≤ 255

/-- **A dotted string**: four runs of digits with dots between them, and their values. -/
def Dotted (str : List UInt8) (a b c d : ℕ) : Prop :=
  ∃ r₀ r₁ r₂ r₃, str = r₀ ++ 0x2E :: (r₁ ++ 0x2E :: (r₂ ++ 0x2E :: r₃)) ∧
    Octet r₀ a ∧ Octet r₁ b ∧ Octet r₂ c ∧ Octet r₃ d

/-! ## The loop -/

/-- The value of a decimal digit. -/
lemma digitValue_of_isDigit {c : UInt8} (hc : IsDigit c) : digitValue c = (c - 0x30).toNat := by
  have hread : Calc.hexDigit c = some (c - 0x30).toNat := if_pos hc
  rw [digitValue, hread, Option.getD_some]

/-- The loop stops at the first NUL or blank. -/
lemma parseLoop_field (str : List UInt8) (parts : ℕ → ℕ) (idx : ℕ) (hasDigit : Bool) :
    parseLoop (field str) parts idx hasDigit = parseLoop str parts idx hasDigit := by
  induction str generalizing parts idx hasDigit with
  | nil => rfl
  | cons c str ih =>
    by_cases hstop : c = 0 ∨ c = 0x20
    · have hfield : field (c :: str) = [] := by
        rw [field, takeWhile_cons_of_neg]
        rcases hstop with rfl | rfl <;> decide
      have hdigit : ¬IsDigit c := by
        rcases hstop with rfl | rfl <;> decide
      have hdot : c ≠ 0x2E := by
        rcases hstop with rfl | rfl <;> decide
      rw [hfield, parseLoop, parseLoop, if_neg hdigit, if_neg hdot, if_pos hstop]
    · have hfield : field (c :: str) = c :: field str := by
        rw [field, takeWhile_cons_of_pos, field]
        simpa [not_or] using hstop
      rw [hfield, parseLoop, parseLoop]
      simp only [ih]

/-- A run of digits whose value fits is read. -/
lemma parseLoop_run {run : List UInt8} (hrun : ∀ c ∈ run, IsDigit c) (hne : run ≠ [])
    (rest : List UInt8) (parts : ℕ → ℕ) (idx : ℕ) (hasDigit : Bool) :
    parseLoop (run ++ rest) parts idx hasDigit =
      if Numeral.value 10 digitValue (parts idx) run ≤ 255 then
        parseLoop rest (update parts idx (Numeral.value 10 digitValue (parts idx) run))
          idx true
      else none := by
  induction run generalizing parts hasDigit with
  | nil => exact absurd rfl hne
  | cons c run ih =>
    rw [cons_append, parseLoop, if_pos (hrun c mem_cons_self), Numeral.value_cons,
      ← digitValue_of_isDigit (hrun c mem_cons_self)]
    have hle := Numeral.le_value 10 digitValue (by decide) (parts idx * 10 + digitValue c) run
    dsimp only
    by_cases hbig : parts idx * 10 + digitValue c > 255
    · rw [if_pos hbig, if_neg (by omega)]
    · rw [if_neg hbig]
      by_cases hlast : run = []
      · subst hlast
        rw [Numeral.value_nil, if_pos (by omega), nil_append]
      · rw [ih (fun c' hc' => hrun c' (mem_cons_of_mem _ hc')) hlast, update_self, update_idem]

/-- What follows the digits of a run begins with no digit. -/
lemma exists_run (str : List UInt8) : ∃ run rest, str = run ++ rest ∧ (∀ c ∈ run, IsDigit c) ∧
    ∀ c rest', rest = c :: rest' → ¬IsDigit c := by
  refine ⟨str.takeWhile fun c => IsDigit c, str.dropWhile fun c => IsDigit c,
    (takeWhile_append_dropWhile).symm, fun c hc => ?_, fun c rest' hrest => ?_⟩
  · simpa using mem_takeWhile_imp hc
  · have hhead := head?_dropWhile_not (fun c => decide (IsDigit c)) str
    rw [hrest] at hhead
    simpa using hhead

/-- Where a part begins, only a digit is accepted. -/
lemma parseLoop_no_digit {str : List UInt8} (hstr : ∀ c ∈ str, c ≠ 0 ∧ c ≠ 0x20)
    (hhead : ∀ c rest, str = c :: rest → ¬IsDigit c) (parts : ℕ → ℕ) (idx : ℕ) :
    parseLoop str parts idx false = none := by
  cases str with
  | nil => rfl
  | cons c str =>
    obtain ⟨h0, hblank⟩ := hstr c mem_cons_self
    rw [parseLoop, if_neg (hhead c str rfl)]
    split_ifs with hdot hbegin hstop
    · rfl
    · exact absurd (.inl rfl) hbegin
    · exact absurd hstop (not_or.2 ⟨h0, hblank⟩)
    · rfl

/-- What may follow a run: the end in the last part, a dot in the others. -/
lemma parseLoop_after_run {rest : List UInt8} (hrest : ∀ c ∈ rest, c ≠ 0 ∧ c ≠ 0x20)
    (hhead : ∀ c rest', rest = c :: rest' → ¬IsDigit c) {parts : ℕ → ℕ} {idx : ℕ} (hidx : idx ≤ 3)
    {p : ℕ → ℕ} : parseLoop rest parts idx true = some p ↔ idx = 3 ∧ rest = [] ∧ p = parts ∨
      idx < 3 ∧ ∃ rest', rest = 0x2E :: rest' ∧ parseLoop rest' parts (idx + 1) false = some p := by
  cases rest with
  | nil =>
    rw [parseLoop, parseEnd]
    by_cases hlast : idx = 3
    · rw [if_neg (by simp [hlast]), Option.some_inj]
      constructor
      · exact fun h => .inl ⟨hlast, rfl, h.symm⟩
      · rintro (⟨-, -, rfl⟩ | ⟨hlt, -⟩)
        · rfl
        · omega
    · rw [if_pos (.inr hlast)]
      simp [hlast]
  | cons c rest =>
    obtain ⟨h0, hblank⟩ := hrest c mem_cons_self
    rw [parseLoop, if_neg (hhead c rest rfl)]
    by_cases hdot : c = 0x2E
    · subst hdot
      by_cases hlast : idx = 3
      · rw [if_pos rfl, if_pos (.inr (by omega))]
        simp [hlast]
      · have hlt : idx < 3 := by omega
        rw [if_pos rfl, if_neg (by simpa using hlt)]
        simp [hlast, hlt]
    · rw [if_neg hdot, if_neg (not_or.2 ⟨h0, hblank⟩)]
      simp [hdot]

/-- **The loop reads one run of digits after the other**: from the beginning of a part it succeeds
when there is a run whose value fits, and it ends the string in the last part and a dot and the
next part follow in the others.

**Proof sketch.** The digits in front are a run, which is not empty, since neither a dot nor the end
is accepted there; what follows it is the end, a dot, or refused. -/
lemma parseLoop_eq_some_iff {str : List UInt8} (hstr : ∀ c ∈ str, c ≠ 0 ∧ c ≠ 0x20)
    {parts : ℕ → ℕ} {idx : ℕ} (hidx : idx ≤ 3) (hpart : parts idx = 0) {p : ℕ → ℕ} :
    parseLoop str parts idx false = some p ↔
      ∃ run v, Octet run v ∧ (idx = 3 ∧ str = run ∧ p = update parts idx v ∨
        idx < 3 ∧ ∃ rest, str = run ++ 0x2E :: rest ∧
          parseLoop rest (update parts idx v) (idx + 1) false = some p) := by
  constructor
  · intro h
    obtain ⟨run, rest, rfl, hrun, hhead⟩ := exists_run str
    have hrest : ∀ c ∈ rest, c ≠ 0 ∧ c ≠ 0x20 := fun c hc => hstr c (mem_append_right _ hc)
    by_cases hne : run = []
    · subst hne
      rw [nil_append, parseLoop_no_digit hrest hhead] at h
      simp at h
    · rw [parseLoop_run hrun hne, hpart] at h
      split_ifs at h with hle
      refine ⟨run, _, ⟨hne, hrun, rfl, hle⟩, ?_⟩
      rcases (parseLoop_after_run hrest hhead hidx).1 h with
        ⟨hlast, rfl, rfl⟩ | ⟨hlt, rest, rfl, hnext⟩
      · exact .inl ⟨hlast, append_nil _, rfl⟩
      · exact .inr ⟨hlt, rest, rfl, hnext⟩
  · rintro ⟨run, v, ⟨hne, hrun, rfl, hle⟩, ⟨rfl, rfl, rfl⟩ | ⟨hlt, rest, rfl, h⟩⟩
    · have hread := parseLoop_run hrun hne [] parts 3 false
      rw [append_nil, hpart, if_pos hle] at hread
      rw [hread]
      rfl
    · rw [parseLoop_run hrun hne, hpart, if_pos hle, parseLoop, if_neg (by decide), if_pos rfl,
        if_neg (by simpa using hlt)]
      exact h

/-- **The loop accepts the dotted strings** and finds their values. -/
lemma parseLoop_iff_dotted {str : List UInt8} (hstr : ∀ c ∈ str, c ≠ 0 ∧ c ≠ 0x20) {p : ℕ → ℕ} :
    parseLoop str (fun _ => 0) 0 false = some p ↔
      ∃ a b c d, Dotted str a b c d ∧ p = update (update (update
        (update (fun _ => 0) 0 a) 1 b) 2 c) 3 d := by
  -- the rest after a dot holds no terminator either
  have htail : ∀ {run rest : List UInt8}, (∀ c ∈ run ++ 0x2E :: rest, c ≠ 0 ∧ c ≠ 0x20) →
      ∀ c ∈ rest, c ≠ 0 ∧ c ≠ 0x20 := fun h c hc =>
    h c (mem_append_right _ (mem_cons_of_mem _ hc))
  constructor
  · intro h
    obtain ⟨r₀, a, h₀, ⟨hlast, -⟩ | ⟨-, s₁, rfl, hnext₁⟩⟩ :=
      (parseLoop_eq_some_iff hstr (by decide) rfl).1 h
    · omega
    have hstr₁ := htail hstr
    obtain ⟨r₁, b, h₁, ⟨hlast, -⟩ | ⟨-, s₂, rfl, hnext₂⟩⟩ :=
      (parseLoop_eq_some_iff hstr₁ (by decide) rfl).1 hnext₁
    · omega
    have hstr₂ := htail hstr₁
    obtain ⟨r₂, c, h₂, ⟨hlast, -⟩ | ⟨-, s₃, rfl, hnext₃⟩⟩ :=
      (parseLoop_eq_some_iff hstr₂ (by decide) rfl).1 hnext₂
    · omega
    obtain ⟨r₃, d, h₃, ⟨-, rfl, hp⟩ | ⟨hlt, -⟩⟩ :=
      (parseLoop_eq_some_iff (htail hstr₂) (by decide) rfl).1 hnext₃
    · exact ⟨a, b, c, d, ⟨r₀, r₁, r₂, s₃, rfl, h₀, h₁, h₂, h₃⟩, hp⟩
    · omega
  · rintro ⟨a, b, c, d, ⟨r₀, r₁, r₂, r₃, rfl, h₀, h₁, h₂, h₃⟩, rfl⟩
    have hstr₁ := htail hstr
    have hstr₂ := htail hstr₁
    refine (parseLoop_eq_some_iff hstr (by decide) rfl).2
      ⟨r₀, a, h₀, .inr ⟨by decide, _, rfl, ?_⟩⟩
    refine (parseLoop_eq_some_iff hstr₁ (by decide) rfl).2
      ⟨r₁, b, h₁, .inr ⟨by decide, _, rfl, ?_⟩⟩
    refine (parseLoop_eq_some_iff hstr₂ (by decide) rfl).2
      ⟨r₂, c, h₂, .inr ⟨by decide, _, rfl, ?_⟩⟩
    exact (parseLoop_eq_some_iff (htail hstr₂) (by decide) rfl).2
      ⟨r₃, d, h₃, .inl ⟨rfl, rfl, rfl⟩⟩

/-! ## Writing and reading back -/

/-- **A byte that was written as a number** is read back. -/
lemma octet_kUtoa {v : ℕ} (hv : v ≤ 255) : Octet (kUtoa v 10) v := by
  have hnum : IsNumeral 10 v (kUtoa v 10) := isNumeral_kUtoa (by decide) (by decide) (by omega)
  refine ⟨hnum.ne_nil, fun c hc => ?_, hnum.value_eq, hv⟩
  obtain ⟨d, hd, rfl⟩ := hnum.isDigit c hc
  have hdigit : ∀ d < 10, IsDigit (digits.getD d 0) := by decide
  exact hdigit d hd

/-- The last byte of a shifted address. -/
lemma toNat_shiftRight_and (ip n : UInt32) :
    ((ip >>> n) &&& 0xFF).toNat = ip.toNat / 2 ^ (n.toNat % 32) % 256 := by
  rw [UInt32.toNat_and, UInt32.toNat_shiftRight, Nat.shiftRight_eq_div_pow]
  exact Nat.and_two_pow_sub_one_eq_mod _ 8

/-- The text of an address. -/
lemma netFormatIp_eq (ip : UInt32) : netFormatIp ip =
    kUtoa (ip.toNat / 16777216 % 256) 10 ++ 0x2E :: (kUtoa (ip.toNat / 65536 % 256) 10 ++
      0x2E :: (kUtoa (ip.toNat / 256 % 256) 10 ++ 0x2E :: kUtoa (ip.toNat % 256) 10)) := by
  have h₃ := toNat_shiftRight_and ip (3 * 8)
  have h₂ := toNat_shiftRight_and ip (2 * 8)
  have h₁ := toNat_shiftRight_and ip (1 * 8)
  have h₀ := toNat_shiftRight_and ip (0 * 8)
  simp only [show (3 * 8 : UInt32).toNat % 32 = 24 from rfl,
    show (2 * 8 : UInt32).toNat % 32 = 16 from rfl, show (1 * 8 : UInt32).toNat % 32 = 8 from rfl,
    show (0 * 8 : UInt32).toNat % 32 = 0 from rfl, Nat.pow_zero, Nat.div_one] at h₃ h₂ h₁ h₀
  simp only [netFormatIp, foldl_cons, foldl_nil, h₃, h₂, h₁, h₀]
  simp

/-- A written address is a dotted string. -/
lemma dotted_netFormatIp (ip : UInt32) : Dotted (netFormatIp ip) (ip.toNat / 16777216 % 256)
    (ip.toNat / 65536 % 256) (ip.toNat / 256 % 256) (ip.toNat % 256) := by
  have hoctet : ∀ n, Octet (kUtoa (n % 256) 10) (n % 256) := fun n => octet_kUtoa (by omega)
  exact ⟨_, _, _, _, netFormatIp_eq ip, hoctet _, hoctet _, hoctet _, hoctet _⟩

/-- A byte that is shifted inside a word. -/
lemma toNat_shiftLeft_byte (x : UInt8) {n : UInt32} (hn : n.toNat ≤ 24) :
    (x.toUInt32 <<< n).toNat = 2 ^ n.toNat * x.toNat := by
  have hx := x.toNat_lt
  have hpow : 2 ^ n.toNat ≤ 2 ^ 24 := Nat.pow_le_pow_right (by decide) hn
  have hshift : n.toNat % 32 = n.toNat := Nat.mod_eq_of_lt (by omega)
  rw [UInt32.toNat_shiftLeft, UInt8.toNat_toUInt32, hshift, Nat.shiftLeft_eq, Nat.mul_comm,
    Nat.mod_eq_of_lt]
  calc 2 ^ n.toNat * x.toNat ≤ 2 ^ 24 * 255 := Nat.mul_le_mul hpow (by omega)
    _ < 2 ^ 32 := by decide

/-- `net_make_ip` reads the bytes as a big-endian number. -/
lemma netMakeIp_eq_be32 (a b c d : UInt8) : netMakeIp a b c d = be32 a b c d := by
  have ha := a.toNat_lt
  have hb := b.toNat_lt
  have hc := c.toNat_lt
  have hd := d.toNat_lt
  -- the bytes do not overlap, so that each `or` adds one of them
  have hor : ∀ i x y : ℕ, y < 2 ^ i → 2 ^ i * x ||| y = 2 ^ i * x + y := fun i x y h =>
    (Nat.two_pow_add_eq_or_of_lt h x).symm
  have e₁ := hor 24 a.toNat (2 ^ 16 * b.toNat) (by omega)
  have e₂ := hor 16 (a.toNat * 256 + b.toNat) (2 ^ 8 * c.toNat) (by omega)
  have e₃ := hor 8 (a.toNat * 65536 + b.toNat * 256 + c.toNat) d.toNat (by omega)
  have s₁ : (a.toUInt32 <<< 24).toNat = 2 ^ 24 * a.toNat := toNat_shiftLeft_byte a (by decide)
  have s₂ : (b.toUInt32 <<< 16).toNat = 2 ^ 16 * b.toNat := toNat_shiftLeft_byte b (by decide)
  have s₃ : (c.toUInt32 <<< 8).toNat = 2 ^ 8 * c.toNat := toNat_shiftLeft_byte c (by decide)
  apply UInt32.toNat_inj.1
  rw [netMakeIp, UInt32.toNat_or, UInt32.toNat_or, UInt32.toNat_or, s₁, s₂, s₃,
    UInt8.toNat_toUInt32, e₁,
    show 2 ^ 24 * a.toNat + 2 ^ 16 * b.toNat = 2 ^ 16 * (a.toNat * 256 + b.toNat) by omega, e₂,
    show 2 ^ 16 * (a.toNat * 256 + b.toNat) + 2 ^ 8 * c.toNat =
      2 ^ 8 * (a.toNat * 65536 + b.toNat * 256 + c.toNat) by omega, e₃, be32,
    UInt32.toNat_ofNat_of_lt' (by show _ < 4294967296; omega)]
  omega

/-- The four bytes of an address make it up. -/
lemma netMakeIp_bytes (ip : UInt32) : netMakeIp (UInt8.ofNat (ip.toNat / 16777216 % 256))
    (UInt8.ofNat (ip.toNat / 65536 % 256)) (UInt8.ofNat (ip.toNat / 256 % 256))
    (UInt8.ofNat (ip.toNat % 256)) = ip := by
  have hmod : ∀ n, UInt8.ofNat (n % 256) = UInt8.ofNat n := fun n => by
    apply UInt8.toNat_inj.1
    rw [UInt8.toNat_ofNat', UInt8.toNat_ofNat', Nat.mod_mod]
  rw [hmod, hmod, hmod, hmod, netMakeIp_eq_be32, be32_toBe32]

/-- No character of a dotted string ends it. -/
lemma Dotted.field_eq {str : List UInt8} {a b c d : ℕ} (h : Dotted str a b c d) :
    field str = str := by
  have hdigit : ∀ x : UInt8, IsDigit x → x ≠ 0 ∧ x ≠ 0x20 := fun x hx => by
    refine ⟨?_, ?_⟩ <;> rintro rfl <;> exact absurd hx (by decide)
  obtain ⟨r₀, r₁, r₂, r₃, rfl, h₀, h₁, h₂, h₃⟩ := h
  refine takeWhile_eq_self_iff.2 fun x hx => ?_
  simp only [mem_append, mem_cons] at hx
  rw [decide_eq_true_eq]
  rcases hx with hx | rfl | hx | rfl | hx | rfl | hx
  · exact hdigit x (h₀.digits x hx)
  · decide
  · exact hdigit x (h₁.digits x hx)
  · decide
  · exact hdigit x (h₂.digits x hx)
  · decide
  · exact hdigit x (h₃.digits x hx)

/-- **`net_parse_ip` accepts exactly the dotted strings.** -/
lemma netParseIp_of_dotted {str : List UInt8} {a b c d : ℕ} (h : Dotted (field str) a b c d)
    (outIp : UInt32) : netParseIp str outIp =
      (0, netMakeIp (UInt8.ofNat a) (UInt8.ofNat b) (UInt8.ofNat c) (UInt8.ofNat d)) := by
  have hread := (parseLoop_iff_dotted (forall_mem_field str)).2 ⟨a, b, c, d, h, rfl⟩
  rw [parseLoop_field] at hread
  rw [netParseIp, hread]
  rfl

/-- **Addresses as text**: a string is accepted when what stands before its first NUL or blank is
four runs of digits with dots between them, each of a value that fits into a byte, and the result is
the address with these values; any other string is refused and the result left as it was. An address
that was written is read back. -/
theorem ip_text_conversion :
    (∀ (str : List UInt8) (outIp : UInt32),
      (∀ a b c d, Dotted (field str) a b c d → netParseIp str outIp =
        (0, netMakeIp (UInt8.ofNat a) (UInt8.ofNat b) (UInt8.ofNat c) (UInt8.ofNat d))) ∧
      ((¬∃ a b c d, Dotted (field str) a b c d) → netParseIp str outIp = (-1, outIp))) ∧
    ∀ ip outIp : UInt32, netParseIp (netFormatIp ip) outIp = (0, ip) := by
  refine ⟨fun str outIp => ⟨fun a b c d h => netParseIp_of_dotted h outIp, fun hno => ?_⟩,
    fun ip outIp => ?_⟩
  · have hread : parseLoop str (fun _ => 0) 0 false = none := by
      rw [← parseLoop_field]
      refine Option.eq_none_iff_forall_ne_some.2 fun p hp => hno ?_
      obtain ⟨a, b, c, d, h, -⟩ := (parseLoop_iff_dotted (forall_mem_field str)).1 hp
      exact ⟨a, b, c, d, h⟩
    rw [netParseIp, hread]
  · have hdotted := dotted_netFormatIp ip
    rw [netParseIp_of_dotted (hdotted.field_eq.symm ▸ hdotted), netMakeIp_bytes]

/-- The conversion at work: an address with leading zeros and text after a blank. -/
theorem ip_text_conversion_gateway :
    Dotted (field (ascii "010.0.2.2 -n".toList)) 10 0 2 2 ∧
      netParseIp (ascii "010.0.2.2 -n".toList) 0 = (0, netMakeIp 10 0 2 2) := by
  have h : Dotted (field (ascii "010.0.2.2 -n".toList)) 10 0 2 2 := by
    refine ⟨[0x30, 0x31, 0x30], [0x30], [0x32], [0x32], by decide, ?_, ?_, ?_, ?_⟩
    · exact ⟨by decide, by simp [IsDigit], by decide, by decide⟩
    · exact ⟨by decide, by simp [IsDigit], by decide, by decide⟩
    · exact ⟨by decide, by simp [IsDigit], by decide, by decide⟩
    · exact ⟨by decide, by simp [IsDigit], by decide, by decide⟩
  exact ⟨h, (ip_text_conversion.1 _ 0).1 10 0 2 2 h⟩

end BengalTiger.Net
