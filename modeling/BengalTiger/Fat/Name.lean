import BengalTiger.CString

set_option autoImplicit false

/-!
# File names

The conversions between the names that callers use and the eleven bytes that a directory entry
stores: `filename_to_fat` cuts a name at its first dot, folds it to upper case and pads both parts
with blanks; `fat_name_to_str` drops the blanks and puts the dot back.

## Main definitions

* `Fat.filenameToFat`, `Fat.fatNameToStr`.
* `Fat.strcasecmp` — the comparison that `fat_copy_file` and `fat_rename_file` make
  first.

## Main results

* `Fat.filenameToFat_fatNameToStr` — a stored name is found again under its text.
* `Fat.filenameToFat_congr` — names that `strcasecmp` does not tell apart are stored
  alike.
-/

namespace BengalTiger.Fat

open List

/-- The blank, which pads stored names. -/
def blank : UInt8 := 0x20

/-- The dot between name and extension. -/
def dot : UInt8 := 0x2E

/-- The slash, which is skipped at the beginning of a name. -/
def slash : UInt8 := 0x2F

/-- Folding to upper case. -/
def toUpper (c : UInt8) : UInt8 := if 0x61 ≤ c ∧ c ≤ 0x7A then c - 0x61 + 0x41 else c

/-- `to_lower_ch`. -/
def toLowerCh (c : UInt8) : UInt8 := if 0x41 ≤ c ∧ c ≤ 0x5A then c + 0x20 else c

/-- The loop of `strcasecmp`, on the bytes before the terminators. -/
def strcasecmpLoop : List UInt8 → List UInt8 → ℤ
  | [], t => -(toLowerCh (t.headD 0)).toNat
  | a :: s, t =>
    if toLowerCh a = toLowerCh (t.headD 0) then strcasecmpLoop s t.tail
    else (toLowerCh a).toNat - (toLowerCh (t.headD 0)).toNat

/-- `strcasecmp`. -/
def strcasecmp (s t : List UInt8) : ℤ := strcasecmpLoop (cstr s) (cstr t)

/-- The two copying loops of `filename_to_fat`: at most `room` characters are taken, up to a dot
when `untilDot` is set; a blank or slash among them is an error. The result is what was taken, in
upper case, and the rest of the name. -/
def takePart (untilDot : Bool) : ℕ → List UInt8 → Option (List UInt8 × List UInt8)
  | 0, name => some ([], name)
  | _ + 1, [] => some ([], [])
  | room + 1, c :: name =>
    if untilDot = true ∧ c = dot then some ([], c :: name)
    else if c = blank ∨ c = slash then none
    else (takePart untilDot room name).map fun r => (toUpper c :: r.1, r.2)

/-- A part of a stored name, padded with blanks. -/
def padded (width : ℕ) (part : List UInt8) : List UInt8 :=
  part ++ List.replicate (width - part.length) blank

/-- The extension: what follows the first dot, if there is one. -/
def takeExtension (name : List UInt8) : Option (List UInt8) :=
  match name.dropWhile (· ≠ dot) with
  | [] => some []
  | _ :: rest => (takePart false 3 rest).map Prod.fst

/-- `filename_to_fat`: the eleven bytes of the stored name, `none` for the result -1. -/
def filenameToFat (name : List UInt8) : Option (List UInt8) := do
  let name := (cstr name).dropWhile fun c => c = slash ∨ c = blank
  if name = [] then none
  let base ← takePart true 8 name
  let ext ← takeExtension base.2
  if base.1 = [] then none
  return padded 8 base.1 ++ padded 3 ext

/-- `fat_name_to_str`. -/
def fatNameToStr (name : List UInt8) : List UInt8 :=
  (name.take 8).filter (· ≠ blank) ++
    if (name.drop 8).headD blank ≠ blank then dot :: (name.drop 8).filter (· ≠ blank) else []

/-! ## Characters -/

lemma toUpper_toUpper (c : UInt8) : toUpper (toUpper c) = toUpper c := by
  unfold toUpper
  split_ifs with h₁ h₂
  · exfalso
    simp only [UInt8.le_iff_toNat_le, UInt8.toNat_add, UInt8.toNat_sub, UInt8.reduceToNat] at *
    omega
  · rfl
  · rfl

/-- Folding to upper case does not make a character that is not a letter. -/
lemma toUpper_eq_iff {c d : UInt8} (hd : d.toNat < 0x41) : toUpper c = d ↔ c = d := by
  unfold toUpper
  split_ifs with h
  · simp only [UInt8.le_iff_toNat_le, UInt8.reduceToNat] at h
    constructor
    · intro heq
      have := congrArg UInt8.toNat heq
      simp only [UInt8.toNat_add, UInt8.toNat_sub, UInt8.reduceToNat] at this
      omega
    · rintro rfl
      omega
  · exact Iff.rfl

/-- The two foldings. -/
lemma toUpper_toLowerCh (c : UInt8) : toUpper (toLowerCh c) = toUpper c := by
  unfold toUpper toLowerCh
  split_ifs with h₁ h₂ h₃ h₃
  all_goals
    simp only [UInt8.le_iff_toNat_le, UInt8.toNat_add, UInt8.reduceToNat,
      UInt8.ext_iff, UInt8.toNat_sub] at *
    try omega

/-! ## Stored names -/

/-- A part of a stored name: characters that neither end a name, nor pad it, nor are rejected or
folded. -/
structure IsPart (width : ℕ) (part : List UInt8) : Prop where
  length_le : part.length ≤ width
  ne_zero : 0 ∉ part
  ne_blank : blank ∉ part
  ne_slash : slash ∉ part
  upper : ∀ c ∈ part, toUpper c = c

/-- A part of a name with one more character. -/
lemma IsPart.cons {width : ℕ} {c : UInt8} {part : List UInt8} (h : IsPart width part)
    (h0 : c ≠ 0) (hblank : c ≠ blank) (hslash : c ≠ slash) :
    IsPart (width + 1) (toUpper c :: part) where
  length_le := Nat.succ_le_succ h.length_le
  ne_zero := by
    rw [mem_cons, not_or]
    exact ⟨fun h => h0 ((toUpper_eq_iff (by decide)).1 h.symm), h.ne_zero⟩
  ne_blank := by
    rw [mem_cons, not_or]
    exact ⟨fun h => hblank ((toUpper_eq_iff (by decide)).1 h.symm), h.ne_blank⟩
  ne_slash := by
    rw [mem_cons, not_or]
    exact ⟨fun h => hslash ((toUpper_eq_iff (by decide)).1 h.symm), h.ne_slash⟩
  upper := by
    intro d hd
    obtain rfl | hd := mem_cons.1 hd
    · exact toUpper_toUpper c
    · exact h.upper d hd

lemma isPart_nil (width : ℕ) : IsPart width [] :=
  ⟨Nat.zero_le _, by simp, by simp, by simp, by simp⟩

/-- What the copying loops take. -/
lemma isPart_of_takePart {untilDot : Bool} {room : ℕ} {name part rest : List UInt8}
    (h0 : 0 ∉ name) (h : takePart untilDot room name = some (part, rest)) :
    IsPart room part ∧ (untilDot = true → dot ∉ part) ∧ 0 ∉ rest := by
  induction room generalizing name part with
  | zero =>
    cases h
    exact ⟨isPart_nil 0, by simp, h0⟩
  | succ room ih =>
    cases name with
    | nil =>
      cases h
      exact ⟨isPart_nil _, by simp, h0⟩
    | cons c name =>
      unfold takePart at h
      split_ifs at h with hdot hbad
      · cases h
        exact ⟨isPart_nil _, by simp, h0⟩
      · rw [not_or] at hbad
        rw [mem_cons, not_or] at h0
        obtain ⟨⟨part', rest'⟩, hpart, heq⟩ := Option.map_eq_some_iff.1 h
        cases heq
        obtain ⟨hp, hd, hr⟩ := ih h0.2 hpart
        refine ⟨hp.cons (Ne.symm h0.1) hbad.1 hbad.2, ?_, hr⟩
        intro huntil
        rw [mem_cons, not_or]
        refine ⟨fun h => ?_, hd huntil⟩
        exact hdot ⟨huntil, (toUpper_eq_iff (by decide)).1 h.symm⟩

/-- The copying loops take a part of a stored name whole, up to the end of the name, a dot that
ends it, or the end of the room. -/
lemma takePart_append {untilDot : Bool} {room : ℕ} {part : List UInt8} (h : IsPart room part)
    (hdot : untilDot = true → dot ∉ part) {rest : List UInt8}
    (hrest : rest = [] ∨ untilDot = true ∧ rest.head? = some dot) :
    takePart untilDot room (part ++ rest) = some (part, rest) := by
  induction part generalizing room with
  | nil =>
    cases room with
    | zero => rfl
    | succ room =>
      obtain rfl | ⟨huntil, hhead⟩ := hrest
      · rfl
      · cases rest with
        | nil => cases hhead
        | cons c rest =>
          rw [head?_cons, Option.some_inj] at hhead
          rw [nil_append, takePart, if_pos ⟨huntil, hhead⟩]
  | cons c part ih =>
    obtain ⟨room, rfl⟩ : ∃ r, room = r + 1 :=
      ⟨room - 1, by have := h.length_le; simp at this; omega⟩
    have htail : IsPart room part := by
      refine ⟨Nat.le_of_succ_le_succ h.length_le, ?_, ?_, ?_, ?_⟩
      · exact fun hm => h.ne_zero (mem_cons_of_mem _ hm)
      · exact fun hm => h.ne_blank (mem_cons_of_mem _ hm)
      · exact fun hm => h.ne_slash (mem_cons_of_mem _ hm)
      · exact fun d hd => h.upper d (mem_cons_of_mem _ hd)
    have hne : ¬ (untilDot = true ∧ c = dot) := by
      rintro ⟨huntil, rfl⟩
      exact hdot huntil mem_cons_self
    have hgood : ¬ (c = blank ∨ c = slash) := by
      rintro (rfl | rfl)
      · exact h.ne_blank mem_cons_self
      · exact h.ne_slash mem_cons_self
    rw [cons_append, takePart, if_neg hne, if_neg hgood,
      ih htail fun huntil hm => hdot huntil (mem_cons_of_mem _ hm), Option.map_some,
      h.upper c mem_cons_self]

/-- The two parts of a stored name. -/
structure IsStored (name base ext : List UInt8) : Prop where
  basePart : IsPart 8 base
  ne_nil : base ≠ []
  ne_dot : dot ∉ base
  extPart : IsPart 3 ext
  eq : name = padded 8 base ++ padded 3 ext

/-- What `filename_to_fat` returns. -/
lemma isStored_of_filenameToFat {text name : List UInt8} (h : filenameToFat text = some name) :
    ∃ base ext, IsStored name base ext := by
  have h0 : 0 ∉ (cstr text).dropWhile fun c => c = slash ∨ c = blank := fun hm =>
    zero_not_mem_cstr text ((dropWhile_suffix _).subset hm)
  unfold filenameToFat at h
  dsimp only at h
  generalize ((cstr text).dropWhile fun c => c = slash ∨ c = blank) = name' at h h0
  by_cases hnil : name' = []
  · simp [hnil] at h
  · simp only [hnil, if_false, Option.bind_eq_bind] at h
    obtain ⟨base, hbase, h⟩ := Option.bind_eq_some_iff.1 h
    obtain ⟨ext, hext, h⟩ := Option.bind_eq_some_iff.1 h
    split_ifs at h with hne
    · cases h
    obtain ⟨hb, hd, hr⟩ := isPart_of_takePart h0 hbase
    refine ⟨base.1, ext, hb, hne, hd rfl, ?_, by simpa using h.symm⟩
    unfold takeExtension at hext
    split at hext
    · cases hext
      exact isPart_nil 3
    · rename_i c rest hdrop
      obtain ⟨⟨part, rest'⟩, hpart, rfl⟩ := Option.map_eq_some_iff.1 hext
      have h0' : 0 ∉ rest := fun hm =>
        hr ((dropWhile_suffix _).subset (hdrop ▸ mem_cons_of_mem _ hm))
      exact (isPart_of_takePart h0' hpart).1

/-- The first byte of a stored name comes from the first character that is not skipped. -/
lemma headD_of_filenameToFat {text name : List UInt8} (h : filenameToFat text = some name) :
    ∃ c rest, ((cstr text).dropWhile fun c => c = slash ∨ c = blank) = c :: rest ∧
      name.headD 0 = toUpper c := by
  unfold filenameToFat at h
  dsimp only at h
  generalize ((cstr text).dropWhile fun c => c = slash ∨ c = blank) = name' at h
  cases name' with
  | nil => simp at h
  | cons c rest =>
    refine ⟨c, rest, rfl, ?_⟩
    simp only [reduceCtorEq, if_false, Option.bind_eq_bind] at h
    obtain ⟨base, hbase, h⟩ := Option.bind_eq_some_iff.1 h
    obtain ⟨ext, -, h⟩ := Option.bind_eq_some_iff.1 h
    split_ifs at h with hne
    · cases h
    rw [takePart] at hbase
    split_ifs at hbase with hdot hbad
    · cases hbase
      exact absurd rfl hne
    · obtain ⟨r, -, rfl⟩ := Option.map_eq_some_iff.1 hbase
      cases h
      rfl

/-- A name that is cut begins with the same byte. -/
lemma headD_of_take {text name cut : List UInt8} {n : ℕ} (h : filenameToFat text = some name)
    (hcut : filenameToFat ((cstr text).take n) = some cut) : cut.headD 0 = name.headD 0 := by
  obtain ⟨c, rest, hc, hname⟩ := headD_of_filenameToFat h
  obtain ⟨d, rest', hd, hcut⟩ := headD_of_filenameToFat hcut
  rw [cstr_eq_self fun hm => zero_not_mem_cstr text (mem_of_mem_take hm)] at hd
  have heq : ∀ (l : List UInt8) (n : ℕ), (l.dropWhile fun c => c = slash ∨ c = blank) = c :: rest →
      ((l.take n).dropWhile fun c => c = slash ∨ c = blank) = d :: rest' → d = c := by
    intro l
    induction l with
    | nil =>
      intro n hl
      cases hl
    | cons b l ih =>
      intro n hl hl'
      cases n with
      | zero => cases hl'
      | succ n =>
        rw [take_succ_cons, dropWhile_cons] at hl'
        rw [dropWhile_cons] at hl
        split_ifs at hl hl' with hskip
        · exact ih n hl hl'
        · cases hl
          cases hl'
          rfl
  rw [hcut, hname, heq _ n hc hd]

lemma length_padded {width : ℕ} {part : List UInt8} (h : part.length ≤ width) :
    (padded width part).length = width := by
  rw [padded, length_append, length_replicate]
  omega

lemma filter_padded {width : ℕ} {part : List UInt8} (h : blank ∉ part) :
    (padded width part).filter (· ≠ blank) = part := by
  rw [padded, filter_append, filter_eq_self.2, filter_eq_nil_iff.2, append_nil]
  · intro c hc
    simp [eq_of_mem_replicate hc]
  · intro c hc
    simpa using ne_of_mem_of_not_mem hc h

section Stored

variable {name base ext : List UInt8} (h : IsStored name base ext)

include h

lemma IsStored.length : name.length = 11 := by
  rw [h.eq, length_append, length_padded h.basePart.length_le, length_padded h.extPart.length_le]

/-- No byte of a stored name is NUL. -/
lemma IsStored.ne_zero : 0 ∉ name := by
  have hpad : ∀ {width part}, 0 ∉ part → 0 ∉ padded width part := by
    intro width part hp hm
    obtain hm | hm := mem_append.1 hm
    · exact hp hm
    · exact absurd (eq_of_mem_replicate hm) (by decide)
  rw [h.eq, mem_append, not_or]
  exact ⟨hpad h.basePart.ne_zero, hpad h.extPart.ne_zero⟩

/-- The text of a stored name. -/
lemma IsStored.fatNameToStr_eq :
    fatNameToStr name = base ++ if ext ≠ [] then dot :: ext else [] := by
  have h8 := length_padded h.basePart.length_le
  have htake : (padded 8 base ++ padded 3 ext).take 8 = padded 8 base := take_left' h8
  have hdrop : (padded 8 base ++ padded 3 ext).drop 8 = padded 3 ext := drop_left' h8
  have hhead : (padded 3 ext).headD blank ≠ blank ↔ ext ≠ [] := by
    cases ext with
    | nil => decide
    | cons c ext =>
      have hc : c ≠ blank := fun hc => h.extPart.ne_blank (hc ▸ mem_cons_self)
      simpa [padded] using hc
  unfold fatNameToStr
  rw [h.eq, htake, hdrop, filter_padded h.basePart.ne_blank, filter_padded h.extPart.ne_blank]
  simp only [hhead]

/-- **A stored name is found again under its text.** -/
lemma IsStored.filenameToFat_fatNameToStr : filenameToFat (fatNameToStr name) = some name := by
  have htext := h.fatNameToStr_eq
  have hzero : 0 ∉ fatNameToStr name := by
    rw [htext, mem_append, not_or]
    refine ⟨h.basePart.ne_zero, ?_⟩
    split_ifs
    · rw [mem_cons, not_or]
      exact ⟨by decide, h.extPart.ne_zero⟩
    · simp
  -- the text begins with the base, so nothing is skipped in front of it
  have hdrop : (fatNameToStr name).dropWhile (fun c => c = slash ∨ c = blank) =
      fatNameToStr name := by
    rw [htext]
    obtain ⟨c, base', hbase⟩ := exists_cons_of_ne_nil h.ne_nil
    have hc : ¬ (c = slash ∨ c = blank) := by
      rintro (rfl | rfl)
      · exact h.basePart.ne_slash (hbase ▸ mem_cons_self)
      · exact h.basePart.ne_blank (hbase ▸ mem_cons_self)
    rw [hbase, cons_append, dropWhile_cons_of_neg]
    simpa using hc
  have hnil : fatNameToStr name ≠ [] := by
    rw [htext]
    simp [h.ne_nil]
  have hpart : takePart true 8 (fatNameToStr name) =
      some (base, if ext ≠ [] then dot :: ext else []) := by
    rw [htext]
    apply takePart_append h.basePart fun _ => h.ne_dot
    split_ifs
    · exact .inr ⟨rfl, rfl⟩
    · exact .inl rfl
  have hext : takeExtension (if ext ≠ [] then dot :: ext else []) = some ext := by
    split_ifs with he
    · have htake : takePart false 3 (ext ++ []) = some (ext, []) :=
        takePart_append h.extPart (by simp) (.inl rfl)
      rw [append_nil] at htake
      simp [takeExtension, htake]
    · rw [not_not] at he
      rw [he]
      rfl
  unfold filenameToFat
  rw [cstr_eq_self hzero]
  simp only [hdrop, hnil, if_false, Option.bind_eq_bind, hpart, Option.bind_some, hext, h.ne_nil]
  rw [h.eq]
  rfl

end Stored

/-! ## Comparison -/

/-- `strcasecmp` returns 0 for names that differ in case only. -/
lemma strcasecmpLoop_eq_zero {s t : List UInt8} (hs : 0 ∉ s) (ht : 0 ∉ t)
    (h : strcasecmpLoop s t = 0) : s.map toLowerCh = t.map toLowerCh := by
  have hlower : ∀ c : UInt8, toLowerCh c = 0 → c = 0 := by
    intro c hc
    unfold toLowerCh at hc
    split_ifs at hc with hcase
    · simp only [UInt8.le_iff_toNat_le, UInt8.toNat_add, UInt8.reduceToNat, UInt8.ext_iff] at *
      omega
    · exact hc
  induction s generalizing t with
  | nil =>
    cases t with
    | nil => rfl
    | cons b t =>
      exfalso
      rw [strcasecmpLoop, headD_cons] at h
      have hb : toLowerCh b = 0 := UInt8.toNat_inj.1 (by rw [UInt8.toNat_zero]; omega)
      exact ht (hlower b hb ▸ mem_cons_self)
  | cons a s ih =>
    rw [strcasecmpLoop] at h
    rw [mem_cons, not_or] at hs
    split_ifs at h with heq
    · cases t with
      | nil => exact absurd (hlower a heq).symm hs.1
      | cons b t =>
        rw [mem_cons, not_or] at ht
        rw [map_cons, map_cons, ih hs.2 ht.2 h]
        rw [headD_cons] at heq
        rw [heq]
    · exfalso
      exact heq (UInt8.toNat_inj.1 (by omega))

/-- The copying loops fold every character. -/
lemma takePart_map_toUpper (untilDot : Bool) (room : ℕ) (name : List UInt8) :
    takePart untilDot room (name.map toUpper) =
      (takePart untilDot room name).map fun r => (r.1, r.2.map toUpper) := by
  induction room generalizing name with
  | zero => rfl
  | succ room ih =>
    cases name with
    | nil => rfl
    | cons c name =>
      have hdot : toUpper c = dot ↔ c = dot := toUpper_eq_iff (by decide)
      have hblank : toUpper c = blank ↔ c = blank := toUpper_eq_iff (by decide)
      have hslash : toUpper c = slash ↔ c = slash := toUpper_eq_iff (by decide)
      rw [map_cons, takePart, takePart]
      simp only [hdot, hblank, hslash, ih, toUpper_toUpper]
      split_ifs
      · rfl
      · rfl
      · rw [Option.map_map, Option.map_map]
        rfl

lemma dropWhile_map_toUpper {p : UInt8 → Bool} (hp : ∀ c, p (toUpper c) = p c)
    (name : List UInt8) : (name.map toUpper).dropWhile p = (name.dropWhile p).map toUpper := by
  induction name with
  | nil => rfl
  | cons c name ih =>
    rw [map_cons, dropWhile_cons, dropWhile_cons, hp]
    split_ifs
    · exact ih
    · rfl

/-- The extension does not depend on the case of the letters. -/
lemma takeExtension_map_toUpper (name : List UInt8) :
    takeExtension (name.map toUpper) = takeExtension name := by
  unfold takeExtension
  rw [dropWhile_map_toUpper]
  · cases name.dropWhile (· ≠ dot) with
    | nil => rfl
    | cons c rest =>
      rw [map_cons]
      dsimp only
      rw [takePart_map_toUpper, Option.map_map]
      rfl
  · intro c
    have hdot : toUpper c = dot ↔ c = dot := toUpper_eq_iff (by decide)
    simp only [ne_eq, hdot]

/-- A name in upper case is stored alike. -/
lemma filenameToFat_map_toUpper {s t : List UInt8} (h : cstr t = (cstr s).map toUpper) :
    filenameToFat t = filenameToFat s := by
  have hskip : ∀ c, decide (toUpper c = slash ∨ toUpper c = blank) =
      decide (c = slash ∨ c = blank) := by
    intro c
    have hblank : toUpper c = blank ↔ c = blank := toUpper_eq_iff (by decide)
    have hslash : toUpper c = slash ↔ c = slash := toUpper_eq_iff (by decide)
    simp only [hblank, hslash]
  unfold filenameToFat
  rw [h, dropWhile_map_toUpper hskip]
  generalize ((cstr s).dropWhile fun c => c = slash ∨ c = blank) = name
  simp only [map_eq_nil_iff, takePart_map_toUpper]
  cases takePart true 8 name with
  | none => rfl
  | some r => simp [takeExtension_map_toUpper]

/-- **Names that `strcasecmp` does not tell apart are stored alike.** -/
lemma filenameToFat_congr {s t : List UInt8} (h : strcasecmp s t = 0) :
    filenameToFat s = filenameToFat t := by
  have hlower := strcasecmpLoop_eq_zero (zero_not_mem_cstr s) (zero_not_mem_cstr t) h
  have hfold : ∀ l : List UInt8, l.map toUpper = (l.map toLowerCh).map toUpper := by
    intro l
    rw [map_map]
    apply map_congr_left
    intro c _
    exact (toUpper_toLowerCh c).symm
  have hzero : 0 ∉ (cstr s).map toUpper := by
    intro hm
    obtain ⟨c, hc, hc0⟩ := mem_map.1 hm
    rw [toUpper_eq_iff (by decide)] at hc0
    exact zero_not_mem_cstr s (hc0 ▸ hc)
  rw [← filenameToFat_map_toUpper (cstr_eq_self hzero)]
  apply filenameToFat_map_toUpper
  rw [cstr_eq_self hzero, hfold, hlower, ← hfold]

end BengalTiger.Fat
