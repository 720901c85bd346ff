import Mathlib.Data.List.Infix
import BengalTiger.Fat.Listing
import BengalTiger.Shell.Line

set_option autoImplicit false

/-!
# Completion of file names

`handle_tab_completion` of `kernel/shell.c` replaces the beginning of a file name before the cursor
by the longest beginning that the matching names have in common. The names are collected through two
arrays with room for 48 of them, so a directory with more files is seen in part only.

## Main definitions

* `Shell.StartsWith` — a name begins with a text, in either case.
* `Shell.Sound` — the completed text is a beginning of every matching name.
* `Shell.Decided` — the matching names that are seen decide for those that are not.

## Main results

* `Shell.le_agree_iff`, `Shell.le_common_iff` — common beginnings.
* `Shell.sound_iff_decided` — when the completion is sound.
-/

namespace BengalTiger.Shell

open ByteMem Fat List

/-! ## Common beginnings -/

/-- How far two strings agree. -/
lemma le_agree_iff {n : ℕ} {s t : List UInt8} :
    n ≤ agree s t ↔ n ≤ s.length ∧ s.take n <+: t := by
  induction s generalizing n t with
  | nil => simp [agree]
  | cons a s ih =>
    cases n with
    | zero => simp
    | succ n =>
      cases t with
      | nil => simp [agree]
      | cons b t =>
        rw [agree, length_cons, take_succ_cons, cons_prefix_cons]
        split_ifs with hab
        · rw [Nat.succ_le_succ_iff, Nat.succ_le_succ_iff, ih]
          simp [hab]
        · simp [hab]

/-- The number of characters that a string has in common with others, as the code computes it. -/
def common (m : List UInt8) (ms : List (List UInt8)) : ℕ :=
  ms.foldl (fun common m' => min common (agree m m')) m.length

variable {m g : List UInt8} {ms : List (List UInt8)}

/-- **The common beginning of several strings.** -/
lemma le_common_iff {n : ℕ} :
    n ≤ common m ms ↔ n ≤ m.length ∧ ∀ f ∈ m :: ms, m.take n <+: f := by
  rw [common, le_foldl_min_iff, forall_mem_cons]
  simp only [le_agree_iff]
  refine and_congr_right fun hn => ⟨fun h => ⟨ take_prefix n m, fun f hf => (h f hf).2⟩,
    fun h f hf => ⟨hn, h.2 f hf⟩⟩

lemma take_common_isPrefix {f : List UInt8} (hf : f ∈ m :: ms) : m.take (common m ms) <+: f :=
  (le_common_iff.1 le_rfl).2 f hf

/-- The strings have no more in common than some two of them. -/
lemma exists_agree_eq_common (m : List UInt8) (ms : List (List UInt8)) :
    ∃ f ∈ m :: ms, agree m f = common m ms := by
  by_contra hne
  -- one more character would be common to all
  have hall : ∀ f ∈ m :: ms, common m ms + 1 ≤ agree m f := by
    intro f hf
    have hle : common m ms ≤ agree m f :=
      le_agree_iff.2 ⟨(le_common_iff.1 le_rfl).1, take_common_isPrefix hf⟩
    exact Nat.lt_of_le_of_ne hle fun heq => hne ⟨f, hf, heq.symm⟩
  have hlen := (le_agree_iff.1 (hall m mem_cons_self)).1
  have hmore : common m ms + 1 ≤ common m ms :=
    le_common_iff.2 ⟨hlen, fun f hf => (le_agree_iff.1 (hall f hf)).2⟩
  omega

/-- Any two of the strings have the common beginning in common. -/
lemma common_le_agree {f f' : List UInt8} (hf : f ∈ m :: ms) (hf' : f' ∈ m :: ms) :
    common m ms ≤ agree f f' ∧ f.take (common m ms) = m.take (common m ms) := by
  have hlen := (le_common_iff.1 (le_refl (common m ms))).1
  have hpre : m.take (common m ms) <+: f := take_common_isPrefix hf
  have heq : f.take (common m ms) = m.take (common m ms) := by
    rw [prefix_iff_eq_take] at hpre
    rw [length_take_of_le hlen] at hpre
    exact hpre.symm
  have hle : common m ms ≤ f.length := by
    have := hpre.length_le
    rwa [length_take_of_le hlen] at this
  exact ⟨le_agree_iff.2 ⟨hle, heq ▸ take_common_isPrefix hf'⟩, heq⟩

/-- **A string shares the common beginning** when it shares that of two of the strings. -/
lemma take_common_isPrefix_iff : m.take (common m ms) <+: g ↔
    ∃ f ∈ m :: ms, ∃ f' ∈ m :: ms, agree f f' ≤ agree f g := by
  constructor
  · intro h
    obtain ⟨f', hf', heq⟩ := exists_agree_eq_common m ms
    refine ⟨m, mem_cons_self, f', hf', ?_⟩
    rw [heq]
    exact le_agree_iff.2 ⟨(le_common_iff.1 le_rfl).1, h⟩
  · rintro ⟨f, hf, f', hf', hle⟩
    obtain ⟨hcommon, heq⟩ := common_le_agree hf hf'
    rw [← heq]
    exact (le_agree_iff.1 (hcommon.trans hle)).2

/-- The strings fit in pairs when their common beginning does. -/
lemma forall_agree_le_iff {n k e : ℕ} :
    (∀ f ∈ m :: ms, ∀ f' ∈ m :: ms, n ≤ k + agree f f' + e) ↔ n ≤ k + common m ms + e := by
  constructor
  · intro h
    obtain ⟨f, hf, heq⟩ := exists_agree_eq_common m ms
    rw [← heq]
    exact h m mem_cons_self f hf
  · intro h f hf f' hf'
    have hle := (common_le_agree hf hf').1
    omega

/-! ## Names in either case -/

/-- A text in lower case. -/
def lower (s : List UInt8) : List UInt8 := s.map toLowerCh

/-- The name `f` begins with `p`, ignoring case. -/
def StartsWith (p f : List UInt8) : Prop := lower p <+: lower f

instance (p f : List UInt8) : Decidable (StartsWith p f) := by
  unfold StartsWith
  infer_instance

lemma toLowerCh_toLowerCh (c : UInt8) : toLowerCh (toLowerCh c) = toLowerCh c := by
  unfold toLowerCh
  split_ifs with h₁ h₂
  · exfalso
    simp only [UInt8.le_iff_toNat_le, UInt8.toNat_add, UInt8.reduceToNat] at *
    omega
  · rfl
  · rfl

lemma toLowerCh_eq_blank {c : UInt8} (h : toLowerCh c = blank) : c = blank := by
  unfold toLowerCh at h
  split_ifs at h with hupper
  · exfalso
    have hval := congrArg UInt8.toNat h
    simp only [UInt8.le_iff_toNat_le, UInt8.toNat_add, UInt8.reduceToNat, blank] at *
    omega
  · exact h

lemma lower_lower (s : List UInt8) : lower (lower s) = lower s := by
  rw [lower, lower, map_map]
  exact map_congr_left fun c _ => toLowerCh_toLowerCh c

lemma lower_take (n : ℕ) (s : List UInt8) : lower ((lower s).take n) = (lower s).take n := by
  rw [lower, map_take, ← lower, lower_lower]

lemma blank_not_mem_lower {s : List UInt8} (h : blank ∉ s) : blank ∉ lower s := by
  intro hmem
  obtain ⟨c, hc, heq⟩ := mem_map.1 hmem
  exact h (toLowerCh_eq_blank heq ▸ hc)

/-- `strncasecmp` with the length of the second string looks for a beginning. -/
lemma strncasecmp_eq_zero_iff {p : List UInt8} (hp : 0 ∉ p) (f : List UInt8) :
    strncasecmp p.length f p = 0 ↔ StartsWith p f := by
  induction p generalizing f with
  | nil => simp [strncasecmp, StartsWith, lower]
  | cons c p ih =>
    rw [mem_cons, not_or] at hp
    obtain ⟨hc, hp⟩ := hp
    cases f with
    | nil =>
      have hne := toLowerCh_ne_zero (Ne.symm hc)
      simp only [length_cons, strncasecmp, headD_cons, StartsWith, lower, map_cons,
        map_nil, prefix_nil, reduceCtorEq, iff_false]
      omega
    | cons a f =>
      rw [length_cons, strncasecmp, headD_cons, tail_cons, StartsWith, lower, lower,
        map_cons, map_cons, cons_prefix_cons]
      split_ifs with heq
      · rw [ih hp, StartsWith, lower, lower]
        simp [heq]
      · refine ⟨fun h => ?_, fun h => absurd h.1.symm heq⟩
        exact absurd (UInt8.toNat_inj.1 (by omega)) heq

/-! ## What the completion sees -/

/-- The matching names that the completion collects, in lower case. -/
def seen (fs : Fs) (p : List UInt8) : List (List UInt8) :=
  ((fs.fileNames.take matchMax).filter (StartsWith p ·)).map lower

/-- The matching names behind the first 48 files, in lower case. -/
def unseen (fs : Fs) (p : List UInt8) : List (List UInt8) :=
  ((fs.fileNames.drop matchMax).filter (StartsWith p ·)).map lower

section Names

variable {fs : Fs} {p : List UInt8}

/-- The text of a stored name. -/
lemma fileName_spec (hs : fs.Consistent) {f : List UInt8} (hf : f ∈ fs.fileNames) :
    0 ∉ f ∧ blank ∉ f ∧ f.length ≤ matchLen := by
  obtain ⟨sh, v, chain, h, hinv⟩ := hs
  obtain ⟨k, hk, rfl⟩ := mem_map.1 hf
  obtain ⟨hk, hlive⟩ := h.mem_liveSlots.1 hk
  obtain ⟨text, htext⟩ := hinv.isName k hk hlive
  obtain ⟨base, ext, hstored⟩ := isStored_of_filenameToFat htext
  have hname : fs.slotName k = base ++ if ext ≠ [] then dot :: ext else [] := by
    rw [Fs.slotName, h.dir k hk, hstored.fatNameToStr_eq]
  have hbase := hstored.basePart.length_le
  have hext := hstored.extPart.length_le
  rw [hname]
  split_ifs with hne
  · refine ⟨?_, ?_, ?_⟩
    · simp only [mem_append, mem_cons, not_or]
      exact ⟨hstored.basePart.ne_zero, by decide, hstored.extPart.ne_zero⟩
    · simp only [mem_append, mem_cons, not_or]
      exact ⟨hstored.basePart.ne_blank, by decide, hstored.extPart.ne_blank⟩
    · rw [length_append, length_cons, matchLen]
      omega
  · rw [append_nil]
    refine ⟨hstored.basePart.ne_zero, hstored.basePart.ne_blank, ?_⟩
    rw [matchLen]
    omega

/-- The candidates of the code are the matching names among the first 48. -/
lemma candidates_eq (hs : fs.Consistent) {s : Line} {tok : ℕ} (hp : 0 ∉ p)
    (htok : ¬∀ i < tok, s.cmdBuf i = blank) : s.candidates fs tok p = seen fs p := by
  have henum : fs.fatEnumerateFiles matchMax = fs.fileNames.take matchMax := by
    obtain ⟨sh, v, chain, h, hinv⟩ := hs
    exact h.fatEnumerateFiles_eq_take hinv matchMax
  have hcstr : (fs.fileNames.take matchMax).map cstr = (fs.fileNames.take matchMax).map id :=
    map_congr_left fun f hf => cstr_eq_self (fileName_spec hs (mem_of_mem_take hf)).1
  rw [Line.candidates, if_neg htok, henum, hcstr, map_id, seen]
  simp only [strncasecmp_eq_zero_iff hp]
  rw [take_of_length_le]
  · refine map_congr_left fun f hf => ?_
    have hlen := (fileName_spec hs (mem_of_mem_take (mem_of_mem_filter hf))).2.2
    rw [take_of_length_le hlen, lower]
  · exact (length_filter_le _ _).trans (length_take_le _ _)

lemma exists_of_mem_seen {m : List UInt8} (hm : m ∈ seen fs p) :
    ∃ f ∈ fs.fileNames, StartsWith p f ∧ m = lower f := by
  obtain ⟨f, hf, rfl⟩ := mem_map.1 hm
  obtain ⟨hmem, hstart⟩ := mem_filter.1 hf
  exact ⟨f, mem_of_mem_take hmem, of_decide_eq_true hstart, rfl⟩

/-- Every matching name is seen or not. -/
lemma forall_matching_iff {P : List UInt8 → Prop} :
    (∀ f ∈ fs.fileNames, StartsWith p f → P (lower f)) ↔
      (∀ m ∈ seen fs p, P m) ∧ ∀ g ∈ unseen fs p, P g := by
  have hsplit := take_append_drop matchMax fs.fileNames
  have hmem : ∀ f, f ∈ fs.fileNames ↔
      f ∈ fs.fileNames.take matchMax ∨ f ∈ fs.fileNames.drop matchMax := by
    intro f
    rw [← mem_append, hsplit]
  simp only [hmem, seen, unseen, forall_mem_map, mem_filter, decide_eq_true_eq]
  constructor
  · exact fun h => ⟨fun f hf => h f (.inl hf.1) hf.2, fun f hf => h f (.inr hf.1) hf.2⟩
  · rintro ⟨h₁, h₂⟩ f (hf | hf) hstart
    · exact h₁ f ⟨hf, hstart⟩
    · exact h₂ f ⟨hf, hstart⟩

lemma length_matching (fs : Fs) (p : List UInt8) :
    (fs.fileNames.filter (StartsWith p ·)).length = (seen fs p).length + (unseen fs p).length := by
  rw [seen, unseen, length_map, length_map, ← length_append, ← filter_append, take_append_drop]

end Names

/-! ## The line after the completion -/

/-- The token before the cursor is replaced by `q`, with a blank behind it if `sp` is true. A file
name has no blanks, so the two can be told apart. -/
def Replaces (fs : Fs) (s : Line) (l₀ r q : List UInt8) (sp : Bool) : Prop :=
  blank ∉ q ∧ (s.handleTabCompletion fs).zipper = ⟨l₀ ++ (q ++ if sp then [blank] else []), r⟩

/-- **The completion is sound**: what replaces the token `p` is a beginning of every name that
begins with `p`, and a blank is put behind it only when there is just one such name. -/
def Sound (fs : Fs) (s : Line) (l₀ p r : List UInt8) : Prop :=
  ∀ q sp, Replaces fs s l₀ r q sp →
    (∀ f ∈ fs.fileNames, StartsWith p f → StartsWith q f) ∧
      (sp = true → (fs.fileNames.filter (StartsWith p ·)).length = 1)

/-- **The names that are seen decide.** No text is put in: the token is too long, or no name that is
seen begins with it, or the line has no room. Or every name that is not seen shares the common
beginning of two of those that are; and where a single one is seen and the cursor stands at the end
of the line, there are no others. -/
def Decided (fs : Fs) (p : List UInt8) (len : ℕ) (atEnd : Prop) : Prop :=
  tokenMax ≤ p.length ∨
  (∀ f ∈ seen fs p, ∀ f' ∈ seen fs p,
    cmdBufMax ≤ len - p.length + agree f f' + if (seen fs p).length = 1 then 2 else 1) ∨
  (∀ g ∈ unseen fs p, ∃ f ∈ seen fs p, ∃ f' ∈ seen fs p, agree f f' ≤ agree f g) ∧
    ((seen fs p).length = 1 → atEnd → unseen fs p = [])

/-- A text without blanks, and a blank behind it or not. -/
lemma append_blank_inj {q q' : List UInt8} {sp sp' : Bool} (hq : blank ∉ q) (hq' : blank ∉ q')
    (h : (q ++ if sp then [blank] else []) = q' ++ if sp' then [blank] else []) :
    q = q' ∧ sp = sp' := by
  cases sp <;> cases sp'
  · simpa using h
  · rw [if_neg Bool.false_ne_true, if_pos rfl, append_nil] at h
    exact absurd (h ▸ mem_append_right _ mem_cons_self) hq
  · rw [if_neg Bool.false_ne_true, if_pos rfl, append_nil] at h
    exact absurd (h ▸ mem_append_right _ mem_cons_self) hq'
  · simpa using h

/-- Soundness for a line that is known. -/
lemma sound_iff_of_zipper {fs : Fs} {s : Line} {l₀ p q r : List UInt8} {sp : Bool} (hq : blank ∉ q)
    (hz : (s.handleTabCompletion fs).zipper = ⟨l₀ ++ (q ++ if sp then [blank] else []), r⟩) :
    Sound fs s l₀ p r ↔ (∀ f ∈ fs.fileNames, StartsWith p f → StartsWith q f) ∧
      (sp = true → (fs.fileNames.filter (StartsWith p ·)).length = 1) := by
  refine ⟨fun h => h q sp ⟨hq, hz⟩, ?_⟩
  rintro h q' sp' ⟨hq', hz'⟩
  rw [hz, Zipper.mk.injEq, append_cancel_left_eq] at hz'
  obtain ⟨rfl, rfl⟩ := append_blank_inj hq hq' hz'.1
  exact h

/-- The beginning of the token before the cursor. -/
lemma tokStart_eq {buf : Mem} {l₀ p : List UInt8} (hstored : Stores buf 0 (l₀ ++ p))
    (hlast : l₀.getLast? = some blank) (hp : blank ∉ p) :
    tokStart buf (l₀.length + p.length) = l₀.length := by
  induction p using List.reverseRecOn with
  | nil =>
    obtain ⟨l₁, rfl⟩ := getLast?_eq_some_iff.1 hlast
    rw [append_nil] at hstored
    have hblank := (stores_cons.1 (stores_append.1 hstored).2).1
    rw [Nat.zero_add] at hblank
    rw [length_nil, Nat.add_zero, length_append, length_singleton, tokStart, if_pos hblank]
  | append_singleton p c ih =>
    rw [mem_append, mem_singleton, not_or] at hp
    rw [← append_assoc] at hstored
    obtain ⟨hfront, hback⟩ := stores_append.1 hstored
    have hc := (stores_cons.1 hback).1
    rw [Nat.zero_add, length_append] at hc
    rw [length_append, length_singleton, ← Nat.add_assoc, tokStart,
      if_neg (by rw [hc]; exact Ne.symm hp.2)]
    exact ih hfront hp.1

/-- The last part of `handle_tab_completion`, with the names that were collected. -/
def Line.completeWith (s : Line) (tok : ℕ) (preLen : ℤ) : List (List UInt8) → Line
  | [] => s
  | [m] =>
    let add : ℤ := m.length - preLen
    if s.cmdLen + add + 2 < cmdBufMax then
      let t := s.splice tok m add
      if t.cmdCursor = t.cmdLen ∧ t.cmdLen + 1 < cmdBufMax then t.appendBlank else t
    else s
  | m :: m' :: ms =>
    if common m (m' :: ms) > preLen ∧
        s.cmdLen + (common m (m' :: ms) - preLen) + 1 < cmdBufMax then
      s.splice tok (m.take (common m (m' :: ms))) (common m (m' :: ms) - preLen)
    else s

/-- The completion of the token that ends at the cursor. -/
lemma Line.handleTabCompletion_eq (s : Line) (fs : Fs) {tok : ℕ} {preLen : ℤ}
    (htok : tokStart s.cmdBuf s.cmdCursor.toNat = tok) (hlen : s.cmdCursor - tok = preLen) :
    s.handleTabCompletion fs = if preLen ≥ tokenMax then s else
      s.completeWith tok preLen (s.candidates fs tok (read s.cmdBuf tok preLen.toNat)) := by
  unfold Line.handleTabCompletion
  dsimp only
  rw [htok, hlen]
  split_ifs
  · rfl
  · generalize s.candidates fs tok (read s.cmdBuf tok preLen.toNat) = ms
    cases ms with
    | nil => rfl
    | cons m ms =>
      cases ms with
      | nil => rfl
      | cons m' ms => rfl

section Completion

variable {fs : Fs} {s : Line} {l₀ p r : List UInt8}

/-- The completion with the names that are seen. -/
lemma handleTabCompletion_of_shows (hs : fs.Consistent) (h : Line.Shows s (l₀ ++ p) r)
    (hlast : l₀.getLast? = some blank) (hpast : ∃ c ∈ l₀, c ≠ blank) (hp : blank ∉ p) :
    s.handleTabCompletion fs = if tokenMax ≤ p.length then s else
      s.completeWith l₀.length p.length (seen fs p) := by
  have hcursor := h.cursor
  rw [length_append] at hcursor
  have hzero : 0 ∉ p := fun h0 =>
    h.noZero (mem_append_left _ (mem_append_right _ h0))
  obtain ⟨hfront, -⟩ := stores_append.1 h.stored
  have hpos : s.cmdCursor.toNat = l₀.length + p.length := by omega
  have htok : tokStart s.cmdBuf s.cmdCursor.toNat = l₀.length := by
    rw [hpos]
    exact tokStart_eq hfront hlast hp
  have hread : read s.cmdBuf l₀.length (p.length : ℤ).toNat = p := by
    have hback := (stores_append.1 hfront).2
    rw [Nat.zero_add] at hback
    rw [Int.toNat_natCast]
    exact hback.read_eq
  have hother : ¬∀ i < l₀.length, s.cmdBuf i = blank := by
    obtain ⟨c, hc, hne⟩ := hpast
    obtain ⟨i, hi, rfl⟩ := getElem_of_mem hc
    intro hall
    have hget := (stores_append.1 hfront).1 i _ (getElem?_eq_getElem hi)
    rw [Nat.zero_add, hall i hi] at hget
    exact hne hget.symm
  have hlen : s.cmdCursor - (l₀.length : ℕ) = (p.length : ℤ) := by omega
  rw [s.handleTabCompletion_eq fs htok hlen, hread, candidates_eq hs hzero hother]
  simp only [ge_iff_le, Nat.cast_le]

/-- A line that stays as it is. -/
lemma sound_of_unchanged (h : Line.Shows s (l₀ ++ p) r) (hp : blank ∉ p)
    (hsame : s.handleTabCompletion fs = s) : Sound fs s l₀ p r := by
  have hz : (s.handleTabCompletion fs).zipper =
      ⟨l₀ ++ (p ++ if false then [blank] else []), r⟩ := by
    rw [hsame, h.zipper_eq, if_neg Bool.false_ne_true, append_nil]
  rw [sound_iff_of_zipper hp hz]
  exact ⟨fun _ _ hf => hf, fun hf => absurd hf Bool.false_ne_true⟩

/-- A line with the common beginning of the names that are seen. -/
lemma sound_iff_of_common (hs : fs.Consistent) {m : List UInt8} {ms : List (List UInt8)} {sp : Bool}
    (hseen : seen fs p = m :: ms)
    (hz : (s.handleTabCompletion fs).zipper =
      ⟨l₀ ++ (m.take (common m ms) ++ if sp then [blank] else []), r⟩) :
    Sound fs s l₀ p r ↔
      (∀ g ∈ unseen fs p, ∃ f ∈ m :: ms, ∃ f' ∈ m :: ms, agree f f' ≤ agree f g) ∧
        (sp = true → ms = [] ∧ unseen fs p = []) := by
  obtain ⟨name, hname, -, hm⟩ := exists_of_mem_seen (hseen ▸ mem_cons_self : m ∈ seen fs p)
  have hq : blank ∉ m.take (common m ms) := fun hmem => by
    rw [hm] at hmem
    exact blank_not_mem_lower (fileName_spec hs hname).2.1 (mem_of_mem_take hmem)
  have hlow : lower (m.take (common m ms)) = m.take (common m ms) := by
    rw [hm, lower_take]
  have hall : (∀ f ∈ fs.fileNames, StartsWith p f → StartsWith (m.take (common m ms)) f) ↔
      ∀ g ∈ unseen fs p, ∃ f ∈ m :: ms, ∃ f' ∈ m :: ms, agree f f' ≤ agree f g := by
    have hstart : ∀ f, StartsWith (m.take (common m ms)) f ↔ m.take (common m ms) <+: lower f :=
      fun f => by rw [StartsWith, hlow]
    simp only [hstart]
    rw [forall_matching_iff (P := fun x => m.take (common m ms) <+: x), hseen]
    simp only [take_common_isPrefix_iff]
    exact and_iff_right fun f hf => take_common_isPrefix_iff.1 (take_common_isPrefix hf)
  rw [sound_iff_of_zipper hq hz, hall, length_matching, hseen, length_cons]
  refine and_congr_right fun _ => imp_congr_right fun _ => ?_
  rw [← length_eq_zero_iff, ← length_eq_zero_iff]
  omega

lemma not_mem_of_mem_seen (hs : fs.Consistent) {m : List UInt8} (hm : m ∈ seen fs p) : 0 ∉ m := by
  obtain ⟨f, hf, -, rfl⟩ := exists_of_mem_seen hm
  intro h0
  obtain ⟨c, hc, heq⟩ := mem_map.1 h0
  have hne : c ≠ 0 := fun hc0 => (fileName_spec hs hf).1 (hc0 ▸ hc)
  exact toLowerCh_ne_zero hne (by rw [heq]; rfl)

/-- The line with the only name that is seen. -/
lemma zipper_completeWith_single (h : Line.Shows s (l₀ ++ p) r) {m : List UInt8} (h0 : 0 ∉ m)
    (hroom : s.cmdLen + ((m.length : ℤ) - p.length) + 2 < cmdBufMax) :
    (s.completeWith l₀.length p.length [m]).zipper =
      ⟨l₀ ++ (m.take (common m []) ++ if decide (r = []) then [blank] else []), r⟩ := by
  obtain ⟨h', -⟩ := h.splice h0 rfl
    (show s.cmdLen + ((m.length : ℤ) - p.length) < cmdBufMax by omega)
  have hcursor := h'.cursor
  have hlen := h'.len
  rw [length_append] at hlen
  have hsame : m.take (common m []) = m := take_length
  rw [Line.completeWith, if_pos hroom, hsame]
  dsimp only
  by_cases hr : r = []
  · subst hr
    have hfits : (s.splice l₀.length m ((m.length : ℤ) - p.length)).cmdLen + 1 < cmdBufMax := by
      show s.cmdLen + ((m.length : ℤ) - p.length) + 1 < cmdBufMax
      omega
    have hend : (s.splice l₀.length m ((m.length : ℤ) - p.length)).cmdCursor =
        (s.splice l₀.length m ((m.length : ℤ) - p.length)).cmdLen := by
      rw [hcursor, hlen, length_nil, Nat.add_zero]
    rw [if_pos ⟨hend, hfits⟩, (h'.appendBlank hfits).1.zipper_eq, decide_eq_true rfl, if_pos rfl,
      append_assoc]
  · have hend : ¬(s.splice l₀.length m ((m.length : ℤ) - p.length)).cmdCursor =
        (s.splice l₀.length m ((m.length : ℤ) - p.length)).cmdLen := by
      have hpos := length_pos_iff.2 hr
      omega
    rw [if_neg fun hc => hend hc.1, h'.zipper_eq, decide_eq_false hr, if_neg Bool.false_ne_true,
      append_nil]

/-- The line with the common beginning of several names that are seen. -/
lemma zipper_completeWith_several (h : Line.Shows s (l₀ ++ p) r) {m m' : List UInt8}
    {ms : List (List UInt8)} (h0 : 0 ∉ m) (hmore : p.length < common m (m' :: ms))
    (hroom : s.cmdLen + ((common m (m' :: ms) : ℤ) - p.length) + 1 < cmdBufMax) :
    (s.completeWith l₀.length p.length (m :: m' :: ms)).zipper =
      ⟨l₀ ++ (m.take (common m (m' :: ms)) ++ if false then [blank] else []), r⟩ := by
  have hlen := length_take_of_le (le_common_iff.1 (le_refl (common m (m' :: ms)))).1
  have hzero : 0 ∉ m.take (common m (m' :: ms)) := fun hmem => h0 (mem_of_mem_take hmem)
  obtain ⟨h', -⟩ := h.splice hzero (by rw [hlen])
    (show s.cmdLen + ((common m (m' :: ms) : ℤ) - p.length) < cmdBufMax by omega)
  rw [Line.completeWith, if_pos ⟨by omega, hroom⟩, h'.zipper_eq, if_neg Bool.false_ne_true,
    append_nil]

/-- Two matching names agree on the token. -/
lemma length_le_agree {f g : List UInt8} (hf : f ∈ seen fs p) (hg : g ∈ unseen fs p) :
    p.length ≤ agree f g := by
  obtain ⟨name, -, hstart, rfl⟩ := exists_of_mem_seen hf
  obtain ⟨name', hname', rfl⟩ := mem_map.1 hg
  have hstart' : lower p <+: lower name' := of_decide_eq_true (mem_filter.1 hname').2
  have hlen : (lower p).length = p.length := length_map ..
  rw [← hlen, le_agree_iff]
  refine ⟨hstart.length_le, ?_⟩
  rw [← prefix_iff_eq_take.1 hstart]
  exact hstart'

/-- **When the completion is sound.** The token at the cursor is not the first of the line.

**Proof sketch.** The line after the key is known in each case. Where nothing is put in there is
nothing to show. Where the common beginning of the names that are seen is put in, those names have
it; one that is not seen has it when it agrees with one of them for as long as two of them do. -/
theorem sound_iff_decided (hs : fs.Consistent) (h : Line.Shows s (l₀ ++ p) r)
    (hlast : l₀.getLast? = some blank) (hpast : ∃ c ∈ l₀, c ≠ blank) (hp : blank ∉ p) :
    Sound fs s l₀ p r ↔ Decided fs p (l₀ ++ p ++ r).length (r = []) := by
  have hkey := handleTabCompletion_of_shows hs h hlast hpast hp
  have hlen := h.len
  rw [length_append, length_append] at hlen
  have hrest : (l₀ ++ p ++ r).length - p.length = l₀.length + r.length := by
    rw [length_append, length_append]
    omega
  rw [Decided, hrest]
  by_cases hlong : tokenMax ≤ p.length
  · rw [if_pos hlong] at hkey
    exact iff_of_true (sound_of_unchanged h hp hkey) (.inl hlong)
  rw [if_neg hlong] at hkey
  rcases hseen : seen fs p with - | ⟨m, ms⟩
  · rw [hseen] at hkey
    refine iff_of_true (sound_of_unchanged h hp hkey) (.inr (.inl fun f hf => ?_))
    exact absurd hf not_mem_nil
  have hm : m ∈ seen fs p := hseen ▸ mem_cons_self
  have h0 := not_mem_of_mem_seen hs hm
  rw [forall_agree_le_iff]
  rcases ms with - | ⟨m', ms⟩
  · have hcommon : common m [] = m.length := rfl
    rw [if_pos length_singleton, hcommon]
    by_cases hroom : s.cmdLen + ((m.length : ℤ) - p.length) + 2 < cmdBufMax
    · have hz := zipper_completeWith_single h h0 hroom
      rw [← hseen, ← hkey] at hz
      rw [sound_iff_of_common hs hseen hz, or_iff_right hlong, or_iff_right (by omega)]
      simp
    · rw [hseen, Line.completeWith, if_neg hroom] at hkey
      exact iff_of_true (sound_of_unchanged h hp hkey) (.inr (.inl (by omega)))
  · have hone : ¬(m :: m' :: ms).length = 1 := by
      rw [length_cons, length_cons]
      omega
    rw [if_neg hone]
    by_cases hmore : p.length < common m (m' :: ms)
    · by_cases hroom : s.cmdLen + ((common m (m' :: ms) : ℤ) - p.length) + 1 < cmdBufMax
      · have hz := zipper_completeWith_several h h0 hmore hroom
        rw [← hseen, ← hkey] at hz
        rw [sound_iff_of_common hs hseen hz, or_iff_right hlong, or_iff_right (by omega)]
        simp
      · rw [hseen, Line.completeWith, if_neg fun hc => hroom hc.2] at hkey
        exact iff_of_true (sound_of_unchanged h hp hkey) (.inr (.inl (by omega)))
    · rw [hseen, Line.completeWith, if_neg fun hc => hmore (by omega)] at hkey
      refine iff_of_true (sound_of_unchanged h hp hkey)
        (.inr (.inr ⟨fun g hg => ?_, fun h1 => absurd h1 hone⟩))
      obtain ⟨f', hf', heq⟩ := exists_agree_eq_common m (m' :: ms)
      have hle := length_le_agree hm hg
      exact ⟨m, mem_cons_self, f', hf', by omega⟩

end Completion

/-! ## A directory with 49 files -/

/-- A line with the cursor at its end. -/
def lineOf (text : List UInt8) : Line :=
  ⟨write (fun _ => 0) 0 (text ++ [0]), text.length, text.length, [], -1⟩

lemma shows_lineOf {text : List UInt8} (h0 : 0 ∉ text) (hroom : text.length < cmdBufMax) :
    Line.Shows (lineOf text) text [] := by
  refine Line.shows_mk rfl (by rw [append_nil]) ?_ (by rwa [append_nil])
    (by rwa [append_nil])
  rw [nil_append]
  exact stores_write _ _ _

/-- The names of 49 files: `F00` to `F46`, `NOTE1.TXT` and `NOTE2.TXT`. -/
def crowdNames : List (List UInt8) :=
  ((List.range 47).map fun n =>
    ['F'.toUInt8, UInt8.ofNat (48 + n / 10), UInt8.ofNat (48 + n % 10)]) ++
    [ascii "NOTE1.TXT".toList, ascii "NOTE2.TXT".toList]

/-- The names as they are stored. -/
def crowdStored : List (List UInt8) := crowdNames.map fun n => (filenameToFat n).getD []

/-- A volume with 49 empty files. -/
@[irreducible] def crowdedFs : Fs :=
  crowdNames.foldl (fun t f => (t.fatWriteFile f []).2)
    ((blankFs 64).formatted (formatGeometry 64) [])

/-- The crowded volume is consistent and has these files. -/
lemma crowdedFs_spec : crowdedFs.Consistent ∧ crowdedFs.fileNames = crowdNames := by
  have hg := formatGeometry_ok (n := 64) (by decide)
  obtain ⟨sh, v, h, hfat, hdir, hslots, -, -⟩ :=
    Fs.holds_formatted (s := blankFs 64) (by decide) (by decide) []
  have hents := hg.rootEnts_ge
  have hlen : crowdStored.length = 49 := by decide +kernel
  obtain ⟨w, chain, hw, hinv, hp⟩ := h.createAll crowdNames crowdStored (Vol.inv_empty hfat hdir)
    (Vol.packed_nil hdir) (by decide +kernel) (by decide +kernel) (by decide +kernel)
    (by rw [hlen, length_nil, hslots]; exact le_trans (by decide) hents)
  rw [nil_append] at hp
  have hnames := hw.fileNames_of_packed hp
  have hback : crowdStored.map fatNameToStr = crowdNames := by decide +kernel
  unfold crowdedFs
  exact ⟨⟨sh, w, chain, hw, hinv⟩, hnames.trans hback⟩

/-- **A file that is not seen.** After `cat n` the key completes `note1.txt` and puts a blank behind
it, though the directory has `NOTE2.TXT` as well. -/
theorem completion_misses_file : crowdedFs.Consistent ∧
    Line.Shows (lineOf (ascii "cat n".toList)) (ascii "cat ".toList ++ ascii "n".toList) [] ∧
    ascii "NOTE1.TXT".toList ∈ crowdedFs.fileNames ∧
    ascii "NOTE2.TXT".toList ∈ crowdedFs.fileNames ∧
    ((lineOf (ascii "cat n".toList)).handleTabCompletion crowdedFs).zipper =
      ⟨ascii "cat note1.txt ".toList, []⟩ ∧
    ¬ Sound crowdedFs (lineOf (ascii "cat n".toList)) (ascii "cat ".toList)
      (ascii "n".toList) [] := by
  obtain ⟨hs, hnames⟩ := crowdedFs_spec
  have hshows : Line.Shows (lineOf (ascii "cat n".toList))
      (ascii "cat ".toList ++ ascii "n".toList) [] := shows_lineOf (by decide) (by decide)
  have hseen : seen crowdedFs (ascii "n".toList) = [ascii "note1.txt".toList] := by
    rw [seen, hnames]
    decide +kernel
  have hsecond : ascii "NOTE2.TXT".toList ∈ crowdedFs.fileNames := by
    rw [hnames]
    decide +kernel
  have hkey := handleTabCompletion_of_shows hs hshows rfl ⟨'c'.toUInt8, by decide, by decide⟩
    (by decide)
  rw [if_neg (by decide), hseen] at hkey
  have hz := zipper_completeWith_single hshows (m := ascii "note1.txt".toList) (by decide)
    (by decide)
  rw [← hkey] at hz
  refine ⟨hs, hshows, by rw [hnames]; decide +kernel, hsecond, hz, fun hsound => ?_⟩
  have hall := (hsound (ascii "note1.txt".toList) true ⟨by decide, hz⟩).1
  exact absurd (hall _ hsecond (by decide)) (by decide)

/-- The names with `f` are all seen. -/
theorem sound_iff_decided_crowded : crowdedFs.Consistent ∧
    Line.Shows (lineOf (ascii "cat f".toList)) (ascii "cat ".toList ++ ascii "f".toList) [] ∧
    Sound crowdedFs (lineOf (ascii "cat f".toList)) (ascii "cat ".toList)
      (ascii "f".toList) [] := by
  obtain ⟨hs, hnames⟩ := crowdedFs_spec
  have hshows : Line.Shows (lineOf (ascii "cat f".toList))
      (ascii "cat ".toList ++ ascii "f".toList) [] := shows_lineOf (by decide) (by decide)
  have hunseen : unseen crowdedFs (ascii "f".toList) = [] := by
    rw [unseen, hnames]
    decide +kernel
  refine ⟨hs, hshows, (sound_iff_decided hs hshows rfl ⟨'c'.toUInt8, by decide, by decide⟩
    (by decide)).2 (.inr (.inr ⟨fun g hg => ?_, fun _ _ => hunseen⟩))⟩
  rw [hunseen] at hg
  exact absurd hg not_mem_nil

end BengalTiger.Shell
