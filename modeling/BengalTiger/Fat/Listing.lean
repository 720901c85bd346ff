import BengalTiger.Fat.Run

set_option autoImplicit false

/-!
# Listing and lookup

The names that `fat_enumerate_files` lists are texts made of stored names. Each is converted back
to the name it was made of, so looking it up finds the entry it was listed from.

## Main definitions

* `Fat.Vol.Packed` — a directory without gaps.

## Main results

* `Fat.Fs.Holds.createAll` — new files are listed in the order in which they are made.
* `Fat.listing_lookup_agree` — in every state of a run, listing and lookup agree.
-/

namespace BengalTiger.Fat

open Function List

namespace Fs

variable {s : Fs} {sh : Shape} {v : Vol} {chain : ℕ → List ℕ} {k : ℕ}

/-- The text of the name in a slot. -/
def slotName (s : Fs) (k : ℕ) : List UInt8 := fatNameToStr (s.slotEntry k).name

variable (h : s.Holds sh v)

include h

lemma Holds.liveSlots_eq : v.liveSlots sh = s.liveSlots := by
  rw [Vol.liveSlots, liveSlots, Fs.slots, h.slots]
  apply filter_congr
  intro k hk
  rw [h.dir k (mem_range.1 hk)]

/-- The names of the files in the root directory. -/
def fileNames (s : Fs) : List (List UInt8) := s.liveSlots.map s.slotName

/-- The listed names: as many as there is room for. -/
lemma Holds.fatEnumerateFiles_eq_take (hinv : v.Inv sh chain) (maxFiles : ℕ) :
    s.fatEnumerateFiles maxFiles = s.fileNames.take maxFiles := by
  rw [fatEnumerateFiles, if_neg (by rw [h.geom.mounted]; simp), h.listed_eq hinv.sane,
    h.liveSlots_eq, map_take, map_map]
  rfl

/-- The listed names, when there is room for all of them. -/
lemma Holds.fatEnumerateFiles_eq (hinv : v.Inv sh chain) {maxFiles : ℕ}
    (hmax : s.liveSlots.length ≤ maxFiles) :
    s.fatEnumerateFiles maxFiles = s.liveSlots.map s.slotName := by
  rw [h.fatEnumerateFiles_eq_take hinv, fileNames, take_of_length_le (by rwa [length_map])]

/-- **The text of a stored name is converted back to it.** -/
lemma Holds.filenameToFat_slotName (hinv : v.Inv sh chain) (hk : k ∈ s.liveSlots) :
    filenameToFat (s.slotName k) = some (s.slotEntry k).name := by
  obtain ⟨hk, hlive⟩ := h.mem_liveSlots.1 hk
  obtain ⟨text, htext⟩ := hinv.isName k hk hlive
  obtain ⟨base, ext, hstored⟩ := isStored_of_filenameToFat htext
  rw [slotName, h.dir k hk]
  exact hstored.filenameToFat_fatNameToStr

/-- Looking up the text of a stored name finds its entry. -/
lemma Holds.findDirentVal_slotName (hinv : v.Inv sh chain) (hk : k ∈ s.liveSlots) :
    s.findDirentVal (s.slotName k) = some (s.slotAt k) := by
  obtain ⟨hk', hlive⟩ := h.mem_liveSlots.1 hk
  have hlook : v.lookup sh (s.slotEntry k).name = some k := by
    rw [hinv.lookup_eq_some, h.dir k hk']
    exact ⟨hk', hlive, rfl⟩
  rw [h.findDirentVal_eq hinv.sane, h.filenameToFat_slotName hinv hk, Option.bind_some, hlook,
    Option.map_some]

end Fs

/-! ## A directory without gaps -/

namespace Vol

/-- **The first slots are live, and no others**; `names` are the stored names in their order. -/
structure Packed (sh : Shape) (v : Vol) (names : List (List UInt8)) : Prop where
  le_slots : names.length ≤ sh.slots
  live : ∀ k < sh.slots, (v.dir k).isLive = true ↔ k < names.length
  name : ∀ k n, names[k]? = some n → (v.dir k).name = n

variable {sh : Shape} {v : Vol} {names : List (List UInt8)} {fatName : List UInt8}

lemma packed_nil (hdir : ∀ k < sh.slots, (v.dir k).first = 0) : v.Packed sh [] := by
  refine ⟨Nat.zero_le _, fun k hk => ?_, fun k n hn => ?_⟩
  · rw [length_nil]
    exact ⟨fun hlive => absurd (hdir k hk) (first_ne_zero_of_isLive hlive), fun h => by omega⟩
  · rw [getElem?_nil] at hn
    cases hn

/-- The live slots of a packed directory are the first ones. -/
lemma Packed.liveSlots_eq (h : v.Packed sh names) :
    v.liveSlots sh = List.range names.length := by
  obtain ⟨d, hd⟩ := Nat.exists_eq_add_of_le h.le_slots
  have hfront : (List.range names.length).filter (fun k => (v.dir k).isLive) =
      List.range names.length := by
    refine filter_eq_self.2 fun k hk => ?_
    have hlt := mem_range.1 hk
    exact (h.live k (by omega)).2 hlt
  have hback : ((List.range d).map (names.length + ·)).filter (fun k => (v.dir k).isLive) = [] := by
    refine filter_eq_nil_iff.2 fun k hk hlive => ?_
    obtain ⟨i, hi, rfl⟩ := mem_map.1 hk
    have hlt := mem_range.1 hi
    have := (h.live (names.length + i) (by omega)).1 hlive
    omega
  rw [liveSlots, hd, range_add, filter_append, hfront, hback, append_nil]

/-- A new file gets the slot behind the others. -/
lemma Packed.target_eq (h : v.Packed sh names) (hnew : fatName ∉ names)
    (hroom : names.length < sh.slots) : v.target sh fatName = some names.length := by
  have hlookup : v.lookup sh fatName = none := by
    refine find?_eq_none.2 fun k hk => ?_
    have hk := mem_range.1 hk
    rw [Bool.and_eq_true, beq_iff_eq]
    rintro ⟨hlive, hname⟩
    have hlt := (h.live k hk).1 hlive
    rw [h.name k _ (getElem?_eq_getElem hlt)] at hname
    exact hnew (hname ▸ getElem_mem hlt)
  have hdead : (v.dir names.length).isLive = false := by
    rw [← Bool.not_eq_true, h.live _ hroom]
    omega
  rw [target, hlookup, Option.none_or, freeSlot, find?_range_eq_some]
  refine ⟨by rw [hdead]; rfl, mem_range.2 hroom, fun j hj => ?_⟩
  rw [(h.live j (by omega)).2 hj]
  rfl

/-- A new file behind the last one keeps the directory packed. -/
lemma Packed.writeSlot (h : v.Packed sh names)
    (hlive : (v.fileEntry sh names.length fatName []).isLive = true)
    (hroom : names.length < sh.slots) :
    (v.writeSlot sh names.length fatName []).Packed sh (names ++ [fatName]) := by
  have hdir : (v.writeSlot sh names.length fatName []).dir =
      update v.dir names.length (v.fileEntry sh names.length fatName []) := rfl
  refine ⟨?_, fun k hk => ?_, fun k n hn => ?_⟩
  · rw [length_append, length_singleton]
    omega
  · rw [hdir, length_append, length_singleton]
    rcases eq_or_ne k names.length with rfl | hne
    · rw [update_self]
      exact iff_of_true hlive (Nat.lt_succ_self _)
    · rw [update_of_ne hne, h.live k hk]
      omega
  · rw [hdir]
    rcases eq_or_ne k names.length with rfl | hne
    · rw [getElem?_concat_length, Option.some_inj] at hn
      rw [update_self, ← hn]
      rfl
    · have hlt : k < names.length := by
        have := (List.getElem?_eq_some_iff.1 hn).1
        rw [length_append, length_singleton] at this
        omega
      rw [getElem?_append_left hlt] at hn
      rw [update_of_ne hne]
      exact h.name k n hn

end Vol

namespace Fs

variable {s : Fs} {sh : Shape} {v : Vol} {chain : ℕ → List ℕ} {names : List (List UInt8)}

lemma Holds.fileNames_of_packed (h : s.Holds sh v) (hp : v.Packed sh names) :
    s.fileNames = names.map fatNameToStr := by
  have hle := hp.le_slots
  rw [fileNames, ← h.liveSlots_eq, hp.liveSlots_eq]
  refine ext_getElem (by simp) fun k hk hk' => ?_
  rw [getElem_map, getElem_map, getElem_range, slotName]
  rw [length_map, length_range] at hk
  rw [h.dir k (by omega), hp.name k _ (getElem?_eq_getElem hk)]

/-- **Empty files are made one after the other.** -/
lemma Holds.createAll (files stored : List (List UInt8)) (h : s.Holds sh v)
    (hinv : v.Inv sh chain) (hp : v.Packed sh names)
    (hfiles : files.map filenameToFat = stored.map some)
    (hplain : ∀ n ∈ stored, n.headD 0 ≠ 0xE5) (hnodup : (names ++ stored).Nodup)
    (hroom : names.length + stored.length ≤ sh.slots) :
    ∃ w chain', (files.foldl (fun t f => (t.fatWriteFile f []).2) s).Holds sh w ∧
      w.Inv sh chain' ∧ w.Packed sh (names ++ stored) := by
  induction files generalizing s v chain names stored with
  | nil =>
    have hnil : stored = [] := by simpa using hfiles.symm
    subst hnil
    rw [append_nil]
    exact ⟨v, chain, h, hinv, hp⟩
  | cons f files ih =>
    cases stored with
    | nil => simp at hfiles
    | cons n stored =>
      rw [map_cons, map_cons, List.cons.injEq] at hfiles
      obtain ⟨hn, hfiles⟩ := hfiles
      have hnew : n ∉ names := fun hmem =>
        (nodup_append.1 hnodup).2.2 n hmem n mem_cons_self rfl
      rw [length_cons] at hroom
      -- the next file goes to the slot behind the last
      have ht := hp.target_eq hnew (show names.length < sh.slots by omega)
      have hE5 := hplain n mem_cons_self
      have hfits : v.Fits sh names.length [] := by
        rw [Vol.Fits, length_nil, Shape.need_zero]
        exact Nat.zero_le _
      obtain ⟨hk, hprev, hother, -⟩ := hinv.target_spec ht
      obtain ⟨-, hafter⟩ := h.fatWriteFile hinv hn ht []
      rw [if_pos hfits] at hafter
      have hinv' := hinv.writeSlot hk ⟨_, hn⟩ hE5 hprev hother hfits
      have hp' := hp.writeSlot (Vol.isLive_fileEntry ⟨_, hn⟩ hE5) hk
      obtain ⟨w, chain', hw, hwinv, hwp⟩ := ih stored hafter.2 hinv' hp' hfiles
        (fun m hm => hplain m (mem_cons_of_mem _ hm)) (by rwa [append_assoc])
        (by rw [length_append, length_singleton]; omega)
      rw [append_assoc] at hwp
      exact ⟨w, chain', hw, hwinv, hwp⟩

end Fs

/-- **Listing and lookup agree.** In every state of a run, the names of the live entries are listed
when there is room for them: as many as are reported, all different. Looking up a listed name finds
the entry it was listed from, and a name that exists is stored as a listed one is. -/
theorem listing_lookup_agree {t : Fs} (h : driver.Reachable t) {maxFiles : ℕ}
    (hmax : t.liveSlots.length ≤ maxFiles) :
    t.fatEnumerateFiles maxFiles = t.liveSlots.map t.slotName ∧
      (t.fatEnumerateFiles maxFiles).length = t.fatGetFsInfo.fileCount ∧
      (t.fatEnumerateFiles maxFiles).Nodup ∧
      (∀ k ∈ t.liveSlots, t.fatStatFile (t.slotName k) = some (t.slotName k,
        (t.slotEntry k).attr, (t.slotEntry k).size, (t.slotEntry k).cluster)) ∧
      ∀ name, t.fatFileExists name = true → ∃ listed ∈ t.fatEnumerateFiles maxFiles,
        ∃ fatName, filenameToFat name = some fatName ∧ filenameToFat listed = some fatName := by
  obtain ⟨sh, v, chain, hv, hinv⟩ := consistent_of_reachable h
  have henum := hv.fatEnumerateFiles_eq hinv hmax
  refine ⟨henum, ?_, ?_, ?_, ?_⟩
  · rw [henum, (Fs.fatGetFsInfo_of_mounted hv.geom.mounted).2.2, hv.listed_eq hinv.sane,
      hv.liveSlots_eq, length_map, length_map]
  · have hnodup : t.liveSlots.Nodup := List.Nodup.filter _ nodup_range
    rw [henum, nodup_map_iff_inj_on hnodup]
    intro j hj k hk hname
    have hfat := hv.filenameToFat_slotName hinv hj
    rw [hname, hv.filenameToFat_slotName hinv hk, Option.some_inj] at hfat
    exact ((hv.intact hinv).names k hk j hj hfat).symm
  · intro k hk
    rw [Fs.fatStatFile, hv.findDirentVal_slotName hinv hk]
    rfl
  · intro name hexists
    rw [Fs.fatFileExists, hv.findDirentVal_eq hinv.sane] at hexists
    cases hn : filenameToFat name with
    | none =>
      rw [hn] at hexists
      cases hexists
    | some fatName =>
      rw [hn, Option.bind_some, Option.isSome_map, Option.isSome_iff_exists] at hexists
      obtain ⟨k, hl⟩ := hexists
      obtain ⟨hk, hlive, hname⟩ := hinv.lookup_eq_some.1 hl
      have hmem : k ∈ t.liveSlots := hv.mem_liveSlots.2 ⟨hk, hlive⟩
      refine ⟨t.slotName k, ?_, fatName, rfl, ?_⟩
      · rw [henum]
        exact mem_map_of_mem hmem
      · rw [hv.filenameToFat_slotName hinv hmem, hv.dir k hk, hname]

theorem listing_lookup_agree_small :
    (((blankFs 64).fatFormat []).2.fatEnumerateFiles
      ((blankFs 64).fatFormat []).2.liveSlots.length).Nodup :=
  (listing_lookup_agree reachable_small le_rfl).2.2.1

end BengalTiger.Fat
