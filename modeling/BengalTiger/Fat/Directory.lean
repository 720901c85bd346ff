import BengalTiger.Fat.Chains

set_option autoImplicit false

/-!
# The root directory on a device

The scans of the root directory, as searches among the slots of the volume that the device holds,
and the changes of one entry inside its sector.

## Main definitions

* `Fat.Fs.slotAt` — a slot by its number.
* `Fat.Vol.freeSlot` — the slot that a new entry gets.
* `Fat.Keeps` — two sectors differ in one entry only.

## Main results

* `Fat.Fs.Holds.listed_eq`, `Fat.Fs.Holds.findDirentVal_eq`,
  `Fat.Fs.Holds.freeSlot_eq` — the scans.
* `Fat.Fs.Holds.modify` — a change of one entry.
-/

namespace BengalTiger.Fat

open BlockDevice LinkTable Function List

/-! ## Entries in a sector -/

/-- The sectors differ in entry `i` only. -/
def Keeps (b b' : Sector) (i : ℕ) : Prop := ∀ x, x / 32 ≠ i → b'.get x = b.get x

variable {b b' : Sector} {i : ℕ}

lemma Keeps.trans {b'' : Sector} (h : Keeps b b' i) (h' : Keeps b' b'' i) : Keeps b b'' i :=
  fun x hx => (h' x hx).trans (h x hx)

lemma keeps_put (b : Sector) {o : ℕ} {bytes : List UInt8} (h : o + bytes.length ≤ 32) :
    Keeps b (b.put (32 * i + o) bytes) i := by
  intro x hx
  by_cases hlt : x < 32 * i + o
  · exact Block.get_put_of_lt _ _ hlt
  · exact Block.get_put_of_le _ _ (by omega)

/-- The other entries are as before. -/
lemma Keeps.dirent_eq (h : Keeps b b' i) {j : ℕ} (hj : j ≠ i) : dirent b' j = dirent b j := by
  have hget : ∀ k < 32, b'.get (32 * j + k) = b.get (32 * j + k) := fun k hk => h _ (by omega)
  have h16 : ∀ k < 31, le16 b' (32 * j + k) = le16 b (32 * j + k) := by
    intro k hk
    rw [le16, le16, hget k (by omega), Nat.add_assoc, hget (k + 1) (by omega)]
  have hname : (List.range 11).map (fun k => b'.get (32 * j + k)) =
      (List.range 11).map fun k => b.get (32 * j + k) := by
    apply map_congr_left
    intro k hk
    rw [mem_range] at hk
    exact hget k (by omega)
  unfold dirent le32
  rw [hname, hget 11 (by omega), h16 26 (by omega), h16 20 (by omega), h16 28 (by omega),
    Nat.add_assoc, h16 30 (by omega)]

/-- The bytes of an entry after some of them are replaced. -/
lemma get_put_entry (b : Sector) (hi : i < 16) (off : ℕ) (bytes : List UInt8) {x : ℕ}
    (hx : x < 32) :
    (b.put (32 * i + off) bytes).get (32 * i + x) =
      if off ≤ x then bytes[x - off]?.getD (b.get (32 * i + x)) else b.get (32 * i + x) := by
  rw [Block.get_put _ _ _ (by omega), show 32 * i + x - (32 * i + off) = x - off by omega]
  by_cases h : off ≤ x
  · rw [if_pos h, if_pos (by omega)]
  · rw [if_neg h, if_neg (by omega)]

/-- A two-byte value in an entry. -/
lemma rdLe16_ofNat_mod (v : ℕ) :
    rdLe16 (UInt8.ofNat v) (UInt8.ofNat (v / 256)) = v % 65536 := by
  unfold rdLe16
  rw [UInt8.toNat_ofNat', UInt8.toNat_ofNat']
  omega

/-- The name of an entry after its first bytes are replaced. -/
lemma name_put (b : Sector) (hi : i < 16) {bytes : List UInt8} (h : bytes.length ≤ 11) :
    (dirent (b.put (32 * i) bytes) i).name = bytes ++ (dirent b i).name.drop bytes.length := by
  apply ext_getElem?
  intro k
  have hput := get_put_entry b hi 0 bytes (x := k)
  rw [Nat.add_zero, if_pos (Nat.zero_le _), Nat.sub_zero] at hput
  by_cases hk : k < 11
  · simp only [dirent, getElem?_map, getElem?_range hk, Option.map_some, hput (by omega)]
    by_cases hb : k < bytes.length
    · rw [getElem?_append_left hb, getElem?_eq_getElem hb]
      rfl
    · rw [getElem?_append_right (by omega), getElem?_drop, getElem?_eq_none (by omega),
        show bytes.length + (k - bytes.length) = k by omega, getElem?_map, getElem?_range hk]
      rfl
  · rw [getElem?_eq_none (by simpa [dirent] using hk), getElem?_eq_none]
    simp only [dirent, length_append, length_drop, length_map, length_range]
    omega

/-- The entry after its first bytes are replaced. -/
lemma dirent_put (b : Sector) (hi : i < 16) {bytes : List UInt8} (h : bytes.length ≤ 11) :
    dirent (b.put (32 * i) bytes) i =
      { dirent b i with name := bytes ++ (dirent b i).name.drop bytes.length } := by
  have hget : ∀ k, 11 ≤ k → (b.put (32 * i) bytes).get (32 * i + k) = b.get (32 * i + k) :=
    fun k hk => Block.get_put_of_le _ _ (by omega)
  have hname := name_put b hi h
  have h16 : ∀ k, 11 ≤ k → le16 (b.put (32 * i) bytes) (32 * i + k) = le16 b (32 * i + k) := by
    intro k hk
    rw [le16, le16, hget k hk, Nat.add_assoc, hget (k + 1) (by omega)]
  simp only [dirent, Dirent.mk.injEq] at hname ⊢
  refine ⟨hname, hget 11 le_rfl, ?_, ?_⟩
  · rw [h16 26 (by omega), h16 20 (by omega)]
  · rw [le32, le32, h16 28 (by omega), Nat.add_assoc, h16 30 (by omega)]

/-- The entry of an existing file after it gets a new chain. -/
lemma dirent_updateDirent (b : Sector) (hi : i < 16) {first : ℕ} (hfirst : first < 4294967296)
    (size : ℕ) :
    dirent (updateDirent b i first size) i =
      ⟨(dirent b i).name, attrArchive, first, size % 4294967296⟩ := by
  have hname : (List.range 11).map (fun k => (updateDirent b i first size).get (32 * i + k)) =
      (List.range 11).map fun k => b.get (32 * i + k) := by
    apply map_congr_left
    intro k hk
    rw [mem_range] at hk
    unfold updateDirent
    rw [Block.get_put_of_lt _ _ (by omega), Block.get_put_of_lt _ _ (by omega),
      Block.get_put_of_lt _ _ (by omega), Block.get_put_of_lt _ _ (by omega)]
  have hlow : le16 (updateDirent b i first size) (32 * i + 26) = first % 65536 := by
    rw [← rdLe16_ofNat_mod]
    simp [le16, updateDirent, get_put_entry, hi, Nat.add_assoc, wrLe16, wrLe32]
  have hhigh : le16 (updateDirent b i first size) (32 * i + 20) = first / 65536 % 65536 := by
    rw [← rdLe16_ofNat_mod]
    simp [le16, updateDirent, get_put_entry, hi, Nat.add_assoc, wrLe16, wrLe32]
  have hsize₁ : le16 (updateDirent b i first size) (32 * i + 28) = size % 65536 := by
    rw [← rdLe16_ofNat_mod]
    simp [le16, updateDirent, get_put_entry, hi, Nat.add_assoc, wrLe16, wrLe32]
  have hsize₂ : le16 (updateDirent b i first size) (32 * i + 30) = size / 65536 % 65536 := by
    rw [← rdLe16_ofNat_mod]
    simp [le16, updateDirent, get_put_entry, hi, Nat.add_assoc, wrLe16, wrLe32]
  have hattr : (updateDirent b i first size).get (32 * i + 11) = attrArchive := by
    simp [updateDirent, get_put_entry, hi]
  simp only [dirent, le32, Nat.add_assoc, Nat.reduceAdd, hname, hattr, hlow, hhigh, hsize₁, hsize₂,
    Dirent.mk.injEq, true_and]
  omega

lemma keeps_updateDirent (b : Sector) (first size : ℕ) :
    Keeps b (updateDirent b i first size) i := by
  unfold updateDirent
  have hput : Keeps b (b.put (32 * i + 26) (wrLe16 first)) i := keeps_put _ (by simp [wrLe16])
  refine hput.trans ?_
  refine Keeps.trans ?_ (keeps_put _ (by simp))
  refine Keeps.trans ?_ (keeps_put _ (by simp [wrLe32, wrLe16]))
  exact keeps_put _ (by simp [wrLe16])

/-- A new entry. -/
lemma dirent_createDirent (b : Sector) (hi : i < 16) {name : List UInt8} (hname : name.length = 11)
    {first : ℕ} (hfirst : first < 4294967296) (size : ℕ) :
    dirent (createDirent b i name first size) i =
      ⟨name, attrArchive, first, size % 4294967296⟩ := by
  obtain ⟨bytes, hbytes⟩ : ∃ bytes, bytes = name ++ [attrArchive] ++ List.replicate 8 0 ++
      wrLe16 (first / 65536) ++ List.replicate 4 0 ++ wrLe16 first ++ wrLe32 size := ⟨_, rfl⟩
  have hget : ∀ x < 32, ∀ a, bytes[x]? = some a →
      (createDirent b i name first size).get (32 * i + x) = a := by
    intro x hx a ha
    have := get_put_entry b hi 0 bytes hx
    rw [Nat.add_zero, if_pos (Nat.zero_le _), Nat.sub_zero, ha, hbytes] at this
    exact this
  -- the bytes behind the name, at their offsets
  have htail : ∀ k a, ([attrArchive] ++ List.replicate 8 0 ++ wrLe16 (first / 65536) ++
      List.replicate 4 0 ++ wrLe16 first ++ wrLe32 size)[k]? = some a →
      bytes[11 + k]? = some a := by
    intro k a ha
    rw [hbytes]
    simp only [append_assoc] at ha ⊢
    rw [getElem?_append_right (by omega), hname, Nat.add_sub_cancel_left]
    exact ha
  have h16 : ∀ k v, k < 20 → ([attrArchive] ++ List.replicate 8 0 ++ wrLe16 (first / 65536) ++
        List.replicate 4 0 ++ wrLe16 first ++ wrLe32 size)[k]? = some (UInt8.ofNat v) →
      ([attrArchive] ++ List.replicate 8 0 ++ wrLe16 (first / 65536) ++
        List.replicate 4 0 ++ wrLe16 first ++ wrLe32 size)[k + 1]? =
          some (UInt8.ofNat (v / 256)) →
      le16 (createDirent b i name first size) (32 * i + (11 + k)) = v % 65536 := by
    intro k v hk h₁ h₂
    rw [le16, hget _ (by omega) _ (htail k _ h₁), Nat.add_assoc, Nat.add_assoc,
      hget _ (by omega) _ (htail (k + 1) _ h₂), rdLe16_ofNat_mod]
  have hnames : (List.range 11).map (fun k => (createDirent b i name first size).get (32 * i + k)) =
      name := by
    apply ext_getElem?
    intro k
    by_cases hk : k < 11
    · rw [getElem?_map, getElem?_range hk, Option.map_some, getElem?_eq_getElem (by omega)]
      congr 1
      apply hget k (by omega)
      rw [hbytes]
      simp only [append_assoc]
      rw [getElem?_append_left (by omega), getElem?_eq_getElem]
    · rw [getElem?_eq_none (by simpa using hk), getElem?_eq_none (by omega)]
  have hattr : (createDirent b i name first size).get (32 * i + 11) = attrArchive :=
    hget 11 (by omega) _ (htail 0 _ rfl)
  have hhigh := h16 9 (first / 65536) (by omega) rfl rfl
  have hlow := h16 15 first (by omega) rfl rfl
  have hsize₁ := h16 17 size (by omega) rfl rfl
  have hsize₂ := h16 19 (size / 65536) (by omega) rfl rfl
  simp only [Nat.reduceAdd] at hhigh hlow hsize₁ hsize₂
  simp only [dirent, le32, Nat.add_assoc, Nat.reduceAdd, hnames, hattr, hlow, hhigh, hsize₁,
    hsize₂, Dirent.mk.injEq, true_and]
  omega

lemma keeps_createDirent (b : Sector) {name : List UInt8} (hname : name.length = 11)
    (first size : ℕ) : Keeps b (createDirent b i name first size) i := by
  apply keeps_put (o := 0)
  simp [wrLe32, wrLe16, hname]

/-! ## Scans -/

/-- The prefix of a list with a property, when no later element has it. -/
lemma takeWhile_eq_filter {α : Type} {p : α → Bool} {l : List α}
    (h : l.Pairwise fun a b => p b = true → p a = true) : l.takeWhile p = l.filter p := by
  induction l with
  | nil => rfl
  | cons a l ih =>
    rw [pairwise_cons] at h
    cases ha : p a with
    | true => rw [takeWhile_cons_of_pos ha, filter_cons_of_pos ha, ih h.2]
    | false =>
      rw [takeWhile_cons_of_neg (by simp [ha]), filter_cons_of_neg (by simp [ha]),
        eq_comm, filter_eq_nil_iff]
      intro b hb hpb
      have := h.1 b hb hpb
      rw [ha] at this
      cases this

namespace Vol

/-- The live slots. -/
def liveSlots (sh : Shape) (v : Vol) : List ℕ :=
  (List.range sh.slots).filter fun k => (v.dir k).isLive

/-- The slot that a new entry gets. -/
def freeSlot (sh : Shape) (v : Vol) : Option ℕ :=
  (List.range sh.slots).find? fun k => !(v.dir k).isLive

end Vol

namespace Fs

/-- Slot `k` of the root directory. -/
def slotAt (s : Fs) (k : ℕ) : Slot := ⟨s.rootStartSector + k / 16, k % 16, s.slotEntry k⟩

variable {s t : Fs} {sh : Shape} {v : Vol} {k : ℕ}

lemma Sibling.slotAt_sector (h : Sibling s t) (k : ℕ) :
    (t.slotAt k).sector = (s.slotAt k).sector := by
  unfold slotAt
  rw [h.rootStartSector]

/-- The slots of `n` root sectors from the `k`-th on. -/
lemma slotsFrom_eq (hs : Geom s) (n k : ℕ) (h : k + n ≤ s.rootSectors) :
    s.slotsFrom n k = (List.range (n * 16)).map fun j => s.slotAt (16 * k + j) := by
  induction n generalizing k with
  | zero => rfl
  | succ n ih =>
    have h₁ := hs.data_eq
    have h₂ := hs.end_le
    have hfirst : (List.range 16).map (fun i =>
          (⟨s.rootStartSector + k, i, dirent (s.disk.block (s.rootStartSector + k)) i⟩ : Slot)) =
        (List.range 16).map fun j => s.slotAt (16 * k + j) := by
      apply map_congr_left
      intro j hj
      rw [mem_range] at hj
      unfold slotAt slotEntry
      rw [show (16 * k + j) / 16 = k by omega, show (16 * k + j) % 16 = j by omega]
    rw [slotsFrom, read_of_lt hs (by omega), Option.elim_some, ih (k + 1) (by omega), hfirst,
      show (n + 1) * 16 = 16 + n * 16 by omega, range_add, map_append, map_map]
    congr 1
    apply map_congr_left
    intro j _
    rw [comp_apply]
    congr 1
    omega

/-- A file that is found is one of the slots. -/
lemma mem_rootSlots_of_findDirentVal {name : List UInt8} {x : Slot}
    (hx : s.findDirentVal name = some x) : x ∈ s.rootSlots := by
  rw [findDirentVal] at hx
  split_ifs at hx
  obtain ⟨fatName, -, hfind⟩ := Option.bind_eq_some_iff.1 hx
  have hmem := mem_of_find?_eq_some hfind
  rw [listed, mem_filter] at hmem
  exact (takeWhile_sublist _).subset hmem.1

variable (h : s.Holds sh v)

include h

/-- The scan comes by every slot. -/
lemma Holds.rootSlots_eq : s.rootSlots = (List.range sh.slots).map s.slotAt := by
  rw [rootSlots, slotsFrom_eq h.geom _ _ (by omega), h.slots]
  apply map_congr_left
  intro j _
  rw [Nat.mul_zero, Nat.zero_add]

/-- **The entries that a scan finds** are the live ones. -/
lemma Holds.listed_eq (hsane : v.Sane sh) : s.listed = (v.liveSlots sh).map s.slotAt := by
  have hpair : ((List.range sh.slots).map s.slotAt).Pairwise fun x y =>
      (y.ent.first != 0) = true → (x.ent.first != 0) = true := by
    rw [pairwise_map]
    apply List.Pairwise.imp_of_mem ?_ pairwise_lt_range
    intro i j hi hj hij hne
    rw [mem_range] at hi hj
    simp only [slotAt, h.dir i hi, h.dir j hj, bne_iff_ne] at hne ⊢
    exact fun h0 => hne (hsane.tail i j hij.le hj h0)
  rw [listed, h.rootSlots_eq, takeWhile_eq_filter hpair, filter_filter, filter_map, Vol.liveSlots]
  congr 1
  apply filter_congr
  intro k hk
  rw [mem_range] at hk
  simp only [comp_apply, slotAt, h.dir k hk]
  cases hlive : (v.dir k).isLive with
  | true =>
    have hplain := hsane.plain k hk hlive
    rw [Dirent.isLive, Bool.and_eq_true] at hlive
    rw [hlive.1, hlive.2, hplain]
    rfl
  | false =>
    rw [Dirent.isLive, Bool.and_eq_false_iff] at hlive
    obtain h0 | h0 := hlive
    · rw [h0, Bool.and_false]
    · rw [h0, Bool.false_and, Bool.false_and]

/-- **A name is looked up.** -/
lemma Holds.findDirentVal_eq (hsane : v.Sane sh) (name : List UInt8) :
    s.findDirentVal name =
      (filenameToFat name).bind fun fatName => (v.lookup sh fatName).map s.slotAt := by
  rw [findDirentVal, if_neg (by rw [h.geom.mounted]; simp)]
  congr 1
  funext fatName
  rw [h.listed_eq hsane, Vol.liveSlots, find?_map, find?_filter, Vol.lookup]
  congr 1
  rw [← head?_filter, ← head?_filter]
  congr 1
  apply filter_congr
  intro k hk
  rw [mem_range] at hk
  simp only [comp_apply, slotAt, h.dir k hk, Bool.decide_and, Bool.decide_eq_true]

/-- **What a search comes to**: no file has the name, or the slot of the file is found. -/
lemma Holds.findDirentVal_cases (hsane : v.Sane sh) (name : List UInt8) :
    s.findDirentVal name = none ∧
      (∀ fatName, filenameToFat name = some fatName → v.lookup sh fatName = none) ∨
    ∃ fatName k, filenameToFat name = some fatName ∧ v.lookup sh fatName = some k ∧
      s.findDirentVal name = some (s.slotAt k) := by
  have hfind := h.findDirentVal_eq hsane name
  cases hn : filenameToFat name with
  | none =>
    rw [hn, Option.bind_none] at hfind
    exact .inl ⟨hfind, fun _ hsome => by cases hsome⟩
  | some fatName =>
    rw [hn, Option.bind_some] at hfind
    cases hl : v.lookup sh fatName with
    | none =>
      rw [hl, Option.map_none] at hfind
      refine .inl ⟨hfind, fun other hother => ?_⟩
      cases hother
      exact hl
    | some k =>
      rw [hl, Option.map_some] at hfind
      exact .inr ⟨fatName, k, rfl, hl, hfind⟩

/-- **The slot for a new entry.** -/
lemma Holds.freeSlot_eq : s.freeSlot = (v.freeSlot sh).map s.slotAt := by
  rw [freeSlot, h.rootSlots_eq, find?_map, Vol.freeSlot]
  congr 1
  rw [← head?_filter, ← head?_filter]
  congr 1
  apply filter_congr
  intro k hk
  rw [mem_range] at hk
  simp only [comp_apply, slotAt, h.dir k hk, Dirent.isLive, Bool.not_and, bne, Bool.not_not]

/-! ## Changes -/

/-- **An entry is changed** inside its sector. -/
lemma Holds.modify (hk : k < sh.slots) {f : Sector → Sector} {e : Dirent}
    (hkeeps : ∀ b, Keeps b (f b) (k % 16))
    (he : ∀ b, dirent b (k % 16) = v.dir k → dirent (f b) (k % 16) = e) :
    (s.modify (s.slotAt k).sector f).1 = true ∧
      After s (s.modify (s.slotAt k).sector f).2 sh (v.setEntry k e) := by
  have hlt := h.root_lt (h.slot_lt hk)
  have heq : s.modify (s.slotAt k).sector f =
      (true, s.write (s.rootStartSector + k / 16)
        (f (s.disk.block (s.rootStartSector + k / 16)))) := by
    rw [Fs.modify, slotAt, read_of_lt h.geom hlt.2, Option.elim_some, canWrite_of_lt h.geom hlt.2]
  have hst := sibling_write (s := s) (s.rootStartSector + k / 16)
    (f (s.disk.block (s.rootStartSector + k / 16)))
  rw [heq]
  refine ⟨rfl, hst, h.of_rootBlocks hst ?_ ?_⟩
  · intro x hx
    exact block_write_of_ne h.geom hlt.2 (by omega) _
  · intro j hj
    have hjdir := h.dir j hj
    unfold slotEntry at hjdir ⊢
    rw [hst.rootStartSector]
    -- the other entries of the sector are kept
    by_cases hsec : j / 16 = k / 16
    · rw [hsec] at hjdir ⊢
      rw [block_write_self h.geom hlt.2]
      by_cases hjk : j = k
      · subst hjk
        rw [update_self]
        exact he _ hjdir
      · rw [update_of_ne hjk, ← hjdir]
        exact (hkeeps _).dirent_eq (by omega)
    · have hjk : j ≠ k := by
        rintro rfl
        exact hsec rfl
      rw [update_of_ne hjk, block_write_of_ne h.geom hlt.2 (by omega), hjdir]

end Fs

end BengalTiger.Fat
