import BengalTiger.Fat.Volume

set_option autoImplicit false

/-!
# Operations on volumes

Writing, deleting and renaming a file as changes of one slot of a volume: the old chain is freed,
the data is put into the first free clusters, and the entry is changed. Each keeps the volume
consistent, and changes the map from names to byte strings at one name.

## Main definitions

* `Fat.Vol.writeSlot`, `Fat.Vol.eraseSlot`,
  `Fat.Vol.renameSlot`.

## Main results

* `Fat.Vol.Inv.writeSlot`, `Fat.Vol.Inv.file_writeSlot`.
* `Fat.Vol.Inv.eraseSlot`, `Fat.Vol.Inv.file_eraseSlot`.
* `Fat.Vol.Inv.renameSlot`.
-/

namespace BengalTiger.Fat

open LinkTable Function

/-- A stored name does not begin with a zero. -/
lemma first_ne_zero_of_isName {e : Dirent} (h : Vol.IsName e.name) : e.first ≠ 0 := by
  obtain ⟨text, htext⟩ := h
  obtain ⟨base, ext, hstored⟩ := isStored_of_filenameToFat htext
  have hlen := hstored.length
  have hzero := hstored.ne_zero
  rw [Dirent.first]
  cases hn : e.name with
  | nil => simp [hn] at hlen
  | cons c name =>
    rw [hn] at hzero
    exact fun hc => hzero (hc ▸ List.mem_cons_self)

/-- A stored name is live unless its first byte is the mark of a deleted entry. -/
lemma isLive_of_isName {e : Dirent} (h : Vol.IsName e.name) (hE5 : e.name.headD 0 ≠ 0xE5) :
    e.isLive = true := by
  rw [Dirent.isLive, Bool.and_eq_true, bne_iff_ne, bne_iff_ne]
  exact ⟨first_ne_zero_of_isName h, hE5⟩

namespace Vol

variable (sh : Shape)

/-- The volume once the chain of an entry is freed. -/
def vacate (v : Vol) (k : ℕ) : Vol := v.free (v.chainOf sh k)

/-- The entry that `fat_write_file` makes. -/
def fileEntry (v : Vol) (k : ℕ) (name data : List UInt8) : Dirent where
  name := name
  attr := attrArchive
  cluster := ((v.vacate sh k).place sh data).headD 0
  size := data.length

/-- The volume after slot `k` is written. -/
def writeSlot (v : Vol) (k : ℕ) (name data : List UInt8) : Vol :=
  ((v.vacate sh k).store sh data).setEntry k (v.fileEntry sh k name data)

/-- There are clusters enough, those of the old chain included. -/
def Fits (v : Vol) (k : ℕ) (data : List UInt8) : Prop :=
  sh.need data.length ≤ ((v.vacate sh k).freeList sh).length

/-- A deleted entry. -/
def erased (e : Dirent) : Dirent := { e with name := 0xE5 :: e.name.tail }

/-- The volume after slot `k` is deleted. -/
def eraseSlot (v : Vol) (k : ℕ) : Vol := (v.vacate sh k).setEntry k (erased (v.dir k))

/-- The volume after slot `k` is renamed. -/
def renameSlot (v : Vol) (k : ℕ) (name : List UInt8) : Vol :=
  v.setEntry k { v.dir k with name := name }

variable {sh} {v : Vol} {chain : ℕ → List ℕ} {k : ℕ} {name data : List UInt8}

section Write

variable (h : v.Inv sh chain) (hk : k < sh.slots) (hname : IsName name)
  (hE5 : name.headD 0 ≠ 0xE5) (hprev : ∀ j < k, (v.dir j).first ≠ 0)
  (hnew : ∀ j < sh.slots, j ≠ k → (v.dir j).isLive = true → (v.dir j).name ≠ name)
  (hfits : v.Fits sh k data)

include h hk

lemma Inv.vacate_eq : v.vacate sh k = v.free (chain k) := by
  rw [vacate, h.chainOf_eq hk]

/-- When a chain is freed, its clusters are free besides those that were. -/
lemma Inv.freeList_vacate_perm :
    ((v.vacate sh k).freeList sh).Perm (v.freeList sh ++ chain k) := by
  have hdisj : ∀ c ∈ v.freeList sh, c ∉ chain k := fun c hc hmem =>
    h.fat_ne_zero hmem (mem_freeList.1 hc).2
  rw [List.perm_ext_iff_of_nodup (nodup_freeList sh _)
    (List.nodup_append'.2 ⟨nodup_freeList sh v, h.nodup k, hdisj⟩)]
  intro c
  rw [List.mem_append, mem_freeList, mem_freeList, h.vacate_eq hk, fat_free]
  by_cases hmem : c ∈ chain k
  · rw [clear_of_mem hmem]
    exact iff_of_true ⟨h.isCluster k c hmem, rfl⟩ (.inr hmem)
  · rw [clear_of_notMem hmem]
    exact ⟨.inl, fun hc => hc.resolve_right hmem⟩

include hname hE5

omit h hk in
lemma isLive_fileEntry : (v.fileEntry sh k name data).isLive = true :=
  isLive_of_isName (e := v.fileEntry sh k name data) hname hE5

include hprev hnew hfits

/-- **A written volume is consistent**: the data's clusters are the new chain. -/
lemma Inv.writeSlot :
    (v.writeSlot sh k name data).Inv sh
      (update chain k ((v.vacate sh k).place sh data)) := by
  have hvacate := h.vacate_eq hk
  have hlive : (v.fileEntry sh k name data).isLive = true := isLive_fileEntry hname hE5
  have hplace := length_place hfits
  unfold Vol.writeSlot
  rw [hvacate] at hplace ⊢
  apply h.replace hk
  · exact nodup_place _ _
  · intro c hc
    exact mem_freeList_of_mem_place hc
  · exact first_ne_zero_of_isLive hlive
  · exact hprev
  · intro hdead
    rw [hlive] at hdead
    cases hdead
  · intro _
    refine ⟨?_, hplace, hname, ?_, hnew⟩
    · rw [fileEntry, hvacate]
    · show (attrArchive != 0x0F && attrArchive &&& 0x08 == 0) = true
      decide

/-- **Writing changes the map at one name.** -/
lemma Inv.file_writeSlot (hold : (v.dir k).isLive = true → (v.dir k).name = name)
    (other : List UInt8) :
    (v.writeSlot sh k name data).file sh other =
      if other = name then some data else v.file sh other := by
  have hinv := h.writeSlot hk hname hE5 hprev hnew hfits
  have hvacate := h.vacate_eq hk
  have hlive : (v.fileEntry sh k name data).isLive = true := isLive_fileEntry hname hE5
  have hent : (v.writeSlot sh k name data).dir k = v.fileEntry sh k name data :=
    update_self _ _ _
  split_ifs with hother
  · have hlook : (v.writeSlot sh k name data).lookup sh other = some k := by
      rw [hinv.lookup_eq_some, hent]
      exact ⟨hk, hlive, hother.symm⟩
    rw [file, hlook, Option.map_some, hinv.contents_eq hk, hent, update_self]
    exact congrArg some (flatMap_place hfits)
  · apply h.file_update hinv (k := k) (e := v.fileEntry sh k name data) rfl
    · intro j hj
      exact update_of_ne hj _ _
    · intro j hj c hc
      show fill sh _ data v.data c = v.data c
      apply fill_of_notMem
      intro hmem
      rw [hvacate] at hmem
      exact h.notMem_of_free hj (mem_freeList_of_mem_place hmem).2 hc
    · rintro ⟨hl, hn⟩
      exact hother (hn.symm.trans (hold hl))
    · rintro ⟨-, hn⟩
      exact hother hn.symm

end Write

lemma isLive_erased (e : Dirent) : (erased e).isLive = false := rfl

/-- **A volume after a deletion is consistent.** -/
lemma Inv.eraseSlot (h : v.Inv sh chain) (hk : k < sh.slots) (hlive : (v.dir k).isLive = true) :
    (v.eraseSlot sh k).Inv sh (update chain k []) := by
  have hvacate := h.vacate_eq hk
  unfold Vol.eraseSlot
  rw [hvacate]
  refine h.replace hk v.data List.nodup_nil ?_ ?_ ?_ ?_ ?_
  · simp
  · exact fun h0 => absurd h0 (show (0xE5 : UInt8) ≠ 0 by decide)
  · intro j hj
    exact h.first_ne_zero_of_lt hk hlive hj
  · intro _
    rfl
  · intro hl
    rw [isLive_erased] at hl
    cases hl

/-- **Deleting removes one name from the map.** -/
lemma Inv.file_eraseSlot (h : v.Inv sh chain) (hk : k < sh.slots)
    (hlive : (v.dir k).isLive = true) (other : List UInt8) :
    (v.eraseSlot sh k).file sh other =
      if other = (v.dir k).name then none else v.file sh other := by
  have hinv := h.eraseSlot hk hlive
  split_ifs with hother
  · have hlook : (v.eraseSlot sh k).lookup sh other = none := by
      cases hl : (v.eraseSlot sh k).lookup sh other with
      | none => rfl
      | some j =>
        exfalso
        -- another slot with the name would have had it before
        obtain ⟨hj, hlivej, hnamej⟩ := hinv.lookup_eq_some.1 hl
        by_cases hjk : j = k
        · subst hjk
          rw [Vol.eraseSlot, setEntry] at hlivej
          simp only [update_self] at hlivej
          rw [isLive_erased] at hlivej
          cases hlivej
        · rw [Vol.eraseSlot, setEntry] at hlivej hnamej
          simp only [update_of_ne hjk] at hlivej hnamej
          exact hjk (h.names j hj k hk hlivej hlive (hnamej.trans hother))
    rw [file, hlook]
    rfl
  · apply h.file_update hinv (k := k) (e := erased (v.dir k)) rfl
    · intro j hj
      exact update_of_ne hj _ _
    · intro j hj c hc
      rfl
    · rintro ⟨-, hn⟩
      exact hother hn.symm
    · rintro ⟨hl, -⟩
      rw [isLive_erased] at hl
      cases hl

/-- **A renamed volume is consistent.** -/
lemma Inv.renameSlot (h : v.Inv sh chain) (hk : k < sh.slots) (hlive : (v.dir k).isLive = true)
    (hname : IsName name) (hE5 : name.headD 0 ≠ 0xE5)
    (hnew : ∀ j < sh.slots, j ≠ k → (v.dir j).isLive = true → (v.dir j).name ≠ name) :
    (v.renameSlot k name).Inv sh chain := by
  apply h.rename hk hlive (e := { v.dir k with name := name }) rfl rfl
  · exact isLive_of_isName (e := { v.dir k with name := name }) hname hE5
  · exact hname
  · exact h.plain k hk hlive
  · exact hnew

end Vol

end BengalTiger.Fat
