import BengalTiger.Fat.Holds

set_option autoImplicit false

/-!
# Chains on a device

The loops of the driver over the clusters of a file. On a device that holds a volume, a chain is
freed, read and written as the volume says: new data goes to the first free clusters, in ascending
order, and is linked as it is written, so that the clusters taken so far stay in use when they run
out.

## Main definitions

* `Fat.Fs.After` — the state after a step: the device holds another volume.

## Main results

* `Fat.Fs.Holds.allocateCluster`, `Fat.Fs.Holds.storeData`.
* `Fat.Fs.Holds.freeClusterChain`.
* `Fat.Fs.Holds.readChain`.
-/

namespace BengalTiger.Fat

open BlockDevice LinkTable Function List

/-- Sectors made of the parts of a list, one after the other. -/
lemma flatMap_ofList (rest : List UInt8) (n : ℕ) :
    ((List.range n).flatMap fun i =>
        (Block.ofList ((rest.drop (512 * i)).take 512) : Sector).toList) =
      rest.take (n * 512) ++ List.replicate (n * 512 - (rest.take (n * 512)).length) 0 := by
  induction n with
  | zero => simp
  | succ n ih =>
    have hpart : ((rest.drop (512 * n)).take 512).length ≤ 512 := by simp
    rw [range_succ, flatMap_append, ih, flatMap_singleton,
      Block.toList_ofList hpart, Nat.mul_comm 512 n, Nat.add_mul, Nat.one_mul, take_add]
    by_cases hlen : n * 512 ≤ rest.length
    · simp only [length_append, length_take, length_drop, Nat.min_eq_left hlen,
        Nat.sub_self, replicate_zero, append_nil, append_assoc]
      congr 3
      omega
    · have hnil : rest.drop (n * 512) = [] := drop_eq_nil_of_le (by omega)
      rw [hnil, take_nil, nil_append, append_nil, append_assoc, replicate_append_replicate]
      congr 2
      simp only [length_nil, length_take]
      omega

namespace Vol

variable {sh : Shape} {c : ℕ} {cs : List ℕ}

/-- Bytes that were put elsewhere before. -/
lemma fill_update_of_notMem (h : c ∉ cs) (rest : List UInt8) (d : ℕ → List UInt8)
    (x : List UInt8) :
    fill sh cs rest (update d c x) = update (fill sh cs rest d) c x := by
  induction cs generalizing rest with
  | nil => rfl
  | cons y cs ih =>
    rw [mem_cons, not_or] at h
    rw [fill, fill, ih h.2, update_comm h.1]

/-- Bytes that were put into the first cluster before. -/
lemma fill_update_head (h : c ∉ cs) (rest : List UInt8) (d : ℕ → List UInt8) (x : List UInt8) :
    fill sh (c :: cs) rest (update d c x) = fill sh (c :: cs) rest d := by
  rw [fill, fill, fill_update_of_notMem h, update_idem]

/-- The free clusters once the first of them is taken. -/
lemma freeList_of_cons {v w : Vol} (h : v.freeList sh = c :: cs)
    (hw : ∀ x, sh.IsCluster x → (w.fat x = 0 ↔ v.fat x = 0 ∧ x ≠ c)) : w.freeList sh = cs := by
  have hnodup := v.nodup_freeList sh
  rw [h, nodup_cons] at hnodup
  have hfilter : w.freeList sh = (v.freeList sh).filter fun x => x ≠ c := by
    unfold freeList
    rw [filter_filter]
    apply filter_congr
    intro x hx
    rw [mem_range'_1] at hx
    rw [← Bool.decide_and, decide_eq_decide, hw x ⟨hx.1, by omega⟩, and_comm]
  rw [hfilter, h, filter_cons_of_neg (by simp), filter_eq_self]
  intro x hx
  simpa using ne_of_mem_of_not_mem hx hnodup.1

variable (sh) in
/-- The volume after a free cluster is taken: it is the end of a chain and filled with zeros. -/
def taken (v : Vol) (c : ℕ) : Vol where
  fat := update v.fat c sh.eoc
  dir := v.dir
  data := update v.data c (List.replicate sh.bytes 0)

@[simp] lemma fat_taken (v : Vol) (c : ℕ) :
    (v.taken sh c).fat = update v.fat c sh.eoc := rfl

lemma eoc_pos (sh : Shape) : 0 < sh.eoc := by
  have h₁ := sh.threshold_le
  have h₂ := sh.clusters_lt
  omega

/-- Taking the first free cluster leaves the others free. -/
lemma freeList_taken {v : Vol} (h : v.freeList sh = c :: cs) :
    (v.taken sh c).freeList sh = cs := by
  apply freeList_of_cons h
  intro x hx
  have heoc := eoc_pos sh
  simp only [taken]
  by_cases hxc : x = c
  · subst hxc
    rw [update_self]
    simp only [ne_eq, not_true_eq_false, and_false, iff_false]
    omega
  · rw [update_of_ne hxc]
    simp [hxc]

/-- Linking a cluster in use does not change which are free. -/
lemma freeList_update {v : Vol} {x : ℕ} (hc : v.fat c ≠ 0) (hx : x ≠ 0) :
    freeList sh { v with fat := update v.fat c x } = v.freeList sh := by
  unfold freeList
  apply filter_congr
  intro y _
  by_cases hy : y = c
  · subst hy
    simp [hc, hx]
  · simp [update_of_ne hy]

/-- A free cluster is in the list once, and a cluster in use is not. -/
lemma notMem_of_freeList {v : Vol} {d : ℕ} (h : v.freeList sh = d :: cs) (hc : v.fat c ≠ 0) :
    d ∉ cs ∧ c ∉ d :: cs := by
  have hnodup := v.nodup_freeList sh
  rw [h, nodup_cons] at hnodup
  refine ⟨hnodup.1, fun hmem => hc ?_⟩
  rw [← h] at hmem
  exact (mem_freeList.1 hmem).2

variable (sh) in
/-- The volume after cluster `c` is filled and a free cluster `d` is taken and linked behind it. -/
def extended (v : Vol) (c d : ℕ) (bytes : List UInt8) : Vol where
  fat := update (update v.fat d sh.eoc) c d
  dir := v.dir
  data := update (update v.data c (clusterOf sh bytes)) d
    (List.replicate sh.bytes 0)

section Extended

variable {v : Vol} {d : ℕ} {bytes rest : List UInt8}

lemma fat_extended_self (h : d ≠ c) : (v.extended sh c d bytes).fat d = sh.eoc := by
  show update (update v.fat d sh.eoc) c d d = sh.eoc
  rw [update_of_ne h, update_self]

/-- Extending a chain takes the first free cluster. -/
lemma freeList_extended (h : v.freeList sh = d :: cs) (hc : v.fat c ≠ 0) :
    (v.extended sh c d bytes).freeList sh = cs := by
  have hd := (mem_freeList.1 (show d ∈ v.freeList sh from h ▸ mem_cons_self))
  have hdc : d ≠ c := by
    rintro rfl
    exact hc hd.2
  have hused : (v.taken sh d).fat c ≠ 0 := by
    rw [fat_taken, update_of_ne hdc.symm]
    exact hc
  exact (freeList_update hused (show d ≠ 0 by have := hd.1.1; omega)).trans (freeList_taken h)

/-- A chain from the new cluster on is the rest of a chain from `c` on. -/
lemma link_extended (hd : d ∉ cs) (hc : c ∉ d :: cs) :
    link sh.eoc (d :: cs) (v.extended sh c d bytes).fat = link sh.eoc (c :: d :: cs) v.fat := by
  show link sh.eoc (d :: cs) (update (update v.fat d sh.eoc) c d) = _
  rw [link_update_of_notMem hc, link_update_head hd, link.eq_2 sh.eoc v.fat c]
  rfl

lemma fill_extended (hd : d ∉ cs) (hc : c ∉ d :: cs) :
    fill sh (d :: cs) (rest.drop sh.bytes) (v.extended sh c d (rest.take sh.bytes)).data =
      fill sh (c :: d :: cs) rest v.data := by
  show fill sh (d :: cs) _ (update (update v.data c _) d _) = _
  rw [fill_update_head hd, fill_update_of_notMem hc, fill.eq_2 sh rest v.data c]

end Extended

end Vol

namespace Fs

/-- The state after a step of the driver: the globals are as before, and the device holds `w`. -/
def After (s t : Fs) (sh : Shape) (w : Vol) : Prop := Sibling s t ∧ t.Holds sh w

variable {s t : Fs} {sh : Shape} {v w : Vol} {c : ℕ}

lemma After.trans {u : Fs} {x : Vol} (h : After s t sh w) (h' : After t u sh x) :
    After s u sh x := ⟨h.1.trans h'.1, h'.2⟩

variable (h : s.Holds sh v)

include h

lemma Holds.after : After s s sh v := ⟨Sibling.refl s, h⟩

lemma Holds.after_setFatEntry (hc : sh.IsCluster c) {x : ℕ} (hx : x ≤ sh.eoc) :
    After s (s.setFatEntry c x) sh { v with fat := update v.fat c x } :=
  ⟨sibling_setFatEntry h.geom (h.isCluster.2 hc), h.setFatEntry hc hx⟩

/-! ## Freeing -/

/-- The loop of `free_cluster_chain` on a chain.

**Proof sketch.** Induction on the chain: its first cluster is set free after its link is read, and
the rest is still a chain, since the clusters are different. -/
lemma Holds.freeLoop {cs : List ℕ} (guard : ℕ) (hchain : IsChain v.fat (sh.threshold ≤ ·) (c :: cs))
    (hnodup : (c :: cs).Nodup) (hin : ∀ x ∈ c :: cs, sh.IsCluster x)
    (hguard : (c :: cs).length ≤ guard) :
    After s (Fs.freeLoop guard c s) sh (v.free (c :: cs)) := by
  induction cs generalizing c s v guard with
  | nil =>
    obtain ⟨guard, rfl⟩ : ∃ g, guard = g + 1 := ⟨guard - 1, by simp at hguard; omega⟩
    have hc := hin c mem_cons_self
    have hthreshold := h.threshold
    have hstep := h.after_setFatEntry hc (Nat.zero_le _)
    have hgo : 2 ≤ c ∧ c < s.eocThreshold := by
      have := hc.not_stops
      unfold Shape.Stops at this
      omega
    have hlast : sh.threshold ≤ s.getFatEntry c := by
      rw [h.fat c hc]
      exact hchain
    have hstop : Fs.freeLoop guard (s.getFatEntry c) (s.setFatEntry c 0) = s.setFatEntry c 0 := by
      cases guard with
      | zero => rfl
      | succ guard =>
        rw [Fs.freeLoop, if_neg]
        rw [hstep.1.eocThreshold]
        omega
    rw [Fs.freeLoop, if_pos hgo, hstop, Vol.free, clear_cons]
    exact hstep
  | cons d cs ih =>
    obtain ⟨guard, rfl⟩ : ∃ g, guard = g + 1 := ⟨guard - 1, by simp at hguard; omega⟩
    have hc := hin c mem_cons_self
    have hthreshold := h.threshold
    have hstep := h.after_setFatEntry hc (Nat.zero_le _)
    have hgo : 2 ≤ c ∧ c < s.eocThreshold := by
      have := hc.not_stops
      unfold Shape.Stops at this
      omega
    have hnext : s.getFatEntry c = d := by
      rw [h.fat c hc]
      exact hchain.1
    rw [nodup_cons] at hnodup
    have hrest : IsChain (update v.fat c 0) (sh.threshold ≤ ·) (d :: cs) :=
      hchain.tail.congr fun x hx => update_of_ne (ne_of_mem_of_not_mem hx hnodup.1) _ _
    have hloop := ih hstep.2 guard hrest hnodup.2
      (fun x hx => hin x (mem_cons_of_mem _ hx))
      (by simp only [length_cons] at hguard ⊢; omega)
    rw [Fs.freeLoop, if_pos hgo, hnext, Vol.free, clear_cons]
    exact hstep.trans hloop

/-- **A chain is freed.** -/
lemma Holds.freeClusterChain {cs : List ℕ} (hchain : IsChain v.fat (sh.threshold ≤ ·) (c :: cs))
    (hnodup : (c :: cs).Nodup) (hin : ∀ x ∈ c :: cs, sh.IsCluster x) :
    After s (s.freeClusterChain c) sh (v.free (c :: cs)) := by
  apply h.freeLoop _ hchain hnodup hin
  have := Vol.length_le_clusters hnodup hin
  rw [h.clusters]
  omega

/-! ## Reading -/

omit h in
/-- The sectors of a cluster that are read. -/
lemma readSectors_eq (hs : Geom s) (n sec left : ℕ) (h : sec + n ≤ s.disk.size) :
    s.readSectors n sec left =
      some (((List.range n).flatMap fun j => (s.disk.block (sec + j)).toList).take left) := by
  induction n generalizing sec left with
  | zero => simp [readSectors]
  | succ n ih =>
    rw [readSectors]
    by_cases hleft : left = 0
    · rw [if_pos hleft, hleft, take_zero]
    · have hrange : ((List.range (n + 1)).flatMap fun j => (s.disk.block (sec + j)).toList) =
          (s.disk.block sec).toList ++
            (List.range n).flatMap fun j => (s.disk.block (sec + 1 + j)).toList := by
        rw [range_succ_eq_map, flatMap_cons, flatMap_map, Nat.add_zero]
        simp only [Nat.succ_eq_add_one, Nat.add_assoc, Nat.add_comm 1]
      have htake : (s.disk.block sec).toList.take (min left 512) =
          (s.disk.block sec).toList.take left := by
        rw [← take_take, take_of_length_le (i := 512) (by simp)]
      rw [if_neg hleft, read_of_lt hs (by omega), Option.elim_some, ih _ _ (by omega),
        Option.map_some, hrange, take_append, Block.length_toList, htake,
        show left - min left 512 = left - 512 by omega]

/-- **A chain is read**: the bytes of the clusters found by following the links, as many as are
wanted.

**Proof sketch.** Induction on the rounds; when fewer bytes are wanted than a cluster has, the loop
ends, and so does the prefix of the bytes. -/
lemma Holds.readChain (guard left : ℕ) (hsane : v.Sane sh) (hc : sh.IsCluster c ∨ sh.Stops c) :
    s.readChain guard c left =
      some (((follow v.fat sh.Stops guard c).flatMap v.data).take left) := by
  induction guard generalizing c left with
  | zero => simp [Fs.readChain, follow]
  | succ guard ih =>
    have hthreshold := h.threshold
    rw [Fs.readChain, follow]
    by_cases hstop : sh.Stops c
    · have hstop' := hstop
      unfold Shape.Stops at hstop'
      rw [if_neg (by omega), if_pos hstop, flatMap_nil, take_nil]
    have hin := hc.resolve_right hstop
    rw [if_neg hstop, flatMap_cons]
    unfold Shape.Stops at hstop
    by_cases hleft : left = 0
    · rw [if_neg (by omega), hleft, take_zero]
    have hbytes := readSectors_eq h.geom s.boot.sectorsPerCluster (s.clusterSector c) left
      (h.clusterSector_lt hin).2
    have hdata : ((List.range s.boot.sectorsPerCluster).flatMap fun j =>
        (s.disk.block (s.clusterSector c + j)).toList) = v.data c := h.data c hin
    have hleft' : left - ((v.data c).take left).length = left - (v.data c).length := by
      rw [length_take]
      omega
    rw [hdata] at hbytes
    rw [if_pos (by omega), hbytes, Option.elim_some, h.fat c hin, ih _ (hsane.links c hin),
      Option.map_some, take_append, hleft']

/-! ## Allocating -/

/-- The sectors of the cluster are zero. -/
def Blank (s : Fs) (c : ℕ) : Prop :=
  ∀ j < s.boot.sectorsPerCluster, s.disk.block (s.clusterSector c + j) = .zero 512

omit h in
lemma foldl_write_eq (s : Fs) (a : ℕ) (b : Sector) (ks : List ℕ) :
    ks.foldl (fun t k => t.write (a + k) b) s = { s with
      disk := (ks.map fun k => (u32 (a + k), b)).foldl (fun d w => d.write w.1 w.2) s.disk } := by
  induction ks generalizing s with
  | nil => rfl
  | cons k ks ih =>
    rw [foldl_cons, ih]
    rfl

/-- The sectors after a cluster is filled with zeros. -/
lemma Holds.zeroCluster (hc : sh.IsCluster c) :
    After s (s.zeroCluster c) sh
        { v with data := update v.data c (List.replicate sh.bytes 0) } ∧
      (s.zeroCluster c).Blank c := by
  have hlt := h.clusterSector_lt hc
  have hsize := h.geom.size_le
  have heq := s.foldl_write_eq (s.clusterSector c) (.zero 512)
    (List.range s.boot.sectorsPerCluster)
  have hsib : Sibling s (s.zeroCluster c) := by
    rw [Fs.zeroCluster, heq]
    exact sibling_disk (Device.size_foldl_write _)
  have hu : ∀ j < s.boot.sectorsPerCluster,
      u32 (s.clusterSector c + j) = s.clusterSector c + j := fun j hj => u32_of_lt (by omega)
  -- a sector of the cluster is written, always with zeros
  have hself : ∀ j < s.boot.sectorsPerCluster,
      (s.zeroCluster c).disk.block (s.clusterSector c + j) = .zero 512 := by
    intro j hj
    rw [Fs.zeroCluster, heq]
    apply Device.block_foldl_write_of_mem
    · exact mem_map.2 ⟨j, mem_range.2 hj, by rw [hu j hj]⟩
    · intro w hw _
      obtain ⟨k, -, rfl⟩ := mem_map.1 hw
      rfl
    · omega
  have hother : ∀ x, (∀ j < s.boot.sectorsPerCluster, x ≠ s.clusterSector c + j) →
      (s.zeroCluster c).disk.block x = s.disk.block x := by
    intro x hx
    rw [Fs.zeroCluster, heq]
    apply Device.block_foldl_write_of_notMem
    intro w hw
    obtain ⟨k, hk, rfl⟩ := mem_map.1 hw
    rw [mem_range] at hk
    simp only [hu k hk]
    exact (hx k hk).symm
  have hblank : (s.zeroCluster c).Blank c := by
    unfold Blank
    rw [hsib.boot, hsib.clusterSector]
    exact hself
  refine ⟨⟨hsib, h.of_dataBlocks hsib ?_ ?_⟩, hblank⟩
  · intro x hx
    exact hother x fun j _ => by omega
  · intro d hd
    by_cases hdc : d = c
    · rw [hdc, update_self, clusterBytes, hsib.boot, hsib.clusterSector, ← h.bytes]
      have hzero : (List.range s.boot.sectorsPerCluster).flatMap (fun j =>
          ((s.zeroCluster c).disk.block (s.clusterSector c + j)).toList) =
          (List.range s.boot.sectorsPerCluster).flatMap fun _ => List.replicate 512 0 := by
        apply flatMap_congr
        intro j hj
        rw [hself j (mem_range.1 hj), Block.toList_zero]
      rw [hzero, eq_replicate_iff]
      constructor
      · simp only [length_flatMap, length_replicate, map_const', length_range, sum_replicate_nat]
      · intro b hb
        obtain ⟨j, -, hb⟩ := mem_flatMap.1 hb
        exact eq_of_mem_replicate hb
    · rw [update_of_ne hdc, clusterBytes_of_blocks hsib, h.data d hd]
      intro i hi
      apply hother
      intro j hj heq
      exact hdc (clusterSector_inj hd hc hi hj heq)

/-- The cluster that `allocate_cluster` finds. -/
lemma Holds.find?_eq :
    ((List.range' 2 s.totalClusters).find? fun c => s.getFatEntry c == 0) =
      (v.freeList sh).head? := by
  rw [Vol.freeList, ← head?_filter, h.clusters]
  congr 1
  apply filter_congr
  intro c hc
  rw [mem_range'_1] at hc
  rw [h.fat c ⟨hc.1, by omega⟩]
  exact beq_eq_decide _ _

/-- **No cluster is free.** -/
lemma Holds.allocateCluster_of_nil (hfree : v.freeList sh = []) : s.allocateCluster = (0, s) := by
  rw [Fs.allocateCluster, h.find?_eq, hfree]
  rfl

/-- **The first free cluster is taken.** -/
lemma Holds.allocateCluster {fs : List ℕ} (hfree : v.freeList sh = c :: fs) :
    s.allocateCluster.1 = c ∧ After s s.allocateCluster.2 sh (v.taken sh c) ∧
      s.allocateCluster.2.Blank c := by
  have hc : sh.IsCluster c := (Vol.mem_freeList.1 (hfree ▸ mem_cons_self)).1
  have hset := h.after_setFatEntry hc le_rfl
  have hzero := hset.2.zeroCluster hc
  have heq : s.allocateCluster = (c, (s.setFatEntry c sh.eoc).zeroCluster c) := by
    rw [Fs.allocateCluster, h.find?_eq, hfree, head?_cons, Option.elim_some, h.eoc]
  rw [heq]
  exact ⟨rfl, hset.trans hzero.1, hzero.2⟩

/-! ## Writing -/

omit h in
/-- The sectors of a cluster that are written. -/
lemma writeSectors_eq (hs : Geom s) (n sec : ℕ) (rest : List UInt8) (h : sec + n ≤ s.disk.size) :
    ∃ t, writeSectors n sec rest s = (some (rest.drop (512 * n)), t) ∧ Sibling s t ∧
      (∀ x, x < sec ∨ sec + n ≤ x → t.disk.block x = s.disk.block x) ∧
      ∀ i < n, t.disk.block (sec + i) =
        if 512 * i < rest.length then .ofList ((rest.drop (512 * i)).take 512)
        else s.disk.block (sec + i) := by
  induction n generalizing s sec rest with
  | zero =>
    refine ⟨s, ?_, Sibling.refl s, fun _ _ => rfl, fun i hi => absurd hi (Nat.not_lt_zero i)⟩
    rw [writeSectors, Nat.mul_zero, drop_zero]
  | succ n ih =>
    by_cases hrest : rest = []
    · refine ⟨s, ?_, Sibling.refl s, fun _ _ => rfl, fun i _ => ?_⟩
      · rw [writeSectors, if_pos hrest, hrest, drop_nil]
      · rw [hrest, if_neg (by simp)]
    have hsib : Sibling s (s.write sec (.ofList (rest.take 512))) := sibling_write _ _
    -- the rest is written behind the first sector
    obtain ⟨t, heq, hst, hsame, hblock⟩ := ih (s := s.write sec (.ofList (rest.take 512)))
      (hsib.geom hs) (sec + 1) (rest.drop 512) (by rw [hsib.2]; omega)
    refine ⟨t, ?_, hsib.trans hst, ?_, ?_⟩
    · rw [writeSectors, if_neg hrest, if_pos (canWrite_of_lt hs (by omega)), heq, drop_drop,
        Nat.mul_add, Nat.add_comm]
    · intro x hx
      rw [hsame x (by omega), block_write_of_ne hs (by omega) (by omega)]
    · intro i hi
      cases i with
      | zero =>
        have hpos : 512 * 0 < rest.length := by
          simpa using length_pos_of_ne_nil hrest
        rw [if_pos hpos, Nat.add_zero, hsame sec (by omega), block_write_self hs (by omega)]
        rfl
      | succ i =>
        have hi' := hblock i (by omega)
        rw [show sec + (i + 1) = sec + 1 + i by omega, hi', length_drop, drop_drop,
          block_write_of_ne hs (by omega) (by omega), show 512 + 512 * i = 512 * (i + 1) by omega]
        by_cases hlt : 512 * (i + 1) < rest.length
        · rw [if_pos hlt, if_pos (by omega)]
        · rw [if_neg hlt, if_neg (by omega)]

/-- **A part of the data is written to an empty cluster.** -/
lemma Holds.writeSectors (hc : sh.IsCluster c) (hblank : s.Blank c) (rest : List UInt8) :
    ∃ t, Fs.writeSectors s.boot.sectorsPerCluster (s.clusterSector c) rest s =
        (some (rest.drop sh.bytes), t) ∧
      After s t sh { v with
        data := update v.data c (Vol.clusterOf sh (rest.take sh.bytes)) } := by
  have hlt := h.clusterSector_lt hc
  obtain ⟨t, heq, hst, hsame, hblock⟩ := writeSectors_eq h.geom s.boot.sectorsPerCluster
    (s.clusterSector c) rest hlt.2
  rw [Nat.mul_comm, h.bytes] at heq
  refine ⟨t, heq, hst, h.of_dataBlocks hst ?_ ?_⟩
  · intro x hx
    exact hsame x (by omega)
  · intro d hd
    by_cases hdc : d = c
    · have hbytes : t.clusterBytes c = (List.range s.boot.sectorsPerCluster).flatMap fun i =>
          (Block.ofList ((rest.drop (512 * i)).take 512) : Sector).toList := by
        unfold clusterBytes
        rw [hst.boot, hst.clusterSector]
        apply flatMap_congr
        intro i hi
        rw [mem_range] at hi
        rw [hblock i hi, hblank i hi]
        by_cases hlen : 512 * i < rest.length
        · rw [if_pos hlen]
        · rw [if_neg hlen, drop_eq_nil_of_le (by omega)]
          rfl
      rw [hdc, update_self, hbytes, flatMap_ofList, h.bytes]
      rfl
    · rw [update_of_ne hdc, clusterBytes_of_blocks hst, h.data d hd]
      intro i hi
      apply hsame
      by_contra hin
      -- a sector of two clusters would make them equal
      have hj : s.clusterSector d + i - s.clusterSector c < s.boot.sectorsPerCluster := by omega
      exact hdc (clusterSector_inj hd hc hi hj (by omega))

/-- Linking a cluster does not change the sectors of clusters. -/
lemma Holds.blank_setFatEntry (hc : sh.IsCluster c) {d x : ℕ} (hd : sh.IsCluster d)
    (hblank : s.Blank d) : (s.setFatEntry c x).Blank d := by
  have hc' := h.isCluster.2 hc
  have hst : Sibling s (s.setFatEntry c x) := sibling_setFatEntry h.geom hc'
  unfold Blank
  rw [hst.boot, hst.clusterSector]
  intro j hj
  have h₁ := (h.clusterSector_lt hd).1
  have h₂ := h.geom.data_eq
  rw [block_setFatEntry_of_outside h.geom hc' (.inr (by omega)), hblank j hj]

/-- The loop of `fat_write_file`, from an allocated cluster `c` on: the data goes to `c` and the
first free clusters.

**Proof sketch.** Induction on the rounds. A round fills its cluster; then either the data is at
its end, or the next free cluster is taken, linked and filled by the rounds that follow, or there
is none and the chain ends here. -/
lemma Holds.writeChain (fuel : ℕ) {rest : List UInt8} (hc : sh.IsCluster c)
    (hfat : v.fat c = sh.eoc) (hblank : s.Blank c) (hrest : rest ≠ [])
    (hfuel : rest.length ≤ fuel) :
    (Fs.writeChain fuel c rest s).1 =
        decide (sh.need rest.length ≤ (v.freeList sh).length + 1) ∧
      After s (Fs.writeChain fuel c rest s).2 sh
        ⟨link sh.eoc (c :: (v.freeList sh).take (sh.need rest.length - 1)) v.fat, v.dir,
          Vol.fill sh (c :: (v.freeList sh).take (sh.need rest.length - 1)) rest v.data⟩ := by
  induction fuel generalizing s v c rest with
  | zero => exact absurd (eq_nil_of_length_eq_zero (by omega)) hrest
  | succ fuel ih =>
    have hpos : 0 < rest.length := length_pos_of_ne_nil hrest
    have hneed := sh.need_of_pos hpos
    obtain ⟨t, heq, hst⟩ := h.writeSectors hc hblank rest
    have hlen : (rest.drop sh.bytes).length = rest.length - sh.bytes := length_drop
    unfold Fs.writeChain
    simp only [heq, Option.elim_some]
    by_cases hend : rest.drop sh.bytes = []
    · -- the data is at its end
      rw [hend, length_nil] at hlen
      rw [if_pos hend, hneed, ← hlen, Shape.need_zero, Nat.zero_add, Nat.sub_self, take_zero]
      refine ⟨(decide_eq_true (by omega)).symm, ?_⟩
      have hset := hst.2.after_setFatEntry hc (le_refl sh.eoc)
      rw [hst.2.eoc]
      exact hst.trans hset
    have hmore : 0 < sh.need (rest.length - sh.bytes) := by
      rw [← hlen]
      exact sh.need_pos (length_pos_of_ne_nil hend)
    rw [if_neg hend]
    cases hfree : v.freeList sh with
    | nil =>
      -- the clusters run out
      have hnone := hst.2.allocateCluster_of_nil hfree
      have hlink : link sh.eoc [c] v.fat = v.fat := by
        rw [link, link, headD_nil, ← hfat, update_eq_self]
      rw [hnone, if_pos (by omega), take_nil, hlink]
      exact ⟨(decide_eq_false (by simp; omega)).symm, hst⟩
    | cons d fs =>
      -- the next cluster is taken and linked
      obtain ⟨hd₁, hd₂, hd₃⟩ := hst.2.allocateCluster
        (show Vol.freeList sh _ = d :: fs from hfree)
      have hd := (Vol.mem_freeList.1 (show d ∈ v.freeList sh from hfree ▸ mem_cons_self)).1
      have heoc := Vol.eoc_pos sh
      have hused : v.fat c ≠ 0 := by omega
      have hle : d ≤ sh.eoc := by
        have h₁ := hd.2
        have h₂ := sh.threshold_le
        have h₃ := sh.clusters_lt
        omega
      obtain ⟨hdfs, hcfs⟩ := Vol.notMem_of_freeList hfree hused
      have hdc : d ≠ c := fun hdc => hcfs (hdc ▸ mem_cons_self)
      have hset : After t.allocateCluster.2 (t.allocateCluster.2.setFatEntry c d) sh
          (v.extended sh c d (rest.take sh.bytes)) := hd₂.2.after_setFatEntry hc hle
      have hih := ih hset.2 hd (Vol.fat_extended_self hdc) (hd₂.2.blank_setFatEntry hc hd hd₃) hend
        (by have := sh.bytes_pos; omega)
      obtain ⟨m, hm⟩ : ∃ m, sh.need (rest.length - sh.bytes) = m + 1 :=
        ⟨sh.need (rest.length - sh.bytes) - 1, by omega⟩
      have hdm : d ∉ fs.take m := fun hmem => hdfs (mem_of_mem_take hmem)
      have hcm : c ∉ d :: fs.take m := fun hmem => hcfs
        ((cons_subset_cons d (take_subset m fs)) hmem)
      rw [Vol.freeList_extended hfree hused, hlen, hm, Nat.add_sub_cancel] at hih
      rw [hd₁, if_neg (by have := hd.1; omega), hneed, Nat.add_sub_cancel, hm, take_succ_cons]
      refine ⟨?_, ?_⟩
      · rw [hih.1, length_cons]
        simp
      · rw [← Vol.link_extended hdm hcm, ← Vol.fill_extended hdm hcm]
        exact (hst.trans hd₂).trans (hset.trans hih.2)

/-- **Data is stored**: it goes to the first free clusters, all of them when there are too few. -/
lemma Holds.storeData (data : List UInt8) :
    (s.storeData data).1 =
        (if sh.need data.length ≤ (v.freeList sh).length then some ((v.place sh data).headD 0)
        else none) ∧
      After s (s.storeData data).2 sh (v.store sh data) := by
  unfold Fs.storeData
  by_cases hdata : data = []
  · have hplace : v.place sh [] = [] := by
      rw [Vol.place, length_nil, Shape.need_zero, take_zero]
    rw [if_pos hdata, hdata, hplace, length_nil, Shape.need_zero, if_pos (Nat.zero_le _)]
    refine ⟨rfl, ?_⟩
    rw [Vol.store, hplace]
    exact h.after
  have hpos : 0 < sh.need data.length := sh.need_pos (length_pos_of_ne_nil hdata)
  rw [if_neg hdata]
  cases hfree : v.freeList sh with
  | nil =>
    have hplace : v.place sh data = [] := by rw [Vol.place, hfree, take_nil]
    rw [h.allocateCluster_of_nil hfree, if_pos (by omega), length_nil, if_neg (by omega),
      Vol.store, hplace]
    exact ⟨rfl, h.after⟩
  | cons c fs =>
    -- the first cluster is taken here, the others by the loop
    obtain ⟨hc₁, hc₂, hc₃⟩ := h.allocateCluster hfree
    have hc := (Vol.mem_freeList.1 (show c ∈ v.freeList sh from hfree ▸ mem_cons_self)).1
    have hnodup := v.nodup_freeList sh
    rw [hfree, nodup_cons] at hnodup
    have hfs : (v.taken sh c).freeList sh = fs := Vol.freeList_taken hfree
    obtain ⟨hw₁, hw₂⟩ := hc₂.2.writeChain data.length hc
      (by rw [Vol.fat_taken, update_self]) hc₃ hdata le_rfl
    obtain ⟨m, hm⟩ : ∃ m, sh.need data.length = m + 1 := ⟨sh.need data.length - 1, by omega⟩
    have hplace : v.place sh data = c :: fs.take m := by
      rw [Vol.place, hfree, hm, take_succ_cons]
    have hcm : c ∉ fs.take m := fun hmem => hnodup.1 (mem_of_mem_take hmem)
    rw [hfs, hm, Nat.add_sub_cancel] at hw₂
    rw [hfs] at hw₁
    rw [← hc₁] at hw₁ hw₂
    have hlt : ¬ s.allocateCluster.1 < 2 := by
      have := hc.1
      omega
    simp only [if_neg hlt]
    rw [hc₁] at hw₁ hw₂ ⊢
    refine ⟨?_, ?_⟩
    · simp only [hw₁, decide_eq_true_eq, length_cons, hplace, headD_cons]
    · rw [Vol.store, hplace, ← link_update_head hcm v.fat sh.eoc,
        ← Vol.fill_update_head hcm data v.data (List.replicate sh.bytes 0)]
      exact hc₂.trans hw₂

end Fs

end BengalTiger.Fat
