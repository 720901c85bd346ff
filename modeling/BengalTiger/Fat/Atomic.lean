import BengalTiger.Fat.Run

set_option autoImplicit false

/-!
# Calls that fail

`fat_write_file` frees the old chain of a file before it knows that the new data fits, and it does
not give back the clusters that it took when they run out or when no slot of the directory is free.
So a call that fails leaves the volume as it was in few cases only; here they are told exactly.

## Main definitions

* `Fat.Fs.Unharmed` — the files can be read as before, and as many clusters are free.
* `Fat.Fs.WriteSafe`, `Fat.Fs.AppendSafe`, `Fat.Fs.CopySafe` —
  the cases in which a call that fails does no harm.

## Main results

* `Fat.failure_atomic_iff` — a call that fails does no harm in these cases only.
* `Fat.failure_not_atomic` — a call on a formatted volume that does harm.
-/

namespace BengalTiger.Fat

open BlockDevice LinkTable List

namespace Vol

variable {sh : Shape} {v : Vol} {chain : ℕ → List ℕ} {j k : ℕ} {cs : List ℕ} {data : List UInt8}

/-! ## Data stored after a chain is freed -/

/-- Clusters of the other chains are not taken. -/
lemma Inv.notMem_place (h : v.Inv sh chain) {c : ℕ} (hc : c ∈ chain j) (hcs : c ∉ cs) :
    c ∉ (v.free cs).place sh data := by
  intro hmem
  have h0 := (mem_freeList_of_mem_place hmem).2
  rw [fat_free, clear_of_notMem hcs] at h0
  exact h.fat_ne_zero hc h0

/-- Files of other chains keep their bytes. -/
lemma Inv.contents_store (h : v.Inv sh chain) (hj : j < sh.slots)
    (hcs : ∀ c ∈ chain j, c ∉ cs) :
    ((v.free cs).store sh data).contents sh j = v.contents sh j := by
  have hplace : ∀ c ∈ chain j, c ∉ (v.free cs).place sh data := fun c hc =>
    h.notMem_place hc (hcs c hc)
  have hchain : ((v.free cs).store sh data).chainOf sh j = chain j := by
    by_cases hlive : (v.dir j).isLive = true
    · refine chainOf_of_isChain hlive (h.cluster j hj hlive) ?_ (h.nodup j) (h.isCluster j)
      apply (h.linked j).congr
      intro c hc
      show link sh.eoc _ (v.free cs).fat c = v.fat c
      rw [link_of_notMem (hplace c hc), fat_free, clear_of_notMem (hcs c hc)]
    · have hdead : ¬ (((v.free cs).store sh data).dir j).isLive = true := hlive
      rw [chainOf, if_neg hdead, h.dead j hj (by simpa using hlive)]
  rw [contents, hchain, h.contents_eq hj]
  congr 1
  apply flatMap_congr
  intro c hc
  exact fill_of_notMem (hplace c hc) _ _

/-- The volume can still be scanned and read. -/
lemma Inv.sane_store (h : v.Inv sh chain) : ((v.free cs).store sh data).Sane sh := by
  constructor
  case links =>
    intro c hc
    show sh.IsCluster (link sh.eoc _ (v.free cs).fat c) ∨ sh.Stops (link sh.eoc _ _ c)
    by_cases hmem : c ∈ (v.free cs).place sh data
    · obtain hnext | hlast := link_of_mem sh.eoc hmem (v.free cs).fat
      · exact .inl (mem_freeList_of_mem_place hnext).1
      · rw [hlast]
        exact .inr (.inr sh.threshold_le)
    · rw [link_of_notMem hmem, fat_free]
      by_cases hfreed : c ∈ cs
      · rw [clear_of_mem hfreed]
        exact .inr (.inl (by omega))
      · rw [clear_of_notMem hfreed]
        exact h.sane.links c hc
  case heads => exact h.sane.heads
  case plain => exact h.plain
  case tail => exact h.tail

/-! ## The file that was to be written -/

/-- The first bytes of clusters that were filled with data are the first bytes of the data. -/
lemma take_flatMap_fill {cs : List ℕ} {n : ℕ} {d : ℕ → List UInt8} (hnodup : cs.Nodup)
    (hdata : n ≤ data.length) (hroom : n ≤ cs.length * sh.bytes) :
    (cs.flatMap (fill sh cs data d)).take n = data.take n := by
  have hfill : (cs.flatMap (fill sh cs data d)).take data.length =
      data.take (cs.length * sh.bytes) := flatMap_fill hnodup data d
  have htake := congrArg (List.take n) hfill
  rwa [take_take, take_take, Nat.min_eq_left hdata, Nat.min_eq_left hroom] at htake

/-- Clusters have as many bytes as before they were filled. -/
lemma length_flatMap_fill {bs cs : List ℕ} {d : ℕ → List UInt8}
    (hd : ∀ c ∈ bs, (d c).length = sh.bytes) :
    (bs.flatMap (fill sh cs data d)).length = bs.length * sh.bytes := by
  have hmap : bs.map (fun c => (fill sh cs data d c).length) = bs.map fun _ => sh.bytes :=
    map_congr_left fun c hc => length_fill data (hd c hc)
  rw [length_flatMap, hmap, map_const', sum_replicate_nat]

section Target

variable (h : v.Inv sh chain) (hk : k < sh.slots) (hlive : (v.dir k).isLive = true)
  (hnone : v.freeList sh = [])

include h hk hnone

/-- When no cluster is free, those of the old chain are, once it is freed. -/
lemma Inv.freeList_vacate : ((v.vacate sh k).freeList sh).Perm (chain k) := by
  have hperm := h.freeList_vacate_perm hk
  rwa [hnone, nil_append] at hperm

include hlive

omit h hk hnone in
/-- The bytes of the file after the data did not fit: those in the clusters from the first one of
the old chain on, in ascending order. -/
lemma contents_store_self (hfull : ¬ v.Fits sh k data) {as bs : List ℕ} {f : ℕ}
    (hplace : (v.vacate sh k).freeList sh = as ++ f :: bs) (hf : (v.dir k).cluster = f) :
    ((v.vacate sh k).store sh data).contents sh k =
      ((f :: bs).flatMap (fill sh (as ++ f :: bs) data v.data)).take (v.dir k).size := by
  have hnodup := nodup_freeList sh (v.vacate sh k)
  have hall : (v.vacate sh k).place sh data = as ++ f :: bs := by
    unfold Fits at hfull
    rw [place, take_of_length_le (by omega), hplace]
  have hin : ∀ c ∈ f :: bs, sh.IsCluster c := by
    intro c hc
    have hmem : c ∈ (v.vacate sh k).freeList sh := by
      rw [hplace]
      exact mem_append_right _ hc
    exact (mem_freeList.1 hmem).1
  have hchain : ((v.vacate sh k).store sh data).chainOf sh k = f :: bs := by
    refine chainOf_of_isChain hlive hf ?_ ?_ hin
    · have hlink := isChain_link hnodup sh.threshold_le (v.vacate sh k).fat
      rw [hplace] at hlink
      show IsChain (link sh.eoc ((v.vacate sh k).place sh data) _) _ _
      rw [hall]
      exact hlink.of_append
    · rw [hplace] at hnodup
      exact (nodup_append.1 hnodup).2.1
  rw [contents, hchain]
  show ((f :: bs).flatMap (fill sh ((v.vacate sh k).place sh data) data v.data)).take _ = _
  rw [hall]
  rfl

/-- **The file keeps its bytes** only if its chain began with its smallest cluster and the new data
begins with its bytes.

**Proof sketch.** The clusters of the old chain are linked in ascending order and filled with the
data. If the entry names the smallest of them, the file has the first bytes of the data; if not, it
has fewer clusters than its size asks for. -/
lemma Inv.contents_store_self_iff (hfull : ¬ v.Fits sh k data) (hne : chain k ≠ [])
    (hlen : (v.contents sh k).length = (v.dir k).size)
    (hdata : ∀ c, sh.IsCluster c → (v.data c).length = sh.bytes) :
    ((v.vacate sh k).store sh data).contents sh k = v.contents sh k ↔
      (∀ c ∈ chain k, (v.dir k).cluster ≤ c) ∧ v.contents sh k <+: data := by
  have hperm := h.freeList_vacate hk hnone
  have hcount := h.length k hk hlive
  have hcluster := h.cluster k hk hlive
  have hsorted := pairwise_freeList sh (v.vacate sh k)
  have hmem : (v.dir k).cluster ∈ (v.vacate sh k).freeList sh := by
    rw [hperm.mem_iff, hcluster]
    cases hchain : chain k with
    | nil => exact absurd hchain hne
    | cons c cs => exact mem_cons_self
  obtain ⟨as, bs, hplace⟩ := append_of_mem hmem
  have hself := contents_store_self hlive hfull hplace rfl
  have hcard : (as ++ (v.dir k).cluster :: bs).length = sh.need (v.dir k).size := by
    rw [← hplace, hperm.length_eq, hcount]
  have hmore : (v.dir k).size ≤ data.length := by
    unfold Fits at hfull
    rw [hplace, hcard, Shape.need_le_iff] at hfull
    have := sh.le_need_mul (v.dir k).size
    omega
  rw [hself]
  cases as with
  | nil =>
    -- the entry names the smallest cluster, and the file has the first bytes of the data
    have hmin : ∀ c ∈ chain k, (v.dir k).cluster ≤ c := by
      intro c hc
      rw [hplace, nil_append, pairwise_cons] at hsorted
      rw [← hperm.mem_iff, hplace, nil_append, mem_cons] at hc
      obtain rfl | hc := hc
      · exact le_rfl
      · exact (hsorted.1 c hc).le
    have hnodup := nodup_freeList sh (v.vacate sh k)
    rw [hplace, nil_append] at hnodup
    rw [nil_append] at hcard
    have hprefix : (((v.dir k).cluster :: bs).flatMap
        (fill sh ((v.dir k).cluster :: bs) data v.data)).take (v.dir k).size =
        data.take (v.dir k).size := by
      apply take_flatMap_fill hnodup hmore
      rw [hcard]
      exact sh.le_need_mul _
    rw [nil_append, hprefix]
    constructor
    · intro heq
      refine ⟨hmin, ?_⟩
      rw [← heq]
      exact take_prefix _ _
    · rintro ⟨-, hpre⟩
      rw [prefix_iff_eq_take.1 hpre, hlen]
  | cons a as =>
    -- the chain that is read lacks a cluster
    have hlt : a < (v.dir k).cluster := by
      rw [hplace, cons_append, pairwise_cons] at hsorted
      exact hsorted.1 _ (by simp)
    have ha : a ∈ chain k := by
      rw [← hperm.mem_iff, hplace]
      exact mem_cons_self
    constructor
    · intro heq
      exfalso
      have hshort : (((v.dir k).cluster :: bs).flatMap
          (fill sh (a :: as ++ (v.dir k).cluster :: bs) data v.data)).length =
          ((v.dir k).cluster :: bs).length * sh.bytes := by
        refine length_flatMap_fill fun c hc => hdata c (h.isCluster k c ?_)
        rw [← hperm.mem_iff, hplace]
        exact mem_append_right _ hc
      have hsize : 0 < (v.dir k).size := by
        by_contra h0
        rw [show (v.dir k).size = 0 by omega, Shape.need_zero] at hcard
        simp at hcard
      have hneed := sh.need_mul_lt hsize
      have hle : ((v.dir k).cluster :: bs).length * sh.bytes ≤
          (sh.need (v.dir k).size - 1) * sh.bytes := by
        apply Nat.mul_le_mul_right
        simp only [length_append, length_cons] at hcard ⊢
        omega
      have hlen' := congrArg List.length heq
      rw [length_take, hshort, hlen] at hlen'
      omega
    · rintro ⟨hmin, -⟩
      exact absurd (hmin a ha) (by omega)

end Target

end Vol

namespace Fs

variable {s t : Fs} {sh : Shape} {v w : Vol} {chain : ℕ → List ℕ} {k : ℕ}
  {name fatName data : List UInt8} {heap : Option (ℕ → UInt8)}

/-! ## Harm -/

/-- **No harm was done**: what could be read before can be read now, with the same size and bytes,
and as many clusters are free. -/
def Unharmed (s t : Fs) : Prop :=
  (∀ name maxLen r, s.fatReadFile name maxLen = some r → t.fatReadFile name maxLen = some r) ∧
    t.fatGetFsInfo.freeClusters = s.fatGetFsInfo.freeClusters

lemma Unharmed.refl (s : Fs) : s.Unharmed s := ⟨fun _ _ _ h => h, rfl⟩

variable (h : s.Holds sh v)

include h

/-- The number of free clusters that is reported. -/
lemma Holds.freeClusters_eq : s.fatGetFsInfo.freeClusters = (v.freeList sh).length := by
  have hused := h.usedClusters_eq
  have hadd := v.length_freeList_add sh
  have hfree : s.fatGetFsInfo.freeClusters =
      if s.fatGetFsInfo.usedClusters ≤ s.totalClusters then
        s.totalClusters - s.fatGetFsInfo.usedClusters else 0 := by
    rw [fatGetFsInfo, if_neg (by rw [h.geom.mounted]; simp)]
  rw [hfree, hused, h.clusters, if_pos (by omega)]
  omega

variable (hinv : v.Inv sh chain)

include hinv

/-- No harm was done when the files keep their bytes, with the directory as it was. -/
lemma Holds.unharmed_iff (ht : t.Holds sh w) (hsane : w.Sane sh) (hdir : w.dir = v.dir) :
    s.Unharmed t ↔
      (∀ k < sh.slots, (v.dir k).isLive = true → w.contents sh k = v.contents sh k) ∧
        (w.freeList sh).length = (v.freeList sh).length := by
  have hlook : ∀ n, w.lookup sh n = v.lookup sh n := by
    intro n
    unfold Vol.lookup
    rw [hdir]
  unfold Unharmed
  rw [h.freeClusters_eq, ht.freeClusters_eq]
  constructor
  · rintro ⟨hreads, hfree⟩
    refine ⟨fun k hk hlive => ?_, hfree⟩
    obtain ⟨text, htext⟩ := hinv.isName k hk hlive
    have hl : v.lookup sh (v.dir k).name = some k :=
      hinv.lookup_eq_some.2 ⟨hk, hlive, rfl⟩
    -- a buffer that is large enough for the bytes before and after
    have hread := hreads text ((v.contents sh k).length + (w.contents sh k).length)
    rw [h.fatReadFile_of_sane hinv.sane, ht.fatReadFile_of_sane hsane, htext, Option.bind_some,
      Option.bind_some, hlook, hl] at hread
    have heq := hread _ rfl
    simp only [Option.map_some, Option.some_inj, Prod.mk.injEq] at heq
    rw [take_of_length_le (by omega), take_of_length_le (by omega)] at heq
    exact heq.2
  · rintro ⟨hcontents, hfree⟩
    refine ⟨fun name maxLen r hread => ?_, hfree⟩
    rw [h.fatReadFile_of_sane hinv.sane] at hread
    rw [ht.fatReadFile_of_sane hsane, ← hread]
    congr 1
    funext n
    rw [hlook]
    cases hl : v.lookup sh n with
    | none => rfl
    | some k =>
      obtain ⟨hk, hlive, -⟩ := Vol.lookup_spec hl
      rw [Option.map_some, Option.map_some, hcontents k hk hlive, hdir]

/-- **A new file could not be written**: the clusters that were taken are lost. -/
lemma Holds.unharmed_iff_of_absent (hn : filenameToFat name = some fatName)
    (hl : v.lookup sh fatName = none) (hfail : (s.fatWriteFile name data).1 = false) :
    s.Unharmed (s.fatWriteFile name data).2 ↔ v.freeList sh = [] ∨ data = [] := by
  have hafter : After s (s.fatWriteFile name data).2 sh ((v.free []).store sh data) := by
    rw [Vol.free_nil]
    cases ht : v.target sh fatName with
    | none => exact (h.fatWriteFile_of_full hinv hn ht data).2
    | some k =>
      obtain ⟨hres, hafter⟩ := h.fatWriteFile hinv hn ht data
      have hfits : ¬ v.Fits sh k data := of_decide_eq_false (hres.symm.trans hfail)
      have hfree : v.freeSlot sh = some k := by
        rw [Vol.target, hl, Option.none_or] at ht
        exact ht
      rw [if_neg hfits, Vol.vacate_of_dead (Vol.freeSlot_spec hfree).2.1] at hafter
      exact hafter
  rw [h.unharmed_iff hinv hafter.2 hinv.sane_store rfl, Vol.freeList_store, Vol.free_nil,
    length_drop]
  constructor
  · rintro ⟨-, hlen⟩
    by_cases hdata : data = []
    · exact .inr hdata
    · have hpos := sh.need_pos (length_pos_of_ne_nil hdata)
      exact .inl (eq_nil_of_length_eq_zero (by omega))
  · intro hcase
    refine ⟨fun k hk _ => ?_, ?_⟩
    · have hkept : ((v.free []).store sh data).contents sh k = v.contents sh k :=
        hinv.contents_store hk (by simp)
      rwa [Vol.free_nil] at hkept
    · obtain hnil | hnil := hcase
      · rw [hnil, length_nil, Nat.zero_sub]
      · rw [hnil, length_nil, Shape.need_zero, Nat.sub_zero]

/-- **A file could not be written again.** -/
lemma Holds.unharmed_iff_of_found (hn : filenameToFat name = some fatName)
    (hl : v.lookup sh fatName = some k) (hfail : (s.fatWriteFile name data).1 = false) :
    s.Unharmed (s.fatWriteFile name data).2 ↔
      v.freeList sh = [] ∧ (chain k = [] ∨
        (∀ c ∈ chain k, (v.dir k).cluster ≤ c) ∧ v.contents sh k <+: data) := by
  obtain ⟨hk, hlive, -⟩ := hinv.lookup_eq_some.1 hl
  have ht : v.target sh fatName = some k := by rw [Vol.target, hl, Option.some_or]
  obtain ⟨hres, hafter⟩ := h.fatWriteFile hinv hn ht data
  have hfits : ¬ v.Fits sh k data := of_decide_eq_false (hres.symm.trans hfail)
  rw [if_neg hfits] at hafter
  have hsane : ((v.vacate sh k).store sh data).Sane sh := hinv.sane_store
  -- a failed write uses up the free clusters, those of the old file with them
  have hfree : ((v.vacate sh k).store sh data).freeList sh = [] := by
    unfold Vol.Fits at hfits
    rw [Vol.freeList_store, drop_eq_nil_of_le (by omega)]
  have hother : ∀ j < sh.slots, j ≠ k →
      ((v.vacate sh k).store sh data).contents sh j = v.contents sh j := by
    intro j hj hjk
    rw [hinv.vacate_eq hk]
    exact hinv.contents_store hj (hinv.disjoint j k hjk)
  have hlen := h.length_contents hinv hk hlive
  rw [h.unharmed_iff hinv hafter.2 hsane rfl, hfree, length_nil]
  constructor
  · rintro ⟨hcontents, hzero⟩
    have hnone : v.freeList sh = [] := eq_nil_of_length_eq_zero hzero.symm
    refine ⟨hnone, ?_⟩
    by_cases hne : chain k = []
    · exact .inl hne
    · exact .inr ((hinv.contents_store_self_iff hk hlive hnone hfits hne hlen
        fun c hc => h.length_data hc).1 (hcontents k hk hlive))
  · rintro ⟨hnone, hcase⟩
    refine ⟨fun j hj _ => ?_, by rw [hnone, length_nil]⟩
    by_cases hjk : j = k
    · subst hjk
      by_cases hne : chain j = []
      · rw [hinv.vacate_eq hk]
        exact hinv.contents_store hj (by simp [hne])
      · exact (hinv.contents_store_self_iff hk hlive hnone hfits hne hlen
          fun c hc => h.length_data hc).2 (hcase.resolve_left hne)
    · exact hother j hj hjk

/-! ## The cases without harm -/

/-- The clusters found by following the links from `c`. -/
def chainFrom (s : Fs) (c : ℕ) : List ℕ :=
  follow s.getFatEntry (fun x => x < 2 ∨ s.eocThreshold ≤ x) (s.totalClusters + 2) c

/-- A write that fails does no harm: the name cannot be stored; or the file is new, and no cluster
was free or there is no data; or the file exists, no cluster was free, and the file was empty, or
its first cluster was its smallest and the data begins with its bytes. -/
def WriteSafe (s : Fs) (name data : List UInt8) : Prop :=
  filenameToFat name = none ∨
    (s.findDirentVal name).elim (s.fatGetFsInfo.freeClusters = 0 ∨ data = []) fun x =>
      s.fatGetFsInfo.freeClusters = 0 ∧ (x.ent.size = 0 ∨
        (∀ c ∈ s.chainFrom x.ent.cluster, x.ent.cluster ≤ c) ∧
          ∃ old, s.readEntry x.ent x.ent.size = some old ∧ old <+: data)

/-- An append that fails does no harm: the file would be too large, there is no memory, or the
write of the whole file does no harm. -/
def AppendSafe (s : Fs) (name data : List UInt8) (heap : Option (ℕ → UInt8)) : Prop :=
  (s.findDirentVal name).elim (s.WriteSafe name data) fun x =>
    maxFileSize < u32 (x.ent.size + data.length) ∨ heap = none ∨
      ∃ old, s.readEntry x.ent x.ent.size = some old ∧ s.WriteSafe name (old ++ data)

/-- A copy that fails does no harm: there is no such file, it is too large, there is no memory, or
the write of the copy does no harm. -/
def CopySafe (s : Fs) (src dst : List UInt8) (heap : Option (ℕ → UInt8)) : Prop :=
  (s.findDirentVal src).elim True fun x =>
    maxFileSize < x.ent.size ∨ (x.ent.size ≠ 0 ∧ heap = none) ∨
      ∃ old, s.readEntry x.ent x.ent.size = some old ∧ s.WriteSafe dst old

/-- The chain of a file is found by following the links. -/
lemma Holds.chainFrom_eq (hk : k < sh.slots) (hlive : (v.dir k).isLive = true)
    (hne : chain k ≠ []) :
    s.chainFrom (v.dir k).cluster = chain k := by
  have hcluster := hinv.cluster k hk hlive
  have hin := hinv.isCluster k
  have hlinked := (hinv.linked k).congr fun c hc => h.fat c (hin c hc)
  have hcard := Vol.length_le_clusters (hinv.nodup k) hin
  unfold chainFrom
  rw [h.threshold, h.clusters, hcluster]
  cases hchain : chain k with
  | nil => exact absurd hchain hne
  | cons c cs =>
    rw [hchain] at hin hlinked hcard
    have hstops : IsChain s.getFatEntry (fun x => x < 2 ∨ sh.threshold ≤ x) (c :: cs) :=
      hlinked.mono fun _ => .inr
    apply hstops.follow_eq
    · intro x hx
      exact (hin x hx).not_stops
    · omega

/-- **A write that fails.** -/
lemma Holds.unharmed_write_iff (hfail : (s.fatWriteFile name data).1 = false) :
    s.Unharmed (s.fatWriteFile name data).2 ↔ s.WriteSafe name data := by
  have hfind := h.findDirentVal_eq hinv.sane name
  unfold WriteSafe
  cases hn : filenameToFat name with
  | none =>
    rw [fatWriteFile_of_bad hn]
    simp only [true_or, iff_true]
    exact Unharmed.refl s
  | some fatName =>
    rw [hn, Option.bind_some] at hfind
    simp only [reduceCtorEq, false_or]
    cases hl : v.lookup sh fatName with
    | none =>
      rw [hl, Option.map_none] at hfind
      rw [h.unharmed_iff_of_absent hinv hn hl hfail, hfind, Option.elim_none, h.freeClusters_eq,
        length_eq_zero_iff]
    | some k =>
      rw [hl, Option.map_some] at hfind
      obtain ⟨hk, hlive, -⟩ := hinv.lookup_eq_some.1 hl
      obtain ⟨hent, -, hread⟩ := h.entry_of_lookup hinv hl
      -- only an empty file has no chain
      have hempty : (v.dir k).size = 0 ↔ chain k = [] := by
        rw [← length_eq_zero_iff, hinv.length k hk hlive]
        constructor
        · intro h0
          rw [h0, Shape.need_zero]
        · intro h0
          by_contra hne
          exact (sh.need_pos (Nat.pos_of_ne_zero hne)).ne' h0
      rw [h.unharmed_iff_of_found hinv hn hl hfail, hfind, Option.elim_some, h.freeClusters_eq,
        length_eq_zero_iff, hent, hempty, hread]
      by_cases hne : chain k = []
      · simp [hne]
      · rw [h.chainFrom_eq hinv hk hlive hne]
        simp

lemma Holds.unharmed_of_write (hfail : s.fatWriteFile name data = (false, t)) :
    s.Unharmed t ↔ s.WriteSafe name data := by
  have := h.unharmed_write_iff hinv (show (s.fatWriteFile name data).1 = false by rw [hfail])
  rwa [hfail] at this

/-- A call that rejects the request or writes a file. -/
lemma Holds.unharmed_of_ite {P : Prop} [Decidable P]
    (hfail : (if P then (false, s) else s.fatWriteFile name data) = (false, t)) :
    s.Unharmed t ↔ P ∨ s.WriteSafe name data := by
  split_ifs at hfail with hreject
  · cases hfail
    exact iff_of_true (.refl s) (.inl hreject)
  · rw [h.unharmed_of_write hinv hfail, or_iff_right hreject]

/-- **An appending call that fails.** -/
lemma Holds.unharmed_append_iff (hfail : s.fatAppendFile name data heap = some (false, t)) :
    s.Unharmed t ↔ s.AppendSafe name data heap := by
  unfold AppendSafe
  obtain ⟨hfind, -⟩ | ⟨fatName, k, hn, hl, hfind⟩ := h.findDirentVal_cases hinv.sane name
  · rw [h.fatAppendFile_of_absent hfind, Option.some_inj] at hfail
    rw [hfind, Option.elim_none]
    exact h.unharmed_of_write hinv hfail
  · obtain ⟨hent, -, hread⟩ := h.entry_of_lookup hinv hl
    have hite : (if maxFileSize < u32 ((v.dir k).size + data.length) ∨ heap = none then (false, s)
        else s.fatWriteFile name (v.contents sh k ++ data)) = (false, t) := by
      rw [h.fatAppendFile_eq hinv hn hl] at hfail
      split_ifs at hfail ⊢ <;> exact Option.some_inj.1 hfail
    rw [hfind, Option.elim_some, hent, hread, h.unharmed_of_ite hinv hite, or_assoc]
    simp only [Option.some_inj, exists_eq_left']

/-- **A copying call that fails.** -/
lemma Holds.unharmed_copy_iff {src dst : List UInt8}
    (hfail : s.fatCopyFile src dst heap = (false, t)) : s.Unharmed t ↔ s.CopySafe src dst heap := by
  have hne : strcasecmp src dst ≠ 0 := by
    intro h0
    rw [fatCopyFile, if_pos h0] at hfail
    cases hfail
  unfold CopySafe
  obtain ⟨hfind, -⟩ | ⟨fatName, k, hn, hl, hfind⟩ := h.findDirentVal_cases hinv.sane src
  · rw [fatCopyFile_of_absent hne hfind] at hfail
    cases hfail
    exact iff_of_true (.refl s) (by rw [hfind]; trivial)
  · obtain ⟨hent, -, hread⟩ := h.entry_of_lookup hinv hl
    rw [h.fatCopyFile_eq hinv hne hn hl] at hfail
    rw [hfind, Option.elim_some, hent, hread, h.unharmed_of_ite hinv hfail, or_assoc]
    simp only [Option.some_inj, exists_eq_left']

end Fs

/-- **Calls that fail.** On a consistent volume, a call that returns -1 does no harm in the cases
told, and in these only. -/
theorem failure_atomic_iff {s : Fs} (hs : s.Consistent) :
    (∀ name data t, s.fatWriteFile name data = (false, t) →
      (s.Unharmed t ↔ s.WriteSafe name data)) ∧
    (∀ name data heap t, s.fatAppendFile name data heap = some (false, t) →
      (s.Unharmed t ↔ s.AppendSafe name data heap)) ∧
    ∀ src dst heap t, s.fatCopyFile src dst heap = (false, t) →
      (s.Unharmed t ↔ s.CopySafe src dst heap) := by
  obtain ⟨sh, v, chain, h, hinv⟩ := hs
  exact ⟨fun _ _ _ hfail => h.unharmed_of_write hinv hfail,
    fun _ _ _ _ hfail => h.unharmed_append_iff hinv hfail,
    fun _ _ _ _ hfail => h.unharmed_copy_iff hinv hfail⟩

namespace Fs

/-- **Data larger than the volume does harm**, when a cluster was free. -/
lemma Holds.write_harmful {s : Fs} {sh : Shape} {v : Vol} {chain : ℕ → List ℕ}
    {name fatName data : List UInt8} (h : s.Holds sh v) (hinv : v.Inv sh chain)
    (hn : filenameToFat name = some fatName) (hfree : v.freeList sh ≠ [])
    (hlarge : sh.clusters * sh.bytes < data.length) :
    ∃ t, s.fatWriteFile name data = (false, t) ∧ ¬ s.Unharmed t := by
  have hfits : ∀ k, ¬ v.Fits sh k data := by
    intro k hfits
    have hcard := Vol.length_freeList_le sh (v.vacate sh k)
    have := Shape.need_le_iff.1 (hfits.trans hcard)
    omega
  have hfail : (s.fatWriteFile name data).1 = false := by
    cases ht : v.target sh fatName with
    | none => exact (h.fatWriteFile_of_full hinv hn ht data).1
    | some k =>
      rw [(h.fatWriteFile hinv hn ht data).1]
      exact decide_eq_false (hfits k)
  have hdata : data ≠ [] := by
    rintro rfl
    rw [length_nil] at hlarge
    omega
  refine ⟨(s.fatWriteFile name data).2, Prod.ext hfail rfl, ?_⟩
  cases hl : v.lookup sh fatName with
  | none =>
    rw [h.unharmed_iff_of_absent hinv hn hl hfail]
    exact not_or.2 ⟨hfree, hdata⟩
  | some k =>
    rw [h.unharmed_iff_of_found hinv hn hl hfail]
    exact fun hsafe => hfree hsafe.1

end Fs

/-- A formatted device of 64 sectors has free clusters, and no room for as many bytes as it has. -/
lemma small_full : ∃ sh v chain, ((blankFs 64).fatFormat []).2.Holds sh v ∧ Vol.Inv sh v chain ∧
    v.freeList sh ≠ [] ∧ sh.clusters * sh.bytes < 32768 := by
  obtain ⟨sh, v, chain, h, hinv, -, hfree, hclusters, hbytes⟩ :=
    Fs.fatFormat_holds (s := blankFs 64) (by decide) (by decide) []
  have hC : (formatGeometry (blankFs 64).disk.size).clusters = 54 := by decide
  have hS : (formatGeometry (blankFs 64).disk.size).spc = 1 := by decide
  refine ⟨sh, v, chain, h, hinv, ?_, ?_⟩
  · intro hnil
    rw [hC, hnil, length_nil] at hfree
    omega
  · rw [hclusters, hbytes, hC, hS]
    omega

/-- **A call that does harm**: on a formatted device of 64 sectors, a file of as many bytes as the
device has is not written, and its clusters are lost. -/
theorem failure_not_atomic : ((blankFs 64).fatFormat []).2.Consistent ∧
    ∃ t, ((blankFs 64).fatFormat []).2.fatWriteFile (ascii "BIG.BIN".toList)
        (List.replicate 32768 0) = (false, t) ∧
      ¬ ((blankFs 64).fatFormat []).2.Unharmed t := by
  obtain ⟨sh, v, chain, h, hinv, hfree, hroom⟩ := small_full
  have hn : filenameToFat (ascii "BIG.BIN".toList) = some (ascii "BIG     BIN".toList) := by decide
  exact ⟨⟨sh, v, chain, h, hinv⟩,
    h.write_harmful hinv hn hfree (by rw [length_replicate]; exact hroom)⟩

/-- For such a file the clusters run out, and the condition fails. -/
theorem failure_atomic_iff_bigFile :
    ∃ t, ((blankFs 64).fatFormat []).2.fatWriteFile (ascii "BIG.BIN".toList)
        (List.replicate 32768 0) = (false, t) ∧ ¬ ((blankFs 64).fatFormat []).2.Unharmed t ∧
      ¬ ((blankFs 64).fatFormat []).2.WriteSafe (ascii "BIG.BIN".toList)
        (List.replicate 32768 0) := by
  obtain ⟨sh, v, chain, h, hinv, hfree, hroom⟩ := small_full
  have hn : filenameToFat (ascii "BIG.BIN".toList) = some (ascii "BIG     BIN".toList) := by decide
  rw [← length_replicate (a := (0 : UInt8)) (n := 32768)] at hroom
  obtain ⟨t, hfail, hharm⟩ := h.write_harmful hinv hn hfree hroom
  exact ⟨t, hfail, hharm,
    fun hsafe => hharm (((failure_atomic_iff ⟨sh, v, chain, h, hinv⟩).1 _ _ t hfail).2 hsafe)⟩

end BengalTiger.Fat
