import Mathlib.Data.List.Perm.Subperm
import BengalTiger.Lib.LinkTable
import BengalTiger.Fat.Model

set_option autoImplicit false

/-!
# Volumes

What a FAT volume is for, apart from how it lies on a device: a table that links clusters, a
directory whose entries name chains, and the bytes of the clusters. A volume is consistent when
every live entry has a chain of its own of the right length and no other cluster is in use. Then
it is a map from names to byte strings.

## Main definitions

* `Fat.Shape`, `Fat.Vol` — volumes.
* `Fat.Vol.store` — data is put into the first free clusters.
* `Fat.Vol.Inv` — the volume is consistent, with the chains of its entries.
* `Fat.Vol.Sane` — the volume can be scanned and read.
* `Fat.Vol.contents` — the bytes of an entry's file.

## Main results

* `Fat.Vol.Inv.replace` — an entry gets another chain.
* `Fat.Vol.flatMap_place` — stored data is read back.
* `Fat.Vol.Inv.used_eq` — the clusters in use are those of the chains.
-/

namespace BengalTiger.Fat

open LinkTable Function List

/-- The numbers that are fixed when a volume is mounted. -/
structure Shape where
  clusters : ℕ
  slots : ℕ
  /-- The bytes of a cluster. -/
  bytes : ℕ
  /-- The mark that ends a chain, and the smallest one. -/
  eoc : ℕ
  threshold : ℕ
  bytes_pos : 0 < bytes
  clusters_lt : clusters + 2 ≤ threshold
  threshold_le : threshold ≤ eoc

/-- A volume. -/
structure Vol where
  fat : ℕ → ℕ
  dir : ℕ → Dirent
  data : ℕ → List UInt8

namespace Shape

variable (sh : Shape)

/-- The clusters are numbered from 2. -/
def IsCluster (c : ℕ) : Prop := 2 ≤ c ∧ c < sh.clusters + 2

/-- The value does not name a cluster. -/
def Stops (c : ℕ) : Prop := c < 2 ∨ sh.threshold ≤ c

instance : DecidablePred sh.Stops := fun c => inferInstanceAs (Decidable (c < 2 ∨ _))

/-- The number of clusters for `n` bytes. -/
def need (n : ℕ) : ℕ := (n + sh.bytes - 1) / sh.bytes

variable {sh} {c n : ℕ}

lemma IsCluster.not_stops (h : sh.IsCluster c) : ¬ sh.Stops c := by
  have h₁ := h.1
  have h₂ := h.2
  have := sh.clusters_lt
  unfold Stops
  omega

lemma need_zero : sh.need 0 = 0 := by
  have := sh.bytes_pos
  rw [need, Nat.zero_add]
  exact Nat.div_eq_of_lt (by omega)

variable (sh) in
/-- The first cluster takes its part of the bytes. -/
lemma need_of_pos (h : 0 < n) : sh.need n = sh.need (n - sh.bytes) + 1 := by
  have hb := sh.bytes_pos
  unfold need
  by_cases hn : sh.bytes ≤ n
  · rw [show n + sh.bytes - 1 = n - sh.bytes + sh.bytes - 1 + sh.bytes by omega,
      Nat.add_div_right _ hb]
  · rw [show n - sh.bytes + sh.bytes - 1 = sh.bytes - 1 by omega,
      show n + sh.bytes - 1 = n - 1 + sh.bytes by omega, Nat.add_div_right _ hb,
      Nat.div_eq_of_lt (by omega), Nat.div_eq_of_lt (by omega)]

variable (sh) in
lemma need_pos (h : 0 < n) : 0 < sh.need n := by
  rw [sh.need_of_pos h]
  exact Nat.succ_pos _

variable (sh) in
/-- The bytes fit into the clusters. -/
lemma le_need_mul (n : ℕ) : n ≤ sh.need n * sh.bytes := by
  have hb := sh.bytes_pos
  have h := Nat.div_add_mod (n + sh.bytes - 1) sh.bytes
  have hlt := Nat.mod_lt (n + sh.bytes - 1) hb
  unfold need
  rw [Nat.mul_comm]
  omega

variable (sh) in
/-- One cluster less is not enough. -/
lemma need_mul_lt (h : 0 < n) : (sh.need n - 1) * sh.bytes < n := by
  have hb := sh.bytes_pos
  have hdiv := Nat.div_mul_le_self (n + sh.bytes - 1) sh.bytes
  unfold need
  rw [Nat.sub_mul, Nat.one_mul]
  omega

/-- So many clusters are enough. -/
lemma need_le_iff {m : ℕ} : sh.need n ≤ m ↔ n ≤ m * sh.bytes := by
  have hb := sh.bytes_pos
  rw [need, Nat.div_le_iff_le_mul_add_pred hb, Nat.mul_comm]
  omega

end Shape

namespace Vol

variable (sh : Shape)

/-- The free clusters, in ascending order. -/
def freeList (v : Vol) : List ℕ := (List.range' 2 sh.clusters).filter fun c => v.fat c = 0

/-- A part of a file in a cluster, padded with zeros. -/
def clusterOf (part : List UInt8) : List UInt8 :=
  part ++ List.replicate (sh.bytes - part.length) 0

/-- The bytes of the clusters after data is put into some of them. -/
def fill : List ℕ → List UInt8 → (ℕ → List UInt8) → ℕ → List UInt8
  | [], _, d => d
  | c :: cs, rest, d =>
    update (fill cs (rest.drop sh.bytes) d) c (clusterOf sh (rest.take sh.bytes))

/-- The clusters for some data: the first free ones, all of them when there are too few. -/
def place (v : Vol) (data : List UInt8) : List ℕ := (v.freeList sh).take (sh.need data.length)

/-- The volume after data is put into its place and linked. -/
def store (v : Vol) (data : List UInt8) : Vol where
  fat := link sh.eoc (v.place sh data) v.fat
  dir := v.dir
  data := fill sh (v.place sh data) data v.data

/-- The volume after a chain is freed. -/
def free (v : Vol) (cs : List ℕ) : Vol := { v with fat := clear 0 cs v.fat }

/-- The volume after an entry is changed. -/
def setEntry (v : Vol) (k : ℕ) (e : Dirent) : Vol := { v with dir := update v.dir k e }

/-- The chain of a directory entry. -/
def chainOf (v : Vol) (k : ℕ) : List ℕ :=
  if (v.dir k).isLive then follow v.fat sh.Stops (sh.clusters + 2) (v.dir k).cluster else []

/-- The bytes of an entry's file. -/
def contents (v : Vol) (k : ℕ) : List UInt8 :=
  ((v.chainOf sh k).flatMap v.data).take (v.dir k).size

/-- The slot of a name. -/
def lookup (v : Vol) (name : List UInt8) : Option ℕ :=
  (List.range sh.slots).find? fun k => (v.dir k).isLive && (v.dir k).name == name

/-- The file of a name: a volume as a map. -/
def file (v : Vol) (name : List UInt8) : Option (List UInt8) :=
  (v.lookup sh name).map (v.contents sh)

/-- A name that `filename_to_fat` makes. -/
def IsName (name : List UInt8) : Prop := ∃ text, filenameToFat text = some name

/-- **The volume is consistent**: `chain k` is the chain of entry `k`. -/
structure Inv (v : Vol) (chain : ℕ → List ℕ) : Prop where
  isCluster : ∀ k, ∀ c ∈ chain k, sh.IsCluster c
  nodup : ∀ k, (chain k).Nodup
  linked : ∀ k, IsChain v.fat (sh.threshold ≤ ·) (chain k)
  disjoint : ∀ j k, j ≠ k → ∀ c ∈ chain j, c ∉ chain k
  used : ∀ c, sh.IsCluster c → v.fat c ≠ 0 → ∃ k < sh.slots, c ∈ chain k
  dead : ∀ k, k < sh.slots → (v.dir k).isLive = false → chain k = []
  beyond : ∀ k, sh.slots ≤ k → chain k = []
  cluster : ∀ k < sh.slots, (v.dir k).isLive = true → (v.dir k).cluster = (chain k).headD 0
  length : ∀ k < sh.slots, (v.dir k).isLive = true →
    (chain k).length = sh.need (v.dir k).size
  names : ∀ j < sh.slots, ∀ k < sh.slots, (v.dir j).isLive = true → (v.dir k).isLive = true →
    (v.dir j).name = (v.dir k).name → j = k
  isName : ∀ k < sh.slots, (v.dir k).isLive = true → IsName (v.dir k).name
  plain : ∀ k < sh.slots, (v.dir k).isLive = true → (v.dir k).isPlain = true
  tail : ∀ j k, j ≤ k → k < sh.slots → (v.dir j).first = 0 → (v.dir k).first = 0

/-- **The volume can be scanned and read**: a link or the first cluster of a live entry is a cluster
or ends a chain. The chains need not be those of a consistent volume. -/
structure Sane (v : Vol) : Prop where
  links : ∀ c, sh.IsCluster c → sh.IsCluster (v.fat c) ∨ sh.Stops (v.fat c)
  heads : ∀ k < sh.slots, (v.dir k).isLive = true →
    sh.IsCluster (v.dir k).cluster ∨ sh.Stops (v.dir k).cluster
  plain : ∀ k < sh.slots, (v.dir k).isLive = true → (v.dir k).isPlain = true
  tail : ∀ j k, j ≤ k → k < sh.slots → (v.dir j).first = 0 → (v.dir k).first = 0

variable {sh} {v : Vol} {chain : ℕ → List ℕ} {c k : ℕ}

@[simp] lemma fat_free (v : Vol) (cs : List ℕ) : (v.free cs).fat = clear 0 cs v.fat := rfl

@[simp] lemma dir_free (v : Vol) (cs : List ℕ) : (v.free cs).dir = v.dir := rfl

@[simp] lemma data_free (v : Vol) (cs : List ℕ) : (v.free cs).data = v.data := rfl

/-! ## Free clusters -/

lemma mem_freeList : c ∈ v.freeList sh ↔ sh.IsCluster c ∧ v.fat c = 0 := by
  unfold freeList Shape.IsCluster
  rw [mem_filter, mem_range'_1, decide_eq_true_eq, Nat.add_comm 2]

variable (sh) in
lemma nodup_freeList (v : Vol) : (v.freeList sh).Nodup := by
  unfold freeList
  exact List.Nodup.filter _ nodup_range'

variable (sh) in
/-- The first free cluster is the smallest one. -/
lemma pairwise_freeList (v : Vol) : (v.freeList sh).Pairwise (· < ·) := by
  unfold freeList
  exact List.Pairwise.filter _ pairwise_lt_range'

lemma place_sublist (v : Vol) (data : List UInt8) :
    (v.place sh data).Sublist (v.freeList sh) := take_sublist _ _

lemma mem_freeList_of_mem_place {data : List UInt8} (h : c ∈ v.place sh data) :
    sh.IsCluster c ∧ v.fat c = 0 := mem_freeList.1 ((v.place_sublist data).subset h)

lemma nodup_place (v : Vol) (data : List UInt8) : (v.place sh data).Nodup :=
  (nodup_freeList sh v).sublist (v.place_sublist data)

lemma length_place {data : List UInt8} (h : sh.need data.length ≤ (v.freeList sh).length) :
    (v.place sh data).length = sh.need data.length := by
  rw [place, length_take, Nat.min_eq_left h]

/-! ## Chains -/

/-- There are no more different clusters than the volume has. -/
lemma length_le_clusters {cs : List ℕ} (hnodup : cs.Nodup) (h : ∀ c ∈ cs, sh.IsCluster c) :
    cs.length ≤ sh.clusters := by
  have hsub : cs ⊆ List.range' 2 sh.clusters := by
    intro c hc
    have := h c hc
    unfold Shape.IsCluster at this
    rw [mem_range'_1]
    omega
  simpa using (subperm_of_subset hnodup hsub).length_le

variable (sh) in
/-- There are no more free clusters than the volume has. -/
lemma length_freeList_le (v : Vol) : (v.freeList sh).length ≤ sh.clusters :=
  length_le_clusters (nodup_freeList sh v) fun _ hc => (mem_freeList.1 hc).1

/-- The clusters of a chain are in use. -/
lemma Inv.fat_ne_zero (h : v.Inv sh chain) (hc : c ∈ chain k) : v.fat c ≠ 0 := by
  obtain h' | h' := (h.linked k).next_mem hc
  · have := (h.isCluster k _ h').1
    omega
  · have h₁ := sh.clusters_lt
    omega

/-- Following the links from a live entry gives the chain that it names. -/
lemma chainOf_of_isChain {cs : List ℕ} (hlive : (v.dir k).isLive = true)
    (hcluster : (v.dir k).cluster = cs.headD 0) (hlinked : IsChain v.fat (sh.threshold ≤ ·) cs)
    (hnodup : cs.Nodup) (hin : ∀ c ∈ cs, sh.IsCluster c) : v.chainOf sh k = cs := by
  rw [chainOf, if_pos hlive, hcluster]
  cases cs with
  | nil => rw [headD_nil, follow, if_pos (.inl (by omega))]
  | cons c cs =>
    have hstops : IsChain v.fat sh.Stops (c :: cs) := hlinked.mono fun _ => .inr
    apply hstops.follow_eq
    · intro x hx
      exact (hin x hx).not_stops
    · have := length_le_clusters hnodup hin
      omega

/-- Following the links from an entry gives its chain. -/
lemma Inv.chainOf_eq (h : v.Inv sh chain) (hk : k < sh.slots) : v.chainOf sh k = chain k := by
  by_cases hlive : (v.dir k).isLive = true
  · exact chainOf_of_isChain hlive (h.cluster k hk hlive) (h.linked k) (h.nodup k) (h.isCluster k)
  · rw [chainOf, if_neg hlive, h.dead k hk (by simpa using hlive)]

/-- A consistent volume can be scanned and read. -/
lemma Inv.sane (h : v.Inv sh chain) : v.Sane sh := by
  constructor
  case links =>
    intro c hc
    by_cases h0 : v.fat c = 0
    · exact .inr (.inl (by omega))
    · obtain ⟨k, -, hck⟩ := h.used c hc h0
      obtain hmem | hlast := (h.linked k).next_mem hck
      · exact .inl (h.isCluster k _ hmem)
      · exact .inr (.inr hlast)
  case heads =>
    intro k hk hlive
    rw [h.cluster k hk hlive]
    cases hchain : chain k with
    | nil => exact .inr (.inl (by simp))
    | cons c cs => exact .inl (h.isCluster k c (by simp [hchain]))
  case plain => exact h.plain
  case tail => exact h.tail

/-! ## Stored data -/

lemma length_clusterOf {part : List UInt8} (h : part.length ≤ sh.bytes) :
    (clusterOf sh part).length = sh.bytes := by
  rw [clusterOf, length_append, length_replicate]
  omega

/-- Other clusters keep their bytes. -/
lemma fill_of_notMem {cs : List ℕ} (h : c ∉ cs) (rest : List UInt8) (d : ℕ → List UInt8) :
    fill sh cs rest d c = d c := by
  induction cs generalizing rest with
  | nil => rfl
  | cons x cs ih =>
    rw [mem_cons, not_or] at h
    rw [fill, update_of_ne h.1, ih h.2]

/-- Filled clusters are full. -/
lemma length_fill {cs : List ℕ} (rest : List UInt8) {d : ℕ → List UInt8}
    (h : (d c).length = sh.bytes) : (fill sh cs rest d c).length = sh.bytes := by
  induction cs generalizing rest with
  | nil => exact h
  | cons x cs ih =>
    rw [fill]
    by_cases hx : c = x
    · rw [hx, update_self, length_clusterOf (by rw [length_take]; omega)]
    · rw [update_of_ne hx]
      exact ih _

/-- The bytes of the filled clusters, as many as were put there, are the data; when the clusters
are too few, they hold the beginning of it. -/
lemma flatMap_fill {cs : List ℕ} (hnodup : cs.Nodup) (rest : List UInt8) (d : ℕ → List UInt8) :
    (cs.flatMap (fill sh cs rest d)).take rest.length = rest.take (cs.length * sh.bytes) := by
  induction cs generalizing rest with
  | nil => simp
  | cons x cs ih =>
    rw [nodup_cons] at hnodup
    have htail : cs.flatMap (fill sh (x :: cs) rest d) =
        cs.flatMap (fill sh cs (rest.drop sh.bytes) d) := by
      apply flatMap_congr
      intro y hy
      rw [fill, update_of_ne (ne_of_mem_of_not_mem hy hnodup.1)]
    have hhead : fill sh (x :: cs) rest d x = clusterOf sh (rest.take sh.bytes) := by
      rw [fill, update_self]
    rw [flatMap_cons, htail, hhead, clusterOf]
    have ih' := ih hnodup.2 (rest.drop sh.bytes)
    rw [length_drop] at ih'
    by_cases hlen : rest.length ≤ sh.bytes
    · have hle : rest.length ≤ (x :: cs).length * sh.bytes := by
        rw [length_cons, Nat.add_mul, Nat.one_mul]
        omega
      rw [take_of_length_le hlen, take_of_length_le hle, append_assoc, take_left' rfl]
    · have hfull : (rest.take sh.bytes).length = sh.bytes := by
        rw [length_take]
        omega
      rw [hfull, Nat.sub_self, replicate_zero, append_nil, take_append, hfull,
        take_of_length_le (by omega), ih', length_cons, Nat.add_mul, Nat.one_mul,
        Nat.add_comm, take_add]

/-- **Stored data is read back**, when there are clusters enough. -/
lemma flatMap_place {data : List UInt8} (h : sh.need data.length ≤ (v.freeList sh).length) :
    ((v.place sh data).flatMap (v.store sh data).data).take data.length = data := by
  have hle := sh.le_need_mul data.length
  rw [store, flatMap_fill (v.nodup_place data), length_place h, take_of_length_le hle]

/-! ## Changes of an entry -/

/-- The clusters that are free once the chain of an entry is freed are not in other chains. -/
lemma Inv.notMem_of_free (h : v.Inv sh chain) {j : ℕ} (hj : j ≠ k)
    (hc : (v.free (chain k)).fat c = 0) : c ∉ chain j := by
  intro hmem
  have hk : c ∉ chain k := h.disjoint j k hj c hmem
  rw [fat_free, clear_of_notMem hk] at hc
  exact h.fat_ne_zero hmem hc

section UpdateEntry

variable {dir : ℕ → Dirent} {e : Dirent} {n : ℕ}

/-- A property of the live entries, after one entry is replaced. -/
lemma forall_live_update {P : ℕ → Dirent → Prop}
    (hold : ∀ j < n, j ≠ k → (dir j).isLive = true → P j (dir j))
    (hnew : k < n → e.isLive = true → P k e) :
    ∀ j < n, (update dir k e j).isLive = true → P j (update dir k e j) := by
  intro j hj hlive
  by_cases hjk : j = k
  · subst hjk
    rw [update_self] at hlive ⊢
    exact hnew hj hlive
  · rw [update_of_ne hjk] at hlive ⊢
    exact hold j hj hjk hlive

/-- The names of the live entries stay different. -/
lemma names_update
    (hold : ∀ i < n, ∀ j < n, (dir i).isLive = true → (dir j).isLive = true →
      (dir i).name = (dir j).name → i = j)
    (hnew : e.isLive = true → ∀ j < n, j ≠ k → (dir j).isLive = true → (dir j).name ≠ e.name) :
    ∀ i < n, ∀ j < n, (update dir k e i).isLive = true →
      (update dir k e j).isLive = true →
      (update dir k e i).name = (update dir k e j).name → i = j := by
  intro i hi j hj hlivei hlivej hname
  by_cases hik : i = k
  · by_cases hjk : j = k
    · rw [hik, hjk]
    · subst hik
      rw [update_self] at hlivei hname
      rw [update_of_ne hjk] at hlivej hname
      exact absurd hname.symm (hnew hlivei j hj hjk hlivej)
  · rw [update_of_ne hik] at hlivei hname
    by_cases hjk : j = k
    · subst hjk
      rw [update_self] at hlivej hname
      exact absurd hname (hnew hlivej i hi hik hlivei)
    · rw [update_of_ne hjk] at hlivej hname
      exact hold i hi j hj hlivei hlivej hname

/-- Behind an entry that was never used there is still no used one. -/
lemma tail_update (hold : ∀ i j, i ≤ j → j < n → (dir i).first = 0 → (dir j).first = 0)
    (hfirst : e.first ≠ 0) (hprev : ∀ j < k, (dir j).first ≠ 0) :
    ∀ i j, i ≤ j → j < n → (update dir k e i).first = 0 →
      (update dir k e j).first = 0 := by
  intro i j hij hj hzero
  by_cases hik : i = k
  · subst hik
    rw [update_self] at hzero
    exact absurd hzero hfirst
  · rw [update_of_ne hik] at hzero
    by_cases hjk : j = k
    · subst hjk
      exact absurd hzero (hprev i (by omega))
    · rw [update_of_ne hjk]
      exact hold i j hij hj hzero

end UpdateEntry

/-- A live entry is not free. -/
lemma first_ne_zero_of_isLive {e : Dirent} (h : e.isLive = true) : e.first ≠ 0 := by
  intro h0
  simp [Dirent.isLive, h0] at h

/-- The slots before a live one are not free. -/
lemma Inv.first_ne_zero_of_lt (h : v.Inv sh chain) (hk : k < sh.slots)
    (hlive : (v.dir k).isLive = true) {j : ℕ} (hj : j < k) : (v.dir j).first ≠ 0 := by
  intro h0
  exact first_ne_zero_of_isLive hlive (h.tail j k hj.le hk h0)

/-- **An entry gets another chain.** The clusters `cs` are free once the old chain is freed; the
new entry is live and names them, or it is not and there are none.

**Proof sketch.** The new chain is linked, and the links of the other chains are unchanged, since
their clusters are neither in the old chain nor in `cs`. -/
lemma Inv.replace (h : v.Inv sh chain) (hk : k < sh.slots) {cs : List ℕ} {e : Dirent}
    (d : ℕ → List UInt8) (hnodup : cs.Nodup)
    (hcs : ∀ c ∈ cs, sh.IsCluster c ∧ (v.free (chain k)).fat c = 0)
    (hfirst : e.first ≠ 0) (hprev : ∀ j < k, (v.dir j).first ≠ 0)
    (hdead : e.isLive = false → cs = [])
    (hlive : e.isLive = true → e.cluster = cs.headD 0 ∧ cs.length = sh.need e.size ∧
      IsName e.name ∧ e.isPlain = true ∧
      ∀ j < sh.slots, j ≠ k → (v.dir j).isLive = true → (v.dir j).name ≠ e.name) :
    Inv sh ⟨link sh.eoc cs (v.free (chain k)).fat, update v.dir k e, d⟩
      (update chain k cs) := by
  have hother : ∀ j, j ≠ k → update chain k cs j = chain j := fun j hj =>
    update_of_ne hj _ _
  have hself : update chain k cs k = cs := update_self _ _ _
  have hnotMem : ∀ j, j ≠ k → ∀ c ∈ chain j, c ∉ cs := by
    intro j hj c hc hmem
    exact h.notMem_of_free hj (hcs c hmem).2 hc
  constructor
  case isCluster =>
    apply (forall_update_iff chain fun _ cs => ∀ c ∈ cs, sh.IsCluster c).2
    exact ⟨fun c hc => (hcs c hc).1, fun j _ => h.isCluster j⟩
  case nodup =>
    exact (forall_update_iff chain fun _ cs => cs.Nodup).2 ⟨hnodup, fun j _ => h.nodup j⟩
  case linked =>
    apply (forall_update_iff chain fun _ cs' => IsChain _ (sh.threshold ≤ ·) cs').2
    refine ⟨isChain_link hnodup sh.threshold_le _, fun j hj => (h.linked j).congr fun c hc => ?_⟩
    show link sh.eoc cs (v.free (chain k)).fat c = v.fat c
    rw [link_of_notMem (hnotMem j hj c hc), fat_free, clear_of_notMem (h.disjoint j k hj c hc)]
  case disjoint =>
    intro i j hij c hc
    by_cases hi : i = k
    · have hj : j ≠ k := fun hj => hij (hi.trans hj.symm)
      rw [hi, hself] at hc
      rw [hother j hj]
      exact h.notMem_of_free hj (hcs c hc).2
    · rw [hother i hi] at hc
      by_cases hj : j = k
      · rw [hj, hself]
        exact hnotMem i hi c hc
      · rw [hother j hj]
        exact h.disjoint i j hij c hc
  case used =>
    intro c hc hne
    by_cases hmem : c ∈ cs
    · exact ⟨k, hk, by rw [hself]; exact hmem⟩
    · simp only at hne
      rw [link_of_notMem hmem] at hne
      by_cases hold : c ∈ chain k
      · exact absurd (clear_of_mem hold _) hne
      · rw [fat_free, clear_of_notMem hold] at hne
        obtain ⟨j, hj, hcj⟩ := h.used c hc hne
        have hjk : j ≠ k := by
          rintro rfl
          exact hold hcj
        exact ⟨j, hj, by rw [hother j hjk]; exact hcj⟩
  case dead =>
    intro j hj hdeadj
    dsimp only at hdeadj
    by_cases hjk : j = k
    · subst hjk
      rw [hself]
      exact hdead (by rwa [update_self] at hdeadj)
    · rw [hother j hjk]
      exact h.dead j hj (by rwa [update_of_ne hjk] at hdeadj)
  case beyond =>
    intro j hj
    rw [hother j (by omega)]
    exact h.beyond j hj
  case cluster =>
    apply forall_live_update (P := fun j x => x.cluster = (update chain k cs j).headD 0)
    · intro j hj hjk hlivej
      rw [hother j hjk]
      exact h.cluster j hj hlivej
    · intro _ hlivek
      rw [hself]
      exact (hlive hlivek).1
  case length =>
    apply forall_live_update (P := fun j x => (update chain k cs j).length = sh.need x.size)
    · intro j hj hjk hlivej
      rw [hother j hjk]
      exact h.length j hj hlivej
    · intro _ hlivek
      rw [hself]
      exact (hlive hlivek).2.1
  case names => exact names_update h.names fun hlivek => (hlive hlivek).2.2.2.2
  case isName =>
    exact forall_live_update (P := fun _ x => IsName x.name) (fun j hj _ => h.isName j hj)
      fun _ hlivek => (hlive hlivek).2.2.1
  case plain =>
    exact forall_live_update (P := fun _ x => x.isPlain = true) (fun j hj _ => h.plain j hj)
      fun _ hlivek => (hlive hlivek).2.2.2.1
  case tail => exact tail_update h.tail hfirst hprev

/-- An entry gets another name. -/
lemma Inv.rename (h : v.Inv sh chain) (hk : k < sh.slots) (hlive : (v.dir k).isLive = true)
    {e : Dirent} (hcluster : e.cluster = (v.dir k).cluster) (hsize : e.size = (v.dir k).size)
    (he : e.isLive = true) (hname : IsName e.name) (hplain : e.isPlain = true)
    (hnew : ∀ j < sh.slots, j ≠ k → (v.dir j).isLive = true → (v.dir j).name ≠ e.name) :
    Inv sh (v.setEntry k e) chain := by
  have hfirst := first_ne_zero_of_isLive he
  constructor
  case isCluster => exact h.isCluster
  case nodup => exact h.nodup
  case linked => exact h.linked
  case disjoint => exact h.disjoint
  case used => exact h.used
  case dead =>
    intro j hj hdead
    have hjk : j ≠ k := by
      rintro rfl
      rw [show (v.setEntry j e).dir j = e from update_self _ _ _, he] at hdead
      cases hdead
    rw [show (v.setEntry k e).dir j = v.dir j from update_of_ne hjk _ _] at hdead
    exact h.dead j hj hdead
  case beyond => exact h.beyond
  case cluster =>
    exact forall_live_update (P := fun j x => x.cluster = (chain j).headD 0)
      (fun j hj _ => h.cluster j hj) fun _ _ => hcluster.trans (h.cluster k hk hlive)
  case length =>
    exact forall_live_update (P := fun j x => (chain j).length = sh.need x.size)
      (fun j hj _ => h.length j hj) fun _ _ => by rw [hsize, h.length k hk hlive]
  case names => exact names_update h.names fun _ => hnew
  case isName =>
    exact forall_live_update (P := fun _ x => IsName x.name) (fun j hj _ => h.isName j hj)
      fun _ _ => hname
  case plain =>
    exact forall_live_update (P := fun _ x => x.isPlain = true) (fun j hj _ => h.plain j hj)
      fun _ _ => hplain
  case tail => exact tail_update h.tail hfirst fun j hj => h.first_ne_zero_of_lt hk hlive hj

/-! ## The volume as a map -/

/-- The slot of a name has it. -/
lemma lookup_spec {name : List UInt8} (h : v.lookup sh name = some k) :
    k < sh.slots ∧ (v.dir k).isLive = true ∧ (v.dir k).name = name := by
  have hmem := mem_of_find?_eq_some h
  have hprop := find?_some h
  rw [Bool.and_eq_true, beq_iff_eq] at hprop
  exact ⟨mem_range.1 hmem, hprop⟩

/-- The slot of a name is the live entry with it. -/
lemma Inv.lookup_eq_some (h : v.Inv sh chain) {name : List UInt8} :
    v.lookup sh name = some k ↔
      k < sh.slots ∧ (v.dir k).isLive = true ∧ (v.dir k).name = name := by
  refine ⟨lookup_spec, ?_⟩
  rintro ⟨hk, hlive, hname⟩
  cases hfind : v.lookup sh name with
  | none =>
    have := find?_eq_none.1 hfind k (mem_range.2 hk)
    simp [hlive, hname] at this
  | some j =>
    obtain ⟨hj, hlivej, hnamej⟩ := lookup_spec hfind
    rw [h.names j hj k hk hlivej hlive (hnamej.trans hname.symm)]

/-- The bytes of a file are in its chain. -/
lemma Inv.contents_eq (h : v.Inv sh chain) (hk : k < sh.slots) :
    v.contents sh k = ((chain k).flatMap v.data).take (v.dir k).size := by
  rw [contents, h.chainOf_eq hk]

section Map

variable {v' : Vol} {chain' : ℕ → List ℕ} {e : Dirent}

/-- A name that neither the old nor the new entry has keeps its slot. -/
lemma lookup_update {name : List UInt8} (hdir : v'.dir = update v.dir k e)
    (hold : ¬ ((v.dir k).isLive = true ∧ (v.dir k).name = name))
    (hnew : ¬ (e.isLive = true ∧ e.name = name)) : v'.lookup sh name = v.lookup sh name := by
  unfold lookup
  congr 1
  funext j
  rw [hdir]
  by_cases hj : j = k
  · subst hj
    rw [update_self]
    have hkey : ∀ d : Dirent, ¬ (d.isLive = true ∧ d.name = name) →
        (d.isLive && d.name == name) = false := by
      intro d hd
      rw [← Bool.not_eq_true, Bool.and_eq_true, beq_iff_eq]
      exact hd
    rw [hkey _ hold, hkey _ hnew]
  · rw [update_of_ne hj]

/-- A name that neither the old nor the new entry has keeps its file, when the chains of the other
entries and their bytes are kept. -/
lemma Inv.file_update (h : v.Inv sh chain) (h' : v'.Inv sh chain')
    (hdir : v'.dir = update v.dir k e) (hchain : ∀ j, j ≠ k → chain' j = chain j)
    (hdata : ∀ j, j ≠ k → ∀ c ∈ chain j, v'.data c = v.data c) {name : List UInt8}
    (hold : ¬ ((v.dir k).isLive = true ∧ (v.dir k).name = name))
    (hnew : ¬ (e.isLive = true ∧ e.name = name)) : v'.file sh name = v.file sh name := by
  unfold file
  rw [lookup_update hdir hold hnew]
  cases hlook : v.lookup sh name with
  | none => rfl
  | some j =>
    obtain ⟨hj, hlive, hname⟩ := h.lookup_eq_some.1 hlook
    have hjk : j ≠ k := by
      rintro rfl
      exact hold ⟨hlive, hname⟩
    have hent : v'.dir j = v.dir j := by rw [hdir, update_of_ne hjk]
    rw [Option.map_some, Option.map_some, h.contents_eq hj, h'.contents_eq hj, hchain j hjk, hent]
    congr 2
    exact flatMap_congr (hdata j hjk)

end Map

/-! ## Clusters in use -/

/-- **The clusters in use are those of the chains.** -/
lemma Inv.used_eq (h : v.Inv sh chain) :
    (List.range' 2 sh.clusters).countP (fun c => v.fat c ≠ 0) =
      ((List.range sh.slots).map fun k => (chain k).length).sum := by
  have hperm : ((List.range' 2 sh.clusters).filter fun c => v.fat c ≠ 0).Perm
      ((List.range sh.slots).flatMap chain) := by
    rw [perm_ext_iff_of_nodup]
    · intro c
      rw [mem_filter, mem_range'_1, mem_flatMap, decide_eq_true_eq]
      constructor
      · rintro ⟨hc, hne⟩
        obtain ⟨k, hk, hck⟩ := h.used c ⟨hc.1, by omega⟩ hne
        exact ⟨k, mem_range.2 hk, hck⟩
      · rintro ⟨k, -, hck⟩
        have hc := h.isCluster k c hck
        exact ⟨⟨hc.1, by have := hc.2; omega⟩, h.fat_ne_zero hck⟩
    · exact List.Nodup.filter _ nodup_range'
    · rw [nodup_flatMap]
      refine ⟨fun k _ => h.nodup k, ?_⟩
      apply List.Pairwise.imp (R := (· ≠ ·)) ?_ nodup_range
      intro i j hij c hi hj
      exact h.disjoint i j hij c hi hj
  rw [countP_eq_length_filter, hperm.length_eq, length_flatMap]

variable (sh) in
/-- A cluster is free or in use. -/
lemma length_freeList_add (v : Vol) :
    (v.freeList sh).length + (List.range' 2 sh.clusters).countP (fun c => v.fat c ≠ 0) =
      sh.clusters := by
  have h := length_eq_countP_add_countP (fun c => decide (v.fat c = 0))
    (l := List.range' 2 sh.clusters)
  have hne : ∀ c, decide (¬ decide (v.fat c = 0) = true) = decide (v.fat c ≠ 0) := by simp
  rw [length_range'] at h
  simp only [hne] at h
  rw [freeList, ← countP_eq_length_filter]
  exact h.symm

end Vol

end BengalTiger.Fat
