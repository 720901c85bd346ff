import BengalTiger.Heap.Session

set_option autoImplicit false

/-!
# Runs of the kernel heap

A run starts from `heapInitAt` and takes calls of `kmalloc`, `kzalloc`, `krealloc` and `kfree`
together with stores of the clients into their payloads. The run carries the pointers that the
clients hold with the sizes they asked for, which the C code does not store. These are the runs of
`Heap.sessions` in which no pointer is aligned.

## Main definitions

* `Heap.Run`, `Heap.Op`, `Heap.system` — the runs.
* `Heap.Run.session` — a run as a run of all calls.

## Main results

* `Heap.inv_of_reachable` — the runs are sessions and meet their invariant.
* `Heap.heap_sound` — the structure of the heap in every reachable state.
* `Heap.heap_accounting` — the counters are exact in every reachable state.
-/

namespace BengalTiger.Heap

open ByteMem List

/-! ## Runs -/

/-- A pointer that a client holds and the size it asked for. -/
structure Alloc where
  ptr : ℕ
  size : ℕ
  deriving DecidableEq, Repr

/-- A heap together with the pointers that the clients hold. -/
structure Run where
  heap : State
  live : List Alloc

/-- The steps of a run: the calls, and the store of a byte by the client that holds `ptr`. -/
inductive Op
  | kmalloc (n : ℕ)
  | kzalloc (n : ℕ)
  | krealloc (ptr n : ℕ)
  | kfree (ptr : ℕ)
  | store (ptr addr : ℕ) (v : UInt8)

/-- The pointers held without `ptr`. -/
def forget (ptr : ℕ) (live : List Alloc) : List Alloc := live.eraseP fun a => a.ptr == ptr

/-- The pointers held after an allocation of `n` bytes returned `ptr`. -/
def remember (ptr n : ℕ) (live : List Alloc) : List Alloc :=
  if ptr = 0 then live else ⟨ptr, n⟩ :: live

/-- The pointer is `NULL` or held by a client. -/
def Run.Holds (r : Run) (ptr : ℕ) : Prop := ptr = 0 ∨ ∃ a ∈ r.live, a.ptr = ptr

/-- The steps that the clients may take: requests of at most 16 MB, only pointers they hold, and
stores inside the payload of a pointer they hold. -/
def Run.Allows (r : Run) : Op → Prop
  | .kmalloc n => n ≤ heapMaxSize
  | .kzalloc n => n ≤ heapMaxSize
  | .krealloc ptr n => n ≤ heapMaxSize ∧ r.Holds ptr
  | .kfree ptr => r.Holds ptr
  | .store ptr addr _ =>
    (∃ a ∈ r.live, a.ptr = ptr) ∧ ptr ≤ addr ∧ addr < ptr + payloadSize r.heap.mem ptr

/-- The effect of a step. A failed `krealloc` leaves the old pointer to its holder, unless the
request was for no bytes, which frees it. -/
def Run.exec (r : Run) : Op → Run
  | .kmalloc n =>
    { heap := (Heap.kmalloc r.heap n).1, live := remember (Heap.kmalloc r.heap n).2 n r.live }
  | .kzalloc n =>
    { heap := (Heap.kzalloc r.heap n).1, live := remember (Heap.kzalloc r.heap n).2 n r.live }
  | .krealloc ptr n =>
    { heap := (Heap.krealloc r.heap ptr n).1
      live :=
        if n ≠ 0 ∧ (Heap.krealloc r.heap ptr n).2 = 0 then r.live
        else remember (Heap.krealloc r.heap ptr n).2 n (forget ptr r.live) }
  | .kfree ptr => { heap := Heap.kfree r.heap ptr, live := forget ptr r.live }
  | .store _ addr v => { r with heap := { r.heap with mem := Function.update r.heap.mem addr v } }

/-- The runs from `heap_init_at` on the memory `mem` with an initial size. -/
def system (A : Arena) (mem : Mem) (initialSize : ℕ) : System Run Op where
  init r := r = { heap := heapInitAt mem A.base initialSize A.maxSize, live := [] }
  step r op r' := r.Allows op ∧ r' = r.exec op

/-! ## Runs as sessions -/

/-- A pointer that is not aligned is the beginning of its payload. -/
def Alloc.lease (a : Alloc) : Lease := ⟨a.ptr, a.size, a.ptr⟩

/-- The run with the payloads of the pointers held. -/
def Run.session (r : Run) : Session where
  heap := r.heap
  live := r.live.map Alloc.lease

/-- The step as a step of a session. -/
def Op.call : Op → Call
  | .kmalloc n => .kmalloc n
  | .kzalloc n => .kzalloc n
  | .krealloc ptr n => .krealloc ptr n
  | .kfree ptr => .kfree ptr
  | .store ptr addr v => .store ptr addr v

lemma map_forget (ptr : ℕ) (live : List Alloc) :
    (forget ptr live).map Alloc.lease = giveBack ptr (live.map Alloc.lease) := by
  rw [forget, giveBack, eraseP_map]
  rfl

lemma map_remember (ptr n : ℕ) (live : List Alloc) :
    (remember ptr n live).map Alloc.lease = receive ⟨ptr, n, ptr⟩ (live.map Alloc.lease) := by
  unfold remember receive
  split_ifs <;> rfl

/-- A step has the same effect in the session. -/
lemma Run.session_exec (r : Run) (op : Op) : (r.exec op).session = r.session.exec op.call := by
  cases op with
  | kmalloc n => simp only [session, exec, Op.call, Session.exec, map_remember]
  | kzalloc n => simp only [session, exec, Op.call, Session.exec, map_remember]
  | krealloc ptr n =>
    simp only [session, exec, Op.call, Session.exec, ← map_remember, ← map_forget]
    split_ifs <;> rfl
  | kfree ptr => simp only [session, exec, Op.call, Session.exec, map_forget]
  | store ptr addr v => rfl

/-- A pointer held in the run is held in the session. -/
lemma Run.Holds.session {r : Run} {ptr : ℕ} (h : r.Holds ptr) : r.session.Holds ptr := by
  refine h.imp_right ?_
  rintro ⟨a, ha, rfl⟩
  exact ⟨a.lease, mem_map_of_mem ha, rfl⟩

/-- A step that the clients may take is one of the session. -/
lemma Run.Allows.session {r : Run} {op : Op} (h : r.Allows op) : r.session.Allows op.call := by
  have hmax : heapMaxSize ≤ requestMax := by decide
  cases op with
  | kmalloc n => exact Nat.le_trans h hmax
  | kzalloc n => exact Nat.le_trans h hmax
  | krealloc ptr n => exact ⟨h.1.trans hmax, h.2.session⟩
  | kfree ptr => exact Run.Holds.session h
  | store ptr addr v =>
    obtain ⟨⟨a, ha, rfl⟩, hlow, hhigh⟩ := h
    refine ⟨a.lease, mem_map_of_mem ha, rfl, hlow, ?_⟩
    rwa [Session.writable, if_pos (show a.lease.ptr = a.lease.raw from rfl)]

/-- **The runs are sessions**, so their states meet the invariant of the sessions. -/
lemma inv_of_reachable (A : Arena) (mem : Mem) {initialSize : ℕ} (hmin : 64 ≤ initialSize)
    (h8 : 8 ∣ initialSize) (hmax : initialSize ≤ A.maxSize) {r : Run}
    (hr : (system A mem initialSize).Reachable r) : ∃ bs, r.session.Inv A bs := by
  refine inv_of_sessions A mem hmin h8 hmax (hr.map Run.session ?_ ?_)
  · rintro r rfl
    rfl
  · rintro r op t ⟨ha, rfl⟩
    exact ⟨op.call, ha.session, r.session_exec op⟩

/-! ## The structure of the heap in every reachable state -/

/-- The payloads of two pointers do not overlap. -/
def Alloc.Disjoint (m : Mem) (a a' : Alloc) : Prop :=
  a.ptr + payloadSize m a.ptr ≤ a'.ptr ∨ a'.ptr + payloadSize m a'.ptr ≤ a.ptr

section Sound

variable {A : Arena} {r : Run} {bs : List Block}

/-- The pointers held are the payloads of the used blocks, each once, and no client asked for more
than its block has. -/
lemma Run.exists_owners (hI : r.session.Inv A bs) :
    ∃ L : List (Block × Alloc), (L.map Prod.fst).Perm (usedBlocks bs) ∧ r.live = L.map Prod.snd ∧
      ∀ x ∈ L, x.1.payload = x.2.ptr ∧ x.2.size ≤ x.1.size := by
  obtain ⟨L, h1, h2, h3⟩ := hI.leased
  have hlive : r.live.map Alloc.lease = L.map Prod.snd := h2
  refine ⟨L.map fun x => (x.1, ⟨x.2.ptr, x.2.size⟩), by rwa [map_map], ?_, ?_⟩
  · have := congrArg (List.map fun l : Lease => (⟨l.ptr, l.size⟩ : Alloc)) hlive
    simpa [Function.comp_def, Alloc.lease] using this
  · intro y hy
    obtain ⟨x, hx, rfl⟩ := mem_map.1 hy
    obtain ⟨a, -, ha⟩ := mem_map.1 (hlive ▸ mem_map_of_mem hx : x.2 ∈ r.live.map _)
    have hplain : x.2.raw = x.2.ptr := by rw [← ha]; rfl
    obtain ⟨hraw, ⟨hptr, hsize⟩ | ⟨hs, -⟩⟩ := h3 x hx
    · exact ⟨hptr.symm, hsize⟩
    · have := hs.low
      omega

/-- What the header of a held pointer says. -/
lemma Run.payload_of_mem (hI : r.session.Inv A bs) {a : Alloc} (ha : a ∈ r.live) :
    ∃ b ∈ bs, b.free = false ∧ b.payload = a.ptr ∧ payloadSize r.heap.mem a.ptr = b.size ∧
      a.size ≤ b.size := by
  obtain ⟨L, h1, h2, h3⟩ := r.exists_owners hI
  rw [h2] at ha
  obtain ⟨x, hx, rfl⟩ := mem_map.1 ha
  obtain ⟨hb, hu⟩ := mem_usedBlocks.1 (h1.mem_iff.1 (mem_map_of_mem hx))
  obtain ⟨hptr, hsize⟩ := h3 x hx
  exact ⟨x.1, hb, hu, hptr, by rw [← hptr]; exact hI.rep.payloadSize_eq hb, hsize⟩

/-- The payloads of the pointers held do not overlap. -/
lemma Run.pairwise_disjoint (hI : r.session.Inv A bs) :
    r.live.Pairwise (Alloc.Disjoint r.heap.mem) := by
  obtain ⟨L, h1, h2, h3⟩ := r.exists_owners hI
  have hnodup : (L.map Prod.fst).Nodup :=
    h1.nodup_iff.mpr (hI.rep.nodup.sublist filter_sublist)
  have hmem : ∀ x ∈ L, x.1 ∈ bs := fun x hx =>
    (mem_usedBlocks.mp (h1.mem_iff.mp (mem_map_of_mem hx))).1
  have hsize : ∀ x ∈ L, payloadSize r.heap.mem x.1.payload = x.1.size := fun x hx =>
    hI.rep.payloadSize_eq (hmem x hx)
  rw [h2]
  refine pairwise_map.mpr ?_
  refine (pairwise_map.mp hnodup).imp_of_mem fun {x y} hx hy hne => ?_
  simp only [Alloc.Disjoint, ← (h3 x hx).1, ← (h3 y hy).1, hsize x hx, hsize y hy]
  rcases hI.rep.eq_or_apart (hmem x hx) (hmem y hy) with h3 | h3 | h3
  · exact absurd h3 hne
  all_goals
    simp only [Block.stop, Block.payload, headerSize] at h3 ⊢
    omega

end Sound

/-- **Structure of the heap.** From `heap_init_at` with an 8-aligned base and sizes that are
multiples of 8, in every state that calls and client stores can reach, the memory holds a list of
blocks, from the head of the heap on, with consistent links and intact magic numbers, in address
order, that fills the arena exactly and has no two free neighbours; the pointers that the clients
hold are, one to one, the payloads of the used blocks, so they are 8-aligned, inside the arena,
pairwise disjoint and as large as requested.

**Proof sketch.** The run is a session, whose invariant gives the block list; no pointer is aligned,
so each is the beginning of its payload. -/
theorem heap_sound (A : Arena) (mem : Mem) {initialSize : ℕ} (hmin : 64 ≤ initialSize)
    (h8 : 8 ∣ initialSize) (hmax : initialSize ≤ A.maxSize) {r : Run}
    (hr : (system A mem initialSize).Reachable r) :
    ∃ bs : List Block,
      headAddr 0 bs = r.heap.heapHead ∧ Linked r.heap.mem 0 0 bs ∧
      (∀ b ∈ bs, magic r.heap.mem b.addr = heapBlockMagic ∧ 8 ∣ b.payload) ∧
      bs.Pairwise (fun b c => b.stop ≤ c.addr) ∧
      Tiles (A.base + r.heap.heapCurSize) A.base bs ∧ r.heap.heapCurSize ≤ A.maxSize ∧
      Settled bs ∧
      (r.live.map Alloc.ptr).Perm ((usedBlocks bs).map Block.payload) ∧
      (∀ a ∈ r.live, ∃! b, b ∈ bs ∧ b.free = false ∧ b.payload = a.ptr) ∧
      (∀ a ∈ r.live, a.size ≤ payloadSize r.heap.mem a.ptr ∧ A.base + headerSize ≤ a.ptr ∧
        a.ptr + payloadSize r.heap.mem a.ptr ≤ A.base + r.heap.heapCurSize) ∧
      r.live.Pairwise (Alloc.Disjoint r.heap.mem) := by
  obtain ⟨bs, hI⟩ := inv_of_reachable A mem hmin h8 hmax hr
  have hR : Rep A r.heap bs := hI.rep
  refine ⟨bs, hR.headAddr_eq.trans hR.head.symm, hR.linked, fun b hb => ?_, hR.tiles.pairwise,
    hR.tiles, hR.cur_le, hI.settled, ?_, fun a ha => ?_, fun a ha => ?_, r.pairwise_disjoint hI⟩
  · have := hR.tiles.dvd_addr A.base_dvd hb
    refine ⟨(hR.header_of_mem hb).2.1, ?_⟩
    simp only [Block.payload, headerSize]
    omega
  · obtain ⟨L, h1, h2, h3⟩ := r.exists_owners hI
    have hptr : L.map (fun x => x.2.ptr) = L.map fun x => x.1.payload :=
      map_congr_left fun x hx => (h3 x hx).1.symm
    have := h1.map Block.payload
    rw [map_map] at this
    rw [h2, map_map]
    exact (List.Perm.of_eq hptr).trans this
  · obtain ⟨b, hb, hu, hptr, -⟩ := r.payload_of_mem hI ha
    exact ⟨b, ⟨hb, hu, hptr⟩, fun c hc => hR.payload_inj hb hc.1 (hc.2.2.trans hptr.symm)⟩
  · obtain ⟨b, hb, hu, hptr, hsize, hle⟩ := r.payload_of_mem hI ha
    obtain ⟨h1, h2, -⟩ := hR.tiles.mem hb
    rw [hsize]
    simp only [Block.stop, Block.payload] at h2 hptr
    omega

/-- An arena of 4 KB at 4 MB. -/
def smallArena : Arena where
  base := heapStart
  maxSize := 4096
  base_dvd := heapStart_dvd
  maxSize_dvd := by decide
  maxSize_le := by decide
  top_lt := by decide

/-- The run of three allocations in the small arena, of which the first is freed again. -/
def smallRun : Run :=
  [Op.kmalloc 100, .kmalloc 200, .kmalloc 50, .kfree (heapStart + headerSize)].foldl Run.exec
    { heap := heapInitAt (fun _ => 0) smallArena.base 1024 smallArena.maxSize
      live := [] }

/-- The small run is a run. -/
lemma reachable_smallRun : (system smallArena (fun _ => 0) 1024).Reachable smallRun := by
  have h (n : ℕ) (hn : n ≤ heapMaxSize) (r : Run)
      (hr : (system smallArena (fun _ => 0) 1024).Reachable r) :
      (system smallArena (fun _ => 0) 1024).Reachable (r.exec (.kmalloc n)) :=
    .step hr (show Run.Allows _ (.kmalloc n) ∧ _ from ⟨hn, rfl⟩)
  refine .step (h 50 (by decide) _ (h 200 (by decide) _ (h 100 (by decide) _ (.init rfl))))
    (show Run.Allows _ (.kfree (heapStart + headerSize)) ∧ _ from ⟨.inr ?_, rfl⟩)
  decide +kernel

/-- The two pointers that are left have payloads apart from each other. -/
theorem heap_sound_smallRun :
    (system smallArena (fun _ => 0) 1024).Reachable smallRun ∧ smallRun.live.length = 2 ∧
      smallRun.live.Pairwise (Alloc.Disjoint smallRun.heap.mem) := by
  obtain ⟨bs, h⟩ := heap_sound smallArena (fun _ => 0) (by decide) (by decide) (by decide)
    reachable_smallRun
  exact ⟨reachable_smallRun, by decide +kernel, h.2.2.2.2.2.2.2.2.2.2⟩

/-! ## Accounting -/

section Accounting

variable {A : Arena} {r : Run} {bs : List Block}

/-- The free blocks. -/
def freeBlocks (bs : List Block) : List Block := bs.filter Block.free

/-- The bytes counted as free are those of the free blocks. -/
lemma sum_freeBytes (bs : List Block) :
    (bs.map Block.freeBytes).sum = ((freeBlocks bs).map Block.size).sum := by
  induction bs with
  | nil => rfl
  | cons b bs ih =>
    cases hb : b.free <;> simp [freeBlocks, Block.freeBytes, hb] at ih ⊢ <;> omega

/-- A settled list without a used block has at most one block. -/
lemma Settled.length_le_one (hs : Settled bs) (hu : usedBlocks bs = []) : bs.length ≤ 1 := by
  have hfree : ∀ b ∈ bs, b.free = true := fun b hb => by
    cases hbf : b.free with
    | true => rfl
    | false =>
      have : b ∈ usedBlocks bs := mem_usedBlocks.mpr ⟨hb, hbf⟩
      rw [hu] at this
      cases this
  match bs, hs with
  | [], _ => exact Nat.zero_le _
  | [b], _ => exact le_rfl
  | b :: c :: bs, hs =>
    simp only [Settled, map_cons] at hs
    have h1 := hfree b (by simp)
    have h2 := hfree c (by simp)
    rw [h1, h2] at hs
    cases (isChain_cons_cons.mp hs).1 with
    | inl h => cases h
    | inr h => cases h

/-- **Accounting of the heap.** In every state that calls and client stores can reach, the counters
are exact: they are the sizes and numbers of the used and of the free blocks of the list, and
together with one header per block they make up the heap. When the clients hold no pointer, one
free block is left.

**Proof sketch.** The counters are part of the representation that every call keeps. Without used
blocks, a list without free neighbours has one block only. -/
theorem heap_accounting (A : Arena) (mem : Mem) {initialSize : ℕ} (hmin : 64 ≤ initialSize)
    (h8 : 8 ∣ initialSize) (hmax : initialSize ≤ A.maxSize) {r : Run}
    (hr : (system A mem initialSize).Reachable r) :
    ∃ bs : List Block,
      headAddr 0 bs = r.heap.heapHead ∧ Linked r.heap.mem 0 0 bs ∧
      r.heap.stats.usedSize = ((usedBlocks bs).map Block.size).sum ∧
      r.heap.stats.freeSize = ((freeBlocks bs).map Block.size).sum ∧
      r.heap.stats.numBlocks = bs.length ∧
      r.heap.stats.numAllocations = (usedBlocks bs).length ∧
      r.heap.stats.totalSize = r.heap.heapCurSize ∧
      r.heap.heapCurSize = r.heap.stats.usedSize + r.heap.stats.freeSize +
        headerSize * r.heap.stats.numBlocks ∧
      (r.live = [] → bs.length = 1 ∧ r.heap.stats.usedSize = 0 ∧
        r.heap.stats.numAllocations = 0 ∧
        r.heap.stats.freeSize = r.heap.heapCurSize - headerSize) := by
  obtain ⟨bs, hI⟩ := inv_of_reachable A mem hmin h8 hmax hr
  have hR : Rep A r.heap bs := hI.rep
  have hcount := hR.numAllocations_eq
  have hused := hR.usedSize_eq
  have hsum := hR.counts_le.1
  refine ⟨bs, hR.headAddr_eq.trans hR.head.symm, hR.linked, hused,
    hR.counts.free.trans (sum_freeBytes bs), hR.counts.blocks, hcount, hR.counts.total, hsum.symm,
    fun hlive => ?_⟩
  have hu : usedBlocks bs = [] := by
    obtain ⟨L, h1, h2, -⟩ := r.exists_owners hI
    rw [hlive] at h2
    rw [map_eq_nil_iff.mp h2.symm] at h1
    exact h1.nil_eq.symm
  have hle := hI.settled.length_le_one hu
  obtain ⟨xs, t, rfl⟩ := hR.exists_last
  have hone : (xs ++ [t]).length = 1 := by
    simp only [length_append, length_singleton] at hle ⊢
    omega
  have hblocks := hR.counts.blocks.trans hone
  rw [hu] at hused hcount
  simp only [map_nil, sum_nil, length_nil] at hused hcount
  refine ⟨hone, hused, hcount, ?_⟩
  rw [hused, hblocks] at hsum
  omega

end Accounting

/-- The counters of the small run. -/
theorem heap_accounting_smallRun :
    (system smallArena (fun _ => 0) 1024).Reachable smallRun ∧
      smallRun.heap.stats.totalSize = smallRun.heap.heapCurSize := by
  obtain ⟨bs, h⟩ := heap_accounting smallArena (fun _ => 0) (by decide) (by decide) (by decide)
    reachable_smallRun
  exact ⟨reachable_smallRun, h.2.2.2.2.2.2.1⟩

end BengalTiger.Heap
