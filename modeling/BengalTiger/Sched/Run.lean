import BengalTiger.Sched.Reap
import BengalTiger.Heap.Session
import BengalTiger.Lib.System

set_option autoImplicit false

/-!
# Runs of the scheduler

A run starts from `schedulerInit` with no task objects and takes calls of `task_create` and
`task_kill`, exits of the current task, timer ticks and voluntary schedules, while other clients
use the same heap. The run counts the tasks created, which the C code knows modulo `2 ^ 32` only.

## Main definitions

* `Sched.Run`, `Sched.Op`, `Sched.system` — the runs.
* `Sched.kernelHeap` — the heap of `heap.c` as an allocator.

## Main results

* `Sched.Run.exec_spec` — every step returns and keeps the invariant.
* `Sched.scheduler_sound` — list, memory and context safety in every reachable state.
-/

namespace BengalTiger.Sched

open Ring State List

/-! ## The kernel heap as an allocator -/

/-- The payloads of the used blocks. -/
def payloads (bs : List Heap.Block) : Finset ℕ :=
  ((Heap.usedBlocks bs).map Heap.Block.payload).toFinset

/-- The heap state holds exactly the pointers `L`. -/
def HeapHolds (A : Heap.Arena) (h : Heap.State) (L : Finset ℕ) : Prop :=
  ∃ bs, Heap.Rep A h bs ∧ Heap.Settled bs ∧ payloads bs = L ∧ (A.base = 0 → L = ∅)

section KernelHeap

variable {A : Heap.Arena} {h : Heap.State} {L : Finset ℕ}

/-- `NULL` is not the payload of a block. -/
lemma HeapHolds.zero_notMem (hh : HeapHolds A h L) : 0 ∉ L := by
  obtain ⟨bs, -, -, rfl, -⟩ := hh
  intro hm
  simp only [payloads, mem_toFinset, mem_map, Heap.Block.payload, Heap.headerSize] at hm
  obtain ⟨b, -, hb⟩ := hm
  omega

/-- `kzalloc` refuses a request or returns a pointer that nobody holds. -/
lemma HeapHolds.kzalloc (hh : HeapHolds A h L) {n : ℕ} (hn : n ≤ heapMaxSize) :
    (Heap.kzalloc h n).2 = 0 ∧ HeapHolds A (Heap.kzalloc h n).1 L ∨
      (Heap.kzalloc h n).2 ∉ L ∧
        HeapHolds A (Heap.kzalloc h n).1 (insert (Heap.kzalloc h n).2 L) := by
  obtain ⟨bs, hR, hs, rfl, h0⟩ := hh
  obtain ⟨bs', hR', hs', ha, -⟩ := hR.kzalloc hs hn
  by_cases hbase : A.base = 0
  · -- a heap at address 0 refuses every request
    have e : Heap.kzalloc h n = (h, 0) := by
      rw [Heap.kzalloc, hR.kmalloc_of_null hbase]
      rfl
    rw [e]
    exact .inl ⟨rfl, bs, hR, hs, rfl, h0⟩
  · rcases ha with ⟨hz, hu⟩ | ⟨b, hptr, -, hperm⟩
    · exact .inl ⟨hz, bs', hR', hs', by rw [payloads, payloads, hu], fun hb => absurd hb hbase⟩
    · right
      have hb : b ∈ Heap.usedBlocks bs' := hperm.mem_iff.mpr (mem_cons_self ..)
      have hnd : (b :: Heap.usedBlocks bs).Nodup := by
        refine hperm.nodup_iff.mp (List.Nodup.sublist filter_sublist ?_)
        exact hR'.nodup
      refine ⟨fun hm => ?_, bs', hR', hs', ?_, fun hb => absurd hb hbase⟩
      · rw [hptr] at hm
        simp only [payloads, mem_toFinset, mem_map] at hm
        obtain ⟨c, hc, hcb⟩ := hm
        have hc' : c ∈ Heap.usedBlocks bs' := hperm.mem_iff.mpr (mem_cons_of_mem _ hc)
        have heq := hR'.payload_inj (Heap.mem_usedBlocks.mp hb).1 (Heap.mem_usedBlocks.mp hc').1 hcb
        exact (nodup_cons.mp hnd).1 (heq ▸ hc)
      · ext p
        rw [hptr]
        simp only [payloads, mem_toFinset, Finset.mem_insert]
        rw [(hperm.map Heap.Block.payload).mem_iff, map_cons, mem_cons]

/-- `kfree` takes back the pointer. -/
lemma HeapHolds.kfree (hh : HeapHolds A h L) {p : ℕ} (hp : p ∈ L) :
    HeapHolds A (Heap.kfree h p) (L.erase p) := by
  obtain ⟨bs, hR, hs, rfl, h0⟩ := hh
  have hbase : 0 < A.base := Nat.pos_of_ne_zero fun hb => by
    rw [h0 hb] at hp
    simp at hp
  simp only [payloads, mem_toFinset, mem_map] at hp
  obtain ⟨b, hb, rfl⟩ := hp
  obtain ⟨hb1, hb2⟩ := Heap.mem_usedBlocks.mp hb
  rw [hR.kfree_eq hbase hb1 hb2]
  obtain ⟨bs', hR', hs', hperm, -⟩ := hR.release hs hbase hb1 hb2
  refine ⟨bs', hR', hs', ?_, fun hb => by omega⟩
  have hnd : ((b :: Heap.usedBlocks bs').map Heap.Block.payload).Nodup := by
    refine (hperm.map _).nodup_iff.mp (List.Nodup.map_on (fun c hc d hd he => ?_) ?_)
    · exact hR.payload_inj (Heap.mem_usedBlocks.mp hd).1 (Heap.mem_usedBlocks.mp hc).1 he
    · exact List.Nodup.sublist filter_sublist hR.nodup
  ext p
  have hmem := (hperm.map Heap.Block.payload).mem_iff (a := p)
  rw [map_cons, mem_cons] at hmem
  rw [map_cons, nodup_cons] at hnd
  simp only [payloads, mem_toFinset, Finset.mem_erase, hmem]
  constructor
  · intro hm
    exact ⟨fun he => hnd.1 (he ▸ hm), .inr hm⟩
  · rintro ⟨hne, hm⟩
    exact hm.resolve_left hne

end KernelHeap

/-- The heap of `heap.c` in the arena `A`, with `kzalloc` and `kfree`. -/
def kernelHeap (A : Heap.Arena) : Allocator where
  State := Heap.State
  maxRequest := heapMaxSize
  alloc := Heap.kzalloc
  free := Heap.kfree
  Holds := HeapHolds A
  ne_zero h := h.zero_notMem
  alloc_holds h hn := h.kzalloc hn
  free_holds h hp := h.kfree hp

/-! ## Runs -/

variable {M : Allocator}

/-- A scheduler, the number of tasks created so far and the blocks that other clients hold. -/
structure Run (M : Allocator) where
  sched : State M
  created : ℕ
  foreign : Finset ℕ

/-- The steps of a run. -/
inductive Op
  | create (name : Option (List UInt8)) (entryPoint : ℕ)
  | kill (pid : ℕ)
  | exit
  | sysExit (r : ℕ)
  | schedule (r : ℕ)
  | tick (r : ℕ)
  | foreignAlloc (n : ℕ)
  | foreignFree (ptr : ℕ)

/-- The steps that may be taken: fewer than `2 ^ 32` creations, and other clients free only what
they hold. -/
def Run.Allows (r : Run M) : Op → Prop
  | .create _ _ => r.created + 1 < 4294967296
  | .foreignAlloc n => n ≤ M.maxRequest
  | .foreignFree ptr => ptr ∈ r.foreign
  | _ => True

/-- The effect of a step. -/
def Run.exec (r : Run M) : Op → Option (Run M)
  | .create name entryPoint =>
    (taskCreate r.sched name entryPoint).map fun x =>
      { r with sched := x.1, created := if x.2 = .null then r.created else r.created + 1 }
  | .kill pid => (taskKill r.sched pid).map fun x => { r with sched := x.1 }
  | .exit => (taskExit r.sched).map fun s => { r with sched := s }
  | .sysExit ctx => (Sched.sysExit r.sched ctx).map fun x => { r with sched := x.1 }
  | .schedule ctx => (schedulerSchedule r.sched ctx).map fun x => { r with sched := x.1 }
  | .tick ctx => (schedulerTick r.sched ctx).map fun x => { r with sched := x.1 }
  | .foreignAlloc n =>
    some { r with
      sched := { r.sched with heap := (M.alloc r.sched.heap n).1 }
      foreign :=
        if (M.alloc r.sched.heap n).2 = 0 then r.foreign
        else insert (M.alloc r.sched.heap n).2 r.foreign }
  | .foreignFree ptr =>
    some { r with
      sched := { r.sched with heap := M.free r.sched.heap ptr }
      foreign := r.foreign.erase ptr }

/-- The runs from `scheduler_init`, with no task object and no block of the scheduler before. -/
def system (M : Allocator) : System (Run M) Op where
  init r := ∃ s : State M, (s.tasks = fun _ => none) ∧ s.owned = ∅ ∧ M.Holds s.heap r.foreign ∧
    r.sched = schedulerInit s ∧ r.created = 0
  step r op r' := r.Allows op ∧ r.exec op = some r'

/-- The invariant holds initially. -/
lemma inv_schedulerInit {s : State M} {F : Finset ℕ} (ht : s.tasks = fun _ => none)
    (ho : s.owned = ∅) (hH : M.Holds s.heap F) : Inv (schedulerInit s) F 0 [] := by
  have hheap : ∀ {β : Type} (f : Task → β) (a : ℕ),
      (schedulerInit s).proj f (.heap a) = none := fun f a => by
    change (s.tasks a).map f = none
    rw [ht]
    rfl
  have hnull : ∀ {β : Type} (f : Task → β), (schedulerInit s).proj f .null = none := fun f => rfl
  refine ⟨⟨rfl, ⟨rfl, rfl⟩, by simp, fun p => ?_⟩, by decide, by simp [schedulerInit],
    ⟨rfl, fun p q i hp hq => ?_, fun p i hp => ?_⟩, rfl, ⟨.inr rfl, fun p hp => ?_⟩,
    ⟨?_, ?_, ?_, ?_⟩,
    ?_, ?_⟩
  · cases p with
    | null => simp [hnull]
    | kernelTask => simp [proj, State.get]
    | heap a => simp [hheap]
  · cases p <;> cases q <;> simp_all
  · cases p with
    | null => simp [hnull] at hp
    | kernelTask =>
      simp only [proj, State.get, schedulerInit, Option.map_some, Option.some.injEq] at hp
      omega
    | heap a => simp [hheap] at hp
  · cases p with
    | null => simp [hnull] at hp
    | kernelTask => rfl
    | heap a => simp [hheap] at hp
  · simp [hheap]
  · simp [hheap]
  · simp [hheap]
  · intro c
    change c ∈ s.owned ↔ _
    rw [ho]
    simp [hheap]
  · change M.Holds s.heap (s.owned ∪ F)
    rwa [ho, Finset.empty_union]
  · change Disjoint s.owned F
    rw [ho]
    exact Finset.disjoint_empty_left _

/-- **Every step returns and keeps the invariant.** -/
lemma Run.exec_spec (hM : stackSize ≤ M.maxRequest) {r : Run M} {ts : List Ptr}
    (hI : Inv r.sched r.foreign r.created ts) {op : Op} (ha : r.Allows op) :
    ∃ r' ts', r.exec op = some r' ∧ Inv r'.sched r'.foreign r'.created ts' := by
  cases op with
  | create name entryPoint =>
    obtain ⟨s', p, e, h⟩ := hI.taskCreate hM ha name entryPoint
    rw [Run.exec, e]
    rcases h with ⟨hp, h⟩ | ⟨hp, h⟩
    · exact ⟨_, ts, rfl, by dsimp only; rw [if_pos hp]; exact h⟩
    · exact ⟨_, ts ++ [p], rfl, by dsimp only; rw [if_neg hp]; exact h⟩
  | kill pid =>
    obtain ⟨s', res, e, h⟩ := hI.taskKill pid
    exact ⟨_, ts, by rw [Run.exec, e]; rfl, h⟩
  | exit =>
    obtain ⟨s', e, h⟩ := hI.taskExit
    exact ⟨_, ts, by rw [Run.exec, e]; rfl, h⟩
  | sysExit ctx =>
    obtain ⟨s', c, ts', e, h⟩ := hI.sysExit ctx
    exact ⟨_, ts', by rw [Run.exec, e]; rfl, h⟩
  | schedule ctx =>
    obtain ⟨s', c, ts', x, e, h, -⟩ := hI.schedulerSchedule ctx
    exact ⟨_, ts', by rw [Run.exec, e]; rfl, h⟩
  | tick ctx =>
    obtain ⟨s', c, ts', x, e, h, -⟩ := hI.schedulerTick ctx
    exact ⟨_, ts', by rw [Run.exec, e]; rfl, h⟩
  | foreignAlloc n =>
    refine ⟨_, ts, rfl, hI.of_get_eq (by funext p; cases p <;> rfl) hI.current hI.states rfl rfl rfl
      ?_⟩
    rcases M.alloc_holds hI.heap.holds ha with ⟨hz, h⟩ | ⟨hnew, h⟩
    · exact ⟨by dsimp only; rwa [if_pos hz], by dsimp only; rw [if_pos hz]; exact hI.heap.disjoint⟩
    · have hnz : (M.alloc r.sched.heap n).2 ≠ 0 := fun he =>
        M.ne_zero h (he ▸ Finset.mem_insert_self _ _)
      rw [Finset.notMem_union] at hnew
      refine ⟨?_, ?_⟩ <;> dsimp only <;> rw [if_neg hnz]
      · rwa [Finset.union_insert]
      · rw [Finset.disjoint_insert_right]
        exact ⟨hnew.1, hI.heap.disjoint⟩
  | foreignFree ptr =>
    refine ⟨_, ts, rfl, hI.of_get_eq (by funext p; cases p <;> rfl) hI.current hI.states rfl rfl rfl
      ⟨?_, Finset.disjoint_of_subset_right (Finset.erase_subset _ _) hI.heap.disjoint⟩⟩
    have hno : ptr ∉ r.sched.owned := Finset.disjoint_right.mp hI.heap.disjoint ha
    have := M.free_holds hI.heap.holds (Finset.mem_union_right _ ha)
    rwa [Finset.erase_union_distrib, Finset.erase_eq_of_notMem hno] at this

/-- The invariant holds in every reachable state. -/
lemma inv_of_reachable (hM : stackSize ≤ M.maxRequest) {r : Run M}
    (hr : (system M).Reachable r) : ∃ ts, Inv r.sched r.foreign r.created ts := by
  refine hr.invariant (fun r => ∃ ts, Inv r.sched r.foreign r.created ts) ?_ ?_
  · rintro r ⟨s, ht, ho, hH, hs, hc⟩
    exact ⟨[], by rw [hs, hc]; exact inv_schedulerInit ht ho hH⟩
  · rintro r op r' ⟨ts, hI⟩ ⟨ha, he⟩
    obtain ⟨r'', ts', e, h⟩ := Run.exec_spec hM hI ha
    rw [he] at e
    cases e
    exact ⟨ts', h⟩

/-- The scheduler continues with the frame of a task that is live and not a zombie, and both the
kernel task and the task that was current are still there. -/
def SafeSwitch (s : State M) (res : Option (State M × ℕ)) : Prop :=
  ∃ s' ctx x, res = some (s', ctx) ∧ s'.get s'.currentTask = some x ∧ x.state ≠ .zombie ∧
    ctx = x.regsPtr ∧ (s'.get s.currentTask).isSome ∧ (s'.get .kernelTask).isSome

/-- **Ring and memory safety of the scheduler.** In every state that a run reaches, the task list
is a doubly linked ring without duplicates from the kernel task through live tasks, of at most
`MAX_TASKS` entries with distinct ids, with the current task in it; only the current task is
running; the blocks owned by the scheduler are one object and one stack for each task of the ring
besides the kernel task, and the heap has handed out exactly these and the blocks of the other
clients. Every step that may be taken returns: no freed object is used, no block is freed twice,
no walk runs on. A schedule or a tick continues a live task that is not a zombie, and frees
neither the kernel task nor the task that was current.

**Proof sketch.** `Inv` holds initially and is kept by every step (`Run.exec_spec`). -/
theorem scheduler_sound (hM : stackSize ≤ M.maxRequest) {r : Run M}
    (hr : (system M).Reachable r) :
    ∃ ts : List Ptr,
      r.sched.taskHead = .kernelTask ∧
      Seg r.sched.nextOf r.sched.prevOf .kernelTask ts .kernelTask ∧
      (Ptr.kernelTask :: ts).Nodup ∧ (Ptr.kernelTask :: ts).length ≤ maxTasks ∧
      (∀ p, (r.sched.get p).isSome ↔ p ∈ Ptr.kernelTask :: ts) ∧
      (∀ p q x y, r.sched.get p = some x → r.sched.get q = some y → x.id = y.id → p = q) ∧
      r.sched.currentTask ∈ Ptr.kernelTask :: ts ∧
      (∀ p x, r.sched.get p = some x → x.state = .running → p = r.sched.currentTask) ∧
      Blocks (r.sched.proj Task.stackBase) r.sched.owned ∧
      M.Holds r.sched.heap (r.sched.owned ∪ r.foreign) ∧ Disjoint r.sched.owned r.foreign ∧
      (∀ op, r.Allows op → ∃ r', r.exec op = some r') ∧
      (∀ ctx, SafeSwitch r.sched (schedulerSchedule r.sched ctx)) ∧
      (∀ ctx, SafeSwitch r.sched (schedulerTick r.sched ctx)) := by
  obtain ⟨ts, hI⟩ := inv_of_reachable hM hr
  have hproj : ∀ {β : Type} (f : Task → β) (p : Ptr) (x : Task), r.sched.get p = some x →
      r.sched.proj f p = some (f x) := fun f p x hx => by
    rw [proj, hx]
    rfl
  have hlive : ∀ {s : State M} {ts : List Ptr} {p : Ptr}, Links s ts → p ∈ Ptr.kernelTask :: ts →
      (s.get p).isSome := fun hL hp => by
    obtain ⟨x, hx⟩ := hL.get hp
    rw [hx]
    rfl
  refine ⟨ts, hI.links.head, hI.links.seg, hI.links.nodup, hI.length, fun p => ?_,
    fun p q x y hx hy hxy => ?_, hI.current, fun p x hx hst => ?_, hI.blocks, hI.heap.holds,
    hI.heap.disjoint, fun op ha => ?_, fun ctx => ?_, fun ctx => ?_⟩
  · rw [← hI.links.live, proj, Option.isSome_map]
  · exact hI.ids.inj p q x.id (hproj _ p x hx) (by rw [hxy]; exact hproj _ q y hy)
  · exact hI.states.running p (by rw [hproj _ p x hx, hst])
  · obtain ⟨r', -, e, -⟩ := Run.exec_spec hM hI ha
    exact ⟨r', e⟩
  · obtain ⟨s', c, ts', x, e, h1, h2, h3, h4, h5⟩ := hI.schedulerSchedule ctx
    exact ⟨s', c, x, e, h3, h4, h5, hlive h1.links h2, hlive h1.links (by simp)⟩
  · obtain ⟨s', c, ts', x, e, h1, h2, h3, h4, h5⟩ := hI.schedulerTick ctx
    exact ⟨s', c, x, e, h3, h4, h5, hlive h1.links h2, hlive h1.links (by simp)⟩

/-- An arena of 32 KB at 4 MB. -/
def taskArena : Heap.Arena :=
  ⟨heapStart, 0x8000, Heap.heapStart_dvd, by decide, by decide, by decide⟩

/-- The static variables before `scheduler_init`, on the heap that `heap_init_at` makes of the
arena. -/
def bootState : State (kernelHeap taskArena) where
  heap := Heap.heapInitAt (fun _ => 0) taskArena.base 0x8000 taskArena.maxSize
  owned := ∅
  tasks := fun _ => none
  kernelTask :=
    { id := 0, name := [], state := .ready, cpuTicks := 0, regsPtr := 0, stackBase := 0,
      next := .null, prev := .null }
  currentTask := .null
  taskHead := .null
  nextPid := 1
  tick := 0

/-- The run right after `scheduler_init`. -/
def bootRun : Run (kernelHeap taskArena) where
  sched := schedulerInit bootState
  created := 0
  foreign := ∅

/-- The run right after `scheduler_init` starts a run. -/
lemma bootRun_init : (system (kernelHeap taskArena)).init bootRun :=
  ⟨bootState, rfl, rfl,
    ⟨_, Heap.rep_heapInitAt taskArena _ (by decide) (by decide) (by decide), .singleton _,
      rfl, fun _ => rfl⟩, rfl, rfl⟩

instance (r : Run M) (op : Op) : Decidable (r.Allows op) :=
  match op with
  | .create .. => Nat.decLt _ _
  | .foreignAlloc _ => Nat.decLe _ _
  | .foreignFree ptr => inferInstanceAs (Decidable (ptr ∈ r.foreign))
  | .kill _ | .exit | .sysExit _ | .schedule _ | .tick _ => .isTrue trivial

/-- Steps that may be taken, one after the other. -/
def Run.execAll (r : Run M) (ops : List Op) : Option (Run M) :=
  ops.foldlM (fun r op => if r.Allows op then r.exec op else none) r

/-- Such steps lead to a state that a run reaches. -/
lemma reachable_execAll {ops : List Op} {r r' : Run M} (hr : (system M).Reachable r)
    (h : r.execAll ops = some r') : (system M).Reachable r' := by
  induction ops generalizing r with
  | nil =>
    cases h
    exact hr
  | cons op ops ih =>
    rw [Run.execAll, foldlM_cons] at h
    obtain ⟨r₁, h₁, h⟩ := Option.bind_eq_some_iff.1 h
    split_ifs at h₁ with hallows
    exact ih (.step hr ⟨hallows, h₁⟩) h

/-- Two tasks are created; a tick starts the first, which exits; a tick starts the second, which is
killed; a tick frees the first and goes back to the kernel task. -/
def busyOps : List Op :=
  [.create none 0x100000, .create none 0x100000, .tick 1, .exit, .tick 2, .kill 2, .tick 3]

/-- The scheduler is sound after such a run. -/
theorem scheduler_sound_busyRun :
    ∃ r : Run (kernelHeap taskArena), bootRun.execAll busyOps = some r ∧
    r.created = 2 ∧ r.sched.currentTask = .kernelTask ∧
    (r.sched.get (.heap 0x400018)).isSome = false ∧
    (r.sched.get (.heap 0x402088)).map Task.state = some .zombie ∧
    ∀ ctx, SafeSwitch r.sched (schedulerSchedule r.sched ctx) := by
  have hfacts : (bootRun.execAll busyOps).map (fun r => (r.created, r.sched.currentTask,
      (r.sched.get (.heap 0x400018)).isSome, (r.sched.get (.heap 0x402088)).map Task.state)) =
      some (2, .kernelTask, false, some .zombie) := by
    decide +kernel
  obtain ⟨r, hrun, hfacts⟩ := Option.map_eq_some_iff.1 hfacts
  simp only [Prod.mk.injEq] at hfacts
  have hM : stackSize ≤ heapMaxSize := by decide
  obtain ⟨ts, h⟩ := scheduler_sound hM (reachable_execAll (.init bootRun_init) hrun)
  exact ⟨r, hrun, hfacts.1, hfacts.2.1, hfacts.2.2.1, hfacts.2.2.2, h.2.2.2.2.2.2.2.2.2.2.2.2.1⟩

end BengalTiger.Sched
