import BengalTiger.Sched.Ops

set_option autoImplicit false

/-!
# Reaping and switching

The reaping loop of `scheduler_schedule` walks along the list while it unlinks and frees tasks;
the selection and the switch follow.

## Main results

* `Sched.Inv.unlinkFree` — one zombie leaves the list and its two blocks are freed.
* `Sched.Inv.reap` — the whole loop.
* `Sched.Inv.schedulerSchedule` — the scheduler continues a live task that is not a
  zombie.
* `Sched.Inv.taskKill`, `Sched.Inv.taskExit`,
  `Sched.Inv.schedulerTick`, `Sched.Inv.sysExit`.
-/

namespace BengalTiger.Sched

open Ring State Function List Option

variable {M : Allocator}

/-! ## One zombie -/

section Unlink

variable {s : State M} {foreign : Finset ℕ} {created : ℕ} {us vs : List Ptr} {a : ℕ}

/-- The ids without a task that is freed. -/
lemma Ids.erase {ids : Ptr → Option ℕ} (h : Ids ids created) :
    Ids (update ids (.heap a) none) created := by
  have hsome : ∀ q i, update ids (.heap a) none q = some i → ids q = some i :=
    fun q i hq => by
      by_cases hqa : q = .heap a
      · rw [hqa, update_self] at hq
        cases hq
      · rwa [update_of_ne hqa] at hq
  refine ⟨?_, fun q q' i hq hq' => h.inj q q' i (hsome q i hq) (hsome q' i hq'),
    fun q i hq => h.le q i (hsome q i hq)⟩
  rw [update_of_ne (by simp)]
  exact h.kernel

/-- The states without a task that is freed. -/
lemma States.erase {st : Ptr → Option TaskState} {cur : Ptr} (h : States st cur) :
    States (Function.update st (.heap a) none) cur := by
  refine ⟨?_, fun q hq => h.running q ?_⟩
  · rw [update_of_ne (by simp)]
    exact h.kernel
  · by_cases hqa : q = .heap a
    · rw [hqa, update_self] at hq
      cases hq
    · rwa [update_of_ne hqa] at hq

/-- The blocks without the object and the stack of a task that is freed. As no two tasks share a
block, the blocks of the others stay owned. -/
lemma Blocks.erase {st : Ptr → Option ℕ} {owned : Finset ℕ} {b : ℕ} (h : Blocks st owned)
    (hb : st (.heap a) = some b) :
    Blocks (update st (.heap a) none) ((owned.erase b).erase a) := by
  have hsome : ∀ c d, update st (.heap a) none (.heap c) = some d →
      st (.heap c) = some d ∧ c ≠ a := fun c d hc => by
    by_cases hca : c = a
    · rw [hca, update_self] at hc
      cases hc
    · rw [update_of_ne (fun he => hca (Ptr.heap.inj he))] at hc
      exact ⟨hc, hca⟩
  refine ⟨fun c d hc => h.ne_zero c d (hsome c d hc).1,
    fun c c' d hc hc' => h.inj c c' d (hsome c d hc).1 (hsome c' d hc').1,
    fun c c' d d' hc hc' => h.apart c c' d d' (hsome c d hc).1 (hsome c' d' hc').1, fun c => ?_⟩
  rw [Finset.mem_erase, Finset.mem_erase, h.mem]
  constructor
  · rintro ⟨h1, h2, c', d, h3, h4⟩
    have hne : c' ≠ a := by
      rintro rfl
      rw [hb] at h3
      cases h3
      exact h4.elim h1 h2
    refine ⟨c', d, ?_, h4⟩
    rw [update_of_ne (fun he => hne (Ptr.heap.inj he))]
    exact h3
  · rintro ⟨c', d, h3, h4⟩
    obtain ⟨h5, h6⟩ := hsome c' d h3
    refine ⟨?_, ?_, c', d, h5, h4⟩
    · rintro rfl
      rcases h4 with rfl | rfl
      · exact h6 rfl
      · exact h.apart c' c c b h5 hb rfl
    · rintro rfl
      rcases h4 with rfl | rfl
      · exact h.apart a c c d hb h5 rfl
      · exact h6 (h.inj c' a c h5 hb)

/-- Freeing the two blocks of a task removes its object only. -/
lemma proj_dropBlocks {β : Type} {b : ℕ} (f : Task → β) (hb : s.tasks b = none) :
    ((s.dropBlock b).dropBlock a).proj f = update (s.proj f) (.heap a) none := by
  rw [proj_dropBlock, proj_dropBlock]
  congr 1
  refine update_eq_self_iff.mpr ?_
  rw [proj, State.get, hb]
  rfl

/-- The other nodes of the list, among them the neighbours of the node. -/
lemma Links.mem_others (hL : Links s (us ++ .heap a :: vs)) :
    (∀ q, q ∈ Ptr.kernelTask :: (us ++ .heap a :: vs) ↔
      q = .heap a ∨ q ∈ Ptr.kernelTask :: (us ++ vs)) ∧
    s.prevOf (.heap a) ∈ Ptr.kernelTask :: (us ++ vs) ∧
    s.nextOf (.heap a) ∈ Ptr.kernelTask :: (us ++ vs) ∧
    Ptr.heap a ∉ Ptr.kernelTask :: (us ++ vs) := by
  obtain ⟨hseg₁, hseg₂⟩ := seg_append.mp hL.seg
  have hpm := hseg₁.prev_mem
  have hnm := hseg₂.next_mem
  have hnot := (nodup_cons.mp (nodup_middle.mp (nodup_cons.mp hL.nodup).2)).1
  refine ⟨fun q => ?_, ?_, ?_, ?_⟩
  · simp only [mem_cons, mem_append]
    tauto
  · simp only [mem_cons, mem_append] at hpm ⊢
    tauto
  · simp only [mem_cons, mem_append, not_mem_nil] at hnm ⊢
    tauto
  · simpa using hnot

/-- **The two assignments** that unlink a node between two live neighbours. -/
lemma exists_unlinked (hlive : (s.proj Task.id (.heap a)).isSome)
    (hprev : (s.proj Task.id (s.prevOf (.heap a))).isSome)
    (hnext : (s.proj Task.id (s.nextOf (.heap a))).isSome)
    (hne : Ptr.heap a ≠ s.prevOf (.heap a)) :
    ∃ s' x, s'.get (.heap a) = some x ∧ Relinked s s' ∧
      s'.nextOf = update s.nextOf (s.prevOf (.heap a)) (s.nextOf (.heap a)) ∧
      s'.prevOf = update s.prevOf (s.nextOf (.heap a)) (s.prevOf (.heap a)) ∧
      unlinkFree s (.heap a) =
        (if x.stackBase ≠ 0 then s'.kfree x.stackBase else some s').bind fun s =>
          s.kfreeTask (.heap a) := by
  obtain ⟨x, hx⟩ := exists_get_of_live hlive
  obtain ⟨s₁, e₁, r₁, n₁, p₁⟩ := modify_next hprev (s.nextOf (.heap a))
  obtain ⟨x₁, hx₁⟩ := exists_get_of_live (s := s₁) (p := .heap a) (by rw [r₁.id]; exact hlive)
  have hx₁n : x₁.next = s.nextOf (.heap a) := by
    rw [← nextOf_eq hx₁, n₁, update_of_ne hne]
  have hx₁p : x₁.prev = s.prevOf (.heap a) := by rw [← prevOf_eq hx₁, p₁]
  obtain ⟨s₂, e₂, r₂, p₂, n₂⟩ := modify_prev (s := s₁) (p := x₁.next) (by
    rw [r₁.id, hx₁n]; exact hnext) x₁.prev
  have r := r₁.trans r₂
  obtain ⟨x₂, hx₂⟩ := exists_get_of_live (s := s₂) (p := .heap a) (by rw [r.id]; exact hlive)
  refine ⟨s₂, x₂, hx₂, r, n₂.trans n₁, by rw [p₂, p₁, hx₁n, hx₁p], ?_⟩
  rw [Sched.unlinkFree, hx, bind_some, ← prevOf_eq hx, ← nextOf_eq hx, e₁,
    bind_some, hx₁, bind_some, e₂, bind_some, hx₂, bind_some]

/-- **The two blocks** of a task are freed, after the links were changed. Freeing the stack removes
no object. -/
lemma Inv.kfree_blocks {ts : List Ptr} {s' : State M} {x : Task} (hI : Inv s foreign created ts)
    (r : Relinked s s') (hx : s'.get (.heap a) = some x) :
    ((if x.stackBase ≠ 0 then s'.kfree x.stackBase else some s').bind fun s =>
      s.kfreeTask (.heap a)) = some ((s'.dropBlock x.stackBase).dropBlock a) ∧
    s'.tasks x.stackBase = none ∧
    Blocks (update (s.proj Task.stackBase) (.heap a) none)
      ((s'.dropBlock x.stackBase).dropBlock a).owned ∧
    HeapInv ((s'.dropBlock x.stackBase).dropBlock a) foreign := by
  have hb : s.proj Task.stackBase (.heap a) = some x.stackBase := by
    rw [← r.stackBase, proj, hx]
    rfl
  obtain ⟨ha0, hb0⟩ := hI.blocks.ne_zero a _ hb
  have hbo : x.stackBase ∈ s'.owned := by
    rw [r.owned, hI.blocks.mem]
    exact ⟨a, _, hb, .inr rfl⟩
  have hao : a ∈ (s'.dropBlock x.stackBase).owned := by
    refine Finset.mem_erase.mpr ⟨(hI.blocks.apart a a _ _ hb hb).symm, ?_⟩
    rw [r.owned, hI.blocks.mem]
    exact ⟨a, _, hb, .inl rfl⟩
  have hH : HeapInv s' foreign :=
    ⟨by rw [r.heap, r.owned]; exact hI.heap.holds, by rw [r.owned]; exact hI.heap.disjoint⟩
  refine ⟨?_, ?_, ?_, (hH.dropBlock hbo).dropBlock hao⟩
  · rw [if_pos hb0, kfree_eq hb0 hbo, bind_some, State.kfreeTask, kfree_eq ha0 hao]
  · by_contra hne
    obtain ⟨y, hy⟩ := ne_none_iff_exists'.mp hne
    refine hI.blocks.apart a x.stackBase _ y.stackBase hb ?_ rfl
    rw [← r.stackBase, proj, State.get, hy]
    rfl
  · change Blocks _ ((s'.owned.erase _).erase a)
    rw [r.owned]
    exact hI.blocks.erase hb

/-- **A zombie** that is not the current task leaves the list, and its two blocks are freed.

**Proof sketch.** The two assignments unlink the node (`Seg.unlink`); the neighbours are live, and
differ from the node. Freeing the stack removes no object, freeing the block of the task removes
the node, which is not in the list any more. -/
lemma Inv.unlinkFree (hI : Inv s foreign created (us ++ .heap a :: vs))
    (hcur : s.currentTask ≠ .heap a) :
    ∃ s', unlinkFree s (.heap a) = some s' ∧ Inv s' foreign created (us ++ vs) ∧
      s'.currentTask = s.currentTask := by
  have hL := hI.links
  obtain ⟨hk, hnd⟩ := nodup_cons.mp hL.nodup
  obtain ⟨hmem, hpl, hnl, hfresh⟩ := hL.mem_others
  have hlive : ∀ q ∈ Ptr.kernelTask :: (us ++ vs), (s.proj Task.id q).isSome := fun q hq =>
    (hL.live q).mpr ((hmem q).mpr (.inr hq))
  obtain ⟨s₂, x, hx, r, hn, hp, hstep⟩ := exists_unlinked
    ((hL.live _).mpr ((hmem _).mpr (.inl rfl))) (hlive _ hpl) (hlive _ hnl)
    (fun he => hfresh (he ▸ hpl))
  obtain ⟨hfreed, hbn, hblocks, hheap⟩ := hI.kfree_blocks r hx
  have hpr : ∀ {β : Type} (f : Task → β), s₂.proj f = s.proj f →
      ((s₂.dropBlock x.stackBase).dropBlock a).proj f =
        update (s.proj f) (.heap a) none := fun f hf => by
    rw [proj_dropBlocks f hbn, hf]
  have hne : ∀ q ∈ Ptr.kernelTask :: (us ++ vs), q ≠ .heap a := fun q hq he => hfresh (he ▸ hq)
  refine ⟨(s₂.dropBlock x.stackBase).dropBlock a, hstep.trans hfreed,
    ⟨⟨r.taskHead.trans hL.head, ?_, ?_, ?_⟩, ?_, ?_, ?_, r.nextPid.trans hI.nextPid, ?_, ?_,
      hheap⟩, r.currentTask⟩
  · refine (hL.seg.unlink hnd hk hk).congr (fun q hq => ?_) (fun q hq => ?_)
    · rw [nextOf, proj_dropBlocks _ hbn, update_of_ne (hne q hq), ← hn]
      rfl
    · have hq' : q ∈ Ptr.kernelTask :: (us ++ vs) := by
        simp only [mem_append, mem_cons, not_mem_nil] at hq ⊢
        tauto
      rw [prevOf, proj_dropBlocks _ hbn, update_of_ne (hne q hq'), ← hp]
      rfl
  · refine nodup_cons.mpr ⟨fun hm => hk ?_, (nodup_cons.mp (nodup_middle.mp hnd)).2⟩
    simp only [mem_append, mem_cons] at hm ⊢
    tauto
  · intro q
    rw [hpr _ r.id]
    by_cases hq : q = .heap a
    · rw [hq, update_self]
      simpa using hfresh
    · rw [update_of_ne hq, hL.live, hmem]
      simp [hq]
  · have := hI.length
    simp only [length_append, length_cons] at this ⊢
    omega
  · have := (hmem _).mp hI.current
    rw [show ((s₂.dropBlock x.stackBase).dropBlock a).currentTask = s.currentTask from
      r.currentTask]
    exact this.resolve_left hcur
  · rw [hpr _ r.id]
    exact hI.ids.erase
  · rw [hpr _ r.state, show ((s₂.dropBlock x.stackBase).dropBlock a).currentTask = s.currentTask
      from r.currentTask]
    exact hI.states.erase
  · rw [hpr _ r.stackBase]
    exact hblocks

end Unlink

/-! ## The reaping loop -/

section Schedule

variable {s : State M} {foreign : Finset ℕ} {created : ℕ} {ts : List Ptr}

/-- The reaping loop ends at the kernel task. -/
lemma Links.reap_nil (hL : Links s ts) (fuel : ℕ) : reap (fuel + 1) s .kernelTask = some s := by
  rw [Sched.reap, if_pos hL.head.symm]

/-- One iteration of the reaping loop, at the task `y` of the list. -/
lemma Links.reap_cons {us vs : List Ptr} {y : Ptr} (hL : Links s (us ++ y :: vs)) (fuel : ℕ) :
    ∃ x, s.get y = some x ∧ y ≠ .kernelTask ∧
      reap (fuel + 1) s y = if x.state = .zombie ∧ y ≠ s.currentTask then
          (unlinkFree s y).bind fun s => reap fuel s (vs.headD .kernelTask)
        else reap fuel s (vs.headD .kernelTask) := by
  obtain ⟨x, hx, hnext⟩ := exists_get_next (seg_append.mp hL.seg).2 (hL.get (by simp))
  have hyk : y ≠ .kernelTask := fun he => by
    have := (nodup_cons.mp hL.nodup).1
    simp [he] at this
  refine ⟨x, hx, hyk, ?_⟩
  rw [Sched.reap, if_neg (by rw [hL.head]; exact hyk), hx, bind_some, hnext]

/-- **The reaping loop**, started behind the tasks `us`, keeps the invariant and the current task.

**Proof sketch.** Induction on the rounds that are left. A zombie other than
the current task is unlinked and freed; any other task joins `us`. -/
lemma Inv.reap {us vs : List Ptr} {fuel : ℕ} (hI : Inv s foreign created (us ++ vs))
    (hf : vs.length < fuel) :
    ∃ s' ts', reap fuel s (vs.headD .kernelTask) = some s' ∧ Inv s' foreign created ts' ∧
      s'.currentTask = s.currentTask := by
  induction fuel generalizing us vs s with
  | zero => simp at hf
  | succ fuel ih =>
    cases vs with
    | nil => exact ⟨s, us ++ [], hI.links.reap_nil fuel, hI, rfl⟩
    | cons y vs =>
      have hf' : vs.length < fuel := by simpa using hf
      obtain ⟨x, hx, hyk, hstep⟩ := hI.links.reap_cons fuel
      change ∃ s' ts', Sched.reap (fuel + 1) s y = some s' ∧ _
      rw [hstep]
      by_cases hz : x.state = .zombie ∧ y ≠ s.currentTask
      · rw [if_pos hz]
        cases y with
        | null => exact absurd rfl (ne_null_of_get hx)
        | kernelTask => exact absurd rfl hyk
        | heap a =>
          obtain ⟨s₁, e₁, hI₁, hc₁⟩ := hI.unlinkFree hz.2.symm
          obtain ⟨s', ts', e, hI', hc⟩ := ih hI₁ hf'
          rw [e₁, bind_some]
          exact ⟨s', ts', e, hI', hc.trans hc₁⟩
      · rw [if_neg hz]
        have hI₁ : Inv s foreign created ((us ++ [y]) ++ vs) := by simpa using hI
        exact ih hI₁ hf'

/-! ## Selection and switch -/

/-- The list entered at one of its tasks. -/
lemma Links.rotate (hL : Links s ts) {c : Ptr} (hc : c ∈ Ptr.kernelTask :: ts) :
    ∃ xs, Seg s.nextOf s.prevOf c xs c ∧ c ∉ xs ∧ xs.length = ts.length ∧
      ∀ q, q ∈ Ptr.kernelTask :: ts ↔ q = c ∨ q ∈ xs := by
  rcases mem_cons.mp hc with rfl | hc
  · exact ⟨ts, hL.seg, (nodup_cons.mp hL.nodup).1, rfl, fun q => mem_cons⟩
  · obtain ⟨us, vs, rfl⟩ := append_of_mem hc
    have hnd := nodup_cons.mp hL.nodup
    have hnd' := nodup_cons.mp (nodup_middle.mp hnd.2)
    refine ⟨vs ++ .kernelTask :: us, hL.seg.rotate, fun hm => ?_, ?_, fun q => ?_⟩
    · have h1 : c ≠ .kernelTask := fun he => hnd.1 (he ▸ hc)
      have h2 := hnd'.1
      simp only [mem_append, mem_cons] at hm h2
      tauto
    · simp only [length_append, length_cons]
      omega
    · simp only [mem_append, mem_cons]
      tauto

/-- A runnable task is not a zombie. -/
lemma Runnable.state_ne_zombie {p : Ptr} {x : Task} (h : Runnable s p) (hx : s.get p = some x) :
    x.state ≠ .zombie := by
  intro hz
  rw [Runnable, proj, hx, map_some, hz] at h
  simp at h

variable (hI : Inv s foreign created ts)

include hI

/-- **The selection** finds a runnable task of the list. -/
lemma Inv.nextTask : ∃ p ∈ Ptr.kernelTask :: ts, nextTask s = some p ∧ Runnable s p := by
  obtain ⟨xs, hseg, hc, hlen, hmem⟩ := hI.links.rotate hI.current
  obtain ⟨cur, hcur⟩ := hI.links.get hI.current
  have hlive : ∀ y ∈ xs, ∃ x, s.get y = some x := fun y hy =>
    hI.links.get ((hmem y).mpr (.inr hy))
  have hfuel : xs.length < loopBound := by
    rw [hlen]
    exact hI.length.trans (Nat.lt_succ_self _)
  rw [Sched.nextTask, hcur, bind_some, ← nextOf_eq hcur]
  rcases selectFrom_spec hseg hlive hc hfuel with ⟨h1, h2⟩ | ⟨p, hp, h1, h2⟩
  · -- no other task can run, so the current task is the kernel task
    have hk : s.currentTask = .kernelTask := by
      rcases (hmem .kernelTask).mp (by simp) with h3 | h3
      · exact h3.symm
      · exact absurd hI.states.kernel (h2 _ h3)
    have hrun : Runnable s s.currentTask := by
      rw [hk]
      exact hI.states.kernel
    have hst : ¬ (s.currentTask = s.currentTask ∧ cur.state ≠ .running ∧ cur.state ≠ .ready) := by
      rw [Runnable, proj, hcur] at hrun
      simp only [map_some, Option.some.injEq] at hrun
      tauto
    rw [h1, map_some, if_neg hst]
    exact ⟨_, hI.current, rfl, hrun⟩
  · have hne : p ≠ s.currentTask := fun he => hc (he ▸ hp)
    rw [h1, map_some, if_neg (fun h => hne h.1)]
    exact ⟨p, (hmem p).mpr (.inr hp), rfl, h2⟩

/-- The state of a task that is switched out. -/
def switchedOut (x : Task) : Task := if x.state = .running then { x with state := .ready } else x

omit hI in
lemma switchedOut_state_ne (x : Task) : (switchedOut x).state ≠ .running := by
  unfold switchedOut
  split_ifs with h
  · simp
  · exact h

/-- A change of the current task while no task is running. -/
lemma Inv.setCurrent {p : Ptr} (hp : p ∈ Ptr.kernelTask :: ts)
    (hr : ∀ q, s.proj Task.state q ≠ some .running) :
    Inv { s with currentTask := p } foreign created ts :=
  hI.of_get_eq (by funext q; cases q <;> rfl) hp
    ⟨hI.states.kernel, fun q hq => absurd hq (hr q)⟩ rfl rfl rfl
    ⟨hI.heap.holds, hI.heap.disjoint⟩

/-- **The switch** to a runnable task. -/
lemma Inv.switchTo {p : Ptr} (hp : p ∈ Ptr.kernelTask :: ts) (hrun : Runnable s p) :
    ∃ s', switchTo s p = some s' ∧ Inv s' foreign created ts ∧ s'.currentTask = p ∧
      Runnable s' p := by
  rw [Sched.switchTo]
  by_cases hc : p ≠ s.currentTask
  · rw [if_pos hc]
    obtain ⟨cur, hcur⟩ := hI.links.get hI.current
    have hout : (s.modify s.currentTask fun x =>
        if x.state = .running then { x with state := .ready } else x) =
        some (s.put s.currentTask (switchedOut cur)) := modify_eq _ hcur
    have hfields : (switchedOut cur).id = cur.id ∧ (switchedOut cur).stackBase = cur.stackBase ∧
        (switchedOut cur).next = cur.next ∧ (switchedOut cur).prev = cur.prev := by
      unfold switchedOut
      split_ifs <;> simp
    have hst : States ((s.put s.currentTask (switchedOut cur)).proj Task.state) s.currentTask := by
      rw [proj_put _ (ne_null_of_get hcur)]
      refine hI.states.update (fun hk => .inl ?_) (fun _ => rfl)
      have hks := hI.states.kernel
      rw [← hk, proj, hcur] at hks
      simp only [map_some, Option.some.injEq] at hks
      unfold switchedOut
      split_ifs with h
      · rfl
      · exact hks.resolve_right h
    have hI₁ := hI.put hcur hfields.1 hfields.2.1 hfields.2.2.1 hfields.2.2.2 hst
    -- between the two writes no task is running
    have hnone : ∀ q, (s.put s.currentTask (switchedOut cur)).proj Task.state q ≠
        some .running := fun q hq => by
      have hqc := hst.running q hq
      rw [hqc, proj, get_put_self (ne_null_of_get hcur)] at hq
      exact switchedOut_state_ne cur (Option.some.inj hq)
    have hI₂ := hI₁.setCurrent hp hnone
    obtain ⟨x, hx⟩ := hI₂.links.get hp
    refine ⟨_, ?_, hI₂.put (t := { x with state := .running }) hx rfl rfl rfl rfl ?_, ?_, ?_⟩
    · rw [hout, bind_some]
      exact modify_eq _ hx
    · rw [proj_put _ (ne_null_of_get hx)]
      exact hI₂.states.update (fun _ => .inr rfl) (fun _ => rfl)
    · rw [put_currentTask]
    · right
      rw [proj, get_put_self (ne_null_of_get hx)]
      rfl
  · rw [if_neg hc]
    exact ⟨s, rfl, hI, (not_not.mp hc).symm, hrun⟩

omit hI in
/-- The steps of `scheduler_schedule` on a task list. -/
lemma Links.schedulerSchedule_eq {cur : Task} (hL : Links s ts)
    (hcur : s.get s.currentTask = some cur) (r : ℕ) :
    schedulerSchedule s r =
      (reap loopBound (s.put s.currentTask { cur with regsPtr := r })
        (ts.headD .kernelTask)).bind fun s =>
      (nextTask s).bind fun p =>
      (switchTo s p).bind fun s =>
      (s.get s.currentTask).map fun cur => (s, cur.regsPtr) := by
  have h0 : ¬ (s.currentTask = .null ∨ s.taskHead = .null) := by
    rw [hL.head]
    simpa using ne_null_of_get hcur
  have hL₁ : Links (s.put s.currentTask { cur with regsPtr := r }) ts := hL.congr
    (put_taskHead ..) (nextOf_put_same hcur rfl) (prevOf_put_same hcur rfl)
    (proj_put_same _ hcur rfl)
  obtain ⟨h, hh, hnext⟩ := exists_get_next hL₁.seg (hL₁.get (by simp))
  rw [Sched.schedulerSchedule, if_neg h0, modify_eq _ hcur, bind_some, hL₁.head, hh,
    bind_some, hnext]

/-- **`scheduler_schedule`** returns the register frame of a task of the list that is not a
zombie; the list keeps the task that was current. -/
lemma Inv.schedulerSchedule (r : ℕ) :
    ∃ s' ctx ts' x, schedulerSchedule s r = some (s', ctx) ∧ Inv s' foreign created ts' ∧
      s.currentTask ∈ Ptr.kernelTask :: ts' ∧ s'.get s'.currentTask = some x ∧
      x.state ≠ .zombie ∧ ctx = x.regsPtr := by
  obtain ⟨cur, hcur⟩ := hI.links.get hI.current
  have hI₁ : Inv (s.put s.currentTask { cur with regsPtr := r }) foreign created ([] ++ ts) :=
    hI.put_same hcur rfl rfl rfl rfl rfl
  obtain ⟨s₂, ts', e₂, hI₂, hc₂⟩ := hI₁.reap
    (hI.length.trans (Nat.lt_succ_self _) : ts.length < loopBound)
  obtain ⟨p, hp, e₃, hrun⟩ := hI₂.nextTask
  obtain ⟨s', e₄, hI', hc', hrun'⟩ := hI₂.switchTo hp hrun
  obtain ⟨x, hx⟩ := hI'.links.get hI'.current
  refine ⟨s', x.regsPtr, ts', x, ?_, hI', ?_, hx, ?_, rfl⟩
  · rw [hI.links.schedulerSchedule_eq hcur, e₂, bind_some, e₃, bind_some, e₄, bind_some, hx]
    rfl
  · rw [put_currentTask] at hc₂
    rw [← hc₂]
    exact hI₂.current
  · rw [hc'] at hx
    exact hrun'.state_ne_zombie hx

/-! ## The other operations -/

/-- `scheduler_tick`. -/
lemma Inv.schedulerTick (r : ℕ) :
    ∃ s' ctx ts' x, schedulerTick s r = some (s', ctx) ∧ Inv s' foreign created ts' ∧
      s.currentTask ∈ Ptr.kernelTask :: ts' ∧ s'.get s'.currentTask = some x ∧
      x.state ≠ .zombie ∧ ctx = x.regsPtr := by
  have hI₀ : Inv { s with tick := u32 (s.tick + 1) } foreign created ts :=
    hI.of_get_eq (by funext p; cases p <;> rfl) hI.current hI.states rfl rfl rfl
      ⟨hI.heap.holds, hI.heap.disjoint⟩
  obtain ⟨cur, hcur⟩ := hI₀.links.get hI₀.current
  have hI₁ := hI₀.put_same (t := { cur with cpuTicks := u32 (cur.cpuTicks + 1) }) hcur rfl rfl
    rfl rfl rfl
  obtain ⟨s', ctx, ts', x, e, h1, h2, h3⟩ := hI₁.schedulerSchedule r
  refine ⟨s', ctx, ts', x, ?_, h1, ?_, h3⟩
  · rw [Sched.schedulerTick, if_neg (ne_null_of_get hcur), modify_eq _ hcur, bind_some, e]
  · rwa [put_currentTask] at h2

/-- `task_exit` marks the current task. -/
lemma Inv.taskExit : ∃ s', taskExit s = some s' ∧ Inv s' foreign created ts := by
  obtain ⟨cur, hcur⟩ := hI.links.get hI.current
  rw [Sched.taskExit, if_neg (ne_null_of_get hcur), hcur, bind_some]
  by_cases hid : cur.id = 0
  · rw [if_pos hid]
    exact ⟨s, rfl, hI⟩
  · rw [if_neg hid, modify_eq _ hcur]
    exact ⟨_, rfl, hI.zombie hcur hid⟩

/-- `SYS_EXIT` marks the current task and schedules. -/
lemma Inv.sysExit (r : ℕ) :
    ∃ s' ctx ts', sysExit s r = some (s', ctx) ∧ Inv s' foreign created ts' := by
  obtain ⟨cur, hcur⟩ := hI.links.get hI.current
  rw [Sched.sysExit, if_neg (ne_null_of_get hcur), hcur, bind_some]
  by_cases hid : cur.id ≠ 0
  · obtain ⟨s', ctx, ts', x, e, h1, -⟩ := (hI.zombie hcur hid).schedulerSchedule r
    rw [if_pos hid, modify_eq _ hcur, bind_some]
    exact ⟨s', ctx, ts', e, h1⟩
  · rw [if_neg hid]
    exact ⟨s, r, ts, rfl, hI⟩

/-- `task_kill`. -/
lemma Inv.taskKill (pid : ℕ) :
    ∃ s' res, taskKill s pid = some (s', res) ∧ Inv s' foreign created ts := by
  have hk := hI.links.head
  rw [Sched.taskKill]
  by_cases h0 : pid = 0
  · rw [if_pos h0]
    exact ⟨s, -1, rfl, hI⟩
  · rw [if_neg h0, if_neg (by rw [hk]; simp)]
    have hseg : Seg s.nextOf s.prevOf s.taskHead ts s.taskHead := by
      rw [hk]
      exact hI.links.seg
    have hfuel : ts.length < loopBound := hI.length.trans (Nat.lt_succ_self _)
    rcases killFrom_cases hseg (by rw [hk]; exact fun y hy => hI.links.get hy)
      (by rw [hk]; exact (nodup_cons.mp hI.links.nodup).1) hfuel with h | ⟨p, x, h1, h2, h3⟩
    · exact ⟨s, -1, h, hI⟩
    · exact ⟨_, 0, h3, hI.zombie h1 (by rw [h2]; exact h0)⟩

end Schedule

end BengalTiger.Sched
