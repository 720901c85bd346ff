import BengalTiger.Sched.Run

set_option autoImplicit false

/-!
# Switching between tasks

Two properties of `scheduler_schedule` as a whole: the order in which it makes runnable tasks
current, and the register frames that it continues with.

The frames are compared with a history of the run. A task enters the history with the initial frame
on its stack when it is created, and again with the frame that the interrupted code passed in each
time the scheduler switches away from it; `resumeFrame` is the last entry of a task.

## Main definitions

* `Sched.Calm` — a ring whose tasks can all run.
* `Sched.scheduleRun` — consecutive calls of `scheduler_schedule`.
* `Sched.Event`, `Sched.resumeFrame` — the history of the frames.
* `Sched.KeepsFrames`, `Sched.Recorded` — the frames agree with an earlier
  state, and with the history.

## Main results

* `Sched.Calm.schedulerSchedule` — one call makes the next task current.
* `Sched.schedulerSchedule_frames` — a call saves one frame and keeps the others.
* `Sched.round_robin_frames` — the order of the tasks, and the frames in every run.
-/

namespace BengalTiger.Sched

open Ring State Function List Option

variable {M : Allocator}

/-! ## The order of the tasks -/

/-- The ring through `ts` in which every task is ready or running. -/
structure Calm (s : State M) (ts : List Ptr) : Prop where
  links : Links s ts
  current : s.currentTask ∈ Ptr.kernelTask :: ts
  runnable : ∀ p ∈ Ptr.kernelTask :: ts, Runnable s p

section Calm

variable {s : State M} {ts : List Ptr} {p : Ptr} {x t : Task}

/-- A runnable task is ready or running. -/
lemma Runnable.state_eq (h : Runnable s p) (hx : s.get p = some x) :
    x.state = .ready ∨ x.state = .running := by
  rw [Runnable, proj, hx] at h
  simpa using h

/-- An assignment to another field than the links, with a state in which the task can run. -/
lemma Calm.put (hC : Calm s ts) (hx : s.get p = some x) (h1 : t.id = x.id) (h2 : t.next = x.next)
    (h3 : t.prev = x.prev) (h4 : t.state = .ready ∨ t.state = .running) :
    Calm (s.put p t) ts := by
  refine ⟨hC.links.congr (put_taskHead ..) (nextOf_put_same hx h2) (prevOf_put_same hx h3)
    (proj_put_same _ hx h1), ?_, fun q hq => ?_⟩
  · rw [put_currentTask]
    exact hC.current
  · rw [Runnable, proj_put _ (ne_null_of_get hx)]
    by_cases hqp : q = p
    · rw [hqp, update_self]
      exact h4.imp (congrArg some) (congrArg some)
    · rw [update_of_ne hqp]
      exact hC.runnable q hq

/-- The successor of the current task is in the ring. -/
lemma Calm.next_mem (hC : Calm s ts) : s.nextOf s.currentTask ∈ Ptr.kernelTask :: ts := by
  obtain ⟨xs, hseg, -, -, hmem⟩ := hC.links.rotate hC.current
  have h := hseg.next_mem
  rw [mem_append, mem_singleton] at h
  exact (hmem _).mpr h.symm

/-- **Without zombies** the reaping loop only walks along the list.

**Proof sketch.** Induction on the rounds, as for `Inv.reap`; no task is a zombie, so each joins
the tasks behind the walk. -/
lemma Calm.reap {us vs : List Ptr} {fuel : ℕ} (hC : Calm s (us ++ vs)) (hf : vs.length < fuel) :
    reap fuel s (vs.headD .kernelTask) = some s := by
  induction fuel generalizing us vs with
  | zero => simp at hf
  | succ fuel ih =>
    cases vs with
    | nil => exact hC.links.reap_nil fuel
    | cons y vs =>
      have hy : y ∈ Ptr.kernelTask :: (us ++ y :: vs) := by simp
      obtain ⟨x, hx, -, hstep⟩ := hC.links.reap_cons fuel
      have hz : ¬ (x.state = .zombie ∧ y ≠ s.currentTask) := fun h =>
        (hC.runnable y hy).state_ne_zombie hx h.1
      have hC' : Calm s ((us ++ [y]) ++ vs) := by simpa using hC
      change Sched.reap (fuel + 1) s y = some s
      rw [hstep, if_neg hz]
      exact ih hC' (by simpa using hf)

/-- The selection stops at the successor of the current task. -/
lemma Calm.nextTask (hC : Calm s ts) : nextTask s = some (s.nextOf s.currentTask) := by
  obtain ⟨cur, hcur⟩ := hC.links.get hC.current
  have hst := (hC.runnable _ hC.current).state_eq hcur
  have hsel : selectFrom s loopBound cur.next = some cur.next := by
    change selectFrom s (maxTasks + 1) cur.next = some cur.next
    rw [selectFrom]
    by_cases h : cur.next = s.currentTask
    · rw [if_pos h]
    · have hn := hC.next_mem
      rw [nextOf_eq hcur] at hn
      obtain ⟨y, hy⟩ := hC.links.get hn
      have hys := (hC.runnable _ hn).state_eq hy
      rw [if_neg h, hy, bind_some, if_neg (by tauto)]
  rw [Sched.nextTask, hcur, bind_some, hsel, map_some, if_neg (by tauto), nextOf_eq hcur]

/-- The switch to a task of the ring. -/
lemma Calm.switchTo (hC : Calm s ts) (hp : p ∈ Ptr.kernelTask :: ts) :
    ∃ s', switchTo s p = some s' ∧ Calm s' ts ∧ s'.currentTask = p ∧ s'.nextOf = s.nextOf := by
  rw [Sched.switchTo]
  by_cases hc : p ≠ s.currentTask
  · obtain ⟨cur, hcur⟩ := hC.links.get hC.current
    have hst := (hC.runnable _ hC.current).state_eq hcur
    have hout : (s.modify s.currentTask fun x =>
        if x.state = .running then { x with state := .ready } else x) =
        some (s.put s.currentTask (switchedOut cur)) := modify_eq _ hcur
    have hfields : (switchedOut cur).id = cur.id ∧ (switchedOut cur).next = cur.next ∧
        (switchedOut cur).prev = cur.prev ∧
        ((switchedOut cur).state = .ready ∨ (switchedOut cur).state = .running) := by
      unfold switchedOut
      split_ifs <;> simp [hst]
    have hC₁ := hC.put hcur hfields.1 hfields.2.1 hfields.2.2.1 hfields.2.2.2
    have hC₂ : Calm { s.put s.currentTask (switchedOut cur) with currentTask := p } ts :=
      ⟨⟨hC₁.links.head, hC₁.links.seg, hC₁.links.nodup, hC₁.links.live⟩, hp, hC₁.runnable⟩
    obtain ⟨x, hx⟩ := hC₂.links.get hp
    rw [if_pos hc, hout, bind_some]
    refine ⟨_, modify_eq _ hx, hC₂.put hx rfl rfl rfl (.inr rfl), put_currentTask .., ?_⟩
    exact (nextOf_put_same (t := { x with state := .running }) hx rfl).trans
      (nextOf_put_same hcur hfields.2.1)
  · rw [if_neg hc]
    exact ⟨s, rfl, hC, (not_not.mp hc).symm, rfl⟩

/-- **One call** of `scheduler_schedule` makes the next task of the ring current. -/
lemma Calm.schedulerSchedule (hC : Calm s ts) (hlen : ts.length < maxTasks) (r : ℕ) :
    ∃ s' ctx, schedulerSchedule s r = some (s', ctx) ∧ Calm s' ts ∧
      s'.currentTask = s.nextOf s.currentTask ∧ s'.nextOf = s.nextOf := by
  obtain ⟨cur, hcur⟩ := hC.links.get hC.current
  have hst := (hC.runnable _ hC.current).state_eq hcur
  have hC₁ : Calm (s.put s.currentTask { cur with regsPtr := r }) ([] ++ ts) :=
    hC.put hcur rfl rfl rfl hst
  have hn₁ : (s.put s.currentTask { cur with regsPtr := r }).nextOf = s.nextOf :=
    nextOf_put_same hcur rfl
  have e₂ := hC₁.reap (hlen.trans (Nat.lt_succ_self _) : ts.length < loopBound)
  have e₃ := hC₁.nextTask
  obtain ⟨s', e₄, hC', hc', hn'⟩ := hC₁.switchTo hC₁.next_mem
  obtain ⟨x, hx⟩ := hC'.links.get hC'.current
  refine ⟨s', x.regsPtr, ?_, hC', ?_, hn'.trans hn₁⟩
  · rw [hC.links.schedulerSchedule_eq hcur, e₂, bind_some, e₃, bind_some, e₄, bind_some, hx]
    rfl
  · rw [hc', hn₁, put_currentTask]

/-- Consecutive calls of `scheduler_schedule` with the given register frames: the task that is
current after each call, and the final state. -/
def scheduleRun (s : State M) : List ℕ → Option (List Ptr × State M)
  | [] => some ([], s)
  | r :: rs =>
    (schedulerSchedule s r).bind fun x =>
      (scheduleRun x.1 rs).map fun y => (x.1.currentTask :: y.1, y.2)

/-- Consecutive calls follow the `next` pointers from the current task.

**Proof sketch.** Induction on the nodes of the segment; every call keeps the links. -/
lemma Calm.scheduleRun {next prev : Ptr → Ptr} {xs : List Ptr} {d : Ptr} {rs : List ℕ}
    (hC : Calm s ts) (hlen : ts.length < maxTasks) (hn : s.nextOf = next)
    (hseg : Seg next prev s.currentTask xs d) (hrs : rs.length = xs.length + 1) :
    ∃ s', scheduleRun s rs = some (xs ++ [d], s') ∧ Calm s' ts ∧ s'.currentTask = d := by
  induction xs generalizing s rs with
  | nil =>
    obtain ⟨r, rfl⟩ := length_eq_one_iff.mp hrs
    obtain ⟨s', ctx, e, hC', hc, -⟩ := hC.schedulerSchedule hlen r
    rw [hn, hseg.1] at hc
    refine ⟨s', ?_, hC', hc⟩
    rw [Sched.scheduleRun, e, bind_some, Sched.scheduleRun, map_some, hc]
    rfl
  | cons y xs ih =>
    obtain ⟨⟨h1, -⟩, h2⟩ := hseg
    cases rs with
    | nil => simp at hrs
    | cons r rs =>
      obtain ⟨s₁, ctx, e, hC₁, hc, hn₁⟩ := hC.schedulerSchedule hlen r
      rw [hn, h1] at hc
      obtain ⟨s', e', hC', hd⟩ := ih hC₁ (hn₁.trans hn) (by rw [hc]; exact h2) (by simpa using hrs)
      refine ⟨s', ?_, hC', hd⟩
      rw [Sched.scheduleRun, e, bind_some, e', map_some, hc]
      rfl

/-- The ring entered at its current task. -/
lemma Links.seg_of_split {us vs : List Ptr} {c : Ptr} (hL : Links s ts)
    (h : Ptr.kernelTask :: ts = us ++ c :: vs) :
    Seg s.nextOf s.prevOf c (vs ++ us) c := by
  cases us with
  | nil =>
    obtain ⟨rfl, rfl⟩ := List.cons.inj h
    rw [append_nil]
    exact hL.seg
  | cons u us =>
    obtain ⟨rfl, rfl⟩ := List.cons.inj h
    exact hL.seg.rotate

end Calm

/-! ## The saved frames -/

/-- The objects of `s'` are objects of `s`, with the same saved frame and the same stack. -/
def KeepsFrames (s s' : State M) : Prop :=
  ∀ p x', s'.get p = some x' →
    ∃ x, s.get p = some x ∧ x'.regsPtr = x.regsPtr ∧ x'.stackBase = x.stackBase

/-- The frames are kept, and so is the current task. -/
structure Keeps (s s' : State M) : Prop where
  current : s'.currentTask = s.currentTask
  frames : KeepsFrames s s'

section Keeps

variable {s s' s'' : State M} {p : Ptr}

lemma KeepsFrames.of_get_eq (h : s'.get = s.get) : KeepsFrames s s' := fun q x' hx =>
  ⟨x', by rw [← h]; exact hx, rfl, rfl⟩

lemma KeepsFrames.trans (h : KeepsFrames s s') (h' : KeepsFrames s' s'') : KeepsFrames s s'' := by
  intro q x'' hx''
  obtain ⟨x', hx', e1, e2⟩ := h' q x'' hx''
  obtain ⟨x, hx, e3, e4⟩ := h q x' hx'
  exact ⟨x, hx, e1.trans e3, e2.trans e4⟩

lemma Keeps.refl (s : State M) : Keeps s s := ⟨rfl, .of_get_eq rfl⟩

lemma Keeps.trans (h : Keeps s s') (h' : Keeps s' s'') : Keeps s s'' :=
  ⟨h'.current.trans h.current, h.frames.trans h'.frames⟩

/-- An assignment to a field other than `regs_ptr` and `stack_base`. -/
lemma keeps_modify {f : Task → Task} (h : s.modify p f = some s')
    (hf : ∀ x, (f x).regsPtr = x.regsPtr ∧ (f x).stackBase = x.stackBase) : Keeps s s' := by
  obtain ⟨x, hx, rfl⟩ := map_eq_some_iff.mp h
  refine ⟨put_currentTask .., fun q y hy => ?_⟩
  by_cases hq : q = p
  · rw [hq, get_put_self (ne_null_of_get hx)] at hy
    cases hy
    exact ⟨x, by rw [hq]; exact hx, hf x⟩
  · rw [get_put_of_ne hq] at hy
    exact ⟨y, hy, rfl, rfl⟩

/-- Freeing a block. -/
lemma keeps_kfree {ptr : ℕ} (h : s.kfree ptr = some s') : Keeps s s' := by
  rw [State.kfree] at h
  split_ifs at h with h1 h2
  · cases h
    exact .refl _
  · cases h
    refine ⟨rfl, fun q x hx => ⟨x, ?_, rfl, rfl⟩⟩
    cases q with
    | null => exact hx
    | kernelTask => exact hx
    | heap a =>
      change update s.tasks ptr none a = some x at hx
      by_cases ha : a = ptr
      · rw [ha, update_self] at hx
        cases hx
      · rw [update_of_ne ha] at hx
        exact hx

lemma keeps_kfreeTask (h : s.kfreeTask p = some s') : Keeps s s' := by
  cases p with
  | null =>
    cases h
    exact .refl _
  | kernelTask => cases h
  | heap a => exact keeps_kfree h

lemma keeps_kzalloc (s : State M) (n : ℕ) : Keeps s (s.kzalloc n).1 :=
  ⟨rfl, .of_get_eq (by funext q; cases q <;> rfl)⟩

/-- Linking a task at the tail keeps the frames. -/
lemma keeps_linkTail (h : linkTail s p = some s') : Keeps s s' := by
  obtain ⟨s₁, e₁, h⟩ := bind_eq_some_iff.mp h
  obtain ⟨h₁, -, h⟩ := bind_eq_some_iff.mp h
  obtain ⟨s₂, e₂, h⟩ := bind_eq_some_iff.mp h
  obtain ⟨h₂, -, h⟩ := bind_eq_some_iff.mp h
  obtain ⟨s₃, e₃, e₄⟩ := bind_eq_some_iff.mp h
  have k₁ := keeps_modify e₁ fun x => ⟨rfl, rfl⟩
  have k₂ := keeps_modify e₂ fun x => ⟨rfl, rfl⟩
  have k₃ := keeps_modify e₃ fun x => ⟨rfl, rfl⟩
  have k₄ := keeps_modify e₄ fun x => ⟨rfl, rfl⟩
  exact ((k₁.trans k₂).trans k₃).trans k₄

/-- Freeing a task keeps the frames of the others. -/
lemma keeps_unlinkFree (h : unlinkFree s p = some s') : Keeps s s' := by
  obtain ⟨x, -, h⟩ := bind_eq_some_iff.mp h
  obtain ⟨s₁, e₁, h⟩ := bind_eq_some_iff.mp h
  obtain ⟨x₁, -, h⟩ := bind_eq_some_iff.mp h
  obtain ⟨s₂, e₂, h⟩ := bind_eq_some_iff.mp h
  obtain ⟨x₂, -, h⟩ := bind_eq_some_iff.mp h
  obtain ⟨s₃, e₃, e₄⟩ := bind_eq_some_iff.mp h
  have k₁ := keeps_modify e₁ fun x => ⟨rfl, rfl⟩
  have k₂ := keeps_modify e₂ fun x => ⟨rfl, rfl⟩
  have k₃ : Keeps s₂ s₃ := by
    split_ifs at e₃ with hb
    · exact keeps_kfree e₃
    · cases e₃
      exact .refl s₂
  exact ((k₁.trans k₂).trans k₃).trans (keeps_kfreeTask e₄)

/-- The reaping loop only removes objects. -/
lemma keeps_reap {fuel : ℕ} (h : reap fuel s p = some s') : Keeps s s' := by
  induction fuel generalizing s p with
  | zero => cases h
  | succ fuel ih =>
    rw [reap] at h
    split_ifs at h with hp
    · cases h
      exact .refl _
    · obtain ⟨x, -, h⟩ := bind_eq_some_iff.mp h
      split_ifs at h with hz
      · obtain ⟨s₁, e₁, h⟩ := bind_eq_some_iff.mp h
        exact (keeps_unlinkFree e₁).trans (ih h)
      · exact ih h

/-- Killing a task keeps the frames. -/
lemma keeps_killFrom {fuel pid : ℕ} {res : ℤ} (h : killFrom s pid fuel p = some (s', res)) :
    Keeps s s' := by
  induction fuel generalizing p with
  | zero => cases h
  | succ fuel ih =>
    rw [killFrom] at h
    obtain ⟨x, -, h⟩ := bind_eq_some_iff.mp h
    split_ifs at h with h1 h2
    · obtain ⟨s₁, e₁, e₂⟩ := map_eq_some_iff.mp h
      cases e₂
      exact keeps_modify e₁ fun x => ⟨rfl, rfl⟩
    · cases h
      exact .refl _
    · exact ih h

/-- `task_kill` keeps the frames. -/
lemma keeps_taskKill {pid : ℕ} {res : ℤ} (h : taskKill s pid = some (s', res)) : Keeps s s' := by
  rw [taskKill] at h
  split_ifs at h with h1 h2
  · cases h
    exact .refl _
  · cases h
    exact .refl _
  · exact keeps_killFrom h

/-- `task_exit` keeps the frames. -/
lemma keeps_taskExit (h : taskExit s = some s') : Keeps s s' := by
  rw [taskExit] at h
  split_ifs at h with h1
  · cases h
    exact .refl _
  · obtain ⟨x, -, h⟩ := bind_eq_some_iff.mp h
    split_ifs at h with h2
    · cases h
      exact .refl _
    · exact keeps_modify h fun x => ⟨rfl, rfl⟩

/-- The switch changes no frame. -/
lemma keepsFrames_switchTo (h : switchTo s p = some s') : KeepsFrames s s' := by
  rw [switchTo] at h
  split_ifs at h with hp
  · obtain ⟨s₁, e₁, e₂⟩ := bind_eq_some_iff.mp h
    have k₁ := keeps_modify e₁ fun x => by split_ifs <;> exact ⟨rfl, rfl⟩
    have k₂ : KeepsFrames s₁ { s₁ with currentTask := p } :=
      .of_get_eq (by funext q; cases q <;> rfl)
    have k₃ := keeps_modify e₂ fun x => ⟨rfl, rfl⟩
    exact (k₁.frames.trans k₂).trans k₃.frames
  · cases h
    exact .of_get_eq rfl

/-- **`scheduler_schedule`** saves the frame `r` in the current task and continues with the frame
saved in the new current task; it changes no other frame. -/
lemma schedulerSchedule_frames {r ctx : ℕ} (h : schedulerSchedule s r = some (s', ctx)) :
    (s' = s ∧ ctx = r) ∨
      ∃ cur x, s.get s.currentTask = some cur ∧
        KeepsFrames (s.put s.currentTask { cur with regsPtr := r }) s' ∧
        s'.get s'.currentTask = some x ∧ ctx = x.regsPtr := by
  rw [schedulerSchedule] at h
  split_ifs at h with h0
  · cases h
    exact .inl ⟨rfl, rfl⟩
  · obtain ⟨s₁, e₁, h⟩ := bind_eq_some_iff.mp h
    obtain ⟨cur, hcur, rfl⟩ := map_eq_some_iff.mp e₁
    obtain ⟨hd, -, h⟩ := bind_eq_some_iff.mp h
    obtain ⟨s₂, e₂, h⟩ := bind_eq_some_iff.mp h
    obtain ⟨p, -, h⟩ := bind_eq_some_iff.mp h
    obtain ⟨s₃, e₃, h⟩ := bind_eq_some_iff.mp h
    obtain ⟨x, hx, e⟩ := map_eq_some_iff.mp h
    cases e
    exact .inr ⟨cur, x, hcur, (keeps_reap e₂).frames.trans (keepsFrames_switchTo e₃), hx, rfl⟩

/-- **`task_create`** keeps the frames of the other tasks; the new task starts with the initial
frame of its stack. -/
lemma taskCreate_frames {name : Option (List UInt8)} {entryPoint : ℕ}
    (h : taskCreate s name entryPoint = some (s', p)) :
    s'.currentTask = s.currentTask ∧ ∀ q x', s'.get q = some x' →
      q = p ∧ x'.regsPtr = initialFrame x'.stackBase ∨
        q ≠ p ∧ ∃ x, s.get q = some x ∧ x'.regsPtr = x.regsPtr := by
  have hnull : ∀ {t : State M}, Keeps s t → t.currentTask = s.currentTask ∧
      ∀ q x', t.get q = some x' → q = .null ∧ x'.regsPtr = initialFrame x'.stackBase ∨
        q ≠ .null ∧ ∃ x, s.get q = some x ∧ x'.regsPtr = x.regsPtr := fun {t} hk => by
    refine ⟨hk.current, fun q x' hx' => .inr ⟨ne_null_of_get hx', ?_⟩⟩
    obtain ⟨x, hx, e, -⟩ := hk.frames q x' hx'
    exact ⟨x, hx, e⟩
  rw [taskCreate] at h
  split_ifs at h with h0
  · cases h
    exact hnull (.refl _)
  · obtain ⟨c, -, h⟩ := bind_eq_some_iff.mp h
    split_ifs at h with h1
    · cases h
      exact hnull (.refl _)
    · rw [allocTask] at h
      have k₁ := keeps_kzalloc s sizeofTask
      have k₂ := k₁.trans (keeps_kzalloc (s.kzalloc sizeofTask).1 stackSize)
      split_ifs at h with h2 h3
      · cases h
        exact hnull k₁
      · obtain ⟨s₃, e₃, e⟩ := map_eq_some_iff.mp h
        cases e
        exact hnull (k₂.trans (keeps_kfree e₃))
      · obtain ⟨s₃, e₃, e⟩ := map_eq_some_iff.mp h
        cases e
        have k₃ := keeps_linkTail e₃
        refine ⟨k₃.current.trans k₂.current, fun q x' hx' => ?_⟩
        obtain ⟨x, hx, e4, e5⟩ := k₃.frames q x' hx'
        by_cases hq : q = .heap (s.kzalloc sizeofTask).2
        · -- the object that `task_create` filled in
          rw [hq, get_put_self (by simp)] at hx
          cases hx
          exact .inl ⟨hq, by rw [e4, e5]; rfl⟩
        · rw [get_put_of_ne hq] at hx
          obtain ⟨y, hy, e6, -⟩ := k₂.frames q x (by cases q <;> exact hx)
          exact .inr ⟨hq, y, hy, e4.trans e6⟩

end Keeps

/-! ## The history of a run -/

/-- What the history of a run says about the frame of a task. -/
inductive Event
  | created (p : Ptr) (frame : ℕ)
  | switchedOut (p : Ptr) (frame : ℕ)

/-- The frame with which a task has to continue, by a history with the newest event first: the one
passed in when it was last switched out, or its initial frame if it never ran. -/
def resumeFrame : List Event → Ptr → Option ℕ
  | [], _ => none
  | .created q frame :: h, p => if p = q then some frame else resumeFrame h p
  | .switchedOut q frame :: h, p => if p = q then some frame else resumeFrame h p

/-- A change of the current task, while the frame `r` was passed in. -/
def switchEvents (s s' : State M) (r : ℕ) : List Event :=
  if s'.currentTask = s.currentTask then [] else [.switchedOut s.currentTask r]

/-- A creation that returned `p`. -/
def createEvents (s' : State M) (p : Ptr) : List Event :=
  (s'.get p).toList.map fun x => .created p (initialFrame x.stackBase)

/-- The events of a step from `r` to `r'`. -/
def Run.events (r r' : Run M) : Op → List Event
  | .create name entryPoint =>
    (taskCreate r.sched name entryPoint).elim [] fun x => createEvents x.1 x.2
  | .sysExit ctx => switchEvents r.sched r'.sched ctx
  | .schedule ctx => switchEvents r.sched r'.sched ctx
  | .tick ctx => switchEvents r.sched r'.sched ctx
  | _ => []

/-- The runs of the scheduler together with their history. Any operation may be taken, so there is
no bound on the number of creations as in `system`. -/
def historySystem (M : Allocator) : System (Run M × List Event) Op where
  init r := (system M).init r.1 ∧ r.2 = []
  step r op r' := r.1.exec op = some r'.1 ∧ r'.2 = r.1.events r'.1 op ++ r.2

/-- The frames saved in the tasks that are not current are those of the history. -/
def Recorded (s : State M) (h : List Event) : Prop :=
  ∀ p x, s.get p = some x → p ≠ s.currentTask → resumeFrame h p = some x.regsPtr

/-- A switch to another task continues with the frame of the history; without a switch the
interrupted code goes on. -/
def Resumes (s s' : State M) (h : List Event) (r ctx : ℕ) : Prop :=
  (s'.currentTask ≠ s.currentTask → resumeFrame h s'.currentTask = some ctx) ∧
    (s'.currentTask = s.currentTask → ctx = r)

section Recorded

variable {s s' s₁ : State M} {h : List Event} {r ctx : ℕ}

lemma Recorded.of_keeps (hR : Recorded s h) (hk : Keeps s s') : Recorded s' h := by
  intro p x' hx' hp
  obtain ⟨x, hx, e, -⟩ := hk.frames p x' hx'
  rw [hk.current] at hp
  rw [hR p x hx hp, e]

lemma switchEvents_of_current (hc : s₁.currentTask = s.currentTask) :
    switchEvents s₁ s' r = switchEvents s s' r := by
  rw [switchEvents, switchEvents, hc]

/-- Nothing happens. -/
lemma Recorded.same (hR : Recorded s h) :
    Resumes s s h r r ∧ Recorded s (switchEvents s s r ++ h) := by
  refine ⟨⟨fun hne => absurd rfl hne, fun _ => rfl⟩, ?_⟩
  rw [switchEvents, if_pos rfl]
  exact hR

/-- **A schedule** resumes the recorded frame, and the history records the frame that it saves. -/
lemma Recorded.schedulerSchedule (hR : Recorded s h) (e : schedulerSchedule s r = some (s', ctx)) :
    Resumes s s' h r ctx ∧ Recorded s' (switchEvents s s' r ++ h) := by
  rcases schedulerSchedule_frames e with ⟨rfl, rfl⟩ | ⟨cur, x, hcur, hk, hx, rfl⟩
  · exact hR.same
  · -- what the objects of the new state had saved before
    have hself : ∀ y, s'.get s.currentTask = some y → y.regsPtr = r := fun y hy => by
      obtain ⟨y', hy', e1, -⟩ := hk _ y hy
      rw [get_put_self (ne_null_of_get hcur)] at hy'
      cases hy'
      exact e1
    have hother : ∀ q y, s'.get q = some y → q ≠ s.currentTask →
        resumeFrame h q = some y.regsPtr := fun q y hy hq => by
      obtain ⟨y', hy', e1, -⟩ := hk _ y hy
      rw [get_put_of_ne hq] at hy'
      rw [hR q y' hy' hq, e1]
    refine ⟨⟨fun hne => hother _ x hx hne, fun he => hself x (by rw [← he]; exact hx)⟩, ?_⟩
    intro q y hy hq
    rw [switchEvents]
    split_ifs with hc
    · rw [hc] at hq
      exact hother q y hy hq
    · by_cases hqc : q = s.currentTask
      · subst hqc
        rw [singleton_append, resumeFrame, if_pos rfl, hself y hy]
      · rw [singleton_append, resumeFrame, if_neg hqc]
        exact hother q y hy hqc

/-- The same after assignments to other fields. -/
lemma Recorded.schedule_of_keeps (hR : Recorded s h) (hk : Keeps s s₁)
    (e : Sched.schedulerSchedule s₁ r = some (s', ctx)) :
    Resumes s s' h r ctx ∧ Recorded s' (switchEvents s s' r ++ h) := by
  obtain ⟨h1, h2⟩ := (hR.of_keeps hk).schedulerSchedule e
  rw [switchEvents_of_current hk.current] at h2
  rw [Resumes, hk.current] at h1
  exact ⟨h1, h2⟩

/-- A timer tick is recorded. -/
lemma Recorded.schedulerTick (hR : Recorded s h) (e : schedulerTick s r = some (s', ctx)) :
    Resumes s s' h r ctx ∧ Recorded s' (switchEvents s s' r ++ h) := by
  have k₀ : Keeps s { s with tick := u32 (s.tick + 1) } :=
    ⟨rfl, .of_get_eq (by funext q; cases q <;> rfl)⟩
  rw [Sched.schedulerTick] at e
  split_ifs at e with hc
  · exact hR.schedule_of_keeps k₀ e
  · obtain ⟨s₁, e₁, e⟩ := bind_eq_some_iff.mp e
    exact hR.schedule_of_keeps (k₀.trans (keeps_modify e₁ fun x => ⟨rfl, rfl⟩)) e

/-- The exit of a task is recorded. -/
lemma Recorded.sysExit (hR : Recorded s h) (e : sysExit s r = some (s', ctx)) :
    Resumes s s' h r ctx ∧ Recorded s' (switchEvents s s' r ++ h) := by
  rw [Sched.sysExit] at e
  split_ifs at e with hc
  · cases e
    exact hR.same
  · obtain ⟨cur, -, e⟩ := bind_eq_some_iff.mp e
    split_ifs at e with hid
    · obtain ⟨s₁, e₁, e⟩ := bind_eq_some_iff.mp e
      exact hR.schedule_of_keeps (keeps_modify e₁ fun x => ⟨rfl, rfl⟩) e
    · cases e
      exact hR.same

/-- **A creation** records the initial frame of the new task. -/
lemma Recorded.taskCreate {name : Option (List UInt8)} {entryPoint : ℕ} {p : Ptr}
    (hR : Recorded s h) (e : taskCreate s name entryPoint = some (s', p)) :
    Recorded s' (createEvents s' p ++ h) := by
  obtain ⟨hc, hf⟩ := taskCreate_frames e
  intro q x' hx' hq
  rw [hc] at hq
  rcases hf q x' hx' with ⟨rfl, h1⟩ | ⟨hqp, x, hx, h1⟩
  · rw [createEvents, hx', toList_some, map_singleton, singleton_append,
      resumeFrame, if_pos rfl, h1]
  · rw [createEvents]
    cases hg : s'.get p with
    | none =>
      rw [h1]
      exact hR q x hx hq
    | some y =>
      rw [toList_some, map_singleton, singleton_append, resumeFrame, if_neg hqp, h1]
      exact hR q x hx hq

/-- **Every step** of a run keeps the history in agreement with the saved frames. -/
lemma Recorded.exec {r r' : Run M} {op : Op} (hR : Recorded r.sched h) (e : r.exec op = some r') :
    Recorded r'.sched (r.events r' op ++ h) := by
  cases op with
  | create name entryPoint =>
    obtain ⟨⟨s', p⟩, e₁, rfl⟩ := map_eq_some_iff.mp e
    rw [Run.events, e₁]
    exact hR.taskCreate e₁
  | kill pid =>
    obtain ⟨⟨s', res⟩, e₁, rfl⟩ := map_eq_some_iff.mp e
    exact hR.of_keeps (keeps_taskKill e₁)
  | exit =>
    obtain ⟨s', e₁, rfl⟩ := map_eq_some_iff.mp e
    exact hR.of_keeps (keeps_taskExit e₁)
  | sysExit ctx =>
    obtain ⟨⟨s', c⟩, e₁, rfl⟩ := map_eq_some_iff.mp e
    exact (hR.sysExit e₁).2
  | schedule ctx =>
    obtain ⟨⟨s', c⟩, e₁, rfl⟩ := map_eq_some_iff.mp e
    exact (hR.schedulerSchedule e₁).2
  | tick ctx =>
    obtain ⟨⟨s', c⟩, e₁, rfl⟩ := map_eq_some_iff.mp e
    exact (hR.schedulerTick e₁).2
  | foreignAlloc n =>
    cases e
    exact hR.of_keeps ⟨rfl, .of_get_eq (by funext q; cases q <;> rfl)⟩
  | foreignFree ptr =>
    cases e
    exact hR.of_keeps ⟨rfl, .of_get_eq (by funext q; cases q <;> rfl)⟩

end Recorded

/-- In every run the history agrees with the saved frames. -/
lemma recorded_of_reachable {r : Run M} {h : List Event}
    (hr : (historySystem M).Reachable (r, h)) : Recorded r.sched h := by
  refine hr.invariant (fun x => Recorded x.1.sched x.2) ?_ ?_
  · rintro ⟨r, h⟩ ⟨⟨s, ht, -, -, hs, -⟩, -⟩ p x hx hp
    dsimp only at hs hx hp
    rw [hs] at hx hp
    cases p with
    | null => cases hx
    | kernelTask => exact absurd rfl hp
    | heap a =>
      change s.tasks a = some x at hx
      rw [ht] at hx
      cases hx
  · rintro ⟨r, h⟩ op ⟨r', h'⟩ hR ⟨he, hh⟩
    dsimp only at hh he
    rw [hh]
    exact hR.exec he

/-- **Round-robin order and context preservation.**

In a ring of tasks that are all ready or running, as many consecutive calls of
`scheduler_schedule` as there are tasks, with any register frames, make current first the tasks
behind the current one, then those before it and last the current task itself, so every task
exactly once and in ring order.

In every run, with tasks created, killed, exiting and reaped in between, when `scheduler_schedule`
switches to another task it returns the frame that was passed in when that task was last switched
out, or the initial frame on its stack if it never ran; when it does not switch, it returns the
frame passed in. This holds for calls by the timer tick and by the exit system call as well. In
the runs of `system` these calls always return.

**Proof sketch.** In such a ring nothing is reaped and the selection stops at the successor of the
current task (`Calm.schedulerSchedule`), so the calls follow the links. For the frames, every
operation other than a creation and a schedule keeps the frames of the objects that are left, a
schedule saves the frame of the task that was current, and a creation sets one initial frame; the
history records exactly these (`Recorded.exec`). -/
theorem round_robin_frames (hM : stackSize ≤ M.maxRequest) :
    (∀ (s : State M) (ts us vs : List Ptr) (rs : List ℕ), Links s ts →
      (Ptr.kernelTask :: ts).length ≤ maxTasks →
      (∀ p ∈ Ptr.kernelTask :: ts, Runnable s p) →
      Ptr.kernelTask :: ts = us ++ s.currentTask :: vs →
      rs.length = (Ptr.kernelTask :: ts).length →
      ∃ s', scheduleRun s rs = some (vs ++ us ++ [s.currentTask], s') ∧
        s'.currentTask = s.currentTask) ∧
    (∀ (r : Run M) (h : List Event), (historySystem M).Reachable (r, h) → ∀ frame,
      ∀ res ∈ [schedulerSchedule r.sched frame, schedulerTick r.sched frame,
          sysExit r.sched frame],
        (∀ s' ctx, res = some (s', ctx) → Resumes r.sched s' h frame ctx) ∧
          ((system M).Reachable r → res.isSome)) := by
  refine ⟨fun s ts us vs rs hL hlen hrun hsplit hrs => ?_, fun r h hr frame res hres => ⟨?_, ?_⟩⟩
  · have hcur : s.currentTask ∈ Ptr.kernelTask :: ts := by
      rw [hsplit]
      simp
    have hcount : (vs ++ us).length + 1 = (Ptr.kernelTask :: ts).length := by
      rw [hsplit]
      simp only [length_append, length_cons]
      omega
    have hC : Calm s ts := ⟨hL, hcur, hrun⟩
    obtain ⟨s', e, -, hc⟩ :=
      hC.scheduleRun hlen rfl (hL.seg_of_split hsplit) (hrs.trans hcount.symm)
    exact ⟨s', e, hc⟩
  · intro s' ctx e
    have hR := recorded_of_reachable hr
    simp only [mem_cons, not_mem_nil, or_false] at hres
    rcases hres with rfl | rfl | rfl
    · exact (hR.schedulerSchedule e).1
    · exact (hR.schedulerTick e).1
    · exact (hR.sysExit e).1
  · intro hs
    obtain ⟨ts, hI⟩ := inv_of_reachable hM hs
    simp only [mem_cons, not_mem_nil, or_false] at hres
    rcases hres with rfl | rfl | rfl
    · obtain ⟨s', ctx, -, -, e, -⟩ := hI.schedulerSchedule frame
      rw [e]
      rfl
    · obtain ⟨s', ctx, -, -, e, -⟩ := hI.schedulerTick frame
      rw [e]
      rfl
    · obtain ⟨s', ctx, -, e, -⟩ := hI.sysExit frame
      rw [e]
      rfl

/-- The ring of the kernel task and one ready task with its object at 4 MB. -/
def pairState : State (kernelHeap taskArena) where
  heap := bootState.heap
  owned := ∅
  tasks := update (fun _ => none) 4194304 (some
    { id := 1, name := [], state := .ready, cpuTicks := 0, regsPtr := 4202424,
      stackBase := 4194400, next := .kernelTask, prev := .kernelTask })
  kernelTask :=
    { id := 0, name := [], state := .running, cpuTicks := 0, regsPtr := 0, stackBase := 0,
      next := .heap 4194304, prev := .heap 4194304 }
  currentTask := .kernelTask
  taskHead := .kernelTask
  nextPid := 2
  tick := 0

lemma links_pairState : Links pairState [.heap 4194304] := by
  refine ⟨rfl, ⟨⟨rfl, rfl⟩, rfl, rfl⟩, by simp, fun p => ?_⟩
  cases p with
  | null => simp [proj, State.get]
  | kernelTask => simp [proj, State.get]
  | heap a =>
    by_cases ha : a = 4194304
    · subst ha
      simp [proj, State.get, pairState]
    · simp [proj, State.get, pairState, ha]

/-- Two calls run the two tasks of a ring in turn, and right after `scheduler_init` a schedule
resumes what the history says. -/
theorem round_robin_frames_pair :
    (∃ s', scheduleRun pairState [100, 200] = some ([.heap 4194304, .kernelTask], s') ∧
      s'.currentTask = .kernelTask) ∧
    (∀ s' ctx, schedulerSchedule bootRun.sched 100 = some (s', ctx) →
      Resumes bootRun.sched s' [] 100 ctx) ∧
    (schedulerSchedule bootRun.sched 100).isSome := by
  have hM : stackSize ≤ heapMaxSize := by decide
  have h := round_robin_frames (M := kernelHeap taskArena) hM
  have hboot := h.2 bootRun [] (.init ⟨bootRun_init, rfl⟩) 100 _ (mem_cons_self ..)
  refine ⟨h.1 pairState [.heap 4194304] [] [.heap 4194304] [100, 200] links_pairState (by decide)
    (fun p hp => ?_) rfl rfl, hboot.1, hboot.2 (.init bootRun_init)⟩
  rcases mem_cons.mp hp with rfl | hp
  · exact .inr rfl
  · rw [mem_singleton.mp hp]
    exact .inl rfl

end BengalTiger.Sched
