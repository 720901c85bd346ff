import BengalTiger.Sched.Model
import BengalTiger.Lib.Ring
import Mathlib.Data.Finset.Lattice.Lemmas

set_option autoImplicit false

/-!
# The invariant of the scheduler

The invariant speaks about the task objects one field at a time: `State.proj` is a field of all
live objects as a function of the pointer. An assignment changes one such function at one point,
so each part of the invariant is touched only by the assignments to its own field.

## Main definitions

* `Sched.State.proj`, `nextOf`, `prevOf` — a field of all objects.
* `Sched.Ids`, `States`, `Blocks`, `Links` — the parts of the invariant.
* `Sched.Inv` — the invariant.

## Main results

* `Sched.Inv.put` — an assignment to a field outside the links keeps the invariant.
* `Sched.countTasks_eq`, `Sched.killFrom_cases`, `Sched.selectFrom_spec` — the walks end.
-/

namespace BengalTiger.Sched

open Ring Function

variable {M : Allocator}

/-! ## Fields of the objects -/

namespace State

variable {β : Type} {s : State M} {p q : Ptr} {t x : Task}

/-- A field of the live objects. -/
def proj (s : State M) (f : Task → β) (p : Ptr) : Option β := (s.get p).map f

lemma get_put_self (hp : p ≠ .null) : (s.put p t).get p = some t := by
  cases p with
  | null => exact absurd rfl hp
  | kernelTask => rfl
  | heap a => exact update_self _ _ _

/-- Writing a task keeps the others. -/
lemma get_put_of_ne (h : q ≠ p) : (s.put p t).get q = s.get q := by
  cases p with
  | null => rfl
  | kernelTask =>
    cases q with
    | null => rfl
    | kernelTask => exact absurd rfl h
    | heap b => rfl
  | heap a =>
    cases q with
    | null => rfl
    | kernelTask => rfl
    | heap b => exact update_of_ne (fun he => h (congrArg Ptr.heap he)) _ _

lemma ne_null_of_get (h : s.get p = some x) : p ≠ .null := by
  rintro rfl
  cases h

/-- Storing an object changes each field at its pointer. -/
lemma proj_put (f : Task → β) (hp : p ≠ .null) :
    (s.put p t).proj f = update (s.proj f) p (some (f t)) := by
  funext q
  by_cases hq : q = p
  · rw [hq, update_self, proj, get_put_self hp]
    rfl
  · rw [update_of_ne hq, proj, get_put_of_ne hq]
    rfl

/-- A field that the stored object keeps is unchanged. -/
lemma proj_put_same (f : Task → β) (hx : s.get p = some x) (ht : f t = f x) :
    (s.put p t).proj f = s.proj f := by
  rw [proj_put f (ne_null_of_get hx), ht]
  refine update_eq_self_iff.mpr ?_
  rw [proj, hx]
  rfl

/-- `p->next` for every object. -/
def nextOf (s : State M) (p : Ptr) : Ptr := (s.proj Task.next p).getD .null

/-- `p->prev` for every object. -/
def prevOf (s : State M) (p : Ptr) : Ptr := (s.proj Task.prev p).getD .null

lemma nextOf_eq (h : s.get p = some x) : s.nextOf p = x.next := by
  rw [nextOf, proj, h]
  rfl

lemma prevOf_eq (h : s.get p = some x) : s.prevOf p = x.prev := by
  rw [prevOf, proj, h]
  rfl

lemma nextOf_put (hp : p ≠ .null) : (s.put p t).nextOf = update s.nextOf p t.next := by
  funext q
  rw [nextOf, proj_put _ hp]
  exact apply_update (fun _ o => Option.getD o .null) (s.proj Task.next) p (some t.next) q

lemma prevOf_put (hp : p ≠ .null) : (s.put p t).prevOf = update s.prevOf p t.prev := by
  funext q
  rw [prevOf, proj_put _ hp]
  exact apply_update (fun _ o => Option.getD o .null) (s.proj Task.prev) p (some t.prev) q

lemma nextOf_put_same (hx : s.get p = some x) (ht : t.next = x.next) :
    (s.put p t).nextOf = s.nextOf := by
  unfold nextOf
  rw [proj_put_same _ hx ht]

lemma prevOf_put_same (hx : s.get p = some x) (ht : t.prev = x.prev) :
    (s.put p t).prevOf = s.prevOf := by
  unfold prevOf
  rw [proj_put_same _ hx ht]

/-- An assignment to a live object. -/
lemma modify_eq (f : Task → Task) (h : s.get p = some x) :
    s.modify p f = some (s.put p (f x)) := by
  rw [modify, h]
  rfl

end State

open State

/-- Two states that differ in the links of the task objects only. -/
structure Relinked (s s' : State M) : Prop where
  heap : s'.heap = s.heap
  owned : s'.owned = s.owned
  currentTask : s'.currentTask = s.currentTask
  taskHead : s'.taskHead = s.taskHead
  nextPid : s'.nextPid = s.nextPid
  id : s'.proj Task.id = s.proj Task.id
  state : s'.proj Task.state = s.proj Task.state
  stackBase : s'.proj Task.stackBase = s.proj Task.stackBase

lemma Relinked.trans {s s' s'' : State M} (h : Relinked s s') (h' : Relinked s' s'') :
    Relinked s s'' :=
  ⟨h'.heap.trans h.heap, h'.owned.trans h.owned, h'.currentTask.trans h.currentTask,
    h'.taskHead.trans h.taskHead, h'.nextPid.trans h.nextPid, h'.id.trans h.id,
    h'.state.trans h.state, h'.stackBase.trans h.stackBase⟩

/-- Storing an object with other links. -/
lemma relinked_put {s : State M} {p : Ptr} {x t : Task} (h : s.get p = some x) (h1 : t.id = x.id)
    (h2 : t.state = x.state) (h3 : t.stackBase = x.stackBase) : Relinked s (s.put p t) := by
  have hp := ne_null_of_get h
  refine ⟨?_, ?_, ?_, ?_, ?_, proj_put_same _ h h1, proj_put_same _ h h2, proj_put_same _ h h3⟩ <;>
    cases p <;> rfl

/-! ## The parts of the invariant -/

/-- Process ids: the kernel task has id 0, ids are distinct and come from `created` creations. -/
structure Ids (ids : Ptr → Option ℕ) (created : ℕ) : Prop where
  kernel : ids .kernelTask = some 0
  inj : ∀ p q i, ids p = some i → ids q = some i → p = q
  le : ∀ p i, ids p = some i → i ≤ created

/-- Task states: the kernel task can run, and only the current task is running. -/
structure States (st : Ptr → Option TaskState) (cur : Ptr) : Prop where
  kernel : st .kernelTask = some .ready ∨ st .kernelTask = some .running
  running : ∀ p, st p = some .running → p = cur

/-- Blocks: the scheduler owns exactly one block for each task object and one for its stack. -/
structure Blocks (stack : Ptr → Option ℕ) (owned : Finset ℕ) : Prop where
  ne_zero : ∀ a b, stack (.heap a) = some b → a ≠ 0 ∧ b ≠ 0
  inj : ∀ a a' b, stack (.heap a) = some b → stack (.heap a') = some b → a = a'
  apart : ∀ a a' b b', stack (.heap a) = some b → stack (.heap a') = some b' → b ≠ a'
  mem : ∀ c, c ∈ owned ↔ ∃ a b, stack (.heap a) = some b ∧ (c = a ∨ c = b)

/-- Links: the list from the kernel task through `ts` back to it is doubly linked and holds exactly
the live objects. -/
structure Links (s : State M) (ts : List Ptr) : Prop where
  head : s.taskHead = .kernelTask
  seg : Seg s.nextOf s.prevOf .kernelTask ts .kernelTask
  nodup : (Ptr.kernelTask :: ts).Nodup
  live : ∀ p, (s.proj Task.id p).isSome ↔ p ∈ Ptr.kernelTask :: ts

/-- The heap: the allocator knows the blocks of the scheduler and of the other clients. -/
structure HeapInv (s : State M) (foreign : Finset ℕ) : Prop where
  holds : M.Holds s.heap (s.owned ∪ foreign)
  disjoint : Disjoint s.owned foreign

/-- **The invariant** of the scheduler with the tasks `ts` besides the kernel task, after `created`
creations, while other clients hold the blocks `foreign`. -/
structure Inv (s : State M) (foreign : Finset ℕ) (created : ℕ) (ts : List Ptr) : Prop where
  links : Links s ts
  length : ts.length < maxTasks
  current : s.currentTask ∈ Ptr.kernelTask :: ts
  ids : Ids (s.proj Task.id) created
  nextPid : s.nextPid = u32 (created + 1)
  states : States (s.proj Task.state) s.currentTask
  blocks : Blocks (s.proj Task.stackBase) s.owned
  heap : HeapInv s foreign

section Links

variable {s : State M} {ts : List Ptr} {p : Ptr}

/-- The pointers of the list lead to objects. -/
lemma Links.get (h : Links s ts) (hp : p ∈ Ptr.kernelTask :: ts) : ∃ x, s.get p = some x := by
  have := (h.live p).mpr hp
  rw [proj, Option.isSome_map] at this
  exact Option.isSome_iff_exists.mp this

/-- The links of states that agree in links and ids. -/
lemma Links.congr {s' : State M} (h : Links s ts) (hh : s'.taskHead = s.taskHead)
    (hn : s'.nextOf = s.nextOf) (hp : s'.prevOf = s.prevOf)
    (hi : s'.proj Task.id = s.proj Task.id) : Links s' ts :=
  ⟨hh.trans h.head, by rw [hn, hp]; exact h.seg, h.nodup, by rw [hi]; exact h.live⟩

end Links

/-! ## Assignments to other fields -/

section Put

variable {s : State M} {foreign : Finset ℕ} {created : ℕ} {ts : List Ptr} {p : Ptr} {x t : Task}

/-- A task gets a state that it may have. -/
lemma States.update {st : Ptr → Option TaskState} {cur : Ptr} (h : States st cur) {v : TaskState}
    (hk : p = .kernelTask → v = .ready ∨ v = .running) (hr : v = .running → p = cur) :
    States (update st p (some v)) cur := by
  constructor
  · by_cases hp : p = .kernelTask
    · rw [← hp, update_self]
      exact (hk hp).imp (congrArg some) (congrArg some)
    · rw [update_of_ne (Ne.symm hp)]
      exact h.kernel
  · intro q hq
    by_cases hqp : q = p
    · rw [hqp, update_self] at hq
      exact hqp.trans (hr (Option.some.inj hq))
    · rw [update_of_ne hqp] at hq
      exact h.running q hq

lemma put_heap (s : State M) (p : Ptr) (t : Task) : (s.put p t).heap = s.heap := by
  cases p <;> rfl

lemma put_owned (s : State M) (p : Ptr) (t : Task) : (s.put p t).owned = s.owned := by
  cases p <;> rfl

lemma put_currentTask (s : State M) (p : Ptr) (t : Task) :
    (s.put p t).currentTask = s.currentTask := by
  cases p <;> rfl

lemma put_taskHead (s : State M) (p : Ptr) (t : Task) : (s.put p t).taskHead = s.taskHead := by
  cases p <;> rfl

lemma put_nextPid (s : State M) (p : Ptr) (t : Task) : (s.put p t).nextPid = s.nextPid := by
  cases p <;> rfl

/-- An assignment to `state`, `cpu_ticks` or `regs_ptr` of a live object keeps the invariant when
the states stay admissible. -/
lemma Inv.put (hI : Inv s foreign created ts) (hx : s.get p = some x) (h1 : t.id = x.id)
    (h2 : t.stackBase = x.stackBase) (h3 : t.next = x.next) (h4 : t.prev = x.prev)
    (hst : States ((s.put p t).proj Task.state) s.currentTask) :
    Inv (s.put p t) foreign created ts := by
  have hid := proj_put_same (t := t) Task.id hx h1
  refine ⟨hI.links.congr (put_taskHead ..) (nextOf_put_same hx h3) (prevOf_put_same hx h4) hid,
    hI.length, ?_, ?_, ?_, ?_, ?_, ?_⟩
  · rw [put_currentTask]
    exact hI.current
  · rw [hid]
    exact hI.ids
  · rw [put_nextPid]
    exact hI.nextPid
  · rw [put_currentTask]
    exact hst
  · rw [proj_put_same _ hx h2, put_owned]
    exact hI.blocks
  · exact ⟨by rw [put_heap, put_owned]; exact hI.heap.holds, by
      rw [put_owned]
      exact hI.heap.disjoint⟩

/-- A live task becomes a zombie. -/
lemma Inv.zombie (hI : Inv s foreign created ts) (hx : s.get p = some x) (hid : x.id ≠ 0) :
    Inv (s.put p { x with state := .zombie }) foreign created ts := by
  refine hI.put hx rfl rfl rfl rfl ?_
  rw [proj_put _ (ne_null_of_get hx)]
  refine hI.states.update (fun hp => absurd ?_ hid) (fun h => by cases h)
  have hk := hI.ids.kernel
  rw [← hp, proj, hx] at hk
  exact Option.some.inj hk

/-- An assignment that keeps the state as well. -/
lemma Inv.put_same (hI : Inv s foreign created ts) (hx : s.get p = some x) (h1 : t.id = x.id)
    (h2 : t.stackBase = x.stackBase) (h3 : t.next = x.next) (h4 : t.prev = x.prev)
    (h5 : t.state = x.state) : Inv (s.put p t) foreign created ts :=
  hI.put hx h1 h2 h3 h4 (by rw [proj_put_same _ hx h5]; exact hI.states)

end Put

/-! ## Walks along the list -/

section Walks

variable {s : State M} {a b : Ptr} {xs : List Ptr}

/-- A walk stands at an object that points to the next node of the segment. -/
lemma exists_get_next (hseg : Seg s.nextOf s.prevOf a xs b) (ha : ∃ x, s.get a = some x) :
    ∃ x, s.get a = some x ∧ x.next = xs.headD b := by
  obtain ⟨x, hx⟩ := ha
  refine ⟨x, hx, ?_⟩
  rw [← nextOf_eq hx]
  cases xs with
  | nil => exact hseg.1
  | cons y xs => exact hseg.1.1

/-- The walk of `scheduler_get_task_list` counts the tasks. -/
lemma countTasks_eq {fuel c : ℕ} (hseg : Seg s.nextOf s.prevOf a xs s.taskHead)
    (hlive : ∀ y ∈ a :: xs, ∃ x, s.get y = some x) (hh : s.taskHead ∉ xs)
    (hf : xs.length < fuel) : countTasks s fuel a c = some (c + xs.length + 1) := by
  induction fuel generalizing a xs c with
  | zero => simp at hf
  | succ fuel ih =>
    obtain ⟨x, hx, hn⟩ := exists_get_next hseg (hlive a (by simp))
    rw [countTasks, hx, Option.bind_some, hn]
    cases xs with
    | nil => exact if_pos rfl
    | cons y xs =>
      rw [List.headD_cons, if_neg fun he => hh (by simp [he]),
        ih hseg.2 (fun z hz => hlive z (List.mem_cons_of_mem _ hz)) (fun hz => hh (by simp [hz]))
          (by simpa using hf), List.length_cons]
      congr 1
      omega

/-- The walk of `task_kill` finds a task with the id or comes back to the head. -/
lemma killFrom_cases {fuel pid : ℕ} (hseg : Seg s.nextOf s.prevOf a xs s.taskHead)
    (hlive : ∀ y ∈ a :: xs, ∃ x, s.get y = some x) (hh : s.taskHead ∉ xs)
    (hf : xs.length < fuel) :
    killFrom s pid fuel a = some (s, -1) ∨
      ∃ p x, s.get p = some x ∧ x.id = pid ∧
        killFrom s pid fuel a = some (s.put p { x with state := .zombie }, 0) := by
  induction fuel generalizing a xs with
  | zero => simp at hf
  | succ fuel ih =>
    obtain ⟨x, hx, hn⟩ := exists_get_next hseg (hlive a (by simp))
    rw [killFrom, hx, Option.bind_some]
    by_cases hc : x.id = pid ∧ x.state ≠ .zombie
    · rw [if_pos hc, modify_eq _ hx]
      exact .inr ⟨a, x, hx, hc.1, rfl⟩
    rw [if_neg hc, hn]
    cases xs with
    | nil => exact .inl (if_pos rfl)
    | cons y xs =>
      rw [List.headD_cons, if_neg fun he => hh (by simp [he])]
      exact ih hseg.2 (fun z hz => hlive z (List.mem_cons_of_mem _ hz))
        (fun hz => hh (by simp [hz])) (by simpa using hf)

/-- A task that the selection loop accepts. -/
def Runnable (s : State M) (p : Ptr) : Prop :=
  s.proj Task.state p = some .ready ∨ s.proj Task.state p = some .running

/-- The selection loop ends at the first runnable task, or at the current task when there is none
before it. -/
lemma selectFrom_spec {fuel : ℕ} (hseg : Seg s.nextOf s.prevOf a xs s.currentTask)
    (hlive : ∀ y ∈ xs, ∃ x, s.get y = some x) (hc : s.currentTask ∉ xs) (hf : xs.length < fuel) :
    (selectFrom s fuel (s.nextOf a) = some s.currentTask ∧ ∀ y ∈ xs, ¬ Runnable s y) ∨
      ∃ p ∈ xs, selectFrom s fuel (s.nextOf a) = some p ∧ Runnable s p := by
  induction fuel generalizing a xs with
  | zero => simp at hf
  | succ fuel ih =>
    cases xs with
    | nil =>
      rw [hseg.1, selectFrom, if_pos rfl]
      exact .inl ⟨rfl, by simp⟩
    | cons y xs =>
      obtain ⟨⟨h1, -⟩, h2⟩ := hseg
      obtain ⟨x, hx⟩ := hlive y (by simp)
      have hst : s.proj Task.state y = some x.state := by rw [proj, hx]; rfl
      rw [h1, selectFrom, if_neg fun he => hc (by simp [he]), hx, Option.bind_some]
      by_cases hr : x.state ≠ .ready ∧ x.state ≠ .running
      · rw [if_pos hr, ← nextOf_eq hx]
        have hy : ¬ Runnable s y := by
          rw [Runnable, hst]
          simpa using hr
        rcases ih h2 (fun z hz => hlive z (List.mem_cons_of_mem _ hz))
          (fun hz => hc (by simp [hz])) (by simpa using hf) with ⟨h3, h4⟩ | ⟨p, h3, h4⟩
        · exact .inl ⟨h3, by simpa using ⟨hy, h4⟩⟩
        · exact .inr ⟨p, List.mem_cons_of_mem _ h3, h4⟩
      · rw [if_neg hr]
        refine .inr ⟨y, by simp, rfl, ?_⟩
        rw [Runnable, hst]
        simp only [Option.some.injEq]
        tauto

end Walks

end BengalTiger.Sched
