import BengalTiger.Sched.Inv

set_option autoImplicit false

/-!
# The scheduler operations keep the invariant

Linking a task in, allocating and freeing blocks, and `task_create`: started in a state with the
invariant, it returns and ends in a state with the invariant.

## Main results

* `Sched.linkTail_spec` — linking a task in.
* `Sched.Inv.taskCreate` — `task_create` returns and keeps the invariant.
-/

namespace BengalTiger.Sched

open Ring State Function

variable {M : Allocator}

/-! ## Assignments to links -/

section Assign

variable {s : State M} {p : Ptr}

lemma exists_get_of_live (h : (s.proj Task.id p).isSome) : ∃ x, s.get p = some x := by
  rw [proj, Option.isSome_map] at h
  exact Option.isSome_iff_exists.mp h

/-- `p->next = v`. -/
lemma modify_next (h : (s.proj Task.id p).isSome) (v : Ptr) :
    ∃ s', (s.modify p fun x => { x with next := v }) = some s' ∧ Relinked s s' ∧
      s'.nextOf = update s.nextOf p v ∧ s'.prevOf = s.prevOf := by
  obtain ⟨x, hx⟩ := exists_get_of_live h
  exact ⟨_, modify_eq _ hx, relinked_put hx rfl rfl rfl, nextOf_put (ne_null_of_get hx),
    prevOf_put_same hx rfl⟩

/-- `p->prev = v`. -/
lemma modify_prev (h : (s.proj Task.id p).isSome) (v : Ptr) :
    ∃ s', (s.modify p fun x => { x with prev := v }) = some s' ∧ Relinked s s' ∧
      s'.prevOf = update s.prevOf p v ∧ s'.nextOf = s.nextOf := by
  obtain ⟨x, hx⟩ := exists_get_of_live h
  exact ⟨_, modify_eq _ hx, relinked_put hx rfl rfl rfl, prevOf_put (ne_null_of_get hx),
    nextOf_put_same hx rfl⟩

/-- **Linking a task in** before the head of the list. -/
lemma linkTail_spec {t : Ptr} (ht : (s.proj Task.id t).isSome)
    (hh : (s.proj Task.id s.taskHead).isSome) (hne : s.taskHead ≠ t)
    (hp : (s.proj Task.id (s.prevOf s.taskHead)).isSome) :
    ∃ s', linkTail s t = some s' ∧ Relinked s s' ∧
      s'.nextOf = update (update s.nextOf t s.taskHead) (s.prevOf s.taskHead) t ∧
      s'.prevOf =
        update (update s.prevOf t (s.prevOf s.taskHead)) s.taskHead t := by
  obtain ⟨s₁, e₁, r₁, n₁, p₁⟩ := modify_next ht s.taskHead
  obtain ⟨h₁, g₁⟩ := exists_get_of_live (s := s₁) (p := s₁.taskHead) (by
    rw [r₁.id, r₁.taskHead]; exact hh)
  have hh₁ : h₁.prev = s.prevOf s.taskHead := by rw [← prevOf_eq g₁, p₁, r₁.taskHead]
  obtain ⟨s₂, e₂, r₂, p₂, n₂⟩ := modify_prev (s := s₁) (p := t) (by rw [r₁.id]; exact ht) h₁.prev
  have r₁₂ := r₁.trans r₂
  obtain ⟨h₂, g₂⟩ := exists_get_of_live (s := s₂) (p := s₂.taskHead) (by
    rw [r₁₂.id, r₁₂.taskHead]; exact hh)
  have hh₂ : h₂.prev = s.prevOf s.taskHead := by
    rw [← prevOf_eq g₂, p₂, r₁₂.taskHead, update_of_ne hne, p₁]
  obtain ⟨s₃, e₃, r₃, n₃, p₃⟩ := modify_next (s := s₂) (p := h₂.prev) (by
    rw [r₁₂.id, hh₂]; exact hp) t
  have r₁₃ := r₁₂.trans r₃
  obtain ⟨s₄, e₄, r₄, p₄, n₄⟩ := modify_prev (s := s₃) (p := s₃.taskHead) (by
    rw [r₁₃.id, r₁₃.taskHead]; exact hh) t
  refine ⟨s₄, ?_, r₁₃.trans r₄, ?_, ?_⟩
  · rw [linkTail, e₁, Option.bind_some, g₁, Option.bind_some, e₂, Option.bind_some, g₂,
      Option.bind_some, e₃, Option.bind_some, e₄]
  · rw [n₄, n₃, n₂, n₁, hh₂]
  · rw [p₄, p₃, p₂, p₁, hh₁, r₁₃.taskHead]

end Assign

/-! ## Blocks -/

section Blocks

variable {s : State M} {foreign : Finset ℕ} {b : ℕ}

/-- The state after a block was freed. -/
def State.dropBlock (s : State M) (b : ℕ) : State M :=
  { s with
    heap := M.free s.heap b
    owned := s.owned.erase b
    tasks := update s.tasks b none }

lemma kfree_eq (hb : b ≠ 0) (h : b ∈ s.owned) : s.kfree b = some (s.dropBlock b) := by
  rw [State.kfree, if_neg hb, if_pos h]
  rfl

/-- Freeing a block removes the object in it. -/
lemma proj_dropBlock {β : Type} (f : Task → β) :
    (s.dropBlock b).proj f = update (s.proj f) (.heap b) none := by
  funext q
  cases q with
  | null => rfl
  | kernelTask => rfl
  | heap c =>
    by_cases hc : c = b
    · subst hc
      simp [proj, State.get, State.dropBlock]
    · have hc' : Ptr.heap c ≠ Ptr.heap b := fun he => hc (Ptr.heap.inj he)
      simp [proj, State.get, State.dropBlock, hc, hc']

/-- Freeing a block of the scheduler. -/
lemma HeapInv.dropBlock (hH : HeapInv s foreign) (h : b ∈ s.owned) :
    HeapInv (s.dropBlock b) foreign := by
  have hf : b ∉ foreign := Finset.disjoint_left.mp hH.disjoint h
  refine ⟨?_, Finset.disjoint_of_subset_left (Finset.erase_subset _ _) hH.disjoint⟩
  have := M.free_holds hH.holds (Finset.mem_union_left _ h)
  rwa [Finset.erase_union_distrib, Finset.erase_eq_of_notMem hf] at this

/-- A block request of the scheduler. -/
lemma HeapInv.kzalloc (hH : HeapInv s foreign) {n : ℕ} (hn : n ≤ M.maxRequest) :
    HeapInv (s.kzalloc n).1 foreign ∧
      ((s.kzalloc n).2 = 0 ∧ (s.kzalloc n).1.owned = s.owned ∨
        (s.kzalloc n).2 ≠ 0 ∧ (s.kzalloc n).2 ∉ s.owned ∧
          (s.kzalloc n).1.owned = insert (s.kzalloc n).2 s.owned) := by
  rcases M.alloc_holds hH.holds hn with ⟨h0, h⟩ | ⟨hnew, h⟩
  · have ho : (s.kzalloc n).1.owned = s.owned := if_pos h0
    refine ⟨⟨?_, ?_⟩, .inl ⟨h0, ho⟩⟩
    · rw [ho]
      exact h
    · rw [ho]
      exact hH.disjoint
  · have h0 : (M.alloc s.heap n).2 ≠ 0 := fun he =>
      M.ne_zero h (he ▸ Finset.mem_insert_self _ _)
    have ho : (s.kzalloc n).1.owned = insert (M.alloc s.heap n).2 s.owned := if_neg h0
    rw [Finset.notMem_union] at hnew
    refine ⟨⟨?_, ?_⟩, .inr ⟨h0, hnew.1, ho⟩⟩
    · rw [ho, Finset.insert_union]
      exact h
    · rw [ho, Finset.disjoint_insert_left]
      exact ⟨hnew.2, hH.disjoint⟩

end Blocks

/-! ## `task_create` -/

section Create

variable {s s' : State M} {foreign : Finset ℕ} {created : ℕ} {ts : List Ptr} {a stack : ℕ}

/-- The invariant speaks about the objects, the static variables and the blocks only. -/
lemma Inv.of_get_eq {foreign' : Finset ℕ} (hI : Inv s foreign created ts) (hg : s'.get = s.get)
    (hc : s'.currentTask ∈ Ptr.kernelTask :: ts)
    (hst : States (s.proj Task.state) s'.currentTask) (h2 : s'.taskHead = s.taskHead)
    (h3 : s'.nextPid = s.nextPid) (h4 : s'.owned = s.owned) (hH : HeapInv s' foreign') :
    Inv s' foreign' created ts := by
  have hp : ∀ {β : Type} (f : Task → β), s'.proj f = s.proj f := fun f => by
    funext p
    rw [proj, hg]
    rfl
  have hn : s'.nextOf = s.nextOf := by
    funext p
    rw [nextOf, hp]
    rfl
  have hp' : s'.prevOf = s.prevOf := by
    funext p
    rw [prevOf, hp]
    rfl
  refine ⟨hI.links.congr h2 hn hp' (hp _), hI.length, hc, hp Task.id ▸ hI.ids,
    h3.trans hI.nextPid, ?_, ?_, hH⟩
  · rw [hp]
    exact hst
  · rw [hp, h4]
    exact hI.blocks

/-- No object lives in a block that the scheduler does not own. -/
lemma Inv.not_live (hI : Inv s foreign created ts) (ha : a ∉ s.owned) : s.tasks a = none := by
  by_contra hne
  obtain ⟨x, hx⟩ := Option.ne_none_iff_exists'.mp hne
  refine ha ((hI.blocks.mem a).mpr ⟨a, x.stackBase, ?_, .inl rfl⟩)
  rw [proj, State.get, hx]
  rfl

/-- A new id. -/
lemma Ids.insert {ids : Ptr → Option ℕ} (h : Ids ids created) {p : Ptr} (hp : p ≠ .kernelTask) :
    Ids (update ids p (some (created + 1))) (created + 1) := by
  have hcases : ∀ q i, update ids p (some (created + 1)) q = some i →
      q = p ∧ i = created + 1 ∨ ids q = some i ∧ i ≤ created := fun q i hq => by
    by_cases hqp : q = p
    · rw [hqp, update_self] at hq
      exact .inl ⟨hqp, (Option.some.inj hq).symm⟩
    · rw [update_of_ne hqp] at hq
      exact .inr ⟨hq, h.le q i hq⟩
  refine ⟨?_, fun q q' i hq hq' => ?_, fun q i hq => ?_⟩
  · rw [update_of_ne hp.symm]
    exact h.kernel
  · rcases hcases q i hq with ⟨h1, h2⟩ | ⟨h1, h2⟩ <;>
      rcases hcases q' i hq' with ⟨h3, h4⟩ | ⟨h3, h4⟩
    · exact h1.trans h3.symm
    · omega
    · omega
    · exact h.inj q q' i h1 h3
  · rcases hcases q i hq with ⟨-, h2⟩ | ⟨-, h2⟩ <;> omega

/-- Two new blocks for a task. -/
lemma Blocks.insert {st : Ptr → Option ℕ} {owned : Finset ℕ} (h : Blocks st owned) (ha : a ≠ 0)
    (hs : stack ≠ 0) (ha' : a ∉ owned) (hs' : stack ∉ insert a owned) :
    Blocks (update st (.heap a) (some stack)) (insert stack (insert a owned)) := by
  rw [Finset.mem_insert, not_or] at hs'
  -- a task is the new one, or an old one with blocks that were owned before
  have hcases : ∀ c b, update st (.heap a) (some stack) (.heap c) = some b →
      c = a ∧ b = stack ∨ st (.heap c) = some b ∧ c ≠ a ∧ c ∈ owned ∧ b ∈ owned :=
    fun c b hc => by
      by_cases hca : c = a
      · rw [hca, update_self] at hc
        exact .inl ⟨hca, (Option.some.inj hc).symm⟩
      · rw [update_of_ne (fun he => hca (Ptr.heap.inj he))] at hc
        exact .inr ⟨hc, hca, (h.mem c).mpr ⟨c, b, hc, .inl rfl⟩, (h.mem b).mpr ⟨c, b, hc, .inr rfl⟩⟩
  constructor
  · intro c b hc
    rcases hcases c b hc with ⟨rfl, rfl⟩ | ⟨hc, -⟩
    · exact ⟨ha, hs⟩
    · exact h.ne_zero c b hc
  · intro c c' b hc hc'
    rcases hcases c b hc with ⟨rfl, rfl⟩ | ⟨h1, h2, h3, h4⟩ <;>
      rcases hcases c' b hc' with ⟨rfl, h5⟩ | ⟨h5, h6, h7, h8⟩
    · rfl
    · exact absurd h8 hs'.2
    · exact absurd (h5 ▸ h4) hs'.2
    · exact h.inj c c' b h1 h5
  · intro c c' b b' hc hc'
    rcases hcases c b hc with ⟨rfl, rfl⟩ | ⟨h1, h2, h3, h4⟩ <;>
      rcases hcases c' b' hc' with ⟨rfl, h5⟩ | ⟨h5, h6, h7, h8⟩
    · exact hs'.1
    · rintro rfl
      exact hs'.2 h7
    · rintro rfl
      exact ha' h4
    · exact h.apart c c' b b' h1 h5
  · intro c
    rw [Finset.mem_insert, Finset.mem_insert, h.mem]
    constructor
    · rintro (rfl | rfl | ⟨a', b', h1, h2⟩)
      · exact ⟨a, c, update_self _ _ _, .inr rfl⟩
      · exact ⟨c, stack, update_self _ _ _, .inl rfl⟩
      · refine ⟨a', b', ?_, h2⟩
        rw [update_of_ne, h1]
        intro he
        exact ha' ((h.mem a).mpr ⟨a', b', h1, .inl (Ptr.heap.inj he).symm⟩)
    · rintro ⟨a', b', h1, h2⟩
      rcases hcases a' b' h1 with ⟨rfl, rfl⟩ | ⟨h3, -⟩
      · exact h2.elim (fun h2 => .inr (.inl h2)) .inl
      · exact .inr (.inr ⟨a', b', h3, h2⟩)

/-- The list after a task was linked in at its end. -/
lemma Links.insert (hL : Links s ts) (ha : s.tasks a = none) {x : Task}
    (hg : s'.get = (s.put (.heap a) x).get) (hh : s'.taskHead = s.taskHead) :
    ∃ s'', linkTail s' (.heap a) = some s'' ∧ Relinked s' s'' ∧ Links s'' (ts ++ [.heap a]) := by
  have hnew : Ptr.heap a ∉ Ptr.kernelTask :: ts := fun hmem => by
    obtain ⟨y, hy⟩ := hL.get hmem
    rw [State.get, ha] at hy
    cases hy
  have hne : ∀ q ∈ Ptr.kernelTask :: ts, q ≠ .heap a := fun q hq he => hnew (he ▸ hq)
  have hpr : ∀ {β : Type} (f : Task → β),
      s'.proj f = update (s.proj f) (.heap a) (some (f x)) := fun f => by
    rw [← proj_put f (by simp)]
    funext q
    rw [proj, hg]
    rfl
  have hlive : ∀ q, (s'.proj Task.id q).isSome ↔ q = .heap a ∨ q ∈ Ptr.kernelTask :: ts := by
    intro q
    rw [hpr, ← hL.live]
    by_cases hq : q = .heap a
    · simp [hq]
    · rw [update_of_ne hq]
      simp [hq]
  have hn : ∀ q ∈ Ptr.kernelTask :: ts, s'.nextOf q = s.nextOf q := fun q hq => by
    rw [nextOf, hpr, update_of_ne (hne q hq)]
    rfl
  have hp : ∀ q ∈ ts ++ [Ptr.kernelTask], s'.prevOf q = s.prevOf q := fun q hq => by
    rw [prevOf, hpr, update_of_ne (hne q (by simpa [or_comm] using hq))]
    rfl
  -- the links of the old tasks are as before, so the segment is still there
  have hseg := hL.seg.congr hn hp
  have hk : s'.taskHead = .kernelTask := hh.trans hL.head
  have hnd := List.nodup_cons.mp hL.nodup
  obtain ⟨s'', e, r, n, pr⟩ := linkTail_spec (s := s') (t := .heap a)
    ((hlive _).mpr (.inl rfl)) (by rw [hk, hlive]; simp) (by rw [hk]; simp)
    (by rw [hk, hlive]; exact .inr hseg.prev_mem)
  refine ⟨s'', e, r, r.taskHead.trans hk, ?_, ?_, fun q => ?_⟩
  · rw [n, pr, hk]
    exact hseg.insertLast hL.nodup hnd.1 hnew (by simp)
  · rw [← List.cons_append]
    exact hL.nodup.append (List.nodup_singleton _) (by simpa using hnew)
  · rw [r.id, hlive]
    simp only [List.mem_cons, List.mem_append, List.not_mem_nil]
    tauto

/-- `task_create` once both blocks are there. -/
lemma Inv.installTask (hI : Inv s foreign created ts) (hlen : ts.length + 1 < maxTasks)
    (hcr : created + 1 < 4294967296) (hg : s'.get = s.get)
    (h1 : s'.currentTask = s.currentTask) (h2 : s'.taskHead = s.taskHead)
    (h3 : s'.nextPid = s.nextPid) (h4 : s'.owned = insert stack (insert a s.owned))
    (hH : HeapInv s' foreign) (ha : a ≠ 0) (hs : stack ≠ 0) (ha' : a ∉ s.owned)
    (hs' : stack ∉ insert a s.owned) (name : Option (List UInt8)) :
    ∃ s'', installTask s' name a stack = some (s'', .heap a) ∧
      Inv s'' foreign (created + 1) (ts ++ [.heap a]) := by
  have hpid : s'.nextPid = created + 1 := by rw [h3, hI.nextPid, u32_of_lt hcr]
  have hget : ({ s' with nextPid := u32 (s'.nextPid + 1) }.put (.heap a)
      (newTask s' name stack)).get = (s.put (.heap a) (newTask s' name stack)).get := by
    funext q
    by_cases hq : q = .heap a
    · rw [hq, get_put_self (by simp), get_put_self (by simp)]
    · rw [get_put_of_ne hq, get_put_of_ne hq]
      exact congrFun hg q
  -- the new object is linked in; the fields are then read through `Relinked`
  obtain ⟨s'', e, r, hL⟩ := hI.links.insert (hI.not_live ha') hget h2
  have hpr : ∀ {β : Type} (f : Task → β),
      ({ s' with nextPid := u32 (s'.nextPid + 1) }.put (.heap a) (newTask s' name stack)).proj f =
        update (s.proj f) (.heap a) (some (f (newTask s' name stack))) := fun f => by
    rw [← proj_put f (by simp)]
    funext q
    rw [proj, hget]
    rfl
  refine ⟨s'', by rw [Sched.installTask, e]; rfl, hL, by simpa using hlen, ?_, ?_, ?_, ?_, ?_, ?_⟩
  · rw [r.currentTask]
    change s'.currentTask ∈ _
    rw [h1]
    have := hI.current
    simp only [List.mem_cons, List.mem_append] at this ⊢
    tauto
  · rw [r.id, hpr]
    change Ids (update _ _ (some s'.nextPid)) _
    rw [hpid]
    exact hI.ids.insert (by simp)
  · rw [r.nextPid]
    change u32 (s'.nextPid + 1) = _
    rw [hpid]
  · rw [r.state, hpr, r.currentTask]
    change States _ s'.currentTask
    rw [h1]
    exact hI.states.update (by simp) (fun h => by cases h)
  · rw [r.stackBase, hpr, r.owned]
    change Blocks (update _ _ (some stack)) s'.owned
    rw [h4]
    exact hI.blocks.insert ha hs ha' hs'
  · exact ⟨by rw [r.heap, r.owned]; exact hH.holds, by rw [r.owned]; exact hH.disjoint⟩

/-- `task_create` after the count was checked: a new task at the end of the list, or nothing. -/
lemma Inv.allocTask (hI : Inv s foreign created ts) (hM : stackSize ≤ M.maxRequest)
    (hlen : ts.length + 1 < maxTasks) (hcr : created + 1 < 4294967296)
    (name : Option (List UInt8)) :
    ∃ s' p, allocTask s name = some (s', p) ∧
      (p = .null ∧ Inv s' foreign created ts ∨
        p ≠ .null ∧ Inv s' foreign (created + 1) (ts ++ [p])) := by
  have hM' : sizeofTask ≤ M.maxRequest := le_trans (by decide) hM
  obtain ⟨hH₁, h₁⟩ := hI.heap.kzalloc hM'
  rcases h₁ with ⟨hz, ho⟩ | ⟨hnz, hnew, ho⟩
  · refine ⟨_, _, if_pos hz, .inl ⟨rfl, hI.of_get_eq rfl hI.current hI.states rfl rfl ho hH₁⟩⟩
  · obtain ⟨hH₂, h₂⟩ := hH₁.kzalloc hM
    rw [Sched.allocTask, if_neg hnz]
    -- without a stack the object is freed again
    rcases h₂ with ⟨hz', ho'⟩ | ⟨hnz', hnew', ho'⟩
    · have hmem :
          (s.kzalloc sizeofTask).2 ∈ ((s.kzalloc sizeofTask).1.kzalloc stackSize).1.owned := by
        rw [ho', ho]
        exact Finset.mem_insert_self _ _
      rw [if_pos hz', kfree_eq hnz hmem]
      refine ⟨_, _, rfl, .inl ⟨rfl, hI.of_get_eq ?_ hI.current hI.states rfl rfl ?_
        (hH₂.dropBlock hmem)⟩⟩
      · funext q
        cases q with
        | null => rfl
        | kernelTask => rfl
        | heap c =>
          change update s.tasks _ none c = s.tasks c
          rw [update_eq_self_iff.mpr (hI.not_live hnew).symm]
      · change Finset.erase _ _ = _
        rw [ho', ho, Finset.erase_insert hnew]
    · rw [if_neg hnz']
      have ho'' : ((s.kzalloc sizeofTask).1.kzalloc stackSize).1.owned =
          insert ((s.kzalloc sizeofTask).1.kzalloc stackSize).2
            (insert (s.kzalloc sizeofTask).2 s.owned) := by rw [ho', ho]
      have hg : ((s.kzalloc sizeofTask).1.kzalloc stackSize).1.get = s.get := rfl
      obtain ⟨s'', e, hI'⟩ := hI.installTask hlen hcr hg rfl rfl rfl ho'' hH₂ hnz hnz' hnew
        (by rw [← ho]; exact hnew') name
      exact ⟨s'', _, e, .inr ⟨by simp, hI'⟩⟩

/-- **`task_create`** adds a task at the end of the list, or changes nothing but the heap. -/
lemma Inv.taskCreate (hI : Inv s foreign created ts) (hM : stackSize ≤ M.maxRequest)
    (hcr : created + 1 < 4294967296) (name : Option (List UInt8)) (entryPoint : ℕ) :
    ∃ s' p, taskCreate s name entryPoint = some (s', p) ∧
      (p = .null ∧ Inv s' foreign created ts ∨
        p ≠ .null ∧ Inv s' foreign (created + 1) (ts ++ [p])) := by
  rw [Sched.taskCreate]
  by_cases h0 : entryPoint = 0 ∨ s.taskHead = .null
  · rw [if_pos h0]
    exact ⟨s, .null, rfl, .inl ⟨rfl, hI⟩⟩
  · have hk := hI.links.head
    have hcount : schedulerGetTaskList s = some (ts.length + 1) := by
      have hseg : Seg s.nextOf s.prevOf s.taskHead ts s.taskHead := by
        rw [hk]
        exact hI.links.seg
      rw [schedulerGetTaskList, if_neg (by rw [hk]; simp), countTasks_eq hseg, Nat.zero_add]
      · rw [hk]
        exact fun y hy => hI.links.get hy
      · rw [hk]
        exact (List.nodup_cons.mp hI.links.nodup).1
      · exact hI.length.trans (Nat.lt_succ_self _)
    rw [if_neg h0, hcount, Option.bind_some]
    by_cases hfull : ts.length + 1 ≥ maxTasks
    · rw [if_pos hfull]
      exact ⟨s, .null, rfl, .inl ⟨rfl, hI⟩⟩
    · rw [if_neg hfull]
      exact hI.allocTask hM (by omega) hcr name

end Create

end BengalTiger.Sched
