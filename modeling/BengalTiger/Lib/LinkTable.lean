import Mathlib.Data.List.Nodup
import Mathlib.Logic.Function.Basic
import Mathlib.Tactic.SplitIfs

set_option autoImplicit false

/-!
# Chains in a table of links

A table maps each place to the next one of its chain, or to a mark that ends it. A chain is kept
by every change of the table elsewhere; a list of places is made a chain by linking each to the
next.

## Main definitions

* `LinkTable.IsChain` — a list of places that the table links, up to an end mark.
* `LinkTable.follow` — the places found by following the links.
* `LinkTable.link` — the table in which a list of places is linked.
* `LinkTable.clear` — the table in which a list of places is reset.

## Main results

* `LinkTable.IsChain.follow_eq` — following the links gives the chain.
* `LinkTable.isChain_link` — a list of different places that are linked is a chain.
-/

namespace LinkTable

open Function List

variable {α : Type}

/-- Each place is linked to the next one, and the last one to an end mark. -/
def IsChain (next : α → α) (stop : α → Prop) : List α → Prop
  | [] => True
  | [c] => stop (next c)
  | c :: d :: cs => next c = d ∧ IsChain next stop (d :: cs)

/-- The places found from `c` on, at most `n`. -/
def follow (next : α → α) (stop : α → Prop) [DecidablePred stop] : ℕ → α → List α
  | 0, _ => []
  | n + 1, c => if stop c then [] else c :: follow next stop n (next c)

variable {next next' : α → α} {stop : α → Prop} {c : α} {cs : List α}

/-- A chain depends on the links of its places only. -/
lemma IsChain.congr (h : IsChain next stop cs) (heq : ∀ c ∈ cs, next' c = next c) :
    IsChain next' stop cs := by
  induction cs with
  | nil => trivial
  | cons c cs ih =>
    cases cs with
    | nil =>
      show stop (next' c)
      rw [heq c mem_cons_self]
      exact h
    | cons d cs =>
      refine ⟨(heq c mem_cons_self).trans h.1, ih h.2 fun x hx => ?_⟩
      exact heq x (mem_cons_of_mem _ hx)

/-- A chain, with more end marks. -/
lemma IsChain.mono {stop' : α → Prop} (h : IsChain next stop cs) (hstop : ∀ c, stop c → stop' c) :
    IsChain next stop' cs := by
  induction cs with
  | nil => trivial
  | cons c cs ih =>
    cases cs with
    | nil => exact hstop _ h
    | cons d cs => exact ⟨h.1, ih h.2⟩

/-- The rest of a chain is a chain. -/
lemma IsChain.tail (h : IsChain next stop (c :: cs)) : IsChain next stop cs := by
  cases cs with
  | nil => trivial
  | cons d cs => exact h.2

/-- The end of a chain is a chain. -/
lemma IsChain.of_append {as : List α} (h : IsChain next stop (as ++ cs)) :
    IsChain next stop cs := by
  induction as with
  | nil => exact h
  | cons a as ih => exact ih (IsChain.tail h)

/-- The link of a place of a chain is the next place or an end mark. -/
lemma IsChain.next_mem (h : IsChain next stop cs) (hc : c ∈ cs) :
    next c ∈ cs ∨ stop (next c) := by
  induction cs with
  | nil => cases hc
  | cons d cs ih =>
    cases cs with
    | nil =>
      rw [mem_singleton] at hc
      subst hc
      exact .inr h
    | cons e cs =>
      obtain rfl | hc := mem_cons.1 hc
      · exact .inl (by rw [h.1]; simp)
      · obtain h' | h' := ih h.2 hc
        · exact .inl (mem_cons_of_mem _ h')
        · exact .inr h'

/-- Following the links gives the chain. -/
lemma IsChain.follow_eq [DecidablePred stop] (h : IsChain next stop (c :: cs))
    (hstop : ∀ x ∈ c :: cs, ¬ stop x) {n : ℕ} (hn : (c :: cs).length ≤ n) :
    follow next stop n c = c :: cs := by
  induction cs generalizing c n with
  | nil =>
    obtain ⟨n, rfl⟩ : ∃ m, n = m + 1 := ⟨n - 1, by simp at hn; omega⟩
    rw [follow, if_neg (hstop c mem_cons_self)]
    cases n with
    | zero => rfl
    | succ n => rw [follow, if_pos (show stop (next c) from h)]
  | cons d cs ih =>
    obtain ⟨n, rfl⟩ : ∃ m, n = m + 1 := ⟨n - 1, by simp at hn; omega⟩
    rw [follow, if_neg (hstop c mem_cons_self), h.1,
      ih h.2 (fun x hx => hstop x (mem_cons_of_mem _ hx))]
    simp only [length_cons] at hn ⊢
    omega

section Link

variable [DecidableEq α] {last zero : α}

/-- The table in which the places of a list are linked, the last one to `last`. -/
def link (last : α) : List α → (α → α) → α → α
  | [], f => f
  | c :: cs, f => update (link last cs f) c (cs.headD last)

/-- The table in which the places of a list are reset. -/
def clear (zero : α) (cs : List α) (f : α → α) : α → α := fun c => if c ∈ cs then zero else f c

lemma clear_of_mem (h : c ∈ cs) (f : α → α) : clear zero cs f c = zero := if_pos h

lemma clear_of_notMem (h : c ∉ cs) (f : α → α) : clear zero cs f c = f c := if_neg h

/-- Resetting one place after the other. -/
lemma clear_cons (c : α) (cs : List α) (f : α → α) :
    clear zero (c :: cs) f = clear zero cs (update f c zero) := by
  funext x
  unfold clear
  by_cases hx : x = c
  · simp [hx]
  · simp [hx]

/-- Other places keep their links. -/
lemma link_of_notMem (h : c ∉ cs) (f : α → α) : link last cs f c = f c := by
  induction cs with
  | nil => rfl
  | cons d cs ih =>
    rw [mem_cons, not_or] at h
    rw [link, update_of_ne h.1, ih h.2]

/-- A place is linked to another one of the list or to `last`. -/
lemma link_of_mem (last : α) (h : c ∈ cs) (f : α → α) :
    link last cs f c ∈ cs ∨ link last cs f c = last := by
  induction cs with
  | nil => cases h
  | cons d cs ih =>
    by_cases hcd : c = d
    · subst hcd
      rw [link, update_self]
      cases cs with
      | nil => exact .inr rfl
      | cons e cs => exact .inl (by simp)
    · rw [link, update_of_ne hcd]
      obtain h' | h' := ih ((mem_cons.1 h).resolve_left hcd)
      · exact .inl (mem_cons_of_mem _ h')
      · exact .inr h'

/-- A list of different places that are linked is a chain. -/
lemma isChain_link (hnodup : cs.Nodup) (hlast : stop last) (f : α → α) :
    IsChain (link last cs f) stop cs := by
  induction cs with
  | nil => trivial
  | cons c cs ih =>
    rw [nodup_cons] at hnodup
    have hrest : IsChain (link last (c :: cs) f) stop cs :=
      (ih hnodup.2).congr fun x hx => update_of_ne (ne_of_mem_of_not_mem hx hnodup.1) _ _
    have hself : link last (c :: cs) f c = cs.headD last := update_self _ _ _
    cases cs with
    | nil =>
      show stop (link last [c] f c)
      rw [hself]
      exact hlast
    | cons d cs => exact ⟨hself, hrest⟩

/-- A link that was set elsewhere before. -/
lemma link_update_of_notMem (h : c ∉ cs) (f : α → α) (v : α) :
    link last cs (update f c v) = update (link last cs f) c v := by
  induction cs with
  | nil => rfl
  | cons d cs ih =>
    rw [mem_cons, not_or] at h
    rw [link, link, ih h.2, update_comm h.1]

/-- A link that was set before at the first place of the list. -/
lemma link_update_head (h : c ∉ cs) (f : α → α) (v : α) :
    link last (c :: cs) (update f c v) = link last (c :: cs) f := by
  rw [link, link, link_update_of_notMem h, update_idem]

end Link

end LinkTable
