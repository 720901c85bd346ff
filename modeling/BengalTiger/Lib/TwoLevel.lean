import Mathlib.Logic.Function.Basic

set_option autoImplicit false

/-!
# Two-level tables

A directory leads to tables that hold the entries. Tables are attached to the directory when they
are first needed. As long as no two places of the directory lead to the same table, attaching an
empty table changes no lookup, and setting an entry of a table changes one.

## Main definitions

* `TwoLevel.Table` — the directory and the entries; `TwoLevel.Table.lookup`.
* `TwoLevel.Table.attach`, `TwoLevel.Table.set` — a new table, a new entry.

## Main results

* `TwoLevel.Table.lookup_attach`, `TwoLevel.Table.lookup_set_of_ne`.
* `TwoLevel.Table.Unshared.attach`, `TwoLevel.Table.Unshared.set` — tables stay unshared.
-/

namespace TwoLevel

open Function

/-- A directory over `ι` with tables named by `κ`, which have entries in `β` at the places `ν`. -/
structure Table (ι κ ν β : Type) where
  dir : ι → Option κ
  entry : κ → ν → Option β

namespace Table

variable {ι κ ν β : Type} {t : Table ι κ ν β} {d d' : ι} {j : κ} {i i' : ν}

/-- The entry found through the directory. -/
def lookup (t : Table ι κ ν β) (d : ι) (i : ν) : Option β := (t.dir d).bind fun j => t.entry j i

/-- No table is shared by two places of the directory. -/
def Unshared (t : Table ι κ ν β) : Prop :=
  ∀ d d' j, t.dir d = some j → t.dir d' = some j → d = d'

/-- Replace an entry of the table `j`. -/
def set [DecidableEq κ] [DecidableEq ν] (t : Table ι κ ν β) (j : κ) (i : ν) (v : Option β) :
    Table ι κ ν β :=
  { t with entry := update t.entry j (update (t.entry j) i v) }

/-- Attach the table `j`, without entries, at the place `d`. -/
def attach [DecidableEq ι] [DecidableEq κ] (t : Table ι κ ν β) (d : ι) (j : κ) : Table ι κ ν β where
  dir := update t.dir d (some j)
  entry := update t.entry j fun _ => none

lemma lookup_of_dir (h : t.dir d = some j) : t.lookup d i = t.entry j i := by
  rw [lookup, h, Option.bind_some]

lemma lookup_of_none (h : t.dir d = none) : t.lookup d i = none := by
  rw [lookup, h, Option.bind_none]

variable [DecidableEq κ]

section Set

variable [DecidableEq ν] {v : Option β} {j' : κ}

lemma entry_set (t : Table ι κ ν β) (j : κ) (i : ν) (v : Option β) :
    (t.set j i v).entry = update t.entry j (update (t.entry j) i v) := rfl

/-- Setting an entry changes the lookup at its place. -/
lemma lookup_set_self (h : t.dir d = some j) : (t.set j i v).lookup d i = v := by
  rw [lookup_of_dir (t := t.set j i v) h, entry_set, update_self, update_self]

/-- **Setting an entry** changes no other lookup. -/
lemma lookup_set_of_ne (ht : t.Unshared) (h : t.dir d = some j) (hne : d' ≠ d ∨ i' ≠ i) :
    (t.set j i v).lookup d' i' = t.lookup d' i' := by
  cases hd : t.dir d' with
  | none => rw [lookup_of_none hd, lookup_of_none (t := t.set j i v) hd]
  | some j' =>
    rw [lookup_of_dir hd, lookup_of_dir (t := t.set j i v) hd, entry_set]
    by_cases hj : j' = j
    · -- the same table, so the same place of the directory and another entry
      subst hj
      have hi : i' ≠ i := hne.resolve_left fun h' => h' (ht _ _ _ hd h)
      rw [update_self, update_of_ne hi]
    · rw [update_of_ne hj]

lemma Unshared.set (ht : t.Unshared) : (t.set j i v).Unshared := ht

end Set

section Attach

variable [DecidableEq ι]

lemma dir_attach (t : Table ι κ ν β) (d : ι) (j : κ) :
    (t.attach d j).dir = update t.dir d (some j) := rfl

lemma entry_attach (t : Table ι κ ν β) (d : ι) (j : κ) :
    (t.attach d j).entry = update t.entry j fun _ => none := rfl

/-- **Attaching a fresh table** at a free place changes no lookup. -/
lemma lookup_attach (hd : t.dir d = none) (hj : ∀ d', t.dir d' ≠ some j) :
    (t.attach d j).lookup d' i = t.lookup d' i := by
  by_cases h : d' = d
  · subst h
    have hs : (t.attach d' j).dir d' = some j := update_self _ _ _
    rw [lookup_of_dir hs, lookup_of_none hd, entry_attach, update_self]
  · have hs : (t.attach d j).dir d' = t.dir d' := update_of_ne h _ _
    cases hd' : t.dir d' with
    | none => rw [lookup_of_none hd', lookup_of_none (hs.trans hd')]
    | some j' =>
      have hne : j' ≠ j := fun he => hj d' (he ▸ hd')
      rw [lookup_of_dir hd', lookup_of_dir (hs.trans hd'), entry_attach, update_of_ne hne]

/-- Attaching a table that no entry has keeps the tables unshared. -/
lemma Unshared.attach (ht : t.Unshared) (hj : ∀ d', t.dir d' ≠ some j) :
    (t.attach d j).Unshared := by
  intro a b k ha hb
  rw [dir_attach] at ha hb
  by_cases had : a = d
  · by_cases hbd : b = d
    · rw [had, hbd]
    · rw [had, update_self] at ha
      rw [update_of_ne hbd, ← ha] at hb
      exact absurd hb (hj b)
  · by_cases hbd : b = d
    · rw [hbd, update_self] at hb
      rw [update_of_ne had, ← hb] at ha
      exact absurd ha (hj a)
    · rw [update_of_ne had] at ha
      rw [update_of_ne hbd] at hb
      exact ht a b k ha hb

end Attach

end Table

end TwoLevel
