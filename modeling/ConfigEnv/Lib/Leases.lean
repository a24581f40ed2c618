/-
Module: ConfigEnv.Lib.Leases
Layer: Lib
Purpose: A map from keys to leases: a value, and the time at which it was last used. A key is bound
  to its most recent value, a use moves the time, and expiry takes away the leases that a predicate
  rejects. `Represents` says that a list of rows with distinct keys holds such a map; the four
  operations on the list that correspond to look up, use, bind and expire keep it so.
Trusted boundary: none
Main exports: Lease, LeaseMap, Represents, Represents.find, Represents.touch, Represents.add,
  Represents.keep
Open obligations: none
-/
import Mathlib.Data.List.Nodup
import Mathlib.Tactic.Common

namespace ConfigEnv.Leases

/-- A value with the time of its last use. -/
structure Lease (ν : Type) where
  value : ν
  lastUsed : Int
deriving DecidableEq, Repr

/-- A table of leases by key. -/
abbrev LeaseMap (κ ν : Type) := κ → Option (Lease ν)

variable {α κ ν : Type}

/-- A table without leases. -/
def empty : LeaseMap κ ν := fun _ => none

section Operations

variable [DecidableEq κ]

/-- The most recent value of a key. -/
def assign (m : LeaseMap κ ν) (k : κ) (v : ν) (ts : Int) : LeaseMap κ ν :=
  Function.update m k (some { value := v, lastUsed := ts })

/-- A use of the key, if it is bound. -/
def touch (m : LeaseMap κ ν) (k : κ) (ts : Int) : LeaseMap κ ν :=
  Function.update m k ((m k).map fun l => { l with lastUsed := ts })

theorem touch_unbound {m : LeaseMap κ ν} {k : κ} (h : m k = none) (ts : Int) :
    touch m k ts = m := by
  unfold touch
  rw [h, Option.map_none, ← h, Function.update_eq_self]

/-- Assigning the value that a key has is a use of the key. -/
theorem touch_eq_assign {m : LeaseMap κ ν} {k : κ} {l : Lease ν} (h : m k = some l) (ts : Int) :
    touch m k ts = assign m k l.value ts := by
  unfold touch assign
  rw [h, Option.map_some]

/-- Assigning binds no other key. -/
theorem assign_ne_none {m : LeaseMap κ ν} {k k' : κ} {v : ν} {ts : Int}
    (h : assign m k v ts k' ≠ none) : k' = k ∨ m k' ≠ none := by
  by_cases hk : k' = k
  · exact .inl hk
  · unfold assign at h
    rw [Function.update_of_ne hk] at h
    exact .inr h

end Operations

/-- The leases that satisfy `p`. -/
def keep (m : LeaseMap κ ν) (p : Lease ν → Bool) : LeaseMap κ ν := fun k => (m k).filter p

/-- The rows hold the map, one row for each bound key. -/
structure Represents (key : α → κ) (lease : α → Lease ν) (rows : List α) (m : LeaseMap κ ν) :
    Prop where
  nodup : (rows.map key).Nodup
  bound_iff : ∀ k l, m k = some l ↔ ∃ a ∈ rows, key a = k ∧ lease a = l

namespace Represents

variable {key : α → κ} {lease : α → Lease ν} {rows : List α} {m : LeaseMap κ ν}

theorem nil : Represents key lease [] empty where
  nodup := List.nodup_nil
  bound_iff k l := by simp [empty]

/-- Every row of a table is bound in the map. -/
theorem bound (h : Represents key lease rows m) {a : α} (ha : a ∈ rows) :
    m (key a) = some (lease a) :=
  (h.bound_iff _ _).2 ⟨a, ha, rfl, rfl⟩

/-- A search that singles out a key finds its lease. -/
theorem find (h : Represents key lease rows m) {p : α → Bool} {k : κ}
    (hp : ∀ a ∈ rows, p a = true ↔ key a = k) : (rows.find? p).map lease = m k := by
  cases hfind : rows.find? p with
  | some a =>
      have ha : a ∈ rows := List.mem_of_find?_eq_some hfind
      have hk : key a = k := (hp a ha).1 (List.find?_some hfind)
      rw [← hk, h.bound ha]
      rfl
  | none =>
      cases hm : m k with
      | none => rfl
      | some l =>
          obtain ⟨a, ha, hk, -⟩ := (h.bound_iff k l).1 hm
          exact absurd ((hp a ha).2 hk) (List.find?_eq_none.1 hfind a ha)

/-- Expiry removes rows. -/
theorem keep (h : Represents key lease rows m) (p : Lease ν → Bool) :
    Represents key lease (rows.filter fun a => p (lease a)) (Leases.keep m p) where
  nodup := (List.Sublist.map key List.filter_sublist).nodup h.nodup
  bound_iff k l := by
    unfold Leases.keep
    rw [Option.filter_eq_some_iff, h.bound_iff]
    constructor
    · rintro ⟨⟨a, ha, hk, rfl⟩, hp⟩
      exact ⟨a, List.mem_filter.2 ⟨ha, hp⟩, hk, rfl⟩
    · rintro ⟨a, ha, hk, rfl⟩
      obtain ⟨hrow, hp⟩ := List.mem_filter.1 ha
      exact ⟨⟨a, hrow, hk, rfl⟩, hp⟩

variable [DecidableEq κ]

/-- Rewriting the row of a key rewrites its lease. -/
theorem modify (h : Represents key lease rows m) {f : α → α} {g : Lease ν → Lease ν} (k : κ)
    (hkey : ∀ a, key (f a) = key a) (hlease : ∀ a, lease (f a) = g (lease a)) :
    Represents key lease (rows.map fun a => if key a = k then f a else a)
      (Function.update m k ((m k).map g)) where
  nodup := by
    have hkeys : (rows.map fun a => if key a = k then f a else a).map key = rows.map key := by
      rw [List.map_map]
      apply List.map_congr_left
      intro a _
      by_cases hk : key a = k
      · simp [hk, hkey]
      · simp [hk]
    rw [hkeys]
    exact h.nodup
  bound_iff k' l := by
    simp only [List.mem_map, exists_exists_and_eq_and]
    by_cases hk' : k' = k
    · subst hk'
      rw [Function.update_self, Option.map_eq_some_iff]
      constructor
      · rintro ⟨l', hl', rfl⟩
        obtain ⟨a, ha, hk, rfl⟩ := (h.bound_iff _ _).1 hl'
        refine ⟨a, ha, ?_⟩
        rw [if_pos hk]
        exact ⟨(hkey a).trans hk, hlease a⟩
      · rintro ⟨a, ha, hk, rfl⟩
        have hak : key a = k' := by
          by_contra hne
          rw [if_neg hne] at hk
          exact hne hk
        rw [if_pos hak]
        exact ⟨lease a, hak ▸ h.bound ha, (hlease a).symm⟩
    · rw [Function.update_of_ne hk', h.bound_iff]
      constructor
      · rintro ⟨a, ha, hk, hl⟩
        have hak : key a ≠ k := fun hc => hk' (hk.symm.trans hc)
        refine ⟨a, ha, ?_⟩
        rw [if_neg hak]
        exact ⟨hk, hl⟩
      · rintro ⟨a, ha, hk, hl⟩
        by_cases hak : key a = k
        · rw [if_pos hak, hkey] at hk
          exact absurd (hk.symm.trans hak) hk'
        · rw [if_neg hak] at hk hl
          exact ⟨a, ha, hk, hl⟩

/-- A use of a key that is found. -/
theorem touch (h : Represents key lease rows m) {f : α → α} (k : κ) (ts : Int)
    (hkey : ∀ a, key (f a) = key a)
    (hlease : ∀ a, lease (f a) = { lease a with lastUsed := ts }) :
    Represents key lease (rows.map fun a => if key a = k then f a else a) (Leases.touch m k ts) :=
  h.modify k hkey hlease

/-- A new row for a key that is not bound. -/
theorem add (h : Represents key lease rows m) (a : α) (hfree : m (key a) = none) :
    Represents key lease (a :: rows)
      (Leases.assign m (key a) (lease a).value (lease a).lastUsed) where
  nodup := by
    rw [List.map_cons, List.nodup_cons]
    refine ⟨?_, h.nodup⟩
    intro hmem
    obtain ⟨b, hb, hk⟩ := List.mem_map.1 hmem
    rw [← hk, h.bound hb] at hfree
    cases hfree
  bound_iff k l := by
    unfold Leases.assign
    by_cases hk : k = key a
    · subst hk
      rw [Function.update_self]
      constructor
      · intro hl
        exact ⟨a, List.mem_cons_self, rfl, Option.some.inj hl⟩
      · rintro ⟨b, hb, hkey, rfl⟩
        rcases List.mem_cons.1 hb with rfl | hb
        · rfl
        · rw [← hkey, h.bound hb] at hfree
          cases hfree
    · rw [Function.update_of_ne hk, h.bound_iff]
      constructor
      · rintro ⟨b, hb, hkey, hl⟩
        exact ⟨b, List.mem_cons_of_mem a hb, hkey, hl⟩
      · rintro ⟨b, hb, hkey, hl⟩
        rcases List.mem_cons.1 hb with rfl | hb
        · exact absurd hkey.symm hk
        · exact ⟨b, hb, hkey, hl⟩

end Represents

end ConfigEnv.Leases
