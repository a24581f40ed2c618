/-
Module: ConfigEnv.Lib.Directory
Layer: Lib
Purpose: Directories: finitely many objects under distinct names, and sums over them. A sum with
  values in a commutative monoid is a count, a size or the multiset of what the objects hold; it
  splits at any name, so that what one insertion or removal does to it is one equation.
Trusted boundary: none
Main exports: Directory, Directory.total, total_eq, total_insert, total_erase_of_notMem,
  lookup_of_erase, lookup_of_insert, total_congr, total_eq_zero, Directory.count, count_eq_keys
Open obligations: none
-/
import Mathlib.Data.List.AList
import Mathlib.Algebra.BigOperators.Group.List.Basic

namespace ConfigEnv

universe u v

/-- Objects under distinct names. -/
abbrev Directory (ν : Type u) (α : Type v) := AList fun _ : ν => α

namespace Directory

variable {ν : Type u} {α : Type v} [DecidableEq ν] {M : Type*} [AddCommMonoid M]
  {d : Directory ν α} {a : ν} {b : α}

/-- What the objects weigh together. -/
def total (w : ν → α → M) (d : Directory ν α) : M := (d.entries.map fun e => w e.1 e.2).sum

/-- The entries are the pairs that lookup finds. -/
theorem mem_entries {e : Sigma fun _ : ν => α} : e ∈ d.entries ↔ d.lookup e.1 = some e.2 := by
  obtain ⟨a, b⟩ := e
  exact AList.mem_lookup_iff.symm

/-- Taking out a bound name takes its entry out of the list. -/
theorem entries_perm (h : d.lookup a = some b) :
    d.entries.Perm (⟨a, b⟩ :: (d.erase a).entries) := by
  have hmem : a ∈ d.entries.keys := AList.lookup_isSome.1 (by rw [h]; rfl)
  obtain ⟨b', front, back, -, hentries, herase⟩ := List.exists_of_kerase hmem
  have hb : b' = b := by
    have hin : d.lookup a = some b' := AList.mem_lookup_iff.2 (by rw [hentries]; simp)
    exact Option.some.inj (hin.symm.trans h)
  subst hb
  change d.entries.Perm (⟨a, b'⟩ :: d.entries.kerase a)
  rw [herase, hentries]
  exact List.perm_middle

/-- The total splits at a name. -/
theorem total_eq (w : ν → α → M) (h : d.lookup a = some b) :
    total w d = w a b + total w (d.erase a) := by
  rw [total, ((entries_perm h).map _).sum_eq, List.map_cons, List.sum_cons]
  rfl

/-- The total after an insertion: the new weight, and what the other names weigh. -/
theorem total_insert (w : ν → α → M) (d : Directory ν α) (a : ν) (b : α) :
    total w (d.insert a b) = w a b + total w (d.erase a) := by
  rw [total, AList.entries_insert, List.map_cons, List.sum_cons]
  rfl

theorem erase_of_notMem (h : a ∉ d) : d.erase a = d :=
  AList.ext (List.kerase_of_notMem_keys h)

theorem total_erase_of_notMem (w : ν → α → M) (h : a ∉ d) : total w (d.erase a) = total w d := by
  rw [erase_of_notMem h]

/-- What is found after a removal was there under another name. -/
theorem lookup_of_erase {a' : ν} (h : (d.erase a).lookup a' = some b) :
    a' ≠ a ∧ d.lookup a' = some b := by
  by_cases heq : a' = a
  · rw [heq, AList.lookup_erase] at h
    cases h
  · rw [AList.lookup_erase_ne heq] at h
    exact ⟨heq, h⟩

/-- What is found after an insertion is the new entry, or was there under another name. -/
theorem lookup_of_insert {a' : ν} {b' : α} (h : (d.insert a b).lookup a' = some b') :
    (a' = a ∧ b' = b) ∨ (a' ≠ a ∧ d.lookup a' = some b') := by
  by_cases heq : a' = a
  · rw [heq, AList.lookup_insert] at h
    exact .inl ⟨heq, (Option.some.inj h).symm⟩
  · rw [AList.lookup_insert_ne heq] at h
    exact .inr ⟨heq, h⟩

/-- Only the objects that are there count. -/
theorem total_congr {w w' : ν → α → M} (h : ∀ a b, d.lookup a = some b → w a b = w' a b) :
    total w d = total w' d :=
  congrArg List.sum (List.map_congr_left fun e he => h e.1 e.2 (mem_entries.1 he))

/-- Where every entry weighs nothing, so does the directory. -/
theorem total_eq_zero {w : ν → α → M} (h : ∀ a b, d.lookup a = some b → w a b = 0) :
    total w d = 0 := by
  rw [total_congr h, total]
  exact List.sum_map_zero

/-- How many objects a predicate holds of. -/
def count (p : ν → α → Bool) (d : Directory ν α) : Nat :=
  total (fun a b => if p a b then 1 else 0) d

omit [DecidableEq ν] in
/-- The count is a count over the list of entries. -/
theorem count_eq_countP (p : ν → α → Bool) (d : Directory ν α) :
    count p d = d.entries.countP fun e => p e.1 e.2 := by
  have hsum : ∀ entries : List (Sigma fun _ : ν => α),
      (entries.map fun e => if p e.1 e.2 then 1 else 0).sum =
        entries.countP fun e => p e.1 e.2 := by
    intro entries
    induction entries with
    | nil => rfl
    | cons e entries ih =>
        rw [List.map_cons, List.sum_cons, List.countP_cons, ih, Nat.add_comm]
  exact hsum d.entries

/-- A removal takes at most what was there. -/
theorem count_erase_le (p : ν → α → Bool) (d : Directory ν α) (a : ν) :
    count p (d.erase a) ≤ count p d := by
  rw [count_eq_countP, count_eq_countP]
  exact (List.kerase_sublist a d.entries).countP_le

/-- An insertion raises the count by one at most. -/
theorem count_insert_le (p : ν → α → Bool) (d : Directory ν α) (a : ν) (b : α) :
    count p (d.insert a b) ≤ (if p a b then 1 else 0) + count p d := by
  rw [count, total_insert]
  exact Nat.add_le_add_left (count_erase_le p d a) _

/-- Counting names. -/
theorem count_eq_keys {p : ν → α → Bool} {q : ν → Bool} {d : Directory ν α}
    (h : ∀ a b, d.lookup a = some b → q a = p a b) : d.keys.countP q = count p d := by
  rw [count_eq_countP]
  change (d.entries.map Sigma.fst).countP q = _
  rw [List.countP_map]
  exact List.countP_congr fun e he => by
    change q e.1 = true ↔ _
    rw [h e.1 e.2 (mem_entries.1 he)]

end Directory

end ConfigEnv
