/-
Module: ConfigEnv.Lib.Queue
Layer: Lib
Purpose: A queue whose consumer looks at every entry, serves those that satisfy a predicate, and
  then takes as many entries off the front as it has served. What it takes are the entries it served
  exactly when those stand in front of all the others.
Trusted boundary: none
Main exports: Leading, take_eq_filter, leading_of_take_perm
Open obligations: none
-/
import Mathlib.Data.List.Nodup
import Mathlib.Data.List.Perm.Basic
import Mathlib.Tactic.Common

namespace ConfigEnv.Queue

variable {α β : Type}

/-- No entry that satisfies `p` stands behind one that does not. -/
def Leading (p : α → Bool) (q : List α) : Prop :=
  q.Pairwise fun a b => p b = true → p a = true

theorem leading_cons_of_pos {p : α → Bool} {a : α} {q : List α} (ha : p a = true) :
    Leading p (a :: q) ↔ Leading p q := by
  unfold Leading
  rw [List.pairwise_cons]
  exact ⟨fun h => h.2, fun h => ⟨fun _ _ _ => ha, h⟩⟩

theorem leading_cons_of_neg {p : α → Bool} {a : α} {q : List α} (ha : ¬ p a = true) :
    Leading p (a :: q) ↔ ∀ b ∈ q, ¬ p b = true := by
  unfold Leading
  rw [List.pairwise_cons]
  constructor
  · intro h b hb hpb
    exact ha (h.1 b hb hpb)
  · intro h
    refine ⟨fun b hb hpb => absurd hpb (h b hb), ?_⟩
    exact List.pairwise_iff_forall_sublist.2 fun {b c} hsub hpc =>
      absurd hpc (h c (hsub.subset (by simp)))

/-- The entries taken off the front all satisfy `p` exactly when nothing stands before those. -/
theorem leading_iff {p : α → Bool} {q : List α} :
    Leading p q ↔ ∀ a ∈ q.take (q.countP p), p a = true := by
  induction q with
  | nil => simp [Leading]
  | cons a q ih =>
      by_cases ha : p a = true
      · rw [leading_cons_of_pos ha, ih, List.countP_cons_of_pos ha, List.take_succ_cons]
        constructor
        · intro h b hb
          rcases List.mem_cons.1 hb with rfl | hb
          · exact ha
          · exact h b hb
        · intro h b hb
          exact h b (List.mem_cons_of_mem a hb)
      · rw [leading_cons_of_neg ha, List.countP_cons_of_neg ha]
        constructor
        · intro h
          rw [List.countP_eq_zero.2 h]
          simp
        · intro h
          have hzero : q.countP p = 0 := by
            by_contra hpos
            obtain ⟨n, hn⟩ := Nat.exists_eq_succ_of_ne_zero hpos
            rw [hn, List.take_succ_cons] at h
            exact ha (h a List.mem_cons_self)
          exact List.countP_eq_zero.1 hzero

/-- Then the entries taken are those that were served, -/
theorem take_eq_filter {p : α → Bool} {q : List α} (h : Leading p q) :
    q.take (q.countP p) = q.filter p := by
  induction q with
  | nil => rfl
  | cons a q ih =>
      by_cases ha : p a = true
      · rw [List.countP_cons_of_pos ha, List.take_succ_cons, List.filter_cons_of_pos ha,
          ih ((leading_cons_of_pos ha).1 h)]
      · have hnone := (leading_cons_of_neg ha).1 h
        rw [List.countP_cons_of_neg ha, List.filter_cons_of_neg ha, List.countP_eq_zero.2 hnone,
          List.take_zero, List.filter_eq_nil_iff.2 hnone]

/-- and those left are the others. -/
theorem filter_drop_eq_nil {p : α → Bool} {q : List α} (h : Leading p q) :
    (q.drop (q.countP p)).filter p = [] := by
  have hsplit : q.filter p = (q.take (q.countP p)).filter p ++ (q.drop (q.countP p)).filter p := by
    rw [← List.filter_append, List.take_append_drop]
  rw [take_eq_filter h, List.filter_filter] at hsplit
  simpa using hsplit

/-- If the labels taken off are a rearrangement of the labels served, and no label occurs twice,
then nothing stood before the served entries. -/
theorem leading_of_take_perm {p : α → Bool} {q : List α} {label : α → β}
    (hnodup : (q.map label).Nodup)
    (h : ((q.filter p).map label).Perm ((q.take (q.countP p)).map label)) : Leading p q := by
  rw [leading_iff]
  intro a ha
  obtain ⟨b, hb, hab⟩ := List.mem_map.1 (h.mem_iff.2 (List.mem_map_of_mem ha))
  obtain ⟨hbq, hpb⟩ := List.mem_filter.1 hb
  have hba : b = a := List.inj_on_of_nodup_map hnodup hbq (List.mem_of_mem_take ha) hab
  rwa [← hba]

end ConfigEnv.Queue
