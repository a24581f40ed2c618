/-
Module: ConfigEnv.Lib.Gaps
Layer: Lib
Purpose: Numbers that are missing from a list, and the sum of its gaps. A gap is what a step upwards
  leaves out. In a list in order the gaps add up to the missing numbers; in another order of the
  same numbers they need not, and they do so in every order only where no order has a gap.
Trusted boundary: none
Main exports: gapSum, missing, mem_missing, missing_eq_empty_iff, gapSum_eq_zero_iff,
  gapSum_of_sorted, gapSum_perm_iff
Open obligations: none
-/
import Mathlib.Order.Interval.Finset.Nat
import Mathlib.Data.List.Sort
import Mathlib.Data.List.Chain

namespace ConfigEnv.Gaps

variable {l : List ℕ} {a b n : ℕ}

/-- What the steps upwards leave out. -/
def gapSum : List ℕ → ℕ
  | a :: b :: l => (b - a - 1) + gapSum (b :: l)
  | _ => 0

/-- The numbers strictly between the least and the greatest that do not occur. -/
def missing (l : List ℕ) : Finset ℕ :=
  (Finset.range (l.foldr max 0)).filter fun n => n ∉ l ∧ ∃ a ∈ l, a < n

theorem lt_foldr_max : n < l.foldr max 0 ↔ ∃ b ∈ l, n < b := by
  induction l with
  | nil => simp
  | cons b l ih => simp [ih]

/-- A number is missing when it is not in the list and lies between two that are. -/
theorem mem_missing : n ∈ missing l ↔ n ∉ l ∧ (∃ a ∈ l, a < n) ∧ ∃ b ∈ l, n < b := by
  rw [missing, Finset.mem_filter, Finset.mem_range, lt_foldr_max, and_comm, and_assoc]

/-- Nothing is missing exactly when the list holds all between any two of its numbers. -/
theorem missing_eq_empty_iff :
    missing l = ∅ ↔ ∀ a ∈ l, ∀ b ∈ l, ∀ n, a < n → n < b → n ∈ l := by
  rw [Finset.eq_empty_iff_forall_notMem]
  constructor
  · intro h a ha b hb n han hnb
    by_contra hn
    exact h n (mem_missing.2 ⟨hn, ⟨a, ha, han⟩, b, hb, hnb⟩)
  · intro h n hn
    obtain ⟨hnot, ⟨a, ha, han⟩, b, hb, hnb⟩ := mem_missing.1 hn
    exact hnot (h a ha b hb n han hnb)

/-! ### Gaps -/

/-- The gaps sum to zero exactly when no neighbour is more than one step up. -/
theorem gapSum_eq_zero_iff : gapSum l = 0 ↔ l.IsChain fun a b => b ≤ a + 1 := by
  induction l with
  | nil => simp [gapSum]
  | cons a l ih =>
      cases l with
      | nil => simp [gapSum]
      | cons b l =>
          rw [gapSum, Nat.add_eq_zero_iff, ih, List.isChain_cons_cons]
          exact and_congr_left fun _ => by omega

/-- A first number below the others leaves out what is between it and the next. -/
theorem missing_cons_cons (hab : a ≤ b) (hb : ∀ n ∈ b :: l, b ≤ n) :
    missing (a :: b :: l) = Finset.Ioo a b ∪ missing (b :: l) := by
  have ha : ∀ n ∈ a :: b :: l, a ≤ n := List.forall_mem_cons.2
    ⟨Nat.le_refl a, fun n hn => Nat.le_trans hab (hb n hn)⟩
  ext n
  rw [Finset.mem_union, Finset.mem_Ioo, mem_missing, mem_missing]
  constructor
  · rintro ⟨hn, ⟨x, hx, hxn⟩, c, hc, hnc⟩
    by_cases hnb : n < b
    · exact .inl ⟨Nat.lt_of_le_of_lt (ha x hx) hxn, hnb⟩
    · have hnl : n ∉ b :: l := fun h => hn (List.mem_cons_of_mem a h)
      have hbn : b < n := Nat.lt_of_le_of_ne (Nat.not_lt.1 hnb)
        fun h => hnl (h ▸ List.mem_cons_self)
      have hcl : c ∈ b :: l := (List.mem_cons.1 hc).resolve_left fun h => by omega
      exact .inr ⟨hnl, ⟨b, List.mem_cons_self, hbn⟩, c, hcl, hnc⟩
  · rintro (⟨han, hnb⟩ | ⟨hn, ⟨x, hx, hxn⟩, c, hc, hnc⟩)
    · have hn : n ∉ a :: b :: l := fun h => by
        rcases List.mem_cons.1 h with rfl | h
        · exact Nat.lt_irrefl _ han
        · exact Nat.not_le.2 hnb (hb n h)
      exact ⟨hn, ⟨a, List.mem_cons_self, han⟩, b, by simp, hnb⟩
    · have hbx := hb x hx
      have hna : n ∉ a :: b :: l := fun h => (List.mem_cons.1 h).elim (fun h => by omega) hn
      exact ⟨hna, ⟨x, List.mem_cons_of_mem a hx, hxn⟩, c, List.mem_cons_of_mem a hc, hnc⟩

theorem missing_singleton : missing [a] = ∅ := by
  refine missing_eq_empty_iff.2 fun x hx y hy n hxn hny => ?_
  rw [List.mem_singleton] at hx hy
  omega

/-- The gaps of a list in order add up to the missing numbers. -/
theorem gapSum_of_sorted (h : l.Pairwise (· ≤ ·)) : gapSum l = (missing l).card := by
  induction l with
  | nil => rfl
  | cons a l ih =>
      cases l with
      | nil =>
          rw [missing_singleton]
          rfl
      | cons b l =>
          obtain ⟨ha, hl⟩ := List.pairwise_cons.1 h
          have hb : ∀ n ∈ b :: l, b ≤ n := List.forall_mem_cons.2
            ⟨Nat.le_refl b, (List.pairwise_cons.1 hl).1⟩
          have hdisjoint : Disjoint (Finset.Ioo a b) (missing (b :: l)) := by
            refine Finset.disjoint_left.2 fun n hn hmissing => ?_
            obtain ⟨-, ⟨x, hx, hxn⟩, -⟩ := mem_missing.1 hmissing
            have hbx := hb x hx
            have hnb := (Finset.mem_Ioo.1 hn).2
            omega
          rw [missing_cons_cons (ha b List.mem_cons_self) hb,
            Finset.card_union_of_disjoint hdisjoint, Nat.card_Ioo, gapSum, ih hl]

/-! ### Orders of the same numbers -/

/-- From the greatest to the least there is no step upwards. -/
theorem gapSum_of_descending (h : l.Pairwise (· ≥ ·)) : gapSum l = 0 :=
  gapSum_eq_zero_iff.2 (h.imp fun hba => Nat.le_succ_of_le hba).isChain

/-- The gaps add up to the missing numbers, and to the same in every order, exactly if there is no
gap in any order. -/
theorem gapSum_perm_iff :
    (gapSum l = (missing l).card ∧ ∀ l', l'.Perm l → gapSum l' = gapSum l) ↔
      ∀ a ∈ l, ∀ b ∈ l, b ≤ a + 1 := by
  constructor
  · rintro ⟨-, hperm⟩ a ha b hb
    by_contra hab
    have hzero : gapSum l = 0 := by
      rw [← hperm _ (List.perm_insertionSort (· ≥ ·) l)]
      exact gapSum_of_descending (List.pairwise_insertionSort (· ≥ ·) l)
    -- The order that begins with `a` and `b` has a gap between them.
    have hb' : b ∈ l.erase a := (List.mem_erase_of_ne (by omega)).2 hb
    have hfront : (a :: b :: (l.erase a).erase b).Perm l :=
      ((List.perm_cons_erase hb').symm.cons a).trans (List.perm_cons_erase ha).symm
    have hgap := hperm _ hfront
    rw [gapSum] at hgap
    omega
  · intro h
    have hzero : ∀ l', l'.Perm l → gapSum l' = 0 := by
      intro l' hl'
      refine gapSum_eq_zero_iff.2 (List.Pairwise.isChain ?_)
      exact List.pairwise_of_forall_mem_list fun a ha b hb => h a (hl'.subset ha) b (hl'.subset hb)
    have hnone : missing l = ∅ := by
      refine missing_eq_empty_iff.2 fun a ha b hb n han hnb => ?_
      have hab := h a ha b hb
      omega
    refine ⟨?_, fun l' hl' => ?_⟩
    · rw [hzero l (.refl l), hnone, Finset.card_empty]
    · rw [hzero l' hl', hzero l (.refl l)]

end ConfigEnv.Gaps
