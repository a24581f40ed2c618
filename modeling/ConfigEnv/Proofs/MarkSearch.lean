/-
Module: ConfigEnv.Proofs.MarkSearch
Layer: Proofs
Purpose: The search loops of the decoder for any number of shards. A search that has enough zero
  bytes ahead of it finds them in order and stops at the last one it needs; a search for a parity
  row that has too few runs past the shards.
Trusted boundary: none
Main exports: unmarked, survivors_eq, survivors_reads, gatherParity_filled, gatherParity_fails
Open obligations: none
-/
import ConfigEnv.TunVpn.Gf28
import Mathlib.Data.List.Basic

namespace ConfigEnv.TunVpn

variable {n T : Nat}

/-- The indices among the `k` from `j` on whose mark is zero. -/
def unmarked (marks : List u8) (j k : Nat) : List Nat :=
  (List.range' j k).filter fun i => marks.getD i 0 = 0

theorem unmarked_zero (marks : List u8) (j : Nat) : unmarked marks j 0 = [] := rfl

theorem unmarked_here {marks : List u8} {j : Nat} (k : Nat) (h : marks.getD j 0 = 0) :
    unmarked marks j (k + 1) = j :: unmarked marks (j + 1) k := by
  rw [unmarked, List.range'_succ, List.filter_cons_of_pos (by simpa using h)]
  rfl

theorem unmarked_next {marks : List u8} {j : Nat} (k : Nat) (h : marks.getD j 0 ≠ 0) :
    unmarked marks j (k + 1) = unmarked marks (j + 1) k := by
  rw [unmarked, List.range'_succ, List.filter_cons_of_neg (by simpa using h)]
  rfl

/-- The unmarked positions of a range. -/
theorem mem_unmarked {marks : List u8} {i j k : Nat} :
    i ∈ unmarked marks j k ↔ (j ≤ i ∧ i < j + k) ∧ marks.getD i 0 = 0 := by
  rw [unmarked, List.mem_filter, List.mem_range'_1, decide_eq_true_iff]

theorem nodup_unmarked (marks : List u8) (j k : Nat) : (unmarked marks j k).Nodup :=
  (List.nodup_range' 1).filter _

/-- The unmarked positions of two ranges, one behind the other. -/
theorem unmarked_append (marks : List u8) (j k l : Nat) :
    unmarked marks j (k + l) = unmarked marks j k ++ unmarked marks (j + k) l := by
  rw [unmarked, ← List.range'_append_1, List.filter_append]
  rfl

/-- The missing and the surviving rows make up all rows. -/
theorem length_unmarked (marks : List u8) (k : Nat) :
    (unmarked marks 0 k).length +
      ((List.range k).filter fun i => marks.getD i 0 ≠ 0).length = k := by
  have h := List.length_eq_length_filter_add (l := List.range k) fun i =>
    decide (marks.getD i 0 = 0)
  rw [List.length_range] at h
  rw [unmarked, ← List.range_eq_range']
  simpa using h.symm

/-! ### One search -/

theorem skipMarked_zero {marks : List u8} {j : Nat} (hj : j < marks.length)
    (h : marks.getD j 0 = 0) : skipMarked marks j = j := by
  apply skipMarked_here
  rw [List.getElem?_eq_getElem hj, ← h, List.getD_eq_getElem _ _ hj]

/-- The search goes on behind a mark. -/
theorem skipMarked_marked {marks : List u8} {j : Nat} (hj : j < marks.length)
    (h : marks.getD j 0 ≠ 0) : skipMarked marks j = skipMarked marks (j + 1) := by
  rw [List.getD_eq_getElem _ _ hj] at h
  exact skipMarked_next (List.getElem?_eq_getElem hj) h

/-- The search has read the mark that it goes on behind. -/
theorem mem_skipReads_marked {marks : List u8} {i j : Nat} (hj : j < marks.length)
    (h : marks.getD j 0 ≠ 0) : i ∈ skipReads marks j ↔ i = j ∨ i ∈ skipReads marks (j + 1) := by
  have hle := le_skipMarked marks (j + 1)
  rw [mem_skipReads, mem_skipReads, skipMarked_marked hj h]
  omega

/-! ### The surviving rows -/

/-- A marked shard is none of the survivors. -/
theorem survivors_marked {marks : List u8} {j : Nat} (count : Nat) (hj : j < marks.length)
    (h : marks.getD j 0 ≠ 0) :
    (survivors marks (count + 1) j).1 = (survivors marks (count + 1) (j + 1)).1 := by
  simp only [survivors, skipMarked_marked hj h]

/-- The second loop finds the surviving rows. -/
theorem survivors_eq (marks : List u8) (k : Nat) : ∀ j, j + k ≤ marks.length →
    (survivors marks (unmarked marks j k).length j).1 = unmarked marks j k := by
  induction k with
  | zero => exact fun _ _ => rfl
  | succ k ih =>
      intro j hj
      have hrest := ih (j + 1) (by omega)
      by_cases h : marks.getD j 0 = 0
      · rw [unmarked_here k h, List.length_cons, survivors]
        dsimp only
        rw [skipMarked_zero (by omega) h, hrest]
      · rw [unmarked_next k h]
        cases hlen : (unmarked marks (j + 1) k).length with
        | zero => exact (List.length_eq_zero_iff.1 hlen).symm
        | succ count =>
            rw [hlen] at hrest
            rw [survivors_marked count (by omega) h, hrest]

/-- The second loop reads no mark behind the data rows. -/
theorem survivors_reads (marks : List u8) (k : Nat) : ∀ j, j + k ≤ marks.length →
    ∀ i ∈ (survivors marks (unmarked marks j k).length j).2, i < j + k := by
  induction k with
  | zero => simp [unmarked_zero, survivors]
  | succ k ih =>
      intro j hj i hi
      have hrest := ih (j + 1) (by omega) i
      by_cases h : marks.getD j 0 = 0
      · rw [unmarked_here k h, List.length_cons, survivors] at hi
        dsimp only at hi
        rw [skipMarked_zero (by omega) h, List.mem_append, mem_skipReads,
          skipMarked_zero (by omega) h] at hi
        rcases hi with hi | hi
        · omega
        · have := hrest hi
          omega
      · rw [unmarked_next k h] at hi
        cases hlen : (unmarked marks (j + 1) k).length with
        | zero => simp [hlen, survivors] at hi
        | succ count =>
            rw [hlen] at hi hrest
            simp only [survivors, skipMarked_marked (show j < marks.length by omega) h,
              List.mem_append, mem_skipReads_marked (show j < marks.length by omega) h] at hi hrest
            rcases hi with (rfl | hi) | hi
            · omega
            · have := hrest (.inl hi)
              omega
            · have := hrest (.inr hi)
              omega

/-! ### The parity rows -/

/-- A marked parity shard is passed over. -/
theorem gatherParity_marked {marks : List u8} {ds gap j : Nat} (gaps : List Nat)
    (data : Shards n T) (hj : j < marks.length) (h : marks.getD j 0 ≠ 0) :
    gatherParity marks ds (gap :: gaps) j data =
      { gatherParity marks ds (gap :: gaps) (j + 1) data with
        reads := j :: (gatherParity marks ds (gap :: gaps) (j + 1) data).reads } := by
  have hreads : skipReads marks j = j :: skipReads marks (j + 1) := by
    have hle := le_skipMarked marks (j + 1)
    rw [skipReads, skipReads, skipMarked_marked hj h,
      show skipMarked marks (j + 1) + 1 - j = skipMarked marks (j + 1) + 1 - (j + 1) + 1 by omega,
      List.range'_succ]
  rw [gatherParity, gatherParity, skipMarked_marked hj h, hreads]
  split_ifs <;> rfl

/-- What the fourth loop does when the `k` rows from `j` on hold enough parity rows: the first of
them take the places of the missing rows, in order. -/
structure Filled (marks : List u8) (ds : Nat) (gaps : List Nat) (j k : Nat) (data : Shards n T)
    (g : Gathered n T) : Prop where
  filled : g.filled = true
  rowperm : g.rowperm = ((unmarked marks j k).take gaps.length).map (· - ds)
  moved : ∀ i < gaps.length,
    g.data.load (gaps.getD i 0) = data.load ((unmarked marks j k).getD i 0)
  kept : ∀ i, i ∉ gaps → g.data.load i = data.load i
  reads : ∀ i ∈ g.reads, i < j + k

theorem gatherParity_nil (marks : List u8) (ds j k : Nat) (data : Shards n T) :
    Filled marks ds [] j k data (gatherParity marks ds [] j data) where
  filled := rfl
  rowperm := rfl
  moved i hi := absurd hi (Nat.not_lt_zero i)
  kept _ _ := rfl
  reads i hi := by simp [gatherParity] at hi

/-- The search stops at `j` and the row there is taken. -/
theorem Filled.take {marks : List u8} {ds gap j k : Nat} {gaps : List Nat} {data : Shards n T}
    (hj : j < n) (hlen : j < marks.length) (hz : marks.getD j 0 = 0) (hgap : gap < j)
    (hgaps : gap ∉ gaps)
    (hrest : gaps.length ≤ (unmarked marks (j + 1) k).length)
    (h : Filled marks ds gaps (j + 1) k (data.store gap (data.load j))
      (gatherParity marks ds gaps (j + 1) (data.store gap (data.load j)))) :
    Filled marks ds (gap :: gaps) j (k + 1) data (gatherParity marks ds (gap :: gaps) j data) := by
  have hstop := skipMarked_zero hlen hz
  have hgn : gap < n := by omega
  rw [gatherParity]
  dsimp only
  rw [hstop, if_neg (by omega)]
  refine ⟨h.filled, ?_, fun i hi => ?_, fun i hi => ?_, fun i hi => ?_⟩
  · rw [unmarked_here k hz, List.length_cons, List.take_succ_cons, List.map_cons, ← h.rowperm]
  · rw [unmarked_here k hz]
    cases i with
    | zero =>
        simp only [List.getD_cons_zero]
        rw [h.kept gap hgaps, Shards.load_store _ hgn, if_pos rfl]
    | succ i =>
        rw [List.length_cons] at hi
        simp only [List.getD_cons_succ]
        rw [h.moved i (by omega), Shards.load_store _ hgn, if_neg]
        -- the row taken later lies behind the gap filled now
        have hmem : (unmarked marks (j + 1) k).getD i 0 ∈ unmarked marks (j + 1) k := by
          rw [List.getD_eq_getElem _ _ (by omega)]
          exact List.getElem_mem _
        have := (mem_unmarked.1 hmem).1.1
        omega
  · rw [List.mem_cons, not_or] at hi
    rw [h.kept i hi.2, Shards.load_store _ hgn, if_neg hi.1]
  · rw [List.mem_append, List.mem_cons, mem_skipReads, hstop] at hi
    rcases hi with hi | rfl | hi
    · omega
    · omega
    · have := h.reads i hi
      omega

/-- With enough parity shards, every gap is filled with one of them. -/
theorem gatherParity_filled {marks : List u8} (ds k : Nat) :
    ∀ (gaps : List Nat) (j : Nat) (data : Shards n T), j + k ≤ n → j + k ≤ marks.length →
      gaps.length ≤ (unmarked marks j k).length → gaps.Nodup → (∀ g ∈ gaps, g < j) →
      Filled marks ds gaps j k data (gatherParity marks ds gaps j data) := by
  induction k with
  | zero =>
      intro gaps j data _ _ hlen _ _
      obtain rfl := List.length_eq_zero_iff.1 (Nat.le_zero.1 hlen)
      exact gatherParity_nil marks ds j 0 data
  | succ k ih =>
      intro gaps j data hn hm hlen hnodup hlt
      cases gaps with
      | nil => exact gatherParity_nil marks ds j (k + 1) data
      | cons gap gaps =>
          by_cases h : marks.getD j 0 = 0
          · rw [unmarked_here k h, List.length_cons, List.length_cons] at hlen
            have hcons := List.nodup_cons.1 hnodup
            have hgap := hlt gap List.mem_cons_self
            refine Filled.take (by omega) (by omega) h hgap hcons.1 (by omega) ?_
            refine ih gaps (j + 1) _ (by omega) (by omega) (by omega) hcons.2 fun g hg => ?_
            have := hlt g (List.mem_cons_of_mem gap hg)
            omega
          · rw [unmarked_next k h] at hlen
            have hrest := ih (gap :: gaps) (j + 1) data (by omega) (by omega) hlen hnodup
              fun g hg => Nat.lt_succ_of_lt (hlt g hg)
            rw [gatherParity_marked gaps data (by omega) h]
            refine ⟨hrest.filled, ?_, fun i hi => ?_, hrest.kept, fun i hi => ?_⟩
            · rw [unmarked_next k h]
              exact hrest.rowperm
            · rw [unmarked_next k h]
              exact hrest.moved i hi
            · rcases List.mem_cons.1 hi with rfl | hi
              · omega
              · have := hrest.reads i hi
                omega

/-- With too few parity rows ahead the last search runs past the shards. -/
theorem gatherParity_fails {marks : List u8} (ds k : Nat) (hn : n ≤ marks.length) :
    ∀ (gaps : List Nat) (j : Nat) (data : Shards n T), j + k = n →
      (unmarked marks j k).length < gaps.length →
      let g := gatherParity marks ds gaps j data
      g.filled = false ∧ ∃ i ∈ g.reads, n ≤ i := by
  induction k with
  | zero =>
      intro gaps j data hj hlen
      cases gaps with
      | nil => exact absurd hlen (Nat.not_lt_zero _)
      | cons gap gaps =>
          have hle := le_skipMarked marks j
          rw [gatherParity]
          dsimp only
          rw [if_pos (by omega)]
          exact ⟨rfl, j, mem_skipReads.2 ⟨le_rfl, hle⟩, by omega⟩
  | succ k ih =>
      intro gaps j data hj hlen
      cases gaps with
      | nil => exact absurd hlen (Nat.not_lt_zero _)
      | cons gap gaps =>
          by_cases h : marks.getD j 0 = 0
          · rw [unmarked_here k h, List.length_cons, List.length_cons] at hlen
            obtain ⟨hfilled, i, hi, hni⟩ :=
              ih gaps (j + 1) (data.store gap (data.load j)) (by omega) (by omega)
            rw [gatherParity]
            dsimp only
            rw [skipMarked_zero (by omega) h, if_neg (by omega)]
            exact ⟨hfilled, i, List.mem_append_right _ (List.mem_cons_of_mem _ hi), hni⟩
          · rw [unmarked_next k h] at hlen
            obtain ⟨hfilled, i, hi, hni⟩ := ih (gap :: gaps) (j + 1) data (by omega) hlen
            rw [gatherParity_marked gaps data (by omega) h]
            exact ⟨hfilled, i, List.mem_cons_of_mem j hi, hni⟩

end ConfigEnv.TunVpn
