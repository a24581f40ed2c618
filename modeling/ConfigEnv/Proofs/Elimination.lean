/-
Module: ConfigEnv.Proofs.Elimination
Layer: Proofs
Purpose: `invert_mat` refines the elimination of Lib.Pivot. The work matrix and the rows it is
  transformed with are read as a system over the field of the tables; each pass of the two loops is
  then one step of that elimination. Scaling a pivot row takes `W` bytes from the pivot on and so
  runs into the next row, where it only meets columns that are cleared already.
Trusted boundary: none
Main exports: Placed, system, forwardPass, step_forwardPass, backPass, step_backPass,
  invertMat_solves
Open obligations: none
-/
import ConfigEnv.Lib.Pivot
import ConfigEnv.TunVpn.Gf28
import Mathlib.Algebra.BigOperators.Ring.Finset
import Mathlib.Tactic.Ring

namespace ConfigEnv.TunVpn

open Pivot (System)

variable {n T : Nat}

/-- A permutation of columns as `invert_mat` uses it: `K` distinct row indices. -/
structure Placed (n K : Nat) (c : List Nat) : Prop where
  lt : ∀ i < K, c.getD i 0 < n
  inj : ∀ i < K, ∀ j < K, c.getD i 0 = c.getD j 0 → i = j

/-- The first `W` rows of the work matrix, with the rows that stand for the missing ones as their
right-hand sides. -/
def system (V0 W : Nat) (c : List Nat) (e : Elimination n T) : System GF28 (Fin T) where
  coef i j := gf (e.wrk (i * W + j))
  rhs i t := gf (e.dst.load (c.getD (V0 + i) 0) t)

/-! ### Cells of the work matrix -/

theorem mem_row_iff {W i j r : Nat} (hj : j < W) :
    (r * W ≤ i * W + j ∧ i * W + j < r * W + W) ↔ i = r := by
  constructor
  · rintro ⟨hlow, hhigh⟩
    rcases Nat.lt_trichotomy i r with hlt | heq | hgt
    · have := Nat.mul_le_mul_right W (Nat.succ_le_of_lt hlt)
      rw [Nat.succ_mul] at this
      omega
    · exact heq
    · have := Nat.mul_le_mul_right W (Nat.succ_le_of_lt hgt)
      rw [Nat.succ_mul] at this
      omega
  · rintro rfl
    omega

/-- The `W` bytes from a pivot on: the rest of its row and the start of the next one. -/
theorem mem_from_pivot_iff {W i j x : Nat} (hj : j < W) (hx : x < W) :
    (x * W + x ≤ i * W + j ∧ i * W + j < x * W + x + W) ↔
      (i = x ∧ x ≤ j) ∨ (i = x + 1 ∧ j < x) := by
  have hsame := mem_row_iff (i := i) (r := x) hj
  have hnext := mem_row_iff (i := i) (r := x + 1) hj
  rw [Nat.succ_mul] at hnext
  by_cases hix : i = x
  · subst hix
    omega
  · by_cases hin : i = x + 1
    · subst hin
      rw [Nat.succ_mul]
      omega
    · omega

/-! ### The coefficients -/

/-- The entries that the first loop copies. -/
def missingEntry (src : List u8) (V0 K : Nat) (c d : List Nat) (i j : Nat) : u8 :=
  src.getD (d.getD i 0 * K + c.getD (V0 + j) 0) 0

/-- One row of the first loop. -/
def copyRow (src : List u8) (V0 W K : Nat) (c d : List Nat) (e : Elimination n T) (i : Nat) :
    Elimination n T :=
  (List.range W).foldl (fun e j =>
    { e with wrk := Function.update e.wrk (i * W + j) (missingEntry src V0 K c d i j) }) e

theorem invertCopy_eq (src : List u8) (V0 W K : Nat) (c d : List Nat) (e : Elimination n T) :
    invertCopy src V0 W K c d e = (List.range W).foldl (copyRow src V0 W K c d) e := rfl

/-- Writing a range of the work matrix changes that range, cell by cell. -/
theorem writeCells (f : Nat → u8) (base k : Nat) (e : Elimination n T) :
    (List.range k).foldl (fun e j =>
      ({ e with wrk := Function.update e.wrk (base + j) (f j) } : Elimination n T)) e =
      { e with wrk := fun i => if base ≤ i ∧ i < base + k then f (i - base) else e.wrk i } := by
  induction k with
  | zero =>
      have hnone : ∀ i, ¬ (base ≤ i ∧ i < base + 0) := by omega
      simp only [List.range_zero, List.foldl_nil, hnone, if_false]
  | succ k ih =>
      rw [List.range_succ, List.foldl_append, ih]
      simp only [List.foldl_cons, List.foldl_nil]
      congr 1
      funext i
      by_cases hi : i = base + k
      · subst hi
        rw [Function.update_self, if_pos (by omega), Nat.add_sub_cancel_left]
      · rw [Function.update_of_ne hi]
        exact if_congr (by omega) rfl rfl

/-- Copying one row of the matrix changes that row only. -/
theorem copyRow_spec (src : List u8) (V0 K : Nat) {W i j : Nat} (c d : List Nat)
    (e : Elimination n T) (r : Nat) (hj : j < W) :
    (copyRow src V0 W K c d e r).wrk (i * W + j) =
      if i = r then missingEntry src V0 K c d r j else e.wrk (i * W + j) := by
  rw [copyRow, writeCells]
  dsimp only
  rw [if_congr (mem_row_iff hj) rfl rfl]
  by_cases hir : i = r
  · subst hir
    rw [if_pos rfl, if_pos rfl, Nat.add_sub_cancel_left]
  · rw [if_neg hir, if_neg hir]

/-- Copying a row leaves the shards as they are. -/
theorem copyRow_dst (src : List u8) (V0 W K : Nat) (c d : List Nat) (e : Elimination n T)
    (r : Nat) : (copyRow src V0 W K c d e r).dst = e.dst := by
  rw [copyRow, writeCells]

theorem invertCopy_dst (src : List u8) (V0 W K : Nat) (c d : List Nat) (e : Elimination n T) :
    (invertCopy src V0 W K c d e).dst = e.dst := by
  rw [invertCopy_eq]
  refine List.foldlRecOn (motive := fun e' : Elimination n T => e'.dst = e.dst) _ _ rfl
    fun e' he' r _ => ?_
  rw [copyRow_dst, he']

/-- After the copy, the work matrix is the part that belongs to the lost shards. -/
theorem invertCopy_wrk (src : List u8) (V0 K : Nat) {W i j : Nat} (c d : List Nat)
    (e : Elimination n T) (hi : i < W) (hj : j < W) :
    (invertCopy src V0 W K c d e).wrk (i * W + j) = missingEntry src V0 K c d i j := by
  suffices h : ∀ r, i < r → ((List.range r).foldl (copyRow src V0 W K c d) e).wrk (i * W + j) =
      missingEntry src V0 K c d i j from h W hi
  intro r
  induction r with
  | zero => exact fun h => absurd h (Nat.not_lt_zero i)
  | succ r ih =>
      intro hir
      rw [List.range_succ, List.foldl_append, List.foldl_cons, List.foldl_nil,
        copyRow_spec _ _ _ _ _ _ _ hj]
      by_cases heq : i = r
      · rw [if_pos heq, heq]
      · rw [if_neg heq]
        exact ih (by omega)

/-! ### Taking out the surviving rows -/

theorem axpyRow_wrk (e : Elimination n T) (i j : Nat) (u : u8) :
    (e.axpyRow i j u).wrk = e.wrk := rfl

/-- An `axpy` on rows changes one shard. -/
theorem load_axpyRow (e : Elimination n T) {i j k : Nat} (u : u8) (hi : i < n) :
    (e.axpyRow i j u).dst.load k =
      if k = i then axpy (e.dst.load i) (e.dst.load j) u else e.dst.load k :=
  Shards.load_store e.dst hi _

/-- The coefficient with which a surviving row enters the row that replaces missing row `i`. -/
def keptEntry (src : List u8) (K : Nat) (c d : List Nat) (i row : Nat) : u8 :=
  src.getD (d.getD i 0 * K + c.getD row 0) 0

/-- One row of the second loop. -/
def subtractRow (src : List u8) (V0 K : Nat) (c d : List Nat) (e : Elimination n T) (i : Nat) :
    Elimination n T :=
  (List.range V0).foldl (fun e row =>
    e.axpyRow (c.getD (V0 + i) 0) (c.getD row 0) (keptEntry src K c d i row)) e

theorem invertSubtract_eq (src : List u8) (V0 W K : Nat) (c d : List Nat) (e : Elimination n T) :
    invertSubtract src V0 W K c d e = (List.range W).foldl (subtractRow src V0 K c d) e := rfl

section Subtract

variable {src : List u8} {V0 W K : Nat} {c d : List Nat}

theorem subtractRow_wrk (e : Elimination n T) (i : Nat) :
    (subtractRow src V0 K c d e i).wrk = e.wrk := by
  refine List.foldlRecOn (motive := fun e' : Elimination n T => e'.wrk = e.wrk) _ _ rfl
    fun e' he' row _ => ?_
  rw [axpyRow_wrk, he']

/-- Subtracting for one lost shard takes the share of the kept ones out of it. -/
theorem load_subtractRow (hc : Placed n (V0 + W) c) (e : Elimination n T) {i k : Nat} (hi : i < W)
    (t : Fin T) :
    gf ((subtractRow src V0 K c d e i).dst.load k t) =
      if k = c.getD (V0 + i) 0 then
        gf (e.dst.load k t) - ∑ row ∈ Finset.range V0,
          gf (keptEntry src K c d i row) * gf (e.dst.load (c.getD row 0) t)
      else gf (e.dst.load k t) := by
  suffices h : ∀ v ≤ V0, ∀ k, gf (((List.range v).foldl (fun e row =>
      e.axpyRow (c.getD (V0 + i) 0) (c.getD row 0) (keptEntry src K c d i row)) e).dst.load k t) =
        if k = c.getD (V0 + i) 0 then
          gf (e.dst.load k t) - ∑ row ∈ Finset.range v,
            gf (keptEntry src K c d i row) * gf (e.dst.load (c.getD row 0) t)
        else gf (e.dst.load k t) from h V0 le_rfl k
  intro v hv
  induction v with
  | zero =>
      intro k
      rw [Finset.range_zero, Finset.sum_empty, sub_zero, ite_self]
      rfl
  | succ v ih =>
      intro k
      have hslot : c.getD (V0 + i) 0 < n := hc.lt _ (by omega)
      have hother : c.getD v 0 ≠ c.getD (V0 + i) 0 := by
        intro heq
        have := hc.inj v (by omega) (V0 + i) (by omega) heq
        omega
      rw [List.range_succ, List.foldl_append, List.foldl_cons, List.foldl_nil,
        load_axpyRow _ _ hslot]
      by_cases hk : k = c.getD (V0 + i) 0
      · rw [if_pos hk, if_pos hk, gf_axpy, ih (by omega), ih (by omega), if_pos rfl,
          if_neg hother, Finset.sum_range_succ, hk]
        ring
      · rw [if_neg hk, if_neg hk, ih (by omega), if_neg hk]

/-- Different lost shards have different rows. -/
theorem Placed.slot_inj (hc : Placed n (V0 + W) c) {i j : Nat} (hi : i < W) (hj : j < W) :
    c.getD (V0 + i) 0 = c.getD (V0 + j) 0 ↔ i = j := by
  constructor
  · intro heq
    have := hc.inj (V0 + i) (by omega) (V0 + j) (by omega) heq
    omega
  · rintro rfl
    rfl

/-- No kept shard shares a row with a lost one. -/
theorem Placed.kept_ne (hc : Placed n (V0 + W) c) {row i : Nat} (hrow : row < V0) (hi : i < W) :
    c.getD row 0 ≠ c.getD (V0 + i) 0 := by
  intro heq
  have := hc.inj row (by omega) (V0 + i) (by omega) heq
  omega

/-- Rows that do not stand for a missing row stay. -/
theorem load_subtractRows_other (hc : Placed n (V0 + W) c) (e : Elimination n T) {k r : Nat}
    (hr : r ≤ W) (hk : ∀ i < W, k ≠ c.getD (V0 + i) 0) (t : Fin T) :
    gf (((List.range r).foldl (subtractRow src V0 K c d) e).dst.load k t) =
      gf (e.dst.load k t) := by
  refine List.foldlRecOn
    (motive := fun e' : Elimination n T => gf (e'.dst.load k t) = gf (e.dst.load k t)) _ _ rfl
    fun e' he' i hi => ?_
  have hiW : i < W := Nat.lt_of_lt_of_le (List.mem_range.1 hi) hr
  rw [load_subtractRow hc e' hiW t, if_neg (hk i hiW), he']

/-- Subtracting for the first `r` lost shards changes those and no other. -/
theorem load_subtractRows (hc : Placed n (V0 + W) c) (e : Elimination n T) {i r : Nat} (hi : i < W)
    (hr : r ≤ W) (t : Fin T) :
    gf (((List.range r).foldl (subtractRow src V0 K c d) e).dst.load (c.getD (V0 + i) 0) t) =
      if i < r then
        gf (e.dst.load (c.getD (V0 + i) 0) t) - ∑ row ∈ Finset.range V0,
          gf (keptEntry src K c d i row) * gf (e.dst.load (c.getD row 0) t)
      else gf (e.dst.load (c.getD (V0 + i) 0) t) := by
  induction r with
  | zero => rfl
  | succ r ih =>
      rw [List.range_succ, List.foldl_append, List.foldl_cons, List.foldl_nil,
        load_subtractRow hc _ (i := r) (by omega) t, if_congr (hc.slot_inj hi (by omega)) rfl rfl]
      by_cases hir : i = r
      · subst hir
        rw [if_pos rfl, if_pos (by omega), ih (by omega), if_neg (Nat.lt_irrefl i)]
        congr 1
        refine Finset.sum_congr rfl fun row hrow => ?_
        rw [load_subtractRows_other hc e (by omega)
          (fun i hi => hc.kept_ne (Finset.mem_range.1 hrow) hi) t]
      · rw [if_neg hir, ih (by omega)]
        exact if_congr (by omega) rfl rfl

end Subtract

/-! ### The way down -/

section Forward

variable {V0 W : Nat} {c : List Nat}

/-- The first half of a pass of the third loop: the pivot row is scaled. -/
def scalePivot (V0 W : Nat) (c : List Nat) (x : Nat) (e : Elimination n T) : Elimination n T :=
  let u := gf28Inv (e.wrk (x * W + x))
  { wrk := wrkScal e.wrk (x * W + x) u W
    dst := e.dst.store (c.getD (V0 + x) 0) (scal (e.dst.load (c.getD (V0 + x) 0)) u) }

/-- The second half, for one row below the pivot. -/
def clearRow (V0 W : Nat) (c : List Nat) (x : Nat) (e : Elimination n T) (row : Nat) :
    Elimination n T :=
  let u := e.wrk (row * W + x)
  ({ e with wrk := wrkAxpy e.wrk (row * W) (x * W) u W } : Elimination n T).axpyRow
    (c.getD (V0 + row) 0) (c.getD (V0 + x) 0) u

/-- One round of `invertForward`. -/
def forwardPass (V0 W : Nat) (c : List Nat) (e : Elimination n T) (x : Nat) : Elimination n T :=
  (List.range' (x + 1) (W - (x + 1))).foldl (clearRow V0 W c x) (scalePivot V0 W c x e)

theorem invertForward_eq (e : Elimination n T) :
    invertForward V0 W c e = (List.range W).foldl (forwardPass V0 W c) e := rfl

/-- Scaling from the pivot on also takes the start of the next row, which is cleared already. -/
theorem coef_scalePivot {x i j : Nat} {e : Elimination n T} (hx : x < W)
    (hpivot : (system V0 W c e).coef x x ≠ 0)
    (hclear : ∀ j < x, ∀ i < W, j < i → (system V0 W c e).coef i j = 0) (hi : i < W) (hj : j < W) :
    (system V0 W c (scalePivot V0 W c x e)).coef i j =
      if i = x then ((system V0 W c e).coef x x)⁻¹ * (system V0 W c e).coef x j
      else (system V0 W c e).coef i j := by
  have hu : gf (gf28Inv (e.wrk (x * W + x))) ≠ 0 := by
    rw [gf_inv]
    exact inv_ne_zero hpivot
  change gf (if _ then _ else _) = _
  rw [if_congr (mem_from_pivot_iff hj hx) rfl rfl]
  by_cases hix : i = x
  · rw [if_pos hix]
    subst hix
    by_cases hij : i ≤ j
    · rw [if_pos (.inl ⟨rfl, hij⟩), gf_scal hu, gf_inv]
      rfl
    · have hzero := hclear j (by omega) i hi (by omega)
      rw [if_neg (by omega), hzero, mul_zero]
      exact hzero
  · rw [if_neg hix]
    split_ifs with hnext
    · have hzero := hclear j (by omega) i hi (by omega)
      rw [gf_scal hu, hzero]
      exact (congrArg (_ * ·) hzero).trans (mul_zero _)
    · rfl

/-- Scaling the pivot row scales its right-hand side. -/
theorem rhs_scalePivot (hc : Placed n (V0 + W) c) {x i : Nat} {e : Elimination n T} (hx : x < W)
    (hpivot : (system V0 W c e).coef x x ≠ 0) (hi : i < W) (t : Fin T) :
    (system V0 W c (scalePivot V0 W c x e)).rhs i t =
      if i = x then ((system V0 W c e).coef x x)⁻¹ * (system V0 W c e).rhs x t
      else (system V0 W c e).rhs i t := by
  have hu : gf (gf28Inv (e.wrk (x * W + x))) ≠ 0 := by
    rw [gf_inv]
    exact inv_ne_zero hpivot
  change gf ((e.dst.store _ _).load _ t) = _
  rw [Shards.load_store _ (hc.lt _ (by omega)), if_congr (hc.slot_inj hi hx) rfl rfl]
  split_ifs
  · rw [gf_scal hu, gf_inv]
    rfl
  · rfl

/-- Clearing a row subtracts a multiple of the pivot row from its coefficients. -/
theorem coef_clearRow {x row i j : Nat} (e : Elimination n T) (hj : j < W) :
    (system V0 W c (clearRow V0 W c x e row)).coef i j =
      if i = row then (system V0 W c e).coef row j -
        (system V0 W c e).coef row x * (system V0 W c e).coef x j
      else (system V0 W c e).coef i j := by
  change gf (if _ then _ else _) = _
  rw [if_congr (mem_row_iff hj) rfl rfl]
  by_cases hir : i = row
  · subst hir
    rw [if_pos rfl, if_pos rfl, gf_axpy, Nat.add_sub_cancel_left]
    rfl
  · rw [if_neg hir, if_neg hir]
    rfl

/-- Clearing a row subtracts the same multiple from its right-hand side. -/
theorem rhs_clearRow (hc : Placed n (V0 + W) c) {x row i : Nat} (e : Elimination n T)
    (hrow : row < W) (hi : i < W) (t : Fin T) :
    (system V0 W c (clearRow V0 W c x e row)).rhs i t =
      if i = row then (system V0 W c e).rhs row t -
        (system V0 W c e).coef row x * (system V0 W c e).rhs x t
      else (system V0 W c e).rhs i t := by
  change gf ((Elimination.axpyRow _ _ _ _).dst.load _ t) = _
  rw [load_axpyRow _ _ (hc.lt _ (by omega)), if_congr (hc.slot_inj hi hrow) rfl rfl]
  split_ifs
  · rw [gf_axpy]
    rfl
  · rfl

/-- The rows below the pivot, one after the other. -/
theorem system_clearRows (hc : Placed n (V0 + W) c) {x : Nat} (e : Elimination n T) (k : Nat)
    (hk : x + 1 + k ≤ W) :
    let s := system V0 W c e
    let s' := system V0 W c ((List.range' (x + 1) k).foldl (clearRow V0 W c x) e)
    (∀ i < W, ∀ j < W, s'.coef i j =
      if x < i ∧ i < x + 1 + k then s.coef i j - s.coef i x * s.coef x j else s.coef i j) ∧
    ∀ i < W, ∀ t, s'.rhs i t =
      if x < i ∧ i < x + 1 + k then s.rhs i t - s.coef i x * s.rhs x t else s.rhs i t := by
  induction k with
  | zero =>
      refine ⟨fun i _ j _ => ?_, fun i _ t => ?_⟩ <;>
      · rw [if_neg (by omega)]
        rfl
  | succ k ih =>
      obtain ⟨hcoef, hrhs⟩ := ih (by omega)
      dsimp only at hcoef hrhs ⊢
      rw [List.range'_1_concat, List.foldl_append, List.foldl_cons, List.foldl_nil]
      -- neither the row cleared now nor the pivot row has changed so far
      refine ⟨fun i hi j hj => ?_, fun i hi t => ?_⟩
      · rw [coef_clearRow _ hj, hcoef i hi j hj, hcoef x (by omega) j hj,
          hcoef (x + 1 + k) (by omega) j hj, hcoef (x + 1 + k) (by omega) x (by omega),
          if_neg (by omega : ¬ (x < x + 1 + k ∧ x + 1 + k < x + 1 + k)),
          if_neg (by omega : ¬ (x < x ∧ x < x + 1 + k)),
          if_neg (by omega : ¬ (x < x + 1 + k ∧ x + 1 + k < x + 1 + k))]
        by_cases hik : i = x + 1 + k
        · subst hik
          rw [if_pos rfl, if_pos (by omega)]
        · rw [if_neg hik]
          exact if_congr (by omega) rfl rfl
      · rw [rhs_clearRow hc _ (by omega) hi, hrhs i hi t, hrhs x (by omega) t,
          hrhs (x + 1 + k) (by omega) t, hcoef (x + 1 + k) (by omega) x (by omega),
          if_neg (by omega : ¬ (x < x + 1 + k ∧ x + 1 + k < x + 1 + k)),
          if_neg (by omega : ¬ (x < x ∧ x < x + 1 + k)),
          if_neg (by omega : ¬ (x < x + 1 + k ∧ x + 1 + k < x + 1 + k))]
        by_cases hik : i = x + 1 + k
        · subst hik
          rw [if_pos rfl, if_pos (by omega)]
        · rw [if_neg hik]
          exact if_congr (by omega) rfl rfl

/-- A pass of the third loop is a step down. -/
theorem step_forwardPass (hc : Placed n (V0 + W) c) {x : Nat} (e : Elimination n T) (hx : x < W)
    (hpivot : (system V0 W c e).coef x x ≠ 0)
    (hclear : ∀ j < x, ∀ i < W, j < i → (system V0 W c e).coef i j = 0) :
    Pivot.Step W x (system V0 W c e) (system V0 W c (forwardPass V0 W c e x)) := by
  have hall : x + 1 + (W - (x + 1)) ≤ W := by omega
  obtain ⟨hcoef, hrhs⟩ := system_clearRows hc (scalePivot V0 W c x e) _ hall
  have hscaled := fun i hi j hj => coef_scalePivot (i := i) (j := j) hx hpivot hclear hi hj
  have hscaled' := fun i hi t => rhs_scalePivot (i := i) hc hx hpivot hi t
  refine ⟨fun i hi j hj => ?_, fun i hi t => ?_⟩
  · rw [forwardPass, hcoef i hi j hj, hscaled i hi j hj, hscaled x hx j hj, hscaled i hi x hx]
    unfold Pivot.entry
    rcases Nat.lt_trichotomy i x with hlt | rfl | hgt
    · rw [if_neg (by omega), if_neg (by omega), if_pos hlt]
    · rw [if_neg (by omega), if_pos rfl, if_neg (by omega), if_pos rfl]
    · rw [if_pos (by omega), if_neg (by omega), if_neg (by omega), if_pos rfl, if_neg (by omega),
        if_neg (by omega)]
  · rw [forwardPass, hrhs i hi t, hscaled' i hi t, hscaled' x hx t, hscaled i hi x hx]
    unfold Pivot.entry
    rcases Nat.lt_trichotomy i x with hlt | rfl | hgt
    · rw [if_neg (by omega), if_neg (by omega), if_pos hlt]
    · rw [if_neg (by omega), if_pos rfl, if_neg (by omega), if_pos rfl]
    · rw [if_pos (by omega), if_neg (by omega), if_neg (by omega), if_pos rfl, if_neg (by omega),
        if_neg (by omega)]

/-- The way down keeps the invariant, pass after pass. -/
theorem inv_invertForward (hc : Placed n (V0 + W) c) {m : Nat → Nat → GF28}
    {d : Nat → Fin T → GF28} (hreg : Pivot.Regular W m) {e : Elimination n T}
    (h : Pivot.Inv W m d 0 (system V0 W c e)) :
    Pivot.Inv W m d W (system V0 W c (invertForward V0 W c e)) := by
  rw [invertForward_eq]
  suffices hrun : ∀ x ≤ W,
      Pivot.Inv W m d x (system V0 W c ((List.range x).foldl (forwardPass V0 W c) e)) from
    hrun W le_rfl
  intro x hx
  induction x with
  | zero => exact h
  | succ x ih =>
      have hinv := ih (by omega)
      rw [List.range_succ, List.foldl_append, List.foldl_cons, List.foldl_nil]
      apply hinv.step hreg (by omega)
      exact step_forwardPass hc _ (by omega) (hinv.pivot_ne_zero hreg (by omega)) hinv.below

end Forward

/-! ### The way up -/

section Back

variable {V0 W : Nat} {c : List Nat}

/-- A pass of the last loop, for one row above the pivot. -/
def backRow (V0 W : Nat) (c : List Nat) (x : Nat) (e : Elimination n T) (row : Nat) :
    Elimination n T :=
  e.axpyRow (c.getD (V0 + row) 0) (c.getD (V0 + x) 0) (e.wrk (row * W + x))

/-- One round of `invertBack`. -/
def backPass (V0 W : Nat) (c : List Nat) (e : Elimination n T) (x : Nat) : Elimination n T :=
  (List.range x).foldl (backRow V0 W c x) e

theorem invertBack_eq (e : Elimination n T) :
    invertBack V0 W c e = (List.range W).reverse.foldl (backPass V0 W c) e := rfl

/-- A step back subtracts the share of a solved unknown. -/
theorem rhs_backRow (hc : Placed n (V0 + W) c) {x row i : Nat} (e : Elimination n T)
    (hrow : row < W) (hi : i < W) (t : Fin T) :
    (system V0 W c (backRow V0 W c x e row)).rhs i t =
      if i = row then (system V0 W c e).rhs row t -
        (system V0 W c e).coef row x * (system V0 W c e).rhs x t
      else (system V0 W c e).rhs i t := by
  change gf ((Elimination.axpyRow _ _ _ _).dst.load _ t) = _
  rw [load_axpyRow _ _ (hc.lt _ (by omega)), if_congr (hc.slot_inj hi hrow) rfl rfl]
  split_ifs
  · rw [gf_axpy]
    rfl
  · rfl

/-- A pass of the last loop is a step up. -/
theorem step_backPass (hc : Placed n (V0 + W) c) {x : Nat} (e : Elimination n T) (hx : x < W) :
    Pivot.BackStep W x (system V0 W c e) (system V0 W c (backPass V0 W c e x)) := by
  suffices h : ∀ k ≤ x,
      let s := system V0 W c e
      let e' := (List.range k).foldl (backRow V0 W c x) e
      e'.wrk = e.wrk ∧ ∀ i < W, ∀ t, (system V0 W c e').rhs i t =
        if i < k then s.rhs i t - s.coef i x * s.rhs x t else s.rhs i t by
    obtain ⟨hwrk, hrhs⟩ := h x le_rfl
    exact ⟨fun i _ j _ => congrArg gf (congrFun hwrk (i * W + j)), hrhs⟩
  intro k hk
  induction k with
  | zero => exact ⟨rfl, fun i _ t => (if_neg (Nat.not_lt_zero i)).symm⟩
  | succ k ih =>
      obtain ⟨hwrk, hrhs⟩ := ih (by omega)
      dsimp only at hrhs ⊢
      rw [List.range_succ, List.foldl_append, List.foldl_cons, List.foldl_nil]
      refine ⟨hwrk, fun i hi t => ?_⟩
      have hcoef : (system V0 W c ((List.range k).foldl (backRow V0 W c x) e)).coef k x =
          (system V0 W c e).coef k x := congrArg gf (congrFun hwrk (k * W + x))
      rw [rhs_backRow hc _ (by omega) hi, hrhs k (by omega) t, hrhs x hx t, hrhs i hi t, hcoef,
        if_neg (Nat.lt_irrefl k), if_neg (by omega : ¬ x < k)]
      by_cases hik : i = k
      · subst hik
        rw [if_pos rfl, if_pos (Nat.lt_succ_self i)]
      · rw [if_neg hik]
        exact if_congr (by omega) rfl rfl

/-- After the steps back, every right-hand side is the unknown itself. -/
theorem solved_invertBack (hc : Placed n (V0 + W) c) {d : Nat → Fin T → GF28}
    {e : Elimination n T} (h : Pivot.Pending W d W (system V0 W c e)) :
    ∀ i < W, ∀ t, (system V0 W c (invertBack V0 W c e)).rhs i t = d i t := by
  rw [invertBack_eq]
  suffices hrun : ∀ x ≤ W, ∀ e : Elimination n T, Pivot.Pending W d x (system V0 W c e) →
      Pivot.Pending W d 0
        (system V0 W c ((List.range x).reverse.foldl (backPass V0 W c) e)) from
    (hrun W le_rfl e h).done
  intro x
  induction x with
  | zero => exact fun _ _ h => h
  | succ x ih =>
      intro hx e h
      rw [List.range_succ, List.reverse_append, List.reverse_singleton, List.singleton_append,
        List.foldl_cons]
      exact ih (by omega) _ (h.step (by omega) (step_backPass hc e (by omega)))

end Back

/-! ### The whole of `invert_mat` -/

section Whole

variable {src : List u8} {V0 W : Nat} {c d : List Nat}

/-- The system that is solved has the matrix of the lost shards. -/
theorem system_invertCopy (e : Elimination n T) {i j : Nat} (hi : i < W) (hj : j < W) :
    (system V0 W c (invertCopy src V0 W (V0 + W) c d e)).coef i j =
      gf (missingEntry src V0 (V0 + W) c d i j) :=
  congrArg gf (invertCopy_wrk src V0 (V0 + W) c d e hi hj)

theorem invertSubtract_wrk (K : Nat) (e : Elimination n T) :
    (invertSubtract src V0 W K c d e).wrk = e.wrk := by
  rw [invertSubtract_eq]
  refine List.foldlRecOn (motive := fun e' : Elimination n T => e'.wrk = e.wrk) _ _ rfl
    fun e' he' i _ => ?_
  rw [subtractRow_wrk, he']

/-- If the rows that stand for the missing ones are the parities of some unknowns and the surviving
rows, `invert_mat` turns them into the unknowns. -/
theorem invertMat_solves (src : List u8) (d : List Nat) (hc : Placed n (V0 + W) c)
    (e : Elimination n T)
    (hreg : Pivot.Regular W fun i j => gf (missingEntry src V0 (V0 + W) c d i j))
    {u : Nat → Fin T → GF28}
    (hparity : ∀ i < W, ∀ t, gf (e.dst.load (c.getD (V0 + i) 0) t) =
      ∑ row ∈ Finset.range V0,
        gf (keptEntry src (V0 + W) c d i row) * gf (e.dst.load (c.getD row 0) t) +
      ∑ j ∈ Finset.range W, gf (missingEntry src V0 (V0 + W) c d i j) * u j t)
    {i : Nat} (hi : i < W) (t : Fin T) :
    gf ((invertMat src V0 (V0 + W) c d e).dst.load (c.getD (V0 + i) 0) t) = u i t := by
  have hW : V0 + W - V0 = W := Nat.add_sub_cancel_left V0 W
  have hdst := invertCopy_dst src V0 W (V0 + W) c d e
  have hinit : Pivot.Inv W (fun i j => gf (missingEntry src V0 (V0 + W) c d i j)) u 0
      (system V0 W c (invertSubtract src V0 W (V0 + W) c d
        (invertCopy src V0 W (V0 + W) c d e))) := by
    refine Pivot.Inv.init (fun i hi j hj => ?_) fun i hi t => ?_
    · rw [← system_invertCopy e hi hj]
      exact congrArg gf (congrFun (invertSubtract_wrk (V0 + W) _) (i * W + j))
    · change gf ((invertSubtract src V0 W (V0 + W) c d _).dst.load _ t) = _
      rw [invertSubtract_eq, load_subtractRows hc _ hi le_rfl, if_pos hi, hdst, hparity i hi t]
      exact add_sub_cancel_left _ _
  rw [invertMat, hW]
  exact solved_invertBack hc (inv_invertForward hc hreg hinit).pending i hi t

/-- An `axpy` for a lost shard leaves every other shard. -/
theorem load_axpyRow_other (hc : Placed n (V0 + W) c) (e : Elimination n T) {i j k : Nat} (u : u8)
    (hi : i < W) (hk : ∀ i < W, k ≠ c.getD (V0 + i) 0) :
    (e.axpyRow (c.getD (V0 + i) 0) j u).dst.load k = e.dst.load k := by
  rw [load_axpyRow e u (hc.lt _ (by omega)), if_neg (hk i hi)]

/-- Rows that do not stand for a missing row stay. -/
theorem load_invertMat_other (src : List u8) (d : List Nat) (hc : Placed n (V0 + W) c)
    (e : Elimination n T) {k : Nat} (hk : ∀ i < W, k ≠ c.getD (V0 + i) 0) :
    (invertMat src V0 (V0 + W) c d e).dst.load k = e.dst.load k := by
  have hW : V0 + W - V0 = W := Nat.add_sub_cancel_left V0 W
  rw [invertMat, hW, ← invertCopy_dst src V0 W (V0 + W) c d e]
  generalize invertCopy src V0 W (V0 + W) c d e = e₀
  let Kept (e' : Elimination n T) : Prop := e'.dst.load k = e₀.dst.load k
  have hsubtract : Kept (invertSubtract src V0 W (V0 + W) c d e₀) := by
    refine List.foldlRecOn (motive := Kept) _ _ rfl fun e' he' i hi => ?_
    refine List.foldlRecOn (motive := Kept) _ _ he' fun e' he' row _ => ?_
    exact (load_axpyRow_other hc e' _ (List.mem_range.1 hi) hk).trans he'
  have hforward : Kept (invertForward V0 W c (invertSubtract src V0 W (V0 + W) c d e₀)) := by
    refine List.foldlRecOn (motive := Kept) _ _ hsubtract fun e' he' x hx => ?_
    refine List.foldlRecOn (motive := Kept) _ _ ?_ fun e' he' row hrow => ?_
    · have hxW := List.mem_range.1 hx
      refine (Shards.load_store e'.dst (hc.lt _ (by omega)) _).trans ?_
      rw [if_neg (hk x hxW)]
      exact he'
    · have hrowW := List.mem_range'_1.1 hrow
      exact (load_axpyRow_other hc _ _ (by omega) hk).trans he'
  refine List.foldlRecOn (motive := Kept) _ _ hforward fun e' he' x hx => ?_
  refine List.foldlRecOn (motive := Kept) _ _ he' fun e' he' row hrow => ?_
  have hxW := List.mem_range.1 (List.mem_reverse.1 hx)
  have hrowx := List.mem_range.1 hrow
  exact (load_axpyRow_other hc e' _ (by omega) hk).trans he'

end Whole

end ConfigEnv.TunVpn
