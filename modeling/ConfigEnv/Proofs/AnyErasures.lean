/-
Module: ConfigEnv.Proofs.AnyErasures
Layer: Proofs
Purpose: The codec for any numbers of data and parity shards. Its coefficients form a Cauchy matrix
  over the field of the tables, with the parity rows and the data columns as points, so every choice
  of parity rows for the missing data rows leaves a system that `invert_mat` solves. The data rows
  are recovered from any `ds` of the `ts` rows; with fewer the decoder fails after a read behind the
  marks.
Trusted boundary: as TunVpn.ReedSolomon
Main exports: Built, parity_encode, load_encode, coefficient_regular, invertMat_wrk_above,
  decode_recovers, decode_too_few, decode_wrk_bound
Open obligations: none
-/
import ConfigEnv.Lib.Cauchy
import ConfigEnv.Proofs.Elimination
import ConfigEnv.Proofs.MarkSearch
import Mathlib.Tactic.IntervalCases

namespace ConfigEnv.TunVpn

variable {n T : Nat}

/-- A codec that `reed_solomon_new` built and that decoding may have used since. -/
def Built (rs : ReedSolomon) : Prop :=
  reedSolomonNew rs.ds rs.ps = some { rs with wrk := fun _ => 0 }

/-- What a codec that was built holds: its numbers of shards, and the parity matrix. -/
theorem Built.shape {rs : ReedSolomon} (h : Built rs) :
    0 < rs.ds ∧ 0 < rs.ps ∧ rs.ds + rs.ps ≤ 255 ∧ rs.ts = rs.ds + rs.ps ∧
      rs.p = (List.range rs.ps).flatMap fun j =>
        (List.range rs.ds).map fun i => gf28InvTable.getD ((rs.ps + i) ^^^ j) 0 := by
  unfold Built reedSolomonNew at h
  split_ifs at h with hbad
  obtain ⟨ds, ps, ts, p, wrk⟩ := rs
  simp only [Option.some.injEq, ReedSolomon.mk.injEq] at h
  obtain ⟨-, -, hts, hp, -⟩ := h
  exact ⟨by omega, by omega, by omega, hts.symm, hp.symm⟩

/-! ### The coefficients -/

theorem getD_flatMap_rows (f : Nat → Nat → u8) {k i j : Nat} (r : Nat) (hj : j < r) (hi : i < k) :
    ((List.range r).flatMap fun j => (List.range k).map (f j)).getD (j * k + i) 0 = f j i := by
  induction r with
  | zero => exact absurd hj (Nat.not_lt_zero j)
  | succ r ih =>
      have hlen : ((List.range r).flatMap fun j => (List.range k).map (f j)).length = r * k := by
        simp
      rw [List.range_succ, List.flatMap_append, List.flatMap_singleton]
      by_cases hjr : j = r
      · subst hjr
        rw [List.getD_append_right _ _ _ _ (by omega), hlen, Nat.add_sub_cancel_left,
          List.getD_eq_getElem _ _ (by simpa using hi)]
        simp
      · have hmul := Nat.mul_le_mul_right k (show j + 1 ≤ r by omega)
        rw [Nat.succ_mul] at hmul
        rw [List.getD_append _ _ _ _ (by omega)]
        exact ih (by omega)

/-- A shard number as a point of the Cauchy matrix. -/
def point (j : Nat) : GF28 := gf (BitVec.ofNat 8 j)

/-- Different indices are different points of the field. -/
theorem point_inj {i j : Nat} (hi : i < 256) (hj : j < 256) (h : point i = point j) : i = j := by
  have htoNat := congrArg BitVec.toNat (show BitVec.ofNat 8 i = BitVec.ofNat 8 j from h)
  rw [BitVec.toNat_ofNat, BitVec.toNat_ofNat, Nat.mod_eq_of_lt hi, Nat.mod_eq_of_lt hj] at htoNat
  exact htoNat

/-- Two different points never cancel. -/
theorem point_add_ne_zero {i j : Nat} (hi : i < 256) (hj : j < 256) (hne : i ≠ j) :
    point i + point j ≠ 0 := by
  intro hzero
  apply hne
  apply point_inj hi hj
  rw [← BinaryField.Elem.sub_eq_add] at hzero
  exact sub_eq_zero.1 hzero

/-- The table is read at the exclusive or of two points, and so holds the inverse of their sum. -/
theorem gf_inverse_entry {i j : Nat} (hi : i < 256) (hj : j < 256) :
    gf (gf28InvTable.getD (i ^^^ j) 0) = (point j + point i)⁻¹ := by
  have hxor : i ^^^ j = (BitVec.ofNat 8 j ^^^ BitVec.ofNat 8 i).toNat := by
    rw [BitVec.toNat_xor, BitVec.toNat_ofNat, BitVec.toNat_ofNat, Nat.mod_eq_of_lt hi,
      Nat.mod_eq_of_lt hj, Nat.xor_comm]
  rw [hxor]
  rfl

/-- The parity matrix is a Cauchy matrix. -/
theorem Built.coefficient {rs : ReedSolomon} (h : Built rs) {i j : Nat} (hj : j < rs.ps)
    (hi : i < rs.ds) :
    gf (rs.p.getD (j * rs.ds + i) 0) = (point j + point (rs.ps + i))⁻¹ := by
  obtain ⟨-, -, hsize, -, hp⟩ := h.shape
  rw [hp, getD_flatMap_rows (fun j i => gf28InvTable.getD ((rs.ps + i) ^^^ j) 0) rs.ps hj hi]
  exact gf_inverse_entry (by omega) (by omega)

/-- Whichever parity rows replace whichever data rows, the coefficients between them are regular. -/
theorem coefficient_regular {rs : ReedSolomon} (h : Built rs) {W : Nat} {r e : Nat → Nat}
    (hr : ∀ i < W, r i < rs.ps) (he : ∀ i < W, e i < rs.ds)
    (hrinj : ∀ i < W, ∀ j < W, r i = r j → i = j) (heinj : ∀ i < W, ∀ j < W, e i = e j → i = j) :
    Pivot.Regular W fun i j => (point (r i) + point (rs.ps + e j))⁻¹ := by
  obtain ⟨-, -, hsize, -, -⟩ := h.shape
  apply Cauchy.cauchy_regular (a := fun i => point (r i)) (b := fun j => point (rs.ps + e j))
  · intro i hi k hk heq
    have hir := hr i hi
    have hkr := hr k hk
    exact hrinj i hi k hk (point_inj (by omega) (by omega) heq)
  · intro i hi k hk heq
    have hie := he i hi
    have hke := he k hk
    have := point_inj (by omega) (by omega) heq
    exact heinj i hi k hk (by omega)
  · intro i hi j hj
    have hir := hr i hi
    have hje := he j hj
    exact point_add_ne_zero (by omega) (by omega) (by omega)

/-! ### Encoding -/

/-- One parity row of `gemm`. -/
def gemmRow (a : List u8) (k : Nat) (c : Shards n T) (row : Nat) : Shards n T :=
  (List.range k).foldl (fun c idx =>
    c.store (k + row) (axpy (c.load (k + row)) (c.load idx) (a.getD (row * k + idx) 0)))
    (c.store (k + row) fun _ => 0)

theorem gemm_eq (a : List u8) (rows k : Nat) (shards : Shards n T) :
    gemm a rows k shards = (List.range rows).foldl (gemmRow a k) shards := rfl

/-- One row of `gemm` computes one parity shard and leaves the others. -/
theorem load_gemmRow (a : List u8) {k row : Nat} (c : Shards n T) (hrow : k + row < n) (i : Nat)
    (t : Fin T) :
    gf ((gemmRow a k c row).load i t) =
      if i = k + row then
        ∑ idx ∈ Finset.range k, gf (a.getD (row * k + idx) 0) * gf (c.load idx t)
      else gf (c.load i t) := by
  suffices h : ∀ v ≤ k, ∀ i, gf (((List.range v).foldl (fun c idx =>
      c.store (k + row) (axpy (c.load (k + row)) (c.load idx) (a.getD (row * k + idx) 0)))
      (c.store (k + row) fun _ => 0)).load i t) =
        if i = k + row then
          ∑ idx ∈ Finset.range v, gf (a.getD (row * k + idx) 0) * gf (c.load idx t)
        else gf (c.load i t) from h k le_rfl i
  intro v hv
  induction v with
  | zero =>
      intro i
      rw [List.range_zero, List.foldl_nil, Shards.load_store _ hrow, Finset.range_zero,
        Finset.sum_empty]
      split_ifs <;> rfl
  | succ v ih =>
      intro i
      rw [List.range_succ, List.foldl_append, List.foldl_cons, List.foldl_nil,
        Shards.load_store _ hrow]
      by_cases hi : i = k + row
      · rw [if_pos hi, if_pos hi, gf_axpy, ih (by omega), ih (by omega), if_pos rfl,
          if_neg (by omega), Finset.sum_range_succ]
        exact BinaryField.Elem.sub_eq_add _ _
      · rw [if_neg hi, if_neg hi, ih (by omega), if_neg hi]

/-- After its rows, `gemm` has computed the parity shards and nothing else. -/
theorem load_gemm (a : List u8) {k : Nat} (shards : Shards n T) (i : Nat) (t : Fin T) (rows : Nat)
    (hrows : k + rows ≤ n) :
    gf ((gemm a rows k shards).load i t) =
      if k ≤ i ∧ i < k + rows then
        ∑ idx ∈ Finset.range k, gf (a.getD ((i - k) * k + idx) 0) * gf (shards.load idx t)
      else gf (shards.load i t) := by
  rw [gemm_eq]
  induction rows generalizing i with
  | zero =>
      rw [if_neg (by omega)]
      rfl
  | succ rows ih =>
      rw [List.range_succ, List.foldl_append, List.foldl_cons, List.foldl_nil,
        load_gemmRow _ _ (by omega)]
      by_cases hi : i = k + rows
      · rw [if_pos hi, if_pos (by omega), hi, Nat.add_sub_cancel_left]
        refine Finset.sum_congr rfl fun idx hidx => ?_
        have hlt := Finset.mem_range.1 hidx
        rw [ih idx (by omega), if_neg (by omega)]
      · rw [if_neg hi, ih i (by omega)]
        exact if_congr (by omega) rfl rfl

/-! ### The permutations of the decoder -/

/-- The data rows whose mark is set. -/
def erased (marks : List u8) (ds : Nat) : List Nat :=
  (List.range ds).filter fun i => marks.getD i 0 ≠ 0

/-- `colperm`: the surviving data rows, then the missing ones. -/
def columns (marks : List u8) (ds : Nat) : List Nat :=
  unmarked marks 0 ds ++ erased marks ds

/-- The erased shards are the data shards that are marked. -/
theorem mem_erased {marks : List u8} {ds i : Nat} :
    i ∈ erased marks ds ↔ i < ds ∧ marks.getD i 0 ≠ 0 := by
  rw [erased, List.mem_filter, List.mem_range, decide_eq_true_iff]

theorem nodup_erased (marks : List u8) (ds : Nat) : (erased marks ds).Nodup :=
  List.nodup_range.filter _

/-- The columns are the data shards in another order. -/
theorem columns_perm (marks : List u8) (ds : Nat) : (columns marks ds).Perm (List.range ds) := by
  have h := List.filter_append_perm (fun i => decide (marks.getD i 0 = 0)) (List.range ds)
  rw [columns, unmarked, ← List.range_eq_range', erased]
  simpa using h

theorem length_columns (marks : List u8) (ds : Nat) : (columns marks ds).length = ds := by
  rw [(columns_perm marks ds).length_eq, List.length_range]

/-- The first columns are the data shards that are there. -/
theorem columns_kept (marks : List u8) (ds : Nat) {row : Nat}
    (hrow : row < (unmarked marks 0 ds).length) :
    (columns marks ds).getD row 0 = (unmarked marks 0 ds).getD row 0 :=
  List.getD_append _ _ _ _ hrow

/-- The last columns are the data shards that are lost. -/
theorem columns_erased (marks : List u8) (ds i : Nat) :
    (columns marks ds).getD ((unmarked marks 0 ds).length + i) 0 = (erased marks ds).getD i 0 := by
  rw [columns, List.getD_append_right _ _ _ _ (Nat.le_add_right _ _), Nat.add_sub_cancel_left]

theorem placed_columns (marks : List u8) {ds : Nat} (hds : ds ≤ n) :
    Placed n ds (columns marks ds) := by
  have hperm := columns_perm marks ds
  have hlen := length_columns marks ds
  refine ⟨fun i hi => ?_, fun i hi j hj heq => ?_⟩
  · rw [List.getD_eq_getElem _ _ (by omega)]
    have hmem := hperm.mem_iff.1 (List.getElem_mem (show i < (columns marks ds).length by omega))
    exact Nat.lt_of_lt_of_le (List.mem_range.1 hmem) hds
  · rw [List.getD_eq_getElem _ _ (by omega), List.getD_eq_getElem _ _ (by omega)] at heq
    have hnodup : (columns marks ds).Nodup := hperm.nodup_iff.2 List.nodup_range
    exact (List.Nodup.getElem_inj_iff hnodup).1 heq

theorem sum_map_eq_sum_getD (f : Nat → GF28) (l : List Nat) :
    (l.map f).sum = ∑ k ∈ Finset.range l.length, f (l.getD k 0) := by
  induction l with
  | nil => rfl
  | cons a l ih =>
      rw [List.map_cons, List.sum_cons, List.length_cons, Finset.sum_range_succ', ih, add_comm]
      rfl

/-- A sum over the data rows, taken in the order of `colperm`. -/
theorem sum_columns (marks : List u8) (ds : Nat) (f : Nat → GF28) :
    ∑ idx ∈ Finset.range ds, f idx =
      ∑ row ∈ Finset.range (unmarked marks 0 ds).length, f ((columns marks ds).getD row 0) +
        ∑ j ∈ Finset.range (erased marks ds).length, f ((erased marks ds).getD j 0) := by
  have hrange : ∑ idx ∈ Finset.range ds, f idx = ((List.range ds).map f).sum := by
    rw [sum_map_eq_sum_getD, List.length_range]
    refine Finset.sum_congr rfl fun k hk => ?_
    rw [List.getD_eq_getElem _ _ (by simpa using hk), List.getElem_range]
  rw [hrange, ← ((columns_perm marks ds).map f).sum_eq, columns, List.map_append, List.sum_append,
    sum_map_eq_sum_getD, sum_map_eq_sum_getD, ← columns]
  congr 1
  refine Finset.sum_congr rfl fun row hrow => ?_
  rw [columns_kept marks ds (Finset.mem_range.1 hrow)]

/-! ### Decoding -/

section Decode

variable {rs : ReedSolomon} {marks : List u8}

theorem length_erased (marks : List u8) (ds : Nat) :
    ds - (erased marks ds).length = (unmarked marks 0 ds).length := by
  have h := length_unmarked marks ds
  rw [erased]
  omega

/-- The encoder leaves the data shards as they are. -/
theorem Built.load_encode (h : Built rs) (hn : rs.ts ≤ n) (s : Shards n T) {i : Nat}
    (hi : i < rs.ds) : (reedSolomonEncode rs s).2.load i = s.load i := by
  obtain ⟨-, -, -, hts, -⟩ := h.shape
  funext t
  apply gf_injective
  rw [reedSolomonEncode, if_neg (by omega)]
  exact (load_gemm rs.p s i t rs.ps (by omega)).trans (if_neg (by omega))

/-- A parity row is the combination of the data rows with its row of coefficients. -/
theorem Built.parity_encode (h : Built rs) (hn : rs.ts ≤ n) (s : Shards n T) {i : Nat}
    (hi : rs.ds ≤ i ∧ i < rs.ts) (t : Fin T) :
    gf ((reedSolomonEncode rs s).2.load i t) =
      ∑ idx ∈ Finset.range rs.ds,
        gf (rs.p.getD ((i - rs.ds) * rs.ds + idx) 0) * gf (s.load idx t) := by
  obtain ⟨-, -, -, hts, -⟩ := h.shape
  rw [reedSolomonEncode, if_neg (by omega)]
  exact (load_gemm rs.p s i t rs.ps (by omega)).trans (if_pos (by omega))

/-- The decoder with its permutations named. -/
theorem decode_eq (hn : rs.ts ≤ n) (hm : rs.ds ≤ marks.length) (data : Shards n T) :
    let kept := survivors marks (unmarked marks 0 rs.ds).length 0
    let g := gatherParity marks rs.ds (erased marks rs.ds) rs.ds data
    let e := invertMat rs.p (unmarked marks 0 rs.ds).length rs.ds (columns marks rs.ds) g.rowperm
      { wrk := rs.wrk, dst := g.data }
    let reads := List.range rs.ds ++ kept.2 ++ g.reads
    reedSolomonDecode rs data marks =
      if g.filled then { ret := 0, data := e.dst, rs := { rs with wrk := e.wrk }, reads := reads }
      else { ret := -1, data := g.data, rs := rs, reads := reads } := by
  have hkept := survivors_eq marks rs.ds 0 (by omega)
  have hlen := length_erased marks rs.ds
  rw [erased] at hlen
  rw [reedSolomonDecode, if_neg (by omega)]
  simp only [hlen, hkept, erased, columns]
  rfl

/-- Any `ds` of the rows leave a parity row for every missing data row. -/
theorem enough_parity (hts : rs.ts = rs.ds + rs.ps)
    (henough : rs.ds ≤ (unmarked marks 0 rs.ts).length) :
    (erased marks rs.ds).length ≤ (unmarked marks rs.ds rs.ps).length := by
  have hlen := length_unmarked marks rs.ds
  rw [hts, unmarked_append, List.length_append, Nat.zero_add] at henough
  rw [erased]
  omega

theorem unmarked_getD {j k i : Nat} (hi : i < (unmarked marks j k).length) :
    (unmarked marks j k).getD i 0 ∈ unmarked marks j k := by
  rw [List.getD_eq_getElem _ _ hi]
  exact List.getElem_mem hi

theorem erased_getD {ds i : Nat} (hi : i < (erased marks ds).length) :
    (erased marks ds).getD i 0 ∈ erased marks ds := by
  rw [List.getD_eq_getElem _ _ hi]
  exact List.getElem_mem hi

theorem getD_inj_of_nodup {l : List Nat} (hl : l.Nodup) {i j : Nat} (hi : i < l.length)
    (hj : j < l.length) (h : l.getD i 0 = l.getD j 0) : i = j := by
  rw [List.getD_eq_getElem _ _ hi, List.getD_eq_getElem _ _ hj] at h
  exact (List.Nodup.getElem_inj_iff hl).1 h

/-- `rowperm[i]` is the number of the parity row found for missing row `i`. -/
theorem rowperm_getD {l : List Nat} {ds k i : Nat} (hi : i < k) (hk : k ≤ l.length) :
    ((l.take k).map (· - ds)).getD i 0 = l.getD i 0 - ds := by
  have hlen : i < ((l.take k).map (· - ds)).length := by
    rw [List.length_map, List.length_take]
    omega
  rw [List.getD_eq_getElem _ _ hlen, List.getElem_map, List.getElem_take,
    List.getD_eq_getElem _ _ (by omega)]

/-- The rows the fourth loop leaves are the parities that `invert_mat` solves. -/
theorem gathered_parity (h : Built rs) (hn : rs.ts ≤ n) {original received : Shards n T}
    (hreceived : ∀ i < rs.ts, marks.getD i 0 = 0 →
      received.load i = (reedSolomonEncode rs original).2.load i)
    {g : Gathered n T} (hparity : (erased marks rs.ds).length ≤ (unmarked marks rs.ds rs.ps).length)
    (hg : Filled marks rs.ds (erased marks rs.ds) rs.ds rs.ps received g) {i : Nat}
    (hi : i < (erased marks rs.ds).length) (t : Fin T) :
    gf (g.data.load ((erased marks rs.ds).getD i 0) t) =
      ∑ row ∈ Finset.range (unmarked marks 0 rs.ds).length,
        gf (keptEntry rs.p rs.ds (columns marks rs.ds) g.rowperm i row) *
          gf (g.data.load ((columns marks rs.ds).getD row 0) t) +
      ∑ j ∈ Finset.range (erased marks rs.ds).length,
        gf (missingEntry rs.p (unmarked marks 0 rs.ds).length rs.ds (columns marks rs.ds) g.rowperm
          i j) * gf (original.load ((erased marks rs.ds).getD j 0) t) := by
  obtain ⟨-, -, -, hts, -⟩ := h.shape
  have hfound := mem_unmarked.1 (unmarked_getD (Nat.lt_of_lt_of_le hi hparity))
  have hrow : g.rowperm.getD i 0 = (unmarked marks rs.ds rs.ps).getD i 0 - rs.ds := by
    rw [hg.rowperm, rowperm_getD hi hparity]
  rw [hg.moved i hi, hreceived _ (by omega) hfound.2, h.parity_encode hn original (by omega) t,
    ← hrow, sum_columns marks]
  congr 1
  · refine Finset.sum_congr rfl fun row hlt => ?_
    -- a surviving row is where it was, and is the original one
    have hkept := unmarked_getD (Finset.mem_range.1 hlt)
    rw [← columns_kept marks rs.ds (Finset.mem_range.1 hlt)] at hkept
    have hmem := mem_unmarked.1 hkept
    have hnot : (columns marks rs.ds).getD row 0 ∉ erased marks rs.ds :=
      fun herased => (mem_erased.1 herased).2 hmem.2
    rw [keptEntry, hg.kept _ hnot, hreceived _ (by omega) hmem.2, h.load_encode hn _ (by omega)]
  · refine Finset.sum_congr rfl fun j _ => ?_
    rw [missingEntry, columns_erased]

/-- The part of the matrix that belongs to the lost shards is regular. -/
theorem missing_regular (h : Built rs) {g : List Nat}
    (hparity : (erased marks rs.ds).length ≤ (unmarked marks rs.ds rs.ps).length)
    (hg : g = ((unmarked marks rs.ds rs.ps).take (erased marks rs.ds).length).map (· - rs.ds)) :
    Pivot.Regular (erased marks rs.ds).length fun i j =>
      gf (missingEntry rs.p (unmarked marks 0 rs.ds).length rs.ds (columns marks rs.ds) g i j) := by
  have hrow : ∀ i < (erased marks rs.ds).length,
      g.getD i 0 = (unmarked marks rs.ds rs.ps).getD i 0 - rs.ds ∧
        rs.ds ≤ (unmarked marks rs.ds rs.ps).getD i 0 ∧ g.getD i 0 < rs.ps := by
    intro i hi
    have hfound := mem_unmarked.1 (unmarked_getD (Nat.lt_of_lt_of_le hi hparity))
    rw [hg, rowperm_getD hi hparity]
    exact ⟨rfl, hfound.1.1, by omega⟩
  have hcol : ∀ i < (erased marks rs.ds).length, (erased marks rs.ds).getD i 0 < rs.ds :=
    fun i hi => (mem_erased.1 (erased_getD hi)).1
  refine Pivot.Regular.congr (coefficient_regular h (r := fun i => g.getD i 0)
    (e := fun i => (erased marks rs.ds).getD i 0) (fun i hi => (hrow i hi).2.2) hcol
    (fun i hi j hj heq => ?_) fun i hi j hj heq => ?_) fun i hi j hj => ?_
  · obtain ⟨hi', hlei, -⟩ := hrow i hi
    obtain ⟨hj', hlej, -⟩ := hrow j hj
    exact getD_inj_of_nodup (nodup_unmarked marks rs.ds rs.ps) (by omega) (by omega) (by omega)
  · exact getD_inj_of_nodup (nodup_erased marks rs.ds) hi hj heq
  · rw [missingEntry, columns_erased]
    exact h.coefficient (hrow i hi).2.2 (hcol j hj)

/-- The fourth loop of the decoder finds a parity row for every missing data row. -/
theorem gather_enough (hts : rs.ts = rs.ds + rs.ps) (hn : rs.ts ≤ n) (hm : rs.ts ≤ marks.length)
    (henough : rs.ds ≤ (unmarked marks 0 rs.ts).length) (data : Shards n T) :
    Filled marks rs.ds (erased marks rs.ds) rs.ds rs.ps data
      (gatherParity marks rs.ds (erased marks rs.ds) rs.ds data) := by
  apply gatherParity_filled rs.ds rs.ps
  · omega
  · omega
  · exact enough_parity hts henough
  · exact nodup_erased marks rs.ds
  · exact fun g hg => (mem_erased.1 hg).1

/-- The permutation of the decoder in the form that `invert_mat` splits it. -/
theorem placed_split (hn : rs.ds ≤ n) :
    Placed n ((unmarked marks 0 rs.ds).length + (erased marks rs.ds).length)
      (columns marks rs.ds) := by
  have hsplit : (unmarked marks 0 rs.ds).length + (erased marks rs.ds).length = rs.ds :=
    length_unmarked marks rs.ds
  rw [hsplit]
  exact placed_columns marks hn

/-- What the decoder leaves of the rows once it has its parity rows. -/
def solved (rs : ReedSolomon) (marks : List u8) (g : Gathered n T) : Shards n T :=
  (invertMat rs.p (unmarked marks 0 rs.ds).length rs.ds (columns marks rs.ds) g.rowperm
    { wrk := rs.wrk, dst := g.data }).dst

/-- A received data row stays what it is. -/
theorem load_solved_received (hn : rs.ds ≤ n) {received : Shards n T} {g : Gathered n T} {i : Nat}
    (hg : Filled marks rs.ds (erased marks rs.ds) rs.ds rs.ps received g)
    (hmark : marks.getD i 0 = 0) : (solved rs marks g).load i = received.load i := by
  have hsplit : (unmarked marks 0 rs.ds).length + (erased marks rs.ds).length = rs.ds :=
    length_unmarked marks rs.ds
  have hother : ∀ j < (erased marks rs.ds).length,
      i ≠ (columns marks rs.ds).getD ((unmarked marks 0 rs.ds).length + j) 0 := by
    intro j hj heq
    rw [columns_erased] at heq
    exact (mem_erased.1 (heq ▸ erased_getD hj)).2 hmark
  have hload := load_invertMat_other rs.p g.rowperm (placed_split hn)
    { wrk := rs.wrk, dst := g.data } hother
  rw [hsplit] at hload
  exact hload.trans (hg.kept i fun herased => (mem_erased.1 herased).2 hmark)

/-- A missing data row is solved for. -/
theorem load_solved_missing (h : Built rs) (hn : rs.ts ≤ n) {original received : Shards n T}
    (hreceived : ∀ i < rs.ts, marks.getD i 0 = 0 →
      received.load i = (reedSolomonEncode rs original).2.load i)
    (hparity : (erased marks rs.ds).length ≤ (unmarked marks rs.ds rs.ps).length)
    {g : Gathered n T} (hg : Filled marks rs.ds (erased marks rs.ds) rs.ds rs.ps received g)
    {j : Nat} (hj : j < (erased marks rs.ds).length) :
    (solved rs marks g).load ((erased marks rs.ds).getD j 0) =
      original.load ((erased marks rs.ds).getD j 0) := by
  obtain ⟨-, -, -, hts, -⟩ := h.shape
  have hsplit : (unmarked marks 0 rs.ds).length + (erased marks rs.ds).length = rs.ds :=
    length_unmarked marks rs.ds
  have hplaced : Placed n _ (columns marks rs.ds) := placed_split (by omega)
  funext t
  apply gf_injective
  have hsolves := invertMat_solves rs.p g.rowperm hplaced
    { wrk := rs.wrk, dst := g.data }
    (u := fun j t => gf (original.load ((erased marks rs.ds).getD j 0) t))
    (by rw [hsplit]; exact missing_regular h hparity hg.rowperm)
    (fun i hi t => by
      rw [hsplit, columns_erased]
      exact gathered_parity h hn hreceived hparity hg hi t) hj t
  rw [hsplit, columns_erased] at hsolves
  exact hsolves

/-- Writing a range of the work matrix leaves what is behind it. -/
theorem writeCells_above (f : Nat → u8) {base k i : Nat} (e : Elimination n T)
    (hi : base + k ≤ i) :
    ((List.range k).foldl (fun e j =>
      ({ e with wrk := Function.update e.wrk (base + j) (f j) } : Elimination n T)) e).wrk i =
      e.wrk i := by
  rw [writeCells]
  exact if_neg (by omega)

/-- Inverting a `W` by `W` block changes no byte from `W * W + W - 1` on: the last pivot row is
scaled for `W` bytes like the others. -/
theorem invertMat_wrk_above (src : List u8) (V0 W : Nat) (c d : List Nat) (e : Elimination n T)
    {i : Nat} (hi : W * W + (W - 1) ≤ i) :
    (invertMat src V0 (V0 + W) c d e).wrk i = e.wrk i := by
  have hrowEnd : ∀ r < W, r * W + W ≤ W * W := by
    intro r hr
    have := Nat.mul_le_mul_right W (Nat.succ_le_of_lt hr)
    rwa [Nat.succ_mul] at this
  let Same (e' : Elimination n T) : Prop := e'.wrk i = e.wrk i
  have hcopy : Same (invertCopy src V0 W (V0 + W) c d e) := by
    refine List.foldlRecOn (motive := Same) _ _ rfl fun e' he' r hr => ?_
    have := hrowEnd r (List.mem_range.1 hr)
    exact (writeCells_above (missingEntry src V0 (V0 + W) c d r) e' (by omega)).trans he'
  have hsubtract : Same (invertSubtract src V0 W (V0 + W) c d
      (invertCopy src V0 W (V0 + W) c d e)) := by
    exact (congrFun (invertSubtract_wrk (V0 + W) _) i).trans hcopy
  have hforward : Same (invertForward V0 W c (invertSubtract src V0 W (V0 + W) c d
      (invertCopy src V0 W (V0 + W) c d e))) := by
    refine List.foldlRecOn (motive := Same) _ _ hsubtract fun e' he' x hx => ?_
    have hxW := List.mem_range.1 hx
    have hxEnd := hrowEnd x hxW
    refine List.foldlRecOn (motive := Same) _ _ ?_ fun e' he' row hrow => ?_
    · exact (if_neg (by omega)).trans he'
    · have hrowW := List.mem_range'_1.1 hrow
      have := hrowEnd row (by omega)
      exact (if_neg (by omega)).trans he'
  rw [invertMat, Nat.add_sub_cancel_left]
  refine List.foldlRecOn (motive := Same) _ _ hforward fun e' he' x _ => ?_
  exact List.foldlRecOn (motive := Same) _ _ he' fun e' he' row _ => he'

/-- With the rows that the decoder finds, this leaves all behind the `ps * ds` bytes of the work
matrix alone, but for the largest block that there can be. -/
theorem solved_wrk_above (h : Built rs) (henough : rs.ds ≤ (unmarked marks 0 rs.ts).length)
    (hroom : ¬ ((erased marks rs.ds).length = rs.ds ∧ rs.ps = rs.ds ∧ 2 ≤ rs.ds))
    (rowperm : List Nat) (e : Elimination n T) {i : Nat} (hi : rs.ps * rs.ds ≤ i) :
    (invertMat rs.p (unmarked marks 0 rs.ds).length rs.ds (columns marks rs.ds) rowperm e).wrk i =
      e.wrk i := by
  obtain ⟨hds, hps, -, hts, -⟩ := h.shape
  have hparity := enough_parity hts henough
  have hsplit : (unmarked marks 0 rs.ds).length + (erased marks rs.ds).length = rs.ds :=
    length_unmarked marks rs.ds
  have hfound : (unmarked marks rs.ds rs.ps).length ≤ rs.ps := by
    rw [unmarked]
    exact (List.length_filter_le _ _).trans_eq List.length_range'
  have hfits : (erased marks rs.ds).length * (erased marks rs.ds).length +
      ((erased marks rs.ds).length - 1) ≤ rs.ps * rs.ds := by
    generalize (erased marks rs.ds).length = W at *
    rcases Nat.lt_or_ge W 2 with hsmall | hlarge
    · have hone : 1 ≤ rs.ps * rs.ds := Nat.mul_pos hps hds
      interval_cases W <;> omega
    · rcases Nat.lt_or_ge W rs.ds with hlt | hge
      · have hmul := Nat.mul_le_mul (show W ≤ rs.ps by omega) (show W + 1 ≤ rs.ds by omega)
        rw [Nat.mul_succ] at hmul
        omega
      · have hmul := Nat.mul_le_mul (show W + 1 ≤ rs.ps by omega) (show W ≤ rs.ds by omega)
        rw [Nat.succ_mul] at hmul
        omega
  have habove := invertMat_wrk_above rs.p (unmarked marks 0 rs.ds).length
    (erased marks rs.ds).length (columns marks rs.ds) rowperm e (hfits.trans hi)
  rwa [hsplit] at habove

/-- Decoding gives back the data rows of a codeword when any `ds` of its rows were received,
whatever the other rows hold and whatever the codec was used for before. It reads no mark behind the
rows and changes nothing behind the work matrix, unless all data rows were lost and there are as
many parity rows, at least two. -/
theorem decode_recovers (h : Built rs) (hn : rs.ts ≤ n) (hm : rs.ts ≤ marks.length)
    (original received : Shards n T)
    (hreceived : ∀ i < rs.ts, marks.getD i 0 = 0 →
      received.load i = (reedSolomonEncode rs original).2.load i)
    (henough : rs.ds ≤ (unmarked marks 0 rs.ts).length)
    (hroom : ¬ ((erased marks rs.ds).length = rs.ds ∧ rs.ps = rs.ds ∧ 2 ≤ rs.ds)) :
    let d := reedSolomonDecode rs received marks
    d.ret = 0 ∧ (∀ i < rs.ds, d.data.load i = original.load i) ∧ (∀ i ∈ d.reads, i < rs.ts) ∧
      ∀ i, rs.ps * rs.ds ≤ i → d.rs.wrk i = rs.wrk i := by
  obtain ⟨-, -, -, hts, -⟩ := h.shape
  have hg := gather_enough hts hn hm henough received
  dsimp only
  rw [decode_eq hn (by omega), if_pos hg.filled]
  refine ⟨rfl, fun i hi => ?_, fun i hi => ?_, fun i hi => ?_⟩
  · by_cases hmark : marks.getD i 0 = 0
    · exact ((load_solved_received (by omega) hg hmark).trans
        (hreceived i (by omega) hmark)).trans (h.load_encode hn original hi)
    · obtain ⟨j, hj, rfl⟩ := List.getElem_of_mem (mem_erased.2 ⟨hi, hmark⟩)
      have hload := load_solved_missing h hn hreceived (enough_parity hts henough) hg hj
      rw [List.getD_eq_getElem _ _ hj] at hload
      exact hload
  · have hkept := survivors_reads marks rs.ds 0 (by omega) i
    simp only [List.mem_append, List.mem_range] at hi
    rcases hi with (hi | hi) | hi
    · omega
    · have := hkept hi
      omega
    · have := hg.reads i hi
      omega
  · exact solved_wrk_above h henough hroom _ _ hi

/-- The codec with two data and two parity rows. -/
def twoByTwo : ReedSolomon :=
  { ds := 2, ps := 2, ts := 4, p := [142, 244, 244, 142], wrk := fun i => BitVec.ofNat 8 i }

theorem built_twoByTwo : Built twoByTwo := rfl

/-- A data row and a parity row are lost. -/
theorem decode_recovers_two_lost :
    let original : Shards 4 1 := fun i _ => BitVec.ofNat 8 (5 + i)
    let received : Shards 4 1 := fun i =>
      if i = 0 ∨ i = 2 then fun _ => 0 else (reedSolomonEncode twoByTwo original).2 i
    let d := reedSolomonDecode twoByTwo received [1, 0, 1, 0]
    d.ret = 0 ∧ (∀ i < 2, d.data.load i = original.load i) ∧ (∀ i ∈ d.reads, i < 4) ∧
      ∀ i, 4 ≤ i → d.rs.wrk i = twoByTwo.wrk i := by
  refine decode_recovers built_twoByTwo (by decide) (by decide) _ _ (fun i hi hz => ?_) (by decide)
    (by decide)
  have hi4 : i < 4 := hi
  interval_cases i
  · exact absurd hz (by decide)
  · rfl
  · exact absurd hz (by decide)
  · rfl

/-- With fewer than `ds` rows decoding fails, and only after a read behind the marks. -/
theorem decode_too_few (h : Built rs) (hm : rs.ts ≤ marks.length) (data : Shards rs.ts T)
    (hfew : (unmarked marks 0 rs.ts).length < rs.ds) :
    let d := reedSolomonDecode rs data marks
    d.ret = -1 ∧ ∃ i ∈ d.reads, rs.ts ≤ i := by
  obtain ⟨-, -, -, hts, -⟩ := h.shape
  have hlen := length_unmarked marks rs.ds
  have hsplit := congrArg List.length (unmarked_append marks 0 rs.ds rs.ps)
  rw [List.length_append, Nat.zero_add, ← hts] at hsplit
  obtain ⟨hfilled, i, hi, hbehind⟩ := gatherParity_fails rs.ds rs.ps hm
    (erased marks rs.ds) rs.ds data (by omega) (by rw [erased]; omega)
  dsimp only
  rw [decode_eq le_rfl (by omega), hfilled, if_neg Bool.false_ne_true]
  exact ⟨rfl, i, List.mem_append_right _ hi, hbehind⟩

theorem decode_too_few_three_lost :
    let d := reedSolomonDecode twoByTwo (fun _ _ => 0 : Shards 4 1) [1, 1, 1, 0]
    d.ret = -1 ∧ ∃ i ∈ d.reads, 4 ≤ i :=
  decode_too_few built_twoByTwo (by decide) _ (by decide)

/-- Decoding writes behind the work matrix only when every data row is missing and there are as many
parity rows, at least two. -/
theorem decode_wrk_bound (h : Built rs) (hn : rs.ts ≤ n) (hm : rs.ts ≤ marks.length)
    (data : Shards n T) (henough : rs.ds ≤ (unmarked marks 0 rs.ts).length)
    (hroom : ¬ ((erased marks rs.ds).length = rs.ds ∧ rs.ps = rs.ds ∧ 2 ≤ rs.ds)) {i : Nat}
    (hi : rs.ps * rs.ds ≤ i) :
    (reedSolomonDecode rs data marks).rs.wrk i = rs.wrk i := by
  obtain ⟨-, -, -, hts, -⟩ := h.shape
  have hg := gather_enough hts hn hm henough data
  rw [decode_eq hn (by omega), if_pos hg.filled]
  exact solved_wrk_above h henough hroom _ _ hi

theorem decode_wrk_bound_one_lost :
    (reedSolomonDecode twoByTwo (fun _ _ => 0 : Shards 4 1) [1, 0, 0, 0]).rs.wrk 4 = 4 :=
  decode_wrk_bound built_twoByTwo (n := 4) (by decide) (by decide) _ (by decide) (by decide)
    (by decide)

/-- In the case left out the scaling of the last pivot row goes one byte too far here. -/
example : (reedSolomonDecode twoByTwo (fun _ _ => 0 : Shards 4 1) [1, 1, 0, 0]).rs.wrk 4 ≠ 4 := by
  decide

end Decode

end ConfigEnv.TunVpn
