/-
Module: ConfigEnv.TunVpn.ReedSolomon
Layer: TunVpn
Purpose: rs.c. The codec is written for any numbers of data and parity shards, as the source is; the
  programs only ever build `reed_solomon_new(2, 1)`. Row operations take whole rows. The search
  loops of the decoder, `while (marks[j]) j++`, read the memory behind `marks` until they meet a
  zero byte; the decoder here receives that memory and reports every index it read `marks` or `data`
  with. `GF2_8_MUL` is the product modulo polynomial 285 that its header says it was generated from.
  The work matrix is a memory without an end; `ps * ds` bytes of it are allocated.
Trusted boundary: the multiplication table is represented by the product it tabulates
Main exports: gf28Mul, gf28Inv, axpy, scal, ReedSolomon, reedSolomonNew, reedSolomonEncode,
  reedSolomonDecode
Open obligations: none
-/
import ConfigEnv.Lib.BinaryField
import ConfigEnv.TunVpn.Wire
import Mathlib.Logic.Function.Basic

namespace ConfigEnv.TunVpn

/-! ### The field tables -/

/-- Polynomial 285 without its leading bit. -/
abbrev gf28Poly : u8 := 0x1D

/-- `GF2_8_MUL[(u << 8) + b]`. -/
def gf28Mul (u b : u8) : u8 := BinaryField.mul gf28Poly u b

/-- `GF2_8_INV` of gf2_8_tables.h. -/
def gf28InvTable : List u8 := [
  0, 1, 142, 244, 71, 167, 122, 186, 173, 157, 221, 152, 61, 170, 93, 150,
  216, 114, 192, 88, 224, 62, 76, 102, 144, 222, 85, 128, 160, 131, 75, 42,
  108, 237, 57, 81, 96, 86, 44, 138, 112, 208, 31, 74, 38, 139, 51, 110,
  72, 137, 111, 46, 164, 195, 64, 94, 80, 34, 207, 169, 171, 12, 21, 225,
  54, 95, 248, 213, 146, 78, 166, 4, 48, 136, 43, 30, 22, 103, 69, 147,
  56, 35, 104, 140, 129, 26, 37, 97, 19, 193, 203, 99, 151, 14, 55, 65,
  36, 87, 202, 91, 185, 196, 23, 77, 82, 141, 239, 179, 32, 236, 47, 50,
  40, 209, 17, 217, 233, 251, 218, 121, 219, 119, 6, 187, 132, 205, 254, 252,
  27, 84, 161, 29, 124, 204, 228, 176, 73, 49, 39, 45, 83, 105, 2, 245,
  24, 223, 68, 79, 155, 188, 15, 92, 11, 220, 189, 148, 172, 9, 199, 162,
  28, 130, 159, 198, 52, 194, 70, 5, 206, 59, 13, 60, 156, 8, 190, 183,
  135, 229, 238, 107, 235, 242, 191, 175, 197, 100, 7, 123, 149, 154, 174, 182,
  18, 89, 165, 53, 101, 184, 163, 158, 210, 247, 98, 90, 133, 125, 168, 58,
  41, 113, 200, 246, 249, 67, 215, 214, 16, 115, 118, 120, 153, 10, 25, 145,
  20, 63, 230, 240, 134, 177, 226, 241, 250, 116, 243, 180, 109, 33, 178, 106,
  227, 231, 181, 234, 3, 143, 211, 201, 66, 212, 232, 117, 127, 255, 126, 253]

/-- `GF2_8_INV[u]`. -/
def gf28Inv (u : u8) : u8 := gf28InvTable.getD u.toNat 0

/-- Every entry of the inverse table but the first inverts its index. -/
theorem gf28Mul_inv : ∀ u : u8, u ≠ 0 → gf28Mul (gf28Inv u) u = 1 := by
  decide +kernel

/-- A row scaled by a coefficient and then by its table inverse is the row. -/
theorem gf28Mul_cancel {u : u8} (hu : u ≠ 0) (x : u8) :
    gf28Mul (gf28Inv u) (gf28Mul u x) = x :=
  BinaryField.mul_cancel (gf28Mul_inv u hu) x

@[simp] theorem gf28Mul_zero (x : u8) : gf28Mul 0#8 x = 0#8 := BinaryField.zero_mul gf28Poly x

@[simp] theorem gf28Mul_one (x : u8) : gf28Mul 1#8 x = x := BinaryField.one_mul gf28Poly x

/-! ### Row operations -/

variable {n T : Nat} {ι : Type}

/-- `obl_axpy` as the x86 build has it, where `OBL_SHUF` is the scalar loop. The bytes concerned are
given by an index type, so that rows and slices of the work matrix share the definition. -/
def oblAxpy (a b : ι → u8) (u : u8) : ι → u8 :=
  if u = 1 then fun k => a k ^^^ b k
  else fun k => a k ^^^ gf28Mul u (b k)

/-- `obl_scal` of the same build. -/
def oblScal (a : ι → u8) (u : u8) : ι → u8 := fun k => gf28Mul u (a k)

/-- `axpy` of rs.c, which leaves out what changes nothing. -/
def axpy (a b : ι → u8) (u : u8) : ι → u8 :=
  if u = 0 then a
  else if u = 1 then fun k => a k ^^^ b k
  else oblAxpy a b u

/-- A coefficient below 2 leaves the row alone, so scaling by 0 does not clear it. -/
def scal (a : ι → u8) (u : u8) : ι → u8 :=
  if u < 2 then a else oblScal a u

/-- The special cases of `axpy` agree with the table. -/
theorem axpy_apply (a b : ι → u8) (u : u8) (k : ι) :
    axpy a b u k = a k ^^^ gf28Mul u (b k) := by
  unfold axpy oblAxpy
  split_ifs with h0 h1
  · simp [h0]
  · simp [h1]
  · rfl

theorem scal_apply {a : ι → u8} {u : u8} (hu : u ≠ 0) (k : ι) :
    scal a u k = gf28Mul u (a k) := by
  unfold scal oblScal
  split_ifs with h
  · have h1 : u = 1 := by
      revert u
      decide
    simp [h1]
  · rfl

/-! ### Arrays of rows -/

/-- The row at an index; the callers stay below the number of pointers. -/
def Shards.load (data : Shards n T) (j : Nat) : Row T :=
  if h : j < n then data ⟨j, h⟩ else fun _ => 0

/-- Overwrite the row at an index. -/
def Shards.store (data : Shards n T) (j : Nat) (row : Row T) : Shards n T :=
  if h : j < n then Function.update data ⟨j, h⟩ row else data

/-! ### The codec -/

/-- `reed_solomon`.  The `2 * ps * ds` bytes behind the header are the coefficient rows `p` and the
work matrix, kept apart here. -/
structure ReedSolomon where
  ds : Nat
  ps : Nat
  ts : Nat
  p : List u8
  wrk : Nat → u8

/-- `reed_solomon_new`, with `malloc` succeeding. -/
def reedSolomonNew (ds ps : Nat) : Option ReedSolomon :=
  if ds + ps > 255 ∨ ds = 0 ∨ ps = 0 then none
  else some
    { ds := ds
      ps := ps
      ts := ds + ps
      p := (List.range ps).flatMap fun j =>
        (List.range ds).map fun i => gf28InvTable.getD ((ps + i) ^^^ j) 0
      wrk := fun _ => 0 }

/-- `gemm(a, shards, shards + k, n, k, m)`: every output row is cleared and accumulated in place. -/
def gemm (a : List u8) (rows k : Nat) (shards : Shards n T) : Shards n T :=
  (List.range rows).foldl (fun c row =>
    (List.range k).foldl (fun c idx =>
      c.store (k + row) (axpy (c.load (k + row)) (c.load idx) (a.getD (row * k + idx) 0)))
      (c.store (k + row) fun _ => 0)) shards

/-- `reed_solomon_encode`; the number of pointers is `nr_shards`. -/
def reedSolomonEncode (rs : ReedSolomon) (shards : Shards n T) : Int × Shards n T :=
  if n < rs.ts then (-1, shards)
  else (0, gemm rs.p rs.ps rs.ds shards)

/-- `axpy(wrk + dst, wrk + src, u, k)` on the work matrix. -/
def wrkAxpy (wrk : Nat → u8) (dst src : Nat) (u : u8) (k : Nat) : Nat → u8 :=
  fun i => if dst ≤ i ∧ i < dst + k then axpy wrk (fun i => wrk (src + (i - dst))) u i else wrk i

/-- `scal(wrk + dst, u, k)` on the work matrix. -/
def wrkScal (wrk : Nat → u8) (dst : Nat) (u : u8) (k : Nat) : Nat → u8 :=
  fun i => if dst ≤ i ∧ i < dst + k then scal wrk u i else wrk i

/-- The work matrix and the rows that `invert_mat` transforms together. -/
structure Elimination (n T : Nat) where
  wrk : Nat → u8
  dst : Shards n T

/-- `axpy(dst[i], dst[j], u, T)`. -/
def Elimination.axpyRow (e : Elimination n T) (i j : Nat) (u : u8) : Elimination n T :=
  { e with dst := e.dst.store i (axpy (e.dst.load i) (e.dst.load j) u) }

/-- First loop of `invert_mat`: copy the coefficients of the missing columns. -/
def invertCopy (src : List u8) (V0 W K : Nat) (c d : List Nat) (e : Elimination n T) :
    Elimination n T :=
  (List.range W).foldl (fun e i =>
    (List.range W).foldl (fun e j =>
      let u := src.getD (d.getD i 0 * K + c.getD (V0 + j) 0) 0
      { e with wrk := Function.update e.wrk (i * W + j) u }) e) e

/-- Second loop: take the surviving rows out of the rows that replace the missing ones. -/
def invertSubtract (src : List u8) (V0 W K : Nat) (c d : List Nat) (e : Elimination n T) :
    Elimination n T :=
  (List.range W).foldl (fun e i =>
    (List.range V0).foldl (fun e row =>
      e.axpyRow (c.getD (V0 + i) 0) (c.getD row 0)
        (src.getD (d.getD i 0 * K + c.getD row 0) 0)) e) e

/-- Third loop: scale each pivot row to one and clear below it. -/
def invertForward (V0 W : Nat) (c : List Nat) (e : Elimination n T) : Elimination n T :=
  (List.range W).foldl (fun e x =>
    let u := gf28Inv (e.wrk (x * W + x))
    let e : Elimination n T :=
      { wrk := wrkScal e.wrk (x * W + x) u W
        dst := e.dst.store (c.getD (V0 + x) 0) (scal (e.dst.load (c.getD (V0 + x) 0)) u) }
    (List.range' (x + 1) (W - (x + 1))).foldl (fun e row =>
      let u := e.wrk (row * W + x)
      let e : Elimination n T := { e with wrk := wrkAxpy e.wrk (row * W) (x * W) u W }
      e.axpyRow (c.getD (V0 + row) 0) (c.getD (V0 + x) 0) u) e) e

/-- Last loop: clear above the pivots, from the bottom up. -/
def invertBack (V0 W : Nat) (c : List Nat) (e : Elimination n T) : Elimination n T :=
  (List.range W).reverse.foldl (fun e x =>
    (List.range x).foldl (fun e row =>
      e.axpyRow (c.getD (V0 + row) 0) (c.getD (V0 + x) 0) (e.wrk (row * W + x))) e) e

/-- `invert_mat`. -/
def invertMat (src : List u8) (V0 K : Nat) (c d : List Nat) (e : Elimination n T) :
    Elimination n T :=
  let W := K - V0
  invertBack V0 W c (invertForward V0 W c
    (invertSubtract src V0 W K c d (invertCopy src V0 W K c d e)))

/-! ### Searching the marks -/

/-- `while (marks[j]) j++`: the index of the first zero byte from `j` on. -/
def skipMarked (marks : List u8) (j : Nat) : Nat :=
  j + (marks.drop j).findIdx (· == 0)

theorem skipMarked_here {marks : List u8} {j : Nat} (h : marks[j]? = some 0) :
    skipMarked marks j = j := by
  obtain ⟨hj, hz⟩ := List.getElem?_eq_some_iff.1 h
  rw [skipMarked, List.drop_eq_getElem_cons hj, hz]
  rfl

theorem skipMarked_next {marks : List u8} {j : Nat} {m : u8} (h : marks[j]? = some m)
    (hm : m ≠ 0) : skipMarked marks j = skipMarked marks (j + 1) := by
  obtain ⟨hj, rfl⟩ := List.getElem?_eq_some_iff.1 h
  rw [skipMarked, skipMarked, List.drop_eq_getElem_cons hj, List.findIdx_cons, beq_false_of_ne hm]
  simp only [cond_false]
  omega

theorem le_skipMarked (marks : List u8) (j : Nat) : j ≤ skipMarked marks j :=
  Nat.le_add_right j _

/-- The indices that the search from `j` reads. -/
def skipReads (marks : List u8) (j : Nat) : List Nat :=
  List.range' j (skipMarked marks j + 1 - j)

theorem mem_skipReads {marks : List u8} {i j : Nat} :
    i ∈ skipReads marks j ↔ j ≤ i ∧ i ≤ skipMarked marks j := by
  have hle := le_skipMarked marks j
  rw [skipReads, List.mem_range'_1]
  omega

/-- The second loop of the decoder: the first `count` unmarked indices from `j` on, and the reads.
-/
def survivors (marks : List u8) : Nat → Nat → List Nat × List Nat
  | 0, _ => ([], [])
  | count + 1, j =>
      let j' := skipMarked marks j
      let rest := survivors marks count (j' + 1)
      (j' :: rest.1, skipReads marks j ++ rest.2)

/-- What the fourth loop leaves: `rowperm`, the rows, the reads, and whether `i` reached `gaps`. -/
structure Gathered (n T : Nat) where
  rowperm : List Nat
  data : Shards n T
  reads : List Nat
  filled : Bool

/-- The fourth loop: copy a received parity row over each missing data row. The bound on `j` is only
tested once the search has stopped. -/
def gatherParity (marks : List u8) (ds : Nat) : List Nat → Nat → Shards n T → Gathered n T
  | [], _, data => { rowperm := [], data := data, reads := [], filled := true }
  | gap :: gaps, j, data =>
      let j' := skipMarked marks j
      if j' ≥ n then
        { rowperm := [], data := data, reads := skipReads marks j, filled := false }
      else
        let rest := gatherParity marks ds gaps (j' + 1) (data.store gap (data.load j'))
        { rest with
          rowperm := (j' - ds) :: rest.rowperm
          reads := skipReads marks j ++ j' :: rest.reads }

/-- Result of `reed_solomon_decode`: the return value, the rows and the codec afterwards, and the
indices with which `marks` and `data` were read. -/
structure Decoded (n T : Nat) where
  ret : Int
  data : Shards n T
  rs : ReedSolomon
  reads : List Nat

/-- `reed_solomon_decode`; `marks` is the memory from the pointer on. -/
def reedSolomonDecode (rs : ReedSolomon) (data : Shards n T) (marks : List u8) : Decoded n T :=
  if n < rs.ts then { ret := -1, data := data, rs := rs, reads := [] }
  else
    let erasures := (List.range rs.ds).filter fun i => marks.getD i 0 ≠ 0
    let gaps := erasures.length
    let kept := survivors marks (rs.ds - gaps) 0
    let colperm := kept.1 ++ erasures
    let g := gatherParity marks rs.ds erasures rs.ds data
    let reads := List.range rs.ds ++ kept.2 ++ g.reads
    if g.filled then
      let e := invertMat rs.p (rs.ds - gaps) rs.ds colperm g.rowperm
        { wrk := rs.wrk, dst := g.data }
      { ret := 0, data := e.dst, rs := { rs with wrk := e.wrk }, reads := reads }
    else { ret := -1, data := g.data, rs := rs, reads := reads }

/-- A codec as the programs hold it: `reed_solomon_new(FEC_RS_K, FEC_RS_N)` built it, and decoding
has since used its work matrix. -/
structure FecCodec where
  rs : ReedSolomon
  built : reedSolomonNew fecRsK fecRsN = some { rs with wrk := fun _ => 0 }

/-- The codec right after `reed_solomon_new(FEC_RS_K, FEC_RS_N)`. -/
def FecCodec.new : FecCodec :=
  { rs := { ds := 2, ps := 1, ts := 3, p := [1, 142], wrk := fun _ => 0 }
    built := rfl }

/-- The codec with another work matrix. -/
def FecCodec.withWrk (c : FecCodec) (wrk : Nat → u8) : FecCodec :=
  { rs := { c.rs with wrk := wrk }, built := c.built }

/-- The one coefficient row is `INV[1], INV[2]`. -/
theorem FecCodec.rs_eq (c : FecCodec) :
    c.rs = { ds := 2, ps := 1, ts := 3, p := [1#8, 142#8], wrk := c.rs.wrk } := by
  have hbuilt : some { c.rs with wrk := fun _ => (0 : u8) } = some FecCodec.new.rs :=
    c.built.symm.trans FecCodec.new.built
  obtain ⟨⟨ds, ps, ts, p, wrk⟩, _⟩ := c
  simp only [FecCodec.new, Option.some.injEq, ReedSolomon.mk.injEq] at hbuilt
  obtain ⟨rfl, rfl, rfl, rfl, -⟩ := hbuilt
  rfl

end ConfigEnv.TunVpn
