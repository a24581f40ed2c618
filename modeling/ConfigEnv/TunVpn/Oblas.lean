/-
Module: ConfigEnv.TunVpn.Oblas
Layer: TunVpn
Purpose: oblas_lite.c, the row operations as each build compiles them: with or without the product
  table (`OBLAS_TINY`), and with the vector unit the preprocessor found. Rows are byte ranges of one
  memory, as the pointers of rs.c are; the loops run in the order of the source. `op##_ref` finishes
  the bytes behind the last whole register.
Trusted boundary: the two nibble tables are represented by the products they tabulate, and the
  vector instructions by their documented effect on bytes
Main exports: gf28MulTiny, Simd, Build, oblAxpyRef, oblScalRef, shufProduct, oblShuf, oblAxpyAt,
  oblScalAt, axpyAt, scalAt
Open obligations: none
-/
import ConfigEnv.Lib.Lanes
import ConfigEnv.TunVpn.ReedSolomon

namespace ConfigEnv.TunVpn

open Lanes (Vec)

/-- `GF2_8_LOG`. -/
def gf28LogTable : List Nat := [
  255, 0, 1, 25, 2, 50, 26, 198, 3, 223, 51, 238, 27, 104, 199, 75, 4, 100, 224, 14, 52, 141, 239,
  129, 28, 193, 105, 248, 200, 8, 76, 113, 5, 138, 101, 47, 225, 36, 15, 33, 53, 147, 142, 218,
  240, 18, 130, 69, 29, 181, 194, 125, 106, 39, 249, 185, 201, 154, 9, 120, 77, 228, 114, 166, 6,
  191, 139, 98, 102, 221, 48, 253, 226, 152, 37, 179, 16, 145, 34, 136, 54, 208, 148, 206, 143,
  150, 219, 189, 241, 210, 19, 92, 131, 56, 70, 64, 30, 66, 182, 163, 195, 72, 126, 110, 107, 58,
  40, 84, 250, 133, 186, 61, 202, 94, 155, 159, 10, 21, 121, 43, 78, 212, 229, 172, 115, 243, 167,
  87, 7, 112, 192, 247, 140, 128, 99, 13, 103, 74, 222, 237, 49, 197, 254, 24, 227, 165, 153, 119,
  38, 184, 180, 124, 17, 68, 146, 217, 35, 32, 137, 46, 55, 63, 209, 91, 149, 188, 207, 205, 144,
  135, 151, 178, 220, 252, 190, 97, 242, 86, 211, 171, 20, 42, 93, 158, 132, 60, 57, 83, 71, 109,
  65, 162, 31, 45, 67, 216, 183, 123, 164, 118, 196, 23, 73, 236, 127, 12, 111, 246, 108, 161, 59,
  82, 41, 157, 85, 170, 251, 96, 134, 177, 187, 204, 62, 90, 203, 89, 95, 176, 156, 169, 160, 81,
  11, 245, 22, 235, 122, 117, 44, 215, 79, 174, 213, 233, 230, 231, 173, 232, 116, 214, 244, 234,
  168, 80, 88, 175]

/-- `GF2_8_EXP`; long enough for the sum of two logarithms. -/
def gf28ExpTable : List u8 := [
  1, 2, 4, 8, 16, 32, 64, 128, 29, 58, 116, 232, 205, 135, 19, 38, 76, 152, 45, 90, 180, 117, 234,
  201, 143, 3, 6, 12, 24, 48, 96, 192, 157, 39, 78, 156, 37, 74, 148, 53, 106, 212, 181, 119, 238,
  193, 159, 35, 70, 140, 5, 10, 20, 40, 80, 160, 93, 186, 105, 210, 185, 111, 222, 161, 95, 190,
  97, 194, 153, 47, 94, 188, 101, 202, 137, 15, 30, 60, 120, 240, 253, 231, 211, 187, 107, 214,
  177, 127, 254, 225, 223, 163, 91, 182, 113, 226, 217, 175, 67, 134, 17, 34, 68, 136, 13, 26, 52,
  104, 208, 189, 103, 206, 129, 31, 62, 124, 248, 237, 199, 147, 59, 118, 236, 197, 151, 51, 102,
  204, 133, 23, 46, 92, 184, 109, 218, 169, 79, 158, 33, 66, 132, 21, 42, 84, 168, 77, 154, 41, 82,
  164, 85, 170, 73, 146, 57, 114, 228, 213, 183, 115, 230, 209, 191, 99, 198, 145, 63, 126, 252,
  229, 215, 179, 123, 246, 241, 255, 227, 219, 171, 75, 150, 49, 98, 196, 149, 55, 110, 220, 165,
  87, 174, 65, 130, 25, 50, 100, 200, 141, 7, 14, 28, 56, 112, 224, 221, 167, 83, 166, 81, 162, 89,
  178, 121, 242, 249, 239, 195, 155, 43, 86, 172, 69, 138, 9, 18, 36, 72, 144, 61, 122, 244, 245,
  247, 243, 251, 235, 203, 139, 11, 22, 44, 88, 176, 125, 250, 233, 207, 131, 27, 54, 108, 216,
  173, 71, 142, 1, 2, 4, 8, 16, 32, 64, 128, 29, 58, 116, 232, 205, 135, 19, 38, 76, 152, 45, 90,
  180, 117, 234, 201, 143, 3, 6, 12, 24, 48, 96, 192, 157, 39, 78, 156, 37, 74, 148, 53, 106, 212,
  181, 119, 238, 193, 159, 35, 70, 140, 5, 10, 20, 40, 80, 160, 93, 186, 105, 210, 185, 111, 222,
  161, 95, 190, 97, 194, 153, 47, 94, 188, 101, 202, 137, 15, 30, 60, 120, 240, 253, 231, 211, 187,
  107, 214, 177, 127, 254, 225, 223, 163, 91, 182, 113, 226, 217, 175, 67, 134, 17, 34, 68, 136,
  13, 26, 52, 104, 208, 189, 103, 206, 129, 31, 62, 124, 248, 237, 199, 147, 59, 118, 236, 197,
  151, 51, 102, 204, 133, 23, 46, 92, 184, 109, 218, 169, 79, 158, 33, 66, 132, 21, 42, 84, 168,
  77, 154, 41, 82, 164, 85, 170, 73, 146, 57, 114, 228, 213, 183, 115, 230, 209, 191, 99, 198, 145,
  63, 126, 252, 229, 215, 179, 123, 246, 241, 255, 227, 219, 171, 75, 150, 49, 98, 196, 149, 55,
  110, 220, 165, 87, 174, 65, 130, 25, 50, 100, 200, 141, 7, 14, 28, 56, 112, 224, 221, 167, 83,
  166, 81, 162, 89, 178, 121, 242, 249, 239, 195, 155, 43, 86, 172, 69, 138, 9, 18, 36, 72, 144,
  61, 122, 244, 245, 247, 243, 251, 235, 203, 139, 11, 22, 44, 88, 176, 125, 250, 233, 207, 131,
  27, 54, 108, 216, 173, 71, 142]

/-- `gf2_8_mul`. -/
def gf28MulTiny (a b : u8) : u8 :=
  if a = 0 ∨ b = 0 then 0
  else gf28ExpTable.getD (gf28LogTable.getD a.toNat 0 + gf28LogTable.getD b.toNat 0) 0

/-- The row `u` of `GF2_8_SHUF_LO`. -/
def gf28ShufLo (u : u8) (x : Nat) : u8 := gf28Mul u (BitVec.ofNat 8 x)

/-- The row `u` of `GF2_8_SHUF_HI`. -/
def gf28ShufHi (u : u8) (x : Nat) : u8 := gf28Mul u (BitVec.ofNat 8 x <<< 4)

/-! ### The builds -/

/-- The vector unit of a build. -/
inductive Simd where
  | scalar
  | sse3
  | neon
  | avx2
  | avx512
deriving DecidableEq, Repr

/-- The 128-bit lanes of its registers. -/
def Simd.lanes : Simd → Nat
  | .scalar => 0
  | .sse3 => 1
  | .neon => 1
  | .avx2 => 2
  | .avx512 => 4

/-- What the preprocessor selects: `OBLAS_TINY`, and the vectors. -/
structure Build where
  tiny : Bool
  simd : Simd
deriving DecidableEq, Repr

/-- The product of the `_ref` loops. -/
def Build.product (build : Build) (u b : u8) : u8 :=
  if build.tiny then gf28MulTiny u b else gf28Mul u b

/-! ### The loops -/

/-- `obl_axpy_ref`, with the product it multiplies by. -/
def oblAxpyRef (product : u8 → u8) (mem : Nat → u8) (a b k : Nat) : Nat → u8 :=
  (List.range k).foldl (fun mem i =>
    Function.update mem (a + i) (mem (a + i) ^^^ product (mem (b + i)))) mem

/-- `obl_scal_ref`. -/
def oblScalRef (product : u8 → u8) (mem : Nat → u8) (a k : Nat) : Nat → u8 :=
  (List.range k).foldl (fun mem i => Function.update mem (a + i) (product (mem (a + i)))) mem

/-- The register that an iteration of `OBL_SHUF` computes from `bx`. -/
def shufProduct (u : u8) (bx : Vec) : Vec :=
  let mask := Lanes.set1 0x0f#8
  let urowLo := Lanes.broadcast (gf28ShufLo u)
  let urowHi := Lanes.broadcast (gf28ShufHi u)
  let lo := Lanes.and bx mask
  let bx := Lanes.srli64 bx 4
  let hi := Lanes.and bx mask
  Lanes.xor (Lanes.shuffle urowLo lo) (Lanes.shuffle urowHi hi)

/-- The vector loop of `OBL_SHUF` over whole registers of `width` bytes. -/
def oblShuf (width : Nat) (f : u8 → u8 → u8) (u : u8) (mem : Nat → u8) (a b n : Nat) : Nat → u8 :=
  (List.range n).foldl (fun mem p =>
    let ap := a + p * width
    let bp := b + p * width
    let ret := shufProduct u fun i => mem (bp + i)
    fun i => if ap ≤ i ∧ i < ap + width then f (mem i) (ret (i - ap)) else mem i) mem

/-- `obl_axpy`. -/
def oblAxpyAt (build : Build) (mem : Nat → u8) (a b : Nat) (u : u8) (k : Nat) : Nat → u8 :=
  if u = 1 then oblAxpyRef id mem a b k
  else if build.simd.lanes = 0 then oblAxpyRef (build.product u) mem a b k
  else
    let width := 16 * build.simd.lanes
    let whole := k - k % width
    oblAxpyRef (build.product u) (oblShuf width (· ^^^ ·) u mem a b (k / width))
      (a + whole) (b + whole) (k % width)

/-- `obl_scal`; the vector loop reads and writes the same row. -/
def oblScalAt (build : Build) (mem : Nat → u8) (a : Nat) (u : u8) (k : Nat) : Nat → u8 :=
  if build.simd.lanes = 0 then oblScalRef (build.product u) mem a k
  else
    let width := 16 * build.simd.lanes
    let whole := k - k % width
    oblScalRef (build.product u) (oblShuf width (fun _ b => b) u mem a a (k / width))
      (a + whole) (k % width)

/-- `axpy` of rs.c on rows of one memory. -/
def axpyAt (build : Build) (mem : Nat → u8) (a b : Nat) (u : u8) (k : Nat) : Nat → u8 :=
  if u = 0 then mem
  else if u = 1 then oblAxpyRef id mem a b k
  else oblAxpyAt build mem a b u k

/-- `scal` of rs.c. -/
def scalAt (build : Build) (mem : Nat → u8) (a : Nat) (u : u8) (k : Nat) : Nat → u8 :=
  if u < 2 then mem else oblScalAt build mem a u k

end ConfigEnv.TunVpn
