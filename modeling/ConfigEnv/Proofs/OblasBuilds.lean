/-
Module: ConfigEnv.Proofs.OblasBuilds
Layer: Proofs
Purpose: Every build of the row operations computes the same bytes. The logarithm tables of the tiny
  build give the product because the exponential table lists the powers of 2 and every nonzero byte
  is one of them; the vector loops give it because multiplying by a byte is additive and can be
  looked up by nibbles; and loops over bytes or registers change a row as a whole, so the tail that
  `op##_ref` finishes continues where the registers end.
Trusted boundary: as TunVpn.Oblas
Main exports: gf28MulTiny_eq, product_eq, shufProduct_apply, oblShuf_eq, axpyAt_eq, scalAt_eq,
  build_rowOps
Open obligations: none
-/
import ConfigEnv.TunVpn.Gf28
import ConfigEnv.TunVpn.Oblas
import Mathlib.Algebra.GroupWithZero.Basic
import Mathlib.Data.List.Iterate

namespace ConfigEnv.TunVpn

open Lanes (rowMap Apart)

/-! ### Logarithms -/

theorem gf_xtime (a : u8) : gf (BinaryField.xtime gf28Poly a) = gf 2#8 * gf a := by
  have htwo : BinaryField.xtime gf28Poly 1 = 2#8 := rfl
  rw [← gf_mul, gf28Mul, ← htwo, ← BinaryField.xtime_mul, BinaryField.one_mul]

/-- The exponential table lists the powers of 2. -/
theorem gf28ExpTable_eq : gf28ExpTable = List.iterate (BinaryField.xtime gf28Poly) 1#8 510 := by
  decide +kernel

/-- The table of powers holds the powers of two. -/
theorem gf_exp {i : Nat} (hi : i < 510) : gf (gf28ExpTable.getD i 0) = gf 2#8 ^ i := by
  rw [gf28ExpTable_eq, List.getD_eq_getElem _ _ (by rw [List.length_iterate]; exact hi),
    List.getElem_iterate]
  clear hi
  induction i with
  | zero => rfl
  | succ i ih => rw [Function.iterate_succ_apply', gf_xtime, ih, pow_succ']

/-- The logarithm table inverts it. -/
theorem gf28Log_spec : ∀ a : u8, a ≠ 0 → gf28LogTable.getD a.toNat 0 < 255 ∧
    gf28ExpTable.getD (gf28LogTable.getD a.toNat 0) 0 = a := by
  decide +kernel

/-- The product by logarithms is the product of the field. -/
theorem gf28MulTiny_eq (a b : u8) : gf28MulTiny a b = gf28Mul a b := by
  unfold gf28MulTiny
  split_ifs with hzero
  · apply gf_injective
    rcases hzero with rfl | rfl
    · exact (zero_mul (gf b)).symm
    · exact (mul_zero (gf a)).symm
  · rw [not_or] at hzero
    obtain ⟨hlogA, hexpA⟩ := gf28Log_spec a hzero.1
    obtain ⟨hlogB, hexpB⟩ := gf28Log_spec b hzero.2
    apply gf_injective
    calc gf (gf28ExpTable.getD (gf28LogTable.getD a.toNat 0 + gf28LogTable.getD b.toNat 0) 0)
        = gf 2#8 ^ gf28LogTable.getD a.toNat 0 * gf 2#8 ^ gf28LogTable.getD b.toNat 0 := by
          rw [gf_exp (by omega), pow_add]
      _ = gf a * gf b := by
          rw [← gf_exp (by omega), ← gf_exp (by omega), hexpA, hexpB]

/-- Every build computes the product of the field. -/
theorem product_eq (build : Build) (u b : u8) : build.product u b = gf28Mul u b := by
  unfold Build.product
  split_ifs
  · exact gf28MulTiny_eq u b
  · rfl

/-! ### Registers -/

theorem gf28Mul_additive (u : u8) : BinaryField.Additive (gf28Mul u) :=
  ⟨BinaryField.mul_zero gf28Poly u, BinaryField.mul_xor gf28Poly u⟩

theorem shufProduct_apply (u : u8) (bx : Lanes.Vec) (i : Nat) :
    shufProduct u bx i = gf28Mul u (bx i) :=
  Lanes.lookup_additive (gf28Mul_additive u) (fun _ _ => rfl) (fun _ _ => rfl) bx i

/-- The vector loop changes the bytes of its registers as a whole. -/
theorem oblShuf_eq {width : Nat} (f : u8 → u8 → u8) (u : u8) (mem : Nat → u8) {a b : Nat} (n : Nat)
    (h : Apart a b (n * width)) :
    oblShuf width f u mem a b n = rowMap (fun x y => f x (gf28Mul u y)) mem a b (n * width) := by
  rw [← Lanes.foldl_rowMap _ _ _ h]
  unfold oblShuf
  congr 1
  funext mem p i
  unfold rowMap
  rw [shufProduct_apply]

/-! ### The scalar loops -/

/-- The plain loop of `axpy` maps over two rows. -/
theorem oblAxpyRef_eq (product : u8 → u8) (mem : Nat → u8) {a b : Nat} (k : Nat)
    (h : Apart a b k) :
    oblAxpyRef product mem a b k = rowMap (fun x y => x ^^^ product y) mem a b k := by
  have hcells : Apart a b (k * 1) := by rwa [Nat.mul_one]
  have hloop := Lanes.foldl_rowMap (fun x y => x ^^^ product y) mem k hcells
  simp only [Nat.mul_one, Lanes.rowMap_one] at hloop
  exact hloop

/-- The plain loop of `scal` maps over one row. -/
theorem oblScalRef_eq (product : u8 → u8) (mem : Nat → u8) (a k : Nat) :
    oblScalRef product mem a k = rowMap (fun _ y => product y) mem a a k := by
  have hcells : Apart a a (k * 1) := .inl rfl
  have hloop := Lanes.foldl_rowMap (fun _ y => product y) mem k hcells
  simp only [Nat.mul_one, Lanes.rowMap_one] at hloop
  exact hloop

/-! ### The row operations -/

/-- The registers and the tail together are the row. -/
theorem shuf_then_ref (f : u8 → u8 → u8) (u : u8) (mem : Nat → u8) {a b k width : Nat}
    (h : Apart a b k) :
    rowMap (fun x y => f x (gf28Mul u y)) (oblShuf width f u mem a b (k / width))
      (a + (k - k % width)) (b + (k - k % width)) (k % width) =
      rowMap (fun x y => f x (gf28Mul u y)) mem a b k := by
  have hmod := Nat.mod_le k width
  have hwhole : k / width * width = k - k % width := by
    have := Nat.div_add_mod' k width
    omega
  rw [oblShuf_eq f u mem _ (h.mono (by omega)), hwhole, Lanes.rowMap_append,
    Nat.sub_add_cancel hmod]
  rwa [Nat.sub_add_cancel hmod]

/-- Every build of `axpy` maps over two rows. -/
theorem oblAxpyAt_eq (build : Build) (mem : Nat → u8) {a b : Nat} (u : u8) {k : Nat}
    (h : Apart a b k) :
    oblAxpyAt build mem a b u k = rowMap (fun x y => x ^^^ gf28Mul u y) mem a b k := by
  have hproduct : build.product u = gf28Mul u := funext (product_eq build u)
  unfold oblAxpyAt
  split_ifs with hone
  · rw [oblAxpyRef_eq id mem k h, hone]
    congr 1
    funext x y
    exact congrArg (x ^^^ ·) (gf28Mul_one y).symm
  · rw [oblAxpyRef_eq _ mem k h, hproduct]
  · have hmod := Nat.mod_le k (16 * build.simd.lanes)
    have htail : Apart (a + (k - k % (16 * build.simd.lanes)))
        (b + (k - k % (16 * build.simd.lanes))) (k % (16 * build.simd.lanes)) := by
      apply Apart.drop
      rwa [Nat.sub_add_cancel hmod]
    dsimp only
    rw [oblAxpyRef_eq _ _ _ htail, hproduct]
    exact shuf_then_ref (· ^^^ ·) u mem h

/-- Every build of `scal` maps over one row. -/
theorem oblScalAt_eq (build : Build) (mem : Nat → u8) (a : Nat) (u : u8) (k : Nat) :
    oblScalAt build mem a u k = rowMap (fun _ y => gf28Mul u y) mem a a k := by
  have hproduct : build.product u = gf28Mul u := funext (product_eq build u)
  unfold oblScalAt
  split_ifs
  · rw [oblScalRef_eq, hproduct]
  · dsimp only
    rw [oblScalRef_eq, hproduct]
    exact shuf_then_ref (fun _ y => y) u mem (.inl rfl)

/-- On rows that are the same or have no byte in common, `axpy` is the row operation that the
decoder is described with, in every build. -/
theorem axpyAt_eq (build : Build) (mem : Nat → u8) {a b : Nat} (u : u8) {k : Nat}
    (h : Apart a b k) : axpyAt build mem a b u k = wrkAxpy mem a b u k := by
  have hrow : wrkAxpy mem a b u k = rowMap (fun x y => x ^^^ gf28Mul u y) mem a b k := by
    funext i
    unfold wrkAxpy rowMap
    rw [axpy_apply]
  rw [hrow]
  unfold axpyAt
  split_ifs with hzero hone
  · funext i
    simp [rowMap, hzero]
  · rw [oblAxpyRef_eq id mem k h, hone]
    congr 1
    funext x y
    exact congrArg (x ^^^ ·) (gf28Mul_one y).symm
  · exact oblAxpyAt_eq build mem u h

/-- Every build of `scal` is that of the decoder's model. -/
theorem scalAt_eq (build : Build) (mem : Nat → u8) (a : Nat) (u : u8) (k : Nat) :
    scalAt build mem a u k = wrkScal mem a u k := by
  unfold scalAt wrkScal scal
  split_ifs
  · simp
  · rw [oblScalAt_eq]
    funext i
    unfold rowMap oblScal
    split_ifs with hi
    · rw [Nat.add_sub_cancel' hi.1]
    · rfl

/-- Every build has the same row operations, the ones that the codec is described with. -/
theorem build_rowOps (build : Build) (mem : Nat → u8) {a b : Nat} (u : u8) {k : Nat}
    (h : Apart a b k) :
    axpyAt build mem a b u k = wrkAxpy mem a b u k ∧ scalAt build mem a u k = wrkScal mem a u k :=
  ⟨axpyAt_eq build mem u h, scalAt_eq build mem a u k⟩

theorem build_rowOps_neon :
    let mem : Nat → u8 := fun i => BitVec.ofNat 8 i
    axpyAt { tiny := false, simd := .neon } mem 0 20 7 20 = wrkAxpy mem 0 20 7 20 ∧
      scalAt { tiny := false, simd := .neon } mem 0 7 20 = wrkScal mem 0 7 20 :=
  build_rowOps _ _ _ (.inr (.inl (by decide)))

end ConfigEnv.TunVpn
