/-
Module: ConfigEnv.TunVpn.Gf28
Layer: TunVpn
Purpose: The bytes of the codec as a field. The product is the one the multiplication table holds
  and the inverse is read from `GF2_8_INV`; the row operations of rs.c are then field operations on
  each byte, and loads and stores of rows are reads and updates of a function.
Trusted boundary: as TunVpn.ReedSolomon
Main exports: GF28, gf, gf_mul, gf_inv, gf_axpy, gf_scal, Shards.load_store
Open obligations: none
-/
import ConfigEnv.Lib.BinaryRing
import ConfigEnv.TunVpn.ReedSolomon
import Mathlib.Algebra.Field.Basic

namespace ConfigEnv.TunVpn

open BinaryField (Elem)

/-- The bytes modulo polynomial 285. -/
abbrev GF28 := Elem gf28Poly

/-- A byte as a field element. -/
abbrev gf (a : u8) : GF28 := Elem.of gf28Poly a

theorem gf_injective : Function.Injective gf := Elem.of_injective

theorem gf28Inv_zero : gf28Inv 0 = 0 := rfl

instance : Field GF28 where
  inv a := gf (gf28Inv a)
  exists_pair_ne := ⟨gf 0#8, gf 1#8, show (0#8 : u8) ≠ 1#8 by decide⟩
  mul_inv_cancel a ha := (mul_comm a _).trans (gf28Mul_inv a ha)
  inv_zero := gf28Inv_zero
  nnqsmul := _
  nnqsmul_def := fun _ _ => rfl
  qsmul := _
  qsmul_def := fun _ _ => rfl

@[simp] theorem gf_mul (u b : u8) : gf (gf28Mul u b) = gf u * gf b := rfl

@[simp] theorem gf_inv (u : u8) : gf (gf28Inv u) = (gf u)⁻¹ := rfl

theorem gf_ne_zero {u : u8} : gf u ≠ 0 ↔ u ≠ 0 := Iff.rfl

variable {ι : Type}

/-- Adding a multiple of a row is subtracting it. -/
theorem gf_axpy (a b : ι → u8) (u : u8) (k : ι) :
    gf (axpy a b u k) = gf (a k) - gf u * gf (b k) := by
  rw [axpy_apply, gf, Elem.of_xor, Elem.sub_eq_add]
  rfl

theorem gf_scal {a : ι → u8} {u : u8} (hu : gf u ≠ 0) (k : ι) :
    gf (scal a u k) = gf u * gf (a k) := by
  rw [scal_apply (gf_ne_zero.1 hu)]
  rfl

variable {n T : Nat}

theorem Shards.load_store (data : Shards n T) {i j : Nat} (hj : j < n) (row : Row T) :
    (data.store j row).load i = if i = j then row else data.load i := by
  unfold Shards.load Shards.store
  rw [dif_pos hj]
  by_cases hij : i = j
  · subst hij
    rw [dif_pos hj, if_pos rfl, Function.update_self]
  · rw [if_neg hij]
    by_cases hi : i < n
    · rw [dif_pos hi, dif_pos hi, Function.update_of_ne]
      exact fun heq => hij (Fin.mk.inj heq)
    · rw [dif_neg hi, dif_neg hi]

end ConfigEnv.TunVpn
