/-
Module: ConfigEnv.Proofs.ErasureCode
Layer: Proofs
Purpose: The codec at the size the programs use, two data shards and one parity shard. Encoding
  gives a codeword; decoding gives back the two data rows of a codeword from any two of its three
  rows, and fails with a read past the marks when two rows are missing. Each pattern of missing rows
  is run through the loops of the decoder once, in the section on patterns; everything later is
  stated from those.
Trusted boundary: none
Main exports: Codeword, encode_eq, AtMostOneLost, decode_ret, recovered, decode_data,
  decode_codeword, decode_fails
Open obligations: none
-/
import ConfigEnv.TunVpn.ReedSolomon
import Mathlib.Tactic.FinCases

namespace ConfigEnv.TunVpn

variable {T : Nat}

/-- The third row is the parity of the first two, with the coefficients `1, INV[2]`. -/
def Codeword (s : Shards 3 T) : Prop :=
  ∀ k, s 2 k = s 0 k ^^^ gf28Mul 142 (s 1 k)

/-! ### Encoding -/

/-- The encoder computes the third row from the other two. -/
theorem encode_eq (c : FecCodec) (s : Shards 3 T) :
    reedSolomonEncode c.rs s =
      (0, Function.update s 2 fun k => s 0 k ^^^ gf28Mul 142 (s 1 k)) := by
  have hrow : axpy (axpy (fun _ => 0#8) (s 0) 1#8) (s 1) 142#8 =
      fun k => s 0 k ^^^ gf28Mul 142 (s 1 k) := by
    funext k
    simp [axpy_apply]
  rw [c.rs_eq]
  simp [reedSolomonEncode, gemm, List.range_succ, Shards.load, Shards.store, hrow]

/-! ### Elimination

With one parity row there is nothing to eliminate, or one row to solve for. -/

/-- With nothing lost, the elimination changes nothing. -/
theorem invertMat_complete (c d : List Nat) (e : Elimination 3 T) :
    invertMat [1#8, 142#8] 2 2 c d e = e := by
  simp [invertMat, invertCopy, invertSubtract, invertForward, invertBack]

/-- With the first row lost, the elimination computes it from the second and the parity. -/
theorem invertMat_first (e : Elimination 3 T) :
    (invertMat [1#8, 142#8] 1 2 [1, 0] [0] e).dst =
      Function.update e.dst 0 fun k => e.dst 0 k ^^^ gf28Mul 142 (e.dst 1 k) := by
  have hinv : gf28Inv 1#8 = 1#8 := rfl
  have hrow : scal (axpy (e.dst 0) (e.dst 1) 142#8) 1#8 =
      fun k => e.dst 0 k ^^^ gf28Mul 142 (e.dst 1 k) := by
    funext k
    simp [scal_apply, axpy_apply]
  simp [invertMat, invertCopy, invertSubtract, invertForward, invertBack, Elimination.axpyRow,
    Shards.load, Shards.store, hinv, hrow]

/-- With the second row lost, the elimination computes it from the first and the parity. -/
theorem invertMat_second (e : Elimination 3 T) :
    (invertMat [1#8, 142#8] 1 2 [0, 1] [0] e).dst =
      Function.update e.dst 1 fun k => gf28Mul (gf28Inv 142) (e.dst 1 k ^^^ e.dst 0 k) := by
  have hinv : gf28Inv 142#8 = 2#8 := rfl
  have hrow : scal (axpy (e.dst 1) (e.dst 0) 1#8) 2#8 =
      fun k => gf28Mul (gf28Inv 142) (e.dst 1 k ^^^ e.dst 0 k) := by
    funext k
    simp [scal_apply, axpy_apply, hinv]
  simp [invertMat, invertCopy, invertSubtract, invertForward, invertBack, Elimination.axpyRow,
    Shards.load, Shards.store, hinv, hrow]

/-! ### The decoder, one pattern of marks at a time -/

section Patterns

variable (c : FecCodec) (data : Shards 3 T) {m0 m1 m2 : u8} (tail : List u8)

/-- With both data rows there, the decoder returns at once. -/
theorem decode_complete (m2 : u8) :
    let d := reedSolomonDecode c.rs data (0#8 :: 0#8 :: m2 :: tail)
    d.ret = 0 ∧ d.data = data ∧ d.reads = [0, 1, 0, 1] := by
  have h0 : skipMarked (0#8 :: 0#8 :: m2 :: tail) 0 = 0 := skipMarked_here rfl
  have h1 : skipMarked (0#8 :: 0#8 :: m2 :: tail) 1 = 1 := skipMarked_here rfl
  rw [c.rs_eq]
  simp [reedSolomonDecode, List.range_succ, survivors, skipReads, gatherParity, h0, h1,
    invertMat_complete]

/-- The decoder recovers the first row. -/
theorem decode_lost_first (hm0 : m0 ≠ 0#8) :
    let d := reedSolomonDecode c.rs data (m0 :: 0#8 :: 0#8 :: tail)
    d.ret = 0 ∧ d.reads = [0, 1, 0, 1, 2, 2] ∧
      d.data = Function.update data 0 fun k => data 2 k ^^^ gf28Mul 142 (data 1 k) := by
  have h1 : skipMarked (m0 :: 0#8 :: 0#8 :: tail) 1 = 1 := skipMarked_here rfl
  have h0 : skipMarked (m0 :: 0#8 :: 0#8 :: tail) 0 = 1 := (skipMarked_next rfl hm0).trans h1
  have h2 : skipMarked (m0 :: 0#8 :: 0#8 :: tail) 2 = 2 := skipMarked_here rfl
  have hreads : List.range' 0 2 = [0, 1] := rfl
  rw [c.rs_eq]
  simp [reedSolomonDecode, List.range_succ, survivors, skipReads, gatherParity, h0, h2, hm0,
    invertMat_first, Shards.load, Shards.store, hreads]

/-- The decoder recovers the second row. -/
theorem decode_lost_second (hm1 : m1 ≠ 0#8) :
    let d := reedSolomonDecode c.rs data (0#8 :: m1 :: 0#8 :: tail)
    d.ret = 0 ∧ d.reads = [0, 1, 0, 2, 2] ∧
      d.data = Function.update data 1
        fun k => gf28Mul (gf28Inv 142) (data 2 k ^^^ data 0 k) := by
  have h0 : skipMarked (0#8 :: m1 :: 0#8 :: tail) 0 = 0 := skipMarked_here rfl
  have h2 : skipMarked (0#8 :: m1 :: 0#8 :: tail) 2 = 2 := skipMarked_here rfl
  rw [c.rs_eq]
  simp [reedSolomonDecode, List.range_succ, survivors, skipReads, gatherParity, h0, h2, hm1,
    invertMat_second, Shards.load, Shards.store]

/-- With the parity row and a data row missing the search for a parity row leaves the marks. -/
theorem decode_lost_parity (hm2 : m2 ≠ 0#8) (hm : m0 ≠ 0#8 ∨ m1 ≠ 0#8) :
    let d := reedSolomonDecode c.rs data (m0 :: m1 :: m2 :: tail)
    d.ret = -1 ∧ d.data = data ∧ 3 ∈ d.reads := by
  have hskip : 3 ≤ skipMarked (m0 :: m1 :: m2 :: tail) 2 := by
    rw [skipMarked_next (m := m2) rfl hm2]
    exact le_skipMarked _ 3
  have hread : 3 ∈ skipReads (m0 :: m1 :: m2 :: tail) 2 := mem_skipReads.2 ⟨by omega, hskip⟩
  rw [c.rs_eq]
  by_cases hm0 : m0 = 0#8
  · have hm1 : m1 ≠ 0#8 := by
      rcases hm with h | h
      · exact absurd hm0 h
      · exact h
    simp [reedSolomonDecode, List.range_succ, gatherParity, hm0, hm1] at hskip hread ⊢
    simp [hskip, hread]
  · by_cases hm1 : m1 = 0#8
    · simp [reedSolomonDecode, List.range_succ, gatherParity, hm0, hm1] at hskip hread ⊢
      simp [hskip, hread]
    · simp [reedSolomonDecode, List.range_succ, gatherParity, hm0, hm1, hskip, hread]

/-- With both data rows missing the parity row fills the first gap, and the search for a second one
leaves the marks. -/
theorem decode_lost_data (hm0 : m0 ≠ 0#8) (hm1 : m1 ≠ 0#8) :
    let d := reedSolomonDecode c.rs data (m0 :: m1 :: 0#8 :: tail)
    d.ret = -1 ∧ d.data = Function.update data 0 (data 2) ∧ 3 ∈ d.reads := by
  have h2 : skipMarked (m0 :: m1 :: 0#8 :: tail) 2 = 2 := skipMarked_here rfl
  have hskip : 3 ≤ skipMarked (m0 :: m1 :: 0#8 :: tail) 3 := le_skipMarked _ 3
  have hread : 3 ∈ skipReads (m0 :: m1 :: 0#8 :: tail) 3 := mem_skipReads.2 ⟨le_refl 3, hskip⟩
  rw [c.rs_eq]
  simp [reedSolomonDecode, List.range_succ, gatherParity, hm0, hm1, h2, hskip, hread, Shards.load,
    Shards.store]

end Patterns

/-! ### Decoding a codeword -/

/-- No two rows carry a mark. -/
def AtMostOneLost (marks : Fin 3 → u8) : Prop :=
  ∀ i j, marks i ≠ 0#8 → marks j ≠ 0#8 → i = j

theorem atMostOneLost_iff (marks : Fin 3 → u8) :
    AtMostOneLost marks ↔
      (marks 0 = 0#8 ∧ marks 1 = 0#8) ∨ (marks 1 = 0#8 ∧ marks 2 = 0#8) ∨
        (marks 0 = 0#8 ∧ marks 2 = 0#8) := by
  constructor
  · intro h
    have h01 := h 0 1
    have h02 := h 0 2
    have h12 := h 1 2
    simp at h01 h02 h12
    tauto
  · intro h i j hi hj
    fin_cases i <;> fin_cases j <;> simp_all

instance (marks : Fin 3 → u8) : Decidable (AtMostOneLost marks) :=
  decidable_of_iff _ (atMostOneLost_iff marks).symm

theorem marks_eq (marks : Fin 3 → u8) (tail : List u8) :
    List.ofFn marks ++ tail = marks 0 :: marks 1 :: marks 2 :: tail := rfl

variable (c : FecCodec) (data s : Shards 3 T) (marks : Fin 3 → u8) (tail : List u8)

/-- With two rows at hand decoding succeeds, and every read is in range. -/
theorem decode_some (hone : AtMostOneLost marks) :
    let d := reedSolomonDecode c.rs data (List.ofFn marks ++ tail)
    d.ret = 0 ∧ d.reads ⊆ [0, 1, 2] := by
  rw [marks_eq]
  rcases (atMostOneLost_iff marks).1 hone with ⟨h0, h1⟩ | ⟨h1, h2⟩ | ⟨h0, h2⟩
  · obtain ⟨hret, -, hreads⟩ := decode_complete c data tail (marks 2)
    rw [h0, h1]
    exact ⟨hret, by rw [hreads]; simp⟩
  · by_cases h0 : marks 0 = 0#8
    · obtain ⟨hret, -, hreads⟩ := decode_complete c data tail (marks 2)
      rw [h0, h1]
      exact ⟨hret, by rw [hreads]; simp⟩
    · obtain ⟨hret, hreads, -⟩ := decode_lost_first c data tail h0
      rw [h1, h2]
      exact ⟨hret, by rw [hreads]; simp⟩
  · by_cases h1 : marks 1 = 0#8
    · obtain ⟨hret, -, hreads⟩ := decode_complete c data tail (marks 2)
      rw [h0, h1]
      exact ⟨hret, by rw [hreads]; simp⟩
    · obtain ⟨hret, hreads, -⟩ := decode_lost_second c data tail h1
      rw [h0, h2]
      exact ⟨hret, by rw [hreads]; simp⟩

/-- With at most one row lost, the decoder succeeds. -/
theorem decode_ret (hone : AtMostOneLost marks) :
    (reedSolomonDecode c.rs data (List.ofFn marks ++ tail)).ret = 0 :=
  (decode_some c data marks tail hone).1

/-- With at most one row lost, the decoder reads the first three marks only. -/
theorem decode_reads_lt (hone : AtMostOneLost marks) :
    ∀ j ∈ (reedSolomonDecode c.rs data (List.ofFn marks ++ tail)).reads, j < 3 := by
  intro j hj
  have hmem := (decode_some c data marks tail hone).2 hj
  simp only [List.mem_cons, List.not_mem_nil, or_false] at hmem
  omega

/-- The rows that decoding leaves: a lost data row is solved for with the parity row. -/
def recovered : Shards 3 T :=
  if marks 0 = 0#8 then
    if marks 1 = 0#8 then data
    else if marks 2 = 0#8 then
      Function.update data 1 fun k => gf28Mul (gf28Inv 142) (data 2 k ^^^ data 0 k)
    else data
  else if marks 2 = 0#8 then
    if marks 1 = 0#8 then Function.update data 0 fun k => data 2 k ^^^ gf28Mul 142 (data 1 k)
    else Function.update data 0 (data 2)
  else data

/-- Decoding depends on the rows and the marks, and not on what the codec was used for before. -/
theorem decode_data :
    (reedSolomonDecode c.rs data (List.ofFn marks ++ tail)).data = recovered data marks := by
  rw [marks_eq]
  unfold recovered
  by_cases h0 : marks 0 = 0#8
  · rw [if_pos h0]
    by_cases h1 : marks 1 = 0#8
    · rw [if_pos h1, h0, h1]
      exact (decode_complete c data tail _).2.1
    · rw [if_neg h1]
      by_cases h2 : marks 2 = 0#8
      · rw [if_pos h2, h0, h2]
        exact (decode_lost_second c data tail h1).2.2
      · rw [if_neg h2]
        exact (decode_lost_parity c data tail h2 (.inr h1)).2.1
  · rw [if_neg h0]
    by_cases h2 : marks 2 = 0#8
    · rw [if_pos h2]
      by_cases h1 : marks 1 = 0#8
      · rw [if_pos h1, h1, h2]
        exact (decode_lost_first c data tail h0).2.2
      · rw [if_neg h1, h2]
        exact (decode_lost_data c data tail h0 h1).2.1
    · rw [if_neg h2]
      exact (decode_lost_parity c data tail h2 (.inl h0)).2.1

variable {data marks}

/-- Rows that were received stay. -/
theorem recovered_received {i : Fin 3} (hi : marks i = 0#8) : recovered data marks i = data i := by
  unfold recovered
  by_cases h0 : marks 0 = 0#8
  · rw [if_pos h0]
    by_cases h1 : marks 1 = 0#8
    · rw [if_pos h1]
    · rw [if_neg h1]
      have hne : i ≠ 1 := fun h => h1 (h ▸ hi)
      by_cases h2 : marks 2 = 0#8
      · rw [if_pos h2, Function.update_of_ne hne]
      · rw [if_neg h2]
  · rw [if_neg h0]
    have hne : i ≠ 0 := fun h => h0 (h ▸ hi)
    by_cases h2 : marks 2 = 0#8
    · rw [if_pos h2]
      by_cases h1 : marks 1 = 0#8
      · rw [if_pos h1, Function.update_of_ne hne]
      · rw [if_neg h1, Function.update_of_ne hne]
    · rw [if_neg h2]

/-- With two rows at hand the data rows depend on the received rows alone. -/
theorem recovered_agree {data' : Shards 3 T} (hrows : ∀ i, marks i = 0#8 → data i = data' i)
    (hone : AtMostOneLost marks) {i : Fin 3} (hi : i ≠ 2) :
    recovered data marks i = recovered data' marks i := by
  by_cases hreceived : marks i = 0#8
  · rw [recovered_received hreceived, recovered_received hreceived]
    exact hrows i hreceived
  · -- the row was lost, so the other two were received
    have hothers : ∀ j, j ≠ i → marks j = 0#8 := by
      intro j hj
      by_contra hlost
      exact hj (hone j i hlost hreceived)
    have h2 := hothers 2 hi.symm
    match i, hi with
    | 0, _ =>
        have h1 := hothers 1 (by decide)
        simp only [recovered, if_neg hreceived, if_pos h2, if_pos h1, Function.update_self,
          hrows 1 h1, hrows 2 h2]
    | 1, _ =>
        have h0 := hothers 0 (by decide)
        simp only [recovered, if_pos h0, if_neg hreceived, if_pos h2, Function.update_self,
          hrows 0 h0, hrows 2 h2]
    | 2, hi => exact absurd rfl hi

/-- The data rows of a codeword solve its equation. -/
theorem recovered_codeword (hs : Codeword s) (hone : AtMostOneLost marks) :
    recovered s marks = s := by
  unfold recovered
  by_cases h0 : marks 0 = 0#8
  · rw [if_pos h0]
    by_cases h1 : marks 1 = 0#8
    · rw [if_pos h1]
    · have h2 : marks 2 = 0#8 := by
        by_contra h2
        exact absurd (hone 1 2 h1 h2) (by decide)
      -- the parity row without the first row is the second row scaled
      have h142 : (142 : u8) ≠ 0 := by decide
      have hrow : (fun k => gf28Mul (gf28Inv 142) (s 2 k ^^^ s 0 k)) = s 1 := by
        funext k
        rw [hs k, BitVec.xor_comm _ (s 0 k), BinaryField.xor_cancel_left, gf28Mul_cancel h142]
      rw [if_neg h1, if_pos h2, hrow]
      exact Function.update_eq_self 1 s
  · have h1 : marks 1 = 0#8 := by
      by_contra h1
      exact absurd (hone 0 1 h0 h1) (by decide)
    have h2 : marks 2 = 0#8 := by
      by_contra h2
      exact absurd (hone 0 2 h0 h2) (by decide)
    -- taking the second row out of the parity row leaves the first
    have hrow : (fun k => s 2 k ^^^ gf28Mul 142 (s 1 k)) = s 0 := by
      funext k
      rw [hs k, BinaryField.xor_cancel_right]
    rw [if_neg h0, if_pos h2, if_pos h1, hrow]
    exact Function.update_eq_self 0 s

/-- Two received rows of a codeword give back its data rows. -/
theorem decode_codeword (hs : Codeword s) (hrows : ∀ i, marks i = 0#8 → data i = s i)
    (hone : AtMostOneLost marks) {i : Fin 3} (hi : i ≠ 2) :
    (reedSolomonDecode c.rs data (List.ofFn marks ++ tail)).data i = s i := by
  rw [decode_data, recovered_agree hrows hone hi, recovered_codeword s hs hone]

variable (data marks)

/-- With two rows missing decoding fails after a read past the marks. -/
theorem decode_fails (hlost : ¬ AtMostOneLost marks) :
    let d := reedSolomonDecode c.rs data (List.ofFn marks ++ tail)
    d.ret = -1 ∧ 3 ∈ d.reads := by
  rw [atMostOneLost_iff] at hlost
  rw [marks_eq]
  by_cases h2 : marks 2 = 0#8
  · have h0 : marks 0 ≠ 0#8 := fun h0 => hlost (.inr (.inr ⟨h0, h2⟩))
    have h1 : marks 1 ≠ 0#8 := fun h1 => hlost (.inr (.inl ⟨h1, h2⟩))
    obtain ⟨hret, -, hread⟩ := decode_lost_data c data tail h0 h1
    rw [h2]
    exact ⟨hret, hread⟩
  · have hm : marks 0 ≠ 0#8 ∨ marks 1 ≠ 0#8 := by
      by_contra hm
      rw [not_or, not_not, not_not] at hm
      exact hlost (.inl hm)
    obtain ⟨hret, -, hread⟩ := decode_lost_parity c data tail h2 hm
    exact ⟨hret, hread⟩

end ConfigEnv.TunVpn
