/-
Module: ConfigEnv.Proofs.FecSlot
Layer: Proofs
Purpose: What one call of `fec_recv_done` does to its slot. The four outcomes of the function come
  first, told apart by the count after the slot was claimed and by the shard index. Over them stands
  the account of a slot that collects the shards of one packet: `Collects` says that the unmarked
  rows are rows of the packet, adding a shard keeps it, and decoding turns it into the packet
  itself.
Trusted boundary: none
Main exports: fecRecvDone_full, fecRecvDone_store, fecRecvDone_decode, fecRecvDone_fault,
  fecRecvDone_outcome, FecSlot.HasRow, fecRecvDone_ok_iff, Collects, IsShard, shard_step,
  first_shard, second_shard, late_shard
Open obligations: none
-/
import ConfigEnv.Proofs.ErasureCode
import ConfigEnv.TunVpn.Dedup

namespace ConfigEnv.TunVpn

/-! ### Claiming a slot -/

namespace FecSlot

variable {slot : FecSlot} {seq plen : u16}

/-- A slot with another number is reset. -/
theorem claim_of_ne (h : slot.seq ≠ seq) : slot.claim seq plen = slot.reset seq plen :=
  if_pos h

/-- A slot with this number is kept. -/
theorem claim_of_eq (h : slot.seq = seq) : slot.claim seq plen = slot :=
  if_neg (not_not.2 h)

@[simp] theorem reset_cnt (slot : FecSlot) (seq plen : u16) : (slot.reset seq plen).cnt = 0#8 := rfl

@[simp] theorem claim_seq (slot : FecSlot) (seq plen : u16) : (slot.claim seq plen).seq = seq := by
  by_cases h : slot.seq = seq
  · rw [claim_of_eq h, h]
  · rw [claim_of_ne h]
    rfl

@[simp] theorem addShard_cnt (slot : FecSlot) (i : Fin shardCount) (mem : List u8) (ts : Int) :
    (slot.addShard i mem ts).cnt = slot.cnt + 1 := rfl

@[simp] theorem decode_cnt (slot : FecSlot) (codec : FecCodec) :
    (slot.decode codec).slot.cnt = slot.cnt := rfl

@[simp] theorem decode_plen (slot : FecSlot) (codec : FecCodec) :
    (slot.decode codec).slot.plen = slot.plen := rfl

@[simp] theorem decode_marks (slot : FecSlot) (codec : FecCodec) :
    (slot.decode codec).slot.marks = slot.marks := rfl

/-- After the claim a slot takes shards if the number is new to it or it counted less than two. -/
theorem claim_takes :
    (slot.claim seq plen).cnt.toNat < fecRsK ↔ slot.seq ≠ seq ∨ slot.cnt.toNat < fecRsK := by
  by_cases hseq : slot.seq = seq
  · rw [claim_of_eq hseq]
    simp [hseq]
  · rw [claim_of_ne hseq, reset_cnt]
    simp [hseq]

/-- Shards that are counted after the claim were counted for this number. -/
theorem seq_eq_of_claim_cnt (h : (slot.claim seq plen).cnt ≠ 0#8) : slot.seq = seq := by
  by_contra hne
  rw [claim_of_ne hne] at h
  exact h rfl

/-- The counts that matter: nothing yet, one shard, enough. -/
theorem cnt_cases (c : u8) : c = 0#8 ∨ c = 1#8 ∨ fecRsK ≤ c.toNat := by
  simp only [fecRsK]
  by_cases h : 2 ≤ c.toNat
  · exact .inr (.inr h)
  · have hlt : c.toNat = 0 ∨ c.toNat = 1 := by omega
    rcases hlt with h | h
    · exact .inl (BitVec.eq_of_toNat_eq h)
    · exact .inr (.inl (BitVec.eq_of_toNat_eq h))

end FecSlot

/-! ### The outcomes of `fec_recv_done` -/

section Outcomes

variable {slot : FecSlot} {ts : Int} {seq : u16} {pkg : TunPkg} {codec : FecCodec}

/-- Enough shards were counted: the shard is ignored. -/
theorem fecRecvDone_full (hcnt : fecRsK ≤ (slot.claim seq pkg.hdr.plen).cnt.toNat) :
    fecRecvDone slot ts seq pkg codec =
      .ok { slot := slot.claim seq pkg.hdr.plen, codec := codec, done := false, reads := [] } := by
  unfold fecRecvDone
  exact if_neg (not_lt.2 hcnt)

/-- The first shard is stored. -/
theorem fecRecvDone_store (hcnt : (slot.claim seq pkg.hdr.plen).cnt = 0#8)
    (hidx : pkg.hdr.fecIdx.toNat < shardCount) :
    fecRecvDone slot ts seq pkg codec =
      .ok { slot := (slot.claim seq pkg.hdr.plen).addShard ⟨_, hidx⟩ pkg.payload ts
            codec := codec, done := false, reads := [] } := by
  unfold fecRecvDone
  have hlt : (slot.claim seq pkg.hdr.plen).cnt.toNat < fecRsK := by
    rw [hcnt]
    decide
  have hone : ¬ ((slot.claim seq pkg.hdr.plen).cnt + 1).toNat ≥ fecRsK := by
    rw [hcnt]
    decide
  simp only [if_pos hlt, dif_pos hidx, FecSlot.addShard_cnt]
  exact if_neg hone

/-- The second shard is stored and decoding is tried. -/
theorem fecRecvDone_decode (hcnt : (slot.claim seq pkg.hdr.plen).cnt = 1#8)
    (hidx : pkg.hdr.fecIdx.toNat < shardCount) :
    fecRecvDone slot ts seq pkg codec =
      .ok (((slot.claim seq pkg.hdr.plen).addShard ⟨_, hidx⟩ pkg.payload ts).decode codec) := by
  unfold fecRecvDone
  have hlt : (slot.claim seq pkg.hdr.plen).cnt.toNat < fecRsK := by
    rw [hcnt]
    decide
  have htwo : ((slot.claim seq pkg.hdr.plen).cnt + 1).toNat ≥ fecRsK := by
    rw [hcnt]
    decide
  simp only [if_pos hlt, dif_pos hidx, FecSlot.addShard_cnt]
  exact if_pos htwo

/-- A shard index past the rows is stored through. -/
theorem fecRecvDone_fault (hcnt : (slot.claim seq pkg.hdr.plen).cnt.toNat < fecRsK)
    (hidx : ¬ pkg.hdr.fecIdx.toNat < shardCount) :
    fecRecvDone slot ts seq pkg codec = .error (.shardStore pkg.hdr.fecIdx.toNat) := by
  unfold fecRecvDone
  simp only [if_pos hcnt, dif_neg hidx]

/-- What a call that does not fault comes to. -/
inductive FecOutcome (slot : FecSlot) (ts : Int) (seq : u16) (pkg : TunPkg) (codec : FecCodec) :
    FecRecv → Prop where
  | full (hcnt : fecRsK ≤ (slot.claim seq pkg.hdr.plen).cnt.toNat) :
      FecOutcome slot ts seq pkg codec
        { slot := slot.claim seq pkg.hdr.plen, codec := codec, done := false, reads := [] }
  | store (hidx : pkg.hdr.fecIdx.toNat < shardCount)
      (hcnt : (slot.claim seq pkg.hdr.plen).cnt = 0#8) :
      FecOutcome slot ts seq pkg codec
        { slot := (slot.claim seq pkg.hdr.plen).addShard ⟨_, hidx⟩ pkg.payload ts
          codec := codec, done := false, reads := [] }
  | decode (hidx : pkg.hdr.fecIdx.toNat < shardCount)
      (hcnt : (slot.claim seq pkg.hdr.plen).cnt = 1#8) :
      FecOutcome slot ts seq pkg codec
        (((slot.claim seq pkg.hdr.plen).addShard ⟨_, hidx⟩ pkg.payload ts).decode codec)

/-- Every call that ends has one of the listed outcomes. -/
theorem fecRecvDone_outcome {r : FecRecv} (hr : fecRecvDone slot ts seq pkg codec = .ok r) :
    FecOutcome slot ts seq pkg codec r := by
  by_cases hcnt : fecRsK ≤ (slot.claim seq pkg.hdr.plen).cnt.toNat
  · rw [fecRecvDone_full hcnt] at hr
    cases hr
    exact .full hcnt
  · by_cases hidx : pkg.hdr.fecIdx.toNat < shardCount
    · rcases FecSlot.cnt_cases (slot.claim seq pkg.hdr.plen).cnt with h0 | h1 | h2
      · rw [fecRecvDone_store h0 hidx] at hr
        cases hr
        exact .store hidx h0
      · rw [fecRecvDone_decode h1 hidx] at hr
        cases hr
        exact .decode hidx h1
      · exact absurd h2 hcnt
    · rw [fecRecvDone_fault (not_le.1 hcnt) hidx] at hr
      cases hr

/-- A slot that takes one more shard has a row for this one. -/
def FecSlot.HasRow (slot : FecSlot) (seq : u16) (idx : Nat) : Prop :=
  slot.seq ≠ seq ∨ slot.cnt.toNat < fecRsK → idx < shardCount

/-- A call faults on the shards that have no row, and on no others. -/
theorem fecRecvDone_ok_iff :
    (∃ r, fecRecvDone slot ts seq pkg codec = .ok r) ↔
      slot.HasRow seq pkg.hdr.fecIdx.toNat := by
  constructor
  · rintro ⟨r, hr⟩ htakes
    by_contra hidx
    rw [fecRecvDone_fault (FecSlot.claim_takes.2 htakes) hidx] at hr
    cases hr
  · intro hrow
    by_cases hcnt : (slot.claim seq pkg.hdr.plen).cnt.toNat < fecRsK
    · have hidx := hrow (FecSlot.claim_takes.1 hcnt)
      rcases FecSlot.cnt_cases (slot.claim seq pkg.hdr.plen).cnt with h | h | h
      · exact ⟨_, fecRecvDone_store h hidx⟩
      · exact ⟨_, fecRecvDone_decode h hidx⟩
      · exact absurd hcnt (not_lt.2 h)
    · exact ⟨_, fecRecvDone_full (not_lt.1 hcnt)⟩

/-- A shard whose index names a row of the slot is always handled. -/
theorem fecRecvDone_ok (hidx : pkg.hdr.fecIdx.toNat < shardCount) (slot : FecSlot) (ts : Int)
    (seq : u16) (codec : FecCodec) : ∃ r, fecRecvDone slot ts seq pkg codec = .ok r :=
  fecRecvDone_ok_iff.2 fun _ => hidx

/-- The call leaves its number in the slot. -/
theorem fecRecvDone_seq {r : FecRecv} (hr : fecRecvDone slot ts seq pkg codec = .ok r) :
    r.slot.seq = seq := by
  cases fecRecvDone_outcome hr with
  | full _ => exact slot.claim_seq seq pkg.hdr.plen
  | store _ _ => exact slot.claim_seq seq pkg.hdr.plen
  | decode _ _ => exact slot.claim_seq seq pkg.hdr.plen

/-- A call that decodes leaves a slot that takes no more shards of its number. -/
theorem fecRecvDone_done_cnt {r : FecRecv} (hr : fecRecvDone slot ts seq pkg codec = .ok r)
    (hdone : r.done = true) : fecRsK ≤ r.slot.cnt.toNat := by
  cases fecRecvDone_outcome hr with
  | full _ => cases hdone
  | store _ _ => cases hdone
  | decode _ hcnt =>
      rw [FecSlot.decode_cnt, FecSlot.addShard_cnt, hcnt]
      decide

end Outcomes

/-! ### Collecting one packet -/

/-- The slot holds this number and length, and the rows that it counts as received are rows of `s`.
-/
structure FecSlot.Collects (slot : FecSlot) (seq plen : u16) (s : Shards shardCount fecRsT) :
    Prop where
  seq_eq : slot.seq = seq
  plen_eq : slot.plen = plen
  rows : ∀ i, slot.marks i = 0#8 → slot.buf i = s i

/-- A datagram that carries row `i` of `s`. -/
structure IsShard (pkg : TunPkg) (plen : u16) (s : Shards shardCount fecRsT) (i : Fin shardCount) :
    Prop where
  plen_eq : pkg.hdr.plen = plen
  fecIdx_eq : pkg.hdr.fecIdx.toNat = i.val
  row_eq : rowOfMem pkg.payload = s i

/-- What a completed slot holds of the packet: its number and length, and the data rows. -/
structure FecSlot.Complete (slot : FecSlot) (seq plen : u16) (s : Shards shardCount fecRsT) :
    Prop where
  seq_eq : slot.seq = seq
  plen_eq : slot.plen = plen
  cnt_le : fecRsK ≤ slot.cnt.toNat
  rows : ∀ i, i ≠ 2 → slot.buf i = s i

section Collecting

variable {slot : FecSlot} {seq plen : u16} {s : Shards shardCount fecRsT} {pkg : TunPkg}
  {i : Fin shardCount} {codec : FecCodec}

/-- A slot claimed for a new packet counts nothing as received. -/
theorem FecSlot.collects_reset (slot : FecSlot) : (slot.reset seq plen).Collects seq plen s where
  seq_eq := rfl
  plen_eq := rfl
  rows i hi := absurd hi (by simp [FecSlot.reset])

/-- A slot that collects a packet's rows still does with one more of them. -/
theorem FecSlot.Collects.addShard (h : slot.Collects seq plen s) (hp : IsShard pkg plen s i)
    (ts : Int) : (slot.addShard i pkg.payload ts).Collects seq plen s where
  seq_eq := h.seq_eq
  plen_eq := h.plen_eq
  rows j hj := by
    by_cases hij : j = i
    · subst hij
      simp [FecSlot.addShard, hp.row_eq]
    · simp only [FecSlot.addShard, Function.update_of_ne hij] at hj ⊢
      exact h.rows j hj

/-- Decoding succeeds when two rows are there. -/
theorem FecSlot.decode_done (hone : AtMostOneLost slot.marks) : (slot.decode codec).done = true :=
  decide_eq_true (decode_ret codec slot.buf slot.marks [slot.cnt, 0] hone)

/-- Decoding a slot with two rows of the packet gives its data rows. -/
theorem FecSlot.Collects.decode (h : slot.Collects seq plen s) (hs : Codeword s)
    (hone : AtMostOneLost slot.marks) (hcnt : fecRsK ≤ slot.cnt.toNat) (codec : FecCodec) :
    (slot.decode codec).done = true ∧ (slot.decode codec).slot.Complete seq plen s := by
  refine ⟨FecSlot.decode_done hone, ?_⟩
  constructor
  · exact h.seq_eq
  · exact h.plen_eq
  · exact hcnt
  · intro i hi
    exact decode_codeword codec s [slot.cnt, 0] hs h.rows hone hi

/-- The rows after decoding, whatever the codec. -/
@[simp] theorem FecSlot.decode_buf (slot : FecSlot) (codec : FecCodec) :
    (slot.decode codec).slot.buf = recovered slot.buf slot.marks :=
  decode_data codec slot.buf slot.marks [slot.cnt, 0]

/-- With fewer rows decoding gives nothing. -/
theorem FecSlot.decode_lost (hlost : ¬ AtMostOneLost slot.marks) :
    (slot.decode codec).done = false := by
  obtain ⟨hret, -⟩ := decode_fails codec slot.buf slot.marks [slot.cnt, 0] hlost
  apply decide_eq_false
  intro h0
  rw [FecSlot.marksMem, hret] at h0
  exact absurd h0 (by decide)

/-- After one shard only its row is unmarked, and a second one completes the pair. -/
theorem atMostOneLost_update {marks : Fin shardCount → u8} {j : Fin shardCount}
    (hj : marks j = 0#8) (hij : i ≠ j) : AtMostOneLost (Function.update marks i 0) := by
  intro a b ha hb
  have hai : a ≠ i := by
    rintro rfl
    simp at ha
  have hbi : b ≠ i := by
    rintro rfl
    simp at hb
  rw [Function.update_of_ne hai] at ha
  rw [Function.update_of_ne hbi] at hb
  have haj : a ≠ j := fun h => ha (h ▸ hj)
  have hbj : b ≠ j := fun h => hb (h ▸ hj)
  simp only [shardCount, fecRsK, fecRsN] at *
  omega

/-- One shard of a packet, at a slot that is free, finished, or collecting this packet. -/
theorem shard_step (hs : Codeword s)
    (hslot : slot.seq ≠ seq ∨ fecRsK ≤ slot.cnt.toNat ∨ slot.Collects seq plen s)
    (hp : IsShard pkg plen s i) (ts : Int) (codec : FecCodec) :
    ∃ r, fecRecvDone slot ts seq pkg codec = .ok r ∧ r.slot.seq = seq ∧
      (fecRsK ≤ r.slot.cnt.toNat ∨ r.slot.Collects seq plen s) ∧
      (r.done = true → r.slot.Complete seq plen s) := by
  have hidx : pkg.hdr.fecIdx.toNat < shardCount := hp.fecIdx_eq ▸ i.isLt
  have hi : (⟨pkg.hdr.fecIdx.toNat, hidx⟩ : Fin shardCount) = i := Fin.ext hp.fecIdx_eq
  -- the claim leaves a slot that is finished or collects this packet
  have hclaim : fecRsK ≤ (slot.claim seq pkg.hdr.plen).cnt.toNat ∨
      (slot.claim seq pkg.hdr.plen).Collects seq plen s := by
    by_cases hseq : slot.seq = seq
    · rw [FecSlot.claim_of_eq hseq]
      rcases hslot with h | h | h
      · exact absurd hseq h
      · exact .inl h
      · exact .inr h
    · rw [FecSlot.claim_of_ne hseq, hp.plen_eq]
      exact .inr slot.collects_reset
  rcases FecSlot.cnt_cases (slot.claim seq pkg.hdr.plen).cnt with hcnt | hcnt | hcnt
  · have hcol := hclaim.resolve_left (by simp [hcnt])
    refine ⟨_, fecRecvDone_store hcnt hidx, slot.claim_seq seq _, .inr ?_, by simp⟩
    rw [hi]
    exact hcol.addShard hp ts
  · have hcol := hclaim.resolve_left (by simp [hcnt])
    have htwo : fecRsK ≤ ((slot.claim seq pkg.hdr.plen).cnt + 1).toNat := by
      rw [hcnt]
      decide
    refine ⟨_, fecRecvDone_decode hcnt hidx, slot.claim_seq seq _, .inl htwo, ?_⟩
    rw [hi]
    intro hdone
    by_cases hone : AtMostOneLost ((slot.claim seq pkg.hdr.plen).addShard i pkg.payload ts).marks
    · exact ((hcol.addShard hp ts).decode hs hone htwo codec).2
    · rw [FecSlot.decode_lost hone] at hdone
      cases hdone
  · exact ⟨_, fecRecvDone_full hcnt, slot.claim_seq seq _, .inl hcnt, by simp⟩

/-- The first shard of a packet, at a slot that holds another number. -/
theorem first_shard (hseq : slot.seq ≠ seq) (hp : IsShard pkg plen s i) (ts : Int)
    (codec : FecCodec) :
    ∃ r, fecRecvDone slot ts seq pkg codec = .ok r ∧ r.done = false ∧
      r.slot.Collects seq plen s ∧ r.slot.cnt = 1#8 ∧ r.slot.marks i = 0#8 := by
  have hidx : pkg.hdr.fecIdx.toNat < shardCount := hp.fecIdx_eq ▸ i.isLt
  have hi : (⟨pkg.hdr.fecIdx.toNat, hidx⟩ : Fin shardCount) = i := Fin.ext hp.fecIdx_eq
  have hclaim : slot.claim seq pkg.hdr.plen = slot.reset seq plen := by
    rw [FecSlot.claim_of_ne hseq, hp.plen_eq]
  have hcnt : (slot.claim seq pkg.hdr.plen).cnt = 0#8 := by
    rw [hclaim]
    rfl
  refine ⟨_, fecRecvDone_store hcnt hidx, rfl, ?_⟩
  rw [hi, hclaim]
  refine ⟨slot.collects_reset.addShard hp ts, rfl, ?_⟩
  simp [FecSlot.addShard]

/-- Another shard of the packet, at a slot that holds one. -/
theorem second_shard (hs : Codeword s) {j : Fin shardCount} (hcol : slot.Collects seq plen s)
    (hcnt : slot.cnt = 1#8) (hj : slot.marks j = 0#8) (hij : i ≠ j) (hp : IsShard pkg plen s i)
    (ts : Int) (codec : FecCodec) :
    ∃ r, fecRecvDone slot ts seq pkg codec = .ok r ∧ r.done = true ∧
      r.slot.Complete seq plen s := by
  have hidx : pkg.hdr.fecIdx.toNat < shardCount := hp.fecIdx_eq ▸ i.isLt
  have hi : (⟨pkg.hdr.fecIdx.toNat, hidx⟩ : Fin shardCount) = i := Fin.ext hp.fecIdx_eq
  have hclaim : slot.claim seq pkg.hdr.plen = slot := FecSlot.claim_of_eq hcol.seq_eq
  have hcnt' : (slot.claim seq pkg.hdr.plen).cnt = 1#8 := hclaim.symm ▸ hcnt
  have htwo : fecRsK ≤ (slot.addShard i pkg.payload ts).cnt.toNat := by
    rw [FecSlot.addShard_cnt, hcnt]
    decide
  refine ⟨_, fecRecvDone_decode hcnt' hidx, ?_⟩
  rw [hi, hclaim]
  exact (hcol.addShard hp ts).decode hs (atMostOneLost_update hj hij) htwo codec

/-- A further shard, at a slot that is finished with its number. -/
theorem late_shard (hseq : slot.seq = seq) (hcnt : fecRsK ≤ slot.cnt.toNat) (pkg : TunPkg)
    (ts : Int) (codec : FecCodec) :
    fecRecvDone slot ts seq pkg codec =
      .ok { slot := slot, codec := codec, done := false, reads := [] } := by
  have hclaim : slot.claim seq pkg.hdr.plen = slot := FecSlot.claim_of_eq hseq
  have hfull : fecRsK ≤ (slot.claim seq pkg.hdr.plen).cnt.toNat := hclaim.symm ▸ hcnt
  rw [fecRecvDone_full hfull, hclaim]

end Collecting

/-! ### Reading the packet out of the rows -/

/-- The rows before the parity row are the first bytes of the flattened array. -/
theorem fecFlat_take {rows : Shards shardCount fecRsT} {payload : List u8} {len : Nat}
    (hrows : ∀ i, i ≠ 2 → rows i = fecBuf payload i) (hpayload : payload.length = payloadSize)
    (hlen : len ≤ fecRsK * fecRsT) : (fecFlat rows).take len = payload.take len := by
  refine List.ext_getElem ?_ fun t ht _ => ?_
  · simp only [List.length_take, length_fecFlat, hpayload, payloadSize]
  · have hlt : t < len := by
      simp only [List.length_take] at ht
      omega
    simp only [fecRsK, fecRsT] at hlen
    have hsmall : t / fecRsT < 2 := Nat.div_lt_of_lt_mul (by simp only [fecRsT]; omega)
    have hsum : fecRsT * (t / fecRsT) + t % fecRsT = t := Nat.div_add_mod t fecRsT
    rw [List.getElem_take, List.getElem_take, getElem_fecFlat, hrows]
    · simp only [fecBuf, Fin.coe_divNat, Fin.coe_modNat, hsum]
      exact List.getD_eq_getElem _ _ _
    · intro h2
      have hval := congrArg Fin.val h2
      simp only [Fin.coe_divNat] at hval
      have : t / fecRsT = 2 := hval
      omega

end ConfigEnv.TunVpn
