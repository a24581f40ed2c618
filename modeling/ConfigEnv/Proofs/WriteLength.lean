/-
Module: ConfigEnv.Proofs.WriteLength
Layer: Proofs
Purpose: How much is written from a slot. The length is the `plen` of the header that claimed the
  slot, and it is used after decoding without a look at what the two data rows hold. When every
  shard that claims a slot announces at most two rows, no slot ever holds more, and no write takes
  more; two shards that announce 1501 bytes have 1501 bytes written. A shard with an index past the
  rows is stored over other slots, so the runs are those of the unchecked receivers, and the
  condition names the index as well.
Trusted boundary: a store past the rows of a slot may leave any state
Main exports: ShardCall.ClaimFits, RowsBounded, deliver_bounded, fec_write_length
Open obligations: none
-/
import ConfigEnv.Proofs.ShardBounds

namespace ConfigEnv.TunVpn

open Machine

/-! ### The length in a slot -/

section Slot

variable {slot : FecSlot} {ts : Int} {seq : u16} {pkg : TunPkg} {codec : FecCodec} {r : FecRecv}

/-- After a call the slot has the length that it had after the claim. -/
theorem fecRecvDone_plen (hr : fecRecvDone slot ts seq pkg codec = .ok r) :
    r.slot.plen = (slot.claim seq pkg.hdr.plen).plen := by
  cases fecRecvDone_outcome hr with
  | full _ => rfl
  | store _ _ => rfl
  | decode _ _ => rfl

/-- The claim takes the length of the shard if the number is new to the slot. -/
theorem FecSlot.claim_plen (slot : FecSlot) (seq plen : u16) :
    (slot.claim seq plen).plen = if slot.seq ≠ seq then plen else slot.plen := by
  by_cases hseq : slot.seq = seq
  · rw [FecSlot.claim_of_eq hseq, if_neg (not_not.2 hseq)]
  · rw [FecSlot.claim_of_ne hseq, if_pos hseq]
    rfl

end Slot

/-- A shard that claims its slot announces no more than the data rows hold. -/
def ShardCall.ClaimFits (call : ShardCall) : Prop :=
  call.slot.seq ≠ call.pkg.hdr.seq → call.pkg.hdr.plen.toNat ≤ fecRsK * fecRsT

/-- No slot holds a length past the data rows. -/
def RowsBounded (st : RecvState) : Prop := ∀ c, (st.fec c).plen.toNat ≤ fecRsK * fecRsT

/-! ### One datagram -/

section Deliver

variable {st st' : RecvState} {worker : Fin udpWorker} {ts : Int} {msg : TunPkg} {plen : Nat}
  {out : Option TunWrite}

/-- A call on a bounded slot leaves it bounded. -/
theorem fecRecvDone_bounded {r : FecRecv} (hst : RowsBounded st)
    (hfits : (st.shardCall worker ts msg).ClaimFits)
    (hr : fecRecvDone (st.fec (slotIdx msg.hdr.seq)) ts msg.hdr.seq msg (st.codec worker) = .ok r) :
    r.slot.plen.toNat ≤ fecRsK * fecRsT := by
  rw [fecRecvDone_plen hr, FecSlot.claim_plen]
  by_cases hseq : (st.fec (slotIdx msg.hdr.seq)).seq = msg.hdr.seq
  · rw [if_neg (not_not.2 hseq)]
    exact hst _
  · rw [if_pos hseq]
    exact hfits hseq

/-- What one datagram does: the slots stay bounded, and a shard writes no more than the data rows.
-/
theorem deliver_bounded (hst : RowsBounded st)
    (hfits : msg.hdr.fecRs ≠ 0 → (st.shardCall worker ts msg).ClaimFits)
    (hstep : deliver st worker ts msg plen = .ok (st', out)) :
    RowsBounded st' ∧ (msg.hdr.fecRs ≠ 0 → ∀ w ∈ out, w.plen ≤ fecRsK * fecRsT) := by
  by_cases hfec : msg.hdr.fecRs = 0
  · rw [deliver_filter hfec] at hstep
    cases hstep
    exact ⟨hst, fun hno => absurd hfec hno⟩
  · obtain ⟨r, hr, rfl, rfl⟩ := (deliver_slot hfec).1 hstep
    have hbound := fecRecvDone_bounded hst (hfits hfec) hr
    constructor
    · intro c
      by_cases hc : c = slotIdx msg.hdr.seq
      · subst hc
        rw [afterShard_same]
        exact hbound
      · rw [afterShard_other _ _ _ hc]
        exact hst c
    · intro _ w hw
      obtain ⟨-, rfl⟩ := FecRecv.write_eq_some.1 hw
      exact hbound

end Deliver

/-- A write that an FEC datagram leads to takes no more than the data rows. -/
def FecWriteFits (pkg : TunPkg) (out : Option TunWrite) : Prop :=
  pkg.hdr.fecRs ≠ 0 → ∀ w ∈ out, w.plen ≤ fecRsK * fecRsT

/-! ### The two programs -/

/-- A shard with an index below three that announces at most two rows fits in every state. -/
theorem Uctun.fits_of_hdr {rx : Uctun.Rx} {hdr : PkgHeader}
    (hhdr : (TunPkg.ofBytes rx.msg.buffer).hdr = hdr) (hidx : hdr.fecIdx.toNat < shardCount)
    (hplen : hdr.plen.toNat ≤ fecRsK * fecRsT) (st : RecvState) :
    ∀ call ∈ Uctun.shardCall st rx, call.HasRow ∧ call.ClaimFits := by
  subst hhdr
  intro call hcall
  unfold Uctun.shardCall at hcall
  dsimp only at hcall
  split at hcall
  · cases hcall
    exact ⟨fun _ => hidx, fun _ => hplen⟩
  · cases hcall

/-- A header with an index of the slot's rows and a length within the two data rows fits. -/
theorem Ustun.fits_of_hdr {rx : Ustun.Rx} {hdr : PkgHeader} (hhdr : rx.pkg.hdr = hdr)
    (hidx : hdr.fecIdx.toNat < shardCount) (hplen : hdr.plen.toNat ≤ fecRsK * fecRsT)
    (sv : Ustun.Server) :
    ∀ call ∈ Ustun.shardCall sv rx, call.HasRow ∧ call.ClaimFits := by
  subst hhdr
  intro call hcall
  unfold Ustun.shardCall at hcall
  split at hcall
  · cases hcall
    exact ⟨fun _ => hidx, fun _ => hplen⟩
  · cases hcall

/-- A step of the client's receiver keeps the rows bounded, and writes within them. -/
theorem Uctun.receiverStep_bounded {st st' : RecvState} {rx : Uctun.Rx} {out : Option TunWrite}
    (hst : RowsBounded st)
    (hfits : ∀ call ∈ Uctun.shardCall st rx, call.HasRow ∧ call.ClaimFits)
    (hstep : unchecked Uctun.receiverStep st rx out st') :
    RowsBounded st' ∧ FecWriteFits (TunPkg.ofBytes rx.msg.buffer) out := by
  have hrow : ∀ call ∈ Uctun.shardCall st rx, call.HasRow := fun call hcall => (hfits call hcall).1
  replace hstep := ofExcept_of_unchecked (Uctun.receiverStep_ok hrow) hstep
  unfold Uctun.receiverStep at hstep
  by_cases hacc : Uctun.accepts rx.msg = true
  · rw [if_pos hacc] at hstep
    apply deliver_bounded hst _ hstep
    intro hfec
    refine (hfits _ ?_).2
    rw [Uctun.shardCall, if_pos ⟨hacc, hfec⟩]
    rfl
  · rw [if_neg hacc] at hstep
    cases hstep
    exact ⟨hst, fun _ w hw => absurd hw (Option.not_mem_none w)⟩

/-- Learning a sender keeps the rows bounded. -/
theorem Ustun.learn_bounded {sv : Ustun.Server} {rx : Ustun.Rx} (hsv : RowsBounded sv.recv) :
    RowsBounded (sv.learn rx).recv := by
  rcases Ustun.learn_recv sv rx with h | h
  · rw [h]
    exact hsv
  · rw [h]
    exact hsv

/-- A step of the server's receiver keeps the rows bounded, and writes within them. -/
theorem Ustun.receiverStep_bounded {sv sv' : Ustun.Server} {rx : Ustun.Rx} {out : Option TunWrite}
    (hsv : RowsBounded sv.recv)
    (hfits : ∀ call ∈ Ustun.shardCall sv rx, call.HasRow ∧ call.ClaimFits)
    (hstep : unchecked Ustun.receiverStep sv rx out sv') :
    RowsBounded sv'.recv ∧ FecWriteFits rx.pkg out := by
  have hrow : ∀ call ∈ Ustun.shardCall sv rx, call.HasRow := fun call hcall => (hfits call hcall).1
  replace hstep := ofExcept_of_unchecked (Ustun.receiverStep_ok hrow) hstep
  by_cases hacc : Ustun.accepts rx.msg = true
  · obtain ⟨st', hdeliver, rfl⟩ := (Ustun.receiverStep_accepted hacc).1 hstep
    apply deliver_bounded (Ustun.learn_bounded hsv) _ hdeliver
    intro hfec
    refine (hfits _ ?_).2
    rw [Ustun.shardCall, if_pos ⟨hacc, hfec⟩]
    rfl
  · rw [Ustun.receiverStep_rejected hacc] at hstep
    cases hstep
    exact ⟨hsv, fun _ w hw => absurd hw (Option.not_mem_none w)⟩

/-! ### Runs -/

/-- In every run in which each shard has a row, if its slot takes one, and announces at most the
data rows, if it claims the slot, no slot ever holds more and no write of an FEC packet takes more.
-/
theorem fec_write_length (ts : Int) (glFec : Bool) (udpSock : Fin udpWorker → Int) :
    (∀ t st', Run (unchecked Uctun.receiverStep) (Uctun.start ts) t st' →
      Always (unchecked Uctun.receiverStep) (Uctun.start ts) (t.map Prod.fst)
        (fun st rx => ∀ call ∈ Uctun.shardCall st rx, call.HasRow ∧ call.ClaimFits) →
      RowsBounded st' ∧ ∀ e ∈ t, FecWriteFits (TunPkg.ofBytes e.1.msg.buffer) e.2) ∧
    (∀ t sv', Run (unchecked Ustun.receiverStep) (Ustun.start glFec udpSock ts) t sv' →
      Always (unchecked Ustun.receiverStep) (Ustun.start glFec udpSock ts) (t.map Prod.fst)
        (fun sv rx => ∀ call ∈ Ustun.shardCall sv rx, call.HasRow ∧ call.ClaimFits) →
      RowsBounded sv'.recv ∧ ∀ e ∈ t, FecWriteFits e.1.pkg e.2) := by
  have hstart : RowsBounded (Uctun.start ts) := fun c => Nat.zero_le _
  constructor
  · intro t st' hrun hfits
    exact hfits.invariant RowsBounded
      (fun rx out => FecWriteFits (TunPkg.ofBytes rx.msg.buffer) out) hrun hstart
      fun _ _ _ _ hst hcall hstep => Uctun.receiverStep_bounded hst hcall hstep
  · intro t sv' hrun hfits
    have hserver : RowsBounded (Ustun.start glFec udpSock ts).recv := by
      unfold Ustun.start Ustun.initDedupState
      split
      · exact fun c => Nat.zero_le _
      · exact fun c => Nat.zero_le _
    exact hfits.invariant (fun sv => RowsBounded sv.recv) (fun rx out => FecWriteFits rx.pkg out)
      hrun hserver fun _ _ _ _ hsv hcall hstep => Ustun.receiverStep_bounded hsv hcall hstep

/-! ### Two shards that announce a length -/

/-- The header of shard `i` of a packet with this number and length. -/
def announced (seq plen : u16) (i : Fin shardCount) : PkgHeader :=
  { magic := magicNum, fecRs := 1, fecIdx := BitVec.ofNat 3 i, fecNum := BitVec.ofNat 3 shardCount
    gw := gatewayId, apn := 1, seq := seq, plen := plen }

/-- The shard, with rows of zeros. -/
def announcedMsg (seq plen : u16) (i : Fin shardCount) : RecvMsg :=
  recvmmsg [] ((announced seq plen i).toBytes ++ List.ofFn (codewordRows zeroPayload i))

def announcedPkg (seq plen : u16) (i : Fin shardCount) : TunPkg :=
  TunPkg.ofBytes (announcedMsg seq plen i).buffer

section Announced

variable {seq plen : u16}

theorem announced_hdr (i : Fin shardCount) : (announcedPkg seq plen i).hdr = announced seq plen i :=
  received_hdr _ _ _

theorem announced_fecRs (i : Fin shardCount) : (announcedPkg seq plen i).hdr.fecRs ≠ 0 := by
  rw [announced_hdr]
  exact (by decide : (1 : BitVec 2) ≠ 0)

theorem announced_fecIdx (i : Fin shardCount) :
    (announced seq plen i).fecIdx.toNat < shardCount := by
  have h : ∀ i : Fin shardCount, (BitVec.ofNat 3 i).toNat < shardCount := by decide
  exact h i

theorem announced_isShard (i : Fin shardCount) :
    IsShard (announcedPkg seq plen i) plen (codewordRows zeroPayload) i :=
  received_shard [] (announced seq plen i) zeroPayload i rfl

theorem announced_idx (i : Fin shardCount) :
    (announcedPkg seq plen i).hdr.fecIdx.toNat < shardCount := by
  rw [announced_hdr]
  exact announced_fecIdx i

/-- At a slot with another number the second one completes the packet. -/
theorem announced_pair {slot : FecSlot} (hslot : slot.seq ≠ seq) (plen : u16) (ts : Int)
    (codec : FecCodec) :
    ∃ r, fecRecvDone slot ts seq (announcedPkg seq plen 0) codec = .ok r ∧ r.done = false ∧
      ∀ ts' codec', ∃ r', fecRecvDone r.slot ts' seq (announcedPkg seq plen 1) codec' = .ok r' ∧
        r'.done = true ∧ r'.slot.Complete seq plen (codewordRows zeroPayload) := by
  obtain ⟨r, hr, hdone, hcol, hcnt, hmark⟩ := first_shard hslot (announced_isShard 0) ts codec
  refine ⟨r, hr, hdone, fun ts' codec' => ?_⟩
  exact second_shard (codewordRows_codeword zeroPayload) hcol hcnt hmark (by decide)
    (announced_isShard 1) ts' codec'

/-- A receiver writes as many bytes as were announced. -/
theorem announced_written {st : RecvState} (hslot : (st.fec (slotIdx seq)).seq ≠ seq) (plen : u16)
    (worker worker' : Fin udpWorker) (ts ts' : Int) (n n' : Nat) :
    ∃ st1 st2 w, deliver st worker ts (announcedPkg seq plen 0) n = .ok (st1, none) ∧
      deliver st1 worker' ts' (announcedPkg seq plen 1) n' = .ok (st2, some w) ∧
      w.plen = plen.toNat := by
  obtain ⟨r, hr, hdone, hsecond⟩ := announced_pair hslot plen ts (st.codec worker)
  obtain ⟨r', hr', hdone', hcomplete⟩ :=
    hsecond ts' ((st.afterShard worker seq r).codec worker')
  have hnone : r.write = none := if_neg (hdone ▸ Bool.false_ne_true)
  let w : TunWrite := { pbuf := fecFlat r'.slot.buf, plen := r'.slot.plen.toNat }
  refine ⟨st.afterShard worker seq r, (st.afterShard worker seq r).afterShard worker' seq r', w,
    ?_, ?_, congrArg BitVec.toNat hcomplete.plen_eq⟩
  · apply (deliver_slot (announced_fecRs 0)).2
    rw [announced_hdr]
    exact ⟨r, hr, rfl, hnone.symm⟩
  · apply (deliver_slot (announced_fecRs 1)).2
    rw [announced_hdr]
    refine ⟨r', ?_, rfl, (FecRecv.write_eq_some.2 ⟨hdone', rfl⟩).symm⟩
    change fecRecvDone ((st.afterShard worker seq r).fec (slotIdx seq)) ts' seq _ _ = .ok r'
    rw [afterShard_same]
    exact hr'

end Announced

/-- The two shards at the client, and at the server. -/
def Uctun.announcedRx (plen : u16) (i : Fin shardCount) : Uctun.Rx :=
  { worker := 0, ts := 0, msg := announcedMsg 0 plen i }

def Ustun.announcedRx (plen : u16) (i : Fin shardCount) : Ustun.Rx :=
  { worker := 0, clock := { init := 4, gateway := 4, conn := 4, recv := 4 }
    allocGateway := true, allocConn := true, addr := { addr := 0, port := 0 }
    msg := announcedMsg 0 plen i }

/-- The client takes them to the slot. -/
theorem Uctun.announced_step {st st' : RecvState} {plen : u16} {i : Fin shardCount}
    {out : Option TunWrite}
    (h : deliver st 0 0 (announcedPkg 0 plen i) ((announcedMsg 0 plen i).msgLen - pktOffset) =
      .ok (st', out)) :
    unchecked Uctun.receiverStep st (Uctun.announcedRx plen i) out st' := by
  have hacc : Uctun.accepts (Uctun.announcedRx plen i).msg = true :=
    Uctun.accepts_received _ _ _ rfl rfl
  exact unchecked_of_ofExcept ((if_pos hacc).trans h)

/-- And so does the server; they announce no restart. -/
theorem Ustun.announced_step {sv : Ustun.Server} {st' : RecvState} {plen : u16}
    {i : Fin shardCount} {out : Option TunWrite}
    (h : deliver sv.recv 0 4 (announcedPkg 0 plen i) ((announcedMsg 0 plen i).msgLen - pktOffset) =
      .ok (st', out)) :
    unchecked Ustun.receiverStep sv (Ustun.announcedRx plen i) out
      { sv.learn (Ustun.announcedRx plen i) with recv := st' } := by
  have hhdr : (Ustun.announcedRx plen i).pkg.hdr = announced 0 plen i := announced_hdr i
  have hacc : Ustun.accepts (Ustun.announcedRx plen i).msg = true :=
    Ustun.accepts_received _ _ _ rfl
  have hquiet : ¬ (Ustun.announcedRx plen i).starts = true := by
    unfold Ustun.Rx.starts
    rw [hhdr]
    exact (by decide : ¬ decide (gatewayId &&& gatewayStart ≠ 0) = true)
  have hlearn : (sv.learn (Ustun.announcedRx plen i)).recv = sv.recv := by
    unfold Ustun.Server.learn
    rw [if_neg hquiet]
  apply unchecked_of_ofExcept
  apply (Ustun.receiverStep_accepted hacc).2
  rw [hlearn]
  exact ⟨st', h, rfl⟩

/-- After a start the client writes as many bytes as they announce. -/
theorem Uctun.announced_run (plen : u16) :
    ∃ t st' w, Run (unchecked Uctun.receiverStep) (Uctun.start 0) t st' ∧
      t.map Prod.fst = [Uctun.announcedRx plen 0, Uctun.announcedRx plen 1] ∧
      (Uctun.announcedRx plen 1, some w) ∈ t ∧ w.plen = plen.toNat := by
  have hslot : ((Uctun.start 0).fec (slotIdx 0)).seq ≠ 0 := by decide
  obtain ⟨st1, st2, w, hfirst, hsecond, hw⟩ := announced_written hslot plen 0 0 0 0
    ((announcedMsg 0 plen 0).msgLen - pktOffset) ((announcedMsg 0 plen 1).msgLen - pktOffset)
  exact ⟨[(_, none), (_, some w)], st2, w,
    .cons (announced_step hfirst) (.cons (announced_step hsecond) (.nil st2)), rfl,
    List.mem_cons_of_mem _ List.mem_cons_self, hw⟩

/-- And so does the server. -/
theorem Ustun.announced_run (plen : u16) :
    ∃ t sv' w, Run (unchecked Ustun.receiverStep) (Ustun.start true (fun _ => 3) 4) t sv' ∧
      t.map Prod.fst = [Ustun.announcedRx plen 0, Ustun.announcedRx plen 1] ∧
      (Ustun.announcedRx plen 1, some w) ∈ t ∧ w.plen = plen.toNat := by
  have hslot : ((Ustun.start true (fun _ => 3) 4).recv.fec (slotIdx 0)).seq ≠ 0 := by decide
  obtain ⟨st1, st2, w, hfirst, hsecond, hw⟩ := announced_written hslot plen 0 0 4 4
    ((announcedMsg 0 plen 0).msgLen - pktOffset) ((announcedMsg 0 plen 1).msgLen - pktOffset)
  exact ⟨[(_, none), (_, some w)], _, w,
    .cons (announced_step hfirst) (.cons (announced_step hsecond) (.nil _)), rfl,
    List.mem_cons_of_mem _ List.mem_cons_self, hw⟩

/-- A pair that announces what its rows hold. -/
theorem fec_write_length_pair :
    (∃ t st' w, Run (unchecked Uctun.receiverStep) (Uctun.start 0) t st' ∧
      (Uctun.announcedRx 1201 1, some w) ∈ t ∧ w.plen ≤ fecRsK * fecRsT) ∧
    ∃ t sv' w, Run (unchecked Ustun.receiverStep) (Ustun.start true (fun _ => 3) 4) t sv' ∧
      (Ustun.announcedRx 1201 1, some w) ∈ t ∧ w.plen ≤ fecRsK * fecRsT := by
  have hplen : ∀ i, (announced 0 1201 i).plen.toNat ≤ fecRsK * fecRsT :=
    fun _ => (by decide : (1201 : u16).toNat ≤ fecRsK * fecRsT)
  constructor
  · obtain ⟨t, st', w, hrun, ht, hmem, -⟩ := Uctun.announced_run 1201
    have hclaims : Always (unchecked Uctun.receiverStep) (Uctun.start 0) (t.map Prod.fst)
        fun st rx => ∀ call ∈ Uctun.shardCall st rx, call.HasRow ∧ call.ClaimFits := by
      rw [ht]
      apply Always.of_mem
      intro rx hrx
      rcases List.mem_pair.1 hrx with rfl | rfl
      · exact Uctun.fits_of_hdr (announced_hdr 0) (announced_fecIdx 0) (hplen 0)
      · exact Uctun.fits_of_hdr (announced_hdr 1) (announced_fecIdx 1) (hplen 1)
    obtain ⟨-, hwrites⟩ := (fec_write_length 0 true fun _ => 3).1 t st' hrun hclaims
    exact ⟨t, st', w, hrun, hmem, hwrites _ hmem (announced_fecRs 1) w rfl⟩
  · obtain ⟨t, sv', w, hrun, ht, hmem, -⟩ := Ustun.announced_run 1201
    have hclaims : Always (unchecked Ustun.receiverStep) (Ustun.start true (fun _ => 3) 4)
        (t.map Prod.fst)
        fun sv rx => ∀ call ∈ Ustun.shardCall sv rx, call.HasRow ∧ call.ClaimFits := by
      rw [ht]
      apply Always.of_mem
      intro rx hrx
      rcases List.mem_pair.1 hrx with rfl | rfl
      · exact Ustun.fits_of_hdr (announced_hdr 0) (announced_fecIdx 0) (hplen 0)
      · exact Ustun.fits_of_hdr (announced_hdr 1) (announced_fecIdx 1) (hplen 1)
    obtain ⟨-, hwrites⟩ := (fec_write_length 4 true fun _ => 3).2 t sv' hrun hclaims
    exact ⟨t, sv', w, hrun, hmem, hwrites _ hmem (announced_fecRs 1) w rfl⟩

/-- A pair that announces 1501 bytes has them written, and the last one is from the parity row. -/
theorem fec_write_length_exceeded :
    ¬ ∀ t st', Run (unchecked Uctun.receiverStep) (Uctun.start 0) t st' →
      ∀ e ∈ t, FecWriteFits (TunPkg.ofBytes e.1.msg.buffer) e.2 := by
  intro h
  obtain ⟨t, st', w, hrun, -, hmem, hw⟩ := Uctun.announced_run 1501
  have hle := h t st' hrun _ hmem (announced_fecRs 1) w rfl
  rw [hw] at hle
  exact absurd hle (by decide)

end ConfigEnv.TunVpn
