/-
Module: ConfigEnv.Proofs.Receive
Layer: Proofs
Purpose: The two ends of a receiver loop. `is_duplicate` passes a number or does not, told by what
  its place holds after the idle clear; `deliver` takes a message without FEC through it and any
  other to the slot of its number, and leaves the rest of the tables alone. For the server the step
  around `deliver` is taken apart here as well: what `learn` may do to the tables, and the step
  itself.
Trusted boundary: none
Main exports: isDuplicate_fresh, isDuplicate_stale, deliver_filter, FecRecv.write, deliver_slot,
  Ustun.learn_recv, Ustun.receiverStep_accepted, Ustun.receiverStep_rejected
Open obligations: none
-/
import ConfigEnv.Proofs.FecSlot
import ConfigEnv.TunVpn.Ustun

namespace ConfigEnv.TunVpn

/-! ### The duplicate filter -/

section Filter

variable {st : DedupState} {ts : Int} {seq : u16}

/-- A filter that was used recently does not expire. -/
theorem DedupState.expire_recent (h : ts ≤ st.lastUpdate + connTimeout) : st.expire ts = st := by
  unfold DedupState.expire
  apply if_neg
  omega

/-- The idle clear leaves every place as it was or filled. -/
theorem DedupState.expire_seqMap (st : DedupState) (ts : Int) :
    (st.expire ts).seqMap = st.seqMap ∨ (st.expire ts).seqMap = fun _ => seqMapFill := by
  unfold DedupState.expire
  by_cases h : ts - st.lastUpdate > connTimeout
  · rw [if_pos h]
    exact .inr rfl
  · rw [if_neg h]
    exact .inl rfl

/-- A number passes when its place, after expiry, holds another one. -/
theorem isDuplicate_fresh (h : (st.expire ts).seqMap (slotIdx seq) ≠ seq) :
    isDuplicate st ts seq =
      ({ seqMap := Function.update (st.expire ts).seqMap (slotIdx seq) seq, lastUpdate := ts },
        false) := by
  unfold isDuplicate
  exact if_pos h.symm

/-- A number that is in the filter is a duplicate. -/
theorem isDuplicate_stale (h : (st.expire ts).seqMap (slotIdx seq) = seq) :
    isDuplicate st ts seq = (st.expire ts, true) := by
  unfold isDuplicate
  exact if_neg (not_not.2 h.symm)

/-- Whether a number passes is told by its place alone. -/
theorem isDuplicate_verdict (st : DedupState) (ts : Int) (seq : u16) :
    (isDuplicate st ts seq).2 = decide ((st.expire ts).seqMap (slotIdx seq) = seq) := by
  by_cases h : (st.expire ts).seqMap (slotIdx seq) = seq
  · rw [isDuplicate_stale h, decide_eq_true h]
  · rw [isDuplicate_fresh h, decide_eq_false h]

/-- Afterwards the place holds the number, and the others what the idle clear left there. -/
theorem isDuplicate_seqMap (st : DedupState) (ts : Int) (seq : u16) :
    (isDuplicate st ts seq).1.seqMap =
      Function.update (st.expire ts).seqMap (slotIdx seq) seq := by
  by_cases h : (st.expire ts).seqMap (slotIdx seq) = seq
  · rw [isDuplicate_stale h]
    have hsame := Function.update_eq_self (slotIdx seq) (st.expire ts).seqMap
    rw [h] at hsame
    exact hsame.symm
  · rw [isDuplicate_fresh h]

end Filter

/-! ### `deliver` -/

/-- What the receiver does with the result of `fec_recv_done`. -/
def RecvState.afterShard (st : RecvState) (worker : Fin udpWorker) (seq : u16) (r : FecRecv) :
    RecvState :=
  { st with
    fec := Function.update st.fec (slotIdx seq) r.slot
    codec := Function.update st.codec worker r.codec }

theorem afterShard_same (st : RecvState) (worker : Fin udpWorker) (seq : u16) (r : FecRecv) :
    (st.afterShard worker seq r).fec (slotIdx seq) = r.slot :=
  Function.update_self _ _ _

/-- A shard changes no slot but its own. -/
theorem afterShard_other (st : RecvState) (worker : Fin udpWorker) {seq : u16} (r : FecRecv)
    {c : Fin seqMapSize} (h : c ≠ slotIdx seq) :
    (st.afterShard worker seq r).fec c = st.fec c :=
  Function.update_of_ne h _ _

/-- What the caller of `fec_recv_done` writes. -/
def FecRecv.write (r : FecRecv) : Option TunWrite :=
  if r.done then some { pbuf := fecFlat r.slot.buf, plen := r.slot.plen.toNat } else none

/-- A write comes from a slot that is done, with the length of that slot. -/
theorem FecRecv.write_eq_some {r : FecRecv} {w : TunWrite} :
    r.write = some w ↔
      r.done = true ∧ w = { pbuf := fecFlat r.slot.buf, plen := r.slot.plen.toNat } := by
  unfold FecRecv.write
  cases r.done with
  | true =>
      rw [if_pos rfl, Option.some.injEq]
      constructor
      · intro h
        exact ⟨rfl, h.symm⟩
      · intro h
        exact h.2.symm
  | false => simp

section Deliver

variable {st st' : RecvState} {worker : Fin udpWorker} {ts : Int} {msg : TunPkg} {plen : Nat}
  {out : Option TunWrite}

/-- A message without FEC goes through the filter. -/
theorem deliver_filter (hfec : msg.hdr.fecRs = 0) :
    deliver st worker ts msg plen =
      .ok ({ st with dedup := (isDuplicate st.dedup ts msg.hdr.seq).1 },
        if (isDuplicate st.dedup ts msg.hdr.seq).2 then none
        else some { pbuf := msg.payload, plen := plen }) := by
  unfold deliver
  rw [if_neg (not_not.2 hfec)]

/-- A message with FEC goes to the slot of its number. -/
theorem deliver_slot (hfec : msg.hdr.fecRs ≠ 0) :
    deliver st worker ts msg plen = .ok (st', out) ↔
      ∃ r, fecRecvDone (st.fec (slotIdx msg.hdr.seq)) ts msg.hdr.seq msg (st.codec worker) = .ok r ∧
        st' = st.afterShard worker msg.hdr.seq r ∧ out = r.write := by
  unfold deliver
  rw [if_pos hfec]
  cases hr : fecRecvDone (st.fec (slotIdx msg.hdr.seq)) ts msg.hdr.seq msg (st.codec worker) with
  | error fault => simp
  | ok r =>
      constructor
      · intro h
        cases h
        exact ⟨r, rfl, rfl, rfl⟩
      · intro h
        obtain ⟨r', hr', rfl, rfl⟩ := h
        cases hr'
        rfl

end Deliver

/-! ### The step of the server -/

namespace Ustun

variable {sv sv' : Server} {rx : Rx} {out : Option TunWrite}

/-- Before a message is looked at the tables are as they were, or a `GATEWAY_START` has reset them.
-/
theorem learn_recv (sv : Server) (rx : Rx) :
    (sv.learn rx).recv = sv.recv ∨
      (sv.learn rx).recv =
        { sv.recv with
          dedup := DedupState.cleared rx.clock.init
          fec := fun i => { sv.recv.fec i with seq := fecSeqFill } } := by
  unfold Server.learn
  by_cases hstart : rx.starts = true
  · rw [if_pos hstart]
    unfold initDedupState
    by_cases hts : rx.clock.init - sv.lastTs > 3
    · rw [if_pos hts]
      exact .inr rfl
    · rw [if_neg hts]
      exact .inl rfl
  · rw [if_neg hstart]
    exact .inl rfl

theorem learn_conns (sv : Server) (rx : Rx) :
    (sv.learn rx).conns =
      updateConnTable sv.conns rx.clock.conn rx.allocConn rx.gateway rx.pkg.payload := by
  unfold Server.learn initDedupState
  split
  · split <;> rfl
  · rfl

/-- What a step does with a datagram that is accepted. -/
theorem receiverStep_accepted (h : accepts rx.msg = true) :
    receiverStep sv rx = .ok (sv', out) ↔
      ∃ st', deliver (sv.learn rx).recv rx.worker rx.clock.recv rx.pkg (rx.msg.msgLen - pktOffset) =
          .ok (st', out) ∧ sv' = { sv.learn rx with recv := st' } := by
  unfold receiverStep
  rw [if_pos h]
  dsimp only
  cases hr : deliver (sv.learn rx).recv rx.worker rx.clock.recv rx.pkg
      (rx.msg.msgLen - pktOffset) with
  | error fault => simp
  | ok r =>
      constructor
      · intro h
        cases h
        exact ⟨r.1, rfl, rfl⟩
      · intro h
        obtain ⟨st', hst, rfl⟩ := h
        cases hst
        rfl

/-- A datagram that is not accepted changes nothing. -/
theorem receiverStep_rejected (h : ¬ accepts rx.msg = true) :
    receiverStep sv rx = .ok (sv, none) := by
  unfold receiverStep
  exact if_neg h

end Ustun

end ConfigEnv.TunVpn
