/-
Module: ConfigEnv.Spec.Arrivals
Layer: Spec
Purpose: The receivers of both programs, fed by one honest sender. An arrival is a datagram of the
  stream together with everything that the network and the machine choose: the thread, the clock,
  the receive buffer. A run over arrivals is a run of the receiver itself on the messages they
  become, so what is proved here is about the code. The cases of `deliver` are given once for a
  whole packet and once for a shard.
Trusted boundary: none
Main exports: Uctun.Arrival, Uctun.streamMachine, Ustun.Arrival, Ustun.streamMachine, deliver_whole,
  deliver_shard, Uctun.streamStep_eq, Ustun.streamStep_eq
Open obligations: none
-/
import ConfigEnv.Proofs.Receive
import ConfigEnv.Spec.Stream

namespace ConfigEnv.TunVpn

open Machine

/-! ### One datagram of the stream -/

section Deliver

variable (S : Stream) {st st' : RecvState} {worker : Fin udpWorker} {ts : Int} {d : Datagram}
  {old : List u8} {plen : Nat} {out : Option TunWrite}

/-- A whole packet passes the filter or does not. -/
theorem deliver_whole (hpart : d.part = none) :
    deliver st worker ts (S.received d old) plen =
      .ok ({ st with dedup := (isDuplicate st.dedup ts (seqOf d.num)).1 },
        if (isDuplicate st.dedup ts (seqOf d.num)).2 then none
        else some { pbuf := (S.received d old).payload, plen := plen }) := by
  have hfec : (S.received d old).hdr.fecRs = 0 := by
    rw [received_header]
    simp [Stream.header, hpart]
  rw [deliver_filter hfec, received_header]
  rfl

/-- A shard goes to the slot of its number. -/
theorem deliver_shard {i : Fin shardCount} (hpart : d.part = some i) :
    deliver st worker ts (S.received d old) plen = .ok (st', out) ↔
      ∃ r, fecRecvDone (st.fec (slotIdx (seqOf d.num))) ts (seqOf d.num) (S.received d old)
          (st.codec worker) = .ok r ∧
        st' = st.afterShard worker (seqOf d.num) r ∧ out = r.write := by
  have hfec : (S.received d old).hdr.fecRs ≠ 0 := by
    rw [received_header]
    simp [Stream.header, hpart]
  have hseq : (S.received d old).hdr.seq = seqOf d.num := by
    rw [received_header]
    rfl
  rw [deliver_slot hfec, hseq]

/-- A shard of the stream has a row to go to. -/
theorem fecRecvDone_received {i : Fin shardCount} (hpart : d.part = some i) (slot : FecSlot)
    (codec : FecCodec) :
    ∃ r, fecRecvDone slot ts (seqOf d.num) (S.received d old) codec = .ok r := by
  have hshard := received_isShard S d old hpart
  have hidx : (S.received d old).hdr.fecIdx.toNat < shardCount := hshard.fecIdx_eq ▸ i.isLt
  exact fecRecvDone_ok hidx slot ts (seqOf d.num) codec

/-- No datagram of the stream makes a receiver fault. -/
theorem deliver_received :
    ∃ st' out, deliver st worker ts (S.received d old) plen = .ok (st', out) := by
  cases hpart : d.part with
  | none => exact ⟨_, _, deliver_whole S hpart⟩
  | some i =>
      obtain ⟨r, hr⟩ := fecRecvDone_received S hpart (st.fec (slotIdx (seqOf d.num)))
        (st.codec worker)
      exact ⟨_, _, (deliver_shard S hpart).2 ⟨r, hr, rfl, rfl⟩⟩

/-- Datagrams of another remainder leave the slot of a number alone. -/
theorem deliver_fec_other {n : Nat} (h : d.num % seqMapSize ≠ n % seqMapSize)
    (hstep : deliver st worker ts (S.received d old) plen = .ok (st', out)) :
    st'.fec (slotIdx (seqOf n)) = st.fec (slotIdx (seqOf n)) := by
  cases hpart : d.part with
  | none =>
      rw [deliver_whole S hpart] at hstep
      cases hstep
      rfl
  | some i =>
      obtain ⟨r, -, rfl, -⟩ := (deliver_shard S hpart).1 hstep
      exact afterShard_other st worker r fun heq => h (slotIdx_eq_iff.1 heq).symm

end Deliver

/-! ### The client -/

namespace Uctun

/-- A datagram at a receiver thread of the client. -/
structure Arrival where
  dg : Datagram
  worker : Fin udpWorker
  ts : Int
  old : List u8

/-- The message that the thread gets. -/
def Arrival.rx (S : Stream) (a : Arrival) : Rx :=
  { worker := a.worker, ts := a.ts, msg := recvmmsg a.old (S.bytes a.dg) }

/-- A datagram that the sender made, for this client. -/
def Arrival.Honest (S : Stream) (a : Arrival) : Prop := a.dg.Honest S ∧ a.dg.gw = gatewayId

/-- The client on an arrival. -/
def streamStep (S : Stream) (st : RecvState) (a : Arrival) :
    Except Fault (RecvState × Option TunWrite) :=
  receiverStep st (a.rx S)

/-- The receiver threads on the datagrams of one sender. -/
abbrev streamMachine (S : Stream) : Step RecvState Arrival (Option TunWrite) :=
  ofExcept (streamStep S)

theorem streamStep_eq {S : Stream} {a : Arrival} (h : a.Honest S) (st : RecvState) :
    streamStep S st a = deliver st a.worker a.ts (S.received a.dg a.old)
      ((recvmmsg a.old (S.bytes a.dg)).msgLen - pktOffset) := by
  have haccepts : accepts (a.rx S).msg = true := accepts_received a.old (S.header a.dg) _ rfl h.2
  unfold streamStep receiverStep
  rw [if_pos haccepts]
  rfl

/-- Every list of honest arrivals has a run. -/
theorem exists_stream_run {S : Stream} (as : List Arrival) (h : ∀ a ∈ as, a.Honest S)
    (st : RecvState) :
    ∃ t st', t.map Prod.fst = as ∧ Run (streamMachine S) st t st' := by
  apply exists_run (fun _ => True) as trivial
  intro a ha q _
  obtain ⟨q', out, hstep⟩ : ∃ q' out, deliver q a.worker a.ts (S.received a.dg a.old)
      ((recvmmsg a.old (S.bytes a.dg)).msgLen - pktOffset) = .ok (q', out) := deliver_received S
  exact ⟨q', out, (streamStep_eq (h a ha) q).trans hstep, trivial⟩

end Uctun

/-! ### The server -/

namespace Ustun

/-- A datagram at a receiver thread of the server. -/
structure Arrival where
  dg : Datagram
  worker : Fin udpWorker
  clock : Clock
  allocGateway : Bool
  allocConn : Bool
  addr : SockAddr
  old : List u8

/-- The message that the thread gets. -/
def Arrival.rx (S : Stream) (a : Arrival) : Rx :=
  { worker := a.worker, clock := a.clock, allocGateway := a.allocGateway, allocConn := a.allocConn
    addr := a.addr, msg := recvmmsg a.old (S.bytes a.dg) }

/-- The server on an arrival. -/
def streamStep (S : Stream) (sv : Server) (a : Arrival) : Except Fault (Server × Option TunWrite) :=
  receiverStep sv (a.rx S)

/-- The receiver threads on the datagrams of one sender. -/
abbrev streamMachine (S : Stream) : Step Server Arrival (Option TunWrite) := ofExcept (streamStep S)

/-- The receive tables as `deliver` finds them. -/
def Server.atDelivery (S : Stream) (sv : Server) (a : Arrival) : RecvState :=
  (sv.learn (a.rx S)).recv

theorem streamStep_iff {S : Stream} {a : Arrival} {sv sv' : Server} {out : Option TunWrite} :
    streamStep S sv a = .ok (sv', out) ↔
      ∃ st', deliver (sv.atDelivery S a) a.worker a.clock.recv (S.received a.dg a.old)
          ((recvmmsg a.old (S.bytes a.dg)).msgLen - pktOffset) = .ok (st', out) ∧
        sv' = { sv.learn (a.rx S) with recv := st' } := by
  have haccepts : accepts (a.rx S).msg = true := accepts_received a.old (S.header a.dg) _ rfl
  exact receiverStep_accepted haccepts

/-- No datagram of the stream makes the server fault. -/
theorem streamStep_ok (S : Stream) (sv : Server) (a : Arrival) :
    ∃ sv' out, streamStep S sv a = .ok (sv', out) := by
  obtain ⟨st', out, hstep⟩ : ∃ st' out, deliver (sv.atDelivery S a) a.worker a.clock.recv
      (S.received a.dg a.old) ((recvmmsg a.old (S.bytes a.dg)).msgLen - pktOffset) =
        .ok (st', out) := deliver_received S
  exact ⟨_, out, streamStep_iff.2 ⟨st', hstep, rfl⟩⟩

/-- Every list of arrivals has a run. -/
theorem exists_stream_run (S : Stream) (as : List Arrival) (sv : Server) :
    ∃ t sv', t.map Prod.fst = as ∧ Run (streamMachine S) sv t sv' := by
  apply exists_run (fun _ => True) as trivial
  intro a _ q _
  obtain ⟨q', out, hstep⟩ := streamStep_ok S q a
  exact ⟨q', out, hstep, trivial⟩

/-- Before a datagram is looked at the slots are as they were, or have been set to the filling
number. -/
theorem atDelivery_fec (S : Stream) (sv : Server) (a : Arrival) :
    (sv.atDelivery S a).fec = sv.recv.fec ∨
      (sv.atDelivery S a).fec = fun i => { sv.recv.fec i with seq := fecSeqFill } := by
  rcases learn_recv sv (a.rx S) with h | h
  · exact .inl (congrArg RecvState.fec h)
  · exact .inr (congrArg RecvState.fec h)

end Ustun

end ConfigEnv.TunVpn
