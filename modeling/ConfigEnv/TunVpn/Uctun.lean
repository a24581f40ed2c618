/-
Module: ConfigEnv.TunVpn.Uctun
Layer: TunVpn
Purpose: uctun.c, the client. `receiverStep` is the body of the loop over one `recvmmsg` batch,
  taken one message at a time; `sendPacket` is one call of `send_packet` on the packet that `main`
  has just read into `pkg_buf`. A socket number below zero is a path that is down. The fill loop
  stores to `packet[4]`, which lies in the batch of the other worker or behind `udp_sbuf`.
Trusted boundary: the layout of `udp_sbuf` is that of 64-bit Linux: `udp_sbuf_t` takes 2520 bytes,
  and `packet` begins at byte 240 of it. What lies behind `udp_sbuf` is not modelled.
Main exports: Uctun.initDedupState, Uctun.receiverStep, Uctun.Sender, Uctun.fillBatch,
  Uctun.storeBatch, Uctun.sendPacket
Open obligations: none
-/
import ConfigEnv.Lib.Run
import ConfigEnv.TunVpn.Dedup
import ConfigEnv.TunVpn.SendBatch

namespace ConfigEnv.TunVpn.Uctun

/-! ### Receiver threads -/

/-- `init_dedup_state()` at time `ts`; it leaves `cnt`, `marks` and the rows alone. -/
def initDedupState (st : RecvState) (ts : Int) : RecvState :=
  { st with
    dedup := DedupState.cleared ts
    fec := fun i => { st.fec i with seq := fecSeqFill } }

/-- One message of a batch: the thread that received it, what `time` returns while it is handled,
and its slot of `udp_rbuf`. -/
structure Rx where
  worker : Fin udpWorker
  ts : Int
  msg : RecvMsg

/-- The filter at the head of the loop body. -/
def accepts (m : RecvMsg) : Bool :=
  let hdr := (TunPkg.ofBytes m.buffer).hdr
  ¬ (m.msgLen < pktOffset ∨ hdr.magic ≠ magicNum ∨ hdr.gw ≠ gatewayId)

/-- The body of the loop in `receiver_thread`. -/
def receiverStep (st : RecvState) (rx : Rx) : Except Fault (RecvState × Option TunWrite) :=
  if accepts rx.msg then
    deliver st rx.worker rx.ts (TunPkg.ofBytes rx.msg.buffer) (rx.msg.msgLen - pktOffset)
  else .ok (st, none)

/-- The two receiver threads: their locked regions in the order in which they take the mutex. -/
abbrev machine : Machine.Step RecvState Rx (Option TunWrite) := Machine.ofExcept receiverStep

/-- The tables when `main` starts the threads. -/
def start (ts : Int) : RecvState := initDedupState RecvState.zero ts

/-! ### Sending -/

/-- The static variables of `send_packet` and the globals it uses. -/
structure Sender where
  glFec : Bool
  sequence : u16
  first : Bool
  sockApn : Fin udpWorker → Int
  udpSbuf : Fin udpWorker → Nat → UdpPacket

/-- The header fields that are set before the branch. -/
def fillHeader (st : Sender) (hdr : PkgHeader) (len : Nat) : PkgHeader :=
  let hdr := if st.glFec ∧ len > pkgFecEncodeMinLen
    then { hdr with fecRs := 1, fecNum := BitVec.ofNat 3 shardCount }
    else { hdr with fecRs := 0 }
  { hdr with
    gw := if st.first then gatewayId ||| gatewayStart else gatewayId
    seq := st.sequence
    plen := BitVec.ofNat 16 len }

/-- The fill loop: `msg` is `&packet[i]`, and the stores go to `msg[i]`. -/
def fillBatch (pkg : TunPkg) (packet : Nat → UdpPacket) : BatchFill :=
  fillLoop (fun i => i.val + i.val) pkg packet

/-- Where `packet[4]` of worker 0 begins among the packets of worker 1. -/
abbrev packetOverlap : Nat := 512

/-- The batches of both workers after the fill loop has left `packet` in that of one. The batches
are one memory: `packet[4]` of worker 0 is the end of `packet[0]` and the beginning of `packet[1]`
of worker 1. -/
def storeBatch (udpSbuf : Fin udpWorker → Nat → UdpPacket) (worker : Fin udpWorker)
    (packet : Nat → UdpPacket) : Fin udpWorker → Nat → UdpPacket :=
  if worker = 0 then
    let mem := (udpSbuf 1 0).bytes.take packetOverlap ++ (packet 4).bytes ++
      (udpSbuf 1 1).bytes.drop packetOverlap
    let next := Function.update (Function.update (udpSbuf 1) 0 (UdpPacket.ofBytes mem)) 1
      (UdpPacket.ofBytes (mem.drop udpPacketSize))
    Function.update (Function.update udpSbuf 1 next) worker packet
  else
    let mem := (packet 0).bytes ++ (packet 1).bytes
    let previous := Function.update (udpSbuf 0) 4 (UdpPacket.ofBytes (mem.drop packetOverlap))
    Function.update (Function.update udpSbuf 0 previous) worker packet

/-- The path of a FEC packet: round robin on the counter, else the first open socket. -/
def pickWorker (sockApn : Fin udpWorker → Int) (sequence : u16) : Fin udpWorker :=
  let worker := Fin.ofNat udpWorker sequence.toNat
  if sockApn worker < 0 then
    ((List.finRange udpWorker).find? fun i => sockApn i > 0).getD worker
  else worker

/-- One call of `send_packet`: the statics and `pkg_buf` afterwards, the datagrams handed to the
sockets in order, and the elements of `packet` of the chosen worker that the fill loop stored to. -/
structure SendResult where
  st : Sender
  pkg : TunPkg
  sent : List (Fin udpWorker × List u8)
  stores : Option (Fin udpWorker × List Nat)

/-- `send_packet(pkg, len, rs, pfec_buf)`. -/
def sendPacket (st : Sender) (codec : FecCodec) (pkg : TunPkg) (len : Nat) : SendResult :=
  let hdr := fillHeader st pkg.hdr len
  let st' : Sender := { st with sequence := st.sequence + 1, first := false }
  if hdr.fecRs ≠ 0 then
    let (ret, payload) := encodePayload codec pkg.payload
    if ret = 0 then
      let worker := pickWorker st.sockApn st'.sequence
      let pkg' : TunPkg :=
        { hdr := { hdr with apn := BitVec.ofNat 8 (worker.val + 1) }, payload := payload }
      let batch := fillBatch pkg' (st.udpSbuf worker)
      { st := { st' with udpSbuf := storeBatch st.udpSbuf worker batch.packet }
        pkg := { pkg' with hdr := batch.hdr }
        sent := (List.range shardCount).map fun i => (worker, (batch.packet i).bytes)
        stores := some (worker, batch.stores) }
    else { st := st', pkg := { hdr := hdr, payload := payload }, sent := [], stores := none }
  else
    let paths := (List.finRange udpWorker).filter fun i => st.sockApn i > 0
    let onPath (i : Fin udpWorker) : TunPkg :=
      { pkg with hdr := { hdr with apn := BitVec.ofNat 8 (i.val + 1) } }
    { st := st'
      pkg := (paths.getLast?.map onPath).getD { pkg with hdr := hdr }
      sent := paths.map fun i =>
        (i, (onPath i).bytes.take (pktOffset + (BitVec.ofNat 16 len).toNat))
      stores := none }

end ConfigEnv.TunVpn.Uctun
