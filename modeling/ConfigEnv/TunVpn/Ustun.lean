/-
Module: ConfigEnv.TunVpn.Ustun
Layer: TunVpn
Purpose: ustun.c, the server. `receiverStep` is the body of the loop over one `recvmmsg` batch,
  taken one message at a time; `sendToGateway` is one call of `send_to_gateway` on a packet read
  from the TUN device. `time` is called several times while a message is handled, and each call may
  return another second; the readings are part of the input, and so is whether `malloc` succeeds.
  A message is handled in one step here. `ReceiverCalls` has the steps of both threads, with the
  stores of `init_dedup_state`, which takes no mutex, one by one.
Trusted boundary: none
Main exports: Server, Ustun.initDedupState, Ustun.receiverStep, Ustun.fillBatch, Ustun.sendToGateway
Open obligations: none
-/
import ConfigEnv.Lib.Run
import ConfigEnv.TunVpn.Dedup
import ConfigEnv.TunVpn.SendBatch
import ConfigEnv.TunVpn.Tables

namespace ConfigEnv.TunVpn.Ustun

/-- The globals and the static variables of the server. `lastTs` belongs to `init_dedup_state`,
`sequence` to `send_to_gateway`. -/
structure Server where
  recv : RecvState
  lastTs : Int
  gateways : List GatewayAddr
  conns : List ConnEntry
  udpSock : Fin udpWorker → Int
  glFec : Bool
  sequence : u16
  udpSbuf : Fin udpWorker → Nat → UdpPacket

/-! ### Receiver threads -/

/-- `init_dedup_state()` at time `ts`, when the other thread does nothing in between: rate limited,
and like the client's it leaves `cnt`, `marks` and the rows alone. -/
def initDedupState (sv : Server) (ts : Int) : Server :=
  if ts - sv.lastTs > 3 then
    { sv with
      lastTs := ts
      recv := { sv.recv with
        dedup := DedupState.cleared ts
        fec := fun i => { sv.recv.fec i with seq := fecSeqFill } } }
  else sv

/-- What `time` returns to the callers in the loop body, in the order of the calls. -/
structure Clock where
  init : Int
  gateway : Int
  conn : Int
  recv : Int

/-- One message of a batch: the thread, the readings of the clock, whether `malloc` succeeds for the
two tables, the source address and the slot of `udp_rbuf`. -/
structure Rx where
  worker : Fin udpWorker
  clock : Clock
  allocGateway : Bool
  allocConn : Bool
  addr : SockAddr
  msg : RecvMsg

/-- The message through the `tun_pkg_t` pointer. -/
def Rx.pkg (rx : Rx) : TunPkg := TunPkg.ofBytes rx.msg.buffer

/-- `msg->gw & GATEWAY_ID_MASK`. -/
def Rx.gateway (rx : Rx) : u8 := rx.pkg.hdr.gw &&& gatewayIdMask

/-- `msg->gw & GATEWAY_START`. -/
def Rx.starts (rx : Rx) : Bool := rx.pkg.hdr.gw &&& gatewayStart ≠ 0

/-- The filter at the head of the loop body. -/
def accepts (m : RecvMsg) : Bool :=
  ¬ (m.msgLen < pktOffset ∨ (TunPkg.ofBytes m.buffer).hdr.magic ≠ magicNum)

/-- The loop body up to the branch on `fec_rs`: the reset and the two tables. -/
def Server.learn (sv : Server) (rx : Rx) : Server :=
  let sv := if rx.starts then initDedupState sv rx.clock.init else sv
  { sv with
    gateways := updateGatewayMap sv.gateways rx.clock.gateway rx.allocGateway rx.gateway rx.addr
      rx.pkg.hdr.apn
    conns := updateConnTable sv.conns rx.clock.conn rx.allocConn rx.gateway rx.pkg.payload }

/-- The body of the loop in `udp_receiver_thread`. -/
def receiverStep (sv : Server) (rx : Rx) : Except Fault (Server × Option TunWrite) :=
  if accepts rx.msg then
    let sv := sv.learn rx
    match deliver sv.recv rx.worker rx.clock.recv rx.pkg (rx.msg.msgLen - pktOffset) with
    | .error fault => .error fault
    | .ok (recv, out) => .ok ({ sv with recv := recv }, out)
  else .ok (sv, none)

/-- The two receiver threads, one handled message after another. -/
abbrev machine : Machine.Step Server Rx (Option TunWrite) := Machine.ofExcept receiverStep

/-- Zeroed static storage and empty lists, before `main`. -/
def Server.zero (glFec : Bool) (udpSock : Fin udpWorker → Int) : Server :=
  { recv := RecvState.zero, lastTs := 0, gateways := [], conns := [], udpSock := udpSock
    glFec := glFec, sequence := 0
    udpSbuf := fun _ _ => { hdr := PkgHeader.zero, buf := fun _ => 0 } }

/-- The server when `main` starts the threads at time `ts`. -/
def start (glFec : Bool) (udpSock : Fin udpWorker → Int) (ts : Int) : Server :=
  initDedupState (Server.zero glFec udpSock) ts

/-! ### Sending -/

/-- The header fields that are set before the branch. -/
def fillHeader (sv : Server) (hdr : PkgHeader) (gatewayId : u8) (len : Nat) : PkgHeader :=
  let hdr := { hdr with magic := magicNum }
  let hdr := if sv.glFec ∧ len > pkgFecEncodeMinLen
    then { hdr with fecRs := 1, fecNum := BitVec.ofNat 3 shardCount }
    else { hdr with fecRs := 0 }
  { hdr with gw := gatewayId, seq := sv.sequence, plen := BitVec.ofNat 16 len }

/-- The fill loop: header and row `i` go to `pack[i]`. -/
def fillBatch (pkg : TunPkg) (packet : Nat → UdpPacket) : BatchFill :=
  fillLoop (fun i => i.val) pkg packet

/-- The path of a FEC packet: round robin on the counter, else the first open socket. -/
def pickWorker (udpSock : Fin udpWorker → Int) (sequence : u16) : Fin udpWorker :=
  let worker := Fin.ofNat udpWorker sequence.toNat
  if udpSock worker < 0 then
    ((List.finRange udpWorker).find? fun i => udpSock i > 0).getD worker
  else worker

/-- A datagram handed to a socket. -/
structure Sent where
  sock : Fin udpWorker
  addr : SockAddr
  bytes : List u8

/-- One call of `send_to_gateway`. -/
structure SendResult where
  sv : Server
  pkg : TunPkg
  sent : List Sent

/-- The record behind the pointer that `get_gateway_addr` returned; `headMem` is what the memory
around the list head reads as. -/
def gatewayRecord (headMem : GatewayAddr) : GatewayPtr → GatewayAddr
  | .entry gw => gw
  | .listHead => headMem

/-- `send_to_gateway(pkg, len, rs, pfec_buf)` at time `ts`.  The pointer from `get_gateway_addr` is
never null. -/
def sendToGateway (sv : Server) (ts : Int) (headMem : GatewayAddr) (codec : FecCodec) (pkg : TunPkg)
    (len : Nat) : SendResult :=
  let (conns, gatewayId) := findGatewayForPacket sv.conns ts pkg.payload
  let sv : Server := { sv with conns := conns }
  if gatewayId = 0 then { sv := sv, pkg := pkg, sent := [] }
  else
    let gw := gatewayRecord headMem (getGatewayAddr sv.gateways gatewayId)
    let hdr := fillHeader sv pkg.hdr gatewayId len
    let sv' : Server := { sv with sequence := sv.sequence + 1 }
    if hdr.fecRs ≠ 0 then
      let (ret, payload) := encodePayload codec pkg.payload
      if ret = 0 then
        let worker := pickWorker sv.udpSock sv'.sequence
        let batch := fillBatch { hdr := hdr, payload := payload } (sv.udpSbuf worker)
        { sv := { sv' with udpSbuf := Function.update sv.udpSbuf worker batch.packet }
          pkg := { hdr := batch.hdr, payload := payload }
          sent := (List.range shardCount).map fun i =>
            { sock := worker, addr := gw.addrApn worker, bytes := (batch.packet i).bytes } }
      else { sv := sv', pkg := { hdr := hdr, payload := payload }, sent := [] }
    else
      let pkg' : TunPkg := { pkg with hdr := hdr }
      let paths := (List.finRange maxGwApn).filter fun i =>
        gw.lastSeenApn i > 0 ∧ sv.udpSock (Fin.ofNat udpWorker i.val) > 0
      { sv := sv'
        pkg := pkg'
        sent := paths.map fun i =>
          { sock := Fin.ofNat udpWorker i.val, addr := gw.addrApn i
            bytes := pkg'.bytes.take (len + pktOffset) } }

end ConfigEnv.TunVpn.Ustun
