/-
Module: ConfigEnv.TunVpn.ServerCalls
Layer: TunVpn
Purpose: The threads of the server as calls on what they share. The receiver threads call the two
  update functions and open and close the sockets, `main` sends and cleans up; each function holds
  the mutex of its table while it runs, so the calls come one after another, in any order. A worker
  stores its descriptor once it is bound. At the end it closes the descriptor first and then stores
  -1, and a packet may be sent between the two. When the workers start, descriptor 0 is taken: by
  the standard input, or by the TUN device that `main` opened before.
Trusted boundary: none
Main exports: Ustun.Process, Ustun.Call, Ustun.callStep, Ustun.callMachine, Ustun.Process.start,
  Ustun.Buffered, Ustun.bufStep, Ustun.bufMachine
Open obligations: none
-/
import ConfigEnv.TunVpn.Ustun

namespace ConfigEnv.TunVpn.Ustun

/-- The server, and for each worker the descriptor that it has opened and not yet closed. -/
structure Process where
  sv : Server
  opened : Fin udpWorker → Option Int

/-- A call of one of the threads, with the readings of the clock and the results of `malloc`. -/
inductive Call where
  | updateGatewayMap (gatewayId : u8) (addr : SockAddr) (pathId : u8) (ts : Int) (alloc : Bool)
  | updateConnTable (gatewayId : u8) (ipPacket : List u8) (ts : Int) (alloc : Bool)
  | cleanupExpiredGateways (now : Int) (expire : Bool)
  | cleanupExpiredConnections (now : Int) (expire : Bool)
  | sendToGateway (ts : Int) (headMem : GatewayAddr) (codec : FecCodec) (pkg : TunPkg) (len : Nat)
  /-- `udp_sock[id] = sock`, after `bind`. -/
  | openSock (id : Fin udpWorker) (sock : Int)
  /-- `close(sock)`, at the end of the thread. -/
  | closeSock (id : Fin udpWorker)
  /-- `udp_sock[id] = -1`. -/
  | clearSock (id : Fin udpWorker)

/-- When a call can come: a worker opens its socket once, and closes it before it clears it. -/
def Call.Enabled (p : Process) : Call → Prop
  | .openSock id sock => 0 < sock ∧ p.opened id = none ∧ p.sv.udpSock id = 0
  | .closeSock id => p.opened id ≠ none
  | .clearSock id => p.opened id = none ∧ 0 < p.sv.udpSock id
  | _ => True

/-- The process after a call, and the datagrams that were handed to the sockets. -/
def callStep (p : Process) : Call → Process × List Sent
  | .updateGatewayMap gatewayId addr pathId ts alloc =>
      let gateways := updateGatewayMap p.sv.gateways ts alloc gatewayId addr pathId
      ({ p with sv := { p.sv with gateways := gateways } }, [])
  | .updateConnTable gatewayId ipPacket ts alloc =>
      let conns := updateConnTable p.sv.conns ts alloc gatewayId ipPacket
      ({ p with sv := { p.sv with conns := conns } }, [])
  | .cleanupExpiredGateways now expire =>
      let gateways := cleanupExpiredGateways p.sv.gateways now expire
      ({ p with sv := { p.sv with gateways := gateways } }, [])
  | .cleanupExpiredConnections now expire =>
      let conns := cleanupExpiredConnections p.sv.conns now expire
      ({ p with sv := { p.sv with conns := conns } }, [])
  | .sendToGateway ts headMem codec pkg len =>
      let r := sendToGateway p.sv ts headMem codec pkg len
      ({ p with sv := r.sv }, r.sent)
  | .openSock id sock =>
      let udpSock := Function.update p.sv.udpSock id sock
      let opened := Function.update p.opened id (some sock)
      ({ sv := { p.sv with udpSock := udpSock }, opened := opened }, [])
  | .closeSock id => ({ p with opened := Function.update p.opened id none }, [])
  | .clearSock id =>
      ({ p with sv := { p.sv with udpSock := Function.update p.sv.udpSock id (-1) } }, [])

/-- The calls of all threads, one after another. -/
abbrev callMachine : Machine.Step Process Call (List Sent) :=
  fun p call out p' => call.Enabled p ∧ callStep p call = (p', out)

/-- `udp_sock` is static, so it holds zeros until a worker has bound its socket. -/
def Process.start (glFec : Bool) (ts : Int) : Process :=
  { sv := Ustun.start glFec (fun _ => 0) ts, opened := fun _ => none }

/-! ### A buffer of `main` -/

/-- The process, and one of the buffers that packets are read into from the TUN device: `pkg_buf`,
or an element of `tun_buf.msg`. -/
structure Buffered where
  p : Process
  pkg : TunPkg

/-- A packet is read into the buffer and sent from it; or some other call is made, by another thread
or from another buffer. -/
inductive BufCall where
  | packet (data : List u8) (ts : Int) (headMem : GatewayAddr) (codec : FecCodec)
  | other (call : Call)

/-- A read returns at least one byte, and at most `sizeof(payload.buf)`. -/
def BufCall.Enabled (b : Buffered) : BufCall → Prop
  | .packet data _ _ _ => 0 < data.length ∧ data.length ≤ bufferSize
  | .other call => call.Enabled b.p

/-- The buffer with a packet read into it. -/
def Buffered.reads (b : Buffered) (data : List u8) : TunPkg :=
  { b.pkg with payload := tunRead b.pkg.payload data }

/-- `send_to_gateway` on what was read into the buffer of `main`. -/
def Buffered.send (b : Buffered) (data : List u8) (ts : Int) (headMem : GatewayAddr)
    (codec : FecCodec) : SendResult :=
  sendToGateway b.p.sv ts headMem codec (b.reads data) data.length

/-- A call, with the buffer of `main`. -/
def bufStep (b : Buffered) : BufCall → Buffered × List Sent
  | .packet data ts headMem codec =>
      let r := b.send data ts headMem codec
      ({ p := { b.p with sv := r.sv }, pkg := r.pkg }, r.sent)
  | .other call =>
      let (p, sent) := callStep b.p call
      ({ b with p := p }, sent)

/-- The runs of these calls. -/
abbrev bufMachine : Machine.Step Buffered BufCall (List Sent) :=
  fun b call out b' => call.Enabled b ∧ bufStep b call = (b', out)

/-- The buffers are zeroed storage. -/
def Buffered.start (glFec : Bool) (ts : Int) : Buffered :=
  { p := Process.start glFec ts, pkg := { hdr := PkgHeader.zero, payload := zeroPayload } }

end ConfigEnv.TunVpn.Ustun
