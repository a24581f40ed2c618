/-
Module: ConfigEnv.TunVpn.ClientCalls
Layer: TunVpn
Purpose: The client as a sender. `main` reads one packet after another into `pkg_buf` and calls
  `send_packet` on it; a receiver thread that ends stores -1 for its socket, and a packet that
  `main` was waiting for may still be sent after that. When the first packet is read
  `main` has opened the sockets, and those that could not be opened are -1.
Trusted boundary: none
Main exports: Uctun.Client, Uctun.ClientCall, Uctun.clientStep, Uctun.clientMachine,
  Uctun.Client.start, Uctun.Opened
Open obligations: none
-/
import ConfigEnv.TunVpn.Uctun

namespace ConfigEnv.TunVpn.Uctun

/-- What `send_packet` works on, and `pkg_buf`. -/
structure Client where
  st : Sender
  pkg : TunPkg

/-- A packet is read and sent; or a receiver thread ends. -/
inductive ClientCall where
  | packet (data : List u8) (codec : FecCodec)
  /-- `sock = sock_apn[id] = -1`. -/
  | closeSock (id : Fin udpWorker)

/-- A read returns at least one byte, and at most `sizeof(pkg_buf.payload.buf)`. -/
def ClientCall.Enabled : ClientCall → Prop
  | .packet data _ => 0 < data.length ∧ data.length ≤ bufferSize
  | .closeSock _ => True

/-- `pkg_buf` with a packet read into it. -/
def Client.reads (c : Client) (data : List u8) : TunPkg :=
  { c.pkg with payload := tunRead c.pkg.payload data }

/-- `send_packet` on what was read into the client's buffer. -/
def Client.send (c : Client) (data : List u8) (codec : FecCodec) : SendResult :=
  sendPacket c.st codec (c.reads data) data.length

/-- The client after a call, and the datagrams that were handed to the sockets. -/
def clientStep (c : Client) : ClientCall → Client × List (Fin udpWorker × List u8)
  | .packet data codec =>
      let r := c.send data codec
      ({ st := r.st, pkg := r.pkg }, r.sent)
  | .closeSock id =>
      ({ c with st := { c.st with sockApn := Function.update c.st.sockApn id (-1) } }, [])

/-- The runs of the client's sender. -/
abbrev clientMachine : Machine.Step Client ClientCall (List (Fin udpWorker × List u8)) :=
  fun c call out c' => call.Enabled ∧ clientStep c call = (c', out)

/-- The descriptors that `main` leaves in `sock_apn`. -/
def Opened (sockApn : Fin udpWorker → Int) : Prop := ∀ i, sockApn i = -1 ∨ 0 < sockApn i

/-- The client when `main` enters its loop: the statics and `pkg_buf` are zeroed storage. -/
def Client.start (glFec : Bool) (sockApn : Fin udpWorker → Int) : Client :=
  { st := { glFec := glFec, sequence := 0, first := true, sockApn := sockApn
            udpSbuf := fun _ _ => { hdr := PkgHeader.zero, buf := fun _ => 0 } }
    pkg := { hdr := { PkgHeader.zero with magic := magicNum }, payload := zeroPayload } }

end ConfigEnv.TunVpn.Uctun
