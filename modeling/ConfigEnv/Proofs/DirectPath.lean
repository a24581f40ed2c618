/-
Module: ConfigEnv.Proofs.DirectPath
Layer: Proofs
Purpose: The path without FEC, in both directions. The sender puts eight bytes before the packet and
  the receive buffers are as long as the longest packet, so the last eight bytes of a packet of full
  length have no place: what reaches the device is the packet up to `BUFFER_SIZE - PKT_OFFSET`
  bytes.
Trusted boundary: none
Main exports: Uctun.SendsDirect, Ustun.SendsDirect, Ustun.writes_direct, Uctun.writes_direct,
  direct_path_transparent_iff
Open obligations: none
-/
import ConfigEnv.Proofs.FecPath
import ConfigEnv.Proofs.Receive

namespace ConfigEnv.TunVpn

/-! ### What is sent -/

/-- `d` is a datagram by which `send_packet` sends the packet `p` without FEC. -/
def Uctun.SendsDirect (p d : List u8) : Prop :=
  ∃ (st : Uctun.Sender) (codec : FecCodec) (pkg : TunPkg) (old : List u8) (i : Fin udpWorker),
    pkg.hdr.magic = magicNum ∧ pkg.payload = tunRead old p ∧
      ¬ (st.glFec = true ∧ pkgFecEncodeMinLen < p.length) ∧
      (i, d) ∈ (Uctun.sendPacket st codec pkg p.length).sent

/-- `d` is a datagram by which `send_to_gateway` sends the packet `p` without FEC to the gateway
that uctun.c stands for. -/
def Ustun.SendsDirect (p d : List u8) : Prop :=
  ∃ (sv : Ustun.Server) (ts : Int) (headMem : GatewayAddr) (codec : FecCodec) (pkg : TunPkg)
    (old : List u8),
    pkg.payload = tunRead old p ∧
      (findGatewayForPacket sv.conns ts pkg.payload).2 = gatewayId ∧
      ¬ (sv.glFec = true ∧ pkgFecEncodeMinLen < p.length) ∧
      d ∈ (Ustun.sendToGateway sv ts headMem codec pkg p.length).sent.map Ustun.Sent.bytes

/-- A packet that the client sends directly is a header and its bytes. -/
theorem Uctun.SendsDirect.eq {p d : List u8} (hp : p.length ≤ bufferSize)
    (h : Uctun.SendsDirect p d) :
    ∃ hdr : PkgHeader, hdr.magic = magicNum ∧ hdr.fecRs = 0 ∧ d = hdr.toBytes ++ p := by
  obtain ⟨st, codec, pkg, old, i, hmagic, hpay, hfec, hd⟩ := h
  obtain ⟨-, rfl⟩ := (Uctun.sendPacket_direct hfec).1 hd
  refine ⟨Uctun.sentHeader st pkg p.length i, ?_, ?_, ?_⟩
  · simpa [Uctun.fillHeader, hfec] using hmagic
  · simp [Uctun.fillHeader, hfec]
  · rw [hpay, plen_toNat hp, bytes_take]

/-- A packet that the server sends directly is a header for the gateway and its bytes. -/
theorem Ustun.SendsDirect.eq {p d : List u8} (h : Ustun.SendsDirect p d) :
    ∃ hdr : PkgHeader, hdr.magic = magicNum ∧ hdr.fecRs = 0 ∧ hdr.gw = gatewayId ∧
      d = hdr.toBytes ++ p := by
  obtain ⟨sv, ts, headMem, codec, pkg, old, hpay, hgw, hfec, hd⟩ := h
  have hgw0 : (findGatewayForPacket sv.conns ts pkg.payload).2 ≠ 0 := by
    rw [hgw]
    decide
  obtain ⟨-, rfl⟩ := (Ustun.sendToGateway_direct hgw0 hfec).1 hd
  refine ⟨Ustun.sentHeader sv ts pkg p.length, ?_, ?_, ?_, ?_⟩
  · simp [Ustun.fillHeader, hfec]
  · simp [Ustun.fillHeader, hfec]
  · simp [Ustun.fillHeader, hfec, hgw]
  · rw [hpay, Nat.add_comm, bytes_take]

/-! ### What is delivered -/

/-- A message without FEC that the filter lets through is written. -/
theorem deliver_direct {st : RecvState} {worker : Fin udpWorker} {ts : Int} {msg : TunPkg}
    {plen : Nat} (hfec : msg.hdr.fecRs = 0)
    (hdup : (isDuplicate st.dedup ts msg.hdr.seq).2 = false) :
    deliver st worker ts msg plen =
      .ok ({ st with dedup := (isDuplicate st.dedup ts msg.hdr.seq).1 },
        some { pbuf := msg.payload, plen := plen }) := by
  rw [deliver_filter hfec, hdup]
  rfl

/-- The message is `d` as the network delivered it, and the filter does not know its number. -/
def Ustun.ReceivesFresh (sv : Ustun.Server) (rx : Ustun.Rx) (d : List u8) : Prop :=
  (∃ old, rx.msg = recvmmsg old d) ∧
    (isDuplicate (sv.learn rx).recv.dedup rx.clock.recv rx.pkg.hdr.seq).2 = false

/-- A receiver of the client gets the datagram, and its number is new. -/
def Uctun.ReceivesFresh (st : RecvState) (rx : Uctun.Rx) (d : List u8) : Prop :=
  (∃ old, rx.msg = recvmmsg old d) ∧
    (isDuplicate st.dedup rx.ts (TunPkg.ofBytes rx.msg.buffer).hdr.seq).2 = false

/-- Handling the message writes exactly `p`. -/
def Ustun.Writes (sv : Ustun.Server) (rx : Ustun.Rx) (p : List u8) : Prop :=
  ∃ sv' w, Ustun.receiverStep sv rx = .ok (sv', some w) ∧ w.bytes = p

/-- A receiver of the client writes the packet. -/
def Uctun.Writes (st : RecvState) (rx : Uctun.Rx) (p : List u8) : Prop :=
  ∃ st' w, Uctun.receiverStep st rx = .ok (st', some w) ∧ w.bytes = p

/-- A step that writes `w` writes nothing else. -/
theorem writes_iff {σ : Type} {r : Except Fault (σ × Option TunWrite)} {s : σ} {w : TunWrite}
    {q : List u8} (h : r = .ok (s, some w)) :
    (∃ s' w', r = .ok (s', some w') ∧ w'.bytes = q) ↔ w.bytes = q := by
  constructor
  · rintro ⟨s', w', hok, rfl⟩
    rw [h] at hok
    cases hok
    rfl
  · intro hq
    exact ⟨s, w, h, hq⟩

section Direct

variable {hdr : PkgHeader} {p q : List u8}

/-- What the server writes for a fresh direct datagram. -/
theorem Ustun.writes_direct {sv : Ustun.Server} {rx : Ustun.Rx} (hmagic : hdr.magic = magicNum)
    (hfec : hdr.fecRs = 0) (h : Ustun.ReceivesFresh sv rx (hdr.toBytes ++ p)) :
    Ustun.Writes sv rx q ↔ p.take (bufferSize - pktOffset) = q := by
  obtain ⟨⟨old, hmsg⟩, hdup⟩ := h
  have hhdr : rx.pkg.hdr = hdr := by
    rw [Ustun.Rx.pkg, hmsg, received_hdr]
  have haccepts : Ustun.accepts rx.msg = true := by
    rw [hmsg]
    exact Ustun.accepts_received old hdr p hmagic
  have hbytes : rx.pkg.payload.take (rx.msg.msgLen - pktOffset) =
      p.take (bufferSize - pktOffset) := by
    rw [Ustun.Rx.pkg, hmsg, received_bytes]
  obtain ⟨sv', hstep⟩ : ∃ sv', Ustun.receiverStep sv rx =
      .ok (sv', some ⟨rx.pkg.payload, rx.msg.msgLen - pktOffset⟩) := by
    unfold Ustun.receiverStep
    rw [if_pos haccepts]
    simp only [deliver_direct (hhdr.symm ▸ hfec) hdup]
    exact ⟨_, rfl⟩
  rw [← hbytes]
  exact writes_iff hstep

/-- What the client writes for a fresh direct datagram. -/
theorem Uctun.writes_direct {st : RecvState} {rx : Uctun.Rx} (hmagic : hdr.magic = magicNum)
    (hgw : hdr.gw = gatewayId) (hfec : hdr.fecRs = 0)
    (h : Uctun.ReceivesFresh st rx (hdr.toBytes ++ p)) :
    Uctun.Writes st rx q ↔ p.take (bufferSize - pktOffset) = q := by
  obtain ⟨⟨old, hmsg⟩, hdup⟩ := h
  have hhdr : (TunPkg.ofBytes rx.msg.buffer).hdr = hdr := by
    rw [hmsg, received_hdr]
  have haccepts : Uctun.accepts rx.msg = true := by
    rw [hmsg]
    exact Uctun.accepts_received old hdr p hmagic hgw
  have hbytes : (TunPkg.ofBytes rx.msg.buffer).payload.take (rx.msg.msgLen - pktOffset) =
      p.take (bufferSize - pktOffset) := by
    rw [hmsg, received_bytes]
  obtain ⟨st', hstep⟩ : ∃ st', Uctun.receiverStep st rx =
      .ok (st', some ⟨(TunPkg.ofBytes rx.msg.buffer).payload, rx.msg.msgLen - pktOffset⟩) := by
    unfold Uctun.receiverStep
    rw [if_pos haccepts]
    exact ⟨_, deliver_direct (hhdr.symm ▸ hfec) hdup⟩
  rw [← hbytes]
  exact writes_iff hstep

end Direct

/-- Both directions: a packet sent without FEC comes out as it went in exactly when it leaves room
for the header in the receive buffer. -/
theorem direct_path_transparent_iff (p : List u8) (hp : p.length ≤ bufferSize) :
    (∀ d, Uctun.SendsDirect p d → ∀ sv rx, Ustun.ReceivesFresh sv rx d →
      (Ustun.Writes sv rx p ↔ p.length ≤ bufferSize - pktOffset)) ∧
    (∀ d, Ustun.SendsDirect p d → ∀ st rx, Uctun.ReceivesFresh st rx d →
      (Uctun.Writes st rx p ↔ p.length ≤ bufferSize - pktOffset)) := by
  constructor
  · intro d hd sv rx hrx
    obtain ⟨hdr, hmagic, hfec, rfl⟩ := hd.eq hp
    rw [Ustun.writes_direct hmagic hfec hrx, List.take_eq_self_iff]
  · intro d hd st rx hrx
    obtain ⟨hdr, hmagic, hfec, hgw, rfl⟩ := hd.eq
    rw [Uctun.writes_direct hmagic hgw hfec hrx, List.take_eq_self_iff]

/-- A server without FEC that knows the flow of `zeroPacket`, from a gateway seen on both paths. -/
def directServer : Ustun.Server :=
  { zeroServer with
    glFec := false
    gateways := [{ GatewayAddr.zero with lastSeenApn := fun _ => 1, gatewayId := gatewayId }] }

/-- A client without FEC. -/
def directSender : Uctun.Sender := { freshSender with glFec := false }

/-- A packet in storage whose header `main` prepared. -/
def storedPkg (p : List u8) : TunPkg :=
  { hdr := { PkgHeader.zero with magic := magicNum }, payload := tunRead [] p }

/-- The datagram of the first path, and the message it becomes at the server. -/
def directDatagram (p : List u8) : List u8 :=
  (Uctun.sentHeader directSender (storedPkg p) p.length 0).toBytes ++ p

def directRx (p : List u8) : Ustun.Rx :=
  { worker := 0, clock := { init := 4, gateway := 4, conn := 4, recv := 4 }, allocGateway := true
    allocConn := true, addr := { addr := 0, port := 0 }, msg := recvmmsg [] (directDatagram p) }

theorem directDatagram_sent {p : List u8} (hp : p.length ≤ bufferSize) :
    Uctun.SendsDirect p (directDatagram p) := by
  refine ⟨directSender, FecCodec.new, storedPkg p, [], 0, rfl, rfl, by simp [directSender], ?_⟩
  rw [Uctun.sendPacket_direct (by simp [directSender])]
  refine ⟨by decide, ?_⟩
  rw [plen_toNat hp]
  exact (bytes_take _ [] p).symm

/-- The first packet of a client makes the server clear the filter. -/
theorem directRx_fresh (p : List u8) :
    Ustun.ReceivesFresh directServer (directRx p) (directDatagram p) := by
  have hhdr : (directRx p).pkg.hdr = Uctun.sentHeader directSender (storedPkg p) p.length 0 :=
    received_hdr _ _ _
  have hstarts : (directRx p).starts = true := by
    rw [Ustun.Rx.starts, hhdr]
    simp [Uctun.fillHeader, directSender, freshSender]
  have hdedup : (directServer.learn (directRx p)).recv.dedup = DedupState.cleared 4 := by
    rw [Ustun.Server.learn, hstarts]
    rfl
  refine ⟨⟨[], rfl⟩, ?_⟩
  rw [hhdr, hdedup]
  rfl

/-- The answer of the server to `zeroPacket`, and the message it becomes at the client. -/
def directReply : List u8 :=
  (Ustun.sentHeader directServer 0 zeroPkg zeroPacket.length).toBytes ++ zeroPacket

def directReplyRx : Uctun.Rx := { worker := 0, ts := 0, msg := recvmmsg [] directReply }

theorem directReply_sent : Ustun.SendsDirect zeroPacket directReply := by
  have hgw : (findGatewayForPacket directServer.conns 0 zeroPkg.payload).2 = gatewayId := by
    decide +kernel
  have hgw0 : (findGatewayForPacket directServer.conns 0 zeroPkg.payload).2 ≠ 0 := by
    rw [hgw]
    decide
  refine ⟨directServer, 0, GatewayAddr.zero, FecCodec.new, zeroPkg, _, rfl, hgw,
    by simp [directServer], ?_⟩
  rw [Ustun.sendToGateway_direct hgw0 (by simp [directServer]), hgw]
  refine ⟨⟨0, by decide, by decide⟩, ?_⟩
  rw [Nat.add_comm]
  exact (bytes_take _ _ zeroPacket).symm

theorem directReplyRx_fresh :
    Uctun.ReceivesFresh (Uctun.start 0) directReplyRx directReply := by
  have hhdr : (TunPkg.ofBytes directReplyRx.msg.buffer).hdr =
      Ustun.sentHeader directServer 0 zeroPkg zeroPacket.length :=
    received_hdr _ _ _
  refine ⟨⟨[], rfl⟩, ?_⟩
  rw [hhdr]
  rfl

/-- A packet of 1201 bytes passes in both directions. -/
theorem direct_path_transparent_zeroPacket :
    Ustun.Writes directServer (directRx zeroPacket) zeroPacket ∧
      Uctun.Writes (Uctun.start 0) directReplyRx zeroPacket := by
  have hp : zeroPacket.length ≤ bufferSize := by
    rw [zeroPacket_length]
    decide
  have hroom : zeroPacket.length ≤ bufferSize - pktOffset := by
    rw [zeroPacket_length]
    decide
  obtain ⟨hserver, hclient⟩ := direct_path_transparent_iff zeroPacket hp
  exact ⟨(hserver _ (directDatagram_sent hp) _ _ (directRx_fresh _)).2 hroom,
    (hclient _ directReply_sent _ _ directReplyRx_fresh).2 hroom⟩

/-- A packet as long as the TUN read allows. -/
def longPacket : List u8 := List.replicate 1500 0x45#8

/-- It reaches the server and is not a duplicate, and other bytes are written. -/
theorem direct_path_cuts_longPacket :
    longPacket.length = bufferSize ∧ Uctun.SendsDirect longPacket (directDatagram longPacket) ∧
      Ustun.ReceivesFresh directServer (directRx longPacket) (directDatagram longPacket) ∧
      ¬ Ustun.Writes directServer (directRx longPacket) longPacket := by
  have hlen : longPacket.length = bufferSize := List.length_replicate
  refine ⟨hlen, directDatagram_sent (le_of_eq hlen), directRx_fresh _, ?_⟩
  have hfresh : Ustun.ReceivesFresh directServer (directRx longPacket)
      ((Uctun.sentHeader directSender (storedPkg longPacket) longPacket.length 0).toBytes ++
        longPacket) := directRx_fresh longPacket
  rw [Ustun.writes_direct rfl rfl hfresh, List.take_eq_self_iff, hlen]
  decide

end ConfigEnv.TunVpn
