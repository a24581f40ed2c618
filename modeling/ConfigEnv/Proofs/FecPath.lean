/-
Module: ConfigEnv.Proofs.FecPath
Layer: Proofs
Purpose: The FEC path from end to end. Any two of the three datagrams that the server sends for a
  packet give the packet back at the client, in either order, and the third changes nothing. The
  client's own fill loop is the place where the two programs part: it steps the element twice, so it
  never sends the batch that the server's loop would build.
Trusted boundary: none
Main exports: ShardRx, FecRoundTrip, fec_round_trip, FecBatchCorrect, send_packet_batch
Open obligations: none
-/
import ConfigEnv.Proofs.Datagram

namespace ConfigEnv.TunVpn

/-! ### Server to client -/

/-- How one datagram of a packet is received: what the slot of `udp_rbuf` held, the time, and the
codec of the thread. -/
structure ShardRx where
  stale : List u8
  ts : Int
  codec : FecCodec

/-- The datagram `d` reaches `fec_recv_done`. -/
def ShardRx.recv (rx : ShardRx) (slot : FecSlot) (d : List u8) : Except Fault FecRecv :=
  let msg := TunPkg.ofBytes (recvmmsg rx.stale d).buffer
  fecRecvDone slot rx.ts msg.hdr.seq msg rx.codec

/-- Of three datagrams, `i` starts the packet `p` in `slot`, `j` completes it, and `k` is ignored.
-/
def FecRoundTrip (sent : List (List u8)) (p : List u8) (i j k : Fin shardCount) (slot : FecSlot)
    (rx : Fin shardCount → ShardRx) : Prop :=
  ∃ d : Fin shardCount → List u8, sent = List.ofFn d ∧
    ∃ r1, (rx i).recv slot (d i) = .ok r1 ∧ r1.done = false ∧
      ∃ r2, (rx j).recv r1.slot (d j) = .ok r2 ∧ r2.done = true ∧
        (fecFlat r2.slot.buf).take r2.slot.plen.toNat = p ∧
        ∃ r3, (rx k).recv r2.slot (d k) = .ok r3 ∧ r3.done = false ∧ r3.slot = r2.slot

/-- FEC round trip, for the packets that `send_to_gateway` takes to its FEC branch. -/
theorem fec_round_trip (sv : Ustun.Server) (ts : Int) (headMem : GatewayAddr) (codec : FecCodec)
    (pkg : TunPkg) (old p : List u8) (hold : old.length = payloadSize)
    (hpay : pkg.payload = tunRead old p) (hmin : pkgFecEncodeMinLen < p.length)
    (hmax : p.length ≤ bufferSize) (hfec : sv.glFec = true)
    (hgw : (findGatewayForPacket sv.conns ts pkg.payload).2 ≠ 0) (slot : FecSlot)
    (hslot : slot.seq ≠ sv.sequence) (rx : Fin shardCount → ShardRx) (i j k : Fin shardCount)
    (hij : i ≠ j) :
    FecRoundTrip ((Ustun.sendToGateway sv ts headMem codec pkg p.length).sent.map Ustun.Sent.bytes)
      p i j k slot rx := by
  refine ⟨_, Ustun.sendToGateway_fec hgw hfec hmin, ?_⟩
  let hdr (n : Fin shardCount) : PkgHeader :=
    { Ustun.sentHeader sv ts pkg p.length with fecIdx := BitVec.ofNat 3 n }
  let plen : u16 := BitVec.ofNat 16 p.length
  let s := codewordRows pkg.payload
  -- every datagram arrives as a shard of the packet, under its number
  have hshard : ∀ n, IsShard (TunPkg.ofBytes
      (recvmmsg (rx n).stale ((hdr n).toBytes ++ List.ofFn (s n))).buffer) plen s n :=
    fun n => received_shard (rx n).stale (hdr n) pkg.payload n rfl
  have hseq : ∀ n, (TunPkg.ofBytes
      (recvmmsg (rx n).stale ((hdr n).toBytes ++ List.ofFn (s n))).buffer).hdr.seq =
        sv.sequence := by
    intro n
    rw [received_hdr]
    rfl
  obtain ⟨r1, hr1, hdone1, hcol, hcnt, hmark⟩ :=
    first_shard hslot (hshard i) (rx i).ts (rx i).codec
  obtain ⟨r2, hr2, hdone2, hcomplete⟩ :=
    second_shard (codewordRows_codeword pkg.payload) hcol hcnt hmark hij.symm (hshard j) (rx j).ts
      (rx j).codec
  have hr3 := late_shard hcomplete.seq_eq hcomplete.cnt_le
    (TunPkg.ofBytes (recvmmsg (rx k).stale ((hdr k).toBytes ++ List.ofFn (s k))).buffer)
    (rx k).ts (rx k).codec
  let r3 : FecRecv := { slot := r2.slot, codec := (rx k).codec, done := false, reads := [] }
  refine ⟨r1, ?_, hdone1, r2, ?_, hdone2, ?_, r3, ?_, rfl, rfl⟩
  · rw [← hr1, ← hseq i]
    rfl
  · rw [← hr2, ← hseq j]
    rfl
  · have hcomplete' : r2.slot.Complete sv.sequence plen (codewordRows (tunRead old p)) :=
      hpay ▸ hcomplete
    exact hcomplete'.bytes hold hmax
  · rw [← hr3, ← hseq k]
    rfl

/-- A version 4 packet of 1201 bytes from and to the address zero. -/
def zeroPacket : List u8 := 0x45#8 :: List.replicate 1200 0#8

/-- A server with FEC that knows the flow of `zeroPacket`. -/
def zeroServer : Ustun.Server :=
  { Ustun.Server.zero true fun _ => 1 with
    conns := [{ key := { srcIp := 0, dstIp := 0, hashVal := 0 }, gatewayId := 1, lastUsed := 0 }] }

/-- `zeroPacket` read into zeroed storage. -/
def zeroPkg : TunPkg :=
  { hdr := PkgHeader.zero, payload := tunRead zeroPayload zeroPacket }

theorem zeroPacket_length : zeroPacket.length = 1201 := by
  simp only [zeroPacket, List.length_cons, List.length_replicate]

theorem zeroPacket_length_le : zeroPacket.length ≤ bufferSize := by
  rw [zeroPacket_length]
  decide

theorem zeroServer_finds : (findGatewayForPacket zeroServer.conns 0 zeroPkg.payload).2 ≠ 0 := by
  decide +kernel

/-- The parity shard first, then the second data shard. -/
theorem fec_round_trip_zeroPacket :
    FecRoundTrip ((Ustun.sendToGateway zeroServer 0 GatewayAddr.zero FecCodec.new zeroPkg
        zeroPacket.length).sent.map Ustun.Sent.bytes)
      zeroPacket 2 1 0 { FecSlot.zero with seq := fecSeqFill }
      (fun _ => { stale := [], ts := 0, codec := FecCodec.new }) :=
  fec_round_trip zeroServer 0 GatewayAddr.zero FecCodec.new zeroPkg zeroPayload zeroPacket
    length_zeroPayload rfl (by rw [zeroPacket_length]; decide) zeroPacket_length_le rfl
    zeroServer_finds _ (by decide) _ 2 1 0 (by decide)

/-! ### The batch of the client -/

/-- When `sendmmsg` is reached, every packet of the batch is the one that the loop of the server
would have built, and no store went past the batch. -/
def FecBatchCorrect (st : Uctun.Sender) (codec : FecCodec) (pkg : TunPkg) (len : Nat) : Prop :=
  let r := Uctun.sendPacket st codec pkg len
  ∃ worker stores, r.stores = some (worker, stores) ∧
    (∀ i : Fin shardCount, r.st.udpSbuf worker i =
      (Ustun.fillBatch r.pkg (st.udpSbuf worker)).packet i) ∧
    ∀ j ∈ stores, j < shardCount

/-- The stores of the client's loop go to elements 0, 2 and 4. -/
theorem Uctun.fillBatch_stores (pkg : TunPkg) (packet : Nat → UdpPacket) :
    (Uctun.fillBatch pkg packet).stores = [0, 2, 4] :=
  fillLoop_stores _ pkg packet

/-- What the client's loop leaves in the batch: shard 0, the packet that was there, shard 1. -/
theorem Uctun.fillBatch_packet (pkg : TunPkg) (packet : Nat → UdpPacket) :
    (Uctun.fillBatch pkg packet).packet 0 = shardPacket pkg 0 ∧
      (Uctun.fillBatch pkg packet).packet 1 = packet 1 ∧
      (Uctun.fillBatch pkg packet).packet 2 = shardPacket pkg 1 := by
  unfold Uctun.fillBatch
  simp only [fillLoop_packet]
  exact ⟨rfl, rfl, rfl⟩

/-- The third packet of the client's batch is never the parity shard, and the last store leaves the
batch. -/
theorem Uctun.sendPacket_batch {st : Sender} (codec : FecCodec) (pkg : TunPkg) {len : Nat}
    (hfec : st.glFec = true) (hlen : pkgFecEncodeMinLen < len) :
    ∃ worker stores, (sendPacket st codec pkg len).stores = some (worker, stores) ∧
      (sendPacket st codec pkg len).st.udpSbuf worker 2 ≠
        (Ustun.fillBatch (sendPacket st codec pkg len).pkg (st.udpSbuf worker)).packet 2 ∧
      4 ∈ stores := by
  obtain ⟨hbuf, hstores, hpkg⟩ := sendPacket_fec codec pkg hfec hlen
  refine ⟨_, _, hstores, ?_, ?_⟩
  · rw [hbuf, hpkg, (fillBatch_packet _ _).2.2]
    rw [show (2 : Nat) = ((2 : Fin shardCount) : Nat) from rfl, Ustun.fillBatch_packet]
    intro h
    have hidx : (BitVec.ofNat 3 1 : BitVec 3) = BitVec.ofNat 3 2 :=
      congrArg (fun p => p.hdr.fecIdx) h
    exact absurd hidx (by decide)
  · rw [fillBatch_stores]
    simp

/-- The client never sends the batch that the server's loop builds. -/
theorem send_packet_batch (st : Uctun.Sender) (codec : FecCodec) (pkg : TunPkg) (len : Nat)
    (hfec : st.glFec = true) (hlen : pkgFecEncodeMinLen < len) :
    ¬ FecBatchCorrect st codec pkg len := by
  rintro ⟨worker, stores, hstores, hpackets, -⟩
  obtain ⟨worker', stores', hstores', hne, -⟩ := Uctun.sendPacket_batch codec pkg hfec hlen
  rw [hstores'] at hstores
  obtain ⟨rfl, rfl⟩ := Prod.mk.inj (Option.some.inj hstores)
  exact hne (hpackets 2)

/-- A client with FEC and both paths up, before its first packet. -/
def freshSender : Uctun.Sender :=
  { glFec := true, sequence := 0, first := true, sockApn := fun _ => 3
    udpSbuf := fun _ _ => { hdr := PkgHeader.zero, buf := fun _ => 0 } }

theorem send_packet_batch_zeroPacket :
    ¬ FecBatchCorrect freshSender FecCodec.new zeroPkg zeroPacket.length :=
  send_packet_batch freshSender FecCodec.new zeroPkg zeroPacket.length rfl
    (by rw [zeroPacket_length]; decide)

/-- On the first packet of a client: the datagram sent second is all zero bytes. -/
theorem send_packet_batch_fails :
    ¬ FecBatchCorrect freshSender FecCodec.new zeroPkg 1201 := by
  rintro ⟨worker, stores, hstores, -, hrange⟩
  obtain ⟨worker', stores', hstores', -, h4⟩ :=
    Uctun.sendPacket_batch FecCodec.new zeroPkg (rfl : freshSender.glFec = true)
      (by decide : pkgFecEncodeMinLen < 1201)
  rw [hstores'] at hstores
  obtain ⟨rfl, rfl⟩ := Prod.mk.inj (Option.some.inj hstores)
  exact absurd (hrange 4 h4) (by decide)

end ConfigEnv.TunVpn
