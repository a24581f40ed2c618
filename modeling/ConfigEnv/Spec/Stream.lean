/-
Module: ConfigEnv.Spec.Stream
Layer: Spec
Purpose: One honest sender, seen from the network. It numbers its packets 0, 1, 2, and so on, the
  header carries the number modulo 2^16, and each packet goes out either whole or as the three rows
  of its codeword. A datagram is told by the number of its packet and by the part it carries; what
  `send_packet` and `send_to_gateway` leave to chance in a header is left open. The last section
  shows that the datagrams of the server are of this kind, and the one before it what a receiver
  sees of them.
Trusted boundary: none
Main exports: Packet, Stream, Datagram, Stream.bytes, Datagram.Honest, Stream.received,
  Ustun.sendToGateway_honest
Open obligations: none
-/
import ConfigEnv.Proofs.Datagram

namespace ConfigEnv.TunVpn

/-! ### Packets and datagrams -/

/-- A packet that was read from the device into storage that held `stale`, and is sent with or
without FEC. `spare` holds the header fields that the sender leaves as they are. -/
structure Packet where
  fec : Bool
  data : List u8
  stale : List u8
  spare : PkgHeader
  data_le : data.length ≤ bufferSize
  stale_length : stale.length = payloadSize

/-- The packets by their number. -/
abbrev Stream := Nat → Packet

/-- What tells the datagrams of a sender apart: the packet, the part of it (a shard or all of it),
and two bytes of the header that may differ from copy to copy. -/
structure Datagram where
  num : Nat
  part : Option (Fin shardCount)
  gw : u8
  apn : u8
deriving DecidableEq

/-- The packet is sent in the way the datagram says. -/
def Datagram.Honest (S : Stream) (d : Datagram) : Prop := d.part.isSome = (S d.num).fec

/-- The 16-bit number in the header. -/
def seqOf (num : Nat) : u16 := BitVec.ofNat 16 num

/-- The length in the header. -/
def Packet.plen (p : Packet) : u16 := BitVec.ofNat 16 p.data.length

/-- The codeword of a packet. -/
def Packet.rows (p : Packet) : Shards shardCount fecRsT := codewordRows (tunRead p.stale p.data)

namespace Stream

variable (S : Stream)

/-- The header of a datagram: what the sender leaves as it is, with the fields that it fills. -/
def header (d : Datagram) : PkgHeader :=
  { (S d.num).spare with
    magic := magicNum
    fecRs := if d.part.isSome then 1 else 0
    fecIdx := (d.part.map fun i => BitVec.ofNat 3 i.val).getD (S d.num).spare.fecIdx
    gw := d.gw
    apn := d.apn
    seq := seqOf d.num
    plen := (S d.num).plen }

/-- The bytes on the wire. -/
def bytes (d : Datagram) : List u8 :=
  (S.header d).toBytes ++
    match d.part with
    | some i => List.ofFn ((S d.num).rows i)
    | none => (S d.num).data

/-- The message that a datagram becomes in a receive buffer that held `old`. -/
def received (d : Datagram) (old : List u8) : TunPkg :=
  TunPkg.ofBytes (recvmmsg old (S.bytes d)).buffer

end Stream

/-! ### What a receiver sees -/

section Received

variable (S : Stream) (d : Datagram) (old : List u8)

@[simp] theorem received_header : (S.received d old).hdr = S.header d :=
  received_hdr old (S.header d) _

theorem received_isShard {i : Fin shardCount} (hpart : d.part = some i) :
    IsShard (S.received d old) (S d.num).plen (S d.num).rows i := by
  have hbytes : S.bytes d =
      (S.header d).toBytes ++
        List.ofFn (codewordRows (tunRead (S d.num).stale (S d.num).data) i) := by
    rw [Stream.bytes, hpart]
    rfl
  have hidx : (S.header d).fecIdx = BitVec.ofNat 3 i.val := by
    rw [Stream.header, hpart]
    rfl
  unfold Stream.received
  rw [hbytes]
  exact received_shard old (S.header d) _ i hidx

/-- A whole packet, as far as the receive buffer holds it. -/
theorem received_whole (hpart : d.part = none) :
    (S.received d old).payload.take ((recvmmsg old (S.bytes d)).msgLen - pktOffset) =
      (S d.num).data.take (bufferSize - pktOffset) := by
  have hbytes : S.bytes d = (S.header d).toBytes ++ (S d.num).data := by
    rw [Stream.bytes, hpart]
  unfold Stream.received
  rw [hbytes]
  exact received_bytes old (S.header d) _

/-- Writing out a completed slot writes the packet. -/
theorem complete_bytes {slot : FecSlot} {seq : u16} {p : Packet}
    (h : slot.Complete seq p.plen p.rows) :
    TunWrite.bytes { pbuf := fecFlat slot.buf, plen := slot.plen.toNat } = p.data := by
  simp only [TunWrite.bytes]
  exact h.bytes p.stale_length p.data_le

/-- Numbers share a place in the tables when they are equal modulo their size. -/
theorem slotIdx_seqOf (num : Nat) : (slotIdx (seqOf num)).val = num % seqMapSize := by
  simp only [slotIdx, seqOf, Fin.val_ofNat, BitVec.toNat_ofNat, seqMapSize]
  omega

theorem slotIdx_eq_iff {m n : Nat} :
    slotIdx (seqOf m) = slotIdx (seqOf n) ↔ m % seqMapSize = n % seqMapSize := by
  rw [← slotIdx_seqOf, ← slotIdx_seqOf, Fin.ext_iff]

end Received

/-! ### The server is an honest sender -/

/-- Every datagram of a packet that the server sends under a number is a datagram of the stream. -/
theorem Ustun.sendToGateway_honest {sv : Server} {ts : Int} {headMem : GatewayAddr}
    {codec : FecCodec} {pkg : TunPkg} {S : Stream} {num : Nat} {b : List u8}
    (hgw : (findGatewayForPacket sv.conns ts pkg.payload).2 ≠ 0) (hnum : sv.sequence = seqOf num)
    (hpay : pkg.payload = tunRead (S num).stale (S num).data)
    (hfec : (S num).fec = true ↔ sv.glFec = true ∧ pkgFecEncodeMinLen < (S num).data.length)
    (hspare : (S num).spare = sentHeader sv ts pkg (S num).data.length)
    (hb : b ∈ (sendToGateway sv ts headMem codec pkg (S num).data.length).sent.map Sent.bytes) :
    ∃ d : Datagram, d.num = num ∧ d.Honest S ∧ b = S.bytes d := by
  let d (part : Option (Fin shardCount)) : Datagram :=
    { num := num, part := part, gw := (S num).spare.gw, apn := (S num).spare.apn }
  cases hmode : (S num).fec with
  | true =>
      obtain ⟨hgl, hlen⟩ := hfec.1 hmode
      rw [sendToGateway_fec hgw hgl hlen, List.mem_ofFn] at hb
      obtain ⟨i, rfl⟩ := hb
      refine ⟨d (some i), rfl, hmode.symm, ?_⟩
      have hhdr : S.header (d (some i)) =
          { sentHeader sv ts pkg (S num).data.length with fecIdx := BitVec.ofNat 3 i } := by
        simp [Stream.header, d, hspare, fillHeader, hgl, hlen, hnum, Packet.plen]
      rw [Stream.bytes, hhdr, hpay]
      rfl
  | false =>
      have hdirect : ¬ (sv.glFec = true ∧ pkgFecEncodeMinLen < (S num).data.length) := by
        rw [← hfec, hmode]
        decide
      obtain ⟨-, rfl⟩ := (sendToGateway_direct hgw hdirect).1 hb
      refine ⟨d none, rfl, hmode.symm, ?_⟩
      have hhdr : S.header (d none) = sentHeader sv ts pkg (S num).data.length := by
        simp [Stream.header, d, hspare, fillHeader, hdirect, hnum, Packet.plen]
      rw [Stream.bytes, hhdr, hpay, Nat.add_comm]
      exact bytes_take _ _ _

end ConfigEnv.TunVpn
