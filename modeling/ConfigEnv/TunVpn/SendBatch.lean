/-
Module: ConfigEnv.TunVpn.SendBatch
Layer: TunVpn
Purpose: What the FEC branches of `send_packet` and `send_to_gateway` share: encoding a packet in
  its own storage, and the loop that copies the header and one row each into the three packets of a
  `udp_sbuf_t`. The loops of the two programs differ in the element they store to, so the loop takes
  that as a parameter. The packets of a buffer are memory counted in elements from `packet[0]`; an
  index past the array is a store outside it, and every index stored to is recorded.
Trusted boundary: none
Main exports: UdpPacket, UdpPacket.ofBytes, encodePayload, BatchFill, fillLoop, shardPacket
Open obligations: none
-/
import ConfigEnv.TunVpn.ReedSolomon

namespace ConfigEnv.TunVpn

/-- `struct udp_packet_t`. -/
structure UdpPacket where
  hdr : PkgHeader
  buf : Row fecRsT

/-- The `sizeof(packet[j])` bytes that `iovecs[j]` sends. -/
def UdpPacket.bytes (p : UdpPacket) : List u8 := p.hdr.toBytes ++ List.ofFn p.buf

/-- A `struct udp_packet_t` as it lies in memory. -/
def UdpPacket.ofBytes (mem : List u8) : UdpPacket :=
  { hdr := PkgHeader.ofBytes mem, buf := fun k => mem.getD (pktOffset + k) 0 }

/-- `sizeof(struct udp_packet_t)`. -/
abbrev udpPacketSize : Nat := pktOffset + fecRsT

@[simp] theorem UdpPacket.length_bytes (p : UdpPacket) : p.bytes.length = udpPacketSize := by
  rw [UdpPacket.bytes, List.length_append, PkgHeader.length_toBytes, List.length_ofFn]

/-- `reed_solomon_encode(rs, pfec_buf, FEC_RS_K + FEC_RS_N, FEC_RS_T)` on the payload of a packet.
-/
def encodePayload (codec : FecCodec) (payload : List u8) : Int × List u8 :=
  let r := reedSolomonEncode codec.rs (fecBuf payload)
  (r.1, fecFlat r.2)

/-- `pkg` with its header marked as shard `i`, cut down to that shard. -/
def shardPacket (pkg : TunPkg) (i : Fin shardCount) : UdpPacket :=
  { hdr := { pkg.hdr with fecIdx := BitVec.ofNat 3 i }, buf := fecBuf pkg.payload i }

/-- State of a fill loop: the header in `pkg`, the packets, and the elements stored to so far. -/
structure BatchFill where
  hdr : PkgHeader
  packet : Nat → UdpPacket
  stores : List Nat

/-- The loop over `i < UDP_SBATCH_SIZE`: set `fec_idx`, then copy the header and row `i` to element
`target i`. -/
def fillLoop (target : Fin shardCount → Nat) (pkg : TunPkg) (packet : Nat → UdpPacket) :
    BatchFill :=
  (List.finRange shardCount).foldl (fun s i =>
    let hdr := { s.hdr with fecIdx := BitVec.ofNat 3 i }
    { hdr := hdr
      packet := Function.update s.packet (target i) { hdr := hdr, buf := fecBuf pkg.payload i }
      stores := s.stores ++ [target i] })
    { hdr := pkg.hdr, packet := packet, stores := [] }

theorem fillLoop_stores (target : Fin shardCount → Nat) (pkg : TunPkg)
    (packet : Nat → UdpPacket) :
    (fillLoop target pkg packet).stores = [target 0, target 1, target 2] := rfl

/-- The packets after the loop, last store first. -/
theorem fillLoop_packet (target : Fin shardCount → Nat) (pkg : TunPkg)
    (packet : Nat → UdpPacket) (j : Nat) :
    (fillLoop target pkg packet).packet j =
      if j = target 2 then shardPacket pkg 2
      else if j = target 1 then shardPacket pkg 1
      else if j = target 0 then shardPacket pkg 0
      else packet j := by
  have hrange : List.finRange shardCount = [0, 1, 2] := rfl
  simp only [fillLoop, hrange, List.foldl_cons, List.foldl_nil, Function.update_apply, shardPacket]

end ConfigEnv.TunVpn
