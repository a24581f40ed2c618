/-
Module: ConfigEnv.Proofs.Datagram
Layer: Proofs
Purpose: From a packet in the storage of one program to the packet that the other one sees in its
  receive buffer. One section says what `recvmmsg` leaves of a datagram, one what encoding makes of
  the payload, and one what each branch of `send_packet` and of `send_to_gateway` hands to the
  sockets. The proofs about the whole path use these and no longer look into the programs.
Trusted boundary: none
Main exports: received_hdr, received_payload, received_shard, Ustun.accepts_received,
  Uctun.accepts_received, codewordRows, encodePayload_eq, Ustun.sendToGateway_fec,
  Ustun.sendToGateway_direct, Uctun.sendPacket_fec, Uctun.sendPacket_direct
Open obligations: none
-/
import ConfigEnv.Proofs.FecSlot
import ConfigEnv.TunVpn.Uctun
import ConfigEnv.TunVpn.Ustun

namespace ConfigEnv.TunVpn

/-! ### Received datagrams -/

section Received

variable (old : List u8) (hdr : PkgHeader) (rest : List u8)

/-- What a slot holds after a datagram: its bytes, and what was there behind them. -/
theorem received_buffer :
    (recvmmsg old (hdr.toBytes ++ rest)).buffer =
      hdr.toBytes ++
        (rest.take (bufferSize - pktOffset) ++ old.drop (pktOffset + rest.length)) := by
  have htake : (hdr.toBytes ++ rest).take bufferSize =
      hdr.toBytes ++ rest.take (bufferSize - pktOffset) := by
    have hle : hdr.toBytes.length ≤ bufferSize := by
      rw [hdr.length_toBytes]
      decide
    rw [List.take_append, List.take_of_length_le hle, hdr.length_toBytes]
  simp only [recvmmsg, htake, List.length_append, hdr.length_toBytes, List.append_assoc]

/-- The header arrives as it was sent. -/
theorem received_hdr : (TunPkg.ofBytes (recvmmsg old (hdr.toBytes ++ rest)).buffer).hdr = hdr := by
  rw [received_buffer]
  exact PkgHeader.ofBytes_toBytes hdr _

/-- The payload arrives, with what the slot held behind it. -/
theorem received_payload :
    (TunPkg.ofBytes (recvmmsg old (hdr.toBytes ++ rest)).buffer).payload =
      rest.take (bufferSize - pktOffset) ++ old.drop (pktOffset + rest.length) := by
  rw [received_buffer]
  exact List.drop_left' hdr.length_toBytes

/-- `msg_len` less the header. -/
theorem received_plen :
    (recvmmsg old (hdr.toBytes ++ rest)).msgLen - pktOffset =
      min rest.length (bufferSize - pktOffset) := by
  simp only [recvmmsg, List.length_append, hdr.length_toBytes]
  omega

theorem received_msgLen : pktOffset ≤ (recvmmsg old (hdr.toBytes ++ rest)).msgLen := by
  simp only [recvmmsg, List.length_append, hdr.length_toBytes, bufferSize, pktOffset]
  omega

/-- The bytes from the payload on, as many as were received. -/
theorem received_bytes :
    ((TunPkg.ofBytes (recvmmsg old (hdr.toBytes ++ rest)).buffer).payload).take
        ((recvmmsg old (hdr.toBytes ++ rest)).msgLen - pktOffset) =
      rest.take (bufferSize - pktOffset) := by
  rw [received_payload, received_plen, List.take_append_of_le_length, List.take_take]
  · rw [List.take_eq_take_iff]
    omega
  · rw [List.length_take, min_comm]

/-- A row written out reads as the row. -/
theorem ofFn_getD (row : Row fecRsT) (k : Fin fecRsT) : (List.ofFn row).getD k 0 = row k := by
  have hlt : k.val < (List.ofFn row).length := by
    rw [List.length_ofFn]
    exact k.isLt
  rw [List.getD_eq_getElem _ _ hlt, List.getElem_ofFn]

theorem rowOfMem_ofFn (row : Row fecRsT) (mem : List u8) :
    rowOfMem (List.ofFn row ++ mem) = row := by
  funext k
  have hlt : k.val < (List.ofFn row).length := by
    rw [List.length_ofFn]
    exact k.isLt
  unfold rowOfMem
  rw [List.getD_append _ _ _ _ hlt, ofFn_getD]

/-- The server looks at what begins with a header that has its magic number. -/
theorem Ustun.accepts_received (hmagic : hdr.magic = magicNum) :
    Ustun.accepts (recvmmsg old (hdr.toBytes ++ rest)) = true := by
  have hlen := received_msgLen old hdr rest
  simp only [Ustun.accepts, received_hdr, hmagic, ne_eq, not_true_eq_false, or_false, not_lt,
    decide_eq_true_eq]
  exact hlen

/-- The client also asks for its own gateway number. -/
theorem Uctun.accepts_received (hmagic : hdr.magic = magicNum) (hgw : hdr.gw = gatewayId) :
    Uctun.accepts (recvmmsg old (hdr.toBytes ++ rest)) = true := by
  have hlen := received_msgLen old hdr rest
  simp only [Uctun.accepts, received_hdr, hmagic, hgw, ne_eq, not_true_eq_false, or_false, not_lt,
    decide_eq_true_eq]
  exact hlen

end Received

/-! ### Encoding -/

/-- The rows that encoding makes of a payload: the data rows as they are, and their parity. -/
def codewordRows (payload : List u8) : Shards shardCount fecRsT :=
  Function.update (fecBuf payload) 2 fun k =>
    fecBuf payload 0 k ^^^ gf28Mul 142 (fecBuf payload 1 k)

/-- The rows of a payload are a code word. -/
theorem codewordRows_codeword (payload : List u8) : Codeword (codewordRows payload) := by
  intro k
  simp [codewordRows]

theorem codewordRows_data (payload : List u8) {i : Fin shardCount} (hi : i ≠ 2) :
    codewordRows payload i = fecBuf payload i :=
  Function.update_of_ne hi _ _

/-- Encoding a payload leaves its two data rows and computes the third. -/
theorem encodePayload_eq (codec : FecCodec) (payload : List u8) :
    encodePayload codec payload = (0, fecFlat (codewordRows payload)) := by
  unfold encodePayload
  rw [show reedSolomonEncode codec.rs (fecBuf payload) = _ from encode_eq codec _]
  rfl

/-- A shard of an encoded packet carries a row of its codeword. -/
theorem shardPacket_bytes (hdr : PkgHeader) (payload : List u8) (i : Fin shardCount) :
    (shardPacket { hdr := hdr, payload := fecFlat (codewordRows payload) } i).bytes =
      ({ hdr with fecIdx := BitVec.ofNat 3 i } : PkgHeader).toBytes ++
        List.ofFn (codewordRows payload i) := by
  simp only [shardPacket, UdpPacket.bytes, fecBuf_fecFlat]

/-- A received shard is a shard of the packet that was sent. -/
theorem received_shard (old : List u8) (hdr : PkgHeader) (payload : List u8) (i : Fin shardCount)
    (hidx : hdr.fecIdx = BitVec.ofNat 3 i) :
    IsShard (TunPkg.ofBytes
        (recvmmsg old (hdr.toBytes ++ List.ofFn (codewordRows payload i))).buffer)
      hdr.plen (codewordRows payload) i where
  plen_eq := by rw [received_hdr]
  fecIdx_eq := by
    rw [received_hdr, hidx]
    have hi := i.isLt
    simp only [shardCount, fecRsK, fecRsN] at hi
    simp only [BitVec.toNat_ofNat]
    omega
  row_eq := by
    have hall : (List.ofFn (codewordRows payload i)).take (bufferSize - pktOffset) =
        List.ofFn (codewordRows payload i) :=
      List.take_of_length_le (by rw [List.length_ofFn]; decide)
    rw [received_payload, hall]
    exact rowOfMem_ofFn _ _

/-- Reading `len` bytes of a packet just read from the device gives the packet. -/
theorem tunRead_take (old p : List u8) : (tunRead old p).take p.length = p :=
  List.take_left' rfl

/-- The datagrams of a packet are its bytes behind a header. -/
theorem bytes_take (hdr : PkgHeader) (old p : List u8) :
    (TunPkg.bytes ⟨hdr, tunRead old p⟩).take (pktOffset + p.length) = hdr.toBytes ++ p := by
  unfold TunPkg.bytes tunRead
  rw [← List.append_assoc]
  exact List.take_left' (by rw [List.length_append, hdr.length_toBytes])

theorem length_tunRead {old p : List u8} (h : p.length ≤ old.length) :
    (tunRead old p).length = old.length := by
  simp only [tunRead, List.length_append, List.length_drop]
  omega

theorem plen_toNat {len : Nat} (h : len ≤ bufferSize) : (BitVec.ofNat 16 len).toNat = len := by
  simp only [bufferSize] at h
  simp only [BitVec.toNat_ofNat]
  omega

/-- A slot that completed a packet holds it, read row after row. -/
theorem FecSlot.Complete.bytes {slot : FecSlot} {seq : u16} {old p : List u8}
    (h : slot.Complete seq (BitVec.ofNat 16 p.length) (codewordRows (tunRead old p)))
    (hold : old.length = payloadSize) (hp : p.length ≤ bufferSize) :
    (fecFlat slot.buf).take slot.plen.toNat = p := by
  have hrows : ∀ i, i ≠ 2 → slot.buf i = fecBuf (tunRead old p) i := by
    intro i hi
    rw [h.rows i hi, codewordRows_data _ hi]
  have hle : p.length ≤ old.length := by
    rw [hold]
    exact hp.trans (by decide)
  rw [h.plen_eq, plen_toNat hp, fecFlat_take hrows ((length_tunRead hle).trans hold) hp]
  exact tunRead_take old p

/-! ### The branches of `send_to_gateway` -/

namespace Ustun

variable {sv : Server} {ts : Int} {headMem : GatewayAddr} {codec : FecCodec} {pkg : TunPkg}
  {len : Nat}

/-- The header that goes out with a packet. -/
abbrev sentHeader (sv : Server) (ts : Int) (pkg : TunPkg) (len : Nat) : PkgHeader :=
  fillHeader sv pkg.hdr (findGatewayForPacket sv.conns ts pkg.payload).2 len

theorem fillHeader_conns (sv : Server) (conns : List ConnEntry) (hdr : PkgHeader) (g : u8)
    (len : Nat) : fillHeader { sv with conns := conns } hdr g len = fillHeader sv hdr g len := rfl

/-- The header announces FEC exactly when it is on and the packet is long. -/
theorem fillHeader_fecRs (sv : Server) (hdr : PkgHeader) (g : u8) (len : Nat) :
    (fillHeader sv hdr g len).fecRs ≠ 0 ↔ sv.glFec = true ∧ pkgFecEncodeMinLen < len := by
  by_cases hfec : sv.glFec = true ∧ pkgFecEncodeMinLen < len
  · simp [fillHeader, hfec]
  · simp [fillHeader, hfec]

/-- The loop of the server puts each shard in its own packet. -/
theorem fillBatch_packet (pkg : TunPkg) (packet : Nat → UdpPacket) (i : Fin shardCount) :
    (fillBatch pkg packet).packet i = shardPacket pkg i := by
  unfold fillBatch
  rw [fillLoop_packet]
  match i with
  | 0 => rfl
  | 1 => rfl
  | 2 => rfl

/-- A long packet for a known gateway goes out as three shards. -/
theorem sendToGateway_fec (hgw : (findGatewayForPacket sv.conns ts pkg.payload).2 ≠ 0)
    (hfec : sv.glFec = true) (hlen : pkgFecEncodeMinLen < len) :
    (sendToGateway sv ts headMem codec pkg len).sent.map Sent.bytes =
      List.ofFn fun i : Fin shardCount =>
        ({ sentHeader sv ts pkg len with fecIdx := BitVec.ofNat 3 i } : PkgHeader).toBytes ++
          List.ofFn (codewordRows pkg.payload i) := by
  have hrs : (sentHeader sv ts pkg len).fecRs ≠ 0 :=
    (fillHeader_fecRs _ _ _ _).2 ⟨hfec, hlen⟩
  unfold sendToGateway
  simp only [fillHeader_conns, if_neg hgw, if_pos hrs, encodePayload_eq, if_true, List.map_map]
  have hrange : List.range shardCount = [0, 1, 2] := rfl
  have h0 := fillBatch_packet ⟨sentHeader sv ts pkg len, fecFlat (codewordRows pkg.payload)⟩
    (sv.udpSbuf (pickWorker sv.udpSock (sv.sequence + 1)))
  rw [hrange]
  simp only [List.map_cons, List.map_nil, Function.comp_apply]
  refine (List.ofFn_inj.2 ?_ : List.ofFn (fun i : Fin 3 =>
    ((fillBatch ⟨sentHeader sv ts pkg len, fecFlat (codewordRows pkg.payload)⟩
      (sv.udpSbuf (pickWorker sv.udpSock (sv.sequence + 1)))).packet i).bytes) = _)
  funext i
  rw [h0 i, shardPacket_bytes]

/-- Every open path on which the gateway was seen takes a copy. -/
theorem sendToGateway_direct {d : List u8}
    (hgw : (findGatewayForPacket sv.conns ts pkg.payload).2 ≠ 0)
    (hfec : ¬ (sv.glFec = true ∧ pkgFecEncodeMinLen < len)) :
    d ∈ (sendToGateway sv ts headMem codec pkg len).sent.map Sent.bytes ↔
      (∃ i, 0 < (gatewayRecord headMem (getGatewayAddr sv.gateways
          (findGatewayForPacket sv.conns ts pkg.payload).2)).lastSeenApn i ∧
        0 < sv.udpSock (Fin.ofNat udpWorker i.val)) ∧
      d = (TunPkg.bytes ⟨sentHeader sv ts pkg len, pkg.payload⟩).take (len + pktOffset) := by
  have hrs : (fillHeader sv pkg.hdr (findGatewayForPacket sv.conns ts pkg.payload).2 len).fecRs =
      0 := not_not.1 (mt (fillHeader_fecRs _ _ _ _).1 hfec)
  unfold sendToGateway
  simp only [fillHeader_conns, if_neg hgw, hrs, ne_eq, not_true_eq_false, if_false, List.map_map,
    List.mem_map, List.mem_filter, List.mem_finRange, true_and, decide_eq_true_eq]
  constructor
  · rintro ⟨i, hi, rfl⟩
    exact ⟨⟨i, hi⟩, rfl⟩
  · rintro ⟨⟨i, hi⟩, rfl⟩
    exact ⟨i, hi, rfl⟩

end Ustun

/-! ### The branches of `send_packet` -/

namespace Uctun

variable {st : Sender} {codec : FecCodec} {pkg : TunPkg} {len : Nat}

/-- The header that goes out on path `i` with a packet. -/
abbrev sentHeader (st : Sender) (pkg : TunPkg) (len : Nat) (i : Fin udpWorker) : PkgHeader :=
  { fillHeader st pkg.hdr len with apn := BitVec.ofNat 8 (i.val + 1) }

/-- The header announces FEC exactly when it is on and the packet is long. -/
theorem fillHeader_fecRs (st : Sender) (hdr : PkgHeader) (len : Nat) :
    (fillHeader st hdr len).fecRs ≠ 0 ↔ st.glFec = true ∧ pkgFecEncodeMinLen < len := by
  by_cases hfec : st.glFec = true ∧ pkgFecEncodeMinLen < len
  · simp [fillHeader, hfec]
  · simp [fillHeader, hfec]

/-- The packet of the FEC branch when the fill loop starts. -/
def encodedPacket (st : Sender) (pkg : TunPkg) (len : Nat) : TunPkg :=
  { hdr := sentHeader st pkg len (pickWorker st.sockApn (st.sequence + 1))
    payload := fecFlat (codewordRows pkg.payload) }

theorem storeBatch_self (udpSbuf : Fin udpWorker → Nat → UdpPacket) (worker : Fin udpWorker)
    (packet : Nat → UdpPacket) : storeBatch udpSbuf worker packet worker = packet := by
  unfold storeBatch
  split
  · exact Function.update_self _ _ _
  · exact Function.update_self _ _ _

/-- A long packet goes out as three shards, from the batch of the worker that is picked. -/
theorem sendPacket_fec (codec : FecCodec) (pkg : TunPkg) (hfec : st.glFec = true)
    (hlen : pkgFecEncodeMinLen < len) :
    let worker := pickWorker st.sockApn (st.sequence + 1)
    let batch := fillBatch (encodedPacket st pkg len) (st.udpSbuf worker)
    let r := sendPacket st codec pkg len
    r.st.udpSbuf worker = batch.packet ∧ r.stores = some (worker, batch.stores) ∧
      r.pkg = { encodedPacket st pkg len with hdr := batch.hdr } := by
  have hrs : (fillHeader st pkg.hdr len).fecRs ≠ 0 := (fillHeader_fecRs _ _ _).2 ⟨hfec, hlen⟩
  unfold sendPacket
  simp only [if_pos hrs, encodePayload_eq, if_true, storeBatch_self, encodedPacket, and_self]

/-- Every open path takes a copy, under its own number. -/
theorem sendPacket_direct {i : Fin udpWorker} {d : List u8}
    (hfec : ¬ (st.glFec = true ∧ pkgFecEncodeMinLen < len)) :
    (i, d) ∈ (sendPacket st codec pkg len).sent ↔ 0 < st.sockApn i ∧
      d = (TunPkg.bytes ⟨sentHeader st pkg len i, pkg.payload⟩).take
        (pktOffset + (BitVec.ofNat 16 len).toNat) := by
  have hrs : ¬ (fillHeader st pkg.hdr len).fecRs ≠ 0 := mt (fillHeader_fecRs _ _ _).1 hfec
  unfold sendPacket
  dsimp only
  rw [if_neg hrs]
  simp only [List.mem_map, List.mem_filter, List.mem_finRange, true_and, decide_eq_true_eq,
    Prod.mk.injEq]
  constructor
  · rintro ⟨j, hj, rfl, rfl⟩
    exact ⟨hj, rfl⟩
  · rintro ⟨hi, rfl⟩
    exact ⟨i, hi, rfl, rfl⟩

end Uctun

end ConfigEnv.TunVpn
