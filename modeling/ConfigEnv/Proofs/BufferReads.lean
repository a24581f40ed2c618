/-
Module: ConfigEnv.Proofs.BufferReads
Layer: Proofs
Purpose: What a receiver thread looks at. Behind a datagram the receive buffer holds what an
  earlier, longer one left there. The loop asks for the eight bytes of the header only; the
  connection table reads the first byte of the packet and, in version 4, the addresses up to byte
  19, and a shard is copied in full whatever its length. A datagram long enough for what its own
  bytes make the server read is handled by its own bytes, and no other one is.
Trusted boundary: none
Main exports: PkgHeader.reads, ipVersion_reads, connHashCal_reads, rowOfMem_reads, OwnBytesOnly,
  ReadsInside, own_bytes_only_iff
Open obligations: none
-/
import ConfigEnv.Lib.Memory
import ConfigEnv.Proofs.ConnTable
import ConfigEnv.Proofs.Receive

namespace ConfigEnv.TunVpn

open Machine Memory

/-! ### The readers -/

section Readers

/-- The header is read from the bytes in front of the payload. -/
theorem PkgHeader.reads : ReadsBelow (0 : u8) pktOffset PkgHeader.ofBytes := by
  intro m m' h
  have hbyte : ∀ k < 8, m.getD k 0 = m'.getD k 0 := h
  simp only [PkgHeader.ofBytes, hbyte 0 (by decide), hbyte 1 (by decide), hbyte 2 (by decide),
    hbyte 3 (by decide), hbyte 4 (by decide), hbyte 5 (by decide), hbyte 6 (by decide),
    hbyte 7 (by decide)]

/-- The version of a packet is read from its first byte. -/
theorem ipVersion_reads : ReadsBelow (0 : u8) 1 ipVersion :=
  (ReadsBelow.getD Nat.zero_lt_one).map fun b : u8 => (b >>> 4) &&& 0x0F

theorem load32_reads (off : Nat) : ReadsBelow (0 : u8) (off + 4) fun m => load32 m off := by
  have hbyte : ∀ k, k < 4 → ReadsBelow (0 : u8) (off + 4) fun m => m.getD (off + k) 0 :=
    fun k hk => ReadsBelow.getD (by omega)
  have hhigh := (hbyte 3 (by decide)).map₂ (hbyte 2 (by decide)) fun a b : u8 => a ++ b
  exact (hhigh.map₂ (hbyte 1 (by decide)) fun a (b : u8) => a ++ b).map₂ (hbyte 0 (by decide))
    fun a (b : u8) => a ++ b

/-- The addresses of a version 4 header end at byte 19. -/
theorem connHashCal_reads : ReadsBelow (0 : u8) 20 connHashCal :=
  ((load32_reads 12).mono (by decide)).map₂ (load32_reads 16) fun srcIp dstIp =>
    ({ srcIp := srcIp, dstIp := dstIp, hashVal := srcIp + dstIp } : ConnKey)

theorem rowOfMem_reads : ReadsBelow (0 : u8) fecRsT rowOfMem :=
  ReadsBelow.pi fun k => ReadsBelow.getD k.isLt

/-- An update reads the addresses of version 4 packets. -/
theorem updateConnTable_reads (conns : List ConnEntry) (ts : Int) (alloc : Bool) (gatewayId : u8) :
    ReadsBelow (0 : u8) 20 (updateConnTable conns ts alloc gatewayId) := by
  intro m m' h
  have hversion : ipVersion m = ipVersion m' := ipVersion_reads m m' (h.mono (by decide))
  have hkey : connHashCal m = connHashCal m' := connHashCal_reads m m' h
  simp only [updateConnTable, hversion, hkey]

/-- A packet of another version is not looked at further. -/
theorem updateConnTable_other {ipPacket : List u8} (hv4 : ipVersion ipPacket ≠ 4)
    (conns : List ConnEntry) (ts : Int) (alloc : Bool) (gatewayId : u8) :
    updateConnTable conns ts alloc gatewayId ipPacket = conns :=
  if_pos hv4

/-- A call of `fec_recv_done` takes the header and one row from the message. -/
theorem fecRecvDone_congr {msg msg' : TunPkg} (hhdr : msg.hdr = msg'.hdr)
    (hrow : rowOfMem msg.payload = rowOfMem msg'.payload) (slot : FecSlot) (ts : Int) (seq : u16)
    (codec : FecCodec) :
    fecRecvDone slot ts seq msg codec = fecRecvDone slot ts seq msg' codec := by
  unfold fecRecvDone FecSlot.addShard
  simp only [hhdr, hrow]

end Readers

/-! ### One message -/

/-- The same header, the same row if it is a shard, and the same bytes as far as they were received:
the message is handled in the same way. -/
theorem deliver_same {msg msg' : TunPkg} (hhdr : msg.hdr = msg'.hdr)
    (hfec : msg.hdr.fecRs = 0 ∨ msg.hdr.fecIdx.toNat < shardCount ∧
      rowOfMem msg.payload = rowOfMem msg'.payload) {plen : Nat}
    (hbytes : msg.payload.take plen = msg'.payload.take plen) (st : RecvState)
    (worker : Fin udpWorker) (ts : Int) :
    ∃ st' out out', deliver st worker ts msg plen = .ok (st', out) ∧
      deliver st worker ts msg' plen = .ok (st', out') ∧
      out.map TunWrite.bytes = out'.map TunWrite.bytes := by
  by_cases hrs : msg.hdr.fecRs = 0
  · have hother : deliver st worker ts msg' plen = _ := deliver_filter (hhdr ▸ hrs)
    rw [← hhdr] at hother
    refine ⟨_, _, _, deliver_filter hrs, hother, ?_⟩
    cases (isDuplicate st.dedup ts msg.hdr.seq).2 with
    | true => rfl
    | false => exact congrArg some hbytes
  · obtain ⟨hidx, hrow⟩ := hfec.resolve_left hrs
    obtain ⟨r, hr⟩ :=
      fecRecvDone_ok hidx (st.fec (slotIdx msg.hdr.seq)) ts msg.hdr.seq (st.codec worker)
    refine ⟨_, _, _, (deliver_slot hrs).2 ⟨r, hr, rfl, rfl⟩,
      (deliver_slot (hhdr ▸ hrs)).2 ⟨r, ?_, ?_, rfl⟩, rfl⟩
    · rw [← hr, ← hhdr]
      exact (fecRecvDone_congr hhdr hrow _ ts _ _).symm
    · rw [hhdr]

namespace Ustun

/-- The message `d`, with `rest` behind it in its slot of `udp_rbuf`. -/
def Rx.holding (rx : Rx) (d rest : List u8) : Rx :=
  { rx with msg := { buffer := d ++ rest, msgLen := d.length } }

section Holding

variable {sv : Server} {rx : Rx} {d rest rest' : List u8} {n : Nat}

/-- What follows the header changes nothing in it. -/
theorem ofBytes_append (hlen : pktOffset ≤ d.length) :
    PkgHeader.ofBytes (d ++ rest) = PkgHeader.ofBytes d :=
  PkgHeader.reads _ _ ((Agree.append_nil 0 d rest).mono hlen)

theorem holding_hdr (hlen : pktOffset ≤ d.length) :
    (rx.holding d rest).pkg.hdr = PkgHeader.ofBytes d :=
  ofBytes_append hlen

/-- The payloads of two receptions of one datagram agree on its bytes. -/
theorem holding_agree (hn : pktOffset + n ≤ d.length) :
    Agree 0 n (rx.holding d rest).pkg.payload (rx.holding d rest').pkg.payload :=
  ((Agree.append 0 d rest rest').mono hn).drop

/-- Whether a datagram is taken depends on its own bytes only. -/
theorem accepts_holding :
    accepts (rx.holding d rest).msg = accepts { buffer := d, msgLen := d.length } := by
  by_cases hlen : pktOffset ≤ d.length
  · have hhdr : (TunPkg.ofBytes (d ++ rest)).hdr = (TunPkg.ofBytes d).hdr :=
      ofBytes_append hlen
    simp only [accepts, Rx.holding, hhdr]
  · have hshort : d.length < pktOffset := not_le.1 hlen
    simp only [accepts, Rx.holding, hshort, true_or, not_true_eq_false, decide_false]

theorem holding_bytes (hlen : pktOffset ≤ d.length) :
    (rx.holding d rest).pkg.payload.take (d.length - pktOffset) = d.drop pktOffset := by
  change ((d ++ rest).drop pktOffset).take (d.length - pktOffset) = d.drop pktOffset
  rw [List.drop_append_of_le_length hlen, ← List.length_drop, List.take_left]

/-- The first part of the loop body takes the header and what the connection table reads. -/
theorem learn_holding (hlen : pktOffset ≤ d.length)
    (hconns : ∀ conns ts alloc gatewayId,
      updateConnTable conns ts alloc gatewayId (rx.holding d rest).pkg.payload =
        updateConnTable conns ts alloc gatewayId (rx.holding d rest').pkg.payload) :
    sv.learn (rx.holding d rest) = sv.learn (rx.holding d rest') := by
  have hhdr : (rx.holding d rest).pkg.hdr = (rx.holding d rest').pkg.hdr :=
    (holding_hdr hlen).trans (holding_hdr hlen).symm
  unfold Server.learn Rx.starts Rx.gateway
  rw [hhdr]
  dsimp only
  rw [hconns]
  rfl

end Holding

/-! ### Datagrams that are long enough -/

/-- The datagram is handled by its own bytes: whatever is behind them in the buffer, the server gets
to the same state and writes the same bytes. -/
def OwnBytesOnly (sv : Server) (rx : Rx) (d : List u8) : Prop :=
  ∀ rest rest', rest.length = bufferSize - d.length → rest'.length = bufferSize - d.length →
    ∃ sv' out out', receiverStep sv (rx.holding d rest) = .ok (sv', out) ∧
      receiverStep sv (rx.holding d rest') = .ok (sv', out') ∧
      out.map TunWrite.bytes = out'.map TunWrite.bytes

/-- A datagram that passes the filter has the addresses of a version 4 packet, or the first byte of
another one; and a shard has a row to go to, and the bytes of a row. -/
def ReadsInside (d : List u8) : Prop :=
  accepts { buffer := d, msgLen := d.length } = true →
    (pktOffset + 20 ≤ d.length ∨ pktOffset < d.length ∧ ipVersion (d.drop pktOffset) ≠ 4) ∧
    ((PkgHeader.ofBytes d).fecRs = 0 ∨
      (PkgHeader.ofBytes d).fecIdx.toNat < shardCount ∧ pktOffset + fecRsT ≤ d.length)

instance (d : List u8) : Decidable (ReadsInside d) := inferInstanceAs (Decidable (_ → _))

section Sufficient

variable {sv : Server} {rx : Rx} {d rest rest' : List u8}

/-- The connection table reads the same in both buffers. -/
theorem updateConnTable_holding
    (h : pktOffset + 20 ≤ d.length ∨
      pktOffset < d.length ∧ ipVersion (d.drop pktOffset) ≠ 4)
    (conns : List ConnEntry) (ts : Int) (alloc : Bool) (gatewayId : u8) :
    updateConnTable conns ts alloc gatewayId (rx.holding d rest).pkg.payload =
      updateConnTable conns ts alloc gatewayId (rx.holding d rest').pkg.payload := by
  rcases h with hlong | ⟨hlen, hv4⟩
  · exact updateConnTable_reads conns ts alloc gatewayId _ _ (holding_agree hlong)
  · have hversion : ∀ rest, ipVersion (rx.holding d rest).pkg.payload ≠ 4 := by
      intro rest
      have hagree : Agree 0 1 ((d ++ rest).drop pktOffset) (d.drop pktOffset) :=
        ((Agree.append_nil 0 d rest).mono hlen).drop
      have hsame : ipVersion (rx.holding d rest).pkg.payload = ipVersion (d.drop pktOffset) :=
        ipVersion_reads _ _ hagree
      rw [hsame]
      exact hv4
    rw [updateConnTable_other (hversion rest), updateConnTable_other (hversion rest')]

theorem accepts_length (hacc : accepts { buffer := d, msgLen := d.length } = true) :
    pktOffset ≤ d.length := by
  by_contra hlen
  have hshort : d.length < pktOffset := not_le.1 hlen
  simp only [accepts, hshort, true_or, not_true_eq_false, decide_false] at hacc
  cases hacc

/-- A datagram that is long enough is handled by its own bytes, in every state. -/
theorem ownBytesOnly_of_readsInside (h : ReadsInside d) : OwnBytesOnly sv rx d := by
  intro rest rest' _ _
  by_cases hacc : accepts { buffer := d, msgLen := d.length } = true
  · obtain ⟨hconn, hfec⟩ := h hacc
    have hlen := accepts_length hacc
    have hlearn : sv.learn (rx.holding d rest) = sv.learn (rx.holding d rest') :=
      learn_holding hlen (updateConnTable_holding hconn)
    have hhdr : (rx.holding d rest).pkg.hdr = (rx.holding d rest').pkg.hdr :=
      (holding_hdr hlen).trans (holding_hdr hlen).symm
    have hrow : (rx.holding d rest).pkg.hdr.fecRs = 0 ∨
        (rx.holding d rest).pkg.hdr.fecIdx.toNat < shardCount ∧
          rowOfMem (rx.holding d rest).pkg.payload = rowOfMem (rx.holding d rest').pkg.payload := by
      rw [holding_hdr hlen]
      rcases hfec with hplain | ⟨hidx, hlong⟩
      · exact .inl hplain
      · exact .inr ⟨hidx, rowOfMem_reads _ _ (holding_agree hlong)⟩
    have hbytes : (rx.holding d rest).pkg.payload.take (d.length - pktOffset) =
        (rx.holding d rest').pkg.payload.take (d.length - pktOffset) :=
      (holding_bytes hlen).trans (holding_bytes hlen).symm
    obtain ⟨st', out, out', hdeliver, hdeliver', hout⟩ :=
      deliver_same hhdr hrow hbytes (sv.learn (rx.holding d rest)).recv rx.worker rx.clock.recv
    refine ⟨{ sv.learn (rx.holding d rest) with recv := st' }, out, out', ?_, ?_, hout⟩
    · exact (receiverStep_accepted (accepts_holding.trans hacc)).2 ⟨st', hdeliver, rfl⟩
    · refine (receiverStep_accepted (accepts_holding.trans hacc)).2 ⟨st', ?_, ?_⟩
      · rw [hlearn] at hdeliver'
        exact hdeliver'
      · rw [hlearn]
  · refine ⟨sv, none, none, ?_, ?_, rfl⟩
    · exact receiverStep_rejected (by rwa [accepts_holding])
    · exact receiverStep_rejected (by rwa [accepts_holding])

end Sufficient

/-! ### Datagrams that are not -/

section Necessary

variable {d : List u8}

/-- Every byte behind the datagram is `b`. -/
def filler (d : List u8) (b : u8) : List u8 := List.replicate (bufferSize - d.length) b

/-- A message at time 0, with `malloc` succeeding. -/
def probe : Rx :=
  { worker := 0, clock := { init := 0, gateway := 0, conn := 0, recv := 0 }
    allocGateway := true, allocConn := true, addr := { addr := 1, port := 1 }
    msg := { buffer := [], msgLen := 0 } }

/-- A server before its first message. -/
abbrev freshServer : Server := start false (fun _ => 0) 0

/-- Past the datagram the message reads the filler. -/
theorem filler_getD {b : u8} {k : Nat} (hk : d.length ≤ pktOffset + k)
    (hmax : pktOffset + k < bufferSize) (hd : d.length ≤ bufferSize) :
    (probe.holding d (filler d b)).pkg.payload.getD k 0 = b := by
  change ((d ++ filler d b).drop pktOffset).getD k 0 = b
  rw [List.getD_eq_getElem?_getD, List.getElem?_drop, List.getElem?_append_right hk, filler,
    List.getElem?_replicate_of_lt (by omega)]
  rfl

/-- Handling the datagram by its own bytes, from the start. -/
theorem own_start (h : OwnBytesOnly freshServer probe d)
    (hacc : accepts { buffer := d, msgLen := d.length } = true) (b b' : u8) :
    ∃ st' out out',
      deliver (freshServer.learn (probe.holding d (filler d b))).recv 0 0
        (probe.holding d (filler d b)).pkg (d.length - pktOffset) = .ok (st', out) ∧
      deliver (freshServer.learn (probe.holding d (filler d b'))).recv 0 0
        (probe.holding d (filler d b')).pkg (d.length - pktOffset) = .ok (st', out') ∧
      (freshServer.learn (probe.holding d (filler d b))).conns =
        (freshServer.learn (probe.holding d (filler d b'))).conns := by
  obtain ⟨sv', out, out', hstep, hstep', -⟩ :=
    h (filler d b) (filler d b') List.length_replicate List.length_replicate
  obtain ⟨st1, hdeliver, rfl⟩ := (receiverStep_accepted (accepts_holding.trans hacc)).1 hstep
  obtain ⟨st2, hdeliver', hsv⟩ := (receiverStep_accepted (accepts_holding.trans hacc)).1 hstep'
  have hrecv : st1 = st2 := congrArg Server.recv hsv
  have hconns := congrArg Server.conns hsv
  exact ⟨st1, out, out', hdeliver, hrecv ▸ hdeliver', hconns⟩

/-- The table after the first message. -/
theorem first_conns (b : u8) :
    (freshServer.learn (probe.holding d (filler d b))).conns =
      updateConnTable [] 0 true (probe.holding d (filler d b)).gateway
        (probe.holding d (filler d b)).pkg.payload :=
  learn_conns freshServer _

theorem updateConnTable_first {ipPacket : List u8} (hv4 : ipVersion ipPacket = 4) (ts : Int)
    (gatewayId : u8) :
    updateConnTable [] ts true gatewayId ipPacket =
      [{ key := connHashCal ipPacket, gatewayId := gatewayId, lastUsed := ts }] :=
  if_neg (not_not.2 hv4)

/-- The last byte of the addresses. -/
theorem dstIp_last (ipPacket : List u8) :
    (connHashCal ipPacket).dstIp.extractLsb' 24 8 = ipPacket.getD 19 0 := by
  change (load32 ipPacket 16).extractLsb' 24 8 = ipPacket.getD 19 0
  unfold load32
  rw [BitVec.extractLsb'_append_eq_of_le (by decide),
    BitVec.extractLsb'_append_eq_of_le (by decide), BitVec.extractLsb'_append_eq_of_le (by decide)]
  exact BitVec.extractLsb'_eq_self

/-- Without a byte of the packet its version is that of the filler. -/
theorem filler_version (b : u8) (hd : d.length = pktOffset) :
    ipVersion (probe.holding d (filler d b)).pkg.payload = (b >>> 4) &&& 0x0F := by
  unfold ipVersion
  rw [filler_getD (by omega) (by decide) (by rw [hd]; decide)]

/-- With one it is the version of the packet. -/
theorem packet_version (b : u8) (hd : pktOffset < d.length) :
    ipVersion (probe.holding d (filler d b)).pkg.payload = ipVersion (d.drop pktOffset) :=
  ipVersion_reads _ _ ((Agree.append_nil 0 d (filler d b)).mono hd).drop

/-- What the connection table reads lies inside the datagram. -/
theorem addresses_inside (hd : d.length ≤ bufferSize) (h : OwnBytesOnly freshServer probe d)
    (hacc : accepts { buffer := d, msgLen := d.length } = true) :
    pktOffset + 20 ≤ d.length ∨ pktOffset < d.length ∧ ipVersion (d.drop pktOffset) ≠ 4 := by
  have hlen := accepts_length hacc
  have htables : ∀ b b', (freshServer.learn (probe.holding d (filler d b))).conns =
      (freshServer.learn (probe.holding d (filler d b'))).conns := by
    intro b b'
    obtain ⟨-, -, -, -, -, hconns⟩ := own_start h hacc b b'
    exact hconns
  by_contra hnone
  obtain ⟨hshort, hfirst⟩ := not_or.1 hnone
  rcases Nat.lt_or_eq_of_le hlen with hlt | heq
  · -- the first byte says version 4, and the addresses are read from the filler
    have hv4 : ipVersion (d.drop pktOffset) = 4 := by
      by_contra hother
      exact hfirst ⟨hlt, hother⟩
    have hconns := htables 0 1
    rw [first_conns, first_conns, updateConnTable_first ((packet_version 0 hlt).trans hv4),
      updateConnTable_first ((packet_version 1 hlt).trans hv4)] at hconns
    have hkey := congrArg ConnEntry.key (List.cons.inj hconns).1
    have hbyte := congrArg (fun key => key.dstIp.extractLsb' 24 8) hkey
    simp only [dstIp_last] at hbyte
    rw [filler_getD (by omega) (by decide) hd, filler_getD (by omega) (by decide) hd] at hbyte
    exact absurd hbyte (by decide)
  · -- the first byte is read from the filler
    have hv4 : ipVersion (probe.holding d (filler d 0x45)).pkg.payload = 4 := by
      rw [filler_version 0x45 heq.symm]
      decide
    have hother : ipVersion (probe.holding d (filler d 0)).pkg.payload ≠ 4 := by
      rw [filler_version 0 heq.symm]
      decide
    have hconns := htables 0x45 0
    rw [first_conns, first_conns, updateConnTable_first hv4, updateConnTable_other hother] at hconns
    cases hconns

/-- A first shard finds a slot that counts nothing. -/
theorem claim_cnt_first (rx : Rx) (c : Fin seqMapSize) (seq plen : u16) :
    (((freshServer.learn rx).recv.fec c).claim seq plen).cnt = 0#8 := by
  have hcnt : ((freshServer.learn rx).recv.fec c).cnt = 0#8 := by
    rcases learn_recv freshServer rx with hrecv | hrecv
    · rw [hrecv]
      rfl
    · rw [hrecv]
      rfl
  unfold FecSlot.claim
  split
  · rfl
  · exact hcnt

/-- It is stored, if it has a row to go to. -/
theorem first_shard_stored {rx : Rx} {st' : RecvState} {out : Option TunWrite} {plen : Nat}
    (hrs : rx.pkg.hdr.fecRs ≠ 0)
    (hdeliver : deliver (freshServer.learn rx).recv 0 0 rx.pkg plen = .ok (st', out)) :
    ∃ hidx : rx.pkg.hdr.fecIdx.toNat < shardCount,
      (st'.fec (slotIdx rx.pkg.hdr.seq)).buf ⟨_, hidx⟩ = rowOfMem rx.pkg.payload := by
  obtain ⟨r, hr, rfl, -⟩ := (deliver_slot hrs).1 hdeliver
  have hcnt := claim_cnt_first rx (slotIdx rx.pkg.hdr.seq) rx.pkg.hdr.seq rx.pkg.hdr.plen
  by_cases hidx : rx.pkg.hdr.fecIdx.toNat < shardCount
  · rw [fecRecvDone_store hcnt hidx] at hr
    cases hr
    refine ⟨hidx, ?_⟩
    rw [afterShard_same]
    exact Function.update_self _ _ _
  · have htakes : (((freshServer.learn rx).recv.fec (slotIdx rx.pkg.hdr.seq)).claim rx.pkg.hdr.seq
        rx.pkg.hdr.plen).cnt.toNat < fecRsK := by
      rw [hcnt]
      decide
    rw [fecRecvDone_fault htakes hidx] at hr
    cases hr

/-- A shard has a row to go to, and brings the bytes of a row. -/
theorem shard_inside (hd : d.length ≤ bufferSize) (h : OwnBytesOnly freshServer probe d)
    (hacc : accepts { buffer := d, msgLen := d.length } = true) :
    (PkgHeader.ofBytes d).fecRs = 0 ∨
      (PkgHeader.ofBytes d).fecIdx.toNat < shardCount ∧ pktOffset + fecRsT ≤ d.length := by
  have hlen := accepts_length hacc
  have hhdr : ∀ b, (probe.holding d (filler d b)).pkg.hdr = PkgHeader.ofBytes d :=
    fun b => holding_hdr hlen
  by_cases hrs : (PkgHeader.ofBytes d).fecRs = 0
  · exact .inl hrs
  · obtain ⟨st', out, out', hdeliver, hdeliver', -⟩ := own_start h hacc 0 1
    obtain ⟨hidx, hrow⟩ := first_shard_stored ((hhdr 0).symm ▸ hrs) hdeliver
    obtain ⟨hidx', hrow'⟩ := first_shard_stored ((hhdr 1).symm ▸ hrs) hdeliver'
    simp only [hhdr] at hidx hrow hrow'
    refine .inr ⟨hidx, ?_⟩
    -- the two rows are the same, so the last byte of a row is not read from the filler
    by_contra hshort
    have hbyte := congrFun (hrow.symm.trans hrow') ⟨749, by decide⟩
    have hbyte' : (probe.holding d (filler d 0)).pkg.payload.getD 749 0 =
        (probe.holding d (filler d 1)).pkg.payload.getD 749 0 := hbyte
    simp only [pktOffset, fecRsT, not_le] at hshort
    rw [filler_getD (by simp only [pktOffset]; omega) (by decide) hd,
      filler_getD (by simp only [pktOffset]; omega) (by decide) hd] at hbyte'
    exact absurd hbyte' (by decide)

end Necessary

/-- A datagram is handled by its own bytes in every reachable state if and only if what it makes the
server read lies inside it. -/
theorem own_bytes_only_iff (d : List u8) (hd : d.length ≤ bufferSize) :
    (∀ glFec udpSock ts t sv rx, Run machine (start glFec udpSock ts) t sv →
      OwnBytesOnly sv rx d) ↔ ReadsInside d := by
  constructor
  · intro h hacc
    have hstart := h false (fun _ => 0) 0 [] freshServer probe (.nil freshServer)
    exact ⟨addresses_inside hd hstart hacc, shard_inside hd hstart hacc⟩
  · intro h glFec udpSock ts t sv rx _
    exact ownBytesOnly_of_readsInside h

/-- A header without FEC, and an IPv4 header from `10.0.0.1` to `10.0.0.4`. -/
def wholeDatagram : List u8 := [0x5A, 0, 1, 1, 0, 0, 0, 20] ++ flowPacket 1 4

theorem own_bytes_only_whole : OwnBytesOnly freshServer probe wholeDatagram :=
  (own_bytes_only_iff wholeDatagram (by decide)).2 (by decide) false (fun _ => 0) 0 [] freshServer
    probe (.nil freshServer)

/-- The same header, and the first byte of an IPv4 header. -/
def cutDatagram : List u8 := [0x5A, 0, 1, 1, 0, 0, 0, 1, 0x45]

/-- The addresses of the entry that it makes are those of whatever came before it. -/
theorem own_bytes_only_cut :
    cutDatagram.length ≤ bufferSize ∧
      ¬ ∀ glFec udpSock ts t sv rx, Run machine (start glFec udpSock ts) t sv →
        OwnBytesOnly sv rx cutDatagram := by
  refine ⟨by decide, fun h => ?_⟩
  have hstart := h false (fun _ => 0) 0 [] freshServer probe (.nil freshServer)
  exact absurd (addresses_inside (by decide) hstart (by decide)) (by decide)

end Ustun

end ConfigEnv.TunVpn
