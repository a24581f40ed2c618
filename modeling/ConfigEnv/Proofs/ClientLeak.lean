/-
Module: ConfigEnv.Proofs.ClientLeak
Layer: Proofs
Purpose: What a datagram of the client tells about earlier packets, and both senders together. The
  FEC branch of the client also sends `packet[1]` of the batch as it finds it. In the batch of
  worker 0 nothing is ever stored there; in that of worker 1 it holds the parity of the last FEC
  packet that worker 0 has sent, because that worker's last store goes there. The sequence number
  comes round after 65536 packets, so every state has histories with other packets behind it.
Trusted boundary: none
Main exports: Uctun.payloads, Uctun.SameSender, Uctun.payloadsIndependent_iff,
  payloads_independent_iff, payloads_show_buffer
Open obligations: none
-/
import ConfigEnv.Proofs.SendLeak
import ConfigEnv.TunVpn.ClientCalls

namespace ConfigEnv.TunVpn

open Machine

namespace Uctun

/-! ### One call of `send_packet` -/

section Send

variable {st : Sender} {codec : FecCodec} {pkg : TunPkg} {p old data : List u8} {len : Nat}

/-- The packet goes to the FEC branch. -/
def Sender.usesFec (st : Sender) (len : Nat) : Prop :=
  st.glFec = true ∧ pkgFecEncodeMinLen < len

/-- The worker of the next FEC packet. -/
def Sender.nextWorker (st : Sender) : Fin udpWorker := pickWorker st.sockApn (st.sequence + 1)

/-- The statics after a call. -/
theorem sendPacket_static (st : Sender) (codec : FecCodec) (pkg : TunPkg) (len : Nat) :
    let r := sendPacket st codec pkg len
    r.st.glFec = st.glFec ∧ r.st.sockApn = st.sockApn ∧ r.st.sequence = st.sequence + 1 := by
  unfold sendPacket
  simp only [encodePayload_eq, if_true]
  split
  · exact ⟨rfl, rfl, rfl⟩
  · exact ⟨rfl, rfl, rfl⟩

/-- The batches after a call of the FEC branch. -/
theorem sendPacket_batches (codec : FecCodec) (pkg : TunPkg) (hfec : st.usesFec len) :
    (sendPacket st codec pkg len).st.udpSbuf =
      storeBatch st.udpSbuf st.nextWorker
        (fillBatch (encodedPacket st pkg len) (st.udpSbuf st.nextWorker)).packet := by
  have hrs : (fillHeader st pkg.hdr len).fecRs ≠ 0 := (fillHeader_fecRs _ _ _).2 hfec
  unfold sendPacket
  simp only [if_pos hrs, encodePayload_eq, if_true]
  rfl

/-- The other branch leaves the batches alone. -/
theorem sendPacket_plain_batches (codec : FecCodec) (pkg : TunPkg) (hfec : ¬ st.usesFec len) :
    (sendPacket st codec pkg len).st.udpSbuf = st.udpSbuf := by
  have hrs : ¬ (fillHeader st pkg.hdr len).fecRs ≠ 0 := mt (fillHeader_fecRs _ _ _).1 hfec
  unfold sendPacket
  dsimp only
  rw [if_neg hrs]

/-- Encoding leaves the two data rows as they are. -/
theorem codewordRows_payload (payload : List u8) {k : Nat} (hk : k < fecRsK * fecRsT) :
    (fecFlat (codewordRows payload)).getD k 0 = payload.getD k 0 := by
  simp only [fecRsK, fecRsT] at hk
  let i : Fin shardCount := ⟨k / fecRsT, by simp only [shardCount, fecRsK, fecRsN, fecRsT]; omega⟩
  let j : Fin fecRsT := ⟨k % fecRsT, by simp only [fecRsT]; omega⟩
  have hplace : fecRsT * i.val + j.val = k := by
    simp only [i, j, fecRsT]
    omega
  have hdata : i ≠ 2 := by
    intro h
    have hval : k / fecRsT = 2 := congrArg Fin.val h
    simp only [fecRsT] at hval
    omega
  have hrow := congrFun (congrFun (fecBuf_fecFlat (codewordRows payload)) i) j
  rw [codewordRows_data payload hdata] at hrow
  unfold fecBuf at hrow
  rwa [hplace] at hrow

/-- The packet is left as it was, or holds the code word of its own bytes. -/
theorem sendPacket_payload_eq (st : Sender) (codec : FecCodec) (pkg : TunPkg) (len : Nat) :
    (sendPacket st codec pkg len).pkg.payload = fecFlat (codewordRows pkg.payload) ∨
      (sendPacket st codec pkg len).pkg.payload = pkg.payload := by
  by_cases hfec : st.usesFec len
  · obtain ⟨-, -, hpkg⟩ := sendPacket_fec codec pkg hfec.1 hfec.2
    simp only [hpkg, encodedPacket, true_or]
  · have hrs : ¬ (fillHeader st pkg.hdr len).fecRs ≠ 0 := mt (fillHeader_fecRs _ _ _).1 hfec
    unfold sendPacket
    dsimp only
    rw [if_neg hrs]
    dsimp only
    rcases ((List.finRange udpWorker).filter fun i => st.sockApn i > 0).getLast? with _ | i
    · exact .inr rfl
    · exact .inr rfl

/-- The data rows of the packet are left as they were. -/
theorem sendPacket_payload {k : Nat} (hk : k < fecRsK * fecRsT) :
    (sendPacket st codec pkg len).pkg.payload.getD k 0 = pkg.payload.getD k 0 := by
  rcases sendPacket_payload_eq st codec pkg len with h | h
  · rw [h]
    exact codewordRows_payload pkg.payload hk
  · rw [h]

/-- The datagrams of the FEC branch. -/
theorem sendPacket_fec_sent (hfec : st.usesFec len) :
    (sendPacket st codec pkg len).sent =
      [(st.nextWorker, (shardPacket (encodedPacket st pkg len) 0).bytes),
        (st.nextWorker, (st.udpSbuf st.nextWorker 1).bytes),
        (st.nextWorker, (shardPacket (encodedPacket st pkg len) 1).bytes)] := by
  have hrs : (fillHeader st pkg.hdr len).fecRs ≠ 0 := (fillHeader_fecRs _ _ _).2 hfec
  have hrange : List.range shardCount = [0, 1, 2] := rfl
  obtain ⟨h0, h1, h2⟩ := fillBatch_packet (encodedPacket st pkg len) (st.udpSbuf st.nextWorker)
  unfold sendPacket
  simp only [if_pos hrs, encodePayload_eq, if_true, hrange, List.map_cons, List.map_nil]
  rw [← h0, ← h1, ← h2]
  rfl

/-- The payload bytes of the datagrams that reach an open socket. -/
def payloads (sockApn : Fin udpWorker → Int) (sent : List (Fin udpWorker × List u8)) :
    List (List u8) :=
  (sent.filter fun d => 0 < sockApn d.1).map fun d => d.2.drop pktOffset

/-- Without FEC they are the packet itself, on every open path. -/
theorem payloads_direct (hp : p.length ≤ bufferSize) (hfec : ¬ st.usesFec p.length)
    (hpay : pkg.payload = tunRead old p) :
    payloads st.sockApn (sendPacket st codec pkg p.length).sent =
      ((List.finRange udpWorker).filter fun i => st.sockApn i > 0).map fun _ => p := by
  have hrs : ¬ (fillHeader st pkg.hdr p.length).fecRs ≠ 0 := mt (fillHeader_fecRs _ _ _).1 hfec
  unfold payloads sendPacket
  dsimp only
  rw [if_neg hrs]
  dsimp only
  rw [List.filter_eq_self.2, List.map_map]
  · apply List.map_congr_left
    intro i _
    rw [Function.comp_apply, plen_toNat hp, hpay, bytes_take]
    exact List.drop_left' (PkgHeader.length_toBytes _)
  · intro d hd
    obtain ⟨i, hi, rfl⟩ := List.mem_map.1 hd
    exact (List.mem_filter.1 hi).2

/-- With FEC they are the first row, what the batch held before, and the second row. -/
theorem payloads_fec (hfec : st.usesFec len) (hopen : 0 < st.sockApn st.nextWorker) :
    payloads st.sockApn (sendPacket st codec pkg len).sent =
      [List.ofFn (codewordRows pkg.payload 0), List.ofFn (st.udpSbuf st.nextWorker 1).buf,
        List.ofFn (codewordRows pkg.payload 1)] := by
  have hrow : ∀ i, (shardPacket (encodedPacket st pkg len) i).bytes.drop pktOffset =
      List.ofFn (codewordRows pkg.payload i) := by
    intro i
    rw [encodedPacket, shardPacket_bytes]
    exact List.drop_left' (PkgHeader.length_toBytes _)
  have hstale : (st.udpSbuf st.nextWorker 1).bytes.drop pktOffset =
      List.ofFn (st.udpSbuf st.nextWorker 1).buf :=
    List.drop_left' (PkgHeader.length_toBytes _)
  unfold payloads
  rw [sendPacket_fec_sent hfec, List.filter_eq_self.2]
  · simp only [List.map_cons, List.map_nil, hrow, hstale]
  · simp [hopen]

/-- A closed socket gets nothing. -/
theorem payloads_closed (hfec : st.usesFec len) (hclosed : ¬ 0 < st.sockApn st.nextWorker) :
    payloads st.sockApn (sendPacket st codec pkg len).sent = [] := by
  unfold payloads
  rw [sendPacket_fec_sent hfec, List.filter_eq_nil_iff.2]
  · rfl
  · simp [not_lt.1 hclosed]

end Send

/-! ### The batches of the two workers -/

section Batches

variable {udpSbuf : Fin udpWorker → Nat → UdpPacket} {packet : Nat → UdpPacket}

/-- A store to the batch of a worker leaves `packet[1]` of worker 0 alone, unless the loop does. -/
theorem storeBatch_first (worker : Fin udpWorker) (h : packet 1 = udpSbuf worker 1) :
    storeBatch udpSbuf worker packet 0 1 = udpSbuf 0 1 := by
  by_cases hw : worker = 0
  · subst hw
    rw [storeBatch_self, h]
  · have hother : (0 : Fin udpWorker) ≠ worker := Ne.symm hw
    simp only [storeBatch, if_neg hw, Function.update_of_ne hother, Function.update_self]
    rfl

/-- The last store of worker 0 reaches `packet[1]` of worker 1. -/
theorem storeBatch_second {k : Fin fecRsT} (hk : k.val < 504) :
    (storeBatch udpSbuf 0 packet 1 1).buf k = (packet 4).bytes.getD (254 + k) 0 := by
  have hother : (1 : Fin udpWorker) ≠ 0 := by decide
  have hlen : ((udpSbuf 1 0).bytes.take packetOverlap).length = packetOverlap := by
    rw [List.length_take, UdpPacket.length_bytes]
    rfl
  have hplace : udpPacketSize + (pktOffset + k.val) - packetOverlap = 254 + k.val := by
    simp only [udpPacketSize, pktOffset, fecRsT, packetOverlap]
    omega
  simp only [storeBatch, if_true, Function.update_of_ne hother, Function.update_self,
    UdpPacket.ofBytes]
  -- the place in the memory of both packets
  rw [List.append_assoc, List.getD_eq_getElem?_getD, List.getElem?_drop,
    ← List.getD_eq_getElem?_getD, List.getD_append_right, hlen, hplace, List.getD_append]
  · rw [UdpPacket.length_bytes]
    simp only [udpPacketSize, pktOffset, fecRsT]
    omega
  · rw [hlen]
    simp only [udpPacketSize, pktOffset, fecRsT, packetOverlap]
    omega

/-- The parity row is what worker 0 stores there. -/
theorem fillBatch_last (pkg : TunPkg) : (fillBatch pkg packet).packet 4 = shardPacket pkg 2 := by
  unfold fillBatch
  rw [fillLoop_packet]
  rfl

end Batches

/-! ### Two histories of one client -/

section Histories

variable {c c' : Client} {data : List u8} {codec : FecCodec} {glFec : Bool}
  {sockApn : Fin udpWorker → Int} {t : List (ClientCall × List (Fin udpWorker × List u8))}

/-- What a packet is sent by, apart from the buffers. -/
structure SameSender (st st' : Sender) : Prop where
  glFec : st.glFec = st'.glFec
  sequence : st.sequence = st'.sequence
  sockApn : st.sockApn = st'.sockApn

/-- The client after a packet. -/
def Client.after (c : Client) (data : List u8) (codec : FecCodec) : Client :=
  { st := (c.send data codec).st, pkg := (c.send data codec).pkg }

/-- A packet of one byte up to a whole buffer is a step of the client. -/
theorem packet_step (c : Client) (data : List u8) (codec : FecCodec) (hpos : 0 < data.length)
    (hmax : data.length ≤ bufferSize) :
    clientMachine c (.packet data codec) (c.send data codec).sent (c.after data codec) :=
  ⟨⟨hpos, hmax⟩, rfl⟩

/-- Packets of one byte move the sequence number, and nothing else that a packet is sent by. -/
theorem run_short (c : Client) (n : Nat) :
    ∃ t c', Run clientMachine c t c' ∧ c'.st.glFec = c.st.glFec ∧ c'.st.sockApn = c.st.sockApn ∧
      c'.st.sequence = c.st.sequence + BitVec.ofNat 16 n ∧ c'.st.udpSbuf = c.st.udpSbuf := by
  induction n with
  | zero => exact ⟨[], c, .nil c, rfl, rfl, (BitVec.add_zero _).symm, rfl⟩
  | succ n ih =>
      obtain ⟨t, c', hrun, hfec, hsock, hseq, hbuf⟩ := ih
      have hshort : ¬ c'.st.usesFec [(0 : u8)].length := fun h => absurd h.2 (by decide)
      obtain ⟨hfec', hsock', hseq'⟩ := sendPacket_static c'.st FecCodec.new (c'.reads [0]) 1
      refine ⟨_, c'.after [0] FecCodec.new, hrun.snoc (e := (.packet [0] FecCodec.new, _))
        (packet_step c' [0] FecCodec.new (by decide) (by decide)), ?_, ?_, ?_, ?_⟩
      · exact hfec'.trans hfec
      · exact hsock'.trans hsock
      · refine hseq'.trans ?_
        rw [hseq, BitVec.add_assoc, BitVec.ofNat_add]
        rfl
      · exact (sendPacket_plain_batches FecCodec.new (c'.reads [0]) hshort).trans hbuf

theorem overwrite_length (b : u8) : (overwrite b).length = bufferSize := List.length_replicate

/-- Every state has a history in which the buffer was full of one byte. -/
theorem history_filled (hrun : Run clientMachine (.start glFec sockApn) t c) (b : u8) :
    ∃ t' c', Run clientMachine (.start glFec sockApn) t' c' ∧ SameSender c.st c'.st ∧
      ∀ k < bufferSize, c'.pkg.payload.getD k 0 = b := by
  obtain ⟨t1, c1, hrun1, hfec, hsock, hseq, -⟩ := run_short c 65535
  have hlen := overwrite_length b
  have hstep := packet_step c1 (overwrite b) FecCodec.new (by rw [hlen]; decide)
    (by rw [hlen])
  obtain ⟨hfec', hsock', hseq'⟩ :=
    sendPacket_static c1.st FecCodec.new (c1.reads (overwrite b)) (overwrite b).length
  have hround : BitVec.ofNat 16 65535 + 1 = 0#16 := by decide
  refine ⟨_, _, (hrun.append hrun1).snoc (e := (.packet (overwrite b) FecCodec.new, _)) hstep,
    ⟨?_, ?_, ?_⟩, ?_⟩
  · exact (hfec'.trans hfec).symm
  · refine Eq.symm (hseq'.trans ?_)
    rw [hseq, BitVec.add_assoc, hround, BitVec.add_zero]
  · exact (hsock'.trans hsock).symm
  · intro k hk
    refine (sendPacket_payload hk).trans ?_
    exact overwrite_getD hk

/-- The parity of a full packet of one byte. -/
theorem codewordRows_overwrite (old : List u8) (b : u8) (k : Fin fecRsT) :
    codewordRows (tunRead old (overwrite b)) 2 k = b ^^^ gf28Mul 142 b := by
  have hlt := k.isLt
  have hfirst : fecRsT * 0 + k.val < bufferSize := by
    simp only [fecRsT, bufferSize] at hlt ⊢
    omega
  have hsecond : fecRsT * 1 + k.val < bufferSize := by
    simp only [fecRsT, bufferSize] at hlt ⊢
    omega
  have h0 : fecBuf (tunRead old (overwrite b)) 0 k = b := overwrite_getD hfirst
  have h1 : fecBuf (tunRead old (overwrite b)) 1 k = b := overwrite_getD hsecond
  unfold codewordRows
  rw [Function.update_self, h0, h1]

/-- After a full packet of worker 0 the batch of worker 1 holds its parity. -/
theorem spilled_batch (c : Client) (b : u8) (hfec : c.st.glFec = true)
    (hworker : c.st.nextWorker = 0) :
    ((c.after (overwrite b) FecCodec.new).st.udpSbuf 1 1).buf ⟨0, by decide⟩ =
      b ^^^ gf28Mul 142 b := by
  have hlen := overwrite_length b
  have huses : c.st.usesFec (overwrite b).length := ⟨hfec, by rw [hlen]; decide⟩
  have hbatch : (c.after (overwrite b) FecCodec.new).st.udpSbuf = _ :=
    sendPacket_batches FecCodec.new (c.reads (overwrite b)) huses
  rw [hbatch, hworker, storeBatch_second (by decide), fillBatch_last, encodedPacket,
    shardPacket_bytes, List.getD_append_right, PkgHeader.length_toBytes]
  · exact (ofFn_getD _ ⟨246, by decide⟩).trans (codewordRows_overwrite _ b _)
  · rw [PkgHeader.length_toBytes]
    decide

theorem Opened.close (h : Opened sockApn) (id : Fin udpWorker) :
    Opened (Function.update sockApn id (-1)) := by
  intro i
  by_cases hi : i = id
  · subst hi
    rw [Function.update_self]
    exact .inl rfl
  · rw [Function.update_of_ne hi]
    exact h i

/-- Worker 0 is open at first, and at the end the sockets are these. -/
theorem Opened.before (hopened : Opened sockApn) :
    ∃ sockApn₀, Opened sockApn₀ ∧ 0 < sockApn₀ 0 ∧
      (sockApn₀ = sockApn ∨ Function.update sockApn₀ 0 (-1) = sockApn) := by
  rcases hopened 0 with hclosed | hopen
  · refine ⟨Function.update sockApn 0 1, ?_, ?_, .inr ?_⟩
    · intro i
      by_cases hi : i = 0
      · subst hi
        rw [Function.update_self]
        exact .inr Int.one_pos
      · rw [Function.update_of_ne hi]
        exact hopened i
    · rw [Function.update_self]
      exact Int.one_pos
    · rw [Function.update_idem, ← hclosed, Function.update_eq_self]
  · exact ⟨sockApn, hopened, hopen, .inl rfl⟩

/-- The second packet goes out on worker 0, when that is open. -/
theorem Sender.nextWorker_second {st : Sender} (hseq : st.sequence = 1) (hopen : 0 < st.sockApn 0) :
    st.nextWorker = 0 := by
  have hup : ¬ st.sockApn (Fin.ofNat udpWorker 2) < 0 := not_lt.2 hopen.le
  unfold Sender.nextWorker pickWorker
  rw [hseq]
  exact if_neg hup

/-- Any sequence number and any sockets have a history in which worker 0 has sent a full packet. -/
theorem history_spilled (hopened : Opened sockApn) (seq : u16) (b : u8) :
    ∃ sockApn₀ t' c', Opened sockApn₀ ∧ Run clientMachine (.start true sockApn₀) t' c' ∧
      c'.st.glFec = true ∧ c'.st.sequence = seq ∧ c'.st.sockApn = sockApn ∧
      (c'.st.udpSbuf 1 1).buf ⟨0, by decide⟩ = b ^^^ gf28Mul 142 b := by
  obtain ⟨sockApn₀, hopened₀, hopen, hend⟩ := hopened.before
  -- one packet, so that worker 0 is the next one
  obtain ⟨t1, c1, hrun1, hfec1, hsock1, hseq1, -⟩ := run_short (.start true sockApn₀) 1
  have hnext : c1.st.nextWorker = 0 := by
    apply Sender.nextWorker_second
    · rw [hseq1]
      rfl
    · rwa [show c1.st.sockApn = sockApn₀ from hsock1]
  -- a full packet on it
  have hlen := overwrite_length b
  have hstep2 := packet_step c1 (overwrite b) FecCodec.new (by rw [hlen]; decide)
    (by rw [hlen])
  have hspilled := spilled_batch c1 b hfec1 hnext
  obtain ⟨hfec2, hsock2, hseq2⟩ :=
    sendPacket_static c1.st FecCodec.new (c1.reads (overwrite b)) (overwrite b).length
  -- and short ones up to the number
  obtain ⟨t3, c3, hrun3, hfec3, hsock3, hseq3, hbuf3⟩ :=
    run_short (c1.after (overwrite b) FecCodec.new) (seq.toNat + 65534)
  have hrun := (hrun1.snoc (e := (.packet (overwrite b) FecCodec.new, _)) hstep2).append hrun3
  have hfec : c3.st.glFec = true := hfec3.trans (hfec2.trans hfec1)
  have hsock : c3.st.sockApn = sockApn₀ := hsock3.trans (hsock2.trans hsock1)
  have hseq : c3.st.sequence = seq := by
    have hround : ∀ s : u16, (0 + 1#16 + 1) + (s + 65534#16) = s := by
      intro s
      bv_omega
    rw [hseq3, show (c1.after (overwrite b) FecCodec.new).st.sequence = _ from hseq2, hseq1,
      BitVec.ofNat_add, BitVec.ofNat_toNat, BitVec.setWidth_eq]
    exact hround seq
  rw [← hbuf3] at hspilled
  rcases hend with rfl | hclosed
  · exact ⟨sockApn₀, _, c3, hopened₀, hrun, hfec, hseq, hsock, hspilled⟩
  · have hclose : clientMachine c3 (.closeSock 0) []
        { c3 with st := { c3.st with sockApn := Function.update c3.st.sockApn 0 (-1) } } :=
      ⟨trivial, rfl⟩
    have hclosing := hrun.snoc (e := (.closeSock 0, [])) hclose
    refine ⟨sockApn₀, _, _, hopened₀, hclosing, hfec, hseq, ?_, hspilled⟩
    rw [← hclosed, ← hsock]

/-- Nothing is stored to `packet[1]` of worker 0, and the sockets stay open or become -1. -/
theorem run_first_batch (hrun : Run clientMachine (.start glFec sockApn) t c)
    (hopened : Opened sockApn) :
    c.st.udpSbuf 0 1 = { hdr := PkgHeader.zero, buf := fun _ => 0 } ∧ Opened c.st.sockApn := by
  apply hrun.invariant (fun q => q.st.udpSbuf 0 1 = { hdr := PkgHeader.zero, buf := fun _ => 0 } ∧
    Opened q.st.sockApn) ⟨rfl, hopened⟩
  rintro ⟨call, out⟩ _ q q' ⟨hbatch, hsock⟩ ⟨-, hstep⟩
  cases call with
  | packet data codec =>
      cases hstep
      obtain ⟨-, hsock', -⟩ := sendPacket_static q.st codec (q.reads data) data.length
      refine ⟨?_, hsock' ▸ hsock⟩
      by_cases huses : q.st.usesFec data.length
      · have hbatches := sendPacket_batches codec (q.reads data) huses
        refine (congrFun (congrFun hbatches 0) 1).trans ?_
        rw [storeBatch_first _ (fillBatch_packet _ _).2.1]
        exact hbatch
      · have hbatches := sendPacket_plain_batches codec (q.reads data) huses
        exact (congrFun (congrFun hbatches 0) 1).trans hbatch
  | closeSock id =>
      cases hstep
      exact ⟨hbatch, hsock.close id⟩

/-- The payloads of the packet are the same in every run that ends with the same statics. -/
def PayloadsIndependent (c : Client) (data : List u8) : Prop :=
  ∀ glFec sockApn t c', Opened sockApn → Run clientMachine (.start glFec sockApn) t c' →
    SameSender c.st c'.st → ∀ codec codec',
      payloads c.st.sockApn (c.send data codec).sent =
        payloads c'.st.sockApn (c'.send data codec').sent

/-- A packet goes to the FEC branch, and its worker has a socket. -/
def Sender.SendsFec (st : Sender) (len : Nat) : Prop :=
  st.usesFec len ∧ 0 < st.sockApn st.nextWorker

/-- Senders that agree choose the same worker. -/
theorem SameSender.nextWorker {st st' : Sender} (h : SameSender st st') :
    st.nextWorker = st'.nextWorker := by
  unfold Sender.nextWorker
  rw [h.sockApn, h.sequence]

/-- Senders that agree take the same branch. -/
theorem SameSender.usesFec {st st' : Sender} (h : SameSender st st') (len : Nat) :
    st.usesFec len ↔ st'.usesFec len := by
  unfold Sender.usesFec
  rw [h.glFec]

theorem SameSender.sendsFec {st st' : Sender} (h : SameSender st st') {len : Nat}
    (hsends : st.SendsFec len) : st'.SendsFec len := by
  refine ⟨(h.usesFec len).1 hsends.1, ?_⟩
  rw [← h.nextWorker, ← h.sockApn]
  exact hsends.2

/-- A packet that does not go to the FEC branch, or fills the rows and goes out on worker 0, shows
nothing of the ones before it. -/
theorem payloads_same (h : SameSender c.st c'.st) (hmax : data.length ≤ bufferSize)
    (hbatch : c.st.udpSbuf 0 1 = c'.st.udpSbuf 0 1)
    (hhides : ¬ c.st.SendsFec data.length ∨
      (fecRsK * fecRsT ≤ data.length ∧ c.st.nextWorker = 0)) (codec codec' : FecCodec) :
    payloads c.st.sockApn (c.send data codec).sent =
      payloads c'.st.sockApn (c'.send data codec').sent := by
  unfold Client.send
  by_cases huses : c.st.usesFec data.length
  · have huses' : c'.st.usesFec data.length := (h.usesFec _).1 huses
    by_cases hopen : 0 < c.st.sockApn c.st.nextWorker
    · have hopen' := (h.sendsFec ⟨huses, hopen⟩).2
      obtain ⟨hfull, hworker⟩ := hhides.resolve_left fun hno => hno ⟨huses, hopen⟩
      have hrows : codewordRows (c.reads data).payload = codewordRows (c'.reads data).payload :=
        codewordRows_reads _ _ ((tunRead_agree _ _ data).mono hfull)
      rw [payloads_fec huses hopen, payloads_fec huses' hopen', hrows, ← h.nextWorker, hworker,
        hbatch]
    · have hclosed' : ¬ 0 < c'.st.sockApn c'.st.nextWorker := by
        rw [← h.nextWorker, ← h.sockApn]
        exact hopen
      rw [payloads_closed huses hopen, payloads_closed huses' hclosed']
  · have huses' : ¬ c'.st.usesFec data.length := fun hno => huses ((h.usesFec _).2 hno)
    rw [payloads_direct hmax huses rfl, payloads_direct hmax huses' rfl, h.sockApn]

/-- Payloads that do not depend on the run are those of any run that ends with the same statics. -/
theorem PayloadsIndependent.eq (h : PayloadsIndependent c data) (hsends : c.st.SendsFec data.length)
    (hopened : Opened sockApn) (hrun : Run clientMachine (.start glFec sockApn) t c')
    (hsame : SameSender c.st c'.st) :
    payloads c.st.sockApn (c.send data FecCodec.new).sent =
      [List.ofFn (codewordRows (c'.reads data).payload 0),
        List.ofFn (c'.st.udpSbuf c'.st.nextWorker 1).buf,
        List.ofFn (codewordRows (c'.reads data).payload 1)] := by
  have hsends' := hsame.sendsFec hsends
  rw [h glFec sockApn t c' hopened hrun hsame FecCodec.new FecCodec.new]
  exact payloads_fec hsends'.1 hsends'.2

/-- The batch of worker 1 has two contents, so the packet does not go out on it. -/
theorem PayloadsIndependent.firstWorker (h : PayloadsIndependent c data)
    (hsends : c.st.SendsFec data.length) (hsock : Opened c.st.sockApn) :
    c.st.nextWorker = 0 := by
  by_contra hne
  have hworker : c.st.nextWorker = 1 := by
    have hlt := c.st.nextWorker.isLt
    have hval : c.st.nextWorker.val ≠ 0 := fun h0 => hne (Fin.ext h0)
    simp only [udpWorker] at hlt
    exact Fin.ext (by simp only [Fin.val_one]; omega)
  have hbyte : ∀ b : u8, (payloads c.st.sockApn (c.send data FecCodec.new).sent)[1]?.map
      (·.getD 0 0) = some (b ^^^ gf28Mul 142 b) := by
    intro b
    obtain ⟨sockApn', t', c', hopened', hrun', hfec', hseq', hsock', hspilled⟩ :=
      history_spilled hsock c.st.sequence b
    have hsame : SameSender c.st c'.st := ⟨hsends.1.1.trans hfec'.symm, hseq'.symm, hsock'.symm⟩
    rw [h.eq hsends hopened' hrun' hsame, ← hsame.nextWorker, hworker]
    exact congrArg some ((ofFn_getD _ ⟨0, by decide⟩).trans hspilled)
  exact absurd (Option.some.inj ((hbyte 0).symm.trans (hbyte 1))) (by decide)

/-- The end of the second row has two contents, so the packet fills both rows. -/
theorem PayloadsIndependent.fills (h : PayloadsIndependent c data)
    (hsends : c.st.SendsFec data.length) (hrun : Run clientMachine (.start glFec sockApn) t c)
    (hopened : Opened sockApn) : fecRsK * fecRsT ≤ data.length := by
  by_contra hfull
  obtain ⟨k, hk⟩ : ∃ k : Fin fecRsT, data.length ≤ fecRsT + k := by
    have hlong : pkgFecEncodeMinLen < data.length := hsends.1.2
    simp only [pkgFecEncodeMinLen, fecRsK, fecRsT] at hlong hfull
    refine ⟨⟨data.length - fecRsT, ?_⟩, ?_⟩
    · simp only [fecRsT]
      omega
    · dsimp only
      omega
  have hbyte : ∀ b : u8, (payloads c.st.sockApn (c.send data FecCodec.new).sent)[2]?.map
      (·.getD k 0) = some b := by
    intro b
    obtain ⟨t', c', hrun', hsame, hfilled⟩ := history_filled hrun b
    rw [h.eq hsends hopened hrun' hsame]
    have hplace : fecRsT + k.val < bufferSize := by
      have hlt := k.isLt
      simp only [fecRsT, bufferSize] at hlt ⊢
      omega
    have hstale : codewordRows (c'.reads data).payload 1 k = b := by
      rw [codewordRows_data _ (by decide)]
      change (tunRead c'.pkg.payload data).getD (fecRsT + k) 0 = b
      rw [tunRead_getD hk, hfilled _ hplace]
    exact congrArg some ((ofFn_getD _ k).trans hstale)
  exact absurd (Option.some.inj ((hbyte 0).symm.trans (hbyte 1))) (by decide)

/-- The payloads are the packet's own if and only if it is not padded with what is in the buffer,
and not sent with what is in the batch of worker 1. -/
theorem payloadsIndependent_iff (hrun : Run clientMachine (.start glFec sockApn) t c)
    (hopened : Opened sockApn) (hmax : data.length ≤ bufferSize) :
    PayloadsIndependent c data ↔
      ¬ c.st.SendsFec data.length ∨ (fecRsK * fecRsT ≤ data.length ∧ c.st.nextWorker = 0) := by
  obtain ⟨hfirst, hsock⟩ := run_first_batch hrun hopened
  constructor
  · intro h
    by_cases hsends : c.st.SendsFec data.length
    · exact .inr ⟨h.fills hsends hrun hopened, h.firstWorker hsends hsock⟩
    · exact .inl hsends
  · intro hhides glFec' sockApn' t' c' hopened' hrun' hsame codec codec'
    have hbatch := hfirst.trans (run_first_batch hrun' hopened').1.symm
    exact payloads_same hsame hmax hbatch hhides codec codec'

end Histories

end Uctun

/-! ### Both senders -/

/-- In every state that a run gets to, the datagrams of a packet show the packet only, if and only
if the packet is sent without FEC, or it fills the rows and goes out by the server or on the
client's worker 0. -/
theorem payloads_independent_iff (glFec : Bool) (ts₀ ts : Int)
    (t : List (Ustun.BufCall × List Ustun.Sent)) (b : Ustun.Buffered) (glFec' : Bool)
    (sockApn : Fin udpWorker → Int)
    (t' : List (Uctun.ClientCall × List (Fin udpWorker × List u8))) (c : Uctun.Client)
    (data : List u8) (hrun : Run Ustun.bufMachine (Ustun.Buffered.start glFec ts₀) t b)
    (hrun' : Run Uctun.clientMachine (Uctun.Client.start glFec' sockApn) t' c)
    (hopened : Uctun.Opened sockApn) (hpos : 0 < data.length) (hmax : data.length ≤ bufferSize)
    (hheader : 20 ≤ data.length ∨ ipVersion data ≠ 4) :
    (Ustun.PayloadsIndependent b data ts ↔
        ¬ b.SendsFec data ts ∨ fecRsK * fecRsT ≤ data.length) ∧
      (Uctun.PayloadsIndependent c data ↔
        ¬ c.st.SendsFec data.length ∨ (fecRsK * fecRsT ≤ data.length ∧ c.st.nextWorker = 0)) :=
  ⟨Ustun.payloadsIndependent_iff hrun hpos hheader,
    Uctun.payloadsIndependent_iff hrun' hopened hmax⟩

/-- Gateway 7 sends a packet to a server with FEC. -/
def gatewayCalls : List (Ustun.BufCall × List Ustun.Sent) :=
  [(.other (.updateGatewayMap 7 { addr := 1, port := 1 } 1 1 true), []),
    (.other (.updateConnTable 7 (flowPacket 1 4) 1 true), [])]

/-- The server after it. -/
def gatewayServer : Ustun.Buffered :=
  let b := Ustun.Buffered.start true 0
  (Ustun.bufStep
    (Ustun.bufStep b (.other (.updateGatewayMap 7 { addr := 1, port := 1 } 1 1 true))).1
    (.other (.updateConnTable 7 (flowPacket 1 4) 1 true))).1

theorem gatewayServer_run :
    Run Ustun.bufMachine (Ustun.Buffered.start true 0) gatewayCalls gatewayServer :=
  .cons ⟨trivial, rfl⟩ (.cons ⟨trivial, rfl⟩ (.nil gatewayServer))

/-- The server after it, when a full packet was read and dropped since. -/
def usedServer : Ustun.Buffered :=
  { gatewayServer with pkg := gatewayServer.reads (overwrite 0xFF) }

theorem usedServer_run :
    Run Ustun.bufMachine (Ustun.Buffered.start true 0)
      (gatewayCalls ++ [(.packet (overwrite 0xFF) 0 GatewayAddr.zero FecCodec.new, [])])
      usedServer :=
  gatewayServer_run.snoc
    (e := (Ustun.BufCall.packet (overwrite 0xFF) 0 GatewayAddr.zero FecCodec.new, []))
    (Ustun.overwrite_step gatewayServer (by decide))

/-- A client with FEC and both paths up. -/
def freshClient : Uctun.Client := Uctun.Client.start true fun _ => 3

theorem opened_both : Uctun.Opened fun _ => 3 := fun _ => .inr (show (0 : Int) < 3 by decide)

/-- A short packet, from two servers and from two clients with different buffers. -/
theorem payloads_independent_short :
    Ustun.payloads (Ustun.sendToGateway gatewayServer.p.sv 2 GatewayAddr.zero FecCodec.new
          (gatewayServer.reads (flowPacket 4 1)) 20).sent =
        Ustun.payloads (Ustun.sendToGateway usedServer.p.sv 2 GatewayAddr.zero FecCodec.new
          (usedServer.reads (flowPacket 4 1)) 20).sent ∧
      ∃ c : Uctun.Client, (∀ k < bufferSize, c.pkg.payload.getD k 0 = 0xFF) ∧
        Uctun.payloads freshClient.st.sockApn (Uctun.sendPacket freshClient.st FecCodec.new
            (freshClient.reads (flowPacket 4 1)) 20).sent =
          Uctun.payloads c.st.sockApn (Uctun.sendPacket c.st FecCodec.new
            (c.reads (flowPacket 4 1)) 20).sent := by
  have hiff := payloads_independent_iff true 0 2 gatewayCalls gatewayServer true (fun _ => 3) []
    freshClient (flowPacket 4 1) gatewayServer_run (.nil freshClient) opened_both (by decide)
    (by decide) (.inl (by decide))
  have hserver := hiff.1.2 (.inl fun hno => absurd hno.2.2 (by decide))
  have hclient := hiff.2.2 (.inl fun hno => absurd hno.1.2 (by decide))
  obtain ⟨t, c, hrun, hsame, hfilled⟩ :=
    Uctun.history_filled (.nil (Uctun.Client.start true fun _ => 3)) 0xFF
  refine ⟨?_, c, hfilled, ?_⟩
  · exact hserver true 0 _ usedServer usedServer_run ⟨rfl, rfl, rfl, rfl, rfl⟩ _ _ _
  · exact hclient true (fun _ => 3) t c opened_both hrun hsame _ _

/-- Its reply of 1201 bytes shows what was in the buffer before. -/
def longReply : List u8 := flowPacket 4 1 ++ List.replicate 1181 0

theorem longReply_length : longReply.length = 1201 := by
  rw [longReply, List.length_append, List.length_replicate]
  rfl

/-- The server's long reply shows the buffer, and a full packet of the client the batch. -/
theorem payloads_show_buffer :
    Run Ustun.bufMachine (Ustun.Buffered.start true 0) gatewayCalls gatewayServer ∧
      ¬ Ustun.PayloadsIndependent gatewayServer longReply 2 ∧
      ¬ Uctun.PayloadsIndependent freshClient (overwrite 0) := by
  have hsends : gatewayServer.SendsFec longReply 2 := by
    have hfec : gatewayServer.p.sv.usesFec longReply.length := by
      rw [longReply_length]
      exact ⟨rfl, by decide⟩
    exact ⟨by decide, hfec⟩
  refine ⟨gatewayServer_run, fun h => ?_, fun h => ?_⟩
  · have hhides := (Ustun.payloadsIndependent_iff gatewayServer_run
      (by rw [longReply_length]; decide) (.inl (by rw [longReply_length]; decide))).1 h
    rcases hhides with hno | hfull
    · exact hno hsends
    · rw [longReply_length] at hfull
      exact absurd hfull (by decide)
  · have hlen := Uctun.overwrite_length 0
    have hhides := (Uctun.payloadsIndependent_iff (.nil (Uctun.Client.start true fun _ => 3))
      opened_both (by rw [hlen])).1 h
    rcases hhides with hno | ⟨-, hworker⟩
    · exact hno ⟨⟨rfl, by rw [hlen]; decide⟩, by decide⟩
    · exact absurd hworker (by decide)

end ConfigEnv.TunVpn
