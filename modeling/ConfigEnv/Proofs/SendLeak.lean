/-
Module: ConfigEnv.Proofs.SendLeak
Layer: Proofs
Purpose: What a datagram of the server tells about earlier packets. A packet is read over the one
  before it, so behind its end the buffer keeps older bytes. The branch without FEC sends the packet
  and no more; the FEC branch encodes and sends two full rows. A packet that fills the rows covers
  what was there, and with any shorter one the bytes of an earlier packet go out, even of one that
  was itself dropped.
Trusted boundary: none
Main exports: codewordRows_reads, findGatewayForPacket_reads, overwrite, codewordRows_stale,
  Ustun.payloads, Ustun.SameTables, Ustun.payloadsIndependent_iff
Open obligations: none
-/
import ConfigEnv.Proofs.BufferReads
import ConfigEnv.Proofs.FecPath
import ConfigEnv.Proofs.PathLiveness

namespace ConfigEnv.TunVpn

open Machine Memory

/-! ### What the senders read -/

/-- The rows of a codeword come from the two data rows. -/
theorem codewordRows_reads : ReadsBelow (0 : u8) (fecRsK * fecRsT) codewordRows := by
  intro m m' h
  have hrow : ∀ i : Fin shardCount, i ≠ 2 → fecBuf m i = fecBuf m' i := by
    intro i hi
    funext k
    apply h
    have hlt := k.isLt
    have hrange := i.isLt
    have hval : i.val ≠ 2 := fun heq => hi (Fin.ext heq)
    simp only [shardCount, fecRsK, fecRsN, fecRsT] at hrange hlt ⊢
    omega
  unfold codewordRows
  rw [hrow 0 (by decide), hrow 1 (by decide)]
  funext i
  by_cases hi : i = 2
  · subst hi
    rw [Function.update_self, Function.update_self]
  · rw [Function.update_of_ne hi, Function.update_of_ne hi, hrow i hi]

/-- A lookup reads the addresses. -/
theorem findGatewayForPacket_reads (conns : List ConnEntry) (ts : Int) :
    ReadsBelow (0 : u8) 20 (findGatewayForPacket conns ts) := by
  intro m m' h
  have hversion : ipVersion m = ipVersion m' := ipVersion_reads m m' (h.mono (by decide))
  have hkey : connHashCal m = connHashCal m' := connHashCal_reads m m' h
  simp only [findGatewayForPacket, hversion, hkey]

/-- A packet hides what was in the buffer before it, as far as it goes. -/
theorem tunRead_agree (old old' p : List u8) :
    Agree (0 : u8) p.length (tunRead old p) (tunRead old' p) :=
  Agree.append 0 p _ _

/-- Behind it the buffer is as it was. -/
theorem tunRead_getD {old p : List u8} {k : Nat} (hk : p.length ≤ k) :
    (tunRead old p).getD k 0 = old.getD k 0 := by
  unfold tunRead
  rw [List.getD_append_right _ _ _ _ hk, List.getD_eq_getElem?_getD, List.getElem?_drop,
    Nat.add_sub_cancel' hk, ← List.getD_eq_getElem?_getD]

/-- A packet of full length. -/
def overwrite (c : u8) : List u8 := List.replicate bufferSize c

theorem overwrite_getD {old : List u8} {c : u8} {k : Nat} (hk : k < bufferSize) :
    (tunRead old (overwrite c)).getD k 0 = c := by
  have hlen : k < (overwrite c).length := by
    rw [overwrite, List.length_replicate]
    exact hk
  unfold tunRead
  rw [List.getD_append _ _ _ _ hlen, List.getD_eq_getElem _ _ hlen]
  exact List.getElem_replicate hlen

/-- Behind a shorter packet the second row holds what was there before. -/
theorem codewordRows_stale {old data : List u8} {c : u8} {k : Fin fecRsT}
    (hk : data.length ≤ fecRsT + k) :
    codewordRows (tunRead (tunRead old (overwrite c)) data) 1 k = c := by
  have hlt := k.isLt
  have hmax : fecRsT + k < bufferSize := by
    simp only [fecRsT, bufferSize] at hlt ⊢
    omega
  rw [codewordRows_data _ (by decide)]
  change (tunRead (tunRead old (overwrite c)) data).getD (fecRsT + k) 0 = c
  rw [tunRead_getD hk, overwrite_getD hmax]

/-- The lookup of a packet with its addresses, or of another version, depends on the packet. -/
theorem findGateway_tunRead {p : List u8} (hpos : 0 < p.length)
    (hheader : 20 ≤ p.length ∨ ipVersion p ≠ 4) (conns : List ConnEntry) (ts : Int)
    (old old' : List u8) :
    findGatewayForPacket conns ts (tunRead old p) =
      findGatewayForPacket conns ts (tunRead old' p) := by
  rcases hheader with hlong | hv4
  · exact findGatewayForPacket_reads conns ts _ _ ((tunRead_agree old old' p).mono hlong)
  · have hversion : ∀ old, ipVersion (tunRead old p) ≠ 4 := by
      intro old
      have hsame : ipVersion (tunRead old p) = ipVersion p :=
        ipVersion_reads _ _ ((Agree.append_nil 0 p (old.drop p.length)).mono hpos)
      rw [hsame]
      exact hv4
    unfold findGatewayForPacket
    rw [if_pos (hversion old), if_pos (hversion old')]

namespace Ustun

/-! ### The payloads of one packet -/

section Payloads

variable {sv : Server} {ts : Int} {headMem : GatewayAddr} {codec : FecCodec} {pkg : TunPkg}
  {p old : List u8} {len : Nat}

/-- The payload bytes of the datagrams. -/
def payloads (sent : List Sent) : List (List u8) := sent.map fun d => d.bytes.drop pktOffset

/-- Without FEC they are the packet itself, on as many paths as pass the tests. -/
theorem payloads_direct (hgw : sv.gatewayOf ts pkg ≠ 0) (hfec : ¬ sv.usesFec p.length)
    (hpay : pkg.payload = tunRead old p) :
    payloads (sendToGateway sv ts headMem codec pkg p.length).sent =
      ((List.finRange maxGwApn).filter fun i =>
        (sv.recordOf ts headMem pkg).lastSeenApn i > 0 ∧ sv.udpSock (pathSock i) > 0).map
          fun _ => p := by
  have hpath := sendToGateway_direct_path headMem codec hgw hfec
  have hbytes : ∀ d ∈ (sendToGateway sv ts headMem codec pkg p.length).sent,
      d.bytes.drop pktOffset = p := by
    intro d hd
    obtain ⟨-, hsent⟩ := (sendToGateway_direct hgw hfec).1 (List.mem_map_of_mem hd)
    rw [hsent, hpay, Nat.add_comm, bytes_take]
    exact List.drop_left' (PkgHeader.length_toBytes _)
  have hlen := congrArg List.length hpath
  rw [List.length_map, List.length_map] at hlen
  unfold payloads
  rw [List.map_congr_left hbytes, List.map_const', List.map_const', hlen]

/-- With FEC they are the rows of the codeword. -/
theorem payloads_fec (hgw : sv.gatewayOf ts pkg ≠ 0) (hfec : sv.usesFec len) :
    payloads (sendToGateway sv ts headMem codec pkg len).sent =
      List.ofFn fun i : Fin shardCount => List.ofFn (codewordRows pkg.payload i) := by
  have hsent : (sendToGateway sv ts headMem codec pkg len).sent.map Sent.bytes = _ :=
    sendToGateway_fec hgw hfec.1 hfec.2
  have hdrop : payloads (sendToGateway sv ts headMem codec pkg len).sent =
      ((sendToGateway sv ts headMem codec pkg len).sent.map Sent.bytes).map
        (List.drop pktOffset) := by
    rw [List.map_map]
    rfl
  rw [hdrop, hsent, List.map_ofFn]
  apply congrArg List.ofFn
  funext i
  rw [Function.comp_apply]
  exact List.drop_left' (PkgHeader.length_toBytes _)

/-- A packet for no gateway sends nothing. -/
theorem payloads_dropped (hgw : sv.gatewayOf ts pkg = 0) :
    payloads (sendToGateway sv ts headMem codec pkg len).sent = [] := by
  rw [sendToGateway_dropped hgw]
  rfl

end Payloads

/-! ### Two histories of one buffer -/

/-- What a packet is sent by, apart from the buffer. -/
structure SameTables (b b' : Buffered) : Prop where
  conns : b.p.sv.conns = b'.p.sv.conns
  gateways : b.p.sv.gateways = b'.p.sv.gateways
  udpSock : b.p.sv.udpSock = b'.p.sv.udpSock
  glFec : b.p.sv.glFec = b'.p.sv.glFec
  sequence : b.p.sv.sequence = b'.p.sv.sequence

/-- The packet finds a gateway and goes to the FEC branch. -/
def Buffered.SendsFec (b : Buffered) (data : List u8) (ts : Int) : Prop :=
  b.p.sv.gatewayOf ts (b.reads data) ≠ 0 ∧ b.p.sv.usesFec data.length

section Histories

variable {b b' : Buffered} {data : List u8} {ts : Int} {headMem : GatewayAddr}
  {codec codec' : FecCodec}

/-- Servers with the same tables choose the same gateway for a packet. -/
theorem SameTables.gatewayOf (h : SameTables b b') (hpos : 0 < data.length)
    (hheader : 20 ≤ data.length ∨ ipVersion data ≠ 4) (ts : Int) :
    b.p.sv.gatewayOf ts (b.reads data) = b'.p.sv.gatewayOf ts (b'.reads data) := by
  have hlookup := findGateway_tunRead hpos hheader b.p.sv.conns ts b.pkg.payload b'.pkg.payload
  rw [h.conns] at hlookup
  unfold Server.gatewayOf
  rw [h.conns]
  exact congrArg Prod.snd hlookup

/-- A packet that fills the rows, or goes out without FEC, hides what was before it. -/
theorem payloads_same (h : SameTables b b') (hpos : 0 < data.length)
    (hheader : 20 ≤ data.length ∨ ipVersion data ≠ 4)
    (hhides : ¬ b.SendsFec data ts ∨ fecRsK * fecRsT ≤ data.length) :
    payloads (b.send data ts headMem codec).sent =
      payloads (b'.send data ts headMem codec').sent := by
  have hgateway := h.gatewayOf hpos hheader ts
  have hfec : b.p.sv.usesFec data.length ↔ b'.p.sv.usesFec data.length := by
    unfold Server.usesFec
    rw [h.glFec]
  unfold Buffered.send
  by_cases hgw : b.p.sv.gatewayOf ts (b.reads data) = 0
  · rw [payloads_dropped hgw, payloads_dropped (hgateway ▸ hgw)]
  · have hgw' : b'.p.sv.gatewayOf ts (b'.reads data) ≠ 0 := hgateway ▸ hgw
    by_cases huses : b.p.sv.usesFec data.length
    · have hfull : fecRsK * fecRsT ≤ data.length :=
        hhides.resolve_left fun hno => hno ⟨hgw, huses⟩
      rw [payloads_fec hgw huses, payloads_fec hgw' (hfec.1 huses)]
      have hrows : codewordRows (b.reads data).payload = codewordRows (b'.reads data).payload :=
        codewordRows_reads _ _ ((tunRead_agree _ _ data).mono hfull)
      rw [hrows]
    · rw [payloads_direct hgw huses rfl, payloads_direct hgw' (fun hno => huses (hfec.2 hno)) rfl]
      unfold Server.recordOf
      rw [hgateway, h.gateways, h.udpSock]

/-- A full packet that is not of version 4 is dropped, and leaves its bytes in the buffer. -/
theorem overwrite_step (b : Buffered) {c : u8} (hv4 : (c >>> 4) &&& 0x0F ≠ 4) :
    bufMachine b (.packet (overwrite c) 0 GatewayAddr.zero FecCodec.new) []
      { b with pkg := b.reads (overwrite c) } := by
  have hversion : ipVersion (b.reads (overwrite c)).payload ≠ 4 := by
    change ((tunRead b.pkg.payload (overwrite c)).getD 0 0 >>> 4) &&& 0x0F ≠ 4
    rw [overwrite_getD (by decide)]
    exact hv4
  have hlookup : findGatewayForPacket b.p.sv.conns 0 (b.reads (overwrite c)).payload =
      (b.p.sv.conns, 0) := if_pos hversion
  have hgw : b.p.sv.gatewayOf 0 (b.reads (overwrite c)) = 0 := congrArg Prod.snd hlookup
  have hlen : (overwrite c).length = bufferSize := List.length_replicate
  constructor
  · change 0 < (overwrite c).length ∧ (overwrite c).length ≤ bufferSize
    rw [hlen]
    decide
  · simp only [bufStep, Buffered.send, sendToGateway_dropped hgw, Server.lookedUp, hlookup]

/-- So a packet that is shorter than the rows sends a byte of the packet before it. -/
theorem payloads_differ (hsends : b.SendsFec data ts) (hshort : data.length < fecRsK * fecRsT) :
    payloads
        (({ b with pkg := b.reads (overwrite 0) } : Buffered).send data ts headMem codec).sent ≠
      payloads (({ b with pkg := b.reads (overwrite 0xFF) } : Buffered).send data ts headMem
        codec).sent := by
  obtain ⟨hgw, huses⟩ := hsends
  have hlong : pkgFecEncodeMinLen < data.length := huses.2
  simp only [pkgFecEncodeMinLen, fecRsK, fecRsT] at hlong hshort
  have hfinds : ∀ c, b.p.sv.gatewayOf ts
      (({ b with pkg := b.reads (overwrite c) } : Buffered).reads data) ≠ 0 := by
    intro c
    have hsame : SameTables b { b with pkg := b.reads (overwrite c) } := ⟨rfl, rfl, rfl, rfl, rfl⟩
    have hgateway := hsame.gatewayOf (by omega : 0 < data.length) (.inl (by omega)) ts
    exact hgateway ▸ hgw
  obtain ⟨k, hk⟩ : ∃ k : Fin fecRsT, data.length ≤ fecRsT + k := by
    refine ⟨⟨data.length - fecRsT, ?_⟩, ?_⟩
    · simp only [fecRsT]
      omega
    · dsimp only
      omega
  intro heq
  unfold Buffered.send at heq
  rw [payloads_fec (hfinds 0) huses, payloads_fec (hfinds 0xFF) huses] at heq
  have hrow := congrFun (List.ofFn_inj.1 heq) 1
  have hbyte : codewordRows (tunRead (tunRead b.pkg.payload (overwrite 0)) data) 1 k =
      codewordRows (tunRead (tunRead b.pkg.payload (overwrite 0xFF)) data) 1 k :=
    congrFun (List.ofFn_inj.1 hrow) k
  rw [codewordRows_stale hk, codewordRows_stale hk] at hbyte
  exact absurd hbyte (by decide)

/-- The payloads of the packet are the same in every run that ends with the same tables. -/
def PayloadsIndependent (b : Buffered) (data : List u8) (ts : Int) : Prop :=
  ∀ glFec ts₀ t b', Run bufMachine (Buffered.start glFec ts₀) t b' → SameTables b b' →
    ∀ headMem codec codec', payloads (b.send data ts headMem codec).sent =
      payloads (b'.send data ts headMem codec').sent

/-- They are if and only if the packet is not padded with what is in the buffer. -/
theorem payloadsIndependent_iff {glFec : Bool} {ts₀ : Int} {t : List (BufCall × List Sent)}
    (hrun : Run bufMachine (Buffered.start glFec ts₀) t b) (hpos : 0 < data.length)
    (hheader : 20 ≤ data.length ∨ ipVersion data ≠ 4) :
    PayloadsIndependent b data ts ↔ ¬ b.SendsFec data ts ∨ fecRsK * fecRsT ≤ data.length := by
  constructor
  · intro h
    by_contra hno
    obtain ⟨hsends, hshort⟩ := not_or.1 hno
    have hafter : ∀ c : u8, (c >>> 4) &&& 0x0F ≠ 4 →
        payloads (b.send data ts GatewayAddr.zero FecCodec.new).sent =
          payloads (({ b with pkg := b.reads (overwrite c) } : Buffered).send data ts
            GatewayAddr.zero FecCodec.new).sent := by
      intro c hv4
      have hstep := overwrite_step b hv4
      have hrun' := hrun.snoc
        (e := (BufCall.packet (overwrite c) 0 GatewayAddr.zero FecCodec.new, [])) hstep
      have hsame : SameTables b { b with pkg := b.reads (overwrite c) } :=
        ⟨rfl, rfl, rfl, rfl, rfl⟩
      exact h glFec ts₀ _ _ hrun' hsame GatewayAddr.zero FecCodec.new FecCodec.new
    have hzeros := hafter 0 (by decide)
    have hones := hafter 0xFF (by decide)
    exact payloads_differ (not_not.1 hsends) (not_le.1 hshort) (hzeros.symm.trans hones)
  · intro hhides glFec' ts' t' b' _ hsame headMem codec codec'
    exact payloads_same hsame hpos hheader hhides

end Histories

end Ustun

end ConfigEnv.TunVpn
