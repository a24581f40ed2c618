/-
Module: ConfigEnv.Proofs.RequestReply
Layer: Proofs
Purpose: A request of the client and the reply to it. The receiver thread that gets the request
  learns the gateway and the flow in two calls, which are those of `Server.learn` (`learn_calls`),
  and between them and the reply all the other threads go on. As long as no cleanup comes so late
  that it takes the path or the flow away, and no other gateway has sent the sum of the flow, the
  reply goes out on the path of the request, to the address from which the gateway was heard there
  last, and the client writes what was sent.
Trusted boundary: none
Main exports: FlowKept, PathKept, Rx.sees, Rx.learns, learn_calls, Rx.Carries,
  sendToGateway_direct_sent, reply_returns
Open obligations: none
-/
import ConfigEnv.Proofs.DirectPath
import ConfigEnv.Proofs.TableAge

namespace ConfigEnv.TunVpn

open Machine Memory

/-! ### What cleanups leave -/

/-- There is an entry for the sum, used at `bound` or later. -/
structure FlowKept (hashVal : u32) (bound : Int) (conns : List ConnEntry) : Prop where
  onePerSum : OnePerSum conns
  found : ∃ entry ∈ conns, entry.key.hashVal = hashVal
  used : ∀ entry ∈ conns, entry.key.hashVal = hashVal → bound ≤ entry.lastUsed

/-- The gateway has an entry, and was seen on path `i` at `bound` or later. -/
structure PathKept (gatewayId : u8) (i : Fin maxGwApn) (bound : Int) (gws : List GatewayAddr) :
    Prop where
  keyed : Keyed gws
  seen : ∃ gw ∈ gws, gw.gatewayId = gatewayId ∧ 0 < gw.lastSeenApn i ∧ bound ≤ gw.lastSeenApn i

section Kept

variable {conns conns' : List ConnEntry} {op : ConnOp} {out : Option u8} {hashVal : u32}
  {bound : Int} {gws : List GatewayAddr} {gatewayId : u8} {i : Fin maxGwApn}

/-- A call on the table keeps the flow, unless it is a forced or a late cleanup. -/
theorem FlowKept.step (h : FlowKept hashVal bound conns)
    (hstep : connMachine conns op out conns') (hle : bound ≤ op.time)
    (hstay : ∀ now expire, op = .cleanup now expire →
      expire = false ∧ now ≤ bound + connTimeout) : FlowKept hashVal bound conns' where
  onePerSum := connStep_onePerSum h.onePerSum hstep
  found := by
    obtain ⟨entry, hmem, rfl⟩ := h.found
    apply connStep_keeps h.onePerSum hstep hmem
    intro now expire hop
    obtain ⟨hexpire, hnow⟩ := hstay now expire hop
    have hused := h.used entry hmem rfl
    exact ⟨hexpire, by omega⟩
  used entry hmem hsum := by
    rcases connStep_uses h.onePerSum hstep hmem with huse | ⟨hold, -⟩
    · rwa [← packetTime_eq_time huse]
    · exact h.used entry hold hsum

/-- A packet that is learnt has an entry that was used just now. -/
theorem FlowKept.learn {ipPacket : List u8} {ts : Int} (hone : OnePerSum conns)
    (hv4 : ipVersion ipPacket = 4)
    (hstep : connMachine conns (.update gatewayId ipPacket ts true) out conns') :
    FlowKept (connHashCal ipPacket).hashVal ts conns' where
  onePerSum := connStep_onePerSum hone hstep
  found := connStep_learns hone hv4 hstep
  used entry hmem hsum := by
    have htime : (ConnOp.update gatewayId ipPacket ts true).packetTime
        (hasSum entry.key.hashVal) = some ts := if_pos ⟨hv4, decide_eq_true hsum.symm⟩
    rcases connStep_uses hone hstep hmem with huse | ⟨-, hquiet⟩
    · rw [htime] at huse
      exact (Option.some.inj huse).le
    · rw [htime] at hquiet
      cases hquiet

/-- A flow that is kept since a time is kept since every earlier one. -/
theorem FlowKept.mono {bound' : Int} (h : FlowKept hashVal bound conns) (hle : bound' ≤ bound) :
    FlowKept hashVal bound' conns :=
  ⟨h.onePerSum, h.found, fun entry hmem hsum => hle.trans (h.used entry hmem hsum)⟩

theorem PathKept.mono {bound' : Int} (h : PathKept gatewayId i bound gws) (hle : bound' ≤ bound) :
    PathKept gatewayId i bound' gws := by
  obtain ⟨gw, hmem, hid, hpos, hseen⟩ := h.seen
  exact ⟨h.keyed, gw, hmem, hid, hpos, hle.trans hseen⟩

/-- A packet of any gateway keeps the path. -/
theorem PathKept.update {addr : SockAddr} {pathId : u8} {ts : Int} {alloc : Bool} {id : u8}
    (h : PathKept gatewayId i bound gws) (hle : bound ≤ ts) (hpos : 0 < ts) :
    PathKept gatewayId i bound (updateGatewayMap gws ts alloc id addr pathId) := by
  have hkeyed : Keyed (gatewayStep gws (.update id addr pathId ts alloc)) :=
    gatewayStep_keyed h.keyed hpos
  refine ⟨hkeyed, ?_⟩
  obtain ⟨gw, hmem, hid, hseen, hbound⟩ := h.seen
  by_cases hrange : pathId = 0 ∨ maxGwApn < pathId.toNat
  · rw [updateGatewayMap_out_of_range hrange]
    exact ⟨gw, hmem, hid, hseen, hbound⟩
  · obtain ⟨j, hpath⟩ := exists_path hrange
    rw [updateGatewayMap_path h.keyed hpath]
    split
    · refine ⟨_, List.mem_map.2 ⟨gw, hmem, rfl⟩, ?_⟩
      by_cases hown : gw.gatewayId = id
      · rw [if_pos hown]
        refine ⟨hid, ?_⟩
        simp only [GatewayAddr.seen]
        split
        · exact ⟨hpos, hle⟩
        · exact ⟨hseen, hbound⟩
      · rw [if_neg hown]
        exact ⟨hid, hseen, hbound⟩
    · split
      · exact ⟨gw, List.mem_cons_of_mem _ hmem, hid, hseen, hbound⟩
      · exact ⟨gw, hmem, hid, hseen, hbound⟩

/-- A path that has not expired keeps its gateway in the map. -/
theorem PathKept.cleanup {now : Int} (h : PathKept gatewayId i bound gws) (hpos : 0 < now)
    (hsoon : now ≤ bound + connTimeout) :
    PathKept gatewayId i bound (cleanupExpiredGateways gws now false) := by
  have hkeyed : Keyed (gatewayStep gws (.cleanup now false)) := gatewayStep_keyed h.keyed hpos
  refine ⟨hkeyed, ?_⟩
  obtain ⟨gw, hmem, hid, hseen, hbound⟩ := h.seen
  have hkept : ¬ gw.expired now i = true := by
    rw [expired_iff, not_and]
    intro _
    omega
  refine ⟨gw.expire now, mem_cleanup.2 ⟨gw, hmem, ⟨i, hkept⟩, rfl⟩, hid, ?_⟩
  simp only [GatewayAddr.expire, if_neg hkept]
  exact ⟨hseen, hbound⟩

/-- A gateway that is heard on a path has been seen there just now. -/
theorem PathKept.hear {addr : SockAddr} {pathId : u8} {ts : Int} (hkeyed : Keyed gws)
    (hpos : 0 < ts) (hpath : pathId.toNat = i.val + 1) :
    PathKept gatewayId i ts (updateGatewayMap gws ts true gatewayId addr pathId) := by
  have hkeyed' : Keyed (gatewayStep gws (.update gatewayId addr pathId ts true)) :=
    gatewayStep_keyed hkeyed hpos
  refine ⟨hkeyed', ?_⟩
  rw [updateGatewayMap_path hkeyed hpath]
  split
  · next hfound =>
      obtain ⟨gw, hmem, hid⟩ := hfound
      refine ⟨_, List.mem_map.2 ⟨gw, hmem, rfl⟩, ?_⟩
      rw [if_pos hid]
      simpa [GatewayAddr.seen] using ⟨hid, hpos⟩
  · exact ⟨_, List.mem_cons_self, rfl, by simpa [GatewayAddr.seen] using hpos⟩

/-- The record of a gateway that is kept. -/
theorem PathKept.record {gws : List GatewayAddr} {id : u8} {i : Fin maxGwApn} {bound : Int}
    (h : PathKept id i bound gws) :
    ∃ gw ∈ gws, getGatewayAddr gws id = .entry gw ∧ gw.gatewayId = id ∧ 0 < gw.lastSeenApn i := by
  obtain ⟨gw, hmem, hid, hseen, -⟩ := h.seen
  obtain ⟨found, hentry⟩ := hasGateway_iff.1 ⟨gw, hmem, hid⟩
  obtain ⟨hfound, hid'⟩ := getGatewayAddr_entry hentry
  obtain rfl : found = gw :=
    List.inj_on_of_nodup_map h.keyed.nodup hfound hmem (hid'.trans hid.symm)
  exact ⟨found, hmem, hentry, hid, hseen⟩

end Kept

namespace Ustun

/-! ### The calls for a message -/

/-- `update_gateway_map`, as the receiver thread calls it for a message. -/
def Rx.sees (rx : Rx) : LoopEvent :=
  .receiver (.updateGatewayMap rx.gateway rx.addr rx.pkg.hdr.apn rx.clock.gateway rx.allocGateway)

/-- `update_conn_table`. -/
def Rx.learns (rx : Rx) : LoopEvent :=
  .receiver (.updateConnTable rx.gateway rx.pkg.payload rx.clock.conn rx.allocConn)

/-- The two calls one after another do to the tables what handling the message does. -/
theorem learn_calls (m : MainLoop) (rx : Rx) :
    (loopStep (loopStep m rx.sees).1 rx.learns).1.p.sv.gateways =
        (m.p.sv.learn rx).gateways ∧
      (loopStep (loopStep m rx.sees).1 rx.learns).1.p.sv.conns = (m.p.sv.learn rx).conns := by
  rw [Server.learn]
  split
  · rw [initDedupState]
    split <;> exact ⟨rfl, rfl⟩
  · exact ⟨rfl, rfl⟩

/-! ### Events -/

section Step

variable {m m' : MainLoop} {e : LoopEvent} {out : List Sent} {bound : Int}

/-- The table is cleaned up by `main` only. -/
theorem connOp_cleanup {now : Int} {expire : Bool} (hstep : loopMachine m e out m')
    (h : e.connOp = some (.cleanup now expire)) : e = .cleanConnections now ∧ expire = false := by
  obtain ⟨call, hcall, hop⟩ := Option.bind_eq_some_iff.1 h
  cases e with
  | check => cases hcall
  | send | cleanGateways =>
      cases hcall
      cases hop
  | cleanConnections ts =>
      cases hcall
      cases hop
      exact ⟨rfl, rfl⟩
  | receiver call' =>
      cases hcall
      cases call with
      | cleanupExpiredConnections => cases hstep.1.1
      | updateConnTable | sendToGateway | updateGatewayMap | cleanupExpiredGateways | openSock
      | closeSock | clearSock => cases hop

theorem gatewayOp_cleanup {now : Int} {expire : Bool} (hstep : loopMachine m e out m')
    (h : e.gatewayOp = some (.cleanup now expire)) : e = .cleanGateways now ∧ expire = false := by
  obtain ⟨call, hcall, hop⟩ := Option.bind_eq_some_iff.1 h
  cases e with
  | check => cases hcall
  | send | cleanConnections =>
      cases hcall
      cases hop
  | cleanGateways ts =>
      cases hcall
      cases hop
      exact ⟨rfl, rfl⟩
  | receiver call' =>
      cases hcall
      cases call with
      | cleanupExpiredGateways => cases hstep.1.1
      | updateConnTable | sendToGateway | updateGatewayMap | cleanupExpiredConnections | openSock
      | closeSock | clearSock => cases hop

/-- A step of the server keeps the flow, unless it is a late cleanup. -/
theorem loopStep_flowKept {hashVal : u32} (hstep : loopMachine m e out m')
    (h : FlowKept hashVal bound m.p.sv.conns) (hle : ∀ ts, e.time = some ts → bound ≤ ts)
    (hsoon : ∀ now, e = .cleanConnections now → now ≤ bound + connTimeout) :
    FlowKept hashVal bound m'.p.sv.conns := by
  cases hop : e.connOp with
  | none => rwa [loopStep_conns_idle hstep hop]
  | some op =>
      obtain ⟨found, hconn⟩ := loopStep_conns hstep hop
      apply h.step hconn (hle _ (LoopEvent.time_connOp hop))
      rintro now expire rfl
      obtain ⟨rfl, rfl⟩ := connOp_cleanup hstep hop
      exact ⟨rfl, hsoon now rfl⟩

/-- A step of the server keeps the path, unless it is a late cleanup. -/
theorem loopStep_pathKept {gatewayId : u8} {i : Fin maxGwApn} (hstep : loopMachine m e out m')
    (h : PathKept gatewayId i bound m.p.sv.gateways) (hpos : ∀ ts, e.time = some ts → 0 < ts)
    (hle : ∀ ts, e.time = some ts → bound ≤ ts)
    (hsoon : ∀ now, e = .cleanGateways now → now ≤ bound + connTimeout) :
    PathKept gatewayId i bound m'.p.sv.gateways := by
  cases hop : e.gatewayOp with
  | none => rwa [loopStep_gateways_idle hstep hop]
  | some op =>
      have htime := LoopEvent.time_gatewayOp hop
      rw [← loopStep_gateways hstep hop]
      cases op with
      | update id addr pathId ts alloc => exact h.update (hle ts htime) (hpos ts htime)
      | cleanup now expire =>
          obtain ⟨rfl, rfl⟩ := gatewayOp_cleanup hstep hop
          exact h.cleanup (hpos now htime) (hsoon now rfl)

end Step

/-! ### The request -/

/-- The message is a datagram by which the client has sent the IPv4 packet `p` on path `i`, without
FEC. -/
structure Rx.Carries (rx : Rx) (p : List u8) (i : Fin udpWorker) : Prop where
  v4 : ipVersion p = 4
  header_le : 20 ≤ p.length
  length_le : p.length ≤ bufferSize
  sent : ∃ (st : Uctun.Sender) (codec : FecCodec) (pkg : TunPkg) (old old' d : List u8),
    pkg.payload = tunRead old p ∧ ¬ (st.glFec = true ∧ pkgFecEncodeMinLen < p.length) ∧
      (i, d) ∈ (Uctun.sendPacket st codec pkg p.length).sent ∧ rx.msg = recvmmsg old' d

/-- A datagram that carries a packet names the gateway and the path, and begins like the packet. -/
theorem Rx.Carries.pkg_eq {rx : Rx} {p : List u8} {i : Fin udpWorker} (h : rx.Carries p i) :
    rx.gateway = gatewayId ∧ rx.pkg.hdr.apn.toNat = i.val + 1 ∧
      Agree (0 : u8) 20 rx.pkg.payload p := by
  obtain ⟨st, codec, pkg, old, old', d, hpay, hfec, hd, hmsg⟩ := h.sent
  obtain ⟨-, rfl⟩ := (Uctun.sendPacket_direct hfec).1 hd
  rw [hpay, plen_toNat h.length_le, bytes_take] at hmsg
  have hhdr : rx.pkg.hdr = Uctun.sentHeader st pkg p.length i := by
    rw [Rx.pkg, hmsg, received_hdr]
  have hpayload : rx.pkg.payload =
      p.take (bufferSize - pktOffset) ++ old'.drop (pktOffset + p.length) := by
    rw [Rx.pkg, hmsg, received_payload]
  refine ⟨?_, ?_, ?_⟩
  · rw [Rx.gateway, hhdr]
    simp only [Uctun.fillHeader]
    split <;> decide
  · have hi : i.val < 2 := i.isLt
    rw [hhdr, BitVec.toNat_ofNat]
    omega
  · have hhead : 20 ≤ (p.take (bufferSize - pktOffset)).length := by
      rw [List.length_take, le_min_iff]
      exact ⟨by decide, h.header_le⟩
    rw [hpayload]
    exact ((Agree.append_nil 0 _ _).mono hhead).trans ((Agree.take 0 _ p).mono (by decide))

/-! ### The reply -/

/-- The datagrams of the branch without FEC. -/
theorem sendToGateway_direct_sent {sv : Server} {ts : Int} {headMem : GatewayAddr}
    {codec : FecCodec} {pkg : TunPkg} {len : Nat} (hgw : sv.gatewayOf ts pkg ≠ 0)
    (hfec : ¬ sv.usesFec len) :
    (sendToGateway sv ts headMem codec pkg len).sent =
      ((List.finRange maxGwApn).filter fun i =>
        (sv.recordOf ts headMem pkg).lastSeenApn i > 0 ∧ sv.udpSock (pathSock i) > 0).map fun i =>
          { sock := pathSock i, addr := (sv.recordOf ts headMem pkg).addrApn i
            bytes := (TunPkg.bytes ⟨sentHeader sv ts pkg len, pkg.payload⟩).take
              (len + pktOffset) } := by
  have hrs : (fillHeader sv pkg.hdr (sv.gatewayOf ts pkg) len).fecRs = 0 :=
    not_not.1 (mt (fillHeader_fecRs _ _ _ _).1 hfec)
  unfold sendToGateway
  simp only [fillHeader_conns, if_neg hgw, hrs, ne_eq, not_true_eq_false, if_false]

/-- The number that a packet is looked up to when one gateway only has sent its sum. -/
theorem gatewayOf_eq {sv : Server} {ts : Int} {pkg : TunPkg} {bound : Int} {id : u8}
    (hkept : FlowKept (connHashCal pkg.payload).hashVal bound sv.conns)
    (hv4 : ipVersion pkg.payload = 4)
    (hsole : ∀ entry ∈ sv.conns, entry.key.hashVal = (connHashCal pkg.payload).hashVal →
      entry.gatewayId = id) : sv.gatewayOf ts pkg = id := by
  obtain ⟨entry, hmem, hsum⟩ := hkept.found
  rw [Server.gatewayOf, findGatewayForPacket_v4 hkept.onePerSum hv4]
  cases hfind : sv.conns.find? (ConnEntry.hit (connHashCal pkg.payload).hashVal) with
  | none => exact absurd (hit_iff.2 hsum) (List.find?_eq_none.1 hfind entry hmem)
  | some found =>
      exact hsole found (List.mem_of_find?_eq_some hfind) (hit_iff.1 (List.find?_some hfind))

/-! ### Runs -/

section Runs

variable {lag lastCleanup : Int} {es es' : List LoopEvent} {e e' : LoopEvent}

theorem connOp_update {id : u8} {ipPacket : List u8} {ts : Int} {alloc : Bool}
    (h : e.connOp = some (.update id ipPacket ts alloc)) :
    e = .receiver (.updateConnTable id ipPacket ts alloc) := by
  obtain ⟨call, hcall, hop⟩ := Option.bind_eq_some_iff.1 h
  cases call with
  | updateConnTable =>
      cases hop
      cases e <;> cases hcall
      rfl
  | sendToGateway | cleanupExpiredConnections | updateGatewayMap | cleanupExpiredGateways | openSock
  | closeSock | clearSock => cases hop

theorem time_mem_readings {ts : Int} (he : e ∈ es) (htime : e.time = some ts) :
    ts ∈ readings lastCleanup es :=
  List.mem_cons_of_mem _ (List.mem_filterMap.2 ⟨e, he, htime⟩)

/-- A later event reads a time that is not far behind. -/
theorem Lagging.later {ts ts' : Int} (h : Lagging lag (readings lastCleanup (es ++ e :: es')))
    (htime : e.time = some ts) (he' : e' ∈ es') (htime' : e'.time = some ts') :
    ts ≤ ts' + lag := by
  rw [readings, List.filterMap_append, List.filterMap_cons_some htime] at h
  have hrest := (List.pairwise_append.1 (List.pairwise_cons.1 h).2).2.1
  exact (List.pairwise_cons.1 hrest).1 ts' (List.mem_filterMap.2 ⟨e', he', htime'⟩)

/-- The readings of a first part of the events. -/
theorem readings_sublist : (readings lastCleanup es).Sublist (readings lastCleanup (es ++ es')) :=
  ((List.sublist_append_left es es').filterMap _).cons_cons _

/-- No gateway but this one has sent an IPv4 packet with the sum. -/
def SoleSender (es : List LoopEvent) (id : u8) (hashVal : u32) : Prop :=
  ∀ id' ipPacket ts alloc, .receiver (.updateConnTable id' ipPacket ts alloc) ∈ es →
    ipVersion ipPacket = 4 → (connHashCal ipPacket).hashVal = hashVal → id' = id

/-- With one sender of a sum, the entries with that sum name it. -/
theorem SoleSender.entries {glFec : Bool} {ts : Int} {t : List (LoopEvent × List Sent)}
    {m : MainLoop} {id : u8} {hashVal : u32} (h : SoleSender (t.map Prod.fst) id hashVal)
    (hrun : Run loopMachine (MainLoop.start glFec ts lastCleanup) t m) :
    ∀ entry ∈ m.p.sv.conns, entry.key.hashVal = hashVal → entry.gatewayId = id := by
  intro entry hmem hsum
  obtain ⟨t', hconns, hops⟩ := hrun.project (N := connMachine) (fun m => m.p.sv.conns)
    LoopEvent.connOp (fun _ _ _ _ hstep hop => loopStep_conns_idle hstep hop)
    (fun _ _ _ _ _ hstep hop => loopStep_conns hstep hop)
  have hstart : (MainLoop.start glFec ts lastCleanup).p.sv.conns = [] :=
    start_conns glFec (fun _ => 0) ts
  rw [hstart] at hconns
  obtain ⟨ipPacket, ts', alloc, out, hop, hv4, hpacket⟩ := entries_learnt hconns entry hmem
  have hmap := List.mem_map_of_mem (f := Prod.fst) hop
  rw [hops, List.mem_filterMap] at hmap
  obtain ⟨e, he, hupdate⟩ := hmap
  rw [connOp_update hupdate] at he
  exact h _ _ _ _ he hv4 (hpacket.trans hsum)

end Runs

/-- The request `p` is learnt, on path `i`, with the events `mid` between the two calls, and no
cleanup among these and the later events `post` comes so late that it would take away what was
learnt. -/
structure Rx.LearntFor (rx : Rx) (p : List u8) (i : Fin udpWorker) (lag : Int)
    (mid post : List LoopEvent) : Prop where
  carries : rx.Carries p i
  allocGateway : rx.allocGateway = true
  allocConn : rx.allocConn = true
  gatewaysSoon : ∀ now, .cleanGateways now ∈ mid ++ post →
    now + lag ≤ rx.clock.gateway + connTimeout
  connsSoon : ∀ now, .cleanConnections now ∈ post → now + lag ≤ rx.clock.conn + connTimeout

section Learnt

variable {glFec : Bool} {ts lastCleanup lag : Int} {pre mid post : List (LoopEvent × List Sent)}
  {o o' : List Sent} {m : MainLoop} {rx : Rx} {p : List u8} {i : Fin udpWorker}

/-- At the end of the run the path and the flow of the request are still there. -/
theorem learnt_kept
    (hrun : Run loopMachine (MainLoop.start glFec ts lastCleanup)
      (pre ++ (rx.sees, o) :: (mid ++ (rx.learns, o') :: post)) m)
    (hpos : ∀ r ∈ readings lastCleanup
      (pre.map Prod.fst ++ rx.sees :: (mid.map Prod.fst ++ rx.learns :: post.map Prod.fst)), 0 < r)
    (hnonneg : 0 ≤ lag)
    (hlag : Lagging lag (readings lastCleanup
      (pre.map Prod.fst ++ rx.sees :: (mid.map Prod.fst ++ rx.learns :: post.map Prod.fst))))
    (h : rx.LearntFor p i lag (mid.map Prod.fst) (post.map Prod.fst)) :
    PathKept gatewayId i (rx.clock.gateway - lag) m.p.sv.gateways ∧
      FlowKept (connHashCal p).hashVal (rx.clock.conn - lag) m.p.sv.conns := by
  obtain ⟨hid, hapn, hhead⟩ := h.carries.pkg_eq
  obtain ⟨m1, m2, hpre, hsees, hrest⟩ := hrun.middle
  obtain ⟨m3, m4, hmid, hlearns, hpost⟩ := hrest.middle
  have hseesTime : rx.sees.time = some rx.clock.gateway := rfl
  have hlearnsTime : rx.learns.time = some rx.clock.conn := rfl
  have haged : Aged lag lastCleanup (pre.map Prod.fst) m1 :=
    aged_run hpre (fun r hr => hpos r (readings_sublist.subset hr)) (hlag.sublist readings_sublist)
  -- what holds of an event behind the first call
  have hafter : ∀ e ∈ mid.map Prod.fst ++ rx.learns :: post.map Prod.fst,
      (∀ ts, e.time = some ts → 0 < ts) ∧
        ∀ ts, e.time = some ts → rx.clock.gateway - lag ≤ ts := by
    intro e he
    refine ⟨fun ts hts => hpos ts (time_mem_readings ?_ hts), fun ts hts => ?_⟩
    · exact List.mem_append_right _ (List.mem_cons_of_mem _ he)
    · have hle := hlag.later hseesTime he hts
      omega
  have hpath2 : PathKept gatewayId i (rx.clock.gateway - lag) m2.p.sv.gateways := by
    rw [← loopStep_gateways hsees rfl, gatewayStep, hid, h.allocGateway]
    have hclock : 0 < rx.clock.gateway :=
      hpos _ (time_mem_readings (List.mem_append_right _ List.mem_cons_self) hseesTime)
    exact (PathKept.hear haged.keyed hclock hapn).mono (by omega)
  have hpath3 : PathKept gatewayId i (rx.clock.gateway - lag) m3.p.sv.gateways := by
    apply hmid.invariant (fun m => PathKept gatewayId i (rx.clock.gateway - lag) m.p.sv.gateways)
      hpath2
    intro e he q q' hq hstep
    have hmem : e.1 ∈ mid.map Prod.fst := List.mem_map_of_mem he
    obtain ⟨hpos', hle⟩ := hafter e.1 (List.mem_append_left _ hmem)
    apply loopStep_pathKept hstep hq hpos' hle
    intro now hnow
    have hsoon := h.gatewaysSoon now (hnow ▸ List.mem_append_left _ hmem)
    omega
  have hpath4 : PathKept gatewayId i (rx.clock.gateway - lag) m4.p.sv.gateways := by
    have hidle := loopStep_gateways_idle hlearns rfl
    rwa [hidle]
  have hone : OnePerSum m3.p.sv.conns := by
    have hto3 : Run loopMachine (MainLoop.start glFec ts lastCleanup)
        (pre ++ (rx.sees, o) :: mid) m3 := hpre.append (.cons hsees hmid)
    exact (run_conns hto3).onePerSum
  have hflow4 : FlowKept (connHashCal p).hashVal (rx.clock.conn - lag) m4.p.sv.conns := by
    have hkey : connHashCal rx.pkg.payload = connHashCal p := connHashCal_reads _ _ hhead
    have hversion : ipVersion rx.pkg.payload = 4 :=
      (ipVersion_reads _ _ (hhead.mono (by decide))).trans h.carries.v4
    obtain ⟨found, hconn⟩ := loopStep_conns hlearns rfl
    rw [h.allocConn] at hconn
    rw [← hkey]
    exact (FlowKept.learn hone hversion hconn).mono (by omega)
  apply hpost.invariant (fun m =>
    PathKept gatewayId i (rx.clock.gateway - lag) m.p.sv.gateways ∧
      FlowKept (connHashCal p).hashVal (rx.clock.conn - lag) m.p.sv.conns) ⟨hpath4, hflow4⟩
  intro e he q q' hq hstep
  have hmem : e.1 ∈ post.map Prod.fst := List.mem_map_of_mem he
  obtain ⟨hpos', hle⟩ := hafter e.1 (List.mem_append_right _ (List.mem_cons_of_mem _ hmem))
  constructor
  · apply loopStep_pathKept hstep hq.1 hpos' hle
    intro now hnow
    have hsoon := h.gatewaysSoon now (hnow ▸ List.mem_append_right _ hmem)
    omega
  · apply loopStep_flowKept hstep hq.2
    · intro ts hts
      rw [← List.cons_append, ← List.append_assoc] at hlag
      have hconn := hlag.later hlearnsTime hmem hts
      omega
    · intro now hnow
      have hsoon := h.connsSoon now (hnow ▸ hmem)
      omega

end Learnt

/-- When no other gateway has sent the sum of the flow, a packet of the flow that `main` reads for
the client afterwards goes out without FEC on the path of the request, if its socket is open: to the
address at which the gateway was heard last on this path. The client writes it, unless it takes it
for a duplicate, as it was read when it leaves room for the header. -/
theorem reply_returns (glFec : Bool) (ts lastCleanup lag : Int)
    (pre mid post : List (LoopEvent × List Sent)) (o o' : List Sent) (m : MainLoop) (rx : Rx)
    (p q old : List u8) (i : Fin udpWorker) (ts' : Int) (headMem : GatewayAddr) (codec : FecCodec)
    (pkg : TunPkg) (t : List (LoopEvent × List Sent))
    (ht : t = pre ++ (rx.sees, o) :: (mid ++ (rx.learns, o') :: post))
    (hrun : Run loopMachine (MainLoop.start glFec ts lastCleanup) t m)
    (hpos : ∀ r ∈ readings lastCleanup (t.map Prod.fst), 0 < r)
    (hnonneg : 0 ≤ lag) (hlag : Lagging lag (readings lastCleanup (t.map Prod.fst)))
    (hlearnt : rx.LearntFor p i lag (mid.map Prod.fst) (post.map Prod.fst))
    (hsole : SoleSender (t.map Prod.fst) gatewayId (connHashCal p).hashVal)
    (hv4 : ipVersion q = 4) (hheader : 20 ≤ q.length) (hflow : flowOf q = flowOf p)
    (hpay : pkg.payload = tunRead old q) (hfec : ¬ m.p.sv.usesFec q.length)
    (hsock : 0 < m.p.sv.udpSock (pathSock i)) :
    ∃ d ∈ (sendToGateway m.p.sv ts' headMem codec pkg q.length).sent, d.sock = pathSock i ∧
      (∃ seen, latest (GatewayOp.updateOf gatewayId i)
        ((t.map Prod.fst).filterMap LoopEvent.gatewayOp) = some (d.addr, seen)) ∧
      ∀ st rx', Uctun.ReceivesFresh st rx' d.bytes →
        (Uctun.Writes st rx' q ↔ q.length ≤ bufferSize - pktOffset) := by
  have haged := aged_run hrun hpos hlag
  have hentries := hsole.entries hrun
  have hevents : t.map Prod.fst =
      pre.map Prod.fst ++ rx.sees :: (mid.map Prod.fst ++ rx.learns :: post.map Prod.fst) := by
    rw [ht]
    simp
  obtain ⟨hpath, hkept⟩ :=
    learnt_kept (ht ▸ hrun) (hevents ▸ hpos) hnonneg (hevents ▸ hlag) hlearnt
  have hhead : Agree (0 : u8) 20 pkg.payload q := by
    rw [hpay]
    exact (Agree.append_nil 0 q _).mono hheader
  have hversion : ipVersion pkg.payload = 4 :=
    (ipVersion_reads _ _ (hhead.mono (by decide))).trans hv4
  have hsum : (connHashCal pkg.payload).hashVal = (connHashCal p).hashVal := by
    rw [connHashCal_reads _ _ hhead, hashVal_eq_flowSum, hashVal_eq_flowSum, hflow]
  rw [← hsum] at hkept hentries
  have hgw : m.p.sv.gatewayOf ts' pkg = gatewayId := gatewayOf_eq hkept hversion hentries
  have hgw0 : m.p.sv.gatewayOf ts' pkg ≠ 0 := by
    rw [hgw]
    decide
  obtain ⟨gw, hmem, hentry, hid, hseen⟩ := hpath.record
  have hrecord : m.p.sv.recordOf ts' headMem pkg = gw := recordOf_entry (by rw [hgw, hentry])
  rw [sendToGateway_direct_sent hgw0 hfec, hrecord]
  refine ⟨_, List.mem_map_of_mem (List.mem_filter.2 ⟨List.mem_finRange i,
    decide_eq_true ⟨hseen, hsock⟩⟩), rfl, ⟨gw.lastSeenApn i, ?_⟩, fun st rx' hfresh => ?_⟩
  · have hrecent := haged.recent gw hmem i hseen
    rwa [hid] at hrecent
  · rw [hpay, Nat.add_comm, bytes_take] at hfresh
    have hrs : (sentHeader m.p.sv ts' pkg q.length).fecRs = 0 :=
      not_not.1 (mt (fillHeader_fecRs _ _ _ _).1 hfec)
    have hmagic : (sentHeader m.p.sv ts' pkg q.length).magic = magicNum := by
      simp [fillHeader, hfec]
    have hid' : (sentHeader m.p.sv ts' pkg q.length).gw = gatewayId := hgw
    rw [Uctun.writes_direct hmagic hid' hrs hfresh, List.take_eq_self_iff]

/-- A packet that the client sends on its first path. -/
theorem directRx_carries {p : List u8} (hv4 : ipVersion p = 4) (hheader : 20 ≤ p.length)
    (hlen : p.length ≤ bufferSize) : (directRx p).Carries p 0 where
  v4 := hv4
  header_le := hheader
  length_le := hlen
  sent := by
    refine ⟨directSender, FecCodec.new, storedPkg p, [], [], directDatagram p, rfl,
      by simp [directSender], ?_, rfl⟩
    rw [Uctun.sendPacket_direct (by simp [directSender])]
    refine ⟨by decide, ?_⟩
    rw [plen_toNat hlen]
    exact (bytes_take _ [] p).symm

/-- It comes at time 4, and a pass tests the clock between the two calls; the next pass cleans up
180 seconds later. -/
def lateReply : List (LoopEvent × List Sent) :=
  [(.receiver (.openSock 0 5), [])] ++ ((directRx (flowPacket 1 4)).sees, []) ::
    ([(.check 4, [])] ++ ((directRx (flowPacket 1 4)).learns, []) ::
      [(.check 184, []), (.cleanGateways 184, []), (.cleanConnections 184, [])])

theorem reply_returns_late :
    ∃ m, Run loopMachine (MainLoop.start false 1 1) lateReply m ∧
      ∃ d ∈ (sendToGateway m.p.sv 184 GatewayAddr.zero FecCodec.new replyPkg 20).sent,
        d.sock = 0 ∧ ∀ st rx', Uctun.ReceivesFresh st rx' d.bytes →
          (Uctun.Writes st rx' (flowPacket 4 1) ↔ 20 ≤ 1492) := by
  have hrun : Run loopMachine (MainLoop.start false 1 1) lateReply _ :=
    .cons ⟨⟨rfl, by decide, rfl, rfl⟩, rfl⟩ (.cons ⟨⟨rfl, trivial⟩, rfl⟩ (.cons ⟨rfl, rfl⟩
      (.cons ⟨⟨rfl, trivial⟩, rfl⟩ (.cons ⟨rfl, rfl⟩ (.cons ⟨⟨184, rfl⟩, rfl⟩
        (.cons ⟨⟨184, rfl⟩, rfl⟩ (.nil _)))))))
  have hcarries : (directRx (flowPacket 1 4)).Carries (flowPacket 1 4) 0 :=
    directRx_carries (by decide) (by decide) (by decide)
  have hlearnt : (directRx (flowPacket 1 4)).LearntFor (flowPacket 1 4) 0 0 [.check 4]
      [.check 184, .cleanGateways 184, .cleanConnections 184] := by
    refine ⟨hcarries, rfl, rfl, fun now hnow => ?_, fun now hnow => ?_⟩
    · obtain rfl : now = 184 := by simpa using hnow
      decide
    · obtain rfl : now = 184 := by simpa using hnow
      decide
  have hsole : SoleSender (lateReply.map Prod.fst) gatewayId
      (connHashCal (flowPacket 1 4)).hashVal := by
    intro id ipPacket ts alloc hmem _ _
    simp only [lateReply, Rx.sees, Rx.learns, List.map_append, List.map_cons, List.map_nil,
      List.mem_append, List.mem_cons, List.not_mem_nil, LoopEvent.receiver.injEq,
      Call.updateConnTable.injEq, reduceCtorEq, or_false, false_or] at hmem
    rw [hmem.1]
    exact hcarries.pkg_eq.1
  obtain ⟨d, hd, hsock, -, hwrites⟩ := reply_returns false 1 1 0 [(.receiver (.openSock 0 5), [])]
    [(.check 4, [])] [(.check 184, []), (.cleanGateways 184, []), (.cleanConnections 184, [])] [] []
    _ (directRx (flowPacket 1 4)) (flowPacket 1 4) (flowPacket 4 1) [] 0 184 GatewayAddr.zero
    FecCodec.new replyPkg lateReply rfl hrun (by decide) (le_refl 0)
    (show List.Pairwise _ _ by decide) hlearnt hsole (by decide) (by decide) (by decide) rfl
    (fun hfec => absurd hfec.2 (by decide)) (by decide)
  exact ⟨_, hrun, d, hd, hsock, hwrites⟩

end Ustun

end ConfigEnv.TunVpn
