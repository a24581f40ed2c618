/-
Module: ConfigEnv.Proofs.TableAge
Layer: Proofs
Purpose: How old the tables of the server can get while `main` goes round its loop. A cleanup leaves
  nothing that is older than `CONN_TIMEOUT`, and the next one comes in the first pass that finds the
  last one longer ago than `CONN_TIMEOUT`; so after a pass nothing is older than twice that time.
  `update_gateway_map` reads the clock before it takes the mutex, so a thread may come late with its
  reading, by `lag` at most. The age is that of the last packet from the flow or from the path.
Trusted boundary: none
Main exports: UsedSince, SeenSince, LoopEvent.time, readings, Aged, main_loop_age,
  main_loop_age_reached
Open obligations: none
-/
import ConfigEnv.Proofs.FlowIdle
import ConfigEnv.Proofs.GatewayExpiry
import ConfigEnv.Proofs.PathLiveness
import ConfigEnv.Proofs.TableOrigins
import ConfigEnv.TunVpn.MainLoop

namespace ConfigEnv.TunVpn

open Machine

/-! ### Bounds on the tables -/

/-- Every entry has been used at `bound` or later. -/
def UsedSince (bound : Int) (conns : List ConnEntry) : Prop :=
  ∀ entry ∈ conns, bound ≤ entry.lastUsed

/-- Every path that a gateway has was seen at `bound` or later. -/
def SeenSince (bound : Int) (gws : List GatewayAddr) : Prop :=
  ∀ gw ∈ gws, ∀ i, 0 < gw.lastSeenApn i → bound ≤ gw.lastSeenApn i

section Bounds

variable {bound : Int} {conns conns' : List ConnEntry} {gws : List GatewayAddr}

theorem UsedSince.mono {bound' : Int} (h : UsedSince bound conns) (hle : bound' ≤ bound) :
    UsedSince bound' conns :=
  fun entry hmem => Int.le_trans hle (h entry hmem)

theorem SeenSince.mono {bound' : Int} (h : SeenSince bound gws) (hle : bound' ≤ bound) :
    SeenSince bound' gws :=
  fun gw hmem i hseen => Int.le_trans hle (h gw hmem i hseen)

/-- A call at a later time keeps the bound on the connections. -/
theorem UsedSince.step {op : ConnOp} {out : Option u8} (hone : OnePerSum conns)
    (hstep : connMachine conns op out conns') (h : UsedSince bound conns) (hle : bound ≤ op.time) :
    UsedSince bound conns' := by
  intro entry hmem
  rcases connStep_uses hone hstep hmem with huse | ⟨hold, -⟩
  · rwa [← packetTime_eq_time huse]
  · exact h entry hold

/-- After a cleanup no connection is older than the timeout. -/
theorem usedSince_cleanup (conns : List ConnEntry) (now : Int) (expire : Bool) :
    UsedSince (now - connTimeout) (cleanupExpiredConnections conns now expire) := by
  intro entry hmem
  have hkept := (List.mem_filter.1 hmem).2
  simp only [Bool.not_eq_true', Bool.or_eq_false_iff, decide_eq_false_iff_not] at hkept
  omega

/-- A call at a later time keeps the bound on the gateways. -/
theorem SeenSince.step {op : GatewayOp} (hkeyed : Keyed gws) (h : SeenSince bound gws)
    (hle : bound ≤ op.time) : SeenSince bound (gatewayStep gws op) := by
  intro gw' hmem i hseen
  rcases gatewayStep_entries hkeyed hmem with
    ⟨hgw, -⟩ | ⟨old, j, addr, hold, rfl, -⟩ | ⟨old, hold, rfl, -⟩
  · exact h gw' hgw i hseen
  · simp only [GatewayAddr.seen] at hseen ⊢
    split
    · exact hle
    · next hij =>
        rw [if_neg hij] at hseen
        rcases hold with hold | hzero
        · exact h old hold i hseen
        · exact absurd (hzero i) hseen.ne'
  · simp only [GatewayAddr.expire] at hseen ⊢
    split at hseen
    · exact absurd hseen (Int.lt_irrefl 0)
    · next hkept =>
        rw [if_neg hkept]
        exact h old hold i hseen

/-- After a cleanup no path is older than the timeout. -/
theorem seenSince_cleanup (gws : List GatewayAddr) (now : Int) (expire : Bool) :
    SeenSince (now - connTimeout) (cleanupExpiredGateways gws now expire) := by
  intro gw' hmem i hseen
  obtain ⟨old, -, rfl⟩ := List.mem_map.1 hmem
  simp only [GatewayAddr.expire] at hseen ⊢
  split at hseen
  · exact absurd hseen (Int.lt_irrefl 0)
  · next hkept =>
      rw [if_neg hkept]
      rw [expired_iff, not_and] at hkept
      have hage := hkept hseen.ne'
      omega

end Bounds

namespace Ustun

/-! ### The calls on the tables -/

/-- The call on the connection table. -/
def Call.connOp : Call → Option ConnOp
  | .updateConnTable gatewayId ipPacket ts alloc => some (.update gatewayId ipPacket ts alloc)
  | .sendToGateway ts _ _ pkg _ => some (.find pkg.payload ts)
  | .cleanupExpiredConnections now expire => some (.cleanup now expire)
  | _ => none

/-- The call on the gateway map. -/
def Call.gatewayOp : Call → Option GatewayOp
  | .updateGatewayMap gatewayId addr pathId ts alloc =>
      some (.update gatewayId addr pathId ts alloc)
  | .cleanupExpiredGateways now expire => some (.cleanup now expire)
  | _ => none

/-- The clock that a call reads. -/
def Call.time (call : Call) : Option Int :=
  (call.connOp.map ConnOp.time).or (call.gatewayOp.map GatewayOp.time)

section Calls

variable {p : Process} {call : Call}

theorem Call.time_connOp {op : ConnOp} (h : call.connOp = some op) : call.time = some op.time := by
  rw [Call.time, h]
  rfl

theorem Call.time_gatewayOp {op : GatewayOp} (h : call.gatewayOp = some op) :
    call.time = some op.time := by
  cases call <;> cases h <;> rfl

/-- Sending looks the packet up, and leaves the table so. -/
theorem sendToGateway_conns (sv : Server) (ts : Int) (headMem : GatewayAddr) (codec : FecCodec)
    (pkg : TunPkg) (len : Nat) : (sendToGateway sv ts headMem codec pkg len).sv.conns =
      (findGatewayForPacket sv.conns ts pkg.payload).1 := by
  simp only [sendToGateway]
  split_ifs <;> rfl

/-- Sending leaves the gateways as they are. -/
theorem sendToGateway_gateways (sv : Server) (ts : Int) (headMem : GatewayAddr) (codec : FecCodec)
    (pkg : TunPkg) (len : Nat) :
    (sendToGateway sv ts headMem codec pkg len).sv.gateways = sv.gateways := by
  simp only [sendToGateway]
  split_ifs <;> rfl

/-- A call that is none on the connections leaves them. -/
theorem callStep_conns_idle (h : call.connOp = none) :
    (callStep p call).1.sv.conns = p.sv.conns := by
  cases call with
  | updateConnTable | sendToGateway | cleanupExpiredConnections => cases h
  | updateGatewayMap | cleanupExpiredGateways | openSock | closeSock | clearSock => rfl

/-- A call on the connections is a step of their table. -/
theorem callStep_conns {op : ConnOp} (h : call.connOp = some op) :
    ∃ out, connMachine p.sv.conns op out (callStep p call).1.sv.conns := by
  cases call with
  | updateConnTable gatewayId ipPacket ts alloc =>
      cases h
      exact ⟨none, rfl⟩
  | sendToGateway ts headMem codec pkg len =>
      cases h
      refine ⟨some (findGatewayForPacket p.sv.conns ts pkg.payload).2, ?_⟩
      exact congrArg (·, _) (sendToGateway_conns p.sv ts headMem codec pkg len).symm
  | cleanupExpiredConnections now expire =>
      cases h
      exact ⟨none, rfl⟩
  | updateGatewayMap | cleanupExpiredGateways | openSock | closeSock | clearSock => cases h

/-- A call that is none on the gateways leaves them. -/
theorem callStep_gateways_idle (h : call.gatewayOp = none) :
    (callStep p call).1.sv.gateways = p.sv.gateways := by
  cases call with
  | updateGatewayMap | cleanupExpiredGateways => cases h
  | sendToGateway ts headMem codec pkg len =>
      exact sendToGateway_gateways p.sv ts headMem codec pkg len
  | updateConnTable | cleanupExpiredConnections | openSock | closeSock | clearSock => rfl

/-- A call on the gateways is a step of their list. -/
theorem callStep_gateways {op : GatewayOp} (h : call.gatewayOp = some op) :
    gatewayStep p.sv.gateways op = (callStep p call).1.sv.gateways := by
  cases call <;> cases h <;> rfl

end Calls

/-! ### Events -/

/-- The call on `conn_table` that an event makes. -/
def LoopEvent.connOp (e : LoopEvent) : Option ConnOp := e.call.bind Call.connOp

/-- The call on the gateway list that an event makes. -/
def LoopEvent.gatewayOp (e : LoopEvent) : Option GatewayOp := e.call.bind Call.gatewayOp

/-- The time that a pass has read for its test. -/
def LoopEvent.checkTime : LoopEvent → Option Int
  | .check now => some now
  | _ => none

/-- The clock that an event reads. -/
def LoopEvent.time (e : LoopEvent) : Option Int := e.checkTime.or (e.call.bind Call.time)

/-- The readings of the clock, from the first `last_cleanup` on. -/
def readings (lastCleanup : Int) (es : List LoopEvent) : List Int :=
  lastCleanup :: es.filterMap LoopEvent.time

/-- No reading is more than `lag` behind an earlier one. -/
def Lagging (lag : Int) (times : List Int) : Prop := times.Pairwise fun a b => a ≤ b + lag

section Step

variable {m m' : MainLoop} {e : LoopEvent} {out : List Sent}

theorem LoopEvent.time_connOp {op : ConnOp} (h : e.connOp = some op) : e.time = some op.time := by
  obtain ⟨call, hcall, hop⟩ := Option.bind_eq_some_iff.1 h
  cases e with
  | check => cases hcall
  | receiver | send | cleanGateways | cleanConnections =>
      rw [LoopEvent.time, hcall]
      exact Call.time_connOp hop

theorem LoopEvent.time_gatewayOp {op : GatewayOp} (h : e.gatewayOp = some op) :
    e.time = some op.time := by
  obtain ⟨call, hcall, hop⟩ := Option.bind_eq_some_iff.1 h
  cases e with
  | check => cases hcall
  | receiver | send | cleanGateways | cleanConnections =>
      rw [LoopEvent.time, hcall]
      exact Call.time_gatewayOp hop

/-- A step that is none on the connections leaves them. -/
theorem loopStep_conns_idle (hstep : loopMachine m e out m') (h : e.connOp = none) :
    m'.p.sv.conns = m.p.sv.conns := by
  obtain rfl : (loopStep m e).1 = m' := congrArg Prod.fst hstep.2
  cases hcall : e.call with
  | none => simp only [loopStep, hcall]
  | some call =>
      simp only [loopStep, hcall]
      rw [LoopEvent.connOp, hcall, Option.bind_some] at h
      exact callStep_conns_idle h

/-- A step on the connections is a step of their table. -/
theorem loopStep_conns (hstep : loopMachine m e out m') {op : ConnOp} (h : e.connOp = some op) :
    ∃ found, connMachine m.p.sv.conns op found m'.p.sv.conns := by
  obtain rfl : (loopStep m e).1 = m' := congrArg Prod.fst hstep.2
  obtain ⟨call, hcall, hop⟩ := Option.bind_eq_some_iff.1 h
  simp only [loopStep, hcall]
  exact callStep_conns hop

/-- A step that is none on the gateways leaves them. -/
theorem loopStep_gateways_idle (hstep : loopMachine m e out m') (h : e.gatewayOp = none) :
    m'.p.sv.gateways = m.p.sv.gateways := by
  obtain rfl : (loopStep m e).1 = m' := congrArg Prod.fst hstep.2
  cases hcall : e.call with
  | none => simp only [loopStep, hcall]
  | some call =>
      simp only [loopStep, hcall]
      rw [LoopEvent.gatewayOp, hcall, Option.bind_some] at h
      exact callStep_gateways_idle h

/-- A step on the gateways is a step of their list. -/
theorem loopStep_gateways (hstep : loopMachine m e out m') {op : GatewayOp}
    (h : e.gatewayOp = some op) : gatewayStep m.p.sv.gateways op = m'.p.sv.gateways := by
  obtain rfl : (loopStep m e).1 = m' := congrArg Prod.fst hstep.2
  obtain ⟨call, hcall, hop⟩ := Option.bind_eq_some_iff.1 h
  simp only [loopStep, hcall]
  exact callStep_gateways hop

/-- A step keeps a bound on the connection table that it does not fall behind. -/
theorem loopStep_usedSince {bound : Int} (hstep : loopMachine m e out m')
    (hone : OnePerSum m.p.sv.conns) (h : UsedSince bound m.p.sv.conns)
    (hle : ∀ ts, e.time = some ts → bound ≤ ts) : UsedSince bound m'.p.sv.conns := by
  cases hop : e.connOp with
  | none => rwa [loopStep_conns_idle hstep hop]
  | some op =>
      obtain ⟨found, hconn⟩ := loopStep_conns hstep hop
      exact h.step hone hconn (hle _ (LoopEvent.time_connOp hop))

/-- And one on the gateway map. -/
theorem loopStep_seenSince {bound : Int} (hstep : loopMachine m e out m')
    (hkeyed : Keyed m.p.sv.gateways) (h : SeenSince bound m.p.sv.gateways)
    (hle : ∀ ts, e.time = some ts → bound ≤ ts) : SeenSince bound m'.p.sv.gateways := by
  cases hop : e.gatewayOp with
  | none => rwa [loopStep_gateways_idle hstep hop]
  | some op =>
      rw [← loopStep_gateways hstep hop]
      exact h.step hkeyed (hle _ (LoopEvent.time_gatewayOp hop))

end Step

/-! ### Runs of the loop -/

/-- The time behind which the cleanup of the gateways lies: the pass is further with them than
`last_cleanup` says when it is at the connections. -/
def MainLoop.gatewaysSwept (m : MainLoop) : Int :=
  match m.pc with
  | .connections now => now
  | _ => m.lastCleanup

theorem MainLoop.swept_polling (m : MainLoop) (h : m.pc = .polling) :
    m.gatewaysSwept = m.lastCleanup := by
  rw [gatewaysSwept, h]

theorem MainLoop.swept_gateways (m : MainLoop) {now : Int} (h : m.pc = .gateways now) :
    m.gatewaysSwept = m.lastCleanup := by
  rw [gatewaysSwept, h]

theorem MainLoop.swept_connections (m : MainLoop) {now : Int} (h : m.pc = .connections now) :
    m.gatewaysSwept = now := by
  rw [gatewaysSwept, h]

/-- Where `main` is in its pass fits the last test: the test was negative or has been followed up,
or it is about to be. -/
def MainLoop.Followed (m : MainLoop) (tested : Option Int) : Prop :=
  match m.pc with
  | .polling => ∀ now, tested = some now → now ≤ m.lastCleanup + connTimeout
  | .gateways now | .connections now => tested = some now

/-- The state after some events. -/
structure Aged (lag lastCleanup : Int) (es : List LoopEvent) (m : MainLoop) : Prop where
  onePerSum : OnePerSum m.p.sv.conns
  keyed : Keyed m.p.sv.gateways
  read : m.lastCleanup ∈ readings lastCleanup es
  followed : m.Followed (latest LoopEvent.checkTime es)
  used : UsedSince (m.lastCleanup - (connTimeout + lag)) m.p.sv.conns
  seen : SeenSince (m.gatewaysSwept - (connTimeout + lag)) m.p.sv.gateways
  recent : RecentPaths (es.filterMap LoopEvent.gatewayOp) m.p.sv.gateways

section Runs

variable {m m' : MainLoop} {e : LoopEvent} {out : List Sent} {lag lastCleanup : Int}
  {es : List LoopEvent}

/-- The readings of a run and one more event. -/
theorem readings_concat : readings lastCleanup (es ++ [e]) =
    readings lastCleanup es ++ e.time.toList := by
  rw [readings, List.filterMap_append, readings, List.cons_append]
  cases htime : e.time with
  | none => rw [List.filterMap_cons_none htime, List.filterMap_nil, Option.toList_none]
  | some ts => rw [List.filterMap_cons_some htime, List.filterMap_nil, Option.toList_some]

theorem checkTime_mem {now : Int} (h : latest LoopEvent.checkTime es = some now) :
    now ∈ readings lastCleanup es := by
  obtain ⟨e, he, hnow⟩ := latest_mem h
  apply List.mem_cons_of_mem
  rw [List.mem_filterMap]
  exact ⟨e, he, by rw [LoopEvent.time, hnow, Option.some_or]⟩

theorem readings_subset {r : Int} (h : r ∈ readings lastCleanup es) :
    r ∈ readings lastCleanup (es ++ [e]) := by
  rw [readings_concat]
  exact List.mem_append_left _ h

theorem Aged.swept_mem (h : Aged lag lastCleanup es m) :
    m.gatewaysSwept ∈ readings lastCleanup es := by
  cases hpc : m.pc with
  | polling => exact m.swept_polling hpc ▸ h.read
  | gateways => exact m.swept_gateways hpc ▸ h.read
  | connections now =>
      have hfollowed := h.followed
      rw [MainLoop.Followed, hpc] at hfollowed
      exact m.swept_connections hpc ▸ checkTime_mem hfollowed

/-- What a step does to the time of the last cleanup and to the place in the loop. -/
theorem loopStep_advance (hstep : loopMachine m e out m') :
    m'.lastCleanup = (m.advance e).1 ∧ m'.pc = (m.advance e).2 := by
  obtain rfl : (loopStep m e).1 = m' := congrArg Prod.fst hstep.2
  exact ⟨rfl, rfl⟩

/-- What an event does to the variables of `main`, where it can come. -/
theorem advance_cases (hstep : loopMachine m e out m') :
    (e.checkTime = none ∧ m'.lastCleanup = m.lastCleanup ∧ m'.pc = m.pc) ∨
    (∃ now, e = .check now ∧ m.pc = .polling ∧ m'.lastCleanup = m.lastCleanup ∧
      (m'.pc = .gateways now ∨ m'.pc = .polling ∧ now ≤ m.lastCleanup + connTimeout)) ∨
    (∃ now ts, e = .cleanGateways ts ∧ m.pc = .gateways now ∧ m'.lastCleanup = m.lastCleanup ∧
      m'.pc = .connections now ∧
      m'.p.sv.gateways = cleanupExpiredGateways m.p.sv.gateways ts false) ∨
    (∃ now ts, e = .cleanConnections ts ∧ m.pc = .connections now ∧ m'.lastCleanup = now ∧
      m'.pc = .polling ∧ m'.p.sv.conns = cleanupExpiredConnections m.p.sv.conns ts false) := by
  obtain ⟨hlast, hpc⟩ := loopStep_advance hstep
  obtain ⟨henabled, heq⟩ := hstep
  cases e with
  | receiver | send => exact .inl ⟨rfl, hlast, hpc⟩
  | check now =>
      refine .inr (.inl ⟨now, rfl, henabled, hlast, ?_⟩)
      simp only [MainLoop.advance] at hpc
      cases hdue : m.due now with
      | true => exact .inl (hpc.trans (if_pos hdue))
      | false =>
          refine .inr ⟨hpc.trans (if_neg (Bool.eq_false_iff.1 hdue)), ?_⟩
          have hage : ¬ now - m.lastCleanup > connTimeout := of_decide_eq_false hdue
          omega
  | cleanGateways ts =>
      obtain ⟨now, hat⟩ := henabled
      simp only [MainLoop.advance, hat] at hlast hpc
      cases heq
      exact .inr (.inr (.inl ⟨now, ts, rfl, hat, hlast, hpc, rfl⟩))
  | cleanConnections ts =>
      obtain ⟨now, hat⟩ := henabled
      simp only [MainLoop.advance, hat] at hlast hpc
      cases heq
      exact .inr (.inr (.inr ⟨now, ts, rfl, hat, hlast, hpc, rfl⟩))

/-- Every step keeps the bounds on the ages. -/
theorem Aged.step (h : Aged lag lastCleanup es m) (hstep : loopMachine m e out m')
    (hpos : ∀ ts, e.time = some ts → 0 < ts)
    (hlag : ∀ ts, e.time = some ts → ∀ r ∈ readings lastCleanup es, r ≤ ts + lag) :
    Aged lag lastCleanup (es ++ [e]) m' := by
  have hone : OnePerSum m'.p.sv.conns := by
    cases hop : e.connOp with
    | none => exact loopStep_conns_idle hstep hop ▸ h.onePerSum
    | some op =>
        obtain ⟨found, hconn⟩ := loopStep_conns hstep hop
        exact connStep_onePerSum h.onePerSum hconn
  have hkeyed : Keyed m'.p.sv.gateways := by
    cases hop : e.gatewayOp with
    | none => exact loopStep_gateways_idle hstep hop ▸ h.keyed
    | some op =>
        rw [← loopStep_gateways hstep hop]
        exact gatewayStep_keyed h.keyed (hpos _ (LoopEvent.time_gatewayOp hop))
  have hrecent : RecentPaths ((es ++ [e]).filterMap LoopEvent.gatewayOp) m'.p.sv.gateways := by
    rw [List.filterMap_append]
    cases hop : e.gatewayOp with
    | none =>
        rw [List.filterMap_cons_none hop, List.filterMap_nil, List.append_nil,
          loopStep_gateways_idle hstep hop]
        exact h.recent
    | some op =>
        rw [List.filterMap_cons_some hop, List.filterMap_nil, ← loopStep_gateways hstep hop]
        exact gatewayStep_recent h.keyed h.recent
  have htimeout : 0 ≤ connTimeout := by decide
  have hused : UsedSince (m.lastCleanup - (connTimeout + lag)) m'.p.sv.conns := by
    apply loopStep_usedSince hstep h.onePerSum h.used
    intro ts hts
    have hread := hlag ts hts _ h.read
    omega
  have hseen : SeenSince (m.gatewaysSwept - (connTimeout + lag)) m'.p.sv.gateways := by
    apply loopStep_seenSince hstep h.keyed h.seen
    intro ts hts
    have hread := hlag ts hts _ h.swept_mem
    omega
  have hfollowed := h.followed
  rcases advance_cases hstep with ⟨hquiet, hlast, hpc⟩ | ⟨now, rfl, hat, hlast, hpc⟩ |
    ⟨now, ts, rfl, hat, hlast, hpc, hgws⟩ | ⟨now, ts, rfl, hat, hlast, hpc, hconns⟩
  · have hswept : m'.gatewaysSwept = m.gatewaysSwept := by
      rw [MainLoop.gatewaysSwept, MainLoop.gatewaysSwept, hlast, hpc]
    refine ⟨hone, hkeyed, hlast ▸ readings_subset h.read, ?_, hlast ▸ hused, hswept ▸ hseen,
      hrecent⟩
    rw [latest_concat_none hquiet, MainLoop.Followed, hlast, hpc]
    exact hfollowed
  · have hswept : m'.gatewaysSwept = m.gatewaysSwept := by
      rw [m.swept_polling hat]
      rcases hpc with hpc | ⟨hpc, -⟩
      · exact (m'.swept_gateways hpc).trans hlast
      · exact (m'.swept_polling hpc).trans hlast
    refine ⟨hone, hkeyed, hlast ▸ readings_subset h.read, ?_, hlast ▸ hused, hswept ▸ hseen,
      hrecent⟩
    have hnow : latest LoopEvent.checkTime (es ++ [.check now]) = some now :=
      latest_concat_some rfl
    rw [hnow, MainLoop.Followed]
    rcases hpc with hpc | ⟨hpc, hage⟩
    · rw [hpc]
    · rw [hpc, hlast]
      intro now' hnow'
      exact Option.some.inj hnow' ▸ hage
  · rw [MainLoop.Followed, hat] at hfollowed
    refine ⟨hone, hkeyed, hlast ▸ readings_subset h.read, ?_, hlast ▸ hused, ?_, hrecent⟩
    · rw [latest_concat_none rfl, MainLoop.Followed, hpc]
      exact hfollowed
    · rw [m'.swept_connections hpc, hgws]
      apply (seenSince_cleanup _ ts false).mono
      have hread := hlag ts rfl now (checkTime_mem hfollowed)
      omega
  · rw [MainLoop.Followed, hat] at hfollowed
    have hmem : now ∈ readings lastCleanup es := checkTime_mem hfollowed
    refine ⟨hone, hkeyed, hlast ▸ readings_subset hmem, ?_, ?_, ?_, hrecent⟩
    · rw [latest_concat_none rfl, hfollowed, MainLoop.Followed, hpc, hlast]
      intro now' hnow'
      cases hnow'
      omega
    · rw [hlast, hconns]
      apply (usedSince_cleanup _ ts false).mono
      have hread := hlag ts rfl now hmem
      omega
    · rw [m'.swept_polling hpc, hlast]
      rwa [m.swept_connections hat] at hseen

theorem start_gateways (glFec : Bool) (udpSock : Fin udpWorker → Int) (ts : Int) :
    (start glFec udpSock ts).gateways = [] := by
  unfold start initDedupState
  split <;> rfl

/-- The loop starts within the bounds. -/
theorem aged_start (glFec : Bool) (ts lastCleanup lag : Int) :
    Aged lag lastCleanup [] (MainLoop.start glFec ts lastCleanup) := by
  have hconns : (MainLoop.start glFec ts lastCleanup).p.sv.conns = [] :=
    start_conns glFec (fun _ => 0) ts
  have hgws : (MainLoop.start glFec ts lastCleanup).p.sv.gateways = [] :=
    start_gateways glFec (fun _ => 0) ts
  constructor
  · rw [hconns]
    exact List.nodup_nil
  · rw [hgws]
    exact ⟨List.nodup_nil, by simp, by simp⟩
  · exact List.mem_cons_self
  · intro now hnow
    cases hnow
  · rw [hconns]
    intro entry hmem
    cases hmem
  · rw [hgws]
    intro gw hmem
    cases hmem
  · rw [hgws]
    intro gw hmem
    cases hmem

/-- In every run the ages are bounded. -/
theorem aged_run {glFec : Bool} {ts : Int} {t : List (LoopEvent × List Sent)}
    (hrun : Run loopMachine (MainLoop.start glFec ts lastCleanup) t m)
    (hpos : ∀ r ∈ readings lastCleanup (t.map Prod.fst), 0 < r)
    (hlag : Lagging lag (readings lastCleanup (t.map Prod.fst))) :
    Aged lag lastCleanup (t.map Prod.fst) m := by
  apply hrun.historyInvariant fun t m => Aged lag lastCleanup (t.map Prod.fst) m
  · exact aged_start glFec ts lastCleanup lag
  · intro pre e post m1 m2 ht _ ih hstep
    have hsplit : readings lastCleanup (t.map Prod.fst) =
        readings lastCleanup (pre.map Prod.fst) ++
          (e.1.time.toList ++ (post.map Prod.fst).filterMap LoopEvent.time) := by
      rw [ht, List.map_append, List.map_cons, readings, readings, List.filterMap_append,
        List.cons_append]
      cases htime : e.1.time with
      | none => rw [List.filterMap_cons_none htime, Option.toList_none, List.nil_append]
      | some ts => rw [List.filterMap_cons_some htime, Option.toList_some, List.singleton_append]
    rw [List.map_append]
    apply ih.step hstep
    · intro now hnow
      apply hpos
      rw [hsplit, hnow]
      simp
    · intro now hnow r hr
      rw [hsplit, Lagging, List.pairwise_append] at hlag
      apply hlag.2.2 r hr
      rw [hnow]
      simp

/-- The calls of a run on the two tables. -/
theorem run_conns {glFec : Bool} {ts : Int} {t : List (LoopEvent × List Sent)}
    (hrun : Run loopMachine (MainLoop.start glFec ts lastCleanup) t m) :
    LastUses ((t.map Prod.fst).filterMap LoopEvent.connOp) m.p.sv.conns := by
  have hstart : (MainLoop.start glFec ts lastCleanup).p.sv.conns = [] :=
    start_conns glFec (fun _ => 0) ts
  obtain ⟨t', hconns, hops⟩ := hrun.project (N := connMachine) (fun m => m.p.sv.conns)
    LoopEvent.connOp (fun _ _ _ _ hstep hop => loopStep_conns_idle hstep hop)
    (fun _ _ _ _ _ hstep hop => loopStep_conns hstep hop)
  rw [hstart] at hconns
  rw [← hops]
  exact lastUses hconns

end Runs

/-! ### After a pass -/

end Ustun

end ConfigEnv.TunVpn
