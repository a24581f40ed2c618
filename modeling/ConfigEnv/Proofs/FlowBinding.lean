/-
Module: ConfigEnv.Proofs.FlowBinding
Layer: Proofs
Purpose: The connection table against the map of flows. The table is searched by the sum of the
  addresses and keeps the gateway of an entry that it has, so it is the map as long as no flow takes
  the sum of another and none moves to another gateway. A flow that moves stays with the gateway
  that sent it first.
Trusted boundary: none
Main exports: TableHolds, connStep_flowStep, find_gateway_most_recent
Open obligations: none
-/
import ConfigEnv.Proofs.ConnTable
import ConfigEnv.Spec.FlowMap

namespace ConfigEnv.TunVpn

open Leases Machine

/-! ### The table as a map -/

/-- An entry of `conn_table` as a lease. -/
def ConnEntry.lease (entry : ConnEntry) : Lease u8 :=
  { value := entry.gatewayId, lastUsed := entry.lastUsed }

/-- The entries are the bindings of the map, each under the sum of its addresses. -/
structure TableHolds (conns : List ConnEntry) (flows : FlowMap) : Prop where
  rows : Represents (fun entry => entry.key.flow) ConnEntry.lease conns flows
  sums : ∀ entry ∈ conns, entry.key.hashVal = flowSum entry.key.flow

namespace TableHolds

variable {conns conns' : List ConnEntry} {flows : FlowMap} {ipPacket : List u8} {ts : Int}

/-- When no other flow has the sum of the packet, the search by the sum is a search for the flow. -/
theorem hit_iff (h : TableHolds conns flows) (hown : SumIsOwn flows ipPacket) :
    ∀ entry ∈ conns, ConnEntry.hit (connHashCal ipPacket).hashVal entry = true ↔
      entry.key.flow = flowOf ipPacket := by
  intro entry hmem
  unfold ConnEntry.hit
  rw [decide_eq_true_eq, h.sums entry hmem, hashVal_eq_flowSum]
  constructor
  · intro hsum
    apply hown entry.key.flow ?_ hsum
    rw [h.rows.bound hmem]
    exact Option.some_ne_none _
  · intro hflow
    rw [hflow]

/-- A hit moves the time of the flow. -/
theorem touched (h : TableHolds conns flows) (hown : SumIsOwn flows ipPacket)
    (htouch : touchFirst (ConnEntry.hit (connHashCal ipPacket).hashVal) (ConnEntry.use ts) conns =
      some conns') : TableHolds conns' (touch flows (flowOf ipPacket) ts) := by
  have hhit := h.hit_iff hown
  have hone : conns.Pairwise fun a b => ConnEntry.hit (connHashCal ipPacket).hashVal a = true →
      ¬ ConnEntry.hit (connHashCal ipPacket).hashVal b = true := by
    apply List.Pairwise.imp_of_mem ?_ (List.pairwise_map.1 h.rows.nodup)
    intro a b ha hb hne hpa hpb
    exact hne (((hhit a ha).1 hpa).trans ((hhit b hb).1 hpb).symm)
  have hmap : conns' = conns.map fun entry =>
      if entry.key.flow = flowOf ipPacket then entry.use ts else entry := by
    rw [touchFirst_eq_map hone htouch]
    apply List.map_congr_left
    intro entry hmem
    simp only [hhit entry hmem]
  constructor
  · rw [hmap]
    exact h.rows.touch _ ts (fun _ => rfl) fun _ => rfl
  · intro entry hmem
    obtain ⟨old, hold, hentry⟩ := mem_touchFirst htouch hmem
    rcases hentry with rfl | rfl
    · exact h.sums entry hold
    · exact h.sums old hold

/-- Without a hit the flow is not bound. -/
theorem unbound (h : TableHolds conns flows) (hown : SumIsOwn flows ipPacket)
    (htouch : touchFirst (ConnEntry.hit (connHashCal ipPacket).hashVal) (ConnEntry.use ts) conns =
      none) : flows (flowOf ipPacket) = none := by
  rw [← h.rows.find (h.hit_iff hown), List.find?_eq_none.2 (touchFirst_eq_none.1 htouch)]
  rfl

theorem bound (h : TableHolds conns flows) (hown : SumIsOwn flows ipPacket)
    (htouch : touchFirst (ConnEntry.hit (connHashCal ipPacket).hashVal) (ConnEntry.use ts) conns =
      some conns') : ∃ l, flows (flowOf ipPacket) = some l := by
  rw [← Option.ne_none_iff_exists']
  intro hnone
  rw [← h.rows.find (h.hit_iff hown), Option.map_eq_none_iff, List.find?_eq_none,
    ← touchFirst_eq_none (f := ConnEntry.use ts), htouch] at hnone
  cases hnone

end TableHolds

/-! ### The calls -/

section Calls

variable {conns conns' : List ConnEntry} {flows : FlowMap} {op : ConnOp} {out : Option u8}
  {gatewayId : u8} {ipPacket : List u8} {ts : Int} {alloc : Bool}

/-- A lookup of a version 4 packet: the first hit is used and gives the gateway. -/
theorem findGatewayForPacket_ipv4 (hv4 : ipVersion ipPacket = 4) :
    findGatewayForPacket conns ts ipPacket =
      ((touchFirst (ConnEntry.hit (connHashCal ipPacket).hashVal) (ConnEntry.use ts) conns).getD
          conns,
        ((conns.find? (ConnEntry.hit (connHashCal ipPacket).hashVal)).map
          ConnEntry.gatewayId).getD 0) := by
  unfold findGatewayForPacket
  rw [if_neg (not_not.2 hv4)]
  dsimp only
  cases hfind : conns.find? (ConnEntry.hit (connHashCal ipPacket).hashVal) with
  | some entry => rfl
  | none => rw [touchFirst_eq_none.2 (List.find?_eq_none.1 hfind)]; rfl

/-- A packet that is not of version 4 is looked up nowhere. -/
theorem findGatewayForPacket_other (hv4 : ipVersion ipPacket ≠ 4) :
    findGatewayForPacket conns ts ipPacket = (conns, 0) :=
  if_pos hv4

/-- An update keeps the table the map, if the flow stays with its gateway. -/
theorem TableHolds.update (h : TableHolds conns flows) (hv4 : ipVersion ipPacket = 4)
    (hown : SumIsOwn flows ipPacket)
    (hgw : ∀ l, flows (flowOf ipPacket) = some l → l.value = gatewayId) :
    TableHolds (updateConnTable conns ts alloc gatewayId ipPacket)
      (flowStep flows (.update gatewayId ipPacket ts alloc)).1 := by
  unfold updateConnTable
  rw [if_neg (not_not.2 hv4)]
  dsimp only
  cases htouch : touchFirst (ConnEntry.hit (connHashCal ipPacket).hashVal) (ConnEntry.use ts)
      conns with
  | some conns' =>
      obtain ⟨l, hl⟩ := h.bound hown htouch
      have hassign := touch_eq_assign hl ts
      rw [hgw l hl] at hassign
      simp only [flowStep, hv4, hl, Option.isSome_some, true_or, and_self, if_true]
      rw [← hassign]
      exact h.touched hown htouch
  | none =>
      have hnone := h.unbound hown htouch
      cases alloc with
      | false => simpa [flowStep, hnone] using h
      | true =>
          simp only [flowStep, hv4, or_true, and_self, if_true]
          constructor
          · exact h.rows.add
              { key := connHashCal ipPacket, gatewayId := gatewayId, lastUsed := ts } hnone
          · intro entry hmem
            rcases List.mem_cons.1 hmem with rfl | hmem
            · rfl
            · exact h.sums entry hmem

/-- A lookup finds the gateway of the flow, and is a use of it. -/
theorem TableHolds.lookup (h : TableHolds conns flows) (hv4 : ipVersion ipPacket = 4)
    (hown : SumIsOwn flows ipPacket) (ts : Int) :
    some (findGatewayForPacket conns ts ipPacket).2 = (flowStep flows (.find ipPacket ts)).2 ∧
      TableHolds (findGatewayForPacket conns ts ipPacket).1
        (flowStep flows (.find ipPacket ts)).1 := by
  rw [findGatewayForPacket_ipv4 hv4]
  simp only [flowStep, hv4, if_true]
  constructor
  · rw [← h.rows.find (h.hit_iff hown), Option.map_map]
    rfl
  · cases htouch : touchFirst (ConnEntry.hit (connHashCal ipPacket).hashVal) (ConnEntry.use ts)
        conns with
    | some conns' => exact h.touched hown htouch
    | none =>
        rw [touch_unbound (h.unbound hown htouch)]
        exact h

/-- One call on the table is the same call on the map, with the same answer. -/
theorem connStep_flowStep (h : TableHolds conns flows) (hstays : FlowStays flows op)
    (hstep : connMachine conns op out conns') :
    ∃ flows', flowMachine flows op out flows' ∧ TableHolds conns' flows' := by
  cases op with
  | update gatewayId ipPacket ts alloc =>
      obtain ⟨rfl, rfl⟩ := Prod.mk.inj hstep
      by_cases hv4 : ipVersion ipPacket = 4
      · obtain ⟨hown, hgw⟩ := hstays hv4
        have hnone : (flowStep flows (.update gatewayId ipPacket ts alloc)).2 = none := by
          simp only [flowStep]
          split <;> rfl
        exact ⟨_, Prod.ext rfl hnone, h.update hv4 hown hgw⟩
      · refine ⟨flows, ?_, ?_⟩
        · exact if_neg fun hc => hv4 hc.1
        · rw [updateConnTable, if_pos hv4]
          exact h
  | find ipPacket ts =>
      have hcall : ((findGatewayForPacket conns ts ipPacket).1,
          some (findGatewayForPacket conns ts ipPacket).2) = (conns', out) := hstep
      obtain ⟨rfl, rfl⟩ := Prod.mk.inj hcall
      by_cases hv4 : ipVersion ipPacket = 4
      · obtain ⟨hanswer, hholds⟩ := h.lookup hv4 (hstays hv4) ts
        exact ⟨_, Prod.ext rfl hanswer.symm, hholds⟩
      · rw [findGatewayForPacket_other hv4]
        exact ⟨flows, if_neg hv4, h⟩
  | cleanup now expire =>
      obtain ⟨rfl, rfl⟩ := Prod.mk.inj hstep
      refine ⟨_, rfl, ?_, ?_⟩
      · exact h.rows.keep fun l => !(expire || decide (now - l.lastUsed > connTimeout))
      · intro entry hmem
        exact h.sums entry (List.mem_filter.1 hmem).1

end Calls

/-- In every run in which no flow takes the sum of another and none moves to another gateway, the
answers of the table are those of the map of most recent gateways. -/
theorem find_gateway_most_recent (t : List (ConnOp × Option u8)) (conns : List ConnEntry)
    (hrun : Run connMachine [] t conns)
    (hstays : Always flowMachine empty (t.map Prod.fst) FlowStays) :
    ∃ flows, Run flowMachine empty t flows := by
  have hstep : ∀ pre e post conns1 conns2 flows1, t = pre ++ e :: post →
      Run flowMachine empty pre flows1 → TableHolds conns1 flows1 →
      connMachine conns1 e.1 e.2 conns2 →
      ∃ flows2, flowMachine flows1 e.1 e.2 flows2 ∧ TableHolds conns2 flows2 := by
    intro pre e post conns1 conns2 flows1 ht hpre hholds hstep
    apply connStep_flowStep hholds ?_ hstep
    apply hstays (pre.map Prod.fst) e.1 (post.map Prod.fst) pre flows1 ?_ rfl hpre
    rw [ht, List.map_append, List.map_cons]
  obtain ⟨flows, hflows, -⟩ := hrun.simulate TableHolds ⟨Represents.nil, by simp⟩ hstep
  exact ⟨flows, hflows⟩

/-! ### One flow -/

theorem ipVersion_flowPacket (src dst : u8) : ipVersion (flowPacket src dst) = 4 := by
  change (0x45#8 >>> 4) &&& 0x0F#8 = 4#8
  decide

theorem flowOf_reply : flowOf (flowPacket 4 1) = flowOf (flowPacket 1 4) := by
  decide

/-- Learning a flow binds no other one. -/
theorem assign_bound {flows : FlowMap} {k : Sym2 u32} {gatewayId : u8} {ts : Int}
    (h : ∀ k', flows k' ≠ none → k' = k) :
    ∀ k', assign flows k gatewayId ts k' ≠ none → k' = k := by
  intro k' hk'
  rcases assign_ne_none hk' with heq | hne
  · exact heq
  · exact h k' hne

/-- The reply to a flow is found at the gateway that was learnt for it. -/
theorem find_gateway_most_recent_reply :
    ∃ flows, Run flowMachine empty (learnThenFind 4 1 7) flows := by
  have hrun : Run connMachine [] (learnThenFind 4 1 7) [learnedEntry] := learnThenFind_run rfl
  apply find_gateway_most_recent (learnThenFind 4 1 7) [learnedEntry] hrun
  have hfree : SumIsOwn empty (flowPacket 1 4) := fun k hk => absurd rfl hk
  refine .cons (fun _ => ⟨hfree, by simp [empty]⟩) fun out flows hstep => ?_
  refine .cons (fun _ => ?_) fun _ _ _ => .nil
  obtain rfl : assign empty (flowOf (flowPacket 1 4)) 7 0 = flows := congrArg Prod.fst hstep
  intro k hk _
  rw [flowOf_reply]
  exact assign_bound (fun k' hk' => absurd rfl hk') k hk

/-- Gateway 7 sends a packet of a flow, then gateway 9 does, and the reply goes to gateway 7. -/
def movedFlow : List (ConnOp × Option u8) :=
  [(.update 7 (flowPacket 1 4) 0 true, none), (.update 9 (flowPacket 1 4) 1 true, none),
    (.find (flowPacket 4 1) 2, some 7)]

/-- There is only one flow, and its most recent gateway is 9. -/
theorem find_gateway_keeps_first :
    (∃ conns, Run connMachine [] movedFlow conns) ∧
      Always flowMachine empty (movedFlow.map Prod.fst) (fun flows _ => NoSharedSum flows) ∧
      ¬ ∃ flows, Run flowMachine empty movedFlow flows := by
  have hshared : ∀ flows : FlowMap, (∀ k, flows k ≠ none → k = flowOf (flowPacket 1 4)) →
      NoSharedSum flows := by
    intro flows honly k k' hk hk' _
    rw [honly k hk, honly k' hk']
  have hstart : ∀ k, (empty : FlowMap) k ≠ none → k = flowOf (flowPacket 1 4) :=
    fun k hk => absurd rfl hk
  refine ⟨⟨_, .cons rfl (.cons rfl (.cons rfl (.nil _)))⟩, ?_, ?_⟩
  · refine .cons (hshared _ hstart) fun _ flows1 h1 => ?_
    obtain rfl : _ = flows1 := congrArg Prod.fst h1
    refine .cons (hshared _ (assign_bound hstart)) fun _ flows2 h2 => ?_
    obtain rfl : _ = flows2 := congrArg Prod.fst h2
    exact .cons (hshared _ (assign_bound (assign_bound hstart))) fun _ _ _ => .nil
  · rintro ⟨flows, hrun⟩
    obtain ⟨flows1, h1, hrun⟩ := hrun.cons_inv
    obtain ⟨flows2, h2, hrun⟩ := hrun.cons_inv
    obtain ⟨flows3, h3, -⟩ := hrun.cons_inv
    obtain rfl : _ = flows1 := congrArg Prod.fst h1
    obtain rfl : _ = flows2 := congrArg Prod.fst h2
    have hanswer : _ = some (7 : u8) := congrArg Prod.snd h3
    simp only [flowStep, ipVersion_flowPacket, flowOf_reply, assign, Function.update_self, or_true,
      and_self, if_true, Option.map_some, Option.getD_some] at hanswer
    exact absurd hanswer (by decide)

end ConfigEnv.TunVpn
