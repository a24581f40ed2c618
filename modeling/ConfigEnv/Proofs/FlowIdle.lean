/-
Module: ConfigEnv.Proofs.FlowIdle
Layer: Proofs
Purpose: How long the connection table keeps an entry. An entry was used last by the last packet
  with its sum of addresses, in either direction, and there is one entry for a sum. So a flow whose
  packets follow each other closely enough finds an entry as long as the table is not emptied, and a
  cleanup leaves no entry that has been idle for longer.
Trusted boundary: none
Main exports: ConnOp.time, ConnOp.packetTime, OnePerSum, useSum, connStep_cases, LastUses, lastUses,
  Active, ActiveFlowsFound, NoneIdle, flow_binding
Open obligations: none
-/
import ConfigEnv.Proofs.ConnTable
import ConfigEnv.Spec.FlowMap

namespace ConfigEnv.TunVpn

open Machine

/-- The clock that a call reads. -/
def ConnOp.time : ConnOp → Int
  | .update _ _ ts _ => ts
  | .find _ ts => ts
  | .cleanup now _ => now

/-- The time of a call on an IPv4 packet of a kind. -/
def ConnOp.packetTime (kind : List u8 → Bool) : ConnOp → Option Int
  | .update _ ipPacket ts _ => if ipVersion ipPacket = 4 ∧ kind ipPacket then some ts else none
  | .find ipPacket ts => if ipVersion ipPacket = 4 ∧ kind ipPacket then some ts else none
  | .cleanup _ _ => none

/-- The packets with a sum of addresses, and the packets of a flow. -/
def hasSum (hashVal : u32) (ipPacket : List u8) : Bool := (connHashCal ipPacket).hashVal = hashVal

def ofFlow (k : Sym2 u32) (ipPacket : List u8) : Bool := flowOf ipPacket = k

/-! ### One call -/

section Step

variable {conns conns' : List ConnEntry} {op : ConnOp} {out : Option u8} {hashVal : u32} {ts : Int}

/-- There is one entry for a sum. -/
def OnePerSum (conns : List ConnEntry) : Prop := (conns.map fun entry => entry.key.hashVal).Nodup

/-- Every entry with the sum is used. -/
def useSum (conns : List ConnEntry) (hashVal : u32) (ts : Int) : List ConnEntry :=
  conns.map fun entry => if entry.key.hashVal = hashVal then entry.use ts else entry

theorem useSum_of_none (h : ∀ entry ∈ conns, ¬ entry.key.hashVal = hashVal) :
    useSum conns hashVal ts = conns := by
  conv_rhs => rw [← List.map_id conns]
  apply List.map_congr_left
  intro entry hmem
  exact if_neg (h entry hmem)

theorem hit_iff {entry : ConnEntry} :
    ConnEntry.hit hashVal entry = true ↔ entry.key.hashVal = hashVal :=
  decide_eq_true_iff

/-- A traversal for a sum marks the one entry with that sum as used. -/
theorem touchFirst_hit (h : OnePerSum conns) :
    touchFirst (ConnEntry.hit hashVal) (ConnEntry.use ts) conns =
      if ∃ entry ∈ conns, entry.key.hashVal = hashVal then some (useSum conns hashVal ts)
      else none := by
  cases htouch : touchFirst (ConnEntry.hit hashVal) (ConnEntry.use ts) conns with
  | none =>
      rw [touchFirst_eq_none] at htouch
      rw [if_neg]
      rintro ⟨entry, hmem, hsum⟩
      exact htouch entry hmem (hit_iff.2 hsum)
  | some conns' =>
      have hone : conns.Pairwise fun a b => ConnEntry.hit hashVal a = true →
          ¬ ConnEntry.hit hashVal b = true := by
        apply (List.pairwise_map.1 h).imp
        intro a b hne ha hb
        exact hne ((hit_iff.1 ha).trans (hit_iff.1 hb).symm)
      rw [if_pos, touchFirst_eq_map hone htouch, useSum]
      · simp only [hit_iff]
      · by_contra hno
        have hnone : touchFirst (ConnEntry.hit hashVal) (ConnEntry.use ts) conns = none :=
          touchFirst_eq_none.2 fun entry hmem hhit => hno ⟨entry, hmem, hit_iff.1 hhit⟩
        rw [hnone] at htouch
        cases htouch

/-- What learning a packet does to the table: mark its entry, or put a new one in front. -/
theorem updateConnTable_v4 (h : OnePerSum conns) {ipPacket : List u8}
    (hv4 : ipVersion ipPacket = 4) (alloc : Bool) (gatewayId : u8) :
    updateConnTable conns ts alloc gatewayId ipPacket =
      if (∃ entry ∈ conns, entry.key.hashVal = (connHashCal ipPacket).hashVal) ∨ alloc = false then
        useSum conns (connHashCal ipPacket).hashVal ts
      else { key := connHashCal ipPacket, gatewayId := gatewayId, lastUsed := ts } :: conns := by
  rw [updateConnTable, if_neg (not_not.2 hv4)]
  simp only [touchFirst_hit h]
  by_cases hfound : ∃ entry ∈ conns, entry.key.hashVal = (connHashCal ipPacket).hashVal
  · rw [if_pos hfound, if_pos (Or.inl hfound)]
  · rw [if_neg hfound]
    cases alloc with
    | true => simp [hfound]
    | false =>
        rw [useSum_of_none fun entry hmem hsum => hfound ⟨entry, hmem, hsum⟩]
        simp

/-- What looking a packet up does: mark its entry, and give its gateway. -/
theorem findGatewayForPacket_v4 (h : OnePerSum conns) {ipPacket : List u8}
    (hv4 : ipVersion ipPacket = 4) :
    findGatewayForPacket conns ts ipPacket =
      (useSum conns (connHashCal ipPacket).hashVal ts,
        ((conns.find? (ConnEntry.hit (connHashCal ipPacket).hashVal)).map
          ConnEntry.gatewayId).getD 0) := by
  rw [findGatewayForPacket, if_neg (not_not.2 hv4)]
  simp only [touchFirst_hit h]
  cases hfind : conns.find? (ConnEntry.hit (connHashCal ipPacket).hashVal) with
  | some entry =>
      have hfound : ∃ entry ∈ conns, entry.key.hashVal = (connHashCal ipPacket).hashVal :=
        ⟨entry, List.mem_of_find?_eq_some hfind, hit_iff.1 (List.find?_some hfind)⟩
      simp [hfound]
  | none =>
      rw [List.find?_eq_none] at hfind
      rw [useSum_of_none fun entry hmem hsum => hfind entry hmem (hit_iff.2 hsum)]
      rfl

theorem useSum_keys (conns : List ConnEntry) (hashVal : u32) (ts : Int) :
    (useSum conns hashVal ts).map (fun entry => entry.key.hashVal) =
      conns.map fun entry => entry.key.hashVal := by
  rw [useSum, List.map_map]
  apply List.map_congr_left
  intro entry _
  change (if entry.key.hashVal = hashVal then entry.use ts else entry).key.hashVal = _
  split <;> rfl

/-- What a call can do: nothing on a packet that is not IPv4, use the entries with the sum of a
packet, make the first one for its sum, or remove entries. -/
theorem connStep_cases (h : OnePerSum conns) (hstep : connMachine conns op out conns') :
    (conns' = conns ∧ ∀ kind, op.packetTime kind = none) ∨
    (∃ ipPacket ts, (∀ kind, op.packetTime kind = if kind ipPacket then some ts else none) ∧
      (conns' = useSum conns (connHashCal ipPacket).hashVal ts ∨
        (∀ entry ∈ conns, entry.key.hashVal ≠ (connHashCal ipPacket).hashVal) ∧
          ∃ gatewayId, conns' =
            { key := connHashCal ipPacket, gatewayId := gatewayId, lastUsed := ts } :: conns)) ∨
    (∃ now expire, op = .cleanup now expire ∧
      conns' = cleanupExpiredConnections conns now expire) := by
  cases op with
  | update gatewayId ipPacket ts alloc =>
      obtain ⟨rfl, -⟩ := Prod.mk.inj hstep
      by_cases hv4 : ipVersion ipPacket = 4
      · refine .inr (.inl ⟨ipPacket, ts, fun kind => ?_, ?_⟩)
        · simp only [ConnOp.packetTime, hv4, true_and]
        · rw [updateConnTable_v4 h hv4]
          split
          · exact .inl rfl
          · next hfree =>
              rw [not_or] at hfree
              exact .inr ⟨fun entry hmem hsum => hfree.1 ⟨entry, hmem, hsum⟩, gatewayId, rfl⟩
      · refine .inl ⟨?_, fun kind => if_neg fun hv => hv4 hv.1⟩
        rw [updateConnTable, if_pos hv4]
  | find ipPacket ts =>
      obtain rfl : (findGatewayForPacket conns ts ipPacket).1 = conns' := congrArg Prod.fst hstep
      by_cases hv4 : ipVersion ipPacket = 4
      · refine .inr (.inl ⟨ipPacket, ts, fun kind => ?_, .inl ?_⟩)
        · simp only [ConnOp.packetTime, hv4, true_and]
        · rw [findGatewayForPacket_v4 h hv4]
      · refine .inl ⟨?_, fun kind => if_neg fun hv => hv4 hv.1⟩
        rw [findGatewayForPacket, if_pos hv4]
  | cleanup now expire =>
      obtain ⟨rfl, -⟩ := Prod.mk.inj hstep
      exact .inr (.inr ⟨now, expire, rfl, rfl⟩)

/-- Every call keeps one entry per sum. -/
theorem connStep_onePerSum (h : OnePerSum conns) (hstep : connMachine conns op out conns') :
    OnePerSum conns' := by
  rcases connStep_cases h hstep with
    ⟨rfl, -⟩ | ⟨ipPacket, ts, -, rfl | ⟨hfree, gatewayId, rfl⟩⟩ | ⟨now, expire, -, rfl⟩
  · exact h
  · rwa [OnePerSum, useSum_keys]
  · rw [OnePerSum, List.map_cons, List.nodup_cons]
    refine ⟨fun hmem => ?_, h⟩
    obtain ⟨entry, hentry, hsum⟩ := List.mem_map.1 hmem
    exact hfree entry hentry hsum
  · exact (List.Sublist.map _ List.filter_sublist).nodup h

/-- An entry after a call: the call was on a packet with its sum and has used it or made it, or the
entry was there before. -/
theorem connStep_uses (h : OnePerSum conns) (hstep : connMachine conns op out conns')
    {entry : ConnEntry} (hmem : entry ∈ conns') :
    op.packetTime (hasSum entry.key.hashVal) = some entry.lastUsed ∨
      (entry ∈ conns ∧ op.packetTime (hasSum entry.key.hashVal) = none) := by
  rcases connStep_cases h hstep with
    ⟨rfl, hquiet⟩ | ⟨ipPacket, ts, htime, rfl | ⟨hfree, gatewayId, rfl⟩⟩ | ⟨now, expire, rfl, rfl⟩
  · exact .inr ⟨hmem, hquiet _⟩
  · obtain ⟨old, hold, rfl⟩ := List.mem_map.1 hmem
    rw [htime]
    by_cases hsum : old.key.hashVal = (connHashCal ipPacket).hashVal
    · rw [if_pos hsum]
      exact .inl (if_pos (decide_eq_true hsum.symm))
    · rw [if_neg hsum]
      exact .inr ⟨hold, if_neg fun heq => hsum (of_decide_eq_true heq).symm⟩
  · rw [htime]
    rcases List.mem_cons.1 hmem with rfl | hold
    · exact .inl (if_pos (decide_eq_true rfl))
    · exact .inr ⟨hold, if_neg fun heq => hfree entry hold (of_decide_eq_true heq).symm⟩
  · exact .inr ⟨(List.mem_filter.1 hmem).1, rfl⟩

/-- An entry for the sum stays through every call but a cleanup that finds it idle. -/
theorem connStep_keeps (h : OnePerSum conns) (hstep : connMachine conns op out conns')
    {entry : ConnEntry} (hmem : entry ∈ conns)
    (hstay : ∀ now expire, op = .cleanup now expire →
      expire = false ∧ now - entry.lastUsed ≤ connTimeout) :
    ∃ entry' ∈ conns', entry'.key.hashVal = entry.key.hashVal := by
  rcases connStep_cases h hstep with
    ⟨rfl, -⟩ | ⟨ipPacket, ts, -, rfl | ⟨-, gatewayId, rfl⟩⟩ | ⟨now, expire, hop, rfl⟩
  · exact ⟨entry, hmem, rfl⟩
  · rw [← List.mem_map, useSum_keys]
    exact List.mem_map.2 ⟨entry, hmem, rfl⟩
  · exact ⟨entry, List.mem_cons_of_mem _ hmem, rfl⟩
  · obtain ⟨rfl, hage⟩ := hstay now expire hop
    refine ⟨entry, List.mem_filter.2 ⟨hmem, ?_⟩, rfl⟩
    simpa using hage

/-- A packet that is learnt has an entry for its sum. -/
theorem connStep_learns (h : OnePerSum conns) {ipPacket : List u8} (hv4 : ipVersion ipPacket = 4)
    {gatewayId : u8} (hstep : connMachine conns (.update gatewayId ipPacket ts true) out conns') :
    ∃ entry ∈ conns', entry.key.hashVal = (connHashCal ipPacket).hashVal := by
  by_cases hfound : ∃ entry ∈ conns, entry.key.hashVal = (connHashCal ipPacket).hashVal
  · obtain ⟨entry, hmem, hsum⟩ := hfound
    obtain ⟨entry', hmem', hkey⟩ :=
      connStep_keeps h hstep hmem fun _ _ hop => ConnOp.noConfusion hop
    exact ⟨entry', hmem', hkey.trans hsum⟩
  · obtain ⟨rfl, -⟩ := Prod.mk.inj hstep
    rw [updateConnTable_v4 h hv4, if_neg (by simpa using hfound)]
    exact ⟨_, List.mem_cons_self, rfl⟩

end Step

/-! ### The last use of an entry -/

/-- There is one entry for a sum, and the last packet with the sum used it last. -/
structure LastUses (ops : List ConnOp) (conns : List ConnEntry) : Prop where
  onePerSum : OnePerSum conns
  lastUsed : ∀ entry ∈ conns,
    latest (ConnOp.packetTime (hasSum entry.key.hashVal)) ops = some entry.lastUsed

/-- In every run, an entry carries the time of its last use. -/
theorem lastUses {t : List (ConnOp × Option u8)} {conns : List ConnEntry}
    (hrun : Run connMachine [] t conns) : LastUses (t.map Prod.fst) conns := by
  apply hrun.historyInvariant fun t conns => LastUses (t.map Prod.fst) conns
  · exact ⟨List.nodup_nil, by simp⟩
  · rintro pre e post conns conns' rfl - ih hstep
    refine ⟨connStep_onePerSum ih.onePerSum hstep, fun entry hmem => ?_⟩
    rw [List.map_append]
    rcases connStep_uses ih.onePerSum hstep hmem with huse | ⟨hold, hquiet⟩
    · exact latest_concat_some huse
    · exact (latest_concat_none hquiet).trans (ih.lastUsed entry hold)

/-! ### Flows -/

/-- Consecutive packets of the flow, in either direction, are at most `CONN_TIMEOUT` apart. -/
def Active (k : Sym2 u32) (ops : List ConnOp) : Prop :=
  (ops.filterMap (ConnOp.packetTime (ofFlow k))).IsChain fun a b => b - a ≤ connTimeout

/-- The calls are made on a clock that does not go back. -/
def Clocked (ops : List ConnOp) : Prop := ops.Pairwise fun a b => a.time ≤ b.time

theorem packetTime_eq_time {kind : List u8 → Bool} {op : ConnOp} {ts : Int}
    (h : op.packetTime kind = some ts) : op.time = ts := by
  cases op with
  | update | find =>
      simp only [ConnOp.packetTime] at h
      split at h
      · exact Option.some.inj h
      · cases h
  | cleanup => cases h

/-- A packet of the flow has its sum. -/
theorem packetTime_sum {k : Sym2 u32} {op : ConnOp} {ts : Int}
    (h : op.packetTime (ofFlow k) = some ts) : op.packetTime (hasSum (flowSum k)) = some ts := by
  have hsum : ∀ ipPacket, ofFlow k ipPacket = true → hasSum (flowSum k) ipPacket = true := by
    intro ipPacket hflow
    have hk : flowOf ipPacket = k := of_decide_eq_true hflow
    exact decide_eq_true (hk ▸ hashVal_eq_flowSum ipPacket)
  cases op with
  | update | find =>
      simp only [ConnOp.packetTime] at h ⊢
      split at h
      · next hpacket => rwa [if_pos ⟨hpacket.1, hsum _ hpacket.2⟩]
      · cases h
  | cleanup => cases h

/-- The last packet with the sum is not before the last packet of the flow. -/
theorem latest_sum_ge {k : Sym2 u32} {ops : List ConnOp} (hclock : Clocked ops) {last : Int}
    (h : latest (ConnOp.packetTime (ofFlow k)) ops = some last) :
    ∃ used, latest (ConnOp.packetTime (hasSum (flowSum k))) ops = some used ∧ last ≤ used := by
  induction ops using List.reverseRecOn with
  | nil => cases h
  | append_singleton ops op ih =>
      obtain ⟨hclock', -, hle⟩ := List.pairwise_append.1 hclock
      cases hflow : op.packetTime (ofFlow k) with
      | some ts =>
          rw [latest_concat_some hflow] at h
          cases h
          exact ⟨_, latest_concat_some (packetTime_sum hflow), Int.le_refl _⟩
      | none =>
          rw [latest_concat_none hflow] at h
          cases hsum : op.packetTime (hasSum (flowSum k)) with
          | some ts =>
              obtain ⟨op', hop', hlast⟩ := latest_mem h
              refine ⟨ts, latest_concat_some hsum, ?_⟩
              rw [← packetTime_eq_time hlast, ← packetTime_eq_time hsum]
              exact hle op' hop' op (List.mem_singleton_self op)
          | none =>
              rw [latest_concat_none hsum]
              exact ih hclock' h

/-- Up to the next packet of an active flow, its last packet is not long ago. -/
theorem Active.age_le {k : Sym2 u32} {ops ops' : List ConnOp} (h : Active k (ops ++ ops'))
    {last now : Int} (hlast : latest (ConnOp.packetTime (ofFlow k)) ops = some last)
    (hnext : ∃ op ∈ ops', ∃ ts, op.packetTime (ofFlow k) = some ts)
    (hnow : ∀ op ∈ ops', now ≤ op.time) : now - last ≤ connTimeout := by
  rw [Active, List.filterMap_append, List.isChain_append] at h
  cases htimes : ops'.filterMap (ConnOp.packetTime (ofFlow k)) with
  | nil =>
      obtain ⟨op, hop, ts, hts⟩ := hnext
      have hmem : ts ∈ ops'.filterMap (ConnOp.packetTime (ofFlow k)) :=
        List.mem_filterMap.2 ⟨op, hop, hts⟩
      rw [htimes] at hmem
      cases hmem
  | cons next times =>
      have hgap : next - last ≤ connTimeout := by
        apply h.2.2 last hlast next
        rw [htimes]
        rfl
      have hmem : next ∈ ops'.filterMap (ConnOp.packetTime (ofFlow k)) := by
        rw [htimes]
        exact List.mem_cons_self
      obtain ⟨op, hop, hts⟩ := List.mem_filterMap.1 hmem
      have hle := hnow op hop
      rw [packetTime_eq_time hts] at hle
      omega

/-- The entry of an active flow is there until its next packet. -/
theorem active_flow_entry {pre mid : List (ConnOp × Option u8)} {rest : List ConnOp}
    {gatewayId : u8} {ipPacket : List u8} {ts : Int} {out : Option u8} {conns : List ConnEntry}
    (hv4 : ipVersion ipPacket = 4)
    (hrun : Run connMachine [] (pre ++ (.update gatewayId ipPacket ts true, out) :: mid) conns)
    (hclock : Clocked (pre.map Prod.fst ++
      .update gatewayId ipPacket ts true :: (mid.map Prod.fst ++ rest)))
    (hforced : ∀ now, .cleanup now true ∉ mid.map Prod.fst)
    (hactive : Active (flowOf ipPacket)
      (.update gatewayId ipPacket ts true :: (mid.map Prod.fst ++ rest)))
    (hnext : ∃ op ∈ rest, ∃ ts', op.packetTime (ofFlow (flowOf ipPacket)) = some ts') :
    ∃ entry ∈ conns, entry.key.hashVal = flowSum (flowOf ipPacket) := by
  induction mid using List.reverseRecOn generalizing rest conns with
  | nil =>
      obtain ⟨conns1, conns2, hpre, hstep, hnil⟩ := hrun.middle
      cases hnil
      exact connStep_learns (lastUses hpre).onePerSum hv4 hstep
  | append_singleton mid e ih =>
      rw [← List.cons_append, ← List.append_assoc] at hrun
      obtain ⟨conns1, conns2, hpre, hstep, hnil⟩ := hrun.middle
      cases hnil
      rw [List.map_append, List.append_assoc] at hclock hactive
      rw [List.map_append] at hforced
      obtain ⟨op, hop, ts', hts⟩ := hnext
      obtain ⟨entry, hmem, hsum⟩ := ih hpre hclock
        (fun now hmem => hforced now (List.mem_append_left _ hmem)) hactive
        ⟨op, List.mem_append_right _ hop, ts', hts⟩
      rw [← hsum]
      apply connStep_keeps (lastUses hpre).onePerSum hstep hmem
      rintro now expire hcleanup
      constructor
      · rw [← Bool.not_eq_true]
        rintro rfl
        exact hforced now (List.mem_append_right _ (List.mem_singleton.2 hcleanup.symm))
      -- the entry was used by the last packet of the flow or later
      · let since : List ConnOp := .update gatewayId ipPacket ts true :: mid.map Prod.fst
        obtain ⟨-, hsince, -⟩ := List.pairwise_append.1 hclock
        obtain ⟨hclock', hlater, -⟩ :=
          List.pairwise_append.1 (show Clocked (since ++ e.1 :: rest) from hsince)
        have hlearn : (ConnOp.update gatewayId ipPacket ts true).packetTime
            (ofFlow (flowOf ipPacket)) = some ts := if_pos ⟨hv4, decide_eq_true rfl⟩
        have hfirst : .update gatewayId ipPacket ts true ∈ since := List.mem_cons_self
        obtain ⟨last, hlast⟩ := exists_latest hfirst hlearn
        obtain ⟨used, hused, hle⟩ := latest_sum_ge hclock' hlast
        have hentry : used = entry.lastUsed := by
          have huses := (lastUses hpre).lastUsed entry hmem
          rw [hsum, List.map_append, List.map_cons, latest_append hused] at huses
          exact Option.some.inj huses
        have hage : now - last ≤ connTimeout := by
          apply Active.age_le (show Active _ (since ++ e.1 :: rest) from hactive) hlast
            ⟨op, List.mem_cons_of_mem _ hop, ts', hts⟩
          intro op' hop'
          have htime : e.1.time = now := by rw [hcleanup]; rfl
          rw [← htime]
          rcases List.mem_cons.1 hop' with rfl | hop'
          · exact Int.le_refl _
          · exact (List.pairwise_cons.1 hlater).1 op' hop'
        omega

/-! ### The binding of a flow -/

/-- Some update of the history came from this gateway, with an IPv4 packet with this sum. -/
def LearntFrom (t : List (ConnOp × Option u8)) (gatewayId : u8) (hashVal : u32) : Prop :=
  ∃ ipPacket ts alloc out, (ConnOp.update gatewayId ipPacket ts alloc, out) ∈ t ∧
    ipVersion ipPacket = 4 ∧ (connHashCal ipPacket).hashVal = hashVal

/-- In every run, an entry's gateway was learnt from a packet of its sum. -/
theorem entries_learnt {t : List (ConnOp × Option u8)} {conns : List ConnEntry}
    (hrun : Run connMachine [] t conns) :
    ∀ entry ∈ conns, LearntFrom t entry.gatewayId entry.key.hashVal := by
  refine Run.historyInvariant
    (fun t conns => ∀ entry ∈ conns, LearntFrom t entry.gatewayId entry.key.hashVal) hrun
    (by simp) ?_
  rintro pre ⟨op, out⟩ post conns conns' rfl - ih hstep entry hmem
  rcases connStep_entries hstep hmem with
    ⟨old, hold, hkey, hgw⟩ | ⟨ipPacket, ts, rfl, hv4, hkey, -⟩
  · rw [hkey, hgw]
    obtain ⟨ipPacket, ts, alloc, out', hop, hv4, hsum⟩ := ih old hold
    exact ⟨ipPacket, ts, alloc, out', List.mem_append_left _ hop, hv4, hsum⟩
  · exact ⟨ipPacket, ts, true, out, List.mem_append_right pre List.mem_cons_self, hv4,
      congrArg ConnKey.hashVal hkey⟩

/-- Once a packet of a flow has been learnt, a lookup in either direction finds a gateway that has
sent the sum of the flow, as long as the flow is active. -/
def ActiveFlowsFound (t : List (ConnOp × Option u8)) : Prop :=
  ∀ (pre mid post : List (ConnOp × Option u8)) (gatewayId : u8) (ipPacket ipPacket' : List u8)
    (ts ts' : Int) (out out' : Option u8),
    t = pre ++ (.update gatewayId ipPacket ts true, out) ::
      (mid ++ (.find ipPacket' ts', out') :: post) →
    ipVersion ipPacket = 4 → ipVersion ipPacket' = 4 → flowOf ipPacket' = flowOf ipPacket →
    Active (flowOf ipPacket)
      (.update gatewayId ipPacket ts true :: (mid.map Prod.fst ++ [.find ipPacket' ts'])) →
    ∃ found, out' = some found ∧ found ≠ 0 ∧
      LearntFrom (pre ++ (.update gatewayId ipPacket ts true, out) :: mid) found
        (connHashCal ipPacket').hashVal

/-- Every entry was used, not long before `now`, by the last packet with its sum. -/
def NoneIdle (ops : List ConnOp) (conns : List ConnEntry) (now : Int) : Prop :=
  ∀ entry ∈ conns, ∃ last,
    latest (ConnOp.packetTime (hasSum entry.key.hashVal)) ops = some last ∧
      now - last ≤ connTimeout

section Binding

variable {t : List (ConnOp × Option u8)} {conns : List ConnEntry}

/-- A flow that is not idle for the whole timeout is found. -/
theorem active_flows_found (hrun : Run connMachine [] t conns) (hclock : Clocked (t.map Prod.fst))
    (hforced : ∀ now, .cleanup now true ∉ t.map Prod.fst)
    (hids : ∀ gatewayId ipPacket ts alloc,
      .update gatewayId ipPacket ts alloc ∈ t.map Prod.fst → gatewayId ≠ 0) :
    ActiveFlowsFound t := by
  rintro pre mid post gatewayId ipPacket ipPacket' ts ts' out out' rfl hv4 hv4' hflow hactive
  rw [← List.cons_append, ← List.append_assoc] at hrun
  obtain ⟨conns1, conns2, hpre, hlook, -⟩ := hrun.middle
  have hclock' : Clocked (pre.map Prod.fst ++
      .update gatewayId ipPacket ts true :: (mid.map Prod.fst ++ [.find ipPacket' ts'])) := by
    apply List.Pairwise.sublist ?_ hclock
    simp only [List.map_append, List.map_cons]
    exact (List.Sublist.refl _).append ((((List.Sublist.refl _).append
      (List.singleton_sublist.2 List.mem_cons_self))).cons_cons _)
  obtain ⟨entry, hmem, hsum⟩ := active_flow_entry hv4 hpre hclock' (fun now hmem => hforced now (by
    simp only [List.map_append, List.map_cons, List.mem_append, List.mem_cons]
    exact .inr (.inr (.inl hmem)))) hactive
    ⟨_, List.mem_singleton_self _, ts', if_pos ⟨hv4', decide_eq_true hflow⟩⟩
  rw [← hflow, ← hashVal_eq_flowSum] at hsum
  have hanswer : some (findGatewayForPacket conns1 ts' ipPacket').2 = out' :=
    congrArg Prod.snd hlook
  rw [findGatewayForPacket_v4 (lastUses hpre).onePerSum hv4'] at hanswer
  cases hfind : conns1.find? (ConnEntry.hit (connHashCal ipPacket').hashVal) with
  | none => exact absurd (hit_iff.2 hsum) (List.find?_eq_none.1 hfind entry hmem)
  | some found =>
      rw [hfind] at hanswer
      have hlearnt := entries_learnt hpre found (List.mem_of_find?_eq_some hfind)
      rw [hit_iff.1 (List.find?_some hfind)] at hlearnt
      refine ⟨found.gatewayId, hanswer.symm, ?_, hlearnt⟩
      obtain ⟨ipPacket, ts, alloc, out, hop, -, -⟩ := hlearnt
      apply hids found.gatewayId ipPacket ts alloc
      refine List.mem_map.2 ⟨_, List.Sublist.mem hop ?_, rfl⟩
      exact (List.Sublist.refl pre).append ((List.sublist_append_left mid _).cons_cons _)

/-- After a cleanup no entry is idle for the whole timeout. -/
theorem none_idle {pre : List (ConnOp × Option u8)} {now : Int} {out : Option u8}
    (hrun : Run connMachine [] (pre ++ [(.cleanup now false, out)]) conns) :
    NoneIdle (pre.map Prod.fst) conns now := by
  obtain ⟨conns1, conns2, hpre, hstep, hnil⟩ := hrun.middle
  cases hnil
  obtain ⟨rfl, -⟩ := Prod.mk.inj hstep
  intro entry hmem
  obtain ⟨hold, hage⟩ := List.mem_filter.1 hmem
  refine ⟨entry.lastUsed, (lastUses hpre).lastUsed entry hold, ?_⟩
  simpa using hage

end Binding

/-- In any run on a clock that does not go back, in which the table is never emptied, there is one
entry for a sum of addresses, the lookups of active flows find a gateway that has sent the sum, and
right after a cleanup no entry is idle. -/
theorem flow_binding (t : List (ConnOp × Option u8)) (conns : List ConnEntry)
    (hrun : Run connMachine [] t conns) (hclock : Clocked (t.map Prod.fst))
    (hforced : ∀ now, .cleanup now true ∉ t.map Prod.fst)
    (hids : ∀ gatewayId ipPacket ts alloc,
      .update gatewayId ipPacket ts alloc ∈ t.map Prod.fst → gatewayId ≠ 0) :
    OnePerSum conns ∧ ActiveFlowsFound t ∧
      ∀ pre now out, t = pre ++ [(.cleanup now false, out)] →
        NoneIdle (pre.map Prod.fst) conns now := by
  refine ⟨(lastUses hrun).onePerSum, active_flows_found hrun hclock hforced hids, ?_⟩
  rintro pre now out rfl
  exact none_idle hrun

/-- Gateway 7 learns a flow, which is looked up after a cleanup in the last second. -/
def keptFlow : List (ConnOp × Option u8) :=
  [(.update 7 (flowPacket 1 4) 0 true, none), (.cleanup 180 false, none),
    (.find (flowPacket 4 1) 180, some 7)]

theorem flow_binding_kept :
    LearntFrom (keptFlow.take 2) 7 (connHashCal (flowPacket 4 1)).hashVal := by
  have hrun : ∃ conns, Run connMachine [] keptFlow conns :=
    ⟨_, .cons rfl (.cons rfl (.cons rfl (.nil _)))⟩
  obtain ⟨conns, hrun⟩ := hrun
  have hclock : Clocked (keptFlow.map Prod.fst) := by
    simp [keptFlow, Clocked, ConnOp.time]
  have hforced : ∀ now, .cleanup now true ∉ keptFlow.map Prod.fst := by
    simp [keptFlow]
  have hids : ∀ gatewayId ipPacket ts alloc,
      .update gatewayId ipPacket ts alloc ∈ keptFlow.map Prod.fst → gatewayId ≠ 0 := by
    intro gatewayId ipPacket ts alloc hmem
    simp only [keptFlow, List.map_cons, List.map_nil, List.mem_cons, List.not_mem_nil,
      ConnOp.update.injEq, reduceCtorEq, or_false] at hmem
    rw [hmem.1]
    decide
  obtain ⟨-, hfound, -⟩ := flow_binding keptFlow conns hrun hclock hforced hids
  obtain ⟨found, hout, -, hlearnt⟩ := hfound [] [(.cleanup 180 false, none)] [] 7 (flowPacket 1 4)
    (flowPacket 4 1) 0 180 none (some 7) rfl (by decide) (by decide) (by decide) (by
      rw [Active]
      decide)
  cases hout
  exact hlearnt

end ConfigEnv.TunVpn
