/-
Module: ConfigEnv.Proofs.ListTables
Layer: Proofs
Purpose: The calls on memory are the calls on lists. A memory represents two tables when it consists
  of the two rings and their entries hold the tables in order; every call on such a memory succeeds,
  gives back what the call on the lists gives back, and leaves a memory that represents the new
  tables. So no sequence of calls ever touches a freed or poisoned entry, and no entry is lost.
Trusted boundary: as TunVpn.ListTables
Main exports: Represents, represents_start, tableStep_refines, tables_refine
Open obligations: none
-/
import ConfigEnv.Proofs.ListTraversal

namespace ConfigEnv.TunVpn

open Circular (Ptr Links RingOf)

/-- The memory consists of the two tables, entry for entry. -/
structure Represents (st : Statics) (m : TableMem) (gws : List GatewayAddr)
    (conns : List ConnEntry) (ps qs : List Ptr) : Prop where
  layout : Layout m.heap st.gatewayAddrs st.connTable ps qs
  gws_eq : ps.map m.gw = gws
  conns_eq : qs.map m.conn = conns

/-! ### Entries and their contents -/

section Contents

variable {α : Type} {val : Ptr → α} {p : Ptr} {ps : List Ptr}

theorem map_update_of_notMem (a : α) (hp : p ∉ ps) :
    ps.map (Function.update val p a) = ps.map val := by
  apply List.map_congr_left
  rintro q hq
  apply Function.update_of_ne
  rintro rfl
  exact hp hq

theorem map_update_cons (a : α) (hp : p ∉ ps) :
    (p :: ps).map (Function.update val p a) = a :: ps.map val := by
  rw [List.map_cons, Function.update_self, map_update_of_notMem a hp]

/-- Changing the entry that a traversal finds is changing the first hit of the table. -/
theorem touchFirst_map (t : α → Bool) (f : α → α) (hps : ps.Nodup) :
    touchFirst t f (ps.map val) =
      (ps.find? fun q => t (val q)).map fun q =>
        ps.map (Function.update val q (f (val q))) := by
  induction ps with
  | nil => rfl
  | cons p ps ih =>
      obtain ⟨hp, hps⟩ := List.nodup_cons.1 hps
      rw [List.map_cons, touchFirst, List.find?_cons]
      cases hit : t (val p) with
      | true =>
          rw [if_pos rfl, Option.map_some, map_update_cons _ hp]
      | false =>
        rw [if_neg Bool.false_ne_true, ih hps]
        cases hfound : ps.find? fun q => t (val q) with
        | none => rfl
        | some q =>
            have hne : p ≠ q := fun heq => hp (heq ▸ List.mem_of_find?_eq_some hfound)
            simp only [Option.map_some, List.map_cons, Function.update_of_ne hne]

end Contents

/-! ### Traversals of a table -/

/-- A search over a ring finds the first element that passes the test, or ends at the head. -/
theorem Layout.findUntil {m : TableMem} {a b : Ptr} {ps qs : List Ptr}
    (hl : Layout m.heap a b ps qs) {test : Ptr → Option Bool} {t : Ptr → Bool}
    (htest : ∀ p ∈ ps, test p = some (t p)) :
    m.findUntil a test = some ((ps.find? t).getD a) := by
  have hfirst : m.heap.next a = some (ps.headD a) := by
    rw [Heap.next, if_pos (hl.mem_blocks List.mem_cons_self), hl.ring.next_head]
  rw [TableMem.findUntil, hfirst]
  apply forEachUntil_spec
  · exact hl.ring.chain.tail
  · exact (List.nodup_cons.1 hl.ring.nodup).1
  · exact fun p hp => hl.mem_blocks (List.mem_cons_of_mem a hp)
  · exact htest
  · exact Nat.lt_succ_of_lt hl.length_lt

/-- The entry a traversal finds is one of the ring; the head means that there is none. -/
theorem Layout.found_ne {h : Heap} {a b : Ptr} {ps qs : List Ptr} (hl : Layout h a b ps qs)
    {t : Ptr → Bool} : (ps.find? t).getD a ≠ a ↔ (ps.find? t).isSome := by
  cases hfound : ps.find? t with
  | none => simp
  | some p =>
      have hne : p ≠ a := by
        rintro rfl
        exact (List.nodup_cons.1 hl.ring.nodup).1 (List.mem_of_find?_eq_some hfound)
      simp [hne]

/-- A safe traversal visits every element once, also when the body frees it. -/
theorem forAllSafe_spec {a b : Ptr} {m : TableMem} {body : TableMem → Ptr → Option TableMem}
    {qs ps : List Ptr} {I : List Ptr → List Ptr → TableMem → Prop}
    (hlayout : ∀ zs ys s, I zs ys s → Layout s.heap a b (zs ++ ys) qs)
    (hbody : ∀ zs y ys s, I zs (y :: ys) s → ∃ zs' s', body s y = some s' ∧ I zs' ys s')
    (hm : I [] ps m) : ∃ zs' m', m.forAllSafe a body = some m' ∧ I zs' [] m' := by
  have hl : Layout m.heap a b ps qs := hlayout [] ps m hm
  have hfirst : m.heap.next a = some (ps.headD a) := by
    rw [Heap.next, if_pos (hl.mem_blocks List.mem_cons_self), hl.ring.next_head]
  have hsecond : m.heap.next (ps.headD a) = some (m.heap.links.next (ps.headD a)) :=
    if_pos (hl.mem_blocks (Circular.headD_mem a ps))
  have hn : ∀ y ys', ps = y :: ys' → m.heap.links.next (ps.headD a) = ys'.headD a := by
    rintro y ys' rfl
    have hchain : Circular.Chain m.heap.links (y :: (ys' ++ [a])) := hl.ring.chain.tail
    exact hchain.next
  obtain ⟨zs', m', hrun, hm'⟩ := forEachSafe_spec
    (fun zs ys s hs => ⟨(hlayout zs ys s hs).ring, fun p hp => (hlayout zs ys s hs).mem_blocks hp⟩)
    hbody hm (Nat.lt_succ_of_lt hl.length_lt) hn
  refine ⟨zs', m', ?_, hm'⟩
  rw [TableMem.forAllSafe, hfirst]
  change (m.heap.next (ps.headD a)).bind _ = _
  rw [hsecond]
  exact hrun

/-! ### The calls on the gateway map -/

section Calls

variable {st : Statics} {m : TableMem} {gws : List GatewayAddr} {conns : List ConnEntry}
  {ps qs : List Ptr}

/-- The memory of a listed gateway can be read. -/
theorem Represents.readGw (hm : Represents st m gws conns ps qs) {α : Type} (f : GatewayAddr → α)
    {p : Ptr} (hp : p ∈ ps) : m.readGw f p = some (f (m.gw p)) :=
  if_pos (hm.layout.mem_blocks (List.mem_cons_of_mem _ hp))

/-- The memory of a listed connection can be read. -/
theorem Represents.readConn (hm : Represents st m gws conns ps qs) {α : Type} (f : ConnEntry → α)
    {p : Ptr} (hp : p ∈ qs) : m.readConn f p = some (f (m.conn p)) :=
  if_pos (hm.layout.swap.mem_blocks (List.mem_cons_of_mem _ hp))

/-- Writing an entry of the map changes nothing else. -/
theorem Represents.writeGw (hm : Represents st m gws conns ps qs) {p : Ptr} (hp : p ∈ ps)
    (gw : GatewayAddr) :
    ∃ m', m.writeGw p gw = some m' ∧
      Represents st m' (ps.map (Function.update m.gw p gw)) conns ps qs :=
  ⟨_, if_pos (hm.layout.mem_blocks (List.mem_cons_of_mem _ hp)), hm.layout, rfl, hm.conns_eq⟩

/-- Writing a listed connection changes that entry of the table. -/
theorem Represents.writeConn (hm : Represents st m gws conns ps qs) {p : Ptr} (hp : p ∈ qs)
    (entry : ConnEntry) :
    ∃ m', m.writeConn p entry = some m' ∧
      Represents st m' gws (qs.map (Function.update m.conn p entry)) ps qs :=
  ⟨_, if_pos (hm.layout.swap.mem_blocks (List.mem_cons_of_mem _ hp)), hm.layout, hm.gws_eq, rfl⟩

/-- A traversal of the gateways, in terms of the memory. -/
theorem Represents.touchGw (hm : Represents st m gws conns ps qs) (t : GatewayAddr → Bool)
    (f : GatewayAddr → GatewayAddr) :
    touchFirst t f gws =
      (ps.find? fun q => t (m.gw q)).map fun q =>
        ps.map (Function.update m.gw q (f (m.gw q))) := by
  rw [← hm.gws_eq]
  exact touchFirst_map t f (List.nodup_cons.1 hm.layout.ring.nodup).2

/-- A traversal of the connections, in terms of the memory. -/
theorem Represents.touchConn (hm : Represents st m gws conns ps qs) (t : ConnEntry → Bool)
    (f : ConnEntry → ConnEntry) :
    touchFirst t f conns =
      (qs.find? fun q => t (m.conn q)).map fun q =>
        qs.map (Function.update m.conn q (f (m.conn q))) := by
  rw [← hm.conns_eq]
  exact touchFirst_map t f (List.nodup_cons.1 hm.layout.other.nodup).2

/-- Where a traversal of the map stops. -/
theorem Represents.findGw (hm : Represents st m gws conns ps qs) (t : GatewayAddr → Bool) :
    m.findUntil st.gatewayAddrs (m.readGw t) =
      some ((ps.find? fun q => t (m.gw q)).getD st.gatewayAddrs) :=
  hm.layout.findUntil fun _ hp => hm.readGw t hp

/-- A search for a connection ends at its first hit, or at the head. -/
theorem Represents.findConn (hm : Represents st m gws conns ps qs) (t : ConnEntry → Bool) :
    m.findUntil st.connTable (m.readConn t) =
      some ((qs.find? fun q => t (m.conn q)).getD st.connTable) :=
  hm.layout.swap.findUntil fun _ hp => hm.readConn t hp

/-- The new entry of the map is written between the two list operations. -/
theorem Represents.addGw (hm : Represents st m gws conns ps qs) {p : Ptr}
    (hfresh : p ∉ m.heap.blocks) (gw : GatewayAddr) :
    ∃ h₁ m₁ h₂, ihInitListHead (m.heap.malloc p) p = some h₁ ∧
      ({ m with heap := h₁ } : TableMem).writeGw p gw = some m₁ ∧
      ihListAdd m₁.heap p st.gatewayAddrs = some h₂ ∧
      Represents st { m₁ with heap := h₂ } (gw :: gws) conns (p :: ps) qs := by
  obtain ⟨h₁, h₂, hinit, hblocks, hadd, hlayout⟩ := hm.layout.add hfresh
  have hp : p ∈ h₁.blocks := by
    rw [hblocks]
    exact List.mem_cons_self
  have hps : p ∉ ps := fun hmem => hfresh (hm.layout.mem_blocks (List.mem_cons_of_mem _ hmem))
  refine ⟨h₁, _, h₂, hinit, if_pos hp, hadd, hlayout, ?_, hm.conns_eq⟩
  exact (map_update_cons gw hps).trans (congrArg (gw :: ·) hm.gws_eq)

/-- `update_gateway_map` on the lists does what it does on the table. -/
theorem updateGatewayMapAt_refines (hm : Represents st m gws conns ps qs) (ts : Int)
    (alloc : Option Ptr) (gatewayId : u8) (addr : SockAddr) (pathId : u8)
    (hfresh : ∀ p, alloc = some p → p ∉ m.heap.blocks) :
    ∃ m' ps', updateGatewayMapAt st m ts alloc gatewayId addr pathId = some m' ∧
      Represents st m' (updateGatewayMap gws ts alloc.isSome gatewayId addr pathId) conns ps'
        qs := by
  unfold updateGatewayMapAt updateGatewayMap
  dsimp only
  by_cases hpath : (pathId - 1).toNat < maxGwApn
  · rw [dif_pos hpath, dif_pos hpath, hm.touchGw, hm.findGw]
    simp only [Option.bind_eq_bind, Option.bind_some, hm.layout.found_ne]
    cases hfound : ps.find? fun p =>
        decide ((m.gw p).gatewayId = gatewayId ∧ (m.gw p).lastUsed > 0) with
    | some p =>
        obtain ⟨m', hwrite, hm'⟩ := hm.writeGw (List.mem_of_find?_eq_some hfound)
          ((m.gw p).seen ⟨(pathId - 1).toNat, hpath⟩ addr ts)
        exact ⟨m', ps, hwrite, hm'⟩
    | none =>
        cases alloc with
        | none => exact ⟨m, ps, rfl, hm⟩
        | some p =>
            obtain ⟨h₁, m₁, h₂, hinit, hwrite, hadd, hm'⟩ := hm.addGw (hfresh p rfl)
              { GatewayAddr.zero.seen ⟨(pathId - 1).toNat, hpath⟩ addr ts with
                gatewayId := gatewayId }
            refine ⟨_, p :: ps, ?_, hm'⟩
            simp only [Option.isSome_none, Bool.false_eq_true, if_false, hinit, Option.bind_some,
              hwrite, hadd]
  · rw [dif_neg hpath, dif_neg hpath]
    exact ⟨m, ps, rfl, hm⟩

/-- `get_gateway_addr` on the lists gives what it gives on the table. -/
theorem getGatewayAddrAt_refines (hm : Represents st m gws conns ps qs) (gatewayId : u8) :
    ∃ p, getGatewayAddrAt st m gatewayId = some p ∧
      (if p = st.gatewayAddrs then .listHead else .entry (m.gw p)) =
        getGatewayAddr gws gatewayId := by
  refine ⟨_, hm.findGw _, ?_⟩
  have hmap : gws.find? (fun gw => decide (gw.gatewayId = gatewayId)) =
      (ps.find? fun p => decide ((m.gw p).gatewayId = gatewayId)).map m.gw := by
    rw [← hm.gws_eq, List.find?_map]
    rfl
  have hne := hm.layout.found_ne (t := fun p => decide ((m.gw p).gatewayId = gatewayId))
  rw [getGatewayAddr, hmap]
  cases hfound : ps.find? fun p => decide ((m.gw p).gatewayId = gatewayId) with
  | none => exact if_pos rfl
  | some p =>
      rw [hfound] at hne
      exact if_neg (hne.2 rfl)

/-! ### The calls on the connection table -/

/-- The new entry of the table is written before the two list operations. -/
theorem Represents.addConn (hm : Represents st m gws conns ps qs) {p : Ptr}
    (hfresh : p ∉ m.heap.blocks) (entry : ConnEntry) :
    ∃ m₁ h₁ h₂, ({ m with heap := m.heap.malloc p } : TableMem).writeConn p entry = some m₁ ∧
      ihInitListHead m₁.heap p = some h₁ ∧ ihListAdd h₁ p st.connTable = some h₂ ∧
      Represents st { m₁ with heap := h₂ } gws (entry :: conns) ps (p :: qs) := by
  obtain ⟨h₁, h₂, hinit, -, hadd, hlayout⟩ := hm.layout.swap.add hfresh
  have hqs : p ∉ qs := fun hmem =>
    hfresh (hm.layout.swap.mem_blocks (List.mem_cons_of_mem _ hmem))
  refine ⟨_, h₁, h₂, if_pos List.mem_cons_self, hinit, hadd, hlayout.swap, hm.gws_eq, ?_⟩
  exact (map_update_cons entry hqs).trans (congrArg (entry :: ·) hm.conns_eq)

/-- `update_conn_table` on the lists does what it does on the table. -/
theorem updateConnTableAt_refines (hm : Represents st m gws conns ps qs) (ts : Int)
    (alloc : Option Ptr) (gatewayId : u8) (ipPacket : List u8)
    (hfresh : ∀ p, alloc = some p → p ∉ m.heap.blocks) :
    ∃ m' qs', updateConnTableAt st m ts alloc gatewayId ipPacket = some m' ∧
      Represents st m' gws (updateConnTable conns ts alloc.isSome gatewayId ipPacket) ps qs' := by
  unfold updateConnTableAt updateConnTable
  dsimp only
  by_cases hversion : ipVersion ipPacket ≠ 4
  · rw [if_pos hversion, if_pos hversion]
    exact ⟨m, qs, rfl, hm⟩
  · rw [if_neg hversion, if_neg hversion, hm.touchConn, hm.findConn]
    simp only [Option.bind_eq_bind, Option.bind_some, hm.layout.swap.found_ne]
    cases hfound : qs.find? fun p =>
        ConnEntry.hit (connHashCal ipPacket).hashVal (m.conn p) with
    | some p =>
        obtain ⟨m', hwrite, hm'⟩ := hm.writeConn (List.mem_of_find?_eq_some hfound)
          ((m.conn p).use ts)
        exact ⟨m', qs, hwrite, hm'⟩
    | none =>
        cases alloc with
        | none => exact ⟨m, qs, rfl, hm⟩
        | some p =>
            obtain ⟨m₁, h₁, h₂, hwrite, hinit, hadd, hm'⟩ := hm.addConn (hfresh p rfl)
              { key := connHashCal ipPacket, gatewayId := gatewayId, lastUsed := ts }
            refine ⟨_, p :: qs, ?_, hm'⟩
            simp only [Option.isSome_none, Bool.false_eq_true, if_false, hwrite, Option.bind_some,
              hinit, hadd]

/-- `find_gateway_for_packet` on the lists does what it does on the table. -/
theorem findGatewayForPacketAt_refines (hm : Represents st m gws conns ps qs) (ts : Int)
    (ipPacket : List u8) :
    ∃ m', findGatewayForPacketAt st m ts ipPacket =
        some (m', (findGatewayForPacket conns ts ipPacket).2) ∧
      Represents st m' gws (findGatewayForPacket conns ts ipPacket).1 ps qs := by
  unfold findGatewayForPacketAt findGatewayForPacket
  dsimp only
  by_cases hversion : ipVersion ipPacket ≠ 4
  · rw [if_pos hversion, if_pos hversion]
    exact ⟨m, rfl, hm⟩
  · have hmap : conns.find? (ConnEntry.hit (connHashCal ipPacket).hashVal) =
        (qs.find? fun p => ConnEntry.hit (connHashCal ipPacket).hashVal (m.conn p)).map
          m.conn := by
      rw [← hm.conns_eq, List.find?_map]
      rfl
    rw [if_neg hversion, if_neg hversion, hmap, hm.touchConn, hm.findConn]
    simp only [Option.bind_eq_bind, Option.bind_some, hm.layout.swap.found_ne]
    cases hfound : qs.find? fun p =>
        ConnEntry.hit (connHashCal ipPacket).hashVal (m.conn p) with
    | none => exact ⟨m, rfl, hm⟩
    | some p =>
        obtain ⟨m', hwrite, hm'⟩ := hm.writeConn (List.mem_of_find?_eq_some hfound)
          ((m.conn p).use ts)
        refine ⟨m', ?_, hm'⟩
        simp only [Option.isSome_some, if_true, Option.getD_some, hwrite, Option.bind_some,
          Option.map_some]

/-! ### The calls that free entries -/

/-- Unlinking and freeing an element leaves the rest of the ring. -/
theorem delFree_spec {a b p : Ptr} {zs ys : List Ptr}
    (hl : Layout m.heap a b (zs ++ p :: ys) qs) :
    ∃ m', m.delFree p = some m' ∧ Layout m'.heap a b (zs ++ ys) qs ∧ m'.gw = m.gw ∧
      m'.conn = m.conn := by
  obtain ⟨h₁, h₂, hdel, hfree, hlayout⟩ := hl.delFree
  refine ⟨{ m with heap := h₂ }, ?_, hlayout, rfl, rfl⟩
  simp only [TableMem.delFree, hdel, hfree, Option.bind_eq_bind, Option.bind_some]

theorem cleanupExpiredGateways_cons (gw : GatewayAddr) (now : Int) (expire : Bool) :
    cleanupExpiredGateways (gw :: gws) now expire =
      if expire || decide (gw.expiredPaths now ≥ maxGwApn) then
        cleanupExpiredGateways gws now expire
      else gw.expire now :: cleanupExpiredGateways gws now expire := by
  unfold cleanupExpiredGateways
  cases hgone : expire || decide (gw.expiredPaths now ≥ maxGwApn) with
  | true => rw [List.filter_cons_of_neg (by simp [hgone]), if_pos rfl]
  | false =>
      rw [List.filter_cons_of_pos (by simp [hgone]), List.map_cons, if_neg Bool.false_ne_true]

theorem cleanupExpiredConnections_cons (entry : ConnEntry) (now : Int) (expire : Bool) :
    cleanupExpiredConnections (entry :: conns) now expire =
      if expire || decide (now - entry.lastUsed > connTimeout) then
        cleanupExpiredConnections conns now expire
      else entry :: cleanupExpiredConnections conns now expire := by
  unfold cleanupExpiredConnections
  cases hgone : expire || decide (now - entry.lastUsed > connTimeout) with
  | true => rw [List.filter_cons_of_neg (by simp [hgone]), if_pos rfl]
  | false => rw [List.filter_cons_of_pos (by simp [hgone]), if_neg Bool.false_ne_true]

/-- A cleanup visits entry after entry: it rewrites the one it visits by `keep`, and frees it when
it is `gone`. The entries hold `val`, and `Rest` is what the cleanup leaves alone. -/
structure Sweeps {α : Type} (val : TableMem → Ptr → α) (Rest : TableMem → Prop)
    (body : TableMem → Ptr → Option TableMem) (clean : List α → List α) (gone : α → Bool)
    (keep : α → α) : Prop where
  nil : clean [] = []
  cons : ∀ v vs, clean (v :: vs) = if gone v then clean vs else keep v :: clean vs
  visit : ∀ s y, y ∈ s.heap.blocks → ∃ s₁ : TableMem, s₁.heap = s.heap ∧
    val s₁ = Function.update (val s) y (keep (val s y)) ∧ (Rest s → Rest s₁) ∧
    body s y = if gone (val s y) then s₁.delFree y else some s₁
  frame : ∀ s s₁ : TableMem, s₁.gw = s.gw → s₁.conn = s.conn →
    val s₁ = val s ∧ (Rest s → Rest s₁)

/-- Halfway through a cleanup of the table at `a`: `zs` has been swept, `ys` has not. -/
structure Swept {α : Type} (val : TableMem → Ptr → α) (Rest : TableMem → Prop)
    (clean : List α → List α) (a b : Ptr) (as : List α) (qs zs ys : List Ptr) (s : TableMem) :
    Prop where
  layout : Layout s.heap a b (zs ++ ys) qs
  vals_eq : zs.map (val s) ++ clean (ys.map (val s)) = clean as
  rest : Rest s

namespace Sweeps

variable {α : Type} {val : TableMem → Ptr → α} {Rest : TableMem → Prop}
  {body : TableMem → Ptr → Option TableMem} {clean : List α → List α} {gone : α → Bool}
  {keep : α → α} {a b : Ptr} {as : List α}

/-- One round of a sweep. -/
theorem step (h : Sweeps val Rest body clean gone keep) (zs : List Ptr) (y : Ptr) (ys : List Ptr)
    (s : TableMem) (hs : Swept val Rest clean a b as qs zs (y :: ys) s) :
    ∃ zs' s', body s y = some s' ∧ Swept val Rest clean a b as qs zs' ys s' := by
  have hperm : (zs ++ y :: ys).Perm (y :: (zs ++ ys)) := List.perm_middle
  have hnodup := hperm.nodup_iff.1 (List.nodup_cons.1 hs.layout.ring.nodup).2
  have hy : y ∈ s.heap.blocks :=
    hs.layout.mem_blocks (List.mem_cons_of_mem _ (hperm.mem_iff.2 List.mem_cons_self))
  have hnot : y ∉ zs ∧ y ∉ ys := by
    rw [← not_or, ← List.mem_append]
    exact (List.nodup_cons.1 hnodup).1
  obtain ⟨s₁, hheap, hval, hrest, hrun⟩ := h.visit s y hy
  have hlayout : Layout s₁.heap a b (zs ++ y :: ys) qs := hheap ▸ hs.layout
  have hzs : zs.map (val s₁) = zs.map (val s) := by
    rw [hval, map_update_of_notMem _ hnot.1]
  have hys : ys.map (val s₁) = ys.map (val s) := by
    rw [hval, map_update_of_notMem _ hnot.2]
  have hvals := hs.vals_eq
  rw [List.map_cons, h.cons] at hvals
  cases hgone : gone (val s y) with
  | true =>
      rw [hgone, if_pos rfl] at hrun hvals
      obtain ⟨s', hdelete, hlayout', hgw, hconn⟩ := delFree_spec hlayout
      obtain ⟨hval', hrest'⟩ := h.frame s₁ s' hgw hconn
      refine ⟨zs, s', hrun.trans hdelete, hlayout', ?_, hrest' (hrest hs.rest)⟩
      rw [hval', hzs, hys]
      exact hvals
  | false =>
      rw [hgone, if_neg Bool.false_ne_true] at hrun hvals
      refine ⟨zs ++ [y], s₁, hrun, ?_, ?_, hrest hs.rest⟩
      · rw [List.append_assoc]
        exact hlayout
      · rw [List.map_append, hzs, hys, List.map_singleton, hval, Function.update_self,
          List.append_assoc]
        exact hvals

/-- A whole cleanup. -/
theorem run (h : Sweeps val Rest body clean gone keep) (hl : Layout m.heap a b ps qs)
    (has : ps.map (val m) = as) (hrest : Rest m) :
    ∃ m' ps', m.forAllSafe a body = some m' ∧ Layout m'.heap a b ps' qs ∧
      ps'.map (val m') = clean as ∧ Rest m' := by
  have hstart : Swept val Rest clean a b as qs [] ps m := ⟨hl, congrArg clean has, hrest⟩
  obtain ⟨ps', m', hrun, hend⟩ := forAllSafe_spec (fun _ _ _ hs => hs.layout) h.step hstart
  have hlayout := hend.layout
  have hvals := hend.vals_eq
  rw [List.append_nil] at hlayout
  rw [List.map_nil, h.nil, List.append_nil] at hvals
  exact ⟨m', ps', hrun, hlayout, hvals, hend.rest⟩

end Sweeps

/-- An entry of the map is rewritten before the test that may free it. -/
theorem sweeps_gateways (qs : List Ptr) (conns : List ConnEntry) (now : Int) (expire : Bool) :
    Sweeps TableMem.gw (fun s => qs.map s.conn = conns) (expireGatewayAt now expire)
      (cleanupExpiredGateways · now expire)
      (fun gw => expire || decide (gw.expiredPaths now ≥ maxGwApn)) (GatewayAddr.expire · now) where
  nil := rfl
  cons gw _ := cleanupExpiredGateways_cons gw now expire
  visit s y hy := by
    refine ⟨{ s with gw := Function.update s.gw y ((s.gw y).expire now) }, rfl, rfl, id, ?_⟩
    simp only [expireGatewayAt, TableMem.readGw, TableMem.writeGw, if_pos hy, id,
      Option.bind_eq_bind, Option.bind_some]
  frame s s₁ hgw hconn := ⟨hgw, fun hrest => by rw [hconn, hrest]⟩

/-- The loop of `cleanup_expired_connections` is a sweep. -/
theorem sweeps_connections (ps : List Ptr) (gws : List GatewayAddr) (now : Int) (expire : Bool) :
    Sweeps TableMem.conn (fun s => ps.map s.gw = gws) (expireConnAt now expire)
      (cleanupExpiredConnections · now expire)
      (fun entry => expire || decide (now - entry.lastUsed > connTimeout)) id where
  nil := rfl
  cons entry _ := cleanupExpiredConnections_cons entry now expire
  visit s y hy := by
    refine ⟨s, rfl, (Function.update_eq_self y s.conn).symm, id, ?_⟩
    simp only [expireConnAt, TableMem.readConn, if_pos hy, Option.bind_eq_bind, Option.bind_some]
  frame s s₁ hgw hconn := ⟨hconn, fun hrest => by rw [hgw, hrest]⟩

/-- `cleanup_expired_gateways` on the lists does what it does on the table. -/
theorem cleanupExpiredGatewaysAt_refines (hm : Represents st m gws conns ps qs) (now : Int)
    (expire : Bool) :
    ∃ m' ps', cleanupExpiredGatewaysAt st m now expire = some m' ∧
      Represents st m' (cleanupExpiredGateways gws now expire) conns ps' qs := by
  obtain ⟨m', ps', hrun, hlayout, hgws, hconns⟩ :=
    (sweeps_gateways qs conns now expire).run hm.layout hm.gws_eq hm.conns_eq
  exact ⟨m', ps', hrun, hlayout, hgws, hconns⟩

/-- `cleanup_expired_connections` on the lists does what it does on the table. -/
theorem cleanupExpiredConnectionsAt_refines (hm : Represents st m gws conns ps qs) (now : Int)
    (expire : Bool) :
    ∃ m' qs', cleanupExpiredConnectionsAt st m now expire = some m' ∧
      Represents st m' gws (cleanupExpiredConnections conns now expire) ps qs' := by
  obtain ⟨m', qs', hrun, hlayout, hconns, hgws⟩ :=
    (sweeps_connections ps gws now expire).run hm.layout.swap hm.conns_eq hm.gws_eq
  exact ⟨m', qs', hrun, hlayout.swap, hgws, hconns⟩

end Calls

/-! ### Runs -/

variable {st : Statics}

/-- Two empty lists in memory. -/
theorem represents_start (links : Links) (gw : Ptr → GatewayAddr) (conn : Ptr → ConnEntry) :
    Represents st (TableMem.start st links gw conn) [] [] [] [] where
  layout :=
    { ring := by
        apply (Circular.ring_self links st.gatewayAddrs).frame
        · exact fun hmem => st.distinct (List.mem_singleton.1 hmem).symm
        · exact fun hmem => st.distinct (List.mem_singleton.1 hmem).symm
      other := Circular.ring_self _ st.connTable
      apart := by
        intro p hp hq
        exact st.distinct ((List.mem_singleton.1 hp).symm.trans (List.mem_singleton.1 hq))
      blocks := fun p => by simp [TableMem.start] }
  gws_eq := rfl
  conns_eq := rfl

/-- A state of the tables that the memory represents. -/
def RepresentsPair (st : Statics) (m : TableMem) (s : List GatewayAddr × List ConnEntry) : Prop :=
  ∃ ps qs, Represents st m s.1 s.2 ps qs

/-- One call on memory does what the call on the lists does, and it accesses blocks only. -/
theorem tableStep_refines {m : TableMem} {s : List GatewayAddr × List ConnEntry}
    (hm : RepresentsPair st m s) {op : TableOp} (hfresh : Fresh m op) :
    ∃ m', tableStep st m op = some (m', (listStep s op).2) ∧
      RepresentsPair st m' (listStep s op).1 := by
  obtain ⟨ps, qs, hm⟩ := hm
  cases op with
  | updateGateway gatewayId addr pathId ts alloc =>
      obtain ⟨m', ps', hrun, hm'⟩ :=
        updateGatewayMapAt_refines hm ts alloc gatewayId addr pathId hfresh
      exact ⟨m', by rw [tableStep, hrun]; rfl, ps', qs, hm'⟩
  | getGateway gatewayId =>
      obtain ⟨p, hrun, hptr⟩ := getGatewayAddrAt_refines hm gatewayId
      refine ⟨m, ?_, ps, qs, hm⟩
      rw [tableStep, hrun, listStep, ← hptr]
      rfl
  | cleanupGateways now expire =>
      obtain ⟨m', ps', hrun, hm'⟩ := cleanupExpiredGatewaysAt_refines hm now expire
      exact ⟨m', by rw [tableStep, hrun]; rfl, ps', qs, hm'⟩
  | updateConn gatewayId ipPacket ts alloc =>
      obtain ⟨m', qs', hrun, hm'⟩ := updateConnTableAt_refines hm ts alloc gatewayId ipPacket hfresh
      exact ⟨m', by rw [tableStep, hrun]; rfl, ps, qs', hm'⟩
  | findGateway ipPacket ts =>
      obtain ⟨m', hrun, hm'⟩ := findGatewayForPacketAt_refines hm ts ipPacket
      exact ⟨m', by rw [tableStep, hrun]; rfl, ps, qs, hm'⟩
  | cleanupConns now expire =>
      obtain ⟨m', qs', hrun, hm'⟩ := cleanupExpiredConnectionsAt_refines hm now expire
      exact ⟨m', by rw [tableStep, hrun]; rfl, ps, qs', hm'⟩

/-- Whatever calls are made and wherever `malloc` puts the entries: memory stays the two tables and
nothing else, the calls give back what they give back on lists, and the next call finds every
pointer that it follows valid. -/
theorem tables_refine {links : Links} {gw : Ptr → GatewayAddr} {conn : Ptr → ConnEntry}
    {t : List (TableOp × TableOut)} {m : TableMem}
    (hrun : Machine.Run (tableMachine st) (TableMem.start st links gw conn) t m) :
    ∃ gws conns ps qs, Machine.Run listMachine ([], []) t (gws, conns) ∧
      Represents st m gws conns ps qs ∧
      ∀ op, Fresh m op → ∃ m' out, tableStep st m op = some (m', out) := by
  have hstart : RepresentsPair st (TableMem.start st links gw conn) ([], []) :=
    ⟨[], [], represents_start links gw conn⟩
  obtain ⟨⟨gws, conns⟩, hlists, hm⟩ := hrun.simulate (N := listMachine) (RepresentsPair st) hstart
    (by
      rintro pre ⟨op, out⟩ post m₁ m₂ s - - hm ⟨hfresh, hstep⟩
      obtain ⟨m', hstep', hm'⟩ := tableStep_refines hm hfresh
      obtain ⟨rfl, hout⟩ := Prod.mk.inj (Option.some.inj (hstep.symm.trans hstep'))
      exact ⟨(listStep s op).1, Prod.ext rfl hout.symm, hm'⟩)
  obtain ⟨ps, qs, hrep⟩ := id hm
  refine ⟨gws, conns, ps, qs, hlists, hrep, fun op hfresh => ?_⟩
  obtain ⟨m', hstep, -⟩ := tableStep_refines hm hfresh
  exact ⟨m', _, hstep⟩

/-- A gateway comes and is freed, and the lookup that follows gives the list head. -/
theorem tables_refine_freed :
    ∃ m gws conns ps qs,
      Machine.Run listMachine ([], [])
        [(.updateGateway 7 ⟨0x0A000001, 40000⟩ 1 100 (some 3), .done),
          (.cleanupGateways 200 true, .done), (.getGateway 7, .gateway .listHead)]
        (gws, conns) ∧
      Represents ⟨1, 2, by decide⟩ m gws conns ps qs ∧
      ∀ op, Fresh m op → ∃ m' out, tableStep ⟨1, 2, by decide⟩ m op = some (m', out) :=
  ⟨_, @tables_refine ⟨1, 2, by decide⟩ ⟨id, id⟩ (fun _ => GatewayAddr.zero)
    (fun _ => ⟨⟨0, 0, 0⟩, 0, 0⟩) _ _
    (.cons ⟨by rintro p ⟨⟩; decide, rfl⟩
      (.cons ⟨fun _ h => (Option.some_ne_none _ h.symm).elim, rfl⟩
        (.cons ⟨fun _ h => (Option.some_ne_none _ h.symm).elim, rfl⟩ (.nil _))))⟩

end ConfigEnv.TunVpn
