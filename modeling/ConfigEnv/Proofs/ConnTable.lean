/-
Module: ConfigEnv.Proofs.ConnTable
Layer: Proofs
Purpose: Who owns a flow. Every entry of the table was made by an update with its gateway, on a
  packet with exactly its addresses; the lookup, though, compares only the sum of the two addresses.
  A lookup that hits an entry of its own pair of addresses returns a gateway that sent this pair,
  and one that hits another pair with the same sum need not.
Trusted boundary: none
Main exports: ConnKey.SamePair, Originated, conn_origin, HitsOwnPair, find_gateway_owns_flow
Open obligations: none
-/
import ConfigEnv.TunVpn.Tables

namespace ConfigEnv.TunVpn

open Machine

/-! ### Traversals -/

/-- After a traversal, every entry was there before, touched or not. -/
theorem mem_touchFirst {α : Type} {p : α → Bool} {f : α → α} {as as' : List α}
    (h : touchFirst p f as = some as') {b : α} (hb : b ∈ as') : ∃ a ∈ as, b = a ∨ b = f a := by
  induction as generalizing as' with
  | nil => cases h
  | cons a as ih =>
      unfold touchFirst at h
      by_cases hp : p a = true
      · rw [if_pos hp] at h
        cases h
        rcases List.mem_cons.1 hb with rfl | hb
        · exact ⟨a, List.mem_cons_self, .inr rfl⟩
        · exact ⟨b, List.mem_cons_of_mem a hb, .inl rfl⟩
      · rw [if_neg hp] at h
        obtain ⟨as'', htail, rfl⟩ := Option.map_eq_some_iff.1 h
        rcases List.mem_cons.1 hb with rfl | hb
        · exact ⟨b, List.mem_cons_self, .inl rfl⟩
        · obtain ⟨c, hc, hbc⟩ := ih htail hb
          exact ⟨c, List.mem_cons_of_mem a hc, hbc⟩

/-- A traversal finds nothing exactly when no entry is hit. -/
theorem touchFirst_eq_none {α : Type} {p : α → Bool} {f : α → α} {as : List α} :
    touchFirst p f as = none ↔ ∀ a ∈ as, ¬ p a = true := by
  induction as with
  | nil => simp [touchFirst]
  | cons a as ih =>
      unfold touchFirst
      by_cases hp : p a = true
      · simp [hp]
      · simp [hp, ih]

/-- When at most one entry is hit, the traversal rewrites the entries that are hit. -/
theorem touchFirst_eq_map {α : Type} {p : α → Bool} {f : α → α} {as as' : List α}
    (hone : as.Pairwise fun a b => p a = true → ¬ p b = true)
    (h : touchFirst p f as = some as') : as' = as.map fun a => if p a then f a else a := by
  induction as generalizing as' with
  | nil => cases h
  | cons a as ih =>
      obtain ⟨ha, hrest⟩ := List.pairwise_cons.1 hone
      unfold touchFirst at h
      by_cases hp : p a = true
      · rw [if_pos hp] at h
        cases h
        have htail : as.map (fun b => if p b then f b else b) = as := by
          conv_rhs => rw [← List.map_id as]
          apply List.map_congr_left
          intro b hb
          exact if_neg (ha b hb hp)
        rw [List.map_cons, htail, if_pos hp]
      · rw [if_neg hp] at h
        obtain ⟨as'', htail, rfl⟩ := Option.map_eq_some_iff.1 h
        rw [List.map_cons, if_neg hp, ih hrest htail]

/-! ### Flows -/

/-- The unordered pairs of addresses are the same. -/
def ConnKey.SamePair (k k' : ConnKey) : Prop :=
  (k.srcIp = k'.srcIp ∧ k.dstIp = k'.dstIp) ∨ (k.srcIp = k'.dstIp ∧ k.dstIp = k'.srcIp)

instance (k k' : ConnKey) : Decidable (k.SamePair k') :=
  inferInstanceAs (Decidable (_ ∨ _))

/-- Some update of the history was made with this gateway, on an IPv4 packet with this pair. -/
def Originated (t : List (ConnOp × Option u8)) (gatewayId : u8) (key : ConnKey) : Prop :=
  ∃ ipPacket ts alloc out, (ConnOp.update gatewayId ipPacket ts alloc, out) ∈ t ∧
    ipVersion ipPacket = 4 ∧ (connHashCal ipPacket).SamePair key

/-- What was learnt stays learnt in a longer run. -/
theorem Originated.append {t t' : List (ConnOp × Option u8)} {gatewayId : u8} {key : ConnKey}
    (h : Originated t gatewayId key) : Originated (t ++ t') gatewayId key := by
  obtain ⟨ipPacket, ts, alloc, out, hmem, hv4, hpair⟩ := h
  exact ⟨ipPacket, ts, alloc, out, List.mem_append_left t' hmem, hv4, hpair⟩

/-- Using an entry changes nothing but its time. -/
theorem ConnEntry.mem_used {conns conns' : List ConnEntry} {hashVal : u32} {ts : Int}
    (h : touchFirst (ConnEntry.hit hashVal) (ConnEntry.use ts) conns = some conns')
    {entry : ConnEntry} (hmem : entry ∈ conns') :
    ∃ old ∈ conns, entry.key = old.key ∧ entry.gatewayId = old.gatewayId := by
  obtain ⟨old, hold, hentry⟩ := mem_touchFirst h hmem
  rcases hentry with rfl | rfl
  · exact ⟨entry, hold, rfl, rfl⟩
  · exact ⟨old, hold, rfl, rfl⟩

/-- The entries after one call: an update that hits none may add one of its own, and nothing else is
new. -/
theorem connStep_entries {conns conns' : List ConnEntry} {op : ConnOp} {out : Option u8}
    (h : connMachine conns op out conns') {entry : ConnEntry} (hmem : entry ∈ conns') :
    (∃ old ∈ conns, entry.key = old.key ∧ entry.gatewayId = old.gatewayId) ∨
      ∃ ipPacket ts, op = .update entry.gatewayId ipPacket ts true ∧ ipVersion ipPacket = 4 ∧
        connHashCal ipPacket = entry.key ∧
        touchFirst (ConnEntry.hit (connHashCal ipPacket).hashVal) (ConnEntry.use ts) conns =
          none := by
  have hkept : entry ∈ conns → ∃ old ∈ conns, entry.key = old.key ∧
      entry.gatewayId = old.gatewayId := fun hold => ⟨entry, hold, rfl, rfl⟩
  cases op with
  | update gatewayId ipPacket ts alloc =>
      obtain ⟨rfl, -⟩ := Prod.mk.inj h
      unfold updateConnTable at hmem
      by_cases hv4 : ipVersion ipPacket = 4
      · rw [if_neg (not_not.2 hv4)] at hmem
        dsimp only at hmem
        split at hmem
        · rename_i conns' htouch
          exact .inl (ConnEntry.mem_used htouch hmem)
        · rename_i htouch
          cases alloc with
          | false => exact .inl (hkept hmem)
          | true =>
              rcases List.mem_cons.1 hmem with rfl | hold
              · exact .inr ⟨ipPacket, ts, rfl, hv4, rfl, htouch⟩
              · exact .inl (hkept hold)
      · rw [if_pos hv4] at hmem
        exact .inl (hkept hmem)
  | find ipPacket ts =>
      have hconns : conns' = (findGatewayForPacket conns ts ipPacket).1 :=
        (congrArg Prod.fst h).symm
      subst hconns
      unfold findGatewayForPacket at hmem
      by_cases hv4 : ipVersion ipPacket = 4
      · rw [if_neg (not_not.2 hv4)] at hmem
        dsimp only at hmem
        split at hmem
        · cases htouch : touchFirst (ConnEntry.hit (connHashCal ipPacket).hashVal)
              (ConnEntry.use ts) conns with
          | none =>
              rw [htouch] at hmem
              exact .inl (hkept hmem)
          | some conns' =>
              rw [htouch] at hmem
              exact .inl (ConnEntry.mem_used htouch hmem)
        · exact .inl (hkept hmem)
      · rw [if_pos hv4] at hmem
        exact .inl (hkept hmem)
  | cleanup now expire =>
      obtain ⟨rfl, -⟩ := Prod.mk.inj h
      exact .inl (hkept (List.mem_filter.1 hmem).1)

/-- Every entry of the table goes back to an update with its gateway and its addresses. -/
theorem conn_origin {t : List (ConnOp × Option u8)} {conns : List ConnEntry}
    (h : Run connMachine [] t conns) :
    ∀ entry ∈ conns, Originated t entry.gatewayId entry.key := by
  refine Run.historyInvariant
    (fun t conns => ∀ entry ∈ conns, Originated t entry.gatewayId entry.key) h (by simp) ?_
  rintro pre ⟨op, out⟩ post conns conns' rfl - ih hstep entry hmem
  rcases connStep_entries hstep hmem with
    ⟨old, hold, hkey, hgw⟩ | ⟨ipPacket, ts, rfl, hv4, hkey, -⟩
  · rw [hkey, hgw]
    exact (ih old hold).append
  · refine ⟨ipPacket, ts, true, out, ?_, hv4, .inl ?_⟩
    · exact List.mem_append_right pre List.mem_cons_self
    · rw [hkey]
      exact ⟨rfl, rfl⟩

/-! ### Lookups -/

/-- The entry that a lookup hits, if it hits one, is about the pair of addresses of the packet. -/
def HitsOwnPair (conns : List ConnEntry) : ConnOp → Prop
  | .find ipPacket _ => ∀ entry,
      conns.find? (ConnEntry.hit (connHashCal ipPacket).hashVal) = some entry →
        entry.key.SamePair (connHashCal ipPacket)
  | _ => True

/-- A lookup that finds a gateway hit an entry with that gateway. -/
theorem findGatewayForPacket_hit {conns : List ConnEntry} {ts : Int} {ipPacket : List u8}
    (h : (findGatewayForPacket conns ts ipPacket).2 ≠ 0) :
    ∃ entry, conns.find? (ConnEntry.hit (connHashCal ipPacket).hashVal) = some entry ∧
      entry.gatewayId = (findGatewayForPacket conns ts ipPacket).2 := by
  unfold findGatewayForPacket at h ⊢
  by_cases hv4 : ipVersion ipPacket = 4
  · rw [if_neg (not_not.2 hv4)] at h ⊢
    dsimp only at h ⊢
    cases hfind : conns.find? (ConnEntry.hit (connHashCal ipPacket).hashVal) with
    | none =>
        rw [hfind] at h
        exact absurd rfl h
    | some entry => exact ⟨entry, rfl, rfl⟩
  · rw [if_pos hv4] at h
    exact absurd rfl h

/-- When every lookup hits an entry of its own pair of addresses, or none, every gateway that is
found has sent the pair before. -/
theorem find_gateway_owns_flow (t : List (ConnOp × Option u8)) (conns : List ConnEntry)
    (hrun : Run connMachine [] t conns)
    (hown : Always connMachine [] (t.map Prod.fst) HitsOwnPair)
    (pre post : List (ConnOp × Option u8)) (ipPacket : List u8) (ts : Int) (gatewayId : u8)
    (hfind : t = pre ++ (.find ipPacket ts, some gatewayId) :: post) (hne : gatewayId ≠ 0) :
    Originated pre gatewayId (connHashCal ipPacket) := by
  subst hfind
  obtain ⟨before, after, hpre, hstep, -⟩ := hrun.middle
  have hgw : (findGatewayForPacket before ts ipPacket).2 = gatewayId :=
    Option.some.inj (congrArg Prod.snd hstep)
  have hfound : (findGatewayForPacket before ts ipPacket).2 ≠ 0 := hgw.symm ▸ hne
  obtain ⟨entry, hhit, hentry⟩ := findGatewayForPacket_hit hfound
  -- the entry was made for the addresses of this packet
  have hpair : entry.key.SamePair (connHashCal ipPacket) := by
    apply hown (pre.map Prod.fst) (.find ipPacket ts) (post.map Prod.fst) pre before ?_ rfl hpre
      entry hhit
    simp
  obtain ⟨ipPacket', ts', alloc, out, hmem, hv4, hsame⟩ :=
    conn_origin hpre entry (List.mem_of_find?_eq_some hhit)
  rw [hentry, hgw] at hmem
  refine ⟨ipPacket', ts', alloc, out, hmem, hv4, ?_⟩
  -- two packets of one pair, each in one of the two orders
  unfold ConnKey.SamePair at hsame hpair ⊢
  rcases hsame with ⟨h1, h2⟩ | ⟨h1, h2⟩ <;> rcases hpair with ⟨h3, h4⟩ | ⟨h3, h4⟩
  · exact .inl ⟨h1.trans h3, h2.trans h4⟩
  · exact .inr ⟨h1.trans h3, h2.trans h4⟩
  · exact .inr ⟨h1.trans h4, h2.trans h3⟩
  · exact .inl ⟨h1.trans h4, h2.trans h3⟩

/-- An IPv4 header from `10.0.0.src` to `10.0.0.dst`. -/
def flowPacket (src dst : u8) : List u8 :=
  [0x45, 0, 0, 20, 0, 0, 0, 0, 64, 0, 0, 0, 10, 0, 0, src, 10, 0, 0, dst]

/-- Gateway 7 learns the flow from 1 to 4, and then a packet of another flow is looked up. -/
def learnThenFind (src dst : u8) (gatewayId : u8) : List (ConnOp × Option u8) :=
  [(.update 7 (flowPacket 1 4) 0 true, none), (.find (flowPacket src dst) 0, some gatewayId)]

/-- The entry for the flow from 1 to 4. -/
def learnedEntry : ConnEntry :=
  { key := connHashCal (flowPacket 1 4), gatewayId := 7, lastUsed := 0 }

theorem learnThenFind_run {src dst : u8}
    (hfind : connMachine [learnedEntry] (.find (flowPacket src dst) 0) (some 7) [learnedEntry]) :
    Run connMachine [] (learnThenFind src dst 7) [learnedEntry] := by
  have hlearn : connMachine [] (.update 7 (flowPacket 1 4) 0 true) none [learnedEntry] := rfl
  exact .cons hlearn (.cons hfind (.nil _))

/-- The reply to the flow is found, and an update with the gateway came before. -/
theorem find_gateway_owns_flow_reply :
    Originated [(.update 7 (flowPacket 1 4) 0 true, none)] 7 (connHashCal (flowPacket 4 1)) := by
  have hrun : Run connMachine [] (learnThenFind 4 1 7) [learnedEntry] := learnThenFind_run rfl
  have hown : Always connMachine [] ((learnThenFind 4 1 7).map Prod.fst) HitsOwnPair := by
    refine .cons trivial fun out conns hstep => .cons ?_ fun _ _ _ => .nil
    obtain rfl : conns = [learnedEntry] := (congrArg Prod.fst hstep).symm
    rintro hit hhit
    cases hhit
    decide
  exact find_gateway_owns_flow (learnThenFind 4 1 7) [learnedEntry] hrun hown
    [(.update 7 (flowPacket 1 4) 0 true, none)] [] (flowPacket 4 1) 0 7 rfl (by decide)

/-- Addresses 1 and 4 have the sum of 2 and 3: a packet between 2 and 3 is sent to a gateway that
never had a packet between the two. -/
theorem find_gateway_wrong_flow :
    ∃ conns, Run connMachine [] (learnThenFind 2 3 7) conns ∧
      ¬ Originated [(.update 7 (flowPacket 1 4) 0 true, none)] 7
        (connHashCal (flowPacket 2 3)) := by
  refine ⟨[learnedEntry], learnThenFind_run rfl, ?_⟩
  rintro ⟨ipPacket, ts, alloc, out, hmem, -, hpair⟩
  obtain ⟨hop, -⟩ := Prod.mk.inj (List.mem_singleton.1 hmem)
  cases hop
  exact absurd hpair (by decide)

end ConfigEnv.TunVpn
