/-
Module: ConfigEnv.Proofs.PolicyRules
Layer: Proofs
Purpose: The rules that ip_route_add.sh leaves for its tables. A rule is deleted by the address that
  the interface has now, so the rule of an address that has changed stays: after a start or a stop
  the tables have the rules that they should have exactly as long as no interface has changed its
  address between the start that made its rule and the next run of the script.
Trusted boundary: none
Main exports: ofTable, One, Carries, Settled, Ready, Matches, Held, routingStep_settled,
  rules_settled_iff
Open obligations: none
-/
import ConfigEnv.Mptcp.IpRoute

namespace ConfigEnv.Mptcp

open Machine (Run Always Afterwards)

/-! ### The rules of a table -/

/-- The rules of one table. -/
def ofTable (table : Nat) (rules : List Rule) : List Rule := rules.filter fun r => r.table = table

theorem ofTable_erase (table : Nat) (rules : List Rule) (rule : Rule) :
    ofTable table (rules.erase rule) = (ofTable table rules).erase rule :=
  List.erase_filter.symm

/-- Deleting a rule leaves the rules of other tables. -/
theorem ofTable_erase_other {table : Nat} {rule : Rule} (h : rule.table ≠ table)
    (rules : List Rule) : ofTable table (rules.erase rule) = ofTable table rules := by
  rw [ofTable_erase, List.erase_of_not_mem]
  intro hmem
  exact h (of_decide_eq_true (List.mem_filter.1 hmem).2)

/-- A rule that is not there can be added. -/
theorem ipRuleAdd_of_notMem {rules : List Rule} {rule : Rule} (h : rule ∉ rules) :
    ∃ rules', ipRuleAdd rules rule = some rules' ∧ rules'.Perm (rule :: rules) := by
  refine ⟨_, if_neg h, List.perm_middle.trans ?_⟩
  rw [List.takeWhile_append_dropWhile]

theorem ofTable_ipRuleAdd_other {rules rules' : List Rule} {rule : Rule} {table : Nat}
    (hadd : ipRuleAdd rules rule = some rules') (h : rule.table ≠ table) :
    ofTable table rules' = ofTable table rules := by
  rw [ipRuleAdd] at hadd
  split at hadd
  · cases hadd
  · cases hadd
    rw [ofTable, List.filter_append, List.filter_cons_of_neg (by simpa using h),
      ← List.filter_append, List.takeWhile_append_dropWhile, ofTable]

/-! ### One interface -/

/-- There is one rule, and it carries the current address. -/
def One (iface : Iface) (rules : List Rule) : Prop :=
  ∃ ip r, iface.ip = some ip ∧ rules = [r] ∧ r.src = some ip

/-- The rules carry the current address. -/
def Carries (iface : Iface) (rules : List Rule) : Prop := ∀ r ∈ rules, r.src = iface.ip

instance (iface : Iface) (rules : List Rule) : Decidable (Carries iface rules) :=
  inferInstanceAs (Decidable (∀ r ∈ rules, r.src = iface.ip))

/-- The interface has an address and a gateway. -/
def Iface.ready (iface : Iface) : Bool := iface.ip.isSome && iface.gw.isSome

/-- The rule that the script makes for an address. -/
abbrev ruleFor (ip : Addr) (table priority : Nat) : Rule :=
  { src := some ip, table := table, priority := priority }

/-- No rule, or one that the script has made. -/
def Scripted (table priority : Nat) (rules : List Rule) : Prop :=
  rules = [] ∨ ∃ ip, rules = [ruleFor ip table priority]

section Interface

variable {s : Routing} {dev : String} {iface : Iface} {table priority : Nat}

/-- An interface that is ready has an address and a gateway. -/
theorem ready_cases (h : iface.ready = true) :
    ∃ ip gw, iface.ip = some ip ∧ iface.gw = some gw := by
  rw [Iface.ready, Bool.and_eq_true] at h
  obtain ⟨ip, hip⟩ := Option.isSome_iff_exists.1 h.1
  obtain ⟨gw, hgw⟩ := Option.isSome_iff_exists.1 h.2
  exact ⟨ip, gw, hip, hgw⟩

@[simp] theorem addRulesForInterface_net :
    (addRulesForInterface s dev iface table priority).net = s.net := by
  rw [addRulesForInterface]
  split
  · dsimp only
    split <;> rfl
  · rfl

@[simp] theorem removeRulesForInterface_net :
    (removeRulesForInterface s iface table priority).net = s.net := by
  rw [removeRulesForInterface]
  split <;> rfl

/-- The rules of other tables stay. -/
theorem addRulesForInterface_other {table' : Nat} (h : table ≠ table') :
    ofTable table' (addRulesForInterface s dev iface table priority).rules =
      ofTable table' s.rules := by
  rw [addRulesForInterface]
  split
  · dsimp only
    split
    · exact ofTable_erase_other h s.rules
    · next hadd => exact (ofTable_ipRuleAdd_other hadd h).trans (ofTable_erase_other h s.rules)
  · rfl

/-- Removing the rules of one table leaves those of another. -/
theorem removeRulesForInterface_other {table' : Nat} (h : table ≠ table') :
    ofTable table' (removeRulesForInterface s iface table priority).rules =
      ofTable table' s.rules := by
  rw [removeRulesForInterface]
  split
  · exact ofTable_erase_other h s.rules
  · rfl

/-- The rule of the current address goes; one of another address stays. -/
theorem Scripted.erase {rules : List Rule} {ip : Addr} (h : Scripted table priority rules)
    (hip : iface.ip = some ip) :
    (Carries iface rules → rules.erase (ruleFor ip table priority) = []) ∧
      (¬ Carries iface rules → ∃ ip', ip' ≠ ip ∧
        rules.erase (ruleFor ip table priority) = [ruleFor ip' table priority]) := by
  rcases h with rfl | ⟨ip', rfl⟩
  · exact ⟨fun _ => rfl, fun hno => absurd (fun r hr => absurd hr List.not_mem_nil) hno⟩
  · by_cases hsame : ip' = ip
    · subst hsame
      refine ⟨fun _ => List.erase_cons_head _ _, fun hno => absurd (fun r hr => ?_) hno⟩
      rw [List.mem_singleton.1 hr, hip]
    · refine ⟨fun hcarries => ?_, fun _ => ⟨ip', hsame, ?_⟩⟩
      · have hsrc := hcarries _ (List.mem_singleton_self _)
        rw [hip] at hsrc
        exact absurd (Option.some.inj hsrc) hsame
      · apply List.erase_of_not_mem
        intro hmem
        have hsrc := congrArg Rule.src (List.mem_singleton.1 hmem)
        exact hsame (Option.some.inj hsrc).symm

/-- What `add_rules_for_interface` makes of the rules of its table. -/
theorem ofTable_addRulesForInterface (dev : String) (hready : iface.ready = true)
    (h : Scripted table priority (ofTable table s.rules)) :
    ∃ ip, iface.ip = some ip ∧
      (Carries iface (ofTable table s.rules) →
        ofTable table (addRulesForInterface s dev iface table priority).rules =
          [ruleFor ip table priority]) ∧
      (¬ Carries iface (ofTable table s.rules) →
        (ofTable table (addRulesForInterface s dev iface table priority).rules).length = 2) := by
  obtain ⟨ip, gw, hip, hgw⟩ := ready_cases hready
  obtain ⟨hgone, hstays⟩ := h.erase hip
  have hadded : (ofTable table (addRulesForInterface s dev iface table priority).rules).Perm
      (ruleFor ip table priority :: (ofTable table s.rules).erase (ruleFor ip table priority)) := by
    have hnew : ruleFor ip table priority ∉ s.rules.erase (ruleFor ip table priority) := by
      intro hmem
      have hin : ruleFor ip table priority ∈
          (ofTable table s.rules).erase (ruleFor ip table priority) := by
        rw [← ofTable_erase]
        exact List.mem_filter.2 ⟨hmem, decide_eq_true rfl⟩
      by_cases hcarries : Carries iface (ofTable table s.rules)
      · rw [hgone hcarries] at hin
        exact absurd hin List.not_mem_nil
      · obtain ⟨ip', hne, hold⟩ := hstays hcarries
        rw [hold] at hin
        exact hne (Option.some.inj (congrArg Rule.src (List.mem_singleton.1 hin))).symm
    obtain ⟨rules', hadd, hperm⟩ := ipRuleAdd_of_notMem hnew
    rw [addRulesForInterface]
    simp only [hip, hgw, hadd]
    have hfilter := hperm.filter fun r => decide (r.table = table)
    rw [List.filter_cons_of_pos (by simp)] at hfilter
    exact ofTable_erase table s.rules _ ▸ hfilter
  refine ⟨ip, hip, fun hcarries => ?_, fun hno => ?_⟩
  · rw [hgone hcarries] at hadded
    exact List.perm_singleton.1 hadded
  · obtain ⟨ip', -, hold⟩ := hstays hno
    rw [hadded.length_eq, hold]
    rfl

/-- There is one rule with the current address afterwards exactly when no other one was there. -/
theorem addRulesForInterface_one (dev : String) (hready : iface.ready = true)
    (h : Scripted table priority (ofTable table s.rules)) :
    (One iface (ofTable table (addRulesForInterface s dev iface table priority).rules) ↔
      Carries iface (ofTable table s.rules)) ∧
    (Carries iface (ofTable table s.rules) → Scripted table priority
      (ofTable table (addRulesForInterface s dev iface table priority).rules)) := by
  obtain ⟨ip, hip, hone, htwo⟩ := ofTable_addRulesForInterface dev hready h
  refine ⟨⟨?_, fun hcarries => ⟨ip, _, hip, hone hcarries, rfl⟩⟩,
    fun hcarries => .inr ⟨ip, hone hcarries⟩⟩
  rintro ⟨_, r, -, hrules, -⟩
  by_contra hno
  have hlength := htwo hno
  rw [hrules] at hlength
  exact absurd hlength (by simp)

/-- No rule is left exactly when all of them carried the current address. -/
theorem removeRulesForInterface_none (hready : iface.ready = true)
    (h : Scripted table priority (ofTable table s.rules)) :
    Scripted table priority (ofTable table (removeRulesForInterface s iface table priority).rules) ∧
    (ofTable table (removeRulesForInterface s iface table priority).rules = [] ↔
      Carries iface (ofTable table s.rules)) ∧
    (Carries iface (ofTable table (removeRulesForInterface s iface table priority).rules) ↔
      Carries iface (ofTable table s.rules)) := by
  obtain ⟨ip, -, hip, -⟩ := ready_cases hready
  obtain ⟨hgone, hstays⟩ := h.erase hip
  have hrules : ofTable table (removeRulesForInterface s iface table priority).rules =
      (ofTable table s.rules).erase (ruleFor ip table priority) := by
    rw [removeRulesForInterface, hip]
    exact ofTable_erase table s.rules _
  rw [hrules]
  by_cases hcarries : Carries iface (ofTable table s.rules)
  · rw [hgone hcarries]
    exact ⟨.inl rfl, iff_of_true rfl hcarries,
      iff_of_true (fun r hr => absurd hr List.not_mem_nil) hcarries⟩
  · obtain ⟨ip', hne, hold⟩ := hstays hcarries
    rw [hold]
    refine ⟨.inr ⟨ip', rfl⟩, iff_of_false (List.cons_ne_nil _ _) hcarries,
      iff_of_false (fun hall => ?_) hcarries⟩
    have hsrc := hall _ (List.mem_singleton_self _)
    rw [hip] at hsrc
    exact hne (Option.some.inj hsrc)

end Interface

/-! ### One event -/

/-- What is to hold after an event. -/
def Settled : Event → Routing → Prop
  | .change _ _, _ => True
  | .stop, s => ofTable table1 s.rules = [] ∧ ofTable table2 s.rules = []
  | _, s => One s.net.dev1 (ofTable table1 s.rules) ∧ One s.net.dev2 (ofTable table2 s.rules)

/-- Both interfaces have an address and a gateway when the script is run. -/
def Ready (s : Routing) : Event → Prop
  | .change _ _ => True
  | _ => s.net.dev1.ready = true ∧ s.net.dev2.ready = true

/-- The rules that are there when the script is run carry the addresses that the interfaces have. -/
def Matches (s : Routing) : Event → Prop
  | .change _ _ => True
  | _ => Carries s.net.dev1 (ofTable table1 s.rules) ∧ Carries s.net.dev2 (ofTable table2 s.rules)

instance (s : Routing) (e : Event) : Decidable (Ready s e) :=
  match e with
  | .change _ _ => inferInstanceAs (Decidable True)
  | .start => inferInstanceAs (Decidable (_ ∧ _))
  | .stop => inferInstanceAs (Decidable (_ ∧ _))
  | .restart => inferInstanceAs (Decidable (_ ∧ _))

instance (s : Routing) (e : Event) : Decidable (Matches s e) :=
  match e with
  | .change _ _ => inferInstanceAs (Decidable True)
  | .start => inferInstanceAs (Decidable (_ ∧ _))
  | .stop => inferInstanceAs (Decidable (_ ∧ _))
  | .restart => inferInstanceAs (Decidable (_ ∧ _))

/-- Each table has at most the one rule that the script makes. -/
def Held (s : Routing) : Prop :=
  Scripted table1 priority1 (ofTable table1 s.rules) ∧
    Scripted table2 priority2 (ofTable table2 s.rules)

section Events

variable {s : Routing}

theorem Ready.hasGateways (h : s.net.dev1.ready = true ∧ s.net.dev2.ready = true) :
    s.net.hasGateways = true := by
  obtain ⟨-, gw1, -, hgw1⟩ := ready_cases h.1
  obtain ⟨-, gw2, -, hgw2⟩ := ready_cases h.2
  rw [Net.hasGateways, hgw1, hgw2]
  rfl

/-- `start` sets up each table as if the other were not there. -/
theorem start_tables (h : s.net.dev1.ready = true ∧ s.net.dev2.ready = true) :
    (start s).1.net = s.net ∧
      ofTable table1 (start s).1.rules =
        ofTable table1 (addRulesForInterface s dev1 s.net.dev1 table1 priority1).rules ∧
      ∃ s', ofTable table2 s'.rules = ofTable table2 s.rules ∧ ofTable table2 (start s).1.rules =
        ofTable table2 (addRulesForInterface s' dev2 s.net.dev2 table2 priority2).rules := by
  rw [start, if_pos (Ready.hasGateways h)]
  dsimp only
  rw [addRulesForInterface_net, addRulesForInterface_net]
  exact ⟨rfl, addRulesForInterface_other (by decide), _,
    addRulesForInterface_other (by decide), rfl⟩

/-- `stop` clears each table as if the other were not there. -/
theorem stop_tables (h : s.net.dev1.ready = true ∧ s.net.dev2.ready = true) :
    (stop s).net = s.net ∧
      ofTable table1 (stop s).rules =
        ofTable table1 (removeRulesForInterface s s.net.dev1 table1 priority1).rules ∧
      ∃ s', ofTable table2 s'.rules = ofTable table2 s.rules ∧ ofTable table2 (stop s).rules =
        ofTable table2 (removeRulesForInterface s' s.net.dev2 table2 priority2).rules := by
  rw [stop, if_pos (Ready.hasGateways h)]
  dsimp only
  rw [removeRulesForInterface_net, removeRulesForInterface_net]
  exact ⟨rfl, removeRulesForInterface_other (by decide), _,
    removeRulesForInterface_other (by decide), rfl⟩

/-- After `start` the rules are settled exactly when they matched before. -/
theorem start_settled (h : Held s) (hready : s.net.dev1.ready = true ∧ s.net.dev2.ready = true) :
    (Settled .start (start s).1 ↔ Matches s .start) ∧
      (Matches s .start → Held (start s).1) := by
  obtain ⟨hnet, hrules1, s', hrules2, hrules2'⟩ := start_tables hready
  have h1 := addRulesForInterface_one dev1 hready.1 h.1
  have h2 := addRulesForInterface_one dev2 hready.2 (hrules2.symm ▸ h.2)
  rw [← hrules1] at h1
  rw [← hrules2', hrules2] at h2
  rw [Settled, Matches, hnet, Held]
  · exact ⟨and_congr h1.1 h2.1, fun hcarries => ⟨h1.2 hcarries.1, h2.2 hcarries.2⟩⟩
  all_goals nofun

/-- After `stop` the rules are settled exactly when they matched before. -/
theorem stop_settled (h : Held s) (hready : s.net.dev1.ready = true ∧ s.net.dev2.ready = true) :
    Held (stop s) ∧ (Settled .stop (stop s) ↔ Matches s .stop) ∧
      (Matches (stop s) .start ↔ Matches s .start) := by
  obtain ⟨hnet, hrules1, s', hrules2, hrules2'⟩ := stop_tables hready
  have h1 := removeRulesForInterface_none hready.1 h.1
  have h2 := removeRulesForInterface_none hready.2 (hrules2.symm ▸ h.2)
  rw [← hrules1] at h1
  rw [← hrules2', hrules2] at h2
  refine ⟨⟨h1.1, h2.1⟩, and_congr h1.2.1 h2.2.1, ?_⟩
  rw [Matches, Matches, hnet]
  · exact and_congr h1.2.2 h2.2.2
  all_goals nofun

/-- After an event the tables are as they should be exactly when the rules that were there carried
the addresses of the interfaces. -/
theorem routingStep_settled {e : Event} {o : Bool} {s' : Routing} (h : Held s) (hready : Ready s e)
    (hstep : routingStep s e = .ok (s', o)) :
    (Settled e s' ↔ Matches s e) ∧ (Matches s e → Held s') := by
  cases e with
  | change net routes =>
      cases hstep
      exact ⟨Iff.rfl, fun _ => h⟩
  | start =>
      obtain rfl : (start s).1 = s' := congrArg Prod.fst (Except.ok.inj hstep)
      exact start_settled h hready
  | stop =>
      cases hstep
      obtain ⟨hheld, hsettled, -⟩ := stop_settled h hready
      exact ⟨hsettled, fun _ => hheld⟩
  | restart =>
      obtain rfl : (restart s).1 = s' := congrArg Prod.fst (Except.ok.inj hstep)
      obtain ⟨hheld, -, hmatches⟩ := stop_settled h hready
      have hready' : (stop s).net.dev1.ready = true ∧ (stop s).net.dev2.ready = true := by
        rw [(stop_tables hready).1]
        exact hready
      obtain ⟨hsettled, hafter⟩ := start_settled hheld hready'
      exact ⟨hsettled.trans hmatches, fun hbefore => hafter (hmatches.2 hbefore)⟩

end Events

/-! ### Runs -/

/-- Over a run, every state is settled exactly when the rules match before every step. -/
theorem settled_iff_of_held {s s' : Routing} {t : List (Event × Bool)} (h : Held s)
    (hrun : Run routingMachine s t s') (hready : Always routingMachine s (t.map Prod.fst) Ready) :
    Afterwards routingMachine s t Settled ↔ Always routingMachine s (t.map Prod.fst) Matches := by
  induction hrun with
  | nil s => exact iff_of_true .nil .nil
  | cons hfirst _ ih =>
      obtain ⟨hsettled, hheld⟩ := routingStep_settled h hready.head hfirst
      rw [routingMachine, List.map_cons, Afterwards.cons_iff hfirst, Always.cons_iff hfirst,
        hsettled]
      exact and_congr_right fun hmatches => ih (hheld hmatches) (hready.tail hfirst)

/-- From a state without rules for the two tables: after every run of the script the tables have the
rules that they should have exactly when at each run the rules that were there carried the addresses
that the interfaces had. -/
theorem rules_settled_iff {s s' : Routing} {t : List (Event × Bool)}
    (hnone1 : ofTable table1 s.rules = []) (hnone2 : ofTable table2 s.rules = [])
    (hrun : Run routingMachine s t s')
    (hready : Always routingMachine s (t.map Prod.fst) Ready) :
    Afterwards routingMachine s t Settled ↔ Always routingMachine s (t.map Prod.fst) Matches :=
  settled_iff_of_held ⟨.inl hnone1, .inl hnone2⟩ hrun hready

/-- A mobile interface with one address and its default route. -/
def mobile (ip gw : Addr) : Iface := { addrs := [ip], defaults := [gw], vias := [] }

def netBefore : Net :=
  { dev1 := mobile 0x0A000001 0x0A0000FE, dev2 := mobile 0x0A010001 0x0A0100FE }

/-- The first interface has a new address. -/
def netAfter : Net := { netBefore with dev1 := mobile 0x0A000002 0x0A0000FE }

def booted : Routing :=
  { rules := [
      { src := none, table := 255, priority := 0 },
      { src := none, table := 254, priority := 32766 }]
    routes := []
    net := netBefore }

/-- The rules are removed before the address changes. -/
def stopsBefore : List Event := [.start, .restart, .stop, .change netAfter [], .start]

theorem rules_settled_stopsBefore : ∃ t s, Run routingMachine booted t s ∧
    t.map Prod.fst = stopsBefore ∧ Afterwards routingMachine booted t Settled := by
  have hends : Machine.endsIn routingStep booted stopsBefore (fun _ => true) = true := by
    decide +kernel
  have hready : Machine.checks routingStep (fun q e => Ready q e) booted stopsBefore = true := by
    decide +kernel
  have hmatches : Machine.checks routingStep (fun q e => Matches q e) booted stopsBefore =
      true := by decide +kernel
  obtain ⟨t, s, hrun, hinputs, -⟩ := Machine.run_of_endsIn hends
  refine ⟨t, s, hrun, hinputs, (rules_settled_iff (by decide) (by decide) hrun ?_).2 ?_⟩
  · rw [hinputs]
    exact (Machine.always_of_checks hready).imp fun _ _ => of_decide_eq_true
  · rw [hinputs]
    exact (Machine.always_of_checks hmatches).imp fun _ _ => of_decide_eq_true

/-- The rule of the old address stays beside the new one. -/
theorem rules_accumulate :
    ¬ ∀ (s s' : Routing) (t : List (Event × Bool)), ofTable table1 s.rules = [] →
      ofTable table2 s.rules = [] → Run routingMachine s t s' →
      Always routingMachine s (t.map Prod.fst) Ready → Afterwards routingMachine s t Settled := by
  intro hall
  have hends : Machine.endsIn routingStep booted [.start, .change netAfter [], .start]
      (fun s => (ofTable table1 s.rules).length = 2) = true := by decide +kernel
  have hready : Machine.checks routingStep (fun q e => Ready q e) booted
      [.start, .change netAfter [], .start] = true := by decide +kernel
  obtain ⟨t, s, hrun, hinputs, htwo⟩ := Machine.run_of_endsIn hends
  have hsettled := hall booted s t (by decide) (by decide) hrun (by
    rw [hinputs]
    exact (Machine.always_of_checks hready).imp fun _ _ => of_decide_eq_true)
  obtain ⟨o1, t1, rfl, ht1⟩ := Machine.map_fst_eq_cons hinputs
  obtain ⟨o2, t2, rfl, ht2⟩ := Machine.map_fst_eq_cons ht1
  obtain ⟨o, rfl⟩ := Machine.map_fst_eq_singleton ht2
  obtain ⟨⟨_, r, -, hone, -⟩, -⟩ :=
    hsettled [(.start, o1), (.change netAfter [], o2)] (.start, o) [] s rfl hrun
  have hlength := of_decide_eq_true htwo
  rw [hone] at hlength
  cases hlength

end ConfigEnv.Mptcp
