/-
Module: ConfigEnv.Proofs.TunnelScript
Layer: Proofs
Purpose: glorytun-tcp.sh against the tunnel. The lists of the router are shared with other programs;
  what belongs to the tunnel is at each point what its phase says, each entry once, and what belongs
  to the others is what the tunnel says.
Trusted boundary: none
Main exports: Shows, cleanAll_shows, start_shows, scriptStep_shows, Untouched, shows_run,
  tunnel_refines
Open obligations: none
-/
import ConfigEnv.Lib.Shares
import ConfigEnv.Spec.Tunnel

namespace ConfigEnv.Glorytun

open Machine (Run)
open Shares (Parts replaceFirst)

/-! ### What belongs to the tunnel -/

/-- The rules of a tunnel that is up, newest first. -/
def scriptRules (up : Bool) : List Rule :=
  if up then [oifRule, fromRule, oifRule2, oifRule1] else []

/-- The routes of the main table through a device, newest first. -/
def scriptRoutes (device : Bool) : List Route := if device then [tunnelDefault, peerRoute] else []

/-- The routes of the tunnel's table, while the device is there. -/
def scriptTunnel (device : Bool) : List Route :=
  if device then [localRoute, remoteRoute] else []

/-- The NAT rules of the script, while the tunnel is up. -/
def scriptNat (up : Bool) : List NatRule := if up then [masquerade] else []

/-- The router shows the tunnel: of each list, what belongs to it and what belongs to the others. -/
structure Shows (s : Sys) (q : Tunnel) : Prop where
  rules : Parts Rule.ofScript s.rules (scriptRules q.phase.isUp) q.rules
  main : Parts Route.viaTunnel s.main (scriptRoutes q.phase.device) q.routes
  tunnel : s.tunnel = scriptTunnel q.phase.device
  nat : Parts (fun r => decide (r = masquerade)) s.nat (scriptNat q.phase.isUp) q.nat
  procs : s.procs = if q.phase.running then 1 else 0
  hasDev : s.hasDev = q.phase.device
  key : s.key = q.phase.isUp

/-! ### Lists -/

section Lists

variable {rules ours theirs : List Rule} {l M t : List Route} {route : Route}

/-- A rule of the script is added to its own. -/
theorem ipRuleAdd_parts (rule : Rule) (h : Parts Rule.ofScript rules ours theirs)
    (hrule : rule.ofScript = true) (hnew : rule ∉ ours) :
    Parts Rule.ofScript (ipRuleAdd rules rule) (rule :: ours) theirs := by
  have hnot : rule ∉ rules := fun hmem => hnew (h.mem_ours.2 ⟨hmem, hrule⟩)
  rw [ipRuleAdd, if_neg hnot]
  apply Parts.insert _ hrule
  rwa [List.takeWhile_append_dropWhile]

/-- The four rules are deleted, if they are there. -/
theorem ipRuleDel_parts (up : Bool) (h : Parts Rule.ofScript rules (scriptRules up) theirs) :
    Parts Rule.ofScript
      (ipRuleDel (ipRuleDel (ipRuleDel (ipRuleDel rules oifRule1) oifRule2) fromRule) oifRule)
      [] theirs := by
  have hfits : ∀ spec : Rule, spec ∈ [oifRule1, oifRule2, fromRule, oifRule] →
      ∀ b, spec.fits b = true → b.ofScript = true := by
    intro spec hspec b hb
    simp only [List.mem_cons, List.not_mem_nil, or_false] at hspec
    rcases hspec with rfl | rfl | rfl | rfl <;> simp [Rule.ofScript, hb]
  have h1 := h.deleteOurs (hfits oifRule1 (by simp)) (by cases up <;> decide)
  have h2 := h1.deleteOurs (hfits oifRule2 (by simp)) (by cases up <;> decide)
  have h3 := h2.deleteOurs (hfits fromRule (by simp)) (by cases up <;> decide)
  have h4 := h3.deleteOurs (hfits oifRule (by simp)) (by cases up <;> decide)
  have hnone : ((((scriptRules up).eraseP oifRule1.fits).eraseP oifRule2.fits).eraseP
      fromRule.fits).eraseP oifRule.fits = [] := by
    cases up <;> decide
  rwa [hnone] at h4

/-- A route outside the tunnel is added to the others. -/
theorem ipRouteAdd_parts (h : Parts Route.viaTunnel l M t) (hroute : route.viaTunnel = false)
    (hkey : ∀ r ∈ M, r.key ≠ route.key) :
    Parts Route.viaTunnel (ipRouteAdd l route) M (ipRouteAdd t route) := by
  rw [ipRouteAdd, ipRouteAdd, h.any_eq fun r hr => decide_eq_false (hkey r hr)]
  split
  · exact h
  · exact h.addTheirs hroute

/-- An uplink is added to the routes outside the tunnel. -/
theorem addUplink_parts (h : Parts Route.viaTunnel l M t) (gw : Word) (d : String) (metric : Nat)
    (hdev : d ≠ dev) (hkey : ∀ r ∈ M, r.key ≠ (none, metric)) :
    Parts Route.viaTunnel (addUplink l gw d metric) M (addUplink t gw d metric) := by
  cases gw with
  | name s => exact h
  | addr a =>
      have hroute : (uplink a d metric).viaTunnel = false := by
        simp [Route.viaTunnel, uplink, Route.single, hdev]
      exact ipRouteAdd_parts h hroute hkey

/-- The route to the server is added to the routes outside the tunnel. -/
theorem balance_parts (h : Parts Route.viaTunnel l M t) (gw1 gw2 : Word)
    (hkey : ∀ r ∈ M, r.key ≠ (some vps, 1)) :
    Parts Route.viaTunnel (balance l gw1 gw2) M (balance t gw1 gw2) := by
  cases gw1 with
  | name s => exact h
  | addr a1 =>
      cases gw2 with
      | name s => exact h
      | addr a2 => exact h.replaceTheirs (fun r hr => decide_eq_false (hkey r hr)) rfl

/-- Deleting the route to the server leaves the script's own routes. -/
theorem ipRouteDelVps_parts (device : Bool)
    (h : Parts Route.viaTunnel l (scriptRoutes device) t) :
    Parts Route.viaTunnel (ipRouteDelVps l) (scriptRoutes device) (ipRouteDelVps t) :=
  h.deleteTheirs (by cases device <;> decide)

/-- Deleting the tunnel's default route leaves the routes of the others. -/
theorem ipRouteDelDefault_parts (device : Bool)
    (h : Parts Route.viaTunnel l (scriptRoutes device) t) :
    ∃ M, Parts Route.viaTunnel (ipRouteDelDefault l remoteIp dev none) M t := by
  refine ⟨_, h.deleteOurs (fun r hr => ?_) (by cases device <;> decide)⟩
  obtain ⟨-, hhops, -⟩ := of_decide_eq_true hr
  obtain ⟨hop, rest, hlist, hhop, -⟩ := List.map_eq_cons_iff.1 hhops
  rw [Route.viaTunnel, hlist, List.any_cons, decide_eq_true (Prod.mk.inj hhop).2, Bool.true_or]

/-- Deleting the masquerade leaves the other rules. -/
theorem natDel_parts (up : Bool) {nat theirs : List NatRule}
    (h : Parts (fun r => decide (r = masquerade)) nat (scriptNat up) theirs) :
    Parts (fun r => decide (r = masquerade)) (nat.erase masquerade) [] theirs := by
  have hdel := h.deleteOurs (p := fun r => masquerade == r)
    (fun r hr => decide_eq_true (eq_of_beq hr).symm) (by cases up <;> decide)
  have hnone : (scriptNat up).eraseP (fun r => masquerade == r) = [] := by
    cases up <;> decide
  rwa [hnone, ← List.erase_eq_eraseP] at hdel

/-- The default route through the tunnel comes in the place of all others. -/
theorem flush_parts (device : Bool) (h : Parts Route.viaTunnel l [] t) :
    Parts Route.viaTunnel
      (if device then ipRouteAdd (ipRouteFlushDefault (l ++ [peerRoute])) tunnelDefault
        else ipRouteFlushDefault l) (scriptRoutes device) (ipRouteFlushDefault t) := by
  cases device with
  | false => exact h.keep _
  | true =>
      have hpeer := (h.addOurs (a := peerRoute) (by decide)).keep fun r => r.dst ≠ none
      have hfree : ¬ (ipRouteFlushDefault (l ++ [peerRoute])).any
          (fun r => r.key = tunnelDefault.key) = true := by
        intro hany
        obtain ⟨r, hr, hkey⟩ := List.any_eq_true.1 hany
        have hdst := of_decide_eq_true (List.mem_filter.1 hr).2
        exact hdst (Prod.mk.inj (of_decide_eq_true hkey)).1
      rw [if_pos rfl, ipRouteAdd, if_neg hfree]
      exact hpeer.addOurs (by decide)

/-- A list of the tunnel is empty once the device is gone. -/
theorem tunnel_cleaned (device : Bool) :
    (ipRouteDelTunnel (ipRouteDelTunnel (scriptTunnel device) (some (host localIp)) none) none
      (some remoteIp)).filter (fun r => !r.viaTunnel) = [] := by
  cases device <;> decide

end Lists

/-! ### The functions of the script -/

section Script

variable {s s' : Sys} {q : Tunnel}

/-- Without gateways `clean_all` leaves nothing of the tunnel, and takes the route to the server. -/
theorem cleanAll_shows (h : Shows s q) : Shows (cleanAll none none s) q.stop where
  rules := ipRuleDel_parts q.phase.isUp h.rules
  main := by
    have hvps := ipRouteDelVps_parts q.phase.device h.main
    obtain ⟨M, hmain⟩ := ipRouteDelDefault_parts q.phase.device hvps
    exact hmain.dropOurs
  tunnel := by
    have hclean := tunnel_cleaned q.phase.device
    rwa [← h.tunnel] at hclean
  nat := natDel_parts q.phase.isUp h.nat
  procs := rfl
  hasDev := rfl
  key := rfl

/-- A start from a router that shows a tunnel that is down. -/
theorem startUp_shows (devUp : Bool) (gw1 gw2 : Word) (h : Shows s q) (hdown : q.phase = .down) :
    Shows (addIptables (addPolicyRules (addRoutes gw1 gw2 (startTunnel devUp s))))
      { q with phase := .up true devUp, routes := relinked gw1 gw2 q.routes } := by
  obtain ⟨hrules, hmain, htunnel, hnat, hprocs, hdev, hkey⟩ := h
  rw [hdown] at hrules hmain htunnel hnat hprocs
  constructor
  · have h1 := ipRuleAdd_parts oifRule1 hrules (by decide) (by decide)
    have h2 := ipRuleAdd_parts oifRule2 h1 (by decide) (by decide)
    have h3 := ipRuleAdd_parts fromRule h2 (by decide) (by decide)
    exact ipRuleAdd_parts oifRule h3 (by decide) (by decide)
  · have hflush := flush_parts devUp hmain
    have h1 := addUplink_parts hflush gw1 dev1 table1 (by decide)
      (by cases devUp <;> decide)
    have h2 := addUplink_parts h1 gw2 dev2 table2 (by decide)
      (by cases devUp <;> decide)
    have h3 := balance_parts h2 gw1 gw2 (by cases devUp <;> decide)
    cases devUp <;> exact h3
  · change (if devUp then ipRouteReplace (ipRouteReplace s.tunnel localRoute) remoteRoute
      else s.tunnel) = scriptTunnel devUp
    rw [htunnel]
    cases devUp <;> decide
  · exact hnat.addOurs (by decide)
  · exact congrArg (· + 1) hprocs
  · rfl
  · rfl

/-- `start` does to the abstract tunnel what it does to the system. -/
theorem start_shows (devUp : Bool) (h : Shows s q) :
    Shows (start devUp s).1 (q.start devUp).1 ∧ (start devUp s).2 = (q.start devUp).2 := by
  have hclean := cleanAll_shows h
  have hmain : (cleanAll none none s).main = q.stop.routes := hclean.main.eq_theirs
  rw [start, Tunnel.start, ← hmain]
  cases hinfo : getNetworkInfo (cleanAll none none s).main with
  | none => exact ⟨hclean, rfl⟩
  | some gws =>
      obtain ⟨gw1, gw2⟩ := gws
      have hup := startUp_shows devUp gw1 gw2 hclean rfl
      rw [← hmain] at hup
      exact ⟨hup, rfl⟩

/-- A crash does to the abstract tunnel what it does to the system. -/
theorem crash_shows (h : Shows s q) :
    Shows { s.loseDev with procs := 0 } { q with phase := q.phase.crashed } := by
  obtain ⟨hrules, hmain, htunnel, hnat, hprocs, hdev, hkey⟩ := h
  have hup : q.phase.crashed.isUp = q.phase.isUp := by
    cases q.phase <;> rfl
  have hdevice : q.phase.crashed.device = false := by
    cases q.phase <;> rfl
  have hrunning : q.phase.crashed.running = false := by
    cases q.phase <;> rfl
  constructor
  · rwa [hup]
  · rw [hdevice]
    exact hmain.dropOurs
  · rw [hdevice]
    change s.tunnel.filter (fun r => !r.viaTunnel) = scriptTunnel false
    rw [htunnel]
    cases q.phase.device <;> decide
  · rwa [hup]
  · rw [hrunning]
    rfl
  · exact hdevice.symm
  · rw [hup]
    exact hkey

/-- Other programs that leave alone what belongs to the tunnel. -/
theorem change_shows {rules : List Rule} {main : List Route} {nat : List NatRule} (h : Shows s q)
    (henabled : Event.Enabled s (.change rules main nat)) :
    Shows { s with rules := rules, main := main, nat := nat }
      (tunnelStep q (.change rules main nat)).1 := by
  obtain ⟨hrules, hmain, hnat⟩ := henabled
  exact { h with
    rules := ⟨hrules ▸ h.rules.ours_perm, rfl⟩
    main := ⟨hmain ▸ h.main.ours_perm, rfl⟩
    nat := ⟨hnat ▸ h.nat.ours_perm, rfl⟩ }

/-- An event does to the router what it does to the tunnel, with the same outcome. -/
theorem scriptStep_shows {e : Event} {out : Bool} (h : Shows s q)
    (hstep : scriptMachine s e out s') :
    ∃ q', tunnelMachine q e out q' ∧ Shows s' q' := by
  obtain ⟨henabled, heq⟩ := hstep
  suffices hboth : Shows (scriptStep s e).1 (tunnelStep q e).1 ∧
      (scriptStep s e).2 = (tunnelStep q e).2 by
    rw [heq] at hboth
    exact ⟨(tunnelStep q e).1, Prod.ext rfl hboth.2.symm, hboth.1⟩
  cases e with
  | start devUp => exact start_shows devUp h
  | stop => exact ⟨cleanAll_shows h, rfl⟩
  | restart devUp => exact start_shows devUp (cleanAll_shows h)
  | crash => exact ⟨crash_shows h, rfl⟩
  | change rules main nat => exact ⟨change_shows h henabled, rfl⟩

end Script

/-! ### Runs -/

/-- There is nothing of the tunnel on the router. -/
structure Untouched (s : Sys) : Prop where
  rules : ∀ r ∈ s.rules, r.ofScript = false
  main : ∀ r ∈ s.main, r.viaTunnel = false
  nat : masquerade ∉ s.nat
  tunnel : s.tunnel = []
  procs : s.procs = 0
  hasDev : s.hasDev = false
  key : s.key = false

/-- The tunnel that is down, among the entries of others. -/
def Tunnel.ofSys (s : Sys) : Tunnel :=
  { phase := .down, rules := s.rules, routes := s.main, nat := s.nat }

/-- A router with nothing of the tunnel shows the tunnel that is read off it. -/
theorem Untouched.shows {s : Sys} (h : Untouched s) : Shows s (Tunnel.ofSys s) where
  rules := .of_theirs h.rules
  main := .of_theirs h.main
  nat := .of_theirs fun _ hr => decide_eq_false fun heq => h.nat (heq ▸ hr)
  tunnel := h.tunnel
  procs := h.procs
  hasDev := h.hasDev
  key := h.key

/-- What a run does to the router it does to the tunnel. -/
theorem shows_run {s s' : Sys} {q : Tunnel} {t : List (Event × Bool)} (h : Shows s q)
    (hrun : Run scriptMachine s t s') : ∃ q', Run tunnelMachine q t q' ∧ Shows s' q' := by
  apply hrun.simulate Shows h
  intro _ _ _ _ _ _ _ _ h hstep
  exact scriptStep_shows h hstep

/-- From a router without a tunnel, every run of the script among other programs and crashes is one
of the tunnel with the same outcomes, and the router shows the tunnel at its end. -/
theorem tunnel_refines {s s' : Sys} {t : List (Event × Bool)} (hstart : Untouched s)
    (hrun : Run scriptMachine s t s') :
    ∃ q, Run tunnelMachine (Tunnel.ofSys s) t q ∧ Shows s' q :=
  shows_run hstart.shows hrun

/-- A router with a default route over each link; the gateway of the first one is optional. -/
def router (gw1 : Option Addr) : Sys where
  rules := [{ src := none, oif := none, table := 254, priority := 32766 }]
  main := [.single none gw1 dev1 false 100, .single none (some 0x0a010001) dev2 false 101,
    .single (some { addr := 0xc0a80100, len := 24 }) none "eth0" false 0]
  tunnel := []
  nat := [["-o", "eth0", "-j", "MASQUERADE"]]
  procs := 0
  hasDev := false
  key := false

theorem router_untouched (gw1 : Option Addr) : Untouched (router gw1) where
  rules := show ∀ r ∈ (router none).rules, r.ofScript = false by decide
  main := by
    intro r hr
    simp only [router, List.mem_cons, List.not_mem_nil, or_false] at hr
    rcases hr with rfl | rfl | rfl <;> rfl
  nat := show masquerade ∉ (router none).nat by decide
  tunnel := rfl
  procs := rfl
  hasDev := rfl
  key := rfl

/-- A start; another program puts a rule and a route at the head of the lists; a crash, a restart
whose device comes too late, and a stop. -/
def eventful : List (Event × Bool) :=
  let s := (start true (router (some 0x0a000001))).1
  [(.start true, true),
    (.change ({ src := none, oif := some "eth0", table := 100, priority := 10 } :: s.rules)
      (.single (some vps) (some 0x0a000001) dev1 false 5 :: s.main) s.nat, true),
    (.crash, true), (.restart false, true), (.stop, true)]

theorem tunnel_refines_eventful :
    ∃ s' q, Run scriptMachine (router (some 0x0a000001)) eventful s' ∧
      Run tunnelMachine (Tunnel.ofSys (router (some 0x0a000001))) eventful q ∧ Shows s' q := by
  have hrun : Run scriptMachine (router (some 0x0a000001)) eventful _ :=
    .cons ⟨trivial, rfl⟩ (.cons ⟨⟨by decide, by decide, by decide⟩, rfl⟩ (.cons ⟨trivial, rfl⟩
      (.cons ⟨trivial, rfl⟩ (.cons ⟨trivial, rfl⟩ (.nil _)))))
  obtain ⟨q, hq, hshows⟩ := tunnel_refines (router_untouched _) hrun
  exact ⟨_, q, hrun, hq, hshows⟩

end ConfigEnv.Glorytun
