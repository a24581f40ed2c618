/-
Module: ConfigEnv.Proofs.Uplinks
Layer: Proofs
Purpose: The default routes over the links, from one start of glorytun-tcp.sh to the next. The
  variables for the gateways are empty when `clean_all` is called, so that it leaves the routes over
  the links: a stop does not bring back the default routes that a start has flushed, and the next
  start takes its gateways from the routes of the last one. When the last one had no gateway for a
  link, because the default route over it named none, there is no route to take it from.
Trusted boundary: none
Main exports: gatewayOf_eq_none, linked, Plain, start_linked, uplinks_stick, start_strands
Open obligations: none
-/
import ConfigEnv.Proofs.TunnelScript

namespace ConfigEnv.Glorytun

open Machine (Run)

/-! ### Gateways -/

section Gateways

variable {routes rest : List Route} {d : String}

/-- A link has no gateway when no default route and no other route with a gateway goes over it. -/
theorem gatewayOf_eq_none : gatewayOf routes d = none ↔
    (∀ r ∈ routes, r.dst = none → ∀ h ∈ r.hops, grepsDev d h.dev = false) ∧
      ∀ r ∈ routes, r.viaOn d = none := by
  rw [gatewayOf, Option.or_eq_none_iff, Option.map_eq_none_iff, List.find?_eq_none,
    List.findSome?_eq_none_iff]
  simp only [List.mem_flatMap, List.mem_filter, decide_eq_true_eq, forall_exists_index, and_imp,
    Bool.not_eq_true]
  constructor
  · rintro ⟨hdefault, hother⟩
    exact ⟨fun r hr hdst h hh => hdefault h r hr hdst hh, hother⟩
  · rintro ⟨hdefault, hother⟩
    exact ⟨fun h r hr hdst hh => hdefault r hr hdst h hh, hother⟩

/-- The first default route over the link gives the gateway, or the name of the link if it has none.
-/
theorem gatewayOf_default {l : List Route} {via : Option Addr} {static : Bool} {metric : Nat}
    (hl : ∀ r ∈ l, r.dst = none → ∀ h ∈ r.hops, grepsDev d h.dev = false)
    (hself : grepsDev d d = true) :
    gatewayOf (l ++ Route.single none via d static metric :: rest) d =
      some (Hop.word { via := via, dev := d, weight := 1 }) := by
  have hnone : ((l.filter fun r => r.dst = none).flatMap Route.hops).find?
      (fun h => grepsDev d h.dev) = none := by
    rw [List.find?_eq_none]
    intro h hh
    obtain ⟨r, hr, hhop⟩ := List.mem_flatMap.1 hh
    obtain ⟨hmem, hdst⟩ := List.mem_filter.1 hr
    rw [hl r hmem (of_decide_eq_true hdst) h hhop]
    decide
  rw [gatewayOf, List.filter_append, List.filter_cons_of_pos (by rfl), List.flatMap_append,
    List.flatMap_cons, List.find?_append, hnone]
  simp [Route.single, hself]

end Gateways

/-! ### The routes over the links -/

/-- Routes, and behind them the default routes over the links and, while the tunnel is up, the route
to the server. -/
def linked (routes : List Route) (gw1 gw2 : Addr) (up : Bool) : List Route :=
  routes ++ uplink gw1 dev1 table1 :: uplink gw2 dev2 table2 ::
    if up then [vpsRoute gw1 gw2] else []

/-- No default route, and no route to the server with the metric of the script. -/
def Plain (routes : List Route) : Prop :=
  ∀ r ∈ routes, r.dst ≠ none ∧ r.key ≠ (some vps, 1)

section Linked

variable {routes : List Route} {gw1 gw2 : Addr}

/-- Deleting the route to the server unlinks it. -/
theorem ipRouteDelVps_linked (h : Plain routes) (up : Bool) :
    ipRouteDelVps (linked routes gw1 gw2 up) = linked routes gw1 gw2 false := by
  have hnot : ∀ r ∈ routes, ¬ decide (r.key = (some vps, 1)) = true := fun r hr hkey =>
    (h r hr).2 (of_decide_eq_true hkey)
  rw [ipRouteDelVps, linked, linked, List.eraseP_append_right _ hnot]
  cases up <;> rfl

/-- The gateways of the two uplinks are found. -/
theorem getNetworkInfo_linked (h : Plain routes) :
    getNetworkInfo (linked routes gw1 gw2 false) = some (.addr gw1, .addr gw2) := by
  have hplain : ∀ d, ∀ r ∈ routes, r.dst = none → ∀ hop ∈ r.hops, grepsDev d hop.dev = false :=
    fun d r hr hdst => absurd hdst (h r hr).1
  have hgw1 : gatewayOf (linked routes gw1 gw2 false) dev1 = some (.addr gw1) :=
    gatewayOf_default (hplain dev1) (by decide)
  have hgw2 : gatewayOf (linked routes gw1 gw2 false) dev2 = some (.addr gw2) := by
    have hsplit : linked routes gw1 gw2 false =
        (routes ++ [uplink gw1 dev1 table1]) ++ uplink gw2 dev2 table2 :: [] := by
      simp [linked]
    rw [hsplit]
    apply gatewayOf_default _ (by decide)
    intro r hr hdst hop hhop
    rcases List.mem_append.1 hr with hr | hr
    · exact hplain dev2 r hr hdst hop hhop
    · obtain rfl := List.mem_singleton.1 hr
      obtain rfl := List.mem_singleton.1 hhop
      exact (by decide : grepsDev dev2 dev1 = false)
  rw [getNetworkInfo, hgw1, hgw2]

/-- The routes over the links come behind all that is no default route. -/
theorem relinked_eq (h : ∀ r ∈ routes, r.key ≠ (some vps, 1)) :
    relinked (.addr gw1) (.addr gw2) routes =
      linked (ipRouteFlushDefault routes) gw1 gw2 true := by
  have hflush : ∀ r ∈ ipRouteFlushDefault routes, r.dst ≠ none := fun r hr =>
    of_decide_eq_true (List.mem_filter.1 hr).2
  have h1 : addUplink (ipRouteFlushDefault routes) (.addr gw1) dev1 table1 =
      ipRouteFlushDefault routes ++ [uplink gw1 dev1 table1] := by
    apply if_neg
    intro hany
    obtain ⟨r, hr, hkey⟩ := List.any_eq_true.1 hany
    exact hflush r hr (Prod.mk.inj (of_decide_eq_true hkey)).1
  have h2 : addUplink (ipRouteFlushDefault routes ++ [uplink gw1 dev1 table1]) (.addr gw2) dev2
      table2 =
      ipRouteFlushDefault routes ++ [uplink gw1 dev1 table1] ++ [uplink gw2 dev2 table2] := by
    apply if_neg
    intro hany
    obtain ⟨r, hr, hkey⟩ := List.any_eq_true.1 hany
    rcases List.mem_append.1 hr with hr | hr
    · exact hflush r hr (Prod.mk.inj (of_decide_eq_true hkey)).1
    · obtain rfl := List.mem_singleton.1 hr
      exact absurd (Prod.mk.inj (of_decide_eq_true hkey)).2 (show table1 ≠ table2 by decide)
  rw [relinked, h1, h2, balance, ipRouteReplace, Shares.replaceFirst_concat]
  · simp [linked]
  · intro r hr
    apply decide_eq_false
    rw [List.append_assoc, List.mem_append] at hr
    rcases hr with hr | hr
    · exact h r (List.mem_filter.1 hr).1
    · simp only [List.cons_append, List.nil_append, List.mem_cons, List.not_mem_nil,
        or_false] at hr
      rcases hr with rfl | rfl <;>
        exact fun hkey => Option.some_ne_none vps (Prod.mk.inj hkey).1.symm

/-- Flushing the default routes takes both uplinks out. -/
theorem flush_linked (h : Plain routes) :
    ipRouteFlushDefault (linked routes gw1 gw2 false) = routes := by
  have hself : routes.filter (fun r => r.dst ≠ none) = routes :=
    List.filter_eq_self.2 fun r hr => decide_eq_true (h r hr).1
  rw [ipRouteFlushDefault, linked, List.filter_append, hself]
  exact List.append_nil routes

theorem linked_not_vps (h : Plain routes) :
    ∀ r ∈ linked routes gw1 gw2 false, r.key ≠ (some vps, 1) := by
  intro r hr
  rcases List.mem_append.1 hr with hr | hr
  · exact (h r hr).2
  · simp only [Bool.false_eq_true, if_false, List.mem_cons, List.not_mem_nil, or_false] at hr
    rcases hr with rfl | rfl <;>
      exact fun hkey => Option.some_ne_none vps (Prod.mk.inj hkey).1.symm

end Linked

/-! ### Runs without changes by others -/

/-- Other programs change nothing. -/
def Event.quiet : Event → Bool
  | .change _ _ _ => false
  | _ => true

/-- The script is to put the tunnel up. -/
def Event.starts : Event → Bool
  | .start _ | .restart _ => true
  | _ => false

/-- Whether the tunnel is up after an event that has been completed. -/
def Event.upAfter (up : Bool) : Event → Bool
  | .start _ | .restart _ => true
  | .stop => false
  | .crash | .change _ _ _ => up

section Sticks

variable {routes : List Route} {gw1 gw2 : Addr} {q q' : Tunnel}

/-- A start among its own routes finds the gateways it had. -/
theorem start_linked (devUp : Bool) (h : Plain routes)
    (hq : q.routes = linked routes gw1 gw2 q.phase.isUp) :
    q.start devUp =
      ({ q with phase := .up true devUp, routes := linked routes gw1 gw2 true }, true) := by
  have hstop : q.stop.routes = linked routes gw1 gw2 false := by
    rw [Tunnel.stop, hq, ipRouteDelVps_linked h]
  rw [Tunnel.start, hstop, getNetworkInfo_linked h]
  dsimp only
  rw [relinked_eq (linked_not_vps h), flush_linked h]

/-- A quiet step keeps the uplinks, and succeeds. -/
theorem tunnelStep_linked {e : Event} (h : Plain routes)
    (hq : q.routes = linked routes gw1 gw2 q.phase.isUp) (hquiet : e.quiet = true) :
    (tunnelStep q e).2 = true ∧ (tunnelStep q e).1.phase.isUp = e.upAfter q.phase.isUp ∧
      (tunnelStep q e).1.routes = linked routes gw1 gw2 (e.upAfter q.phase.isUp) := by
  have hstop : q.stop.routes = linked routes gw1 gw2 false := by
    rw [Tunnel.stop, hq, ipRouteDelVps_linked h]
  cases e with
  | start devUp =>
      rw [tunnelStep, start_linked devUp h hq]
      exact ⟨rfl, rfl, rfl⟩
  | stop => exact ⟨rfl, rfl, hstop⟩
  | restart devUp =>
      rw [tunnelStep, start_linked devUp h hstop]
      exact ⟨rfl, rfl, rfl⟩
  | crash =>
      refine ⟨rfl, ?_, hq⟩
      change q.phase.crashed.isUp = q.phase.isUp
      cases q.phase <;> rfl
  | change rules main nat => cases hquiet

/-- A quiet run keeps the uplinks, and every call succeeds. -/
theorem run_linked {t : List (Event × Bool)} (hplain : Plain routes)
    (hrun : Run tunnelMachine q t q') (hquiet : ∀ e ∈ t, e.1.quiet = true)
    (hq : q.routes = linked routes gw1 gw2 q.phase.isUp) :
    (∀ e ∈ t, e.2 = true) ∧
      q'.routes = linked routes gw1 gw2 ((t.map Prod.fst).foldl Event.upAfter q.phase.isUp) := by
  induction hrun with
  | nil q => exact ⟨nofun, hq⟩
  | @cons q q1 _ e t hstep _ ih =>
      obtain ⟨hout, hup, hroutes⟩ :=
        tunnelStep_linked hplain hq (hquiet e List.mem_cons_self)
      rw [hstep] at hout hup hroutes
      rw [← hup] at hroutes
      obtain ⟨houts, hend⟩ := ih (fun e' he' => hquiet e' (List.mem_cons_of_mem e he')) hroutes
      rw [hup] at hend
      exact ⟨List.forall_mem_cons.2 ⟨hout, houts⟩, hend⟩

end Sticks

/-- Of the main table what a start keeps: no default route, no route through the tunnel, and not the
route to the server. -/
def kept (routes : List Route) : List Route :=
  routes.filter fun r => r.dst ≠ none ∧ r.key ≠ (some vps, 1) ∧ r.viaTunnel = false

theorem kept_plain (routes : List Route) : Plain (kept routes) := by
  intro r hr
  obtain ⟨hdst, hkey, -⟩ := of_decide_eq_true (List.mem_filter.1 hr).2
  exact ⟨hdst, hkey⟩

/-- There is one route for a destination and a metric. -/
theorem ipRouteDelVps_eq {l : List Route} (hkeys : (l.map Route.key).Nodup) :
    ipRouteDelVps l = l.filter fun r => r.key ≠ (some vps, 1) := by
  have hone : l.Pairwise fun a b =>
      decide (a.key = (some vps, 1)) = true → decide (b.key = (some vps, 1)) = false := by
    apply (List.pairwise_map.1 hkeys).imp
    intro a b hne ha
    rw [of_decide_eq_true ha] at hne
    exact decide_eq_false hne.symm
  rw [ipRouteDelVps, Shares.eraseP_eq_filter hone]
  simp only [decide_not]

theorem flush_stop_eq {q : Tunnel} {s : Sys} (h : Shows s q)
    (hkeys : (s.main.map Route.key).Nodup) :
    ipRouteFlushDefault q.stop.routes = kept s.main ∧
      ∀ r ∈ q.stop.routes, r.key ≠ (some vps, 1) := by
  have htheirs : q.stop.routes =
      (s.main.filter fun r => !r.viaTunnel).filter fun r => r.key ≠ (some vps, 1) := by
    rw [← ipRouteDelVps_eq, h.main.theirs_eq]
    · rfl
    · exact hkeys.sublist (List.filter_sublist.map Route.key)
  rw [htheirs]
  constructor
  · rw [ipRouteFlushDefault, List.filter_filter, List.filter_filter, kept]
    apply List.filter_congr
    intro r _
    cases r.viaTunnel <;> simp
  · intro r hr
    exact of_decide_eq_true (List.mem_filter.1 hr).2

/-- After a start that has found both gateways, and as long as other programs change nothing, every
start finds them again, in whatever order the script is run and the tunnel crashes. What a start
keeps of the main table stays as it was; the default routes over the links are those of the script,
also while the tunnel is down, and the route to the server is there while it is up. -/
theorem uplinks_stick {s s1 s3 : Sys} {t t' : List (Event × Bool)} {devUp : Bool} {gw1 gw2 : Addr}
    (hstart : Untouched s) (hrun : Run scriptMachine s t s1)
    (hkeys : (s1.main.map Route.key).Nodup)
    (hinfo : getNetworkInfo (stop s1).main = some (.addr gw1, .addr gw2))
    (hrest : Run scriptMachine (start devUp s1).1 t' s3) (hquiet : ∀ e ∈ t', e.1.quiet = true) :
    (∀ e ∈ t', e.2 = true) ∧
      s3.main.filter (fun r => !r.viaTunnel) =
        linked (kept s1.main) gw1 gw2 ((t'.map Prod.fst).foldl Event.upAfter true) := by
  obtain ⟨q1, -, h1⟩ := tunnel_refines hstart hrun
  obtain ⟨hkept, hvps⟩ := flush_stop_eq h1 hkeys
  have hmain : (stop s1).main = q1.stop.routes := (cleanAll_shows h1).main.eq_theirs
  have hfirst : (q1.start devUp).1 =
      { q1 with phase := .up true devUp, routes := linked (kept s1.main) gw1 gw2 true } := by
    rw [Tunnel.start, ← hmain, hinfo]
    dsimp only
    rw [hmain, relinked_eq hvps, hkept]
  have h2 := (start_shows devUp h1).1
  rw [hfirst] at h2
  obtain ⟨q3, hrun3, h3⟩ := shows_run h2 hrest
  obtain ⟨houts, hroutes⟩ := run_linked (kept_plain s1.main) hrun3 hquiet rfl
  rw [h3.main.theirs_eq]
  exact ⟨houts, hroutes⟩

theorem uplinks_stick_stopped :
    ∃ s3, Run scriptMachine (start true (router (some 0x0a000001))).1
        [(.crash, true), (.start false, true), (.stop, true)] s3 ∧
      s3.main.filter (fun r => !r.viaTunnel) =
        linked (kept (router (some 0x0a000001)).main) 0x0a000001 0x0a010001 false := by
  have hrest : Run scriptMachine (start true (router (some 0x0a000001))).1
      [(.crash, true), (.start false, true), (.stop, true)] _ :=
    .cons ⟨trivial, rfl⟩ (.cons ⟨trivial, rfl⟩ (.cons ⟨trivial, rfl⟩ (.nil _)))
  exact ⟨_, hrest, (uplinks_stick (router_untouched _) (.nil _) (by decide) (by decide) hrest
    (by decide)).2⟩

/-! ### Links without gateways -/

section Strands

variable {routes : List Route} {gw gw1 gw2 : Word} {d : String} {q q' : Tunnel}

/-- A link has no gateway in fewer routes when it has none in all. -/
theorem gatewayOf_subset {l : List Route} (hsub : l ⊆ routes) (h : gatewayOf routes d = none) :
    gatewayOf l d = none := by
  obtain ⟨hdefault, hother⟩ := gatewayOf_eq_none.1 h
  exact gatewayOf_eq_none.2
    ⟨fun r hr => hdefault r (hsub hr), fun r hr => hother r (hsub hr)⟩

/-- Without the gateway of one uplink, no network is found. -/
theorem getNetworkInfo_eq_none (hd : d = dev1 ∨ d = dev2) (h : gatewayOf routes d = none) :
    getNetworkInfo routes = none := by
  rw [getNetworkInfo]
  rcases hd with rfl | rfl
  · rw [h]
  · rw [h]
    cases gatewayOf routes dev1 <;> rfl

/-- The word for the gateway of a link is the name of the link. -/
def Nameless (gw1 gw2 : Word) (d : String) : Prop :=
  ∃ w, d = dev1 ∧ gw1 = .name w ∨ d = dev2 ∧ gw2 = .name w

/-- It is when the first default route over the link has no gateway. -/
theorem nameless_of_default {l rest : List Route} {static : Bool} {metric : Nat}
    (hd : d = dev1 ∨ d = dev2)
    (hl : ∀ r ∈ l, r.dst = none → ∀ h ∈ r.hops, grepsDev d h.dev = false)
    (hinfo : getNetworkInfo (l ++ Route.single none none d static metric :: rest) =
      some (gw1, gw2)) : Nameless gw1 gw2 d := by
  have hself : grepsDev d d = true := by
    rcases hd with rfl | rfl <;> decide
  have hword : gatewayOf (l ++ Route.single none none d static metric :: rest) d =
      some (.name d) := gatewayOf_default hl hself
  revert hinfo hword
  generalize l ++ Route.single none none d static metric :: rest = routes
  intro hinfo hword
  rw [getNetworkInfo] at hinfo
  rcases hd with rfl | rfl
  · rw [hword] at hinfo
    cases hgw2 : gatewayOf routes dev2 with
    | none =>
        rw [hgw2] at hinfo
        cases hinfo
    | some gw =>
        rw [hgw2] at hinfo
        cases hinfo
        exact ⟨dev1, .inl ⟨rfl, rfl⟩⟩
  · rw [hword] at hinfo
    cases hgw1 : gatewayOf routes dev1 with
    | none =>
        rw [hgw1] at hinfo
        cases hinfo
    | some gw =>
        rw [hgw1] at hinfo
        cases hinfo
        exact ⟨dev2, .inr ⟨rfl, rfl⟩⟩

/-- A route after an uplink was added is that uplink, or was there. -/
theorem mem_addUplink {r : Route} {metric : Nat} (hr : r ∈ addUplink routes gw d metric) :
    r ∈ routes ∨ ∃ a, gw = .addr a ∧ r = uplink a d metric := by
  cases gw with
  | name w => exact .inl hr
  | addr a =>
      rw [addUplink, ipRouteAdd] at hr
      split at hr
      · exact .inl hr
      · rcases List.mem_append.1 hr with hr | hr
        · exact .inl hr
        · exact .inr ⟨a, rfl, List.mem_singleton.1 hr⟩

/-- A link without an address for its gateway gets no default route. -/
theorem relinked_nameless (hname : Nameless gw1 gw2 d) (hvia : ∀ r ∈ routes, r.viaOn d = none) :
    gatewayOf (relinked gw1 gw2 routes) d = none := by
  suffices hmem : ∀ r ∈ relinked gw1 gw2 routes, r ∈ ipRouteFlushDefault routes ∨
      ∃ a d' metric, grepsDev d d' = false ∧ r = uplink a d' metric by
    apply gatewayOf_eq_none.2
    constructor
    · intro r hr hdst hop hhop
      rcases hmem r hr with hr | ⟨a, d', metric, hd', rfl⟩
      · exact absurd hdst (of_decide_eq_true (List.mem_filter.1 hr).2)
      · obtain rfl := List.mem_singleton.1 hhop
        exact hd'
    · intro r hr
      rcases hmem r hr with hr | ⟨a, d', metric, -, rfl⟩
      · exact hvia r (List.mem_filter.1 hr).1
      · rfl
  intro r hr
  rw [relinked] at hr
  obtain ⟨w, ⟨rfl, rfl⟩ | ⟨rfl, rfl⟩⟩ := hname
  · rcases mem_addUplink hr with hr | ⟨a, -, rfl⟩
    · exact .inl hr
    · exact .inr ⟨a, dev2, table2, by decide, rfl⟩
  · have hbalance : r ∈ addUplink (ipRouteFlushDefault routes) gw1 dev1 table1 := by
      cases gw1 <;> exact hr
    rcases mem_addUplink hbalance with hr | ⟨a, -, rfl⟩
    · exact .inl hr
    · exact .inr ⟨a, dev1, table1, by decide, rfl⟩

/-- No route through the tunnel goes over a link. -/
theorem scriptRoutes_dev (device : Bool) :
    ∀ r ∈ scriptRoutes device, ∀ hop ∈ r.hops, hop.dev = dev := by
  cases device <;> decide

/-- Without a gateway for a link every start fails and leaves the tunnel down. -/
theorem tunnelStep_nameless {e : Event} (hd : d = dev1 ∨ d = dev2)
    (h : gatewayOf q.routes d = none) (hquiet : e.quiet = true) :
    (tunnelStep q e).2 = !e.starts ∧ gatewayOf (tunnelStep q e).1.routes d = none ∧
      (e.starts = true ∨ q.phase = .down → (tunnelStep q e).1.phase = .down) := by
  have hstop : gatewayOf q.stop.routes d = none := gatewayOf_subset List.eraseP_subset h
  have hstop' : gatewayOf q.stop.stop.routes d = none := gatewayOf_subset List.eraseP_subset hstop
  cases e with
  | start devUp =>
      rw [tunnelStep, Tunnel.start, getNetworkInfo_eq_none hd hstop]
      exact ⟨rfl, hstop, fun _ => rfl⟩
  | stop => exact ⟨rfl, hstop, fun _ => rfl⟩
  | restart devUp =>
      rw [tunnelStep, Tunnel.start, getNetworkInfo_eq_none hd hstop']
      exact ⟨rfl, hstop', fun _ => rfl⟩
  | crash =>
      refine ⟨rfl, h, ?_⟩
      rintro (hstarts | hdown)
      · cases hstarts
      · exact congrArg Phase.crashed hdown
  | change rules main nat => cases hquiet

/-- Without the gateway of one uplink every start fails, and the gateway stays unknown. -/
theorem run_nameless {t : List (Event × Bool)} (hd : d = dev1 ∨ d = dev2)
    (hrun : Run tunnelMachine q t q') (hquiet : ∀ e ∈ t, e.1.quiet = true)
    (h : gatewayOf q.routes d = none) :
    (∀ e ∈ t, e.2 = !e.1.starts) ∧ gatewayOf q'.routes d = none ∧
      ((∃ e ∈ t, e.1.starts = true) ∨ q.phase = .down → q'.phase = .down) := by
  induction hrun with
  | nil q =>
      refine ⟨nofun, h, ?_⟩
      rintro (⟨e, he, -⟩ | hdown)
      · cases he
      · exact hdown
  | @cons q q1 _ e t hstep _ ih =>
      obtain ⟨hout, hnone, hphase⟩ := tunnelStep_nameless hd h (hquiet e List.mem_cons_self)
      rw [hstep] at hout hnone hphase
      obtain ⟨houts, hend, hdown⟩ :=
        ih (fun e' he' => hquiet e' (List.mem_cons_of_mem e he')) hnone
      refine ⟨List.forall_mem_cons.2 ⟨hout, houts⟩, hend, ?_⟩
      rintro (⟨e', he', hstarts⟩ | hq)
      · rcases List.mem_cons.1 he' with rfl | he'
        · exact hdown (.inr (hphase (.inl hstarts)))
        · exact hdown (.inl ⟨e', he', hstarts⟩)
      · exact hdown (.inr (hphase (.inr hq)))

end Strands

/-- After a start that has found the name of a link in the place of its gateway, when no other route
over the link has one, and as long as other programs change nothing: every further start fails and
leaves no tunnel, and there is no default route over the link. -/
theorem start_strands {s s1 s3 : Sys} {t t' : List (Event × Bool)} {devUp : Bool}
    {gw1 gw2 : Word} {d : String} (hstart : Untouched s) (hrun : Run scriptMachine s t s1)
    (hinfo : getNetworkInfo (stop s1).main = some (gw1, gw2)) (hname : Nameless gw1 gw2 d)
    (hvia : ∀ r ∈ (stop s1).main, r.viaOn d = none)
    (hrest : Run scriptMachine (start devUp s1).1 t' s3) (hquiet : ∀ e ∈ t', e.1.quiet = true) :
    (∀ e ∈ t', e.2 = !e.1.starts) ∧
      (∀ r ∈ s3.main, r.dst = none → ∀ hop ∈ r.hops, grepsDev d hop.dev = false) ∧
      ((∃ e ∈ t', e.1.starts = true) → s3.procs = 0 ∧ s3.hasDev = false) := by
  have hd : d = dev1 ∨ d = dev2 := by
    obtain ⟨w, ⟨rfl, -⟩ | ⟨rfl, -⟩⟩ := hname
    · exact .inl rfl
    · exact .inr rfl
  obtain ⟨q1, -, h1⟩ := tunnel_refines hstart hrun
  have hmain : (stop s1).main = q1.stop.routes := (cleanAll_shows h1).main.eq_theirs
  have hfirst : (q1.start devUp).1.routes = relinked gw1 gw2 (stop s1).main := by
    rw [Tunnel.start, ← hmain, hinfo]
  have hnone : gatewayOf (q1.start devUp).1.routes d = none := by
    rw [hfirst]
    exact relinked_nameless hname hvia
  obtain ⟨q3, hrun3, h3⟩ := shows_run (start_shows devUp h1).1 hrest
  obtain ⟨houts, hend, hdown⟩ := run_nameless hd hrun3 hquiet hnone
  refine ⟨houts, ?_, ?_⟩
  · intro r hr hdst hop hhop
    cases hmine : r.viaTunnel with
    | false =>
        have htheirs := h3.main.mem_theirs.2 ⟨hr, hmine⟩
        exact (gatewayOf_eq_none.1 hend).1 r htheirs hdst hop hhop
    | true =>
        rw [scriptRoutes_dev _ r (h3.main.mem_ours.2 ⟨hr, hmine⟩) hop hhop]
        rcases hd with rfl | rfl <;> decide
  · intro hstarts
    have hphase := hdown (.inl hstarts)
    exact ⟨by rw [h3.procs, hphase]; rfl, by rw [h3.hasDev, hphase]; rfl⟩

theorem start_strands_restart :
    ∃ s3, Run scriptMachine (start true (router none)).1
        [(.crash, true), (.restart true, false)] s3 ∧ s3.procs = 0 ∧ s3.hasDev = false := by
  have hrest : Run scriptMachine (start true (router none)).1
      [(.crash, true), (.restart true, false)] _ :=
    .cons ⟨trivial, rfl⟩ (.cons ⟨trivial, rfl⟩ (.nil _))
  have hinfo : getNetworkInfo (stop (router none)).main = some (.name dev1, .addr 0x0a010001) := by
    decide
  have hname : Nameless (.name dev1) (.addr 0x0a010001) dev1 :=
    nameless_of_default (l := []) (.inl rfl) nofun hinfo
  exact ⟨_, hrest, (start_strands (router_untouched none) (.nil _) hinfo hname (by decide)
    hrest (by decide)).2.2 (by decide)⟩

end ConfigEnv.Glorytun
