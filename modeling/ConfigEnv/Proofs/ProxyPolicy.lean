/-
Module: ConfigEnv.Proofs.ProxyPolicy
Layer: Proofs
Purpose: The rules of ss-redir.sh are the transparent proxy. One pass through SSREDIR gives a packet
  and its connection the same mark, and a second pass changes nothing, so it does not matter how
  often the script was started; without rules in SSREDIR no packet gets a mark. The connections that
  the proxy has taken are those with its mark.
Trusted boundary: as Mptcp.SsRedir
Main exports: nextMark, packet_eq, Represents, gatewayStep_refines, proxy_traces
Open obligations: none
-/
import ConfigEnv.Proofs.ProxyRules
import ConfigEnv.Spec.TransparentProxy

namespace ConfigEnv.SsRedir

open Netfilter (Flow runRules)

variable {cfg : Config} {isLocal : Addr → Bool} {k₀ k : Kernel} {c n : Nat}

/-- The mark that SSREDIR leaves. -/
def nextMark (cfg : Config) (p : Packet) (m : Mark) : Mark :=
  if p.opens && !cfg.excepts p then proxyMark else m

/-- The packet and its connection with another mark. -/
def Traffic.remark (t : Traffic) (m : Mark) : Traffic := { t with mark := m, connmark := m }

/-- A second pass over the chain changes no mark. -/
theorem nextMark_nextMark (p : Packet) (m : Mark) :
    nextMark cfg p (nextMark cfg p m) = nextMark cfg p m := by
  unfold nextMark
  split <;> rfl

/-- A packet with the proxy's mark keeps it. -/
theorem nextMark_proxyMark (p : Packet) : nextMark cfg p proxyMark = proxyMark := by
  unfold nextMark
  split <;> rfl

/-- A packet comes out with the proxy's mark when it had it, or opens a connection without
exception. -/
theorem nextMark_eq_iff (p : Packet) (m : Mark) :
    decide (nextMark cfg p m = proxyMark) =
      (decide (m = proxyMark) || (p.opens && !cfg.excepts p)) := by
  unfold nextMark
  cases p.opens && !cfg.excepts p <;> simp

/-! ### SSREDIR -/

section Ssredir

variable {call : Chain → Traffic → Option (Flow Verdict Traffic)} {t : Traffic}

theorem inNet_host (net addr : Addr) : inNet net 32 addr = decide (addr = net) := by
  unfold inNet
  rw [Nat.sub_self, BitVec.ushiftRight_zero]
  exact decide_eq_decide.2 BitVec.xor_eq_zero_iff

theorem any_whenUdp {α : Type} (a : α) (f : α → Bool) :
    (whenUdp cfg a).any f = (decide (cfg.mode = .tcpAndUdp) && f a) := by
  unfold whenUdp
  by_cases hmode : cfg.mode = .tcpAndUdp
  · rw [if_pos hmode, decide_eq_true hmode, List.any_cons, List.any_nil, Bool.or_false,
      Bool.true_and]
  · rw [if_neg hmode, decide_eq_false hmode]
    rfl

/-- Some rule of exception matches exactly when the policy excepts the packet. -/
theorem any_exceptions (hcarries : cfg.carries t.packet.proto = true) :
    (exceptions cfg).any (fun tests => tests.all ((meaning isLocal).holds · t)) =
      cfg.excepts t.packet := by
  unfold exceptions Config.excepts
  rw [List.any_append, List.any_append, any_whenUdp, List.any_map]
  have hreserved : reserved.any
      ((fun tests : List Test => tests.all ((meaning isLocal).holds · t)) ∘ fun net =>
        [.dst net.1 net.2]) = reserved.any fun net => inNet net.1 net.2 t.packet.dst := by
    congr 1
    funext net
    exact Bool.and_true _
  rw [hreserved]
  congr 1
  simp only [List.any_cons, List.any_nil, List.all_cons, List.all_nil, meaning, Test.holds,
    inNet_host, Bool.or_false, Bool.and_true]
  cases hproto : t.packet.proto with
  | tcp => simp
  | udp =>
      rw [hproto] at hcarries
      have hmode : decide (cfg.mode = .tcpAndUdp) = true := hcarries
      simp [hmode]
  | other =>
      rw [hproto] at hcarries
      cases hcarries

theorem covers_proto (isLocal : Addr → Bool) (t : Traffic) (q : Proto) (tests : List Test)
    (target : Netfilter.Target Chain Change Verdict) :
    ({ tests := .proto q :: tests, target := target } : Rule).covers (meaning isLocal) t =
      (decide (t.packet.proto = q) && tests.all ((meaning isLocal).holds · t)) := rfl

/-- A rule for TCP that stands for UDP as well in one mode is one rule for the protocols of the
mode, when its target does not change the packet. -/
theorem runRules_protoRules (tests : Proto → List Test)
    (target : Netfilter.Target Chain Change Verdict)
    (hkeep : cfg.carries t.packet.proto = true → ∀ t', runRules (meaning isLocal) call
      [{ tests := [], target := target }] t = some (.next t') → t'.packet = t.packet) :
    runRules (meaning isLocal) call
        ([{ tests := .proto .tcp :: tests .tcp, target := target }] ++
          whenUdp cfg { tests := .proto .udp :: tests .udp, target := target }) t =
      if cfg.carries t.packet.proto &&
          (tests t.packet.proto).all ((meaning isLocal).holds · t) then
        runRules (meaning isLocal) call [{ tests := [], target := target }] t
      else some (.next t) := by
  have hudpRules : ∀ u : Traffic, u.packet.proto ≠ .udp → runRules (meaning isLocal) call
      (whenUdp cfg { tests := .proto .udp :: tests .udp, target := target }) u =
        some (.next u) := by
    intro u hu
    apply Netfilter.runRules_skip
    intro r hr
    rw [mem_whenUdp hr, covers_proto, decide_eq_false hu, Bool.false_and]
  cases hproto : t.packet.proto with
  | tcp =>
      have hne : t.packet.proto ≠ .udp := fun h => Proto.noConfusion (hproto.symm.trans h)
      have htcp : cfg.carries .tcp = true := rfl
      rw [htcp, Bool.true_and]
      have hcovers := covers_proto isLocal t .tcp (tests .tcp) target
      rw [decide_eq_true hproto, Bool.true_and] at hcovers
      cases hall : (tests .tcp).all ((meaning isLocal).holds · t) with
      | false =>
          rw [hall] at hcovers
          rw [List.singleton_append, Netfilter.runRules_cons_skip hcovers, hudpRules t hne]
          rfl
      | true =>
          rw [hall] at hcovers
          rw [if_pos rfl, Netfilter.runRules_append, Netfilter.runRules_singleton hcovers]
          cases hflow : runRules (meaning isLocal) call [{ tests := [], target := target }] t with
          | none => rfl
          | some flow =>
              cases flow with
              | next t' =>
                  apply hudpRules
                  rwa [hkeep (by rw [hproto]; rfl) t' hflow]
              | returned t' => rfl
              | stopped v t' => rfl
  | udp =>
      have hskip := covers_proto isLocal t .tcp (tests .tcp) target
      rw [hproto] at hskip
      rw [List.singleton_append, Netfilter.runRules_cons_skip hskip]
      by_cases hmode : cfg.mode = .tcpAndUdp
      · have hudp : cfg.carries .udp = true := decide_eq_true hmode
        have hcovers := covers_proto isLocal t .udp (tests .udp) target
        rw [decide_eq_true hproto, Bool.true_and] at hcovers
        rw [hudp, Bool.true_and, whenUdp, if_pos hmode]
        cases hall : (tests .udp).all ((meaning isLocal).holds · t) with
        | false =>
            rw [hall] at hcovers
            rw [Netfilter.runRules_cons_skip hcovers]
            rfl
        | true =>
            rw [hall] at hcovers
            rw [Netfilter.runRules_singleton hcovers]
            rfl
      · have hudp : cfg.carries .udp = false := decide_eq_false hmode
        rw [hudp, whenUdp, if_neg hmode]
        rfl
  | other =>
      have hskip := covers_proto isLocal t .tcp (tests .tcp) target
      rw [hproto] at hskip
      rw [List.singleton_append, Netfilter.runRules_cons_skip hskip,
        hudpRules t (by rw [hproto]; decide)]
      rfl

/-- The marking rules mark a packet that opens a connection. -/
theorem runRules_markRules (hcarries : cfg.carries t.packet.proto = true) :
    runRules (meaning isLocal) call (markRules cfg) t =
      some (.next (if t.packet.opens then { t with mark := proxyMark } else t)) := by
  refine (runRules_protoRules (fun q => if q = .tcp then [.syn] else [.ctNew])
    (.act (.setMark proxyMark)) fun _ t' h => ?_).trans ?_
  · obtain rfl := Flow.next.inj (Option.some.inj h)
    rfl
  · rw [hcarries, Bool.true_and]
    cases hproto : t.packet.proto with
    | tcp => cases hsyn : t.packet.syn <;>
        simp [meaning, Test.holds, Packet.opens, hproto, hsyn, runRules, Netfilter.Rule.covers,
          Change.act]
    | udp => cases hnew : t.packet.ctNew <;>
        simp [meaning, Test.holds, Packet.opens, hproto, hnew, runRules, Netfilter.Rule.covers,
          Change.act]
    | other =>
        rw [hproto] at hcarries
        cases hcarries

/-- One pass: the packet and its connection have the same mark. -/
theorem runRules_ssredirRules (isLocal : Addr → Bool)
    (call : Chain → Traffic → Option (Flow Verdict Traffic))
    (hcarries : cfg.carries t.packet.proto = true) :
    (runRules (meaning isLocal) call (ssredirRules cfg) t).map Flow.leave =
      some (.next (t.remark (nextMark cfg t.packet t.connmark))) := by
  let t₁ : Traffic := { t with mark := t.connmark }
  have hrules : ssredirRules cfg = { tests := [], target := .act .restoreMark } ::
      { tests := [.mark proxyMark], target := .ret } ::
        ((exceptions cfg).map (fun tests => { tests := tests, target := .ret }) ++
          markRules cfg ++ [{ tests := [], target := .act .saveMark }]) := rfl
  have hact : (meaning isLocal).act .restoreMark t = t₁ := rfl
  rw [hrules, Netfilter.runRules_cons_act rfl rfl, hact]
  by_cases hmark : t.connmark = proxyMark
  · -- the connection has been taken
    have hcovers : ({ tests := [.mark proxyMark], target := .ret } : Rule).covers
        (meaning isLocal) t₁ = true := by
      simp [Netfilter.Rule.covers, meaning, Test.holds, t₁, hmark]
    rw [Netfilter.runRules_cons_ret hcovers rfl, hmark, nextMark_proxyMark]
    simp [Flow.leave, t₁, Traffic.remark, hmark]
  · have hcovers : ({ tests := [.mark proxyMark], target := .ret } : Rule).covers
        (meaning isLocal) t₁ = false := by
      simp [Netfilter.Rule.covers, meaning, Test.holds, t₁, hmark]
    rw [Netfilter.runRules_cons_skip hcovers]
    have hreturns : runRules (meaning isLocal) call
        ((exceptions cfg).map fun tests => { tests := tests, target := .ret }) t₁ = _ :=
      Netfilter.runRules_returns _ _
    rw [any_exceptions (t := t₁) hcarries] at hreturns
    cases hexcepts : cfg.excepts t.packet with
    | true =>
        have hexcepts₁ : cfg.excepts t₁.packet = true := hexcepts
        rw [hexcepts₁, if_pos rfl] at hreturns
        rw [List.append_assoc, Netfilter.runRules_append_returned hreturns]
        simp [Flow.leave, t₁, Traffic.remark, nextMark, hexcepts]
    | false =>
        have hexcepts₁ : cfg.excepts t₁.packet = false := hexcepts
        rw [hexcepts₁, if_neg Bool.false_ne_true] at hreturns
        rw [List.append_assoc, Netfilter.runRules_append_next hreturns,
          Netfilter.runRules_append_next (runRules_markRules (t := t₁) hcarries),
          Netfilter.runRules_cons_act rfl rfl]
        cases hopens : t.packet.opens <;>
          simp [runRules, Flow.leave, meaning, Change.act, t₁, Traffic.remark, nextMark, hexcepts,
            hopens]

/-! ### The built-in chains -/

/-- Jumps to SSREDIR, as OUTPUT and PREROUTING have them; `pass` is what a visit there does. -/
theorem runRules_jumps {pass : Traffic → Traffic} (hook : Hook)
    (hcall : cfg.carries t.packet.proto = true → call .ssredir t = some (.next (pass t)))
    (hpass : (pass t).packet = t.packet) :
    runRules (meaning isLocal) call
        ([{ tests := [.proto .tcp, .srcLocal (hook = .generated), .dstLocal false],
            target := .jump .ssredir }] ++
          whenUdp cfg { tests := [.proto .udp, .srcLocal (hook = .generated), .dstLocal false],
                        target := .jump .ssredir }) t =
      some (.next (if cfg.offers isLocal hook t.packet then pass t else t)) := by
  have hoffers : (cfg.carries t.packet.proto &&
      [Test.srcLocal (hook = .generated), Test.dstLocal false].all
        ((meaning isLocal).holds · t)) = cfg.offers isLocal hook t.packet := by
    simp only [Config.offers, meaning, Test.holds, List.all_cons, List.all_nil, Bool.and_true,
      ← Bool.and_assoc]
    cases isLocal t.packet.dst <;> rfl
  have hjump : cfg.carries t.packet.proto = true →
      runRules (meaning isLocal) call [{ tests := [], target := .jump .ssredir }] t =
        some (.next (pass t)) :=
    fun hcarries => Netfilter.runRules_cons_jump rfl rfl (hcall hcarries)
  refine (runRules_protoRules (fun _ => [.srcLocal (hook = .generated), .dstLocal false])
    (.jump .ssredir) fun hcarries t' h => ?_).trans ?_
  · rw [hjump hcarries] at h
    rw [← Flow.next.inj (Option.some.inj h), hpass]
  · rw [hoffers]
    cases hoffer : cfg.offers isLocal hook t.packet with
    | false => rfl
    | true =>
        rw [if_pos rfl, if_pos rfl]
        apply hjump
        rw [← hoffers, Bool.and_eq_true] at hoffer
        exact hoffer.1

/-- The last rules hand a marked packet to the proxy. -/
theorem runRules_tproxyRules :
    runRules (meaning isLocal) call (tproxyRules cfg) t =
      some (if cfg.carries t.packet.proto && decide (t.mark = proxyMark) then
        .stopped (.tproxy (ipv4 127 0 0 1) 60080) t else .next t) := by
  refine (runRules_protoRules (fun _ => [.mark proxyMark])
    (.stop (.tproxy (ipv4 127 0 0 1) 60080)) fun _ t' h => ?_).trans ?_
  · exact nomatch Option.some.inj h
  · simp only [meaning, Test.holds, List.all_cons, List.all_nil, Bool.and_true]
    split <;> rfl

/-- The rules of PREROUTING. -/
theorem runRules_preroutingRules {pass : Traffic → Traffic}
    (hcall : cfg.carries t.packet.proto = true → call .ssredir t = some (.next (pass t)))
    (hpass : (pass t).packet = t.packet) {u : Traffic}
    (hu : u = if cfg.offers isLocal .forwarded t.packet then pass t else t) :
    runRules (meaning isLocal) call (preroutingRules cfg) t =
      some (if cfg.carries t.packet.proto && decide (u.mark = proxyMark) then
        .stopped (.tproxy (ipv4 127 0 0 1) 60080) u else .next u) := by
  have hpacket : u.packet = t.packet := by
    rw [hu]
    split
    · exact hpass
    · rfl
  have hforward : runRules (meaning isLocal) call (forwardRules cfg) t = some (.next u) :=
    hu ▸ runRules_jumps .forwarded hcall hpass
  rw [preroutingRules, Netfilter.runRules_append_next hforward, runRules_tproxyRules, hpacket]

end Ssredir

/-! ### The chains of the kernel -/

/-- A visit to SSREDIR after `n` starts. -/
def visit (cfg : Config) (n : Nat) (t : Traffic) : Traffic :=
  if n = 0 then t else t.remark (nextMark cfg t.packet t.connmark)

theorem visit_packet (cfg : Config) (n : Nat) (t : Traffic) :
    (visit cfg n t).packet = t.packet := by
  unfold visit
  split <;> rfl

/-- A second visit of the chain changes nothing. -/
theorem visit_visit (cfg : Config) (n : Nat) (t : Traffic) :
    visit cfg n (visit cfg n t) = visit cfg n t := by
  unfold visit
  split
  · rfl
  · change (t.remark _).remark (nextMark cfg t.packet (nextMark cfg t.packet t.connmark)) = _
    rw [nextMark_nextMark]
    rfl

section Chains

variable {t : Traffic}

/-- A kernel whose built-in chains had no rules. -/
structure Bare (cfg : Config) (k₀ : Kernel) : Prop extends Clean cfg k₀ where
  no_prerouting : k₀.chainRules .prerouting = []
  no_output : k₀.chainRules .output = []
  not_local : ∀ r ∈ k₀.rules, r.table ∉ k₀.localTables

/-- The chain of the script visits a packet. -/
theorem runChain_ssredir (h : Installed cfg k₀ c n k)
    (hcarries : cfg.carries t.packet.proto = true) :
    Netfilter.runChain (meaning isLocal) (fun chain => k.chainRules chain) 1 .ssredir t =
      some (.next (visit cfg n t)) := by
  have hrules : k.chainRules .ssredir = (List.replicate n (ssredirRules cfg)).flatten := by
    unfold Kernel.chainRules
    rw [h.ssredir]
    by_cases hc : c = 0
    · have hn : n = 0 := Nat.le_zero.1 (hc ▸ h.bound)
      rw [if_pos hc, hn]
      rfl
    · rw [if_neg hc]
      rfl
  rw [Netfilter.runChain, hrules]
  let call := Netfilter.runChain (meaning isLocal) (fun chain => k.chainRules chain) 0
  change (runRules (meaning isLocal) call _ t).map Flow.leave = _
  cases n with
  | zero => rfl
  | succ n =>
      have hsecond : ∀ t', runRules (meaning isLocal) call (ssredirRules cfg) t = some (.next t') →
          (runRules (meaning isLocal) call (ssredirRules cfg) t').map Flow.leave =
            some (.next t') := by
        intro t' ht'
        have hfirst := runRules_ssredirRules isLocal call hcarries
        rw [ht'] at hfirst
        obtain rfl := Flow.next.inj (Option.some.inj hfirst)
        rw [runRules_ssredirRules isLocal call (t := t.remark _) hcarries]
        exact congrArg (fun u => some (Flow.next u)) (visit_visit cfg 1 t)
      rw [Netfilter.runRules_replicate hsecond, runRules_ssredirRules isLocal call hcarries]
      rfl

/-- What PREROUTING does with a packet that has no mark or runs into rules of a start. -/
theorem runChain_prerouting (h₀ : Bare cfg k₀) (h : Installed cfg k₀ c n k)
    (hmark : n = 0 → t.mark ≠ proxyMark) {u : Traffic}
    (hu : u = if cfg.offers isLocal .forwarded t.packet then visit cfg n t else t) :
    k.runChain isLocal .prerouting t =
      some (if cfg.carries t.packet.proto && decide (u.mark = proxyMark) then
        .stopped (.tproxy (ipv4 127 0 0 1) 60080) u else .next u) := by
  have hrules : k.chainRules .prerouting = (List.replicate c (preroutingRules cfg)).flatten := by
    unfold Kernel.chainRules
    rw [h.prerouting, h₀.no_prerouting]
    rfl
  let call := Netfilter.runChain (meaning isLocal) (fun chain => k.chainRules chain) 1
  change (runRules (meaning isLocal) call (k.chainRules .prerouting) t).map Flow.leave = _
  rw [hrules]
  cases c with
  | zero =>
      have hn : n = 0 := Nat.le_zero.1 h.bound
      have hut : u = t := by
        rw [hu, hn]
        split <;> rfl
      have hnot : decide (u.mark = proxyMark) = false := by
        rw [hut]
        exact decide_eq_false (hmark hn)
      rw [hnot, Bool.and_false, if_neg Bool.false_ne_true, hut]
      rfl
  | succ c =>
      have hblock : runRules (meaning isLocal) call (preroutingRules cfg) t = some _ :=
        runRules_preroutingRules (runChain_ssredir h) (visit_packet cfg n t) hu
      have hpacket : u.packet = t.packet := by
        rw [hu]
        split
        · exact visit_packet cfg n t
        · rfl
      -- behind the rules there is nothing left for them to do
      have hsecond : ∀ t', runRules (meaning isLocal) call (preroutingRules cfg) t =
          some (.next t') →
          (runRules (meaning isLocal) call (preroutingRules cfg) t').map Flow.leave =
            some (.next t') := by
        intro t' ht'
        rw [hblock] at ht'
        cases hstop : cfg.carries t.packet.proto && decide (u.mark = proxyMark) with
        | true =>
            rw [hstop, if_pos rfl] at ht'
            exact nomatch Option.some.inj ht'
        | false =>
            rw [hstop, if_neg Bool.false_ne_true] at ht'
            obtain rfl := Flow.next.inj (Option.some.inj ht')
            have hagain : u = if cfg.offers isLocal .forwarded u.packet then visit cfg n u
                else u := by
              rw [hpacket]
              split at hu
              · rw [if_pos ‹_›, hu, visit_visit]
              · rw [if_neg ‹_›]
            rw [runRules_preroutingRules (runChain_ssredir h) (visit_packet cfg n u) hagain,
              hpacket, hstop]
            rfl
      rw [Netfilter.runRules_replicate hsecond, hblock]
      cases cfg.carries t.packet.proto && decide (u.mark = proxyMark) <;> rfl

/-- The output chain visits the packets that it offers. -/
theorem runChain_output (h₀ : Bare cfg k₀) (h : Installed cfg k₀ c n k) {u : Traffic}
    (hu : u = if cfg.offers isLocal .generated t.packet then visit cfg n t else t) :
    k.runChain isLocal .output t = some (.next u) := by
  have hrules : k.chainRules .output = (List.replicate c (outputRules cfg)).flatten := by
    unfold Kernel.chainRules
    rw [h.output, h₀.no_output]
    rfl
  let call := Netfilter.runChain (meaning isLocal) (fun chain => k.chainRules chain) 1
  have hblock : ∀ v w : Traffic,
      w = (if cfg.offers isLocal .generated v.packet then visit cfg n v else v) →
      runRules (meaning isLocal) call (outputRules cfg) v = some (.next w) :=
    fun v w hw => hw ▸ runRules_jumps .generated (runChain_ssredir h) (visit_packet cfg n v)
  change (runRules (meaning isLocal) call (k.chainRules .output) t).map Flow.leave = _
  rw [hrules]
  cases c with
  | zero =>
      have hn : n = 0 := Nat.le_zero.1 h.bound
      have hut : u = t := by
        rw [hu, hn]
        split <;> rfl
      rw [hut]
      rfl
  | succ c =>
      have hagain : u = if cfg.offers isLocal .generated u.packet then visit cfg n u else u := by
        split at hu
        · rw [hu, visit_packet, if_pos ‹_›, visit_visit]
        · rw [hu, if_neg ‹_›]
      rw [Netfilter.runRules_replicate, hblock t u hu]
      · rfl
      · intro t' ht'
        rw [hblock t u hu] at ht'
        obtain rfl := Flow.next.inj (Option.some.inj ht')
        rw [hblock u u hagain]
        rfl

/-- Only the mark of the proxy, and only while it is on, sends a packet to the machine itself. -/
theorem routedLocal_eq (h₀ : Bare cfg k₀) (h : Installed cfg k₀ c n k) (m : Mark) :
    k.routedLocal m = (decide (n ≠ 0) && decide (m = proxyMark)) := by
  have hothers : ∀ tables : List Nat, (∀ r ∈ k₀.rules, r.table ∉ tables) →
      (k₀.rules.any fun r => decide (r.fwmark = m) && decide (r.table ∈ tables)) = false := by
    intro tables htables
    rw [List.any_eq_false]
    intro r hr
    rw [decide_eq_false (htables r hr), Bool.and_false]
    exact Bool.false_ne_true
  unfold Kernel.routedLocal
  rw [h.rules, h.localTables]
  by_cases hn : n = 0
  · rw [if_pos hn, if_pos hn, hothers _ h₀.not_local, decide_eq_false (not_not.2 hn)]
    rfl
  · rw [if_neg hn, if_neg hn, List.any_cons, hothers, decide_eq_true hn, Bool.or_false,
      Bool.true_and, decide_eq_true List.mem_cons_self, Bool.and_true]
    · exact decide_eq_decide.2 eq_comm
    · intro r hr hmem
      rcases List.mem_cons.1 hmem with heq | hmem
      · exact h₀.rules_apart r hr heq
      · exact h₀.not_local r hr hmem

/-- What prerouting does to a packet: its mark for the connection, and whether the proxy takes it.
-/
theorem prerouting_eq (h₀ : Bare cfg k₀) (h : Installed cfg k₀ c n k)
    (hmark : n = 0 → t.mark ≠ proxyMark) {u : Traffic}
    (hu : u = if cfg.offers isLocal .forwarded t.packet then visit cfg n t else t) :
    k.prerouting isLocal t = some (u.connmark,
      decide (n ≠ 0) && (cfg.carries t.packet.proto && decide (u.mark = proxyMark))) := by
  rw [Kernel.prerouting, runChain_prerouting h₀ h hmark hu, Option.bind_eq_bind, Option.bind_some]
  cases hstop : cfg.carries t.packet.proto && decide (u.mark = proxyMark) with
  | false => rw [if_neg Bool.false_ne_true, Bool.and_false]
  | true =>
      rw [Bool.and_eq_true] at hstop
      rw [if_pos rfl]
      change some (u.connmark, k.routedLocal u.mark) = _
      rw [routedLocal_eq h₀ h, hstop.2]

/-- What happens to a packet, and the mark of its connection behind it. -/
theorem packet_eq (isLocal : Addr → Bool) (h₀ : Bare cfg k₀) (h : Installed cfg k₀ c n k)
    (hook : Hook) (p : Packet) (m : Mark) :
    k.packet isLocal hook p m =
      some (if decide (n ≠ 0) && cfg.offers isLocal hook p then
        (nextMark cfg p m, decide (nextMark cfg p m = proxyMark)) else (m, false)) := by
  let t : Traffic := { packet := p, mark := 0, connmark := m }
  have hzero : decide ((0 : Mark) = proxyMark) = false := rfl
  have hcarries : cfg.offers isLocal hook p = true → cfg.carries p.proto = true := by
    intro hoffers
    rw [Config.offers, Bool.and_assoc, Bool.and_eq_true] at hoffers
    exact hoffers.1
  -- the packet behind the chain that it enters by
  let u : Traffic := if cfg.offers isLocal hook p then visit cfg n t else t
  have hu : u = if decide (n ≠ 0) && cfg.offers isLocal hook p then t.remark (nextMark cfg p m)
      else t := by
    by_cases hn : n = 0
    · rw [decide_eq_false (not_not.2 hn), Bool.false_and, if_neg Bool.false_ne_true]
      change (if cfg.offers isLocal hook p then visit cfg n t else t) = t
      rw [visit, if_pos hn, ite_self]
    · rw [decide_eq_true hn, Bool.true_and]
      change (if cfg.offers isLocal hook p then visit cfg n t else t) = _
      rw [visit, if_neg hn]
  cases hook with
  | forwarded =>
      have hrun : k.packet isLocal .forwarded p m = k.prerouting isLocal t := rfl
      rw [hrun, prerouting_eq h₀ h (fun _ => of_decide_eq_false hzero) (u := u) rfl, hu]
      cases hgo : decide (n ≠ 0) && cfg.offers isLocal .forwarded p with
      | false =>
          rw [if_neg Bool.false_ne_true, if_neg Bool.false_ne_true, hzero, Bool.and_false,
            Bool.and_false]
      | true =>
          rw [Bool.and_eq_true] at hgo
          rw [if_pos rfl, if_pos rfl, hgo.1, hcarries hgo.2]
          rfl
  | generated =>
      have hrun : k.packet isLocal .generated p m =
          if k.routedLocal u.mark then k.prerouting isLocal u else some (u.connmark, false) := by
        rw [Kernel.packet, runChain_output h₀ h (t := t) (u := u) rfl]
        rfl
      rw [hrun, routedLocal_eq h₀ h, hu]
      cases hgo : decide (n ≠ 0) && cfg.offers isLocal .generated p with
      | false =>
          rw [if_neg Bool.false_ne_true, if_neg Bool.false_ne_true, hzero, Bool.and_false]
          rfl
      | true =>
          rw [Bool.and_eq_true] at hgo
          rw [if_pos rfl, if_pos rfl, hgo.1, Bool.true_and]
          change (if decide (nextMark cfg p m = proxyMark) = true then
            k.prerouting isLocal (t.remark (nextMark cfg p m)) else _) = _
          cases htaken : decide (nextMark cfg p m = proxyMark) with
          | false => rfl
          | true =>
              -- its source is this machine, so no jump of PREROUTING is taken
              have hlocal : cfg.offers isLocal .forwarded p = false := by
                have hsrc := hgo.2
                rw [Config.offers, Bool.and_eq_true, Bool.and_eq_true, decide_eq_true_iff] at hsrc
                rw [Config.offers, hsrc.1.2]
                simp
              rw [if_pos rfl, prerouting_eq h₀ h (fun hn => absurd hn (of_decide_eq_true hgo.1))
                (u := t.remark (nextMark cfg p m))]
              · rw [hgo.1]
                change some (nextMark cfg p m, true && (cfg.carries p.proto &&
                  decide (nextMark cfg p m = proxyMark))) = _
                rw [hcarries hgo.2, htaken]
                rfl
              · change _ = if cfg.offers isLocal .forwarded p = true then _ else _
                rw [hlocal]
                rfl

end Chains

/-! ### Runs -/

variable {ν : Type} [DecidableEq ν]

/-- The proxy that a router is: on behind a start, with the connections that bear its mark. -/
structure Represents (cfg : Config) (k₀ : Kernel) (g : Gateway ν) (q : Proxy ν) : Prop where
  installed : ∃ c n, Installed cfg k₀ c n g.kernel ∧ q.on = decide (n ≠ 0)
  taken : ∀ conn, q.taken conn = decide (g.connmark conn = proxyMark)

/-- Marking a connection and taking its packets stay in step. -/
theorem taken_update {connmark : ν → Mark} {taken : ν → Bool} {m : Mark} {b : Bool}
    (h : ∀ conn, taken conn = decide (connmark conn = proxyMark))
    (hb : b = decide (m = proxyMark)) (conn conn' : ν) :
    Function.update taken conn b conn' =
      decide (Function.update connmark conn m conn' = proxyMark) := by
  by_cases heq : conn' = conn
  · rw [heq, Function.update_self, Function.update_self, hb]
  · rw [Function.update_of_ne heq, Function.update_of_ne heq, h]

/-- Every event has a step, and the proxy takes it with the same outcome. -/
theorem gatewayStep_refines (h₀ : Bare cfg k₀) {g : Gateway ν} {q : Proxy ν}
    (h : Represents cfg k₀ g q) (e : Event ν) :
    ∃ g', gatewayStep cfg isLocal g e = some (g', (proxyStep cfg isLocal q e).2) ∧
      Represents cfg k₀ g' (proxyStep cfg isLocal q e).1 := by
  obtain ⟨⟨c, n, hk, hon⟩, htaken⟩ := h
  cases e with
  | start =>
      refine ⟨_, rfl, ⟨c + 1, n + 1, hk.start h₀.toClean, ?_⟩, htaken⟩
      exact (decide_eq_true (Nat.succ_ne_zero n)).symm
  | stop => exact ⟨_, rfl, ⟨c - 1, 0, hk.stop h₀.toClean, rfl⟩, htaken⟩
  | forget conn => exact ⟨_, rfl, ⟨c, n, hk, hon⟩, taken_update (m := 0) htaken rfl conn⟩
  | packet conn hook p =>
      have hpacket := packet_eq isLocal h₀ hk hook p (g.connmark conn)
      rw [← hon] at hpacket
      cases hgo : q.on && cfg.offers isLocal hook p with
      | false =>
          rw [hgo, if_neg Bool.false_ne_true] at hpacket
          refine ⟨g, ?_, ?_⟩
          · simp [gatewayStep, proxyStep, hpacket, hgo]
          · simp only [proxyStep, hgo]
            exact ⟨⟨c, n, hk, hon⟩, htaken⟩
      | true =>
          rw [hgo, if_pos rfl, nextMark_eq_iff, ← htaken] at hpacket
          refine ⟨_, by simp only [gatewayStep, hpacket, proxyStep, hgo]; rfl, ?_⟩
          simp only [proxyStep, hgo, if_true]
          refine ⟨⟨c, n, hk, hon⟩, taken_update htaken ?_ conn⟩
          rw [nextMark_eq_iff, ← htaken]

/-- However the script and the packets alternate, and however often it was started, what the router
does is what the proxy does: the events and outcomes that it can go through are the same. -/
theorem proxy_traces (h₀ : Bare cfg k₀) (connmark : ν → Mark) (t : List (Event ν × Option Bool)) :
    (∃ g, Machine.Run (gatewayMachine cfg isLocal ν) { kernel := k₀, connmark := connmark } t g) ↔
      ∃ q, Machine.Run (proxyMachine ν cfg isLocal)
        { on := false, taken := fun conn => decide (connmark conn = proxyMark) } t q := by
  have hstart : Represents cfg k₀ { kernel := k₀, connmark := connmark }
      { on := false, taken := fun conn => decide (connmark conn = proxyMark) } :=
    ⟨⟨0, 0, h₀.toClean.installed, rfl⟩, fun _ => rfl⟩
  constructor
  · rintro ⟨g, hrun⟩
    obtain ⟨q, hproxy, -⟩ := hrun.simulate (N := proxyMachine ν cfg isLocal) (Represents cfg k₀)
      hstart (by
        rintro pre ⟨e, out⟩ post g₁ g₂ q - - hg hstep
        obtain ⟨g', hstep', hg'⟩ := gatewayStep_refines h₀ hg e
        obtain ⟨rfl, hout⟩ := Prod.mk.inj (Option.some.inj (hstep.symm.trans hstep'))
        exact ⟨_, Prod.ext rfl hout.symm, hg'⟩)
    exact ⟨q, hproxy⟩
  · rintro ⟨q, hrun⟩
    obtain ⟨g, hgateway, -⟩ := hrun.simulate (N := gatewayMachine cfg isLocal ν)
      (fun q g => Represents cfg k₀ g q) hstart (by
        rintro pre ⟨e, out⟩ post q₁ q₂ g - - hg hstep
        obtain ⟨g', hstep', hg'⟩ := gatewayStep_refines h₀ hg e
        have hstep : proxyStep cfg isLocal q₁ e = (q₂, out) := hstep
        rw [hstep] at hstep' hg'
        exact ⟨g', hstep', hg'⟩)
    exact ⟨g, hgateway⟩

theorem bare_bareKernel (cfg : Config) : Bare cfg bareKernel where
  toClean := clean_bareKernel cfg
  no_prerouting := rfl
  no_output := rfl
  not_local _ h := absurd h List.not_mem_nil

/-- A connection that was opened while the proxy was on and goes on when it is off, and another that
was open before. -/
theorem proxy_traces_two_connections :
    let packet (syn : Bool) : Packet :=
      { proto := .tcp, src := ipv4 192 168 2 5, dst := ipv4 8 8 8 8, dport := 443, syn := syn,
        ctNew := syn }
    ∃ g, Machine.Run (gatewayMachine Config.script (fun a => a = ipv4 192 168 2 1) Nat)
        { kernel := bareKernel, connmark := fun _ => 0 }
        [(.start, none), (.packet 0 .forwarded (packet true), some true),
          (.packet 0 .forwarded (packet false), some true),
          (.packet 1 .forwarded (packet false), some false), (.stop, none),
          (.packet 0 .forwarded (packet false), some false)] g :=
  (proxy_traces (bare_bareKernel Config.script) (fun _ => 0) _).2
    ⟨_, .cons rfl (.cons rfl (.cons rfl (.cons rfl (.cons rfl (.cons rfl (.nil _))))))⟩

end ConfigEnv.SsRedir
