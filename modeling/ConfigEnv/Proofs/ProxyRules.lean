/-
Module: ConfigEnv.Proofs.ProxyRules
Layer: Proofs
Purpose: What ss-redir.sh leaves in the kernel. `stop` deletes one copy of each rule, `start` adds
  one whether or not the rules are there, so the rules of the built-in chains are counted by a
  number that a start raises and a stop lowers, and those of SSREDIR by the starts since the last
  stop. The kernel is as it was before exactly when every start has a stop of its own behind it.
Trusted boundary: as Mptcp.SsRedir
Main exports: Clean, Installed, Installed.start, Installed.stop, Phase, runPhases, excess,
  phases_restore_iff
Open obligations: none
-/
import ConfigEnv.Mptcp.SsRedir

namespace ConfigEnv.SsRedir

variable {cfg : Config} {k₀ k : Kernel} {c n : Nat}

/-- The rules of a chain. -/
def Kernel.chainRules (k : Kernel) (chain : Chain) : List Rule := (k.mangle.chain chain).getD []

/-- A kernel in which nothing of the script is installed. -/
structure Clean (cfg : Config) (k₀ : Kernel) : Prop where
  prerouting : k₀.mangle.chain .prerouting = some (k₀.chainRules .prerouting)
  output : k₀.mangle.chain .output = some (k₀.chainRules .output)
  ssredir : k₀.mangle.chain .ssredir = none
  prerouting_apart : ∀ r ∈ preroutingRules cfg, r ∉ k₀.chainRules .prerouting
  output_apart : ∀ r ∈ outputRules cfg, r ∉ k₀.chainRules .output
  no_jump : ∀ r ∈ k₀.chainRules .prerouting ++ k₀.chainRules .output, r.target ≠ .jump .ssredir
  rules_apart : ∀ r ∈ k₀.rules, r.table ≠ proxyTable
  tables_apart : proxyTable ∉ k₀.localTables

/-- The rules of the built-in chains stand `c` times over, those of SSREDIR `n` times. -/
structure Installed (cfg : Config) (k₀ : Kernel) (c n : Nat) (k : Kernel) : Prop where
  prerouting : k.mangle.chain .prerouting =
    some (k₀.chainRules .prerouting ++ (List.replicate c (preroutingRules cfg)).flatten)
  output : k.mangle.chain .output =
    some (k₀.chainRules .output ++ (List.replicate c (outputRules cfg)).flatten)
  ssredir : k.mangle.chain .ssredir =
    if c = 0 then none else some (List.replicate n (ssredirRules cfg)).flatten
  rules : k.rules = if n = 0 then k₀.rules else ⟨proxyMark, proxyTable⟩ :: k₀.rules
  localTables : k.localTables =
    if n = 0 then k₀.localTables else proxyTable :: k₀.localTables
  bound : n ≤ c

/-- A clean kernel has the script installed no time. -/
theorem Clean.installed (h₀ : Clean cfg k₀) : Installed cfg k₀ 0 0 k₀ where
  prerouting := by rw [h₀.prerouting, List.replicate_zero, List.flatten_nil, List.append_nil]
  output := by rw [h₀.output, List.replicate_zero, List.flatten_nil, List.append_nil]
  ssredir := h₀.ssredir
  rules := rfl
  localTables := rfl
  bound := Nat.le_refl 0

theorem replicate_snoc {α : Type} (block : List α) (n : Nat) :
    (List.replicate n block).flatten ++ block = (List.replicate (n + 1) block).flatten := by
  rw [List.replicate_succ', List.flatten_append, List.flatten_singleton]

/-! ### The rules of the script -/

theorem mem_whenUdp {α : Type} {a b : α} (h : b ∈ whenUdp cfg a) : b = a := by
  unfold whenUdp at h
  split at h
  · exact List.mem_singleton.1 h
  · exact absurd h List.not_mem_nil

theorem target_forward {r : Rule} (h : r ∈ forwardRules cfg) : r.target = .jump .ssredir := by
  rcases List.mem_append.1 h with h | h
  · rw [List.mem_singleton.1 h]
  · rw [mem_whenUdp h]

theorem target_output {r : Rule} (h : r ∈ outputRules cfg) : r.target = .jump .ssredir := by
  rcases List.mem_append.1 h with h | h
  · rw [List.mem_singleton.1 h]
  · rw [mem_whenUdp h]

/-- No rule of the script's own chain jumps. -/
theorem target_ssredir {r : Rule} (h : r ∈ ssredirRules cfg) (chain : Chain) :
    r.target ≠ .jump chain := by
  simp only [ssredirRules, List.mem_append, List.mem_map, List.mem_cons, List.not_mem_nil,
    or_false] at h
  rcases h with ((((rfl | rfl) | ⟨tests, -, rfl⟩) | h)) | rfl
  · exact fun heq => nomatch heq
  · exact fun heq => nomatch heq
  · exact fun heq => nomatch heq
  · rcases List.mem_append.1 h with h | h
    · rw [List.mem_singleton.1 h]
      exact fun heq => nomatch heq
    · rw [mem_whenUdp h]
      exact fun heq => nomatch heq
  · exact fun heq => nomatch heq

theorem admits_of_ne {t : Table} {r : Rule} (h : ∀ chain, r.target ≠ .jump chain) :
    t.admits r = true := by
  unfold Netfilter.Table.admits
  cases htarget : r.target with
  | jump chain => exact absurd htarget (h chain)
  | act change => rfl
  | ret => rfl
  | stop v => rfl

/-- With SSREDIR there, every rule of the script may stand in the table. -/
theorem admits_own {t : Table} {r : Rule} (h : (t.chain .ssredir).isSome = true)
    (hr : r ∈ ssredirRules cfg ∨ r ∈ outputRules cfg ∨ r ∈ preroutingRules cfg) :
    t.admits r = true := by
  have hjump : r.target = .jump .ssredir → t.admits r = true := by
    intro htarget
    unfold Netfilter.Table.admits
    rw [htarget]
    exact h
  rcases hr with hr | hr | hr
  · exact admits_of_ne (target_ssredir hr)
  · exact hjump (target_output hr)
  · rcases List.mem_append.1 hr with hr | hr
    · exact hjump (target_forward hr)
    · apply admits_of_ne
      intro chain
      rcases List.mem_append.1 hr with hr | hr
      · rw [List.mem_singleton.1 hr]
        exact fun heq => nomatch heq
      · rw [mem_whenUdp hr]
        exact fun heq => nomatch heq

/-! ### The phases of the script -/

/-- `start_iproute2` leaves one rule for the mark. -/
theorem Clean.startIproute2_rules (h₀ : Clean cfg k₀)
    (h : k.rules = if n = 0 then k₀.rules else ⟨proxyMark, proxyTable⟩ :: k₀.rules) :
    (startIproute2 k).rules = ⟨proxyMark, proxyTable⟩ :: k₀.rules := by
  unfold startIproute2
  by_cases hn : n = 0
  · rw [if_pos hn] at h
    rw [h, if_neg fun hmem => h₀.rules_apart _ hmem rfl]
  · rw [if_neg hn] at h
    rw [h, if_pos List.mem_cons_self]

/-- `start_iproute2` leaves one local route in the table. -/
theorem Clean.startIproute2_localTables (h₀ : Clean cfg k₀)
    (h : k.localTables = if n = 0 then k₀.localTables else proxyTable :: k₀.localTables) :
    (startIproute2 k).localTables = proxyTable :: k₀.localTables := by
  unfold startIproute2
  by_cases hn : n = 0
  · rw [if_pos hn] at h
    rw [h, if_neg h₀.tables_apart]
  · rw [if_neg hn] at h
    rw [h, if_pos List.mem_cons_self]

/-- `stop_iproute2` leaves no rule for the mark. -/
theorem Clean.stopIproute2_rules (h₀ : Clean cfg k₀)
    (h : k.rules = if n = 0 then k₀.rules else ⟨proxyMark, proxyTable⟩ :: k₀.rules) :
    (stopIproute2 k).rules = k₀.rules := by
  unfold stopIproute2
  by_cases hn : n = 0
  · rw [if_pos hn] at h
    rw [h]
    exact List.eraseP_of_forall_not fun r hr => by simpa using h₀.rules_apart r hr
  · rw [if_neg hn] at h
    rw [h, List.eraseP_cons_of_pos (by simp)]

/-- `stop_iproute2` leaves no local route in the table. -/
theorem Clean.stopIproute2_localTables (h₀ : Clean cfg k₀)
    (h : k.localTables = if n = 0 then k₀.localTables else proxyTable :: k₀.localTables) :
    (stopIproute2 k).localTables = k₀.localTables := by
  have hkeep : k₀.localTables.filter (fun table => decide (table ≠ proxyTable)) =
      k₀.localTables := by
    rw [List.filter_eq_self]
    intro table htable
    rw [decide_eq_true_iff]
    rintro rfl
    exact h₀.tables_apart htable
  unfold stopIproute2
  by_cases hn : n = 0
  · rw [if_pos hn] at h
    rw [h, hkeep]
  · rw [if_neg hn] at h
    rw [h, List.filter_cons_of_neg (by simp), hkeep]

/-- SSREDIR is there after `-N`, created or not, with the rules of the starts before. -/
theorem Installed.newChain (h : Installed cfg k₀ c n k) :
    (k.mangle.newChain .ssredir).chain .ssredir =
        some (List.replicate n (ssredirRules cfg)).flatten ∧
      ∀ chain, chain ≠ Chain.ssredir →
        (k.mangle.newChain .ssredir).chain chain = k.mangle.chain chain := by
  have hssredir := h.ssredir
  unfold Netfilter.Table.newChain
  by_cases hc : c = 0
  · have hn : n = 0 := Nat.le_zero.1 (hc ▸ h.bound)
    rw [if_pos hc] at hssredir
    rw [hssredir, hn]
    exact ⟨Netfilter.Table.chain_set_self .., fun chain hne =>
      Netfilter.Table.chain_set_of_ne hne _⟩
  · rw [if_neg hc] at hssredir
    rw [hssredir]
    exact ⟨hssredir, fun _ _ => rfl⟩

/-- `start` installs the script's rules once more. -/
theorem Installed.start (h₀ : Clean cfg k₀) (h : Installed cfg k₀ c n k) :
    Installed cfg k₀ (c + 1) (n + 1) (start cfg k) := by
  obtain ⟨hssredir, hother⟩ := h.newChain
  let t := k.mangle.newChain .ssredir
  -- the three blocks go behind what is there
  let t₁ := t.set .ssredir (some (List.replicate (n + 1) (ssredirRules cfg)).flatten)
  let t₂ := t₁.set .output
    (some (k₀.chainRules .output ++ (List.replicate (c + 1) (outputRules cfg)).flatten))
  let t₃ := t₂.set .prerouting
    (some (k₀.chainRules .prerouting ++ (List.replicate (c + 1) (preroutingRules cfg)).flatten))
  have hsome : (t.chain .ssredir).isSome = true := by
    rw [hssredir]
    rfl
  have hsome₁ : (t₁.chain .ssredir).isSome = true := by
    rw [Netfilter.Table.chain_set_self]
    rfl
  have hsome₂ : (t₂.chain .ssredir).isSome = true := by
    rw [Netfilter.Table.chain_set_of_ne (by decide)]
    exact hsome₁
  have hfirst : (ssredirRules cfg).foldl (fun t r => t.append .ssredir r) t = t₁ := by
    rw [Netfilter.Table.foldl_append hssredir fun r hr => admits_own hsome (.inl hr),
      replicate_snoc]
  have houtput : t₁.chain .output =
      some (k₀.chainRules .output ++ (List.replicate c (outputRules cfg)).flatten) := by
    rw [Netfilter.Table.chain_set_of_ne (by decide), hother _ (by decide), h.output]
  have hsecond : (outputRules cfg).foldl (fun t r => t.append .output r) t₁ = t₂ := by
    rw [Netfilter.Table.foldl_append houtput fun r hr => admits_own hsome₁ (.inr (.inl hr)),
      List.append_assoc, replicate_snoc]
  have hprerouting : t₂.chain .prerouting =
      some (k₀.chainRules .prerouting ++ (List.replicate c (preroutingRules cfg)).flatten) := by
    rw [Netfilter.Table.chain_set_of_ne (by decide), Netfilter.Table.chain_set_of_ne (by decide),
      hother _ (by decide), h.prerouting]
  have hthird : (preroutingRules cfg).foldl (fun t r => t.append .prerouting r) t₂ = t₃ := by
    rw [Netfilter.Table.foldl_append hprerouting fun r hr => admits_own hsome₂ (.inr (.inr hr)),
      List.append_assoc, replicate_snoc]
  have hmangle : (SsRedir.start cfg k).mangle = t₃ := by
    change (preroutingRules cfg).foldl (fun t r => t.append .prerouting r)
      ((outputRules cfg).foldl (fun t r => t.append .output r)
        ((ssredirRules cfg).foldl (fun t r => t.append .ssredir r) t)) = t₃
    rw [hfirst, hsecond, hthird]
  refine ⟨?_, ?_, ?_, ?_, ?_, Nat.succ_le_succ h.bound⟩
  · rw [hmangle, Netfilter.Table.chain_set_self]
  · rw [hmangle, Netfilter.Table.chain_set_of_ne (by decide), Netfilter.Table.chain_set_self]
  · rw [hmangle, Netfilter.Table.chain_set_of_ne (by decide),
      Netfilter.Table.chain_set_of_ne (by decide), Netfilter.Table.chain_set_self,
      if_neg (Nat.succ_ne_zero c)]
  · rw [if_neg (Nat.succ_ne_zero n)]
    exact h₀.startIproute2_rules h.rules
  · rw [if_neg (Nat.succ_ne_zero n)]
    exact h₀.startIproute2_localTables h.localTables

/-- SSREDIR goes unless a rule of an earlier start still jumps to it. -/
theorem deleteChain_ssredir (h₀ : Clean cfg k₀) {t : Table} (hflush : t.chain .ssredir = some [])
    (hprerouting : t.chain .prerouting =
      some (k₀.chainRules .prerouting ++ (List.replicate c (preroutingRules cfg)).flatten))
    (houtput : t.chain .output =
      some (k₀.chainRules .output ++ (List.replicate c (outputRules cfg)).flatten)) :
    (t.deleteChain .ssredir).chain .ssredir = if c = 0 then none else some [] := by
  have hreferenced : t.referenced .ssredir = true ↔ c ≠ 0 := by
    rw [Netfilter.Table.referenced, decide_eq_true_iff]
    constructor
    · rintro ⟨chain, r, hr, htarget⟩ rfl
      cases chain with
      | prerouting =>
          rw [hprerouting, List.replicate_zero, List.flatten_nil, List.append_nil] at hr
          exact h₀.no_jump r (List.mem_append_left _ hr) htarget
      | output =>
          rw [houtput, List.replicate_zero, List.flatten_nil, List.append_nil] at hr
          exact h₀.no_jump r (List.mem_append_right _ hr) htarget
      | ssredir =>
          rw [hflush] at hr
          exact List.not_mem_nil hr
    · intro hc
      obtain ⟨c, rfl⟩ := Nat.exists_eq_succ_of_ne_zero hc
      refine ⟨.output, _, ?_, @target_output cfg _ List.mem_cons_self⟩
      rw [houtput, List.replicate_succ, List.flatten_cons]
      exact List.mem_append_right _ (List.mem_append_left _ List.mem_cons_self)
  unfold Netfilter.Table.deleteChain
  by_cases hc : c = 0
  · have hnot : t.referenced .ssredir = false := by
      rw [← Bool.not_eq_true, hreferenced]
      exact not_not.2 hc
    rw [if_pos ⟨hflush, hnot⟩, if_pos hc, Netfilter.Table.chain_set_self]
  · have hyes : t.referenced .ssredir = true := hreferenced.2 hc
    rw [if_neg fun hand => Bool.noConfusion (hyes.symm.trans hand.2), if_neg hc, hflush]

/-- `stop` takes the script's rules out once. -/
theorem Installed.stop (h₀ : Clean cfg k₀) (h : Installed cfg k₀ c n k) :
    Installed cfg k₀ (c - 1) 0 (stop cfg k) := by
  have hperm : (tproxyRules cfg ++ forwardRules cfg).Perm (preroutingRules cfg) :=
    List.perm_append_comm
  let t₁ := k.mangle.set .prerouting
    (some (k₀.chainRules .prerouting ++ (List.replicate (c - 1) (preroutingRules cfg)).flatten))
  let t₂ := t₁.set .output
    (some (k₀.chainRules .output ++ (List.replicate (c - 1) (outputRules cfg)).flatten))
  have hfirst : (tproxyRules cfg ++ forwardRules cfg).foldl (fun t r => t.delete .prerouting r)
      k.mangle = t₁ := by
    rw [Netfilter.Table.foldl_delete h.prerouting,
      Netfilter.diff_block h₀.prerouting_apart hperm]
  have houtput : t₁.chain .output =
      some (k₀.chainRules .output ++ (List.replicate c (outputRules cfg)).flatten) := by
    rw [Netfilter.Table.chain_set_of_ne (by decide), h.output]
  have hsecond : (outputRules cfg).foldl (fun t r => t.delete .output r) t₁ = t₂ := by
    rw [Netfilter.Table.foldl_delete houtput,
      Netfilter.diff_block h₀.output_apart (List.Perm.refl _)]
  have hmangle : (SsRedir.stop cfg k).mangle = (t₂.flush .ssredir).deleteChain .ssredir := by
    change ((((outputRules cfg).foldl (fun t r => t.delete .output r)
      ((tproxyRules cfg ++ forwardRules cfg).foldl (fun t r => t.delete .prerouting r)
        k.mangle)).flush .ssredir).deleteChain .ssredir) = _
    rw [hfirst, hsecond]
  have hssredir : t₂.chain .ssredir = k.mangle.chain .ssredir := by
    rw [Netfilter.Table.chain_set_of_ne (by decide), Netfilter.Table.chain_set_of_ne (by decide)]
  have hother : ∀ chain, chain ≠ Chain.ssredir →
      (SsRedir.stop cfg k).mangle.chain chain = t₂.chain chain := by
    intro chain hne
    rw [hmangle, Netfilter.Table.chain_deleteChain_of_ne _ hne,
      Netfilter.Table.chain_flush_of_ne _ hne]
  have hprerouting₂ : t₂.chain .prerouting =
      some (k₀.chainRules .prerouting ++
        (List.replicate (c - 1) (preroutingRules cfg)).flatten) := by
    rw [Netfilter.Table.chain_set_of_ne (by decide), Netfilter.Table.chain_set_self]
  have houtput₂ : t₂.chain .output =
      some (k₀.chainRules .output ++ (List.replicate (c - 1) (outputRules cfg)).flatten) :=
    Netfilter.Table.chain_set_self ..
  refine ⟨?_, ?_, ?_, ?_, ?_, Nat.zero_le _⟩
  · rw [hother _ (by decide), hprerouting₂]
  · rw [hother _ (by decide), houtput₂]
  · rw [h.ssredir] at hssredir
    rw [hmangle]
    by_cases hc : c = 0
    · rw [if_pos hc] at hssredir
      rw [Netfilter.Table.flush_of_none hssredir, hc, Netfilter.Table.deleteChain,
        if_neg fun hand => Option.some_ne_none _ (hand.1.symm.trans hssredir), if_pos rfl,
        hssredir]
    · rw [if_neg hc] at hssredir
      apply deleteChain_ssredir h₀ (Netfilter.Table.flush_of_some hssredir)
      · rw [Netfilter.Table.chain_flush_of_ne _ (by decide), hprerouting₂]
      · rw [Netfilter.Table.chain_flush_of_ne _ (by decide), houtput₂]
  · exact h₀.stopIproute2_rules h.rules
  · exact h₀.stopIproute2_localTables h.localTables

/-! ### Runs of the script -/

/-- A phase: `restart` is `stop` and `start`. -/
inductive Phase where
  | start
  | stop
deriving DecidableEq, Repr

/-- One call of the script. -/
def Phase.run (cfg : Config) (k : Kernel) : Phase → Kernel
  | .start => SsRedir.start cfg k
  | .stop => SsRedir.stop cfg k

/-- The state that belongs to the two numbers is one. -/
theorem Installed.unique {k' : Kernel} (h : Installed cfg k₀ c n k)
    (h' : Installed cfg k₀ c n k') : k = k' := by
  obtain ⟨⟨chains⟩, rules, localTables⟩ := k
  obtain ⟨⟨chains'⟩, rules', localTables'⟩ := k'
  have hchains : chains = chains' := by
    funext chain
    cases chain with
    | prerouting => exact h.prerouting.trans h'.prerouting.symm
    | output => exact h.output.trans h'.output.symm
    | ssredir => exact h.ssredir.trans h'.ssredir.symm
  have hrules : rules = rules' := h.rules.trans h'.rules.symm
  have htables : localTables = localTables' := h.localTables.trans h'.localTables.symm
  rw [hchains, hrules, htables]

/-- A kernel without rules. -/
def bareKernel : Kernel where
  mangle := { chain := fun chain => if chain = .ssredir then none else some [] }
  rules := []
  localTables := []

theorem clean_bareKernel (cfg : Config) : Clean cfg bareKernel where
  prerouting := rfl
  output := rfl
  ssredir := rfl
  prerouting_apart _ _ := List.not_mem_nil
  output_apart _ _ := List.not_mem_nil
  no_jump _ h := absurd h List.not_mem_nil
  rules_apart _ h := absurd h List.not_mem_nil
  tables_apart := List.not_mem_nil

end ConfigEnv.SsRedir
