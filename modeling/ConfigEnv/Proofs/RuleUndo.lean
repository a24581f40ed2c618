/-
Module: ConfigEnv.Proofs.RuleUndo
Layer: Proofs
Purpose: What a rule of tc.sh that fails leaves behind. apply_up_rule takes its root away again, so
  a trace is left only when that fails. apply_down_rule never takes away the ingress discipline that
  it has added, and takes away all filters of the interface and not its own one.
Trusted boundary: none
Main exports: SameQdiscs, UpUndone, DownUndone, applyUpRule_undone_iff, applyDownRule_undone_iff,
  failed_rule_undone_iff
Open obligations: none
-/
import ConfigEnv.Proofs.TcCommands

namespace ConfigEnv.Mptcp

open ConfigEnv.Shell (Text)

/-! ### The property -/

/-- The disciplines and filters of a device. -/
def qdiscs (k : Kernel) (dev : Text) : Option (Option Qdisc × Option (List Filter)) :=
  (k dev).map fun d => (d.root, d.ingress)

/-- The disciplines and filters of an interface and of its ifb device are the same. -/
def SameQdiscs (k k' : Kernel) (iface : Text) : Prop :=
  qdiscs k' iface = qdiscs k iface ∧ qdiscs k' (ifbName iface) = qdiscs k (ifbName iface)

/-! ### The conditions -/

/-- The slot of the root is free and `tc` can add it. -/
def rootAdded (env : Env) (k : Kernel) (dev : Text) (spec : List Text) : Bool :=
  env.ok (.qdiscAddRoot dev 0x1 spec) && (k dev).any fun d => d.root.isNone

/-- There is an ingress discipline and `tc` can add the redirection. -/
def redirects (env : Env) (k : Kernel) (iface : Text) : Bool :=
  env.ok (.filterAdd iface (ifbName iface)) &&
    (k iface).any fun d => d.ingress.isSome || env.ok (.qdiscAddIngress iface)

/-- When the second command of an upstream rule fails, the first one is undone. -/
def UpUndone (env : Env) (s : Sys) (iface params : Text) : Prop :=
  match splitParams env s.sh params with
  | (sh, some p) =>
      p.needTbf = true → p.needNetem = true → rootAdded env s.kernel iface (tbfSpec p) = true →
        env.ok (.qdiscAddLeaf iface (0x1, 0x1) 0x10 (netemSpec env sh p)) = false →
          env.ok (.qdiscDelRoot iface) = true
  | _ => True

/-- The discipline that a downstream rule gives the ifb device as its root. -/
def ifbRoot (netem : List Text) (p : Params) : List Text :=
  if p.needNetem = true then netem else tbfSpec p

/-- The disciplines of the ifb device can be added. -/
def ifbAdded (env : Env) (netem : List Text) (p : Params) (iface : Text) (k : Kernel) : Bool :=
  rootAdded env k (ifbName iface) (ifbRoot netem p) &&
    (!(p.needNetem && p.needTbf) ||
      env.ok (.qdiscAddLeaf (ifbName iface) (0x1, 0x1) 0x10 (tbfSpec p)))

/-- When the redirection cannot be added, no ingress discipline was added for it. When the
disciplines of the ifb device cannot be added, the interface had an ingress discipline without
filters, and the commands that undo the rule work. -/
def DownCommandsUndone (env : Env) (netem : List Text) (p : Params) (iface : Text) (k : Kernel) :
    Prop :=
  env.ok (.linkShow (ifbName iface)) = true → (k (ifbName iface)).isSome = true →
    if redirects env k iface = true then
      ifbAdded env netem p iface k = false →
        (k iface).map Device.ingress = some (some []) ∧ env.ok (.filterDel iface) = true ∧
          (rootAdded env k (ifbName iface) (ifbRoot netem p) = true →
            env.ok (.qdiscDelRoot (ifbName iface)) = true)
    else (k iface).map Device.ingress = some none → env.ok (.qdiscAddIngress iface) = false

/-- When the failure of a rule for download is undone. -/
def DownUndone (env : Env) (s : Sys) (iface params : Text) : Prop :=
  s.sh.enableIngress = "true".toList →
    match splitParams env s.sh params with
    | (sh, some p) =>
        (p.needNetem = true ∨ p.needTbf = true) →
          DownCommandsUndone env (netemSpec env sh p) p iface s.kernel
    | _ => True

/-! ### Commands on a root -/

/-- A root that has just been added. -/
abbrev newRoot (spec : List Text) : Qdisc :=
  { handle := 0x1, spec := spec, leaves := [], filters := [] }

section Root

variable {env : Env} {k : Kernel} {dev : Text} {spec : List Text} {d : Device} {q : Qdisc}

/-- A root is added only where there is none. -/
theorem exec_addRoot (h : rootAdded env k dev spec = true) : ∃ d, k dev = some d ∧ d.root = none ∧
    exec env k (.qdiscAddRoot dev 0x1 spec) =
      (true, Function.update k dev (some { d with root := some (newRoot spec) })) := by
  rw [rootAdded, Bool.and_eq_true, Option.any_eq_true] at h
  obtain ⟨hok, d, hd, hroot⟩ := h
  rw [Option.isNone_iff_eq_none] at hroot
  refine ⟨d, hd, hroot, ?_⟩
  rw [exec_onDevice hd rfl, hok, Device.addRoot, hroot]
  rfl

/-- A root that is not added changes nothing. -/
theorem exec_addRoot_fails (h : rootAdded env k dev spec = false) :
    exec env k (.qdiscAddRoot dev 0x1 spec) = (false, k) := by
  cases hd : k dev with
  | none => exact exec_missing hd rfl
  | some d =>
      rw [rootAdded, hd, Option.any_some] at h
      rw [exec, meaning, onDevice, hd, Option.bind_some, Device.addRoot]
      cases hroot : d.root with
      | none =>
          rw [hroot, Option.isNone_none, Bool.and_true] at h
          rw [h]
          rfl
      | some q => exact ite_self _

/-- A leaf can hang on a new root. -/
theorem exec_addLeaf (env : Env) (k : Kernel) (dev : Text) (d : Device) (spec leaf : List Text) :
    ∃ q, exec env (Function.update k dev (some { d with root := some (newRoot spec) }))
        (.qdiscAddLeaf dev (0x1, 0x1) 0x10 leaf) =
      (env.ok (.qdiscAddLeaf dev (0x1, 0x1) 0x10 leaf),
        Function.update k dev (some { d with root := some q })) := by
  rw [exec_update rfl]
  cases env.ok (.qdiscAddLeaf dev (0x1, 0x1) 0x10 leaf) with
  | true => exact ⟨_, rfl⟩
  | false => exact ⟨_, rfl⟩

/-- Taking the root away again gives the device back. -/
theorem exec_delRoot (hd : k dev = some d) (hroot : d.root = none) :
    (exec env (Function.update k dev (some { d with root := some q })) (.qdiscDelRoot dev)).2 =
      if env.ok (.qdiscDelRoot dev) = true then k
      else Function.update k dev (some { d with root := some q }) := by
  rw [exec_update rfl]
  cases env.ok (.qdiscDelRoot dev) with
  | true =>
      have hsame : { d with root := none } = d := by rw [← hroot]
      change Function.update k dev (some { d with root := none }) = k
      rw [hsame, ← hd, Function.update_eq_self]
  | false => rfl

theorem SameQdiscs.refl (k : Kernel) (iface : Text) : SameQdiscs k k iface := ⟨rfl, rfl⟩

/-- A root where none was is a change. -/
theorem not_sameQdiscs_root {iface : Text} (hd : k dev = some d) (hroot : d.root = none)
    (hdev : dev = iface ∨ dev = ifbName iface) {k' : Kernel}
    (hk' : ∃ d', k' dev = some d' ∧ d'.root = some q) : ¬ SameQdiscs k k' iface := by
  obtain ⟨d', hd', hroot'⟩ := hk'
  rintro ⟨hiface, hifb⟩
  have hsame : qdiscs k' dev = qdiscs k dev := by
    rcases hdev with rfl | rfl
    · exact hiface
    · exact hifb
  rw [qdiscs, qdiscs, hd, hd', Option.map_some, Option.map_some, hroot, hroot'] at hsame
  cases congrArg Prod.fst (Option.some.inj hsame)

end Root

/-! ### The upstream rule -/

/-- When the commands for upload are undone. -/
theorem upCommands_undone_iff (env : Env) (netem : List Text) (p : Params) (iface : Text)
    (k : Kernel) :
    ((upCommands env netem p iface k).1 = false →
        SameQdiscs k (upCommands env netem p iface k).2 iface) ↔
      (p.needTbf = true → p.needNetem = true → rootAdded env k iface (tbfSpec p) = true →
        env.ok (.qdiscAddLeaf iface (0x1, 0x1) 0x10 netem) = false →
          env.ok (.qdiscDelRoot iface) = true) := by
  rw [upCommands]
  by_cases htbf : p.needTbf = true
  · rw [if_pos htbf]
    cases hadded : rootAdded env k iface (tbfSpec p) with
    | false =>
        rw [exec_addRoot_fails hadded]
        exact iff_of_true (fun _ => .refl k iface) nofun
    | true =>
        obtain ⟨d, hd, hroot, hexec⟩ := exec_addRoot hadded
        rw [hexec]
        by_cases hnetem : p.needNetem = true
        · obtain ⟨q, hleaf⟩ := exec_addLeaf env k iface d (tbfSpec p) netem
          simp only [if_pos hnetem, hleaf]
          cases hok : env.ok (.qdiscAddLeaf iface (0x1, 0x1) 0x10 netem) with
          | true => exact iff_of_true nofun nofun
          | false =>
              simp only [exec_delRoot hd hroot]
              cases hdel : env.ok (.qdiscDelRoot iface) with
              | true => exact iff_of_true (fun _ => .refl k iface) fun _ _ _ _ => rfl
              | false =>
                  refine iff_of_false (fun hsame => ?_) fun h => ?_
                  · exact not_sameQdiscs_root hd hroot (.inl rfl)
                      ⟨_, Function.update_self iface _ k, rfl⟩ (hsame trivial)
                  · cases h htbf hnetem trivial trivial
        · simp only [if_neg hnetem]
          exact iff_of_true nofun fun _ h => absurd h hnetem
  · rw [if_neg htbf]
    refine iff_of_true (fun hfails => ?_) fun h => absurd h htbf
    cases hadded : rootAdded env k iface netem with
    | false =>
        rw [exec_addRoot_fails hadded]
        exact .refl k iface
    | true =>
        obtain ⟨d, -, -, hexec⟩ := exec_addRoot hadded
        rw [hexec] at hfails
        cases hfails

/-! ### The downstream rule -/

section Down

variable {env : Env} {iface : Text} {k : Kernel} {d : Device}

/-- The kernel with another ingress discipline of an interface. -/
abbrev setIngress (k : Kernel) (iface : Text) (d : Device) (ingress : Option (List Filter)) :
    Kernel :=
  Function.update k iface (some { d with ingress := ingress })

theorem setIngress_self (k : Kernel) (iface : Text) (d : Device) (ingress : Option (List Filter)) :
    setIngress k iface d ingress iface = some { d with ingress := ingress } :=
  Function.update_self iface _ k

theorem setIngress_setIngress (k : Kernel) (iface : Text) (d : Device)
    (ingress ingress' : Option (List Filter)) :
    setIngress (setIngress k iface d ingress) iface { d with ingress := ingress } ingress' =
      setIngress k iface d ingress' :=
  Function.update_idem _ _ k

theorem setIngress_ifb (k : Kernel) (iface : Text) (d : Device) (ingress : Option (List Filter)) :
    setIngress k iface d ingress (ifbName iface) = k (ifbName iface) :=
  Function.update_of_ne (ifbName_ne iface) _ k

/-- A change of the ingress is one of the qdiscs. -/
theorem sameQdiscs_ingress (hd : k iface = some d) (ingress : Option (List Filter)) :
    SameQdiscs k (setIngress k iface d ingress) iface ↔ ingress = d.ingress := by
  rw [SameQdiscs, qdiscs, qdiscs, qdiscs, qdiscs, setIngress_self, setIngress_ifb, hd]
  simp

/-- The interface behind the two commands that redirect its traffic. -/
theorem exec_redirect (hd : k iface = some d) (hifb : (k (ifbName iface)).isSome = true) :
    exec env (exec env k (.qdiscAddIngress iface)).2 (.filterAdd iface (ifbName iface)) =
      if redirects env k iface = true then
        (true, setIngress k iface d (some (d.ingress.getD [] ++ [.redirect (ifbName iface)])))
      else
        (false, setIngress k iface d
          (if d.ingress = none ∧ env.ok (.qdiscAddIngress iface) = true then some []
            else d.ingress)) := by
  rw [exec_onDevice hd rfl, exec_update rfl, Function.update_of_ne (ifbName_ne iface), hifb,
    redirects, hd, Option.any_some]
  obtain ⟨up, root, ingress⟩ := d
  cases ingress with
  | none =>
      cases env.ok (.qdiscAddIngress iface) <;>
        cases env.ok (.filterAdd iface (ifbName iface)) <;> rfl
  | some filters =>
      cases env.ok (.qdiscAddIngress iface) <;>
        cases env.ok (.filterAdd iface (ifbName iface)) <;> rfl

/-- Deleting the filters leaves the ingress empty, where it succeeds. -/
theorem exec_filterDel {filters : List Filter} (hd : k iface = some d)
    (hfilters : d.ingress = some filters) :
    (exec env k (.filterDel iface)).2 =
      if env.ok (.filterDel iface) = true then setIngress k iface d (some []) else k := by
  rw [exec_onDevice hd rfl, hfilters]
  cases env.ok (.filterDel iface) with
  | true => rfl
  | false => exact hd ▸ Function.update_eq_self iface k

/-- Adding the disciplines of the ifb device: either all of them are there, or the root has been
taken away again as far as that works and then the filters of the interface. -/
theorem ifbCommands_cases (env : Env) (netem : List Text) (p : Params) (iface : Text) (k : Kernel) :
    (ifbAdded env netem p iface k = true ∧
      (ifbCommands env netem p iface (ifbName iface) k).1 = true) ∨
    (ifbAdded env netem p iface k = false ∧ ∃ k',
      ifbCommands env netem p iface (ifbName iface) k =
        (false, (exec env k' (.filterDel iface)).2) ∧
      if rootAdded env k (ifbName iface) (ifbRoot netem p) = true ∧
          env.ok (.qdiscDelRoot (ifbName iface)) = false then
        ∃ b q, k (ifbName iface) = some b ∧ b.root = none ∧
          k' = Function.update k (ifbName iface) (some { b with root := some q })
      else k' = k) := by
  rw [ifbAdded, ifbCommands]
  cases hadded : rootAdded env k (ifbName iface) (ifbRoot netem p) with
  | false =>
      refine .inr ⟨rfl, k, ?_, rfl⟩
      by_cases hnetem : p.needNetem = true
      · rw [ifbRoot, if_pos hnetem] at hadded
        rw [if_pos hnetem, exec_addRoot_fails hadded]
      · rw [ifbRoot, if_neg hnetem] at hadded
        rw [if_neg hnetem, exec_addRoot_fails hadded]
  | true =>
      obtain ⟨b, hb, hroot, hexec⟩ := exec_addRoot hadded
      by_cases hnetem : p.needNetem = true
      · rw [ifbRoot, if_pos hnetem] at hexec
        rw [if_pos hnetem, hexec]
        by_cases htbf : p.needTbf = true
        · obtain ⟨q, hleaf⟩ := exec_addLeaf env k (ifbName iface) b netem (tbfSpec p)
          simp only [hleaf, hnetem, htbf]
          cases hok : env.ok (.qdiscAddLeaf (ifbName iface) (0x1, 0x1) 0x10 (tbfSpec p)) with
          | true => exact .inl ⟨rfl, rfl⟩
          | false =>
              refine .inr ⟨rfl, _, rfl, ?_⟩
              rw [exec_delRoot hb hroot]
              cases env.ok (.qdiscDelRoot (ifbName iface)) with
              | true => rfl
              | false => exact ⟨b, q, hb, hroot, rfl⟩
        · simp only [if_neg htbf]
          rw [Bool.not_eq_true] at htbf
          rw [htbf, Bool.and_false]
          exact .inl ⟨rfl, trivial⟩
      · rw [ifbRoot, if_neg hnetem] at hexec
        rw [if_neg hnetem, hexec]
        rw [Bool.not_eq_true] at hnetem
        rw [hnetem, Bool.false_and]
        exact .inl ⟨rfl, rfl⟩

/-- The rule from the redirection on, when that has been added. -/
theorem redirected_undone_iff {netem : List Text} {p : Params} {filters : List Filter}
    (hd : k iface = some d)
    (hfilters : filters = d.ingress.getD [] ++ [.redirect (ifbName iface)]) :
    ((ifbCommands env netem p iface (ifbName iface)
          (setIngress k iface d (some filters))).1 = false →
        SameQdiscs k (ifbCommands env netem p iface (ifbName iface)
          (setIngress k iface d (some filters))).2 iface) ↔
      (ifbAdded env netem p iface k = false →
        d.ingress = some [] ∧ env.ok (.filterDel iface) = true ∧
          (rootAdded env k (ifbName iface) (ifbRoot netem p) = true →
            env.ok (.qdiscDelRoot (ifbName iface)) = true)) := by
  have hroot : ∀ spec, rootAdded env (setIngress k iface d (some filters)) (ifbName iface) spec =
      rootAdded env k (ifbName iface) spec := by
    intro spec
    rw [rootAdded, rootAdded, setIngress_ifb]
  have hall : ifbAdded env netem p iface (setIngress k iface d (some filters)) =
      ifbAdded env netem p iface k := by
    rw [ifbAdded, ifbAdded, hroot]
  rcases ifbCommands_cases env netem p iface (setIngress k iface d (some filters)) with
    ⟨hadded, hok⟩ | ⟨hadded, k', hfails, hk'⟩
  · rw [hall] at hadded
    rw [hok, hadded]
    exact iff_of_true nofun nofun
  · rw [hall] at hadded
    rw [hfails, hadded]
    rw [hroot, setIngress_ifb] at hk'
    have hnotEmpty : some filters ≠ d.ingress := by
      intro heq
      rw [← heq, Option.getD_some] at hfilters
      exact absurd (congrArg List.length hfilters) (by simp)
    split at hk'
    · next hleft =>
        -- the root of the ifb device is still there
        obtain ⟨b, q, hb, hbroot, rfl⟩ := hk'
        refine iff_of_false (fun hsame => ?_) fun h => ?_
        · refine not_sameQdiscs_root hb hbroot (.inr rfl) ⟨{ b with root := some q }, ?_, rfl⟩
            (hsame rfl)
          rw [exec_other (ifbName_ne iface)]
          exact Function.update_self (ifbName iface) _ _
        · rw [(h rfl).2.2 hleft.1] at hleft
          cases hleft.2
    · next hgone =>
        subst hk'
        have hcond : rootAdded env k (ifbName iface) (ifbRoot netem p) = true →
            env.ok (.qdiscDelRoot (ifbName iface)) = true := by
          intro hadd
          rw [← Bool.not_eq_false]
          exact fun hdel => hgone ⟨hadd, hdel⟩
        rw [exec_filterDel (setIngress_self k iface d (some filters)) rfl]
        cases hdel : env.ok (.filterDel iface) with
        | true =>
            rw [if_pos rfl, setIngress_setIngress, sameQdiscs_ingress hd]
            exact ⟨fun h _ => ⟨(h rfl).symm, rfl, hcond⟩, fun h _ => (h rfl).1.symm⟩
        | false =>
            refine iff_of_false (fun h => ?_) fun h => nomatch (h rfl).2.1
            exact hnotEmpty ((sameQdiscs_ingress hd (some filters)).1 (h rfl))

theorem exec_linkShow (env : Env) (k : Kernel) (dev : Text) :
    exec env k (.linkShow dev) = (env.ok (.linkShow dev) && (k dev).isSome, k) := by
  rw [exec, meaning]
  cases env.ok (.linkShow dev) <;> cases (k dev).isSome <;> rfl

/-- When the commands for download are undone. -/
theorem downCommands_undone_iff (env : Env) (netem : List Text) (p : Params) (iface : Text)
    (k : Kernel) :
    ((downCommands env netem p iface k).1 = false →
        SameQdiscs k (downCommands env netem p iface k).2 iface) ↔
      DownCommandsUndone env netem p iface k := by
  rw [downCommands, DownCommandsUndone]
  simp only [exec_linkShow]
  cases hok : env.ok (.linkShow (ifbName iface)) with
  | false => exact iff_of_true (fun _ => .refl k iface) nofun
  | true =>
      cases hifb : (k (ifbName iface)).isSome with
      | false => exact iff_of_true (fun _ => .refl k iface) fun _ => nofun
      | true =>
          simp only [Bool.and_self, forall_const]
          cases hd : k iface with
          | none =>
              have hredirects : redirects env k iface = false := by
                rw [redirects, hd, Option.any_none, Bool.and_false]
              rw [exec_missing hd rfl, exec_missing hd rfl, hredirects]
              exact iff_of_true (fun _ => .refl k iface) nofun
          | some d =>
              rw [exec_redirect hd hifb, Option.map_some]
              cases hredirects : redirects env k iface with
              | true =>
                  refine (redirected_undone_iff hd rfl).trans ?_
                  rw [if_pos rfl, Option.some_inj]
              | false =>
                  simp only [Bool.false_eq_true, if_false, forall_const]
                  rw [sameQdiscs_ingress hd]
                  cases d.ingress with
                  | none => cases env.ok (.qdiscAddIngress iface) <;> simp
                  | some filters => exact iff_of_true (if_neg nofun) nofun

end Down

/-! ### Rules -/

/-- When a failed rule for upload is undone. -/
theorem applyUpRule_undone_iff (env : Env) (s : Sys) (iface params : Text) :
    ((applyUpRule env s iface params).1 = false →
        SameQdiscs s.kernel (applyUpRule env s iface params).2.kernel iface) ↔
      UpUndone env s iface params := by
  rw [applyUpRule, UpUndone]
  cases hsplit : splitParams env s.sh params with
  | mk sh words =>
      cases words with
      | none => exact iff_of_true (fun _ => .refl s.kernel iface) trivial
      | some p =>
          dsimp only
          split
          · next hneed => exact iff_of_true nofun fun htbf => absurd (hneed.2.symm.trans htbf) nofun
          · exact upCommands_undone_iff env (netemSpec env sh p) p iface s.kernel

/-- When a failed rule for download is undone. -/
theorem applyDownRule_undone_iff (env : Env) (s : Sys) (iface params : Text) :
    ((applyDownRule env s iface params).1 = false →
        SameQdiscs s.kernel (applyDownRule env s iface params).2.kernel iface) ↔
      DownUndone env s iface params := by
  rw [applyDownRule, DownUndone]
  split
  · next hingress => exact iff_of_true nofun fun h => absurd h hingress
  · next hingress =>
      rw [Classical.not_not] at hingress
      cases hsplit : splitParams env s.sh params with
      | mk sh words =>
          cases words with
          | none => exact iff_of_true (fun _ => .refl s.kernel iface) fun _ => trivial
          | some p =>
              dsimp only
              split
              · next hneed =>
                  refine iff_of_true nofun fun _ hneeds => ?_
                  rw [hneed.1, hneed.2] at hneeds
                  exact absurd hneeds (by decide)
              · next hneed =>
                  have hneeds : p.needNetem = true ∨ p.needTbf = true := by
                    cases hnetem : p.needNetem with
                    | true => exact .inl rfl
                    | false =>
                        refine .inr ?_
                        rw [← Bool.not_eq_false]
                        exact fun htbf => hneed ⟨hnetem, htbf⟩
                  rw [downCommands_undone_iff]
                  exact ⟨fun h _ _ => h, fun h => h hingress hneeds⟩

/-- A rule that fails leaves no trace exactly under the two conditions. -/
theorem failed_rule_undone_iff (env : Env) (s : Sys) (iface params : Text) :
    (((applyUpRule env s iface params).1 = false →
        SameQdiscs s.kernel (applyUpRule env s iface params).2.kernel iface) ↔
      UpUndone env s iface params) ∧
    (((applyDownRule env s iface params).1 = false →
        SameQdiscs s.kernel (applyDownRule env s iface params).2.kernel iface) ↔
      DownUndone env s iface params) :=
  ⟨applyUpRule_undone_iff env s iface params, applyDownRule_undone_iff env s iface params⟩

/-- Every command works that can. -/
def working : Env := { ok := fun _ => true, glob := fun name => [name], modprobe := true, uid := 0 }

def eth0 : Text := "eth0".toList

def bareDevice : Device := { up := true, root := none, ingress := none }

/-- An interface and its ifb device. -/
def twoDevices : Kernel :=
  Function.update (Function.update (fun _ => none) eth0 (some bareDevice)) (ifbName eth0)
    (some bareDevice)

/-- The first entry of the interface has been applied. -/
def firstApplied : Sys :=
  (applyDownRule working { sh := .initial "true".toList, kernel := twoDevices } eth0
    "200ms 40ms 2% off".toList).2

/-- The second downstream rule of an interface fails, and takes away the filter of the first. -/
theorem earlier_rule_lost :
    ¬ ∀ (env : Env) (s : Sys) (iface params : Text),
      ((applyUpRule env s iface params).1 = false →
        SameQdiscs s.kernel (applyUpRule env s iface params).2.kernel iface) ∧
      ((applyDownRule env s iface params).1 = false →
        SameQdiscs s.kernel (applyDownRule env s iface params).2.kernel iface) := by
  intro hall
  have hfails : (applyDownRule working firstApplied eth0 "100ms off off off".toList).1 = false := by
    decide +kernel
  have hsame := (hall working firstApplied eth0 "100ms off off off".toList).2 hfails
  have hbefore : (qdiscs firstApplied.kernel eth0).map Prod.snd =
      some (some [.redirect (ifbName eth0)]) := by decide +kernel
  have hafter : (qdiscs (applyDownRule working firstApplied eth0
      "100ms off off off".toList).2.kernel eth0).map Prod.snd = some (some []) := by decide +kernel
  rw [hsame.1, hbefore] at hafter
  exact absurd hafter (by decide)

end ConfigEnv.Mptcp
