/-
Module: ConfigEnv.Proofs.StartStop
Layer: Proofs
Purpose: tc.sh start forgets what was there before, and stop clears it. The three loops over
  INTERFACES read the same entries; clean_all leaves of the listed interfaces what no rule of the
  script touches and nothing of their ifb devices; and the rest of start changes nothing else.
Trusted boundary: none
Main exports: listed, Agree, Command.onExisting, cleaned, cleanAll_eq, cleaned_congr,
  startSimulation_agree, start_stop_law
Open obligations: none
-/
import ConfigEnv.Proofs.RuleUndo

namespace ConfigEnv.Mptcp

open ConfigEnv.Shell (Text splitFields)

/-! ### Entries -/

/-- The entries of INTERFACES that count. -/
def entries (interfaces : Text) : List (Text × Text) :=
  (splitFields [';'] interfaces).filterMap readEntry

/-- The listed interfaces. -/
def listed (interfaces : Text) : List Text := (entries interfaces).map Prod.snd

/-- A loop over INTERFACES goes through these entries. -/
theorem forEntries_eq (env : Env) (interfaces : Text) (body : Sys → Text × Text → Sys) (s : Sys) :
    forEntries env interfaces body s =
      let s' := (entries interfaces).foldl body
        { s with sh := { s.sh with oldIfs := s.sh.ifs, ifs := [';'], noglob := true } }
      { s' with sh := { s'.sh with ifs := s'.sh.oldIfs, noglob := false } } := by
  rfl

/-- A line of blanks is trimmed to nothing. -/
theorem trimLine_spaces {line : Text} (h : ∀ c ∈ line, isSpace c = true) : trimLine line = [] := by
  rw [trimLine, List.dropWhile_eq_nil_iff.2 h]
  rfl

/-- A field of spaces and newlines is skipped. -/
theorem readEntry_spaces {entry : Text} (h : ∀ c ∈ entry, isSpace c = true) :
    readEntry entry = none := by
  have htrim : trimEntry entry = [] := by
    rw [trimEntry, ConfigEnv.Shell.substitution, List.rdropWhile_eq_nil_iff]
    intro c hc
    exact decide_eq_true
      (ConfigEnv.Shell.mapLines_newlines (fun _ => trimLine_spaces) (fun c hc _ => h c hc) c hc)
  rw [readEntry, htrim]
  rfl

/-- Nothing is listed when start gives up before it cleans. -/
theorem listed_blank {interfaces : Text} (h : isBlankText interfaces = true) :
    listed interfaces = [] := by
  have hnone : entries interfaces = [] := by
    rw [entries, List.filterMap_eq_nil_iff]
    intro entry hentry
    apply readEntry_spaces
    intro c hc
    have hblank := List.all_eq_true.1 h c (ConfigEnv.Shell.mem_of_mem_splitFields hentry hc)
    simp only [Bool.or_eq_true, decide_eq_true_eq] at hblank
    rcases hblank with (rfl | rfl) | rfl <;> rfl
  rw [listed, hnone]
  rfl

/-! ### Agreement -/

/-- A device without its disciplines. -/
def Device.bare (d : Device) : Device := { d with root := none, ingress := none }

/-- The names of the ifb devices. -/
def ifbs (ifaces : List Text) : List Text := ifaces.map ifbName

theorem mem_ifbs_cons {dev iface : Text} {ifaces : List Text} :
    dev ∈ ifbs (iface :: ifaces) ↔ dev = ifbName iface ∨ dev ∈ ifbs ifaces :=
  List.mem_cons

theorem mem_ifbs {iface : Text} {ifaces : List Text} (h : iface ∈ ifaces) :
    ifbName iface ∈ ifbs ifaces :=
  List.mem_map_of_mem h

/-- Two kernels that differ in the disciplines of the interfaces and in their ifb devices only. -/
def Agree (ifaces : List Text) (k k' : Kernel) : Prop :=
  ∀ dev, dev ∉ ifbs ifaces →
    if dev ∈ ifaces then (k dev).map Device.bare = (k' dev).map Device.bare else k dev = k' dev

theorem Agree.refl (ifaces : List Text) (k : Kernel) : Agree ifaces k k := by
  intro dev _
  split <;> rfl

theorem Agree.trans {ifaces : List Text} {k1 k2 k3 : Kernel} (h : Agree ifaces k1 k2)
    (h' : Agree ifaces k2 k3) : Agree ifaces k1 k3 := by
  intro dev hdev
  have hleft := h dev hdev
  have hright := h' dev hdev
  split at hleft
  · next hin =>
      rw [if_pos hin] at hright ⊢
      exact hleft.trans hright
  · next hout =>
      rw [if_neg hout] at hright ⊢
      exact hleft.trans hright

/-! ### Cleaning -/

/-- Commands on objects that are there; the others add one. -/
def Command.onExisting : Command → Bool
  | .qdiscAddRoot _ _ _ => false
  | .qdiscAddLeaf _ _ _ _ => false
  | .qdiscAddIngress _ => false
  | .filterAdd _ _ => false
  | .linkAdd _ => false
  | _ => true

/-- What `clean_all` leaves for one entry. -/
def cleanOne (k : Kernel) (iface : Text) : Kernel := fun dev =>
  if dev = ifbName iface then none
  else if dev = iface then (k dev).map Device.bare
  else k dev

/-- The kernel after `clean_all` has been through the interfaces. -/
def cleaned (k : Kernel) (ifaces : List Text) : Kernel := ifaces.foldl cleanOne k

theorem bare_bare (r : Option Device) :
    (r.map Device.bare).map Device.bare = r.map Device.bare := by
  cases r <;> rfl

/-- What cleaning leaves of a device. -/
theorem cleaned_apply (k : Kernel) (ifaces : List Text) (dev : Text) :
    cleaned k ifaces dev =
      if dev ∈ ifbs ifaces then none
      else if dev ∈ ifaces then (k dev).map Device.bare
      else k dev := by
  induction ifaces generalizing k with
  | nil => rfl
  | cons iface ifaces ih =>
      rw [cleaned, List.foldl_cons, ← cleaned, ih, cleanOne]
      simp only [mem_ifbs_cons, List.mem_cons]
      by_cases hifbs : dev ∈ ifbs ifaces
      · simp [hifbs]
      · by_cases hifb : dev = ifbName iface
        · simp [hifb]
        · by_cases hiface : dev = iface
          · subst hiface
            by_cases hin : dev ∈ ifaces
            · simpa [hifbs, hifb, hin] using bare_bare (k dev)
            · simp [hifbs, hifb, hin]
          · simp [hifbs, hifb, hiface]

/-- Cleaning forgets how two kernels differ. -/
theorem cleaned_congr {ifaces : List Text} {k k' : Kernel} (h : Agree ifaces k k') :
    cleaned k ifaces = cleaned k' ifaces := by
  funext dev
  rw [cleaned_apply, cleaned_apply]
  split
  · rfl
  · next hdev =>
      have hagree := h dev hdev
      split
      · next hin => rwa [if_pos hin] at hagree
      · next hout => rwa [if_neg hout] at hagree

/-- Cleaning touches the qdiscs of the listed interfaces only. -/
theorem agree_cleaned (ifaces : List Text) (k : Kernel) : Agree ifaces k (cleaned k ifaces) := by
  intro dev hdev
  rw [cleaned_apply, if_neg hdev]
  split
  · exact (bare_bare (k dev)).symm
  · rfl

section CleanAll

variable {env : Env} (hdel : ∀ c : Command, c.onExisting = true → env.ok c = true)

include hdel

/-- A command on an existing object, whether that is there or not. -/
theorem exec_existing {k : Kernel} {c : Command} {dev : Text} {f : Device → Option Device}
    (hc : c.onExisting = true) (hmeaning : meaning k c = onDevice k dev f) :
    (exec env k c).2 dev = (k dev).map fun d => (f d).getD d := by
  rw [exec, if_pos (hdel c hc), hmeaning, onDevice]
  cases hd : k dev with
  | none => exact hd
  | some d =>
      rw [Option.bind_some, Option.map_some]
      cases f d with
      | none => exact hd
      | some d' => exact Function.update_self dev (some d') k

theorem exec_linkDel (k : Kernel) (dev : Text) : (exec env k (.linkDel dev)).2 dev = none := by
  rw [exec, if_pos (hdel _ rfl), meaning]
  split
  · next hsome =>
      split at hsome
      · cases hsome
        exact Function.update_self dev none k
      · cases hsome
  · next hnone =>
      split at hnone
      · cases hnone
      · next hmissing => exact Option.not_isSome_iff_eq_none.1 hmissing

/-- The three commands on an interface take away its disciplines. -/
theorem exec_cleanIface (k : Kernel) (iface : Text) :
    (exec env (exec env (exec env k (.qdiscDelRoot iface)).2 (.qdiscDelIngress iface)).2
      (.filterDel iface)).2 iface = (k iface).map Device.bare := by
  rw [exec_existing hdel rfl rfl, exec_existing hdel rfl rfl, exec_existing hdel rfl rfl]
  cases k iface with
  | none => rfl
  | some d =>
      obtain ⟨up, root, ingress⟩ := d
      cases root <;> cases ingress <;> rfl

/-- The commands of `clean_all` for one entry. -/
theorem foldl_cleanOne (s : Sys) (iface : Text) :
    [Command.qdiscDelRoot iface, .qdiscDelIngress iface, .filterDel iface,
      .qdiscDelRoot (ifbName iface), .linkDown (ifbName iface), .linkDel (ifbName iface)].foldl
        (fun s c => s.exec env c) s = { s with kernel := cleanOne s.kernel iface } := by
  have hkernel : ∀ k : Kernel, (exec env (exec env (exec env (exec env (exec env (exec env k
      (.qdiscDelRoot iface)).2 (.qdiscDelIngress iface)).2 (.filterDel iface)).2
      (.qdiscDelRoot (ifbName iface))).2 (.linkDown (ifbName iface))).2
      (.linkDel (ifbName iface))).2 = cleanOne k iface := by
    intro k
    funext dev
    rw [cleanOne]
    by_cases hifb : dev = ifbName iface
    · rw [if_pos hifb, hifb, exec_linkDel hdel]
    · rw [if_neg hifb, exec_other hifb, exec_other hifb, exec_other hifb]
      by_cases hiface : dev = iface
      · rw [if_pos hiface, hiface, exec_cleanIface hdel]
      · rw [if_neg hiface, exec_other hiface, exec_other hiface, exec_other hiface]
  rw [← hkernel]
  rfl

/-- `clean_all` cleans the listed interfaces. -/
theorem cleanAll_eq (interfaces : Text) (s : Sys) :
    cleanAll env interfaces s =
      { sh := { s.sh with oldIfs := s.sh.ifs, noglob := false }
        kernel := cleaned s.kernel (listed interfaces) } := by
  have hfold : ∀ (es : List (Text × Text)) (s : Sys),
      es.foldl (fun s e => [Command.qdiscDelRoot e.2, .qdiscDelIngress e.2, .filterDel e.2,
        .qdiscDelRoot (ifbName e.2), .linkDown (ifbName e.2), .linkDel (ifbName e.2)].foldl
          (fun s c => s.exec env c) s) s =
        { s with kernel := cleaned s.kernel (es.map Prod.snd) } := by
    intro es
    induction es with
    | nil => exact fun s => rfl
    | cons e es ih =>
        intro s
        rw [List.foldl_cons, foldl_cleanOne hdel, ih]
        rfl
  rw [cleanAll, forEntries_eq]
  dsimp only
  rw [hfold]
  rfl

end CleanAll

/-! ### What the rest of start changes -/

/-- Commands on the disciplines and filters of a device. -/
def Command.onQdiscs : Command → Bool
  | .qdiscAddRoot _ _ _ => true
  | .qdiscAddLeaf _ _ _ _ => true
  | .qdiscAddIngress _ => true
  | .filterAdd _ _ => true
  | .qdiscDelRoot _ => true
  | .qdiscDelIngress _ => true
  | .filterDel _ => true
  | _ => false

/-- A command that may run for the interfaces. -/
def Within (ifaces : List Text) (c : Command) : Prop :=
  c.dev ∈ ifbs ifaces ∨ (c.dev ∈ ifaces ∧ c.onQdiscs = true)

/-- A change of a device's qdiscs leaves the device itself. -/
theorem onDevice_bare {k k' : Kernel} {dev : Text} {f : Device → Option Device}
    (h : onDevice k dev f = some k') (hf : ∀ d d', f d = some d' → d'.bare = d.bare) :
    (k' dev).map Device.bare = (k dev).map Device.bare := by
  rw [onDevice] at h
  cases hd : k dev with
  | none =>
      rw [hd] at h
      cases h
  | some d =>
      rw [hd, Option.bind_some] at h
      cases hd' : f d with
      | none =>
          rw [hd'] at h
          cases h
      | some d' =>
          rw [hd'] at h
          cases h
          rw [Function.update_self, Option.map_some, Option.map_some, hf d d' hd']

theorem onDevice_ite_bare {k k' : Kernel} {dev : Text} {p : Device → Bool} {f : Device → Device}
    (h : onDevice k dev (fun d => if p d = true then some (f d) else none) = some k')
    (hf : ∀ d, (f d).bare = d.bare) : (k' dev).map Device.bare = (k dev).map Device.bare := by
  refine onDevice_bare h fun d d' hd' => ?_
  split at hd' <;> cases hd'
  exact hf d

/-- A command on the disciplines of a device changes nothing else of it. -/
theorem meaning_bare {k k' : Kernel} {c : Command} (hc : c.onQdiscs = true)
    (h : meaning k c = some k') : (k' c.dev).map Device.bare = (k c.dev).map Device.bare := by
  cases c with
  | qdiscAddRoot dev handle spec =>
      refine onDevice_bare h fun d d' hf => ?_
      simp only [Device.addRoot] at hf
      split at hf <;> cases hf
      rfl
  | qdiscAddLeaf dev parent handle spec =>
      refine onDevice_bare h fun d d' hf => ?_
      simp only [Device.addLeaf] at hf
      split at hf
      · split at hf <;> cases hf
        rfl
      · cases hf
  | filterAdd dev target =>
      refine onDevice_bare h fun d d' hf => ?_
      split at hf
      · split at hf <;> cases hf
        rfl
      · cases hf
  | qdiscAddIngress dev => exact onDevice_ite_bare h fun _ => rfl
  | qdiscDelRoot dev => exact onDevice_ite_bare h fun _ => rfl
  | qdiscDelIngress dev => exact onDevice_ite_bare h fun _ => rfl
  | filterDel dev => exact onDevice_ite_bare h fun _ => rfl
  | _ => cases hc

section Frame

variable {env : Env} {ifaces : List Text}

/-- A command within the listed interfaces touches nothing else. -/
theorem exec_agree (env : Env) (k : Kernel) {c : Command} (hc : Within ifaces c) :
    Agree ifaces k (exec env k c).2 := by
  intro dev hdev
  by_cases hown : dev = c.dev
  · subst hown
    obtain ⟨hin, hqdiscs⟩ := hc.resolve_left hdev
    rw [if_pos hin, exec]
    split
    · split
      · next h => exact (meaning_bare hqdiscs h).symm
      · rfl
    · rfl
  · rw [exec_other hown]
    split <;> rfl

theorem exec_agree_of_eq {k k' : Kernel} {c : Command} {r : Bool} (h : exec env k c = (r, k'))
    (hc : Within ifaces c) : Agree ifaces k k' := by
  have hagree := exec_agree env k hc
  rwa [h] at hagree

variable {iface : Text} (hiface : iface ∈ ifaces)

include hiface

theorem within_iface {c : Command} (hc : c.onQdiscs = true) (hdev : c.dev = iface) :
    Within ifaces c :=
  .inr ⟨hdev ▸ hiface, hc⟩

theorem within_ifb {c : Command} (hdev : c.dev = ifbName iface) : Within ifaces c :=
  .inl (hdev ▸ mem_ifbs hiface)

/-- The commands for upload touch nothing else. -/
theorem upCommands_agree (netem : List Text) (p : Params) (k : Kernel) :
    Agree ifaces k (upCommands env netem p iface k).2 := by
  rw [upCommands]
  split
  · split
    · next h => exact exec_agree_of_eq h (within_iface hiface rfl rfl)
    · next k1 h =>
        have h1 := exec_agree_of_eq h (within_iface hiface rfl rfl)
        split
        · split
          · next k2 h' =>
              exact (h1.trans (exec_agree_of_eq h' (within_iface hiface rfl rfl))).trans
                (exec_agree env k2 (within_iface hiface rfl rfl))
          · next k2 h' => exact h1.trans (exec_agree_of_eq h' (within_iface hiface rfl rfl))
        · exact h1
  · exact exec_agree env k (within_iface hiface rfl rfl)

/-- The commands for the IFB device touch nothing else. -/
theorem ifbCommands_agree (netem : List Text) (p : Params) (k : Kernel) :
    Agree ifaces k (ifbCommands env netem p iface (ifbName iface) k).2 := by
  have hfilterDel : ∀ k, Agree ifaces k (exec env k (.filterDel iface)).2 := fun k =>
    exec_agree env k (within_iface hiface rfl rfl)
  rw [ifbCommands]
  split
  · split
    · next k1 h => exact (exec_agree_of_eq h (within_ifb hiface rfl)).trans (hfilterDel k1)
    · next k1 h =>
        have h1 := exec_agree_of_eq h (within_ifb hiface rfl)
        split
        · split
          · next k2 h' =>
              have h2 := h1.trans (exec_agree_of_eq h' (within_ifb hiface rfl))
              exact (h2.trans (exec_agree env k2 (within_ifb hiface rfl))).trans (hfilterDel _)
          · next k2 h' => exact h1.trans (exec_agree_of_eq h' (within_ifb hiface rfl))
        · exact h1
  · split
    · next k1 h => exact (exec_agree_of_eq h (within_ifb hiface rfl)).trans (hfilterDel k1)
    · next k1 h => exact exec_agree_of_eq h (within_ifb hiface rfl)

/-- The commands for download touch nothing else. -/
theorem downCommands_agree (netem : List Text) (p : Params) (k : Kernel) :
    Agree ifaces k (downCommands env netem p iface k).2 := by
  rw [downCommands]
  dsimp only
  split
  · next k1 h => exact exec_agree_of_eq h (within_ifb hiface rfl)
  · next k1 h =>
      have h2 := (exec_agree_of_eq h (within_ifb hiface rfl)).trans
        (exec_agree env k1 (c := .qdiscAddIngress iface) (within_iface hiface rfl rfl))
      split
      · next k3 h' => exact h2.trans (exec_agree_of_eq h' (within_iface hiface rfl rfl))
      · next k3 h' =>
          exact (h2.trans (exec_agree_of_eq h' (within_iface hiface rfl rfl))).trans
            (ifbCommands_agree hiface netem p k3)

/-- A rule for upload touches nothing else. -/
theorem applyUpRule_agree (sh : Shell) (k : Kernel) (params : Text) :
    Agree ifaces k (applyUpRule env { sh := sh, kernel := k } iface params).2.kernel := by
  rw [applyUpRule]
  split
  · exact .refl ifaces k
  · split
    · exact .refl ifaces k
    · exact upCommands_agree hiface _ _ k

/-- A rule for download touches nothing else. -/
theorem applyDownRule_agree (sh : Shell) (k : Kernel) (params : Text) :
    Agree ifaces k (applyDownRule env { sh := sh, kernel := k } iface params).2.kernel := by
  rw [applyDownRule]
  split
  · exact .refl ifaces k
  · split
    · exact .refl ifaces k
    · split
      · exact .refl ifaces k
      · exact downCommands_agree hiface _ _ k

end Frame

/-! ### Loops -/

section Loops

variable {env : Env} {interfaces : Text}

/-- A loop whose body keeps to the interface of the entry. -/
theorem forEntries_agree {body : Sys → Text × Text → Sys} (s : Sys)
    (hbody : ∀ s e, e.2 ∈ listed interfaces →
      Agree (listed interfaces) s.kernel (body s e).kernel) :
    Agree (listed interfaces) s.kernel (forEntries env interfaces body s).kernel := by
  have hfold : ∀ (es : List (Text × Text)) (s : Sys), (∀ e ∈ es, e.2 ∈ listed interfaces) →
      Agree (listed interfaces) s.kernel (es.foldl body s).kernel := by
    intro es
    induction es with
    | nil => exact fun s _ => .refl _ s.kernel
    | cons e es ih =>
        intro s hes
        exact (hbody s e (hes e List.mem_cons_self)).trans
          (ih (body s e) fun e' he' => hes e' (List.mem_cons_of_mem e he'))
  rw [forEntries_eq]
  exact hfold (entries interfaces)
    { s with sh := { s.sh with oldIfs := s.sh.ifs, ifs := [';'], noglob := true } }
    fun e he => List.mem_map_of_mem he

/-- `init_ifb` touches nothing else. -/
theorem initIfb_agree (s : Sys) :
    Agree (listed interfaces) s.kernel (initIfb env interfaces s).kernel := by
  refine forEntries_agree s fun s e he => ?_
  dsimp only
  split
  · exact exec_agree env s.kernel (within_ifb he rfl)
  · exact (exec_agree env s.kernel (c := .linkAdd (ifbName e.2)) (within_ifb he rfl)).trans
      (exec_agree env _ (within_ifb he rfl))

theorem orFailed_kernel (r : Bool × Sys) : (orFailed r).kernel = r.2.kernel := by
  rw [orFailed]
  split <;> rfl

/-- Applying the rules touches nothing else. -/
theorem applyRules_agree (sh : Shell) (k : Kernel) :
    Agree (listed interfaces) k (applyRules env interfaces { sh := sh, kernel := k }).kernel := by
  refine forEntries_agree { sh := sh, kernel := k } fun s e he => ?_
  have hup : ∀ s params, Agree (listed interfaces) s.kernel
      (orFailed (applyUpRule env s e.2 params)).kernel := by
    intro s params
    rw [orFailed_kernel]
    exact applyUpRule_agree he s.sh s.kernel params
  have hdown : ∀ s params, Agree (listed interfaces) s.kernel
      (orFailed (applyDownRule env s e.2 params)).kernel := by
    intro s params
    rw [orFailed_kernel]
    exact applyDownRule_agree he s.sh s.kernel params
  split
  · exact .refl _ s.kernel
  · exact (hup { s with sh := { s.sh with ifs := s.sh.oldIfs } } _).trans (hdown _ _)

end Loops

/-! ### The law -/

section Law

variable {env : Env} {interfaces : Text} (hroot : env.uid = 0)
  (hdel : ∀ c : Command, c.onExisting = true → env.ok c = true)

include hdel

/-- start changes only what clean_all clears. -/
theorem startSimulation_agree (interfaces : Text) (s : Sys) :
    Agree (listed interfaces) s.kernel (startSimulation env interfaces s).2.kernel := by
  rw [startSimulation]
  split
  · exact .refl _ s.kernel
  · split
    · exact .refl _ s.kernel
    · have hclean : Agree (listed interfaces) s.kernel
          (loadModules env (cleanAll env interfaces s)).kernel := by
        rw [loadModules, cleanAll_eq hdel]
        split
        · exact agree_cleaned (listed interfaces) s.kernel
        · exact agree_cleaned (listed interfaces) s.kernel
      dsimp only
      split
      · exact (hclean.trans (initIfb_agree _)).trans (applyRules_agree _ _)
      · exact hclean.trans (applyRules_agree _ _)

/-- start ends in the same state from kernels that differ in what clean_all clears. -/
theorem startSimulation_congr (hroot : env.uid = 0) {sh : Shell} {k k' : Kernel}
    (h : Agree (listed interfaces) k k') :
    startSimulation env interfaces { sh := sh, kernel := k } =
      startSimulation env interfaces { sh := sh, kernel := k' } := by
  cases hblank : isBlankText interfaces with
  | true =>
      rw [listed_blank hblank] at h
      have hsame : k = k' := funext fun dev => by simpa using h dev List.not_mem_nil
      rw [hsame]
  | false =>
      have hclean : cleanAll env interfaces { sh := sh, kernel := k } =
          cleanAll env interfaces { sh := sh, kernel := k' } := by
        rw [cleanAll_eq hdel, cleanAll_eq hdel, cleaned_congr h]
      simp only [startSimulation, hblank, hclean, hroot, ne_eq, not_true_eq_false, if_false,
        Bool.false_eq_true]

/-- `stop` is a cleaning of the listed interfaces. -/
theorem tcStop_eq (hroot : env.uid = 0) (enableIngress : Text) (k : Kernel) :
    tcStop env interfaces enableIngress k = cleaned k (listed interfaces) := by
  rw [tcStop, stopSimulation, if_neg fun hno => hno hroot, cleanAll_eq hdel]

end Law

/-- start ends in the same state whatever the disciplines of the listed interfaces and their ifb
devices were, so starting twice is starting once; and after stop neither are there. -/
theorem start_stop_law (env : Env) (interfaces enableIngress : Text) (hroot : env.uid = 0)
    (hdel : ∀ c : Command, c.onExisting = true → env.ok c = true) :
    (∀ k k', Agree (listed interfaces) k k' →
      tcStart env interfaces enableIngress k = tcStart env interfaces enableIngress k') ∧
    (∀ k, tcStart env interfaces enableIngress (tcStart env interfaces enableIngress k).2 =
      tcStart env interfaces enableIngress k) ∧
    (∀ k, ∀ iface ∈ listed interfaces,
      (∀ d, tcStop env interfaces enableIngress k iface = some d →
        d.root = none ∧ d.ingress = none) ∧
      tcStop env interfaces enableIngress k (ifbName iface) = none) := by
  have hcongr : ∀ k k', Agree (listed interfaces) k k' →
      tcStart env interfaces enableIngress k = tcStart env interfaces enableIngress k' := by
    intro k k' hagree
    rw [tcStart, tcStart, startSimulation_congr hdel hroot hagree]
  refine ⟨hcongr, fun k => ?_, fun k iface hiface => ⟨fun d hd => ?_, ?_⟩⟩
  · have hagree := startSimulation_agree hdel interfaces
      { sh := .initial enableIngress, kernel := k }
    exact (hcongr k _ hagree).symm
  · rw [tcStop_eq hdel hroot, cleaned_apply, if_pos hiface] at hd
    split at hd
    · cases hd
    · obtain ⟨d', -, rfl⟩ := Option.map_eq_some_iff.1 hd
      exact ⟨rfl, rfl⟩
  · rw [tcStop_eq hdel hroot, cleaned_apply, if_pos (mem_ifbs hiface)]

/-- Two entries for one interface and entries that do not count. -/
def eth0Twice : Text :=
  "eth0:100ms 20ms 5% 1mbit|200ms 40ms 2% 5mbit; ;eth1; eth0:off off off 2mbit".toList

/-- Another root and an ingress discipline are there already. -/
def leftover : Kernel :=
  Function.update twoDevices eth0 (some { bareDevice with
    root := some { handle := 0x8001, spec := ["htb".toList], leaves := [], filters := [] }
    ingress := some [.redirect (ifbName eth0)] })

theorem leftover_agree : Agree (listed eth0Twice) leftover twoDevices := by
  intro dev hdev
  by_cases heth0 : dev = eth0
  · subst heth0
    rw [if_pos (by decide +kernel)]
    rfl
  · rw [leftover, Function.update_of_ne heth0]
    split <;> rfl

theorem start_stop_law_eth0 :
    tcStart working eth0Twice "true".toList leftover =
        tcStart working eth0Twice "true".toList twoDevices ∧
      tcStart working eth0Twice "true".toList (tcStart working eth0Twice "true".toList leftover).2 =
        tcStart working eth0Twice "true".toList leftover ∧
      tcStop working eth0Twice "true".toList leftover (ifbName eth0) = none := by
  have hlaw := start_stop_law working eth0Twice "true".toList rfl fun _ _ => rfl
  exact ⟨hlaw.1 leftover twoDevices leftover_agree, hlaw.2.1 leftover,
    (hlaw.2.2 leftover eth0 (by decide +kernel)).2⟩

end ConfigEnv.Mptcp
