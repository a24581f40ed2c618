/-
Module: ConfigEnv.Proofs.RecordSafety
Layer: Proofs
Purpose: What a power loss in the middle of ramoops-backup.sh leaves of the crash records. A record
  that the script has removed from pstore is whole in an archive that later records do not
  overwrite; but the archive is safe only when the sync at the end of the script has completed, and
  the removal is immediate. So a loss before that costs every record that has been removed and was
  not already stored.
Trusted boundary: none
Main exports: dstName_inj, Stored, Removed, Survives, Traced, commandStep_traced,
  records_survive_iff
Open obligations: none
-/
import ConfigEnv.Ramoops.Backup

namespace ConfigEnv.Ramoops

open Machine (Run Always)

/-! ### Names of archives -/

theorem seqText_digits (n : Nat) : '_' ∉ seqText n := by
  intro hmem
  rcases List.mem_append.1 hmem with hzero | hdigit
  · cases List.eq_of_mem_replicate hzero
  · exact absurd (Nat.isDigit_of_mem_toDigits (by decide) (by decide) hdigit) (by decide)

/-- The first underscore ends the number. -/
theorem dstName_inj {seq seq' name name' : Name} (h : '_' ∉ seq) (h' : '_' ∉ seq')
    (heq : dstName seq name = dstName seq' name') : seq = seq' ∧ name = name' := by
  have hfront : ∀ seq name : Name, '_' ∉ seq →
      (dstName seq name).takeWhile (fun c => c ≠ '_') = seq := by
    intro seq name hno
    have hdigits : ∀ c ∈ seq, decide (c ≠ '_') = true := fun c hc =>
      decide_eq_true fun heq : c = '_' => hno (heq ▸ hc)
    rw [dstName, List.takeWhile_append_of_pos hdigits]
    simp
  have hseq : seq = seq' := by rw [← hfront seq name h, heq, hfront seq' name' h']
  subst hseq
  refine ⟨rfl, ?_⟩
  have hrest := List.append_cancel_left heq
  exact List.append_cancel_right (List.cons.inj hrest).2

/-! ### Records after a power loss -/

/-- A record is whole in an archive. -/
def Stored (dir : Directory Name Archive) (content : Content) : Prop :=
  ∃ file archive, dir.lookup file = some archive ∧ archive.record = some content

/-- The records that have been removed from pstore. -/
def Removed (t : List (Command × Option Effect)) (name : Name) : Prop :=
  ∃ e ∈ t, e.2 = some (.removed name)

/-- After a power loss every record is still in pstore or safely stored. -/
def Survives (pstore : Directory Name Content) (s : Backup) : Prop :=
  ∀ name content, pstore.lookup name = some content →
    s.pstore.lookup name = some content ∨ Stored s.durable content

/-- An archive of a record under a name that belongs to it. -/
def ArchivedAs (backups : Directory Name Archive) (name : Name) (content : Content) : Prop :=
  ∃ seq archive, '_' ∉ seq ∧ backups.lookup (dstName seq name) = some archive ∧
    archive.record = some content

/-- An archived record is stored. -/
theorem ArchivedAs.stored {backups : Directory Name Archive} {name : Name} {content : Content}
    (h : ArchivedAs backups name content) : Stored backups content := by
  obtain ⟨seq, archive, -, hfile, hrecord⟩ := h
  exact ⟨dstName seq name, archive, hfile, hrecord⟩

/-- The archives of one record are not overwritten by those of another. -/
theorem ArchivedAs.insert {backups : Directory Name Archive} {name name' seq' : Name}
    {content : Content} (h : ArchivedAs backups name content) (hseq' : '_' ∉ seq')
    (hne : name ≠ name') (tmp : Archive) :
    ArchivedAs (backups.insert (dstName seq' name') tmp) name content := by
  obtain ⟨seq, archive, hseq, hfile, hrecord⟩ := h
  refine ⟨seq, archive, hseq, ?_, hrecord⟩
  rw [AList.lookup_insert_ne fun heq => hne (dstName_inj hseq hseq' heq).2]
  exact hfile

theorem removed_snoc {t : List (Command × Option Effect)} {e : Command × Option Effect}
    {name : Name} : Removed (t ++ [e]) name ↔ Removed t name ∨ e.2 = some (.removed name) := by
  constructor
  · rintro ⟨e', he', heq⟩
    rcases List.mem_append.1 he' with hold | hnew
    · exact .inl ⟨e', hold, heq⟩
    · exact .inr (List.mem_singleton.1 hnew ▸ heq)
  · rintro (⟨e', he', heq⟩ | heq)
    · exact ⟨e', List.mem_append_left _ he', heq⟩
    · exact ⟨e, List.mem_append_right _ (List.mem_singleton_self e), heq⟩

/-- The script has not ended while other commands run. -/
theorem finish_notMem_snoc {t : List (Command × Option Effect)} {e : Command × Option Effect}
    (h : Command.finish ∉ t.map Prod.fst) (he : e.1 ≠ .finish) :
    Command.finish ∉ (t ++ [e]).map Prod.fst := by
  rw [List.map_append, List.mem_append]
  rintro (hin | hin)
  · exact h hin
  · exact he (List.mem_singleton.1 hin).symm

/-! ### The invariant -/

/-- What the script has in hand: the record of the round is in pstore, the temporary file is an
archive of it, and before `rm` so is a file of the backup directory. -/
def InHand (s : Backup) : Phase → Prop
  | .idle => True
  | .records _ => True
  | .compress name seq _ => '_' ∉ seq ∧ ∃ content, s.pstore.lookup name = some content
  | .rename name seq tmp _ => '_' ∉ seq ∧
      ∃ content, s.pstore.lookup name = some content ∧ tmp.record = some content
  | .remove name _ => ∃ content, s.pstore.lookup name = some content ∧
      ArchivedAs s.backups name content

/-- What holds after a part of a run: every record is still in pstore or has been removed and is
archived; and the durable directory is the old one until the script has ended. -/
structure Traced (pstore : Directory Name Content) (durable : Directory Name Archive)
    (t : List (Command × Option Effect)) (s : Backup) : Prop where
  records : ∀ name content, pstore.lookup name = some content →
    (s.pstore.lookup name = some content ∧ ¬ Removed t name) ∨
      (s.pstore.lookup name = none ∧ Removed t name ∧ ArchivedAs s.backups name content)
  old : ∀ name content, s.pstore.lookup name = some content → pstore.lookup name = some content
  inHand : InHand s s.phase
  saved : ∀ name, Removed t name → s.saved = true
  unsynced : .finish ∉ t.map Prod.fst → s.durable = durable
  synced : .finish ∈ t.map Prod.fst → s.phase = .idle ∧ (s.saved = true → s.durable = s.backups)

section Steps

variable {pstore : Directory Name Content} {durable : Directory Name Archive}
  {t : List (Command × Option Effect)} {s s' : Backup} {o : Option Effect}

/-- A command that removes no record and leaves the archives of removed ones. -/
theorem Traced.quiet (h : Traced pstore durable t s) {c : Command} (hc : c ≠ .finish)
    (hphase : s.phase ≠ .idle) (hpstore : s'.pstore = s.pstore)
    (hbackups : ∀ name content, s.pstore.lookup name = none →
      ArchivedAs s.backups name content → ArchivedAs s'.backups name content)
    (hdurable : s'.durable = s.durable) (hsaved : s.saved = true → s'.saved = true)
    (hinHand : InHand s' s'.phase) (ho : ∀ name, o ≠ some (.removed name)) :
    Traced pstore durable (t ++ [(c, o)]) s' := by
  have hremoved : ∀ name, Removed (t ++ [(c, o)]) name ↔ Removed t name :=
    fun name => removed_snoc.trans (or_iff_left (ho name))
  have hopen : Command.finish ∉ t.map Prod.fst := fun hin => hphase (h.synced hin).1
  have hopen' : Command.finish ∉ (t ++ [(c, o)]).map Prod.fst := finish_notMem_snoc hopen hc
  refine ⟨fun name content hname => ?_, fun name content => ?_, hinHand, fun name hname => ?_,
    fun _ => hdurable.trans (h.unsynced hopen), fun hin => absurd hin hopen'⟩
  · rw [hpstore, hremoved]
    rcases h.records name content hname with hthere | ⟨hnone, hgone, harch⟩
    · exact .inl hthere
    · exact .inr ⟨hnone, hgone, hbackups name content hnone harch⟩
  · rw [hpstore]
    exact h.old name content
  · exact hsaved (h.saved name ((hremoved name).1 hname))

/-- The archive gets its name; those of other records stay. -/
theorem Traced.renamed {name seq : Name} {tmp : Archive} {todo : List Name}
    (h : Traced pstore durable t s) (hphase : s.phase = .rename name seq tmp todo) (taken : Bool) :
    Traced pstore durable (t ++ [(.mv true, some (.destination (dstName seq name) taken))])
      { s with
        backups := s.backups.insert (dstName seq name) tmp, phase := .remove name todo } := by
  have hhand := h.inHand
  rw [hphase] at hhand
  obtain ⟨hseq, content, hname, htmp⟩ := hhand
  have hbusy : s.phase ≠ .idle := by rw [hphase]; exact Phase.noConfusion
  refine h.quiet nofun hbusy rfl (fun name' content' hnone harch => ?_) rfl id ?_ nofun
  · have hne : name' ≠ name := fun heq => by
      rw [heq, hname] at hnone
      cases hnone
    exact harch.insert hseq hne tmp
  · exact ⟨content, hname, seq, tmp, hseq, AList.lookup_insert _, htmp⟩

/-- A record is removed when it is archived. -/
theorem Traced.removed {name : Name} {todo : List Name} (h : Traced pstore durable t s)
    (hphase : s.phase = .remove name todo) :
    Traced pstore durable (t ++ [(.rm true, some (.removed name))])
      { s with pstore := s.pstore.erase name, phase := .records todo, saved := true } := by
  have hhand := h.inHand
  rw [hphase] at hhand
  obtain ⟨content, hname, harch⟩ := hhand
  have hbusy : s.phase ≠ .idle := by rw [hphase]; exact Phase.noConfusion
  have hopen : Command.finish ∉ t.map Prod.fst := fun hin => hbusy (h.synced hin).1
  have hopen' : Command.finish ∉
      (t ++ [(Command.rm true, some (Effect.removed name))]).map Prod.fst :=
    finish_notMem_snoc hopen nofun
  refine ⟨fun name' content' hname' => ?_, fun name' content' hname' => ?_, trivial,
    fun _ _ => rfl, fun _ => h.unsynced hopen, fun hin => absurd hin hopen'⟩
  · rw [removed_snoc]
    by_cases heq : name' = name
    · subst heq
      have hsame : content = content' :=
        Option.some.inj ((h.old name' content hname).symm.trans hname')
      exact .inr ⟨AList.lookup_erase _ _, .inr rfl, hsame ▸ harch⟩
    · have hother : ¬ some (Effect.removed name) = some (.removed name') := by
        rintro ⟨⟩
        exact heq rfl
      rw [or_iff_left hother]
      change (AList.lookup name' (s.pstore.erase name) = _ ∧ _) ∨
        (AList.lookup name' (s.pstore.erase name) = _ ∧ _)
      rw [AList.lookup_erase_ne heq]
      exact h.records name' content' hname'
  · exact h.old name' content' (Directory.lookup_of_erase hname').2

/-- Ending the script keeps what the run has shown. -/
theorem Traced.ended (h : Traced pstore durable t s) {durable' : Directory Name Archive}
    (hdurable' : s.saved = true → durable' = s.backups) :
    Traced pstore durable (t ++ [(.finish, none)])
      { s with durable := durable', phase := .idle } := by
  have hremoved : ∀ name, Removed (t ++ [(Command.finish, none)]) name ↔ Removed t name :=
    fun name => removed_snoc.trans (or_iff_left nofun)
  have hin : Command.finish ∈ (t ++ [(Command.finish, (none : Option Effect))]).map Prod.fst := by
    simp
  refine ⟨fun name content hname => ?_, h.old, trivial,
    fun name hname => h.saved name ((hremoved name).1 hname), fun hno => absurd hin hno,
    fun _ => ⟨rfl, hdurable'⟩⟩
  rw [hremoved]
  exact h.records name content hname

/-- What every command keeps. -/
theorem commandStep_traced {c : Command} (h : Traced pstore durable t s)
    (hstep : commandStep s c = .ok (s', o)) : Traced pstore durable (t ++ [(c, o)]) s' := by
  have hhand := h.inHand
  have hperforms := commandStep_performs hstep
  have hbusy := hperforms.busy
  cases hperforms with
  | @numbered name todo content n phase here number =>
      exact h.quiet nofun hbusy rfl (fun _ _ _ => id) rfl id ⟨seqText_digits n, content, here⟩ nofun
  | compressed phase =>
      rw [phase] at hhand
      obtain ⟨hseq, content, hname⟩ := hhand
      exact h.quiet nofun hbusy rfl (fun _ _ _ => id) rfl id ⟨hseq, content, hname, hname⟩ nofun
  | renamed phase => exact h.renamed phase _
  | removed phase => exact h.removed phase
  | notRemoved phase =>
      exact h.quiet nofun hbusy rfl (fun _ _ _ => id) rfl (fun _ => rfl) trivial nofun
  | synced phase saved => exact h.ended fun _ => rfl
  | unsynced phase saved =>
      refine h.ended fun hyes => ?_
      rw [saved] at hyes
      cases hyes
  | _ => exact h.quiet nofun hbusy rfl (fun _ _ _ => id) rfl id trivial nofun

end Steps

/-! ### Runs -/

/-- Every run of the script is traced. -/
theorem traced_run {pstore : Directory Name Content} {backups durable : Directory Name Archive}
    {seqFile : Option Name} {listing : List Name} {t : List (Command × Option Effect)} {s : Backup}
    (hrun : Run scriptMachine (.begun pstore backups durable seqFile listing) t s) :
    Traced pstore durable t s := by
  have hnone : ∀ name, ¬ Removed [] name := fun _ ⟨_, hin, _⟩ => absurd hin List.not_mem_nil
  refine hrun.historyInvariant (Traced pstore durable) ?_ fun pre e post q q' _ _ hq hstep =>
    commandStep_traced hq hstep
  exact ⟨fun name content hname => .inl ⟨hname, hnone name⟩, fun _ _ => id, trivial,
    fun name hname => absurd hname (hnone name), fun _ => rfl, nofun⟩

/-- A source that is removed is stored already. -/
def RemovesStored (durable : Directory Name Archive) (s : Backup) (c : Command) : Prop :=
  c = .rm true → ∀ name todo content, s.phase = .remove name todo →
    s.pstore.lookup name = some content → Stored durable content

/-- The step that removes a record. -/
theorem rm_of_removed {s s' : Backup} {c : Command} {name : Name}
    (hstep : commandStep s c = .ok (s', some (.removed name))) :
    c = .rm true ∧ ∃ todo, s.phase = .remove name todo := by
  cases commandStep_performs hstep with
  | removed phase => exact ⟨rfl, _, phase⟩

theorem removed_of_rm {s s' : Backup} {o : Option Effect} {name : Name} {todo : List Name}
    (hphase : s.phase = .remove name todo) (hstep : commandStep s (.rm true) = .ok (s', o)) :
    o = some (.removed name) := by
  rw [commandStep, hphase] at hstep
  cases hstep
  rfl

/-- Over a run the condition is one on the records that have been removed. -/
theorem removesStored_iff {pstore : Directory Name Content}
    {backups durable : Directory Name Archive}
    {seqFile : Option Name} {listing : List Name} {t : List (Command × Option Effect)} {s : Backup}
    (hrun : Run scriptMachine (.begun pstore backups durable seqFile listing) t s) :
    Always scriptMachine (.begun pstore backups durable seqFile listing) (t.map Prod.fst)
        (RemovesStored durable) ↔
      ∀ name content, Removed t name → pstore.lookup name = some content →
        Stored durable content := by
  rw [scriptMachine, Always.iff_of_run hrun]
  constructor
  · rintro h name content ⟨e, he, hremoved⟩ hname
    obtain ⟨pre, post, ht⟩ := List.append_of_mem he
    subst ht
    obtain ⟨q, q', hpre, hstep, -⟩ := hrun.middle
    have hq := traced_run hpre
    have hout : commandStep q e.1 = .ok (q', some (.removed name)) := hremoved ▸ hstep
    obtain ⟨hrm, todo, hphase⟩ := rm_of_removed hout
    have hhand := hq.inHand
    rw [hphase] at hhand
    obtain ⟨content', hthere, -⟩ := hhand
    have hsame : content' = content :=
      Option.some.inj ((hq.old name content' hthere).symm.trans hname)
    exact h pre e post q rfl hpre hrm name todo content hphase (hsame ▸ hthere)
  · intro h pre e post q ht hpre hrm name todo content hphase hthere
    subst ht
    obtain ⟨q1, q', hpre1, hstep, -⟩ := hrun.middle
    obtain ⟨-, rfl⟩ := Machine.run_det hpre hpre1 rfl
    have hrmStep : commandStep q (.rm true) = .ok (q', e.2) := hrm ▸ hstep
    exact h name content
      ⟨e, List.mem_append_right _ List.mem_cons_self, removed_of_rm hphase hrmStep⟩
      ((traced_run hpre).old name content hthere)

/-- A power loss leaves every record exactly when it comes after the end of the script or no source
was removed that was not stored before the script was started. -/
theorem records_survive_iff (pstore : Directory Name Content)
    (backups durable : Directory Name Archive) (seqFile : Option Name) (listing : List Name)
    {t : List (Command × Option Effect)} {s : Backup}
    (hrun : Run scriptMachine (.begun pstore backups durable seqFile listing) t s) :
    Survives pstore s ↔ .finish ∈ t.map Prod.fst ∨
      Always scriptMachine (.begun pstore backups durable seqFile listing) (t.map Prod.fst)
        (RemovesStored durable) := by
  have h := traced_run hrun
  rw [removesStored_iff hrun]
  constructor
  · intro hsurvives
    by_cases hin : .finish ∈ t.map Prod.fst
    · exact .inl hin
    · refine .inr fun name content hgone hname => ?_
      rcases hsurvives name content hname with hthere | hstored
      · rcases h.records name content hname with ⟨-, hnot⟩ | ⟨hnone, -⟩
        · exact absurd hgone hnot
        · rw [hnone] at hthere
          cases hthere
      · rwa [h.unsynced hin] at hstored
  · intro hcond name content hname
    rcases h.records name content hname with ⟨hthere, -⟩ | ⟨-, hgone, harch⟩
    · exact .inl hthere
    · refine .inr ?_
      by_cases hin : .finish ∈ t.map Prod.fst
      · rw [(h.synced hin).2 (h.saved name hgone)]
        exact harch.stored
      · rw [h.unsynced hin]
        exact (hcond.resolve_left hin) name content hgone hname

def oopsName : Name := "dmesg-ramoops-0".toList

/-- pstore with one record in it. -/
def oneRecord : Directory Name Content := AList.singleton oopsName [0x50]

/-- The record is archived and removed. -/
def savedOnce : List Command := [.nextSeq .ok, .gzip true 1, .mv true, .rm true]

theorem records_survive_to_end : ∃ t s,
    Run scriptMachine (.begun oneRecord ∅ ∅ none [oopsName]) t s ∧
      t.map Prod.fst = savedOnce ++ [.finish] ∧ Survives oneRecord s := by
  have hends : Machine.endsIn commandStep (.begun oneRecord ∅ ∅ none [oopsName])
      (savedOnce ++ [.finish]) (fun _ => true) = true := by decide +kernel
  obtain ⟨t, s, hrun, hinputs, -⟩ := Machine.run_of_endsIn hends
  refine ⟨t, s, hrun, hinputs, (records_survive_iff oneRecord ∅ ∅ none [oopsName] hrun).2 ?_⟩
  rw [hinputs]
  exact .inl (List.mem_append_right _ (List.mem_singleton_self _))

/-- Without the sync the record is lost. -/
theorem record_lost :
    ¬ ∀ (pstore : Directory Name Content) (backups durable : Directory Name Archive)
      (seqFile : Option Name) (listing : List Name) (t : List (Command × Option Effect))
      (s : Backup), Run scriptMachine (.begun pstore backups durable seqFile listing) t s →
      Survives pstore s := by
  intro hall
  have hends : Machine.endsIn commandStep (.begun oneRecord ∅ ∅ none [oopsName]) savedOnce
      (fun s => s.pstore.lookup oopsName = none ∧ s.durable.keys = []) = true := by decide +kernel
  obtain ⟨t, s, hrun, -, hlost⟩ := Machine.run_of_endsIn hends
  obtain ⟨hnone, hempty⟩ := of_decide_eq_true hlost
  rcases hall oneRecord ∅ ∅ none [oopsName] t s hrun oopsName [0x50] (by decide +kernel) with
    hthere | ⟨file, archive, hfile, -⟩
  · rw [hnone] at hthere
    cases hthere
  · have hmem : file ∈ s.durable.keys :=
      AList.mem_keys.2 (AList.lookup_isSome.1 (by rw [hfile]; rfl))
    rw [hempty] at hmem
    exact absurd hmem List.not_mem_nil

end ConfigEnv.Ramoops
