/-
Module: ConfigEnv.Proofs.InstallFailure
Layer: Proofs
Purpose: What install_nodejs leaves of the directory under its prefix. Up to the renames every
  failure leaves it as it was. The first rename moves the whole directory away and nothing moves it
  back: after it an error leaves no directory, a part of one or another one, and success leaves only
  the files of the distribution.
Trusted boundary: none
Main exports: LeavesPrefix, installed, reachesRenames, Restored, Unharmed, mvInto_eq_iff,
  mvStage_eq_iff, mvStage_keeps_iff, runSteps_eq_none_iff, prepare_eq_none_iff, install_of_prepare,
  install_of_renames, renamesEnd_cases, leaves_prefix_iff
Open obligations: none
-/
import ConfigEnv.Setup.NodeInstall

namespace ConfigEnv.Setup

variable {κ : Type} {e : Outcomes} {host : Host κ} {old files : Files κ}

/-! ### What the function should leave -/

/-- An end through `err` leaves the prefix as it was; a normal end leaves every file there that is
not one of the distribution. -/
structure LeavesPrefix (host : Host κ) : Prop where
  onErr : ∀ message, (installNodejs host).1 = .err message → (installNodejs host).2 = host.dir
  onReturn : (installNodejs host).1 = .returned →
    ∀ old, host.dir = some old → ∀ path content, old path = some content →
      host.dist path = none → ∃ new, (installNodejs host).2 = some new ∧ new path = some content

/-! ### When it does -/

/-- The stage is moved, and both checks after it succeed. -/
def installed (e : Outcomes) : Bool := e .mvStage && e .commandNode && e .npmVersion

/-- The command of a step, whatever follows its failure. -/
def Step.command : Step → Command
  | .run c => c
  | .orCleanup c _ => c
  | .orErr c _ => c

/-- Node has to be installed, and every command up to the renames succeeds. -/
def reachesRenames (e : Outcomes) : Bool :=
  e .mktempTmp && (!e .programExistsNode || e .nodeVersion && (e .versionLt || e .forced)) &&
    stageSteps.all fun s => e s.command

/-- What is copied of the stage stands for what was there before: nothing where there was nothing,
the same files where the prefix was moved away, and no file where it was not. -/
def Restored (host : Host κ) : Prop :=
  match host.dir with
  | none => host.copied = none
  | some old =>
      if host.outcomes .mvPrefix = true then host.copied = some old
      else ∀ files, host.copied = some files → ∀ path, files path = none

/-- The condition on what is there before, and on which commands succeed. -/
def Unharmed (host : Host κ) : Prop :=
  -- The function ends before the renames, or is aborted behind them.
  reachesRenames host.outcomes = false ∨ host.outcomes .rmTmp = false ∨
  -- All succeeds; there was no prefix, it stayed, or all its files are in the distribution.
  (installed host.outcomes = true ∧ ∀ old, host.dir = some old →
    host.outcomes .mvPrefix = false ∨ ∀ path, host.dist path = none → old path = none) ∨
  -- The second rename or a check fails.
  (installed host.outcomes = false ∧ Restored host)

/-! ### The renames -/

/-- Moving the stage into a directory keeps what is in it. -/
theorem mvInto_of_some {stage : Name} {path : Path} {content : κ}
    (hroom : ∀ path, old (stage :: path) = none) (h : old path = some content) :
    mvInto stage files old path = some content := by
  cases path with
  | nil => exact h
  | cons name path =>
      have hname : name ≠ stage := by
        rintro rfl
        rw [hroom] at h
        cases h
      rw [mvInto, if_neg hname, h]

/-- Copying into a directory adds nothing exactly if there are no files. -/
theorem mvInto_eq_iff {stage : Name} (hroom : ∀ path, old (stage :: path) = none) :
    mvInto stage files old = old ↔ ∀ path, files path = none := by
  constructor
  · intro h path
    have hpath := congrFun h (stage :: path)
    rwa [mvInto, if_pos rfl, hroom] at hpath
  · intro h
    funext path
    cases path with
    | nil => rfl
    | cons name path =>
        rw [mvInto]
        split
        · next hname =>
            subst hname
            rw [h, hroom]
        · rfl

theorem Host.room_of_copied {files : Files κ} (hdir : host.dir = some old)
    (hmv : ¬ host.outcomes .mvPrefix = true) (hcopied : host.copied = some files) (path : Path) :
    old (host.stage :: path) = none := by
  apply host.room old hdir (eq_false_of_ne_true hmv)
  rw [Host.copied] at hcopied
  split at hcopied
  · next hstage => exact .inl hstage
  · exact .inr (by rw [hcopied]; exact Option.some_ne_none files)

/-- The second rename gives back what was there exactly in this case. -/
theorem mvStage_eq_iff :
    mvStage host.stage host.copied (mvPrefix host.outcomes host.dir) = host.dir ↔
      Restored host := by
  rw [Restored, mvPrefix]
  cases hdir : host.dir with
  | none => simp [mvStage]
  | some old =>
      split
      · exact Iff.rfl
      · next hmv =>
          cases hcopied : host.copied with
          | none => exact iff_of_true rfl (by rintro files ⟨⟩)
          | some files =>
              have hroom := Host.room_of_copied hdir hmv hcopied
              simp [mvStage, mvInto_eq_iff hroom]

/-- Files outside the distribution stay exactly if the first rename fails or there are none. -/
theorem mvStage_keeps_iff {new : Files κ} (hdir : host.dir = some old)
    (hstage : host.outcomes .mvStage = true)
    (hnew : mvStage host.stage host.copied (mvPrefix host.outcomes host.dir) = some new) :
    (∀ path content, old path = some content → host.dist path = none →
        new path = some content) ↔
      host.outcomes .mvPrefix = false ∨ ∀ path, host.dist path = none → old path = none := by
  have hcopied : host.copied = some host.dist := if_pos hstage
  rw [hcopied, hdir, mvPrefix] at hnew
  split at hnew
  · next hmv =>
      cases hnew
      rw [hmv, or_iff_right (by decide)]
      constructor
      · intro h path hdist
        cases hold : old path with
        | none => rfl
        | some content => exact (h path content hold hdist).symm.trans hdist
      · intro h path content hold hdist
        rw [h path hdist] at hold
        cases hold
  · next hmv =>
      cases hnew
      have hroom := Host.room_of_copied hdir hmv hcopied
      exact iff_of_true (fun path content hold _ => mvInto_of_some hroom hold)
        (.inl (eq_false_of_ne_true hmv))

/-! ### The ends of the function -/

/-- The steps end without an error exactly when every command succeeds. -/
theorem runSteps_eq_none_iff (steps : List Step) :
    runSteps e steps = none ↔ steps.all (fun s => e s.command) = true := by
  induction steps with
  | nil => exact iff_of_true rfl rfl
  | cons s steps ih =>
      rw [List.all_cons, Bool.and_eq_true, ← ih]
      cases s <;> rw [runSteps, Step.command] <;> split <;> simp_all

/-- The preparation ends without an error exactly when the renames are reached. -/
theorem prepare_eq_none_iff : prepare e = none ↔ reachesRenames e = true := by
  rw [prepare, reachesRenames, Bool.and_eq_true, ← runSteps_eq_none_iff, needInstall]
  cases e .mktempTmp <;> cases e .programExistsNode <;> cases e .nodeVersion <;>
    cases e .versionLt <;> cases e .forced <;> simp

/-- An installation that ends before the renames leaves the directory as it is. -/
theorem install_of_prepare {r : End} (h : prepare host.outcomes = some r) :
    installNodejs host = (r, host.dir) := by
  rw [installNodejs, h]

/-- How the function ends once the renames are reached. -/
def renamesEnd (e : Outcomes) : End :=
  if e .mvStage = false then cleanupErr e "Install failed (mv)"
  else (runSteps e checkSteps).getD .returned

/-- An installation that reaches the renames is these two. -/
theorem install_of_renames (h : prepare host.outcomes = none) :
    installNodejs host = (renamesEnd host.outcomes,
      mvStage host.stage host.copied (mvPrefix host.outcomes host.dir)) := by
  rw [installNodejs, h, renamesEnd]
  dsimp only
  split <;> rfl

/-- It returns after a full installation, and ends through `err` otherwise. -/
theorem renamesEnd_cases (hrm : e .rmTmp = true) :
    (installed e = true → renamesEnd e = .returned) ∧
      (installed e = false → ∃ message, renamesEnd e = .err message) := by
  rw [renamesEnd, installed, cleanupErr, if_pos hrm, checkSteps, runSteps, if_pos hrm, runSteps,
    runSteps]
  cases e .mvStage with
  | false => exact ⟨by rintro ⟨⟩, fun _ => ⟨_, rfl⟩⟩
  | true =>
      cases e .commandNode with
      | false => exact ⟨by rintro ⟨⟩, fun _ => ⟨_, rfl⟩⟩
      | true =>
          cases e .npmVersion with
          | false => exact ⟨by rintro ⟨⟩, fun _ => ⟨_, rfl⟩⟩
          | true => exact ⟨fun _ => rfl, by rintro ⟨⟩⟩

/-- Without the removal of the download the script is aborted. -/
theorem renamesEnd_aborted (hrm : e .rmTmp = false) : renamesEnd e = .aborted := by
  rw [renamesEnd, cleanupErr, hrm, checkSteps, runSteps, hrm]
  split <;> rfl

/-! ### The result -/

/-- An aborted script leaves what it leaves. -/
theorem leavesPrefix_of_aborted (h : (installNodejs host).1 = .aborted) : LeavesPrefix host := by
  refine ⟨fun message herr => ?_, fun hreturned => ?_⟩
  · rw [h] at herr
    cases herr
  · rw [h] at hreturned
    cases hreturned

/-- After an error, the prefix is left exactly when the directory is as it was. -/
theorem leavesPrefix_of_err {message : String} {new : Option (Files κ)}
    (h : installNodejs host = (.err message, new)) : LeavesPrefix host ↔ new = host.dir := by
  constructor
  · intro hleaves
    have hdir := hleaves.onErr message (by rw [h])
    rwa [h] at hdir
  · rintro rfl
    refine ⟨fun _ _ => by rw [h], fun hreturned => ?_⟩
    rw [h] at hreturned
    cases hreturned

/-- After a success, the prefix is left exactly when every file is kept that the new version has
not. -/
theorem leavesPrefix_of_returned {new : Files κ}
    (h : installNodejs host = (.returned, some new)) :
    LeavesPrefix host ↔ ∀ old, host.dir = some old → ∀ path content,
      old path = some content → host.dist path = none → new path = some content := by
  constructor
  · intro hleaves old hdir path content hold hdist
    obtain ⟨new', hnew, hpath⟩ := hleaves.onReturn (by rw [h]) old hdir path content hold hdist
    rw [h] at hnew
    cases hnew
    exact hpath
  · intro hkeeps
    refine ⟨fun message herr => ?_, fun _ old hdir path content hold hdist => ?_⟩
    · rw [h] at herr
      cases herr
    · exact ⟨new, by rw [h], hkeeps old hdir path content hold hdist⟩

theorem mvStage_of_copied {stage : Name} (copied : Files κ) (moved : Option (Files κ)) :
    ∃ new, mvStage stage (some copied) moved = some new := by
  cases moved with
  | none => exact ⟨_, rfl⟩
  | some old => exact ⟨_, rfl⟩

/-- A full installation keeps the other files exactly if it keeps the prefix or there are none. -/
theorem leavesPrefix_of_installed (hstage : host.outcomes .mvStage = true)
    (h : installNodejs host = (.returned,
      mvStage host.stage host.copied (mvPrefix host.outcomes host.dir))) :
    LeavesPrefix host ↔ ∀ old, host.dir = some old →
      host.outcomes .mvPrefix = false ∨ ∀ path, host.dist path = none → old path = none := by
  obtain ⟨new, hnew⟩ : ∃ new,
      mvStage host.stage host.copied (mvPrefix host.outcomes host.dir) = some new := by
    rw [show host.copied = some host.dist from if_pos hstage]
    exact mvStage_of_copied host.dist _
  rw [hnew] at h
  rw [leavesPrefix_of_returned h]
  exact forall_congr' fun old => forall_congr' fun hdir => mvStage_keeps_iff hdir hstage hnew

/-- A failed installation leaves the prefix alone, and a good one keeps the other files, exactly in
these cases. -/
theorem leaves_prefix_iff (host : Host κ) : LeavesPrefix host ↔ Unharmed host := by
  cases hprepare : prepare host.outcomes with
  | some r =>
      have hends : reachesRenames host.outcomes = false := by
        refine eq_false_of_ne_true fun h => ?_
        rw [prepare_eq_none_iff.2 h] at hprepare
        cases hprepare
      have hinstall := install_of_prepare hprepare
      refine iff_of_true ⟨fun _ _ => by rw [hinstall], fun _ old hdir path content hold _ => ?_⟩
        (.inl hends)
      exact ⟨old, by rw [hinstall, hdir], hold⟩
  | none =>
      have hreaches := prepare_eq_none_iff.1 hprepare
      have hinstall := install_of_renames hprepare
      cases hrm : host.outcomes .rmTmp with
      | false =>
          rw [renamesEnd_aborted hrm] at hinstall
          exact iff_of_true (leavesPrefix_of_aborted (by rw [hinstall])) (.inr (.inl hrm))
      | true =>
          obtain ⟨hgood, hbad⟩ := renamesEnd_cases hrm
          cases hinstalled : installed host.outcomes with
          | true =>
              have hstage : host.outcomes .mvStage = true := by
                rw [installed, Bool.and_eq_true, Bool.and_eq_true] at hinstalled
                exact hinstalled.1.1
              rw [hgood hinstalled] at hinstall
              rw [leavesPrefix_of_installed hstage hinstall]
              simp [Unharmed, hreaches, hrm, hinstalled]
          | false =>
              obtain ⟨message, hmessage⟩ := hbad hinstalled
              rw [hmessage] at hinstall
              rw [leavesPrefix_of_err hinstall, mvStage_eq_iff]
              simp [Unharmed, hreaches, hrm, hinstalled]

/-- A directory with one file. -/
def oneFile (path : Path) : Files ℕ := fun p => if p = path then some 0 else none

/-- No Node in the path, a file of another package, and a mv of the stage that fails at once. -/
def brokenHost : Host ℕ where
  outcomes c := c ≠ .mvStage ∧ c ≠ .programExistsNode
  stage := "node-stage-a1b2".toList
  dist := oneFile ["bin".toList, "node".toList]
  dir := some (oneFile ["bin".toList, "tool".toList])
  part := none
  room := by
    intro old _ hmv
    cases hmv

theorem failed_rename_loses_prefix : ¬ ∀ host : Host ℕ, LeavesPrefix host := by
  intro hall
  have hdir := (hall brokenHost).onErr "Install failed (mv)" (by decide)
  cases hdir

end ConfigEnv.Setup
