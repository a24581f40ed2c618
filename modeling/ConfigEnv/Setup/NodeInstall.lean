/-
Module: ConfigEnv.Setup.NodeInstall
Layer: Setup
Purpose: install_nodejs of my_config.sh with the files under its prefix. Every command and test is
  an input that succeeds or fails; the script runs under `set -e`, so a command that fails outside a
  test aborts it. A function that ends through `err` and one that is aborted are told apart. What is
  printed, the number of the version and the backups are left out.
Trusted boundary: the mv of the prefix is a rename within one directory, and one that fails has
  changed nothing. The stage is in /tmp, so its mv is a copy, and what one that fails has copied is
  left open. Onto a directory it copies below the name of the stage, and copies nothing if there are
  files of that name.
Main exports: Path, Files, Command, End, Step, runSteps, needInstall, stageSteps, checkSteps,
  prepare, mvPrefix, mvStage, Host, installNodejs
Open obligations: none
-/
import Mathlib.Tactic.Common

namespace ConfigEnv.Setup

/-- A file name, by its characters. -/
abbrev Name := List Char

/-- A path below a directory, name by name. -/
abbrev Path := List Name

/-- The files below a directory. -/
abbrev Files (κ : Type) := Path → Option κ

/-- The commands and tests, in the order of the script. -/
inductive Command where
  | mktempTmp
  | programExistsNode
  | nodeVersion
  | versionLt
  | forced
  | wget
  | notEmpty
  | tar
  | srcExists
  | mktempStage
  | rmStage
  | mkdirStage
  | cpStage
  | mvPrefix
  | mvStage
  | rmTmp
  | commandNode
  | npmVersion
deriving DecidableEq, Repr

/-- Which of them succeed. No two calls of `rm -rf "$TMP_DIR"` are made in one run. -/
abbrev Outcomes := Command → Bool

/-- How a function ends: it returns, or the script ends through `err`, or under `set -e`. -/
inductive End where
  | returned
  | err (message : String)
  | aborted
deriving DecidableEq, Repr

/-! ### Commands in a row -/

/-- A command with what the script does when it fails. -/
inductive Step where
  /-- A plain command. -/
  | run (c : Command)
  /-- `if ! c; then rm -rf "$TMP_DIR"; err message; fi` -/
  | orCleanup (c : Command) (message : String)
  /-- `if ! c; then err message; fi` -/
  | orErr (c : Command) (message : String)
deriving DecidableEq, Repr

/-- `rm -rf "$TMP_DIR"; err message`. -/
def cleanupErr (e : Outcomes) (message : String) : End :=
  if e .rmTmp = true then .err message else .aborted

/-- How the steps end the function, if they do. -/
def runSteps (e : Outcomes) : List Step → Option End
  | [] => none
  | .run c :: steps => if e c = true then runSteps e steps else some .aborted
  | .orCleanup c message :: steps =>
      if e c = true then runSteps e steps else some (cleanupErr e message)
  | .orErr c message :: steps => if e c = true then runSteps e steps else some (.err message)

/-- `NEED_INSTALL`, unless `node -v` fails. -/
def needInstall (e : Outcomes) : Option Bool :=
  if e .programExistsNode = false then some true
  else if e .nodeVersion = false then none
  else some (e .versionLt || e .forced)

/-- From the download to the copy into the stage. -/
def stageSteps : List Step :=
  [.orCleanup .wget "Download failed",
    .orCleanup .notEmpty "Downloaded file is empty",
    .orCleanup .tar "Extract failed",
    .orCleanup .srcExists "Extracted directory not found",
    .run .mktempStage,
    .run .rmStage,
    .run .mkdirStage,
    .orCleanup .cpStage "Copy to stage dir failed"]

/-- What follows the renames. -/
def checkSteps : List Step :=
  [.run .rmTmp,
    .orErr .commandNode "node not found after install",
    .orErr .npmVersion "npm not working after install"]

/-- How the function ends before the renames, if it does. -/
def prepare (e : Outcomes) : Option End :=
  if e .mktempTmp = false then some .aborted
  else
    match needInstall e with
    | none => some .aborted
    | some false => some (if e .rmTmp = true then .returned else .aborted)
    | some true => runSteps e stageSteps

/-! ### The renames -/

section Renames

variable {κ : Type}

/-- The prefix after `mv "$PREFIX" "${PREFIX}.bak..." || true`. -/
def mvPrefix (e : Outcomes) (dir : Option (Files κ)) : Option (Files κ) :=
  if e .mvPrefix = true then none else dir

/-- A directory copied below its name into another, which has no file there. -/
def mvInto (stage : Name) (files old : Files κ) : Files κ
  | [] => old []
  | name :: path => if name = stage then files path else old (name :: path)

/-- The prefix after `mv "$STAGE_DIR" "$PREFIX"` has copied some files, or not even a directory. It
goes into a prefix that is still there. -/
def mvStage (stage : Name) (copied : Option (Files κ)) : Option (Files κ) → Option (Files κ)
  | none => copied
  | some old =>
      match copied with
      | none => some old
      | some files => some (mvInto stage files old)

/-- What the function meets. `dir` is the directory under the prefix, if there is one, `dist` the
distribution in the stage, and `part` what a mv of the stage that fails has copied by then. -/
structure Host (κ : Type) where
  outcomes : Outcomes
  stage : Name
  dist : Files κ
  dir : Option (Files κ)
  part : Option (Files κ)
  /-- A mv into a prefix that has files of the name of the stage copies nothing. -/
  room : ∀ old, dir = some old → outcomes .mvPrefix = false →
    (outcomes .mvStage = true ∨ part ≠ none) → ∀ path, old (stage :: path) = none

/-- What the mv of the stage copies. -/
def Host.copied (host : Host κ) : Option (Files κ) :=
  if host.outcomes .mvStage = true then some host.dist else host.part

/-- The end of the function and the prefix then. -/
def installNodejs (host : Host κ) : End × Option (Files κ) :=
  match prepare host.outcomes with
  | some r => (r, host.dir)
  | none =>
      let dir := mvStage host.stage host.copied (mvPrefix host.outcomes host.dir)
      if host.outcomes .mvStage = false then (cleanupErr host.outcomes "Install failed (mv)", dir)
      else ((runSteps host.outcomes checkSteps).getD .returned, dir)

end Renames

end ConfigEnv.Setup
