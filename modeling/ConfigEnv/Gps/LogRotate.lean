/-
Module: ConfigEnv.Gps.LogRotate
Layer: Gps
Purpose: The directory of the recorder in main.c and the functions that look through it:
  `log_rotate`, which removes the oldest archive when there are many and starts gzip, and
  `get_log_filename`, which looks for a log to go on with or makes a name from the clock. A
  directory is a set of files under their names; `readdir` gives the names in an order of its own.
  The path of the directory has at most 63 characters, so that a name is cut at the end of a 128
  byte buffer only when it is long itself.
Trusted boundary: `localtime_r` is a parameter; gzip refuses a file that has the suffix of an
  archive already, and one whose archive would have a name that is taken
Main exports: LogFile, LogDir, FPath, filepath, isGz, isUbx, logRotate, logName, findLog,
  gzipAccepts, gzipName, rotationStep
Open obligations: none
-/
import ConfigEnv.Gps.Ubx
import ConfigEnv.Lib.Directory
import ConfigEnv.Lib.Run
import Mathlib.Data.List.Infix

namespace ConfigEnv.Gps

/-- `MAX_FILES`. -/
abbrev maxFiles : Nat := 50

/-- A file name, by its characters. -/
abbrev Name := List Char

/-- What `stat` says of a file; `ino` stands for its content. -/
structure LogFile where
  ino : Nat
  mtime : Int
  regular : Bool
deriving DecidableEq, Repr

/-- The directory of the logs. -/
abbrev LogDir := Directory Name LogFile

/-- `char fpath[64]` of `main`, the log directory. -/
abbrev FPath := { path : List Char // path.length < 64 }

/-- `snprintf(filepath, sizeof(filepath), "%s/%s", path, name)`: what is left of the name. -/
def filepath (path : FPath) (name : Name) : Name := name.take (127 - (path.1.length + 1))

/-! ### Names -/

/-- `strrchr(name, c)`. -/
def strrchr (c : Char) : Name → Option Name
  | [] => none
  | b :: name =>
      match strrchr c name with
      | some suffix => some suffix
      | none => if b = c then some (b :: name) else none

/-- The tests that both loops make of a name: it does not begin with a dot, and `pattern` is found
in what begins with its last dot. -/
def hasSuffix (pattern : Name) (name : Name) : Bool :=
  name.head? ≠ some '.' && (strrchr '.' name).any fun suffix => pattern <:+: suffix

/-- What the names of archives end in. -/
def gzSuffix : Name := ['.', 'g', 'z']

/-- What the names of logs end in. -/
def ubxSuffix : Name := ['.', 'u', 'b', 'x']

/-- The name is that of an archive. -/
def isGz (name : Name) : Bool := hasSuffix gzSuffix name

/-- The name is that of a log. -/
def isUbx (name : Name) : Bool := hasSuffix ubxSuffix name

/-! ### Rotation -/

/-- The variables of the loop in `log_rotate`. -/
structure ArchiveScan where
  fileCount : Nat
  oldestTime : Int
  oldestFile : Option Name
deriving DecidableEq, Repr

/-- A regular file with the suffix of an archive. -/
def ArchiveScan.add (s : ArchiveScan) (name : Name) (st : LogFile) : ArchiveScan :=
  if st.mtime < s.oldestTime then
    { fileCount := s.fileCount + 1, oldestTime := st.mtime, oldestFile := some name }
  else { s with fileCount := s.fileCount + 1 }

/-- One entry of the directory: a regular file with the name of an archive is counted. -/
def archiveScanStep (path : FPath) (dir : LogDir) (s : ArchiveScan) (name : Name) : ArchiveScan :=
  if isGz name = true then
    match dir.lookup (filepath path name) with
    | some st => if st.regular = true then s.add (filepath path name) st else s
    | none => s
  else s

/-- The loop in `log_rotate`, which begins with the time of the clock. -/
def scanArchives (path : FPath) (dir : LogDir) (now : Int) (listing : List Name) : ArchiveScan :=
  listing.foldl (archiveScanStep path dir) { fileCount := 0, oldestTime := now, oldestFile := none }

/-- The file that `log_rotate` removes. -/
def oldestArchive (path : FPath) (dir : LogDir) (now : Int) (listing : List Name) : Option Name :=
  if (scanArchives path dir now listing).fileCount ≥ maxFiles - 1 then
    (scanArchives path dir now listing).oldestFile
  else none

/-- What `log_rotate` does to the directory before it starts gzip. -/
def logRotate (path : FPath) (dir : LogDir) (now : Int) (listing : List Name) : LogDir :=
  match oldestArchive path dir now listing with
  | some name => dir.erase name
  | none => dir

/-! ### gzip -/

/-- The name of the archive. -/
def gzipName (file : Name) : Name := file ++ gzSuffix

/-- gzip takes a regular file that is no archive yet, if the name of its archive is free. -/
def gzipAccepts (dir : LogDir) (file : Name) : Bool :=
  (dir.lookup file).any (·.regular) && ! decide (gzSuffix <:+ file) &&
    (dir.lookup (gzipName file)).isNone

/-! ### Calls of `log_rotate` -/

/-- The directory, and the file that gzip is at work on. -/
structure Rotation where
  dir : LogDir
  gzip : Option Name

/-- A call of `log_rotate`, with the clock, the order of the directory and whether `fork` succeeds;
the end of gzip, which may fail; a change of a modification time; a new file that is no archive. -/
inductive RotationEvent where
  | rotate (now : Int) (listing : List Name) (file : Name) (forked : Bool)
  | gzip (ok : Bool) (archive : LogFile)
  | touch (name : Name) (mtime : Int)
  | create (name : Name) (st : LogFile)

/-- One step; the output is the name of a removed archive with the directory it was removed from. -/
def rotationStep (path : FPath) (s : Rotation) :
    RotationEvent → Except Unit (Rotation × Option (Name × LogDir))
  | .rotate now listing file forked =>
      if s.gzip = none ∧ listing.Perm s.dir.keys then
        .ok (
          { dir := logRotate path s.dir now listing, gzip := if forked then some file else none },
          (oldestArchive path s.dir now listing).map (·, s.dir))
      else .error ()
  | .gzip ok archive =>
      match s.gzip with
      | some file =>
          if ok = true ∧ gzipAccepts s.dir file = true then
            .ok ({ dir := (s.dir.erase file).insert (gzipName file) archive, gzip := none }, none)
          else .ok ({ s with gzip := none }, none)
      | none => .error ()
  | .touch name mtime =>
      match s.dir.lookup name with
      | some st => .ok ({ s with dir := s.dir.insert name { st with mtime := mtime } }, none)
      | none => .error ()
  | .create name st =>
      if isGz name = false ∧ s.dir.lookup name = none then
        .ok ({ s with dir := s.dir.insert name st }, none)
      else .error ()

/-- The calls as a transition relation. -/
def rotationMachine (path : FPath) : Machine.Step Rotation RotationEvent (Option (Name × LogDir)) :=
  Machine.ofExcept (rotationStep path)

/-! ### Names of logs -/

/-- `struct tm`. -/
structure Tm where
  tmYear : Nat
  tmMon : Nat
  tmMday : Nat
  tmHour : Nat
  tmMin : Nat
  tmSec : Nat

/-- `%02d` of a number below 100. -/
def twoDigits (n : Nat) : Name := [Nat.digitChar (n / 10 % 10), Nat.digitChar (n % 10)]

/-- `strftime` with `"%y%m%d_%H%M%S.ubx"`. -/
def logName (tm : Tm) : Name :=
  twoDigits tm.tmYear ++ twoDigits (tm.tmMon + 1) ++ twoDigits tm.tmMday ++ ['_'] ++
    twoDigits tm.tmHour ++ twoDigits tm.tmMin ++ twoDigits tm.tmSec ++ ubxSuffix

/-- The loop in `get_log_filename`: `mtime` is the latest time seen, `size` the length of a content.
-/
def findLog (path : FPath) (dir : LogDir) (size : Nat → Nat) (logSize : Int) (mtime : Int) :
    List Name → Option (Name × Nat)
  | [] => none
  | name :: listing =>
      if isUbx name = true then
        match dir.lookup (filepath path name) with
        | some st =>
            if st.regular = true ∧ st.mtime > mtime then
              if (size st.ino : Int) < logSize then some (filepath path name, size st.ino)
              else findLog path dir size logSize st.mtime listing
            else findLog path dir size logSize mtime listing
        | none => findLog path dir size logSize mtime listing
      else findLog path dir size logSize mtime listing

end ConfigEnv.Gps
