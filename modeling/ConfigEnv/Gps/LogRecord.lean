/-
Module: ConfigEnv.Gps.LogRecord
Layer: Gps
Purpose: `gnss_log_record` of main.c with the directory that it writes to and the gzip processes
  that it leaves behind. A byte from the serial port is marked with its place in what has been read;
  a content stays as long as someone has its file open, also without a name. gzip takes two steps:
  it reads its file and makes the archive, and later it removes the file. The steps of the recorder
  are a round of its loop and, when the log is full, the rotation and the opening of the next log.
Trusted boundary: writes to the directory do not fail
Main exports: LoggedByte, Gzip, Recorder, RecordEvent, recordStep, OldLogs
Open obligations: none
-/
import ConfigEnv.Gps.LogRotate
import Mathlib.Logic.Function.Basic

namespace ConfigEnv.Gps

/-- A byte of a file, with its place among the bytes read; an old byte has none. -/
structure LoggedByte where
  pos : Option Nat
  val : u8
deriving DecidableEq, Repr

/-- Bytes that are read when `n` have been read before. -/
def marked (n : Nat) (buf : List u8) : List LoggedByte :=
  (buf.zipIdx n).map fun b => { pos := some b.2, val := b.1 }

/-- A gzip process: whether it has made the archive of its file. -/
structure Gzip where
  file : Name
  copied : Bool
deriving DecidableEq, Repr

/-- Where the recorder stands: before `get_log_filename`, in its loop, in the branch for a full log
before `log_rotate` and behind it, at its end. -/
inductive RecordPhase where
  | start
  | reading
  | full
  | rotated
  | finished
deriving DecidableEq, Repr

/-- The directory with the contents of its files, the variables of `gnss_log_record`, the bytes in
the buffer of `fp`, the gzip processes, what has been read, and the contents of removed archives. -/
structure Recorder where
  dir : LogDir
  data : Nat → List LoggedByte
  nextIno : Nat
  phase : RecordPhase
  file : Name
  fp : Option Nat
  buffered : List LoggedByte
  fsize : u32
  gzips : List Gzip
  stream : List u8
  removed : List (List LoggedByte)

/-- `listing` is the order of the directory, or none when `opendir` fails. In `read` the stream
passes `flushed` bytes on to the file. -/
inductive RecordEvent where
  | start (now : Int) (listing : Option (List Name)) (opened : Bool)
  | read (buf : List u8) (flushed : Nat)
  | exit
  | rotate (now : Int) (listing : Option (List Name)) (forked : Bool)
  | reopen (now : Int) (opened : Bool)
  | gzip (process : Gzip) (mtime : Int)
  | touch (name : Name) (mtime : Int)

namespace Recorder

/-- `fwrite`. -/
def fwrite (s : Recorder) (buf : List u8) : Recorder :=
  { s with
    buffered := s.buffered ++ marked s.stream.length buf
    stream := s.stream ++ buf }

/-- The first `n` bytes of the buffer reach the file. -/
def flush (s : Recorder) (n : Nat) : Recorder :=
  match s.fp with
  | some ino =>
      { s with
        data := Function.update s.data ino (s.data ino ++ s.buffered.take n)
        buffered := s.buffered.drop n }
  | none => s

/-- `fclose`: what is buffered is written, and the file is closed. -/
def fclose (s : Recorder) : Recorder :=
  { s.flush s.buffered.length with fp := none }

/-- `fopen(file, "a+")`. -/
def fopen (s : Recorder) (file : Name) (now : Int) (opened : Bool) : Recorder :=
  if opened = true then
    match s.dir.lookup file with
    | some st => { s with file := file, fp := if st.regular = true then some st.ino else none }
    | none =>
        { s with
          dir := s.dir.insert file { ino := s.nextIno, mtime := now, regular := true }
          data := Function.update s.data s.nextIno []
          nextIno := s.nextIno + 1
          file := file
          fp := some s.nextIno }
  else { s with file := file }

/-- Without a file the recorder ends. -/
def record (s : Recorder) : Recorder :=
  { s with phase := if s.fp = none then .finished else .reading }

/-- The removal of the oldest archive. -/
def removeOldest (path : FPath) (s : Recorder) (now : Int) (listing : List Name) : Recorder :=
  { s with
    dir := logRotate path s.dir now listing
    removed := s.removed ++
      ((oldestArchive path s.dir now listing).bind s.dir.lookup).toList.map
        fun st => s.data st.ino }

/-- `fork`, and gzip for the log in the child. -/
def fork (s : Recorder) (forked : Bool) : Recorder :=
  if forked = true then { s with gzips := s.gzips ++ [{ file := s.file, copied := false }] } else s

/-- gzip makes the archive of its file. -/
def gzipCopy (s : Recorder) (process : Gzip) (st : LogFile) (mtime : Int) : Recorder :=
  { s with
    dir := s.dir.insert (gzipName process.file)
      { ino := s.nextIno, mtime := mtime, regular := true }
    data := Function.update s.data s.nextIno (s.data st.ino)
    nextIno := s.nextIno + 1
    gzips := { process with copied := true } :: s.gzips.erase process }

/-- A step of a gzip process. -/
def gzip (s : Recorder) (process : Gzip) (mtime : Int) : Recorder :=
  if process.copied = true then
    { s with dir := s.dir.erase process.file, gzips := s.gzips.erase process }
  else
    match s.dir.lookup process.file with
    | some st =>
        if gzipAccepts s.dir process.file = true then s.gzipCopy process st mtime
        else { s with gzips := s.gzips.erase process }
    | none => { s with gzips := s.gzips.erase process }

/-- The name for a new log. -/
def newLog (path : FPath) (localtime : Int → Tm) (now : Int) : Name :=
  filepath path (logName (localtime now))

/-- `get_log_filename` with `new_file` 0, on the directory as `readdir` lists it. -/
def firstLog (path : FPath) (localtime : Int → Tm) (logSize : u32) (s : Recorder) (now : Int)
    (listing : Option (List Name)) : Name × Nat :=
  match listing.bind (findLog path s.dir (fun ino => (s.data ino).length) logSize.toInt 0) with
  | some found => found
  | none => (newLog path localtime now, 0)

end Recorder

open Recorder in
/-- One step; an event that cannot happen now is an error. -/
def recordStep (path : FPath) (localtime : Int → Tm) (logSize : u32) (s : Recorder) :
    RecordEvent → Except Unit (Recorder × Unit)
  | .start now listing opened =>
      if s.phase = .start ∧ ∀ names ∈ listing, names.Perm s.dir.keys then
        let (file, size) := s.firstLog path localtime logSize now listing
        .ok ({ s.fopen file now opened with fsize := BitVec.ofNat 32 size }.record, ())
      else .error ()
  | .read buf flushed =>
      if s.phase = .reading ∧ buf.length ≤ 2048 then
        let fsize := s.fsize + BitVec.ofNat 32 buf.length
        .ok ({ (s.fwrite buf).flush flushed with
          fsize := fsize, phase := if buf ≠ [] ∧ fsize > logSize then .full else .reading }, ())
      else .error ()
  | .exit =>
      if s.phase = .reading then .ok ({ s.fclose with phase := .finished }, ()) else .error ()
  | .rotate now listing forked =>
      if s.phase = .full then
        match listing with
        | none => .ok ({ s.fclose with phase := .rotated }, ())
        | some names =>
            if names.Perm s.dir.keys then
              .ok ({ (s.fclose.removeOldest path now names).fork forked with
                phase := .rotated }, ())
            else .error ()
      else .error ()
  | .reopen now opened =>
      if s.phase = .rotated then
        .ok ({ s.fopen (newLog path localtime now) now opened with fsize := 0 }.record, ())
      else .error ()
  | .gzip process mtime =>
      if process ∈ s.gzips then .ok (s.gzip process mtime, ()) else .error ()
  | .touch name mtime =>
      match s.dir.lookup name with
      | some st => .ok ({ s with dir := s.dir.insert name { st with mtime := mtime } }, ())
      | none => .error ()

/-- The recorder as a transition relation. -/
def recordMachine (path : FPath) (localtime : Int → Tm) (logSize : u32) :
    Machine.Step Recorder RecordEvent Unit :=
  Machine.ofExcept (recordStep path localtime logSize)

/-- A directory as the recorder finds it: different names, different contents, none of it read from
the serial port. -/
structure OldLogs where
  dir : LogDir
  data : Nat → List LoggedByte
  nextIno : Nat
  ino_lt : ∀ name st, dir.lookup name = some st → st.ino < nextIno
  ino_inj : ∀ name name' st st', dir.lookup name = some st → dir.lookup name' = some st' →
    st.ino = st'.ino → name = name'
  old : ∀ ino, ∀ b ∈ data ino, b.pos = none

/-- The state in which the thread starts. -/
def OldLogs.recorder (old : OldLogs) : Recorder :=
  { dir := old.dir, data := old.data, nextIno := old.nextIno, phase := .start, file := []
    fp := none, buffered := [], fsize := 0, gzips := [], stream := [], removed := [] }

end ConfigEnv.Gps
