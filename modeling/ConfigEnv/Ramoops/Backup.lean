/-
Module: ConfigEnv.Ramoops.Backup
Layer: Ramoops
Purpose: ramoops-backup.sh, which moves the crash records of pstore to numbered archives. A command
  of the script that can fail is a step of its own, with its outcome; an error of the shell in the
  arithmetic of `next_seq` ends the subshell that it runs in. Files that have been written or
  renamed are safe from a power loss when a sync has completed, a removal from pstore is immediate.
  Between runs the kernel adds records. The log file of the script is left out.
Trusted boundary: in an arithmetic expansion a constant with a leading 0 is octal, and a digit 8 or
  9 in it is an error
Main exports: Content, Archive, seqText, seqNumber, nextSeq, dstName, Phase, Backup, Command,
  commandStep, Performs, commandStep_performs, scriptMachine, Event, historyStep, historyMachine
Open obligations: none
-/
import ConfigEnv.Lib.Directory
import ConfigEnv.Lib.Run
import Mathlib.Data.List.DropRight

namespace ConfigEnv.Ramoops

/-- `MAX_SIZE`. -/
abbrev maxSize : Nat := 41943040

/-- A file name, by its characters. -/
abbrev Name := List Char

/-- The bytes of a file. -/
abbrev Content := List (BitVec 8)

/-- A file of the backup directory: the record that it is a whole archive of. -/
structure Archive where
  record : Option Content
  size : Nat
deriving DecidableEq, Repr

/-! ### The sequence number -/

/-- `printf '%04d'`. -/
def seqText (n : Nat) : Name :=
  List.replicate (4 - (Nat.toDigits 10 n).length) '0' ++ Nat.toDigits 10 n

/-- A blank between words. -/
def isBlank (c : Char) : Bool := c = ' ' || c = '\t'

/-- `read -r _seq` from the file: its first line, without the blanks around it. -/
def readLine (text : Name) : Name :=
  ((text.takeWhile (· ≠ '\n')).dropWhile isBlank).rdropWhile isBlank

/-- The number that digits stand for in a base. -/
def digitsValue (base : Nat) (digits : Name) : Nat :=
  digits.foldl (fun n c => base * n + (c.toNat - '0'.toNat)) 0

/-- The value of a variable in `$((_seq + 1))`. -/
def arithConst : Name → Option Nat
  | '0' :: digits =>
      if digits.all (fun c => c ≠ '8' && c ≠ '9') = true then some (digitsValue 8 digits) else none
  | digits => some (digitsValue 10 digits)

/-- The next number in `next_seq`, or none when the arithmetic fails; `text` is the sequence file.
-/
def seqNumber (text : Option Name) : Option Nat :=
  let seq : Name := if text.getD [] ≠ [] then readLine (text.getD []) else ['0']
  if seq = [] ∨ seq.all Char.isDigit = false then some 1 else (arithConst seq).map (· + 1)

/-- `next_seq` when its write succeeds: what it prints, or none when it fails, and the sequence file
afterwards. -/
def nextSeq (text : Option Name) : Option Name × Option Name :=
  match seqNumber text with
  | some n => (some (seqText n), some (seqText n ++ ['\n']))
  | none => (none, text)

/-- What happens to `printf '%04d\n' "$_seq" > "$SEQ_FILE"`: the file cannot be opened, or it has
been emptied when the write fails. -/
inductive SeqWrite where
  | ok
  | openFails
  | writeFails
deriving DecidableEq, Repr

/-- `"${seq}_${name}.gz"`. -/
def dstName (seq name : Name) : Name := seq ++ '_' :: (name ++ ['.', 'g', 'z'])

/-! ### A run of the script -/

/-- Where the script stands: outside a run, at the head of the loop, before `gzip`, before `mv` with
the temporary file, before `rm` of the source. -/
inductive Phase where
  | idle
  | records (todo : List Name)
  | compress (name seq : Name) (todo : List Name)
  | rename (name seq : Name) (tmp : Archive) (todo : List Name)
  | remove (name : Name) (todo : List Name)
deriving DecidableEq, Repr

/-- The two directories, the backup directory as a power loss would leave it, the sequence file, and
the script. -/
structure Backup where
  pstore : Directory Name Content
  backups : Directory Name Archive
  durable : Directory Name Archive
  seqFile : Option Name
  phase : Phase
  saved : Bool

/-- The commands with their outcomes; `size` is that of the temporary file. -/
inductive Command where
  | nextSeq (write : SeqWrite)
  | gzip (ok : Bool) (size : Nat)
  | mv (ok : Bool)
  | rm (ok : Bool)
  | finish
deriving DecidableEq, Repr

/-- A destination of `mv` and whether a file has that name, or a record that was removed. -/
inductive Effect where
  | destination (dst : Name) (taken : Bool)
  | removed (name : Name)
deriving DecidableEq, Repr

/-- One command; one that is not the script's next is an error. -/
def commandStep (s : Backup) : Command → Except Unit (Backup × Option Effect)
  | .nextSeq write =>
      match s.phase with
      | .records (name :: todo) =>
          match s.pstore.lookup name, seqNumber s.seqFile with
          | some _, some n =>
              match write with
              | .ok =>
                  .ok ({ s with
                    seqFile := some (seqText n ++ ['\n'])
                    phase := .compress name (seqText n) todo }, none)
              | .openFails => .ok ({ s with phase := .records todo }, none)
              | .writeFails =>
                  .ok ({ s with seqFile := some [], phase := .records todo }, none)
          | _, _ => .ok ({ s with phase := .records todo }, none)
      | _ => .error ()
  | .gzip ok size =>
      match s.phase with
      | .compress name seq todo =>
          if ok = true ∧ size > 0 then
            .ok ({ s with
              phase :=
                .rename name seq { record := s.pstore.lookup name, size := size } todo }, none)
          else .ok ({ s with phase := .records todo }, none)
      | _ => .error ()
  | .mv ok =>
      match s.phase with
      | .rename name seq tmp todo =>
          let dst := dstName seq name
          let effect := some (.destination dst (s.backups.lookup dst).isSome)
          if ok = true then
            .ok ({ s with backups := s.backups.insert dst tmp, phase := .remove name todo }, effect)
          else .ok ({ s with phase := .records todo }, effect)
      | _ => .error ()
  | .rm ok =>
      match s.phase with
      | .remove name todo =>
          if ok = true then
            .ok ({ s with
              pstore := s.pstore.erase name, phase := .records todo, saved := true },
              some (.removed name))
          else .ok ({ s with phase := .records todo, saved := true }, none)
      | _ => .error ()
  | .finish =>
      match s.phase with
      | .records [] =>
          if s.saved = true then .ok ({ s with durable := s.backups, phase := .idle }, none)
          else .ok ({ s with phase := .idle }, none)
      | _ => .error ()

/-- The ways in which a command can end, with what the script had in hand before it. -/
inductive Performs (s : Backup) : Command → Backup → Option Effect → Prop where
  | numbered {name : Name} {todo : List Name} {content : Content} {n : Nat}
      (phase : s.phase = .records (name :: todo)) (here : s.pstore.lookup name = some content)
      (number : seqNumber s.seqFile = some n) :
      Performs s (.nextSeq .ok) { s with
        seqFile := some (seqText n ++ ['\n']), phase := .compress name (seqText n) todo } none
  | emptied {name : Name} {todo : List Name} {n : Nat} (phase : s.phase = .records (name :: todo))
      (number : seqNumber s.seqFile = some n) :
      Performs s (.nextSeq .writeFails) { s with seqFile := some [], phase := .records todo } none
  | skipped {name : Name} {todo : List Name} {write : SeqWrite}
      (phase : s.phase = .records (name :: todo))
      (without : write = .ok → s.pstore.lookup name = none ∨ seqNumber s.seqFile = none) :
      Performs s (.nextSeq write) { s with phase := .records todo } none
  | compressed {name seq : Name} {todo : List Name} {size : Nat}
      (phase : s.phase = .compress name seq todo) :
      Performs s (.gzip true size) { s with
        phase := .rename name seq { record := s.pstore.lookup name, size := size } todo } none
  | uncompressed {name seq : Name} {todo : List Name} {ok : Bool} {size : Nat}
      (phase : s.phase = .compress name seq todo) :
      Performs s (.gzip ok size) { s with phase := .records todo } none
  | renamed {name seq : Name} {tmp : Archive} {todo : List Name}
      (phase : s.phase = .rename name seq tmp todo) :
      Performs s (.mv true) { s with
        backups := s.backups.insert (dstName seq name) tmp, phase := .remove name todo }
        (some (.destination (dstName seq name) (s.backups.lookup (dstName seq name)).isSome))
  | notRenamed {name seq : Name} {tmp : Archive} {todo : List Name}
      (phase : s.phase = .rename name seq tmp todo) :
      Performs s (.mv false) { s with phase := .records todo }
        (some (.destination (dstName seq name) (s.backups.lookup (dstName seq name)).isSome))
  | removed {name : Name} {todo : List Name} (phase : s.phase = .remove name todo) :
      Performs s (.rm true) { s with
        pstore := s.pstore.erase name, phase := .records todo, saved := true }
        (some (.removed name))
  | notRemoved {name : Name} {todo : List Name} (phase : s.phase = .remove name todo) :
      Performs s (.rm false) { s with phase := .records todo, saved := true } none
  | synced (phase : s.phase = .records []) (saved : s.saved = true) :
      Performs s .finish { s with durable := s.backups, phase := .idle } none
  | unsynced (phase : s.phase = .records []) (saved : s.saved = false) :
      Performs s .finish { s with phase := .idle } none

/-- A command that is the script's next ends in one of these ways. -/
theorem commandStep_performs {s s' : Backup} {c : Command} {o : Option Effect}
    (hstep : commandStep s c = .ok (s', o)) : Performs s c s' o := by
  cases c with
  | nextSeq write =>
      rw [commandStep] at hstep
      split at hstep
      · next name todo hphase =>
          split at hstep
          · next content n hname hn =>
              cases write with
              | ok =>
                  cases hstep
                  exact .numbered hphase hname hn
              | openFails =>
                  cases hstep
                  exact .skipped hphase nofun
              | writeFails =>
                  cases hstep
                  exact .emptied hphase hn
          · next hno =>
              cases hstep
              refine .skipped hphase fun _ => ?_
              cases hname : s.pstore.lookup name with
              | none => exact .inl rfl
              | some content =>
                  cases hn : seqNumber s.seqFile with
                  | none => exact .inr rfl
                  | some n => exact absurd hn (hno content n hname)
      · cases hstep
  | gzip ok size =>
      rw [commandStep] at hstep
      split at hstep
      · next name seq todo hphase =>
          split at hstep
          · next hok =>
              cases hstep
              rw [hok.1]
              exact .compressed hphase
          · cases hstep
            exact .uncompressed hphase
      · cases hstep
  | mv ok =>
      rw [commandStep] at hstep
      split at hstep
      · next name seq tmp todo hphase =>
          cases ok <;> cases hstep
          · exact .notRenamed hphase
          · exact .renamed hphase
      · cases hstep
  | rm ok =>
      rw [commandStep] at hstep
      split at hstep
      · next name todo hphase =>
          cases ok <;> cases hstep
          · exact .notRemoved hphase
          · exact .removed hphase
      · cases hstep
  | finish =>
      rw [commandStep] at hstep
      split at hstep
      · next hphase =>
          split at hstep
          · next hsaved =>
              cases hstep
              exact .synced hphase hsaved
          · next hsaved =>
              cases hstep
              exact .unsynced hphase (eq_false_of_ne_true hsaved)
      · cases hstep

/-- Between runs no command is performed. -/
theorem Performs.busy {s s' : Backup} {c : Command} {o : Option Effect}
    (h : Performs s c s' o) : s.phase ≠ .idle := by
  intro hidle
  cases h <;> simp_all only [reduceCtorEq]

/-- A run of the script as a transition relation. -/
def scriptMachine : Machine.Step Backup Command (Option Effect) := Machine.ofExcept commandStep

/-! ### A history of runs -/

/-- A glob does not match a name with a leading dot. -/
def visible (name : Name) : Bool := name.head? ≠ some '.'

/-- `dir_size`. -/
def dirSize (backups : Directory Name Archive) : Nat :=
  Directory.total (fun name file => if visible name then file.size else 0) backups

/-- The script is started, with what the glob finds in pstore; it runs a command; it is killed; the
kernel adds a record. -/
inductive Event where
  | start (listing : List Name)
  | command (c : Command)
  | kill
  | record (name : Name) (content : Content)
deriving DecidableEq, Repr

/-- One step of a history. -/
def historyStep (s : Backup) : Event → Except Unit (Backup × Option Effect)
  | .start listing =>
      if s.phase = .idle ∧ listing.Perm (s.pstore.keys.filter visible) then
        if dirSize s.backups ≥ maxSize then .ok (s, none)
        else .ok ({ s with phase := .records listing, saved := false }, none)
      else .error ()
  | .command c => commandStep s c
  | .kill => .ok ({ s with phase := .idle }, none)
  | .record name content => .ok ({ s with pstore := s.pstore.insert name content }, none)

/-- The history as a transition relation. -/
def historyMachine : Machine.Step Backup Event (Option Effect) := Machine.ofExcept historyStep

/-- Before the first run: no backup, no sequence file. -/
def Backup.fresh (pstore : Directory Name Content) : Backup :=
  { pstore := pstore, backups := ∅, durable := ∅, seqFile := none, phase := .idle, saved := false }

/-- A run of the script behind its checks, at the head of the loop. -/
def Backup.begun (pstore : Directory Name Content) (backups durable : Directory Name Archive)
    (seqFile : Option Name) (listing : List Name) : Backup :=
  { pstore := pstore, backups := backups, durable := durable, seqFile := seqFile
    phase := .records listing, saved := false }

end ConfigEnv.Ramoops
