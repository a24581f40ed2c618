/-
Module: ConfigEnv.Proofs.SequenceNumbers
Layer: Proofs
Purpose: Over a history of runs of ramoops-backup.sh an archive gets a name that no other has as
  long as the sequence file is not lost: the numbers in use are at most the one in the file, and
  next_seq hands out the one above it. A write that fails has emptied the file, next_seq starts from
  1 again, and the archive of a record with the same name is overwritten.
Trusted boundary: none
Main exports: Counts, Counts.next, Numbered, commandStep_numbered, historyStep_numbered,
  destinations_unused
Open obligations: none
-/
import ConfigEnv.Proofs.RecordSafety

namespace ConfigEnv.Ramoops

open Machine (Run Always)

/-! ### The sequence file -/

/-- What the sequence file says when `n` was the last number: it is missing or empty before the
first one. -/
def Counts (text : Option Name) (n : Nat) : Prop :=
  (n = 0 ∧ (text = none ∨ text = some [])) ∨
    (n ∈ List.range' 1 8 ∧ text = some (seqText n ++ ['\n']))

/-- The next number is one more, and `0008` is not a number for the shell. -/
theorem Counts.next {text : Option Name} {n m : Nat} (h : Counts text n)
    (hm : seqNumber text = some m) : m = n + 1 ∧ m ∈ List.range' 1 8 := by
  have hdigits : ∀ k ∈ List.range' 1 8, ∀ j, seqNumber (some (seqText k ++ ['\n'])) = some j →
      j = k + 1 ∧ j ∈ List.range' 1 8 := by
    intro k hk j hj
    have hvalue : ∀ k ∈ List.range' 1 8,
        seqNumber (some (seqText k ++ ['\n'])) = if k = 8 then none else some (k + 1) := by
      decide +kernel
    rw [hvalue k hk] at hj
    split at hj
    · cases hj
    · cases hj
      rw [List.mem_range'_1] at hk ⊢
      omega
  have hfirst : ∀ j, some 1 = some j → j = 0 + 1 ∧ j ∈ List.range' 1 8 := by
    rintro j ⟨⟩
    decide
  rcases h with ⟨rfl, rfl | rfl⟩ | ⟨hn, rfl⟩
  · exact hfirst m hm
  · exact hfirst m hm
  · exact hdigits n hn m hm

theorem Counts.le {text : Option Name} {n : Nat} (h : Counts text n) : n ≤ 8 := by
  rcases h with ⟨rfl, -⟩ | ⟨hn, -⟩
  · decide
  · rw [List.mem_range'_1] at hn
    omega

/-- The numbers up to eight have different texts. -/
theorem seqText_inj {k n : Nat} (hk : k ≤ 8) (hn : n ≤ 8) (heq : seqText k = seqText n) :
    k = n := by
  have hall : ∀ k < 9, ∀ n < 9, seqText k = seqText n → k = n := by decide +kernel
  exact hall k (Nat.lt_succ_of_le hk) n (Nat.lt_succ_of_le hn) heq

/-! ### The numbers in use -/

/-- The names of the archives have numbers below `n`. -/
def Below (backups : Directory Name Archive) (n : Nat) : Prop :=
  ∀ file ∈ backups, ∃ k name, k < n ∧ file = dstName (seqText k) name

theorem Below.mono {backups : Directory Name Archive} {n m : Nat} (h : Below backups n)
    (hle : n ≤ m) : Below backups m := by
  intro file hfile
  obtain ⟨k, name, hk, heq⟩ := h file hfile
  exact ⟨k, name, Nat.lt_of_lt_of_le hk hle, heq⟩

/-- An archive under the next number stays below the one after it. -/
theorem Below.insert {backups : Directory Name Archive} {n : Nat} (h : Below backups n)
    (name : Name) (tmp : Archive) :
    Below (backups.insert (dstName (seqText n) name) tmp) (n + 1) := by
  intro file hfile
  rcases (AList.mem_insert _).1 hfile with rfl | hold
  · exact ⟨n, name, Nat.lt_succ_self n, rfl⟩
  · exact h.mono (Nat.le_succ n) file hold

/-- A name with the number `n` is not in use. -/
theorem Below.unused {backups : Directory Name Archive} {n : Nat} (h : Below backups n) (hn : n ≤ 8)
    (name : Name) : backups.lookup (dstName (seqText n) name) = none := by
  rw [AList.lookup_eq_none]
  intro hfile
  obtain ⟨k, name', hk, heq⟩ := h _ hfile
  have hseq := (dstName_inj (seqText_digits n) (seqText_digits k) heq).1
  have hsame := seqText_inj hn (Nat.le_trans (Nat.le_of_lt hk) hn) hseq
  omega

/-- The numbers in use while the script stands in a phase: the last number is used up when `mv` has
been reached. -/
def Used (backups : Directory Name Archive) (n : Nat) : Phase → Prop
  | .compress _ seq _ => seq = seqText n ∧ Below backups n
  | .rename _ seq _ _ => seq = seqText n ∧ Below backups n
  | _ => Below backups (n + 1)

/-- What is used is below the next number. -/
theorem Used.below {backups : Directory Name Archive} {n : Nat} {phase : Phase}
    (h : Used backups n phase) : Below backups (n + 1) := by
  cases phase with
  | compress name seq todo => exact h.2.mono (Nat.le_succ n)
  | rename name seq tmp todo => exact h.2.mono (Nat.le_succ n)
  | _ => exact h

/-- The sequence file agrees with the archives. -/
def Numbered (s : Backup) : Prop := ∃ n, Counts s.seqFile n ∧ Used s.backups n s.phase

/-- When a write of the next number fails, there is no archive yet. -/
def keepsCount (s : Backup) : Event → Bool
  | .command (.nextSeq .writeFails) => (seqNumber s.seqFile).isNone || s.backups.keys.isEmpty
  | _ => true

/-- The destination of a step is unused. -/
def Unused (o : Option Effect) : Prop :=
  ∀ dst taken, o = some (.destination dst taken) → taken = false

theorem unused_none : Unused none := by
  rintro dst taken ⟨⟩

theorem unused_removed (name : Name) : Unused (some (.removed name)) := by
  rintro dst taken ⟨⟩

theorem unused_destination (dst : Name) : Unused (some (.destination dst false)) := by
  rintro dst' taken ⟨⟩
  rfl

/-! ### Steps -/

section Steps

variable {s s' : Backup} {o : Option Effect}

/-- What every command keeps; a destination has the last number, which no archive has. -/
theorem commandStep_numbered {c : Command} (h : Numbered s)
    (hkept : keepsCount s (.command c) = true) (hstep : commandStep s c = .ok (s', o)) :
    Numbered s' ∧ Unused o := by
  obtain ⟨n, hcounts, hused⟩ := h
  have hbelow := hused.below
  cases commandStep_performs hstep with
  | numbered phase here number =>
      obtain ⟨rfl, hrange⟩ := hcounts.next number
      exact ⟨⟨n + 1, .inr ⟨hrange, rfl⟩, rfl, hbelow⟩, unused_none⟩
  | emptied phase number =>
      rw [keepsCount, number, Option.isNone_some, Bool.false_or, List.isEmpty_iff] at hkept
      refine ⟨⟨0, .inl ⟨rfl, .inr rfl⟩, fun file hfile => ?_⟩, unused_none⟩
      rw [AList.mem_keys, hkept] at hfile
      exact absurd hfile List.not_mem_nil
  | compressed phase =>
      rw [phase] at hused
      exact ⟨⟨n, hcounts, hused⟩, unused_none⟩
  | @renamed name seq tmp todo phase =>
      rw [phase] at hused
      obtain ⟨rfl, hlast⟩ := hused
      rw [hlast.unused hcounts.le name]
      exact ⟨⟨n, hcounts, hlast.insert name tmp⟩, unused_destination _⟩
  | @notRenamed name seq tmp todo phase =>
      rw [phase] at hused
      obtain ⟨rfl, hlast⟩ := hused
      rw [hlast.unused hcounts.le name]
      exact ⟨⟨n, hcounts, hbelow⟩, unused_destination _⟩
  | removed phase => exact ⟨⟨n, hcounts, hbelow⟩, unused_removed _⟩
  | _ => exact ⟨⟨n, hcounts, hbelow⟩, unused_none⟩

/-- What every event keeps, and that it overwrites nothing. -/
theorem historyStep_numbered {e : Event} (h : Numbered s) (hkept : keepsCount s e = true)
    (hstep : historyStep s e = .ok (s', o)) : Numbered s' ∧ Unused o := by
  cases e with
  | start listing =>
      obtain ⟨n, hcounts, hused⟩ := h
      rw [historyStep] at hstep
      split at hstep
      · split at hstep
        · cases hstep
          exact ⟨⟨n, hcounts, hused⟩, unused_none⟩
        · cases hstep
          exact ⟨⟨n, hcounts, hused.below⟩, unused_none⟩
      · cases hstep
  | command c => exact commandStep_numbered h hkept hstep
  | kill =>
      obtain ⟨n, hcounts, hused⟩ := h
      cases hstep
      exact ⟨⟨n, hcounts, hused.below⟩, unused_none⟩
  | record name content =>
      obtain ⟨n, hcounts, hused⟩ := h
      cases hstep
      exact ⟨⟨n, hcounts, hused⟩, unused_none⟩

end Steps

/-! ### Histories -/

/-- As long as no write of the sequence file fails when there are archives, no archive is
overwritten. -/
theorem destinations_unused (pstore : Directory Name Content) {t : List (Event × Option Effect)}
    {s : Backup} (hrun : Run historyMachine (.fresh pstore) t s)
    (hkept : Always historyMachine (.fresh pstore) (t.map Prod.fst)
      fun q e => keepsCount q e = true) :
    ∀ e ∈ t, Unused e.2 := by
  have hfresh : Numbered (.fresh pstore) :=
    ⟨0, .inl ⟨rfl, .inl rfl⟩, fun file hfile => absurd hfile (AList.notMem_empty file)⟩
  exact (hkept.invariant Numbered (fun _ => Unused) hrun hfresh
    fun _ _ _ _ hq hkeeps hstep => historyStep_numbered hq hkeeps hstep).2

/-- A run of the script for the one record that the kernel has left. -/
def savesRecord : List Event :=
  [.record oopsName [0x50], .start [oopsName]] ++ savedOnce.map .command ++ [.command .finish]

/-- A run in which the write of the sequence file fails. -/
def losesCount : List Event :=
  [.record oopsName [0x50], .start [oopsName], .command (.nextSeq .writeFails), .command .finish]

theorem destinations_unused_twice : ∃ t s, Run historyMachine (.fresh ∅) t s ∧
    t.map Prod.fst = losesCount ++ savesRecord ++ savesRecord ∧ ∀ e ∈ t, Unused e.2 := by
  have hends : Machine.endsIn historyStep (.fresh ∅) (losesCount ++ savesRecord ++ savesRecord)
      (fun _ => true) = true := by decide +kernel
  have hkept : Machine.checks historyStep keepsCount (.fresh ∅)
      (losesCount ++ savesRecord ++ savesRecord) = true := by decide +kernel
  obtain ⟨t, s, hrun, hinputs, -⟩ := Machine.run_of_endsIn hends
  refine ⟨t, s, hrun, hinputs, destinations_unused ∅ hrun ?_⟩
  rw [hinputs]
  exact Machine.always_of_checks hkept

/-- The number is handed out again, and `mv` finds the first archive of the record. -/
theorem archive_overwritten :
    ¬ ∀ (pstore : Directory Name Content) (t : List (Event × Option Effect)) (s : Backup),
      Run historyMachine (.fresh pstore) t s → ∀ e ∈ t, Unused e.2 := by
  intro hall
  have hputs : Machine.putsOut historyStep (.fresh ∅) (savesRecord ++ losesCount ++ savesRecord)
      (fun o => o = some (.destination (dstName (seqText 1) oopsName) true)) = true := by
    decide +kernel
  obtain ⟨t, s, hrun, -, e, he, hout⟩ := Machine.run_of_putsOut hputs
  exact Bool.noConfusion (hall ∅ t s hrun e he _ _ (of_decide_eq_true hout))

end ConfigEnv.Ramoops
