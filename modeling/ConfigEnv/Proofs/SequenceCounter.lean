/-
Module: ConfigEnv.Proofs.SequenceCounter
Layer: Proofs
Purpose: How far the counter of ramoops-backup.sh counts. The sequence file holds the last number
  with leading zeros, which the shell reads as octal: the eighth call writes `0008`, the ninth fails
  on it before it writes anything, and so does every later call. A record that finds the counter
  there is not saved, in this run of the script and in all runs after it.
Trusted boundary: none
Main exports: seqFileAfter, printed, printed_iff, WritesSucceed, callsNextSeq, countedMachine,
  seqFile_of_run, SavesNext, savesNext_iff, backup_counts_iff
Open obligations: none
-/
import ConfigEnv.Proofs.SequenceNumbers

namespace ConfigEnv.Ramoops

open Machine (Run)

/-! ### Calls of next_seq -/

/-- The sequence file after `k` calls, which is missing at first. -/
def seqFileAfter : Nat → Option Name
  | 0 => none
  | k + 1 => (nextSeq (seqFileAfter k)).2

/-- What the `k`-th call prints. -/
def printed (k : Nat) : Option Name := (nextSeq (seqFileAfter (k - 1))).1

/-- From the eighth call on, the file does not change. -/
theorem seqFileAfter_stuck (k : Nat) : seqFileAfter (8 + k) = seqFileAfter 8 := by
  induction k with
  | zero => rfl
  | succ k ih =>
      have hstuck : (nextSeq (seqFileAfter 8)).2 = seqFileAfter 8 := by decide +kernel
      rw [← Nat.add_assoc, seqFileAfter, ih, hstuck]

/-- What the file reads as after `k` calls. -/
theorem seqNumber_after (k : Nat) :
    seqNumber (seqFileAfter k) = if k < 8 then some (k + 1) else none := by
  by_cases hk : k < 8
  · rw [if_pos hk]
    have hfirst : ∀ k < 8, seqNumber (seqFileAfter k) = some (k + 1) := by decide +kernel
    exact hfirst k hk
  · obtain ⟨j, rfl⟩ := Nat.exists_eq_add_of_le (Nat.not_lt.1 hk)
    rw [if_neg hk, seqFileAfter_stuck]
    decide +kernel

/-- Call `k` prints its number exactly up to the eighth. -/
theorem printed_iff {k : Nat} (hk : 1 ≤ k) : printed k = some (seqText k) ↔ k ≤ 8 := by
  rw [printed, nextSeq, seqNumber_after]
  by_cases hle : k - 1 < 8
  · rw [if_pos hle, Nat.sub_add_cancel hk]
    exact iff_of_true rfl (by omega)
  · rw [if_neg hle]
    exact iff_of_false (by rintro ⟨⟩) (by omega)

/-! ### Calls in a history -/

/-- A write of the sequence file succeeds. -/
def WritesSucceed : Event → Prop
  | .command (.nextSeq write) => write = .ok
  | _ => True

/-- The script calls `next_seq`: there is a next record, and it is still there. -/
def callsNextSeq (s : Backup) : Event → Bool
  | .command (.nextSeq _) =>
      match s.phase with
      | .records (name :: _) => (s.pstore.lookup name).isSome
      | _ => false
  | _ => false

/-- A history with the number of these calls. -/
def countedStep (q : Backup × Nat) (e : Event) : Except Unit ((Backup × Nat) × Option Effect) :=
  match historyStep q.1 e with
  | .ok (s, o) => .ok ((s, if callsNextSeq q.1 e = true then q.2 + 1 else q.2), o)
  | .error x => .error x

/-- Histories of the script that count their calls of `next_seq`. -/
def countedMachine : Machine.Step (Backup × Nat) Event (Option Effect) :=
  Machine.ofExcept countedStep

section History

variable {s s' : Backup} {o : Option Effect} {e : Event}

theorem callsNextSeq_records {name : Name} {todo : List Name} {write : SeqWrite}
    (hphase : s.phase = .records (name :: todo)) :
    callsNextSeq s (.command (.nextSeq write)) = (s.pstore.lookup name).isSome := by
  rw [callsNextSeq, hphase]

/-- Where its writes succeed, the file changes with a call of `next_seq` and with nothing else. -/
theorem commandStep_seqFile {c : Command} (hwrite : WritesSucceed (.command c))
    (hstep : commandStep s c = .ok (s', o)) :
    s'.seqFile = if callsNextSeq s (.command c) = true then (nextSeq s.seqFile).2
      else s.seqFile := by
  cases commandStep_performs hstep with
  | numbered phase here number =>
      rw [callsNextSeq_records phase, here, Option.isSome_some, if_pos rfl, nextSeq, number]
  | emptied phase number => cases hwrite
  | skipped phase without =>
      -- A call that fails leaves the file, and without a record there is no call.
      rcases without hwrite with hnone | hno
      · rw [callsNextSeq_records phase, hnone, Option.isSome_none, if_neg Bool.false_ne_true]
      · rw [nextSeq, hno]
        exact (ite_self _).symm
  | _ => rfl

/-- A call writes the file, and nothing else does. -/
theorem historyStep_seqFile (hwrite : WritesSucceed e) (hstep : historyStep s e = .ok (s', o)) :
    s'.seqFile = if callsNextSeq s e = true then (nextSeq s.seqFile).2 else s.seqFile := by
  cases e with
  | start listing =>
      rw [historyStep] at hstep
      split at hstep
      · split at hstep <;> cases hstep <;> rfl
      · cases hstep
  | command c => exact commandStep_seqFile hwrite hstep
  | kill =>
      cases hstep
      rfl
  | record name content =>
      cases hstep
      rfl

end History

/-- After any history without a failing write the sequence file is as its calls leave it. -/
theorem seqFile_of_run {pstore : Directory Name Content} {t : List (Event × Option Effect)}
    {q : Backup × Nat} (hrun : Run countedMachine (Backup.fresh pstore, 0) t q)
    (hwrites : ∀ e ∈ t, WritesSucceed e.1) : q.1.seqFile = seqFileAfter q.2 := by
  apply hrun.invariant fun q => q.1.seqFile = seqFileAfter q.2
  · rfl
  · intro e he q q' hq hstep
    change countedStep q e.1 = .ok (q', e.2) at hstep
    rw [countedStep] at hstep
    split at hstep
    · next s' o hhistory =>
        cases hstep
        dsimp only
        rw [historyStep_seqFile (hwrites e he) hhistory, hq]
        split <;> rfl
    · cases hstep

/-! ### Saving a record -/

/-- The commands for a record that is saved. -/
def savingCommands (size : Nat) : List Command :=
  [.nextSeq .ok, .gzip true size, .mv true, .rm true]

/-- When every command succeeds the next record is archived under the number `k` and removed. -/
def SavesNext (s : Backup) (name : Name) (content : Content) (size k : Nat) : Prop :=
  ∃ t s', Run scriptMachine s t s' ∧ t.map Prod.fst = savingCommands size ∧
    s'.pstore.lookup name = none ∧
      s'.backups.lookup (dstName (seqText k) name) = some { record := some content, size := size }

section Saving

variable {s : Backup} {name : Name} {todo : List Name} {content : Content} {size n : Nat}

/-- The archive of the record is made, renamed and kept, and the record is removed. -/
theorem savesNext_of_number (hphase : s.phase = .records (name :: todo))
    (hname : s.pstore.lookup name = some content) (hsize : 0 < size)
    (hn : seqNumber s.seqFile = some n) : SavesNext s name content size n := by
  let tmp : Archive := { record := some content, size := size }
  let numbered : Backup := { s with
    seqFile := some (seqText n ++ ['\n']), phase := .compress name (seqText n) todo }
  let compressed : Backup := { numbered with phase := .rename name (seqText n) tmp todo }
  let renamed : Backup := { compressed with
    backups := s.backups.insert (dstName (seqText n) name) tmp, phase := .remove name todo }
  have hseq : commandStep s (.nextSeq .ok) = .ok (numbered, none) := by
    rw [commandStep, hphase]
    simp only [hname, hn]
    rfl
  have hgzip : commandStep numbered (.gzip true size) = .ok (compressed, none) := by
    refine (if_pos ⟨rfl, hsize⟩).trans ?_
    rw [hname]
  let removed : Backup := { renamed with
    pstore := s.pstore.erase name, phase := .records todo, saved := true }
  let taken := (s.backups.lookup (dstName (seqText n) name)).isSome
  have hmv : commandStep compressed (.mv true) =
      .ok (renamed, some (.destination (dstName (seqText n) name) taken)) := rfl
  have hrm : commandStep renamed (.rm true) = .ok (removed, some (.removed name)) := rfl
  have hrun : Run scriptMachine s [(.nextSeq .ok, none), (.gzip true size, none),
      (.mv true, some (.destination (dstName (seqText n) name) taken)),
      (.rm true, some (.removed name))] removed :=
    .cons hseq (.cons hgzip (.cons hmv (.cons hrm (.nil _))))
  refine ⟨_, _, hrun, rfl, ?_, ?_⟩
  · exact AList.lookup_erase _ _
  · exact AList.lookup_insert _

/-- Where the number cannot be read, no record is saved. -/
theorem not_savesNext (hphase : s.phase = .records (name :: todo))
    (hno : seqNumber s.seqFile = none) (k : Nat) : ¬ SavesNext s name content size k := by
  rintro ⟨t, s', hrun, hinputs, -⟩
  obtain ⟨o, rest, rfl, hrest⟩ := Machine.map_fst_eq_cons hinputs
  obtain ⟨s₁, hseq, hrun₁⟩ := hrun.cons_inv
  obtain ⟨o₁, rest₁, rfl, -⟩ := Machine.map_fst_eq_cons hrest
  obtain ⟨s₂, hgzip, -⟩ := hrun₁.cons_inv
  change commandStep s (.nextSeq .ok) = .ok (s₁, o) at hseq
  have hskip : s₁.phase = .records todo := by
    cases commandStep_performs hseq with
    | numbered phase here number =>
        rw [hno] at number
        cases number
    | skipped phase without =>
        rw [hphase] at phase
        cases phase
        rfl
  change commandStep s₁ (.gzip true size) = .ok (s₂, o₁) at hgzip
  rw [commandStep, hskip] at hgzip
  cases hgzip

/-- A record is saved under its number exactly up to the eighth. -/
theorem savesNext_iff (hphase : s.phase = .records (name :: todo))
    (hname : s.pstore.lookup name = some content) (hsize : 0 < size)
    (hseq : s.seqFile = seqFileAfter n) : SavesNext s name content size (n + 1) ↔ n + 1 ≤ 8 := by
  have hnumber := seqNumber_after n
  rw [← hseq] at hnumber
  by_cases hn : n < 8
  · rw [if_pos hn] at hnumber
    exact iff_of_true (savesNext_of_number hphase hname hsize hnumber) hn
  · rw [if_neg hn] at hnumber
    exact iff_of_false (not_savesNext hphase hnumber _) hn

end Saving

/-- The `k`-th call prints `k` exactly as long as there is no digit 8 in the file, and in every
history whose writes of the sequence file succeed the next record is saved exactly as long. -/
theorem backup_counts_iff (pstore : Directory Name Content) :
    (∀ k, 1 ≤ k → (printed k = some (seqText k) ↔ k ≤ 8)) ∧
    ∀ (t : List (Event × Option Effect)) (q : Backup × Nat),
      Run countedMachine (Backup.fresh pstore, 0) t q → (∀ e ∈ t, WritesSucceed e.1) →
      ∀ (name : Name) (todo : List Name) (content : Content) (size : Nat),
        q.1.phase = .records (name :: todo) → q.1.pstore.lookup name = some content → 0 < size →
        (SavesNext q.1 name content size (q.2 + 1) ↔ q.2 + 1 ≤ 8) :=
  ⟨fun _ => printed_iff, fun _ _ hrun hwrites _ _ _ _ hphase hname hsize =>
    savesNext_iff hphase hname hsize (seqFile_of_run hrun hwrites)⟩

/-- The third number, and the first record. -/
theorem backup_counts_first : printed 3 = some "0003".toList ∧ ∃ q : Backup × Nat,
    SavesNext q.1 oopsName [0x50] 1 1 := by
  refine ⟨((backup_counts_iff ∅).1 3 (by decide)).2 (by decide), ?_⟩
  have hends : Machine.endsIn countedStep (Backup.fresh ∅, 0)
      [.record oopsName [0x50], .start [oopsName]] (fun q => q.1.phase = .records [oopsName] ∧
        q.1.pstore.lookup oopsName = some [0x50] ∧ q.2 = 0) = true := by decide +kernel
  obtain ⟨t, q, hrun, hinputs, hend⟩ := Machine.run_of_endsIn hends
  obtain ⟨hphase, hname, hcalls⟩ := of_decide_eq_true hend
  have hwrites : ∀ e ∈ t, WritesSucceed e.1 := by
    intro e he
    have hin : e.1 ∈ t.map Prod.fst := List.mem_map_of_mem he
    rw [hinputs] at hin
    simp only [List.mem_cons, List.not_mem_nil, or_false] at hin
    rcases hin with heq | heq <;> rw [heq] <;> trivial
  have hsaves := (backup_counts_iff ∅).2 t q hrun hwrites oopsName [] [0x50] 1 hphase hname
    Nat.one_pos
  rw [hcalls] at hsaves
  exact ⟨q, hsaves.2 (by decide)⟩

theorem ninth_call_fails : ¬ ∀ k, 1 ≤ k → printed k = some (seqText k) := by
  intro hall
  exact absurd (hall 9 (by decide)) (by decide +kernel)

end ConfigEnv.Ramoops
