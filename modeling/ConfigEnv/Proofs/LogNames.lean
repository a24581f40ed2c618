/-
Module: ConfigEnv.Proofs.LogNames
Layer: Proofs
Purpose: The names of logs and archives. The two tests on suffixes exclude each other, the names
  from the clock pass the one for logs, and what gzip makes of a log passes the one for archives.
  All of them are short enough for the path buffers.
Trusted boundary: none
Main exports: filepath_of_short, isGz_of_isUbx, isGz_gzipName, isUbx_logName, newLog_eq
Open obligations: none
-/
import ConfigEnv.Gps.LogRecord

namespace ConfigEnv.Gps

/-- A short name is left as it is. -/
theorem filepath_of_short (path : FPath) {name : Name} (h : name.length ≤ 63) :
    filepath path name = name := by
  have hpath := path.2
  exact List.take_of_length_le (by omega)

/-! ### The last dot -/

theorem strrchr_eq_none {c : Char} {name : Name} (h : strrchr c name = none) : c ∉ name := by
  induction name with
  | nil => exact List.not_mem_nil
  | cons b name ih =>
      rw [strrchr] at h
      cases htail : strrchr c name with
      | some suffix =>
          rw [htail] at h
          cases h
      | none =>
          rw [htail] at h
          dsimp only at h
          split at h
          · cases h
          · next hne =>
              intro hmem
              rcases List.mem_cons.1 hmem with rfl | hmem
              · exact hne rfl
              · exact ih htail hmem

/-- What is found begins with the last dot. -/
theorem strrchr_eq_some {c : Char} {name suffix : Name} (h : strrchr c name = some suffix) :
    ∃ rest, suffix = c :: rest ∧ c ∉ rest ∧ name ≠ [] := by
  induction name generalizing suffix with
  | nil => cases h
  | cons b name ih =>
      rw [strrchr] at h
      cases htail : strrchr c name with
      | some suffix' =>
          rw [htail] at h
          cases h
          obtain ⟨rest, rfl, hrest, -⟩ := ih htail
          exact ⟨rest, rfl, hrest, List.cons_ne_nil b name⟩
      | none =>
          rw [htail] at h
          dsimp only at h
          split at h
          · next hb =>
              cases h
              exact ⟨name, by rw [hb], strrchr_eq_none htail, List.cons_ne_nil b name⟩
          · cases h

/-- A last dot that is known. -/
theorem strrchr_append {c : Char} {rest : Name} (hrest : strrchr c rest = none) (front : Name) :
    strrchr c (front ++ c :: rest) = some (c :: rest) := by
  induction front with
  | nil =>
      rw [List.nil_append, strrchr, hrest]
      exact if_pos rfl
  | cons b front ih => rw [List.cons_append, strrchr, ih]

/-- In a suffix from the last dot a pattern with a dot is found at the front only. -/
theorem prefix_of_infix {c : Char} {pattern rest : Name} (hrest : c ∉ rest)
    (h : c :: pattern <:+: c :: rest) : pattern <+: rest := by
  rcases List.infix_cons_iff.1 h with hfront | hlater
  · exact (List.cons_prefix_cons.1 hfront).2
  · exact absurd (hlater.subset List.mem_cons_self) hrest

/-- What the test for a suffix asks of a name. -/
theorem hasSuffix_iff {pattern name : Name} : hasSuffix pattern name = true ↔
    name.head? ≠ some '.' ∧ ∃ suffix, strrchr '.' name = some suffix ∧ pattern <:+: suffix := by
  rw [hasSuffix, Bool.and_eq_true, Option.any_eq_true]
  simp only [ne_eq, decide_eq_true_eq]

/-! ### Logs and archives -/

variable {name : Name}

/-- A log is no archive. -/
theorem isGz_of_isUbx (h : isUbx name = true) : isGz name = false := by
  rw [Bool.eq_false_iff]
  intro hgz
  obtain ⟨-, suffix, hsuffix, hubx⟩ := hasSuffix_iff.1 h
  obtain ⟨-, suffix', hsuffix', hgz⟩ := hasSuffix_iff.1 hgz
  cases hsuffix.symm.trans hsuffix'
  obtain ⟨rest, rfl, hrest, -⟩ := strrchr_eq_some hsuffix
  obtain ⟨_, hu⟩ := prefix_of_infix hrest hubx
  obtain ⟨_, hg⟩ := prefix_of_infix hrest hgz
  rw [← hu] at hg
  cases hg

/-- Its archive is one. -/
theorem isGz_gzipName (h : isUbx name = true) : isGz (gzipName name) = true := by
  obtain ⟨hhead, suffix, hsuffix, -⟩ := hasSuffix_iff.1 h
  obtain ⟨-, -, -, hne⟩ := strrchr_eq_some hsuffix
  refine hasSuffix_iff.2 ⟨?_, gzSuffix, strrchr_append (by decide) name, List.infix_refl _⟩
  rwa [gzipName, List.head?_append_of_ne_nil name hne]

theorem length_gzipName (name : Name) : (gzipName name).length = name.length + 3 := by
  simp [gzipName, gzSuffix]

theorem digitChar_ne_dot (n : Nat) : Nat.digitChar (n % 10) ≠ '.' := by
  have hdigits : ∀ k : Fin 10, Nat.digitChar k ≠ '.' := by decide
  exact hdigits ⟨n % 10, Nat.mod_lt n (by decide)⟩

theorem length_logName (tm : Tm) : (logName tm).length = 17 := rfl

/-- The name made from a time is that of a `.ubx` file. -/
theorem isUbx_logName (tm : Tm) : isUbx (logName tm) = true := by
  refine hasSuffix_iff.2 ⟨?_, ubxSuffix, strrchr_append (by decide) _, List.infix_refl _⟩
  intro hdot
  exact digitChar_ne_dot (tm.tmYear / 10) (Option.some.inj hdot)

/-- The name of a new log is made from the local time. -/
theorem newLog_eq (path : FPath) (localtime : Int → Tm) (now : Int) :
    Recorder.newLog path localtime now = logName (localtime now) :=
  filepath_of_short path (by rw [length_logName]; decide)

end ConfigEnv.Gps
