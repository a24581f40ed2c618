/-
Module: ConfigEnv.Proofs.LogChoice
Layer: Proofs
Purpose: Which log the recorder goes on with. The loop of `get_log_filename` takes the first entry
  that is short enough and more recent than the entries before it that are not; it should take the
  most recent one of those that are short enough. It does so for every order of the directory when
  there is no choice: one such log, more recent than all logs that are full.
Trusted boundary: none
Main exports: logEntry, Recorder.ShortLog, Recorder.IsLatest, Recorder.ChoosesLatest,
  Recorder.OneChoice, findLog_some, findLog_none, first_log_latest_iff, first_log_is_older
Open obligations: none
-/
import ConfigEnv.Proofs.LogNames

namespace ConfigEnv.Gps

/-! ### The search -/

/-- What `stat` shows of an entry with the suffix of a log: the name that fits the buffer and a
regular file. -/
def logEntry (path : FPath) (dir : LogDir) (name : Name) (st : LogFile) : Prop :=
  isUbx name = true ∧ dir.lookup (filepath path name) = some st ∧ st.regular = true

section Search

variable {path : FPath} {dir : LogDir} {size : Nat → Nat} {limit mtime : Int} {name : Name}
  {listing : List Name} {st : LogFile}

/-- An entry has one status. -/
theorem logEntry.unique {st' : LogFile} (h : logEntry path dir name st)
    (h' : logEntry path dir name st') : st = st' :=
  Option.some.inj (h.2.1.symm.trans h'.2.1)

/-- An entry that is no log is skipped. -/
theorem findLog_cons_of_not (h : ∀ st, ¬ logEntry path dir name st) :
    findLog path dir size limit mtime (name :: listing) =
      findLog path dir size limit mtime listing := by
  rw [findLog]
  split
  · next hubx =>
      cases hst : dir.lookup (filepath path name) with
      | none => rfl
      | some st => exact if_neg fun hreg => h st ⟨hubx, hst, hreg.1⟩
  · rfl

/-- An entry that is a log. -/
theorem findLog_cons (h : logEntry path dir name st) :
    findLog path dir size limit mtime (name :: listing) =
      if mtime < st.mtime then
        if (size st.ino : Int) < limit then some (filepath path name, size st.ino)
        else findLog path dir size limit st.mtime listing
      else findLog path dir size limit mtime listing := by
  obtain ⟨hubx, hst, hreg⟩ := h
  rw [findLog, if_pos hubx, hst]
  simp only [hreg, true_and, gt_iff_lt]

/-- What is found is an entry that is short enough, and its time is later than where the search
began. -/
theorem findLog_some {found : Name × Nat}
    (h : findLog path dir size limit mtime listing = some found) :
    ∃ name ∈ listing, ∃ st, logEntry path dir name st ∧ (size st.ino : Int) < limit ∧
      mtime < st.mtime ∧ found = (filepath path name, size st.ino) := by
  induction listing generalizing mtime with
  | nil => cases h
  | cons name listing ih =>
      have hrest : ∀ {later}, findLog path dir size limit later listing = some found →
          mtime ≤ later → ∃ name' ∈ name :: listing, ∃ st, logEntry path dir name' st ∧
            (size st.ino : Int) < limit ∧ mtime < st.mtime ∧
            found = (filepath path name', size st.ino) := by
        intro later hlater hle
        obtain ⟨name', hname', st, hentry, hsize, hlt, heq⟩ := ih hlater
        exact ⟨name', List.mem_cons_of_mem _ hname', st, hentry, hsize,
          Int.lt_of_le_of_lt hle hlt, heq⟩
      by_cases hentry : ∃ st, logEntry path dir name st
      · obtain ⟨st, hentry⟩ := hentry
        rw [findLog_cons hentry] at h
        split at h
        · next hlt =>
            split at h
            · next hsize =>
                cases h
                exact ⟨name, List.mem_cons_self, st, hentry, hsize, hlt, rfl⟩
            · exact hrest h (Int.le_of_lt hlt)
        · exact hrest h (Int.le_refl mtime)
      · rw [findLog_cons_of_not (not_exists.1 hentry)] at h
        exact hrest h (Int.le_refl mtime)

/-- Without a result every entry that is short enough is behind the time where the search began, or
behind one that is too long. -/
theorem findLog_none (h : findLog path dir size limit mtime listing = none) (hname : name ∈ listing)
    (hentry : logEntry path dir name st) (hsize : (size st.ino : Int) < limit) :
    st.mtime ≤ mtime ∨ ∃ name' ∈ listing, ∃ st', logEntry path dir name' st' ∧
      limit ≤ (size st'.ino : Int) ∧ st.mtime ≤ st'.mtime := by
  induction listing generalizing mtime with
  | nil => cases hname
  | cons first listing ih =>
      have hrest : ∀ {later}, findLog path dir size limit later listing = none → name ∈ listing →
          (later = mtime ∨ ∃ st', logEntry path dir first st' ∧ limit ≤ (size st'.ino : Int) ∧
            later = st'.mtime) →
          st.mtime ≤ mtime ∨ ∃ name' ∈ first :: listing, ∃ st', logEntry path dir name' st' ∧
            limit ≤ (size st'.ino : Int) ∧ st.mtime ≤ st'.mtime := by
        intro later hnone hmem hlater
        rcases ih hnone hmem with hle | ⟨name', hname', st', hbig⟩
        · rcases hlater with rfl | ⟨st', hfirst, hlong, rfl⟩
          · exact .inl hle
          · exact .inr ⟨first, List.mem_cons_self, st', hfirst, hlong, hle⟩
        · exact .inr ⟨name', List.mem_cons_of_mem _ hname', st', hbig⟩
      by_cases hfirst : ∃ st', logEntry path dir first st'
      · obtain ⟨st', hfirst⟩ := hfirst
        rw [findLog_cons hfirst] at h
        by_cases hlater : mtime < st'.mtime
        · rw [if_pos hlater] at h
          by_cases hshort : (size st'.ino : Int) < limit
          · rw [if_pos hshort] at h
            cases h
          · rw [if_neg hshort] at h
            rcases List.mem_cons.1 hname with rfl | hmem
            · exact absurd (hentry.unique hfirst ▸ hsize) hshort
            · exact hrest h hmem (.inr ⟨st', hfirst, Int.not_lt.1 hshort, rfl⟩)
        · rw [if_neg hlater] at h
          rcases List.mem_cons.1 hname with rfl | hmem
          · exact .inl (hentry.unique hfirst ▸ Int.not_lt.1 hlater)
          · exact hrest h hmem (.inl rfl)
      · rw [findLog_cons_of_not (not_exists.1 hfirst)] at h
        rcases List.mem_cons.1 hname with rfl | hmem
        · exact absurd ⟨st, hentry⟩ hfirst
        · exact hrest h hmem (.inl rfl)

end Search

/-! ### The log to go on with -/

namespace Recorder

/-- A regular file with the suffix of a log that is shorter than `log_size`. -/
structure ShortLog (s : Recorder) (logSize : u32) (name : Name) (st : LogFile) : Prop where
  lookup : s.dir.lookup name = some st
  ubx : isUbx name = true
  regular : st.regular = true
  short : ((s.data st.ino).length : Int) < logSize.toInt

/-- `found` is the most recent of these logs, with its size. -/
def IsLatest (s : Recorder) (logSize : u32) (found : Name × Nat) : Prop :=
  ∃ st, s.ShortLog logSize found.1 st ∧ found.2 = (s.data st.ino).length ∧
    ∀ name st', s.ShortLog logSize name st' → st'.mtime ≤ st.mtime

/-- In whatever order the directory is read, the latest of these logs is chosen, and a new one when
there is none; the order plays no part when no two of them have the same time. -/
structure ChoosesLatest (path : FPath) (localtime : Int → Tm) (logSize : u32) (s : Recorder)
    (now : Int) : Prop where
  latest : ∀ listing, listing.Perm s.dir.keys → (∃ name st, s.ShortLog logSize name st) →
    s.IsLatest logSize (s.firstLog path localtime logSize now (some listing))
  fresh : ∀ listing, listing.Perm s.dir.keys → ¬ (∃ name st, s.ShortLog logSize name st) →
    s.firstLog path localtime logSize now (some listing) = (newLog path localtime now, 0)
  order : (∀ name name' st st', s.ShortLog logSize name st → s.ShortLog logSize name' st' →
      st.mtime = st'.mtime → name = name') →
    ∀ listing listing', listing.Perm s.dir.keys → listing'.Perm s.dir.keys →
      s.firstLog path localtime logSize now (some listing) =
        s.firstLog path localtime logSize now (some listing')

/-- There is no choice: an entry that is short enough, later than 1970, is the latest log; and the
latest log, if there is one, is such an entry under its own name, and later than all entries that
are too long. Or the name for a new log happens to be that of the latest log, and that is empty. -/
structure OneChoice (path : FPath) (localtime : Int → Tm) (logSize : u32) (s : Recorder)
    (now : Int) : Prop where
  only : ∀ name ∈ s.dir.keys, ∀ st, logEntry path s.dir name st →
    ((s.data st.ino).length : Int) < logSize.toInt → 0 < st.mtime →
      s.IsLatest logSize (filepath path name, (s.data st.ino).length)
  found : (∃ name st, s.ShortLog logSize name st) →
    s.IsLatest logSize (newLog path localtime now, 0) ∨
      ∃ name st, s.ShortLog logSize name st ∧ filepath path name = name ∧ 0 < st.mtime ∧
        ∀ name' ∈ s.dir.keys, ∀ st', logEntry path s.dir name' st' →
          logSize.toInt ≤ ((s.data st'.ino).length : Int) → st'.mtime < st.mtime

section Choice

variable {path : FPath} {localtime : Int → Tm} {logSize : u32} {s : Recorder} {now : Int}
  {name : Name} {st : LogFile} {listing : List Name}

/-- The search of `get_log_filename`. -/
abbrev search (path : FPath) (logSize : u32) (s : Recorder) (mtime : Int) (listing : List Name) :
    Option (Name × Nat) :=
  findLog path s.dir (fun ino => (s.data ino).length) logSize.toInt mtime listing

/-- The first log is what the search finds, or a new one. -/
theorem firstLog_eq (listing : List Name) :
    s.firstLog path localtime logSize now (some listing) =
      (search path logSize s 0 listing).getD (newLog path localtime now, 0) := by
  have hsearch : (some listing).bind
      (findLog path s.dir (fun ino => (s.data ino).length) logSize.toInt 0) =
        search path logSize s 0 listing := rfl
  rw [firstLog, hsearch]
  cases search path logSize s 0 listing <;> rfl

/-- An entry with a name of its own is a log of the directory. -/
theorem shortLog_of_entry (h : logEntry path s.dir name st)
    (hshort : ((s.data st.ino).length : Int) < logSize.toInt) (hown : filepath path name = name) :
    s.ShortLog logSize name st :=
  ⟨hown ▸ h.2.1, h.1, h.2.2, hshort⟩

theorem ShortLog.entry (h : s.ShortLog logSize name st) (hown : filepath path name = name) :
    logEntry path s.dir name st :=
  ⟨h.ubx, hown.symm ▸ h.lookup, h.regular⟩

theorem ShortLog.mem_keys (h : s.ShortLog logSize name st) : name ∈ s.dir.keys :=
  AList.mem_keys.1 (AList.lookup_isSome.1 (by rw [h.lookup]; rfl))

/-- The latest log is a short one, and none is newer. -/
theorem IsLatest.shortLog {found : Name × Nat} (h : s.IsLatest logSize found)
    (hst : s.dir.lookup found.1 = some st) :
    s.ShortLog logSize found.1 st ∧
      ∀ name st', s.ShortLog logSize name st' → st'.mtime ≤ st.mtime := by
  obtain ⟨st', hlog, -, hmax⟩ := h
  obtain rfl : st' = st := Option.some.inj (hlog.lookup.symm.trans hst)
  exact ⟨hlog, hmax⟩

/-- A cut name is too long for a name from the clock. -/
theorem filepath_eq_logName {tm : Tm} (h : filepath path name = logName tm) :
    filepath path name = name := by
  have hlen := congrArg List.length h
  have hpath := path.2
  rw [filepath, List.length_take, length_logName] at hlen
  exact List.take_of_length_le (by omega)

/-- Building a path a second time changes nothing. -/
theorem filepath_filepath (path : FPath) (name : Name) :
    filepath path (filepath path name) = filepath path name := by
  rw [filepath, filepath, List.take_take, Nat.min_self]

/-- Without two logs of one time there is one latest log. -/
theorem IsLatest.unique {found found' : Name × Nat}
    (hdistinct : ∀ name name' st st', s.ShortLog logSize name st → s.ShortLog logSize name' st' →
      st.mtime = st'.mtime → name = name')
    (h : s.IsLatest logSize found) (h' : s.IsLatest logSize found') : found = found' := by
  obtain ⟨st, hlog, hsize, hmax⟩ := h
  obtain ⟨st', hlog', hsize', hmax'⟩ := h'
  have htime : st.mtime = st'.mtime := Int.le_antisymm (hmax' _ st hlog) (hmax _ st' hlog')
  have hname := hdistinct _ _ st st' hlog hlog' htime
  have hst : st = st' := by
    have hlookup := hlog.lookup
    rw [hname] at hlookup
    exact Option.some.inj (hlookup.symm.trans hlog'.lookup)
  exact Prod.ext hname (by rw [hsize, hsize', hst])

section OneChoice

variable (h : OneChoice path localtime logSize s now) (hperm : listing.Perm s.dir.keys)
include h hperm

/-- What the search finds is the latest short log. -/
theorem OneChoice.search_some {found : Name × Nat}
    (hsearch : search path logSize s 0 listing = some found) : s.IsLatest logSize found := by
  obtain ⟨name, hname, st, hentry, hshort, hpos, rfl⟩ := findLog_some hsearch
  exact h.only name (hperm.subset hname) st hentry hshort hpos

/-- Where the search finds nothing although a short log exists, the new log is the latest one. -/
theorem OneChoice.search_none (hexists : ∃ name st, s.ShortLog logSize name st)
    (hsearch : search path logSize s 0 listing = none) :
    s.IsLatest logSize (newLog path localtime now, 0) := by
  rcases h.found hexists with hnew | ⟨name, st, hlog, hown, hpos, hlater⟩
  · exact hnew
  · exfalso
    rcases findLog_none hsearch (hperm.symm.subset hlog.mem_keys) (hlog.entry hown) hlog.short
      with hle | ⟨name', hname', st', hentry, hlong, hle⟩
    · exact Int.not_lt.2 hle hpos
    · exact Int.not_lt.2 hle (hlater name' (hperm.subset hname') st' hentry hlong)

/-- Where a short log exists, the latest one is continued. -/
theorem OneChoice.latest (hexists : ∃ name st, s.ShortLog logSize name st) :
    s.IsLatest logSize (s.firstLog path localtime logSize now (some listing)) := by
  rw [firstLog_eq]
  cases hsearch : search path logSize s 0 listing with
  | some found => exact h.search_some hperm hsearch
  | none => exact h.search_none hperm hexists hsearch

/-- Where none exists, a new log is begun. -/
theorem OneChoice.fresh (hnone : ¬ ∃ name st, s.ShortLog logSize name st) :
    s.firstLog path localtime logSize now (some listing) = (newLog path localtime now, 0) := by
  rw [firstLog_eq]
  cases hsearch : search path logSize s 0 listing with
  | some found =>
      obtain ⟨st, hlog, -⟩ := h.search_some hperm hsearch
      exact absurd ⟨_, st, hlog⟩ hnone
  | none => rfl

end OneChoice

/-- When there is no choice the log that is chosen is the latest. -/
theorem OneChoice.chooses (h : OneChoice path localtime logSize s now) :
    ChoosesLatest path localtime logSize s now := by
  refine ⟨fun _ hperm => h.latest hperm, fun _ hperm => h.fresh hperm,
    fun hdistinct listing listing' hperm hperm' => ?_⟩
  by_cases hexists : ∃ name st, s.ShortLog logSize name st
  · exact (h.latest hperm hexists).unique hdistinct (h.latest hperm' hexists)
  · rw [h.fresh hperm hexists, h.fresh hperm' hexists]

/-- An entry that is read first. -/
theorem perm_first (h : name ∈ s.dir.keys) : (name :: s.dir.keys.erase name).Perm s.dir.keys :=
  (List.perm_cons_erase h).symm

theorem ChoosesLatest.only (h : ChoosesLatest path localtime logSize s now)
    (hname : name ∈ s.dir.keys) (hentry : logEntry path s.dir name st)
    (hshort : ((s.data st.ino).length : Int) < logSize.toInt) (hpos : 0 < st.mtime) :
    s.IsLatest logSize (filepath path name, (s.data st.ino).length) := by
  have hfirst : s.firstLog path localtime logSize now (some (name :: s.dir.keys.erase name)) =
      (filepath path name, (s.data st.ino).length) := by
    rw [firstLog_eq, search, findLog_cons hentry, if_pos hpos, if_pos hshort]
    rfl
  by_cases hexists : ∃ name st, s.ShortLog logSize name st
  · exact hfirst ▸ h.latest _ (perm_first hname) hexists
  · have hnew := h.fresh _ (perm_first hname) hexists
    rw [hfirst, newLog_eq] at hnew
    have hown := filepath_eq_logName (Prod.mk.inj hnew).1
    exact absurd ⟨name, st, shortLog_of_entry hentry hshort hown⟩ hexists

/-- A search that finds a log, when the new one would not do. -/
theorem ChoosesLatest.search_some (h : ChoosesLatest path localtime logSize s now)
    (hexists : ∃ name st, s.ShortLog logSize name st)
    (hnew : ¬ s.IsLatest logSize (newLog path localtime now, 0)) (hperm : listing.Perm s.dir.keys) :
    ∃ found, search path logSize s 0 listing = some found ∧ s.IsLatest logSize found := by
  have hlatest := h.latest listing hperm hexists
  rw [firstLog_eq] at hlatest
  cases hsearch : search path logSize s 0 listing with
  | some found =>
      rw [hsearch] at hlatest
      exact ⟨found, rfl, hlatest⟩
  | none =>
      rw [hsearch] at hlatest
      exact absurd hlatest hnew

/-- A search that chooses the latest under every order of the listing has one choice. -/
theorem ChoosesLatest.oneChoice (h : ChoosesLatest path localtime logSize s now) :
    OneChoice path localtime logSize s now := by
  refine ⟨fun name hname st hentry hshort hpos => h.only hname hentry hshort hpos,
    fun hexists => ?_⟩
  by_cases hnew : s.IsLatest logSize (newLog path localtime now, 0)
  · exact .inl hnew
  obtain ⟨found, hsearch, hlatest⟩ := h.search_some hexists hnew (List.Perm.refl _)
  obtain ⟨name, -, st, hentry, -, hpos, rfl⟩ := findLog_some hsearch
  obtain ⟨hlog, hmax⟩ := hlatest.shortLog hentry.2.1
  refine .inr ⟨filepath path name, st, hlog, filepath_filepath path name, hpos, ?_⟩
  intro name' hname' st' hentry' hlong
  -- the entry that is too long is read first, and the latest log is found behind it
  obtain ⟨found', hsearch', hlatest'⟩ := h.search_some hexists hnew (perm_first hname')
  rw [search, findLog_cons hentry', if_neg (Int.not_lt.2 hlong)] at hsearch'
  by_cases hpos' : 0 < st'.mtime
  · rw [if_pos hpos'] at hsearch'
    obtain ⟨name2, -, st2, hentry2, -, hlater, rfl⟩ := findLog_some hsearch'
    obtain ⟨hlog2, -⟩ := hlatest'.shortLog hentry2.2.1
    exact Int.lt_of_lt_of_le hlater (hmax _ st2 hlog2)
  · exact Int.lt_of_le_of_lt (Int.not_lt.1 hpos') hpos

end Choice

end Recorder

/-- The latest log is chosen in every order of the directory exactly when there is no choice. -/
theorem first_log_latest_iff (path : FPath) (localtime : Int → Tm) (logSize : u32) (s : Recorder)
    (now : Int) : Recorder.ChoosesLatest path localtime logSize s now ↔
      Recorder.OneChoice path localtime logSize s now :=
  ⟨Recorder.ChoosesLatest.oneChoice, Recorder.OneChoice.chooses⟩

/-- Two logs; the older one is listed first. -/
def twoDays : LogDir :=
  (∅ : LogDir).insert "b.ubx".toList ⟨1, 2000, true⟩ |>.insert "a.ubx".toList ⟨0, 1000, true⟩

theorem twoDays_ino : ∀ e ∈ twoDays.entries, e.2.ino < 2 ∧
    ∀ e' ∈ twoDays.entries, e.2.ino = e'.2.ino → e.1 = e'.1 := by
  decide

/-- Each has one byte. -/
def dayLogs : OldLogs where
  dir := twoDays
  data := fun _ => [{ pos := none, val := 0xB5 }]
  nextIno := 2
  ino_lt := fun _ _ hst => (twoDays_ino _ (AList.mem_lookup_iff.1 hst)).1
  ino_inj := fun _ _ _ _ hst hst' hino =>
    (twoDays_ino _ (AList.mem_lookup_iff.1 hst)).2 _ (AList.mem_lookup_iff.1 hst') hino
  old := fun _ b hb => by rw [List.mem_singleton.1 hb]

/-- The recorder goes on with the older one. -/
theorem first_log_is_older : ¬ ∀ (path : FPath) (localtime : Int → Tm) (logSize : u32)
    (old : OldLogs) (now : Int),
    Recorder.ChoosesLatest path localtime logSize old.recorder now := by
  intro hall
  have hchoice := hall ⟨"/var/app/gnss".toList, by decide⟩ (fun _ => ⟨70, 0, 1, 0, 0, 0⟩) 100
    dayLogs 3000
  have holder : dayLogs.recorder.ShortLog 100 "a.ubx".toList ⟨0, 1000, true⟩ :=
    ⟨by decide, by decide, rfl, by decide⟩
  have hnewer : dayLogs.recorder.ShortLog 100 "b.ubx".toList ⟨1, 2000, true⟩ :=
    ⟨by decide, by decide, rfl, by decide⟩
  have hlatest := hchoice.latest dayLogs.dir.keys (List.Perm.refl _) ⟨_, _, holder⟩
  have hfirst : dayLogs.recorder.dir.lookup "a.ubx".toList = some ⟨0, 1000, true⟩ := holder.lookup
  obtain ⟨-, hmax⟩ := hlatest.shortLog hfirst
  exact absurd (hmax _ _ hnewer) (by decide)

end ConfigEnv.Gps
