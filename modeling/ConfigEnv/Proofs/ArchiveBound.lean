/-
Module: ConfigEnv.Proofs.ArchiveBound
Layer: Proofs
Purpose: How many archives a run of rotations leaves. The loop of `log_rotate` counts the archives
  and finds the oldest of those that are older than the clock; so it removes one with the smallest
  time or none, and none although there are many when the clock is behind all of them.
Trusted boundary: none
Main exports: isArchive, Scanned, scanArchives_spec, oldestArchive_oldest, oldestArchive_isSome,
  Rotation.CanRemove, archives_bounded
Open obligations: none
-/
import ConfigEnv.Gps.LogRotate

namespace ConfigEnv.Gps

open Machine (Run Always)

/-- What `log_rotate` takes for an archive. -/
def isArchive (name : Name) (st : LogFile) : Bool := isGz name && st.regular

/-- An archive of the directory with its modification time. -/
def LogDir.ArchiveAt (dir : LogDir) (name : Name) (mtime : Int) : Prop :=
  ∃ st, dir.lookup name = some st ∧ isArchive name st = true ∧ st.mtime = mtime

/-- The names with the suffix of an archive fit the buffer. -/
def LogDir.GzFit (path : FPath) (dir : LogDir) : Prop :=
  ∀ name ∈ dir, isGz name = true → filepath path name = name

/-! ### The loop -/

/-- What the loop knows of the names that it has seen. -/
structure Scanned (dir : LogDir) (now : Int) (seen : List Name) (s : ArchiveScan) : Prop where
  count_eq : s.fileCount =
    seen.countP fun name => (dir.lookup name).any (isArchive name)
  le_now : s.oldestTime ≤ now
  none_eq : s.oldestFile = none → s.oldestTime = now
  some_mem : ∀ name, s.oldestFile = some name → dir.ArchiveAt name s.oldestTime
  le_mtime : ∀ name ∈ seen, ∀ mtime, dir.ArchiveAt name mtime → s.oldestTime ≤ mtime

section Scan

variable {path : FPath} {dir : LogDir} {now : Int} {seen : List Name} {s : ArchiveScan}
  {name : Name}

/-- A name that is no archive changes nothing. -/
theorem Scanned.skip (h : Scanned dir now seen s)
    (hno : (dir.lookup name).any (isArchive name) = false) :
    Scanned dir now (seen ++ [name]) s where
  count_eq := by
    rw [List.countP_append, h.count_eq]
    simp [hno]
  le_now := h.le_now
  none_eq := h.none_eq
  some_mem := h.some_mem
  le_mtime := by
    intro name' hname' mtime hat
    rcases List.mem_append.1 hname' with hold | hnew
    · exact h.le_mtime name' hold mtime hat
    · obtain ⟨st, hst, harch, -⟩ := hat
      cases List.mem_singleton.1 hnew
      rw [hst, Option.any_some, harch] at hno
      cases hno

/-- Looking at one more archive keeps what the scan knows. -/
theorem Scanned.add {st : LogFile} (h : Scanned dir now seen s) (hst : dir.lookup name = some st)
    (harch : isArchive name st = true) : Scanned dir now (seen ++ [name]) (s.add name st) := by
  have hcount : s.fileCount + 1 =
      (seen ++ [name]).countP fun name => (dir.lookup name).any (isArchive name) := by
    rw [List.countP_append, h.count_eq]
    simp [hst, harch]
  have hnew : ∀ name' ∈ seen ++ [name], ∀ mtime, dir.ArchiveAt name' mtime →
      s.oldestTime ≤ mtime ∨ mtime = st.mtime := by
    intro name' hname' mtime hat
    rcases List.mem_append.1 hname' with hold | hlast
    · exact .inl (h.le_mtime name' hold mtime hat)
    · obtain ⟨st', hst', -, rfl⟩ := hat
      cases List.mem_singleton.1 hlast
      rw [hst] at hst'
      cases hst'
      exact .inr rfl
  rw [ArchiveScan.add]
  by_cases holder : st.mtime < s.oldestTime
  · rw [if_pos holder]
    refine ⟨hcount, Int.le_trans (Int.le_of_lt holder) h.le_now, nofun, ?_, ?_⟩
    · intro name' hname'
      cases hname'
      exact ⟨st, hst, harch, rfl⟩
    · intro name' hname' mtime hat
      rcases hnew name' hname' mtime hat with hle | rfl
      · exact Int.le_trans (Int.le_of_lt holder) hle
      · exact Int.le_refl _
  · rw [if_neg holder]
    refine ⟨hcount, h.le_now, h.none_eq, h.some_mem, ?_⟩
    intro name' hname' mtime hat
    rcases hnew name' hname' mtime hat with hle | rfl
    · exact hle
    · exact Int.not_lt.1 holder

/-- One round of the loop, on a name that fits the buffer. -/
theorem Scanned.step (h : Scanned dir now seen s)
    (hfit : isGz name = true → filepath path name = name) :
    Scanned dir now (seen ++ [name]) (archiveScanStep path dir s name) := by
  rw [archiveScanStep]
  by_cases hgz : isGz name = true
  · rw [if_pos hgz, hfit hgz]
    cases hst : dir.lookup name with
    | none => exact h.skip (by rw [hst]; rfl)
    | some st =>
        dsimp only
        by_cases hregular : st.regular = true
        · rw [if_pos hregular]
          exact h.add hst (by rw [isArchive, hgz, hregular]; rfl)
        · rw [if_neg hregular]
          exact h.skip (by rw [hst, Option.any_some, isArchive, hgz]; simpa using hregular)
  · rw [if_neg hgz]
    apply h.skip
    cases dir.lookup name with
    | none => rfl
    | some st => rw [Option.any_some, isArchive, Bool.eq_false_iff.2 hgz]; rfl

/-- A scan of the whole listing knows the whole listing. -/
theorem Scanned.foldl (path : FPath) {listing : List Name} (h : Scanned dir now seen s)
    (hfit : ∀ name ∈ listing, isGz name = true → filepath path name = name) :
    Scanned dir now (seen ++ listing) (listing.foldl (archiveScanStep path dir) s) := by
  induction listing generalizing seen s with
  | nil => rwa [List.append_nil]
  | cons name listing ih =>
      have hrest := ih (h.step (hfit name List.mem_cons_self))
        fun name' hname' => hfit name' (List.mem_cons_of_mem name hname')
      rwa [List.append_assoc, List.singleton_append] at hrest

/-- The whole loop. -/
theorem scanArchives_spec (now : Int) {listing : List Name} (hfit : dir.GzFit path)
    (hlisting : listing.Perm dir.keys) :
    Scanned dir now listing (scanArchives path dir now listing) := by
  have hstart : Scanned dir now [] { fileCount := 0, oldestTime := now, oldestFile := none } :=
    ⟨rfl, Int.le_refl now, fun _ => rfl, nofun, fun _ h => absurd h List.not_mem_nil⟩
  have hall := hstart.foldl path fun name hname =>
    hfit name (AList.mem_keys.2 (hlisting.mem_iff.1 hname))
  rwa [List.nil_append] at hall

end Scan

/-! ### The removal -/

section Remove

variable {path : FPath} {dir : LogDir} {now : Int} {listing : List Name} {name : Name}

/-- The loop counts the archives. -/
theorem scanArchives_count (hfit : dir.GzFit path) (hlisting : listing.Perm dir.keys) :
    (scanArchives path dir now listing).fileCount = Directory.count isArchive dir := by
  rw [(scanArchives_spec now hfit hlisting).count_eq, hlisting.countP_eq]
  apply Directory.count_eq_keys
  intro name st hst
  rw [hst, Option.any_some]

/-- What is removed is an archive that no other is older than. -/
theorem oldestArchive_oldest (hfit : dir.GzFit path) (hlisting : listing.Perm dir.keys)
    (h : oldestArchive path dir now listing = some name) :
    ∃ mtime, dir.ArchiveAt name mtime ∧
      ∀ name' mtime', dir.ArchiveAt name' mtime' → mtime ≤ mtime' := by
  have hscan := scanArchives_spec now hfit hlisting
  rw [oldestArchive] at h
  split at h
  · refine ⟨_, hscan.some_mem name h, fun name' mtime' hat => ?_⟩
    have hmem : name' ∈ listing := by
      obtain ⟨st, hst, -⟩ := hat
      exact hlisting.mem_iff.2 (AList.mem_keys.1 (AList.lookup_isSome.1 (by rw [hst]; rfl)))
    exact hscan.le_mtime name' hmem mtime' hat
  · cases h

/-- With many archives one is removed if one is older than the clock. -/
theorem oldestArchive_isSome (hfit : dir.GzFit path) (hlisting : listing.Perm dir.keys)
    (hmany : maxFiles - 1 ≤ Directory.count isArchive dir)
    (holder : ∃ name mtime, dir.ArchiveAt name mtime ∧ mtime < now) :
    ∃ name, oldestArchive path dir now listing = some name := by
  have hscan := scanArchives_spec now hfit hlisting
  rw [oldestArchive, scanArchives_count hfit hlisting, if_pos hmany]
  cases hnone : (scanArchives path dir now listing).oldestFile with
  | some name => exact ⟨name, rfl⟩
  | none =>
      obtain ⟨name, mtime, hat, hlt⟩ := holder
      have hmem : name ∈ listing := by
        obtain ⟨st, hst, -⟩ := hat
        exact hlisting.mem_iff.2 (AList.mem_keys.1 (AList.lookup_isSome.1 (by rw [hst]; rfl)))
      have hle := hscan.le_mtime name hmem mtime hat
      rw [hscan.none_eq hnone] at hle
      exact absurd hlt (Int.not_lt.2 hle)

end Remove

/-! ### Runs -/

/-- The condition on a step: a rotation that finds many archives finds one older than the clock. -/
def Rotation.CanRemove (path : FPath) (s : Rotation) : RotationEvent → Prop
  | .rotate now _ _ _ => s.dir.GzFit path ∧ (maxFiles - 1 ≤ Directory.count isArchive s.dir →
      ∃ name mtime, s.dir.ArchiveAt name mtime ∧ mtime < now)
  | _ => True

/-- There is room for the archive that gzip is about to make. -/
def Rotation.Bounded (s : Rotation) : Prop :=
  Directory.count isArchive s.dir + (if s.gzip = none then 0 else 1) ≤ maxFiles - 1

/-- A removed archive was the oldest of those in the directory. -/
def RemovesOldest (o : Option (Name × LogDir)) : Prop :=
  ∀ r ∈ o, ∃ mtime, r.2.ArchiveAt r.1 mtime ∧
    ∀ name mtime', r.2.ArchiveAt name mtime' → mtime ≤ mtime'

/-- A bounded directory holds fewer archives than `MAX_FILES`. -/
theorem Rotation.Bounded.count_le {s : Rotation} (h : s.Bounded) :
    Directory.count isArchive s.dir ≤ maxFiles - 1 :=
  (Nat.le_add_right _ _).trans h

section Steps

variable {path : FPath} {s s' : Rotation} {o : Option (Name × LogDir)}

/-- A rotation leaves room for one more archive. -/
theorem count_logRotate (now : Int) {listing : List Name} (hfit : s.dir.GzFit path)
    (hlisting : listing.Perm s.dir.keys) (hle : Directory.count isArchive s.dir ≤ maxFiles - 1)
    (holder : maxFiles - 1 ≤ Directory.count isArchive s.dir →
      ∃ name mtime, s.dir.ArchiveAt name mtime ∧ mtime < now) :
    Directory.count isArchive (logRotate path s.dir now listing) + 1 ≤ maxFiles - 1 := by
  by_cases hmany : maxFiles - 1 ≤ Directory.count isArchive s.dir
  · obtain ⟨name, hname⟩ := oldestArchive_isSome hfit hlisting hmany (holder hmany)
    obtain ⟨mtime, ⟨st, hst, harch, -⟩, -⟩ := oldestArchive_oldest hfit hlisting hname
    have hsplit : Directory.count isArchive s.dir =
        1 + Directory.count isArchive (s.dir.erase name) := by
      rw [Directory.count, Directory.total_eq _ hst, if_pos harch]
      rfl
    rw [logRotate, hname]
    dsimp only
    omega
  · have hkeep : Directory.count isArchive (logRotate path s.dir now listing) ≤
        Directory.count isArchive s.dir := by
      rw [logRotate]
      split
      · exact Directory.count_erase_le _ _ _
      · exact le_refl _
    omega

/-- A rotation keeps the bound, and what it removes is an oldest archive. -/
theorem bounded_rotate {now : Int} {listing : List Name} {file : Name} {forked : Bool}
    (h : s.Bounded) (hcan : s.CanRemove path (.rotate now listing file forked))
    (hstep : rotationStep path s (.rotate now listing file forked) = .ok (s', o)) :
    s'.Bounded ∧ RemovesOldest o := by
  rw [rotationStep] at hstep
  split at hstep
  · next hready =>
      cases hstep
      constructor
      · have hroom := count_logRotate now hcan.1 hready.2 h.count_le hcan.2
        have hone : ∀ gzip : Option Name, (if gzip = none then 0 else 1) ≤ 1 := fun gzip => by
          split <;> decide
        specialize hone (if forked then some file else none)
        rw [Rotation.Bounded]
        dsimp only
        omega
      · intro r hr
        obtain ⟨name, hname, rfl⟩ := Option.map_eq_some_iff.1 hr
        exact oldestArchive_oldest hcan.1 hready.2 hname
  · cases hstep

/-- gzip takes the room that was left for it. -/
theorem bounded_gzip {ok : Bool} {archive : LogFile} (h : s.Bounded)
    (hstep : rotationStep path s (.gzip ok archive) = .ok (s', o)) :
    s'.Bounded ∧ RemovesOldest o := by
  rw [rotationStep] at hstep
  split at hstep
  · next file hfile =>
      rw [Rotation.Bounded, hfile, if_neg nofun] at h
      split at hstep
      · cases hstep
        refine ⟨?_, nofun⟩
        have hinsert :=
          Directory.count_insert_le isArchive (s.dir.erase file) (gzipName file) archive
        have herase := Directory.count_erase_le isArchive s.dir file
        have hone : (if isArchive (gzipName file) archive = true then 1 else 0) ≤ 1 := by
          split <;> decide
        rw [Rotation.Bounded, if_pos rfl]
        dsimp only
        omega
      · cases hstep
        refine ⟨?_, nofun⟩
        rw [Rotation.Bounded, if_pos rfl]
        exact (Nat.le_add_right _ _).trans h
  · cases hstep

/-- A change of a time leaves the archives what they are. -/
theorem count_touch {dir : LogDir} {name : Name} {st : LogFile} (hst : dir.lookup name = some st)
    (mtime : Int) : Directory.count isArchive (dir.insert name { st with mtime := mtime }) =
      Directory.count isArchive dir := by
  rw [Directory.count, Directory.count, Directory.total_insert, Directory.total_eq _ hst]
  rfl

/-- What every step keeps. -/
theorem rotationStep_bounded {e : RotationEvent} (h : s.Bounded) (hcan : s.CanRemove path e)
    (hstep : rotationStep path s e = .ok (s', o)) : s'.Bounded ∧ RemovesOldest o := by
  cases e with
  | rotate now listing file forked => exact bounded_rotate h hcan hstep
  | gzip ok archive => exact bounded_gzip h hstep
  | touch name mtime =>
      rw [rotationStep] at hstep
      split at hstep
      · next st hst =>
          cases hstep
          refine ⟨?_, nofun⟩
          rw [Rotation.Bounded] at h ⊢
          dsimp only
          rwa [count_touch hst]
      · cases hstep
  | create name st =>
      rw [rotationStep] at hstep
      split at hstep
      · next hnew =>
          cases hstep
          refine ⟨?_, nofun⟩
          have hno : (if isArchive name st = true then 1 else 0) = 0 := by
            rw [isArchive, hnew.1]
            rfl
          have hinsert := Directory.count_insert_le isArchive s.dir name st
          rw [hno, Nat.zero_add] at hinsert
          rw [Rotation.Bounded] at h ⊢
          dsimp only
          omega
      · cases hstep

end Steps

/-- In every run from at most 49 archives in which no rotation finds 49 of them with none older than
the clock, there are never more, and every archive that is removed is the oldest. -/
theorem archives_bounded (path : FPath) {dir : LogDir} {s : Rotation}
    {t : List (RotationEvent × Option (Name × LogDir))}
    (hstart : Directory.count isArchive dir ≤ maxFiles - 1)
    (hrun : Run (rotationMachine path) { dir := dir, gzip := none } t s)
    (hcan : Always (rotationMachine path) { dir := dir, gzip := none } (t.map Prod.fst)
      fun q e => q.CanRemove path e) :
    Directory.count isArchive s.dir ≤ maxFiles - 1 ∧ ∀ e ∈ t, RemovesOldest e.2 := by
  have hfirst : Rotation.Bounded { dir := dir, gzip := none } := hstart
  have hkept := hcan.invariant Rotation.Bounded (fun _ o => RemovesOldest o) hrun hfirst
    fun q e o q' hq hcond hstep => rotationStep_bounded hq hcond hstep
  exact ⟨hkept.1.count_le, hkept.2⟩

/-- The default log directory, with a log and 49 archives from the time 100. -/
def varAppGnss : FPath := ⟨"/var/app/gnss".toList, by decide⟩

def logUbx : Name := "log.ubx".toList

def manyArchives : LogDir :=
  (List.range 49).foldl (fun dir k => dir.insert (twoDigits k ++ gzSuffix) ⟨k, 100, true⟩)
    (AList.singleton logUbx ⟨49, 100, true⟩)

/-- A rotation at `now`, and gzip. -/
def rotateAt (now : Int) : List RotationEvent :=
  [.rotate now manyArchives.keys logUbx true, .gzip true ⟨50, 100, true⟩]

theorem archives_bounded_later : ∃ t s,
    Run (rotationMachine varAppGnss) { dir := manyArchives, gzip := none } t s ∧
      t.map Prod.fst = rotateAt 200 ∧ Directory.count isArchive s.dir ≤ maxFiles - 1 ∧
        ∀ e ∈ t, RemovesOldest e.2 := by
  have hends : Machine.endsIn (rotationStep varAppGnss) { dir := manyArchives, gzip := none }
      (rotateAt 200) (fun _ => true) = true := by decide +kernel
  obtain ⟨t, s, hrun, hinputs, -⟩ := Machine.run_of_endsIn hends
  refine ⟨t, s, hrun, hinputs, archives_bounded varAppGnss (by decide +kernel) hrun ?_⟩
  rw [hinputs]
  refine .cons ⟨?_, fun _ => ?_⟩ fun _ _ _ => .of_mem fun e he q => ?_
  · have hkeys : ∀ name ∈ manyArchives.keys, isGz name = true →
        filepath varAppGnss name = name := by
      decide +kernel
    exact fun name hname => hkeys name (AList.mem_keys.1 hname)
  · exact ⟨"00.gz".toList, 100, ⟨⟨0, 100, true⟩, by decide +kernel, by decide, rfl⟩, by decide⟩
  · cases List.mem_singleton.1 he
    exact trivial

/-- With the clock set back none is removed, and gzip makes the fiftieth. -/
theorem archives_unbounded :
    ¬ ∀ (path : FPath) (dir : LogDir) (s : Rotation)
      (t : List (RotationEvent × Option (Name × LogDir))),
      Directory.count isArchive dir ≤ maxFiles - 1 →
      Run (rotationMachine path) { dir := dir, gzip := none } t s →
      Directory.count isArchive s.dir ≤ maxFiles - 1 ∧ ∀ e ∈ t, RemovesOldest e.2 := by
  intro hall
  have hends : Machine.endsIn (rotationStep varAppGnss) { dir := manyArchives, gzip := none }
      (rotateAt 50) (fun s => Directory.count isArchive s.dir = 50) = true := by decide +kernel
  obtain ⟨t, s, hrun, -, hcount⟩ := Machine.run_of_endsIn hends
  have hle := (hall varAppGnss manyArchives s t (by decide +kernel) hrun).1
  rw [of_decide_eq_true hcount] at hle
  exact absurd hle (by decide)

end ConfigEnv.Gps
