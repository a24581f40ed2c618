/-
Module: ConfigEnv.Proofs.LogBytes
Layer: Proofs
Purpose: Where the bytes from the serial port are. Every byte that has been read is counted once,
  over the contents of all files except those that gzip has copied and not yet removed, the archives
  that rotation has removed, and the buffer of the open log; every one of these contents is in
  order. A step keeps the count as long as no new log takes the name of a file that gzip is still to
  remove. The archives that rotation removes for their age take their bytes with them.
Trusted boundary: none
Main exports: places, InOrder, Sane, Kept, recordStep_recording, InOrderOnce, Recorder.FreshName,
  bytes_kept
Open obligations: none
-/
import ConfigEnv.Proofs.ArchiveBound
import ConfigEnv.Proofs.LogNames
import Mathlib.Data.Multiset.Range
import Mathlib.Algebra.Order.Group.Multiset
import Mathlib.Tactic.Abel

namespace ConfigEnv.Gps

open Machine (Run Always)

/-- The places of the bytes of a content. -/
def places (bytes : List LoggedByte) : Multiset Nat := ↑(bytes.filterMap LoggedByte.pos)

@[simp] theorem places_nil : places [] = 0 := rfl

/-- The places of two pieces of a file. -/
theorem places_append (bytes bytes' : List LoggedByte) :
    places (bytes ++ bytes') = places bytes + places bytes' := by
  rw [places, List.filterMap_append]
  rfl

theorem filterMap_marked (n : Nat) (buf : List u8) :
    (marked n buf).filterMap LoggedByte.pos = List.range' n buf.length := by
  rw [marked, List.filterMap_map, ← List.zipIdx_map_snd n buf]
  change (buf.zipIdx n).filterMap (some ∘ Prod.snd) = _
  rw [List.filterMap_eq_map]

/-- A buffer that is written takes the next places of the stream. -/
theorem places_marked (n : Nat) (buf : List u8) :
    Multiset.range n + places (marked n buf) = Multiset.range (n + buf.length) := by
  rw [places, filterMap_marked, Multiset.range, Multiset.range, List.range_eq_range',
    List.range_eq_range', Multiset.coe_add, ← List.range'_append_1, Nat.zero_add]

/-- What has been read stands in its order and with its values. -/
structure InOrder (stream : List u8) (bytes : List LoggedByte) : Prop where
  sorted : (bytes.filterMap LoggedByte.pos).Pairwise (· < ·)
  right : ∀ b ∈ bytes, ∀ k, b.pos = some k → stream[k]? = some b.val

section Order

variable {stream : List u8} {bytes bytes' : List LoggedByte}

theorem inOrder_old (h : ∀ b ∈ bytes, b.pos = none) : InOrder stream bytes := by
  have hnone : bytes.filterMap LoggedByte.pos = [] := List.filterMap_eq_nil_iff.2 h
  refine ⟨by rw [hnone]; exact List.Pairwise.nil, fun b hb k hk => ?_⟩
  rw [h b hb] at hk
  cases hk

/-- A first piece of what is in order is in order. -/
theorem InOrder.left (h : InOrder stream (bytes ++ bytes')) : InOrder stream bytes := by
  refine ⟨?_, fun b hb => h.right b (List.mem_append_left _ hb)⟩
  have hsorted := h.sorted
  rw [List.filterMap_append] at hsorted
  exact (List.pairwise_append.1 hsorted).1

/-- What is read next goes behind everything. -/
theorem InOrder.fwrite (h : InOrder stream bytes) (buf : List u8) :
    InOrder (stream ++ buf) (bytes ++ marked stream.length buf) := by
  have hlt : ∀ k ∈ bytes.filterMap LoggedByte.pos, k < stream.length := by
    intro k hk
    obtain ⟨b, hb, hpos⟩ := List.mem_filterMap.1 hk
    exact (List.getElem?_eq_some_iff.1 (h.right b hb k hpos)).1
  constructor
  · rw [List.filterMap_append, filterMap_marked, List.pairwise_append]
    refine ⟨h.sorted, List.pairwise_lt_range' 1, fun k hk k' hk' => ?_⟩
    exact (hlt k hk).trans_le (List.mem_range'_1.1 hk').1
  · intro b hb k hk
    rcases List.mem_append.1 hb with hold | hnew
    · have hat := h.right b hold k hk
      rwa [List.getElem?_append_left (List.getElem?_eq_some_iff.1 hat).1]
    · obtain ⟨⟨val, pos⟩, hin, rfl⟩ := List.mem_map.1 hnew
      cases hk
      obtain ⟨hle, hat⟩ := List.mk_mem_zipIdx_iff_le_and_getElem?_sub.1 hin
      rwa [List.getElem?_append_right hle]

/-- What is in order stays in order when more is read. -/
theorem InOrder.mono (h : InOrder stream bytes) (buf : List u8) :
    InOrder (stream ++ buf) bytes := (h.fwrite buf).left

end Order

/-! ### The invariants -/

/-- Names, contents and processes are as they should be: no two names have one content, the files of
the gzip processes are different logs, and none of them is the open log. -/
structure Sane (s : Recorder) : Prop where
  ino_lt : ∀ name st, s.dir.lookup name = some st → st.ino < s.nextIno
  ino_inj : ∀ name name' st st', s.dir.lookup name = some st → s.dir.lookup name' = some st' →
    st.ino = st'.ino → name = name'
  short : ∀ name ∈ s.dir, name.length ≤ 63 ∧ (isUbx name = true → name.length ≤ 60)
  gzips_nodup : (s.gzips.map Gzip.file).Nodup
  gzips_ubx : ∀ process ∈ s.gzips, isUbx process.file = true
  fp_file : ∀ ino, s.fp = some ino → isUbx s.file = true ∧ s.file ∉ s.gzips.map Gzip.file ∧
    ∃ st, s.dir.lookup s.file = some st ∧ st.ino = ino
  closed : s.fp = none → s.buffered = []

/-- What a file counts for: nothing while gzip has its bytes in the archive already. -/
def weight (gzips : List Gzip) (data : Nat → List LoggedByte) (name : Name) (st : LogFile) :
    Multiset Nat :=
  if { file := name, copied := true } ∈ gzips then 0 else places (data st.ino)

/-- The sum depends on the contents, and on the files that gzip has copied. -/
theorem total_weight_congr {gzips gzips' : List Gzip} {data data' : Nat → List LoggedByte}
    {dir : LogDir}
    (hcopied : ∀ name st, dir.lookup name = some st →
      (({ file := name, copied := true } : Gzip) ∈ gzips' ↔
        ({ file := name, copied := true } : Gzip) ∈ gzips))
    (hdata : ∀ name st, dir.lookup name = some st → data' st.ino = data st.ino) :
    Directory.total (weight gzips' data') dir = Directory.total (weight gzips data) dir := by
  apply Directory.total_congr
  intro name st hst
  rw [weight, weight, hdata name st hst]
  exact if_congr (hcopied name st hst) rfl rfl

/-- Every byte that has been read is counted once, and every content is in order. -/
structure Kept (s : Recorder) : Prop where
  once : Directory.total (weight s.gzips s.data) s.dir + (s.removed.map places).sum +
    places s.buffered = Multiset.range s.stream.length
  inOrder : ∀ name st, s.dir.lookup name = some st → InOrder s.stream (s.data st.ino)
  fp_inOrder : ∀ ino, s.fp = some ino → InOrder s.stream (s.data ino ++ s.buffered)
  removed_inOrder : ∀ bytes ∈ s.removed, InOrder s.stream bytes
  named : ∀ name st, s.dir.lookup name = some st → places (s.data st.ino) ≠ 0 →
    isUbx name = true ∨ isGz name = true

section Ops

variable {s : Recorder}

/-! ### Reading and writing -/

/-- A write to the open file keeps the recorder sane. -/
theorem Sane.fwrite (h : Sane s) (hfp : s.fp ≠ none) (buf : List u8) : Sane (s.fwrite buf) :=
  ⟨h.ino_lt, h.ino_inj, h.short, h.gzips_nodup, h.gzips_ubx, h.fp_file,
    fun hnone => absurd hnone hfp⟩

/-- A write to the open file keeps every byte. -/
theorem Kept.fwrite (h : Kept s) (buf : List u8) : Kept (s.fwrite buf) where
  once := by
    change _ + _ + places (s.buffered ++ marked _ _) = Multiset.range (s.stream ++ buf).length
    rw [places_append, ← add_assoc, List.length_append, ← places_marked, ← h.once]
    rfl
  inOrder := fun name st hst => (h.inOrder name st hst).mono buf
  fp_inOrder := by
    intro ino hino
    change InOrder (s.stream ++ buf) (s.data ino ++ (s.buffered ++ marked _ _))
    rw [← List.append_assoc]
    exact (h.fp_inOrder ino hino).fwrite buf
  removed_inOrder := fun bytes hbytes => (h.removed_inOrder bytes hbytes).mono buf
  named := h.named

/-- A flush keeps the recorder sane. -/
theorem Sane.flush (h : Sane s) (n : Nat) : Sane (s.flush n) := by
  rw [Recorder.flush]
  split
  · next ino hfp =>
      exact ⟨h.ino_lt, h.ino_inj, h.short, h.gzips_nodup, h.gzips_ubx, h.fp_file,
        fun hnone => absurd (hfp.symm.trans hnone) nofun⟩
  · exact h

/-- Bytes that go to the content of the open log. -/
theorem total_flush (h : Sane s) {ino : Nat} (hfp : s.fp = some ino) (bytes : List LoggedByte) :
    Directory.total (weight s.gzips (Function.update s.data ino (s.data ino ++ bytes))) s.dir =
      Directory.total (weight s.gzips s.data) s.dir + places bytes := by
  obtain ⟨-, hfree, st, hst, rfl⟩ := h.fp_file ino hfp
  have hno : ¬ ({ file := s.file, copied := true } : Gzip) ∈ s.gzips :=
    fun hin => hfree (List.mem_map_of_mem hin)
  have hrest : Directory.total
      (weight s.gzips (Function.update s.data st.ino (s.data st.ino ++ bytes)))
        (s.dir.erase s.file) = Directory.total (weight s.gzips s.data) (s.dir.erase s.file) := by
    apply total_weight_congr (fun _ _ _ => Iff.rfl)
    intro name st' hst'
    obtain ⟨hne, hst'⟩ := Directory.lookup_of_erase hst'
    have hino : st'.ino ≠ st.ino := fun heq => hne (h.ino_inj _ _ _ _ hst' hst heq)
    exact Function.update_of_ne hino _ _
  rw [Directory.total_eq _ hst, Directory.total_eq _ hst, hrest, weight, weight, if_neg hno,
    if_neg hno, Function.update_self, places_append]
  abel

/-- A flush keeps every byte. -/
theorem Kept.flush (h : Kept s) (hs : Sane s) (n : Nat) : Kept (s.flush n) := by
  rw [Recorder.flush]
  split
  · next ino hfp =>
      obtain ⟨hubx, -, st, hst, hino⟩ := hs.fp_file ino hfp
      have hsplit : s.data ino ++ s.buffered =
          (s.data ino ++ s.buffered.take n) ++ s.buffered.drop n := by
        rw [List.append_assoc, List.take_append_drop]
      have hopen := h.fp_inOrder ino hfp
      rw [hsplit] at hopen
      refine ⟨?_, ?_, ?_, h.removed_inOrder, ?_⟩
      · have hbuffered : places s.buffered =
            places (s.buffered.take n) + places (s.buffered.drop n) := by
          rw [← places_append, List.take_append_drop]
        dsimp only
        rw [total_flush hs hfp, ← h.once, hbuffered]
        abel
      · intro name st' hst'
        dsimp only at hst' ⊢
        by_cases heq : st'.ino = ino
        · rw [heq, Function.update_self]
          exact hopen.left
        · rw [Function.update_of_ne heq]
          exact h.inOrder name st' hst'
      · intro ino' hino'
        dsimp only at hino' ⊢
        cases hfp.symm.trans hino'
        rw [Function.update_self]
        exact hopen
      · intro name st' hst' hne
        dsimp only at hst' hne
        by_cases heq : st'.ino = ino
        · rw [hs.ino_inj name s.file st' st hst' hst (heq.trans hino.symm)]
          exact .inl hubx
        · rw [Function.update_of_ne heq] at hne
          exact h.named name st' hst' hne
  · exact h

/-- Nothing is buffered after `fclose`. -/
theorem fclose_buffered (h : Sane s) : s.fclose.buffered = [] := by
  rw [Recorder.fclose, Recorder.flush]
  split
  · exact List.drop_length
  · next hfp => exact h.closed hfp

/-- Closing keeps the recorder sane. -/
theorem Sane.fclose (h : Sane s) : Sane s.fclose := by
  have hflush := h.flush s.buffered.length
  exact ⟨hflush.ino_lt, hflush.ino_inj, hflush.short, hflush.gzips_nodup, hflush.gzips_ubx, nofun,
    fun _ => fclose_buffered h⟩

/-- Closing keeps every byte. -/
theorem Kept.fclose (h : Kept s) (hs : Sane s) : Kept s.fclose := by
  have hflush := h.flush hs s.buffered.length
  exact ⟨hflush.once, hflush.inOrder, nofun, hflush.removed_inOrder, hflush.named⟩

/-! ### The directory -/

/-- A directory without one of its names. -/
theorem Sane.erase (h : Sane s) {name : Name} (hfp : s.fp ≠ none → s.file ≠ name)
    (removed : List (List LoggedByte)) :
    Sane { s with dir := s.dir.erase name, removed := removed } := by
  have hsub : ∀ name' st, (s.dir.erase name).lookup name' = some st →
      s.dir.lookup name' = some st := fun _ _ hst => (Directory.lookup_of_erase hst).2
  refine ⟨fun name' st hst => h.ino_lt name' st (hsub name' st hst), ?_, ?_, h.gzips_nodup,
    h.gzips_ubx, ?_, h.closed⟩
  · intro name' name'' st st' hst hst'
    exact h.ino_inj name' name'' st st' (hsub _ _ hst) (hsub _ _ hst')
  · exact fun name' hname' => h.short name' (AList.mem_erase.1 hname').2
  · intro ino hino
    obtain ⟨hubx, hfree, st, hst, hst_ino⟩ := h.fp_file ino hino
    have hne : s.file ≠ name := hfp fun hnone => absurd (hnone.symm.trans hino) nofun
    exact ⟨hubx, hfree, st, (AList.lookup_erase_ne hne).trans hst, hst_ino⟩

theorem Sane.gzFit (h : Sane s) (path : FPath) : s.dir.GzFit path :=
  fun name hname _ => filepath_of_short path (h.short name hname).1

/-- The oldest archive takes its bytes with it. -/
theorem kept_removeOldest (h : Kept s) (hs : Sane s) (hfp : s.fp = none) (path : FPath) (now : Int)
    {listing : List Name} (hlisting : listing.Perm s.dir.keys) :
    Sane (s.removeOldest path now listing) ∧ Kept (s.removeOldest path now listing) := by
  rw [Recorder.removeOldest, logRotate]
  cases hold : oldestArchive path s.dir now listing with
  | none =>
      dsimp only
      rw [Option.bind_none, Option.toList_none, List.map_nil, List.append_nil]
      exact ⟨hs, h⟩
  | some name =>
      obtain ⟨mtime, ⟨st, hst, harch, -⟩, -⟩ := oldestArchive_oldest (hs.gzFit path) hlisting hold
      have hgz : isGz name = true := (Bool.and_eq_true _ _ ▸ harch : _ ∧ _).1
      dsimp only
      rw [Option.bind_some, hst, Option.toList_some, List.map_singleton]
      have hclosed : s.fp ≠ none → s.file ≠ name := fun hopen => absurd hfp hopen
      refine ⟨hs.erase hclosed _, ?_, ?_,
        fun ino hino => (Option.some_ne_none ino (hino.symm.trans hfp)).elim, ?_, ?_⟩
      · -- no gzip is at work on an archive
        have hno : ¬ ({ file := name, copied := true } : Gzip) ∈ s.gzips := fun hin => by
          have hubx := hs.gzips_ubx _ hin
          rw [isGz_of_isUbx hubx] at hgz
          cases hgz
        have honce := h.once
        rw [Directory.total_eq _ hst, weight, if_neg hno] at honce
        dsimp only
        rw [List.map_append, List.sum_append, List.map_singleton, List.sum_singleton, ← honce]
        abel
      · exact fun name' st' hst' => h.inOrder name' st' (Directory.lookup_of_erase hst').2
      · intro bytes hbytes
        rcases List.mem_append.1 hbytes with hin | hnew
        · exact h.removed_inOrder bytes hin
        · cases List.mem_singleton.1 hnew
          exact h.inOrder name st hst
      · exact fun name' st' hst' => h.named name' st' (Directory.lookup_of_erase hst').2

/-- A new file with a content of its own: an empty log, or an archive. -/
theorem Sane.insert (h : Sane s) {name : Name} (hnew : s.dir.lookup name = none) (mtime : Int)
    (bytes : List LoggedByte)
    (hshort : name.length ≤ 63 ∧ (isUbx name = true → name.length ≤ 60)) :
    Sane { s with
      dir := s.dir.insert name { ino := s.nextIno, mtime := mtime, regular := true }
      data := Function.update s.data s.nextIno bytes
      nextIno := s.nextIno + 1 } := by
  refine ⟨?_, ?_, ?_, h.gzips_nodup, h.gzips_ubx, ?_, h.closed⟩
  · intro name' st hst
    rcases Directory.lookup_of_insert hst with ⟨-, rfl⟩ | ⟨-, hst⟩
    · exact Nat.lt_succ_self _
    · exact Nat.lt_succ_of_lt (h.ino_lt name' st hst)
  · intro name' name'' st st' hst hst' hino
    rcases Directory.lookup_of_insert hst with ⟨rfl, rfl⟩ | ⟨-, hold⟩ <;>
      rcases Directory.lookup_of_insert hst' with ⟨rfl, rfl⟩ | ⟨-, hold'⟩
    · rfl
    · exact absurd hino (Nat.ne_of_gt (h.ino_lt _ _ hold'))
    · exact absurd hino (Nat.ne_of_lt (h.ino_lt _ _ hold))
    · exact h.ino_inj name' name'' st st' hold hold' hino
  · intro name' hname'
    rcases AList.mem_insert _ |>.1 hname' with rfl | hold
    · exact hshort
    · exact h.short name' hold
  · intro ino hino
    obtain ⟨hubx, hfree, st, hst, hst_ino⟩ := h.fp_file ino hino
    have hne : s.file ≠ name := fun heq => by
      rw [heq, hnew] at hst
      cases hst
    exact ⟨hubx, hfree, st, (AList.lookup_insert_ne hne).trans hst, hst_ino⟩

/-- The contents that were there are still the same. -/
theorem Sane.data_insert (h : Sane s) {name : Name} {st : LogFile}
    (hst : s.dir.lookup name = some st) (bytes : List LoggedByte) :
    Function.update s.data s.nextIno bytes st.ino = s.data st.ino :=
  Function.update_of_ne (Nat.ne_of_lt (h.ino_lt name st hst)) _ _

/-- Opening a log that no `gzip` works on keeps the recorder sane. -/
theorem Sane.fopen (h : Sane s) (hfp : s.fp = none) {file : Name} (hubx : isUbx file = true)
    (hlen : file.length ≤ 60) (hfree : file ∉ s.gzips.map Gzip.file) (now : Int) (opened : Bool) :
    Sane (s.fopen file now opened) := by
  have hclosed : s.buffered = [] := h.closed hfp
  rw [Recorder.fopen]
  split
  · split
    · next st hst =>
        refine ⟨h.ino_lt, h.ino_inj, h.short, h.gzips_nodup, h.gzips_ubx, fun ino hino => ?_,
          fun _ => hclosed⟩
        refine ⟨hubx, hfree, st, hst, ?_⟩
        dsimp only at hino
        split at hino
        · exact Option.some.inj hino
        · cases hino
    · next hnew =>
        have hins := h.insert hnew now [] ⟨hlen.trans (by decide), fun _ => hlen⟩
        refine ⟨hins.ino_lt, hins.ino_inj, hins.short, hins.gzips_nodup, hins.gzips_ubx,
          fun ino hino => ?_, nofun⟩
        exact ⟨hubx, hfree, _, AList.lookup_insert _, Option.some.inj hino⟩
  · exact ⟨h.ino_lt, h.ino_inj, h.short, h.gzips_nodup, h.gzips_ubx,
      fun ino hino => absurd (hfp.symm.trans hino) nofun, fun _ => hclosed⟩

/-- Opening a log keeps every byte. -/
theorem Kept.fopen (h : Kept s) (hs : Sane s) (hfp : s.fp = none) {file : Name}
    (now : Int) (opened : Bool) : Kept (s.fopen file now opened) := by
  have hclosed : s.buffered = [] := hs.closed hfp
  rw [Recorder.fopen]
  split
  · split
    · next st hst =>
        refine ⟨h.once, h.inOrder, fun ino hino => ?_, h.removed_inOrder, h.named⟩
        dsimp only at hino ⊢
        split at hino
        · cases hino
          rw [hclosed, List.append_nil]
          exact h.inOrder file st hst
        · cases hino
    · next hnew =>
        have hnew' : file ∉ s.dir := AList.lookup_eq_none.1 hnew
        refine ⟨?_, ?_, ?_, h.removed_inOrder, ?_⟩
        · have hempty : weight s.gzips (Function.update s.data s.nextIno []) file
              { ino := s.nextIno, mtime := now, regular := true } = 0 := by
            rw [weight, Function.update_self]
            split <;> rfl
          have hrest :
              Directory.total (weight s.gzips (Function.update s.data s.nextIno [])) s.dir =
                Directory.total (weight s.gzips s.data) s.dir :=
            total_weight_congr (fun _ _ _ => Iff.rfl) fun _ _ hst => hs.data_insert hst _
          dsimp only
          rw [Directory.total_insert, Directory.total_erase_of_notMem _ hnew', hempty, hrest,
            zero_add]
          exact h.once
        · intro name st hst
          rcases Directory.lookup_of_insert hst with ⟨-, rfl⟩ | ⟨-, hst⟩
          · dsimp only
            rw [Function.update_self]
            exact inOrder_old nofun
          · dsimp only
            rw [hs.data_insert hst]
            exact h.inOrder name st hst
        · intro ino hino
          cases Option.some.inj hino
          dsimp only
          rw [Function.update_self, hclosed]
          exact inOrder_old nofun
        · intro name st hst hne
          rcases Directory.lookup_of_insert hst with ⟨-, rfl⟩ | ⟨-, hst⟩
          · dsimp only at hne
            rw [Function.update_self] at hne
            exact absurd places_nil hne
          · dsimp only at hne
            rw [hs.data_insert hst] at hne
            exact h.named name st hst hne
  · exact ⟨h.once, h.inOrder, fun ino hino => absurd (hfp.symm.trans hino) nofun,
      h.removed_inOrder, h.named⟩

/-! ### gzip -/

section Gzip

variable {process : Gzip}

/-- The processes change, their files do not. -/
theorem Sane.withGzips (h : Sane s) {gzips : List Gzip} (hnodup : (gzips.map Gzip.file).Nodup)
    (hsub : ∀ file ∈ gzips.map Gzip.file, file ∈ s.gzips.map Gzip.file) :
    Sane { s with gzips := gzips } := by
  refine ⟨h.ino_lt, h.ino_inj, h.short, hnodup, fun process hin => ?_, fun ino hino => ?_, h.closed⟩
  · obtain ⟨old, hold, hfile⟩ := List.mem_map.1 (hsub _ (List.mem_map_of_mem hin))
    exact hfile ▸ h.gzips_ubx old hold
  · obtain ⟨hubx, hfree, hst⟩ := h.fp_file ino hino
    exact ⟨hubx, fun hin => hfree (hsub _ hin), hst⟩

theorem Sane.eraseGzip (h : Sane s) (process : Gzip) :
    Sane { s with gzips := s.gzips.erase process } :=
  h.withGzips (h.gzips_nodup.sublist (List.erase_sublist.map _))
    fun _ hfile => (List.erase_sublist.map _).subset hfile

/-- The file of a process has no other process. -/
theorem Sane.gzip_eq (h : Sane s) {process' : Gzip} (hin : process ∈ s.gzips)
    (hin' : process' ∈ s.gzips) (hfile : process.file = process'.file) : process = process' :=
  List.inj_on_of_nodup_map h.gzips_nodup hin hin' hfile

/-- gzip removes its file, which did not count any more. -/
theorem kept_gzipRemove (h : Kept s) (hs : Sane s) (hin : process ∈ s.gzips)
    (hcopied : process.copied = true) :
    Sane { s with dir := s.dir.erase process.file, gzips := s.gzips.erase process } ∧
      Kept { s with dir := s.dir.erase process.file, gzips := s.gzips.erase process } := by
  have hprocess : process = { file := process.file, copied := true } := by rw [← hcopied]
  have hother : s.fp ≠ none → s.file ≠ process.file := by
    intro hopen heq
    obtain ⟨ino, hino⟩ := Option.ne_none_iff_exists'.1 hopen
    exact (hs.fp_file ino hino).2.1 (heq ▸ List.mem_map_of_mem hin)
  have hrest : Directory.total (weight (s.gzips.erase process) s.data) (s.dir.erase process.file) =
      Directory.total (weight s.gzips s.data) (s.dir.erase process.file) := by
    apply total_weight_congr ?_ fun _ _ _ => rfl
    intro name st hst
    have hne := (Directory.lookup_of_erase hst).1
    exact List.mem_erase_of_ne fun heq => hne (congrArg Gzip.file heq)
  have hsame : Directory.total (weight s.gzips s.data) s.dir =
      Directory.total (weight s.gzips s.data) (s.dir.erase process.file) := by
    cases hst : s.dir.lookup process.file with
    | none => rw [Directory.erase_of_notMem (AList.lookup_eq_none.1 hst)]
    | some st => rw [Directory.total_eq _ hst, weight, if_pos (hprocess ▸ hin), zero_add]
  refine ⟨(hs.eraseGzip process).erase hother s.removed, ?_, ?_, h.fp_inOrder, h.removed_inOrder,
    ?_⟩
  · dsimp only
    rw [hrest, ← hsame]
    exact h.once
  · exact fun name st hst => h.inOrder name st (Directory.lookup_of_erase hst).2
  · exact fun name st hst => h.named name st (Directory.lookup_of_erase hst).2

/-- A process that gives up has changed nothing. -/
theorem kept_gzipRefuse (h : Kept s) (hs : Sane s) (hcopied : process.copied = false) :
    Sane { s with gzips := s.gzips.erase process } ∧
      Kept { s with gzips := s.gzips.erase process } := by
  have hsame : Directory.total (weight (s.gzips.erase process) s.data) s.dir =
      Directory.total (weight s.gzips s.data) s.dir := by
    apply total_weight_congr ?_ fun _ _ _ => rfl
    intro name st _
    apply List.mem_erase_of_ne
    intro heq
    rw [← heq] at hcopied
    cases hcopied
  refine ⟨hs.eraseGzip process, ?_, h.inOrder, h.fp_inOrder, h.removed_inOrder, h.named⟩
  dsimp only
  rw [hsame]
  exact h.once

/-- `gzip` starts on a file only where no compressed one is there. -/
theorem gzipAccepts_iff {dir : LogDir} {file : Name} (h : gzipAccepts dir file = true) :
    dir.lookup (gzipName file) = none := by
  rw [gzipAccepts, Bool.and_eq_true] at h
  exact Option.isNone_iff_eq_none.1 h.2

theorem perm_gzipCopy (hin : process ∈ s.gzips) :
    (({ process with copied := true } :: s.gzips.erase process).map Gzip.file).Perm
      (s.gzips.map Gzip.file) :=
  ((List.perm_cons_erase hin).map Gzip.file).symm

/-- The archive of a log has the name of an archive. -/
theorem Sane.gzip_name (h : Sane s) {st : LogFile} (hin : process ∈ s.gzips)
    (hst : s.dir.lookup process.file = some st) :
    isGz (gzipName process.file) = true ∧ (gzipName process.file).length ≤ 63 ∧
      (isUbx (gzipName process.file) = true → (gzipName process.file).length ≤ 60) := by
  have hubx := h.gzips_ubx process hin
  have hmem : process.file ∈ s.dir := AList.lookup_isSome.1 (by rw [hst]; rfl)
  have hlen := (h.short process.file hmem).2 hubx
  have hgz := isGz_gzipName hubx
  refine ⟨hgz, ?_, fun hboth => ?_⟩
  · rw [length_gzipName]
    omega
  · rw [isGz_of_isUbx hboth] at hgz
    cases hgz

/-- The copy that `gzip` writes keeps the recorder sane. -/
theorem Sane.gzipCopy (h : Sane s) {st : LogFile} (hin : process ∈ s.gzips)
    (hst : s.dir.lookup process.file = some st)
    (hfree : s.dir.lookup (gzipName process.file) = none) (mtime : Int) :
    Sane (s.gzipCopy process st mtime) := by
  have hperm := perm_gzipCopy hin
  have hins := h.insert hfree mtime (s.data st.ino) (h.gzip_name hin hst).2
  exact hins.withGzips (hperm.nodup_iff.2 h.gzips_nodup) fun _ hfile => hperm.mem_iff.1 hfile

/-- The archive counts for its file from now on. -/
theorem Kept.gzipCopy (h : Kept s) (hs : Sane s) {st : LogFile} (hin : process ∈ s.gzips)
    (hcopied : process.copied = false) (hst : s.dir.lookup process.file = some st)
    (hfree : s.dir.lookup (gzipName process.file) = none) (mtime : Int) :
    Kept (s.gzipCopy process st mtime) := by
  let gzips : List Gzip := { process with copied := true } :: s.gzips.erase process
  let data := Function.update s.data s.nextIno (s.data st.ino)
  have hgz := (hs.gzip_name hin hst).1
  have hnocopy : ¬ ({ file := process.file, copied := true } : Gzip) ∈ s.gzips := fun hin' => by
    rw [hs.gzip_eq hin hin' rfl] at hcopied
    cases hcopied
  have harchive : ¬ ({ file := gzipName process.file, copied := true } : Gzip) ∈ gzips := by
    intro hin'
    obtain ⟨old, hold, hfile⟩ :=
      List.mem_map.1 ((perm_gzipCopy hin).mem_iff.1 (List.mem_map_of_mem hin'))
    have hubx := hs.gzips_ubx old hold
    rw [hfile] at hubx
    rw [isGz_of_isUbx hubx] at hgz
    cases hgz
  have hdata : ∀ name st', s.dir.lookup name = some st' → data st'.ino = s.data st'.ino :=
    fun _ _ hold => hs.data_insert hold _
  have hcopy : data s.nextIno = s.data st.ino := Function.update_self _ _ _
  have hrest : Directory.total (weight gzips data) (s.dir.erase process.file) =
      Directory.total (weight s.gzips s.data) (s.dir.erase process.file) := by
    apply total_weight_congr
    · intro name st' hst'
      have hne := (Directory.lookup_of_erase hst').1
      rw [List.mem_cons, List.mem_erase_of_ne fun heq => hne (congrArg Gzip.file heq)]
      exact or_iff_right fun heq => hne (congrArg Gzip.file heq)
    · intro name st' hst'
      exact hdata name st' (Directory.lookup_of_erase hst').2
  have hnew : weight gzips data (gzipName process.file)
      { ino := s.nextIno, mtime := mtime, regular := true } = places (s.data st.ino) := by
    rw [weight, if_neg harchive, hcopy]
  refine ⟨?_, ?_, ?_, h.removed_inOrder, ?_⟩
  · have honce := h.once
    rw [Directory.total_eq _ hst, weight, if_neg hnocopy] at honce
    change Directory.total (weight gzips data) _ + _ + _ = _
    rw [Recorder.gzipCopy]
    dsimp only
    rw [Directory.total_insert, Directory.total_erase_of_notMem _ (AList.lookup_eq_none.1 hfree),
      Directory.total_eq _ hst, hnew, hrest, weight, if_pos List.mem_cons_self, zero_add]
    exact honce
  · intro name st' hst'
    rcases Directory.lookup_of_insert hst' with ⟨-, rfl⟩ | ⟨-, hold⟩
    · change InOrder s.stream (data s.nextIno)
      rw [hcopy]
      exact h.inOrder process.file st hst
    · change InOrder s.stream (data st'.ino)
      rw [hdata name st' hold]
      exact h.inOrder name st' hold
  · intro ino hino
    obtain ⟨-, -, st', hst', rfl⟩ := hs.fp_file ino hino
    change InOrder s.stream (data st'.ino ++ s.buffered)
    rw [hdata s.file st' hst']
    exact h.fp_inOrder st'.ino hino
  · intro name st' hst' hne
    rcases Directory.lookup_of_insert hst' with ⟨rfl, -⟩ | ⟨-, hold⟩
    · exact .inr hgz
    · change places (data st'.ino) ≠ 0 at hne
      rw [hdata name st' hold] at hne
      exact h.named name st' hold hne

/-- A step of gzip. -/
theorem kept_gzip (h : Kept s) (hs : Sane s) (hin : process ∈ s.gzips) (mtime : Int) :
    Sane (s.gzip process mtime) ∧ Kept (s.gzip process mtime) := by
  rw [Recorder.gzip]
  split
  · next hcopied => exact kept_gzipRemove h hs hin hcopied
  · next hcopied =>
      rw [Bool.not_eq_true] at hcopied
      split
      · next st hst =>
          split
          · next haccepts =>
              have hfree := gzipAccepts_iff haccepts
              exact ⟨hs.gzipCopy hin hst hfree mtime, h.gzipCopy hs hin hcopied hst hfree mtime⟩
          · exact kept_gzipRefuse h hs hcopied
      · exact kept_gzipRefuse h hs hcopied

end Gzip

/-- A change of a time changes nothing else. -/
theorem kept_touch (h : Kept s) (hs : Sane s) {name : Name} {st : LogFile}
    (hst : s.dir.lookup name = some st) (mtime : Int) :
    Sane { s with dir := s.dir.insert name { st with mtime := mtime } } ∧
      Kept { s with dir := s.dir.insert name { st with mtime := mtime } } := by
  -- every file still has its content
  have hsame : ∀ name' st', (s.dir.insert name { st with mtime := mtime }).lookup name' = some st' →
      ∃ st₀, s.dir.lookup name' = some st₀ ∧ st₀.ino = st'.ino := by
    intro name' st' hst'
    rcases Directory.lookup_of_insert hst' with ⟨rfl, rfl⟩ | ⟨-, hold⟩
    · exact ⟨st, hst, rfl⟩
    · exact ⟨st', hold, rfl⟩
  constructor
  · refine ⟨?_, ?_, ?_, hs.gzips_nodup, hs.gzips_ubx, ?_, hs.closed⟩
    · intro name' st' hst'
      obtain ⟨st₀, hst₀, hino⟩ := hsame name' st' hst'
      exact hino ▸ hs.ino_lt name' st₀ hst₀
    · intro name' name'' st' st'' hst' hst'' hino
      obtain ⟨st₀, hst₀, hino₀⟩ := hsame name' st' hst'
      obtain ⟨st₁, hst₁, hino₁⟩ := hsame name'' st'' hst''
      exact hs.ino_inj name' name'' st₀ st₁ hst₀ hst₁ (hino₀.trans (hino.trans hino₁.symm))
    · intro name' hname'
      rcases AList.mem_insert _ |>.1 hname' with rfl | hold
      · exact hs.short name' (AList.lookup_isSome.1 (by rw [hst]; rfl))
      · exact hs.short name' hold
    · intro ino hino
      obtain ⟨hubx, hfree, st', hst', hst_ino⟩ := hs.fp_file ino hino
      by_cases heq : s.file = name
      · rw [heq, hst] at hst'
        cases hst'
        refine ⟨hubx, hfree, { st with mtime := mtime }, ?_, hst_ino⟩
        change (s.dir.insert name _).lookup s.file = _
        rw [heq]
        exact AList.lookup_insert _
      · exact ⟨hubx, hfree, st', (AList.lookup_insert_ne heq).trans hst', hst_ino⟩
  · refine ⟨?_, ?_, h.fp_inOrder, h.removed_inOrder, ?_⟩
    · have honce := h.once
      rw [Directory.total_eq _ hst] at honce
      dsimp only
      rw [Directory.total_insert]
      exact honce
    · intro name' st' hst'
      obtain ⟨st₀, hst₀, hino⟩ := hsame name' st' hst'
      exact hino ▸ h.inOrder name' st₀ hst₀
    · intro name' st' hst' hne
      obtain ⟨st₀, hst₀, hino⟩ := hsame name' st' hst'
      exact h.named name' st₀ hst₀ (hino ▸ hne)

/-- A process more. -/
theorem kept_fork (h : Kept s) (hs : Sane s) (hfp : s.fp = none) (hubx : isUbx s.file = true)
    (hfree : s.file ∉ s.gzips.map Gzip.file) (forked : Bool) :
    Sane (s.fork forked) ∧ Kept (s.fork forked) := by
  rw [Recorder.fork]
  split
  · have hsame : Directory.total
        (weight (s.gzips ++ [{ file := s.file, copied := false }]) s.data) s.dir =
          Directory.total (weight s.gzips s.data) s.dir := by
      apply total_weight_congr ?_ fun _ _ _ => rfl
      intro name st _
      rw [List.mem_append]
      exact or_iff_left fun hin => absurd (List.mem_singleton.1 hin) (by simp)
    constructor
    · refine ⟨hs.ino_lt, hs.ino_inj, hs.short, ?_, ?_, fun ino hino =>
        absurd (hfp.symm.trans hino) nofun, hs.closed⟩
      · dsimp only
        rw [List.map_append, List.map_singleton]
        refine List.nodup_append.2 ⟨hs.gzips_nodup, List.nodup_singleton _,
          fun file hin _ hnew heq => ?_⟩
        rw [heq, List.mem_singleton.1 hnew] at hin
        exact hfree hin
      · intro process hin
        rcases List.mem_append.1 hin with hold | hnew
        · exact hs.gzips_ubx process hold
        · rw [List.mem_singleton.1 hnew]
          exact hubx
    · refine ⟨?_, h.inOrder, h.fp_inOrder, h.removed_inOrder, h.named⟩
      dsimp only
      rw [hsame]
      exact h.once
  · exact ⟨hs, h⟩

/-- The other variables do not matter. -/
theorem Sane.others (h : Sane s) (phase : RecordPhase) (fsize : u32) :
    Sane { s with phase := phase, fsize := fsize } :=
  ⟨h.ino_lt, h.ino_inj, h.short, h.gzips_nodup, h.gzips_ubx, h.fp_file, h.closed⟩

theorem Kept.others (h : Kept s) (phase : RecordPhase) (fsize : u32) :
    Kept { s with phase := phase, fsize := fsize } :=
  ⟨h.once, h.inOrder, h.fp_inOrder, h.removed_inOrder, h.named⟩

end Ops

/-! ### Steps -/

/-- The invariant. -/
structure Recording (s : Recorder) : Prop where
  sane : Sane s
  kept : Kept s
  fp_some : s.phase = .reading ∨ s.phase = .full → s.fp ≠ none
  fp_none : s.phase = .start ∨ s.phase = .rotated → s.fp = none
  gzips_nil : s.phase = .start → s.gzips = []

/-- The condition on a step: a new log does not take the name of a file that gzip is still to
remove. -/
def Recorder.FreshName (path : FPath) (localtime : Int → Tm) (s : Recorder) : RecordEvent → Prop
  | .reopen now _ => newLog path localtime now ∉ s.gzips.map Gzip.file
  | _ => True

instance (path : FPath) (localtime : Int → Tm) (s : Recorder) :
    ∀ e : RecordEvent, Decidable (s.FreshName path localtime e)
  | .reopen now _ => inferInstanceAs (Decidable (Recorder.newLog path localtime now ∉ _))
  | .start _ _ _ => inferInstanceAs (Decidable True)
  | .read _ _ => inferInstanceAs (Decidable True)
  | .exit => inferInstanceAs (Decidable True)
  | .rotate _ _ _ => inferInstanceAs (Decidable True)
  | .gzip _ _ => inferInstanceAs (Decidable True)
  | .touch _ _ => inferInstanceAs (Decidable True)

section Steps

variable {path : FPath} {localtime : Int → Tm} {logSize : u32} {s s' : Recorder} {u : Unit}

/-- The name of a new log is that of a `.ubx` file, and short. -/
theorem newLog_ubx (path : FPath) (localtime : Int → Tm) (now : Int) :
    isUbx (Recorder.newLog path localtime now) = true ∧
      (Recorder.newLog path localtime now).length ≤ 60 := by
  rw [newLog_eq]
  exact ⟨isUbx_logName _, by rw [length_logName]; decide⟩

/-- The log that is continued is a `.ubx` file with a short name. -/
theorem findLog_ubx {dir : LogDir} {size : Nat → Nat} {limit mtime : Int} {listing : List Name}
    {found : Name × Nat}
    (hshort : ∀ name ∈ listing, name.length ≤ 63 ∧ (isUbx name = true → name.length ≤ 60))
    (h : findLog path dir size limit mtime listing = some found) :
    isUbx found.1 = true ∧ found.1.length ≤ 60 := by
  induction listing generalizing mtime with
  | nil => cases h
  | cons name listing ih =>
      have hrest : ∀ mtime, findLog path dir size limit mtime listing = some found →
          isUbx found.1 = true ∧ found.1.length ≤ 60 :=
        fun mtime => ih fun name' hname' => hshort name' (List.mem_cons_of_mem name hname')
      rw [findLog] at h
      split at h
      · next hubx =>
          split at h
          · split at h
            · split at h
              · cases h
                have hname := hshort name List.mem_cons_self
                rw [filepath_of_short path hname.1]
                exact ⟨hubx, hname.2 hubx⟩
              · exact hrest _ h
            · exact hrest _ h
          · exact hrest _ h
      · exact hrest _ h

/-- The first log is a `.ubx` file with a short name. -/
theorem firstLog_ubx (path : FPath) (localtime : Int → Tm) (logSize : u32) (h : Sane s) (now : Int)
    {listing : Option (List Name)} (hlisting : ∀ names ∈ listing, names.Perm s.dir.keys) :
    isUbx (s.firstLog path localtime logSize now listing).1 = true ∧
      (s.firstLog path localtime logSize now listing).1.length ≤ 60 := by
  rw [Recorder.firstLog]
  split
  · next found hfound =>
      obtain ⟨names, rfl, hfound⟩ := Option.bind_eq_some_iff.1 hfound
      have hperm := hlisting names rfl
      exact findLog_ubx (fun name hname =>
        h.short name (AList.mem_keys.2 (hperm.mem_iff.1 hname))) hfound
  · exact newLog_ubx path localtime now

theorem record_phase (s : Recorder) : s.record.phase = .finished ∨ s.record.phase = .reading := by
  by_cases hnone : s.fp = none
  · exact .inl (if_pos hnone)
  · exact .inr (if_neg hnone)

/-- The recorder with its next log, or without one. -/
theorem recording_record (h : Kept s) (hs : Sane s) (fsize : u32) :
    Recording ({ s with fsize := fsize } : Recorder).record := by
  have hphase := record_phase { s with fsize := fsize }
  refine ⟨hs.others _ _, h.others _ _, ?_, ?_, ?_⟩
  · intro hopen hnone
    have hfinished : ({ s with fsize := fsize } : Recorder).record.phase = .finished :=
      if_pos hnone
    rw [hfinished] at hopen
    rcases hopen with hopen | hopen <;> cases hopen
  · intro hidle
    rcases hphase with hcase | hcase <;> rw [hcase] at hidle <;>
      rcases hidle with hidle | hidle <;> cases hidle
  · intro hstart
    rcases hphase with hcase | hcase <;> rw [hcase] at hstart <;> cases hstart

theorem flush_fp (s : Recorder) (n : Nat) : (s.flush n).fp = s.fp := by
  rw [Recorder.flush]
  split <;> rfl

theorem fclose_fields (s : Recorder) :
    s.fclose.dir = s.dir ∧ s.fclose.file = s.file ∧ s.fclose.gzips = s.gzips := by
  rw [Recorder.fclose, Recorder.flush]
  split <;> exact ⟨rfl, rfl, rfl⟩

theorem fork_fp (s : Recorder) (forked : Bool) : (s.fork forked).fp = s.fp := by
  rw [Recorder.fork]
  split <;> rfl

theorem gzip_fields (s : Recorder) (process : Gzip) (mtime : Int) :
    (s.gzip process mtime).phase = s.phase ∧ (s.gzip process mtime).fp = s.fp := by
  rw [Recorder.gzip]
  split
  · exact ⟨rfl, rfl⟩
  · split
    · split <;> exact ⟨rfl, rfl⟩
    · exact ⟨rfl, rfl⟩

/-- Behind a rotation. -/
theorem recording_rotated (h : Kept s) (hs : Sane s) (hfp : s.fp = none) :
    Recording { s with phase := .rotated } :=
  ⟨hs.others _ _, h.others _ _, (by rintro (hopen | hopen) <;> cases hopen), fun _ => hfp, nofun⟩

/-- The log is closed and rotated. -/
theorem recording_rotate (h : Recording s) {now : Int} {listing : Option (List Name)}
    {forked : Bool}
    (hstep : recordStep path localtime logSize s (.rotate now listing forked) = .ok (s', u)) :
    Recording s' := by
  simp only [recordStep] at hstep
  split at hstep
  · next hphase =>
      obtain ⟨ino, hino⟩ := Option.ne_none_iff_exists'.1 (h.fp_some (.inr hphase))
      obtain ⟨hubx, hfree, -⟩ := h.sane.fp_file ino hino
      obtain ⟨hdir, hfile, hgzips⟩ := fclose_fields s
      have hs := h.sane.fclose
      have hk := h.kept.fclose h.sane
      split at hstep
      · cases hstep
        exact recording_rotated hk hs rfl
      · next names =>
          split at hstep
          · next hperm =>
              cases hstep
              rw [← hdir] at hperm
              obtain ⟨hs₁, hk₁⟩ := kept_removeOldest hk hs rfl path now hperm
              obtain ⟨hs₂, hk₂⟩ := kept_fork hk₁ hs₁ rfl (hfile.symm ▸ hubx)
                (by change s.fclose.file ∉ s.fclose.gzips.map _; rwa [hfile, hgzips]) forked
              exact recording_rotated hk₂ hs₂ (fork_fp _ forked)
          · cases hstep
  · cases hstep

/-- A round of the loop. -/
theorem recording_read (h : Recording s) {buf : List u8} {flushed : Nat}
    (hstep : recordStep path localtime logSize s (.read buf flushed) = .ok (s', u)) :
    Recording s' := by
  simp only [recordStep] at hstep
  split at hstep
  · next hphase =>
      cases hstep
      have hopen := h.fp_some (.inl hphase.1)
      have hs := h.sane.fwrite hopen buf
      have hk := h.kept.fwrite buf
      refine ⟨(hs.flush flushed).others _ _, (hk.flush hs flushed).others _ _, fun _ => ?_, ?_, ?_⟩
      · change ((s.fwrite buf).flush flushed).fp ≠ none
        rw [flush_fp]
        exact hopen
      · intro hidle
        dsimp only at hidle
        split at hidle <;> rcases hidle with hidle | hidle <;> cases hidle
      · intro hstart
        dsimp only at hstart
        split at hstart <;> cases hstart
  · cases hstep

/-- What every step keeps. -/
theorem recordStep_recording {e : RecordEvent} (h : Recording s)
    (hfresh : s.FreshName path localtime e)
    (hstep : recordStep path localtime logSize s e = .ok (s', u)) : Recording s' := by
  cases e with
  | start now listing opened =>
      simp only [recordStep] at hstep
      split at hstep
      · next hready =>
          cases hstep
          have hfp := h.fp_none (.inl hready.1)
          obtain ⟨hubx, hlen⟩ := firstLog_ubx path localtime logSize h.sane now hready.2
          have hfree : (s.firstLog path localtime logSize now listing).1 ∉
              s.gzips.map Gzip.file := by
            rw [h.gzips_nil hready.1]
            exact List.not_mem_nil
          exact recording_record (h.kept.fopen h.sane hfp now opened)
            (h.sane.fopen hfp hubx hlen hfree now opened) _
      · cases hstep
  | read buf flushed => exact recording_read h hstep
  | exit =>
      simp only [recordStep] at hstep
      split at hstep
      · cases hstep
        exact ⟨h.sane.fclose.others _ _, (h.kept.fclose h.sane).others _ _,
          (by rintro (hopen | hopen) <;> cases hopen), fun _ => rfl, nofun⟩
      · cases hstep
  | rotate now listing forked => exact recording_rotate h hstep
  | reopen now opened =>
      simp only [recordStep] at hstep
      split at hstep
      · next hphase =>
          cases hstep
          have hfp := h.fp_none (.inr hphase)
          obtain ⟨hubx, hlen⟩ := newLog_ubx path localtime now
          exact recording_record (h.kept.fopen h.sane hfp now opened)
            (h.sane.fopen hfp hubx hlen hfresh now opened) 0
      · cases hstep
  | gzip process mtime =>
      simp only [recordStep] at hstep
      split at hstep
      · next hin =>
          cases hstep
          obtain ⟨hs, hk⟩ := kept_gzip h.kept h.sane hin mtime
          obtain ⟨hphase, hfp⟩ := gzip_fields s process mtime
          refine ⟨hs, hk, by rw [hphase, hfp]; exact h.fp_some,
            by rw [hphase, hfp]; exact h.fp_none,
            fun hstart => ?_⟩
          rw [hphase] at hstart
          rw [h.gzips_nil hstart] at hin
          exact absurd hin List.not_mem_nil
      · cases hstep
  | touch name mtime =>
      simp only [recordStep] at hstep
      split at hstep
      · next st hst =>
          cases hstep
          obtain ⟨hs, hk⟩ := kept_touch h.kept h.sane hst mtime
          exact ⟨hs, hk, h.fp_some, h.fp_none, h.gzips_nil⟩
      · cases hstep

end Steps

/-! ### Runs -/

theorem places_old {bytes : List LoggedByte} (h : ∀ b ∈ bytes, b.pos = none) : places bytes = 0 :=
  congrArg _ (List.filterMap_eq_nil_iff.2 h)

/-- The recorder starts in the invariant. -/
theorem recording_start (old : OldLogs) (hshort : ∀ name ∈ old.dir, name.length ≤ 60) :
    Recording old.recorder where
  sane := ⟨old.ino_lt, old.ino_inj,
    fun name hname => ⟨(hshort name hname).trans (by decide), fun _ => hshort name hname⟩,
    List.nodup_nil, nofun, nofun, fun _ => rfl⟩
  kept := by
    refine ⟨?_, fun _ st _ => inOrder_old (old.old st.ino), nofun, nofun, fun _ st _ hne =>
      absurd (places_old (old.old st.ino)) hne⟩
    have hzero : Directory.total (weight [] old.data) old.dir = 0 :=
      Directory.total_eq_zero fun name st _ => by
        rw [weight, if_neg List.not_mem_nil]
        exact places_old (old.old st.ino)
    change Directory.total (weight [] old.data) old.dir + 0 + 0 = 0
    rw [hzero]
    rfl
  fp_some := by rintro (hopen | hopen) <;> cases hopen
  fp_none := fun _ => rfl
  gzips_nil := fun _ => rfl

/-- Every byte that has been read is in one place: in a log or an archive of the directory, in an
archive that rotation has removed, or in the buffer behind the open log; and what is together is in
order. -/
structure InOrderOnce (s : Recorder) : Prop where
  once : Directory.total (fun _ st => places (s.data st.ino)) s.dir + (s.removed.map places).sum +
    places s.buffered = Multiset.range s.stream.length
  files : ∀ name st, s.dir.lookup name = some st → InOrder s.stream (s.data st.ino) ∧
    (places (s.data st.ino) ≠ 0 → isUbx name = true ∨ isGz name = true)
  removed : ∀ bytes ∈ s.removed, InOrder s.stream bytes
  openLog : ∀ ino, s.fp = some ino → InOrder s.stream (s.data ino ++ s.buffered) ∧
    isUbx s.file = true ∧ ∃ st, s.dir.lookup s.file = some st ∧ st.ino = ino
  closed : s.fp = none → s.buffered = []

/-- In every run in which no new log takes the name of a file that gzip is still to remove, all
bytes are kept once and in order when all gzip processes have finished. -/
theorem bytes_kept (path : FPath) (localtime : Int → Tm) (logSize : u32) (old : OldLogs)
    (hshort : ∀ name ∈ old.dir, name.length ≤ 60) {t : List (RecordEvent × Unit)} {s : Recorder}
    (hrun : Run (recordMachine path localtime logSize) old.recorder t s)
    (hfresh : Always (recordMachine path localtime logSize) old.recorder (t.map Prod.fst)
      fun q e => q.FreshName path localtime e)
    (hdone : s.gzips = []) : InOrderOnce s := by
  obtain ⟨h, -⟩ := hfresh.invariant Recording (fun _ _ => True) hrun (recording_start old hshort)
    fun q e o q' hq hcond hstep => ⟨recordStep_recording hq hcond hstep, trivial⟩
  refine ⟨?_, fun name st hst => ⟨h.kept.inOrder name st hst, h.kept.named name st hst⟩,
    h.kept.removed_inOrder, fun ino hino => ⟨h.kept.fp_inOrder ino hino, ?_⟩, h.sane.closed⟩
  · have hall : Directory.total (weight s.gzips s.data) s.dir =
        Directory.total (fun _ st => places (s.data st.ino)) s.dir := by
      apply Directory.total_congr
      intro name st _
      rw [weight, hdone, if_neg List.not_mem_nil]
    rw [← hall]
    exact h.kept.once
  · obtain ⟨hubx, -, hst⟩ := h.sane.fp_file ino hino
    exact ⟨hubx, hst⟩

/-- A clock that shows the seconds of an hour. -/
def secondsOfHour (now : Int) : Tm :=
  { tmYear := 70, tmMon := 0, tmMday := 1, tmHour := 0
    tmMin := now.toNat / 60 % 60, tmSec := now.toNat % 60 }

/-- 48 archives from the time 2000, after which the clock was set back. -/
def laterArchives : LogDir :=
  (List.range 48).foldl (fun dir k => dir.insert (twoDigits k ++ gzSuffix) ⟨k, 2000, true⟩) ∅

/-- They are found by a recorder that has read nothing. -/
theorem laterArchives_ino : ∀ e ∈ laterArchives.entries, e.2.ino < 48 ∧
    ∀ e' ∈ laterArchives.entries, e.2.ino = e'.2.ino → e.1 = e'.1 := by
  decide +kernel

def laterLogs : OldLogs where
  dir := laterArchives
  data := fun _ => []
  nextIno := 48
  ino_lt := fun _ _ hst => (laterArchives_ino _ (AList.mem_lookup_iff.1 hst)).1
  ino_inj := fun _ _ _ _ hst hst' hino =>
    (laterArchives_ino _ (AList.mem_lookup_iff.1 hst)).2 _ (AList.mem_lookup_iff.1 hst') hino
  old := nofun

/-- The log that is opened at `now`, and the events from its first byte to its archive. -/
def logAt (now : Int) : Name := logName (secondsOfHour now)

def oneByteLog (opened now : Int) (b : u8) (names : List Name) : List RecordEvent :=
  [.read [b] 0, .rotate now (some (logAt opened :: names)) true,
    .gzip { file := logAt opened, copied := false } opened,
    .gzip { file := logAt opened, copied := true } opened]

/-- Two logs of one byte each. -/
def twoLogs : List RecordEvent :=
  .start 1000 (some laterArchives.keys) true :: oneByteLog 1000 1000 0xB5 laterArchives.keys ++
    .reopen 1001 true ::
      oneByteLog 1001 1002 0x62 (gzipName (logAt 1000) :: laterArchives.keys) ++
    [.reopen 1003 true, .exit]

theorem bytes_kept_two_logs : ∃ t s,
    Run (recordMachine varAppGnss secondsOfHour 0) laterLogs.recorder t s ∧
      t.map Prod.fst = twoLogs ∧ s.stream = [0xB5, 0x62] ∧ InOrderOnce s := by
  have hends : Machine.endsIn (recordStep varAppGnss secondsOfHour 0) laterLogs.recorder twoLogs
      (fun s => s.gzips = [] ∧ s.stream = [0xB5, 0x62]) = true := by decide +kernel
  obtain ⟨t, s, hrun, hinputs, hend⟩ := Machine.run_of_endsIn hends
  have hfresh : Machine.checks (recordStep varAppGnss secondsOfHour 0)
      (fun s e => decide (s.FreshName varAppGnss secondsOfHour e)) laterLogs.recorder twoLogs =
        true := by decide +kernel
  have hshort : ∀ name ∈ laterArchives.keys, name.length ≤ 60 := by decide +kernel
  obtain ⟨hdone, hstream⟩ := of_decide_eq_true hend
  refine ⟨t, s, hrun, hinputs, hstream, bytes_kept varAppGnss secondsOfHour 0 laterLogs
    (fun name hname => hshort name (AList.mem_keys.1 hname)) hrun ?_ hdone⟩
  rw [hinputs]
  exact (Machine.always_of_checks hfresh).imp fun q e hq => of_decide_eq_true hq

/-- In that run the second rotation removes the archive of the first log for its age. -/
theorem byte_removed :
    ¬ ∀ (path : FPath) (localtime : Int → Tm) (logSize : u32) (old : OldLogs)
      (t : List (RecordEvent × Unit)) (s : Recorder),
      Run (recordMachine path localtime logSize) old.recorder t s → s.gzips = [] →
      Directory.total (fun _ st => places (s.data st.ino)) s.dir + places s.buffered =
        Multiset.range s.stream.length := by
  intro hall
  have hends : Machine.endsIn (recordStep varAppGnss secondsOfHour 0) laterLogs.recorder twoLogs
      (fun s => s.gzips = [] ∧
        Directory.total (fun _ st => places (s.data st.ino)) s.dir + places s.buffered ≠
          Multiset.range s.stream.length) = true := by decide +kernel
  obtain ⟨t, s, hrun, -, hend⟩ := Machine.run_of_endsIn hends
  obtain ⟨hdone, hne⟩ := of_decide_eq_true hend
  exact hne (hall varAppGnss secondsOfHour 0 laterLogs t s hrun hdone)

end ConfigEnv.Gps
