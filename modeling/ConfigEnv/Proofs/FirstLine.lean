/-
Module: ConfigEnv.Proofs.FirstLine
Layer: Proofs
Purpose: When the first line of `/etc/TZ` becomes the time zone. Below 16 bytes `tz_update` compares
  what is before the first NUL or line end, except that a line end at the front stays; at 16 bytes
  its loop begins one past the end of the array. Twelve bytes of a new value reach the environment.
Trusted boundary: none
Main exports: wipe, cutLineEnds_cells, namedZone, cutLineEnds_content, setTz_eq, tzUpdate_long,
  tzUpdate_cons, tzUpdate_unset, tzUpdate_set, firstLine, upTo_wipe, namedZone_eq, SetsFirstLine,
  FitsArrays, first_line_set_iff
Open obligations: none
-/
import ConfigEnv.Gps.TimeZone

namespace ConfigEnv.Gps

open CharArray (Fault)

variable {s : TzState} {bytes rest : List u8} {b : u8} {i : Nat} {m : CharArray 16 u8}

/-! ### The loop -/

/-- What the loop makes of a byte. -/
def wipe (b : u8) : u8 := if LineEnd b then 0x00 else b

/-- One iteration. -/
theorem cutLineEnd_cells (h : i < 16) : ∃ m', cutLineEnd m i = .ok m' ∧
    ∀ k, m'.cells[k]? = if i = k then m.cells[k]?.map wipe else m.cells[k]? := by
  obtain ⟨b, hcell, hload⟩ := CharArray.load_of_lt (m := m) h
  have hbody : cutLineEnd m i = if LineEnd b then m.store i 0x00 else .ok m := by
    rw [cutLineEnd, hload]
    rfl
  rw [hbody]
  by_cases hend : LineEnd b
  · obtain ⟨m', hstore, hcells⟩ := CharArray.store_of_lt (m := m) (b := 0x00) h
    refine ⟨m', (if_pos hend).trans hstore, fun k => ?_⟩
    rw [hcells]
    by_cases hk : i = k
    · subst hk
      rw [if_pos rfl, if_pos rfl, hcell, Option.map_some, wipe, if_pos hend]
    · rw [if_neg hk, if_neg hk]
  · refine ⟨m, if_neg hend, fun k => ?_⟩
    by_cases hk : i = k
    · subst hk
      rw [if_pos rfl, hcell, Option.map_some, wipe, if_neg hend]
    · rw [if_neg hk]

/-- The loop wipes the line ends from its first index down to index 1. -/
theorem cutLineEnds_cells (h : i < 16) : ∃ m', cutLineEnds m i = .ok m' ∧
    ∀ k, m'.cells[k]? = if 0 < k ∧ k ≤ i then m.cells[k]?.map wipe else m.cells[k]? := by
  induction i generalizing m with
  | zero => exact ⟨m, rfl, fun k => by rw [if_neg (by omega)]⟩
  | succ i ih =>
      obtain ⟨m₁, hcut, hcell⟩ := cutLineEnd_cells (m := m) h
      obtain ⟨m₂, hrest, hcells⟩ := ih (m := m₁) (by omega)
      refine ⟨m₂, ?_, fun k => ?_⟩
      · rw [cutLineEnds, hcut]
        exact hrest
      · rw [hcells, hcell]
        by_cases hk : i + 1 = k
        · rw [if_neg (by omega), if_pos hk, if_pos (by omega)]
        · rw [if_neg hk]
          exact if_congr (by omega) rfl rfl

/-- The string that is compared. -/
def namedZone (b : u8) (rest : List u8) : CString (0x00 : u8) := .upTo 0x00 (b :: rest.map wipe)

/-- `sys_tz` after `read`. -/
theorem read_cells (h : rest.length < 15) :
    ((CharArray.zeroed 16 (0x00 : u8)).fill (b :: rest)).cells =
      b :: (rest ++ List.replicate (15 - rest.length) 0x00) := by
  have hlen : (b :: rest).length ≤ 16 := by
    rw [List.length_cons]
    omega
  rw [CharArray.cells_fill hlen, CharArray.zeroed, List.drop_replicate, List.cons_append,
    List.length_cons, Nat.add_sub_add_right 15 1 rest.length]

/-- The loop leaves the zeros behind the file. -/
theorem map_wipe_zeros (n : Nat) :
    (rest ++ List.replicate n 0x00).map wipe = rest.map wipe ++ List.replicate n 0x00 := by
  rw [List.map_append, List.map_replicate]
  rfl

/-- A file that fits `sys_tz` with a terminator. -/
theorem cutLineEnds_content (h : rest.length < 15) :
    ∃ m', cutLineEnds ((CharArray.zeroed 16 0x00).fill (b :: rest)) (rest.length + 1) = .ok m' ∧
      m'.string 0x00 = .ok (namedZone b rest) := by
  obtain ⟨m', hcut, hcells⟩ := cutLineEnds_cells
    (m := (CharArray.zeroed 16 0x00).fill (b :: rest)) (i := rest.length + 1) (by omega)
  have hwiped : m'.cells = b :: (rest ++ List.replicate (15 - rest.length) 0x00).map wipe := by
    apply List.ext_getElem?
    intro k
    rw [hcells, read_cells h]
    cases k with
    | zero => rfl
    | succ k =>
        rw [List.getElem?_cons_succ, List.getElem?_cons_succ, List.getElem?_map]
        by_cases hk : k ≤ rest.length
        · rw [if_pos (by omega)]
        -- where the loop does not come there are zeros
        · rw [if_neg (by omega), List.getElem?_append_right (Nat.le_of_not_le hk),
            List.getElem?_replicate]
          split <;> rfl
  obtain ⟨n, hn⟩ := Nat.exists_eq_add_of_lt h
  have hzeros : 15 - rest.length = n + 1 := by omega
  rw [map_wipe_zeros, hzeros, List.replicate_succ, ← List.cons_append] at hwiped
  exact ⟨m', hcut, CharArray.string_of_cells hwiped⟩

/-! ### The update -/

/-- With 16 bytes the loop begins at `sys_tz[16]`. -/
theorem tzUpdate_long (h : 16 ≤ bytes.length) :
    tzUpdate s (.content bytes) = .error (.load 16) := by
  rw [tzUpdate, Nat.min_eq_right h, if_pos (by decide), cutLineEnds, cutLineEnd,
    CharArray.load_past (Nat.le_refl 16)]
  rfl

/-- `set_tz` sets the first twelve characters. -/
theorem setTz_eq (sysTz : CString (0x00 : u8)) :
    ∃ s', setTz s sysTz = .ok s' ∧ s'.tz = some (sysTz.take 12) := by
  rw [setTz, CharArray.string_snprintf (by decide)]
  exact ⟨_, rfl, rfl⟩

/-- The comparison and what follows it. -/
theorem tzUpdate_cons (h : rest.length < 15) : tzUpdate s (.content (b :: rest)) =
    match s.tz with
    | none => .error .noString
    | some tzNow =>
        if namedZone b rest ≠ tzNow then do
          let s ← setTz s (namedZone b rest)
          .ok (0, s)
        else .ok (0, s) := by
  obtain ⟨m', hcut, hstring⟩ := cutLineEnds_content (b := b) h
  have hret : min (b :: rest).length 16 = rest.length + 1 := by
    rw [List.length_cons]
    omega
  rw [tzUpdate, hret, if_pos (Nat.succ_pos _), hcut]
  change m'.string 0x00 >>= _ = _
  rw [hstring]
  rfl

/-- Without a time zone there is nothing to compare with. -/
theorem tzUpdate_unset (h : rest.length < 15) (hunset : s.tz = none) :
    tzUpdate s (.content (b :: rest)) = .error .noString := by
  rw [tzUpdate_cons h, hunset]

/-- What `tz_update` sets from a file that fits its arrays. -/
theorem tzUpdate_set (h : rest.length < 15) {tzNow : CString (0x00 : u8)}
    (hset : s.tz = some tzNow) : ∃ s', tzUpdate s (.content (b :: rest)) = .ok (0, s') ∧
      s'.tz = some (if namedZone b rest = tzNow then namedZone b rest
        else (namedZone b rest).take 12) := by
  rw [tzUpdate_cons h, hset]
  by_cases hsame : namedZone b rest = tzNow
  · exact ⟨s, if_neg (not_not_intro hsame), hset.trans (by rw [if_pos hsame, hsame])⟩
  · obtain ⟨s', hput, htz⟩ := setTz_eq (s := s) (namedZone b rest)
    refine ⟨s', (if_pos hsame).trans ?_, htz.trans (by rw [if_neg hsame])⟩
    rw [hput]
    rfl

/-! ### The first line -/

/-- The bytes before the first line end. -/
def firstLine (bytes : List u8) : List u8 := bytes.takeWhile fun b => ¬ LineEnd b

theorem firstLine_of_end (h : LineEnd b) : firstLine (b :: rest) = [] :=
  List.takeWhile_cons_of_neg (by simp [h])

theorem firstLine_of_not_end (h : ¬ LineEnd b) : firstLine (b :: rest) = b :: firstLine rest :=
  List.takeWhile_cons_of_pos (by simpa using h)

theorem lineEnd_of_firstLine (h : firstLine (b :: rest) = []) : LineEnd b := by
  by_contra hend
  exact List.cons_ne_nil b _ ((firstLine_of_not_end hend).symm.trans h)

/-- Wiped line ends are terminators. -/
theorem upTo_wipe (h : (0x00 : u8) ∉ firstLine rest) :
    (CString.upTo (0x00 : u8) (rest.map wipe)).1 = firstLine rest := by
  induction rest with
  | nil => rfl
  | cons b rest ih =>
      rw [List.map_cons]
      by_cases hend : LineEnd b
      · rw [firstLine_of_end hend, wipe, if_pos hend]
        rfl
      · rw [firstLine_of_not_end hend] at h ⊢
        have hne : b ≠ 0x00 := fun hb => h (hb ▸ List.mem_cons_self)
        rw [wipe, if_neg hend, CString.upTo_cons hne]
        exact congrArg (b :: ·) (ih fun hmem => h (List.mem_cons_of_mem b hmem))

/-- The string that is compared is the first line when that is a string and not empty. -/
theorem namedZone_eq (hne : firstLine (b :: rest) ≠ [])
    (hstring : (0x00 : u8) ∉ firstLine (b :: rest)) :
    (namedZone b rest).1 = firstLine (b :: rest) := by
  have hend : ¬ LineEnd b := fun hend => hne (firstLine_of_end hend)
  rw [← upTo_wipe hstring, List.map_cons, wipe, if_neg hend]
  rfl

/-- A line end at the front is not wiped. -/
theorem namedZone_of_end (rest : List u8) (h : LineEnd b) :
    ∃ line, (namedZone b rest).1 = b :: line := by
  have hne : b ≠ 0x00 := by
    rintro rfl
    revert h
    decide
  exact ⟨_, CString.upTo_cons hne⟩

/-- No fault, and afterwards the value is the first line. -/
def SetsFirstLine (s : TzState) (bytes : List u8) : Prop :=
  ∃ ret s' tz, tzUpdate s (.content bytes) = .ok (ret, s') ∧ s'.tz = some tz ∧
    tz.1 = firstLine bytes

/-- There is a value, a terminator fits behind the bytes of the file, its first line is a string
and not empty, and fits `gl_tz` behind the name or is the value already. -/
structure FitsArrays (s : TzState) (bytes : List u8) : Prop where
  array : bytes.length < 16
  set : s.tz ≠ none
  line : firstLine bytes ≠ []
  string : (0x00 : u8) ∉ firstLine bytes
  entry : (firstLine bytes).length ≤ 12 ∨ ∃ tz, s.tz = some tz ∧ tz.1 = firstLine bytes

/-- A file that fits the arrays has its first line set. -/
theorem FitsArrays.sets (h : FitsArrays s (b :: rest)) : SetsFirstLine s (b :: rest) := by
  have hlen : rest.length < 15 := Nat.lt_of_succ_lt_succ h.array
  obtain ⟨tzNow, hset⟩ := Option.ne_none_iff_exists'.1 h.set
  obtain ⟨s', hupdate, htz⟩ := tzUpdate_set (b := b) hlen hset
  have hzone := namedZone_eq h.line h.string
  refine ⟨0, s', _, hupdate, htz, ?_⟩
  split
  · exact hzone
  · next hdiffers =>
      rcases h.entry with hshort | ⟨tz, htz, hline⟩
      · change (namedZone b rest).1.take 12 = _
        rw [hzone, List.take_of_length_le hshort]
      · obtain rfl : tzNow = tz := Option.some.inj (hset.symm.trans htz)
        exact absurd (Subtype.ext (hzone.trans hline.symm)) hdiffers

/-- A file whose first line is set fits the arrays. -/
theorem SetsFirstLine.fits (h : SetsFirstLine s (b :: rest)) : FitsArrays s (b :: rest) := by
  obtain ⟨ret, s', tz, hupdate, htz, hline⟩ := h
  have harray : (b :: rest).length < 16 := by
    by_contra hlong
    rw [tzUpdate_long (Nat.not_lt.1 hlong)] at hupdate
    cases hupdate
  have hlen : rest.length < 15 := Nat.lt_of_succ_lt_succ harray
  cases hset : s.tz with
  | none =>
      rw [tzUpdate_unset hlen hset] at hupdate
      cases hupdate
  | some tzNow =>
      obtain ⟨s'', hupdate', htz'⟩ := tzUpdate_set (b := b) hlen hset
      cases hupdate.symm.trans hupdate'
      obtain rfl := Option.some.inj (htz.symm.trans htz')
      have hne : firstLine (b :: rest) ≠ [] := by
        intro hnil
        obtain ⟨line, hzone⟩ := namedZone_of_end rest (lineEnd_of_firstLine hnil)
        rw [hnil] at hline
        split at hline
        · exact List.cons_ne_nil b line (hzone.symm.trans hline)
        · change (namedZone b rest).1.take 12 = [] at hline
          rw [hzone] at hline
          exact List.cons_ne_nil b (line.take 11) hline
      have hstring : (0x00 : u8) ∉ firstLine (b :: rest) :=
        hline ▸ (if namedZone b rest = tzNow then namedZone b rest
          else (namedZone b rest).take 12).2
      have hzone := namedZone_eq hne hstring
      refine ⟨harray, by rw [hset]; exact Option.some_ne_none _, hne, hstring, ?_⟩
      split at hline
      · next hsame => exact .inr ⟨tzNow, hset, hsame ▸ hzone⟩
      · change (namedZone b rest).1.take 12 = _ at hline
        rw [hzone] at hline
        exact .inl (hline ▸ List.length_take_le 12 _)

/-- The first line becomes the time zone exactly when the arrays hold what is put there. -/
theorem first_line_set_iff (s : TzState) (bytes : List u8) (h : bytes ≠ []) :
    SetsFirstLine s bytes ↔ FitsArrays s bytes := by
  cases bytes with
  | nil => exact absurd rfl h
  | cons b rest => exact ⟨SetsFirstLine.fits, FitsArrays.sets⟩

/-- A file without a rule for summer time, and one with it. -/
def utcFile : List u8 := "UTC0\n".toList.map fun c => BitVec.ofNat 8 c.toNat

def cetFile : List u8 :=
  "CET-1CEST,M3.5.0,M10.5.0/3\n".toList.map fun c => BitVec.ofNat 8 c.toNat

/-- The time zone of the environment is `GMT0`. -/
def gmtState : TzState where
  tz := some ⟨"GMT0".toList.map fun c => BitVec.ofNat 8 c.toNat, by decide⟩
  glTz := .zeroed 16 0x00

theorem first_line_set_utc : SetsFirstLine gmtState utcFile :=
  (first_line_set_iff gmtState utcFile (by decide)).2
    ⟨by decide, by decide, by decide, by decide, .inl (by decide)⟩

theorem first_line_not_read :
    ¬ ∀ (s : TzState) (bytes : List u8), bytes ≠ [] → SetsFirstLine s bytes := by
  intro hall
  obtain ⟨ret, s', tz, hupdate, -⟩ := hall gmtState cetFile (by decide)
  rw [tzUpdate_long (by decide)] at hupdate
  cases hupdate

end ConfigEnv.Gps
