/-
Module: ConfigEnv.Proofs.PortStrings
Layer: Proofs
Purpose: When the port path of a device is written in bounds. Each call begins behind what the calls
  before it would have printed; as long as this is less than 16 characters the size is right, and
  the string is the ports joined by dots or its first 15 characters. A call behind the array gets a
  size that has wrapped around, and stores past the end.
Trusted boundary: none
Main exports: dotted, lengthBefore, BuiltInside, flatten_pieces, Holds, portLoop_calls,
  portLoop_string, exists_call, portLoop_past, port_string_iff
Open obligations: none
-/
import ConfigEnv.Usb.FindDevice
import Mathlib.Algebra.BigOperators.Group.List.Basic

namespace ConfigEnv.Usb

open CharArray (snprintfAt snprintfAt_of_lt snprintfAt_end snprintfAt_past string_of_cells)

variable {path : PortPath} {p : CString nul} {ps : List (CString nul)} {offset : ℕ}
  {m : CharArray 16 Char} {k : ℕ}

/-! ### What the path should be -/

/-- The decimal ports joined by dots. -/
def dotted (path : PortPath) : List Char :=
  ['.'].intercalate (path.ports.map fun p => (decimal p).1)

/-- What the calls before the last print. -/
def lengthBefore : List (CString nul) → ℕ
  | p :: q :: ps => p.1.length + lengthBefore (q :: ps)
  | _ => 0

/-- Every call has an offset below `k` and the size that is left; the path is whole if it fits, and
nothing is stored past the array. -/
structure BuiltInside (k : ℕ) (path : PortPath) : Prop where
  inside : ∀ call ∈ (portStr path).1, call.offset < k ∧ call.size = 16 - call.offset
  whole : (dotted path).length < 16 →
    ∃ m s, (portStr path).2 = .ok m ∧ m.string nul = .ok s ∧ s.1 = dotted path
  bounded : ∃ m, (portStr path).2 = .ok m

theorem lengthBefore_le (ps : List (CString nul)) :
    lengthBefore ps ≤ (ps.flatMap Subtype.val).length := by
  induction ps with
  | nil => exact Nat.le_refl 0
  | cons p ps ih =>
      cases ps with
      | nil => exact Nat.zero_le _
      | cons q ps =>
          rw [lengthBefore, List.flatMap_cons, List.length_append]
          exact Nat.add_le_add_left ih _

/-- The pieces make up the numbers with dots between them. -/
theorem flatten_pieces (ports : List u8) : (pieces ports).flatMap Subtype.val =
    ['.'].intercalate (ports.map fun p => (decimal p).1) := by
  induction ports with
  | nil => rfl
  | cons port ports ih =>
      cases ports with
      | nil => simp [pieces]
      | cons next ports =>
          rw [pieces, List.flatMap_cons, ih, List.map_cons, List.map_cons, List.map_cons,
            List.intercalate_cons_cons]
          rfl

/-! ### One call -/

/-- The array begins with the string `t`. -/
def Holds (m : CharArray 16 Char) (t : List Char) : Prop := ∃ rest, m.cells = t ++ nul :: rest

/-- The room that is left, while the text fits. -/
theorem remaining_of_le (h : offset ≤ 16) : remaining offset = 16 - offset := by
  rw [remaining]
  omega

/-- A call with an offset up to the end of the array stays inside. -/
theorem print_ok (h : offset ≤ 16) (m : CharArray 16 Char) (p : CString nul) :
    ∃ m', snprintfAt nul m offset (remaining offset) p = .ok m' := by
  rw [remaining_of_le h]
  rcases Nat.lt_or_eq_of_le h with hlt | rfl
  · obtain ⟨m', hprint, -⟩ := snprintfAt_of_lt hlt p
    exact ⟨m', hprint⟩
  · exact ⟨m, snprintfAt_end p⟩

/-- A call behind the string in the array appends what there is room for. -/
theorem print_holds {t : List Char} (hm : Holds m t) (h : t.length < 16) (p : CString nul) :
    ∃ m', snprintfAt nul m t.length (remaining t.length) p = .ok m' ∧
      Holds m' ((t ++ p.1).take 15) := by
  obtain ⟨rest, hcells⟩ := hm
  obtain ⟨m', hprint, rest', hcells'⟩ := snprintfAt_of_lt (m := m) h p
  refine ⟨m', (congrArg (snprintfAt nul m t.length · p) (remaining_of_le (Nat.le_of_lt h))).trans
    hprint, rest', ?_⟩
  rw [hcells', hcells, List.take_left, List.take_append, List.take_of_length_le (by omega)]
  have hroom : 16 - t.length - 1 = 15 - t.length := by omega
  rw [CString.take, hroom]

/-! ### The loop -/

theorem portLoop_cons {m' : CharArray 16 Char}
    (h : snprintfAt nul m offset (remaining offset) p = .ok m') :
    portLoop (p :: ps) offset m =
      ({ offset := offset, size := remaining offset } :: (portLoop ps (offset + p.1.length) m').1,
        (portLoop ps (offset + p.1.length) m').2) := by
  rw [portLoop]
  dsimp only
  rw [h]

/-- While the calls begin below `k`, at most behind the end, each has the size that is left. -/
theorem portLoop_calls (hk : k ≤ 17) (hoffset : offset < k) (h : offset + lengthBefore ps < k) :
    (∀ call ∈ (portLoop ps offset m).1, call.offset < k ∧ call.size = 16 - call.offset) ∧
      ∃ m', (portLoop ps offset m).2 = .ok m' := by
  induction ps generalizing offset m with
  | nil => exact ⟨by rintro call ⟨⟩, m, rfl⟩
  | cons p ps ih =>
      have hle : offset ≤ 16 := by omega
      obtain ⟨m', hprint⟩ := print_ok hle m p
      have hfirst : offset < k ∧ remaining offset = 16 - offset := ⟨hoffset, remaining_of_le hle⟩
      rw [portLoop_cons hprint]
      cases ps with
      | nil => exact ⟨List.forall_mem_singleton.2 hfirst, m', rfl⟩
      | cons q ps =>
          rw [lengthBefore, ← Nat.add_assoc] at h
          obtain ⟨hrest, hend⟩ := ih (m := m') (Nat.lt_of_le_of_lt (Nat.le_add_right _ _) h) h
          exact ⟨List.forall_mem_cons.2 ⟨hfirst, hrest⟩, hend⟩

/-- An array that holds a text reads as it. -/
theorem string_of_holds {t : List Char} (hm : Holds m t) (hnul : nul ∉ t) :
    m.string nul = .ok ⟨t, hnul⟩ := by
  obtain ⟨rest, hcells⟩ := hm
  rw [string_of_cells hcells]
  exact congrArg Except.ok (CString.upTo_eq ⟨t, hnul⟩)

/-- The array holds what is printed, or what there is room for. -/
theorem portLoop_string {t : List Char} (ps : List (CString nul)) (hm : Holds m t) (hnul : nul ∉ t)
    (h : t.length + lengthBefore ps < 16) :
    ∃ m' s, (portLoop ps t.length m).2 = .ok m' ∧ m'.string nul = .ok s ∧
      s.1 = (t ++ ps.flatMap Subtype.val).take 15 := by
  induction ps generalizing t m with
  | nil =>
      refine ⟨m, ⟨t, hnul⟩, rfl, string_of_holds hm hnul, ?_⟩
      rw [List.flatMap_nil, List.append_nil, List.take_of_length_le (by omega)]
  | cons p ps ih =>
      have hnul' : nul ∉ t ++ p.1 := fun hmem => (List.mem_append.1 hmem).elim hnul p.2
      obtain ⟨m', hprint, hholds⟩ := print_holds hm (by omega) p
      rw [portLoop_cons hprint]
      cases ps with
      | nil =>
          refine ⟨m', _, rfl, string_of_holds hholds fun hmem => hnul' (List.mem_of_mem_take hmem),
            ?_⟩
          rw [List.flatMap_cons, List.flatMap_nil, List.append_nil]
      | cons q ps =>
          rw [lengthBefore, ← Nat.add_assoc, ← List.length_append] at h
          rw [List.take_of_length_le (by omega)] at hholds
          obtain ⟨m'', s, hend, hstring, hs⟩ := ih hholds hnul' h
          rw [List.length_append] at hend
          exact ⟨m'', s, hend, hstring, by rw [hs, List.append_assoc, ← List.flatMap_cons]⟩

/-! ### Calls behind the array -/

theorem first_call (p : CString nul) (ps : List (CString nul)) (offset : ℕ)
    (m : CharArray 16 Char) : ∃ call ∈ (portLoop (p :: ps) offset m).1, call.offset = offset := by
  refine ⟨{ offset := offset, size := remaining offset }, ?_, rfl⟩
  rw [portLoop]
  dsimp only
  split <;> exact List.mem_cons_self

/-- If what is printed before the last call reaches `k`, some call begins there or behind. -/
theorem exists_call (hk : k ≤ 17) (hoffset : offset < k) (h : k ≤ offset + lengthBefore ps) :
    ∃ call ∈ (portLoop ps offset m).1, k ≤ call.offset := by
  induction ps generalizing offset m with
  | nil => exact absurd h (Nat.not_le.2 hoffset)
  | cons p ps ih =>
      obtain ⟨m', hprint⟩ := print_ok (by omega : offset ≤ 16) m p
      rw [portLoop_cons hprint]
      cases ps with
      | nil => exact absurd h (Nat.not_le.2 hoffset)
      | cons q ps =>
          rw [lengthBefore, ← Nat.add_assoc] at h
          by_cases hnext : offset + p.1.length < k
          · obtain ⟨call, hcall, hle⟩ := ih (m := m') hnext h
            exact ⟨call, List.mem_cons_of_mem _ hcall, hle⟩
          · obtain ⟨call, hcall, heq⟩ := first_call q ps (offset + p.1.length) m'
            exact ⟨call, List.mem_cons_of_mem _ hcall, heq ▸ Nat.not_lt.1 hnext⟩

/-- A call behind the end stores past the array. -/
theorem portLoop_past (hoffset : offset ≤ 16) (h : 16 < offset + lengthBefore ps) :
    ∃ e, (portLoop ps offset m).2 = .error e := by
  induction ps generalizing offset m with
  | nil => exact absurd h (Nat.not_lt.2 hoffset)
  | cons p ps ih =>
      obtain ⟨m', hprint⟩ := print_ok hoffset m p
      rw [portLoop_cons hprint]
      cases ps with
      | nil => exact absurd h (Nat.not_lt.2 hoffset)
      | cons q ps =>
          rw [lengthBefore, ← Nat.add_assoc] at h
          by_cases hnext : offset + p.1.length ≤ 16
          · exact ih hnext h
          · refine ⟨.store (offset + p.1.length), ?_⟩
            rw [portLoop, snprintfAt_past (Nat.not_le.1 hnext)]

/-! ### The path -/

theorem zeroed_holds : Holds (CharArray.zeroed 16 nul) [] := ⟨List.replicate 15 nul, rfl⟩

/-- A path that fits is printed whole. -/
theorem whole_of_lt (hbefore : lengthBefore (pieces path.ports) < 16)
    (hfits : (dotted path).length < 16) :
    ∃ m s, (portStr path).2 = .ok m ∧ m.string nul = .ok s ∧ s.1 = dotted path := by
  obtain ⟨m, s, hend, hstring, hs⟩ := portLoop_string (pieces path.ports) zeroed_holds
    (by rintro ⟨⟩) (by rwa [List.length_nil, Nat.zero_add])
  refine ⟨m, s, hend, hstring, ?_⟩
  rw [hs, List.nil_append, flatten_pieces]
  exact List.take_of_length_le (by rw [dotted] at hfits; omega)

/-- What stands before the last piece is no longer than the whole. -/
theorem lengthBefore_le_dotted (path : PortPath) :
    lengthBefore (pieces path.ports) ≤ (dotted path).length := by
  rw [dotted, ← flatten_pieces]
  exact lengthBefore_le _

/-- The path is built in bounds and whole exactly if the calls before the last print less than fills
the array; with one character more the last call has no room, but stores nothing. -/
theorem port_string_iff (path : PortPath) :
    (BuiltInside 16 path ↔ lengthBefore (pieces path.ports) < 16) ∧
    (BuiltInside 17 path ↔ lengthBefore (pieces path.ports) ≤ 16) ∧
    ((∃ m, (portStr path).2 = .ok m) ↔ lengthBefore (pieces path.ports) ≤ 16) := by
  have hcalls : ∀ k ≤ 17, lengthBefore (pieces path.ports) < k → BuiltInside k path := by
    intro k hk hbefore
    obtain ⟨hinside, hbounded⟩ := portLoop_calls (m := CharArray.zeroed 16 nul) hk
      (Nat.lt_of_le_of_lt (Nat.zero_le _) hbefore) ((Nat.zero_add _).trans_lt hbefore)
    refine ⟨hinside, fun hfits => whole_of_lt ?_ hfits, hbounded⟩
    exact Nat.lt_of_le_of_lt (lengthBefore_le_dotted path) hfits
  have hbehind : ∀ k ≤ 17, 0 < k → BuiltInside k path → lengthBefore (pieces path.ports) < k := by
    intro k hk hpos hbuilt
    by_contra hle
    obtain ⟨call, hcall, hbehind⟩ := exists_call (m := CharArray.zeroed 16 nul) hk hpos
      ((Nat.not_lt.1 hle).trans_eq (Nat.zero_add _).symm)
    exact absurd (hbuilt.inside call hcall).1 (Nat.not_lt.2 hbehind)
  refine ⟨⟨hbehind 16 (by decide) (by decide), hcalls 16 (by decide)⟩,
    ⟨fun h => Nat.le_of_lt_succ (hbehind 17 (by decide) (by decide) h),
      fun h => hcalls 17 (by decide) (Nat.lt_succ_of_le h)⟩, ?_, ?_⟩
  · rintro ⟨m, hend⟩
    by_contra hlt
    obtain ⟨e, hfault⟩ := portLoop_past (m := CharArray.zeroed 16 nul) (Nat.zero_le 16)
      ((Nat.not_le.1 hlt).trans_eq (Nat.zero_add _).symm)
    rw [portStr, hfault] at hend
    cases hend
  · exact fun h => (hcalls 17 (by decide) (Nat.lt_succ_of_le h)).bounded

/-- Six hubs with three digits each. -/
def sixHubs : PortPath := { ports := List.replicate 6 100, length_le := by decide }

theorem sixth_call_past : ¬ ∀ path : PortPath, BuiltInside 16 path := by
  intro hall
  obtain ⟨m, hend⟩ := (hall sixHubs).bounded
  have hlong : 16 < 0 + lengthBefore (pieces sixHubs.ports) := by decide
  obtain ⟨e, hfault⟩ := portLoop_past (m := CharArray.zeroed 16 nul) (Nat.zero_le 16) hlong
  rw [portStr, hfault] at hend
  cases hend

end ConfigEnv.Usb
