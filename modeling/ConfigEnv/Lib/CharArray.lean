/-
Module: ConfigEnv.Lib.CharArray
Layer: Lib
Purpose: Character arrays of a fixed size, and the strings in them. A string is a list without the
  terminator `z`; the string in an array ends before the first terminator there. An access past the
  end of the array is a fault, and so is the use of a string that does not end in the array or of no
  string at all. One rule says what the string in an array is, one what a bounded print leaves
  there.
Trusted boundary: none
Main exports: CString, CString.append, CString.take, CString.drop, CString.upTo, CString.upTo_cons,
  CString.upTo_eq, CharArray, CharArray.Fault, CharArray.zeroed, CharArray.fill, CharArray.load,
  CharArray.store, CharArray.string, CharArray.snprintf, CharArray.splice, CharArray.snprintfAt,
  cells_fill, load_past, load_of_lt, store_of_lt, string_of_cells, snprintfAt_of_lt, snprintfAt_end,
  snprintfAt_past, string_snprintf
Open obligations: none
-/
import Mathlib.Data.List.TakeWhile
import Mathlib.Tactic.Common

namespace ConfigEnv

/-- A string with the terminator `z`. -/
abbrev CString {β : Type} (z : β) := { s : List β // z ∉ s }

namespace CString

variable {β : Type} {z : β}

/-- One string behind another. -/
def append (s t : CString z) : CString z :=
  ⟨s.1 ++ t.1, fun h => (List.mem_append.1 h).elim s.2 t.2⟩

/-- The first `n` characters. -/
def take (s : CString z) (n : Nat) : CString z :=
  ⟨s.1.take n, fun h => s.2 (List.mem_of_mem_take h)⟩

/-- The string from character `n` on. -/
def drop (s : CString z) (n : Nat) : CString z :=
  ⟨s.1.drop n, fun h => s.2 (List.mem_of_mem_drop h)⟩

/-- The characters before the first terminator. -/
def upTo [DecidableEq β] (z : β) (cells : List β) : CString z where
  val := cells.takeWhile (· ≠ z)
  property := fun h => by
    have hne := List.mem_takeWhile_imp h
    exact of_decide_eq_true hne rfl

theorem upTo_cons [DecidableEq β] {b : β} {cells : List β} (h : b ≠ z) :
    (upTo z (b :: cells)).1 = b :: (upTo z cells).1 := by
  change (b :: cells).takeWhile (· ≠ z) = b :: cells.takeWhile (· ≠ z)
  exact List.takeWhile_cons_of_pos (decide_eq_true h)

/-- A string ends where it ends. -/
theorem upTo_eq [DecidableEq β] (s : CString z) : upTo z s.1 = s := by
  refine Subtype.ext (List.takeWhile_eq_self_iff.2 fun c hc => decide_eq_true fun hz => ?_)
  exact s.2 (hz ▸ hc)

end CString

/-- An array of `N` characters. -/
structure CharArray (N : Nat) (β : Type) where
  cells : List β
  length_eq : cells.length = N
deriving DecidableEq, Repr

namespace CharArray

variable {N : Nat} {β : Type} {m : CharArray N β} {i : Nat} {b z : β}

/-- What goes wrong: an access past the array, or no terminator in it. -/
inductive Fault where
  | load (index : Nat)
  | store (index : Nat)
  | noString
deriving DecidableEq, Repr

/-- `char m[N] = {0}`. -/
def zeroed (N : Nat) (z : β) : CharArray N β := ⟨List.replicate N z, List.length_replicate⟩

/-- The first characters are those of `src`, as many as there is room for. -/
def fill (m : CharArray N β) (src : List β) : CharArray N β where
  cells := src.take N ++ m.cells.drop src.length
  length_eq := by
    rw [List.length_append, List.length_take, List.length_drop, m.length_eq]
    omega

/-- The cell at an index. -/
def load (m : CharArray N β) (i : Nat) : Except Fault β :=
  match m.cells[i]? with
  | some b => .ok b
  | none => .error (.load i)

/-- The array with a new cell at an index. -/
def store (m : CharArray N β) (i : Nat) (b : β) : Except Fault (CharArray N β) :=
  if i < N then .ok ⟨m.cells.set i b, (List.length_set).trans m.length_eq⟩ else .error (.store i)

/-- What a print of `s` into `size` characters stores. -/
def stored (z : β) (size : Nat) (s : CString z) : List β :=
  if size = 0 then [] else (s.take (size - 1)).1 ++ [z]

/-- `src` is stored from the place `off` on. -/
def splice (m : CharArray N β) (off : Nat) (src : List β) (h : off + src.length ≤ N) :
    CharArray N β where
  cells := m.cells.take off ++ src ++ m.cells.drop (off + src.length)
  length_eq := by
    rw [List.length_append, List.length_append, List.length_take, List.length_drop, m.length_eq]
    omega

/-- `snprintf(m + off, size, "%s", s)`. -/
def snprintfAt (z : β) (m : CharArray N β) (off size : Nat) (s : CString z) :
    Except Fault (CharArray N β) :=
  if h : off + (stored z size s).length ≤ N then .ok (m.splice off (stored z size s) h)
  else .error (.store (max off N))

variable [DecidableEq β]

/-- The string that begins at the first character. -/
def string (z : β) (m : CharArray N β) : Except Fault (CString z) :=
  if z ∈ m.cells then .ok (.upTo z m.cells) else .error (.load N)

/-- `snprintf(m, N, "%s", s)`. -/
def snprintf (z : β) (m : CharArray N β) (s : CString z) : CharArray N β :=
  m.fill ((s.take (N - 1)).1 ++ [z])

/-! ### The rules -/

omit [DecidableEq β] in
/-- A load at or behind the end is a fault. -/
theorem load_past (h : N ≤ i) : m.load i = .error (.load i) := by
  rw [load, List.getElem?_eq_none (m.length_eq.symm ▸ h)]

omit [DecidableEq β] in
/-- A load within the array gives the cell. -/
theorem load_of_lt (h : i < N) : ∃ b, m.cells[i]? = some b ∧ m.load i = .ok b := by
  have hcell := List.getElem?_eq_getElem (m.length_eq.symm ▸ h : i < m.cells.length)
  exact ⟨_, hcell, by rw [load, hcell]⟩

omit [DecidableEq β] in
/-- A store within the array changes that cell and no other. -/
theorem store_of_lt (h : i < N) : ∃ m', m.store i b = .ok m' ∧
    ∀ k, m'.cells[k]? = if i = k then some b else m.cells[k]? := by
  refine ⟨_, if_pos h, fun k => ?_⟩
  rw [List.getElem?_set, if_pos (m.length_eq.symm ▸ h : i < m.cells.length)]

omit [DecidableEq β] in
theorem cells_fill {src : List β} (h : src.length ≤ N) :
    (m.fill src).cells = src ++ m.cells.drop src.length :=
  congrArg (· ++ m.cells.drop src.length) (List.take_of_length_le h)

/-- An array with a terminator after `src` holds `src` up to its first terminator. -/
theorem string_of_cells {src rest : List β} (h : m.cells = src ++ z :: rest) :
    m.string z = .ok (.upTo z src) := by
  have hmem : z ∈ m.cells := h ▸ List.mem_append_right src List.mem_cons_self
  refine (if_pos hmem).trans (congrArg Except.ok (Subtype.ext ?_))
  change m.cells.takeWhile (· ≠ z) = src.takeWhile (· ≠ z)
  rw [h, List.takeWhile_append]
  split
  · next hall =>
      rw [List.takeWhile_cons_of_neg (by simp), List.append_nil]
      exact (List.IsPrefix.eq_of_length (List.takeWhile_prefix _) hall).symm
  · rfl

omit [DecidableEq β] in
theorem cells_splice {off : Nat} {src : List β} (h : off + src.length ≤ N) :
    (m.splice off src h).cells = m.cells.take off ++ src ++ m.cells.drop (off + src.length) := rfl

omit [DecidableEq β] in
/-- A print with the room that is left ends its string in the array. -/
theorem snprintfAt_of_lt {off : Nat} (h : off < N) (s : CString z) :
    ∃ m', snprintfAt z m off (N - off) s = .ok m' ∧
      ∃ rest, m'.cells = m.cells.take off ++ (s.take (N - off - 1)).1 ++ z :: rest := by
  have hstored : stored z (N - off) s = (s.take (N - off - 1)).1 ++ [z] := if_neg (by omega)
  have hfits : off + (stored z (N - off) s).length ≤ N := by
    rw [hstored, List.length_append, List.length_singleton, CString.take, List.length_take]
    omega
  refine ⟨_, dif_pos hfits, m.cells.drop (off + (stored z (N - off) s).length), ?_⟩
  rw [cells_splice, hstored, ← List.append_assoc, List.append_assoc, List.singleton_append]

omit [DecidableEq β] in
/-- Without room nothing is stored. -/
theorem snprintfAt_end (s : CString z) : snprintfAt z m N 0 s = .ok m := by
  obtain ⟨cells, rfl⟩ := m
  refine (dif_pos (Nat.le_refl _)).trans (congrArg Except.ok ?_)
  simp [splice, stored]

omit [DecidableEq β] in
/-- Printing at an offset behind the end is a fault. -/
theorem snprintfAt_past {off size : Nat} (h : N < off) (s : CString z) :
    snprintfAt z m off size s = .error (.store off) := by
  rw [snprintfAt, dif_neg (by omega), Nat.max_eq_left (Nat.le_of_lt h)]

/-- A bounded print leaves the string, or what there is room for. -/
theorem string_snprintf (h : 0 < N) (s : CString z) :
    (snprintf z m s).string z = .ok (s.take (N - 1)) := by
  have hlen : ((s.take (N - 1)).1 ++ [z]).length ≤ N := by
    rw [List.length_append, List.length_singleton, CString.take, List.length_take]
    omega
  have hcells : (snprintf z m s).cells = (s.take (N - 1)).1 ++ z ::
      m.cells.drop ((s.take (N - 1)).1 ++ [z]).length := by
    rw [snprintf, cells_fill hlen, List.append_assoc, List.singleton_append]
  rw [string_of_cells hcells, CString.upTo_eq]

end CharArray

end ConfigEnv
