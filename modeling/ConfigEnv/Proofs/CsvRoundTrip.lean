/-
Module: ConfigEnv.Proofs.CsvRoundTrip
Layer: Proofs
Purpose: What the CSV export keeps of a table. By the grammar of RFC 4180, with text data of any
  characters, the exported text says the strings of the cells and nothing else, so the texts of two
  tables are equal only if their cells are. The file keeps this where the cells are well-formed
  strings; a surrogate without a partner becomes a replacement character in it.
Trusted boundary: none
Main exports: Table, Table.strings, wide, strict, csvText_eq_table, csvText_file_iff,
  downloadCsv_wellFormed, csv_export_exact
Open obligations: none
-/
import ConfigEnv.Lib.Csv
import ConfigEnv.Speedtest.CsvExport

namespace ConfigEnv.Speedtest

open Utf16 (WellFormed utf16)

/-! ### Tables -/

/-- Rows, at least one, with at least one cell each. -/
structure Table (ν : Type) where
  rows : List (List (Value ν))
  rows_ne_nil : rows ≠ []
  row_ne_nil : ∀ r ∈ rows, r ≠ []

variable {ν : Type} {numText : ν → Text}

/-- The strings of the cells. -/
def Table.strings (numText : ν → Text) (tbl : Table ν) : List (List Text) :=
  tbl.rows.map fun r => r.map (stringOf numText)

/-! ### The grammar -/

/-- Every other character is text data. -/
def wide : Csv.Grammar UInt16 where
  quote := 0x22
  comma := 0x2C
  cr := 0x0D
  lf := 0x0A
  textData := fun c => c ∉ [0x22, 0x2C, 0x0D, 0x0A]
  distinct := by decide
  plain := fun _ h => h

/-- The text data of the grammar as it is written in RFC 4180. -/
def strict : Csv.Grammar UInt16 where
  quote := 0x22
  comma := 0x2C
  cr := 0x0D
  lf := 0x0A
  textData := fun c => c ∉ [0x22, 0x2C, 0x0D, 0x0A] ∧ 0x20 ≤ c.toNat ∧ c.toNat ≤ 0x7E
  distinct := by decide
  plain := fun _ h => h.1

theorem wide_has (c : UInt16) : wide.Has c := by
  by_cases hc : c ∈ [0x22, 0x2C, 0x0D, 0x0A]
  · simp only [List.mem_cons, List.not_mem_nil, or_false] at hc
    rcases hc with rfl | rfl | rfl | rfl
    · exact .inr rfl
    · exact .inl (.inr (.inl rfl))
    · exact .inl (.inr (.inr (.inl rfl)))
    · exact .inl (.inr (.inr (.inr rfl)))
  · exact .inl (.inl hc)

/-! ### The text -/

/-- The exported text is the table of quoted strings. -/
theorem csvText_eq_table (tbl : Table ν) :
    csvText numText tbl.rows = Csv.table wide (tbl.strings numText) := by
  rw [csvText, Csv.table, Table.strings, List.map_map]
  refine congrArg _ (List.map_congr_left fun r _ => ?_)
  rw [Function.comp_apply, Csv.row, List.map_map]
  rfl

theorem Table.strings_ne_nil (tbl : Table ν) : tbl.strings numText ≠ [] :=
  fun h => tbl.rows_ne_nil (List.map_eq_nil_iff.1 h)

theorem Table.string_row_ne_nil (tbl : Table ν) : ∀ r ∈ tbl.strings numText, r ≠ [] := by
  intro r hr
  obtain ⟨row, hrow, rfl⟩ := List.mem_map.1 hr
  exact fun h => tbl.row_ne_nil row hrow (List.map_eq_nil_iff.1 h)

/-- The exported text is a file of the grammar with the table's strings, and with no others. -/
theorem csvText_file_iff (numText : ν → Text) (tbl : Table ν) (rs : List (List Text)) :
    Csv.File wide (csvText numText tbl.rows) rs ↔ rs = tbl.strings numText := by
  rw [csvText_eq_table]
  exact Csv.file_table_iff tbl.strings_ne_nil tbl.string_row_ne_nil fun _ _ _ _ c _ => wide_has c

/-- Different cells make different texts. -/
theorem csvText_inj (tbl tbl' : Table ν) : csvText numText tbl.rows = csvText numText tbl'.rows ↔
    tbl.strings numText = tbl'.strings numText := by
  constructor
  · intro h
    have hfile := (csvText_file_iff numText tbl _).2 rfl
    rw [h] at hfile
    exact (csvText_file_iff numText tbl' _).1 hfile
  · intro h
    rw [csvText_eq_table, csvText_eq_table, h]

/-! ### The file -/

/-- Every cell is a well-formed string. -/
def Table.WellFormed (numText : ν → Text) (tbl : Table ν) : Prop :=
  ∀ r ∈ tbl.rows, ∀ v ∈ r, Utf16.WellFormed (stringOf numText v)

/-- A character but the quote has no quote among its units. -/
theorem replaceQuotes_units {c : Char} (hc : c ≠ '"') :
    replaceQuotes (Utf16.units c) = Utf16.units c := by
  have hplain : ∀ u ∈ Utf16.units c, (if u = 0x22 then [0x22, 0x22] else [u]) = [u] := by
    intro u hu
    refine if_neg fun hquote => hc (Char.toNat_inj.1 ?_)
    rw [hquote] at hu
    exact Utf16.toNat_of_mem_units (by decide) hu
  rw [replaceQuotes, List.flatMap_congr hplain, List.flatMap_singleton']

/-- Doubling quotes keeps a string well formed. -/
theorem replaceQuotes_wellFormed {s : Text} (h : WellFormed s) : WellFormed (replaceQuotes s) := by
  obtain ⟨cs, rfl⟩ := h
  rw [replaceQuotes, utf16, List.flatMap_assoc]
  refine WellFormed.flatten fun s hs => ?_
  obtain ⟨c, -, rfl⟩ := List.mem_map.1 hs
  by_cases hc : c = '"'
  · exact ⟨['"', '"'], by rw [hc]; decide⟩
  · exact ⟨[c], (replaceQuotes_units hc).trans (List.flatMap_singleton _ _).symm⟩

/-- A table of well-formed strings is exported as a well-formed string. -/
theorem downloadCsv_wellFormed {tbl : Table ν} (h : tbl.WellFormed numText) :
    WellFormed (downloadCsv numText tbl.rows) := by
  have hquote : WellFormed [0x22] := ⟨['"'], by decide⟩
  have hcomma : WellFormed [0x2C] := ⟨[','], by decide⟩
  have hline : WellFormed [0x0D, 0x0A] := ⟨['\r', '\n'], by decide⟩
  have hmark : WellFormed [0xFEFF] := ⟨['\uFEFF'], by decide⟩
  refine hmark.append (hline.intercalate fun s hs => ?_)
  obtain ⟨r, hr, rfl⟩ := List.mem_map.1 hs
  refine hcomma.intercalate fun s hs => ?_
  obtain ⟨v, hv, rfl⟩ := List.mem_map.1 hs
  exact hquote.append ((replaceQuotes_wellFormed (h r hr v hv)).append hquote)

/-- The text after the byte order mark says the strings of the cells and nothing else, so different
cells make different texts, and, where they are well-formed, different files. -/
theorem csv_export_exact (numText : ν → Text) (tbl : Table ν) :
    (∀ rs, Csv.File wide (downloadCsv numText tbl.rows).tail rs ↔ rs = tbl.strings numText) ∧
    ∀ tbl' : Table ν,
      (downloadCsv numText tbl.rows = downloadCsv numText tbl'.rows ↔
        tbl.strings numText = tbl'.strings numText) ∧
      (tbl.WellFormed numText → tbl'.WellFormed numText →
        (exportFile numText tbl.rows = exportFile numText tbl'.rows ↔
          tbl.strings numText = tbl'.strings numText)) := by
  have htext : ∀ tbl' : Table ν, downloadCsv numText tbl.rows = downloadCsv numText tbl'.rows ↔
      tbl.strings numText = tbl'.strings numText := by
    intro tbl'
    rw [← csvText_inj, downloadCsv, downloadCsv, List.cons_inj_right]
  refine ⟨csvText_file_iff numText tbl, fun tbl' => ⟨htext tbl', fun h h' => ?_⟩⟩
  rw [exportFile, exportFile, Utf16.utf8_inj (downloadCsv_wellFormed h) (downloadCsv_wellFormed h'),
    htext]

def oneCell (s : Text) : Table Unit where
  rows := [[.text s]]
  rows_ne_nil := List.cons_ne_nil _ _
  row_ne_nil := List.forall_mem_singleton.2 (List.cons_ne_nil _ _)

/-- A cell of one quote and a cell of two. -/
theorem csv_export_quotes : exportFile (fun _ => []) (oneCell [0x22]).rows ≠
    exportFile (fun _ => []) (oneCell [0x22, 0x22]).rows := by
  have hone : (oneCell [0x22]).WellFormed fun _ => [] := by
    intro r hr v hv
    obtain rfl := List.mem_singleton.1 hr
    obtain rfl := List.mem_singleton.1 hv
    exact ⟨['"'], by decide⟩
  have htwo : (oneCell [0x22, 0x22]).WellFormed fun _ => [] := by
    intro r hr v hv
    obtain rfl := List.mem_singleton.1 hr
    obtain rfl := List.mem_singleton.1 hv
    exact ⟨['"', '"'], by decide⟩
  intro h
  have hcells := (((csv_export_exact _ (oneCell [0x22])).2 (oneCell [0x22, 0x22])).2 hone htwo).1 h
  revert hcells
  decide

/-- Two surrogates without a partner make the same file, and a tab is no text data of RFC 4180. -/
theorem lone_surrogates_collide :
    (¬ ∀ tbl tbl' : Table Unit,
      exportFile (fun _ => []) tbl.rows = exportFile (fun _ => []) tbl'.rows →
        tbl.strings (fun _ => []) = tbl'.strings fun _ => []) ∧
    ¬ ∀ tbl : Table Unit, ∃ rs, Csv.File strict (downloadCsv (fun _ => []) tbl.rows).tail rs := by
  constructor
  · intro hall
    have husv : Utf16.usv (downloadCsv (fun _ => []) (oneCell [0xD800]).rows) =
        Utf16.usv (downloadCsv (fun _ => []) (oneCell [0xD801]).rows) := by decide
    have hcells := hall (oneCell [0xD800]) (oneCell [0xD801])
      (congrArg (fun cs => (String.ofList cs).toUTF8) husv)
    revert hcells
    decide
  · intro hall
    obtain ⟨rs, hfile⟩ := hall (oneCell [0x09])
    have hhas := hfile.chars 0x09 (by decide)
    rcases hhas with (⟨-, h, -⟩ | h | h | h) | h <;> revert h <;> decide

end ConfigEnv.Speedtest
