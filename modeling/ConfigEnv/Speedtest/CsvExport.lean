/-
Module: ConfigEnv.Speedtest.CsvExport
Layer: Speedtest
Purpose: The CSV export of index.html: the text that downloadCsv builds from rows of values, and the
  file that the browser makes of it. A string is a list of 16 bit code units; the text of a number
  is a parameter. The link that starts the download is left out.
Trusted boundary: String(n) of a number, and that a Blob encodes its strings in UTF-8
Main exports: Text, Value, stringOf, replaceQuotes, csvCell, csvText, downloadCsv, exportFile
Open obligations: none
-/
import ConfigEnv.Lib.Utf16

namespace ConfigEnv.Speedtest

/-- A string of JavaScript, by its code units. -/
abbrev Text := List UInt16

/-- The value of a cell. -/
inductive Value (ν : Type) where
  | text (s : Text)
  | number (n : ν)
  | null
  | undefined
deriving DecidableEq, Repr

section Export

variable {ν : Type} (numText : ν → Text)

/-- `String(v ?? '')`. -/
def stringOf : Value ν → Text
  | .text s => s
  | .number n => numText n
  | .null => []
  | .undefined => []

/-- `replace(/"/g, '""')`. -/
def replaceQuotes (s : Text) : Text := s.flatMap fun c => if c = 0x22 then [0x22, 0x22] else [c]

/-- The cell of a value: its string in quotes, with the quotes in it doubled. -/
def csvCell (v : Value ν) : Text := 0x22 :: (replaceQuotes (stringOf numText v) ++ [0x22])

/-- The rows joined; lines end with CR LF. -/
def csvText (rows : List (List (Value ν))) : Text :=
  [0x0D, 0x0A].intercalate (rows.map fun r => [0x2C].intercalate (r.map (csvCell numText)))

/-- `csv`, with its byte order mark. -/
def downloadCsv (rows : List (List (Value ν))) : Text := 0xFEFF :: csvText numText rows

/-- The bytes of the file. -/
def exportFile (rows : List (List (Value ν))) : ByteArray := Utf16.utf8 (downloadCsv numText rows)

end Export

end ConfigEnv.Speedtest
