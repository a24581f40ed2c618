/-
Module: ConfigEnv.Lib.Shell
Layer: Lib
Purpose: What a shell script does to text: the fields of an unquoted expansion, the patterns of a
  parameter expansion that cut at a character, a sed program that works line by line, and the
  trailing newlines that a command substitution drops.
Trusted boundary: none
Main exports: splitFields, mem_of_mem_splitFields, expand, cutBefore, cutThrough, mapLines,
  mapLines_newlines, substitution
Open obligations: none
-/
import Mathlib.Data.List.DropRight

namespace ConfigEnv.Shell

/-- Text by its characters. -/
abbrev Text := List Char

/-! ### Fields -/

/-- Space, tab and newline separate fields in runs, when they are in IFS. -/
def isIfsBlank (ifs : Text) (c : Char) : Bool :=
  c ∈ ifs && (c = ' ' || c = '\t' || c = '\n')

/-- Where the scan for fields stands: in front of a field, in one, or behind one that a blank has
ended; one other separator still belongs to such a blank. The characters are in reverse order. -/
inductive Scan where
  | before
  | within (field : Text)
  | behind (field : Text)
deriving DecidableEq, Repr

/-- The fields of the rest of a text, when the scan has come to this point. -/
def splitFrom (ifs : Text) : Scan → Text → List Text
  | .before, [] => []
  | .within field, [] => [field.reverse]
  | .behind field, [] => [field.reverse]
  | .before, c :: text =>
      if isIfsBlank ifs c = true then splitFrom ifs .before text
      else if c ∈ ifs then [] :: splitFrom ifs .before text
      else splitFrom ifs (.within [c]) text
  | .within field, c :: text =>
      if isIfsBlank ifs c = true then splitFrom ifs (.behind field) text
      else if c ∈ ifs then field.reverse :: splitFrom ifs .before text
      else splitFrom ifs (.within (c :: field)) text
  | .behind field, c :: text =>
      if isIfsBlank ifs c = true then splitFrom ifs (.behind field) text
      else if c ∈ ifs then field.reverse :: splitFrom ifs .before text
      else field.reverse :: splitFrom ifs (.within [c]) text

/-- The fields of a text. -/
def splitFields (ifs text : Text) : List Text := splitFrom ifs .before text

example : splitFields [';'] ";a b;;c;".toList =
    ["".toList, "a b".toList, "".toList, "c".toList] := by
  decide

example : splitFields [' '] "  100ms  20ms\t5%".toList = ["100ms".toList, "20ms\t5%".toList] := by
  decide

/-- What the scan has of the field that it is in. -/
def Scan.chars : Scan → Text
  | .before => []
  | .within field => field
  | .behind field => field

/-- Word splitting makes no character up. -/
theorem mem_of_mem_splitFrom {ifs text : Text} {scan : Scan} {field : Text} {c : Char}
    (hfield : field ∈ splitFrom ifs scan text) (hc : c ∈ field) : c ∈ scan.chars ∨ c ∈ text := by
  induction text generalizing scan with
  | nil =>
      cases scan with
      | before => exact absurd hfield List.not_mem_nil
      | within field' =>
          cases List.mem_singleton.1 hfield
          exact .inl (List.mem_reverse.1 hc)
      | behind field' =>
          cases List.mem_singleton.1 hfield
          exact .inl (List.mem_reverse.1 hc)
  | cons a text ih =>
      have hrest : ∀ scan', (∀ c ∈ scan'.chars, c = a ∨ c ∈ scan.chars) →
          field ∈ splitFrom ifs scan' text → c ∈ scan.chars ∨ c ∈ a :: text := by
        intro scan' hchars hmem
        rcases ih hmem with hscan | htext
        · rcases hchars c hscan with rfl | hold
          · exact .inr List.mem_cons_self
          · exact .inl hold
        · exact .inr (List.mem_cons_of_mem a htext)
      have hdone : ∀ field' : Text, (∀ c ∈ field', c ∈ scan.chars) → ∀ scan' : Scan,
          (∀ c ∈ scan'.chars, c = a ∨ c ∈ scan.chars) →
          field ∈ field'.reverse :: splitFrom ifs scan' text → c ∈ scan.chars ∨ c ∈ a :: text := by
        intro field' hchars scan' hchars' hmem
        rcases List.mem_cons.1 hmem with rfl | hlater
        · exact .inl (hchars c (List.mem_reverse.1 hc))
        · exact hrest scan' hchars' hlater
      cases scan with
      | before =>
          rw [splitFrom] at hfield
          split at hfield
          · exact hrest .before nofun hfield
          · split at hfield
            · exact hdone [] nofun .before nofun hfield
            · exact hrest (.within [a]) (fun c hc => .inl (List.mem_singleton.1 hc)) hfield
      | within field' =>
          rw [splitFrom] at hfield
          split at hfield
          · exact hrest (.behind field') (fun _ => .inr) hfield
          · split at hfield
            · exact hdone field' (fun _ => id) .before nofun hfield
            · exact hrest (.within (a :: field')) (fun _ => List.mem_cons.1) hfield
      | behind field' =>
          rw [splitFrom] at hfield
          split at hfield
          · exact hrest (.behind field') (fun _ => .inr) hfield
          · split at hfield
            · exact hdone field' (fun _ => id) .before nofun hfield
            · exact hdone field' (fun _ => id) (.within [a])
                (fun c hc => .inl (List.mem_singleton.1 hc)) hfield

/-- The characters of a field are in the text. -/
theorem mem_of_mem_splitFields {ifs text field : Text} {c : Char}
    (hfield : field ∈ splitFields ifs text) (hc : c ∈ field) : c ∈ text :=
  (mem_of_mem_splitFrom hfield hc).resolve_left List.not_mem_nil

/-- An unquoted expansion; a field is a pattern for names unless `set -f` is in force. -/
def expand (glob : Text → List Text) (ifs : Text) (noglob : Bool) (text : Text) : List Text :=
  if noglob = true then splitFields ifs text else (splitFields ifs text).flatMap glob

/-! ### Parameter expansion -/

/-- `${text%%c*}`. -/
def cutBefore (c : Char) (text : Text) : Text := text.takeWhile (· ≠ c)

/-- `${text#*c}`. -/
def cutThrough (c : Char) (text : Text) : Text :=
  if c ∈ text then (text.dropWhile (· ≠ c)).tail else text

/-! ### sed and command substitution -/

/-- A sed program, on the lines of a text; the current line is in reverse order. -/
def mapLinesFrom (f : Text → Text) (line : Text) : Text → Text
  | [] => f line.reverse
  | c :: text =>
      if c = '\n' then f line.reverse ++ '\n' :: mapLinesFrom f [] text
      else mapLinesFrom f (c :: line) text

/-- A function applied to every line of a text. -/
def mapLines (f : Text → Text) (text : Text) : Text := mapLinesFrom f [] text

/-- Where every line maps to nothing, only the line ends are left. -/
theorem mapLinesFrom_newlines {f : Text → Text} {p : Char → Bool}
    (hf : ∀ line : Text, (∀ c ∈ line, p c = true) → f line = []) {line text : Text}
    (hline : ∀ c ∈ line, p c = true) (htext : ∀ c ∈ text, c ≠ '\n' → p c = true) :
    ∀ c ∈ mapLinesFrom f line text, c = '\n' := by
  have hempty : ∀ {line : Text}, (∀ c ∈ line, p c = true) → f line.reverse = [] := fun h =>
    hf _ fun c hc => h c (List.mem_reverse.1 hc)
  induction text generalizing line with
  | nil =>
      intro c hc
      rw [mapLinesFrom, hempty hline] at hc
      exact absurd hc List.not_mem_nil
  | cons a text ih =>
      have hrest : ∀ c ∈ text, c ≠ '\n' → p c = true := fun c hc =>
        htext c (List.mem_cons_of_mem a hc)
      intro c hc
      rw [mapLinesFrom] at hc
      split at hc
      · rw [hempty hline, List.nil_append] at hc
        rcases List.mem_cons.1 hc with rfl | hlater
        · rfl
        · exact ih (List.forall_mem_nil _) hrest c hlater
      · next hne =>
          apply ih ?_ hrest c hc
          intro b hb
          rcases List.mem_cons.1 hb with rfl | hold
          · exact htext b List.mem_cons_self hne
          · exact hline b hold

/-- When the program leaves nothing of a line of such characters, only newlines are left of a text
of such lines. -/
theorem mapLines_newlines {f : Text → Text} {p : Char → Bool}
    (hf : ∀ line : Text, (∀ c ∈ line, p c = true) → f line = []) {text : Text}
    (htext : ∀ c ∈ text, c ≠ '\n' → p c = true) : ∀ c ∈ mapLines f text, c = '\n' :=
  mapLinesFrom_newlines hf (List.forall_mem_nil _) htext

/-- `$(..)`: without the newlines at the end. -/
def substitution (text : Text) : Text := text.rdropWhile (· = '\n')

end ConfigEnv.Shell
