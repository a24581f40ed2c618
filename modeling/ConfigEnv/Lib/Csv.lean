/-
Module: ConfigEnv.Lib.Csv
Layer: Lib
Purpose: The grammar of RFC 4180 as relations between a text and what it says, over any characters:
  a field is quoted, with doubled quotes in it, or plain; a record is fields with commas between
  them; a file is records with CR LF between them and perhaps at its end. What follows a field in a
  file decides where it ends, so a text without the last CR LF says one thing only. A table whose
  fields are all quoted is a text that says that table and no other.
Trusted boundary: none
Main exports: Grammar, Grammar.Inside, Escaped, Field, Record, Records, File, Grammar.Has,
  File.chars, Ends, EndsRecord, Escaped.unique, Field.unique, Record.unique, Records.unique, escape,
  quoted, row, table, file_table_iff
Open obligations: none
-/
import Mathlib.Data.List.Basic
import Mathlib.Tactic.Common

namespace ConfigEnv.Csv

/-- The characters with a meaning, and the text data among the others. -/
structure Grammar (β : Type) where
  quote : β
  comma : β
  cr : β
  lf : β
  textData : β → Prop
  distinct : [quote, comma, cr, lf].Nodup
  plain : ∀ c, textData c → c ∉ [quote, comma, cr, lf]

variable {β : Type} {G : Grammar β} {c : β} {s s' t v v' rest rest' : List β}

/-! ### The grammar -/

section Grammar

variable (G : Grammar β)

/-- What may stand between quotes besides two quotes. -/
def Grammar.Inside (c : β) : Prop := G.textData c ∨ c = G.comma ∨ c = G.cr ∨ c = G.lf

/-- The text of a quoted field, with its quotes doubled, and its value. -/
inductive Escaped : List β → List β → Prop where
  | nil : Escaped [] []
  | char {c : β} {s v : List β} (hc : G.Inside c) (h : Escaped s v) : Escaped (c :: s) (c :: v)
  | quotes {s v : List β} (h : Escaped s v) : Escaped (G.quote :: G.quote :: s) (G.quote :: v)

/-- A field and its value; without quotes it holds text data only. -/
inductive Field : List β → List β → Prop where
  | escaped {s v : List β} (h : Escaped G s v) : Field (G.quote :: (s ++ [G.quote])) v
  | nonEscaped {v : List β} (h : ∀ c ∈ v, G.textData c) : Field v v

/-- Fields between commas. -/
inductive Record : List β → List (List β) → Prop where
  | one {s v : List β} (h : Field G s v) : Record s [v]
  | more {s s' v : List β} {r : List (List β)} (h : Field G s v) (hr : Record s' r) :
      Record (s ++ G.comma :: s') (v :: r)

/-- Records between line ends. -/
inductive Records : List β → List (List (List β)) → Prop where
  | one {s : List β} {r : List (List β)} (h : Record G s r) : Records s [r]
  | more {s s' : List β} {r : List (List β)} {rs : List (List (List β))} (h : Record G s r)
      (hrs : Records s' rs) : Records (s ++ G.cr :: G.lf :: s') (r :: rs)

/-- A file may end in a line end. -/
inductive File : List β → List (List (List β)) → Prop where
  | unended {s : List β} {rs : List (List (List β))} (h : Records G s rs) : File s rs
  | ended {s : List β} {rs : List (List (List β))} (h : Records G s rs) :
      File (s ++ [G.cr, G.lf]) rs

end Grammar

/-! ### Characters -/

theorem Grammar.Inside.ne_quote (h : G.Inside c) : c ≠ G.quote := by
  have hdistinct := G.distinct
  rintro rfl
  rcases h with h | h | h | h
  · exact G.plain _ h List.mem_cons_self
  · simp [h] at hdistinct
  · simp [h] at hdistinct
  · simp [h] at hdistinct

/-- The characters that a file has. -/
def Grammar.Has (G : Grammar β) (c : β) : Prop := G.Inside c ∨ c = G.quote

/-- An escaped field holds characters of the grammar only. -/
theorem Escaped.chars (h : Escaped G s v) : ∀ c ∈ s, G.Has c := by
  induction h with
  | nil => rintro c ⟨⟩
  | char hc _ ih => exact List.forall_mem_cons.2 ⟨.inl hc, ih⟩
  | quotes _ ih => exact List.forall_mem_cons.2 ⟨.inr rfl, List.forall_mem_cons.2 ⟨.inr rfl, ih⟩⟩

/-- A field holds characters of the grammar only. -/
theorem Field.chars (h : Field G s v) : ∀ c ∈ s, G.Has c := by
  cases h with
  | escaped h =>
      refine List.forall_mem_cons.2 ⟨.inr rfl, List.forall_mem_append.2 ⟨h.chars, ?_⟩⟩
      exact List.forall_mem_singleton.2 (.inr rfl)
  | nonEscaped h => exact fun c hc => .inl (.inl (h c hc))

/-- A record holds characters of the grammar only. -/
theorem Record.chars {r : List (List β)} (h : Record G s r) : ∀ c ∈ s, G.Has c := by
  induction h with
  | one h => exact h.chars
  | more h _ ih =>
      exact List.forall_mem_append.2 ⟨h.chars, List.forall_mem_cons.2 ⟨.inl (.inr (.inl rfl)), ih⟩⟩

/-- A file holds characters of the grammar only. -/
theorem Records.chars {rs : List (List (List β))} (h : Records G s rs) : ∀ c ∈ s, G.Has c := by
  induction h with
  | one h => exact h.chars
  | more h _ ih =>
      exact List.forall_mem_append.2 ⟨h.chars, List.forall_mem_cons.2
        ⟨.inl (.inr (.inr (.inl rfl))), List.forall_mem_cons.2
          ⟨.inl (.inr (.inr (.inr rfl))), ih⟩⟩⟩

/-- A text with another character is no file. -/
theorem File.chars {rs : List (List (List β))} (h : File G s rs) : ∀ c ∈ s, G.Has c := by
  cases h with
  | unended h => exact h.chars
  | ended h =>
      refine List.forall_mem_append.2 ⟨h.chars, List.forall_mem_cons.2
        ⟨.inl (.inr (.inr (.inl rfl))), ?_⟩⟩
      exact List.forall_mem_singleton.2 (.inl (.inr (.inr (.inr rfl))))

/-! ### One reading only -/

/-- What may follow a field. -/
def Ends (G : Grammar β) (rest : List β) : Prop := ∀ c ∈ rest.head?, c = G.comma ∨ c = G.cr

/-- What may follow a record. -/
def EndsRecord (G : Grammar β) (rest : List β) : Prop := ∀ c ∈ rest.head?, c = G.cr

theorem EndsRecord.ends (h : EndsRecord G rest) : Ends G rest := fun c hc => .inr (h c hc)

theorem ends_comma (s : List β) : Ends G (G.comma :: s) := by
  intro c hc
  exact .inl (Option.some.inj hc).symm

theorem endsRecord_cr (s : List β) : EndsRecord G (G.cr :: s) := by
  intro c hc
  exact (Option.some.inj hc).symm

theorem endsRecord_nil : EndsRecord G [] := by
  rintro c ⟨⟩

/-- What ends a field begins neither with a quote nor with text data. -/
theorem Ends.not_special (h : Ends G (c :: s)) : c ≠ G.quote ∧ ¬ G.textData c := by
  have hdistinct := G.distinct
  rcases h c rfl with rfl | rfl
  · exact ⟨fun h => by simp [h] at hdistinct, fun h => G.plain _ h (by simp)⟩
  · exact ⟨fun h => by simp [h] at hdistinct, fun h => G.plain _ h (by simp)⟩

theorem Ends.head?_ne (h : Ends G rest) : rest.head? ≠ some G.quote := by
  cases rest with
  | nil => rintro ⟨⟩
  | cons c s => exact fun hc => h.not_special.1 (Option.some.inj hc)

/-- Two quoted fields before something else than a quote. -/
theorem Escaped.unique (h : Escaped G s v) (h' : Escaped G s' v')
    (heq : s ++ G.quote :: rest = s' ++ G.quote :: rest') (hrest : rest.head? ≠ some G.quote)
    (hrest' : rest'.head? ≠ some G.quote) : v = v' ∧ rest = rest' := by
  induction h generalizing s' v' with
  | nil =>
      cases h' with
      | nil => exact ⟨rfl, (List.cons.inj heq).2⟩
      | char hc h' => exact absurd (List.cons.inj heq).1.symm hc.ne_quote
      | quotes h' =>
          obtain ⟨-, htail⟩ := List.cons.inj heq
          exact absurd (congrArg List.head? htail) hrest
  | char hc h ih =>
      cases h' with
      | nil => exact absurd (List.cons.inj heq).1 hc.ne_quote
      | char hc' h' =>
          obtain ⟨rfl, htail⟩ := List.cons.inj heq
          obtain ⟨rfl, hend⟩ := ih h' htail
          exact ⟨rfl, hend⟩
      | quotes h' => exact absurd (List.cons.inj heq).1 hc.ne_quote
  | quotes h ih =>
      cases h' with
      | nil =>
          obtain ⟨-, htail⟩ := List.cons.inj heq
          exact absurd (congrArg List.head? htail.symm) hrest'
      | char hc' h' => exact absurd (List.cons.inj heq).1.symm hc'.ne_quote
      | quotes h' =>
          obtain ⟨-, htail⟩ := List.cons.inj (List.cons.inj heq).2
          obtain ⟨rfl, hend⟩ := ih h' htail
          exact ⟨rfl, hend⟩

/-- Two plain fields. -/
theorem plain_unique (h : ∀ c ∈ v, G.textData c) (h' : ∀ c ∈ v', G.textData c)
    (heq : v ++ rest = v' ++ rest') (hrest : Ends G rest) (hrest' : Ends G rest') :
    v = v' ∧ rest = rest' := by
  induction v generalizing v' with
  | nil =>
      cases v' with
      | nil => exact ⟨rfl, heq⟩
      | cons c v' =>
          subst heq
          exact absurd (h' c List.mem_cons_self) hrest.not_special.2
  | cons c v ih =>
      cases v' with
      | nil =>
          subst heq
          exact absurd (h c List.mem_cons_self) hrest'.not_special.2
      | cons c' v' =>
          obtain ⟨rfl, htail⟩ := List.cons.inj heq
          obtain ⟨rfl, hend⟩ := ih (List.forall_mem_cons.1 h).2 (List.forall_mem_cons.1 h').2 htail
          exact ⟨rfl, hend⟩

/-- A plain field does not begin as a quoted one. -/
theorem plain_ne_quoted (h : ∀ c ∈ v, G.textData c) (hrest : Ends G rest) :
    v ++ rest ≠ G.quote :: s := by
  intro heq
  cases v with
  | nil =>
      subst heq
      exact hrest.not_special.1 rfl
  | cons c v =>
      obtain ⟨rfl, -⟩ := List.cons.inj heq
      exact G.plain _ (h _ List.mem_cons_self) List.mem_cons_self

/-- What a text begins with as a field is decided by what may follow it. -/
theorem Field.unique (h : Field G s v) (h' : Field G s' v') (heq : s ++ rest = s' ++ rest')
    (hrest : Ends G rest) (hrest' : Ends G rest') : v = v' ∧ rest = rest' := by
  cases h with
  | escaped h =>
      cases h' with
      | escaped h' =>
          rw [List.cons_append, List.cons_append, List.append_assoc, List.append_assoc] at heq
          exact h.unique h' (List.cons.inj heq).2 hrest.head?_ne hrest'.head?_ne
      | nonEscaped h' => exact absurd heq.symm (plain_ne_quoted h' hrest')
  | nonEscaped h =>
      cases h' with
      | escaped h' => exact absurd heq (plain_ne_quoted h hrest)
      | nonEscaped h' => exact plain_unique h h' heq hrest hrest'

theorem EndsRecord.ne_comma (h : EndsRecord G rest) (s : List β) : rest ≠ G.comma :: s := by
  rintro rfl
  have hdistinct := G.distinct
  have hcomma := h G.comma rfl
  simp [hcomma] at hdistinct

/-- A record is read in one way. -/
theorem Record.unique {r r' : List (List β)} (h : Record G s r) (h' : Record G s' r')
    (heq : s ++ rest = s' ++ rest') (hrest : EndsRecord G rest) (hrest' : EndsRecord G rest') :
    r = r' ∧ rest = rest' := by
  induction h generalizing s' r' with
  | one h =>
      cases h' with
      | one h' =>
          obtain ⟨rfl, hend⟩ := h.unique h' heq hrest.ends hrest'.ends
          exact ⟨rfl, hend⟩
      | more h' hr' =>
          rw [List.append_assoc] at heq
          obtain ⟨-, hend⟩ := h.unique h' heq hrest.ends (ends_comma _)
          exact absurd hend (hrest.ne_comma _)
  | more h hr ih =>
      rw [List.append_assoc] at heq
      cases h' with
      | one h' =>
          obtain ⟨-, hend⟩ := h.unique h' heq (ends_comma _) hrest'.ends
          exact absurd hend.symm (hrest'.ne_comma _)
      | more h' hr' =>
          rw [List.append_assoc] at heq
          obtain ⟨rfl, hend⟩ := h.unique h' heq (ends_comma _) (ends_comma _)
          obtain ⟨rfl, hlast⟩ := ih hr' (List.cons.inj hend).2
          exact ⟨rfl, hlast⟩

/-- Equal texts hold equal records. -/
theorem Records.unique_of_eq {rs rs' : List (List (List β))} (h : Records G s rs)
    (h' : Records G s' rs') (heq : s = s') : rs = rs' := by
  induction h generalizing s' rs' with
  | one h =>
      cases h' with
      | one h' =>
          obtain ⟨rfl, -⟩ := h.unique h' (congrArg (· ++ []) heq) endsRecord_nil endsRecord_nil
          rfl
      | more h' hrs' =>
          obtain ⟨-, hend⟩ := h.unique h' ((List.append_nil _).trans heq) endsRecord_nil
            (endsRecord_cr _)
          cases hend
  | more h hrs ih =>
      cases h' with
      | one h' =>
          obtain ⟨-, hend⟩ := h.unique h' (heq.trans (List.append_nil _).symm) (endsRecord_cr _)
            endsRecord_nil
          cases hend
      | more h' hrs' =>
          obtain ⟨rfl, hend⟩ := h.unique h' heq (endsRecord_cr _) (endsRecord_cr _)
          have htail := (List.cons.inj (List.cons.inj hend).2).2
          rw [ih hrs' htail]

/-- A text says at most one table apart from a CR LF at its end. -/
theorem Records.unique {rs rs' : List (List (List β))} (h : Records G s rs)
    (h' : Records G s rs') : rs = rs' :=
  h.unique_of_eq h' rfl

/-! ### Tables of quoted fields -/

section Quoted

variable [DecidableEq β]

/-- Every quote is doubled. -/
def escape (G : Grammar β) (v : List β) : List β :=
  v.flatMap fun c => if c = G.quote then [G.quote, G.quote] else [c]

/-- A value in quotes, those in it doubled. -/
def quoted (G : Grammar β) (v : List β) : List β := G.quote :: (escape G v ++ [G.quote])

/-- The fields of a record quoted, with commas between. -/
def row (G : Grammar β) (r : List (List β)) : List β := [G.comma].intercalate (r.map (quoted G))

/-- The rows between line ends. -/
def table (G : Grammar β) (rows : List (List (List β))) : List β :=
  [G.cr, G.lf].intercalate (rows.map (row G))

theorem row_singleton : row G [v] = quoted G v := List.intercalate_singleton

theorem row_cons_cons {r : List (List β)} :
    row G (v :: v' :: r) = quoted G v ++ G.comma :: row G (v' :: r) :=
  List.intercalate_cons_cons.trans (List.append_assoc _ _ _)

theorem table_singleton {r : List (List β)} : table G [r] = row G r := List.intercalate_singleton

theorem table_cons_cons {r r' : List (List β)} {rows : List (List (List β))} :
    table G (r :: r' :: rows) = row G r ++ G.cr :: G.lf :: table G (r' :: rows) :=
  List.intercalate_cons_cons.trans (List.append_assoc _ _ _)

/-- Doubling the quotes gives an escaped field of the value. -/
theorem escaped_escape (h : ∀ c ∈ v, G.Has c) : Escaped G (escape G v) v := by
  induction v with
  | nil => exact .nil
  | cons c v ih =>
      obtain ⟨hc, hv⟩ := List.forall_mem_cons.1 h
      rw [escape, List.flatMap_cons]
      by_cases hquote : c = G.quote
      · rw [if_pos hquote, hquote]
        exact .quotes (ih hv)
      · rw [if_neg hquote]
        exact .char (hc.resolve_right hquote) (ih hv)

/-- A quoted value is a field of the grammar with that value. -/
theorem field_quoted (h : ∀ c ∈ v, G.Has c) : Field G (quoted G v) v :=
  .escaped (escaped_escape h)

/-- A written row is a record with its values. -/
theorem record_row {r : List (List β)} (hne : r ≠ []) (h : ∀ v ∈ r, ∀ c ∈ v, G.Has c) :
    Record G (row G r) r := by
  induction r with
  | nil => exact absurd rfl hne
  | cons v r ih =>
      obtain ⟨hv, hr⟩ := List.forall_mem_cons.1 h
      cases r with
      | nil =>
          rw [row_singleton]
          exact .one (field_quoted hv)
      | cons v' r =>
          rw [row_cons_cons]
          exact .more (field_quoted hv) (ih (by rintro ⟨⟩) hr)

/-- A written table is a file with its rows. -/
theorem records_table {rows : List (List (List β))} (hne : rows ≠ []) (hrows : ∀ r ∈ rows, r ≠ [])
    (h : ∀ r ∈ rows, ∀ v ∈ r, ∀ c ∈ v, G.Has c) : Records G (table G rows) rows := by
  induction rows with
  | nil => exact absurd rfl hne
  | cons r rows ih =>
      obtain ⟨hr, hrows⟩ := List.forall_mem_cons.1 hrows
      obtain ⟨hchars, h⟩ := List.forall_mem_cons.1 h
      cases rows with
      | nil =>
          rw [table_singleton]
          exact .one (record_row hr hchars)
      | cons r' rows =>
          rw [table_cons_cons]
          exact .more (record_row hr hchars) (ih (by rintro ⟨⟩) hrows h)

/-- A written row ends in a quote. -/
theorem row_ends {r : List (List β)} (hne : r ≠ []) : ∃ s, row G r = s ++ [G.quote] := by
  induction r with
  | nil => exact absurd rfl hne
  | cons v r ih =>
      cases r with
      | nil => exact ⟨G.quote :: escape G v, row_singleton⟩
      | cons v' r =>
          obtain ⟨s, hs⟩ := ih (by rintro ⟨⟩)
          refine ⟨quoted G v ++ G.comma :: s, ?_⟩
          rw [row_cons_cons, hs, List.append_assoc, List.cons_append]

/-- A table ends with a quote. -/
theorem table_ends {rows : List (List (List β))} (hne : rows ≠ []) (hrows : ∀ r ∈ rows, r ≠ []) :
    ∃ s, table G rows = s ++ [G.quote] := by
  induction rows with
  | nil => exact absurd rfl hne
  | cons r rows ih =>
      obtain ⟨hr, hrows⟩ := List.forall_mem_cons.1 hrows
      cases rows with
      | nil =>
          rw [table_singleton]
          exact row_ends hr
      | cons r' rows =>
          obtain ⟨s, hs⟩ := ih (by rintro ⟨⟩) hrows
          refine ⟨row G r ++ G.cr :: G.lf :: s, ?_⟩
          rw [table_cons_cons, hs, List.append_assoc, List.cons_append, List.cons_append]

/-- The text of a table says this table and no other. -/
theorem file_table_iff {rows rs : List (List (List β))} (hne : rows ≠ [])
    (hrows : ∀ r ∈ rows, r ≠ []) (h : ∀ r ∈ rows, ∀ v ∈ r, ∀ c ∈ v, G.Has c) :
    File G (table G rows) rs ↔ rs = rows := by
  have hrecords := records_table hne hrows h
  obtain ⟨s, hends⟩ := table_ends (G := G) hne hrows
  rw [hends] at hrecords ⊢
  constructor
  · generalize htext : s ++ [G.quote] = text at hrecords
    rintro (hrs | hrs)
    · exact hrs.unique hrecords
    · -- The last character is a quote, not the end of a line.
      have hsplit := htext.trans (List.append_cons _ G.cr [G.lf])
      have hlast := (List.cons.inj (List.append_inj' hsplit rfl).2).1
      have hdistinct := G.distinct
      simp [hlast] at hdistinct
  · rintro rfl
    exact .unended hrecords

end Quoted

end ConfigEnv.Csv
