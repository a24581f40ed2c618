/-
Module: ConfigEnv.Proofs.CanIdentifiers
Layer: Proofs
Purpose: Round trips of tools/j1939-pgn. Both modes see an identifier as five fields, and a PGN as
  two or three; what is printed is read back. The bit above DP is in none of the fields, so an
  identifier and a PGN come back without it, and otherwise as they were.
Trusted boundary: none
Main exports: canidLayout, pdu1Layout, pdu2Layout, parseCanid_eq, buildCanid_eq, put_canid, put_pgn,
  buildCanid_parsed, parseCanid_built, Parses.unique, Builds.unique, can_identifiers_return,
  can_identifiers_return_example, bit_above_dp_is_lost
Open obligations: none
-/
import ConfigEnv.Lib.BitFields
import ConfigEnv.Tools.J1939Pgn

namespace ConfigEnv.Tools

open Numerals (Text word decimal hex word_decimal word_hex decimal_inj hex_append_inj)
open BitFields (Field Layout Fits get put clear)

/-! ### Fields -/

def priorityField : Field := ⟨26, 3⟩
def dpField : Field := ⟨24, 1⟩
def pfField : Field := ⟨16, 8⟩
def psField : Field := ⟨8, 8⟩
def saField : Field := ⟨0, 8⟩

def canidLayout : Layout 64 where
  fields := [priorityField, dpField, pfField, psField, saField]
  apart := by decide
  within := by decide

def pgnDpField : Field := ⟨16, 1⟩
def pgnPfField : Field := ⟨8, 8⟩
def pgnPsField : Field := ⟨0, 8⟩

/-- The values of the fields of an identifier. -/
def canidParts (priority dp pf ps sa : Word) : List (Field × Word) :=
  [(priorityField, priority), (dpField, dp), (pfField, pf), (psField, ps), (saField, sa)]

/-- A PGN without PS. -/
def pdu1Layout : Layout 64 where
  fields := [pgnDpField, pgnPfField]
  apart := by decide
  within := by decide

/-- A PGN with PS. -/
def pdu2Layout : Layout 64 where
  fields := [pgnDpField, pgnPfField, pgnPsField]
  apart := by decide
  within := by decide

/-- The PF of a PGN. -/
def pfOf (pgn : Word) : ℕ := pgn.toNat / 2 ^ 8 % 2 ^ 8

theorem toNat_pgnPf (pgn : Word) : (get pgn pgnPfField).toNat = pfOf pgn := BitFields.toNat_get _ _

theorem toInt_lt_iff {v : Word} (h : Fits v 8) : v.toInt < 240 ↔ v.toNat < 240 := by
  have hlt : v.toNat < 256 := h
  rw [BitVec.toInt_eq_toNat_of_lt (by omega)]
  omega

/-- The fields that parsing prints. -/
theorem parseCanid_eq (canid : Word) : parseCanid canid =
    { priority := get canid priorityField
      dp := get canid dpField
      pf := get canid pfField
      ps := get canid psField
      sa := get canid saField
      pgn :=
        if (get canid pfField).toNat < 240 then
          put [(pgnDpField, get canid dpField), (pgnPfField, get canid pfField)]
        else
          put [(pgnDpField, get canid dpField), (pgnPfField, get canid pfField),
            (pgnPsField, get canid psField)] } := by
  have hpriority : canid.sshiftRight 26 &&& 0x7#64 = get canid priorityField :=
    BitFields.sshiftRight_and_mask canid (by decide : 26 + 3 ≤ 64)
  have hdp : canid.sshiftRight 24 &&& 0x1#64 = get canid dpField :=
    BitFields.sshiftRight_and_mask canid (by decide : 24 + 1 ≤ 64)
  have hpf : canid.sshiftRight 16 &&& 0xFF#64 = get canid pfField :=
    BitFields.sshiftRight_and_mask canid (by decide : 16 + 8 ≤ 64)
  have hps : canid.sshiftRight 8 &&& 0xFF#64 = get canid psField :=
    BitFields.sshiftRight_and_mask canid (by decide : 8 + 8 ≤ 64)
  have hsa : canid &&& 0xFF#64 = get canid saField :=
    BitFields.and_mask canid (by decide : 8 ≤ 64)
  rw [parseCanid, hpriority, hdp, hpf, hps, hsa]
  simp only [toInt_lt_iff (BitFields.fits_get canid pfField), put, BitVec.or_zero, pgnDpField,
    pgnPfField, pgnPsField, BitVec.shiftLeft_zero, BitVec.or_assoc]

/-- The identifier that building puts together. -/
theorem buildCanid_eq {args : Args} {pgn sa priority da : Word}
    (hpgn : word 64 args.pgn = some pgn) (hsa : word 64 args.sa = some sa)
    (hpriority : word 64 args.priority = some priority)
    (hda : pfOf pgn < 240 → word 64 args.da = some da) :
    buildCanid args = some (put (canidParts priority (get pgn pgnDpField) (get pgn pgnPfField)
      (if pfOf pgn < 240 then da else get pgn pgnPsField) sa)) := by
  have hpf : pgn.sshiftRight 8 &&& 0xFF#64 = get pgn pgnPfField :=
    BitFields.sshiftRight_and_mask pgn (by decide : 8 + 8 ≤ 64)
  have hdp : pgn.sshiftRight 16 &&& 0x1#64 = get pgn pgnDpField :=
    BitFields.sshiftRight_and_mask pgn (by decide : 16 + 1 ≤ 64)
  have hps : pgn &&& 0xFF#64 = get pgn pgnPsField :=
    BitFields.and_mask pgn (by decide : 8 ≤ 64)
  have hput : ∀ dp pf ps : Word,
      priority <<< 26 ||| dp <<< 24 ||| pf <<< 16 ||| ps <<< 8 ||| sa =
        put (canidParts priority dp pf ps sa) := by
    intro dp pf ps
    simp only [canidParts, put, priorityField, dpField, pfField, psField, saField,
      BitVec.shiftLeft_zero, BitVec.or_zero, BitVec.or_assoc]
  have hlt : (get pgn pgnPfField).toInt < 240 ↔ pfOf pgn < 240 := by
    rw [toInt_lt_iff (BitFields.fits_get pgn pgnPfField), toNat_pgnPf]
  rw [← hput, buildCanid, hpgn]
  change Option.bind _ _ = _
  rw [Option.bind_some, hpf, hdp, hps, hpriority, hsa]
  simp only [hlt]
  by_cases hpdu : pfOf pgn < 240
  · rw [if_pos hpdu, if_pos hpdu, hda hpdu]
    rfl
  · rw [if_neg hpdu, if_neg hpdu]
    rfl

/-! ### Words -/

/-- The fields of an identifier leave out bit 25. -/
theorem put_canid {id : Word} (h : id.toNat < 2 ^ 29) :
    put (canidLayout.fields.map fun f => (f, get id f)) = clear id 25 := by
  have hbits : ∀ i < 64,
      canidLayout.fields.any (fun f => decide (f.Has i)) = decide (i < 29 ∧ i ≠ 25) := by decide
  refine BitVec.eq_of_getLsbD_eq fun i hi => ?_
  rw [BitFields.put_get id _ hi, BitFields.getLsbD_clear, hbits i hi]
  by_cases hlt : i < 29
  · simp [hlt]
  · have hfits : Fits id 29 := h
    rw [hfits.getLsbD (Nat.not_lt.1 hlt), Bool.and_false, Bool.and_false]

/-- The fields of a PGN leave out bit 17; the low byte is 0 when PS is not one of them. -/
theorem put_pgn {pgn : Word} (h : pgn.toNat < 2 ^ 18)
    (hlow : pfOf pgn < 240 → pgn.toNat % 2 ^ 8 = 0) :
    put ((if pfOf pgn < 240 then pdu1Layout else pdu2Layout).fields.map fun f => (f, get pgn f)) =
      clear pgn 17 := by
  have hpdu1 : ∀ i < 64, pdu1Layout.fields.any (fun f => decide (f.Has i)) =
      decide (8 ≤ i ∧ i < 17) := by decide
  have hpdu2 : ∀ i < 64, pdu2Layout.fields.any (fun f => decide (f.Has i)) =
      decide (i < 17) := by decide
  refine BitVec.eq_of_getLsbD_eq fun i hi => ?_
  rw [BitFields.put_get pgn _ hi, BitFields.getLsbD_clear]
  by_cases hhigh : 18 ≤ i
  · have hfits : Fits pgn 18 := h
    rw [hfits.getLsbD hhigh, Bool.and_false, Bool.and_false]
  · by_cases hpdu : pfOf pgn < 240
    · rw [if_pos hpdu, hpdu1 i hi]
      by_cases hbyte : i < 8
      · have hbit : (pgn.toNat % 2 ^ 8).testBit i = false := by rw [hlow hpdu, Nat.zero_testBit]
        rw [Nat.testBit_mod_two_pow, decide_eq_true hbyte, Bool.true_and] at hbit
        change pgn.getLsbD i = false at hbit
        rw [hbit, Bool.and_false, Bool.and_false]
      · have hiff : (8 ≤ i ∧ i < 17) ↔ i ≠ 17 := by omega
        rw [decide_eq_decide.2 hiff]
    · have hiff : i < 17 ↔ i ≠ 17 := by omega
      rw [if_neg hpdu, hpdu2 i hi, decide_eq_decide.2 hiff]

/-- The PGN that parsing prints has the fields of the identifier. -/
theorem get_parsed_pgn (id : Word) :
    get (parseCanid id).pgn pgnDpField = get id dpField ∧
      get (parseCanid id).pgn pgnPfField = get id pfField ∧
      (¬ (get id pfField).toNat < 240 →
        get (parseCanid id).pgn pgnPsField = get id psField) := by
  have hdp := BitFields.fits_get id dpField
  have hpf := BitFields.fits_get id pfField
  have hps := BitFields.fits_get id psField
  rw [parseCanid_eq]
  dsimp only
  by_cases hpdu : (get id pfField).toNat < 240
  · rw [if_pos hpdu]
    have hfits : ∀ q ∈ [(pgnDpField, get id dpField), (pgnPfField, get id pfField)],
        Fits q.2 q.1.width := List.forall_mem_cons.2 ⟨hdp, List.forall_mem_singleton.2 hpf⟩
    exact ⟨BitFields.get_put pdu1Layout rfl hfits (.head _),
      BitFields.get_put pdu1Layout rfl hfits (.tail _ (.head _)), fun h => absurd hpdu h⟩
  · rw [if_neg hpdu]
    have hfits : ∀ q ∈ [(pgnDpField, get id dpField), (pgnPfField, get id pfField),
        (pgnPsField, get id psField)], Fits q.2 q.1.width := List.forall_mem_cons.2
          ⟨hdp, List.forall_mem_cons.2 ⟨hpf, List.forall_mem_singleton.2 hps⟩⟩
    exact ⟨BitFields.get_put pdu2Layout rfl hfits (.head _),
      BitFields.get_put pdu2Layout rfl hfits (.tail _ (.head _)),
      fun _ => BitFields.get_put pdu2Layout rfl hfits (.tail _ (.tail _ (.head _)))⟩

/-- Building from what parsing prints gives the identifier without bit 25. -/
theorem buildCanid_parsed {id : Word} (h : id.toNat < 2 ^ 29) {args : Args}
    (hpgn : word 64 args.pgn = some (parseCanid id).pgn)
    (hsa : word 64 args.sa = some (parseCanid id).sa)
    (hpriority : word 64 args.priority = some (parseCanid id).priority)
    (hda : word 64 args.da = some (parseCanid id).ps) :
    buildCanid args = some (clear id 25) := by
  obtain ⟨hdp, hpf, hps⟩ := get_parsed_pgn id
  have hps' : (if pfOf (parseCanid id).pgn < 240 then (parseCanid id).ps
      else get (parseCanid id).pgn pgnPsField) = get id psField := by
    rw [← toNat_pgnPf, hpf]
    split
    · rw [parseCanid_eq]
    · next hpdu => exact hps hpdu
  rw [buildCanid_eq hpgn hsa hpriority fun _ => hda, hdp, hpf, hps', parseCanid_eq,
    ← put_canid h]
  rfl

/-- What parsing prints of an identifier that was built. -/
theorem parseCanid_put {priority dp pf ps sa : Word} (hpriority : Fits priority 3)
    (hdp : Fits dp 1) (hpf : Fits pf 8) (hps : Fits ps 8) (hsa : Fits sa 8) :
    parseCanid (put (canidParts priority dp pf ps sa)) =
      { priority := priority, dp := dp, pf := pf, ps := ps, sa := sa
        pgn :=
          if pf.toNat < 240 then put [(pgnDpField, dp), (pgnPfField, pf)]
          else put [(pgnDpField, dp), (pgnPfField, pf), (pgnPsField, ps)] } := by
  have hfits : ∀ q ∈ canidParts priority dp pf ps sa, Fits q.2 q.1.width :=
    List.forall_mem_cons.2 ⟨hpriority, List.forall_mem_cons.2 ⟨hdp, List.forall_mem_cons.2
      ⟨hpf, List.forall_mem_cons.2 ⟨hps, List.forall_mem_singleton.2 hsa⟩⟩⟩⟩
  have hget : ∀ f v, (f, v) ∈ canidParts priority dp pf ps sa →
      get (put (canidParts priority dp pf ps sa)) f = v :=
    fun f v hp => BitFields.get_put canidLayout rfl hfits hp
  rw [parseCanid_eq, hget priorityField priority (by simp [canidParts]),
    hget dpField dp (by simp [canidParts]), hget pfField pf (by simp [canidParts]),
    hget psField ps (by simp [canidParts]), hget saField sa (by simp [canidParts])]

/-- Parsing what was built gives the PGN without bit 17, and the other arguments. -/
theorem parseCanid_built {pgn sa priority da : Word} (hpgn : pgn.toNat < 2 ^ 18)
    (hlow : pfOf pgn < 240 → pgn.toNat % 2 ^ 8 = 0) (hsa : Fits sa 8) (hpriority : Fits priority 3)
    (hda : Fits da 8) :
    let p := parseCanid (put (canidParts priority (get pgn pgnDpField) (get pgn pgnPfField)
      (if pfOf pgn < 240 then da else get pgn pgnPsField) sa))
    p.pgn = clear pgn 17 ∧ p.sa = sa ∧ p.priority = priority ∧ (pfOf pgn < 240 → p.ps = da) := by
  have hps : Fits (if pfOf pgn < 240 then da else get pgn pgnPsField) 8 := by
    split
    · exact hda
    · exact BitFields.fits_get pgn pgnPsField
  rw [parseCanid_put hpriority (BitFields.fits_get pgn pgnDpField)
    (BitFields.fits_get pgn pgnPfField) hps hsa]
  refine ⟨?_, rfl, rfl, fun hpdu => if_pos hpdu⟩
  rw [← put_pgn hpgn hlow]
  dsimp only
  rw [toNat_pgnPf]
  by_cases hpdu : pfOf pgn < 240
  · rw [if_pos hpdu, if_pos hpdu]
    rfl
  · rw [if_neg hpdu, if_neg hpdu, if_neg hpdu]
    rfl

/-! ### What is printed -/

/-- The text is a constant with this value. -/
def Denotes (text : Text) (v : Word) : Prop := text ≠ [] ∧ word 64 text = some v

instance (text : Text) (v : Word) : Decidable (Denotes text v) :=
  inferInstanceAs (Decidable (_ ∧ _))

/-- Parsing the text prints these values. -/
def Parses (script arg : Text) (p : Parsed) : Prop :=
  j1939Pgn script ["canid".toList, arg] = some { lines := p.lines arg, status := 0 }

/-- Building from the arguments prints this identifier. -/
def Builds (script : Text) (args : Args) (id : Word) : Prop :=
  j1939Pgn script ["pgn".toList, args.pgn, args.sa, args.priority, args.da] =
    some { lines := args.lines id, status := 0 }

/-- The two texts of a PGN that parsing prints. -/
def Parsed.pgnTexts (p : Parsed) : List Text := [hex 6 p.pgn, decimal p.pgn]

/-- What parsing prints as arguments, the PS as destination. -/
def Parsed.args (p : Parsed) (pgn : Text) : Args where
  pgn := pgn
  sa := decimal p.sa
  priority := decimal p.priority
  da := decimal p.ps

/-- The two texts of an identifier that building prints. -/
def canidTexts (id : Word) : List Text := [hex 8 id, decimal id]

/-- Every text that is printed for a group number reads as that number. -/
theorem word_of_pgnTexts {p : Parsed} {text : Text} (h : text ∈ p.pgnTexts) :
    word 64 text = some p.pgn := by
  rw [Parsed.pgnTexts, List.mem_cons, List.mem_singleton] at h
  rcases h with rfl | rfl
  · exact word_hex 6 p.pgn
  · exact word_decimal p.pgn

/-- Every text that is printed for an identifier reads as it. -/
theorem word_of_canidTexts {id : Word} {text : Text} (h : text ∈ canidTexts id) :
    word 64 text = some id := by
  rw [canidTexts, List.mem_cons, List.mem_singleton] at h
  rcases h with rfl | rfl
  · exact word_hex 8 id
  · exact word_decimal id

theorem decimal_ne_nil (v : Word) : decimal v ≠ [] := by
  rw [decimal]
  split
  · exact List.cons_ne_nil _ _
  · exact Nat.toDigits_ne_nil

/-- An argument that is a number is taken apart as that number. -/
theorem parses_of_word {script arg : Text} {id : Word} (h : word 64 arg = some id) :
    Parses script arg (parseCanid id) := by
  rw [Parses, j1939Pgn, if_pos rfl, canidMode, h]
  rfl

/-- Arguments from which an identifier is built have it printed. -/
theorem builds_of_word {script : Text} {args : Args} {id : Word} (h : buildCanid args = some id)
    (hpriority : args.priority ≠ []) (hda : args.da ≠ []) : Builds script args id := by
  have hdefaults : orDefault "6".toList args.priority = args.priority ∧
      orDefault "255".toList args.da = args.da := ⟨if_neg hpriority, if_neg hda⟩
  rw [Builds, j1939Pgn, if_neg (by decide), if_pos rfl]
  change pgnMode { args with
    priority := orDefault "6".toList args.priority
    da := orDefault "255".toList args.da } = _
  rw [hdefaults.1, hdefaults.2, pgnMode, h]
  rfl

/-- The printed lines determine the values. -/
theorem Parses.unique {script arg : Text} {p p' : Parsed} (h : Parses script arg p)
    (h' : Parses script arg p') : p = p' := by
  rw [Parses, h, Option.some_inj, Output.mk.injEq] at h'
  have hlines := h'.1
  simp only [Parsed.lines, List.cons.injEq, List.append_assoc, List.append_cancel_left_eq,
    true_and, and_true] at hlines
  obtain ⟨hpriority, hdp, hpf, hps, hsa, hpgn⟩ := hlines
  have hvalue : p.pgn = p'.pgn := hex_append_inj hpgn
  cases p
  cases p'
  rw [Parsed.mk.injEq]
  exact ⟨decimal_inj hpriority, decimal_inj hdp, decimal_inj hpf, decimal_inj hps,
    decimal_inj hsa, hvalue⟩

/-- The printed lines determine the identifier. -/
theorem Builds.unique {script : Text} {args : Args} {id id' : Word} (h : Builds script args id)
    (h' : Builds script args id') : id = id' := by
  rw [Builds, h, Option.some_inj, Output.mk.injEq] at h'
  have hlines := h'.1
  simp only [Args.lines, List.cons.injEq, List.append_assoc, List.append_cancel_left_eq,
    true_and, and_true] at hlines
  exact hex_append_inj hlines

/-! ### Round trips -/

/-- What parsing prints of `arg` builds the identifier. -/
def ReturnsId (script arg : Text) (id : Word) : Prop :=
  ∃ p, Parses script arg p ∧ ∀ pgn ∈ p.pgnTexts, Builds script (p.args pgn) id

/-- What building prints is parsed to these values, the PS as far as it is the destination. -/
def ReturnsArgs (script : Text) (args : Args) (pgn sa priority da : Word) : Prop :=
  ∃ id, Builds script args id ∧ ∀ arg ∈ canidTexts id, ∃ p, Parses script arg p ∧
    p.pgn = pgn ∧ p.sa = sa ∧ p.priority = priority ∧ (pfOf pgn < 240 → p.ps = da)

/-- Arguments of building, each within its field. -/
structure Valid (args : Args) (pgn sa priority da : Word) : Prop where
  pgnText : Denotes args.pgn pgn
  saText : Denotes args.sa sa
  priorityText : Denotes args.priority priority
  daText : Denotes args.da da
  pgnFits : Fits pgn 18
  pgnLow : pfOf pgn < 240 → pgn.toNat % 2 ^ 8 = 0
  saFits : Fits sa 8
  priorityFits : Fits priority 3
  daFits : Fits da 8

/-- At most one identifier comes back. -/
theorem ReturnsId.unique {script arg : Text} {id id' : Word} (h : ReturnsId script arg id)
    (h' : ReturnsId script arg id') : id = id' := by
  obtain ⟨p, hparses, hbuilds⟩ := h
  obtain ⟨p', hparses', hbuilds'⟩ := h'
  obtain rfl : p = p' := hparses.unique hparses'
  exact (hbuilds _ (.head _)).unique (hbuilds' _ (.head _))

/-- At most one group number comes back. -/
theorem ReturnsArgs.unique {script : Text} {args : Args} {pgn pgn' sa priority da : Word}
    (h : ReturnsArgs script args pgn sa priority da)
    (h' : ReturnsArgs script args pgn' sa priority da) : pgn = pgn' := by
  obtain ⟨id, hbuilds, hparses⟩ := h
  obtain ⟨id', hbuilds', hparses'⟩ := h'
  obtain rfl : id = id' := hbuilds.unique hbuilds'
  obtain ⟨p, hp, hpgn, -⟩ := hparses _ (.head _)
  obtain ⟨p', hp', hpgn', -⟩ := hparses' _ (.head _)
  rw [← hpgn, ← hpgn', hp.unique hp']

/-- An identifier of 29 bits comes back without its bit 25. -/
theorem returnsId_clear {script arg : Text} {id : Word} (harg : Denotes arg id)
    (h : id.toNat < 2 ^ 29) : ReturnsId script arg (clear id 25) := by
  refine ⟨parseCanid id, parses_of_word harg.2, fun pgn hpgn => ?_⟩
  have hbuild : buildCanid ((parseCanid id).args pgn) = some (clear id 25) :=
    buildCanid_parsed h (word_of_pgnTexts hpgn) (word_decimal _) (word_decimal _) (word_decimal _)
  exact builds_of_word hbuild (decimal_ne_nil _) (decimal_ne_nil _)

/-- Bit 17 of a group number is none of its PF. -/
theorem pfOf_clear (pgn : Word) : pfOf (clear pgn 17) = pfOf pgn := by
  rw [← toNat_pgnPf, BitFields.get_clear (by decide), toNat_pgnPf]

/-- A group number comes back without its bit 17. -/
theorem returnsArgs_clear {script : Text} {args : Args} {pgn sa priority da : Word}
    (h : Valid args pgn sa priority da) :
    ReturnsArgs script args (clear pgn 17) sa priority da := by
  have hbuild := buildCanid_eq h.pgnText.2 h.saText.2 h.priorityText.2 fun _ => h.daText.2
  refine ⟨_, builds_of_word hbuild h.priorityText.1 h.daText.1, fun arg harg => ?_⟩
  refine ⟨_, parses_of_word (word_of_canidTexts harg), ?_⟩
  rw [pfOf_clear]
  exact parseCanid_built h.pgnFits h.pgnLow h.saFits h.priorityFits h.daFits

/-- An identifier comes back without bit 25, and a PGN without bit 17. -/
theorem can_identifiers_return (script : Text) :
    (∀ arg id, Denotes arg id → id.toNat < 2 ^ 29 →
      ReturnsId script arg (clear id 25) ∧
        (ReturnsId script arg id ↔ id.getLsbD 25 = false)) ∧
    ∀ args pgn sa priority da, Valid args pgn sa priority da →
      ReturnsArgs script args (clear pgn 17) sa priority da ∧
        (ReturnsArgs script args pgn sa priority da ↔ pgn.getLsbD 17 = false) := by
  constructor
  · intro arg id harg hid
    have hclear : ReturnsId script arg (clear id 25) := returnsId_clear harg hid
    exact ⟨hclear, BitFields.clear_iff hclear fun _ => hclear.unique⟩
  · intro args pgn sa priority da hvalid
    have hclear : ReturnsArgs script args (clear pgn 17) sa priority da :=
      returnsArgs_clear hvalid
    exact ⟨hclear, BitFields.clear_iff (P := fun v => ReturnsArgs script args v sa priority da)
      hclear fun _ => hclear.unique⟩

/-- The identifier of the usage text, and a PGN with a destination. -/
theorem can_identifiers_return_example :
    ReturnsId "j1939-pgn".toList "0x18FE3185".toList 0x18FE3185#64 ∧
      ReturnsArgs "j1939-pgn".toList
        { pgn := "59904".toList, sa := "0x85".toList, priority := "6".toList, da := "33".toList }
        59904#64 0x85#64 6#64 33#64 := by
  constructor
  · have harg : Denotes "0x18FE3185".toList 0x18FE3185#64 := by decide
    exact ((can_identifiers_return _).1 _ _ harg (by decide)).2.2 (by decide)
  · have hvalid : Valid
        { pgn := "59904".toList, sa := "0x85".toList, priority := "6".toList, da := "33".toList }
        59904#64 0x85#64 6#64 33#64 :=
      { pgnText := by decide
        saText := by decide
        priorityText := by decide
        daText := by decide
        pgnFits := by decide
        pgnLow := by decide
        saFits := by decide
        priorityFits := by decide
        daFits := by decide }
    exact ((can_identifiers_return _).2 _ _ _ _ _ hvalid).2.2 (by decide)

/-- The bit above DP is lost: in the identifier 0x02000000, and in the PGN 0x20000. -/
theorem bit_above_dp_is_lost :
    (¬ ∀ script arg id, Denotes arg id → id.toNat < 2 ^ 29 → ReturnsId script arg id) ∧
      ¬ ∀ script args pgn sa priority da, Valid args pgn sa priority da →
        ReturnsArgs script args pgn sa priority da := by
  constructor
  · intro h
    have harg : Denotes "0x02000000".toList 0x02000000#64 := by decide
    have hlt : (0x02000000#64).toNat < 2 ^ 29 := by decide
    have hclear : ReturnsId [] _ (clear 0x02000000#64 25) := returnsId_clear harg hlt
    have heq := hclear.unique (h [] _ _ harg hlt)
    exact absurd heq (by decide)
  · intro h
    have hvalid : Valid
        { pgn := "0x20000".toList, sa := "0".toList, priority := "6".toList, da := "255".toList }
        0x20000#64 0#64 6#64 255#64 :=
      { pgnText := by decide
        saText := by decide
        priorityText := by decide
        daText := by decide
        pgnFits := by decide
        pgnLow := by decide
        saFits := by decide
        priorityFits := by decide
        daFits := by decide }
    have heq := (returnsArgs_clear hvalid).unique (h [] _ _ _ _ _ hvalid)
    exact absurd heq (by decide)

end ConfigEnv.Tools
