/-
Module: ConfigEnv.Gps.TimeZone
Layer: Gps
Purpose: The time zone of the recorder. `tz_update` reads `/etc/TZ` into an array of 16 bytes, cuts
  it at its line ends from the last byte down, and passes what is left to the environment through a
  second array of that size when it differs from the value there. An access past the end of
  `sys_tz`, a string that does not end in it and a comparison with no string are faults. What is
  logged, and `tzset`, are left out.
Trusted boundary: none
Main exports: TzFile, TzState, cutLineEnd, cutLineEnds, tzUpdate
Open obligations: none
-/
import ConfigEnv.Gps.Ubx
import ConfigEnv.Lib.CharArray

namespace ConfigEnv.Gps

open CharArray (Fault)

/-- `/etc/TZ`: `open` fails, `read` fails, or it has a content. -/
inductive TzFile where
  | missing
  | unreadable
  | content (bytes : List u8)
deriving DecidableEq, Repr

/-- What `getenv("TZ")` gives, and `gl_tz`. -/
structure TzState where
  tz : Option (CString (0x00 : u8))
  glTz : CharArray 16 u8
deriving DecidableEq

/-- `'\r'` or `'\n'`. -/
abbrev LineEnd (b : u8) : Prop := b = 0x0D ∨ b = 0x0A

/-- The body of the loop on `ret`. -/
def cutLineEnd (sysTz : CharArray 16 u8) (ret : Nat) : Except Fault (CharArray 16 u8) := do
  let b ← sysTz.load ret
  if LineEnd b then sysTz.store ret 0x00 else .ok sysTz

/-- The loop; the first byte is not looked at. -/
def cutLineEnds (sysTz : CharArray 16 u8) : Nat → Except Fault (CharArray 16 u8)
  | 0 => .ok sysTz
  | ret + 1 => do
      let sysTz ← cutLineEnd sysTz (ret + 1)
      cutLineEnds sysTz ret

/-- `"TZ="`. -/
def tzName : CString (0x00 : u8) := ⟨[0x54, 0x5A, 0x3D], by decide⟩

/-- `snprintf(gl_tz, sizeof(gl_tz), "TZ=%s", sys_tz)` and `putenv(gl_tz)`: from now on the value is
what follows the name in `gl_tz`. -/
def setTz (s : TzState) (sysTz : CString (0x00 : u8)) : Except Fault TzState := do
  let glTz := CharArray.snprintf 0x00 s.glTz (tzName.append sysTz)
  let entry ← glTz.string 0x00
  .ok { tz := some (entry.drop tzName.1.length), glTz := glTz }

/-- `tz_update` with what it returns. -/
def tzUpdate (s : TzState) : TzFile → Except Fault (Int × TzState)
  | .missing => .ok (-1, s)
  | .unreadable => .ok (0, s)
  | .content bytes =>
      let ret := min bytes.length 16
      if ret > 0 then do
        let array ← cutLineEnds ((CharArray.zeroed 16 0x00).fill bytes) ret
        let sysTz ← array.string 0x00
        match s.tz with
        | none => .error .noString
        | some tzNow =>
            if sysTz ≠ tzNow then do
              let s ← setTz s sysTz
              .ok (0, s)
            else .ok (0, s)
      else .ok (0, s)

end ConfigEnv.Gps
