/-
Module: ConfigEnv.Tools.J1939Pgn
Layer: Tools
Purpose: tools/j1939-pgn, which takes a CAN identifier of J1939 apart and builds one from a PGN. The
  numbers of its arithmetic are words of 64 bits with a sign. An argument is a constant; what bash
  makes of another text is left out.
Trusted boundary: the arithmetic of bash, where an empty text is 0 and a shift to the right keeps
  the sign
Main exports: Word, Output, usage, Parsed, parseCanid, Parsed.lines, canidMode, Args, buildCanid,
  Args.lines, pgnMode, j1939Pgn
Open obligations: none
-/
import ConfigEnv.Lib.Numerals

namespace ConfigEnv.Tools

open Numerals (Text word decimal hex)

/-- An integer of the shell. -/
abbrev Word := BitVec 64

/-- What is printed, and the exit status. -/
structure Output where
  lines : List Text
  status : ℕ
deriving DecidableEq, Repr

/-- `script` is `$0`. -/
def usage (script : Text) : Output where
  lines :=
    ["Usage:".toList,
      "  Parse CAN ID:".toList,
      "    ".toList ++ script ++
        " canid <can_id>                (e.g. 0x18FE3185 or 419364229)".toList,
      [],
      "  Build CAN ID from PGN:".toList,
      "    ".toList ++ script ++ " pgn <pgn_dec> <sa> [priority] [da]".toList,
      "    (priority default=6, da default=0xFF for broadcast)".toList]
  status := 1

/-! ### Parsing an identifier -/

/-- The fields of an identifier. -/
structure Parsed where
  priority : Word
  dp : Word
  pf : Word
  ps : Word
  sa : Word
  pgn : Word
deriving DecidableEq, Repr

/-- `parse_canid`. -/
def parseCanid (canid : Word) : Parsed :=
  let dp := canid.sshiftRight 24 &&& 0x1#64
  let pf := canid.sshiftRight 16 &&& 0xFF#64
  let ps := canid.sshiftRight 8 &&& 0xFF#64
  { priority := canid.sshiftRight 26 &&& 0x7#64
    dp := dp
    pf := pf
    ps := ps
    sa := canid &&& 0xFF#64
    pgn := if pf.toInt < 240 then dp <<< 16 ||| pf <<< 8 else dp <<< 16 ||| pf <<< 8 ||| ps }

/-- What is printed about an identifier. -/
def Parsed.lines (p : Parsed) (arg : Text) : List Text :=
  ["CAN ID = ".toList ++ arg,
    " Priority = ".toList ++ decimal p.priority,
    " DP       = ".toList ++ decimal p.dp,
    " PF       = ".toList ++ decimal p.pf,
    " PS       = ".toList ++ decimal p.ps,
    " SA       = ".toList ++ decimal p.sa,
    " PGN      = ".toList ++ hex 6 p.pgn ++ " (".toList ++ decimal p.pgn ++ ")".toList]

/-- The mode `canid`. -/
def canidMode (arg : Text) : Option Output :=
  (word 64 arg).map fun canid => { lines := (parseCanid canid).lines arg, status := 0 }

/-! ### Building an identifier -/

/-- The variables that are set from the arguments. -/
structure Args where
  pgn : Text
  sa : Text
  priority : Text
  da : Text
deriving DecidableEq, Repr

/-- The destination is only looked at when PF is below 240. -/
def buildCanid (args : Args) : Option Word := do
  let pgn ← word 64 args.pgn
  let pf := pgn.sshiftRight 8 &&& 0xFF#64
  let dp := pgn.sshiftRight 16 &&& 0x1#64
  let ps ← if pf.toInt < 240 then word 64 args.da else some (pgn &&& 0xFF#64)
  let priority ← word 64 args.priority
  let sa ← word 64 args.sa
  some (priority <<< 26 ||| dp <<< 24 ||| pf <<< 16 ||| ps <<< 8 ||| sa)

/-- What is printed about the arguments and the identifier built from them. -/
def Args.lines (args : Args) (canid : Word) : List Text :=
  ["Input:".toList,
    " PGN      = ".toList ++ args.pgn,
    " SA       = ".toList ++ args.sa,
    " Priority = ".toList ++ args.priority,
    " DA       = ".toList ++ args.da,
    "CAN ID = ".toList ++ hex 8 canid ++ " (".toList ++ decimal canid ++ ")".toList]

/-- The mode `pgn`. -/
def pgnMode (args : Args) : Option Output :=
  (buildCanid args).map fun canid => { lines := args.lines canid, status := 0 }

/-! ### The script -/

/-- `${n:-text}`. -/
def orDefault (text arg : Text) : Text := if arg = [] then text else arg

/-- The script on its arguments. -/
def j1939Pgn (script : Text) : List Text → Option Output
  | mode :: arg :: rest =>
      if mode = "canid".toList then canidMode arg
      else if mode = "pgn".toList then
        pgnMode
          { pgn := arg
            sa := rest.getD 0 []
            priority := orDefault "6".toList (rest.getD 1 [])
            da := orDefault "255".toList (rest.getD 2 []) }
      else some (usage script)
  | _ => some (usage script)

end ConfigEnv.Tools
