/-
Module: ConfigEnv.Mptcp.Failover
Layer: Mptcp
Purpose: The analysis that bench_failover of mptcp_bench.sh makes of a switch between two paths: the
  gaps in the ping log, the throughput curve before and after the path went down, and the verdict.
  Its floating point numbers are rationals. Every exception that its handler catches comes before
  the first value of the curve is set, so a file that throws leaves them as they are.
Trusted boundary: exact arithmetic
Main exports: Reply, Interval, IperfFile, Args, Curve, Status, Row, tmap, gapLoop, throughputs, pre,
  post, mean, recoverLoop, curve, status, benchFailover
Open obligations: none
-/
import Mathlib.Algebra.Order.Field.Rat
import Mathlib.Logic.Function.Basic

namespace ConfigEnv.Mptcp.Failover

/-! ### What it reads -/

/-- A line of the ping log that matches. -/
structure Reply where
  time : ℚ
  seq : ℕ
deriving DecidableEq, Repr

/-- What is read of an interval. -/
structure Interval where
  start : ℚ
  bitsPerSecond : ℚ
deriving DecidableEq, Repr

/-- The intervals in the file of iperf3. There are none when the file is missing, is no JSON or has
none; an interval may lack its numbers. -/
abbrev IperfFile := Option (List (Option Interval))

/-- The arguments of the script that the verdict depends on. -/
structure Args where
  downAt : ℤ
  recPct : ℚ
deriving DecidableEq, Repr

/-! ### The ping log -/

/-- The time of each number; that of a repeated one is the last. -/
def tmap (replies : List Reply) : ℕ → ℚ :=
  replies.foldl (fun times r => Function.update times r.seq r.time) fun _ => 0

/-- The loop over neighbours, with `lost` and `maxgap`. -/
def gapLoop (times : ℕ → ℚ) : List ℕ → ℤ × ℚ → ℤ × ℚ
  | last :: next :: seqs, acc =>
      let gap : ℤ := next - last - 1
      if 0 < gap then
        gapLoop times (next :: seqs) (acc.1 + gap, max acc.2 (times next - times last))
      else gapLoop times (next :: seqs) acc
  | _, acc => acc

/-- The sequence numbers in the order of the log. -/
def seqs (replies : List Reply) : List ℕ := replies.map Reply.seq

/-! ### The throughput -/

/-- `tp`: starts and Mbit/s. -/
def throughputs (file : IperfFile) : Option (List (ℚ × ℚ)) :=
  (file.bind fun iv => iv.mapM id).map fun iv =>
    iv.map fun s => (s.start, s.bitsPerSecond / 1000000)

/-- The throughputs until two seconds before the link goes down. -/
def pre (args : Args) (tp : List (ℚ × ℚ)) : List ℚ :=
  (tp.filter fun p => p.1 < (args.downAt : ℚ) - 2).map Prod.snd

/-- The seconds from then on, with their throughputs. -/
def post (args : Args) (tp : List (ℚ × ℚ)) : List (ℚ × ℚ) :=
  tp.filter fun p => (args.downAt : ℚ) ≤ p.1

/-- The mean throughput before the link goes down. -/
def mean (pre : List ℚ) : ℚ := pre.sum / pre.length

/-- What the analysis says about the curve. -/
structure Curve where
  dip : ℚ
  recover : ℚ
  dipped : Bool
deriving DecidableEq, Repr

/-- What is reported when nothing was measured. -/
def Curve.initial : Curve := { dip := 0, recover := -1, dipped := false }

/-- First a dip has to be seen, then the threshold reached. -/
def recoverLoop (args : Args) (base : ℚ) : List (ℚ × ℚ) → Curve → Curve
  | [], c => c
  | (t, v) :: post, c =>
      if v < base * (1 / 2) then recoverLoop args base post { c with dipped := true }
      else if c.dipped = true ∧ base * args.recPct / 100 ≤ v then
        { c with recover := t - args.downAt + 1 }
      else recoverLoop args base post c

/-- Depth and length of the dip, out of a file of iperf3. -/
def curve (args : Args) (file : IperfFile) : Curve :=
  match throughputs file with
  | none => .initial
  | some tp =>
      if pre args tp = [] then .initial
      else
        let base := mean (pre args tp)
        match post args tp with
        | [] => .initial
        | p :: post =>
            if 0 < base then
              recoverLoop args base (p :: post) { Curve.initial with
                dip := (1 - (post.map Prod.snd).foldl min p.2 / base) * 100 }
            else .initial

/-! ### The verdict -/

/-- The verdict in the last column. -/
inductive Status where
  | ok
  | noLoss
  | nearSeamless
  | noRecover
deriving DecidableEq, Repr

/-- The verdict from the lost packets and the curve. -/
def status (lost : ℤ) (c : Curve) : Status :=
  if 0 ≤ c.recover then .ok
  else if c.dipped = false then (if lost = 0 then .noLoss else .nearSeamless)
  else .noRecover

/-- The row for the table; it is rounded when it is printed. -/
structure Row where
  lost : ℤ
  maxgap : ℚ
  dip : ℚ
  recover : ℚ
  status : Status
deriving DecidableEq, Repr

/-- A row of the table. -/
def benchFailover (args : Args) (replies : List Reply) (file : IperfFile) : Row :=
  let gaps := gapLoop (tmap replies) (seqs replies) (0, 0)
  let c := curve args file
  { lost := gaps.1
    maxgap := gaps.2
    dip := c.dip
    recover := c.recover
    status := status gaps.1 c }

end ConfigEnv.Mptcp.Failover
