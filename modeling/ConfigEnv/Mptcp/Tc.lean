/-
Module: ConfigEnv.Mptcp.Tc
Layer: Mptcp
Purpose: tc.sh, which shapes the traffic of the interfaces that INTERFACES lists. The kernel is the
  queueing disciplines and filters of its devices, the shell the variables that the script changes
  while it reads INTERFACES: IFS, its copy and `set -f`. A command fails when its object is missing
  or its slot is taken, and when the environment lets it fail. The messages and the status command
  are left out.
Trusted boundary: the usual meaning of the commands of tc and ip
Main exports: Qdisc, Device, Kernel, Command, meaning, Env, Shell, Sys, exec, buildNetemArgs,
  applyUpRule, applyDownRule, forEntries, initIfb, cleanAll, startSimulation, stopSimulation
Open obligations: none
-/
import ConfigEnv.Lib.Shell
import Mathlib.Logic.Function.Basic

namespace ConfigEnv.Mptcp

open Shell (Text splitFields expand cutBefore cutThrough mapLines substitution)

/-! ### The kernel -/

/-- A filter at a qdisc; only the redirection to a device is looked into. -/
inductive Filter where
  | redirect (dev : Text)
  | other (spec : List Text)
deriving DecidableEq, Repr

/-- A discipline that hangs on a class of the root. -/
structure Leaf where
  parent : Nat × Nat
  handle : Nat
  spec : List Text
deriving DecidableEq, Repr

/-- The root discipline with what hangs on it. -/
structure Qdisc where
  handle : Nat
  spec : List Text
  leaves : List Leaf
  filters : List Filter
deriving DecidableEq, Repr

/-- A device; its disciplines are the root and the ingress one with its filters. -/
structure Device where
  up : Bool
  root : Option Qdisc
  ingress : Option (List Filter)
deriving DecidableEq, Repr

/-- The devices by name. -/
abbrev Kernel := Text → Option Device

/-- The commands of the script; `modprobe` and `id` are apart. -/
inductive Command where
  | qdiscAddRoot (dev : Text) (handle : Nat) (spec : List Text)
  | qdiscAddLeaf (dev : Text) (parent : Nat × Nat) (handle : Nat) (spec : List Text)
  | qdiscAddIngress (dev : Text)
  | filterAdd (dev target : Text)
  | qdiscDelRoot (dev : Text)
  | qdiscDelIngress (dev : Text)
  | filterDel (dev : Text)
  | linkShow (dev : Text)
  | linkAdd (dev : Text)
  | linkUp (dev : Text)
  | linkDown (dev : Text)
  | linkDel (dev : Text)
deriving DecidableEq, Repr

/-- `tc qdisc add dev .. root`, which refuses a second root. -/
def Device.addRoot (d : Device) (handle : Nat) (spec : List Text) : Option Device :=
  match d.root with
  | none =>
      some { d with
        root := some { handle := handle, spec := spec, leaves := [], filters := [] } }
  | some _ => none

/-- `tc qdisc add dev .. parent`, at a place that is free. -/
def Device.addLeaf (d : Device) (parent : Nat × Nat) (handle : Nat) (spec : List Text) :
    Option Device :=
  match d.root with
  | some q =>
      if q.handle = parent.1 ∧ q.handle ≠ handle ∧
          q.leaves.all (fun l => l.parent ≠ parent && l.handle ≠ handle) = true then
        some { d with
          root := some { q with
            leaves := q.leaves ++ [{ parent := parent, handle := handle, spec := spec }] } }
      else none
  | none => none

/-- Change a device, if it is there. -/
def onDevice (k : Kernel) (dev : Text) (f : Device → Option Device) : Option Kernel :=
  match (k dev).bind f with
  | some d => some (Function.update k dev (some d))
  | none => none

/-- What a command does, or none when it fails. -/
def meaning (k : Kernel) : Command → Option Kernel
  | .qdiscAddRoot dev handle spec => onDevice k dev fun d => d.addRoot handle spec
  | .qdiscAddLeaf dev parent handle spec => onDevice k dev fun d => d.addLeaf parent handle spec
  | .qdiscAddIngress dev => onDevice k dev fun d =>
      if d.ingress.isNone = true then some { d with ingress := some [] } else none
  | .filterAdd dev target => onDevice k dev fun d =>
      match d.ingress with
      | some filters =>
          if (k target).isSome = true then
            some { d with ingress := some (filters ++ [.redirect target]) }
          else none
      | none => none
  | .qdiscDelRoot dev => onDevice k dev fun d =>
      if d.root.isSome = true then some { d with root := none } else none
  | .qdiscDelIngress dev => onDevice k dev fun d =>
      if d.ingress.isSome = true then some { d with ingress := none } else none
  | .filterDel dev => onDevice k dev fun d =>
      if d.ingress.isSome = true then some { d with ingress := some [] } else none
  | .linkShow dev => if (k dev).isSome = true then some k else none
  | .linkAdd dev =>
      if (k dev).isNone = true then
        some (Function.update k dev (some { up := false, root := none, ingress := none }))
      else none
  | .linkUp dev => onDevice k dev fun d => some { d with up := true }
  | .linkDown dev => onDevice k dev fun d => some { d with up := false }
  | .linkDel dev => if (k dev).isSome = true then some (Function.update k dev none) else none

/-- Which commands may succeed; the names that a pattern of `set +f` stands for; the outcomes of
`modprobe ifb` and `id -u`. -/
structure Env where
  ok : Command → Bool
  glob : Text → List Text
  modprobe : Bool
  uid : Nat

/-- Run a command: its status and the kernel. -/
def exec (env : Env) (k : Kernel) (c : Command) : Bool × Kernel :=
  if env.ok c = true then
    match meaning k c with
    | some k' => (true, k')
    | none => (false, k)
  else (false, k)

/-! ### The shell -/

/-- The variables IFS, OLD_IFS, ENABLE_INGRESS and failed, and whether `set -f` is in force. -/
structure Shell where
  ifs : Text
  oldIfs : Text
  noglob : Bool
  enableIngress : Text
  failed : Nat
deriving DecidableEq, Repr

/-- The variables of the shell and the kernel. -/
structure Sys where
  sh : Shell
  kernel : Kernel

/-- A command of the script. -/
def Sys.exec (env : Env) (s : Sys) (c : Command) : Sys :=
  { s with kernel := (Mptcp.exec env s.kernel c).2 }

/-- `$text`, unquoted. -/
def Shell.words (env : Env) (sh : Shell) (text : Text) : List Text :=
  expand env.glob sh.ifs sh.noglob text

/-- `isspace` of the C locale. -/
def isSpace (c : Char) : Bool :=
  c = ' ' || c = '\t' || c = '\n' || c = '\x0b' || c = '\x0c' || c = '\r'

/-- `sed 's/^[[:space:]]*//;s/[[:space:]]*$//'` on a line. -/
def trimLine (line : Text) : Text := (line.dropWhile isSpace).rdropWhile isSpace

/-- The first command of the loops over INTERFACES. -/
def trimEntry (entry : Text) : Text := substitution (mapLines trimLine entry)

/-! ### Rules -/

/-- The two directions of a device. -/
inductive Direction where
  | up
  | down
deriving DecidableEq, Repr

/-- `get_params`. -/
def getParams (entry : Text) (direction : Direction) : Text :=
  let rest := cutThrough ':' entry
  let upParams := cutBefore '|' rest
  let downParams := cutThrough '|' rest
  match direction with
  | .up => upParams
  | .down => if downParams = rest then "off off off off".toList else downParams

/-- The four parameters of a direction. -/
structure Params where
  delay : Text
  jitter : Text
  loss : Text
  rate : Text
deriving DecidableEq, Repr

/-- A parameter that is `off` counts as empty. -/
def unlessOff (value : Text) : Text := if value = "off".toList then [] else value

/-- The four fields of a rule, and the shell behind them. -/
def splitParams (env : Env) (sh : Shell) (params : Text) : Shell × Option Params :=
  let sh := { sh with oldIfs := sh.ifs, ifs := [' '] }
  let words := sh.words env params
  let sh := { sh with ifs := sh.oldIfs }
  match words with
  | [delay, jitter, loss, rate] =>
      (sh, some {
        delay := unlessOff delay
        jitter := unlessOff jitter
        loss := unlessOff loss
        rate := unlessOff rate })
  | _ => (sh, none)

/-- A netem qdisc is wanted. -/
def Params.needNetem (p : Params) : Bool := p.delay ≠ [] || p.jitter ≠ [] || p.loss ≠ []

/-- A token bucket is wanted. -/
def Params.needTbf (p : Params) : Bool := p.rate ≠ []

/-- A jitter without a delay is taken as the delay. -/
def Params.withDelay (p : Params) : Params :=
  if p.jitter ≠ [] ∧ p.delay = [] then { p with delay := p.jitter, jitter := [] } else p

/-- `build_netem_args`. -/
def buildNetemArgs (p : Params) : Text :=
  let args : Text := if p.delay ≠ [] then "delay ".toList ++ p.delay else []
  let args := if p.jitter ≠ [] ∧ p.jitter ≠ "0ms".toList then args ++ ' ' :: p.jitter else args
  let args := if p.loss ≠ [] ∧ p.loss ≠ "0%".toList then args ++ " loss ".toList ++ p.loss else args
  mapLines (fun line => line.dropWhile (· = ' ')) args

/-- The words of a netem qdisc. -/
def netemSpec (env : Env) (sh : Shell) (p : Params) : List Text :=
  "netem".toList :: sh.words env (substitution (buildNetemArgs p.withDelay))

/-- The words of a token bucket. -/
def tbfSpec (p : Params) : List Text :=
  ["tbf", "rate"].map String.toList ++ [p.rate] ++
    ["burst", "32kbit", "latency", "400ms"].map String.toList

/-- `"ifb_${iface}"`. -/
def ifbName (iface : Text) : Text := "ifb_".toList ++ iface

/-- The commands of `apply_up_rule`; the first component is whether it returns 0. -/
def upCommands (env : Env) (netem : List Text) (p : Params) (iface : Text) (k : Kernel) :
    Bool × Kernel :=
  if p.needTbf = true then
    match exec env k (.qdiscAddRoot iface 0x1 (tbfSpec p)) with
    | (false, k) => (false, k)
    | (true, k) =>
        if p.needNetem = true then
          match exec env k (.qdiscAddLeaf iface (0x1, 0x1) 0x10 netem) with
          | (false, k) => (false, (exec env k (.qdiscDelRoot iface)).2)
          | (true, k) => (true, k)
        else (true, k)
  else exec env k (.qdiscAddRoot iface 0x1 netem)

/-- `apply_up_rule`. -/
def applyUpRule (env : Env) (s : Sys) (iface params : Text) : Bool × Sys :=
  match splitParams env s.sh params with
  | (sh, none) => (false, { s with sh := sh })
  | (sh, some p) =>
      if p.needNetem = false ∧ p.needTbf = false then (true, { s with sh := sh })
      else
        let r := upCommands env (netemSpec env sh p) p iface s.kernel
        (r.1, { sh := sh, kernel := r.2 })

/-- The commands of `apply_down_rule` for the ifb device. -/
def ifbCommands (env : Env) (netem : List Text) (p : Params) (iface ifb : Text) (k : Kernel) :
    Bool × Kernel :=
  if p.needNetem = true then
    match exec env k (.qdiscAddRoot ifb 0x1 netem) with
    | (false, k) => (false, (exec env k (.filterDel iface)).2)
    | (true, k) =>
        if p.needTbf = true then
          match exec env k (.qdiscAddLeaf ifb (0x1, 0x1) 0x10 (tbfSpec p)) with
          | (false, k) =>
              let k := (exec env k (.qdiscDelRoot ifb)).2
              (false, (exec env k (.filterDel iface)).2)
          | (true, k) => (true, k)
        else (true, k)
  else
    match exec env k (.qdiscAddRoot ifb 0x1 (tbfSpec p)) with
    | (false, k) => (false, (exec env k (.filterDel iface)).2)
    | (true, k) => (true, k)

/-- The commands of `apply_down_rule`. -/
def downCommands (env : Env) (netem : List Text) (p : Params) (iface : Text) (k : Kernel) :
    Bool × Kernel :=
  let ifb := ifbName iface
  match exec env k (.linkShow ifb) with
  | (false, k) => (false, k)
  | (true, k) =>
      let k := (exec env k (.qdiscAddIngress iface)).2
      match exec env k (.filterAdd iface ifb) with
      | (false, k) => (false, k)
      | (true, k) => ifbCommands env netem p iface ifb k

/-- `apply_down_rule`. -/
def applyDownRule (env : Env) (s : Sys) (iface params : Text) : Bool × Sys :=
  if s.sh.enableIngress ≠ "true".toList then (true, s)
  else
    match splitParams env s.sh params with
    | (sh, none) => (false, { s with sh := sh })
    | (sh, some p) =>
        if p.needNetem = false ∧ p.needTbf = false then (true, { s with sh := sh })
        else
          let r := downCommands env (netemSpec env sh p) p iface s.kernel
          (r.1, { sh := sh, kernel := r.2 })

/-! ### The loops over INTERFACES -/

/-- The head of a loop: the trimmed entry and its interface, or none for an entry that is skipped.
-/
def readEntry (entry : Text) : Option (Text × Text) :=
  let entry := trimEntry entry
  if entry = [] then none
  else
    let iface := cutBefore ':' entry
    if iface = entry then none else some (entry, iface)

/-- The loop that the functions below share, from the change of IFS to its restoration. -/
def forEntries (env : Env) (interfaces : Text) (body : Sys → Text × Text → Sys) (s : Sys) : Sys :=
  let s := { s with sh := { s.sh with oldIfs := s.sh.ifs, ifs := [';'], noglob := true } }
  let s := ((s.sh.words env interfaces).filterMap readEntry).foldl body s
  { s with sh := { s.sh with ifs := s.sh.oldIfs, noglob := false } }

/-- `init_ifb`. -/
def initIfb (env : Env) (interfaces : Text) : Sys → Sys :=
  forEntries env interfaces fun s e =>
    let ifb := ifbName e.2
    let s :=
      match Mptcp.exec env s.kernel (.linkShow ifb) with
      | (true, _) => s
      | (false, _) => s.exec env (.linkAdd ifb)
    s.exec env (.linkUp ifb)

/-- `clean_all`. -/
def cleanAll (env : Env) (interfaces : Text) : Sys → Sys :=
  forEntries env interfaces fun s e =>
    let iface := e.2
    let ifb := ifbName iface
    [.qdiscDelRoot iface, .qdiscDelIngress iface, .filterDel iface, .qdiscDelRoot ifb,
      .linkDown ifb, .linkDel ifb].foldl (fun s c => s.exec env c) s

/-- `load_modules`. -/
def loadModules (env : Env) (s : Sys) : Sys :=
  if s.sh.enableIngress = "true".toList ∧ env.modprobe = false then
    { s with sh := { s.sh with enableIngress := "false".toList } }
  else s

/-- `|| failed=$((failed + 1))`. -/
def orFailed (r : Bool × Sys) : Sys :=
  if r.1 = true then r.2
  else { r.2 with sh := { r.2.sh with failed := r.2.sh.failed + 1 } }

/-- The loop of `start_simulation`. -/
def applyRules (env : Env) (interfaces : Text) : Sys → Sys :=
  forEntries env interfaces fun s e =>
    match Mptcp.exec env s.kernel (.linkShow e.2) with
    | (false, _) => s
    | (true, _) =>
        let s := { s with sh := { s.sh with ifs := s.sh.oldIfs } }
        let upParams := substitution (getParams e.1 .up)
        let downParams := substitution (getParams e.1 .down)
        let s := orFailed (applyUpRule env s e.2 upParams)
        let s := orFailed (applyDownRule env s e.2 downParams)
        { s with sh := { s.sh with ifs := [';'] } }

/-- Whether `tr -d ' \t\n'` leaves nothing. -/
def isBlankText (text : Text) : Bool := text.all fun c => c = ' ' || c = '\t' || c = '\n'

/-- `start_simulation`, and whether it returns 0. -/
def startSimulation (env : Env) (interfaces : Text) (s : Sys) : Bool × Sys :=
  if isBlankText interfaces = true then (false, s)
  else if env.uid ≠ 0 then (false, s)
  else
    let s := loadModules env (cleanAll env interfaces s)
    let s := if s.sh.enableIngress = "true".toList then initIfb env interfaces s else s
    let s := applyRules env interfaces { s with sh := { s.sh with failed := 0 } }
    (decide (s.sh.failed = 0), s)

/-- `stop_simulation`. -/
def stopSimulation (env : Env) (interfaces : Text) (s : Sys) : Sys :=
  if env.uid ≠ 0 then s else cleanAll env interfaces s

/-- The shell in which a call of the script begins. -/
def Shell.initial (enableIngress : Text) : Shell :=
  { ifs := [' ', '\t', '\n']
    oldIfs := []
    noglob := false
    enableIngress := enableIngress
    failed := 0 }

/-- `tc.sh start`: whether it succeeds, and the kernel. -/
def tcStart (env : Env) (interfaces enableIngress : Text) (k : Kernel) : Bool × Kernel :=
  let r := startSimulation env interfaces { sh := .initial enableIngress, kernel := k }
  (r.1, r.2.kernel)

/-- `tc.sh stop`. -/
def tcStop (env : Env) (interfaces enableIngress : Text) (k : Kernel) : Kernel :=
  (stopSimulation env interfaces { sh := .initial enableIngress, kernel := k }).kernel

end ConfigEnv.Mptcp
