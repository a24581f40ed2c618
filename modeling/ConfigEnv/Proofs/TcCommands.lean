/-
Module: ConfigEnv.Proofs.TcCommands
Layer: Proofs
Purpose: The commands of tc and ip one at a time: what a command does to its own device, and that it
  leaves all others alone.
Trusted boundary: none
Main exports: attempt, exec_onDevice, exec_update, Command.dev, exec_other
Open obligations: none
-/
import ConfigEnv.Mptcp.Tc

namespace ConfigEnv.Mptcp

open ConfigEnv.Shell (Text)

/-- The IFB device of an interface is another device. -/
theorem ifbName_ne (iface : Text) : ifbName iface ≠ iface := by
  intro heq
  have hlength := congrArg List.length heq
  rw [ifbName, List.length_append] at hlength
  have hfour : "ifb_".toList.length = 4 := by decide
  omega

/-! ### Commands on one device -/

/-- The outcome of a command on a device. -/
def attempt (ok : Bool) (r : Option Device) (d : Device) : Bool × Device :=
  match ok, r with
  | true, some d' => (true, d')
  | _, _ => (false, d)

/-- What a command does to the device that it is about. -/
theorem exec_onDevice {env : Env} {k : Kernel} {c : Command} {dev : Text} {d : Device}
    {f : Device → Option Device} (hd : k dev = some d) (hc : meaning k c = onDevice k dev f) :
    exec env k c = ((attempt (env.ok c) (f d) d).1,
      Function.update k dev (some (attempt (env.ok c) (f d) d).2)) := by
  have hsame : Function.update k dev (some d) = k := by rw [← hd, Function.update_eq_self]
  rw [exec, hc, onDevice, hd, Option.bind_some]
  cases env.ok c with
  | false => simp [attempt, hsame]
  | true => cases f d <;> simp [attempt, hsame]

theorem exec_update {env : Env} {k : Kernel} {c : Command} {dev : Text} {d : Device}
    {f : Device → Option Device}
    (hc : meaning (Function.update k dev (some d)) c =
      onDevice (Function.update k dev (some d)) dev f) :
    exec env (Function.update k dev (some d)) c = ((attempt (env.ok c) (f d) d).1,
      Function.update k dev (some (attempt (env.ok c) (f d) d).2)) := by
  rw [exec_onDevice (Function.update_self dev (some d) k) hc, Function.update_idem]

/-- A command on a device that is not there. -/
theorem exec_missing {env : Env} {k : Kernel} {c : Command} {dev : Text}
    {f : Device → Option Device} (hd : k dev = none) (hc : meaning k c = onDevice k dev f) :
    exec env k c = (false, k) := by
  rw [exec, hc, onDevice, hd, Option.bind_none]
  exact ite_self _

/-! ### Other devices -/

/-- The device of a command. -/
def Command.dev : Command → Text
  | .qdiscAddRoot dev _ _ => dev
  | .qdiscAddLeaf dev _ _ _ => dev
  | .qdiscAddIngress dev => dev
  | .filterAdd dev _ => dev
  | .qdiscDelRoot dev => dev
  | .qdiscDelIngress dev => dev
  | .filterDel dev => dev
  | .linkShow dev => dev
  | .linkAdd dev => dev
  | .linkUp dev => dev
  | .linkDown dev => dev
  | .linkDel dev => dev

/-- A change of one device leaves the others. -/
theorem onDevice_other {k k' : Kernel} {dev dev' : Text} {f : Device → Option Device}
    (h : onDevice k dev f = some k') (hne : dev' ≠ dev) : k' dev' = k dev' := by
  rw [onDevice] at h
  split at h
  · cases h
    exact Function.update_of_ne hne _ k
  · cases h

/-- A command changes no device but its own. -/
theorem meaning_other {k k' : Kernel} {c : Command} {dev : Text} (h : meaning k c = some k')
    (hne : dev ≠ c.dev) : k' dev = k dev := by
  cases c with
  | linkShow name =>
      rw [meaning] at h
      split at h <;> cases h
      rfl
  | linkAdd name =>
      rw [meaning] at h
      split at h <;> cases h
      exact Function.update_of_ne hne _ k
  | linkDel name =>
      rw [meaning] at h
      split at h <;> cases h
      exact Function.update_of_ne hne _ k
  | _ => exact onDevice_other h hne

/-- A command changes its own device only. -/
theorem exec_other {env : Env} {k : Kernel} {c : Command} {dev : Text} (hne : dev ≠ c.dev) :
    (exec env k c).2 dev = k dev := by
  rw [exec]
  split
  · split
    · next h => exact meaning_other h hne
    · rfl
  · rfl

end ConfigEnv.Mptcp
