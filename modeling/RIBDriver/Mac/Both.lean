import RIBDriver.Mac.Scheduler
import RIBDriver.Mac.Simulation

/-!
# The routing driver with both access paths

Every run of the routing driver is, renamed, one of the MAC driver.  So what
holds of the MAC driver's scheduler beside polls, reads and writes holds of the
routing driver's as well.
-/

namespace RIBDriver
namespace Driver

variable {client reader file : Type _}

def Undisturbed (s : State client reader file) :
    Action client reader file -> Prop
  | .ioctl a => Ioctl.Undisturbed s.mixed.ioctl a
  | _ => True

def Action.isCall : Action client reader file -> Bool
  | .ioctl (.call _ _) => true
  | _ => false

def Action.isProgress : Action client reader file -> Bool
  | .ioctl (.client _) => true
  | .ioctl (.worker _) => true
  | _ => false

def Continuing (s : State client reader file)
    (a : Action client reader file) : Prop :=
  a.isProgress = true ∧ Undisturbed s a

def AtRest (fileOf : client -> file) (s : State client reader file) : Prop :=
  Ioctl.SchedulerRests fileOf s.mixed.ioctl

instance [DecidableEq file] [Fintype client] (s : State client reader file)
    (a : Action client reader file) : Decidable (Undisturbed s a) :=
  match a with
  | .ioctl a => inferInstanceAs (Decidable (Ioctl.Undisturbed s.mixed.ioctl a))
  | .openFile _ | .poll _ | .pollInterrupted | .inaccessible | .infoCall _
  | .infoRead _ => inferInstanceAs (Decidable True)

section Renamed

variable {R : Renaming} {fileOf : client -> file}
variable {s u : State client reader file} {a : Action client reader file}

theorem isStale_clientPc (p : Ioctl.ClientPc) :
    (R.clientPc p).counterpart.isStale = p.isStale := by
  cases p <;> rfl

theorem undisturbed_action_iff :
    Mac.Undisturbed (R.state s) (R.action a) <-> Undisturbed s a := by
  cases a with
  | ioctl a =>
      cases a with
      | call t req =>
          exact iff_of_true trivial ⟨rfl, fun hworker => by cases hworker⟩
      | client t =>
          exact iff_of_true trivial ⟨rfl, fun hworker => by cases hworker⟩
      | interrupt t => exact iff_of_false not_false fun h => by cases h.left
      | worker allocOk =>
          show (s.mixed.ioctl.worker = .countReaders -> forall t,
            (R.clientPc (s.mixed.ioctl.pc t)).counterpart.isStale = false) <-> _
          simp only [isStale_clientPc]
          constructor
          · intro h
            exact ⟨rfl, fun _ => h⟩
          · intro h
            exact h.right rfl
  | poll a => cases a <;> exact Iff.rfl
  | _ => exact Iff.rfl

theorem atRest_of_renamed (h : Mac.AtRest fileOf (R.state s)) :
    AtRest fileOf s := by
  refine Ioctl.ControlRests.mono h ?_ ?_
  · intro t huser
    change R.clientPc (s.mixed.ioctl.pc t) = .user at huser
    cases hpc : s.mixed.ioctl.pc t with
    | user => rfl
    | _ =>
        rw [hpc] at huser
        cases huser
  · intro t hwait
    change R.clientPc (s.mixed.ioctl.pc t) = .wait .subscribe at hwait
    cases hpc : s.mixed.ioctl.pc t with
    | wait req =>
        rw [hpc] at hwait
        cases req with
        | subscribe => rfl
        | write op => cases hwait
    | _ =>
        rw [hpc] at hwait
        cases hwait

theorem isProgress_action (a : Action client reader file) :
    (R.action a).isProgress = a.isProgress := by
  cases a with
  | ioctl a => cases a <;> rfl
  | poll a => cases a <;> rfl
  | _ => rfl

theorem isCall_actions {actions : List (Action client reader file)}
    (h : forall a, a ∈ actions -> a.isCall = false) :
    forall b, b ∈ actions.map R.action -> b.isCall = false := by
  intro b hb
  rcases List.mem_map.mp hb with ⟨a, ha, hab⟩
  have hcall := h a ha
  rw [← hab]
  cases a with
  | ioctl a => cases a <;> first | rfl | cases hcall
  | poll a => cases a <;> rfl
  | _ => rfl

theorem exists_action_of_progress {b : Mac.Action client reader file}
    (h : b.isProgress = true) :
    exists a : Action client reader file, R.action a = b ∧
      a.isProgress = true := by
  cases b with
  | client t => exact ⟨.ioctl (.client t), rfl, rfl⟩
  | worker allocOk => exact ⟨.ioctl (.worker allocOk), rfl, rfl⟩
  | _ => cases h

variable [DecidableEq client] [DecidableEq file]

theorem halted_of_stuck (h : Ioctl.Stuck fileOf s.mixed.ioctl) :
    Mac.Halted fileOf (R.state s) := by
  constructor
  · intro t
    have hnone : Ioctl.clientStep fileOf s.mixed.ioctl t = none :=
      h (.client t) trivial
    rw [Renaming.clientStep_state, hnone]
    rfl
  · intro allocOk
    have hnone : Ioctl.workerStep s.mixed.ioctl allocOk = none :=
      h (.worker allocOk) trivial
    rw [Renaming.workerStep_state, hnone]
    rfl

variable [DecidableEq reader] [Fintype reader]

theorem next_state :
    Mac.next fileOf (R.state s) (R.action a) =
      (next fileOf s a).map R.state := by
  unfold Mac.next
  rw [Renaming.step_state, Option.map_map]
  rfl

theorem next_renamed (hnext : next fileOf s a = some u) :
    Mac.next fileOf (R.state s) (R.action a) = some (R.state u) := by
  rw [next_state, hnext]
  rfl

theorem reachable_renamed
    (h : Transition.Reachable (next fileOf) Undisturbed State.init s) :
    Transition.Reachable (Mac.next fileOf) Mac.Undisturbed Mac.State.init
      (R.state s) := by
  induction h with
  | start => exact Transition.Reachable.start
  | step _ hallowed hnext ih =>
      exact Transition.Reachable.step ih (undisturbed_action_iff.mpr hallowed)
        (next_renamed hnext)

theorem run_renamed {actions : List (Action client reader file)}
    (h : Transition.run (next fileOf) s actions = some u) :
    Transition.run (Mac.next fileOf) (R.state s) (actions.map R.action) =
      some (R.state u) := by
  induction actions generalizing s with
  | nil =>
      cases h
      rfl
  | cons a rest ih =>
      rcases Transition.run_cons.mp h with ⟨v, hv, hrest⟩
      exact Transition.run_cons.mpr ⟨R.state v, next_renamed hv, ih hrest⟩

theorem exists_reachable_of_renamed {m : Mac.State client reader file}
    (h : Transition.Reachable (Mac.next fileOf) Mac.Continuing (R.state s) m) :
    exists u, R.state u = m ∧
      Transition.Reachable (next fileOf) Continuing s u := by
  induction h with
  | start => exact ⟨s, rfl, Transition.Reachable.start⟩
  | @step m m' b _ hallowed hnext ih =>
      rcases ih with ⟨u, hu, hreach⟩
      rcases exists_action_of_progress (R := R) hallowed.left with
        ⟨a, ha, hprogress⟩
      rw [← hu, ← ha] at hallowed hnext
      rw [next_state] at hnext
      rcases Option.map_eq_some_iff.mp hnext with ⟨v, hv, hm⟩
      exact ⟨v, hm, Transition.Reachable.step hreach
        ⟨hprogress, undisturbed_action_iff.mp hallowed.right⟩ hv⟩

variable [Fintype client] [Fintype file]

/-- In every run of the routing driver whose ioctl side is undisturbed, with
both access paths in use and an open file of its own for each of no more
clients than a queue has slots: the scheduler can stop only at rest, it takes a
bounded number of steps without a further call, whatever goes on beside it, and
it can always come to rest. -/
theorem scheduler_rests (hfile : Function.Injective fileOf)
    (hfew : Fintype.card client ≤ qDefaultSize)
    (h : Transition.Reachable (next fileOf) Undisturbed State.init s) :
    (Ioctl.Stuck fileOf s.mixed.ioctl -> AtRest fileOf s) ∧
      (forall actions u, (forall a, a ∈ actions -> a.isCall = false) ->
        Transition.run (next fileOf) s actions = some u ->
          actions.countP Action.isProgress ≤
            24 * Fintype.card client + 1016) ∧
      exists u, Transition.Reachable (next fileOf) Continuing s u ∧
        AtRest fileOf u := by
  have hmac := reachable_renamed (R := Renaming.cmdcodes) h
  refine ⟨?_, ?_, ?_⟩
  · intro hstuck
    exact atRest_of_renamed
      (Mac.atRest_of_halted hfile hfew hmac (halted_of_stuck hstuck))
  · intro actions u hcalls hrun
    have hbound := Mac.countP_progress_le
      (isCall_actions (R := Renaming.cmdcodes) hcalls) (run_renamed hrun)
    rw [List.countP_map] at hbound
    have hsame : Mac.Action.isProgress ∘ Renaming.cmdcodes.action =
        (Action.isProgress : Action client reader file -> Bool) :=
      funext isProgress_action
    rw [hsame] at hbound
    exact hbound
  · rcases Mac.exists_continuation hfile hfew hmac with ⟨m, hreach, hrest⟩
    rcases exists_reachable_of_renamed hreach with ⟨u, hu, hreach⟩
    rw [← hu] at hrest
    exact ⟨u, hreach, atRest_of_renamed hrest⟩

end Renamed

theorem scheduler_rests_while_read :
    exists s : State (Fin 2) (Fin 1) (Fin 2),
      s.mixed.ioctl.pc 0 = .enq .subscribe ∧ s.mixed.poll.pc 0 = .copy 1 ∧
        exists u, Transition.Reachable (next id) Continuing s u ∧
          AtRest id u := by
  have hrun : exists s : State (Fin 2) (Fin 1) (Fin 2),
      Transition.Reachable (next id) Undisturbed State.init s ∧
        decide (s.mixed.ioctl.pc 0 = .enq .subscribe ∧
          s.mixed.poll.pc 0 = .copy 1) = true :=
    Transition.exists_reachable_of_schedule
      ([.openFile 0, .openFile 1, .ioctl (.call 0 .subscribe),
        .ioctl (.client 0), .ioctl (.client 0),
        .poll (.write {
          opCode := rtRouteAdd
          entry :=
            { dstIp := Vector.replicate 16 1
              nxtHopIp := Vector.replicate 16 2
              oif := Vector.replicate 16 3 } }),
        .poll (.poll 1 false false), .poll (.readEntry 0 1 true false)] :
          List (Action (Fin 2) (Fin 1) (Fin 2))) _ (by decide +kernel)
  rcases hrun with ⟨s, hreach, htest⟩
  rcases of_decide_eq_true htest with ⟨henq, hread⟩
  have hrest := scheduler_rests Function.injective_id (by decide) hreach
  exact ⟨s, henq, hread, hrest.right.right⟩

end Driver
end RIBDriver
