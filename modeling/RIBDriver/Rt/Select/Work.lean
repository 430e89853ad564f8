import RIBDriver.Library.Potential
import RIBDriver.Rt.Select.Rest

/-!
# The work of a poll, a read and a write

A `select` polls again whenever it has been woken, and every `wake_up` wakes the
whole queue.  A thread is woken once for each write at most, so that a run is
bounded by the calls made in it.
-/

namespace RIBDriver
namespace Select

open Counting

variable {thread file : Type _}

/-- The steps of a call until it is over or asleep, and four for each of the `n`
threads a write may wake. -/
def Pc.work (n : Nat) : Pc file -> Nat
  | .idle => 0
  | .pollLock _ => 3
  | .pollLook _ => 2
  | .pollWait _ _ _ => 1
  | .asleep _ => 0
  | .readLock _ => 6
  | .readFirst _ => 5
  | .readCopy _ => 4
  | .lastLock _ => 3
  | .readLast _ => 2
  | .upRead => 1
  | .apply _ => 4 * n + 3
  | .upWrite => 4 * n + 2
  | .wakeUp => 4 * n + 1

inductive Decision where
  | select
  | giveUp
  | read
  | write
deriving DecidableEq

def Action.decision? : Action thread file -> Option Decision
  | .select _ _ _ => some .select
  | .giveUp _ => some .giveUp
  | .read _ _ => some .read
  | .write _ _ => some .write
  | _ => none

def Decision.cost (n : Nat) : Decision -> Nat
  | .select => 4
  | .giveUp => 1
  | .read => 7
  | .write => 4 * n + 4

def Action.credit (n : Nat) (a : Action thread file) : Nat :=
  match a.decision? with
  | some d => d.cost n
  | none => 0

def decisions (d : Decision) (actions : List (Action thread file)) : Nat :=
  actions.countP fun a => a.decision? = some d

section Work

variable {s v : State thread file} {a : Action thread file}

variable [Fintype thread]

def callWork (s : State thread file) : Nat :=
  total (fun _ p => p.work (Fintype.card thread)) s.pc

def wokenIn (s : State thread file) : Nat :=
  total (fun _ woken => Bool.toNat woken) s.woken

def work (s : State thread file) : Nat := callWork s + 4 * wokenIn s

/-!
## Every step does some of the work
-/

theorem wokenIn_le (s : State thread file) :
    wokenIn s ≤ Fintype.card thread := by
  have hwoken : wokenIn s ≤ Fintype.card thread * 1 :=
    total_le_card_mul fun t => Bool.toNat_le (s.woken t)
  rwa [Nat.mul_one] at hwoken

theorem work_le (s : State thread file) :
    work s ≤ Fintype.card thread * (4 * Fintype.card thread + 7) := by
  have hcalls : callWork s ≤
      Fintype.card thread * (4 * Fintype.card thread + 3) := by
    refine total_le_card_mul fun t => ?_
    have hsome : 0 < Fintype.card thread := Fintype.card_pos_iff.mpr ⟨t⟩
    cases s.pc t <;> simp only [Pc.work] <;> lia
  have hwoken := wokenIn_le s
  unfold work
  rw [Nat.mul_add] at hcalls ⊢
  lia

theorem work_init : work (State.init : State thread file) = 0 := by
  have hcalls : callWork (State.init : State thread file) = 0 :=
    total_eq_zero_iff.mpr fun _ => rfl
  have hwoken : wokenIn (State.init : State thread file) = 0 :=
    total_eq_zero_iff.mpr fun _ => rfl
  unfold work
  rw [hcalls, hwoken]

variable [DecidableEq thread]

theorem callWork_goto {t : thread} {next : Pc file}
    (hpc : v.pc = Function.update s.pc t next) :
    callWork v + (s.pc t).work (Fintype.card thread) =
      callWork s + next.work (Fintype.card thread) := by
  unfold callWork
  rw [hpc]
  exact total_update (fun _ p => Pc.work (Fintype.card thread) p) s.pc t next

theorem work_goto {t : thread} {next : Pc file} {credit : Nat}
    (hpc : v.pc = Function.update s.pc t next) (hwoken : v.woken = s.woken)
    (hless : next.work (Fintype.card thread) + 1 ≤
      (s.pc t).work (Fintype.card thread) + credit) :
    work v + 1 ≤ work s + credit := by
  have hcalls := callWork_goto hpc
  have hsame : wokenIn v = wokenIn s := by
    unfold wokenIn
    rw [hwoken]
  unfold work
  lia

theorem work_poll {t : thread} {next : Pc file} {credit : Nat}
    (hpc : v.pc = Function.update s.pc t next)
    (hwoken : v.woken = Function.update s.woken t false)
    (hless : next.work (Fintype.card thread) + 1 ≤
      (s.pc t).work (Fintype.card thread) + 4 * (s.woken t).toNat + credit) :
    work v + 1 ≤ work s + credit := by
  have hcalls := callWork_goto hpc
  have hclear : wokenIn v + (s.woken t).toNat = wokenIn s := by
    unfold wokenIn
    rw [hwoken]
    exact total_update (fun _ woken => Bool.toNat woken) s.woken t false
  unfold work
  lia

variable [DecidableEq file]

/-- A step uses up work unless a program or a timer has decided on it, whatever
is interrupted. -/
theorem work_step (hstep : step s a = some v) :
    work v + 1 ≤ work s + a.credit (Fintype.card thread) := by
  cases move_of_step hstep with
  | select hpc =>
      exact work_poll rfl rfl (by rw [hpc]; exact Nat.le_add_left _ _)
  | resume hpc hwoken =>
      exact work_poll rfl rfl (by rw [hpc, hwoken]; exact Nat.le_refl _)
  | @wakeUp t hpc =>
      -- whoever is woken has been paid for by the write
      have hcalls := callWork_goto (s := s) (v := s.wakeAll.goto t .idle) rfl
      have hwoken := wokenIn_le (s.wakeAll.goto t .idle)
      rw [hpc] at hcalls
      simp only [Pc.work] at hcalls
      unfold work
      lia
  | lookOn hpc => exact work_goto rfl rfl (by rw [hpc]; exact Nat.le_refl _)
  | pollInterrupted hpc | firstInterrupted hpc | lastInterrupted hpc
  | pollDown hpc | firstDown hpc | lastDown hpc | lookReady hpc
  | sleep hpc | again hpc | giveUp hpc | read hpc | first hpc | copy hpc
  | last hpc | upRead hpc | write hpc | apply hpc | upWrite hpc =>
      exact work_goto rfl rfl (by
        rw [hpc]
        simp [Pc.work, Action.credit, Action.decision?, Decision.cost])

end Work

/-!
## Runs
-/

section Runs

variable {s v : State thread file} {a : Action thread file}

theorem sum_credit (n : Nat) (actions : List (Action thread file)) :
    (actions.map (Action.credit n)).sum =
      4 * decisions .select actions + decisions .giveUp actions +
        7 * decisions .read actions +
        (4 * n + 4) * decisions .write actions := by
  induction actions with
  | nil => rfl
  | cons a rest ih =>
      have hcount : forall d, decisions d (a :: rest) =
          decisions d rest + if a.decision? = some d then 1 else 0 := by
        intro d
        unfold decisions
        rw [List.countP_cons]
        simp only [decide_eq_true_eq]
      simp only [List.map_cons, List.sum_cons, ih, hcount, Nat.mul_add]
      cases hd : a.decision? with
      | none => simp [Action.credit, hd]
      | some d => cases d <;> simp [Action.credit, Decision.cost, hd] <;> lia

variable [DecidableEq thread] [DecidableEq file] [Fintype thread]

/-- Every run of any number of threads has at most four steps for each
`select`, seven for each read and, for each write, four and four for every
thread, next to the waits given up, whatever is interrupted. -/
theorem steps_le_of_run {actions : List (Action thread file)}
    (hrun : Transition.run step State.init actions = some s) :
    actions.length ≤
      4 * decisions .select actions + decisions .giveUp actions +
        7 * decisions .read actions +
        (4 * Fintype.card thread + 4) * decisions .write actions := by
  have hbound := Transition.length_add_potential_le
    (fun s a v => work_step (s := s) (v := v) (a := a)) hrun
  rw [work_init, sum_credit] at hbound
  lia

end Runs

/-!
## Calls on their own
-/

section Calls

variable {s : State thread file} {a : Action thread file}

def Continuing (s : State thread file) (a : Action thread file) : Prop :=
  a.isDecision = false ∧ Undisturbed s a

theorem credit_eq_zero (n : Nat) (h : a.isDecision = false) :
    a.credit n = 0 := by
  cases a with
  | select t f nonblock | giveUp t | read t f | write t kmsg => cases h
  | _ => rfl

variable [DecidableEq thread] [DecidableEq file] [Fintype thread]

theorem stalled_of_stopped
    (h : forall a : Action thread file, Continuing s a -> step s a = none) :
    Stalled s := by
  intro a hdecision hquiet
  by_cases hundivided : Undivided s a
  · exact h a ⟨hdecision, hquiet, hundivided⟩
  · cases a with
    | apply t =>
        rcases Classical.not_imp.mp hundivided with ⟨_, hdivided⟩
        rcases Classical.not_forall.mp hdivided with ⟨u, hu⟩
        cases hpc : s.pc u with
        | pollWait call black data =>
            have hnone := h (.pollWait u) ⟨rfl, rfl, trivial⟩
            exact absurd hnone (pollWaitStep_ne_none hpc)
        | _ =>
            rw [hpc] at hu
            exact absurd rfl hu
    | _ => exact absurd trivial hundivided

/-- From every state of an undisturbed run the calls under way come to rest if
no call is added and no `select` times out. -/
theorem exists_rest (h : Transition.Reachable step Undisturbed State.init s) :
    (forall actions v, (forall a, a ∈ actions -> a.isDecision = false) ->
      Transition.run step s actions = some v ->
        actions.length ≤
          Fintype.card thread * (4 * Fintype.card thread + 7)) ∧
      exists v, Transition.Reachable step Continuing s v ∧ AtRest v := by
  constructor
  · intro actions v hcalls hrun
    have hbound := Transition.length_le_of_free
      (fun s a v => work_step (s := s) (v := v) (a := a))
      (fun a ha => credit_eq_zero _ (hcalls a ha)) hrun
    exact hbound.trans (work_le s)
  · have hless : forall (s : State thread file) a v, Continuing s a ->
        step s a = some v -> work v < work s := by
      intro s a v hallowed hstep
      have hwork := work_step hstep
      rw [credit_eq_zero _ hallowed.left] at hwork
      exact hwork
    rcases Transition.exists_stopped hless s with ⟨v, hreach, hend⟩
    have hstill : Transition.Reachable step Undisturbed State.init v :=
      Transition.reachable_trans h
        (Transition.reachable_mono (fun _ _ ha => ha.right) hreach)
    rcases invariants_of_undisturbed hstill with ⟨hlocked, hheard, hcounted⟩
    exact ⟨v, hreach,
      atRest_of_stalled hlocked hheard hcounted (stalled_of_stopped hend)⟩

end Calls

theorem steps_le_one_write :
    exists s : State (Fin 2) (Fin 2),
      Transition.run step State.init
          ([.select 0 0 false, .downCs 0 false, .look 0 false, .pollWait 0] ++
            writeOnce ++
            [.resume 0, .downCs 0 false, .look 0 false, .read 0 0,
              .downCs 0 false, .first 0 true, .copy 0, .downCs 0 false,
              .last 0, .upRead 0]) = some s ∧
        18 ≤ 4 * 1 + 0 + 7 * 1 + (4 * 2 + 4) * 1 := by
  have hsome : (Transition.run step (State.init : State (Fin 2) (Fin 2))
      ([.select 0 0 false, .downCs 0 false, .look 0 false, .pollWait 0] ++
        writeOnce ++
        [.resume 0, .downCs 0 false, .look 0 false, .read 0 0,
          .downCs 0 false, .first 0 true, .copy 0, .downCs 0 false,
          .last 0, .upRead 0])).isSome = true := by
    decide +kernel
  rcases Option.isSome_iff_exists.mp hsome with ⟨s, hrun⟩
  exact ⟨s, hrun, steps_le_of_run hrun⟩

theorem exists_rest_writing :
    exists s : State (Fin 2) (Fin 2), (s.pc 1).writes = true ∧
      exists v, Transition.Reachable step Continuing s v ∧ AtRest v := by
  have hrun : exists s : State (Fin 2) (Fin 2),
      Transition.Reachable step Undisturbed State.init s ∧
        (s.pc 1).writes = true :=
    Transition.exists_reachable_of_schedule
      ([.select 0 0 false, .downCs 0 false, .look 0 false, .pollWait 0] ++
        writeOnce.take 1) _ (by decide +kernel)
  rcases hrun with ⟨s, hreach, hwrites⟩
  exact ⟨s, hwrites, (exists_rest hreach).right⟩

end Select
end RIBDriver
