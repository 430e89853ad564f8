import RIBDriver.Rt.Ioctl.Service
import RIBDriver.Rt.Ioctl.Work

/-!
# The way to rest

A queue has a slot for each of its 50 entries, and a client waits in one queue
at a time.  With no more clients than slots no `enqueue` is refused, and the
calls that have been made come to rest without a further one.
-/

namespace RIBDriver
namespace Ioctl

open Counting

variable {thread file : Type _}

def Continuing (s : State thread file) (a : Action thread) : Prop :=
  a.isProgress ∧ Undisturbed s a

section Room

variable [DecidableEq file] [Fintype thread]
variable {fileOf : thread -> file} {s : State thread file}

theorem exists_engaged_of_mem (hticketed : Ticketed fileOf s) {r : Role}
    {f : file} (hmem : f ∈ (s.g.queue r).items) :
    exists t, fileOf t = f ∧ (s.pc t).isEngaged r = true := by
  have hcovered := hticketed.covered r f
  have hcount := List.count_pos_iff.mpr hmem
  by_contra hnone
  have hzero : engaged fileOf s r f = 0 := by
    rw [engaged_eq_zero_iff]
    intro t ht
    exact Bool.eq_false_of_not_eq_true fun hengaged => hnone ⟨t, ht, hengaged⟩
  unfold held at hcovered
  lia

theorem length_items_lt (hfile : Function.Injective fileOf)
    (hticketed : Ticketed fileOf s) {r role : Role} {t : thread}
    (henq : (s.pc t).isEnqueuing role = true) :
    (s.g.queue r).items.length < Fintype.card thread := by
  have hfresh : fileOf t ∉ (s.g.queue r).items := by
    intro hmem
    rcases exists_engaged_of_mem hticketed hmem with ⟨t', hsame, hengaged⟩
    rw [hfile hsame] at hengaged
    cases hpc : s.pc t with
    | enq req =>
        rw [hpc] at hengaged
        cases hengaged
    | _ =>
        rw [hpc] at henq
        cases henq
  have hnodup : (fileOf t :: (s.g.queue r).items).Nodup :=
    List.nodup_cons.mpr ⟨hfresh, nodup_items hfile hticketed r⟩
  have hsubset : (fileOf t :: (s.g.queue r).items).toFinset ⊆
      Finset.univ.image fileOf := by
    intro f hmem
    rw [List.mem_toFinset, List.mem_cons] at hmem
    rw [Finset.mem_image]
    rcases hmem with hself | hmem
    · exact ⟨t, Finset.mem_univ t, hself.symm⟩
    · rcases exists_engaged_of_mem hticketed hmem with ⟨t', hsame, _⟩
      exact ⟨t', Finset.mem_univ t', hsame⟩
  have hcard := (Finset.card_le_card hsubset).trans Finset.card_image_le
  rw [List.toFinset_card_of_nodup hnodup] at hcard
  exact hcard

variable [DecidableEq thread] [Fintype file]

theorem smooth_of_undisturbed (hfile : Function.Injective fileOf)
    (hfew : Fintype.card thread ≤ qDefaultSize)
    (h : Transition.Reachable (step fileOf) Undisturbed State.init s) :
    Transition.Reachable (step fileOf) Smooth State.init s := by
  induction h with
  | start => exact Transition.Reachable.start
  | @step s u a hs hallowed hstep ih =>
      rcases ticketed_and_batched_of_undisturbed hfile hs with ⟨hticketed, _⟩
      refine Transition.Reachable.step ih ⟨hallowed, ?_⟩ hstep
      intro t role _ henq
      have hless : (s.g.queue role).items.length < Fintype.card thread :=
        length_items_lt hfile hticketed henq
      exact (KernelQueue.isQueueFull_eq_false_iff _).mpr
        (Nat.lt_of_lt_of_le hless hfew)

end Room

section Rest

variable {fileOf : thread -> file} {s u : State thread file}
variable {a : Action thread}

theorem credit_eq_zero (h : a.isProgress) : a.credit = 0 := by
  cases a with
  | client t => rfl
  | worker allocOk => rfl
  | _ => cases h

theorem queueWork_le (s : State thread file) (r : Role) :
    queueWork s r ≤ Role.cost r * qDefaultSize := by
  have hcount := (s.g.queue r).stores.count_eq
  have hsize := (s.g.queue r).stores.count_le
  exact Nat.mul_le_mul_left _ (by lia)

theorem work_le [Fintype thread] (s : State thread file) :
    work s ≤ 24 * Fintype.card thread + 1016 := by
  have hclients : clientWork s ≤ Fintype.card thread * 24 := by
    refine total_le_card_mul fun t => ?_
    cases s.pc t with
    | lockQ req | enq req | unlockQ req | wait req =>
        cases req <;> simp [ClientPc.work]
    | _ => simp [ClientPc.work]
  have hworker : s.worker.work ≤ 16 := by
    cases s.worker with
    | unlockGrant i n f => cases f <;> simp [WorkerPc.work]
    | _ => simp [WorkerPc.work]
  have hwriters : queueWork s .writer ≤ 16 * 50 := queueWork_le s .writer
  have hreaders : queueWork s .reader ≤ 4 * 50 := queueWork_le s .reader
  unfold work
  lia

variable [DecidableEq thread] [DecidableEq file]

theorem stuck_of_stopped
    (h : forall a, Continuing s a -> step fileOf s a = none) :
    Stuck fileOf s := by
  have hclient : forall t, clientStep fileOf s t = none := by
    intro t
    exact h (.client t) ⟨trivial, rfl, fun hworker => by cases hworker⟩
  intro a hprogress
  cases a with
  | client t => exact hclient t
  | worker allocOk =>
      refine h (.worker allocOk) ⟨trivial, rfl, fun _ _ t => ?_⟩
      have hblocks := blocks_of_clientStep (hclient t)
      cases hpc : s.pc t <;> rw [hpc] at hblocks <;>
        first | rfl | cases hblocks
  | _ => cases hprogress

variable [Fintype file]

variable [Fintype thread]

/-- With an open file of its own for each client and no more clients than a
queue has slots, the calls under way in any state of an undisturbed run are
done after a bounded number of steps, whatever their order, and come to rest
without a further call. -/
theorem exists_atRest (hfile : Function.Injective fileOf)
    (hfew : Fintype.card thread ≤ qDefaultSize)
    (h : Transition.Reachable (step fileOf) Undisturbed State.init s) :
    (forall actions u, (forall a, a ∈ actions -> a.isProgress) ->
      Transition.run (step fileOf) s actions = some u ->
        actions.length ≤ 24 * Fintype.card thread + 1016) ∧
      exists u, Transition.Reachable (step fileOf) Continuing s u ∧
        AtRest fileOf u := by
  constructor
  · intro actions u hprogress hrun
    have hbound := Transition.length_le_of_free
      (fun s a u => work_step (s := s) (u := u) (a := a))
      (fun a ha => credit_eq_zero (hprogress a ha)) hrun
    exact hbound.trans (work_le s)
  · have hless : forall (s : State thread file) a u, Continuing s a ->
        step fileOf s a = some u -> work u < work s := by
      intro s a u hallowed hstep
      have hwork := work_step hstep
      rwa [credit_eq_zero hallowed.left] at hwork
    rcases Transition.exists_stopped hless s with ⟨u, hreach, hstopped⟩
    have hundisturbed : Transition.Reachable (step fileOf) Undisturbed State.init u :=
      Transition.reachable_trans h
        (Transition.reachable_mono (fun _ _ ha => ha.right) hreach)
    have hsmooth := smooth_of_undisturbed hfile hfew hundisturbed
    exact ⟨u, hreach,
      atRest_of_kept (kept_of_smooth hfile hsmooth) (stuck_of_stopped hstopped)⟩

end Rest

theorem exists_atRest_two_calls :
    exists s : State (Fin 4) (Fin 4),
      (s.pc 0).isEngaged .writer = true ∧ s.pc 1 ≠ .user ∧
        exists u, Transition.Reachable (step id) Continuing s u ∧
          AtRest id u := by
  have hrun : exists s : State (Fin 4) (Fin 4),
      Transition.Reachable (step id) Undisturbed State.init s ∧
        decide ((s.pc 0).isEngaged .writer = true ∧ s.pc 1 ≠ .user) = true :=
    Transition.exists_reachable_of_schedule
      (callCreate 0 ++ callSubscribe 1 ++ workerRuns 3) _
      (by decide +kernel)
  rcases hrun with ⟨s, hreach, htest⟩
  rcases of_decide_eq_true htest with ⟨hwriter, hcalls⟩
  exact ⟨s, hwriter, hcalls,
    (exists_atRest Function.injective_id (by decide) hreach).right⟩

end Ioctl
end RIBDriver
