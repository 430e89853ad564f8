import Mathlib.Algebra.GroupWithZero.Nat
import RIBDriver.Library.Transition

/-!
# Potentials of transition systems

A potential bounds the steps a system can still take: every step uses some of
it up, apart from what the action itself brings along.  A run is then no longer
than the potential it starts with and the credits of its actions.
-/

namespace RIBDriver
namespace Transition

section Potential

variable {state action : Type _}

/-- Execute a list of actions; `none` if one is not enabled. -/
def run (step : state -> action -> Option state) :
    state -> List action -> Option state
  | s, [] => some s
  | s, a :: rest => (step s a).bind fun t => run step t rest

def Exhausted (step : state -> action -> Option state)
    (kind : action -> Prop) (s : state) : Prop :=
  forall a, kind a -> step s a = none

variable {step : state -> action -> Option state}
variable {s t u : state} {a : action} {actions : List action}

theorem run_cons :
    run step s (a :: actions) = some u <->
      exists t, step s a = some t ∧ run step t actions = some u := by
  rw [run, Option.bind_eq_some_iff]

variable {allowed : state -> action -> Prop}

variable {potential : state -> Nat} {credit : action -> Nat}

/-- What a run has used up and what is left of the potential come from the
start and from the credits. -/
theorem length_add_potential_le
    (hstep : forall s a t, step s a = some t ->
      potential t + 1 ≤ potential s + credit a)
    (hrun : run step s actions = some u) :
    actions.length + potential u ≤
      potential s + (actions.map credit).sum := by
  induction actions generalizing s with
  | nil =>
      cases hrun
      simp
  | cons a rest ih =>
      rcases run_cons.mp hrun with ⟨t, ht, hrest⟩
      have hhead := hstep s a t ht
      have htail := ih hrest
      simp only [List.length_cons, List.map_cons, List.sum_cons]
      lia

theorem length_le_of_free
    (hstep : forall s a t, step s a = some t ->
      potential t + 1 ≤ potential s + credit a)
    (hfree : forall a, a ∈ actions -> credit a = 0)
    (hrun : run step s actions = some u) : actions.length ≤ potential s := by
  have hnone : forall rest : List action,
      (forall a, a ∈ rest -> credit a = 0) -> (rest.map credit).sum = 0 := by
    intro rest hrest
    induction rest with
    | nil => rfl
    | cons a rest ih =>
        rw [List.map_cons, List.sum_cons, hrest a (by simp),
          ih fun b hb => hrest b (List.mem_cons_of_mem a hb)]
  have hbound := length_add_potential_le hstep hrun
  rw [hnone actions hfree] at hbound
  lia

/-- Steps that bring no credit along come to an end. -/
theorem exists_stopped
    (hstep : forall s a t, allowed s a -> step s a = some t ->
      potential t < potential s) (s : state) :
    exists t, Reachable step allowed s t ∧
      forall a, allowed t a -> step t a = none := by
  induction hn : potential s using Nat.strongRecOn generalizing s with
  | ind n ih =>
      by_cases hdone : forall a, allowed s a -> step s a = none
      · exact ⟨s, Reachable.start, hdone⟩
      · rcases Classical.not_forall.mp hdone with ⟨a, ha⟩
        rcases Classical.not_imp.mp ha with ⟨hallowed, hsome⟩
        rcases Option.ne_none_iff_exists'.mp hsome with ⟨v, hv⟩
        have hless := hstep s a v hallowed hv
        rcases ih (potential v) (by lia) v rfl with ⟨t, hreach, hend⟩
        have hfirst : Reachable step allowed s v :=
          Reachable.step Reachable.start hallowed hv
        exact ⟨t, reachable_trans hfirst hreach, hend⟩

end Potential

end Transition
end RIBDriver
