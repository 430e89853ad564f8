/-!
# Guarded transition systems

A system is an executable step function `step : state -> action -> Option state`;
`none` means that the action is not enabled.  A run is restricted by a relation
`allowed` on the state before a step and the step's action, so that the
assumptions of a group of results are stated once, on steps.
-/

namespace RIBDriver
namespace Transition

section Runs

variable {state action : Type _}

/-- States reached from `start` by enabled steps that are all allowed. -/
inductive Reachable (step : state -> action -> Option state)
    (allowed : state -> action -> Prop) (start : state) : state -> Prop where
  | start : Reachable step allowed start start
  | step {s t : state} {a : action} :
      Reachable step allowed start s -> allowed s a -> step s a = some t ->
      Reachable step allowed start t

variable {step : state -> action -> Option state}
variable {allowed : state -> action -> Prop} {start : state}

/-- The induction rule of a run: what the start state has and every allowed
step keeps holds in every state reached. -/
theorem reachable_invariant (inv : state -> Prop)
    (hstart : inv start)
    (hstep : forall s a t, inv s -> allowed s a -> step s a = some t -> inv t)
    {s : state} (h : Reachable step allowed start s) : inv s := by
  induction h with
  | start => exact hstart
  | step _ hallowed hs ih => exact hstep _ _ _ ih hallowed hs

theorem reachable_invariant_of {known : state -> Prop} (inv : state -> Prop)
    (hknown : forall s, Reachable step allowed start s -> known s)
    (hstart : inv start)
    (hstep : forall s a t, known s -> inv s -> allowed s a ->
      step s a = some t -> inv t)
    {s : state} (h : Reachable step allowed start s) : inv s := by
  induction h with
  | start => exact hstart
  | step hs hallowed hst ih => exact hstep _ _ _ (hknown _ hs) ih hallowed hst

theorem reachable_mono {s : state} {allowed' : state -> action -> Prop}
    (hweaker : forall s a, allowed s a -> allowed' s a)
    (h : Reachable step allowed start s) : Reachable step allowed' start s := by
  induction h with
  | start => exact Reachable.start
  | step _ hallowed hstep ih =>
      exact Reachable.step ih (hweaker _ _ hallowed) hstep

theorem reachable_trans {s t : state}
    (hs : Reachable step allowed start s)
    (h : Reachable step allowed s t) : Reachable step allowed start t := by
  induction h with
  | start => exact hs
  | step _ hallowed hstep ih => exact Reachable.step ih hallowed hstep

def runAllowed (step : state -> action -> Option state)
    (allowed : state -> action -> Prop) [forall s a, Decidable (allowed s a)] :
    state -> List action -> Option state
  | s, [] => some s
  | s, a :: rest =>
      if allowed s a then
        match step s a with
        | none => none
        | some t => runAllowed step allowed t rest
      else none

theorem reachable_of_runAllowed [forall s a, Decidable (allowed s a)]
    {s t : state} {actions : List action}
    (hs : Reachable step allowed start s)
    (hrun : runAllowed step allowed s actions = some t) :
    Reachable step allowed start t := by
  induction actions generalizing s with
  | nil =>
      have hst : s = t := by simpa [runAllowed] using hrun
      rw [← hst]
      exact hs
  | cons a rest ih =>
      rw [runAllowed] at hrun
      by_cases hallowed : allowed s a
      · rw [if_pos hallowed] at hrun
        cases hstep : step s a with
        | none =>
            rw [hstep] at hrun
            cases hrun
        | some next =>
            rw [hstep] at hrun
            exact ih (Reachable.step hs hallowed hstep) hrun
      · rw [if_neg hallowed] at hrun
        cases hrun

theorem exists_reachable_of_schedule [forall s a, Decidable (allowed s a)]
    (actions : List action) (test : state -> Bool)
    (h : (runAllowed step allowed start actions).any test = true) :
    exists s, Reachable step allowed start s ∧ test s = true := by
  cases hrun : runAllowed step allowed start actions with
  | none =>
      rw [hrun] at h
      cases h
  | some s =>
      rw [hrun] at h
      exact ⟨s, reachable_of_runAllowed Reachable.start hrun, h⟩

end Runs

/-!
## Simulations

A step of the concrete system is a step of the abstract one or none; or a step
of the abstract system is a run of the concrete one.
-/

section Simulations

variable {state action astate aaction : Type _}
variable {step : state -> action -> Option state}
variable {astep : astate -> aaction -> Option astate}
variable {allowed : state -> action -> Prop}
variable {aallowed : astate -> aaction -> Prop}
variable {start : state} {astart : astate}

/-- Every state reached is related to one the abstract system reaches. -/
theorem exists_related_of_reachable (rel : state -> astate -> Prop)
    (hstart : rel start astart)
    (hstep : forall s b a t, rel s b -> allowed s a -> step s a = some t ->
      rel t b ∨ exists c d, aallowed b c ∧ astep b c = some d ∧ rel t d)
    {s : state} (h : Reachable step allowed start s) :
    exists b, Reachable astep aallowed astart b ∧ rel s b := by
  induction h with
  | start => exact ⟨astart, Reachable.start, hstart⟩
  | step _ hallowed hs ih =>
      rcases ih with ⟨b, hreach, hrel⟩
      rcases hstep _ b _ _ hrel hallowed hs with hstill | ⟨c, d, hc, hd, hnext⟩
      · exact ⟨b, hreach, hstill⟩
      · exact ⟨d, Reachable.step hreach hc hd, hnext⟩

/-- Every state the abstract system reaches is related to one that is reached
by runs for its steps. -/
theorem exists_refined_of_reachable (rel : astate -> state -> Prop)
    (hstart : rel astart start)
    (hstep : forall b s c d, rel b s -> aallowed b c -> astep b c = some d ->
      exists t, Reachable step allowed s t ∧ rel d t)
    {b : astate} (h : Reachable astep aallowed astart b) :
    exists s, Reachable step allowed start s ∧ rel b s := by
  induction h with
  | start => exact ⟨start, Reachable.start, hstart⟩
  | step _ hallowed hs ih =>
      rcases ih with ⟨s, hreach, hrel⟩
      rcases hstep _ s _ _ hrel hallowed hs with ⟨t, hrun, hnext⟩
      exact ⟨t, reachable_trans hreach hrun, hnext⟩

end Simulations

/-!
## Conditions on the steps of a run and properties of its states

For a run given by its actions, `StepsMeet` says that every step meets a
condition on the state before it and `StatesMeet` that every state visited has
a property.  When the condition decides, step by step, whether the property is
kept, the two agree on every run.
-/

section Conditions

variable {state action : Type _}

def StepsMeet (step : state -> action -> Option state)
    (cond : state -> action -> Prop) : state -> List action -> Prop
  | _, [] => True
  | s, a :: rest =>
      forall t, step s a = some t -> cond s a ∧ StepsMeet step cond t rest

def StatesMeet (step : state -> action -> Option state)
    (prop : state -> Prop) : state -> List action -> Prop
  | s, [] => prop s
  | s, a :: rest =>
      prop s ∧ forall t, step s a = some t -> StatesMeet step prop t rest

variable {step : state -> action -> Option state}
variable {legal cond : state -> action -> Prop} {prop inv : state -> Prop}

theorem stepsMeet_cons_iff {s : state} {a : action} {rest : List action} :
    StepsMeet step cond s (a :: rest) <->
      forall t, step s a = some t -> cond s a ∧ StepsMeet step cond t rest :=
  Iff.rfl

instance decidableStepsMeet [forall s a, Decidable (cond s a)] :
    (s : state) -> (actions : List action) ->
      Decidable (StepsMeet step cond s actions)
  | _, [] => isTrue trivial
  | s, a :: rest =>
      match hstep : step s a with
      | none =>
          isTrue (by
            intro t ht
            rw [hstep] at ht
            cases ht)
      | some t =>
          have : Decidable (StepsMeet step cond t rest) :=
            decidableStepsMeet t rest
          decidable_of_iff (cond s a ∧ StepsMeet step cond t rest) (by
            rw [stepsMeet_cons_iff]
            constructor
            · intro h t' ht'
              rw [hstep] at ht'
              cases ht'
              exact h
            · intro h
              exact h t hstep)

theorem stepsMeet_true (s : state) (actions : List action) :
    StepsMeet step (fun _ _ => True) s actions := by
  induction actions generalizing s with
  | nil => exact trivial
  | cons a rest ih =>
      intro t _
      exact ⟨trivial, ih t⟩

theorem stepsMeet_of_invariant {cond' : state -> action -> Prop}
    (hinv : forall s a t, inv s -> cond s a -> step s a = some t -> inv t)
    (hcond : forall s a, inv s -> cond s a -> cond' s a) {s : state}
    {actions : List action} (hs : inv s)
    (h : StepsMeet step cond s actions) :
    StepsMeet step cond' s actions := by
  induction actions generalizing s with
  | nil => exact trivial
  | cons a rest ih =>
      intro t hstep
      have hboth := h t hstep
      exact ⟨hcond s a hs hboth.left,
        ih (hinv s a t hs hboth.left hstep) hboth.right⟩

theorem statesMeet_start {s : state} {actions : List action}
    (h : StatesMeet step prop s actions) : prop s := by
  cases actions with
  | nil => exact h
  | cons a rest => exact h.left

/-- If under an invariant a legal step keeps the property exactly when it meets
the condition, then a legal run has the property in all its states exactly when
all its steps meet the condition. -/
theorem statesMeet_iff_stepsMeet
    (hinv : forall s a t, inv s -> legal s a -> step s a = some t -> inv t)
    (hexact : forall s a t, inv s -> prop s -> legal s a -> step s a = some t ->
      (prop t <-> cond s a))
    {s : state} {actions : List action}
    (hs : inv s) (hprop : prop s) (hlegal : StepsMeet step legal s actions) :
    StatesMeet step prop s actions <-> StepsMeet step cond s actions := by
  induction actions generalizing s with
  | nil => simp [StatesMeet, StepsMeet, hprop]
  | cons a rest ih =>
      constructor
      · intro hstates t hstep
        have hlegalStep := hlegal t hstep
        have hrest := hstates.right t hstep
        have hpropNext : prop t := statesMeet_start hrest
        have hcond : cond s a :=
          (hexact s a t hs hprop hlegalStep.left hstep).mp hpropNext
        have hinvNext : inv t := hinv s a t hs hlegalStep.left hstep
        exact ⟨hcond, (ih hinvNext hpropNext hlegalStep.right).mp hrest⟩
      · intro hsteps
        refine ⟨hprop, ?_⟩
        intro t hstep
        have hlegalStep := hlegal t hstep
        have hcondStep := hsteps t hstep
        have hpropNext : prop t :=
          (hexact s a t hs hprop hlegalStep.left hstep).mpr hcondStep.left
        have hinvNext : inv t := hinv s a t hs hlegalStep.left hstep
        exact (ih hinvNext hpropNext hlegalStep.right).mpr hcondStep.right

end Conditions

/-!
## Runs with a record

A record is kept beside a run.  It is computed from the states and actions of
the run and has no influence on them, so that every run has its record.
-/

section Recording

variable {state action history : Type _}

/-- `record h s a` is the record after action `a` in state `s`. -/
def recording (step : state -> action -> Option state)
    (record : history -> state -> action -> history) :
    state × history -> action -> Option (state × history)
  | (s, h), a => (step s a).map fun t => (t, record h s a)

variable {step : state -> action -> Option state}
variable {record : history -> state -> action -> history}
variable {allowed : state -> action -> Prop} {start : state} {first : history}

theorem recording_eq_some {s t : state} {h h' : history} {a : action}
    (hstep : recording step record (s, h) a = some (t, h')) :
    step s a = some t ∧ h' = record h s a := by
  rcases Option.map_eq_some_iff.mp hstep with ⟨u, hu, hpair⟩
  cases hpair
  exact ⟨hu, rfl⟩

theorem exists_recorded_of_reachable {s : state}
    (h : Reachable step allowed start s) (first : history) :
    exists h : history, Reachable (recording step record)
      (fun p a => allowed p.1 a) (start, first) (s, h) := by
  induction h with
  | start => exact ⟨first, Reachable.start⟩
  | @step s t a _ hallowed hstep ih =>
      rcases ih with ⟨h, hreach⟩
      have hnext : recording step record (s, h) a = some (t, record h s a) := by
        simp [recording, hstep]
      exact ⟨record h s a, Reachable.step hreach hallowed hnext⟩

theorem recorded_invariant (inv : state -> history -> Prop)
    (hstart : inv start first)
    (hstep : forall s h a t, inv s h -> allowed s a -> step s a = some t ->
      inv t (record h s a))
    {s : state} {h : history}
    (hreach : Reachable (recording step record) (fun p a => allowed p.1 a)
      (start, first) (s, h)) : inv s h := by
  have hpair := reachable_invariant (fun p => inv p.1 p.2) hstart (by
    intro p a q hp hallowed hq
    have hparts := recording_eq_some hq
    rw [hparts.right]
    exact hstep p.1 p.2 a q.1 hp hallowed hparts.left) hreach
  exact hpair

end Recording

end Transition
end RIBDriver
