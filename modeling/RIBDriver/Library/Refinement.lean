import RIBDriver.Library.Transition

/-!
# Machines that answer

A machine executes one operation after the other and answers each.  A concrete
machine refines an abstract one if, from related states, it gives the same
answer to every operation and ends in related states.
-/

namespace RIBDriver
namespace Refinement

section Total

variable {state astate op out : Type _}

def answers (step : state -> op -> state × out) :
    state -> List op -> state × List out
  | s, [] => (s, [])
  | s, o :: rest =>
      ((answers step (step s o).1 rest).1,
        (step s o).2 :: (answers step (step s o).1 rest).2)

variable {step : state -> op -> state × out}
variable {astep : astate -> op -> astate × out}

theorem answers_of_related {rel : state -> astate -> Prop}
    (hstep : forall s a o, rel s a ->
      (step s o).2 = (astep a o).2 ∧ rel (step s o).1 (astep a o).1)
    {s : state} {a : astate} (h : rel s a) (ops : List op) :
    (answers step s ops).2 = (answers astep a ops).2 ∧
      rel (answers step s ops).1 (answers astep a ops).1 := by
  induction ops generalizing s a with
  | nil => exact ⟨rfl, h⟩
  | cons o rest ih =>
      rcases hstep s a o h with ⟨hanswer, hnext⟩
      rcases ih hnext with ⟨hrest, hlast⟩
      refine ⟨?_, hlast⟩
      show (step s o).2 :: _ = (astep a o).2 :: _
      rw [hanswer, hrest]

end Total

/-!
## Machines that may fail

`none` is a fault of the concrete machine, and an operation the abstract
machine is not asked.
-/

section Failing

variable {state astate op out : Type _}

def answers? (step : state -> op -> Option (state × out)) :
    state -> List op -> Option (state × List out)
  | s, [] => some (s, [])
  | s, o :: rest =>
      match step s o with
      | none => none
      | some (t, x) => (answers? step t rest).map fun r => (r.1, x :: r.2)

variable {step : state -> op -> Option (state × out)}
variable {astep : astate -> op -> Option (astate × out)}

/-- A concrete machine that never fails where the abstract one may be asked
executes every sequence of operations that may be asked, with the same answers. -/
theorem answers?_of_related {rel : state -> astate -> Prop}
    (hstep : forall s a o a' x, rel s a -> astep a o = some (a', x) ->
      exists s', step s o = some (s', x) ∧ rel s' a')
    {s : state} {a a' : astate} {ops : List op} {xs : List out} (h : rel s a)
    (hrun : answers? astep a ops = some (a', xs)) :
    exists s', answers? step s ops = some (s', xs) ∧ rel s' a' := by
  induction ops generalizing s a xs with
  | nil =>
      cases hrun
      exact ⟨s, rfl, h⟩
  | cons o rest ih =>
      rw [answers?] at hrun
      cases hask : astep a o with
      | none =>
          rw [hask] at hrun
          cases hrun
      | some next =>
          rcases next with ⟨b, x⟩
          rw [hask] at hrun
          rcases Option.map_eq_some_iff.mp hrun with ⟨⟨b', ys⟩, hrest, hpair⟩
          cases hpair
          rcases hstep s a o b x h hask with ⟨t, ht, hrel⟩
          rcases ih hrel hrest with ⟨u, hu, hlast⟩
          refine ⟨u, ?_, hlast⟩
          rw [answers?, ht]
          simp [hu]

end Failing

/-!
## Machines that are renamings of each other

States, operations and answers of one machine are renamed to those of another.
When one step of the second machine is the renamed step of the first up to its
answer, all answers of a run correspond exactly if those of its steps do.
-/

section Renaming

variable {state state' op op' out out' : Type _}
variable {step : state -> op -> Option (state × out)}
variable {step' : state' -> op' -> Option (state' × out')}
variable {onState : state -> state'} {onOp : op -> op'} {onOut : out -> out'}

theorem states_renamed
    (hstep : forall s o, (step' (onState s) (onOp o)).map Prod.fst =
      (step s o).map fun r => onState r.1)
    (s : state) (ops : List op) :
    (answers? step' (onState s) (ops.map onOp)).map Prod.fst =
      (answers? step s ops).map fun r => onState r.1 := by
  induction ops generalizing s with
  | nil => rfl
  | cons o rest ih =>
      rw [List.map_cons, answers?, answers?]
      have hnext := hstep s o
      cases hleft : step' (onState s) (onOp o) with
      | none =>
          cases hright : step s o with
          | none => rfl
          | some r =>
              rw [hleft, hright] at hnext
              cases hnext
      | some r' =>
          cases hright : step s o with
          | none =>
              rw [hleft, hright] at hnext
              cases hnext
          | some r =>
              rw [hleft, hright] at hnext
              have hstate : r'.1 = onState r.1 := Option.some.inj hnext
              simp only [Option.map_map]
              rw [hstate]
              exact ih r.1

/-- All runs that begin like this one are renamed runs of the first machine. -/
def Corresponds (step : state -> op -> Option (state × out))
    (step' : state' -> op' -> Option (state' × out'))
    (onState : state -> state') (onOp : op -> op') (onOut : out -> out')
    (s : state) (ops : List op) : Prop :=
  forall pre, pre <+: ops ->
    answers? step' (onState s) (pre.map onOp) =
      (answers? step s pre).map fun r => (onState r.1, r.2.map onOut)

theorem corresponds_cons_iff {s : state} {o : op} {rest : List op} :
    Corresponds step step' onState onOp onOut s (o :: rest) <->
      forall pre, pre <+: rest ->
        answers? step' (onState s) (onOp o :: pre.map onOp) =
          (answers? step s (o :: pre)).map fun r =>
            (onState r.1, r.2.map onOut) := by
  constructor
  · intro h pre hpre
    exact h (o :: pre) (List.cons_prefix_cons.mpr ⟨rfl, hpre⟩)
  · intro h pre hpre
    rcases List.prefix_cons_iff.mp hpre with hnil | ⟨tail, hpair, htail⟩
    · rw [hnil]
      rfl
    · rw [hpair]
      exact h tail htail

/-- The condition decides, step by step, whether the answers correspond. -/
theorem corresponds_iff_stepsMeet {cond : state -> op -> Prop}
    (hnone : forall s o, step s o = none -> step' (onState s) (onOp o) = none)
    (hsome : forall s o t x, step s o = some (t, x) ->
      exists x', step' (onState s) (onOp o) = some (onState t, x') ∧
        (x' = onOut x <-> cond s o))
    {s : state} {ops : List op} :
    Corresponds step step' onState onOp onOut s ops <->
      Transition.StepsMeet (fun s o => (step s o).map Prod.fst) cond s ops := by
  induction ops generalizing s with
  | nil =>
      refine iff_of_true ?_ trivial
      intro pre hpre
      rw [List.prefix_nil.mp hpre]
      rfl
  | cons o rest ih =>
      rw [corresponds_cons_iff, Transition.stepsMeet_cons_iff]
      cases hstep : step s o with
      | none =>
          have hother := hnone s o hstep
          refine iff_of_true ?_ ?_
          · intro pre _
            rw [answers?, answers?, hstep, hother]
            rfl
          · intro t ht
            cases ht
      | some next =>
          rcases next with ⟨t, x⟩
          rcases hsome s o t x hstep with ⟨x', hother, hexact⟩
          have hrun : forall pre : List op,
              (answers? step' (onState s) (onOp o :: pre.map onOp) =
                (answers? step s (o :: pre)).map fun r =>
                  (onState r.1, r.2.map onOut)) <->
                (answers? step' (onState t) (pre.map onOp)).map
                    (fun r => (r.1, x' :: r.2)) =
                  (answers? step t pre).map fun r =>
                    (onState r.1, onOut x :: r.2.map onOut) := by
            intro pre
            rw [answers?, answers?, hstep, hother]
            simp only [Option.map_map]
            rfl
          constructor
          · intro h u hu
            cases hu
            -- the run that ends here has this answer last
            have hanswer : x' = onOut x := by
              have hlast := (hrun []).mp (h [] List.nil_prefix)
              simpa [answers?] using hlast
            refine ⟨hexact.mp hanswer, ih.mp ?_⟩
            intro pre hpre
            have hnext := (hrun pre).mp (h pre hpre)
            rw [hanswer] at hnext
            cases hleft : answers? step' (onState t) (pre.map onOp) with
            | none =>
                cases hright : answers? step t pre with
                | none => rfl
                | some r =>
                    rw [hleft, hright] at hnext
                    cases hnext
            | some r' =>
                cases hright : answers? step t pre with
                | none =>
                    rw [hleft, hright] at hnext
                    cases hnext
                | some r =>
                    rw [hleft, hright] at hnext
                    rcases r' with ⟨u', ys⟩
                    simp only [Option.map_some, Option.some.injEq,
                      Prod.mk.injEq, List.cons.injEq, true_and] at hnext
                    simp [hnext]
          · intro h pre hpre
            have hboth := h t rfl
            have hanswer := hexact.mpr hboth.left
            have hrest := ih.mpr hboth.right pre hpre
            rw [hrun pre, hrest, hanswer]
            simp only [Option.map_map]
            rfl

end Renaming

/-!
## Steps that are taken together

Two partial steps go together if both are refused, or both are taken and their
results are related.
-/

section Together

variable {out out' : Type _} {rel : out -> out' -> Prop}
variable {x : Option out} {y : Option out'}

theorem exists_of_rel {r : out} (h : Option.Rel rel x y) (hx : x = some r) :
    exists r', y = some r' ∧ rel r r' := by
  cases h with
  | none => cases hx
  | some hr =>
      cases hx
      exact ⟨_, rfl, hr⟩

theorem eq_none_of_rel (h : Option.Rel rel x y) (hx : x = none) : y = none := by
  cases h with
  | none => rfl
  | some hr => cases hx

theorem rel_ite {n n' : Nat} (hn : n' = n) {r : out} {r' : out'}
    (hr : rel r r') :
    Option.Rel rel (if n = 0 then none else some r)
      (if n' = 0 then none else some r') := by
  rw [hn]
  split
  · exact Option.Rel.none
  · exact Option.Rel.some hr

end Together

end Refinement
end RIBDriver
