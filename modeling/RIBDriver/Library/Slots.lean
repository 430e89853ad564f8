import Mathlib.Data.Fintype.EquivFin
import Mathlib.Logic.Function.Basic

/-!
# Slots with keys

The first `n` slots of an array are empty or hold an item whose key is below
`n`, and no key is held twice.  Then a key that is not held leaves a slot
empty, wherever the items have been put.
-/

namespace RIBDriver
namespace Slots

variable {item : Type _}

def Holds (slot : Nat -> Option item) (key : item -> Nat) (n k : Nat) : Prop :=
  exists i x, i < n ∧ slot i = some x ∧ key x = k

structure Keyed (slot : Nat -> Option item) (key : item -> Nat) (n : Nat) :
    Prop where
  unique : forall i j x y, i < n -> j < n -> slot i = some x ->
    slot j = some y -> key x = key y -> i = j
  below : forall i x, i < n -> slot i = some x -> key x < n

variable {slot : Nat -> Option item} {key key' : item -> Nat} {n k : Nat}

theorem keyed_empty (hempty : forall i, i < n -> slot i = none) :
    Keyed slot key n where
  unique := by
    intro i j x y hi _ hx
    rw [hempty i hi] at hx
    cases hx
  below := by
    intro i x hi hx
    rw [hempty i hi] at hx
    cases hx

/-- If every slot were taken the keys would be a one-to-one map of the slots
into themselves, and so reach every key below `n`. -/
theorem exists_empty (h : Keyed slot key n) (hk : k < n)
    (hnew : ¬ Holds slot key n k) : exists i, i < n ∧ slot i = none := by
  by_contra hfull
  have htaken : forall i : Fin n, exists x, slot i = some x := by
    intro i
    cases hi : slot i with
    | none => exact absurd ⟨i.val, i.isLt, hi⟩ hfull
    | some x => exact ⟨x, rfl⟩
  choose held hheld using htaken
  let keyOf : Fin n -> Fin n := fun i =>
    ⟨key (held i), h.below i (held i) i.isLt (hheld i)⟩
  have hinjective : Function.Injective keyOf := by
    intro i j hsame
    have hkeys : key (held i) = key (held j) := congrArg Fin.val hsame
    exact Fin.ext (h.unique i j _ _ i.isLt j.isLt (hheld i) (hheld j) hkeys)
  rcases Finite.injective_iff_surjective.mp hinjective ⟨k, hk⟩ with ⟨i, hi⟩
  exact hnew ⟨i, held i, i.isLt, hheld i, congrArg Fin.val hi⟩

theorem keyed_insert (h : Keyed slot key n) {loc : Nat} {x : item}
    (hx : key x < n) (hnew : ¬ Holds slot key n (key x)) :
    Keyed (Function.update slot loc (some x)) key n where
  unique := by
    intro i j y z hi hj hy hz hsame
    by_cases hiloc : i = loc
    · by_cases hjloc : j = loc
      · rw [hiloc, hjloc]
      · rw [hiloc, Function.update_self] at hy
        cases hy
        rw [Function.update_of_ne hjloc] at hz
        exact absurd ⟨j, z, hj, hz, hsame.symm⟩ hnew
    · rw [Function.update_of_ne hiloc] at hy
      by_cases hjloc : j = loc
      · rw [hjloc, Function.update_self] at hz
        cases hz
        exact absurd ⟨i, y, hi, hy, hsame⟩ hnew
      · rw [Function.update_of_ne hjloc] at hz
        exact h.unique i j y z hi hj hy hz hsame
  below := by
    intro i y hi hy
    by_cases hiloc : i = loc
    · rw [hiloc, Function.update_self] at hy
      cases hy
      exact hx
    · rw [Function.update_of_ne hiloc] at hy
      exact h.below i y hi hy

theorem keyed_erase (h : Keyed slot key n) (loc : Nat) :
    Keyed (Function.update slot loc none) key n := by
  have hold : forall {i x}, Function.update slot loc none i = some x ->
      slot i = some x := by
    intro i x hx
    by_cases hiloc : i = loc
    · rw [hiloc, Function.update_self] at hx
      cases hx
    · rw [Function.update_of_ne hiloc] at hx
      exact hx
  constructor
  · intro i j x y hi hj hx hy
    exact h.unique i j x y hi hj (hold hx) (hold hy)
  · intro i x hi hx
    exact h.below i x hi (hold hx)

theorem keyed_rekey (h : Keyed slot key n)
    (hsame : forall i x, i < n -> slot i = some x -> key' x = key x) :
    Keyed slot key' n where
  unique := by
    intro i j x y hi hj hx hy hkeys
    rw [hsame i x hi hx, hsame j y hj hy] at hkeys
    exact h.unique i j x y hi hj hx hy hkeys
  below := by
    intro i x hi hx
    rw [hsame i x hi hx]
    exact h.below i x hi hx

end Slots
end RIBDriver
