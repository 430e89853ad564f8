import Mathlib.Algebra.BigOperators.Group.Finset.Basic
import Mathlib.Algebra.Order.BigOperators.Group.Finset

/-!
# Totals over a finite family

An invariant about arbitrarily many parties speaks of how many of them are at
certain places, or of how many tokens they hold together.  Both are totals of a
measure over a finite family of values, and a step that changes one member of
the family moves the total by the difference at that member.
-/

namespace RIBDriver
namespace Counting

variable {index value : Type _} [Fintype index]

/-- The sum over the family `f` of the measure `m` of each member. -/
def total (m : index -> value -> Nat) (f : index -> value) : Nat :=
  Finset.sum Finset.univ (fun i => m i (f i))

theorem measure_le_total (m : index -> value -> Nat) (f : index -> value)
    (i : index) : m i (f i) ≤ total m f :=
  Finset.single_le_sum (f := fun i => m i (f i))
    (fun _ _ => Nat.zero_le _) (Finset.mem_univ i)

theorem total_eq_zero_iff {m : index -> value -> Nat} {f : index -> value} :
    total m f = 0 <-> forall i, m i (f i) = 0 := by
  simp [total, Finset.sum_eq_zero_iff]

theorem total_pos_iff {m : index -> value -> Nat} {f : index -> value} :
    0 < total m f <-> exists i, 0 < m i (f i) := by
  constructor
  · intro h
    by_contra hnone
    have hzero : total m f = 0 := by
      rw [total_eq_zero_iff]
      intro i
      by_contra hi
      exact hnone ⟨i, Nat.pos_of_ne_zero hi⟩
    lia
  · intro h
    rcases h with ⟨i, hi⟩
    exact Nat.lt_of_lt_of_le hi (measure_le_total m f i)

theorem total_le_card_mul {m : index -> value -> Nat} {f : index -> value}
    {bound : Nat} (h : forall i, m i (f i) ≤ bound) :
    total m f ≤ Fintype.card index * bound := by
  have hsum := Finset.sum_le_sum fun i (_ : i ∈ Finset.univ) => h i
  rw [Finset.sum_const_nat fun _ _ => rfl] at hsum
  exact hsum

section Update

variable [DecidableEq index]

theorem total_update (m : index -> value -> Nat) (f : index -> value)
    (i : index) (v : value) :
    total m (Function.update f i v) + m i (f i) = total m f + m i v := by
  have hsplit : forall g : index -> value,
      total m g =
        m i (g i) + Finset.sum (Finset.univ.erase i) (fun j => m j (g j)) := by
    intro g
    exact (Finset.add_sum_erase Finset.univ (fun j => m j (g j))
      (Finset.mem_univ i)).symm
  have hrest :
      Finset.sum (Finset.univ.erase i)
          (fun j => m j (Function.update f i v j)) =
        Finset.sum (Finset.univ.erase i) (fun j => m j (f j)) := by
    apply Finset.sum_congr rfl
    intro j hj
    rw [Function.update_of_ne (Finset.ne_of_mem_erase hj)]
  rw [hsplit (Function.update f i v), hsplit f, hrest, Function.update_self]
  lia

theorem measure_add_le_total (m : index -> value -> Nat) (f : index -> value)
    {i j : index} (hij : i ≠ j) : m i (f i) + m j (f j) ≤ total m f := by
  have hpair := Finset.sum_le_sum_of_subset (f := fun k => m k (f k))
    (Finset.subset_univ {i, j})
  rw [Finset.sum_pair hij] at hpair
  exact hpair

end Update

theorem exists_ne_of_one_lt_total {m : index -> value -> Nat}
    {f : index -> value} {i : index} (hi : m i (f i) ≤ 1)
    (h : 1 < total m f) : exists j, j ≠ i ∧ 0 < m j (f j) := by
  by_contra hnone
  have hothers : forall j, j ≠ i -> m j (f j) = 0 := by
    intro j hj
    by_contra hpos
    exact hnone ⟨j, hj, Nat.pos_of_ne_zero hpos⟩
  have hsingle : total m f = m i (f i) :=
    Finset.sum_eq_single i (fun j _ hj => hothers j hj)
      (fun hi => absurd (Finset.mem_univ i) hi)
  lia

end Counting
end RIBDriver
