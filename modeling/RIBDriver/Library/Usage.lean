import RIBDriver.Library.Heap

/-!
# Cells in use

How many cells of a heap are live: an allocation adds one, a write none, and a
free takes one.
-/

namespace RIBDriver

variable {cell : Type _}

def HeapSlot.inUse : HeapSlot cell -> Nat
  | .live _ => 1
  | _ => 0

namespace Heap

def usedBelow (slots : Nat -> HeapSlot cell) : Nat -> Nat
  | 0 => 0
  | n + 1 => usedBelow slots n + (slots n).inUse

def inUse (h : Heap cell) : Nat := usedBelow h.slots h.next

section Slots

variable {slots : Nat -> HeapSlot cell} {a n : Nat}

theorem usedBelow_update_of_le (slot : HeapSlot cell) (ha : n ≤ a) :
    usedBelow (Function.update slots a slot) n = usedBelow slots n := by
  induction n with
  | zero => rfl
  | succ n ih =>
      have hother : n ≠ a := by lia
      rw [usedBelow, usedBelow, ih (by lia), Function.update_of_ne hother]

theorem usedBelow_update (slot : HeapSlot cell) (ha : a < n) :
    usedBelow (Function.update slots a slot) n + (slots a).inUse =
      usedBelow slots n + slot.inUse := by
  induction n with
  | zero => cases ha
  | succ n ih =>
      rw [usedBelow, usedBelow]
      rcases Nat.lt_succ_iff_lt_or_eq.mp ha with hlt | hlast
      · have hother : n ≠ a := by lia
        have hrest := ih hlt
        rw [Function.update_of_ne hother]
        lia
      · have hrest : usedBelow (Function.update slots a slot) n =
            usedBelow slots n :=
          usedBelow_update_of_le slot (Nat.le_of_eq hlast.symm)
        rw [hrest, hlast, Function.update_self]
        lia

end Slots

section Operations

variable {h h' : Heap cell} {a : Nat} {c : cell}

theorem inUse_alloc (h : Heap cell) (c : cell) :
    (h.alloc c).1.inUse = h.inUse + 1 := by
  show usedBelow (Function.update h.slots h.next (.live c)) (h.next + 1) = _
  rw [usedBelow, Function.update_self,
    usedBelow_update_of_le _ (Nat.le_refl h.next)]
  rfl

theorem inUse_set {slot : HeapSlot cell} (hread : h.read a = some c)
    (ha : a < h.next) :
    (h.set a slot ha).inUse + 1 = h.inUse + slot.inUse := by
  have hslot : (h.set a slot ha).inUse + (h.slots a).inUse =
      h.inUse + slot.inUse := usedBelow_update slot ha
  rw [slots_of_read hread] at hslot
  exact hslot

theorem inUse_write (hwrite : h.write a c = some h') : h'.inUse = h.inUse := by
  unfold write at hwrite
  split at hwrite
  · rename_i hlive
    rw [← Option.some.inj hwrite]
    have hread := (Option.some_get hlive).symm
    have hset : (h.set a (.live c) (lt_next_of_read hread)).inUse + 1 =
        h.inUse + 1 := inUse_set hread (lt_next_of_read hread)
    exact Nat.succ_inj.mp hset
  · cases hwrite

theorem inUse_free (hfree : h.free a = some h') : h'.inUse + 1 = h.inUse := by
  unfold free at hfree
  split at hfree
  · rename_i hlive
    rw [← Option.some.inj hfree]
    have hread := (Option.some_get hlive).symm
    exact inUse_set hread (lt_next_of_read hread)
  · cases hfree

end Operations

end Heap
end RIBDriver
