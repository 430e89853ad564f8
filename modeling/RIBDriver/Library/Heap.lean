import Mathlib.Data.List.Perm.Subperm
import Mathlib.Logic.Function.Basic

/-!
# A heap of cells

Addresses are handed out in order and never twice.  Access to a cell that was
never allocated or has been freed is a fault, and so is a second free.
-/

namespace RIBDriver

/-- What an address refers to. -/
inductive HeapSlot (cell : Type _) where
  | unallocated
  | live (contents : cell)
  | freed

structure Heap (cell : Type _) where
  slots : Nat -> HeapSlot cell
  next : Nat
  fresh : forall a, next ≤ a -> slots a = .unallocated

namespace Heap

variable {cell : Type _}

def empty : Heap cell where
  slots := fun _ => .unallocated
  next := 0
  fresh := fun _ _ => rfl

def read (h : Heap cell) (a : Nat) : Option cell :=
  match h.slots a with
  | .live c => some c
  | _ => none

theorem slots_of_read {h : Heap cell} {a : Nat} {c : cell}
    (hread : h.read a = some c) : h.slots a = .live c := by
  unfold read at hread
  split at hread
  · rename_i c' hslot
    cases hread
    exact hslot
  · cases hread

theorem read_of_slots {h : Heap cell} {a : Nat} {c : cell}
    (hslot : h.slots a = .live c) : h.read a = some c := by
  unfold read
  rw [hslot]

theorem eq_of_slots {h h' : Heap cell} (hslots : h'.slots = h.slots)
    (hnext : h'.next = h.next) : h' = h := by
  cases h with
  | mk slots next fresh =>
      cases h' with
      | mk slots' next' fresh' =>
          cases hslots
          cases hnext
          rfl

theorem lt_next_of_read {h : Heap cell} {a : Nat} {c : cell}
    (hread : h.read a = some c) : a < h.next := by
  by_contra hle
  have hslot := slots_of_read hread
  rw [h.fresh a (Nat.le_of_not_lt hle)] at hslot
  cases hslot

theorem length_le_next {h : Heap cell} {addresses : List Nat}
    (hnodup : addresses.Nodup)
    (hlive : forall a, a ∈ addresses -> exists c, h.read a = some c) :
    addresses.length ≤ h.next := by
  have hsubset : addresses ⊆ List.range h.next := by
    intro a ha
    rcases hlive a ha with ⟨c, hread⟩
    rw [List.mem_range]
    exact lt_next_of_read hread
  have hle := (hnodup.subperm hsubset).length_le
  simpa using hle

theorem read_fresh (h : Heap cell) {a : Nat} (ha : h.next ≤ a) :
    h.read a = none := by
  unfold read
  rw [h.fresh a ha]

def set (h : Heap cell) (a : Nat) (slot : HeapSlot cell) (ha : a < h.next) :
    Heap cell where
  slots := Function.update h.slots a slot
  next := h.next
  fresh := by
    intro b hb
    rw [Function.update_of_ne (by lia)]
    exact h.fresh b hb

def alloc (h : Heap cell) (c : cell) : Heap cell × Nat :=
  ({ slots := Function.update h.slots h.next (.live c)
     next := h.next + 1
     fresh := by
       intro b hb
       rw [Function.update_of_ne (by lia)]
       exact h.fresh b (by lia) }, h.next)

def write (h : Heap cell) (a : Nat) (c : cell) : Option (Heap cell) :=
  if hlive : (h.read a).isSome = true then
    some (h.set a (.live c)
      (lt_next_of_read (Option.some_get hlive).symm))
  else none

def free (h : Heap cell) (a : Nat) : Option (Heap cell) :=
  if hlive : (h.read a).isSome = true then
    some (h.set a .freed (lt_next_of_read (Option.some_get hlive).symm))
  else none

/-!
## What the operations leave alone
-/

def SameOutside (addresses : List Nat) (h h' : Heap cell) : Prop :=
  forall a, a ∉ addresses -> h'.read a = h.read a

section Reads

variable {h h' h'' : Heap cell} {a : Nat} {c : cell}

theorem sameOutside_refl (addresses : List Nat) (h : Heap cell) :
    SameOutside addresses h h := fun _ _ => rfl

theorem SameOutside.trans {addresses : List Nat}
    (hfirst : SameOutside addresses h h')
    (hsecond : SameOutside addresses h' h'') :
    SameOutside addresses h h'' := by
  intro b hb
  rw [hsecond b hb, hfirst b hb]

theorem SameOutside.mono {addresses more : List Nat}
    (h1 : SameOutside addresses h h')
    (hsubset : forall b, b ∈ addresses -> b ∈ more) :
    SameOutside more h h' := by
  intro b hb
  exact h1 b (fun hmem => hb (hsubset b hmem))

theorem read_set (h : Heap cell) (a b : Nat) (slot : HeapSlot cell)
    (ha : a < h.next) :
    (h.set a slot ha).read b =
      if b = a then (match slot with | .live c => some c | _ => none)
      else h.read b := by
  unfold read set
  by_cases hb : b = a
  · simp only [hb, Function.update_self, if_true]
  · simp only [Function.update_of_ne hb, if_neg hb]

theorem write_of_read (c' : cell) (hread : h.read a = some c) :
    exists h', h.write a c' = some h' ∧ h'.read a = some c' ∧
      SameOutside [a] h h' := by
  have hlive : (h.read a).isSome = true := by rw [hread]; rfl
  refine ⟨_, dif_pos hlive, ?_, ?_⟩
  · rw [read_set, if_pos rfl]
  · intro b hb
    rw [read_set, if_neg (by simpa using hb)]

theorem slots_of_write (c' : cell) (hread : h.read a = some c) :
    exists h', h.write a c' = some h' ∧
      h'.slots = Function.update h.slots a (.live c') ∧ h'.next = h.next := by
  have hlive : (h.read a).isSome = true := by rw [hread]; rfl
  exact ⟨_, dif_pos hlive, rfl, rfl⟩

theorem free_of_read (hread : h.read a = some c) :
    exists h', h.free a = some h' ∧ SameOutside [a] h h' := by
  have hlive : (h.read a).isSome = true := by rw [hread]; rfl
  refine ⟨_, dif_pos hlive, ?_⟩
  intro b hb
  rw [read_set, if_neg (by simpa using hb)]

theorem read_getD_free (h : Heap cell) (a : Nat) :
    ((h.free a).getD h).read a = none := by
  unfold free
  split
  · rw [Option.getD_some, read_set, if_pos rfl]
  · rename_i hdead
    rw [Option.getD_none]
    exact Option.not_isSome_iff_eq_none.mp hdead

theorem read_alloc_self (h : Heap cell) (c : cell) :
    (h.alloc c).1.read (h.alloc c).2 = some c := by
  unfold alloc read
  simp only [Function.update_self]

theorem sameOutside_alloc (h : Heap cell) (c : cell) :
    SameOutside [h.next] h (h.alloc c).1 := by
  intro b hb
  unfold alloc read
  simp only [Function.update_of_ne (show b ≠ h.next by simpa using hb)]

end Reads

end Heap
end RIBDriver
