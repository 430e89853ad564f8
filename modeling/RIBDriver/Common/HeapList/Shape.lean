import RIBDriver.Common.HeapList.Model

/-!
# Chains of nodes and who owns them

A list owns the cells of its nodes and of their payloads.  Each function is
shown to do its work on what its list owns and to leave the rest of the heap
alone.
-/

namespace RIBDriver
namespace HeapList

structure Item where
  node : Nat
  data : Nat
  payload : List UInt8

def footprint (items : List Item) : List Nat :=
  items.flatMap fun i => [i.node, i.data]

def payloads (items : List Item) : List (List UInt8) := items.map (·.payload)

def headOr (after : Option Nat) : List Item -> Option Nat
  | [] => after
  | i :: _ => some i.node

structure Holds (h : Heap Cell) (i : Item) (next : Option Nat) : Prop where
  node : exists dataSize, h.read i.node =
    some (.node { data := some i.data, dataSize := dataSize, next := next })
  data : h.read i.data = some (.bytes i.payload)

/-- Each node points to the one behind it and the last to `after`. -/
def Segment (h : Heap Cell) (after : Option Nat) : List Item -> Prop
  | [] => True
  | i :: rest => Holds h i (headOr after rest) ∧ Segment h after rest

structure Owns (h : Heap Cell) (ll : LlT) (items : List Item) : Prop where
  head : ll.head = headOr none items
  count : ll.nodeCount.toNat = items.length
  chain : Segment h none items
  nodup : (footprint items).Nodup

/-!
## Chains
-/

section Chains

variable {h h' : Heap Cell} {after : Option Nat} {i : Item}
variable {items xs ys : List Item}

@[simp] theorem footprint_nil : footprint [] = [] := rfl

@[simp] theorem footprint_cons (i : Item) (rest : List Item) :
    footprint (i :: rest) = i.node :: i.data :: footprint rest := rfl

@[simp] theorem footprint_append (xs ys : List Item) :
    footprint (xs ++ ys) = footprint xs ++ footprint ys :=
  List.flatMap_append

theorem mem_footprint_node (hi : i ∈ items) : i.node ∈ footprint items :=
  List.mem_flatMap.mpr ⟨i, hi, by simp⟩

@[simp] theorem payloads_nil : payloads [] = [] := rfl

@[simp] theorem payloads_cons (i : Item) (rest : List Item) :
    payloads (i :: rest) = i.payload :: payloads rest := rfl

@[simp] theorem payloads_append (xs ys : List Item) :
    payloads (xs ++ ys) = payloads xs ++ payloads ys :=
  List.map_append

theorem headOr_cons (after : Option Nat) (i : Item) (rest : List Item) :
    headOr after (i :: rest) = some i.node := rfl

theorem headOr_append (after : Option Nat) (xs ys : List Item) :
    headOr after (xs ++ ys) = headOr (headOr after ys) xs := by
  cases xs <;> rfl

theorem segment_append :
    Segment h after (xs ++ ys) <->
      Segment h (headOr after ys) xs ∧ Segment h after ys := by
  induction xs with
  | nil => simp [Segment]
  | cons i rest ih =>
      show Holds h i (headOr after (rest ++ ys)) ∧ Segment h after (rest ++ ys)
        <-> (Holds h i (headOr (headOr after ys) rest) ∧ _) ∧ _
      rw [ih, headOr_append, and_assoc]

theorem holds_congr (hi : Holds h i after)
    (hsame : forall a, a = i.node ∨ a = i.data -> h'.read a = h.read a) :
    Holds h' i after where
  node := by
    rw [hsame i.node (Or.inl rfl)]
    exact hi.node
  data := by
    rw [hsame i.data (Or.inr rfl)]
    exact hi.data

theorem segment_congr (hitems : Segment h after items)
    (hsame : forall a, a ∈ footprint items -> h'.read a = h.read a) :
    Segment h' after items := by
  induction items with
  | nil => exact trivial
  | cons i rest ih =>
      refine ⟨holds_congr hitems.left ?_, ih hitems.right ?_⟩
      · intro a ha
        apply hsame
        rcases ha with ha | ha <;> simp [ha]
      · intro a ha
        apply hsame
        simp [ha]

theorem deref_of_read {a : Nat} {n : Node}
    (hread : h.read a = some (.node n)) : deref h (some a) = some n := by
  simp [deref, hread]

theorem read_of_mem_footprint (hitems : Segment h after items) {a : Nat}
    (ha : a ∈ footprint items) : exists c, h.read a = some c := by
  induction items with
  | nil => cases ha
  | cons i rest ih =>
      rw [footprint_cons, List.mem_cons, List.mem_cons] at ha
      rcases ha with ha | ha | ha
      · rcases hitems.left.node with ⟨dataSize, hnode⟩
        exact ⟨_, by rw [ha]; exact hnode⟩
      · exact ⟨_, by rw [ha]; exact hitems.left.data⟩
      · exact ih hitems.right ha

theorem nodes_sublist (items : List Item) :
    (items.map (·.node)).Sublist (footprint items) := by
  induction items with
  | nil => exact List.Sublist.slnil
  | cons i rest ih => exact List.Sublist.cons_cons _ (List.Sublist.cons _ ih)

theorem length_le_next (hitems : Segment h after items)
    (hnodup : (footprint items).Nodup) : items.length ≤ h.next := by
  have hnodes : (items.map (·.node)).Nodup :=
    hnodup.sublist (nodes_sublist items)
  have hlive : forall a, a ∈ items.map (·.node) ->
      exists c, h.read a = some c := by
    intro a ha
    rcases List.mem_map.mp ha with ⟨i, hi, hnode⟩
    rw [← hnode]
    exact read_of_mem_footprint hitems (mem_footprint_node hi)
  have hle := Heap.length_le_next hnodes hlive
  rw [List.length_map] at hle
  exact hle

end Chains

/-!
## The search
-/

section Search

variable {h : Heap Cell} {items : List Item} {key : List UInt8} {size : UInt32}

/-- Keys are compared over at most the size of each payload. -/
def Comparable (key : List UInt8) (size : UInt32)
    (contents : List (List UInt8)) : Prop :=
  size.toNat ≤ key.length ∧
    forall payload, payload ∈ contents -> size.toNat ≤ payload.length

instance (key : List UInt8) (size : UInt32) :
    DecidablePred (Comparable key size) := fun contents =>
  inferInstanceAs (Decidable (size.toNat ≤ key.length ∧
    forall payload, payload ∈ contents -> size.toNat ≤ payload.length))

theorem comparable_tail {payload : List UInt8} {rest : List (List UInt8)}
    (hfits : Comparable key size (payload :: rest)) :
    Comparable key size rest :=
  ⟨hfits.left, fun p hp => hfits.right p (List.mem_cons_of_mem _ hp)⟩

theorem memcmp_of_holds {i : Item} {next : Option Nat} (hi : Holds h i next)
    (hfits : size.toNat ≤ i.payload.length ∧ size.toNat ≤ key.length) :
    memcmp h (some i.data) key size = some (agree i.payload key size) := by
  simp [memcmp, hi.data, hfits]

theorem findValue_segment {fuel : Nat} (hitems : Segment h none items)
    (hfits : Comparable key size (payloads items))
    (hfuel : items.length < fuel) :
    findValue h key size fuel (headOr none items) =
      some ((items.find? fun i => agree i.payload key size).map (·.node)) := by
  induction items generalizing fuel with
  | nil =>
      cases fuel with
      | zero => cases hfuel
      | succ fuel => rfl
  | cons i rest ih =>
      cases fuel with
      | zero => cases hfuel
      | succ fuel =>
          rcases hitems.left.node with ⟨dataSize, hnode⟩
          have hderef := deref_of_read hnode
          have hcompare : memcmp h (some i.data) key size = _ :=
            memcmp_of_holds hitems.left
              ⟨hfits.right i.payload List.mem_cons_self, hfits.left⟩
          have hrest := ih hitems.right (comparable_tail hfits)
            (Nat.lt_of_succ_lt_succ hfuel)
          show findValue h key size (fuel + 1) (some i.node) = _
          rw [findValue, hderef]
          simp only [Option.bind_eq_bind, Option.bind_some, hcompare]
          cases hagree : agree i.payload key size with
          | true => simp [hagree]
          | false =>
              simp only [Bool.false_eq_true, if_false]
              rw [hrest, List.find?_cons_of_neg (by simp [hagree])]

end Search

end HeapList
end RIBDriver
