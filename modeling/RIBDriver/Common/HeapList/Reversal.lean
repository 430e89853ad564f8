import Mathlib.Data.List.Nodup
import RIBDriver.Common.HeapList.Shape

/-!
# Reversal in place

The three reversals of `LinkedListApi.c` write the `next` fields of the nodes
and nothing else: a loop with three pointers and two recursions that relink on
the way back.  Payloads play no part, so that a list is here its chain of
nodes, whatever their `data` pointers refer to.
-/

namespace RIBDriver
namespace HeapList

/-- `a->next = next`. -/
def setNext (h : Heap Cell) : Option Nat -> Option Nat -> Option (Heap Cell)
  | none, _ => none
  | some a, next => do
      let n <- deref h (some a)
      h.write a (.node { n with next := next })

/-!
## The functions
-/

/-- The loop of `reverse_singly_ll`, which looks at the saved successor. -/
def turnLoop : Nat -> Heap Cell -> Option Nat -> Option Nat ->
    Option (Heap Cell × Option Nat)
  | 0, _, _, _ => none
  | fuel + 1, h, p1, p2 => do
      let n <- deref h p2
      let h <- setNext h p2 p1
      match n.next with
      | none => some (h, p2)
      | some p3 => turnLoop fuel h p2 (some p3)

def reverseSinglyLl (h : Heap Cell) (ll : LlT) : Option (Heap Cell × LlT) :=
  if ll.nodeCount = 0 then some (h, ll)
  else if ll.nodeCount = 1 then some (h, ll)
  else do
    let n <- deref h ll.head
    let h <- setNext h ll.head none
    let (h, p1) <- turnLoop (rounds h) h ll.head n.next
    some (h, { ll with head := p1 })

/-- `while(last_node->next)`. -/
def lastNode (h : Heap Cell) : Nat -> Option Nat -> Option (Option Nat)
  | 0, _ => none
  | fuel + 1, last => do
      let n <- deref h last
      match n.next with
      | none => some last
      | some a => lastNode h fuel (some a)

def reverseSinglyLl2Aux : Nat -> Heap Cell -> Option Nat -> Option (Heap Cell)
  | 0, _, _ => none
  | fuel + 1, h, head => do
      let n <- deref h head
      let successor <- deref h n.next
      let h <-
        match successor.next with
        | none => some h
        | some _ => reverseSinglyLl2Aux fuel h n.next
      let n <- deref h head
      setNext h n.next head

def reverseSinglyLl2 (h : Heap Cell) (ll : LlT) : Option (Heap Cell × LlT) :=
  if ll.nodeCount = 0 then some (h, ll)
  else if ll.nodeCount = 1 then some (h, ll)
  else do
    let last <- lastNode h (rounds h) ll.head
    let h <- reverseSinglyLl2Aux (rounds h) h ll.head
    let h <- setNext h ll.head none
    some (h, { ll with head := last })

def reverseSinglyLl3Aux : Nat -> Heap Cell -> Option Nat -> Option Nat ->
    Option (Heap Cell)
  | 0, _, _, _ => none
  | fuel + 1, h, prev, next => do
      let n <- deref h next
      let h <-
        match n.next with
        | none => some h
        | some a => reverseSinglyLl3Aux fuel h next (some a)
      setNext h next prev

def reverseSinglyLl3 (h : Heap Cell) (ll : LlT) : Option (Heap Cell × LlT) :=
  if ll.nodeCount = 0 then some (h, ll)
  else if ll.nodeCount = 1 then some (h, ll)
  else do
    let last <- lastNode h (rounds h) ll.head
    let h <- reverseSinglyLl3Aux (rounds h) h none ll.head
    some (h, { ll with head := last })

inductive Reversal where
  | loop
  | second
  | third
deriving DecidableEq

def Reversal.reverse :
    Reversal -> Heap Cell -> LlT -> Option (Heap Cell × LlT)
  | .loop => reverseSinglyLl
  | .second => reverseSinglyLl2
  | .third => reverseSinglyLl3

/-!
## Chains of nodes
-/

/-- A node with what it holds beside its link. -/
structure Link where
  node : Nat
  data : Option Nat
  dataSize : UInt32

def nodes (links : List Link) : List Nat := links.map (·.node)

def headNode (after : Option Nat) : List Link -> Option Nat
  | [] => after
  | l :: _ => some l.node

def Link.cell (l : Link) (next : Option Nat) : Cell :=
  .node { data := l.data, dataSize := l.dataSize, next := next }

/-- Each node points to the one behind it and the last to `after`. -/
def Chain (h : Heap Cell) (after : Option Nat) : List Link -> Prop
  | [] => True
  | l :: rest =>
      h.read l.node = some (l.cell (headNode after rest)) ∧ Chain h after rest

/-- A list that ends in `NULL`, has no cycle and is counted correctly. -/
structure Chained (h : Heap Cell) (ll : LlT) (links : List Link) : Prop where
  head : ll.head = headNode none links
  count : ll.nodeCount.toNat = links.length
  chain : Chain h none links
  nodup : (nodes links).Nodup

def endNode (l : Link) : List Link -> Nat
  | [] => l.node
  | m :: rest => endNode m rest

theorem headNode_append (after : Option Nat) (xs ys : List Link) :
    headNode after (xs ++ ys) = headNode (headNode after ys) xs := by
  cases xs with
  | nil => rfl
  | cons l rest => rfl

theorem headNode_reverse (after : Option Nat) (l : Link) (rest : List Link) :
    headNode after (l :: rest).reverse = some (endNode l rest) := by
  induction rest generalizing l after with
  | nil => rfl
  | cons m rest ih =>
      rw [List.reverse_cons, headNode_append]
      exact ih (headNode after [l]) m

/-!
## The heap after a reversal
-/

/-- The nodes point the other way and the first to `prev`. -/
def turned (slots : Nat -> HeapSlot Cell) :
    Option Nat -> List Link -> Nat -> HeapSlot Cell
  | _, [] => slots
  | prev, l :: rest =>
      Function.update (turned slots (some l.node) rest) l.node
        (.live (l.cell prev))

structure Turned (h : Heap Cell) (prev : Option Nat) (links : List Link)
    (h' : Heap Cell) : Prop where
  slots : h'.slots = turned h.slots prev links
  next : h'.next = h.next

section Turned

variable {slots : Nat -> HeapSlot Cell} {h h' h'' : Heap Cell}
variable {prev after : Option Nat} {l : Link} {links rest acc : List Link}

theorem turned_of_notMem {a : Nat} (ha : a ∉ nodes links) :
    turned slots prev links a = slots a := by
  induction links generalizing prev with
  | nil => rfl
  | cons l rest ih =>
      have hsplit : a ≠ l.node ∧ a ∉ nodes rest := by
        simpa [nodes, not_or] using ha
      rw [turned, Function.update_of_ne hsplit.left]
      exact ih hsplit.right

theorem turned_update {a : Nat} {slot : HeapSlot Cell} (ha : a ∉ nodes links) :
    turned (Function.update slots a slot) prev links =
      Function.update (turned slots prev links) a slot := by
  induction links generalizing prev with
  | nil => rfl
  | cons l rest ih =>
      have hsplit : a ≠ l.node ∧ a ∉ nodes rest := by
        simpa [nodes, not_or] using ha
      rw [turned, turned, ih hsplit.right,
        Function.update_comm hsplit.left]

theorem setNext_of_read (next : Option Nat)
    (hread : h.read l.node = some (l.cell after)) :
    exists h', setNext h (some l.node) next = some h' ∧
      h'.slots = Function.update h.slots l.node (.live (l.cell next)) ∧
        h'.next = h.next := by
  have hderef : deref h (some l.node) = some ⟨l.data, l.dataSize, after⟩ :=
    deref_of_read hread
  rcases Heap.slots_of_write (l.cell next) hread with ⟨h', hwrite, hslots⟩
  exists h'
  constructor
  · simp only [setNext, hderef, Option.bind_eq_bind, Option.bind_some]
    exact hwrite
  · exact hslots

theorem chain_congr (hchain : Chain h after links)
    (hsame : forall a, a ∈ nodes links -> h'.slots a = h.slots a) :
    Chain h' after links := by
  induction links with
  | nil => exact trivial
  | cons l rest ih =>
      constructor
      · apply Heap.read_of_slots
        rw [hsame l.node List.mem_cons_self]
        exact Heap.slots_of_read hchain.left
      · apply ih hchain.right
        intro a ha
        exact hsame a (List.mem_cons_of_mem _ ha)

theorem turned_cons (hfirst : h'.slots =
      Function.update h.slots l.node (.live (l.cell prev)) ∧ h'.next = h.next)
    (hnode : l.node ∉ nodes rest)
    (hrest : Turned h' (some l.node) rest h'') :
    Turned h prev (l :: rest) h'' := by
  constructor
  · rw [hrest.slots, hfirst.left, turned_update hnode]
    rfl
  · rw [hrest.next, hfirst.right]

theorem setNext_turned (prev : Option Nat)
    (hread : h.read l.node = some (l.cell after))
    (hnode : l.node ∉ nodes rest)
    (hrest : Turned h (some l.node) rest h') :
    exists h'', setNext h' (some l.node) prev = some h'' ∧
      Turned h prev (l :: rest) h'' := by
  have hread' : h'.read l.node = some (l.cell after) := by
    apply Heap.read_of_slots
    rw [hrest.slots, turned_of_notMem hnode]
    exact Heap.slots_of_read hread
  rcases setNext_of_read prev hread' with ⟨h'', hset, hslots, hnext⟩
  exists h''
  constructor
  · exact hset
  · constructor
    · rw [hslots, hrest.slots]
      rfl
    · rw [hnext, hrest.next]

end Turned

/-!
## The loop and the recursions
-/

section Functions

variable {h : Heap Cell} {prev after : Option Nat} {l m : Link}
variable {rest : List Link} {fuel : Nat}

theorem nodup_cons (hnodup : (nodes (l :: rest)).Nodup) :
    l.node ∉ nodes rest ∧ (nodes rest).Nodup :=
  List.nodup_cons.mp hnodup

theorem deref_of_chain (hchain : Chain h after (l :: rest)) :
    deref h (some l.node) =
      some ⟨l.data, l.dataSize, headNode after rest⟩ :=
  deref_of_read hchain.left

theorem turnLoop_turned (prev : Option Nat)
    (hchain : Chain h none (l :: rest))
    (hnodup : (nodes (l :: rest)).Nodup) (hfuel : rest.length < fuel) :
    exists h', turnLoop fuel h prev (some l.node) =
        some (h', some (endNode l rest)) ∧
      Turned h prev (l :: rest) h' := by
  induction rest generalizing h l prev fuel with
  | nil =>
      cases fuel with
      | zero => cases hfuel
      | succ fuel =>
          have hderef := deref_of_chain hchain
          rcases setNext_of_read prev hchain.left with
            ⟨h', hset, hslots⟩
          exists h'
          constructor
          · simp only [turnLoop, hderef, Option.bind_eq_bind, Option.bind_some,
              hset, headNode, endNode]
          · exact turned_cons hslots (nodup_cons hnodup).left ⟨rfl, rfl⟩
  | cons m rest ih =>
      cases fuel with
      | zero => cases hfuel
      | succ fuel =>
          have hderef := deref_of_chain hchain
          rcases nodup_cons hnodup with ⟨hnode, hrest⟩
          rcases setNext_of_read prev hchain.left with
            ⟨h1, hset, hslots⟩
          have hchain1 : Chain h1 none (m :: rest) := by
            apply chain_congr hchain.right
            intro a ha
            rw [hslots.left]
            apply Function.update_of_ne
            intro hsame
            rw [hsame] at ha
            exact hnode ha
          rcases ih (some l.node) hchain1 hrest
            (Nat.lt_of_succ_lt_succ hfuel) with ⟨h', hloop, hturned⟩
          exists h'
          constructor
          · simp only [turnLoop, hderef, Option.bind_eq_bind, Option.bind_some,
              hset, headNode, endNode]
            exact hloop
          · exact turned_cons hslots hnode hturned

theorem lastNode_chain (hchain : Chain h none (l :: rest))
    (hfuel : rest.length < fuel) :
    lastNode h fuel (some l.node) = some (some (endNode l rest)) := by
  induction rest generalizing l fuel with
  | nil =>
      cases fuel with
      | zero => cases hfuel
      | succ fuel =>
          have hderef := deref_of_chain hchain
          simp only [lastNode, hderef, Option.bind_eq_bind, Option.bind_some,
            headNode, endNode]
  | cons m rest ih =>
      cases fuel with
      | zero => cases hfuel
      | succ fuel =>
          have hderef := deref_of_chain hchain
          have hrest := ih hchain.right (Nat.lt_of_succ_lt_succ hfuel)
          simp only [lastNode, hderef, Option.bind_eq_bind, Option.bind_some,
            headNode, endNode]
          exact hrest

theorem reverseSinglyLl2Aux_turned (hchain : Chain h none (l :: m :: rest))
    (hnodup : (nodes (l :: m :: rest)).Nodup) (hfuel : rest.length < fuel) :
    exists h', reverseSinglyLl2Aux fuel h (some l.node) = some h' ∧
      Turned h (some l.node) (m :: rest) h' := by
  induction rest generalizing l m fuel with
  | nil =>
      cases fuel with
      | zero => cases hfuel
      | succ fuel =>
          have hderef := deref_of_chain hchain
          have hderef' := deref_of_chain hchain.right
          rcases setNext_of_read (some l.node) hchain.right.left with
            ⟨h', hset, hslots⟩
          exists h'
          constructor
          · simp only [reverseSinglyLl2Aux, hderef, Option.bind_eq_bind,
              Option.bind_some, headNode, hderef', hset]
          · exact ⟨hslots.left, hslots.right⟩
  | cons k rest ih =>
      cases fuel with
      | zero => cases hfuel
      | succ fuel =>
          have hderef := deref_of_chain hchain
          have hderef' := deref_of_chain hchain.right
          rcases nodup_cons hnodup with ⟨hnode, hrest⟩
          rcases nodup_cons hrest with ⟨hnode', _⟩
          rcases ih hchain.right hrest (Nat.lt_of_succ_lt_succ hfuel) with
            ⟨h1, hrec, hturned⟩
          -- the recursion has left `head->next` alone
          have hagain : h1.read l.node = some (l.cell (some m.node)) := by
            apply Heap.read_of_slots
            rw [hturned.slots, turned_of_notMem fun hmem =>
              hnode (List.mem_cons_of_mem _ hmem)]
            exact Heap.slots_of_read hchain.left
          have hderef1 : deref h1 (some l.node) =
              some ⟨l.data, l.dataSize, some m.node⟩ := deref_of_read hagain
          rcases setNext_turned (some l.node) hchain.right.left hnode'
            hturned with ⟨h', hset, hturned'⟩
          exists h'
          constructor
          · simp only [reverseSinglyLl2Aux, hderef, Option.bind_eq_bind,
              Option.bind_some, headNode, hderef']
            rw [hrec]
            simp only [Option.bind_some, hderef1, hset]
          · exact hturned'

theorem reverseSinglyLl3Aux_turned (prev : Option Nat)
    (hchain : Chain h none (l :: rest))
    (hnodup : (nodes (l :: rest)).Nodup) (hfuel : rest.length < fuel) :
    exists h', reverseSinglyLl3Aux fuel h prev (some l.node) = some h' ∧
      Turned h prev (l :: rest) h' := by
  induction rest generalizing l prev fuel with
  | nil =>
      cases fuel with
      | zero => cases hfuel
      | succ fuel =>
          have hderef := deref_of_chain hchain
          rcases setNext_of_read prev hchain.left with
            ⟨h', hset, hslots⟩
          exists h'
          constructor
          · simp only [reverseSinglyLl3Aux, hderef, Option.bind_eq_bind,
              Option.bind_some, headNode, hset]
          · exact ⟨hslots.left, hslots.right⟩
  | cons m rest ih =>
      cases fuel with
      | zero => cases hfuel
      | succ fuel =>
          have hderef := deref_of_chain hchain
          rcases nodup_cons hnodup with ⟨hnode, hrest⟩
          rcases ih (some l.node) hchain.right hrest
            (Nat.lt_of_succ_lt_succ hfuel) with ⟨h1, hrec, hturned⟩
          rcases setNext_turned prev hchain.left hnode hturned with
            ⟨h', hset, hturned'⟩
          exists h'
          constructor
          · simp only [reverseSinglyLl3Aux, hderef, Option.bind_eq_bind,
              Option.bind_some, headNode]
            rw [hrec]
            simp only [Option.bind_some, hset]
          · exact hturned'

end Functions

/-!
## All three on a well-formed list
-/

section Reversals

variable {h h' : Heap Cell} {ll : LlT} {after : Option Nat}
variable {links acc : List Link}

theorem read_of_chain {a : Nat} (hchain : Chain h after links)
    (ha : a ∈ nodes links) : exists c, h.read a = some c := by
  induction links with
  | nil => cases ha
  | cons l rest ih =>
      rcases List.mem_cons.mp ha with hself | hrest
      · rw [hself]
        exact ⟨_, hchain.left⟩
      · exact ih hchain.right hrest

theorem length_lt_rounds (hchain : Chain h after links)
    (hnodup : (nodes links).Nodup) : links.length < rounds h := by
  have hle := Heap.length_le_next hnodup fun a ha => read_of_chain hchain ha
  rw [nodes, List.length_map] at hle
  exact Nat.lt_succ_of_le hle

theorem turned_short (hchain : Chain h none links) (hshort : links.length ≤ 1) :
    headNode none links.reverse = headNode none links ∧
      Turned h none links h := by
  cases links with
  | nil => exact ⟨rfl, rfl, rfl⟩
  | cons l rest =>
      cases rest with
      | nil =>
          have hslot := Heap.slots_of_read hchain.left
          have hsame : Function.update h.slots l.node
              (.live (l.cell none)) = h.slots := by
            rw [Function.update_eq_self_iff, hslot]
            rfl
          exact ⟨rfl, hsame.symm, rfl⟩
      | cons m rest =>
          rw [List.length_cons, List.length_cons] at hshort
          lia

theorem reverse_short (r : Reversal) (hlist : Chained h ll links)
    (hshort : links.length ≤ 1) : r.reverse h ll = some (h, ll) := by
  have hcount : ll.nodeCount = 0 ∨ ll.nodeCount = 1 := by
    rw [← hlist.count] at hshort
    rcases Nat.le_one_iff_eq_zero_or_eq_one.mp hshort with hzero | hone
    · exact Or.inl (UInt32.toNat_inj.mp hzero)
    · exact Or.inr (UInt32.toNat_inj.mp hone)
  cases r with
  | loop =>
      rcases hcount with hzero | hone
      · simp [Reversal.reverse, reverseSinglyLl, hzero]
      · simp [Reversal.reverse, reverseSinglyLl, hone]
  | second =>
      rcases hcount with hzero | hone
      · simp [Reversal.reverse, reverseSinglyLl2, hzero]
      · simp [Reversal.reverse, reverseSinglyLl2, hone]
  | third =>
      rcases hcount with hzero | hone
      · simp [Reversal.reverse, reverseSinglyLl3, hzero]
      · simp [Reversal.reverse, reverseSinglyLl3, hone]

theorem reverse_long (r : Reversal) {l m : Link} {rest : List Link}
    (hlist : Chained h ll (l :: m :: rest)) :
    exists h', r.reverse h ll =
        some (h', { ll with head := some (endNode l (m :: rest)) }) ∧
      Turned h none (l :: m :: rest) h' := by
  have hhead : ll.head = some l.node := hlist.head
  have hzero : ¬ ll.nodeCount = 0 := by
    intro hnone
    have hcount := hlist.count
    rw [hnone] at hcount
    cases hcount
  have hone : ¬ ll.nodeCount = 1 := by
    intro hsingle
    have hcount := hlist.count
    rw [hsingle] at hcount
    cases hcount
  have hchain := hlist.chain
  rcases nodup_cons hlist.nodup with ⟨hnode, hrest⟩
  have hrounds : (m :: rest).length < rounds h :=
    Nat.lt_of_succ_lt (length_lt_rounds hchain hlist.nodup)
  have hrounds' : rest.length < rounds h := Nat.lt_of_succ_lt hrounds
  have hderef := deref_of_chain hchain
  have hlast := lastNode_chain hchain hrounds
  cases r with
  | loop =>
      rcases setNext_of_read none hchain.left with ⟨h1, hset, hslots⟩
      have hchain1 : Chain h1 none (m :: rest) := by
        apply chain_congr hchain.right
        intro a ha
        rw [hslots.left]
        apply Function.update_of_ne
        intro hsame
        rw [hsame] at ha
        exact hnode ha
      have hsame : rounds h1 = rounds h := congrArg (· + 1) hslots.right
      have hfuel : rest.length < rounds h1 := by
        rw [hsame]
        exact hrounds'
      rcases turnLoop_turned (some l.node) hchain1 hrest hfuel with
        ⟨h', hloop, hturned⟩
      exists h'
      constructor
      · simp only [Reversal.reverse, reverseSinglyLl, hzero, hone, if_false,
          hhead, hderef, Option.bind_eq_bind, Option.bind_some, hset]
        rw [headNode, hloop]
        rfl
      · exact turned_cons hslots hnode hturned
  | second =>
      rcases reverseSinglyLl2Aux_turned hchain hlist.nodup hrounds' with
        ⟨h1, hrec, hturned⟩
      rcases setNext_turned none hchain.left hnode hturned with
        ⟨h', hset, hturned'⟩
      exists h'
      constructor
      · simp only [Reversal.reverse, reverseSinglyLl2, hzero, hone, if_false,
          hhead, hlast, Option.bind_eq_bind, Option.bind_some, hrec, hset]
      · exact hturned'
  | third =>
      rcases reverseSinglyLl3Aux_turned none hchain hlist.nodup
        hrounds with ⟨h', hrec, hturned⟩
      exists h'
      constructor
      · simp only [Reversal.reverse, reverseSinglyLl3, hzero, hone, if_false,
          hhead, hlast, Option.bind_eq_bind, Option.bind_some, hrec]
      · exact hturned

theorem reverse_turned (r : Reversal) (hlist : Chained h ll links) :
    exists h', r.reverse h ll =
        some (h', { ll with head := headNode none links.reverse }) ∧
      Turned h none links h' := by
  cases links with
  | nil =>
      have hnil := reverse_short r hlist (Nat.zero_le 1)
      exact ⟨h, by rw [hnil, List.reverse_nil, ← hlist.head], rfl, rfl⟩
  | cons l rest =>
      cases rest with
      | nil =>
          have hone := reverse_short r hlist (Nat.le_refl 1)
          rcases turned_short hlist.chain (Nat.le_refl 1) with ⟨hhead, hturned⟩
          exact ⟨h, by rw [hone, hhead, ← hlist.head], hturned⟩
      | cons m rest =>
          rw [headNode_reverse]
          exact reverse_long r hlist

theorem chain_of_turned {slots : Nat -> HeapSlot Cell}
    (hslots : h'.slots = turned slots (headNode none acc) links)
    (hnodup : (nodes links).Nodup) (hacc : Chain h' none acc) :
    Chain h' none (links.reverse ++ acc) := by
  induction links generalizing slots acc with
  | nil => exact hacc
  | cons l rest ih =>
      rcases nodup_cons hnodup with ⟨hnode, hrest⟩
      have hcell : h'.slots l.node = .live (l.cell (headNode none acc)) := by
        rw [hslots, turned, Function.update_self]
      have hother : h'.slots =
          turned (Function.update slots l.node
            (.live (l.cell (headNode none acc)))) (some l.node) rest := by
        rw [hslots, turned_update hnode]
        rfl
      rw [List.reverse_cons, List.append_assoc]
      exact ih hother hrest ⟨Heap.read_of_slots hcell, hacc⟩

theorem nodes_reverse (links : List Link) :
    nodes links.reverse = (nodes links).reverse := List.map_reverse

theorem slots_eq_of_chain {a : Nat} (hchain : Chain h after links)
    (hchain' : Chain h' after links) (ha : a ∈ nodes links) :
    h'.slots a = h.slots a := by
  induction links with
  | nil => cases ha
  | cons l rest ih =>
      rcases List.mem_cons.mp ha with hself | hrest
      · rw [hself, Heap.slots_of_read hchain.left,
          Heap.slots_of_read hchain'.left]
      · exact ih hchain.right hchain'.right hrest

theorem chained_of_turned (hlist : Chained h ll links)
    (hturned : Turned h none links h') :
    Chained h' { ll with head := headNode none links.reverse }
      links.reverse where
  head := rfl
  count := by
    rw [List.length_reverse]
    exact hlist.count
  chain := by
    have hnil : Chain h' none [] := trivial
    have hchain := chain_of_turned hturned.slots hlist.nodup hnil
    rw [List.append_nil] at hchain
    exact hchain
  nodup := by
    rw [nodes_reverse]
    exact List.nodup_reverse.mpr hlist.nodup

theorem eq_of_turned_twice {h'' : Heap Cell} (hlist : Chained h ll links)
    (hfirst : Turned h none links h')
    (hsecond : Turned h' none links.reverse h'') : h'' = h := by
  have hback := (chained_of_turned (chained_of_turned hlist hfirst) hsecond).chain
  rw [List.reverse_reverse] at hback
  apply Heap.eq_of_slots
  · funext a
    by_cases ha : a ∈ nodes links
    · exact slots_eq_of_chain hlist.chain hback ha
    · have ha' : a ∉ nodes links.reverse := by
        rw [nodes_reverse, List.mem_reverse]
        exact ha
      rw [hsecond.slots, turned_of_notMem ha', hfirst.slots,
        turned_of_notMem ha]
  · rw [hsecond.next, hfirst.next]

/-- The three reversals do the same to every well-formed list: they end, the
nodes are linked in the other order with what they held, nothing else is
written, and each reversal undoes each. -/
theorem reversals_agree (hlist : Chained h ll links) :
    exists h' ll', (forall r : Reversal, r.reverse h ll = some (h', ll')) ∧
      Chained h' ll' links.reverse ∧ ll'.nodeCount = ll.nodeCount ∧
        (forall a, a ∉ nodes links -> h'.slots a = h.slots a) ∧
          forall r : Reversal, r.reverse h' ll' = some (h, ll) := by
  rcases reverse_turned .loop hlist with ⟨h', hloop, hturned⟩
  have hlist' := chained_of_turned hlist hturned
  exists h', { ll with head := headNode none links.reverse }
  constructor
  · intro r
    rcases reverse_turned r hlist with ⟨other, hother, hturned'⟩
    have hsame : other = h' := by
      apply Heap.eq_of_slots
      · rw [hturned'.slots, hturned.slots]
      · rw [hturned'.next, hturned.next]
    rw [hother, hsame]
  · constructor
    · exact hlist'
    · constructor
      · rfl
      · constructor
        · intro a ha
          rw [hturned.slots, turned_of_notMem ha]
        · intro r
          rcases reverse_turned r hlist' with ⟨other, hother, hturned'⟩
          rw [hother, eq_of_turned_twice hlist hturned hturned',
            List.reverse_reverse, ← hlist.head]

end Reversals

def threeNodes : Heap Cell :=
  let h := (Heap.empty.alloc (.node ⟨some 5, 4, none⟩)).1
  let h := (h.alloc (.node ⟨none, 0, some 0⟩)).1
  (h.alloc (.node ⟨some 5, 16, some 1⟩)).1

theorem reversals_agree_three :
    exists h' ll',
      (forall r : Reversal, r.reverse threeNodes ⟨3, some 2⟩ = some (h', ll')) ∧
        Chained h' ll' [⟨0, some 5, 4⟩, ⟨1, none, 0⟩, ⟨2, some 5, 16⟩] ∧
          forall r : Reversal,
            r.reverse h' ll' = some (threeNodes, ⟨3, some 2⟩) := by
  have hlist : Chained threeNodes ⟨3, some 2⟩
      [⟨2, some 5, 16⟩, ⟨1, none, 0⟩, ⟨0, some 5, 4⟩] :=
    ⟨rfl, rfl, ⟨rfl, rfl, rfl, trivial⟩, by decide⟩
  rcases reversals_agree hlist with ⟨h', ll', hall, hlist', _, _, hback⟩
  exact ⟨h', ll', hall, hlist', hback⟩

/-!
## Reversal of payloads

For a list that owns its payloads a reversal is the reversal of its items.
-/

section Items

variable {h h' : Heap Cell} {ll : LlT} {after : Option Nat} {items : List Item}

def linkOf (h : Heap Cell) (i : Item) : Link where
  node := i.node
  data := some i.data
  dataSize := ((deref h (some i.node)).map (·.dataSize)).getD 0

theorem headNode_linkOf (after : Option Nat) (items : List Item) :
    headNode after (items.map (linkOf h)) = headOr after items := by
  cases items with
  | nil => rfl
  | cons i rest => rfl

theorem chain_linkOf (hitems : Segment h after items) :
    Chain h after (items.map (linkOf h)) := by
  induction items with
  | nil => exact trivial
  | cons i rest ih =>
      rcases hitems.left.node with ⟨dataSize, hnode⟩
      have hlink : linkOf h i = ⟨i.node, some i.data, dataSize⟩ := by
        rw [linkOf, deref_of_read hnode]
        rfl
      constructor
      · rw [headNode_linkOf, hlink]
        exact hnode
      · exact ih hitems.right

theorem nodes_linkOf : nodes (items.map (linkOf h)) = items.map (·.node) := by
  rw [nodes, List.map_map]
  rfl

theorem chained_of_owns (howns : Owns h ll items) :
    Chained h ll (items.map (linkOf h)) where
  head := by
    rw [headNode_linkOf]
    exact howns.head
  count := by
    rw [List.length_map]
    exact howns.count
  chain := chain_linkOf howns.chain
  nodup := by
    rw [nodes_linkOf]
    exact howns.nodup.sublist (nodes_sublist items)

theorem segment_of_chain
    (hchain : Chain h' after (items.map (linkOf h)))
    (hdata : forall i, i ∈ items -> h'.read i.data = some (.bytes i.payload)) :
    Segment h' after items := by
  induction items with
  | nil => exact trivial
  | cons i rest ih =>
      have hread := hchain.left
      rw [headNode_linkOf] at hread
      constructor
      · exact ⟨⟨_, hread⟩, hdata i List.mem_cons_self⟩
      · exact ih hchain.right fun j hj => hdata j (List.mem_cons_of_mem _ hj)

theorem data_of_owns (hitems : Segment h after items)
    (hnodup : (footprint items).Nodup) {i : Item} (hi : i ∈ items) :
    h.read i.data = some (.bytes i.payload) ∧
      i.data ∉ items.map (·.node) := by
  induction items with
  | nil => cases hi
  | cons j rest ih =>
      rw [footprint_cons, List.nodup_cons, List.nodup_cons,
        List.mem_cons, not_or] at hnodup
      rcases hnodup with ⟨⟨hjj, hjrest⟩, hdata, hrest⟩
      rcases List.mem_cons.mp hi with hself | hmem
      · rw [hself, List.map_cons, List.mem_cons, not_or]
        constructor
        · exact hitems.left.data
        · exact ⟨Ne.symm hjj, fun hnode =>
            hdata ((nodes_sublist rest).subset hnode)⟩
      · rcases ih hitems.right hrest hmem with ⟨hread, hnode⟩
        rw [List.map_cons, List.mem_cons, not_or]
        constructor
        · exact hread
        · constructor
          · intro hsame
            apply hjrest
            rw [← hsame]
            exact List.mem_flatMap.mpr ⟨i, hmem, by simp⟩
          · exact hnode

theorem owns_reverse (r : Reversal) (howns : Owns h ll items) :
    exists h' ll', r.reverse h ll = some (h', ll') ∧
      Owns h' ll' items.reverse := by
  have hlist := chained_of_owns howns
  rcases reverse_turned r hlist with ⟨h', hcall, hturned⟩
  have hlist' := chained_of_turned hlist hturned
  rw [← List.map_reverse, headNode_linkOf] at hcall
  exists h', { ll with head := headOr none items.reverse }
  constructor
  · exact hcall
  · constructor
    · rfl
    · rw [List.length_reverse]
      exact howns.count
    · have hchain := hlist'.chain
      rw [← List.map_reverse] at hchain
      apply segment_of_chain hchain
      intro i hi
      rcases data_of_owns howns.chain howns.nodup (List.mem_reverse.mp hi) with
        ⟨hread, hnode⟩
      apply Heap.read_of_slots
      rw [hturned.slots, turned_of_notMem (by rw [nodes_linkOf]; exact hnode)]
      exact Heap.slots_of_read hread
    · have hperm : (footprint items.reverse).Perm (footprint items) :=
        (List.reverse_perm items).flatMap_right _
      exact hperm.nodup_iff.mpr howns.nodup

end Items

end HeapList
end RIBDriver
