import Mathlib.Data.List.Basic
import RIBDriver.Library.Heap

/-!
# Singly linked lists in the heap

`LinkedListApi.c` on nodes and payloads that are cells of one heap.  `none` is
a fault: an access through `NULL` or to a freed cell, a second free, a
comparison beyond a payload, or a loop that does not end.
-/

namespace RIBDriver
namespace HeapList

/-- `struct singly_ll_node_t`. -/
structure Node where
  data : Option Nat
  dataSize : UInt32
  next : Option Nat

inductive Cell where
  | node (n : Node)
  | bytes (payload : List UInt8)

/-- `struct ll_t`. -/
structure LlT where
  nodeCount : UInt32
  head : Option Nat

inductive RcT where
  | llSuccess
  | llFailure
deriving DecidableEq

/-!
## Access through pointers
-/

def deref (h : Heap Cell) : Option Nat -> Option Node
  | none => none
  | some a =>
      match h.read a with
      | some (.node n) => some n
      | _ => none

def kfree (h : Heap Cell) : Option Nat -> Option (Heap Cell)
  | none => some h
  | some a => h.free a

def agree (payload key : List UInt8) (size : UInt32) : Bool :=
  payload.take size.toNat == key.take size.toNat

/-- `memcmp(ptr, key, size) == 0`. -/
def memcmp (h : Heap Cell) (ptr : Option Nat) (key : List UInt8)
    (size : UInt32) : Option Bool :=
  match ptr with
  | none => none
  | some a =>
      match h.read a with
      | some (.bytes payload) =>
          if size.toNat ≤ payload.length ∧ size.toNat ≤ key.length then
            some (agree payload key size)
          else none
      | _ => none

/-- More rounds than any loop over a chain of distinct nodes takes. -/
def rounds (h : Heap Cell) : Nat := h.next + 1

/-!
## The functions
-/

def initSinglyLl : LlT where
  nodeCount := 0
  head := none

def singlyLlInitNode (h : Heap Cell) : Heap Cell × Nat :=
  h.alloc (.node { data := none, dataSize := 0, next := none })

def singlyLlAddNode (h : Heap Cell) (ll : LlT) (node : Nat) :
    Option (Heap Cell × LlT × RcT) :=
  match ll.head with
  | none =>
      some (h, { nodeCount := ll.nodeCount + 1, head := some node }, .llSuccess)
  | some _ => do
      let n <- deref h (some node)
      let h <- h.write node (.node { n with next := ll.head })
      some (h, { nodeCount := ll.nodeCount + 1, head := some node }, .llSuccess)

def singlyLlAddNodeByVal (h : Heap Cell) (ll : LlT) (data : List UInt8)
    (dataSize : UInt32) : Option (Heap Cell × LlT × RcT) :=
  if dataSize.toNat ≤ data.length then do
    let (h, node) := singlyLlInitNode h
    let (h, ptr) := h.alloc (.bytes (data.take dataSize.toNat))
    let n <- deref h (some node)
    let h <- h.write node
      (.node { n with data := some ptr, dataSize := dataSize })
    singlyLlAddNode h ll node
  else none

/-- The loop of `singly_ll_is_value_present` and of the two functions that
search before they delete: the first node whose payload matches. -/
def findValue (h : Heap Cell) (key : List UInt8) (size : UInt32) :
    Nat -> Option Nat -> Option (Option Nat)
  | 0, _ => none
  | _ + 1, none => some none
  | fuel + 1, some trav => do
      let n <- deref h (some trav)
      if <- memcmp h n.data key size then some (some trav)
      else findValue h key size fuel n.next

def singlyLlIsValuePresent (h : Heap Cell) (ll : LlT) (data : List UInt8)
    (dataSize : UInt32) : Option (Option Nat) :=
  findValue h data dataSize (rounds h) ll.head

/-- `while(trav->next != node)`. -/
def chase (h : Heap Cell) (node : Nat) : Nat -> Option Nat -> Option Nat
  | 0, _ => none
  | _ + 1, none => none
  | fuel + 1, some trav => do
      let n <- deref h (some trav)
      if n.next = some node then some trav else chase h node fuel n.next

/-- A node that is not the last takes over the payload of its successor, which
is freed in its place.  The result, `LL_SUCCESS`, is ignored by the caller. -/
def singlyLlDeleteNode (h : Heap Cell) (ll : LlT) (node : Nat) :
    Option (Heap Cell × LlT) :=
  match ll.head with
  | none => some (h, ll)
  | some head => do
      let n <- deref h (some node)
      match n.next with
      | some temp =>
          let h <- kfree h n.data
          let successor <- deref h (some temp)
          -- `data_size` stays that of the payload just freed
          let h <- h.write node
            (.node { n with data := successor.data, next := successor.next })
          let h <- kfree h (some temp)
          some (h, { ll with nodeCount := ll.nodeCount - 1 })
      | none =>
          if ll.nodeCount = 1 ∧ head = node then
            let h <- kfree h n.data
            let h <- kfree h (some node)
            some (h, { nodeCount := ll.nodeCount - 1, head := none })
          else
            let trav <- chase h node (rounds h) ll.head
            let t <- deref h (some trav)
            let h <- h.write trav (.node { t with next := none })
            let h <- kfree h n.data
            let h <- kfree h (some node)
            some (h, { ll with nodeCount := ll.nodeCount - 1 })

/-- The number of nodes deleted comes last. -/
def singlyLlDeleteNodeByValue (h : Heap Cell) (ll : LlT) (key : List UInt8)
    (size : UInt32) : Option (Heap Cell × LlT × UInt32) :=
  match ll.head with
  | none => some (h, ll, 0)
  | some _ => do
      match <- findValue h key size (rounds h) ll.head with
      | none => some (h, ll, ll.nodeCount - ll.nodeCount)
      | some trav =>
          let (h, ll') <- singlyLlDeleteNode h ll trav
          some (h, ll', ll.nodeCount - ll'.nodeCount)

/-- The loop of `singly_ll_remove_node`; `some none` if it ends without the
node. -/
def unlink (h : Heap Cell) (node : Nat) (count : UInt32) :
    Nat -> UInt32 -> Nat -> Option Nat -> Option (Option (Heap Cell))
  | 0, _, _, _ => none
  | fuel + 1, i, prev, head =>
      if i < count then
        if head = some node then do
          let p <- deref h (some prev)
          let n <- deref h head
          let h <- h.write prev (.node { p with next := n.next })
          let h <- h.write node (.node { n with next := none })
          some (some h)
        else
          match head with
          | none => none
          | some a => do
              let n <- deref h (some a)
              unlink h node count fuel (i + 1) a n.next
      else some none

def singlyLlRemoveNode (h : Heap Cell) (ll : LlT) (node : Nat) :
    Option (Heap Cell × LlT × RcT) :=
  match ll.head with
  | none => some (h, ll, .llSuccess)
  | some head => do
      let n <- deref h (some head)
      if head = node then
        let h <- h.write node (.node { n with next := none })
        some (h, { nodeCount := ll.nodeCount - 1, head := n.next }, .llSuccess)
      else
        match <- unlink h node ll.nodeCount (rounds h) 1 head n.next with
        | some h =>
            some (h, { ll with nodeCount := ll.nodeCount - 1 }, .llSuccess)
        | none => some (h, ll, .llFailure)

/-- The node is freed, its payload is not. -/
def singlyLlRemoveNodeByValue (h : Heap Cell) (ll : LlT) (key : List UInt8)
    (keySize : UInt32) : Option (Heap Cell × LlT × UInt32) :=
  match ll.head with
  | none => some (h, ll, 0)
  | some _ => do
      match <- findValue h key keySize (rounds h) ll.head with
      | none => some (h, ll, ll.nodeCount - ll.nodeCount)
      | some trav =>
          let (h, ll', _) <- singlyLlRemoveNode h ll trav
          let h <- kfree h (some trav)
          some (h, ll', ll.nodeCount - ll'.nodeCount)

/-- The loop of `delete_singly_ll`. -/
def freeNodes : Nat -> Heap Cell -> Option Nat -> Option Nat ->
    Option (Heap Cell)
  | 0, _, _, _ => none
  | fuel + 1, h, head, next => do
      let n <- deref h head
      let h <- kfree h n.data
      let h <- kfree h head
      match next with
      | none => some h
      | some _ =>
          let n <- deref h next
          freeNodes fuel h next n.next

def deleteSinglyLl (h : Heap Cell) (ll : LlT) : Option (Heap Cell × LlT) :=
  if ll.nodeCount = 0 then some (h, ll)
  else do
    let n <- deref h ll.head
    let h <- freeNodes (rounds h) h ll.head n.next
    some (h, { nodeCount := 0, head := none })

/-- `rt_poll` moves the nodes of `src` to `dst` if `dst` is empty. -/
def moveNodes (dst src : LlT) : LlT × LlT :=
  if dst.nodeCount = 0 then (src, { nodeCount := 0, head := none })
  else (dst, src)

/-!
## Calls on any number of lists
-/

structure Memory where
  heap : Heap Cell
  lists : List LlT

def Memory.init : Memory where
  heap := Heap.empty
  lists := []

inductive Call where
  | init
  | add (l : Nat) (data : List UInt8) (size : UInt32)
  | delete (l : Nat) (key : List UInt8) (size : UInt32)
  | remove (l : Nat) (key : List UInt8) (size : UInt32)
  | find (l : Nat) (key : List UInt8) (size : UInt32)
  | empty (l : Nat)
  | move (dst src : Nat)
deriving DecidableEq

/-- `found` is what the caller reads through the pointer it gets. -/
inductive Answer where
  | list (l : Nat)
  | code (rc : RcT)
  | count (n : UInt32)
  | found (payload : Option (List UInt8))
  | done
deriving DecidableEq

namespace Memory

def onList (m : Memory) (l : Nat)
    (f : Heap Cell -> LlT -> Option (Heap Cell × LlT × Answer)) :
    Option (Memory × Answer) := do
  let ll <- m.lists[l]?
  let (h, ll, answer) <- f m.heap ll
  some ({ heap := h, lists := m.lists.set l ll }, answer)

def payload (h : Heap Cell) (node : Nat) : Option (List UInt8) := do
  let n <- deref h (some node)
  let ptr <- n.data
  match h.read ptr with
  | some (.bytes payload) => some payload
  | _ => none

def call (m : Memory) : Call -> Option (Memory × Answer)
  | .init =>
      some ({ m with lists := m.lists ++ [initSinglyLl] },
        .list m.lists.length)
  | .add l data size => m.onList l fun h ll => do
      let (h, ll, rc) <- singlyLlAddNodeByVal h ll data size
      some (h, ll, .code rc)
  | .delete l key size => m.onList l fun h ll => do
      let (h, ll, n) <- singlyLlDeleteNodeByValue h ll key size
      some (h, ll, .count n)
  | .remove l key size => m.onList l fun h ll => do
      let (h, ll, n) <- singlyLlRemoveNodeByValue h ll key size
      some (h, ll, .count n)
  | .find l key size => m.onList l fun h ll => do
      match <- singlyLlIsValuePresent h ll key size with
      | none => some (h, ll, .found none)
      | some node =>
          let found <- payload h node
          some (h, ll, .found (some found))
  | .empty l => m.onList l fun h ll => do
      let (h, ll) <- deleteSinglyLl h ll
      some (h, ll, .done)
  | .move dst src => do
      let target <- m.lists[dst]?
      let source <- m.lists[src]?
      let (target, source) := moveNodes target source
      some ({ m with lists := (m.lists.set dst target).set src source }, .done)

end Memory

end HeapList
end RIBDriver
