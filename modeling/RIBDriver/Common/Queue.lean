import Mathlib.Logic.Function.Basic

/-!
# The ring buffer of kernel threads

The queue of `Queue.c`: an array of slots filled downwards from `front` to
`rear`, both indices wrapping below zero.  An empty queue and a queue of one
element have the same index pair, so the first insertion and the last removal
do not move an index.
-/

namespace RIBDriver

def qDefaultSize : Nat := 50

/-- The memory of `struct Queue_t`; a slot holding `NULL` is `none`. -/
structure QueueT (elem : Type _) where
  elem : Nat -> Option elem
  front : Nat
  rear : Nat
  count : Nat
  sem : Nat

namespace QueueT

variable {alpha : Type _}

def initQ : QueueT alpha where
  elem := fun _ => none
  front := qDefaultSize - 1
  rear := qDefaultSize - 1
  count := 0
  sem := 1

def isQueueEmpty (q : QueueT alpha) : Bool := q.count == 0

def isQueueFull (q : QueueT alpha) : Bool := q.count == qDefaultSize

def insertAt (q : QueueT alpha) (slot : Nat) (ptr : alpha) : QueueT alpha :=
  { q with
    elem := Function.update q.elem slot (some ptr)
    rear := slot
    count := q.count + 1 }

/-- The C function returns 1 on success; a `NULL` pointer and a full queue are
refused with 0. -/
def enqueue (q : QueueT alpha) : Option alpha -> QueueT alpha × Nat
  | none => (q, 0)
  | some ptr =>
      if q.isQueueFull then (q, 0)
      else if q.isQueueEmpty then (q.insertAt q.rear ptr, 1)
      else if q.rear = 0 then
        if q.front = qDefaultSize - 1 ∧ q.isQueueFull then (q, 0)
        else (q.insertAt (qDefaultSize - 1) ptr, 1)
      else (q.insertAt (q.rear - 1) ptr, 1)

def deque (q : QueueT alpha) : QueueT alpha × Option alpha :=
  if q.isQueueEmpty then (q, none)
  else
    let taken := { q with
      elem := Function.update q.elem q.front none
      count := q.count - 1 }
    -- the last element leaves without moving an index
    if q.front = q.rear then (taken, q.elem q.front)
    else if q.front = 0 then
      ({ taken with front := qDefaultSize - 1 }, q.elem q.front)
    else ({ taken with front := q.front - 1 }, q.elem q.front)

/-!
## The elements of a ring

The element `i` places behind the oldest one lies `i` slots below `front`,
modulo the size.
-/

def slotBelow (front i : Nat) : Nat :=
  if i ≤ front then front - i else front + qDefaultSize - i

theorem slotBelow_zero (front : Nat) : slotBelow front 0 = front := by
  simp [slotBelow]

theorem slotBelow_lt {front i : Nat} (hfront : front < qDefaultSize)
    (hi : i < qDefaultSize) : slotBelow front i < qDefaultSize := by
  unfold slotBelow
  split <;> lia

theorem slotBelow_inj {front i j : Nat}
    (hi : i < qDefaultSize) (hj : j < qDefaultSize)
    (h : slotBelow front i = slotBelow front j) : i = j := by
  unfold slotBelow at h
  split at h <;> split at h <;> lia

theorem slotBelow_succ (front : Nat) {i : Nat} (hi : i + 1 < qDefaultSize) :
    slotBelow front (i + 1) =
      if slotBelow front i = 0 then qDefaultSize - 1
      else slotBelow front i - 1 := by
  unfold slotBelow
  split <;> split <;> split <;> lia

theorem slotBelow_front_succ {front i : Nat} (hi : i + 1 < qDefaultSize) :
    slotBelow (if front = 0 then qDefaultSize - 1 else front - 1) i =
      slotBelow front (i + 1) := by
  have hsize : qDefaultSize = 50 := rfl
  unfold slotBelow
  split <;> split <;> split <;> lia

/-- The ring `q` stores the elements `items`, oldest first. -/
structure Stores (q : QueueT alpha) (items : List alpha) : Prop where
  count_eq : q.count = items.length
  count_le : q.count ≤ qDefaultSize
  front_lt : q.front < qDefaultSize
  rear_eq : q.rear = slotBelow q.front (q.count - 1)
  stored : forall i, i < q.count -> q.elem (slotBelow q.front i) = items[i]?
  vacant : forall slot,
    (forall i, i < q.count -> slot ≠ slotBelow q.front i) -> q.elem slot = none

theorem stores_initQ : Stores (initQ : QueueT alpha) [] where
  count_eq := rfl
  count_le := Nat.zero_le _
  front_lt := by simp [initQ, qDefaultSize]
  rear_eq := rfl
  stored := by
    intro i hi
    cases hi
  vacant := fun _ _ => rfl

theorem Stores.rear_lt {q : QueueT alpha} {items : List alpha}
    (h : Stores q items) : q.rear < qDefaultSize := by
  have hsize : qDefaultSize = 50 := rfl
  have hcount := h.count_le
  rw [h.rear_eq]
  exact slotBelow_lt h.front_lt (by lia)

theorem isQueueEmpty_iff {q : QueueT alpha} {items : List alpha}
    (h : Stores q items) : q.isQueueEmpty = true <-> items = [] := by
  simp [isQueueEmpty, h.count_eq]

theorem isQueueFull_iff {q : QueueT alpha} {items : List alpha}
    (h : Stores q items) :
    q.isQueueFull = true <-> items.length = qDefaultSize := by
  simp [isQueueFull, h.count_eq]

theorem front_eq_rear_iff {q : QueueT alpha} {items : List alpha}
    (h : Stores q items) : q.front = q.rear <-> items.length ≤ 1 := by
  have hsize : qDefaultSize = 50 := rfl
  have hcount := h.count_le
  have hfront := h.front_lt
  rw [h.rear_eq, ← h.count_eq]
  constructor
  · intro heq
    by_contra hlarge
    have hzero : slotBelow q.front 0 = slotBelow q.front (q.count - 1) := by
      rw [slotBelow_zero]
      exact heq
    have hindex := slotBelow_inj (by lia) (by lia) hzero
    lia
  · intro hsmall
    rw [show q.count - 1 = 0 by lia, slotBelow_zero]

theorem stores_insertAt {q : QueueT alpha} {items : List alpha} {slot : Nat}
    (h : Stores q items) (hroom : items.length < qDefaultSize)
    (hslot : slot = slotBelow q.front q.count) (ptr : alpha) :
    Stores (q.insertAt slot ptr) (items ++ [ptr]) where
  count_eq := by simp [insertAt, h.count_eq]
  count_le := by
    have hcount := h.count_eq
    simp only [insertAt]
    lia
  front_lt := h.front_lt
  rear_eq := by simpa [insertAt] using hslot
  stored := by
    intro i hi
    have hcount := h.count_eq
    have hfront := h.front_lt
    simp only [insertAt] at hi ⊢
    by_cases hlast : i = q.count
    · rw [hlast, ← hslot, Function.update_self, hcount]
      simp
    · have hne : slotBelow q.front i ≠ slot := by
        intro heq
        exact hlast (slotBelow_inj (by lia) (by lia)
          (heq.trans hslot))
      rw [Function.update_of_ne hne, h.stored i (by lia),
        List.getElem?_append_left (by lia)]
  vacant := by
    intro other hother
    simp only [insertAt] at hother ⊢
    have hne : other ≠ slot := by
      rw [hslot]
      exact hother q.count (by lia)
    rw [Function.update_of_ne hne]
    exact h.vacant other (fun i hi => hother i (by lia))

theorem enqueue_null (q : QueueT alpha) : q.enqueue none = (q, 0) := rfl

theorem enqueue_full {q : QueueT alpha} {items : List alpha}
    (h : Stores q items) (hfull : items.length = qDefaultSize) (ptr : alpha) :
    q.enqueue (some ptr) = (q, 0) := by
  simp [enqueue, (isQueueFull_iff h).mpr hfull]

theorem enqueue_room {q : QueueT alpha} {items : List alpha}
    (h : Stores q items) (hroom : items.length < qDefaultSize) (ptr : alpha) :
    (q.enqueue (some ptr)).2 = 1 ∧
      Stores (q.enqueue (some ptr)).1 (items ++ [ptr]) := by
  have hsize : qDefaultSize = 50 := rfl
  have hcount := h.count_eq
  have hnotFull : ¬ q.isQueueFull = true := by
    rw [isQueueFull_iff h]
    lia
  simp only [enqueue, if_neg hnotFull]
  by_cases hempty : q.isQueueEmpty = true
  · have hitems := (isQueueEmpty_iff h).mp hempty
    rw [if_pos hempty]
    refine ⟨rfl, stores_insertAt h hroom ?_ ptr⟩
    rw [h.rear_eq, hcount, hitems]
    rfl
  · have hpos : 0 < q.count := by
      have hne : items ≠ [] := fun hnil => hempty ((isQueueEmpty_iff h).mpr hnil)
      rw [hcount]
      exact List.length_pos_iff.mpr hne
    have hnext := slotBelow_succ q.front (i := q.count - 1) (by lia)
    rw [← h.rear_eq, show q.count - 1 + 1 = q.count by lia] at hnext
    rw [if_neg hempty]
    by_cases hrear : q.rear = 0
    · rw [if_pos hrear] at hnext ⊢
      rw [if_neg (fun hboth => hnotFull hboth.right)]
      exact ⟨rfl, stores_insertAt h hroom hnext.symm ptr⟩
    · rw [if_neg hrear] at hnext ⊢
      exact ⟨rfl, stores_insertAt h hroom hnext.symm ptr⟩

theorem deque_empty {q : QueueT alpha} (h : Stores q []) :
    q.deque = (q, none) := by
  simp [deque, (isQueueEmpty_iff h).mpr rfl]

theorem stores_removeFront {q : QueueT alpha} {x : alpha} {items : List alpha}
    (h : Stores q (x :: items)) {newFront : Nat}
    (hfront : newFront < qDefaultSize)
    (hslots : forall i, i < items.length ->
      slotBelow newFront i = slotBelow q.front (i + 1))
    (hrear : q.rear = slotBelow newFront (items.length - 1)) :
    Stores { q with
      elem := Function.update q.elem q.front none
      count := q.count - 1
      front := newFront } items := by
  have hcount : q.count = items.length + 1 := h.count_eq
  have hle := h.count_le
  have hmoved : forall i, i < items.length ->
      slotBelow newFront i ≠ q.front := by
    intro i hi heq
    rw [hslots i hi] at heq
    have hzero := slotBelow_inj (i := i + 1) (j := 0)
      (by lia) (by lia) (heq.trans (slotBelow_zero q.front).symm)
    lia
  exact
    { count_eq := by simp [hcount]
      count_le := by
        show q.count - 1 ≤ qDefaultSize
        lia
      front_lt := hfront
      rear_eq := by simpa [hcount] using hrear
      stored := by
        intro i hi
        have hi' : i < items.length := by
          simp only [hcount] at hi
          lia
        show Function.update q.elem q.front none (slotBelow newFront i) = _
        rw [Function.update_of_ne (hmoved i hi'), hslots i hi',
          h.stored (i + 1) (by lia), List.getElem?_cons_succ]
      vacant := by
        intro slot hslot
        show Function.update q.elem q.front none slot = none
        by_cases hself : slot = q.front
        · rw [hself, Function.update_self]
        · rw [Function.update_of_ne hself]
          apply h.vacant
          intro i hi
          cases i with
          | zero =>
              rw [slotBelow_zero]
              exact hself
          | succ i =>
              have hi' : i < items.length := by lia
              rw [← hslots i hi']
              exact hslot i (by simpa [hcount] using hi') }

theorem deque_cons {q : QueueT alpha} {x : alpha} {items : List alpha}
    (h : Stores q (x :: items)) :
    q.deque.2 = some x ∧ Stores q.deque.1 items := by
  have hsize : qDefaultSize = 50 := rfl
  have hcount : q.count = items.length + 1 := h.count_eq
  have hle := h.count_le
  have hfront := h.front_lt
  have hnotEmpty : ¬ q.isQueueEmpty = true := by
    simp [isQueueEmpty_iff h]
  have holdest : q.elem q.front = some x := by
    have hzero := h.stored 0 (by lia)
    rw [slotBelow_zero] at hzero
    exact hzero
  simp only [deque, if_neg hnotEmpty]
  by_cases hsingle : q.front = q.rear
  · have hlen : items.length = 0 := by
      have hone := (front_eq_rear_iff h).mp hsingle
      simp only [List.length_cons] at hone
      lia
    rw [if_pos hsingle]
    refine ⟨holdest, stores_removeFront h hfront ?_ ?_⟩
    · intro i hi
      lia
    · rw [hlen, ← hsingle, slotBelow_zero]
  · have hmany : 0 < items.length := by
      by_contra hzero
      have hshort : (x :: items).length ≤ 1 := by
        simp only [List.length_cons]
        lia
      exact hsingle ((front_eq_rear_iff h).mpr hshort)
    have hslots : forall i, i < items.length ->
        slotBelow (if q.front = 0 then qDefaultSize - 1 else q.front - 1) i =
          slotBelow q.front (i + 1) :=
      fun i hi => slotBelow_front_succ (by lia)
    have hrear : q.rear =
        slotBelow (if q.front = 0 then qDefaultSize - 1 else q.front - 1)
          (items.length - 1) := by
      rw [hslots (items.length - 1) (by lia), h.rear_eq]
      congr 1
      lia
    rw [if_neg hsingle]
    by_cases hzero : q.front = 0
    · rw [if_pos hzero] at hslots hrear ⊢
      exact ⟨holdest, stores_removeFront h (by lia) hslots hrear⟩
    · rw [if_neg hzero] at hslots hrear ⊢
      exact ⟨holdest, stores_removeFront h (by lia) hslots hrear⟩

end QueueT

/-!
## Queues that carry their contents

Outside this file a queue is a ring together with the list it stores, so that
no other ring can be built and a proof about a client of the queue speaks of
the list.
-/

structure KernelQueue (alpha : Type _) where
  ring : QueueT alpha
  items : List alpha
  stores : QueueT.Stores ring items

namespace KernelQueue

variable {alpha : Type _}

def initQ : KernelQueue alpha where
  ring := QueueT.initQ
  items := []
  stores := QueueT.stores_initQ

def enqueue (q : KernelQueue alpha) (ptr : alpha) : KernelQueue alpha where
  ring := (q.ring.enqueue (some ptr)).1
  items :=
    if q.items.length < qDefaultSize then q.items ++ [ptr] else q.items
  stores := by
    by_cases hroom : q.items.length < qDefaultSize
    · rw [if_pos hroom]
      exact (QueueT.enqueue_room q.stores hroom ptr).right
    · have hle := q.stores.count_le
      have hcount := q.stores.count_eq
      rw [if_neg hroom, QueueT.enqueue_full q.stores (by lia)]
      exact q.stores

def deque (q : KernelQueue alpha) : KernelQueue alpha where
  ring := q.ring.deque.1
  items := q.items.tail
  stores := by
    cases hitems : q.items with
    | nil =>
        have hempty : QueueT.Stores q.ring [] := hitems ▸ q.stores
        rw [QueueT.deque_empty hempty]
        exact hempty
    | cons x rest => exact (QueueT.deque_cons (hitems ▸ q.stores)).right

/-- What `deque` returns: the kernel thread taken, or `NULL`. -/
def taken (q : KernelQueue alpha) : Option alpha := q.ring.deque.2

/-- `down` and `up` of the semaphore inside the queue. -/
def setSem (q : KernelQueue alpha) (n : Nat) : KernelQueue alpha where
  ring := { q.ring with sem := n }
  items := q.items
  stores :=
    { count_eq := q.stores.count_eq
      count_le := q.stores.count_le
      front_lt := q.stores.front_lt
      rear_eq := q.stores.rear_eq
      stored := q.stores.stored
      vacant := q.stores.vacant }

theorem taken_eq_head? (q : KernelQueue alpha) : q.taken = q.items.head? := by
  cases hitems : q.items with
  | nil =>
      rw [taken, QueueT.deque_empty (hitems ▸ q.stores)]
      rfl
  | cons x rest => exact (QueueT.deque_cons (hitems ▸ q.stores)).left

theorem enqueue_eq_one_iff (q : KernelQueue alpha) (ptr : alpha) :
    (q.ring.enqueue (some ptr)).2 = 1 <-> q.items.length < qDefaultSize := by
  by_cases hroom : q.items.length < qDefaultSize
  · simp [(QueueT.enqueue_room q.stores hroom ptr).left, hroom]
  · have hle := q.stores.count_le
    have hcount := q.stores.count_eq
    rw [QueueT.enqueue_full q.stores (by lia)]
    simp [hroom]

theorem isQueueFull_eq_false_iff (q : KernelQueue alpha) :
    q.ring.isQueueFull = false <-> q.items.length < qDefaultSize := by
  have hle := q.stores.count_le
  have hcount := q.stores.count_eq
  have hfull := QueueT.isQueueFull_iff q.stores
  rw [← Bool.not_eq_true, hfull]
  lia

theorem mem_items_iff (q : KernelQueue alpha) (ptr : alpha) :
    ptr ∈ q.items <-> exists slot, q.ring.elem slot = some ptr := by
  have hcount := q.stores.count_eq
  constructor
  · intro hmem
    rcases List.getElem?_of_mem hmem with ⟨i, hi⟩
    rcases List.getElem?_eq_some_iff.mp hi with ⟨hlt, _⟩
    exact ⟨_, (q.stores.stored i (by lia)).trans hi⟩
  · intro h
    rcases h with ⟨slot, hslot⟩
    by_cases hin : exists i, i < q.ring.count ∧
        slot = QueueT.slotBelow q.ring.front i
    · rcases hin with ⟨i, hi, hslotEq⟩
      rw [hslotEq, q.stores.stored i hi] at hslot
      exact List.mem_of_getElem? hslot
    · have hvacant := q.stores.vacant slot
        (fun i hi heq => hin ⟨i, hi, heq⟩)
      rw [hvacant] at hslot
      cases hslot

theorem count_eq_length (q : KernelQueue alpha) :
    q.ring.count = q.items.length := q.stores.count_eq

theorem length_le (q : KernelQueue alpha) : q.items.length ≤ qDefaultSize := by
  rw [← q.count_eq_length]
  exact q.stores.count_le

theorem isQueueEmpty_iff (q : KernelQueue alpha) :
    q.ring.isQueueEmpty = true <-> q.items = [] :=
  QueueT.isQueueEmpty_iff q.stores

@[simp] theorem enqueue_items (q : KernelQueue alpha) (ptr : alpha) :
    (q.enqueue ptr).items =
      if q.items.length < qDefaultSize then q.items ++ [ptr] else q.items := rfl

@[simp] theorem deque_items (q : KernelQueue alpha) :
    q.deque.items = q.items.tail := rfl

@[simp] theorem setSem_items (q : KernelQueue alpha) (n : Nat) :
    (q.setSem n).items = q.items := rfl

end KernelQueue
end RIBDriver
