import RIBDriver.Common.Queue
import RIBDriver.Library.Refinement

/-!
# The ring buffer as a bounded queue

What `Queue.c` is for: a first-in first-out queue of at most `Q_DEFAULT_SIZE`
pointers that are not `NULL`.
-/

namespace RIBDriver

variable {alpha : Type _}

inductive QueueOp (alpha : Type _) where
  | enqueue (ptr : Option alpha)
  | deque

inductive QueueAnswer (alpha : Type _) where
  | code (rc : Nat)
  | ptr (elem : Option alpha)

namespace QueueT

def call (q : QueueT alpha) :
    QueueOp alpha -> QueueT alpha × QueueAnswer alpha
  | .enqueue ptr => ((q.enqueue ptr).1, .code (q.enqueue ptr).2)
  | .deque => (q.deque.1, .ptr q.deque.2)

end QueueT

namespace Fifo

/-- A pointer that is not `NULL` is accepted while there is room. -/
def enqueue (items : List alpha) : Option alpha -> List alpha × Nat
  | none => (items, 0)
  | some ptr =>
      if items.length < qDefaultSize then (items ++ [ptr], 1) else (items, 0)

def deque (items : List alpha) : List alpha × Option alpha :=
  (items.tail, items.head?)

def call (items : List alpha) :
    QueueOp alpha -> List alpha × QueueAnswer alpha
  | .enqueue ptr => ((enqueue items ptr).1, .code (enqueue items ptr).2)
  | .deque => ((deque items).1, .ptr (deque items).2)

end Fifo

namespace QueueT

theorem enqueue_refines {q : QueueT alpha} {items : List alpha}
    (h : Stores q items) (ptr : Option alpha) :
    (q.enqueue ptr).2 = (Fifo.enqueue items ptr).2 ∧
      Stores (q.enqueue ptr).1 (Fifo.enqueue items ptr).1 := by
  cases ptr with
  | none =>
      rw [enqueue_null]
      exact ⟨rfl, h⟩
  | some ptr =>
      unfold Fifo.enqueue
      by_cases hroom : items.length < qDefaultSize
      · simp only [hroom, if_true]
        exact enqueue_room h hroom ptr
      · have hfull : items.length = qDefaultSize := by
          have hcount := h.count_eq
          have hle := h.count_le
          lia
        simp only [hroom, if_false]
        rw [enqueue_full h hfull]
        exact ⟨rfl, h⟩

theorem deque_refines {q : QueueT alpha} {items : List alpha}
    (h : Stores q items) :
    q.deque.2 = (Fifo.deque items).2 ∧
      Stores q.deque.1 (Fifo.deque items).1 := by
  cases items with
  | nil =>
      rw [deque_empty h]
      exact ⟨rfl, h⟩
  | cons x rest => exact deque_cons h

theorem call_refines (q : QueueT alpha) (items : List alpha)
    (op : QueueOp alpha) (h : Stores q items) :
    (q.call op).2 = (Fifo.call items op).2 ∧
      Stores (q.call op).1 (Fifo.call items op).1 := by
  cases op with
  | enqueue ptr =>
      rcases enqueue_refines h ptr with ⟨hcode, hstores⟩
      exact ⟨congrArg QueueAnswer.code hcode, hstores⟩
  | deque =>
      rcases deque_refines h with ⟨hptr, hstores⟩
      exact ⟨congrArg QueueAnswer.ptr hptr, hstores⟩

theorem enqueue_refused {q : QueueT alpha} {items : List alpha}
    (h : Stores q items) {ptr : Option alpha}
    (hrefused : (q.enqueue ptr).2 = 0) : (q.enqueue ptr).1 = q := by
  cases ptr with
  | none => rfl
  | some ptr =>
      by_cases hroom : items.length < qDefaultSize
      · rw [(enqueue_room h hroom ptr).left] at hrefused
        cases hrefused
      · have hfull : items.length = qDefaultSize := by
          have hcount := h.count_eq
          have hle := h.count_le
          lia
        rw [enqueue_full h hfull]

/-- The ring `q` is what the bounded queue `items` looks like in memory. -/
structure Represents (q : QueueT alpha) (items : List alpha) : Prop where
  stores : Stores q items
  rear_lt : q.rear < qDefaultSize
  single : q.front = q.rear <-> items.length ≤ 1
  refused : forall ptr, (q.enqueue ptr).2 = 0 -> (q.enqueue ptr).1 = q

/-- A ring made by `initQ` answers every sequence of calls as the bounded queue
does, and stores its elements from `front` downwards to `rear`, with `NULL` in
all other slots. -/
theorem ring_refines_fifo (calls : List (QueueOp alpha)) :
    (Refinement.answers call initQ calls).2 =
        (Refinement.answers Fifo.call [] calls).2 ∧
      Represents (Refinement.answers call initQ calls).1
        (Refinement.answers Fifo.call [] calls).1 := by
  have hinit : Stores (initQ : QueueT alpha) [] := stores_initQ
  rcases Refinement.answers_of_related call_refines hinit calls with
    ⟨hanswers, hstores⟩
  refine ⟨hanswers, ?_⟩
  exact
    { stores := hstores
      rear_lt := hstores.rear_lt
      single := front_eq_rear_iff hstores
      refused := fun _ hrefused => enqueue_refused hstores hrefused }

end QueueT

example : (Refinement.answers QueueT.call QueueT.initQ
    [.enqueue (some 'a'), .enqueue none, .enqueue (some 'b'), .deque]).2 =
      [.code 1, .code 0, .code 1, .ptr (some 'a')] := rfl

end RIBDriver
