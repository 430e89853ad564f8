import Mathlib.Algebra.GroupWithZero.Nat
import RIBDriver.Common.HeapList.Refinement
import RIBDriver.Common.HeapList.Reversal
import RIBDriver.Library.Usage

/-!
# The cells of the lists

An element is a node and a payload, and a removal leaves the payload behind.
So the cells in use after any calls are two for each element of a list and one
for each removal, with the reversals and the search for a payload's address
among the calls.
-/

namespace RIBDriver
namespace HeapList

/-!
## The search for a payload's address
-/

/-- The loop of `singly_ll_get_node_by_data_ptr`. -/
def dataPtrLoop (h : Heap Cell) (data : Option Nat) (count : UInt32) :
    Nat -> UInt32 -> Option Nat -> Option (Option Nat)
  | 0, _, _ => none
  | fuel + 1, i, head =>
      if i < count then do
        let n <- deref h head
        if n.data = data then some head
        else dataPtrLoop h data count fuel (i + 1) n.next
      else some none

def singlyLlGetNodeByDataPtr (h : Heap Cell) (ll : LlT) (data : Option Nat) :
    Option (Option Nat) :=
  match ll.head with
  | none => some none
  | some _ => dataPtrLoop h data ll.nodeCount (rounds h) 0 ll.head

def nodeAt (h : Heap Cell) : Nat -> Option Nat -> Option Node
  | 0, head => deref h head
  | k + 1, head => do
      let n <- deref h head
      nodeAt h k n.next

/-!
## All calls
-/

/-- `locate` looks in list `l` for the payload of node `k` of list `owner`. -/
inductive ApiCall where
  | basic (c : Call)
  | reverse (l : Nat) (r : Reversal)
  | locate (l owner k : Nat)
deriving DecidableEq

namespace Memory

def apiCall (m : Memory) : ApiCall -> Option (Memory × Answer)
  | .basic c => m.call c
  | .reverse l r => m.onList l fun h ll => do
      let (h, ll) <- r.reverse h ll
      some (h, ll, .done)
  | .locate l owner k => do
      let source <- m.lists[owner]?
      let n <- nodeAt m.heap k source.head
      m.onList l fun h ll => do
        match <- singlyLlGetNodeByDataPtr h ll n.data with
        | none => some (h, ll, .found none)
        | some node =>
            let found <- payload h node
            some (h, ll, .found (some found))

end Memory

/-- The contents of the lists, and the payloads that no list holds any more. -/
structure Ledger where
  lists : List (List (List UInt8))
  orphans : Nat
deriving DecidableEq

namespace Ledger

def init : Ledger where
  lists := []
  orphans := 0

def lost : Call -> Answer -> Nat
  | .remove _ _ _, .count n => n.toNat
  | _, _ => 0

/-- A payload is found by its address in the list that holds it and in no
other. -/
def call (k : Ledger) : ApiCall -> Option (Ledger × Answer)
  | .basic c =>
      (Contents.call k.lists c).map fun r =>
        ({ lists := r.1, orphans := k.orphans + lost c r.2 }, r.2)
  | .reverse l _ =>
      (Contents.onList k.lists l (fun _ => True) fun contents =>
        (contents.reverse, .done)).map fun r => ({ k with lists := r.1 }, r.2)
  | .locate l owner i =>
      match k.lists[l]?, k.lists[owner]? with
      | some _, some contents =>
          match contents[i]? with
          | none => none
          | some payload =>
              some (k, .found (if l = owner then some payload else none))
      | _, _ => none

def cells (k : Ledger) : Nat :=
  2 * (k.lists.map List.length).sum + k.orphans

end Ledger

/-!
## What each function uses
-/

section Functions

variable {h h' : Heap Cell} {ll ll' : LlT} {items pre post rest : List Item}
variable {i : Item} {rc : RcT}

theorem inUse_addNode {node : Nat}
    (hcall : singlyLlAddNode h ll node = some (h', ll', rc)) :
    h'.inUse = h.inUse := by
  unfold singlyLlAddNode at hcall
  split at hcall
  · cases hcall
    rfl
  · rcases Option.bind_eq_some_iff.mp hcall with ⟨n, _, hcall⟩
    rcases Option.bind_eq_some_iff.mp hcall with ⟨h1, hwrite, hcall⟩
    cases hcall
    exact Heap.inUse_write hwrite

theorem inUse_addNodeByVal {data : List UInt8} {size : UInt32}
    (hcall : singlyLlAddNodeByVal h ll data size = some (h', ll', rc)) :
    h'.inUse = h.inUse + 2 := by
  unfold singlyLlAddNodeByVal at hcall
  split at hcall
  · rcases Option.bind_eq_some_iff.mp hcall with ⟨n, _, hcall⟩
    rcases Option.bind_eq_some_iff.mp hcall with ⟨h1, hwrite, hcall⟩
    have hlinked : h'.inUse = h1.inUse := inUse_addNode hcall
    have hfilled : h1.inUse = ((singlyLlInitNode h).1.alloc
        (.bytes (data.take size.toNat))).1.inUse := Heap.inUse_write hwrite
    have hnode : (singlyLlInitNode h).1.inUse = h.inUse + 1 :=
      Heap.inUse_alloc h _
    rw [hlinked, hfilled, Heap.inUse_alloc, hnode]
  · cases hcall

theorem data_of_holds {next : Option Nat} {n : Node} (hi : Holds h i next)
    (hn : deref h (some i.node) = some n) : n.data = some i.data := by
  rcases hi.node with ⟨dataSize, hnode⟩
  rw [deref_of_read hnode] at hn
  rw [← Option.some.inj hn]

theorem inUse_deleteNode (howns : Owns h ll (pre ++ i :: post))
    (hcall : singlyLlDeleteNode h ll i.node = some (h', ll')) :
    h'.inUse + 2 = h.inUse := by
  have hholds := (segment_append.mp howns.chain).right.left
  rcases head_of_append howns with ⟨first, hhead⟩
  unfold singlyLlDeleteNode at hcall
  rw [hhead] at hcall
  rcases Option.bind_eq_some_iff.mp hcall with ⟨n, hn, hcall⟩
  have hdata := data_of_holds hholds hn
  split at hcall
  · rcases Option.bind_eq_some_iff.mp hcall with ⟨h1, hfree, hcall⟩
    rcases Option.bind_eq_some_iff.mp hcall with ⟨successor, _, hcall⟩
    rcases Option.bind_eq_some_iff.mp hcall with ⟨h2, hwrite, hcall⟩
    rcases Option.bind_eq_some_iff.mp hcall with ⟨h3, hfree', hcall⟩
    cases hcall
    rw [hdata] at hfree
    have hfirst := Heap.inUse_free hfree
    have hsecond := Heap.inUse_free hfree'
    have hsame := Heap.inUse_write hwrite
    lia
  · split at hcall
    · rcases Option.bind_eq_some_iff.mp hcall with ⟨h1, hfree, hcall⟩
      rcases Option.bind_eq_some_iff.mp hcall with ⟨h2, hfree', hcall⟩
      cases hcall
      rw [hdata] at hfree
      have hfirst := Heap.inUse_free hfree
      have hsecond := Heap.inUse_free hfree'
      lia
    · rcases Option.bind_eq_some_iff.mp hcall with ⟨trav, _, hcall⟩
      rcases Option.bind_eq_some_iff.mp hcall with ⟨t, _, hcall⟩
      rcases Option.bind_eq_some_iff.mp hcall with ⟨h1, hwrite, hcall⟩
      rcases Option.bind_eq_some_iff.mp hcall with ⟨h2, hfree, hcall⟩
      rcases Option.bind_eq_some_iff.mp hcall with ⟨h3, hfree', hcall⟩
      cases hcall
      rw [hdata] at hfree
      have hfirst := Heap.inUse_free hfree
      have hsecond := Heap.inUse_free hfree'
      have hsame := Heap.inUse_write hwrite
      lia

theorem inUse_unlink {node prev fuel : Nat} {count idx : UInt32}
    {head : Option Nat}
    (hcall : unlink h node count fuel idx prev head = some (some h')) :
    h'.inUse = h.inUse := by
  induction fuel generalizing idx prev head with
  | zero => cases hcall
  | succ fuel ih =>
      unfold unlink at hcall
      split at hcall
      · split at hcall
        · rcases Option.bind_eq_some_iff.mp hcall with ⟨p, _, hcall⟩
          rcases Option.bind_eq_some_iff.mp hcall with ⟨n, _, hcall⟩
          rcases Option.bind_eq_some_iff.mp hcall with ⟨h1, hwrite, hcall⟩
          rcases Option.bind_eq_some_iff.mp hcall with ⟨h2, hwrite', hcall⟩
          cases hcall
          rw [Heap.inUse_write hwrite', Heap.inUse_write hwrite]
        · split at hcall
          · cases hcall
          · rcases Option.bind_eq_some_iff.mp hcall with ⟨n, _, hcall⟩
            exact ih hcall
      · cases hcall

theorem inUse_removeNode {node : Nat}
    (hcall : singlyLlRemoveNode h ll node = some (h', ll', rc)) :
    h'.inUse = h.inUse := by
  unfold singlyLlRemoveNode at hcall
  split at hcall
  · cases hcall
    rfl
  · rcases Option.bind_eq_some_iff.mp hcall with ⟨n, _, hcall⟩
    split at hcall
    · rcases Option.bind_eq_some_iff.mp hcall with ⟨h1, hwrite, hcall⟩
      cases hcall
      exact Heap.inUse_write hwrite
    · rcases Option.bind_eq_some_iff.mp hcall with ⟨found, hunlink, hcall⟩
      split at hcall
      · cases hcall
        exact inUse_unlink hunlink
      · cases hcall
        rfl

theorem inUse_freeNodes {fuel : Nat} (hitems : Segment h none (i :: rest))
    (hnodup : (footprint (i :: rest)).Nodup)
    (hcall : freeNodes fuel h (some i.node) (headOr none rest) = some h') :
    h'.inUse + 2 * (rest.length + 1) = h.inUse := by
  induction rest generalizing h i fuel with
  | nil =>
      cases fuel with
      | zero => cases hcall
      | succ fuel =>
          unfold freeNodes at hcall
          rcases Option.bind_eq_some_iff.mp hcall with ⟨n, hn, hcall⟩
          rcases Option.bind_eq_some_iff.mp hcall with ⟨h1, hfree, hcall⟩
          rcases Option.bind_eq_some_iff.mp hcall with ⟨h2, hfree', hcall⟩
          cases hcall
          rw [data_of_holds hitems.left hn] at hfree
          have hfirst := Heap.inUse_free hfree
          have hsecond := Heap.inUse_free hfree'
          rw [List.length_nil]
          lia
  | cons j rest ih =>
      cases fuel with
      | zero => cases hcall
      | succ fuel =>
          rcases apart_head hnodup with ⟨hi, hirest⟩
          rcases free_item hitems.left hi with ⟨h1, h2, hfree, hfree', hsame⟩
          rcases hitems.left.node with ⟨dataSize, hnode⟩
          have hrest : Segment h2 none (j :: rest) := by
            apply segment_frame hitems.right hsame
            intro a ha
            rcases List.mem_cons.mp ha with hdata | hnode
            · rw [hdata]
              exact hirest.data
            · rw [List.mem_singleton.mp hnode]
              exact hirest.node
          rcases hrest.left.node with ⟨dataSize', hnext⟩
          simp only [freeNodes, deref_of_read hnode, Option.bind_eq_bind,
            Option.bind_some, kfree, hfree, hfree', headOr_cons,
            deref_of_read hnext] at hcall
          have hleft := ih hrest (hnodup.sublist (by simp)) hcall
          have hfirst := Heap.inUse_free hfree
          have hsecond := Heap.inUse_free hfree'
          rw [List.length_cons]
          lia

theorem usedBelow_turned {slots : Nat -> HeapSlot Cell} {prev : Option Nat}
    {links : List Link} {n : Nat} (hnodup : (nodes links).Nodup)
    (hlive : forall a, a ∈ nodes links -> exists c, slots a = .live c)
    (hlt : forall a, a ∈ nodes links -> a < n) :
    Heap.usedBelow (turned slots prev links) n = Heap.usedBelow slots n := by
  induction links generalizing prev with
  | nil => rfl
  | cons l rest ih =>
      rcases nodup_cons hnodup with ⟨hnode, hrest⟩
      have hself : l.node ∈ nodes (l :: rest) := List.mem_cons_self
      have hold : Heap.usedBelow (turned slots (some l.node) rest) n =
          Heap.usedBelow slots n :=
        ih hrest (fun a ha => hlive a (List.mem_cons_of_mem _ ha))
          (fun a ha => hlt a (List.mem_cons_of_mem _ ha))
      have hnew : Heap.usedBelow (turned slots prev (l :: rest)) n +
          (turned slots (some l.node) rest l.node).inUse =
            Heap.usedBelow (turned slots (some l.node) rest) n + 1 :=
        Heap.usedBelow_update (.live (l.cell prev)) (hlt l.node hself)
      rcases hlive l.node hself with ⟨c, hslot⟩
      have hone : (turned slots (some l.node) rest l.node).inUse = 1 := by
        rw [turned_of_notMem hnode, hslot]
        rfl
      lia

theorem inUse_turned {links : List Link} (hlist : Chained h ll links)
    (hturned : Turned h none links h') : h'.inUse = h.inUse := by
  unfold Heap.inUse
  rw [hturned.slots, hturned.next]
  have hread : forall a, a ∈ nodes links -> exists c, h.read a = some c :=
    fun a ha => read_of_chain hlist.chain ha
  apply usedBelow_turned hlist.nodup
  · intro a ha
    rcases hread a ha with ⟨c, hc⟩
    exact ⟨c, Heap.slots_of_read hc⟩
  · intro a ha
    rcases hread a ha with ⟨c, hc⟩
    exact Heap.lt_next_of_read hc

end Functions

/-!
## What each call uses
-/

section Calls

variable {m m' : Memory} {lists lists' : List (List (List UInt8))}
variable {answer : Answer} {l : Nat}

theorem sum_lengths_set {contents contents' : List (List UInt8)}
    (hl : lists[l]? = some contents) :
    ((lists.set l contents').map List.length).sum + contents.length =
      (lists.map List.length).sum + contents'.length := by
  induction lists generalizing l with
  | nil => cases hl
  | cons first rest ih =>
      cases l with
      | zero =>
          cases hl
          simp only [List.set_cons_zero, List.map_cons, List.sum_cons]
          lia
      | succ l =>
          have hrest := ih (l := l) hl
          simp only [List.set_cons_succ, List.map_cons, List.sum_cons]
          lia

/-- The function leaves `lost` cells behind that no list holds any more. -/
def Balanced (h : Heap Cell) (before : List (List UInt8)) (h' : Heap Cell)
    (after : List (List UInt8)) (lost : Nat) : Prop :=
  h'.inUse + 2 * before.length = h.inUse + 2 * after.length + lost

theorem onList_balanced {ask : List (List UInt8) -> Prop} [DecidablePred ask]
    {f : Heap Cell -> LlT -> Option (Heap Cell × LlT × Answer)}
    {g : List (List UInt8) -> List (List UInt8) × Answer} {lost : Nat}
    (hspec : forall h ll items h' ll', Owns h ll items ->
      ask (payloads items) ->
        f h ll = some (h', ll', (g (payloads items)).2) ->
          answer = (g (payloads items)).2 ->
            Balanced h (payloads items) h' (g (payloads items)).1 lost)
    (h : Refines m lists)
    (hcontents : Contents.onList lists l ask g = some (lists', answer))
    (hcall : m.onList l f = some (m', answer)) :
    m'.heap.inUse + 2 * (lists.map List.length).sum =
      m.heap.inUse + 2 * (lists'.map List.length).sum + lost := by
  rcases h with ⟨shapes, hrep, hlists⟩
  unfold Contents.onList at hcontents
  split at hcontents
  · cases hcontents
  · rename_i contents hl
    split at hcontents
    · rename_i hask
      cases hcontents
      rcases Option.bind_eq_some_iff.mp hcall with ⟨ll, hll, hcall⟩
      rcases Option.bind_eq_some_iff.mp hcall with
        ⟨⟨h', ll', answer⟩, hrun, hcall⟩
      cases hcall
      have hsums : ((lists.set l (g contents).1).map List.length).sum +
          contents.length =
            (lists.map List.length).sum + (g contents).1.length :=
        sum_lengths_set hl
      rw [← hlists, List.getElem?_map] at hl
      rcases Option.map_eq_some_iff.mp hl with ⟨items, hitems, hpayloads⟩
      rw [← hpayloads] at hask hrun hsums
      have hbalance := hspec m.heap ll items h' ll'
        (hrep.owns l ll items hll hitems) hask hrun (by rw [hpayloads])
      unfold Balanced at hbalance
      rw [← hpayloads]
      show h'.inUse + _ = _
      lia
    · cases hcontents

theorem inUse_deleteNodeByValue {h h' : Heap Cell} {ll ll' : LlT}
    {items : List Item} {key : List UInt8} {size n : UInt32}
    (howns : Owns h ll items) (hfits : Comparable key size (payloads items))
    (hcall : singlyLlDeleteNodeByValue h ll key size = some (h', ll', n)) :
    Balanced h (payloads items) h'
      ((payloads items).eraseP (agree · key size)) 0 := by
  have hsearch := search_eq howns hfits
  unfold Balanced
  cases hfind : items.find? fun i => agree i.payload key size with
  | none =>
      rw [hfind] at hsearch
      rw [deleteNodeByValue_absent hsearch] at hcall
      cases hcall
      rw [(none_of_find hfind).right]
      rfl
  | some i =>
      rcases split_of_find hfind with ⟨pre, post, hitems, _, herase⟩
      rw [hfind] at hsearch
      rw [hitems] at howns
      rcases head_of_append howns with ⟨first, hhead⟩
      unfold singlyLlDeleteNodeByValue at hcall
      rw [hsearch, hhead] at hcall
      rcases Option.bind_eq_some_iff.mp hcall with ⟨found, hfound, hcall⟩
      cases hfound
      rcases Option.bind_eq_some_iff.mp hcall with ⟨⟨h1, ll1⟩, hdelete, hcall⟩
      cases hcall
      have hused := inUse_deleteNode howns hdelete
      rw [herase, hitems, payloads_append, payloads_cons, List.length_append,
        List.length_append, List.length_cons]
      lia

theorem inUse_removeNodeByValue {h h' : Heap Cell} {ll ll' : LlT}
    {items : List Item} {key : List UInt8} {size n : UInt32}
    (howns : Owns h ll items) (hfits : Comparable key size (payloads items))
    (hcall : singlyLlRemoveNodeByValue h ll key size = some (h', ll', n)) :
    Balanced h (payloads items) h'
      ((payloads items).eraseP (agree · key size))
      (matched (payloads items) key size).toNat := by
  have hsearch := search_eq howns hfits
  unfold Balanced
  cases hfind : items.find? fun i => agree i.payload key size with
  | none =>
      rw [hfind] at hsearch
      rw [removeNodeByValue_absent hsearch] at hcall
      cases hcall
      rcases none_of_find hfind with ⟨hany, herase⟩
      rw [herase, matched, hany]
      rfl
  | some i =>
      rcases split_of_find hfind with ⟨pre, post, hitems, hany, herase⟩
      rw [hfind] at hsearch
      have hcontents := hitems
      rw [hitems] at howns
      rcases head_of_append howns with ⟨first, hhead⟩
      unfold singlyLlRemoveNodeByValue at hcall
      rw [hsearch, hhead] at hcall
      rcases Option.bind_eq_some_iff.mp hcall with ⟨found, hfound, hcall⟩
      cases hfound
      rcases Option.bind_eq_some_iff.mp hcall with
        ⟨⟨h1, ll1, rc⟩, hremove, hcall⟩
      rcases Option.bind_eq_some_iff.mp hcall with ⟨h2, hfree, hcall⟩
      cases hcall
      have hkept := inUse_removeNode hremove
      have hfreed := Heap.inUse_free hfree
      have hone : (matched (payloads items) key size).toNat = 1 := by
        rw [matched, hany]
        rfl
      rw [hone, herase, hitems, payloads_append, payloads_cons,
        List.length_append, List.length_append, List.length_cons]
      lia

theorem inUse_deleteSinglyLl {h h' : Heap Cell} {ll ll' : LlT}
    {items : List Item} (howns : Owns h ll items)
    (hcall : deleteSinglyLl h ll = some (h', ll')) :
    Balanced h (payloads items) h' [] 0 := by
  have hcount := howns.count
  unfold deleteSinglyLl at hcall
  unfold Balanced
  cases items with
  | nil =>
      have hzero : ll.nodeCount = 0 := UInt32.toNat_inj.mp hcount
      rw [if_pos hzero] at hcall
      cases hcall
      rfl
  | cons i rest =>
      have hzero : ¬ ll.nodeCount = 0 := by
        intro hnone
        rw [hnone] at hcount
        cases hcount
      rcases howns.chain.left.node with ⟨dataSize, hnode⟩
      have hhead : ll.head = some i.node := howns.head
      rw [if_neg hzero, hhead, deref_of_read hnode] at hcall
      rcases Option.bind_eq_some_iff.mp hcall with ⟨n, hn, hcall⟩
      cases hn
      rcases Option.bind_eq_some_iff.mp hcall with ⟨h1, hfree, hcall⟩
      cases hcall
      have hused := inUse_freeNodes howns.chain howns.nodup hfree
      rw [payloads, List.length_map, List.length_cons, List.length_nil]
      lia

theorem call_balanced (c : Call) (h : Refines m lists)
    (hcontents : Contents.call lists c = some (lists', answer))
    (hcall : m.call c = some (m', answer)) :
    m'.heap.inUse + 2 * (lists.map List.length).sum =
      m.heap.inUse + 2 * (lists'.map List.length).sum +
        Ledger.lost c answer := by
  cases c with
  | init =>
      simp only [Contents.call, Option.some.injEq, Prod.mk.injEq] at hcontents
      simp only [Memory.call, Option.some.injEq, Prod.mk.injEq] at hcall
      rw [← hcontents.left, ← hcall.left]
      simp [Ledger.lost]
  | add l data size =>
      simp only [Contents.call] at hcontents
      simp only [Memory.call] at hcall
      refine onList_balanced ?_ h hcontents hcall
      intro h ll items h' ll' howns hask hrun _
      rcases Option.bind_eq_some_iff.mp hrun with ⟨⟨h1, ll1, rc⟩, hadd, hrun⟩
      cases hrun
      have hused := inUse_addNodeByVal hadd
      change h1.inUse + 2 * _ = h.inUse + 2 * (_ + 1) + 0
      lia
  | delete l key size =>
      simp only [Contents.call] at hcontents
      simp only [Memory.call] at hcall
      refine onList_balanced ?_ h hcontents hcall
      intro h ll items h' ll' howns hask hrun _
      rcases Option.bind_eq_some_iff.mp hrun with ⟨⟨h1, ll1, n⟩, hdelete, hrun⟩
      cases hrun
      exact inUse_deleteNodeByValue howns hask hdelete
  | remove l key size =>
      simp only [Contents.call] at hcontents
      simp only [Memory.call] at hcall
      refine onList_balanced ?_ h hcontents hcall
      intro h ll items h' ll' howns hask hrun hanswer
      rcases Option.bind_eq_some_iff.mp hrun with ⟨⟨h1, ll1, n⟩, hremove, hrun⟩
      cases hrun
      rw [hanswer]
      exact inUse_removeNodeByValue howns hask hremove
  | find l key size =>
      simp only [Contents.call] at hcontents
      simp only [Memory.call] at hcall
      refine onList_balanced ?_ h hcontents hcall
      intro h ll items h' ll' howns hask hrun _
      rcases Option.bind_eq_some_iff.mp hrun with ⟨found, _, hrun⟩
      cases found with
      | none =>
          have hsame := congrArg (Option.map Prod.fst) hrun
          cases hsame
          rfl
      | some node =>
          rcases Option.bind_eq_some_iff.mp hrun with ⟨payload, _, hrun⟩
          have hsame := congrArg (Option.map Prod.fst) hrun
          cases hsame
          rfl
  | empty l =>
      simp only [Contents.call] at hcontents
      simp only [Memory.call] at hcall
      refine onList_balanced ?_ h hcontents hcall
      intro h ll items h' ll' howns _ hrun _
      rcases Option.bind_eq_some_iff.mp hrun with ⟨⟨h1, ll1⟩, hempty, hrun⟩
      cases hrun
      exact inUse_deleteSinglyLl howns hempty
  | move dst src =>
      rcases Option.bind_eq_some_iff.mp hcall with ⟨target, _, hcall⟩
      rcases Option.bind_eq_some_iff.mp hcall with ⟨source, _, hcall⟩
      cases hcall
      simp only [Contents.call] at hcontents
      split at hcontents
      · rename_i old new hdst hsrc
        split at hcontents
        · cases hcontents
        · rename_i hne
          split at hcontents
          · rename_i hnil
            cases hcontents
            have hmoved : (lists.set dst new)[src]? = some new := by
              rw [List.getElem?_set_ne hne]
              exact hsrc
            have hfirst : ((lists.set dst new).map List.length).sum +
                old.length = (lists.map List.length).sum + new.length :=
              sum_lengths_set hdst
            have hsecond : (((lists.set dst new).set src []).map
                List.length).sum + new.length =
                  ((lists.set dst new).map List.length).sum + 0 :=
              sum_lengths_set hmoved
            rw [hnil, List.length_nil] at hfirst
            show m.heap.inUse + _ = m.heap.inUse + _ + 0
            lia
          · cases hcontents
            rfl
      · cases hcontents

end Calls

/-!
## Reversals and addresses
-/

section Reverse

variable {h : Heap Cell} {ll : LlT} {items : List Item}

theorem reverse_becomes (r : Reversal) (howns : Owns h ll items) :
    exists h' ll', r.reverse h ll = some (h', ll') ∧
      Becomes h items h' ll' (payloads items).reverse ∧
        h'.inUse = h.inUse := by
  have hlist := chained_of_owns howns
  rcases owns_reverse r howns with ⟨h', ll', hcall, howns'⟩
  rcases reverse_turned r hlist with ⟨h1, hcall', hturned⟩
  rw [hcall] at hcall'
  cases hcall'
  have hnodes : nodes (items.map (linkOf h)) ⊆ footprint items := by
    rw [nodes_linkOf]
    exact (nodes_sublist items).subset
  have hperm : (footprint items.reverse).Perm (footprint items) :=
    (List.reverse_perm items).flatMap_right _
  refine ⟨h', _, hcall, ⟨items.reverse, howns', List.map_reverse, ?_, ?_⟩, ?_⟩
  · intro a c ha hread
    apply Heap.read_of_slots
    rw [hturned.slots, turned_of_notMem (fun hmem => ha (hnodes hmem))]
    exact Heap.slots_of_read hread
  · intro a ha
    exact Or.inl (hperm.subset ha)
  · exact inUse_turned hlist hturned

end Reverse

section Locate

variable {h : Heap Cell} {ll : LlT} {after : Option Nat}
variable {items : List Item} {i : Item} {d : Nat}

theorem nodeAt_segment {k : Nat} (hitems : Segment h after items)
    (hi : items[k]? = some i) :
    exists n, nodeAt h k (headOr after items) = some n ∧
      n.data = some i.data := by
  induction items generalizing k with
  | nil => cases hi
  | cons j rest ih =>
      rcases hitems.left.node with ⟨dataSize, hnode⟩
      cases k with
      | zero =>
          cases hi
          exact ⟨_, deref_of_read hnode, rfl⟩
      | succ k =>
          rcases ih hitems.right hi with ⟨n, hwalk, hdata⟩
          refine ⟨n, ?_, hdata⟩
          rw [headOr_cons, nodeAt, deref_of_read hnode]
          exact hwalk

theorem dataPtrLoop_segment {count idx : UInt32} {fuel : Nat}
    (hitems : Segment h none items)
    (hcount : count.toNat = idx.toNat + items.length)
    (hfuel : items.length < fuel) :
    dataPtrLoop h (some d) count fuel idx (headOr none items) =
      some ((items.find? fun i => i.data = d).map (·.node)) := by
  induction items generalizing idx fuel with
  | nil =>
      cases fuel with
      | zero => cases hfuel
      | succ fuel =>
          have hend : ¬ idx < count := by
            rw [UInt32.lt_iff_toNat_lt, hcount, List.length_nil]
            lia
          rw [dataPtrLoop, if_neg hend]
          rfl
  | cons i rest ih =>
      cases fuel with
      | zero => cases hfuel
      | succ fuel =>
          rw [List.length_cons] at hcount
          have hgo : idx < count := by
            rw [UInt32.lt_iff_toNat_lt]
            lia
          rcases hitems.left.node with ⟨dataSize, hnode⟩
          rw [dataPtrLoop, if_pos hgo, headOr_cons, deref_of_read hnode]
          simp only [Option.bind_eq_bind, Option.bind_some, Option.some.injEq]
          by_cases hdata : i.data = d
          · simp [hdata]
          · have hsize := count.toNat_lt
            have hnext := count_succ (n := idx) (by
              unfold UInt32.size
              lia)
            rw [if_neg hdata, ih hitems.right (by lia)
              (Nat.lt_of_succ_lt_succ hfuel),
              List.find?_cons_of_neg (by simpa using hdata)]

theorem getNodeByDataPtr_owns (howns : Owns h ll items) :
    singlyLlGetNodeByDataPtr h ll (some d) =
      some ((items.find? fun i => i.data = d).map (·.node)) := by
  have hle := length_le_next howns.chain howns.nodup
  have hcount : ll.nodeCount.toNat = (0 : UInt32).toNat + items.length := by
    rw [howns.count]
    exact (Nat.zero_add _).symm
  have hloop := dataPtrLoop_segment (d := d) howns.chain hcount
    (Nat.lt_succ_of_le hle)
  rw [← howns.head] at hloop
  unfold singlyLlGetNodeByDataPtr
  cases hhead : ll.head with
  | none =>
      have hnil : items = [] := by
        cases items with
        | nil => rfl
        | cons i rest =>
            have hsome := howns.head
            rw [hhead] at hsome
            cases hsome
      rw [hnil]
      rfl
  | some first =>
      rw [hhead] at hloop
      exact hloop

theorem mem_footprint_data (hi : i ∈ items) : i.data ∈ footprint items :=
  List.mem_flatMap.mpr ⟨i, hi, by simp⟩

theorem payload_of_owns (howns : Owns h ll items) (hi : i ∈ items) :
    Memory.payload h i.node = some i.payload := by
  rcases List.append_of_mem hi with ⟨pre, post, hitems⟩
  have hchain := howns.chain
  rw [hitems] at hchain
  have hholds := (segment_append.mp hchain).right.left
  rcases hholds.node with ⟨dataSize, hnode⟩
  simp [Memory.payload, deref_of_read hnode, hholds.data]

end Locate

/-!
## Every sequence of calls
-/

section Runs

variable {m : Memory} {k k' : Ledger} {answer : Answer}

/-- The lists are chains with the contents of the ledger, and no other cell is
in use than the ledger says. -/
structure Keeps (m : Memory) (k : Ledger) : Prop where
  refines : Refines m k.lists
  inUse : m.heap.inUse = k.cells

theorem keeps_init : Keeps Memory.init Ledger.init where
  refines := refines_init
  inUse := rfl

theorem keeps_basic (h : Keeps m k) (c : Call)
    (hcall : k.call (.basic c) = some (k', answer)) :
    exists m', m.call c = some (m', answer) ∧ Keeps m' k' := by
  simp only [Ledger.call] at hcall
  rcases Option.map_eq_some_iff.mp hcall with ⟨⟨lists, answer⟩, hlists, hpair⟩
  cases hpair
  rcases call_refines m k.lists c lists answer h.refines hlists with
    ⟨m', hrun, hrefines⟩
  have hused := call_balanced c h.refines hlists hrun
  refine ⟨m', hrun, hrefines, ?_⟩
  have hcells := h.inUse
  unfold Ledger.cells at hcells ⊢
  dsimp only
  lia

theorem keeps_reverse (h : Keeps m k) (l : Nat) (r : Reversal)
    (hcall : k.call (.reverse l r) = some (k', answer)) :
    exists m', m.apiCall (.reverse l r) = some (m', answer) ∧ Keeps m' k' := by
  simp only [Ledger.call] at hcall
  rcases Option.map_eq_some_iff.mp hcall with ⟨⟨lists, answer⟩, hlists, hpair⟩
  cases hpair
  simp only [Memory.apiCall]
  have hspec : forall h ll items, Owns h ll items -> True ->
      exists h' ll', (do
        let (h, ll) <- r.reverse h ll
        some (h, ll, Answer.done)) = some (h', ll', .done) ∧
          Becomes h items h' ll' (payloads items).reverse := by
    intro h ll items howns _
    rcases reverse_becomes r howns with ⟨h', ll', hrun, hbecomes, _⟩
    exact ⟨h', ll', by simp [hrun], hbecomes⟩
  rcases onList_refines hspec h.refines hlists with ⟨m', hrun, hrefines⟩
  refine ⟨m', hrun, hrefines, ?_⟩
  have hbalance : m'.heap.inUse + 2 * (k.lists.map List.length).sum =
      m.heap.inUse + 2 * (lists.map List.length).sum + 0 := by
    refine onList_balanced ?_ h.refines hlists hrun
    intro h ll items h' ll' howns _ hreverse _
    rcases reverse_becomes r howns with ⟨h1, ll1, hcall, _, hsame⟩
    rw [hcall] at hreverse
    cases hreverse
    unfold Balanced
    rw [List.length_reverse, hsame]
    rfl
  have hcells := h.inUse
  unfold Ledger.cells at hcells ⊢
  dsimp only
  lia

theorem find_data_of_represents {shapes : List (List Item)} {l owner : Nat}
    {items others : List Item} {i : Item} (hrep : Represents m shapes)
    (hl : shapes[l]? = some items) (howner : shapes[owner]? = some others)
    (hi : i ∈ others) :
    (items.find? fun j => j.data = i.data).isSome = decide (l = owner) := by
  by_cases hsame : l = owner
  · rw [hsame, howner] at hl
    cases hl
    rw [decide_eq_true hsame, List.find?_isSome]
    exact ⟨i, hi, decide_eq_true rfl⟩
  · rw [decide_eq_false hsame, Option.isSome_eq_false_iff,
      Option.isNone_iff_eq_none, List.find?_eq_none]
    intro j hj hdata
    refine hrep.apart l owner items others hsame hl howner
      (mem_footprint_data hj) ?_
    rw [of_decide_eq_true hdata]
    exact mem_footprint_data hi

theorem keeps_locate (h : Keeps m k) (l owner i : Nat)
    (hcall : k.call (.locate l owner i) = some (k', answer)) :
    exists m', m.apiCall (.locate l owner i) = some (m', answer) ∧
      Keeps m' k' := by
  rcases h.refines with ⟨shapes, hrep, hlists⟩
  simp only [Ledger.call] at hcall
  split at hcall
  · rename_i here contents hl howner
    split at hcall
    · cases hcall
    · rename_i payload hi
      cases hcall
      refine ⟨m, ?_, h⟩
      rw [← hlists, List.getElem?_map] at hl howner
      rcases Option.map_eq_some_iff.mp hl with ⟨items, hitems, _⟩
      rcases Option.map_eq_some_iff.mp howner with ⟨others, hothers, hcontents⟩
      rw [← hcontents, payloads, List.getElem?_map] at hi
      rcases Option.map_eq_some_iff.mp hi with ⟨item, hitem, hpayload⟩
      rcases List.getElem?_eq_some_iff.mp hitems with ⟨hlt, _⟩
      rcases List.getElem?_eq_some_iff.mp hothers with ⟨hlt', _⟩
      rw [← hrep.length] at hlt hlt'
      have hlist := List.getElem?_eq_getElem hlt
      have hsource := List.getElem?_eq_getElem hlt'
      have howns := hrep.owns l _ items hlist hitems
      have howns' := hrep.owns owner _ others hsource hothers
      have hmem : item ∈ others := List.mem_of_getElem? hitem
      rcases nodeAt_segment howns'.chain hitem with ⟨n, hwalk, hdata⟩
      rw [← howns'.head] at hwalk
      have hsearch := getNodeByDataPtr_owns (d := item.data) howns
      have hfound := find_data_of_represents hrep hitems hothers hmem
      simp only [Memory.apiCall, Memory.onList, hsource, hlist,
        Option.bind_eq_bind, Option.bind_some, hwalk, hdata, hsearch]
      cases hfind : items.find? fun j => j.data = item.data with
      | none =>
          rw [hfind] at hfound
          have hne : ¬ l = owner := of_decide_eq_false hfound.symm
          simp [hne, set_self hlist]
      | some j =>
          rw [hfind] at hfound
          have hsame : l = owner := of_decide_eq_true hfound.symm
          have hj := List.mem_of_find?_eq_some hfind
          have hjdata : j.data = item.data := by
            simpa using List.find?_some hfind
          -- one address holds one payload
          have hpay : j.payload = payload := by
            rw [hsame, hothers] at hitems
            cases hitems
            have hread := (data_of_owns howns'.chain howns'.nodup hj).left
            have hread' := (data_of_owns howns'.chain howns'.nodup hmem).left
            rw [hjdata, hread'] at hread
            rw [← hpayload]
            exact (Cell.bytes.inj (Option.some.inj hread)).symm
          simp [payload_of_owns howns hj, hpay, hsame]
  · cases hcall

/-- Whatever calls that may be asked are made, one after the other, none fails,
all give the answers of the functional lists, and two cells are in use for each
element and one for each payload that was removed and not deleted. -/
theorem cells_accounted {calls : List ApiCall} {answers : List Answer}
    (h : Refinement.answers? Ledger.call Ledger.init calls =
      some (k, answers)) :
    exists m, Refinement.answers? Memory.apiCall Memory.init calls =
        some (m, answers) ∧
      Refines m k.lists ∧ m.heap.inUse = k.cells := by
  have hstep : forall (m : Memory) (k : Ledger) (c : ApiCall) (k' : Ledger)
      (answer : Answer), Keeps m k -> k.call c = some (k', answer) ->
        exists m', m.apiCall c = some (m', answer) ∧ Keeps m' k' := by
    intro m k c k' answer hkeeps hcall
    cases c with
    | basic c => exact keeps_basic hkeeps c hcall
    | reverse l r => exact keeps_reverse hkeeps l r hcall
    | locate l owner i => exact keeps_locate hkeeps l owner i hcall
  rcases Refinement.answers?_of_related hstep keeps_init h with
    ⟨m, hrun, hkeeps⟩
  exact ⟨m, hrun, hkeeps.refines, hkeeps.inUse⟩

end Runs

theorem cells_accounted_two :
    exists m, Refinement.answers? Memory.apiCall Memory.init
        [.basic .init, .basic .init, .basic (.add 0 [1] 1),
          .basic (.add 0 [2] 1), .basic (.add 0 [3] 1), .reverse 0 .second,
          .locate 0 0 2, .locate 1 0 2, .basic (.remove 0 [2] 1),
          .basic (.delete 0 [1] 1), .basic (.move 1 0)] =
        some (m, [.list 0, .list 1, .code .llSuccess, .code .llSuccess,
          .code .llSuccess, .done, .found (some [3]), .found none, .count 1,
          .count 1, .done]) ∧
      Refines m [[], [[3]]] ∧ m.heap.inUse = 3 :=
  cells_accounted (k := { lists := [[], [[3]]], orphans := 1 }) (by decide)

end HeapList
end RIBDriver
