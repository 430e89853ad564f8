import Mathlib.Logic.Function.Basic
import RIBDriver.Common.LinkedList

/-!
# The routing table and its change list

The table operations of `rt_table.c`.  Entries are heap objects: `rt->rt` owns
them, while a node of `rt->rt_change_list` only points to the entry it
announces.
-/

namespace RIBDriver

/-- `struct rt_entry`: three fields of 16 bytes. -/
structure RtEntry where
  dstIp : Vector UInt8 16
  nxtHopIp : Vector UInt8 16
  oif : Vector UInt8 16
deriving DecidableEq

structure RtUpdate where
  opCode : UInt32
  entry : RtEntry
deriving DecidableEq

def rtRouteAdd : UInt32 := 1

def rtMaxEntriesFetch : Nat := 20

inductive EntryCell where
  | unallocated
  | live (entry : RtEntry)
  | freed
deriving DecidableEq

def EntryCell.contents : EntryCell -> Option RtEntry
  | .live entry => some entry
  | _ => none

/-- `struct rt_preserve_updates_t`, the payload of a change list node. -/
structure RtPreserveUpdate where
  opCode : UInt32
  entry : Nat
deriving DecidableEq

/-- The lists of `struct rt_table` over the heap of entries.  Addresses from
`next` on have never been handed out. -/
structure RtTable (file : Type _) where
  heap : Nat -> EntryCell
  next : Nat
  rt : List Nat
  rtChangeList : List RtPreserveUpdate
  pollReadersList : List file

namespace RtTable

variable {file : Type _}

def init : RtTable file where
  heap := fun _ => .unallocated
  next := 0
  rt := []
  rtChangeList := []
  pollReadersList := []

/-- The addresses of the pending updates, newest first. -/
def pending (t : RtTable file) : List Nat := t.rtChangeList.map (·.entry)

def cells (t : RtTable file) : List EntryCell := t.rt.map t.heap

/-- The change list node takes the entry of the head of `rt->rt`, which is the
one just added. -/
def addRtTableEntryByVal (t : RtTable file) (entry : RtEntry) : RtTable file :=
  { t with
    heap := Function.update t.heap t.next (.live entry)
    next := t.next + 1
    rt := singlyLlAddNodeByVal t.rt t.next
    rtChangeList := singlyLlAddNodeByVal t.rtChangeList
      { opCode := rtRouteAdd, entry := t.next } }

/-- Only `RT_ROUTE_ADD` changes the table; the other cases of the switch and
its default do nothing. -/
def applyRtUpdates (t : RtTable file) (msg : RtUpdate) : RtTable file :=
  if msg.opCode = rtRouteAdd then t.addRtTableEntryByVal msg.entry else t

/-- Every node of `rt->rt` is freed together with its entry. -/
def purgeRtTable (t : RtTable file) : RtTable file :=
  { t with
    heap := fun a => if a ∈ t.rt then .freed else t.heap a
    rt := deleteSinglyLl t.rt }

/-- The nodes are freed with their payloads, not the entries these point to. -/
def rtEmptyChangeList (t : RtTable file) : RtTable file :=
  { t with rtChangeList := deleteSinglyLl t.rtChangeList }

/-- One record of the update vector.  `src` is not in memory: it names the
entry the record was copied from. -/
structure VectorCell where
  opCode : UInt32
  entry : Option RtEntry
  src : Nat
deriving DecidableEq

/-- The result of `kzalloc` and of the loop that fills it; `none` when the
allocation fails. -/
def rtGetUpdatedRtEntries (t : RtTable file) (allocOk : Bool) :
    Option (List VectorCell) :=
  if allocOk then
    some (t.rtChangeList.map fun data =>
      { opCode := data.opCode
        entry := (t.heap data.entry).contents
        src := data.entry })
  else none

def mutexIsRtUpdated (t : RtTable file) : Bool :=
  getNodeCountSinglyLl t.rtChangeList != 0

def addRtTableUniquePollReader [DecidableEq file] (t : RtTable file)
    (filep : file) : RtTable file :=
  if singlyLlIsValuePresent t.pollReadersList filep then t
  else { t with pollReadersList := singlyLlAddNodeByVal t.pollReadersList filep }

/-!
## Well-formed tables

Both lists hold addresses that have been handed out, `rt->rt` owns live entries
and no entry is announced twice.
-/

structure Sound (t : RtTable file) : Prop where
  rt_lt : forall a, a ∈ t.rt -> a < t.next
  rt_live : forall a, a ∈ t.rt -> exists entry, t.heap a = .live entry
  pending_lt : forall a, a ∈ t.pending -> a < t.next
  pending_nodup : t.pending.Nodup

theorem sound_init : Sound (init : RtTable file) where
  rt_lt := by simp [init]
  rt_live := by simp [init]
  pending_lt := by simp [init, pending]
  pending_nodup := by simp [init, pending]

section Pending

variable (t : RtTable file)

@[simp] theorem pending_add (entry : RtEntry) :
    (t.addRtTableEntryByVal entry).pending = t.next :: t.pending := rfl

@[simp] theorem pending_empty : t.rtEmptyChangeList.pending = [] := rfl

theorem mutexIsRtUpdated_iff :
    t.mutexIsRtUpdated = true <-> t.pending ≠ [] := by
  simp [mutexIsRtUpdated, getNodeCountSinglyLl, pending]

theorem mutexIsRtUpdated_eq_false_iff :
    t.mutexIsRtUpdated = false <-> t.pending = [] := by
  simp [mutexIsRtUpdated, getNodeCountSinglyLl, pending]

theorem rtGetUpdatedRtEntries_src {allocOk : Bool} {vector : List VectorCell}
    (h : t.rtGetUpdatedRtEntries allocOk = some vector) :
    vector.map (·.src) = t.pending := by
  unfold rtGetUpdatedRtEntries at h
  cases allocOk with
  | false => cases h
  | true =>
      cases h
      simp [pending, Function.comp_def]

end Pending

theorem pollReadersList_addUnique [DecidableEq file] (t : RtTable file)
    (f : file) :
    (t.addRtTableUniquePollReader f).pollReadersList =
      if f ∈ t.pollReadersList then t.pollReadersList
      else f :: t.pollReadersList := by
  unfold addRtTableUniquePollReader
  by_cases hmem : f ∈ t.pollReadersList
  · simp [singlyLlIsValuePresent, hmem]
  · simp [singlyLlIsValuePresent, singlyLlAddNodeByVal, hmem]

/-!
## What the operations do to a well-formed table
-/

theorem sound_add {t : RtTable file} (h : Sound t) (entry : RtEntry) :
    Sound (t.addRtTableEntryByVal entry) where
  rt_lt := by
    intro a ha
    change a ∈ t.next :: t.rt at ha
    show a < t.next + 1
    rcases List.mem_cons.mp ha with hself | hold
    · lia
    · have := h.rt_lt a hold
      lia
  rt_live := by
    intro a ha
    change a ∈ t.next :: t.rt at ha
    show exists e, Function.update t.heap t.next (.live entry) a = .live e
    rcases List.mem_cons.mp ha with hself | hold
    · exact ⟨entry, by rw [hself, Function.update_self]⟩
    · have hlt := h.rt_lt a hold
      rw [Function.update_of_ne (by lia)]
      exact h.rt_live a hold
  pending_lt := by
    intro a ha
    rw [pending_add] at ha
    show a < t.next + 1
    rcases List.mem_cons.mp ha with hself | hold
    · lia
    · have := h.pending_lt a hold
      lia
  pending_nodup := by
    rw [pending_add]
    refine List.nodup_cons.mpr ⟨?_, h.pending_nodup⟩
    intro hmem
    have := h.pending_lt t.next hmem
    lia

theorem sound_apply {t : RtTable file} (h : Sound t) (msg : RtUpdate) :
    Sound (t.applyRtUpdates msg) := by
  unfold applyRtUpdates
  split
  · exact sound_add h msg.entry
  · exact h

theorem sound_purge {t : RtTable file} (h : Sound t) :
    Sound t.purgeRtTable where
  rt_lt := by simp [purgeRtTable, deleteSinglyLl]
  rt_live := by simp [purgeRtTable, deleteSinglyLl]
  pending_lt := h.pending_lt
  pending_nodup := h.pending_nodup

theorem sound_empty {t : RtTable file} (h : Sound t) :
    Sound t.rtEmptyChangeList where
  rt_lt := h.rt_lt
  rt_live := h.rt_live
  pending_lt := by simp
  pending_nodup := by simp

theorem sound_setReaders {t : RtTable file} (h : Sound t)
    (readers : List file) : Sound { t with pollReadersList := readers } where
  rt_lt := h.rt_lt
  rt_live := h.rt_live
  pending_lt := h.pending_lt
  pending_nodup := h.pending_nodup

/-!
## Announced entries

An update points to an entry it does not own.
-/

/-- Every pending update points to a live entry of the table. -/
def Linked (t : RtTable file) : Prop :=
  forall a, a ∈ t.pending -> a ∈ t.rt ∧ exists entry, t.heap a = .live entry

theorem linked_of_pending_nil {t : RtTable file} (h : t.pending = []) :
    t.Linked := by
  intro a ha
  rw [h] at ha
  cases ha

theorem linked_add {t : RtTable file} (hsound : Sound t) (h : t.Linked)
    (entry : RtEntry) : (t.addRtTableEntryByVal entry).Linked := by
  intro a ha
  rw [pending_add] at ha
  show a ∈ t.next :: t.rt ∧
    exists e, Function.update t.heap t.next (.live entry) a = .live e
  rcases List.mem_cons.mp ha with hself | hold
  · rw [hself, Function.update_self]
    exact ⟨List.mem_cons_self, entry, rfl⟩
  · have hlt := hsound.pending_lt a hold
    rw [Function.update_of_ne (by lia)]
    exact ⟨List.mem_cons_of_mem _ (h a hold).left, (h a hold).right⟩

theorem linked_apply {t : RtTable file} (hsound : Sound t) (h : t.Linked)
    (msg : RtUpdate) : (t.applyRtUpdates msg).Linked := by
  unfold applyRtUpdates
  split
  · exact linked_add hsound h msg.entry
  · exact h

theorem linked_purge_iff (t : RtTable file) :
    t.purgeRtTable.Linked <-> t.pending = [] := by
  constructor
  · intro h
    rw [List.eq_nil_iff_forall_not_mem]
    intro a ha
    cases (h a ha).left
  · intro h
    exact linked_of_pending_nil h

theorem cells_add {t : RtTable file} (h : Sound t) (entry : RtEntry) :
    (t.addRtTableEntryByVal entry).cells = .live entry :: t.cells := by
  show (t.next :: t.rt).map (Function.update t.heap t.next (.live entry)) = _
  rw [List.map_cons, Function.update_self, cells]
  congr 1
  apply List.map_congr_left
  intro a ha
  have hlt := h.rt_lt a ha
  exact Function.update_of_ne (by lia) _ _

theorem cells_purge (t : RtTable file) : t.purgeRtTable.cells = [] := rfl

end RtTable
end RIBDriver
