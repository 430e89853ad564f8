import RIBDriver.Common.HeapList.Reversal
import RIBDriver.Rt.InMemory.Lists

/-!
# The variables in memory as the protocols see them

The protocols are stated over lists of entries, updates and files.  What the
driver does in memory is the same, as long as no update points to an entry that
has been purged, no freed vector is used and no counter or pointer overflows:
no operation faults, and each gives the same answer.
-/

namespace RIBDriver
namespace HeapList
namespace InMemory

variable {file : Type _}

/-!
## What may be asked
-/

/-- `used` is a bound on the addresses handed out. -/
structure Spec (file : Type _) where
  g : Globals file
  used : Nat

namespace Spec

variable [DecidableEq file]

def init : Spec file where
  g := Globals.init
  used := 0

def isLive : UpdateVector -> Bool
  | .live _ => true
  | _ => false

def isFreed : UpdateVector -> Bool
  | .freed _ => true
  | _ => false

def undangling (t : RtTable file) : Bool :=
  t.pending.all fun a => decide (a ∈ t.rt)

/-- Room for an entry and its update.  The number of updates is returned as an
`int`. -/
def hasRoom (t : RtTable file) : Bool :=
  decide (t.rt.length + 1 < UInt32.size ∧
    t.rtChangeList.length + 1 < 2147483648)

def canAsk (s : Spec file) : Op file -> Bool
  | .poll _ _ _ => decide (s.g.table.pollReadersList.length + 1 < UInt32.size)
  | .readEntry allocOk =>
      !allocOk || !isSinglyLlEmpty s.g.blackListedPollReadersList ||
        undangling s.g.table
  | .copy => decide (s.g.rtUpdateVectorCount = 0) ||
      isLive s.g.rtUpdateVector
  | .readExit _ =>
      decide (s.g.blackListedPollReadersList.length + 1 < UInt32.size) &&
        (decide (s.g.rtGetPollReaderCount ≠ 1) || !isFreed s.g.rtUpdateVector)
  | .update _ => hasRoom s.g.table
  | .create _ => hasRoom s.g.table
  | .prepare allocOk => !allocOk || undangling s.g.table
  | .lastSubscriber => !isFreed s.g.rtUpdateVector
  | .purge => true
  | .discard => true
  | .info => true

def perform (g : Globals file) : Op file -> Option (Globals file × Answer)
  | .poll f nonblock interrupted =>
      some ((g.rtPoll f nonblock interrupted).1,
        .mask (g.rtPoll f nonblock interrupted).2)
  | .readEntry allocOk => some (g.rtReadEntry allocOk, .done)
  | .copy =>
      (g.announced.mapM RtTable.VectorCell.update?).map fun records =>
        (g, .copied records)
  | .readExit f => some (g.rtReadExit f, .done)
  | .update msg => some (g.rtWrite msg, .done)
  | .create entry =>
      some ({ g with table := g.table.addRtTableEntryByVal entry }, .done)
  | .purge => some ({ g with table := g.table.purgeRtTable }, .done)
  | .discard => some ({ g with table := g.table.rtEmptyChangeList }, .done)
  | .prepare allocOk => some (g.refreshUpdateVector allocOk, .done)
  | .lastSubscriber =>
      some ({ g with
        table := g.table.rtEmptyChangeList
        rtUpdateVectorCount := 0
        rtUpdateVector := .null }, .done)
  | .info =>
      some (g, .fields [getNodeCountSinglyLl g.table.rt,
        getNodeCountSinglyLl g.table.rt,
        getNodeCountSinglyLl g.table.rtChangeList, g.rtGetPollReaderCount,
        getNodeCountSinglyLl g.blackListedPollReadersList])

/-- An operation hands out at most four addresses, each of eight bytes. -/
def call (s : Spec file) (op : Op file) : Option (Spec file × Answer) :=
  if s.used + 4 < UInt64.size ∧ s.canAsk op = true then
    (perform s.g op).map fun r => ({ g := r.1, used := s.used + 4 }, r.2)
  else none

end Spec

/-!
## Representation
-/

def entryBytes : EntryCell -> List UInt8
  | .live entry => entry.bytes
  | _ => []

inductive SameVector : UpdateVector -> RecordVector -> Prop where
  | null : SameVector .null .null
  | live {cells : List RtTable.VectorCell} {records : List RtUpdate}
      (h : cells.map RtTable.VectorCell.update? = records.map some) :
      SameVector (.live cells) (.live records)
  | freed {cells : List RtTable.VectorCell} {records : List RtUpdate} :
      SameVector (.freed cells) (.freed records)

structure Shape where
  entries : List Item
  changes : List Item
  readers : List Item
  black : List Item
  address : Nat -> Nat

def RtMem.memory (m : RtMem) : Memory where
  heap := m.heap
  lists := [m.rt, m.rtChangeList, m.pollReadersList,
    m.blackListedPollReadersList]

def Shape.lists (x : Shape) : List (List Item) :=
  [x.entries, x.changes, x.readers, x.black]

variable (ptr : FilePointers file) (order : ByteOrder)

structure Stores (m : RtMem) (g : Globals file) (used : Nat) (x : Shape) :
    Prop where
  lists : Represents m.memory x.lists
  entries : x.entries.map (fun i => (i.data, i.payload)) =
    g.table.rt.map fun a => (x.address a, entryBytes (g.table.heap a))
  changes : payloads x.changes = g.table.rtChangeList.map fun data =>
    preserveBytes order data.opCode (some (x.address data.entry))
  readers : payloads x.readers = g.table.pollReadersList.map ptr.bytes
  black : payloads x.black = g.blackListedPollReadersList.map ptr.bytes
  vector : SameVector g.rtUpdateVector m.rtUpdateVector
  count : m.rtUpdateVectorCount = g.rtUpdateVectorCount
  rwSem : m.rwSem = g.rwSem
  sound : g.table.Sound
  addressed : forall a, a < g.table.next -> x.address a + 1 < UInt64.size
  used : m.heap.next ≤ used

section Facts

variable {ptr order} {m : RtMem} {g : Globals file} {n : Nat} {x : Shape}

theorem Stores.ownsEntries (h : Stores ptr order m g n x) :
    Owns m.heap m.rt x.entries := h.lists.owns 0 _ _ rfl rfl

theorem Stores.ownsChanges (h : Stores ptr order m g n x) :
    Owns m.heap m.rtChangeList x.changes := h.lists.owns 1 _ _ rfl rfl

theorem Stores.ownsReaders (h : Stores ptr order m g n x) :
    Owns m.heap m.pollReadersList x.readers := h.lists.owns 2 _ _ rfl rfl

theorem Stores.ownsBlack (h : Stores ptr order m g n x) :
    Owns m.heap m.blackListedPollReadersList x.black :=
  h.lists.owns 3 _ _ rfl rfl

theorem Stores.mono {n' : Nat} (h : Stores ptr order m g n x) (hn : n ≤ n') :
    Stores ptr order m g n' x :=
  { h with used := Nat.le_trans h.used hn }

theorem count_of_owns {alpha : Type _} {h : Heap Cell} {ll : LlT}
    {items : List Item} {xs : List alpha} {f : alpha -> List UInt8}
    (howns : Owns h ll items) (hitems : payloads items = xs.map f) :
    ll.nodeCount.toNat = xs.length := by
  have hlength := congrArg List.length hitems
  rw [payloads, List.length_map, List.length_map] at hlength
  rw [howns.count, hlength]

theorem Stores.countEntries (h : Stores ptr order m g n x) :
    m.rt.nodeCount.toNat = g.table.rt.length := by
  have hlength := congrArg List.length h.entries
  rw [List.length_map, List.length_map] at hlength
  rw [h.ownsEntries.count, hlength]

theorem Stores.countChanges (h : Stores ptr order m g n x) :
    m.rtChangeList.nodeCount.toNat = g.table.rtChangeList.length :=
  count_of_owns h.ownsChanges h.changes

theorem Stores.countReaders (h : Stores ptr order m g n x) :
    m.pollReadersList.nodeCount.toNat = g.table.pollReadersList.length :=
  count_of_owns h.ownsReaders h.readers

theorem Stores.countBlack (h : Stores ptr order m g n x) :
    m.blackListedPollReadersList.nodeCount.toNat =
      g.blackListedPollReadersList.length :=
  count_of_owns h.ownsBlack h.black

theorem nodeCount_eq_iff {c k : UInt32} {len : Nat} (hc : c.toNat = len) :
    c = k <-> len = k.toNat := by
  rw [← UInt32.toNat_inj, hc]

end Facts

/-!
## The change list and the entries
-/

section Tables

variable {ptr order} {m : RtMem} {g : Globals file} {n : Nat} {x : Shape}

theorem length_preserveBytes (opCode : UInt32) (entry : Option Nat) :
    (preserveBytes order opCode entry).length = 16 := by
  unfold preserveBytes
  rw [List.length_append, List.length_append, order.length_encode,
    List.length_replicate, length_pointerBytes]

theorem map_entries_update {t : RtTable file} (hsound : t.Sound)
    (address : Nat -> Nat) (place : Nat) (entry : RtEntry) :
    t.rt.map (fun a => (Function.update address t.next place a,
        entryBytes (Function.update t.heap t.next (.live entry) a))) =
      t.rt.map fun a => (address a, entryBytes (t.heap a)) := by
  apply List.map_congr_left
  intro a ha
  have hlt := hsound.rt_lt a ha
  rw [Function.update_of_ne (by lia), Function.update_of_ne (by lia)]

theorem map_changes_update {t : RtTable file} (hsound : t.Sound)
    (address : Nat -> Nat) (place : Nat) :
    t.rtChangeList.map (fun data => preserveBytes order data.opCode
        (some (Function.update address t.next place data.entry))) =
      t.rtChangeList.map fun data =>
        preserveBytes order data.opCode (some (address data.entry)) := by
  apply List.map_congr_left
  intro data hdata
  have hlt := hsound.pending_lt data.entry (List.mem_map_of_mem hdata)
  rw [Function.update_of_ne (by lia)]

theorem stores_addEntry (h : Stores ptr order m g n x) (entry : RtEntry)
    (hroom : Spec.hasRoom g.table = true) (hn : n + 4 < UInt64.size) :
    exists m' x', addRtTableEntryByVal order m entry = some m' ∧
      Stores ptr order m'
        { g with table := g.table.addRtTableEntryByVal entry } (n + 4) x' := by
  have hbounds := of_decide_eq_true hroom
  have hlength : entry.bytes.length = (48 : UInt32).toNat := entry.length_bytes
  have hentries : x.entries.length + 1 < UInt32.size := by
    rw [← h.ownsEntries.count, h.countEntries]
    exact hbounds.left
  have hchanges : x.changes.length + 1 < UInt32.size := by
    rw [← h.ownsChanges.count, h.countChanges]
    have hless := hbounds.right
    unfold UInt32.size
    lia
  rcases addNodeByVal_front h.ownsEntries hlength.ge hentries with
    ⟨h1, rt, i, hadd, hpayload, howns, hlocal⟩
  rw [List.take_of_length_le hlength.le] at hpayload
  have hrep1 : Represents
      { heap := h1, lists := [rt, m.rtChangeList, m.pollReadersList,
          m.blackListedPollReadersList] }
      [i :: x.entries, x.changes, x.readers, x.black] :=
    represents_set h.lists (l := 0) rfl howns hlocal
  rcases howns.chain.left.node with ⟨dataSize, hnode⟩
  have hhead : rt.head = some i.node := howns.head
  have hmsg : (preserveBytes order rtRouteAdd (some i.data)).length =
      (16 : UInt32).toNat := length_preserveBytes rtRouteAdd (some i.data)
  have howns1 : Owns h1 m.rtChangeList x.changes :=
    hrep1.owns 1 _ _ rfl rfl
  rcases addNodeByVal_becomes howns1 hmsg.ge hchanges with
    ⟨h2, changes, hadd', items, howns', hpayloads, hlocal'⟩
  rw [List.take_of_length_le hmsg.le] at hpayloads
  have hrep2 : Represents
      { heap := h2, lists := [rt, changes, m.pollReadersList,
          m.blackListedPollReadersList] }
      [i :: x.entries, items, x.readers, x.black] :=
    represents_set hrep1 (l := 1) rfl howns' hlocal'
  have hnext : h2.next = m.heap.next + 4 := by
    rw [next_addNodeByVal hadd', next_addNodeByVal hadd]
  -- the entry is where the head of the table points
  refine ⟨{ m with heap := h2, rt := rt, rtChangeList := changes }, { x with
    entries := i :: x.entries
    changes := items
    address := Function.update x.address g.table.next i.data }, ?_, ?_⟩
  · simp only [addRtTableEntryByVal, hadd, Option.bind_eq_bind,
      Option.bind_some, hhead, deref_of_read hnode, hadd']
  · constructor
    · exact hrep2
    · show (i.data, i.payload) :: x.entries.map _ =
        (g.table.next :: g.table.rt).map _
      rw [List.map_cons, h.entries]
      congr 1
      · simp [RtTable.addRtTableEntryByVal, hpayload, entryBytes]
      · exact (map_entries_update h.sound x.address i.data entry).symm
    · show payloads items = List.map _ (_ :: g.table.rtChangeList)
      rw [hpayloads, h.changes, List.map_cons]
      congr 1
      · simp
      · exact (map_changes_update h.sound x.address i.data).symm
    · exact h.readers
    · exact h.black
    · exact h.vector
    · exact h.count
    · exact h.rwSem
    · exact RtTable.sound_add h.sound entry
    · intro a ha
      change a < g.table.next + 1 at ha
      show Function.update x.address g.table.next i.data a + 1 < _
      rcases Nat.lt_succ_iff_lt_or_eq.mp ha with hlt | hself
      · rw [Function.update_of_ne (by lia)]
        exact h.addressed a hlt
      · rw [hself, Function.update_self]
        have hlive := Heap.lt_next_of_read howns.chain.left.data
        have hfirst := next_addNodeByVal hadd
        have hused := h.used
        lia
    · show h2.next ≤ n + 4
      have hused := h.used
      lia

theorem stores_purge (h : Stores ptr order m g n x) :
    exists m' x', purgeRtTable m = some m' ∧
      Stores ptr order m' { g with table := g.table.purgeRtTable } n x' := by
  rcases deleteSinglyLl_becomes h.ownsEntries with
    ⟨h1, rt, hcall, items, howns, hpayloads, hlocal⟩
  have hnil : items = [] := List.map_eq_nil_iff.mp hpayloads
  have hnext := next_deleteSinglyLl hcall
  refine ⟨{ m with heap := h1, rt := rt }, { x with entries := items }, ?_, ?_⟩
  · simp only [purgeRtTable, hcall, Option.bind_eq_bind, Option.bind_some]
  · exact
      { lists := represents_set h.lists (l := 0) rfl howns hlocal
        entries := by rw [hnil]; rfl
        changes := h.changes
        readers := h.readers
        black := h.black
        vector := h.vector
        count := h.count
        rwSem := h.rwSem
        sound := RtTable.sound_purge h.sound
        addressed := h.addressed
        used := by
          show h1.next ≤ n
          rw [hnext]
          exact h.used }

theorem stores_emptyChangeList (h : Stores ptr order m g n x) :
    exists m' x', rtEmptyChangeList m = some m' ∧
      m'.rtUpdateVector = m.rtUpdateVector ∧
        Stores ptr order m' { g with table := g.table.rtEmptyChangeList } n
          x' := by
  rcases deleteSinglyLl_becomes h.ownsChanges with
    ⟨h1, changes, hcall, items, howns, hpayloads, hlocal⟩
  have hnext := next_deleteSinglyLl hcall
  refine ⟨{ m with heap := h1, rtChangeList := changes },
    { x with changes := items }, ?_, rfl, ?_⟩
  · simp only [rtEmptyChangeList, hcall, Option.bind_eq_bind, Option.bind_some]
  · exact
      { lists := represents_set h.lists (l := 1) rfl howns hlocal
        entries := h.entries
        changes := hpayloads
        readers := h.readers
        black := h.black
        vector := h.vector
        count := h.count
        rwSem := h.rwSem
        sound := RtTable.sound_empty h.sound
        addressed := h.addressed
        used := by
          show h1.next ≤ n
          rw [hnext]
          exact h.used }

/-!
## The snapshot
-/

theorem take_preserveBytes (opCode : UInt32) (entry : Option Nat) :
    (preserveBytes order opCode entry).take 4 = order.encode opCode :=
  List.take_left' (order.length_encode opCode)

theorem drop_preserveBytes (opCode : UInt32) (entry : Option Nat) :
    (preserveBytes order opCode entry).drop 8 = pointerBytes order entry := by
  unfold preserveBytes
  rw [← List.append_assoc]
  apply List.drop_left'
  rw [List.length_append, order.length_encode, List.length_replicate]

theorem bytesAt_of_read {h : Heap Cell} {a : Nat} {payload : List UInt8}
    (hread : h.read a = some (.bytes payload)) :
    bytesAt h (some a) = some payload := by
  simp [bytesAt, hread]

theorem readUpdates_segment {h : Heap Cell} {after : Option Nat}
    {items : List Item} {updates : List RtPreserveUpdate}
    {address : Nat -> Nat} {cells : Nat -> EntryCell}
    (hitems : Segment h after items)
    (hpayloads : payloads items = updates.map fun data =>
      preserveBytes order data.opCode (some (address data.entry)))
    (hentries : forall data, data ∈ updates -> exists entry,
      cells data.entry = .live entry ∧
        h.read (address data.entry) = some (.bytes entry.bytes) ∧
          address data.entry + 1 < UInt64.size) :
    exists records,
      readUpdates order h updates.length (headOr after items) = some records ∧
        (updates.map fun data => (
          { opCode := data.opCode
            entry := (cells data.entry).contents
            src := data.entry } : RtTable.VectorCell)).map
              RtTable.VectorCell.update? = records.map some := by
  induction updates generalizing items with
  | nil => exact ⟨[], rfl, rfl⟩
  | cons data rest ih =>
      cases items with
      | nil => cases hpayloads
      | cons i items =>
          rw [payloads_cons, List.map_cons, List.cons.injEq] at hpayloads
          rcases hentries data List.mem_cons_self with
            ⟨entry, hcell, hread, hsize⟩
          rcases ih hitems.right hpayloads.right
            (fun d hd => hentries d (List.mem_cons_of_mem _ hd)) with
              ⟨records, hrest, hcells⟩
          rcases hitems.left.node with ⟨dataSize, hnode⟩
          have hbytes := bytesAt_of_read hitems.left.data
          rw [hpayloads.left] at hbytes
          refine ⟨{ opCode := data.opCode, entry := entry } :: records, ?_, ?_⟩
          · simp only [List.length_cons, readUpdates, headOr_cons,
              deref_of_read hnode, Option.bind_eq_bind, Option.bind_some,
              hbytes, drop_preserveBytes, pointerOf_pointerBytes order hsize,
              bytesAt_of_read hread, hrest, take_preserveBytes,
              order.decode_encode, RtEntry.ofBytes_bytes]
          · rw [List.map_cons, List.map_cons, List.map_cons, hcells, hcell]
            rfl

theorem read_of_entry (h : Stores ptr order m g n x) {a : Nat}
    (ha : a ∈ g.table.rt) :
    exists entry, g.table.heap a = .live entry ∧
      m.heap.read (x.address a) = some (.bytes entry.bytes) := by
  rcases h.sound.rt_live a ha with ⟨entry, hlive⟩
  have hmem : (x.address a, entryBytes (g.table.heap a)) ∈
      g.table.rt.map fun a => (x.address a, entryBytes (g.table.heap a)) :=
    List.mem_map.mpr ⟨a, ha, rfl⟩
  rw [← h.entries] at hmem
  rcases List.mem_map.mp hmem with ⟨i, hi, hpair⟩
  rcases Prod.mk.inj hpair with ⟨hdata, hpayload⟩
  have hread := (data_of_owns h.ownsEntries.chain h.ownsEntries.nodup hi).left
  rw [hdata, hpayload, hlive] at hread
  exact ⟨entry, hlive, hread⟩

theorem stores_refresh (h : Stores ptr order m g n x) (allocOk : Bool)
    (hask : allocOk = true -> Spec.undangling g.table = true) :
    exists m', refreshUpdateVector order m allocOk = some m' ∧
      Stores ptr order m' (g.refreshUpdateVector allocOk) n x := by
  cases allocOk with
  | false =>
      exact ⟨_, rfl, { h with vector := SameVector.null, count := rfl }⟩
  | true =>
      have hlinked := List.all_eq_true.mp (hask rfl)
      have hentries : forall data, data ∈ g.table.rtChangeList ->
          exists entry, g.table.heap data.entry = .live entry ∧
            m.heap.read (x.address data.entry) = some (.bytes entry.bytes) ∧
              x.address data.entry + 1 < UInt64.size := by
        intro data hdata
        have hpending : data.entry ∈ g.table.pending :=
          List.mem_map_of_mem hdata
        rcases read_of_entry h (of_decide_eq_true (hlinked _ hpending)) with
          ⟨entry, hlive, hread⟩
        exact ⟨entry, hlive, hread,
          h.addressed _ (h.sound.pending_lt _ hpending)⟩
      rcases readUpdates_segment h.ownsChanges.chain h.changes hentries with
        ⟨records, hread, hcells⟩
      rw [← h.ownsChanges.head, ← h.countChanges] at hread
      refine ⟨{ m with
        rtUpdateVector := .live records
        rtUpdateVectorCount := m.rtChangeList.nodeCount.toNat }, ?_,
        { h with vector := SameVector.live hcells, count := ?_ }⟩
      · simp only [refreshUpdateVector, if_true, hread, Option.bind_eq_bind,
          Option.bind_some]
      · show m.rtChangeList.nodeCount.toNat = (g.table.rtChangeList.map _).length
        rw [h.countChanges, List.length_map]

end Tables

/-!
## The lists of readers
-/

section Readers

variable {ptr order} {m : RtMem} {g : Globals file} {n : Nat} {x : Shape}

theorem stores_setReaders (h : Stores ptr order m g n x) {h' : Heap Cell}
    {ll' : LlT} {readers : List file} {n' : Nat}
    (hbecomes : Becomes m.heap x.readers h' ll' (readers.map ptr.bytes))
    (hused : h'.next ≤ n') :
    exists x', Stores ptr order { m with heap := h', pollReadersList := ll' }
      { g with table := { g.table with pollReadersList := readers } } n' x' := by
  rcases hbecomes with ⟨items, howns, hpayloads, hlocal⟩
  exact ⟨{ x with readers := items },
    { lists := represents_set h.lists (l := 2) rfl howns hlocal
      entries := h.entries
      changes := h.changes
      readers := hpayloads
      black := h.black
      vector := h.vector
      count := h.count
      rwSem := h.rwSem
      sound := RtTable.sound_setReaders h.sound readers
      addressed := h.addressed
      used := hused }⟩

theorem stores_blackList (h : Stores ptr order m g n x) (f : file)
    (hroom : g.blackListedPollReadersList.length + 1 < UInt32.size) :
    exists m' x', blackList ptr m f = some m' ∧
      Stores ptr order m'
        { g with
          blackListedPollReadersList :=
            RIBDriver.singlyLlAddNodeByVal g.blackListedPollReadersList f }
          (n + 4) x' := by
  rcases addNodeByVal_files ptr h.ownsBlack h.black f hroom with
    ⟨h', ll', rc, hadd, items, howns, hpayloads, hlocal⟩
  refine ⟨{ m with heap := h', blackListedPollReadersList := ll' },
    { x with black := items }, ?_, ?_⟩
  · simp only [blackList, Option.bind_eq_bind, Option.bind_some, hadd]
  · exact
      { lists := represents_set h.lists (l := 3) rfl howns hlocal
        entries := h.entries
        changes := h.changes
        readers := h.readers
        black := hpayloads
        vector := h.vector
        count := h.count
        rwSem := h.rwSem
        sound := h.sound
        addressed := h.addressed
        used := by
          show h'.next ≤ n + 4
          have hnext := next_addNodeByVal hadd
          have hold := h.used
          lia }

theorem stores_rotate (h : Stores ptr order m g n x) :
    Stores ptr order
      { m with
        pollReadersList := m.blackListedPollReadersList
        blackListedPollReadersList := { nodeCount := 0, head := none } }
      { g with
        table := { g.table with
          pollReadersList := g.blackListedPollReadersList }
        blackListedPollReadersList := [] } n
      { x with readers := x.black, black := [] } where
  lists :=
    have hmove : Represents
        { m.memory with
          lists := (m.memory.lists.set 2 m.blackListedPollReadersList).set 3
            ⟨0, none⟩ } ((x.lists.set 2 x.black).set 3 []) :=
      represents_move h.lists rfl rfl
    hmove
  entries := h.entries
  changes := h.changes
  readers := h.black
  black := rfl
  vector := h.vector
  count := h.count
  rwSem := h.rwSem
  sound := RtTable.sound_setReaders h.sound _
  addressed := h.addressed
  used := h.used

theorem mutexIsRtUpdated_eq (h : Stores ptr order m g n x) :
    mutexIsRtUpdated m = g.table.mutexIsRtUpdated := by
  have hzero := nodeCount_eq_iff (k := 0) h.countChanges
  unfold mutexIsRtUpdated RtTable.mutexIsRtUpdated getNodeCountSinglyLl
  rw [Bool.eq_iff_iff, bne_iff_ne, bne_iff_ne, Ne, hzero]
  rfl

variable [DecidableEq file]

theorem stores_register (h : Stores ptr order m g n x) (f : file)
    (hroom : g.table.pollReadersList.length + 1 < UInt32.size) :
    exists m' x', addRtTableUniquePollReader ptr m f = some m' ∧
      Stores ptr order m'
        { g with table := g.table.addRtTableUniquePollReader f } (n + 4)
          x' := by
  rcases isValuePresent_files ptr h.ownsReaders h.readers f with
    ⟨found, hsearch, hfound⟩
  unfold addRtTableUniquePollReader RtTable.addRtTableUniquePollReader
  rw [hsearch, RIBDriver.singlyLlIsValuePresent]
  cases found with
  | some node =>
      rw [← hfound]
      exact ⟨m, x, rfl, h.mono (Nat.le_add_right n 4)⟩
  | none =>
      rcases addNodeByVal_files ptr h.ownsReaders h.readers f hroom with
        ⟨h', ll', rc, hadd, hbecomes⟩
      have hused : h'.next ≤ n + 4 := by
        have hnext := next_addNodeByVal hadd
        have hold := h.used
        lia
      rcases stores_setReaders h hbecomes hused with ⟨x', hstores⟩
      rw [← hfound]
      refine ⟨{ m with heap := h', pollReadersList := ll' }, x', ?_, hstores⟩
      simp only [Option.bind_eq_bind, Option.bind_some, hadd]

theorem stores_deletePollReader (h : Stores ptr order m g n x) (f : file) :
    exists m' x', deletePollReader ptr m f = some m' ∧
      Stores ptr order m'
        { g with table := { g.table with
            pollReadersList :=
              if RIBDriver.singlyLlIsValuePresent g.table.pollReadersList f then
                RIBDriver.singlyLlDeleteNodeByValue g.table.pollReadersList f
              else g.table.pollReadersList } } n x' := by
  rcases isValuePresent_files ptr h.ownsReaders h.readers f with
    ⟨found, hsearch, hfound⟩
  unfold deletePollReader
  rw [hsearch, RIBDriver.singlyLlIsValuePresent, ← hfound]
  cases found with
  | none => exact ⟨m, x, rfl, h⟩
  | some node =>
      rcases deleteNodeByValue_files ptr h.ownsReaders h.readers f with
        ⟨h', ll', count, hdelete, hbecomes⟩
      have hused : h'.next ≤ n := by
        rw [next_deleteNodeByValue hdelete]
        exact h.used
      rcases stores_setReaders h hbecomes hused with ⟨x', hstores⟩
      refine ⟨{ m with heap := h', pollReadersList := ll' }, x', ?_, hstores⟩
      simp only [Option.bind_eq_bind, Option.bind_some, hdelete]

theorem stores_poll (h : Stores ptr order m g n x) (f : file)
    (nonblock interrupted : Bool)
    (hroom : g.table.pollReadersList.length + 1 < UInt32.size) :
    exists m' x', rtPoll ptr m f nonblock interrupted =
        some (m', (g.rtPoll f nonblock interrupted).2) ∧
      Stores ptr order m' (g.rtPoll f nonblock interrupted).1 (n + 4) x' := by
  have hmono := h.mono (Nat.le_add_right n 4)
  rcases isValuePresent_files ptr h.ownsBlack h.black f with
    ⟨found, hsearch, hfound⟩
  have hreaders := nodeCount_eq_iff (k := 0) h.countReaders
  rw [Globals.rtPoll_eq]
  unfold rtPoll
  rw [hsearch, mutexIsRtUpdated_eq h, RIBDriver.singlyLlIsValuePresent,
    ← hfound]
  simp only [Option.bind_eq_bind, Option.bind_some]
  cases found with
  | none =>
      cases interrupted || g.table.mutexIsRtUpdated with
      | true => exact ⟨m, x, rfl, hmono⟩
      | false =>
          cases nonblock with
          | true => exact ⟨m, x, rfl, hmono⟩
          | false =>
              rcases stores_register h f hroom with ⟨m', x', hcall, hstores⟩
              refine ⟨m', x', ?_, hstores⟩
              simp [hcall]
  | some node =>
      cases interrupted || g.table.mutexIsRtUpdated with
      | true => exact ⟨m, x, rfl, hmono⟩
      | false =>
          by_cases hempty : g.rtGetPollReaderCount = 0
          · refine ⟨{ m with
              pollReadersList := m.blackListedPollReadersList
              blackListedPollReadersList := { nodeCount := 0, head := none } },
              { x with readers := x.black, black := [] }, ?_, ?_⟩
            · simp [hreaders.mpr hempty, hempty]
            · simp only [hempty]
              exact stores_rotate hmono
          · have hsome : ¬ m.pollReadersList.nodeCount = 0 :=
              fun hzero => hempty (hreaders.mp hzero)
            refine ⟨m, x, ?_, ?_⟩
            · simp [hsome, hempty]
            · simp only [hempty]
              exact hmono

end Readers

/-!
## The other operations
-/

section Operations

variable {ptr order} {m : RtMem} {g : Globals file} {n : Nat} {x : Shape}

theorem stores_rwSem (h : Stores ptr order m g n x) (rwSem : RwSem) :
    Stores ptr order { m with rwSem := rwSem } { g with rwSem := rwSem } n x :=
  { h with rwSem := rfl }

theorem stores_clamp (h : Stores ptr order m g n x) :
    Stores ptr order (clampUpdateVectorCount m) g.clampUpdateVectorCount n
      x := by
  unfold clampUpdateVectorCount Globals.clampUpdateVectorCount
  rw [h.count]
  split
  · exact { h with count := rfl }
  · exact h

theorem stores_readEntry (h : Stores ptr order m g n x) (allocOk : Bool)
    (hask : allocOk = true -> g.blackListedPollReadersList = [] ->
      Spec.undangling g.table = true) :
    exists m', rtReadEntry order m allocOk = some m' ∧
      Stores ptr order m' (g.rtReadEntry allocOk) n x := by
  have hentered := stores_rwSem h
    { g.rwSem with readers := g.rwSem.readers + 1 }
  have hcount := nodeCount_eq_iff (k := 0) h.countBlack
  unfold rtReadEntry
  rw [h.rwSem]
  by_cases hblack : g.blackListedPollReadersList = []
  · rcases stores_refresh hentered allocOk (fun halloc => hask halloc hblack)
      with ⟨m', hcall, hstores⟩
    refine ⟨clampUpdateVectorCount m', ?_, ?_⟩
    · rw [if_pos (hcount.mpr (by rw [hblack]; rfl)), hcall]
      rfl
    · rw [Globals.rtReadEntry_first hblack]
      exact stores_clamp hstores
  · refine ⟨_, if_neg ?_, ?_⟩
    · intro hzero
      exact hblack (List.length_eq_zero_iff.mp (hcount.mp hzero))
    · rw [Globals.rtReadEntry_later hblack]
      exact hentered

theorem kfree_of_sameVector {v : UpdateVector} {r : RecordVector}
    (h : SameVector v r) (hfreed : Spec.isFreed v = false) :
    exists r', r.kfree = some r' ∧ SameVector v.kfree r' := by
  cases h with
  | null => exact ⟨.null, rfl, SameVector.null⟩
  | live hcells => exact ⟨.freed _, rfl, SameVector.freed⟩
  | freed => cases hfreed

theorem stores_endBatch (h : Stores ptr order m g n x)
    (hfreed : Spec.isFreed g.rtUpdateVector = false) :
    exists m' x', endBatch m = some m' ∧
      Stores ptr order m'
        { g with
          table := g.table.rtEmptyChangeList
          rtUpdateVectorCount := 0
          rtUpdateVector := g.rtUpdateVector.kfree } n x' := by
  rcases stores_emptyChangeList h with ⟨m1, x1, hempty, hsame, hstores⟩
  rcases kfree_of_sameVector hstores.vector hfreed with ⟨r, hfree, hvector⟩
  refine ⟨{ m1 with rtUpdateVectorCount := 0, rtUpdateVector := r }, x1, ?_,
    { hstores with vector := hvector, count := rfl }⟩
  simp only [endBatch, hempty, Option.bind_eq_bind, Option.bind_some, hfree]

theorem stores_lastSubscriber (h : Stores ptr order m g n x)
    (hfreed : Spec.isFreed g.rtUpdateVector = false) :
    exists m' x', lastSubscriber m = some m' ∧
      Stores ptr order m'
        { g with
          table := g.table.rtEmptyChangeList
          rtUpdateVectorCount := 0
          rtUpdateVector := .null } n x' := by
  have hzero : Stores ptr order { m with rtUpdateVectorCount := 0 }
      { g with rtUpdateVectorCount := 0 } n x := { h with count := rfl }
  rcases stores_emptyChangeList hzero with ⟨m1, x1, hempty, hsame, hstores⟩
  rcases kfree_of_sameVector hstores.vector hfreed with ⟨r, hfree, _⟩
  refine ⟨{ m1 with rtUpdateVector := .null }, x1, ?_,
    { hstores with vector := SameVector.null }⟩
  simp only [lastSubscriber, hempty, Option.bind_eq_bind, Option.bind_some,
    hfree]

theorem copyRecords_eq (h : Stores ptr order m g n x)
    (hask : g.rtUpdateVectorCount = 0 ∨ Spec.isLive g.rtUpdateVector = true) :
    exists records, copyRecords m = some records ∧
      g.announced.mapM RtTable.VectorCell.update? = some records := by
  have hvector := h.vector
  unfold copyRecords Globals.announced
  rw [h.count]
  cases hv : g.rtUpdateVector with
  | live cells =>
      rw [hv] at hvector
      cases hr : m.rtUpdateVector with
      | live records =>
          rw [hr] at hvector
          cases hvector with
          | live hcells =>
              refine ⟨records.take g.rtUpdateVectorCount, rfl, ?_⟩
              apply Transfer.mapM_update
              show (cells.take _).map _ = _
              rw [List.map_take, List.map_take, hcells]
      | null =>
          rw [hr] at hvector
          cases hvector
      | freed records =>
          rw [hr] at hvector
          cases hvector
  | null =>
      rw [hv] at hask hvector
      rcases hask with hzero | hlive
      · rw [hzero]
        cases hr : m.rtUpdateVector <;> exact ⟨[], rfl, rfl⟩
      · cases hlive
  | freed cells =>
      rw [hv] at hask hvector
      rcases hask with hzero | hlive
      · rw [hzero]
        cases hr : m.rtUpdateVector <;> exact ⟨[], rfl, rfl⟩
      · cases hlive

theorem countNodes_segment {h : Heap Cell} {items : List Item} {fuel : Nat}
    (hitems : Segment h none items) (hfuel : items.length < fuel) :
    countNodes h fuel (headOr none items) = some items.length := by
  induction items generalizing fuel with
  | nil =>
      cases fuel with
      | zero => cases hfuel
      | succ fuel => rfl
  | cons i rest ih =>
      cases fuel with
      | zero => cases hfuel
      | succ fuel =>
          rcases hitems.left.node with ⟨dataSize, hnode⟩
          rw [headOr_cons, countNodes, deref_of_read hnode]
          simp only [Option.bind_eq_bind, Option.bind_some,
            ih hitems.right (Nat.lt_of_succ_lt_succ hfuel), List.length_cons]

theorem rtInfo_eq (h : Stores ptr order m g n x) :
    rtInfo m = some [getNodeCountSinglyLl g.table.rt,
      getNodeCountSinglyLl g.table.rt,
      getNodeCountSinglyLl g.table.rtChangeList, g.rtGetPollReaderCount,
      getNodeCountSinglyLl g.blackListedPollReadersList] := by
  have howns := h.ownsEntries
  have hle := length_le_next howns.chain howns.nodup
  have hnodes := countNodes_segment howns.chain (Nat.lt_succ_of_le hle)
  rw [← howns.head, ← howns.count] at hnodes
  unfold rtInfo rounds
  rw [hnodes]
  simp only [Option.bind_eq_bind, Option.bind_some, h.countEntries,
    h.countChanges, h.countReaders, h.countBlack]
  rfl

variable [DecidableEq file]

theorem stores_readExit (h : Stores ptr order m g n x) (f : file)
    (hroom : g.blackListedPollReadersList.length + 1 < UInt32.size)
    (hfreed : g.rtGetPollReaderCount = 1 ->
      Spec.isFreed g.rtUpdateVector = false) :
    exists m' x', rtReadExit ptr m f = some m' ∧
      Stores ptr order m' (g.rtReadExit f) (n + 4) x' := by
  have hone := nodeCount_eq_iff (k := 1) h.countReaders
  -- the last registered reader ends the batch
  have hbatch : exists m1 x1,
      (if m.pollReadersList.nodeCount = 1 then endBatch m else some m) =
          some m1 ∧
        Stores ptr order m1
          (if g.rtGetPollReaderCount = 1 then
            { g with
              table := g.table.rtEmptyChangeList
              rtUpdateVectorCount := 0
              rtUpdateVector := g.rtUpdateVector.kfree }
          else g) n x1 := by
    by_cases hlast : g.rtGetPollReaderCount = 1
    · rw [if_pos (hone.mpr hlast), if_pos hlast]
      exact stores_endBatch h (hfreed hlast)
    · rw [if_neg (fun hcount => hlast (hone.mp hcount)), if_neg hlast]
      exact ⟨m, x, rfl, h⟩
  rcases hbatch with ⟨m1, x1, hfirst, hstores1⟩
  rcases stores_deletePollReader hstores1 f with ⟨m2, x2, hsecond, hstores2⟩
  rcases stores_blackList hstores2 f (by split <;> exact hroom) with
    ⟨m3, x3, hthird, hstores3⟩
  refine ⟨{ m3 with
    rwSem := { m3.rwSem with readers := m3.rwSem.readers - 1 } }, x3, ?_, ?_⟩
  · simp only [rtReadExit, hfirst, hsecond, hthird, Option.bind_eq_bind,
      Option.bind_some]
  · rw [hstores3.rwSem]
    exact stores_rwSem hstores3 _

end Operations

/-!
## Every sequence of operations
-/

section Runs

variable {ptr order}

def Refines (ptr : FilePointers file) (order : ByteOrder) (m : RtMem)
    (s : Spec file) : Prop :=
  exists x, Stores ptr order m s.g s.used x

theorem refines_start :
    Refines ptr order RtMem.init (Spec.init : Spec file) := by
  have hempty : forall (l : Nat) items,
      [([] : List Item), [], [], []][l]? = some items -> items = [] := by
    intro l items hitems
    have hmem := List.mem_of_getElem? hitems
    simpa using hmem
  refine ⟨⟨[], [], [], [], fun _ => 0⟩, ⟨rfl, ?_, ?_⟩, rfl, rfl, rfl, rfl,
    SameVector.null, rfl, rfl, RtTable.sound_init, ?_, Nat.le_refl _⟩
  · intro l ll items hll hitems
    have hmem := List.mem_of_getElem? hll
    have hlist : ll = initSinglyLl := by
      simpa [RtMem.memory, RtMem.init] using hmem
    rw [hlist, hempty l items hitems]
    exact ⟨rfl, rfl, trivial, List.nodup_nil⟩
  · intro l l' items items' _ hitems _
    rw [hempty l items hitems]
    exact List.disjoint_nil_left _
  · intro a ha
    cases ha

variable [DecidableEq file]

theorem call_refines_call (m : RtMem) (s : Spec file) (op : Op file)
    (s' : Spec file) (answer : Answer) (h : Refines ptr order m s)
    (hcall : s.call op = some (s', answer)) :
    exists m', call ptr order m op = some (m', answer) ∧
      Refines ptr order m' s' := by
  rcases h with ⟨x, h⟩
  unfold Spec.call at hcall
  split at hcall
  · rename_i hbounds
    rcases hbounds with ⟨hused, hask⟩
    rcases Option.map_eq_some_iff.mp hcall with ⟨⟨g, answer⟩, hperform, hpair⟩
    cases hpair
    have hmore := Nat.le_add_right s.used 4
    cases op with
    | poll f nonblock interrupted =>
        cases hperform
        rcases stores_poll h f nonblock interrupted (of_decide_eq_true hask)
          with ⟨m', x', hrun, hstores⟩
        exact ⟨m', by simp [call, hrun], x', hstores⟩
    | readEntry allocOk =>
        cases hperform
        rcases stores_readEntry h allocOk (by
          intro halloc hblack
          simpa [Spec.canAsk, halloc, isSinglyLlEmpty_iff.mpr hblack]
            using hask) with ⟨m', hrun, hstores⟩
        exact ⟨m', by simp [call, hrun], x, hstores.mono hmore⟩
    | copy =>
        rcases copyRecords_eq h (by simpa [Spec.canAsk] using hask) with
          ⟨records, hrun, hrecords⟩
        simp only [Spec.perform, hrecords, Option.map_some] at hperform
        cases hperform
        exact ⟨m, by simp [call, hrun], x, h.mono hmore⟩
    | readExit f =>
        cases hperform
        simp only [Spec.canAsk, Bool.and_eq_true, Bool.or_eq_true,
          decide_eq_true_eq, Bool.not_eq_true'] at hask
        rcases stores_readExit h f hask.left (by
          intro hone
          rcases hask.right with hother | hfreed
          · exact absurd hone hother
          · exact hfreed) with ⟨m', x', hrun, hstores⟩
        exact ⟨m', by simp [call, hrun], x', hstores⟩
    | update msg =>
        cases hperform
        unfold Globals.rtWrite RtTable.applyRtUpdates
        by_cases hadd : msg.opCode = rtRouteAdd
        · rcases stores_addEntry h msg.entry hask hused with
            ⟨m', x', hrun, hstores⟩
          refine ⟨m', by simp [call, applyRtUpdates, hadd, hrun], x', ?_⟩
          simp only [hadd, if_true]
          exact hstores
        · refine ⟨m, by simp [call, applyRtUpdates, hadd], x, ?_⟩
          simp only [hadd, if_false]
          exact h.mono hmore
    | create entry =>
        cases hperform
        rcases stores_addEntry h entry hask hused with ⟨m', x', hrun, hstores⟩
        exact ⟨m', by simp [call, hrun], x', hstores⟩
    | purge =>
        cases hperform
        rcases stores_purge h with ⟨m', x', hrun, hstores⟩
        exact ⟨m', by simp [call, hrun], x', hstores.mono hmore⟩
    | discard =>
        cases hperform
        rcases stores_emptyChangeList h with ⟨m', x', hrun, _, hstores⟩
        exact ⟨m', by simp [call, hrun], x', hstores.mono hmore⟩
    | prepare allocOk =>
        cases hperform
        rcases stores_refresh h allocOk (by
          intro halloc
          simpa [Spec.canAsk, halloc] using hask) with ⟨m', hrun, hstores⟩
        exact ⟨m', by simp [call, hrun], x, hstores.mono hmore⟩
    | lastSubscriber =>
        cases hperform
        rcases stores_lastSubscriber h (by simpa [Spec.canAsk] using hask) with
          ⟨m', x', hrun, hstores⟩
        exact ⟨m', by simp [call, hrun], x', hstores.mono hmore⟩
    | info =>
        cases hperform
        exact ⟨m, by simp [call, rtInfo_eq h], x, h.mono hmore⟩
  · cases hcall

/-- Operations of both paths that may be asked of the protocols' variables, in
any order, are executed in memory without a fault and with the same answers,
and leave chains of live nodes with the same contents. -/
theorem memory_refines_globals (ptr : FilePointers file) (order : ByteOrder)
    {ops : List (Op file)} {s : Spec file} {answers : List Answer}
    (h : Refinement.answers? Spec.call Spec.init ops = some (s, answers)) :
    exists m,
      Refinement.answers? (call ptr order) RtMem.init ops =
          some (m, answers) ∧
        Refines ptr order m s :=
  Refinement.answers?_of_related call_refines_call refines_start h

end Runs

def updateOne : RtUpdate where
  opCode := rtRouteAdd
  entry := {
    dstIp := Vector.replicate 16 1
    nxtHopIp := Vector.replicate 16 2
    oif := Vector.replicate 16 3 }

def smallPointers : FilePointers (Fin 4) where
  bytes := fun f => UInt8.ofNat f.val :: List.replicate 7 0
  length_bytes := fun _ => rfl
  injective := by decide

theorem memory_refines_globals_batch :
    exists (m : RtMem) (s : Spec (Fin 4)),
      Refinement.answers? (call smallPointers .little) RtMem.init
          [.poll 0 false false, .update updateOne, .poll 0 false false,
            .readEntry true, .copy, .readExit 0, .poll 0 false false, .purge,
            .create updateOne.entry, .info] =
        some (m, [.mask 0, .done, .mask Globals.pollInRdNorm, .done,
          .copied [updateOne], .done, .mask 0, .done, .done,
          .fields [1, 1, 1, 1, 0]]) ∧
      Refines smallPointers .little m s := by
  have hask : (Refinement.answers? Spec.call (Spec.init : Spec (Fin 4))
      [.poll 0 false false, .update updateOne, .poll 0 false false,
        .readEntry true, .copy, .readExit 0, .poll 0 false false, .purge,
        .create updateOne.entry, .info]).map Prod.snd =
      some [.mask 0, .done, .mask Globals.pollInRdNorm, .done,
        .copied [updateOne], .done, .mask 0, .done, .done,
        .fields [1, 1, 1, 1, 0]] := by
    decide +kernel
  rcases Option.map_eq_some_iff.mp hask with ⟨⟨s, answers⟩, hrun, hanswers⟩
  cases hanswers
  rcases memory_refines_globals smallPointers .little hrun with ⟨m, hm⟩
  exact ⟨m, s, hm⟩

end InMemory
end HeapList
end RIBDriver
