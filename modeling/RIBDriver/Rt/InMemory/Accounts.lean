import RIBDriver.Common.HeapList.Accounts
import RIBDriver.Rt.InMemory.Refinement

/-!
# The memory of the driver's lists

While the driver is loaded its lists lose nothing.  `cleanup_rt_table` frees the
entries and forgets the other three lists.
-/

namespace RIBDriver
namespace HeapList
namespace InMemory

variable {file : Type _}

/-- A node and a payload for each element of the four lists. -/
def cells (g : Globals file) : Nat :=
  2 * (g.table.rt.length + g.table.rtChangeList.length +
    g.table.pollReadersList.length + g.blackListedPollReadersList.length)

/-- `delete_singly_ll(rt->rt)`; the list itself and the table are no cells. -/
def cleanupRtTable (m : RtMem) : Option (Heap Cell) := do
  let (h, _) <- deleteSinglyLl m.heap m.rt
  some h

/-- What the lists gain is allocated and what they lose is freed. -/
def Conserves (m : RtMem) (g : Globals file) (m' : RtMem)
    (g' : Globals file) : Prop :=
  m'.heap.inUse + cells g = m.heap.inUse + cells g'

section Steps

variable {ptr : FilePointers file} {order : ByteOrder}
variable {m m' m'' : RtMem} {g g' g'' : Globals file} {n : Nat} {x : Shape}

theorem conserves_refl : Conserves m g m g := rfl

theorem conserves_trans (h : Conserves m g m' g')
    (h' : Conserves m' g' m'' g'') : Conserves m g m'' g'' := by
  unfold Conserves at *
  lia

theorem conserves_of_same (hheap : m'.heap = m.heap)
    (hcells : cells g' = cells g) : Conserves m g m' g' := by
  unfold Conserves
  rw [hheap, hcells]

theorem cells_add (entry : RtEntry) :
    cells { g with table := g.table.addRtTableEntryByVal entry } =
      cells g + 4 := by
  show 2 * (g.table.rt.length + 1 + (g.table.rtChangeList.length + 1) +
    g.table.pollReadersList.length + g.blackListedPollReadersList.length) = _
  unfold cells
  lia

theorem cells_purge :
    cells { g with table := g.table.purgeRtTable } + 2 * g.table.rt.length =
      cells g := by
  show 2 * (0 + g.table.rtChangeList.length + g.table.pollReadersList.length +
    g.blackListedPollReadersList.length) + _ = _
  unfold cells
  lia

theorem cells_emptyChangeList :
    cells { g with table := g.table.rtEmptyChangeList } +
      2 * g.table.rtChangeList.length = cells g := by
  show 2 * (g.table.rt.length + 0 + g.table.pollReadersList.length +
    g.blackListedPollReadersList.length) + _ = _
  unfold cells
  lia

theorem conserves_addEntry (entry : RtEntry)
    (hcall : addRtTableEntryByVal order m entry = some m') :
    Conserves m g m' { g with table := g.table.addRtTableEntryByVal entry } := by
  unfold addRtTableEntryByVal at hcall
  rcases Option.bind_eq_some_iff.mp hcall with ⟨⟨h1, rt, rc⟩, hadd, hcall⟩
  rcases Option.bind_eq_some_iff.mp hcall with ⟨head, _, hcall⟩
  rcases Option.bind_eq_some_iff.mp hcall with ⟨⟨h2, changes, rc'⟩, hadd', hcall⟩
  have hfirst : h1.inUse = m.heap.inUse + 2 := inUse_addNodeByVal hadd
  have hsecond : h2.inUse = h1.inUse + 2 := inUse_addNodeByVal hadd'
  unfold Conserves
  rw [← Option.some.inj hcall, cells_add]
  show h2.inUse + _ = _
  lia

theorem inUse_delete_of_length {h h' : Heap Cell} {ll ll' : LlT}
    {items : List Item} {len : Nat} (howns : Owns h ll items)
    (hlength : ll.nodeCount.toNat = len)
    (hcall : deleteSinglyLl h ll = some (h', ll')) :
    h'.inUse + 2 * len = h.inUse := by
  have hfreed := inUse_deleteSinglyLl howns hcall
  unfold Balanced payloads at hfreed
  rw [List.length_map, ← howns.count, hlength] at hfreed
  exact hfreed

theorem conserves_purge (h : Stores ptr order m g n x)
    (hcall : purgeRtTable m = some m') :
    Conserves m g m' { g with table := g.table.purgeRtTable } := by
  unfold purgeRtTable at hcall
  rcases Option.bind_eq_some_iff.mp hcall with ⟨⟨h1, rt⟩, hdelete, hcall⟩
  have hfreed := inUse_delete_of_length h.ownsEntries h.countEntries hdelete
  have hcells := cells_purge (g := g)
  unfold Conserves
  rw [← Option.some.inj hcall]
  show h1.inUse + _ = _
  lia

theorem conserves_emptyChangeList (h : Stores ptr order m g n x)
    (hcall : rtEmptyChangeList m = some m') :
    Conserves m g m' { g with table := g.table.rtEmptyChangeList } := by
  unfold rtEmptyChangeList at hcall
  rcases Option.bind_eq_some_iff.mp hcall with ⟨⟨h1, changes⟩, hdelete, hcall⟩
  have hfreed := inUse_delete_of_length h.ownsChanges h.countChanges hdelete
  have hcells := cells_emptyChangeList (g := g)
  unfold Conserves
  rw [← Option.some.inj hcall]
  show h1.inUse + _ = _
  lia

theorem heap_refresh {allocOk : Bool}
    (hcall : refreshUpdateVector order m allocOk = some m') :
    m'.heap = m.heap := by
  unfold refreshUpdateVector at hcall
  cases allocOk with
  | false => rw [← Option.some.inj hcall]
  | true =>
      rcases Option.bind_eq_some_iff.mp hcall with ⟨records, _, hcall⟩
      rw [← Option.some.inj hcall]

theorem cells_refresh (allocOk : Bool) :
    cells (g.refreshUpdateVector allocOk) = cells g := by
  unfold Globals.refreshUpdateVector
  split <;> rfl

theorem heap_clamp : (clampUpdateVectorCount m).heap = m.heap := by
  unfold clampUpdateVectorCount
  split <;> rfl

theorem cells_clamp : cells g.clampUpdateVectorCount = cells g := by
  unfold Globals.clampUpdateVectorCount
  split <;> rfl

/-!
## The lists of files
-/

theorem cells_setReaders (readers : List file) :
    cells { g with table := { g.table with pollReadersList := readers } } +
      2 * g.table.pollReadersList.length = cells g + 2 * readers.length := by
  show 2 * (g.table.rt.length + g.table.rtChangeList.length + readers.length +
    g.blackListedPollReadersList.length) + _ = _
  unfold cells
  lia

theorem conserves_blackList (f : file) (hcall : blackList ptr m f = some m') :
    Conserves m g m'
      { g with
        blackListedPollReadersList :=
          RIBDriver.singlyLlAddNodeByVal g.blackListedPollReadersList f } := by
  unfold blackList at hcall
  rcases Option.bind_eq_some_iff.mp hcall with ⟨⟨h', black, rc⟩, hadd, hcall⟩
  have hused : h'.inUse = m.heap.inUse + 2 := inUse_addNodeByVal hadd
  have hcells : cells { g with
      blackListedPollReadersList :=
        RIBDriver.singlyLlAddNodeByVal g.blackListedPollReadersList f } =
      cells g + 2 := by
    show 2 * (_ + _ + _ + (g.blackListedPollReadersList.length + 1)) = _
    unfold cells
    lia
  unfold Conserves
  rw [← Option.some.inj hcall, hcells]
  show h'.inUse + _ = _
  lia

variable [DecidableEq file]

theorem conserves_register (h : Stores ptr order m g n x) (f : file)
    (hcall : addRtTableUniquePollReader ptr m f = some m') :
    Conserves m g m'
      { g with table := g.table.addRtTableUniquePollReader f } := by
  rcases isValuePresent_files ptr h.ownsReaders h.readers f with
    ⟨found, hsearch, hfound⟩
  unfold addRtTableUniquePollReader at hcall
  unfold RtTable.addRtTableUniquePollReader
  rw [hsearch, Option.bind_eq_bind, Option.bind_some] at hcall
  rw [RIBDriver.singlyLlIsValuePresent, ← hfound]
  cases found with
  | some node =>
      rw [← Option.some.inj hcall]
      exact conserves_refl
  | none =>
      rcases Option.bind_eq_some_iff.mp hcall with ⟨⟨h', readers, rc⟩, hadd,
        hcall⟩
      have hused : h'.inUse = m.heap.inUse + 2 := inUse_addNodeByVal hadd
      have hcells := cells_setReaders (g := g) (f :: g.table.pollReadersList)
      rw [List.length_cons] at hcells
      unfold Conserves
      rw [← Option.some.inj hcall]
      show h'.inUse + _ = _ + cells { g with
        table := { g.table with pollReadersList := f :: _ } }
      lia

theorem conserves_deletePollReader (h : Stores ptr order m g n x) (f : file)
    (hcall : deletePollReader ptr m f = some m') :
    Conserves m g m'
      { g with table := { g.table with
          pollReadersList :=
            if RIBDriver.singlyLlIsValuePresent g.table.pollReadersList f then
              RIBDriver.singlyLlDeleteNodeByValue g.table.pollReadersList f
            else g.table.pollReadersList } } := by
  rcases isValuePresent_files ptr h.ownsReaders h.readers f with
    ⟨found, hsearch, hfound⟩
  unfold deletePollReader at hcall
  rw [hsearch, Option.bind_eq_bind, Option.bind_some] at hcall
  rw [RIBDriver.singlyLlIsValuePresent, ← hfound]
  cases found with
  | none =>
      rw [← Option.some.inj hcall]
      exact conserves_refl
  | some node =>
      rcases Option.bind_eq_some_iff.mp hcall with ⟨⟨h', readers, count⟩,
        hdelete, hcall⟩
      have hfits : Comparable (ptr.bytes f) 8 (payloads x.readers) := by
        rw [h.readers]
        exact comparable_files ptr f
      have hfreed := inUse_deleteNodeByValue h.ownsReaders hfits hdelete
      unfold Balanced at hfreed
      rw [h.readers, eraseP_files, List.length_map, List.length_map] at hfreed
      have hcells := cells_setReaders (g := g) (g.table.pollReadersList.erase f)
      unfold Conserves
      rw [← Option.some.inj hcall]
      show h'.inUse + _ = _ + cells { g with
        table := { g.table with pollReadersList := List.erase _ f } }
      lia

end Steps

/-!
## The calls
-/

section Calls

variable {ptr : FilePointers file} {order : ByteOrder}
variable {m m' m'' : RtMem} {g g' g'' : Globals file} {n : Nat} {x : Shape}

theorem conserves_readEntry {allocOk : Bool}
    (hcall : rtReadEntry order m allocOk = some m') :
    Conserves m g m' (g.rtReadEntry allocOk) := by
  have hcells : cells (g.rtReadEntry allocOk) = cells g := by
    by_cases hblack : g.blackListedPollReadersList = []
    · rw [Globals.rtReadEntry_first hblack, cells_clamp, cells_refresh]
      rfl
    · rw [Globals.rtReadEntry_later hblack]
      rfl
  refine conserves_of_same ?_ hcells
  unfold rtReadEntry at hcall
  dsimp only at hcall
  split at hcall
  · rcases Option.map_eq_some_iff.mp hcall with ⟨m1, hrefresh, hm⟩
    rw [← hm, heap_clamp, heap_refresh hrefresh]
  · rw [← Option.some.inj hcall]

theorem conserves_endBatch (h : Stores ptr order m g n x)
    (hcall : endBatch m = some m') :
    Conserves m g m'
      { g with
        table := g.table.rtEmptyChangeList
        rtUpdateVectorCount := 0
        rtUpdateVector := g.rtUpdateVector.kfree } := by
  unfold endBatch at hcall
  rcases Option.bind_eq_some_iff.mp hcall with ⟨m1, hempty, hcall⟩
  rcases Option.bind_eq_some_iff.mp hcall with ⟨vector, _, hcall⟩
  rw [← Option.some.inj hcall]
  have hfreed := conserves_emptyChangeList h hempty
  exact hfreed

theorem conserves_lastSubscriber (h : Stores ptr order m g n x)
    (hcall : lastSubscriber m = some m') :
    Conserves m g m'
      { g with
        table := g.table.rtEmptyChangeList
        rtUpdateVectorCount := 0
        rtUpdateVector := .null } := by
  have hzero : Stores ptr order { m with rtUpdateVectorCount := 0 }
      { g with rtUpdateVectorCount := 0 } n x := { h with count := rfl }
  unfold lastSubscriber at hcall
  rcases Option.bind_eq_some_iff.mp hcall with ⟨m1, hempty, hcall⟩
  rcases Option.bind_eq_some_iff.mp hcall with ⟨vector, _, hcall⟩
  rw [← Option.some.inj hcall]
  have hfreed := conserves_emptyChangeList hzero hempty
  exact hfreed

variable [DecidableEq file]

theorem conserves_poll (h : Stores ptr order m g n x) (f : file)
    (nonblock interrupted : Bool) {mask : UInt32}
    (hcall : rtPoll ptr m f nonblock interrupted = some (m', mask)) :
    Conserves m g m' (g.rtPoll f nonblock interrupted).1 := by
  rcases isValuePresent_files ptr h.ownsBlack h.black f with
    ⟨found, hsearch, hfound⟩
  have hreaders := nodeCount_eq_iff (k := 0) h.countReaders
  unfold rtPoll at hcall
  rw [Globals.rtPoll_eq]
  rw [hsearch, mutexIsRtUpdated_eq h, Option.bind_eq_bind,
    Option.bind_some] at hcall
  rw [RIBDriver.singlyLlIsValuePresent, ← hfound]
  cases found with
  | none =>
      cases hdata : interrupted || g.table.mutexIsRtUpdated with
      | true =>
          rw [hdata] at hcall
          cases hcall
          exact conserves_refl
      | false =>
          rw [hdata] at hcall
          cases nonblock with
          | true =>
              cases hcall
              exact conserves_refl
          | false =>
              rcases Option.bind_eq_some_iff.mp hcall with ⟨m1, hadd, hcall⟩
              cases hcall
              exact conserves_register h f hadd
  | some node =>
      cases hdata : interrupted || g.table.mutexIsRtUpdated with
      | true =>
          rw [hdata] at hcall
          cases hcall
          exact conserves_refl
      | false =>
          rw [hdata] at hcall
          by_cases hempty : g.rtGetPollReaderCount = 0
          · simp only [hreaders.mpr hempty, Bool.false_eq_true, if_false,
              if_true] at hcall
            cases hcall
            simp only [Option.isSome_some, Bool.not_true, Bool.false_eq_true,
              if_false, hempty, if_true]
            refine conserves_of_same rfl ?_
            -- the list of readers is empty before and the blacklist after
            change g.table.pollReadersList.length = 0 at hempty
            unfold cells
            show 2 * (_ + _ + g.blackListedPollReadersList.length + 0) = _
            rw [hempty]
            lia
          · have hsome : ¬ m.pollReadersList.nodeCount = 0 :=
              fun hzero => hempty (hreaders.mp hzero)
            simp only [hsome, Bool.false_eq_true, if_false] at hcall
            cases hcall
            simp only [Option.isSome_some, Bool.not_true, Bool.false_eq_true,
              if_false, hempty]
            exact conserves_refl

theorem conserves_readExit (h : Stores ptr order m g n x) (f : file)
    (hfreed : g.rtGetPollReaderCount = 1 ->
      Spec.isFreed g.rtUpdateVector = false)
    (hcall : rtReadExit ptr m f = some m') :
    Conserves m g m' (g.rtReadExit f) := by
  have hone := nodeCount_eq_iff (k := 1) h.countReaders
  unfold rtReadExit at hcall
  rcases Option.bind_eq_some_iff.mp hcall with ⟨m1, hbatch, hcall⟩
  rcases Option.bind_eq_some_iff.mp hcall with ⟨m2, hdelete, hcall⟩
  rcases Option.bind_eq_some_iff.mp hcall with ⟨m3, hblack, hcall⟩
  rw [← Option.some.inj hcall]
  have hended : exists x1, Stores ptr order m1
      (if g.rtGetPollReaderCount = 1 then
        { g with
          table := g.table.rtEmptyChangeList
          rtUpdateVectorCount := 0
          rtUpdateVector := g.rtUpdateVector.kfree }
      else g) n x1 ∧ Conserves m g m1
      (if g.rtGetPollReaderCount = 1 then
        { g with
          table := g.table.rtEmptyChangeList
          rtUpdateVectorCount := 0
          rtUpdateVector := g.rtUpdateVector.kfree }
      else g) := by
    by_cases hlast : g.rtGetPollReaderCount = 1
    · rw [if_pos (hone.mpr hlast)] at hbatch
      rw [if_pos hlast]
      rcases stores_endBatch h (hfreed hlast) with ⟨m1', x1, hrun, hstores⟩
      rw [hbatch] at hrun
      cases hrun
      exact ⟨x1, hstores, conserves_endBatch h hbatch⟩
    · rw [if_neg (fun hcount => hlast (hone.mp hcount))] at hbatch
      rw [if_neg hlast]
      cases hbatch
      exact ⟨x, h, conserves_refl⟩
  rcases hended with ⟨x1, hstores, hfirst⟩
  have hsecond := conserves_deletePollReader hstores f hdelete
  have hall := conserves_trans hfirst
    (conserves_trans hsecond (conserves_blackList f hblack))
  exact hall

end Calls

/-!
## Every sequence of operations
-/

section Runs

variable {ptr : FilePointers file} {order : ByteOrder}
variable {m m' : RtMem} {s s' : Spec file} {x : Shape}

structure Tight (ptr : FilePointers file) (order : ByteOrder) (m : RtMem)
    (s : Spec file) : Prop where
  refines : Refines ptr order m s
  inUse : m.heap.inUse = cells s.g

theorem cleanup_of_tight (h : Tight ptr order m s) :
    exists heap, cleanupRtTable m = some heap ∧
      heap.inUse + 2 * s.g.table.rt.length = cells s.g := by
  rcases h.refines with ⟨x, hstores⟩
  rcases deleteSinglyLl_becomes hstores.ownsEntries with
    ⟨heap, rt, hcall, _⟩
  have hfreed := inUse_delete_of_length hstores.ownsEntries
    hstores.countEntries hcall
  refine ⟨heap, ?_, ?_⟩
  · unfold cleanupRtTable
    rw [hcall, Option.bind_eq_bind, Option.bind_some]
  · rw [hfreed, h.inUse]

variable [DecidableEq file]

theorem conserves_call {op : Op file} {answer answer' : Answer}
    (h : Stores ptr order m s.g s.used x)
    (hask : s.call op = some (s', answer))
    (hcall : call ptr order m op = some (m', answer')) :
    Conserves m s.g m' s'.g := by
  unfold Spec.call at hask
  split at hask
  · rename_i hbounds
    rcases Option.map_eq_some_iff.mp hask with ⟨⟨g, given⟩, hperform, hpair⟩
    cases hpair
    cases op with
    | poll f nonblock interrupted =>
        cases hperform
        rcases Option.map_eq_some_iff.mp hcall with ⟨⟨m1, mask⟩, hpoll, hpair⟩
        cases hpair
        exact conserves_poll h f nonblock interrupted hpoll
    | readEntry allocOk =>
        cases hperform
        rcases Option.map_eq_some_iff.mp hcall with ⟨m1, hentry, hpair⟩
        cases hpair
        exact conserves_readEntry hentry
    | copy =>
        rcases Option.map_eq_some_iff.mp hperform with ⟨records, _, hsame⟩
        cases hsame
        rcases Option.map_eq_some_iff.mp hcall with ⟨copied, _, hpair⟩
        cases hpair
        exact conserves_refl
    | readExit f =>
        cases hperform
        rcases Option.map_eq_some_iff.mp hcall with ⟨m1, hexit, hpair⟩
        cases hpair
        refine conserves_readExit h f ?_ hexit
        have hmay := hbounds.right
        simp only [Spec.canAsk, Bool.and_eq_true, Bool.or_eq_true,
          decide_eq_true_eq, Bool.not_eq_true'] at hmay
        intro hone
        exact hmay.right.resolve_left (fun hno => hno hone)
    | update msg =>
        cases hperform
        rcases Option.map_eq_some_iff.mp hcall with ⟨m1, hupdate, hpair⟩
        cases hpair
        unfold applyRtUpdates at hupdate
        unfold Globals.rtWrite RtTable.applyRtUpdates
        split at hupdate
        · rename_i hadd
          rw [if_pos hadd]
          exact conserves_addEntry msg.entry hupdate
        · rename_i hadd
          rw [if_neg hadd]
          cases hupdate
          exact conserves_refl
    | create entry =>
        cases hperform
        rcases Option.map_eq_some_iff.mp hcall with ⟨m1, hcreate, hpair⟩
        cases hpair
        exact conserves_addEntry entry hcreate
    | purge =>
        cases hperform
        rcases Option.map_eq_some_iff.mp hcall with ⟨m1, hpurge, hpair⟩
        cases hpair
        exact conserves_purge h hpurge
    | discard =>
        cases hperform
        rcases Option.map_eq_some_iff.mp hcall with ⟨m1, hempty, hpair⟩
        cases hpair
        exact conserves_emptyChangeList h hempty
    | prepare allocOk =>
        cases hperform
        rcases Option.map_eq_some_iff.mp hcall with ⟨m1, hrefresh, hpair⟩
        cases hpair
        exact conserves_of_same (heap_refresh hrefresh) (cells_refresh allocOk)
    | lastSubscriber =>
        cases hperform
        rcases Option.map_eq_some_iff.mp hcall with ⟨m1, hlast, hpair⟩
        cases hpair
        exact conserves_lastSubscriber h hlast
    | info =>
        cases hperform
        rcases Option.map_eq_some_iff.mp hcall with ⟨fields, _, hpair⟩
        cases hpair
        exact conserves_refl
  · cases hask

theorem tight_call (m : RtMem) (s : Spec file) (op : Op file) (s' : Spec file)
    (answer : Answer) (h : Tight ptr order m s)
    (hask : s.call op = some (s', answer)) :
    exists m', call ptr order m op = some (m', answer) ∧
      Tight ptr order m' s' := by
  rcases call_refines_call m s op s' answer h.refines hask with
    ⟨m', hcall, hrefines⟩
  rcases h.refines with ⟨x, hstores⟩
  have hconserves := conserves_call hstores hask hcall
  have hold := h.inUse
  refine ⟨m', hcall, hrefines, ?_⟩
  unfold Conserves at hconserves
  lia

/-- Whatever operations are asked of the driver, one after the other: no memory
of its lists is lost while it is loaded, and unloading it loses two cells for
each pending update and each reader it knows. -/
theorem unloading_loses (ptr : FilePointers file) (order : ByteOrder)
    {ops : List (Op file)} {answers : List Answer}
    (h : Refinement.answers? Spec.call Spec.init ops = some (s, answers)) :
    exists m,
      Refinement.answers? (call ptr order) RtMem.init ops =
        some (m, answers) ∧
      m.heap.inUse = cells s.g ∧
      exists heap, cleanupRtTable m = some heap ∧
        heap.inUse = 2 * (s.g.table.rtChangeList.length +
          s.g.table.pollReadersList.length +
          s.g.blackListedPollReadersList.length) := by
  rcases Refinement.answers?_of_related tight_call ⟨refines_start, rfl⟩ h with
    ⟨m, hrun, htight⟩
  rcases cleanup_of_tight htight with ⟨heap, hcleanup, hleft⟩
  refine ⟨m, hrun, htight.inUse, heap, hcleanup, ?_⟩
  unfold cells at hleft
  lia

end Runs

theorem unloading_loses_batch :
    exists (m : RtMem) (answers : List Answer) (heap : Heap Cell),
      Refinement.answers? (call smallPointers .little) RtMem.init
        [.poll 0 false false, .update updateOne, .poll 0 false false,
          .readEntry true, .copy, .readExit 0, .create updateOne.entry] =
            some (m, answers) ∧
        m.heap.inUse = 8 ∧ cleanupRtTable m = some heap ∧ heap.inUse = 4 := by
  have hask : (Refinement.answers? Spec.call (Spec.init : Spec (Fin 4))
      [.poll 0 false false, .update updateOne, .poll 0 false false,
        .readEntry true, .copy, .readExit 0, .create updateOne.entry]).map
          (fun r => (r.1.g.table.rt.length, r.1.g.table.rtChangeList.length,
            r.1.g.table.pollReadersList.length,
            r.1.g.blackListedPollReadersList.length)) =
      some (2, 1, 0, 1) := by
    decide +kernel
  rcases Option.map_eq_some_iff.mp hask with ⟨⟨s, answers⟩, hrun, hlengths⟩
  rcases unloading_loses smallPointers .little hrun with
    ⟨m, hm, hinUse, heap, hcleanup, hleft⟩
  simp only [Prod.mk.injEq] at hlengths
  rcases hlengths with ⟨hrt, hchanges, hreaders, hblack⟩
  unfold cells at hinUse
  rw [hrt, hchanges, hreaders, hblack] at hinUse
  rw [hchanges, hreaders, hblack] at hleft
  exact ⟨m, answers, heap, hm, hinUse, hcleanup, hleft⟩

end InMemory
end HeapList
end RIBDriver
