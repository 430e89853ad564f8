import RIBDriver.Mac.Fops

/-!
# From the routing driver to the MAC driver

A renaming of op codes and of the fields of an entry carries tables, shared
variables, program counters and calls of the routing driver over to the MAC
driver.  Every function of `mac_table.c` and `mac_fops.c` is its counterpart
under it.
-/

namespace RIBDriver

/-- The op codes are renamed so that only `RT_ROUTE_ADD` becomes
`MAC_ROUTE_ADD`. -/
structure Renaming where
  opCode : UInt32 -> UInt32
  dstIp : Vector UInt8 16 -> Vector UInt8 16
  nxtHopIp : Vector UInt8 16 -> Vector UInt8 48
  oif : Vector UInt8 16 -> Vector UInt8 16
  add_iff : forall x, opCode x = macRouteAdd <-> x = rtRouteAdd

namespace Renaming

variable {client reader file : Type _} (R : Renaming)

/-- The codes of `cmdcodes.h`, 0 to 3 and 4 to 7, with the shorter field
padded by zeros. -/
def cmdcodes : Renaming where
  opCode := fun x => x ^^^ 4
  dstIp := id
  nxtHopIp := fun v =>
    (v ++ Vector.replicate 32 (0 : UInt8) : Vector UInt8 (16 + 32))
  oif := id
  add_iff := by
    intro x
    constructor
    · intro h
      have hback : x ^^^ 4 ^^^ 4 = macRouteAdd ^^^ 4 := by rw [h]
      rw [UInt32.xor_assoc, UInt32.xor_self, UInt32.xor_zero] at hback
      exact hback
    · intro h
      rw [h]
      rfl

/-!
## Tables
-/

def entry (e : RtEntry) : MacEntry where
  vlanId := R.dstIp e.dstIp
  mac := R.nxtHopIp e.nxtHopIp
  oif := R.oif e.oif

def update (u : RtUpdate) : MacUpdate where
  opCode := R.opCode u.opCode
  entry := R.entry u.entry

def cell : EntryCell -> MacCell
  | .unallocated => .unallocated
  | .live e => .live (R.entry e)
  | .freed => .freed

def preserved (data : RtPreserveUpdate) : MacPreserveUpdate where
  opCode := R.opCode data.opCode
  entry := data.entry

def table (t : RtTable file) : MacTable file where
  heap := R.cell ∘ t.heap
  next := t.next
  mac := t.rt
  macChangeList := t.rtChangeList.map R.preserved
  pollReadersList := t.pollReadersList

def record (c : RtTable.VectorCell) : MacTable.VectorCell where
  opCode := R.opCode c.opCode
  entry := c.entry.map R.entry

def vector : UpdateVector -> MacUpdateVector
  | .null => .null
  | .live records => .live (records.map R.record)
  | .freed records => .freed (records.map R.record)

def userRecord (r : RtUserRecord) : MacUserRecord where
  opCode := r.opCode.map (Option.map R.opCode)
  vlanId := r.dstIp.map (Option.map R.dstIp)
  mac := r.nxtHopIp.map (Option.map R.nxtHopIp)
  oif := r.oif.map (Option.map R.oif)

section Table

variable {R} (t : RtTable file)

theorem opCode_add : R.opCode rtRouteAdd = macRouteAdd :=
  (R.add_iff rtRouteAdd).mpr rfl

theorem contents_cell (c : EntryCell) :
    (R.cell c).contents = c.contents.map R.entry := by
  cases c <;> rfl

theorem table_add (e : RtEntry) :
    R.table (t.addRtTableEntryByVal e) =
      (R.table t).addMacTableEntryByVal (R.entry e) := by
  simp only [table, RtTable.addRtTableEntryByVal,
    MacTable.addMacTableEntryByVal, singlyLlAddNodeByVal, List.map_cons,
    preserved, opCode_add, Function.comp_update, cell]

theorem table_apply (msg : RtUpdate) :
    R.table (t.applyRtUpdates msg) =
      (R.table t).applyMacUpdates (R.update msg) := by
  have hcode : (R.update msg).opCode = macRouteAdd <-> msg.opCode = rtRouteAdd :=
    R.add_iff msg.opCode
  unfold RtTable.applyRtUpdates MacTable.applyMacUpdates
  by_cases hadd : msg.opCode = rtRouteAdd
  · rw [if_pos hadd, if_pos (hcode.mpr hadd)]
    exact table_add t msg.entry
  · rw [if_neg hadd, if_neg (fun h => hadd (hcode.mp h))]

theorem table_purge : R.table t.purgeRtTable = (R.table t).purgeMacTable := by
  have hheap : R.cell ∘ (fun a => if a ∈ t.rt then .freed else t.heap a) =
      fun a => if a ∈ t.rt then .freed else R.cell (t.heap a) := by
    funext a
    show R.cell (if a ∈ t.rt then .freed else t.heap a) = _
    split <;> rfl
  simp only [table, RtTable.purgeRtTable, MacTable.purgeMacTable, hheap]
  rfl

theorem getUpdated_table (allocOk : Bool) :
    (R.table t).macGetUpdatedMacEntries allocOk =
      (t.rtGetUpdatedRtEntries allocOk).map (List.map R.record) := by
  cases allocOk with
  | false => rfl
  | true =>
      simp only [MacTable.macGetUpdatedMacEntries,
        RtTable.rtGetUpdatedRtEntries, if_true, Option.map_some, table,
        List.map_map, Option.some.injEq]
      apply List.map_congr_left
      intro data _
      simp only [Function.comp_apply, preserved, record, contents_cell]

theorem isUpdated_table :
    (R.table t).mutexIsMacUpdated = t.mutexIsRtUpdated := by
  simp [MacTable.mutexIsMacUpdated, RtTable.mutexIsRtUpdated, table,
    getNodeCountSinglyLl]

theorem table_addReader [DecidableEq file] (f : file) :
    R.table (t.addRtTableUniquePollReader f) =
      (R.table t).addMacTableUniquePollReader f := by
  unfold RtTable.addRtTableUniquePollReader
    MacTable.addMacTableUniquePollReader
  show R.table _ = if singlyLlIsValuePresent t.pollReadersList f then _ else _
  split <;> rfl

theorem records_vector (v : UpdateVector) :
    (R.vector v).records = v.records.map R.record := by
  cases v <;> rfl

theorem kfree_vector (v : UpdateVector) :
    (R.vector v).kfree = R.vector v.kfree := by
  cases v <;> rfl

end Table

/-!
## Shared variables
-/

def globals (g : Globals file) : MacGlobals file where
  table := R.table g.table
  sem := g.sem
  rwSem := g.rwSem
  queue := g.queue
  workerDone := g.workerDone
  nReadersToBeService := g.nReadersToBeService
  macSerializeReadersCsSem := g.rtSerializeReadersCsSem
  macUpdateVector := R.vector g.rtUpdateVector
  macUpdateVectorCount := g.rtUpdateVectorCount
  blackListedPollReadersList := g.blackListedPollReadersList

section Shared

variable {R} (g : Globals file)

theorem globals_refresh (allocOk : Bool) :
    R.globals (g.refreshUpdateVector allocOk) =
      (R.globals g).refreshUpdateVector allocOk := by
  cases allocOk with
  | false => rfl
  | true =>
      have hrecords : (R.globals g).table.macGetUpdatedMacEntries true = _ :=
        getUpdated_table g.table true
      unfold MacGlobals.refreshUpdateVector
      rw [hrecords]
      simp [Globals.refreshUpdateVector, RtTable.rtGetUpdatedRtEntries,
        globals, vector]

theorem globals_clamp :
    R.globals g.clampUpdateVectorCount =
      (R.globals g).clampUpdateVectorCount := by
  unfold Globals.clampUpdateVectorCount MacGlobals.clampUpdateVectorCount
  show R.globals _ = if g.rtUpdateVectorCount > rtMaxEntriesFetch then _ else _
  split <;> rfl

theorem globals_readEntry (allocOk : Bool) :
    R.globals (g.rtReadEntry allocOk) = (R.globals g).macReadEntry allocOk := by
  unfold Globals.rtReadEntry Globals.rtReadFirst MacGlobals.macReadEntry
  have hblack : (R.globals g).blackListedPollReadersList =
      g.blackListedPollReadersList := rfl
  simp only [hblack]
  split
  · rw [globals_clamp, globals_refresh]
    rfl
  · rfl

theorem globals_write (msg : RtUpdate) :
    R.globals (g.rtWrite msg) = (R.globals g).macWrite (R.update msg) := by
  unfold Globals.rtWrite MacGlobals.macWrite
  show ({ R.globals g with table := R.table (g.table.applyRtUpdates msg) } :
    MacGlobals file) = _
  rw [table_apply]
  rfl

variable [DecidableEq file]

theorem globals_poll (f : file) (nonblock interrupted : Bool) :
    (R.globals g).macPoll f nonblock interrupted =
      (R.globals (g.rtPoll f nonblock interrupted).1,
        (g.rtPoll f nonblock interrupted).2) := by
  rw [Globals.rtPoll_eq]
  unfold MacGlobals.macPoll
  have hupdated : (R.globals g).table.mutexIsMacUpdated =
      g.table.mutexIsRtUpdated := isUpdated_table g.table
  have hadd : (R.globals g).table.addMacTableUniquePollReader f =
      R.table (g.table.addRtTableUniquePollReader f) :=
    (table_addReader g.table f).symm
  have hblack : (R.globals g).blackListedPollReadersList =
      g.blackListedPollReadersList := rfl
  have hcount : (R.globals g).macGetPollReaderCount = g.rtGetPollReaderCount :=
    rfl
  simp only [hupdated, hadd, hblack, hcount]
  split
  · split
    · rfl
    · split <;> rfl
  · split
    · rfl
    · split <;> rfl

theorem globals_readExit (f : file) :
    R.globals (g.rtReadExit f) = (R.globals g).macReadExit f := by
  unfold Globals.rtReadExit Globals.rtReadLast Globals.blackListPollReader
    MacGlobals.macReadExit
  have hcount : (R.globals g).macGetPollReaderCount = g.rtGetPollReaderCount :=
    rfl
  simp only [hcount]
  split
  · show _ = ({ (R.globals g) with
      macUpdateVectorCount := 0
      macUpdateVector := (R.vector g.rtUpdateVector).kfree
      table := _
      blackListedPollReadersList := _
      rwSem := _ } : MacGlobals file)
    rw [kfree_vector]
    rfl
  · rfl

end Shared

end Renaming
end RIBDriver
