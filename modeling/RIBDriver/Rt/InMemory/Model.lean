import RIBDriver.Common.HeapList.Model
import RIBDriver.Rt.Poll.Model
import RIBDriver.Rt.Transfer

/-!
# The shared variables in memory

The functions of `rt_table.c` and `rt_fops.c`, between their semaphore
operations, on lists of nodes and payloads in one heap.  A payload of the
change list holds an op code and the address of the entry it announces, those
of the two lists of readers hold the address of an open file.  `none` is a
fault.
-/

namespace RIBDriver

/-!
## Pointers as bytes
-/

namespace ByteOrder

def encode64 (order : ByteOrder) (x : UInt64) : List UInt8 :=
  order.arrange [x.toUInt8, (x >>> 8).toUInt8, (x >>> 16).toUInt8,
    (x >>> 24).toUInt8, (x >>> 32).toUInt8, (x >>> 40).toUInt8,
    (x >>> 48).toUInt8, (x >>> 56).toUInt8]

def decode64 (order : ByteOrder) (bytes : List UInt8) : UInt64 :=
  match order.arrange bytes with
  | [a, b, c, d, e, f, g, h] =>
      UInt64.ofNat (a.toNat + 256 * (b.toNat + 256 * (c.toNat + 256 * (d.toNat +
        256 * (e.toNat + 256 * (f.toNat + 256 * (g.toNat +
          256 * h.toNat)))))))
  | _ => 0

theorem length_encode64 (order : ByteOrder) (x : UInt64) :
    (order.encode64 x).length = 8 := order.length_arrange _

theorem decode64_encode64 (order : ByteOrder) (x : UInt64) :
    order.decode64 (order.encode64 x) = x := by
  unfold decode64 encode64
  rw [arrange_arrange]
  apply UInt64.toNat_inj.mp
  have hlt := x.toNat_lt
  simp only [UInt64.toNat_ofNat', UInt64.toNat_toUInt8,
    UInt64.toNat_shiftRight, Nat.shiftRight_eq_div_pow, UInt64.reduceToNat]
  lia

end ByteOrder

/-- `NULL` is zero, and the cell with number `a` is at `a + 1`. -/
def pointerBytes (order : ByteOrder) : Option Nat -> List UInt8
  | none => order.encode64 0
  | some a => order.encode64 (UInt64.ofNat (a + 1))

def pointerOf (order : ByteOrder) (bytes : List UInt8) : Option Nat :=
  match (order.decode64 bytes).toNat with
  | 0 => none
  | a + 1 => some a

theorem length_pointerBytes (order : ByteOrder) (p : Option Nat) :
    (pointerBytes order p).length = 8 := by
  cases p with
  | none => exact order.length_encode64 _
  | some a => exact order.length_encode64 _

theorem pointerOf_pointerBytes (order : ByteOrder) {a : Nat}
    (ha : a + 1 < UInt64.size) :
    pointerOf order (pointerBytes order (some a)) = some a := by
  unfold pointerOf pointerBytes
  rw [order.decode64_encode64, UInt64.toNat_ofNat_of_lt' ha]

/-- The addresses of the open files; `&filep` is what the lists copy. -/
structure FilePointers (file : Type _) where
  bytes : file -> List UInt8
  length_bytes : forall f, (bytes f).length = 8
  injective : forall f f', bytes f = bytes f' -> f = f'

/-!
## The variables
-/

namespace HeapList
namespace InMemory

/-- `rt_update_vector` and the array behind it. -/
inductive RecordVector where
  | null
  | live (records : List RtUpdate)
  | freed (records : List RtUpdate)

/-- A second free is a fault. -/
def RecordVector.kfree : RecordVector -> Option RecordVector
  | .null => some .null
  | .live records => some (.freed records)
  | .freed _ => none

structure RtMem where
  heap : Heap Cell
  rt : LlT
  rtChangeList : LlT
  pollReadersList : LlT
  blackListedPollReadersList : LlT
  rtUpdateVector : RecordVector
  rtUpdateVectorCount : Nat
  rwSem : RwSem

def RtMem.init : RtMem where
  heap := Heap.empty
  rt := initSinglyLl
  rtChangeList := initSinglyLl
  pollReadersList := initSinglyLl
  blackListedPollReadersList := initSinglyLl
  rtUpdateVector := .null
  rtUpdateVectorCount := 0
  rwSem := { readers := 0, writer := false }

/-- `struct rt_preserve_updates_t`, with the padding `memset` has cleared. -/
def preserveBytes (order : ByteOrder) (opCode : UInt32) (entry : Option Nat) :
    List UInt8 :=
  order.encode opCode ++ (List.replicate 4 0 ++ pointerBytes order entry)

def bytesAt (h : Heap Cell) : Option Nat -> Option (List UInt8)
  | none => none
  | some a =>
      match h.read a with
      | some (.bytes payload) => some payload
      | _ => none

/-!
## `rt_table.c`
-/

section Table

variable (order : ByteOrder)

def addRtTableEntryByVal (m : RtMem) (entry : RtEntry) : Option RtMem := do
  let (h, rt, _) <- singlyLlAddNodeByVal m.heap m.rt entry.bytes 48
  let head <- deref h rt.head
  let (h, changes, _) <- singlyLlAddNodeByVal h m.rtChangeList
    (preserveBytes order rtRouteAdd head.data) 16
  some { m with heap := h, rt := rt, rtChangeList := changes }

def applyRtUpdates (m : RtMem) (msg : RtUpdate) : Option RtMem :=
  if msg.opCode = rtRouteAdd then addRtTableEntryByVal order m msg.entry
  else some m

def purgeRtTable (m : RtMem) : Option RtMem := do
  let (h, rt) <- deleteSinglyLl m.heap m.rt
  some { m with heap := h, rt := rt }

def rtEmptyChangeList (m : RtMem) : Option RtMem := do
  let (h, changes) <- deleteSinglyLl m.heap m.rtChangeList
  some { m with heap := h, rtChangeList := changes }

def mutexIsRtUpdated (m : RtMem) : Bool := m.rtChangeList.nodeCount != 0

/-- The loop of `rt_get_updated_rt_entries`, with the rounds left. -/
def readUpdates (h : Heap Cell) : Nat -> Option Nat -> Option (List RtUpdate)
  | 0, _ => some []
  | i + 1, head => do
      let n <- deref h head
      let data <- bytesAt h n.data
      let entry <- bytesAt h (pointerOf order (data.drop 8))
      let rest <- readUpdates h i n.next
      some ({ opCode := order.decode (data.take 4)
              entry := RtEntry.ofBytes entry } :: rest)

def refreshUpdateVector (m : RtMem) (allocOk : Bool) : Option RtMem :=
  if allocOk then do
    let records <- readUpdates order m.heap m.rtChangeList.nodeCount.toNat
      m.rtChangeList.head
    some { m with
      rtUpdateVector := .live records
      rtUpdateVectorCount := m.rtChangeList.nodeCount.toNat }
  else some { m with rtUpdateVector := .null, rtUpdateVectorCount := 0 }

end Table

/-!
## `rt_fops.c`
-/

section Fops

variable {file : Type _} (ptr : FilePointers file) (order : ByteOrder)

def addRtTableUniquePollReader (m : RtMem) (filep : file) : Option RtMem := do
  match <- singlyLlIsValuePresent m.heap m.pollReadersList (ptr.bytes filep)
    8 with
  | some _ => some m
  | none =>
      let (h, readers, _) <- singlyLlAddNodeByVal m.heap m.pollReadersList
        (ptr.bytes filep) 8
      some { m with heap := h, pollReadersList := readers }

def rtPoll (m : RtMem) (filep : file) (nonblock interrupted : Bool) :
    Option (RtMem × UInt32) := do
  let isDataAvailable := interrupted || mutexIsRtUpdated m
  match <- singlyLlIsValuePresent m.heap m.blackListedPollReadersList
    (ptr.bytes filep) 8 with
  | none =>
      if isDataAvailable then some (m, Globals.pollInRdNorm)
      else if nonblock then some (m, Globals.minusEagain)
      else do
        let m <- addRtTableUniquePollReader ptr m filep
        some (m, 0)
  | some _ =>
      if isDataAvailable then some (m, 0)
      else if m.pollReadersList.nodeCount = 0 then
        some ({ m with
          pollReadersList := m.blackListedPollReadersList
          blackListedPollReadersList := { nodeCount := 0, head := none } }, 0)
      else some (m, 0)

def clampUpdateVectorCount (m : RtMem) : RtMem :=
  if m.rtUpdateVectorCount > rtMaxEntriesFetch then
    { m with rtUpdateVectorCount := rtMaxEntriesFetch }
  else m

def rtReadEntry (m : RtMem) (allocOk : Bool) : Option RtMem :=
  let m := { m with rwSem := { m.rwSem with readers := m.rwSem.readers + 1 } }
  if m.blackListedPollReadersList.nodeCount = 0 then
    (refreshUpdateVector order m allocOk).map clampUpdateVectorCount
  else some m

def copyRecords (m : RtMem) : Option (List RtUpdate) :=
  match m.rtUpdateVector with
  | .live records => some (records.take m.rtUpdateVectorCount)
  | _ => if m.rtUpdateVectorCount = 0 then some [] else none

/-- The last registered reader frees the vector, whose pointer stays. -/
def endBatch (m : RtMem) : Option RtMem := do
  let m <- rtEmptyChangeList m
  let vector <- m.rtUpdateVector.kfree
  some { m with rtUpdateVectorCount := 0, rtUpdateVector := vector }

def deletePollReader (m : RtMem) (filep : file) : Option RtMem := do
  match <- singlyLlIsValuePresent m.heap m.pollReadersList (ptr.bytes filep)
    8 with
  | none => some m
  | some _ =>
      let (h, readers, _) <- singlyLlDeleteNodeByValue m.heap m.pollReadersList
        (ptr.bytes filep) 8
      some { m with heap := h, pollReadersList := readers }

def blackList (m : RtMem) (filep : file) : Option RtMem := do
  let (h, black, _) <- singlyLlAddNodeByVal m.heap m.blackListedPollReadersList
    (ptr.bytes filep) 8
  some { m with heap := h, blackListedPollReadersList := black }

def rtReadExit (m : RtMem) (filep : file) : Option RtMem := do
  let m <- (if m.pollReadersList.nodeCount = 1 then endBatch m else some m)
  let m <- deletePollReader ptr m filep
  let m <- blackList ptr m filep
  some { m with rwSem := { m.rwSem with readers := m.rwSem.readers - 1 } }

def lastSubscriber (m : RtMem) : Option RtMem := do
  let m := { m with rtUpdateVectorCount := 0 }
  let m <- rtEmptyChangeList m
  let _ <- m.rtUpdateVector.kfree
  some { m with rtUpdateVector := .null }

/-- `while(head)` of `RT_IOC_GET_RT_INFO`. -/
def countNodes (h : Heap Cell) : Nat -> Option Nat -> Option Nat
  | 0, _ => none
  | _ + 1, none => some 0
  | fuel + 1, some a => do
      let n <- deref h (some a)
      let rest <- countNodes h fuel n.next
      some (rest + 1)

def rtInfo (m : RtMem) : Option (List Nat) := do
  let actual <- countNodes m.heap (rounds m.heap) m.rt.head
  some [m.rt.nodeCount.toNat, actual, m.rtChangeList.nodeCount.toNat,
    m.pollReadersList.nodeCount.toNat,
    m.blackListedPollReadersList.nodeCount.toNat]

end Fops

/-!
## Operations
-/

/-- What is done to the variables between two semaphore operations. -/
inductive Op (file : Type _) where
  | poll (filep : file) (nonblock interrupted : Bool)
  | readEntry (allocOk : Bool)
  | copy
  | readExit (filep : file)
  /-- `rt_write` and `RT_IOC_COMMON_UPDATE_RT`. -/
  | update (msg : RtUpdate)
  /-- `RT_IOC_CR_RTENTRY`. -/
  | create (entry : RtEntry)
  | purge
  /-- The worker finds no subscribers. -/
  | discard
  /-- The worker prepares the vector for its subscribers. -/
  | prepare (allocOk : Bool)
  | lastSubscriber
  | info
deriving DecidableEq

inductive Answer where
  | mask (mask : UInt32)
  | copied (records : List RtUpdate)
  | fields (fields : List Nat)
  | done
deriving DecidableEq

section Operations

variable {file : Type _} (ptr : FilePointers file) (order : ByteOrder)

def call (m : RtMem) : Op file -> Option (RtMem × Answer)
  | .poll f nonblock interrupted =>
      (rtPoll ptr m f nonblock interrupted).map fun r => (r.1, .mask r.2)
  | .readEntry allocOk => (rtReadEntry order m allocOk).map (·, .done)
  | .copy => (copyRecords m).map fun records => (m, .copied records)
  | .readExit f => (rtReadExit ptr m f).map (·, .done)
  | .update msg => (applyRtUpdates order m msg).map (·, .done)
  | .create entry => (addRtTableEntryByVal order m entry).map (·, .done)
  | .purge => (purgeRtTable m).map (·, .done)
  | .discard => (rtEmptyChangeList m).map (·, .done)
  | .prepare allocOk => (refreshUpdateVector order m allocOk).map (·, .done)
  | .lastSubscriber => (lastSubscriber m).map (·, .done)
  | .info => (rtInfo m).map fun fields => (m, .fields fields)

end Operations

end InMemory
end HeapList
end RIBDriver
