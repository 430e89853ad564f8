import RIBDriver.Mac.Table
import RIBDriver.Rt.Driver

/-!
# The MAC driver

`mac_fops.c` for any number of clients, with the steps of the routing driver:
one semaphore, completion, queue or counter operation of `ioctl_mac_handler1`
and of `mac_worker_fn` at a time, `mac_poll` and `mac_write` whole, and
`mac_read` in three parts.
-/

namespace RIBDriver

inductive MacUpdateVector where
  | null
  | live (vector : List MacTable.VectorCell)
  | freed (vector : List MacTable.VectorCell)
deriving DecidableEq

namespace MacUpdateVector

def records : MacUpdateVector -> List MacTable.VectorCell
  | .null => []
  | .live vector => vector
  | .freed vector => vector

def kfree : MacUpdateVector -> MacUpdateVector
  | .null => .null
  | .live vector => .freed vector
  | .freed vector => .freed vector

end MacUpdateVector

/-- A record of the user's array of `struct mac_update_t`. -/
structure MacUserRecord where
  opCode : Extent (Option UInt32)
  vlanId : Extent (Option (Vector UInt8 16))
  mac : Extent (Option (Vector UInt8 48))
  oif : Extent (Option (Vector UInt8 16))
deriving DecidableEq

def MacUserRecord.ofCopy (len j : Nat) (cell : Option MacTable.VectorCell) :
    MacUserRecord where
  opCode := Extent.ofCopy len (j * sizeofMacUpdate) 4 (cell.map (·.opCode))
  vlanId := Extent.ofCopy len (j * sizeofMacUpdate + 4) 16
    ((cell.bind (·.entry)).map (·.vlanId))
  mac := Extent.ofCopy len (j * sizeofMacUpdate + 20) 48
    ((cell.bind (·.entry)).map (·.mac))
  oif := Extent.ofCopy len (j * sizeofMacUpdate + 68) 16
    ((cell.bind (·.entry)).map (·.oif))

/-!
## The shared variables
-/

/-- The fields of `struct mac_table` and the static variables of
`mac_fops.c`. -/
structure MacGlobals (file : Type _) where
  table : MacTable file
  sem : Nat
  rwSem : RwSem
  queue : Role -> KernelQueue file
  workerDone : Nat
  nReadersToBeService : Nat
  macSerializeReadersCsSem : Nat
  macUpdateVector : MacUpdateVector
  macUpdateVectorCount : Nat
  blackListedPollReadersList : List file

namespace MacGlobals

variable {file : Type _}

def init : MacGlobals file where
  table := MacTable.init
  sem := 1
  rwSem := { readers := 0, writer := false }
  queue := fun _ => KernelQueue.initQ
  workerDone := 0
  nReadersToBeService := 0
  macSerializeReadersCsSem := 1
  macUpdateVector := .null
  macUpdateVectorCount := 0
  blackListedPollReadersList := []

def setQueue (g : MacGlobals file) (role : Role) (q : KernelQueue file) :
    MacGlobals file :=
  { g with queue := Function.update g.queue role q }

def queueSem (g : MacGlobals file) (role : Role) : Nat :=
  (g.queue role).ring.sem

/-- `MAC_SEM_LOCK_WRITER_Q` and `MAC_SEM_LOCK_READER_Q`. -/
def downQueue (g : MacGlobals file) (role : Role) : Option (MacGlobals file) :=
  if g.queueSem role = 0 then none
  else some (g.setQueue role ((g.queue role).setSem (g.queueSem role - 1)))

def upQueue (g : MacGlobals file) (role : Role) : MacGlobals file :=
  g.setQueue role ((g.queue role).setSem (g.queueSem role + 1))

def macGetPollReaderCount (g : MacGlobals file) : Nat :=
  getNodeCountSinglyLl g.table.pollReadersList

def refreshUpdateVector (g : MacGlobals file) (allocOk : Bool) :
    MacGlobals file :=
  match g.table.macGetUpdatedMacEntries allocOk with
  | none => { g with macUpdateVector := .null, macUpdateVectorCount := 0 }
  | some vector =>
      { g with
        macUpdateVector := .live vector
        macUpdateVectorCount := vector.length }

def clampUpdateVectorCount (g : MacGlobals file) : MacGlobals file :=
  if g.macUpdateVectorCount > macMaxEntriesFetch then
    { g with macUpdateVectorCount := macMaxEntriesFetch }
  else g

/-- `copy_to_user` of `sizeof(struct mac_entry) * mac_update_vector_count`
bytes of the vector. -/
def copiedRecords (g : MacGlobals file) : List MacUserRecord :=
  (List.range g.macUpdateVectorCount).map fun j =>
    MacUserRecord.ofCopy (sizeofMacEntry * g.macUpdateVectorCount) j
      g.macUpdateVector.records[j]?

def actualNodeCount (t : MacTable file) : Option Nat -> Option Nat
  | none => some 0
  | some node =>
      if node ∈ t.mac then some (t.mac.dropWhile (· != node)).length else none

/-- `MAC_IOC_GET_MAC_INFO` does not write `no_of_polling_readers`. -/
def macInfo (g : MacGlobals file) (head : Option Nat) :
    List (InfoField × Option Nat) :=
  [(.nodeCount, some (getNodeCountSinglyLl g.table.mac)),
    (.actualNodeCount, actualNodeCount g.table head),
    (.noOfPendingUpdates, some (getNodeCountSinglyLl g.table.macChangeList)),
    (.noOfBlacklistedPollingReaders,
      some (getNodeCountSinglyLl g.blackListedPollReadersList))]

section Readers

variable [DecidableEq file]

def macPoll (g : MacGlobals file) (filep : file) (nonblock interrupted : Bool) :
    MacGlobals file × UInt32 :=
  let isDataAvailable := interrupted || g.table.mutexIsMacUpdated
  if !singlyLlIsValuePresent g.blackListedPollReadersList filep then
    if isDataAvailable then (g, Globals.pollInRdNorm)
    else if nonblock then (g, Globals.minusEagain)
    else ({ g with table := g.table.addMacTableUniquePollReader filep }, 0)
  else if isDataAvailable then (g, 0)
  else if g.macGetPollReaderCount = 0 then
    ({ g with
      table := { g.table with pollReadersList := g.blackListedPollReadersList }
      blackListedPollReadersList := [] }, 0)
  else (g, 0)

def macReadEntry (g : MacGlobals file) (allocOk : Bool) : MacGlobals file :=
  let g := { g with rwSem := { g.rwSem with readers := g.rwSem.readers + 1 } }
  if isSinglyLlEmpty g.blackListedPollReadersList then
    (g.refreshUpdateVector allocOk).clampUpdateVectorCount
  else g

def macReadExit (g : MacGlobals file) (filep : file) : MacGlobals file :=
  let g :=
    if g.macGetPollReaderCount = 1 then
      { g with
        table := g.table.macEmptyChangeList
        macUpdateVectorCount := 0
        macUpdateVector := g.macUpdateVector.kfree }
    else g
  { g with
    table := { g.table with
      pollReadersList :=
        if singlyLlIsValuePresent g.table.pollReadersList filep then
          singlyLlDeleteNodeByValue g.table.pollReadersList filep
        else g.table.pollReadersList }
    blackListedPollReadersList :=
      singlyLlAddNodeByVal g.blackListedPollReadersList filep
    rwSem := { g.rwSem with readers := g.rwSem.readers - 1 } }

def macWrite (g : MacGlobals file) (kmsg : MacUpdate) : MacGlobals file :=
  { g with table := g.table.applyMacUpdates kmsg }

end Readers
end MacGlobals

/-!
## The threads
-/

namespace Mac

inductive WriterOp where
  /-- `MAC_IOC_COMMON_UPDATE_MAC`. -/
  | update (msg : MacUpdate)
  /-- `MAC_IOC_CR_MACENTRY`. -/
  | create (entry : MacEntry)
  /-- `MAC_IOC_MACPURGE`. -/
  | purge
deriving DecidableEq

inductive Request where
  | write (op : WriterOp)
  /-- `MAC_IOC_SUBSCRIBE_MAC`. -/
  | subscribe
deriving DecidableEq

def Request.role : Request -> Role
  | .write _ => .writer
  | .subscribe => .reader

def WriterOp.perform {file : Type _} (t : MacTable file) :
    WriterOp -> MacTable file
  | .update msg => t.applyMacUpdates msg
  | .create entry => t.addMacTableEntryByVal entry
  | .purge => t.purgeMacTable

inductive ClientPc where
  | user
  | clamp
  | lockQ (req : Request)
  | enq (req : Request)
  | unlockQ (req : Request)
  | wait (req : Request)
  -- `MAC_LOCK_SEM` and `MAC_UNLOCK_SEM`, in the update case only
  | lockTable (op : WriterOp)
  | apply (op : WriterOp)
  | unlockTable
  | handBack
  | copy
  | downCs
  | test
  | cleanUp
  | signal
  | decLoad (last : Bool)
  | decStore (last : Bool) (loaded : Nat)
  | upCs
deriving DecidableEq

def firstPc : Request -> ClientPc
  | .write op => .lockQ (.write op)
  | .subscribe => .clamp

def afterWait : Request -> ClientPc
  | .write (.update msg) => .lockTable (.update msg)
  | .write op => .apply op
  | .subscribe => .copy

def afterApply : WriterOp -> ClientPc
  | .update _ => .unlockTable
  | _ => .handBack

/-- The worker has the steps of `Ioctl.WorkerPc`. -/
structure State (client reader file : Type _) where
  g : MacGlobals file
  pc : client -> ClientPc
  worker : Ioctl.WorkerPc file
  completion : file -> Nat
  readPc : reader -> Poll.ReadPc file
  privateData : file -> Bool
  info : client -> Driver.InfoPc
  ioctlRc : client -> Nat
  readRc : reader -> Nat

inductive Action (client reader file : Type _) where
  | openFile (filep : file)
  | call (t : client) (req : Request)
  | client (t : client)
  | interrupt (t : client)
  | worker (allocOk : Bool)
  | poll (filep : file) (nonblock interrupted : Bool)
  | pollInterrupted
  | readEntry (t : reader) (filep : file) (allocOk interrupted : Bool)
  | readCopy (t : reader)
  | readExit (t : reader) (interrupted : Bool)
  | write (kmsg : MacUpdate)
  | inaccessible
  | infoCall (t : client)
  | infoRead (t : client)

variable {client reader file : Type _}

namespace State

def init : State client reader file where
  g := MacGlobals.init
  pc := fun _ => .user
  worker := .waitWriter
  completion := fun _ => 0
  readPc := fun _ => .idle
  privateData := fun _ => false
  info := fun _ => .idle
  ioctlRc := fun _ => 0
  readRc := fun _ => 0

def goto [DecidableEq client] (s : State client reader file) (t : client)
    (p : ClientPc) : State client reader file :=
  { s with pc := Function.update s.pc t p }

def setG (s : State client reader file) (g : MacGlobals file) :
    State client reader file :=
  { s with g := g }

def setWorker (s : State client reader file) (p : Ioctl.WorkerPc file) :
    State client reader file :=
  { s with worker := p }

def complete [DecidableEq file] (s : State client reader file) (f : file) :
    State client reader file :=
  { s with completion := Function.update s.completion f (s.completion f + 1) }

end State

section Steps

variable [DecidableEq client] [DecidableEq reader] [DecidableEq file]

def clientStep (fileOf : client -> file) (s : State client reader file)
    (t : client) :
    Option (State client reader file × Outcome MacUserRecord) :=
  match s.pc t with
  | .user => none
  | .clamp =>
      some ((s.setG s.g.clampUpdateVectorCount).goto t (.lockQ .subscribe),
        .continues)
  | .lockQ req =>
      (s.g.downQueue req.role).map fun g =>
        ((s.setG g).goto t (.enq req), .continues)
  | .enq req =>
      some ((s.setG (s.g.setQueue req.role
        ((s.g.queue req.role).enqueue (fileOf t)))).goto t (.unlockQ req),
          .continues)
  | .unlockQ req =>
      some ((s.setG (s.g.upQueue req.role)).goto t (.wait req), .continues)
  | .wait req =>
      if s.completion (fileOf t) = 0 then none
      else some (({ s with
        completion := Function.update s.completion (fileOf t)
          (s.completion (fileOf t) - 1) } :
            State client reader file).goto t (afterWait req), .continues)
  | .lockTable op =>
      if s.g.sem = 0 then none
      else some ((s.setG { s.g with sem := s.g.sem - 1 }).goto t (.apply op),
        .continues)
  | .apply op =>
      some ((s.setG { s.g with table := op.perform s.g.table }).goto t
        (afterApply op), .continues)
  | .unlockTable =>
      some ((s.setG { s.g with sem := s.g.sem + 1 }).goto t .handBack,
        .continues)
  | .handBack =>
      some ((s.setG { s.g with workerDone := s.g.workerDone + 1 }).goto t .user,
        .returns 0)
  | .copy =>
      some (({ s with
        ioctlRc := Function.update s.ioctlRc t s.g.macUpdateVectorCount } :
          State client reader file).goto t .downCs,
        .copied s.g.copiedRecords)
  | .downCs =>
      if s.g.macSerializeReadersCsSem = 0 then none
      else some ((s.setG { s.g with
        macSerializeReadersCsSem := s.g.macSerializeReadersCsSem - 1 }).goto t
          .test, .continues)
  | .test =>
      some (s.goto t
        (if s.g.nReadersToBeService = 1 then .cleanUp else .decLoad false),
          .continues)
  | .cleanUp =>
      some ((s.setG { s.g with
        macUpdateVectorCount := 0
        table := s.g.table.macEmptyChangeList
        macUpdateVector := .null }).goto t .signal, .continues)
  | .signal =>
      some ((s.setG { s.g with workerDone := s.g.workerDone + 1 }).goto t
        (.decLoad true), .continues)
  | .decLoad last =>
      some (s.goto t (.decStore last s.g.nReadersToBeService), .continues)
  | .decStore _ loaded =>
      some ((s.setG { s.g with
        nReadersToBeService := Globals.decrement32 loaded }).goto t .upCs,
          .continues)
  | .upCs =>
      some ((s.setG { s.g with
        macSerializeReadersCsSem := s.g.macSerializeReadersCsSem + 1 }).goto t
          .user, .returns (s.ioctlRc t))

/-- A signal at a wait: `SEM_LOCK` returns, the exit section goes on. -/
def interruptStep (s : State client reader file) (t : client) :
    Option (State client reader file × Outcome MacUserRecord) :=
  match s.pc t with
  | .lockQ _ => some (s.goto t .user, .returns minusErestartsys)
  | .lockTable _ => some (s.goto t .user, .returns minusErestartsys)
  | .downCs => some (s.goto t .test, .continues)
  | _ => none

/-- `mac_worker_fn` and `allow_mac_access_to_readers`. -/
def workerStep (s : State client reader file) (allocOk : Bool) :
    Option (State client reader file) :=
  match s.worker with
  | .waitWriter =>
      if (s.g.queue .writer).ring.isQueueEmpty then none
      else some (s.setWorker .lockWriterQ)
  | .lockWriterQ =>
      (s.g.downQueue .writer).map fun g => (s.setG g).setWorker .dequeWriter
  | .dequeWriter =>
      some ((s.setG (s.g.setQueue .writer (s.g.queue .writer).deque)).setWorker
        (match (s.g.queue .writer).taken with
        | none => .crashed
        | some f => .unlockWriterQ f))
  | .unlockWriterQ f =>
      some ((s.setG (s.g.upQueue .writer)).setWorker (.completeWriter f))
  | .completeWriter f => some ((s.complete f).setWorker .waitWriterDone)
  | .waitWriterDone =>
      if s.g.workerDone = 0 then none
      else some ((s.setG { s.g with workerDone := s.g.workerDone - 1 }).setWorker
        .lockReaderQ)
  | .lockReaderQ =>
      (s.g.downQueue .reader).map fun g => (s.setG g).setWorker .countReaders
  | .countReaders =>
      some ((s.setG { s.g with
        nReadersToBeService := (s.g.queue .reader).ring.count }).setWorker
          .unlockReaderQ)
  | .unlockReaderQ =>
      some ((s.setG (s.g.upQueue .reader)).setWorker .testReaders)
  | .testReaders =>
      some (s.setWorker
        (if s.g.nReadersToBeService = 0 then .emptyChangeList else .snapshot))
  | .emptyChangeList =>
      some ((s.setG { s.g with table := s.g.table.macEmptyChangeList }).setWorker
        .waitWriter)
  | .snapshot =>
      some ((s.setG (s.g.refreshUpdateVector allocOk)).setWorker .loadReaders)
  | .loadReaders =>
      some (s.setWorker
        (if s.g.nReadersToBeService = 0 then .waitReadersDone
        else .lockGrant 0 s.g.nReadersToBeService))
  | .lockGrant i n =>
      (s.g.downQueue .reader).map fun g =>
        (s.setG g).setWorker (.dequeGrant i n)
  | .dequeGrant i n =>
      some ((s.setG (s.g.setQueue .reader (s.g.queue .reader).deque)).setWorker
        (.unlockGrant i n (s.g.queue .reader).taken))
  | .unlockGrant i n reader =>
      some ((s.setG (s.g.upQueue .reader)).setWorker
        (match reader with
        | none => .crashed
        | some f => .completeGrant i n f))
  | .completeGrant i n f =>
      some ((s.complete f).setWorker
        (if i + 1 < n then .lockGrant (i + 1) n else .waitReadersDone))
  | .waitReadersDone =>
      if s.g.workerDone = 0 then none
      else some ((s.setG { s.g with workerDone := s.g.workerDone - 1 }).setWorker
        .waitWriter)
  | .crashed => none

def readEntryStep (s : State client reader file) (t : reader) (filep : file)
    (allocOk interrupted : Bool) :
    Option (State client reader file × Outcome MacUserRecord) :=
  if s.readPc t ≠ .idle ∨ s.g.rwSem.writer = true then none
  else if interrupted then
    some (s.setG { s.g with
      rwSem := { s.g.rwSem with readers := s.g.rwSem.readers + 1 } },
        .returns minusErestartsys)
  else if s.g.macSerializeReadersCsSem = 0 then none
  else
    some ({ s with
      g := s.g.macReadEntry allocOk
      readPc := Function.update s.readPc t (.copy filep) }, .continues)

def readCopyStep (s : State client reader file) (t : reader) :
    Option (State client reader file × Outcome MacUserRecord) :=
  match s.readPc t with
  | .copy filep =>
      some ({ s with
        readPc := Function.update s.readPc t (.exit filep)
        readRc := Function.update s.readRc t s.g.macUpdateVectorCount },
          .copied s.g.copiedRecords)
  | _ => none

def readExitStep (s : State client reader file) (t : reader)
    (interrupted : Bool) :
    Option (State client reader file × Outcome MacUserRecord) :=
  match s.readPc t with
  | .exit filep =>
      if interrupted then
        some ({ s with readPc := Function.update s.readPc t .idle },
          .returns minusErestartsys)
      else if s.g.macSerializeReadersCsSem = 0 then none
      else
        some ({ s with
          g := s.g.macReadExit filep
          readPc := Function.update s.readPc t .idle },
            .returns (if s.g.macGetPollReaderCount = 1 then
              s.g.macUpdateVectorCount else s.readRc t))
  | _ => none

def openStep (s : State client reader file) (filep : file) :
    Option (State client reader file × Outcome MacUserRecord) :=
  if s.privateData filep then none
  else some ({ s with
    privateData := Function.update s.privateData filep true
    completion := Function.update s.completion filep 0 }, .returns 0)

def callStep (fileOf : client -> file) (s : State client reader file)
    (t : client) (req : Request) :
    Option (State client reader file × Outcome MacUserRecord) :=
  if s.privateData (fileOf t) && s.info t == .idle && s.pc t == .user then
    some (s.goto t (firstPc req), .continues)
  else none

def infoCallStep (fileOf : client -> file) (s : State client reader file)
    (t : client) :
    Option (State client reader file × Outcome MacUserRecord) :=
  if s.privateData (fileOf t) && s.info t == .idle && s.pc t == .user then
    some ({ s with
      info := Function.update s.info t (.downRead s.g.table.mac.head?) },
        .continues)
  else none

def infoReadStep (s : State client reader file) (t : client) :
    Option (State client reader file × Outcome MacUserRecord) :=
  match s.info t with
  | .idle => none
  | .downRead head =>
      if s.g.rwSem.writer then none
      else some ({ s with info := Function.update s.info t .idle },
        .informed (s.g.macInfo head))

def step (fileOf : client -> file) (s : State client reader file) :
    Action client reader file ->
      Option (State client reader file × Outcome MacUserRecord)
  | .openFile filep => openStep s filep
  | .call t req => callStep fileOf s t req
  | .client t => clientStep fileOf s t
  | .interrupt t => interruptStep s t
  | .worker allocOk => (workerStep s allocOk).map (·, .continues)
  | .poll filep nonblock interrupted =>
      if s.g.macSerializeReadersCsSem = 0 ∨
          (s.g.sem = 0 ∧ interrupted = false) then none
      else some (s.setG (s.g.macPoll filep nonblock interrupted).1,
        .returns (s.g.macPoll filep nonblock interrupted).2.toNat)
  | .pollInterrupted => some (s, .returns (UInt32.size + minusErestartsys))
  | .readEntry t filep allocOk interrupted =>
      readEntryStep s t filep allocOk interrupted
  | .readCopy t => readCopyStep s t
  | .readExit t interrupted => readExitStep s t interrupted
  | .write kmsg =>
      if s.g.rwSem.readers ≠ 0 ∨ s.g.rwSem.writer = true then none
      else some (s.setG (s.g.macWrite kmsg), .wrote sizeofMacUpdate)
  | .inaccessible => some (s, .returns 0)
  | .infoCall t => infoCallStep fileOf s t
  | .infoRead t => infoReadStep s t

end Steps

end Mac
end RIBDriver
