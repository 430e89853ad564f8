import RIBDriver.Library.Records
import RIBDriver.Rt.Mixed
import RIBDriver.Rt.Transfer

/-!
# The driver as its clients see it

Both access paths with `rt_open` and `RT_IOC_GET_RT_INFO`, and with what a call
returns and writes to user memory.  The head of the table is read before
`rt->rw_sem` is taken; the rest of `RT_IOC_GET_RT_INFO` is one step.
-/

namespace RIBDriver

/-- The fields of `struct rt_info_t`, which are also those of
`struct mac_info_t`. -/
inductive InfoField where
  | nodeCount
  | actualNodeCount
  | noOfPendingUpdates
  | noOfPollingReaders
  | noOfBlacklistedPollingReaders
deriving DecidableEq

/-- What a client sees of a step.  A value is `none` if it comes from freed
memory. -/
inductive Outcome (record : Type _) where
  /-- The call goes on. -/
  | continues
  | returns (rc : Int)
  /-- A `write` returns the size of the record it has taken. -/
  | wrote (size : Nat)
  /-- Records are copied to the buffer of the call. -/
  | copied (records : List record)
  /-- The fields are written and the call returns 0. -/
  | informed (fields : List (InfoField × Option Nat))
deriving DecidableEq

def minusErestartsys : Int := -512

/-- A record of the user's array of `struct rt_update_t`. -/
structure RtUserRecord where
  opCode : Extent (Option UInt32)
  dstIp : Extent (Option (Vector UInt8 16))
  nxtHopIp : Extent (Option (Vector UInt8 16))
  oif : Extent (Option (Vector UInt8 16))
deriving DecidableEq

namespace RtUserRecord

def ofCopy (len j : Nat) (cell : Option RtTable.VectorCell) : RtUserRecord where
  opCode := Extent.ofCopy len (j * sizeofRtUpdate) 4 (cell.map (·.opCode))
  dstIp := Extent.ofCopy len (j * sizeofRtUpdate + 4) 16
    ((cell.bind (·.entry)).map (·.dstIp))
  nxtHopIp := Extent.ofCopy len (j * sizeofRtUpdate + 20) 16
    ((cell.bind (·.entry)).map (·.nxtHopIp))
  oif := Extent.ofCopy len (j * sizeofRtUpdate + 36) 16
    ((cell.bind (·.entry)).map (·.oif))

end RtUserRecord

namespace Globals

variable {file : Type _}

/-- `copy_to_user` of `sizeof(struct rt_entry) * rt_update_vector_count` bytes
of the vector. -/
def copiedRecords (g : Globals file) : List RtUserRecord :=
  (List.range g.rtUpdateVectorCount).map fun j =>
    RtUserRecord.ofCopy (sizeofRtEntry * g.rtUpdateVectorCount) j
      g.rtUpdateVector.records[j]?

/-- The loop from a node of `rt->rt` to the end; `none` if the node has been
freed. -/
def actualNodeCount (t : RtTable file) : Option Nat -> Option Nat
  | none => some 0
  | some node =>
      if node ∈ t.rt then some (t.rt.dropWhile (· != node)).length else none

/-- The locked part of `RT_IOC_GET_RT_INFO`. -/
def rtInfo (g : Globals file) (head : Option Nat) :
    List (InfoField × Option Nat) :=
  [(.nodeCount, some (getNodeCountSinglyLl g.table.rt)),
    (.actualNodeCount, actualNodeCount g.table head),
    (.noOfPendingUpdates, some (getNodeCountSinglyLl g.table.rtChangeList)),
    (.noOfPollingReaders, some g.rtGetPollReaderCount),
    (.noOfBlacklistedPollingReaders,
      some (getNodeCountSinglyLl g.blackListedPollReadersList))]

end Globals

namespace Driver

variable {client reader file : Type _}
variable [DecidableEq client] [DecidableEq reader] [DecidableEq file]

/-- Where a client is in `RT_IOC_GET_RT_INFO`; `head` is its local variable. -/
inductive InfoPc where
  | idle
  | downRead (head : Option Nat)
deriving DecidableEq

/-- `privateData f` tells whether `rt_open` has set `filp->private_data`, and
`ioctlRc` and `readRc` are the variables `rc` of the handler and of `rt_read`. -/
structure State (client reader file : Type _) where
  mixed : Mixed.State client reader file
  privateData : file -> Bool
  info : client -> InfoPc
  ioctlRc : client -> Nat
  readRc : reader -> Nat

inductive Action (client reader file : Type _) where
  | openFile (filep : file)
  | ioctl (a : Ioctl.Action client)
  | poll (a : Poll.Action reader file)
  /-- `rt_poll` is interrupted before it holds `rt_serialize_readers_cs_sem`. -/
  | pollInterrupted
  /-- The `access_ok` test of a call fails. -/
  | inaccessible
  /-- A client issues `RT_IOC_GET_RT_INFO`. -/
  | infoCall (t : client)
  | infoRead (t : client)

namespace State

def init : State client reader file where
  mixed := Mixed.State.init
  privateData := fun _ => false
  info := fun _ => .idle
  ioctlRc := fun _ => 0
  readRc := fun _ => 0

def g (s : State client reader file) : Globals file := s.mixed.ioctl.g

/-- Clients call the handler with open files and make one call at a time. -/
def mayCall (fileOf : client -> file) (s : State client reader file) :
    Ioctl.Action client -> Bool
  | .call t _ => s.privateData (fileOf t) && s.info t == .idle
  | _ => true

def openFile (s : State client reader file) (filep : file) :
    State client reader file :=
  { s with
    privateData := Function.update s.privateData filep true
    mixed := {
      ioctl := { s.mixed.ioctl with
        completion := Function.update s.mixed.ioctl.completion filep [] }
      poll := s.mixed.poll
      shared := s.mixed.shared } }

end State

section Steps

variable [Fintype reader]

/-- `rc = rt_update_vector_count` after the copy to a subscriber. -/
def ioctlRcAfter (s : State client reader file) : Ioctl.Action client ->
    client -> Nat
  | .client t =>
      if s.mixed.ioctl.pc t = .copy then
        Function.update s.ioctlRc t s.g.rtUpdateVectorCount
      else s.ioctlRc
  | _ => s.ioctlRc

/-- `rc = rt_update_vector_count` after the copy of `rt_read`. -/
def readRcAfter (s : State client reader file) : Poll.Action reader file ->
    reader -> Nat
  | .readCopy t => Function.update s.readRc t s.g.rtUpdateVectorCount
  | _ => s.readRc

def next (fileOf : client -> file) (s : State client reader file) :
    Action client reader file -> Option (State client reader file)
  | .openFile f => if s.privateData f then none else some (s.openFile f)
  | .ioctl a =>
      if s.mayCall fileOf a then
        (Mixed.step fileOf s.mixed (.ioctl a)).map fun m =>
          { s with mixed := m, ioctlRc := ioctlRcAfter s a }
      else none
  | .poll a =>
      (Mixed.step fileOf s.mixed (.poll a)).map fun m =>
        { s with mixed := m, readRc := readRcAfter s a }
  | .pollInterrupted => some s
  | .inaccessible => some s
  | .infoCall t =>
      if s.privateData (fileOf t) && s.info t == .idle &&
          s.mixed.ioctl.pc t == .user then
        some { s with
          info := Function.update s.info t (.downRead s.g.table.rt.head?) }
      else none
  | .infoRead t =>
      match s.info t with
      | .idle => none
      | .downRead _ =>
          if s.g.rwSem.writer then none
          else some { s with info := Function.update s.info t .idle }

def ioctlOutcome (s : State client reader file) :
    Ioctl.Action client -> Outcome RtUserRecord
  | .client t =>
      match s.mixed.ioctl.pc t with
      | .handBack => .returns 0
      | .copy => .copied s.g.copiedRecords
      | .upCs => .returns (s.ioctlRc t)
      | _ => .continues
  | .interrupt t =>
      match s.mixed.ioctl.pc t with
      | .lockQ _ => .returns minusErestartsys
      | .lockTable _ => .returns minusErestartsys
      | _ => .continues
  | _ => .continues

/-- The last registered reader returns the count it finds in its exit section. -/
def pollOutcome (s : State client reader file) :
    Poll.Action reader file -> Outcome RtUserRecord
  | .poll f nonblock interrupted =>
      .returns (s.g.rtPoll f nonblock interrupted).2.toNat
  | .readEntry _ _ _ interrupted =>
      if interrupted then .returns minusErestartsys else .continues
  | .readCopy _ => .copied s.g.copiedRecords
  | .readExit t interrupted =>
      if interrupted then .returns minusErestartsys
      else if s.g.rtGetPollReaderCount = 1 then
        .returns s.g.rtUpdateVectorCount
      else .returns (s.readRc t)
  | .write _ => .wrote sizeofRtUpdate

def outcome (s : State client reader file) :
    Action client reader file -> Outcome RtUserRecord
  | .openFile _ => .returns 0
  | .ioctl a => ioctlOutcome s a
  | .poll a => pollOutcome s a
  -- the result of `rt_poll` is unsigned
  | .pollInterrupted => .returns (UInt32.size + minusErestartsys)
  | .inaccessible => .returns 0
  | .infoCall _ => .continues
  | .infoRead t =>
      match s.info t with
      | .idle => .continues
      | .downRead head => .informed (s.g.rtInfo head)

def step (fileOf : client -> file) (s : State client reader file)
    (a : Action client reader file) :
    Option (State client reader file × Outcome RtUserRecord) :=
  (next fileOf s a).map fun u => (u, outcome s a)

end Steps

end Driver
end RIBDriver
