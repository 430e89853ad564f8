import RIBDriver.Library.Heap
import RIBDriver.Rt.Poll.Model
import RIBDriver.Rt.Transfer

/-!
# The poll protocol access by access

The copy of `rt_read` holds no more than the read side of `rt->rw_sem`.  It may
begin, go on and end while another reader is inside a section, between any two
of that reader's accesses to `rt_update_vector` and `rt_update_vector_count`.
Here each of these accesses is a step.  What a section does to the lists and
the look of a poll are steps too, and so is the filling of a new vector,
together with the store that publishes it.
-/

namespace RIBDriver
namespace Access

/-- The next operation of a thread.  A vector is known by its address. -/
inductive Pc (file : Type _) where
  | idle
  -- `rt_poll`, with what its look has found
  | pollWait (filep : file) (nonblock black isDataAvailable : Bool)
  -- `rt_read` before the copy
  | entryLock (filep : file)
  | entryTest (filep : file)
  | publish (filep : file)
  | storeCount (filep : file) (count : Nat)
  | testCount (filep : file)
  | clamp (filep : file)
  | entryUnlock (filep : file)
  -- the arguments of `copy_to_user`, in either order, and the copy
  | load (filep : file)
  | loadCount (filep : file) (vector : Option Nat)
  | loadVector (filep : file) (count : Nat)
  | copying (filep : file) (vector : Option Nat) (count : Nat)
  -- `rt_read` after the copy
  | exitLock (filep : file)
  | exitTest (filep : file)
  | emptyList (filep : file)
  | resetCount (filep : file)
  | free (filep : file)
  | blackList (filep : file)
  | exitUnlock
  | upRead
  -- `rt_write`
  | downWrite (kmsg : RtUpdate)
deriving DecidableEq

inductive UserAccess where
  /-- `rt_read` writes this many bytes for a call with this `count`. -/
  | readOut (bytes count : Nat)
  /-- `rt_write` reads this many bytes for a call with this `count`. -/
  | writeIn (bytes count : Nat)
  /-- `RT_IOC_SUBSCRIBE_RT` writes this many bytes. -/
  | subscribeOut (bytes : Nat)
  /-- `RT_IOC_SUBSCRIBE_RT` returns this. -/
  | subscribed (rc : Nat)
deriving DecidableEq

/-- `pointer` is the value of `rt_update_vector`, an address of `vectors`, and
`g.rtUpdateVector` is what it points to.  `requested t` is the `count` of the
`rt_read` a thread is in.  `ready` and `log` are history, as in the protocol
with sections for steps, and so is `user`. -/
structure State (thread file : Type _) where
  g : Globals file
  vectors : Heap (List RtTable.VectorCell)
  pointer : Option Nat
  pc : thread -> Pc file
  requested : thread -> Nat
  ready : file -> Bool
  log : List (Poll.Event file)
  user : List UserAccess

inductive Action (thread file : Type _) where
  /-- `rt_poll` as far as its look. -/
  | poll (t : thread) (filep : file) (nonblock interrupted : Bool)
  /-- `down_read(&rt->rw_sem)`. -/
  | read (t : thread) (filep : file) (count : Nat)
  | write (t : thread) (kmsg : RtUpdate) (count : Nat)
  /-- A thread takes its next step; the flag is for `kzalloc`. -/
  | next (t : thread) (allocOk : Bool)
  /-- The first argument of `copy_to_user` is evaluated. -/
  | load (t : thread) (countFirst : Bool)
  /-- A signal interrupts the wait for `rt_serialize_readers_cs_sem`. -/
  | interrupt (t : thread)
deriving DecidableEq

namespace Pc

variable {file : Type _}

/-- The file a thread is reading, until it is on the blacklist. -/
def file? : Pc file -> Option file
  | .entryLock filep | .entryTest filep | .publish filep
  | .storeCount filep _ | .testCount filep | .clamp filep
  | .entryUnlock filep | .load filep | .loadCount filep _
  | .loadVector filep _ | .copying filep _ _ | .exitLock filep
  | .exitTest filep | .emptyList filep | .resetCount filep | .free filep
  | .blackList filep => some filep
  | _ => none

def holdsCs : Pc file -> Bool
  | .pollWait _ _ _ _ | .entryTest _ | .publish _ | .storeCount _ _
  | .testCount _ | .clamp _ | .entryUnlock _ | .exitTest _ | .emptyList _
  | .resetCount _ | .free _ | .blackList _ | .exitUnlock => true
  | _ => false

def isLoading : Pc file -> Bool
  | .load _ | .loadCount _ _ | .loadVector _ _ => true
  | _ => false

def isTransferring : Pc file -> Bool
  | .idle | .pollWait _ _ _ _ => false
  | _ => true

end Pc

namespace State

variable {thread file : Type _}

def init : State thread file where
  g := Globals.init
  vectors := Heap.empty
  pointer := none
  pc := fun _ => .idle
  requested := fun _ => 0
  ready := fun _ => false
  log := []
  user := []

def readers (s : State thread file) : List file := s.g.table.pollReadersList

def black (s : State thread file) : List file :=
  s.g.blackListedPollReadersList

def pointee (s : State thread file) : Option Nat -> UpdateVector
  | none => .null
  | some a =>
      match s.vectors.read a with
      | some records => .live records
      | none => .freed []

def Reading (s : State thread file) (f : file) : Prop :=
  exists t, (s.pc t).file? = some f

instance [Fintype thread] [DecidableEq file] (s : State thread file)
    (f : file) : Decidable (s.Reading f) :=
  inferInstanceAs (Decidable (exists t, (s.pc t).file? = some f))

def OtherLoads (s : State thread file) (t : thread) : Prop :=
  exists t', t' ≠ t ∧ (s.pc t').isLoading = true

instance [Fintype thread] [DecidableEq thread] (s : State thread file)
    (t : thread) : Decidable (s.OtherLoads t) :=
  inferInstanceAs (Decidable (exists t', t' ≠ t ∧ _))

def goto [DecidableEq thread] (s : State thread file) (t : thread)
    (pc : Pc file) : State thread file :=
  { s with pc := Function.update s.pc t pc }

def setCs (s : State thread file) (n : Nat) : State thread file :=
  { s with g := { s.g with rtSerializeReadersCsSem := n } }

def setReaders (s : State thread file) (n : Nat) : State thread file :=
  { s with g := { s.g with rwSem := { s.g.rwSem with readers := n } } }

def setCount (s : State thread file) (n : Nat) : State thread file :=
  { s with g := { s.g with rtUpdateVectorCount := n } }

def addUser (s : State thread file) (access : UserAccess) :
    State thread file :=
  { s with user := access :: s.user }

/-- `SEM_LOCK` and `SEM_UNLOCK` of `rt_serialize_readers_cs_sem`. -/
def upCs (s : State thread file) : State thread file :=
  s.setCs (s.g.rtSerializeReadersCsSem + 1)

def downCs (s : State thread file) : Option (State thread file) :=
  if s.g.rtSerializeReadersCsSem = 0 then none
  else some (s.setCs (s.g.rtSerializeReadersCsSem - 1))

/-- `rt_get_updated_rt_entries`: the pointer is stored; the old vector is not
freed. -/
def publish (s : State thread file) (allocOk : Bool) : State thread file :=
  match s.g.table.rtGetUpdatedRtEntries allocOk with
  | none => { s with
      g := { s.g with rtUpdateVector := .null }
      pointer := none }
  | some records => { s with
      g := { s.g with rtUpdateVector := .live records }
      vectors := (s.vectors.alloc records).1
      pointer := some (s.vectors.alloc records).2 }

def published (s : State thread file) (allocOk : Bool) : Nat :=
  if allocOk then getNodeCountSinglyLl s.g.table.rtChangeList else 0

/-- `kfree(rt_update_vector)`; a vector that is freed already stays so. -/
def kfree (s : State thread file) : State thread file :=
  { s with
    g := { s.g with rtUpdateVector := s.g.rtUpdateVector.kfree }
    vectors :=
      match s.pointer with
      | none => s.vectors
      | some a => (s.vectors.free a).getD s.vectors }

def addEvent (s : State thread file) (event : Poll.Event file) :
    State thread file :=
  { s with log := event :: s.log }

end State

section Steps

variable {thread file : Type _} [DecidableEq thread] [DecidableEq file]
variable [Fintype thread]

def pollStep (s : State thread file) (t : thread) (filep : file)
    (nonblock interrupted : Bool) : Option (State thread file) :=
  if s.pc t ≠ .idle ∨ (s.g.sem = 0 ∧ interrupted = false) then none
  else
    let black :=
      singlyLlIsValuePresent s.g.blackListedPollReadersList filep
    let isDataAvailable := interrupted || s.g.table.mutexIsRtUpdated
    s.downCs.map fun locked =>
      if !black && isDataAvailable then
        { s with
          ready :=
            if s.Reading filep then s.ready
            else Function.update s.ready filep true }
      else locked.goto t (.pollWait filep nonblock black isDataAvailable)

def readStep (s : State thread file) (t : thread) (filep : file)
    (count : Nat) : Option (State thread file) :=
  if s.pc t ≠ .idle ∨ s.g.rwSem.writer = true then none
  else
    some ({ s.setReaders (s.g.rwSem.readers + 1) with
      requested := Function.update s.requested t count
      ready := Function.update s.ready filep false }.goto t
        (.entryLock filep))

/-- `copy_from_user` takes a whole record, whatever the `count`. -/
def writeStep (s : State thread file) (t : thread) (kmsg : RtUpdate)
    (count : Nat) : Option (State thread file) :=
  if s.pc t ≠ .idle then none
  else
    some ((s.addUser (.writeIn sizeofRtUpdate count)).goto t
      (.downWrite kmsg))

def beginCopy (s : State thread file) (t : thread) (filep : file)
    (vector : Option Nat) (count : Nat) : State thread file :=
  (s.addUser (.readOut (sizeofRtEntry * count) (s.requested t))).goto t
    (.copying filep vector count)

def nextStep (s : State thread file) (t : thread) (allocOk : Bool) :
    Option (State thread file) :=
  match s.pc t with
  | .pollWait filep nonblock black isDataAvailable =>
      some (({ s with
        g := (s.g.rtPollWait filep nonblock black isDataAvailable).1 } :
          State thread file).upCs.goto t .idle)
  | .entryLock filep => s.downCs.map (·.goto t (.entryTest filep))
  | .entryTest filep =>
      some (s.goto t
        (if isSinglyLlEmpty s.g.blackListedPollReadersList then
          .publish filep else .entryUnlock filep))
  | .publish filep =>
      some (((s.publish allocOk).addEvent (.opened allocOk)).goto t
        (.storeCount filep (s.published allocOk)))
  | .storeCount filep count =>
      some ((s.setCount count).goto t (.testCount filep))
  | .testCount filep =>
      some (s.goto t
        (if s.g.rtUpdateVectorCount > rtMaxEntriesFetch then .clamp filep
          else .entryUnlock filep))
  | .clamp filep =>
      some ((s.setCount rtMaxEntriesFetch).goto t (.entryUnlock filep))
  | .entryUnlock filep => some (s.upCs.goto t (.load filep))
  | .loadCount filep vector =>
      some (beginCopy s t filep vector s.g.rtUpdateVectorCount)
  | .loadVector filep count => some (beginCopy s t filep s.pointer count)
  | .copying filep vector count =>
      some ((s.addEvent (.copied filep (s.pointee vector) count)).goto t
        (.exitLock filep))
  | .exitLock filep => s.downCs.map (·.goto t (.exitTest filep))
  | .exitTest filep =>
      some (s.goto t
        (if s.g.rtGetPollReaderCount = 1 then .emptyList filep
          else .blackList filep))
  | .emptyList filep =>
      some (({ s with
        g := { s.g with table := s.g.table.rtEmptyChangeList } } :
          State thread file).goto t (.resetCount filep))
  | .resetCount filep => some ((s.setCount 0).goto t (.free filep))
  | .free filep =>
      some ((s.kfree.addEvent (.kfreed (s.pointee s.pointer))).goto t
        (.blackList filep))
  | .blackList filep =>
      some (({ s with g := s.g.blackListPollReader filep } :
        State thread file).goto t .exitUnlock)
  | .exitUnlock => some (s.upCs.goto t .upRead)
  | .upRead =>
      some ((s.setReaders (s.g.rwSem.readers - 1)).goto t .idle)
  | .downWrite kmsg =>
      if s.g.rwSem.readers ≠ 0 ∨ s.g.rwSem.writer = true then none
      else
        some (({ s with
          g := s.g.rtWrite kmsg
          log :=
            if kmsg.opCode = rtRouteAdd then
              .wrote s.g.table.next s.g.table.pollReadersList :: s.log
            else s.log } : State thread file).goto t .idle)
  | .idle | .load _ => none

def loadStep (s : State thread file) (t : thread) (countFirst : Bool) :
    Option (State thread file) :=
  match s.pc t with
  | .load filep =>
      some (s.goto t
        (if countFirst then .loadVector filep s.g.rtUpdateVectorCount
          else .loadCount filep s.pointer))
  | _ => none

/-- An interrupted wait leaves `rt_read` with `rw_sem` held. -/
def interruptStep (s : State thread file) (t : thread) :
    Option (State thread file) :=
  match s.pc t with
  | .entryLock _ | .exitLock _ => some (s.goto t .idle)
  | _ => none

def step (s : State thread file) :
    Action thread file -> Option (State thread file)
  | .poll t filep nonblock interrupted =>
      pollStep s t filep nonblock interrupted
  | .read t filep count => readStep s t filep count
  | .write t kmsg count => writeStep s t kmsg count
  | .next t allocOk => nextStep s t allocOk
  | .load t countFirst => loadStep s t countFirst
  | .interrupt t => interruptStep s t

end Steps

/-!
## Conditions on steps
-/

section Conditions

variable {thread file : Type _}

def Action.isInterrupted : Action thread file -> Bool
  | .poll _ _ _ interrupted => interrupted
  | .interrupt _ => true
  | _ => false

/-- No wait is interrupted and every read follows a poll of its file that has
returned `POLLIN | POLLRDNORM`. -/
def Disciplined (s : State thread file) (a : Action thread file) : Prop :=
  a.isInterrupted = false ∧
    match a with
    | .read _ filep _ => s.ready filep = true
    | _ => True

instance (s : State thread file) (a : Action thread file) :
    Decidable (Disciplined s a) := by
  unfold Disciplined
  split <;> infer_instance

def Action.allocates : Action thread file -> Bool
  | .next _ allocOk => allocOk
  | _ => true

def Supplied (s : State thread file) (a : Action thread file) : Prop :=
  Disciplined s a ∧ a.allocates = true

instance (s : State thread file) (a : Action thread file) :
    Decidable (Supplied s a) :=
  inferInstanceAs (Decidable (Disciplined s a ∧ a.allocates = true))

end Conditions

/-!
## Schedules
-/

section Schedules

variable {thread file : Type _}

/-- A poll that does not return `POLLIN | POLLRDNORM`. -/
def pollThrough (t : thread) (f : file) : List (Action thread file) :=
  [.poll t f false false, .next t true]

def writeThrough (t : thread) (kmsg : RtUpdate) (count : Nat) :
    List (Action thread file) :=
  [.write t kmsg count, .next t true]

def nexts (t : thread) (n : Nat) : List (Action thread file) :=
  List.replicate n (.next t true)

def firstReadToCopy (t : thread) (f : file) (count : Nat) :
    List (Action thread file) :=
  .read t f count :: nexts t 6 ++ [.load t false, .next t true]

def laterReadToCopy (t : thread) (f : file) (count : Nat) :
    List (Action thread file) :=
  .read t f count :: nexts t 3 ++ [.load t false, .next t true]

/-- From the copy to the end of the read; the last reader of a batch has three
steps more. -/
def endRead (t : thread) (last : Bool) : List (Action thread file) :=
  nexts t (if last then 9 else 6)

end Schedules

end Access
end RIBDriver
