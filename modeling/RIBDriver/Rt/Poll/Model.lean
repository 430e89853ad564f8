import Mathlib.Data.Fintype.Basic
import RIBDriver.Rt.Globals
import RIBDriver.Library.Transition

/-!
# The poll protocol

`rt_poll`, `rt_read` and `rt_write` for any number of open files.  `rt_poll`
and `rt_write` are one step each, and `rt_read` is three: its entry section,
its copy and its exit section, so that reads overlap under the shared
`rt->rw_sem`.  The copy takes no other lock and is seen between sections only;
the accesses inside a section are the steps of `Rt/Access`.

A poll whose wait for `rt_serialize_readers_cs_sem` is interrupted and a write
whose `access_ok` test fails return at once and are no steps here.
-/

namespace RIBDriver

namespace Globals

variable {file : Type _}

/-- The section of `rt_read` before the copy: the first reader of a batch takes
the snapshot. -/
def rtReadFirst (g : Globals file) (allocOk : Bool) : Globals file :=
  if isSinglyLlEmpty g.blackListedPollReadersList then
    (g.refreshUpdateVector allocOk).clampUpdateVectorCount
  else g

/-- `down_read` and the section before the copy. -/
def rtReadEntry (g : Globals file) (allocOk : Bool) : Globals file :=
  ({ g with rwSem := { g.rwSem with readers := g.rwSem.readers + 1 } } :
    Globals file).rtReadFirst allocOk

theorem rtReadEntry_first {g : Globals file}
    (hblack : g.blackListedPollReadersList = []) (allocOk : Bool) :
    g.rtReadEntry allocOk =
      (({ g with rwSem := { g.rwSem with readers := g.rwSem.readers + 1 } } :
        Globals file).refreshUpdateVector allocOk).clampUpdateVectorCount := by
  have hfirst : isSinglyLlEmpty g.blackListedPollReadersList = true :=
    isSinglyLlEmpty_iff.mpr hblack
  unfold rtReadEntry rtReadFirst
  simp only [hfirst, if_true]

theorem rtReadEntry_later {g : Globals file}
    (hblack : g.blackListedPollReadersList ≠ []) (allocOk : Bool) :
    g.rtReadEntry allocOk =
      { g with rwSem := { g.rwSem with readers := g.rwSem.readers + 1 } } := by
  have hlater : ¬ isSinglyLlEmpty g.blackListedPollReadersList = true := by
    intro hempty
    exact hblack (isSinglyLlEmpty_iff.mp hempty)
  unfold rtReadEntry rtReadFirst
  simp only [hlater, Bool.false_eq_true, if_false]

variable [DecidableEq file]

def pollInRdNorm : UInt32 := 0x41

/-- `-EAGAIN` as the unsigned result of `rt_poll`. -/
def minusEagain : UInt32 := 0xFFFFFFF5

/-- What follows the look of `rt_poll` at the blacklist and the change list,
unless that has returned `POLLIN | POLLRDNORM`. -/
def rtPollWait (g : Globals file) (filep : file)
    (nonblock black isDataAvailable : Bool) : Globals file × UInt32 :=
  if !black then
    if nonblock then (g, minusEagain)
    else ({ g with table := g.table.addRtTableUniquePollReader filep }, 0)
  else if isDataAvailable then (g, 0)
  else if g.rtGetPollReaderCount = 0 then
    ({ g with
      table := { g.table with pollReadersList := g.blackListedPollReadersList }
      blackListedPollReadersList := [] }, 0)
  else (g, 0)

/-- `rt_poll` between its semaphore operations.  An interrupted wait inside
`mutex_is_rt_updated` returns a negative number, which counts as data. -/
def rtPoll (g : Globals file) (filep : file) (nonblock interrupted : Bool) :
    Globals file × UInt32 :=
  let black := singlyLlIsValuePresent g.blackListedPollReadersList filep
  let isDataAvailable := interrupted || g.table.mutexIsRtUpdated
  if !black && isDataAvailable then (g, pollInRdNorm)
  else g.rtPollWait filep nonblock black isDataAvailable

def blackListPollReader (g : Globals file) (filep : file) : Globals file :=
  { g with
    table := { g.table with
      pollReadersList :=
        if singlyLlIsValuePresent g.table.pollReadersList filep then
          singlyLlDeleteNodeByValue g.table.pollReadersList filep
        else g.table.pollReadersList }
    blackListedPollReadersList :=
      singlyLlAddNodeByVal g.blackListedPollReadersList filep }

/-- The section of `rt_read` after the copy.  The last registered reader
empties the change list and frees the vector, whose pointer stays. -/
def rtReadLast (g : Globals file) (filep : file) : Globals file :=
  let g :=
    if g.rtGetPollReaderCount = 1 then
      { g with
        table := g.table.rtEmptyChangeList
        rtUpdateVectorCount := 0
        rtUpdateVector := g.rtUpdateVector.kfree }
    else g
  g.blackListPollReader filep

def rtReadExit (g : Globals file) (filep : file) : Globals file :=
  let g := g.rtReadLast filep
  { g with rwSem := { g.rwSem with readers := g.rwSem.readers - 1 } }

/-- `down_write`, `apply_rt_updates` and `up_write`. -/
def rtWrite (g : Globals file) (kmsg : RtUpdate) : Globals file :=
  { g with table := g.table.applyRtUpdates kmsg }

theorem blackListPollReader_eq (g : Globals file) (filep : file) :
    g.blackListPollReader filep =
      { g with
        table := { g.table with
          pollReadersList := g.table.pollReadersList.erase filep }
        blackListedPollReadersList :=
          filep :: g.blackListedPollReadersList } := by
  unfold blackListPollReader
  by_cases hmem : filep ∈ g.table.pollReadersList
  · simp [singlyLlIsValuePresent, singlyLlDeleteNodeByValue,
      singlyLlAddNodeByVal, hmem]
  · simp [singlyLlIsValuePresent, singlyLlAddNodeByVal, hmem,
      List.erase_of_not_mem]

theorem rtPoll_eq (g : Globals file) (filep : file)
    (nonblock interrupted : Bool) :
    g.rtPoll filep nonblock interrupted =
      let isDataAvailable := interrupted || g.table.mutexIsRtUpdated
      if !singlyLlIsValuePresent g.blackListedPollReadersList filep then
        if isDataAvailable then (g, pollInRdNorm)
        else if nonblock then (g, minusEagain)
        else ({ g with table := g.table.addRtTableUniquePollReader filep }, 0)
      else if isDataAvailable then (g, 0)
      else if g.rtGetPollReaderCount = 0 then
        ({ g with
          table := { g.table with
            pollReadersList := g.blackListedPollReadersList }
          blackListedPollReadersList := [] }, 0)
      else (g, 0) := by
  unfold rtPoll rtPollWait
  cases singlyLlIsValuePresent g.blackListedPollReadersList filep <;>
    cases interrupted || g.table.mutexIsRtUpdated <;> rfl

end Globals

namespace Poll

inductive ReadPc (file : Type _) where
  | idle
  | copy (filep : file)
  | exit (filep : file)
deriving DecidableEq

def ReadPc.file? {file : Type _} : ReadPc file -> Option file
  | .idle => none
  | .copy filep => some filep
  | .exit filep => some filep

/-- What has happened, for the statements of the protocol's properties. -/
inductive Event (file : Type _) where
  /-- `rt_write` has added an entry and its update, with these files on
  `rt->poll_readers_list`. -/
  | wrote (src : Nat) (registered : List file)
  /-- The entry section of a read has found the blacklist empty. -/
  | opened (allocOk : Bool)
  /-- A read has copied `rt_update_vector_count` records. -/
  | copied (filep : file) (vector : UpdateVector) (count : Nat)
  /-- A read has passed the vector to `kfree`. -/
  | kfreed (vector : UpdateVector)
deriving DecidableEq

/-- `ready f` is history: `rt_poll` on `f` has returned `POLLIN | POLLRDNORM`
since the last read of `f`.  So is `log`, newest event first. -/
structure State (thread file : Type _) where
  g : Globals file
  pc : thread -> ReadPc file
  ready : file -> Bool
  log : List (Event file)

inductive Action (thread file : Type _) where
  | poll (filep : file) (nonblock interrupted : Bool)
  | readEntry (t : thread) (filep : file) (allocOk interrupted : Bool)
  | readCopy (t : thread)
  | readExit (t : thread) (interrupted : Bool)
  | write (kmsg : RtUpdate)
deriving DecidableEq

namespace State

variable {thread file : Type _}

def init : State thread file where
  g := Globals.init
  pc := fun _ => .idle
  ready := fun _ => false
  log := []

/-- The pending updates, newest first. -/
def pending (s : State thread file) : List Nat := s.g.table.pending

def readers (s : State thread file) : List file := s.g.table.pollReadersList

def black (s : State thread file) : List file :=
  s.g.blackListedPollReadersList

def announced (s : State thread file) : List Nat :=
  s.g.announced.map (·.src)

def Reading (s : State thread file) (f : file) : Prop :=
  exists t, (s.pc t).file? = some f

instance [Fintype thread] [DecidableEq file] (s : State thread file)
    (f : file) : Decidable (s.Reading f) :=
  inferInstanceAs (Decidable (exists t, (s.pc t).file? = some f))

end State

section Steps

variable {thread file : Type _} [DecidableEq thread] [DecidableEq file]
variable [Fintype thread]

def pollStep (s : State thread file) (filep : file)
    (nonblock interrupted : Bool) : Option (State thread file) :=
  if s.g.rtSerializeReadersCsSem = 0 ∨ (s.g.sem = 0 ∧ interrupted = false) then
    none
  else
    let (g, mask) := s.g.rtPoll filep nonblock interrupted
    some { s with
      g := g
      ready :=
        if mask = Globals.pollInRdNorm ∧ ¬ s.Reading filep then
          Function.update s.ready filep true
        else s.ready }

/-- An interrupted entry section returns with `rw_sem` held. -/
def readEntryStep (s : State thread file) (t : thread) (filep : file)
    (allocOk interrupted : Bool) : Option (State thread file) :=
  if s.pc t ≠ .idle ∨ s.g.rwSem.writer = true then none
  else if interrupted then
    some { s with
      g := { s.g with
        rwSem := { s.g.rwSem with readers := s.g.rwSem.readers + 1 } } }
  else if s.g.rtSerializeReadersCsSem = 0 then none
  else
    some {
      g := s.g.rtReadEntry allocOk
      pc := Function.update s.pc t (.copy filep)
      ready := Function.update s.ready filep false
      log :=
        if isSinglyLlEmpty s.g.blackListedPollReadersList then
          .opened allocOk :: s.log
        else s.log }

def readCopyStep (s : State thread file) (t : thread) :
    Option (State thread file) :=
  match s.pc t with
  | .copy filep =>
      some { s with
        pc := Function.update s.pc t (.exit filep)
        log := .copied filep s.g.rtUpdateVector s.g.rtUpdateVectorCount ::
          s.log }
  | _ => none

/-- An interrupted exit section returns with `rw_sem` held and the lists as
they are. -/
def readExitStep (s : State thread file) (t : thread) (interrupted : Bool) :
    Option (State thread file) :=
  match s.pc t with
  | .exit filep =>
      if interrupted then
        some { s with pc := Function.update s.pc t .idle }
      else if s.g.rtSerializeReadersCsSem = 0 then none
      else
        some { s with
          g := s.g.rtReadExit filep
          pc := Function.update s.pc t .idle
          log :=
            if s.g.rtGetPollReaderCount = 1 then
              .kfreed s.g.rtUpdateVector :: s.log
            else s.log }
  | _ => none

def writeStep (s : State thread file) (kmsg : RtUpdate) :
    Option (State thread file) :=
  if s.g.rwSem.readers ≠ 0 ∨ s.g.rwSem.writer = true then none
  else
    some { s with
      g := s.g.rtWrite kmsg
      log :=
        if kmsg.opCode = rtRouteAdd then
          .wrote s.g.table.next s.g.table.pollReadersList :: s.log
        else s.log }

def step (s : State thread file) :
    Action thread file -> Option (State thread file)
  | .poll filep nonblock interrupted => pollStep s filep nonblock interrupted
  | .readEntry t filep allocOk interrupted =>
      readEntryStep s t filep allocOk interrupted
  | .readCopy t => readCopyStep s t
  | .readExit t interrupted => readExitStep s t interrupted
  | .write kmsg => writeStep s kmsg

end Steps

/-!
## Conditions on steps
-/

section Conditions

variable {thread file : Type _}

def Action.isInterrupted : Action thread file -> Bool
  | .poll _ _ interrupted => interrupted
  | .readEntry _ _ _ interrupted => interrupted
  | .readExit _ interrupted => interrupted
  | _ => false

def Action.isReady (s : State thread file) : Action thread file -> Bool
  | .readEntry _ filep _ _ => s.ready filep
  | _ => true

def Action.allocates : Action thread file -> Bool
  | .readEntry _ _ allocOk _ => allocOk
  | _ => true

/-- No wait is interrupted; a read needs no poll before it. -/
def Uninterrupted (_s : State thread file) (a : Action thread file) : Prop :=
  a.isInterrupted = false

instance (s : State thread file) (a : Action thread file) :
    Decidable (Uninterrupted s a) :=
  inferInstanceAs (Decidable (a.isInterrupted = false))

/-- The runs of the protocol: no wait is interrupted and every read follows a
successful poll of its file. -/
def Disciplined (s : State thread file) (a : Action thread file) : Prop :=
  a.isInterrupted = false ∧ a.isReady s = true

instance (s : State thread file) (a : Action thread file) :
    Decidable (Disciplined s a) :=
  inferInstanceAs (Decidable (a.isInterrupted = false ∧ a.isReady s = true))

def Supplied (s : State thread file) (a : Action thread file) : Prop :=
  Disciplined s a ∧ a.allocates = true

instance (s : State thread file) (a : Action thread file) :
    Decidable (Supplied s a) :=
  inferInstanceAs (Decidable (Disciplined s a ∧ a.allocates = true))

end Conditions

end Poll
end RIBDriver
