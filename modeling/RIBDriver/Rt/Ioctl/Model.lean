import Mathlib.Data.Fintype.Basic
import RIBDriver.Rt.Globals
import RIBDriver.Library.Transition

/-!
# The ioctl scheduler

`ioctl_rt_handler1` on the client side and `rt_worker_fn` on the worker side,
as programs that take one semaphore, completion, queue or counter operation at
a time.  A client thread is at a program counter; the table operations, the
clamp, the copy to user space and the last reader's clean-up are one step each,
and their accesses the steps of `Rt/Access/Shared`.

A call whose `access_ok` test fails returns at once and is no call here.  The
worker polls `!is_queue_empty(rt->writer_Q)` instead of being woken, which is
what `wait_event_interruptible` amounts to for a thread without signals.
-/

namespace RIBDriver
namespace Ioctl

/-- The requests that go through `rt->writer_Q`. -/
inductive WriterOp where
  /-- `RT_IOC_COMMON_UPDATE_RT`. -/
  | update (msg : RtUpdate)
  /-- `RT_IOC_CR_RTENTRY`. -/
  | create (entry : RtEntry)
  /-- `RT_IOC_RTPURGE`. -/
  | purge
deriving DecidableEq

inductive Request where
  | write (op : WriterOp)
  /-- `RT_IOC_SUBSCRIBE_RT`. -/
  | subscribe
deriving DecidableEq

def Request.role : Request -> Role
  | .write _ => .writer
  | .subscribe => .reader

def WriterOp.perform {file : Type _} (t : RtTable file) :
    WriterOp -> RtTable file
  | .update msg => t.applyRtUpdates msg
  | .create entry => t.addRtTableEntryByVal entry
  | .purge => t.purgeRtTable

inductive ClientPc where
  | user
  | clamp
  | lockQ (req : Request)
  | enq (req : Request)
  | unlockQ (req : Request)
  | wait (req : Request)
  -- `RT_LOCK_SEM` and `RT_UNLOCK_SEM`, in the update case only
  | lockTable (op : WriterOp)
  | apply (op : WriterOp)
  | unlockTable
  | handBack
  | copy
  | downCs
  | test
  | cleanUp
  | signal
  -- `last` records whether this reader has signalled the worker
  | decLoad (last : Bool)
  | decStore (last : Bool) (loaded : Nat)
  | upCs
deriving DecidableEq

inductive WorkerPc (file : Type _) where
  | waitWriter
  | lockWriterQ
  | dequeWriter
  | unlockWriterQ (writer : file)
  | completeWriter (writer : file)
  | waitWriterDone
  | lockReaderQ
  | countReaders
  | unlockReaderQ
  | testReaders
  | emptyChangeList
  | snapshot
  | loadReaders
  -- the loop of `allow_rt_access_to_readers`
  | lockGrant (i n : Nat)
  | dequeGrant (i n : Nat)
  | unlockGrant (i n : Nat) (reader : Option file)
  | completeGrant (i n : Nat) (reader : file)
  | waitReadersDone
  -- a null kernel thread has been dereferenced
  | crashed
deriving DecidableEq

/-- The completion of an open file's kernel thread is kept as the list of its
pending completions, oldest first, each with the role of the queue entry it was
issued for; the counter in memory is the length.  `accepted`, `performed`,
`wakes` and `served` are history: the writers in the order `enqueue` took them,
the table operations done, the role of every return from `wait_for_completion`
with the role of the completion it consumed, and the copies to subscribers. -/
structure State (thread file : Type _) where
  g : Globals file
  pc : thread -> ClientPc
  worker : WorkerPc file
  completion : file -> List Role
  accepted : List (thread × WriterOp)
  performed : List (thread × WriterOp)
  wakes : List (Role × Role)
  served : List (thread × Nat × List RtTable.VectorCell)

inductive Action (thread : Type _) where
  /-- A thread issues an ioctl. -/
  | call (t : thread) (req : Request)
  /-- A thread inside an ioctl takes its next step. -/
  | client (t : thread)
  /-- A signal interrupts the semaphore wait a thread is at. -/
  | interrupt (t : thread)
  | worker (allocOk : Bool)
deriving DecidableEq

namespace State

variable {thread file : Type _}

def init : State thread file where
  g := Globals.init
  pc := fun _ => .user
  worker := .waitWriter
  completion := fun _ => []
  accepted := []
  performed := []
  wakes := []
  served := []

section

variable [DecidableEq thread]

def goto (s : State thread file) (t : thread) (p : ClientPc) :
    State thread file :=
  { s with pc := Function.update s.pc t p }

end

def setQueueSem (s : State thread file) (role : Role) (n : Nat) :
    State thread file :=
  { s with g := s.g.setQueue role ((s.g.queue role).setSem n) }

def queueSem (s : State thread file) (role : Role) : Nat :=
  (s.g.queue role).ring.sem

def upQueue (s : State thread file) (role : Role) : State thread file :=
  s.setQueueSem role (s.queueSem role + 1)

def downQueue (s : State thread file) (role : Role) :
    Option (State thread file) :=
  if s.queueSem role = 0 then none
  else some (s.setQueueSem role (s.queueSem role - 1))

section

variable [DecidableEq file]

def complete (s : State thread file) (f : file) (role : Role) :
    State thread file :=
  { s with
    completion := Function.update s.completion f (s.completion f ++ [role]) }

end
end State

section Steps

variable {thread file : Type _} [DecidableEq thread] [DecidableEq file]

/-- `enqueue` on the queue of the request's role.  Its result is ignored by the
caller; the history records the writers it accepted. -/
def enqueueClient (fileOf : thread -> file) (s : State thread file)
    (t : thread) (req : Request) : State thread file :=
  { s with
    g := s.g.setQueue req.role ((s.g.queue req.role).enqueue (fileOf t))
    accepted :=
      match req with
      | .write op =>
          if ((s.g.queue .writer).ring.enqueue (some (fileOf t))).2 = 1 then
            s.accepted ++ [(t, op)]
          else s.accepted
      | .subscribe => s.accepted }

def firstPc : Request -> ClientPc
  | .write op => .lockQ (.write op)
  | .subscribe => .clamp

def afterWait : Request -> ClientPc
  | .write (.update msg) => .lockTable (.update msg)
  | .write op => .apply op
  | .subscribe => .copy

def afterApply : WriterOp -> ClientPc
  | .update _ => .unlockTable
  | _ => .handBack

def clientStep (fileOf : thread -> file) (s : State thread file) (t : thread) :
    Option (State thread file) :=
  match s.pc t with
  | .user => none
  | .clamp =>
      some (({ s with g := s.g.clampUpdateVectorCount } : State thread file).goto
        t (.lockQ .subscribe))
  | .lockQ req => (s.downQueue req.role).map (·.goto t (.enq req))
  | .enq req => some ((enqueueClient fileOf s t req).goto t (.unlockQ req))
  | .unlockQ req => some ((s.upQueue req.role).goto t (.wait req))
  | .wait req =>
      match s.completion (fileOf t) with
      | [] => none
      | issued :: rest =>
          some (({ s with
            completion := Function.update s.completion (fileOf t) rest
            wakes := (req.role, issued) :: s.wakes } :
              State thread file).goto t (afterWait req))
  | .lockTable op =>
      if s.g.sem = 0 then none
      else some (({ s with g := { s.g with sem := s.g.sem - 1 } } :
        State thread file).goto t (.apply op))
  | .apply op =>
      some (({ s with
        g := { s.g with table := op.perform s.g.table }
        performed := s.performed ++ [(t, op)] } :
          State thread file).goto t (afterApply op))
  | .unlockTable =>
      some (({ s with g := { s.g with sem := s.g.sem + 1 } } :
        State thread file).goto t .handBack)
  | .handBack =>
      some (({ s with g := { s.g with workerDone := s.g.workerDone + 1 } } :
        State thread file).goto t .user)
  | .copy =>
      some (({ s with
        served := (t, s.g.rtUpdateVectorCount, s.g.announced) :: s.served } :
          State thread file).goto t .downCs)
  | .downCs =>
      if s.g.rtSerializeReadersCsSem = 0 then none
      else some (({ s with
        g := { s.g with
          rtSerializeReadersCsSem := s.g.rtSerializeReadersCsSem - 1 } } :
            State thread file).goto t .test)
  | .test =>
      some (s.goto t
        (if s.g.nReadersToBeService = 1 then .cleanUp else .decLoad false))
  | .cleanUp =>
      -- the vector is freed and the pointer reset
      some (({ s with
        g := { s.g with
          rtUpdateVectorCount := 0
          table := s.g.table.rtEmptyChangeList
          rtUpdateVector := .null } } : State thread file).goto t .signal)
  | .signal =>
      some (({ s with g := { s.g with workerDone := s.g.workerDone + 1 } } :
        State thread file).goto t (.decLoad true))
  | .decLoad last =>
      some (s.goto t (.decStore last s.g.nReadersToBeService))
  | .decStore _ loaded =>
      some (({ s with
        g := { s.g with
          nReadersToBeService := Globals.decrement32 loaded } } :
            State thread file).goto t .upCs)
  | .upCs =>
      some (({ s with
        g := { s.g with
          rtSerializeReadersCsSem := s.g.rtSerializeReadersCsSem + 1 } } :
            State thread file).goto t .user)

/-- `down_interruptible` returns non-zero.  `SEM_LOCK` then leaves the handler
with `-ERESTARTSYS`; the reader's exit section ignores the result. -/
def interruptStep (s : State thread file) (t : thread) :
    Option (State thread file) :=
  match s.pc t with
  | .lockQ _ => some (s.goto t .user)
  | .lockTable _ => some (s.goto t .user)
  | .downCs => some (s.goto t .test)
  | _ => none

def callStep (s : State thread file) (t : thread) (req : Request) :
    Option (State thread file) :=
  match s.pc t with
  | .user => some (s.goto t (firstPc req))
  | _ => none

def workerStep (s : State thread file) (allocOk : Bool) :
    Option (State thread file) :=
  match s.worker with
  | .waitWriter =>
      if s.g.writerQ.ring.isQueueEmpty then none
      else some { s with worker := .lockWriterQ }
  | .lockWriterQ =>
      (s.downQueue .writer).map ({ · with worker := .dequeWriter })
  | .dequeWriter =>
      -- the pointer is dereferenced before it is tested against `NULL`
      some { s with
        g := s.g.setQueue .writer (s.g.queue .writer).deque
        worker :=
          match (s.g.queue .writer).taken with
          | none => .crashed
          | some f => .unlockWriterQ f }
  | .unlockWriterQ f =>
      some { s.upQueue .writer with worker := .completeWriter f }
  | .completeWriter f =>
      some { s.complete f .writer with worker := .waitWriterDone }
  | .waitWriterDone =>
      if s.g.workerDone = 0 then none
      else some { s with
        g := { s.g with workerDone := s.g.workerDone - 1 }
        worker := .lockReaderQ }
  | .lockReaderQ =>
      (s.downQueue .reader).map ({ · with worker := .countReaders })
  | .countReaders =>
      some { s with
        g := { s.g with nReadersToBeService := (s.g.queue .reader).ring.count }
        worker := .unlockReaderQ }
  | .unlockReaderQ =>
      some { s.upQueue .reader with worker := .testReaders }
  | .testReaders =>
      some { s with
        worker :=
          if s.g.nReadersToBeService = 0 then .emptyChangeList else .snapshot }
  | .emptyChangeList =>
      some { s with
        g := { s.g with table := s.g.table.rtEmptyChangeList }
        worker := .waitWriter }
  | .snapshot =>
      some { s with
        g := s.g.refreshUpdateVector allocOk
        worker := .loadReaders }
  | .loadReaders =>
      some { s with
        worker :=
          if s.g.nReadersToBeService = 0 then .waitReadersDone
          else .lockGrant 0 s.g.nReadersToBeService }
  | .lockGrant i n =>
      (s.downQueue .reader).map ({ · with worker := .dequeGrant i n })
  | .dequeGrant i n =>
      some { s with
        g := s.g.setQueue .reader (s.g.queue .reader).deque
        worker := .unlockGrant i n (s.g.queue .reader).taken }
  | .unlockGrant i n reader =>
      some { s.upQueue .reader with
        worker :=
          match reader with
          | none => .crashed
          | some f => .completeGrant i n f }
  | .completeGrant i n f =>
      some { s.complete f .reader with
        worker :=
          if i + 1 < n then .lockGrant (i + 1) n else .waitReadersDone }
  | .waitReadersDone =>
      if s.g.workerDone = 0 then none
      else some { s with
        g := { s.g with workerDone := s.g.workerDone - 1 }
        worker := .waitWriter }
  | .crashed => none

def step (fileOf : thread -> file) (s : State thread file) :
    Action thread -> Option (State thread file)
  | .call t req => callStep s t req
  | .client t => clientStep fileOf s t
  | .interrupt t => interruptStep s t
  | .worker allocOk => workerStep s allocOk

end Steps

/-!
## Places of a client

A writer holds its grant from the return of `wait_for_completion` to its
`complete` on the worker; a reader is in its critical section until its
`copy_to_user` is done.
-/

namespace ClientPc

/-- Between the writer's return from its wait and its hand-back. -/
def isWriting : ClientPc -> Bool
  | .lockTable _ => true
  | .apply _ => true
  | .unlockTable => true
  | .handBack => true
  | _ => false

/-- Between the reader's return from its wait and the end of its copy. -/
def isReading : ClientPc -> Bool
  | .copy => true
  | _ => false

/-- Between the `complete` of the last reader and its decrement. -/
def isStale : ClientPc -> Bool
  | .decLoad last => last
  | .decStore last _ => last
  | _ => false

def isEngaged (role : Role) : ClientPc -> Bool
  | .unlockQ req => req.role = role
  | .wait req => req.role = role
  | _ => false

def isEnqueuing (role : Role) : ClientPc -> Bool
  | .enq req => req.role = role
  | _ => false

end ClientPc

/-!
## Conditions on steps
-/

section Conditions

variable {thread file : Type _}

def Action.isInterrupt : Action thread -> Bool
  | .interrupt _ => true
  | _ => false

def Action.isWorker : Action thread -> Bool
  | .worker _ => true
  | _ => false

def Action.isClient [DecidableEq thread] (t : thread) : Action thread -> Bool
  | .client t' => t' = t
  | _ => false

def NoInterrupt (_s : State thread file) (a : Action thread) : Prop :=
  a.isInterrupt = false

/-- When the worker assigns the number of queued readers to
`n_readers_to_be_service`, no reader stands between its `complete` on the
worker and its decrement of that counter. -/
def CleanCount (s : State thread file) (a : Action thread) : Prop :=
  a.isWorker = true -> s.worker = .countReaders ->
    forall t, (s.pc t).isStale = false

def RoomyEnqueue [DecidableEq thread] (s : State thread file)
    (a : Action thread) : Prop :=
  forall t role, a.isClient t = true -> (s.pc t).isEnqueuing role = true ->
    (s.g.queue role).ring.isQueueFull = false

/-- Whenever a client calls `enqueue` in one role, no client waits on the same
open file in the other role. -/
def SeparateRoles [DecidableEq thread] (fileOf : thread -> file)
    (s : State thread file) (a : Action thread) : Prop :=
  forall t role, a.isClient t = true -> (s.pc t).isEnqueuing role = true ->
    forall t', fileOf t' = fileOf t -> (s.pc t').isEngaged role.other = false

section Decidability

variable [Fintype thread] [DecidableEq thread] [DecidableEq file]
variable (fileOf : thread -> file) (s : State thread file) (a : Action thread)

instance : Decidable (NoInterrupt s a) :=
  inferInstanceAs (Decidable (a.isInterrupt = false))

instance : Decidable (CleanCount s a) :=
  inferInstanceAs (Decidable (a.isWorker = true -> s.worker = .countReaders ->
    forall t, (s.pc t).isStale = false))

instance : Decidable (RoomyEnqueue s a) :=
  inferInstanceAs (Decidable (forall t role, a.isClient t = true ->
    (s.pc t).isEnqueuing role = true ->
      (s.g.queue role).ring.isQueueFull = false))

instance : Decidable (SeparateRoles fileOf s a) :=
  inferInstanceAs (Decidable (forall t role, a.isClient t = true ->
    (s.pc t).isEnqueuing role = true ->
      forall t', fileOf t' = fileOf t ->
        (s.pc t').isEngaged role.other = false))

end Decidability

theorem separateRoles_of_injective [DecidableEq thread]
    {fileOf : thread -> file} (hfile : Function.Injective fileOf)
    (s : State thread file) (a : Action thread) : SeparateRoles fileOf s a := by
  intro t role _ henq t' hsame
  rw [hfile hsame]
  cases hpc : s.pc t with
  | enq req => rfl
  | _ =>
      rw [hpc] at henq
      cases henq

end Conditions

end Ioctl
end RIBDriver
