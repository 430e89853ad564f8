import RIBDriver.Rt.Poll.Moves

/-!
# The poll protocol lock by lock

`rt_poll`, `rt_read` and `rt_write` called by threads that `select`.  Every wait
for a lock is a step of its own.  What is done under the semaphore is one step
together with its release, and so is a copy, which takes no lock and is here
seen between sections only; `rt->rw_sem` is released in a step of its own.  A
`select` polls its file, sleeps on `rt->readerQ` while the mask is zero, and
polls again once it has been woken.

`poll_wait` enters the caller into the queue on the first poll of a `select`
only, and a `select` that is woken takes the mark away before it polls.
-/

namespace RIBDriver

namespace Globals

variable {file : Type _}

def relock (g : Globals file) (rwSem : RwSem) (cs : Nat) : Globals file :=
  { g with rwSem := rwSem, rtSerializeReadersCsSem := cs }

section Parts

variable (g : Globals file) (rwSem : RwSem) (cs : Nat)

@[simp] theorem relock_relock (rwSem' : RwSem) (cs' : Nat) :
    (g.relock rwSem cs).relock rwSem' cs' = g.relock rwSem' cs' := rfl

@[simp] theorem relock_self :
    g.relock g.rwSem g.rtSerializeReadersCsSem = g := rfl

theorem rtReadEntry_eq_relock (allocOk : Bool) :
    g.rtReadEntry allocOk =
      (g.relock { g.rwSem with readers := g.rwSem.readers + 1 }
        g.rtSerializeReadersCsSem).rtReadFirst allocOk := rfl

theorem rtReadFirst_relock (allocOk : Bool) :
    (g.relock rwSem cs).rtReadFirst allocOk =
      (g.rtReadFirst allocOk).relock rwSem cs := by
  unfold rtReadFirst
  have hblack : (g.relock rwSem cs).blackListedPollReadersList =
      g.blackListedPollReadersList := rfl
  have hrefresh : (g.relock rwSem cs).refreshUpdateVector allocOk =
      (g.refreshUpdateVector allocOk).relock rwSem cs := by
    unfold refreshUpdateVector
    have htable : (g.relock rwSem cs).table = g.table := rfl
    rw [htable]
    cases g.table.rtGetUpdatedRtEntries allocOk <;> rfl
  rw [hblack, hrefresh]
  split
  · unfold clampUpdateVectorCount
    have hcount : ((g.refreshUpdateVector allocOk).relock rwSem
        cs).rtUpdateVectorCount =
          (g.refreshUpdateVector allocOk).rtUpdateVectorCount := rfl
    rw [hcount]
    split <;> rfl
  · rfl

theorem exists_rtReadFirst_eq (allocOk : Bool) :
    exists vector n, g.rtReadFirst allocOk =
      { g with rtUpdateVector := vector, rtUpdateVectorCount := n } := by
  unfold rtReadFirst
  split
  · let s : Poll.State Unit file := { (Poll.State.init) with g := g }
    rcases Poll.snapshot_of_refresh s allocOk g rfl with ⟨vector, n, hfirst, _⟩
    exact ⟨vector, n, hfirst⟩
  · exact ⟨g.rtUpdateVector, g.rtUpdateVectorCount, rfl⟩

variable [DecidableEq file]

theorem rtPollWait_relock (filep : file) (nonblock black data : Bool) :
    (g.relock rwSem cs).rtPollWait filep nonblock black data =
      ((g.rtPollWait filep nonblock black data).1.relock rwSem cs,
        (g.rtPollWait filep nonblock black data).2) := by
  have hcount : (g.relock rwSem cs).rtGetPollReaderCount =
      g.rtGetPollReaderCount := rfl
  unfold rtPollWait
  rw [hcount]
  cases black <;> cases nonblock <;> cases data <;> simp only [Bool.not_false,
    Bool.not_true, if_true, Bool.false_eq_true, if_false] <;>
      first | rfl | (split <;> rfl)

theorem rtPollWait_mask (filep : file) (nonblock black data : Bool) :
    (g.rtPollWait filep nonblock black data).2 = minusEagain ∨
      (g.rtPollWait filep nonblock black data).2 = 0 := by
  unfold rtPollWait
  split
  · split
    · exact Or.inl rfl
    · exact Or.inr rfl
  · split
    · exact Or.inr rfl
    · split <;> exact Or.inr rfl

theorem rtPollWait_frame (f : file) (nonblock black data : Bool) :
    (g.rtPollWait f nonblock black data).1.rtUpdateVector = g.rtUpdateVector ∧
      (g.rtPollWait f nonblock black data).1.rtUpdateVectorCount =
        g.rtUpdateVectorCount ∧
      (g.rtPollWait f nonblock black data).1.table.next = g.table.next := by
  have hnext : (g.table.addRtTableUniquePollReader f).next = g.table.next := by
    unfold RtTable.addRtTableUniquePollReader
    split <;> rfl
  unfold rtPollWait
  split
  · split
    · exact ⟨rfl, rfl, rfl⟩
    · exact ⟨rfl, rfl, hnext⟩
  · split
    · exact ⟨rfl, rfl, rfl⟩
    · split <;> exact ⟨rfl, rfl, rfl⟩

theorem rtReadExit_eq_relock (filep : file) :
    g.rtReadExit filep =
      (g.rtReadLast filep).relock
        { g.rwSem with readers := g.rwSem.readers - 1 }
        g.rtSerializeReadersCsSem := by
  unfold rtReadExit rtReadLast relock
  dsimp only
  split <;> rfl

theorem rtReadLast_relock (filep : file) :
    (g.relock rwSem cs).rtReadLast filep =
      (g.rtReadLast filep).relock rwSem cs := by
  have hcount : (g.relock rwSem cs).rtGetPollReaderCount =
      g.rtGetPollReaderCount := rfl
  unfold rtReadLast
  rw [hcount]
  split <;> rfl

theorem rtPollWait_rtWrite (kmsg : RtUpdate) (filep : file)
    (nonblock black data : Bool) :
    ((g.rtWrite kmsg).rtPollWait filep nonblock black data).1 =
      ((g.rtPollWait filep nonblock black data).1).rtWrite kmsg := by
  have hreaders : (g.table.applyRtUpdates kmsg).pollReadersList =
      g.table.pollReadersList := by
    unfold RtTable.applyRtUpdates
    split <;> rfl
  have hset : forall readers : List file,
      { g.table.applyRtUpdates kmsg with pollReadersList := readers } =
        ({ g.table with pollReadersList := readers } :
          RtTable file).applyRtUpdates kmsg := by
    intro readers
    unfold RtTable.applyRtUpdates
    split <;> rfl
  have hadd : (g.table.applyRtUpdates kmsg).addRtTableUniquePollReader filep =
      (g.table.addRtTableUniquePollReader filep).applyRtUpdates kmsg := by
    unfold RtTable.addRtTableUniquePollReader
    rw [hreaders]
    split
    · rfl
    · exact hset _
  unfold rtPollWait
  cases black with
  | false =>
      cases nonblock with
      | true => rfl
      | false =>
          show ({ g with table := _ } : Globals file) = { g with table := _ }
          congr 1
  | true =>
      cases data with
      | true => rfl
      | false =>
          have hcount : (g.rtWrite kmsg).rtGetPollReaderCount =
              g.rtGetPollReaderCount := congrArg List.length hreaders
          simp only [Bool.not_true, Bool.false_eq_true, if_false]
          rw [hcount]
          split
          · show ({ g with
              table := _
              blackListedPollReadersList := [] } : Globals file) =
                { g with table := _, blackListedPollReadersList := [] }
            congr 1
            exact hset _
          · rfl

end Parts

end Globals

namespace Select

/-- A call of `rt_poll` inside a `select`: the first poll of it has a queue to
enter. -/
structure PollCall (file : Type _) where
  filep : file
  nonblock : Bool
  first : Bool
deriving DecidableEq

inductive Pc (file : Type _) where
  | idle
  -- `rt_poll`; `pollWait` has what its look has found
  | pollLock (call : PollCall file)
  | pollLook (call : PollCall file)
  | pollWait (call : PollCall file) (black isDataAvailable : Bool)
  | asleep (call : PollCall file)
  -- `rt_read`
  | readLock (filep : file)
  | readFirst (filep : file)
  | readCopy (filep : file)
  | lastLock (filep : file)
  | readLast (filep : file)
  | upRead
  -- `rt_write`
  | apply (kmsg : RtUpdate)
  | upWrite
  | wakeUp
deriving DecidableEq

/-- `readerQ t` says that `t` is on `rt->readerQ` and `woken t` that it has been
woken since its last poll.  `ready` and `log` are history, as in the protocol
with sections for steps. -/
structure State (thread file : Type _) where
  g : Globals file
  pc : thread -> Pc file
  readerQ : thread -> Bool
  woken : thread -> Bool
  ready : file -> Bool
  log : List (Poll.Event file)

inductive Action (thread file : Type _) where
  | select (t : thread) (filep : file) (nonblock : Bool)
  /-- `SEM_LOCK(&rt_serialize_readers_cs_sem)`. -/
  | downCs (t : thread) (interrupted : Bool)
  | look (t : thread) (interrupted : Bool)
  | pollWait (t : thread)
  /-- A sleeping `select` has been woken. -/
  | resume (t : thread)
  /-- A sleeping `select` returns without an event. -/
  | giveUp (t : thread)
  /-- `down_read(&rt->rw_sem)`. -/
  | read (t : thread) (filep : file)
  | first (t : thread) (allocOk : Bool)
  | copy (t : thread)
  | last (t : thread)
  | upRead (t : thread)
  /-- `down_write(&rt->rw_sem)`. -/
  | write (t : thread) (kmsg : RtUpdate)
  | apply (t : thread)
  | upWrite (t : thread)
  /-- `wake_up(&rt->readerQ)`. -/
  | wakeUp (t : thread)
deriving DecidableEq

namespace Pc

variable {file : Type _}

def stage : Pc file -> Poll.ReadPc file
  | .readCopy filep => .copy filep
  | .lastLock filep => .exit filep
  | .readLast filep => .exit filep
  | _ => .idle

def holdsCs : Pc file -> Bool
  | .pollLook _ => true
  | .pollWait _ _ _ => true
  | .readFirst _ => true
  | .readLast _ => true
  | _ => false

def writes : Pc file -> Bool
  | .apply _ => true
  | .upWrite => true
  | _ => false

end Pc

namespace State

variable {thread file : Type _}

def init : State thread file where
  g := Globals.init
  pc := fun _ => .idle
  readerQ := fun _ => false
  woken := fun _ => false
  ready := fun _ => false
  log := []

def pending (s : State thread file) : List Nat := s.g.table.pending

def black (s : State thread file) : List file :=
  s.g.blackListedPollReadersList

/-- Some thread is between the sections of a read of the file, or in its last. -/
def Reading (s : State thread file) (f : file) : Prop :=
  exists t, (s.pc t).stage.file? = some f

instance [Fintype thread] [DecidableEq file] (s : State thread file)
    (f : file) : Decidable (s.Reading f) :=
  inferInstanceAs (Decidable (exists t, (s.pc t).stage.file? = some f))

variable [DecidableEq thread]

def goto (s : State thread file) (t : thread) (pc : Pc file) :
    State thread file :=
  { s with pc := Function.update s.pc t pc }

def relock (s : State thread file) (rwSem : RwSem) (cs : Nat) :
    State thread file :=
  { s with g := s.g.relock rwSem cs }

def upCs (s : State thread file) : State thread file :=
  s.relock s.g.rwSem (s.g.rtSerializeReadersCsSem + 1)

/-- The return of `select`, which leaves the queue. -/
def leaveQueue (s : State thread file) (t : thread) : State thread file :=
  { s with readerQ := Function.update s.readerQ t false }.goto t .idle

end State

section Steps

variable {thread file : Type _} [DecidableEq thread] [DecidableEq file]
variable [Fintype thread]

/-- An interrupted wait returns from the call: a read keeps `rw_sem`. -/
def downCsStep (s : State thread file) (t : thread) (interrupted : Bool) :
    Option (State thread file) :=
  let down (next : Pc file) :=
    if s.g.rtSerializeReadersCsSem = 0 then none
    else
      some ((s.relock s.g.rwSem (s.g.rtSerializeReadersCsSem - 1)).goto t next)
  match s.pc t with
  | .pollLock call =>
      if interrupted then some (s.leaveQueue t) else down (.pollLook call)
  | .readLock filep =>
      if interrupted then some (s.goto t .idle) else down (.readFirst filep)
  | .lastLock filep =>
      if interrupted then some (s.goto t .idle) else down (.readLast filep)
  | _ => none

def lookStep (s : State thread file) (t : thread) (interrupted : Bool) :
    Option (State thread file) :=
  match s.pc t with
  | .pollLook call =>
      if s.g.sem = 0 ∧ interrupted = false then none
      else
        let black :=
          singlyLlIsValuePresent s.g.blackListedPollReadersList call.filep
        let isDataAvailable := interrupted || s.g.table.mutexIsRtUpdated
        if !black && isDataAvailable then
          some { s.upCs.leaveQueue t with
            ready :=
              if s.Reading call.filep then s.ready
              else Function.update s.ready call.filep true }
        else some (s.goto t (.pollWait call black isDataAvailable))
  | _ => none

/-- A mask of zero puts the `select` to sleep. -/
def pollWaitStep (s : State thread file) (t : thread) :
    Option (State thread file) :=
  match s.pc t with
  | .pollWait call black isDataAvailable =>
      let (g, mask) :=
        s.g.rtPollWait call.filep call.nonblock black isDataAvailable
      let s := { s with g := g }.upCs
      if mask = 0 then
        some ({ s with
          readerQ := Function.update s.readerQ t (s.readerQ t || call.first)
          }.goto t (.asleep call))
      else some (s.leaveQueue t)
  | _ => none

def selectStep (s : State thread file) : Action thread file ->
    Option (State thread file)
  | .select t filep nonblock =>
      if s.pc t = .idle then
        some ({ s with woken := Function.update s.woken t false }.goto t
          (.pollLock { filep := filep, nonblock := nonblock, first := true }))
      else none
  | .resume t =>
      match s.pc t with
      | .asleep call =>
          if s.woken t then
            some ({ s with woken := Function.update s.woken t false }.goto t
              (.pollLock { call with first := false }))
          else none
      | _ => none
  | .giveUp t =>
      match s.pc t with
      | .asleep _ => some (s.leaveQueue t)
      | _ => none
  | .downCs t interrupted => downCsStep s t interrupted
  | .look t interrupted => lookStep s t interrupted
  | .pollWait t => pollWaitStep s t
  | _ => none

def readStep (s : State thread file) : Action thread file ->
    Option (State thread file)
  | .read t filep =>
      if s.pc t ≠ .idle ∨ s.g.rwSem.writer = true then none
      else
        some ((s.relock { s.g.rwSem with readers := s.g.rwSem.readers + 1 }
          s.g.rtSerializeReadersCsSem).goto t (.readLock filep))
  | .first t allocOk =>
      match s.pc t with
      | .readFirst filep =>
          some (({ s with
            g := s.g.rtReadFirst allocOk
            ready := Function.update s.ready filep false
            log :=
              if isSinglyLlEmpty s.g.blackListedPollReadersList then
                .opened allocOk :: s.log
              else s.log }.upCs).goto t (.readCopy filep))
      | _ => none
  | .copy t =>
      match s.pc t with
      | .readCopy filep =>
          some ({ s with
            log := .copied filep s.g.rtUpdateVector s.g.rtUpdateVectorCount ::
              s.log }.goto t (.lastLock filep))
      | _ => none
  | .last t =>
      match s.pc t with
      | .readLast filep =>
          some (({ s with
            g := s.g.rtReadLast filep
            log :=
              if s.g.rtGetPollReaderCount = 1 then
                .kfreed s.g.rtUpdateVector :: s.log
              else s.log }.upCs).goto t .upRead)
      | _ => none
  | .upRead t =>
      match s.pc t with
      | .upRead =>
          some ((s.relock { s.g.rwSem with readers := s.g.rwSem.readers - 1 }
            s.g.rtSerializeReadersCsSem).goto t .idle)
      | _ => none
  | _ => none

def writeStep (s : State thread file) : Action thread file ->
    Option (State thread file)
  | .write t kmsg =>
      if s.pc t ≠ .idle ∨ s.g.rwSem.readers ≠ 0 ∨ s.g.rwSem.writer = true then
        none
      else
        some ((s.relock { s.g.rwSem with writer := true }
          s.g.rtSerializeReadersCsSem).goto t (.apply kmsg))
  | .apply t =>
      match s.pc t with
      | .apply kmsg =>
          some ({ s with
            g := s.g.rtWrite kmsg
            log :=
              if kmsg.opCode = rtRouteAdd then
                .wrote s.g.table.next s.g.table.pollReadersList :: s.log
              else s.log }.goto t .upWrite)
      | _ => none
  | .upWrite t =>
      match s.pc t with
      | .upWrite =>
          some ((s.relock { s.g.rwSem with writer := false }
            s.g.rtSerializeReadersCsSem).goto t .wakeUp)
      | _ => none
  | .wakeUp t =>
      match s.pc t with
      | .wakeUp =>
          some ({ s with woken := fun u => s.woken u || s.readerQ u }.goto t
            .idle)
      | _ => none
  | _ => none

def step (s : State thread file) (a : Action thread file) :
    Option (State thread file) :=
  match a with
  | .select _ _ _ | .downCs _ _ | .look _ _ | .pollWait _ | .resume _
  | .giveUp _ => selectStep s a
  | .read _ _ | .first _ _ | .copy _ | .last _ | .upRead _ => readStep s a
  | .write _ _ | .apply _ | .upWrite _ | .wakeUp _ => writeStep s a

end Steps

/-!
## Conditions on steps
-/

section Conditions

variable {thread file : Type _}

def Action.isInterrupted : Action thread file -> Bool
  | .downCs _ interrupted => interrupted
  | .look _ interrupted => interrupted
  | _ => false

/-- The first section of a read is entered only after a poll of the file has
returned `POLLIN | POLLRDNORM` since the last read of it. -/
def Action.isReady (s : State thread file) : Action thread file -> Bool
  | .first t _ =>
      match s.pc t with
      | .readFirst filep => s.ready filep
      | _ => true
  | _ => true

def Disciplined (s : State thread file) (a : Action thread file) : Prop :=
  a.isInterrupted = false ∧ a.isReady s = true

instance (s : State thread file) (a : Action thread file) :
    Decidable (Disciplined s a) :=
  inferInstanceAs (Decidable (a.isInterrupted = false ∧ a.isReady s = true))

end Conditions

end Select
end RIBDriver
