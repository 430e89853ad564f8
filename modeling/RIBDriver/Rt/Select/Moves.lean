import RIBDriver.Library.Counting
import RIBDriver.Rt.Select.Model

/-!
# The moves of the protocol lock by lock

One constructor for each way a thread can take its next step, and who holds the
locks.
-/

namespace RIBDriver
namespace Select

variable {thread file : Type _}

namespace State

variable [DecidableEq thread] [DecidableEq file]
variable (s : State thread file)

def downCs : State thread file :=
  s.relock s.g.rwSem (s.g.rtSerializeReadersCsSem - 1)

def enterSelect (t : thread) (f : file) (nonblock : Bool) : State thread file :=
  { s with woken := Function.update s.woken t false }.goto t
    (.pollLock { filep := f, nonblock := nonblock, first := true })

def resume (t : thread) (call : PollCall file) : State thread file :=
  { s with woken := Function.update s.woken t false }.goto t
    (.pollLock { call with first := false })

def lookAt (call : PollCall file) (interrupted : Bool) : Pc file :=
  .pollWait call
    (singlyLlIsValuePresent s.g.blackListedPollReadersList call.filep)
    (interrupted || s.g.table.mutexIsRtUpdated)

def endPoll (call : PollCall file) (black data : Bool) : State thread file :=
  { s with
    g := (s.g.rtPollWait call.filep call.nonblock black data).1 }.upCs

def sleep (t : thread) (call : PollCall file) : State thread file :=
  { s with
    readerQ := Function.update s.readerQ t (s.readerQ t || call.first) }.goto t
      (.asleep call)

def downRead : State thread file :=
  s.relock { s.g.rwSem with readers := s.g.rwSem.readers + 1 }
    s.g.rtSerializeReadersCsSem

def upRead : State thread file :=
  s.relock { s.g.rwSem with readers := s.g.rwSem.readers - 1 }
    s.g.rtSerializeReadersCsSem

def setWriter (writer : Bool) : State thread file :=
  s.relock { s.g.rwSem with writer := writer } s.g.rtSerializeReadersCsSem

def readFirst (f : file) (allocOk : Bool) : State thread file :=
  { s with
    g := s.g.rtReadFirst allocOk
    ready := Function.update s.ready f false
    log :=
      if isSinglyLlEmpty s.g.blackListedPollReadersList then
        .opened allocOk :: s.log
      else s.log }.upCs

def copyOut (f : file) : State thread file :=
  { s with
    log := .copied f s.g.rtUpdateVector s.g.rtUpdateVectorCount :: s.log }

def readLast (f : file) : State thread file :=
  { s with
    g := s.g.rtReadLast f
    log :=
      if s.g.rtGetPollReaderCount = 1 then .kfreed s.g.rtUpdateVector :: s.log
      else s.log }.upCs

def writeTable (kmsg : RtUpdate) : State thread file :=
  { s with
    g := s.g.rtWrite kmsg
    log :=
      if kmsg.opCode = rtRouteAdd then
        .wrote s.g.table.next s.g.table.pollReadersList :: s.log
      else s.log }

def wakeAll : State thread file :=
  { s with woken := fun u => s.woken u || s.readerQ u }

end State

section Inversion

variable [DecidableEq thread] [DecidableEq file]
variable [Fintype thread]

def State.returnReady (s : State thread file) (t : thread)
    (call : PollCall file) : State thread file :=
  { s.upCs.leaveQueue t with
    ready :=
      if s.Reading call.filep then s.ready
      else Function.update s.ready call.filep true }

inductive Move (s : State thread file) :
    Action thread file -> State thread file -> Prop where
  | select {t : thread} {f : file} {nonblock : Bool} (hpc : s.pc t = .idle) :
      Move s (.select t f nonblock) (s.enterSelect t f nonblock)
  | resume {t : thread} {call : PollCall file} (hpc : s.pc t = .asleep call)
      (hwoken : s.woken t = true) : Move s (.resume t) (s.resume t call)
  | giveUp {t : thread} {call : PollCall file} (hpc : s.pc t = .asleep call) :
      Move s (.giveUp t) (s.leaveQueue t)
  | pollInterrupted {t : thread} {call : PollCall file}
      (hpc : s.pc t = .pollLock call) :
      Move s (.downCs t true) (s.leaveQueue t)
  | pollDown {t : thread} {call : PollCall file}
      (hpc : s.pc t = .pollLock call)
      (hcs : 0 < s.g.rtSerializeReadersCsSem) :
      Move s (.downCs t false) (s.downCs.goto t (.pollLook call))
  | firstInterrupted {t : thread} {f : file} (hpc : s.pc t = .readLock f) :
      Move s (.downCs t true) (s.goto t .idle)
  | firstDown {t : thread} {f : file} (hpc : s.pc t = .readLock f)
      (hcs : 0 < s.g.rtSerializeReadersCsSem) :
      Move s (.downCs t false) (s.downCs.goto t (.readFirst f))
  | lastInterrupted {t : thread} {f : file} (hpc : s.pc t = .lastLock f) :
      Move s (.downCs t true) (s.goto t .idle)
  | lastDown {t : thread} {f : file} (hpc : s.pc t = .lastLock f)
      (hcs : 0 < s.g.rtSerializeReadersCsSem) :
      Move s (.downCs t false) (s.downCs.goto t (.readLast f))
  | lookReady {t : thread} {call : PollCall file} {interrupted : Bool}
      (hpc : s.pc t = .pollLook call)
      (hsem : ¬ (s.g.sem = 0 ∧ interrupted = false))
      (hready : (!singlyLlIsValuePresent s.g.blackListedPollReadersList
        call.filep && (interrupted || s.g.table.mutexIsRtUpdated)) = true) :
      Move s (.look t interrupted) (s.returnReady t call)
  | lookOn {t : thread} {call : PollCall file} {interrupted : Bool}
      (hpc : s.pc t = .pollLook call)
      (hsem : ¬ (s.g.sem = 0 ∧ interrupted = false))
      (hready : (!singlyLlIsValuePresent s.g.blackListedPollReadersList
        call.filep && (interrupted || s.g.table.mutexIsRtUpdated)) = false) :
      Move s (.look t interrupted) (s.goto t (s.lookAt call interrupted))
  | sleep {t : thread} {call : PollCall file} {black data : Bool}
      (hpc : s.pc t = .pollWait call black data)
      (hmask : (s.g.rtPollWait call.filep call.nonblock black data).2 = 0) :
      Move s (.pollWait t) ((s.endPoll call black data).sleep t call)
  | again {t : thread} {call : PollCall file} {black data : Bool}
      (hpc : s.pc t = .pollWait call black data)
      (hmask : (s.g.rtPollWait call.filep call.nonblock black data).2 ≠ 0) :
      Move s (.pollWait t) ((s.endPoll call black data).leaveQueue t)
  | read {t : thread} {f : file} (hpc : s.pc t = .idle)
      (hwriter : s.g.rwSem.writer = false) :
      Move s (.read t f) (s.downRead.goto t (.readLock f))
  | first {t : thread} {f : file} {allocOk : Bool}
      (hpc : s.pc t = .readFirst f) :
      Move s (.first t allocOk) ((s.readFirst f allocOk).goto t (.readCopy f))
  | copy {t : thread} {f : file} (hpc : s.pc t = .readCopy f) :
      Move s (.copy t) ((s.copyOut f).goto t (.lastLock f))
  | last {t : thread} {f : file} (hpc : s.pc t = .readLast f) :
      Move s (.last t) ((s.readLast f).goto t .upRead)
  | upRead {t : thread} (hpc : s.pc t = .upRead) :
      Move s (.upRead t) (s.upRead.goto t .idle)
  | write {t : thread} {kmsg : RtUpdate} (hpc : s.pc t = .idle)
      (hreaders : s.g.rwSem.readers = 0) (hwriter : s.g.rwSem.writer = false) :
      Move s (.write t kmsg) ((s.setWriter true).goto t (.apply kmsg))
  | apply {t : thread} {kmsg : RtUpdate} (hpc : s.pc t = .apply kmsg) :
      Move s (.apply t) ((s.writeTable kmsg).goto t .upWrite)
  | upWrite {t : thread} (hpc : s.pc t = .upWrite) :
      Move s (.upWrite t) ((s.setWriter false).goto t .wakeUp)
  | wakeUp {t : thread} (hpc : s.pc t = .wakeUp) :
      Move s (.wakeUp t) (s.wakeAll.goto t .idle)

variable {s u : State thread file} {t : thread}

theorem move_of_downCsStep {interrupted : Bool}
    (h : downCsStep s t interrupted = some u) :
    Move s (.downCs t interrupted) u := by
  have hpos : ¬ s.g.rtSerializeReadersCsSem = 0 ->
      0 < s.g.rtSerializeReadersCsSem := Nat.pos_of_ne_zero
  unfold downCsStep at h
  dsimp only at h
  cases hpc : s.pc t with
  | pollLock call =>
      rw [hpc] at h
      cases interrupted with
      | true =>
          cases h
          exact Move.pollInterrupted hpc
      | false =>
          simp only [Bool.false_eq_true, if_false] at h
          split at h
          · cases h
          · rename_i hcs
            cases h
            exact Move.pollDown hpc (hpos hcs)
  | readLock f =>
      rw [hpc] at h
      cases interrupted with
      | true =>
          cases h
          exact Move.firstInterrupted hpc
      | false =>
          simp only [Bool.false_eq_true, if_false] at h
          split at h
          · cases h
          · rename_i hcs
            cases h
            exact Move.firstDown hpc (hpos hcs)
  | lastLock f =>
      rw [hpc] at h
      cases interrupted with
      | true =>
          cases h
          exact Move.lastInterrupted hpc
      | false =>
          simp only [Bool.false_eq_true, if_false] at h
          split at h
          · cases h
          · rename_i hcs
            cases h
            exact Move.lastDown hpc (hpos hcs)
  | _ =>
      rw [hpc] at h
      cases h

theorem move_of_lookStep {interrupted : Bool}
    (h : lookStep s t interrupted = some u) :
    Move s (.look t interrupted) u := by
  unfold lookStep at h
  split at h
  · rename_i call hpc
    split at h
    · cases h
    · rename_i hsem
      dsimp only at h
      split at h
      · rename_i hready
        cases h
        exact Move.lookReady hpc hsem hready
      · rename_i hready
        cases h
        exact Move.lookOn hpc hsem (Bool.eq_false_of_not_eq_true hready)
  · cases h

theorem move_of_pollWaitStep (h : pollWaitStep s t = some u) :
    Move s (.pollWait t) u := by
  unfold pollWaitStep at h
  split at h
  · rename_i call black data hpc
    dsimp only at h
    split at h
    · rename_i hmask
      cases h
      exact Move.sleep hpc hmask
    · rename_i hmask
      cases h
      exact Move.again hpc hmask
  · cases h

theorem move_of_selectStep {a : Action thread file}
    (h : selectStep s a = some u) : Move s a u := by
  cases a with
  | select t f nonblock =>
      change (if s.pc t = .idle then _ else none) = some u at h
      split at h
      · rename_i hpc
        cases h
        exact Move.select hpc
      · cases h
  | resume t =>
      simp only [selectStep] at h
      split at h
      · rename_i call hpc
        split at h
        · rename_i hwoken
          cases h
          exact Move.resume hpc hwoken
        · cases h
      · cases h
  | giveUp t =>
      simp only [selectStep] at h
      split at h
      · rename_i call hpc
        cases h
        exact Move.giveUp hpc
      · cases h
  | downCs t interrupted => exact move_of_downCsStep h
  | look t interrupted => exact move_of_lookStep h
  | pollWait t => exact move_of_pollWaitStep h
  | _ => cases h

theorem move_of_readStep {a : Action thread file}
    (h : readStep s a = some u) : Move s a u := by
  cases a with
  | read t f =>
      simp only [readStep] at h
      split at h
      · cases h
      · rename_i hguard
        cases h
        rcases not_or.mp hguard with ⟨hpc, hwriter⟩
        exact Move.read (not_not.mp hpc) (Bool.eq_false_of_not_eq_true hwriter)
  | first t allocOk =>
      simp only [readStep] at h
      split at h
      · rename_i f hpc
        cases h
        exact Move.first hpc
      · cases h
  | copy t =>
      simp only [readStep] at h
      split at h
      · rename_i f hpc
        cases h
        exact Move.copy hpc
      · cases h
  | last t =>
      simp only [readStep] at h
      split at h
      · rename_i f hpc
        cases h
        exact Move.last hpc
      · cases h
  | upRead t =>
      simp only [readStep] at h
      split at h
      · rename_i hpc
        cases h
        exact Move.upRead hpc
      · cases h
  | _ => cases h

theorem move_of_writeStep {a : Action thread file}
    (h : writeStep s a = some u) : Move s a u := by
  cases a with
  | write t kmsg =>
      simp only [writeStep] at h
      split at h
      · cases h
      · rename_i hguard
        cases h
        rcases not_or.mp hguard with ⟨hpc, hlocks⟩
        rcases not_or.mp hlocks with ⟨hreaders, hwriter⟩
        exact Move.write (not_not.mp hpc) (not_not.mp hreaders)
          (Bool.eq_false_of_not_eq_true hwriter)
  | apply t =>
      simp only [writeStep] at h
      split at h
      · rename_i kmsg hpc
        cases h
        exact Move.apply hpc
      · cases h
  | upWrite t =>
      simp only [writeStep] at h
      split at h
      · rename_i hpc
        cases h
        exact Move.upWrite hpc
      · cases h
  | wakeUp t =>
      simp only [writeStep] at h
      split at h
      · rename_i hpc
        cases h
        exact Move.wakeUp hpc
      · cases h
  | _ => cases h

theorem move_of_step {a : Action thread file} (h : step s a = some u) :
    Move s a u := by
  unfold step at h
  split at h
  all_goals
    first
    | exact move_of_selectStep h
    | exact move_of_readStep h
    | exact move_of_writeStep h

end Inversion

/-!
## Who holds the locks
-/

section Locks

variable {s v : State thread file}

variable [Fintype thread]

def holders (pc : thread -> Pc file) : Nat :=
  Counting.total (fun _ p => p.holdsCs.toNat) pc

def writers (pc : thread -> Pc file) : Nat :=
  Counting.total (fun _ p => p.writes.toNat) pc

/-- The free semaphore and its holder are one, a writer is alone in the table
and `rw_sem` knows of it. -/
structure Locked (s : State thread file) : Prop where
  cs : s.g.rtSerializeReadersCsSem + holders s.pc = 1
  writer : writers s.pc = s.g.rwSem.writer.toNat
  alone : s.g.rwSem.writer = true -> s.g.rwSem.readers = 0

theorem locked_init : Locked (State.init : State thread file) where
  cs := by
    have hnone : holders (State.init : State thread file).pc = 0 :=
      Counting.total_eq_zero_iff.mpr fun _ => rfl
    rw [hnone]
    rfl
  writer := Counting.total_eq_zero_iff.mpr fun _ => rfl
  alone := by
    intro h
    cases h

theorem writer_of_writes (h : Locked s) {t : thread}
    (ht : (s.pc t).writes = true) : s.g.rwSem.writer = true := by
  have hone := Counting.measure_le_total (fun _ p => Bool.toNat (Pc.writes p))
    s.pc t
  have hknown := h.writer
  unfold writers at hknown
  rw [ht, hknown] at hone
  cases hwriter : s.g.rwSem.writer with
  | true => rfl
  | false =>
      rw [hwriter] at hone
      cases hone

variable [DecidableEq thread]

theorem locked_goto {t : thread} {next : Pc file} (h : Locked s)
    (hpc : v.pc = Function.update s.pc t next)
    (hcs : v.g.rtSerializeReadersCsSem + next.holdsCs.toNat =
      s.g.rtSerializeReadersCsSem + (s.pc t).holdsCs.toNat)
    (hwriter : v.g.rwSem.writer.toNat + (s.pc t).writes.toNat =
      s.g.rwSem.writer.toNat + next.writes.toNat)
    (halone : v.g.rwSem.writer = true -> v.g.rwSem.readers = 0) : Locked v where
  cs := by
    have hmoved := Counting.total_update (fun _ p => Bool.toNat (Pc.holdsCs p))
      s.pc t next
    have hold := h.cs
    unfold holders at *
    rw [hpc]
    lia
  writer := by
    have hmoved := Counting.total_update (fun _ p => Bool.toNat (Pc.writes p))
      s.pc t next
    have hold := h.writer
    unfold writers at *
    rw [hpc]
    lia
  alone := halone

theorem eq_of_holds (h : Locked s) {t u : thread}
    (ht : (s.pc t).holdsCs = true) (hu : (s.pc u).holdsCs = true) : t = u := by
  by_contra hne
  have htwo := Counting.measure_add_le_total
    (fun _ p => Bool.toNat (Pc.holdsCs p)) s.pc hne
  have hone := h.cs
  unfold holders at hone
  rw [ht, hu] at htwo
  simp only [Bool.toNat_true] at htwo
  lia

theorem rwSem_rtReadFirst (g : Globals file) (allocOk : Bool) :
    (g.rtReadFirst allocOk).rwSem = g.rwSem ∧
      (g.rtReadFirst allocOk).rtSerializeReadersCsSem =
        g.rtSerializeReadersCsSem := by
  have hsame := g.rtReadFirst_relock g.rwSem g.rtSerializeReadersCsSem allocOk
  rw [Globals.relock_self] at hsame
  rw [hsame]
  exact ⟨rfl, rfl⟩

theorem locked_endSection {t : thread} {next : Pc file} (h : Locked s)
    (hpc : v.pc = Function.update s.pc t next)
    (hholds : (s.pc t).holdsCs = true) (hnext : next.holdsCs = false)
    (hwrites : next.writes = (s.pc t).writes)
    (hcs : v.g.rtSerializeReadersCsSem = s.g.rtSerializeReadersCsSem + 1)
    (hrw : v.g.rwSem = s.g.rwSem) : Locked v := by
  refine locked_goto h hpc ?_ ?_ ?_
  · rw [hholds, hnext, hcs]
    rfl
  · rw [hwrites, hrw]
  · rw [hrw]
    exact h.alone

variable [DecidableEq file]

theorem rwSem_rtPollWait (g : Globals file) (f : file)
    (nonblock black data : Bool) :
    (g.rtPollWait f nonblock black data).1.rwSem = g.rwSem ∧
      (g.rtPollWait f nonblock black data).1.rtSerializeReadersCsSem =
        g.rtSerializeReadersCsSem := by
  have hsame := g.rtPollWait_relock g.rwSem g.rtSerializeReadersCsSem f
    nonblock black data
  rw [Globals.relock_self] at hsame
  rw [hsame]
  exact ⟨rfl, rfl⟩

theorem rwSem_rtReadLast (g : Globals file) (f : file) :
    (g.rtReadLast f).rwSem = g.rwSem ∧
      (g.rtReadLast f).rtSerializeReadersCsSem =
        g.rtSerializeReadersCsSem := by
  have hsame := g.rtReadLast_relock g.rwSem g.rtSerializeReadersCsSem f
  rw [Globals.relock_self] at hsame
  rw [hsame]
  exact ⟨rfl, rfl⟩

theorem locked_step {a : Action thread file} (h : Locked s)
    (hstep : step s a = some v) : Locked v := by
  have halone := h.alone
  cases move_of_step hstep with
  | select hpc | resume hpc | giveUp hpc | pollInterrupted hpc
  | firstInterrupted hpc | lastInterrupted hpc | copy hpc | wakeUp hpc
  | lookOn hpc | apply hpc =>
      refine locked_goto h rfl ?_ ?_ halone <;> rw [hpc] <;> rfl
  | pollDown hpc hcs | firstDown hpc hcs | lastDown hpc hcs =>
      refine locked_goto h rfl ?_ (by rw [hpc]; rfl) halone
      rw [hpc]
      exact Nat.succ_pred_eq_of_pos hcs
  | lookReady hpc =>
      exact locked_endSection h rfl (by rw [hpc]; rfl) rfl (by rw [hpc]; rfl)
        rfl rfl
  | @sleep t call black data hpc | @again t call black data hpc =>
      have hlocks := rwSem_rtPollWait s.g call.filep call.nonblock black data
      exact locked_endSection h rfl (by rw [hpc]; rfl) rfl (by rw [hpc]; rfl)
        (congrArg (· + 1) hlocks.right) hlocks.left
  | @first t f allocOk hpc =>
      have hlocks := rwSem_rtReadFirst s.g allocOk
      exact locked_endSection h rfl (by rw [hpc]; rfl) rfl (by rw [hpc]; rfl)
        (congrArg (· + 1) hlocks.right) hlocks.left
  | @last t f hpc =>
      have hlocks := rwSem_rtReadLast s.g f
      exact locked_endSection h rfl (by rw [hpc]; rfl) rfl (by rw [hpc]; rfl)
        (congrArg (· + 1) hlocks.right) hlocks.left
  | read hpc hwriter =>
      refine locked_goto h rfl (by rw [hpc]; rfl) (by rw [hpc]; rfl) ?_
      intro hheld
      change s.g.rwSem.writer = true at hheld
      rw [hwriter] at hheld
      cases hheld
  | upRead hpc =>
      refine locked_goto h rfl (by rw [hpc]; rfl) (by rw [hpc]; rfl) ?_
      intro hheld
      show s.g.rwSem.readers - 1 = 0
      rw [halone hheld]
  | write hpc hreaders hwriter =>
      exact locked_goto h rfl (by rw [hpc]; rfl) (by rw [hpc, hwriter]; rfl)
        (fun _ => hreaders)
  | @upWrite t hpc =>
      have hwrites : (s.pc t).writes = true := by
        rw [hpc]
        rfl
      have hheld := writer_of_writes h hwrites
      refine locked_goto h rfl (by rw [hpc]; rfl) (by rw [hpc, hheld]; rfl) ?_
      intro hfree
      cases hfree

end Locks

end Select
end RIBDriver
