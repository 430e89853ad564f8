import RIBDriver.Rt.Poll.Model

/-!
# The moves of the poll protocol

Everything a step of `rt_poll`, `rt_read` or `rt_write` can do, one constructor
for each path through the three functions.
-/

namespace RIBDriver

namespace Globals

variable {file : Type _} [DecidableEq file]

inductive Polls (g : Globals file) (f : file) :
    Bool -> Bool -> Globals file -> UInt32 -> Prop where
  | ready {nonblock interrupted : Bool}
      (hblack : f ∉ g.blackListedPollReadersList)
      (hdata : interrupted = true ∨ g.table.pending ≠ []) :
      Polls g f nonblock interrupted g pollInRdNorm
  | again (hblack : f ∉ g.blackListedPollReadersList)
      (hempty : g.table.pending = []) :
      Polls g f true false g minusEagain
  | register (hblack : f ∉ g.blackListedPollReadersList)
      (hempty : g.table.pending = []) :
      Polls g f false false
        { g with table := g.table.addRtTableUniquePollReader f } 0
  | stay {nonblock interrupted : Bool}
      (hblack : f ∈ g.blackListedPollReadersList) :
      Polls g f nonblock interrupted g 0
  | rotate {nonblock : Bool} (hblack : f ∈ g.blackListedPollReadersList)
      (hempty : g.table.pending = [])
      (hreaders : g.table.pollReadersList = []) :
      Polls g f nonblock false
        { g with
          table := { g.table with
            pollReadersList := g.blackListedPollReadersList }
          blackListedPollReadersList := [] } 0

theorem polls_rtPoll (g : Globals file) (f : file)
    (nonblock interrupted : Bool) :
    Polls g f nonblock interrupted (g.rtPoll f nonblock interrupted).1
      (g.rtPoll f nonblock interrupted).2 := by
  rw [rtPoll_eq]
  dsimp only
  cases hdata : interrupted || g.table.mutexIsRtUpdated with
  | true =>
      have hnews : interrupted = true ∨ g.table.pending ≠ [] := by
        rcases Bool.or_eq_true_iff.mp hdata with hinterrupted | hupdated
        · exact Or.inl hinterrupted
        · exact Or.inr ((RtTable.mutexIsRtUpdated_iff _).mp hupdated)
      split
      · rename_i habsent
        have hblack : f ∉ g.blackListedPollReadersList := by
          simpa [singlyLlIsValuePresent] using habsent
        exact Polls.ready hblack hnews
      · rename_i hpresent
        have hblack : f ∈ g.blackListedPollReadersList := by
          simpa [singlyLlIsValuePresent] using hpresent
        exact Polls.stay hblack
  | false =>
      rcases Bool.or_eq_false_iff.mp hdata with ⟨hquiet, hupdated⟩
      have hempty := (RtTable.mutexIsRtUpdated_eq_false_iff _).mp hupdated
      rw [hquiet]
      split
      · rename_i habsent
        have hblack : f ∉ g.blackListedPollReadersList := by
          simpa [singlyLlIsValuePresent] using habsent
        cases nonblock with
        | true => exact Polls.again hblack hempty
        | false => exact Polls.register hblack hempty
      · rename_i hpresent
        have hblack : f ∈ g.blackListedPollReadersList := by
          simpa [singlyLlIsValuePresent] using hpresent
        simp only [Bool.false_eq_true, if_false]
        split
        · rename_i hcount
          have hreaders := List.length_eq_zero_iff.mp hcount
          exact Polls.rotate hblack hempty hreaders
        · exact Polls.stay hblack

theorem Polls.rtUpdateVectorCount {g g' : Globals file} {f : file}
    {nonblock interrupted : Bool} {mask : UInt32}
    (h : Polls g f nonblock interrupted g' mask) :
    g'.rtUpdateVectorCount = g.rtUpdateVectorCount := by
  cases h <;> rfl

end Globals

namespace Poll

variable {thread file : Type _}

namespace State

variable [DecidableEq file] [DecidableEq thread]
variable (s : State thread file)

def setReady (f : file) : State thread file :=
  { s with ready := Function.update s.ready f true }

def register (f : file) : State thread file :=
  { s with g := { s.g with table := s.g.table.addRtTableUniquePollReader f } }

def rotate : State thread file :=
  { s with
    g := { s.g with
      table := { s.g.table with
        pollReadersList := s.g.blackListedPollReadersList }
      blackListedPollReadersList := [] } }

def downRead : State thread file :=
  { s with
    g := { s.g with
      rwSem := { s.g.rwSem with readers := s.g.rwSem.readers + 1 } } }

def enter (t : thread) (f : file) : State thread file :=
  { s with
    pc := Function.update s.pc t (.copy f)
    ready := Function.update s.ready f false }

def snapshot (allocOk : Bool) (vector : UpdateVector) (n : Nat) :
    State thread file :=
  { s with
    g := { s.g with rtUpdateVector := vector, rtUpdateVectorCount := n }
    log := .opened allocOk :: s.log }

def copyOut (t : thread) (f : file) : State thread file :=
  { s with
    pc := Function.update s.pc t (.exit f)
    log := .copied f s.g.rtUpdateVector s.g.rtUpdateVectorCount :: s.log }

def endBatch : State thread file :=
  { s with
    g := { s.g with
      table := s.g.table.rtEmptyChangeList
      rtUpdateVectorCount := 0
      rtUpdateVector := s.g.rtUpdateVector.kfree }
    log := .kfreed s.g.rtUpdateVector :: s.log }

def leave (t : thread) (f : file) : State thread file :=
  { s with
    g := { s.g with
      table := { s.g.table with
        pollReadersList := s.g.table.pollReadersList.erase f }
      blackListedPollReadersList := f :: s.g.blackListedPollReadersList
      rwSem := { s.g.rwSem with readers := s.g.rwSem.readers - 1 } }
    pc := Function.update s.pc t .idle }

def abandon (t : thread) : State thread file :=
  { s with pc := Function.update s.pc t .idle }

def writeAdd (kmsg : RtUpdate) : State thread file :=
  { s with
    g := { s.g with table := s.g.table.addRtTableEntryByVal kmsg.entry }
    log := .wrote s.g.table.next s.g.table.pollReadersList :: s.log }

end State

/-- The vector and count a snapshot leaves: the pending updates, at most
`RT_MAX_ENTRIES_FETCH` of them, or nothing when the allocation fails. -/
structure Snapshot (s : State thread file) (allocOk : Bool)
    (vector : UpdateVector) (n : Nat) : Prop where
  announces : (vector.records.take n).map (·.src) =
    if allocOk then s.pending.take rtMaxEntriesFetch else []
  isLive : allocOk = true -> exists records, vector = .live records
  isNull : allocOk = false -> vector = .null ∧ n = 0

inductive Move [DecidableEq file] [DecidableEq thread] (s : State thread file) :
    Action thread file -> State thread file -> Prop where
  | pollReady {f : file} {nonblock interrupted : Bool} (hblack : f ∉ s.black)
      (hdata : interrupted = true ∨ s.pending ≠ []) (hidle : ¬ s.Reading f) :
      Move s (.poll f nonblock interrupted) (s.setReady f)
  | pollStay {f : file} {nonblock interrupted : Bool} :
      Move s (.poll f nonblock interrupted) s
  | pollRegister {f : file} (hblack : f ∉ s.black) (hempty : s.pending = []) :
      Move s (.poll f false false) (s.register f)
  | pollRotate {f : file} {nonblock : Bool} (hblack : f ∈ s.black)
      (hempty : s.pending = []) (hreaders : s.readers = []) :
      Move s (.poll f nonblock false) s.rotate
  | entryInterrupted {t : thread} {f : file} {allocOk : Bool}
      (hpc : s.pc t = .idle) :
      Move s (.readEntry t f allocOk true) s.downRead
  | entryFirst {t : thread} {f : file} {allocOk : Bool} {vector : UpdateVector}
      {n : Nat} (hpc : s.pc t = .idle) (hblack : s.black = [])
      (hvector : Snapshot s allocOk vector n) :
      Move s (.readEntry t f allocOk false)
        ((s.snapshot allocOk vector n).downRead.enter t f)
  | entryLater {t : thread} {f : file} {allocOk : Bool} (hpc : s.pc t = .idle)
      (hblack : s.black ≠ []) :
      Move s (.readEntry t f allocOk false) (s.downRead.enter t f)
  | copy {t : thread} {f : file} (hpc : s.pc t = .copy f) :
      Move s (.readCopy t) (s.copyOut t f)
  | exitInterrupted {t : thread} {f : file} (hpc : s.pc t = .exit f) :
      Move s (.readExit t true) (s.abandon t)
  | exitLast {t : thread} {f : file} (hpc : s.pc t = .exit f)
      (hone : s.readers.length = 1) :
      Move s (.readExit t false) (s.endBatch.leave t f)
  | exitOther {t : thread} {f : file} (hpc : s.pc t = .exit f)
      (hone : s.readers.length ≠ 1) :
      Move s (.readExit t false) (s.leave t f)
  | writeAdd {kmsg : RtUpdate} (hadd : kmsg.opCode = rtRouteAdd)
      (hreaders : s.g.rwSem.readers = 0) :
      Move s (.write kmsg) (s.writeAdd kmsg)
  | writeOther {kmsg : RtUpdate} (hadd : kmsg.opCode ≠ rtRouteAdd) :
      Move s (.write kmsg) s

section Inversion

variable {s u : State thread file}

theorem take_clamp (g : Globals file) {vector : List RtTable.VectorCell}
    (hcount : g.rtUpdateVectorCount = vector.length) :
    exists n, g.clampUpdateVectorCount = { g with rtUpdateVectorCount := n } ∧
      vector.take n = vector.take rtMaxEntriesFetch := by
  unfold Globals.clampUpdateVectorCount
  split
  · exact ⟨_, rfl, rfl⟩
  · refine ⟨g.rtUpdateVectorCount, rfl, ?_⟩
    rw [List.take_of_length_le (by lia), List.take_of_length_le (by lia)]

theorem snapshot_of_refresh (s : State thread file) (allocOk : Bool)
    (g : Globals file) (htable : g.table = s.g.table) :
    exists vector n,
      (g.refreshUpdateVector allocOk).clampUpdateVectorCount =
          { g with rtUpdateVector := vector, rtUpdateVectorCount := n } ∧
        Snapshot s allocOk vector n := by
  cases allocOk with
  | false =>
      refine ⟨.null, 0, rfl, ?_⟩
      constructor
      · rfl
      · intro h
        cases h
      · intro _
        exact ⟨rfl, rfl⟩
  | true =>
      cases hentries : g.table.rtGetUpdatedRtEntries true with
      | none => cases hentries
      | some vector =>
          have hsrc := RtTable.rtGetUpdatedRtEntries_src g.table hentries
          have hrefresh : g.refreshUpdateVector true =
              { g with
                rtUpdateVector := .live vector
                rtUpdateVectorCount := vector.length } := by
            unfold Globals.refreshUpdateVector
            rw [hentries]
          have hcount : (g.refreshUpdateVector true).rtUpdateVectorCount =
              vector.length := by rw [hrefresh]
          rcases take_clamp _ hcount with ⟨n, hclamp, htake⟩
          refine ⟨.live vector, n, ?_, ?_⟩
          · rw [hclamp, hrefresh]
          constructor
          · show (vector.take n).map (·.src) = s.pending.take rtMaxEntriesFetch
            rw [htake, List.map_take, hsrc, htable]
            rfl
          · intro _
            exact ⟨vector, rfl⟩
          · intro h
            cases h

variable [DecidableEq file] [DecidableEq thread]

theorem move_of_readEntryStep {t : thread} {f : file}
    {allocOk interrupted : Bool}
    (h : readEntryStep s t f allocOk interrupted = some u) :
    Move s (.readEntry t f allocOk interrupted) u := by
  unfold readEntryStep at h
  split at h
  · cases h
  · rename_i hguard
    have hpc : s.pc t = .idle := by
      by_contra hbusy
      exact hguard (Or.inl hbusy)
    cases interrupted with
    | true =>
        cases h
        exact Move.entryInterrupted hpc
    | false =>
        simp only [Bool.false_eq_true, if_false] at h
        split at h
        · cases h
        · simp only [Option.some.injEq] at h
          rw [← h]
          clear h
          unfold Globals.rtReadEntry Globals.rtReadFirst
          by_cases hblack : s.black = []
          · have hfirst : isSinglyLlEmpty s.g.blackListedPollReadersList =
                true := isSinglyLlEmpty_iff.mpr hblack
            rcases snapshot_of_refresh s allocOk
              { s.g with
                rwSem := { s.g.rwSem with readers := s.g.rwSem.readers + 1 } }
              rfl with ⟨vector, n, hentry, hvector⟩
            simp only [hfirst, if_true]
            rw [hentry]
            exact Move.entryFirst hpc hblack hvector
          · have hlater : ¬ isSinglyLlEmpty s.g.blackListedPollReadersList =
                true := fun hempty => hblack (isSinglyLlEmpty_iff.mp hempty)
            simp only [hlater, if_false, Bool.false_eq_true]
            exact Move.entryLater hpc hblack

theorem move_of_readExitStep {t : thread} {interrupted : Bool}
    (h : readExitStep s t interrupted = some u) :
    Move s (.readExit t interrupted) u := by
  unfold readExitStep at h
  split at h
  · rename_i f hpc
    cases interrupted with
    | true =>
        cases h
        exact Move.exitInterrupted hpc
    | false =>
        simp only [Bool.false_eq_true, if_false] at h
        split at h
        · cases h
        · simp only [Option.some.injEq] at h
          rw [← h]
          clear h
          unfold Globals.rtReadExit Globals.rtReadLast
          simp only [Globals.blackListPollReader_eq]
          by_cases hone : s.readers.length = 1
          · have hcount : s.g.rtGetPollReaderCount = 1 := hone
            simp only [hcount, if_true]
            exact Move.exitLast hpc hone
          · have hcount : ¬ s.g.rtGetPollReaderCount = 1 := hone
            simp only [hcount, if_false]
            exact Move.exitOther hpc hone
  · cases h

variable [Fintype thread]

theorem move_of_pollStep {f : file} {nonblock interrupted : Bool}
    (h : pollStep s f nonblock interrupted = some u) :
    Move s (.poll f nonblock interrupted) u := by
  unfold pollStep at h
  split at h
  · cases h
  · have hpolls := Globals.polls_rtPoll s.g f nonblock interrupted
    revert h hpolls
    rcases s.g.rtPoll f nonblock interrupted with ⟨g, mask⟩
    intro h hpolls
    simp only [Option.some.injEq] at h
    rw [← h]
    cases hpolls with
    | ready hblack hdata =>
        by_cases hreading : s.Reading f
        · simp only [hreading, not_true_eq_false, and_false, if_false]
          exact Move.pollStay
        · simp only [hreading, not_false_eq_true]
          exact Move.pollReady hblack hdata hreading
    | again hblack hempty => exact Move.pollStay
    | register hblack hempty => exact Move.pollRegister hblack hempty
    | stay hblack => exact Move.pollStay
    | rotate hblack hempty hreaders =>
        exact Move.pollRotate hblack hempty hreaders

theorem move_of_step {a : Action thread file} (h : step s a = some u) :
    Move s a u := by
  cases a with
  | poll f nonblock interrupted => exact move_of_pollStep h
  | readEntry t f allocOk interrupted => exact move_of_readEntryStep h
  | readCopy t =>
      change readCopyStep s t = some u at h
      unfold readCopyStep at h
      split at h
      · rename_i f hpc
        cases h
        exact Move.copy hpc
      · cases h
  | readExit t interrupted => exact move_of_readExitStep h
  | write kmsg =>
      change writeStep s kmsg = some u at h
      unfold writeStep at h
      split at h
      · cases h
      · rename_i hguard
        have hreaders : s.g.rwSem.readers = 0 := by
          by_contra hbusy
          exact hguard (Or.inl hbusy)
        simp only [Option.some.injEq] at h
        rw [← h]
        clear h
        unfold Globals.rtWrite RtTable.applyRtUpdates
        by_cases hadd : kmsg.opCode = rtRouteAdd
        · simp only [hadd, if_true]
          exact Move.writeAdd hadd hreaders
        · simp only [hadd, if_false]
          exact Move.writeOther hadd

/-!
## The shared variables
-/

/-- A step calls one of the functions between semaphore operations, or none. -/
inductive SharedStep (g : Globals file) : Globals file -> Prop where
  | same : SharedStep g g
  | poll (f : file) (nonblock interrupted : Bool) :
      SharedStep g (g.rtPoll f nonblock interrupted).1
  | downRead :
      SharedStep g { g with
        rwSem := { g.rwSem with readers := g.rwSem.readers + 1 } }
  | readEntry (allocOk : Bool) : SharedStep g (g.rtReadEntry allocOk)
  | readExit (f : file) : SharedStep g (g.rtReadExit f)
  | write (kmsg : RtUpdate) : SharedStep g (g.rtWrite kmsg)

theorem sharedStep_of_step {a : Action thread file} (h : step s a = some u) :
    SharedStep s.g u.g := by
  cases a with
  | poll f nonblock interrupted =>
      change pollStep s f nonblock interrupted = some u at h
      unfold pollStep at h
      split at h
      · cases h
      · cases h
        exact SharedStep.poll f nonblock interrupted
  | readEntry t f allocOk interrupted =>
      change readEntryStep s t f allocOk interrupted = some u at h
      unfold readEntryStep at h
      split at h
      · cases h
      · split at h
        · cases h
          exact SharedStep.downRead
        · split at h
          · cases h
          · cases h
            exact SharedStep.readEntry allocOk
  | readCopy t =>
      change readCopyStep s t = some u at h
      unfold readCopyStep at h
      split at h
      · cases h
        exact SharedStep.same
      · cases h
  | readExit t interrupted =>
      change readExitStep s t interrupted = some u at h
      unfold readExitStep at h
      split at h
      · rename_i f hpc
        split at h
        · cases h
          exact SharedStep.same
        · split at h
          · cases h
          · cases h
            exact SharedStep.readExit f
      · cases h
  | write kmsg =>
      change writeStep s kmsg = some u at h
      unfold writeStep at h
      split at h
      · cases h
      · cases h
        exact SharedStep.write kmsg

end Inversion

end Poll
end RIBDriver
