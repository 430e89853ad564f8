import RIBDriver.Library.Counting
import RIBDriver.Rt.Access.Readers

/-!
# The moves of the protocol access by access

One constructor for each way a thread can take its next step.
-/

namespace RIBDriver

namespace Globals

variable {file : Type _} [DecidableEq file]

inductive EndsPoll (g : Globals file) (f : file) (nonblock black data : Bool) :
    Globals file -> Prop where
  | same : EndsPoll g f nonblock black data g
  | register (hblack : black = false) (hblock : nonblock = false) :
      EndsPoll g f nonblock black data
        { g with table := g.table.addRtTableUniquePollReader f }
  | rotate (hblack : black = true) (hdata : data = false)
      (hreaders : g.table.pollReadersList = []) :
      EndsPoll g f nonblock black data
        { g with
          table := { g.table with
            pollReadersList := g.blackListedPollReadersList }
          blackListedPollReadersList := [] }

theorem endsPoll_rtPollWait (g : Globals file) (f : file)
    (nonblock black data : Bool) :
    EndsPoll g f nonblock black data
      (g.rtPollWait f nonblock black data).1 := by
  unfold rtPollWait
  cases black with
  | false =>
      cases nonblock with
      | true => exact EndsPoll.same
      | false => exact EndsPoll.register rfl rfl
  | true =>
      cases data with
      | true => exact EndsPoll.same
      | false =>
          simp only [Bool.not_true, Bool.false_eq_true, if_false]
          split
          · rename_i hcount
            exact EndsPoll.rotate rfl rfl (List.length_eq_zero_iff.mp hcount)
          · exact EndsPoll.same

end Globals

namespace Access

variable {thread file : Type _}

namespace State

variable (s : State thread file)

inductive Publishes : Bool -> Nat -> State thread file -> Prop where
  | missing : Publishes false 0 { s with
      g := { s.g with rtUpdateVector := .null }
      pointer := none }
  | live (records : List RtTable.VectorCell) :
      Publishes true s.g.table.rtChangeList.length { s with
        g := { s.g with rtUpdateVector := .live records }
        vectors := (s.vectors.alloc records).1
        pointer := some (s.vectors.alloc records).2 }

theorem pointee_of_read {a : Nat} {records : List RtTable.VectorCell}
    (hread : s.vectors.read a = some records) :
    s.pointee (some a) = .live records := by
  simp only [pointee, hread]

theorem pointee_of_freed {a : Nat} (hread : s.vectors.read a = none) :
    s.pointee (some a) = .freed [] := by
  simp only [pointee, hread]

theorem publishes_publish (allocOk : Bool) :
    s.Publishes allocOk (s.published allocOk) (s.publish allocOk) := by
  cases allocOk with
  | false => exact Publishes.missing
  | true => exact Publishes.live _

end State

theorem State.lowered_of_downCs {s u : State thread file}
    (h : s.downCs = some u) : 0 < s.g.rtSerializeReadersCsSem ∧
      u = s.setCs (s.g.rtSerializeReadersCsSem - 1) := by
  unfold State.downCs at h
  split at h
  · cases h
  · rename_i hcs
    cases h
    exact ⟨Nat.pos_of_ne_zero hcs, rfl⟩

section Inversion

variable [DecidableEq thread] [DecidableEq file]

namespace State

variable (s : State thread file)

def lowered : State thread file := s.setCs (s.g.rtSerializeReadersCsSem - 1)

def look (t : thread) (f : file) (nonblock interrupted : Bool) :
    State thread file :=
  s.lowered.goto t (.pollWait f nonblock
    (singlyLlIsValuePresent s.g.blackListedPollReadersList f)
    (interrupted || s.g.table.mutexIsRtUpdated))

def endPoll (g : Globals file) : State thread file :=
  ({ s with g := g } : State thread file).upCs

def enter (t : thread) (f : file) (count : Nat) : State thread file :=
  { s.setReaders (s.g.rwSem.readers + 1) with
    requested := Function.update s.requested t count
    ready := Function.update s.ready f false }.goto t (.entryLock f)

def apply (kmsg : RtUpdate) : State thread file :=
  { s with
    g := s.g.rtWrite kmsg
    log :=
      if kmsg.opCode = rtRouteAdd then
        .wrote s.g.table.next s.g.table.pollReadersList :: s.log
      else s.log }

def setTable (table : RtTable file) : State thread file :=
  { s with g := { s.g with table := table } }

def moveReader (f : file) : State thread file :=
  { s with g := s.g.blackListPollReader f }

end State

inductive Move [Fintype thread] (s : State thread file) :
    Action thread file -> State thread file -> Prop where
  | pollReady {t : thread} {f : file} {nonblock interrupted : Bool}
      (hpc : s.pc t = .idle) :
      Move s (.poll t f nonblock interrupted)
        { s with
          ready :=
            if s.Reading f then s.ready else Function.update s.ready f true }
  | look {t : thread} {f : file} {nonblock interrupted : Bool}
      (hpc : s.pc t = .idle) (hcs : 0 < s.g.rtSerializeReadersCsSem) :
      Move s (.poll t f nonblock interrupted)
        (s.look t f nonblock interrupted)
  | endPoll {t : thread} {f : file} {nonblock black data allocOk : Bool}
      {g : Globals file} (hpc : s.pc t = .pollWait f nonblock black data)
      (hends : s.g.EndsPoll f nonblock black data g) :
      Move s (.next t allocOk) ((s.endPoll g).goto t .idle)
  | read {t : thread} {f : file} {count : Nat} (hpc : s.pc t = .idle) :
      Move s (.read t f count) (s.enter t f count)
  | write {t : thread} {kmsg : RtUpdate} {count : Nat} (hpc : s.pc t = .idle) :
      Move s (.write t kmsg count)
        ((s.addUser (.writeIn sizeofRtUpdate count)).goto t (.downWrite kmsg))
  | entryLock {t : thread} {f : file} {allocOk : Bool}
      (hpc : s.pc t = .entryLock f) (hcs : 0 < s.g.rtSerializeReadersCsSem) :
      Move s (.next t allocOk) (s.lowered.goto t (.entryTest f))
  | entryFirst {t : thread} {f : file} {allocOk : Bool}
      (hpc : s.pc t = .entryTest f) (hblack : s.black = []) :
      Move s (.next t allocOk) (s.goto t (.publish f))
  | entryLater {t : thread} {f : file} {allocOk : Bool}
      (hpc : s.pc t = .entryTest f) (hblack : s.black ≠ []) :
      Move s (.next t allocOk) (s.goto t (.entryUnlock f))
  | publish {t : thread} {f : file} {allocOk : Bool} {n : Nat}
      {v : State thread file} (hpc : s.pc t = .publish f)
      (hpublish : s.Publishes allocOk n v) :
      Move s (.next t allocOk)
        ((v.addEvent (.opened allocOk)).goto t (.storeCount f n))
  | storeCount {t : thread} {f : file} {n : Nat} {allocOk : Bool}
      (hpc : s.pc t = .storeCount f n) :
      Move s (.next t allocOk) ((s.setCount n).goto t (.testCount f))
  | countOver {t : thread} {f : file} {allocOk : Bool}
      (hpc : s.pc t = .testCount f)
      (hover : rtMaxEntriesFetch < s.g.rtUpdateVectorCount) :
      Move s (.next t allocOk) (s.goto t (.clamp f))
  | countFits {t : thread} {f : file} {allocOk : Bool}
      (hpc : s.pc t = .testCount f)
      (hfits : s.g.rtUpdateVectorCount ≤ rtMaxEntriesFetch) :
      Move s (.next t allocOk) (s.goto t (.entryUnlock f))
  | clamp {t : thread} {f : file} {allocOk : Bool} (hpc : s.pc t = .clamp f) :
      Move s (.next t allocOk)
        ((s.setCount rtMaxEntriesFetch).goto t (.entryUnlock f))
  | entryUnlock {t : thread} {f : file} {allocOk : Bool}
      (hpc : s.pc t = .entryUnlock f) :
      Move s (.next t allocOk) (s.upCs.goto t (.load f))
  | loadFirstCount {t : thread} {f : file} (hpc : s.pc t = .load f) :
      Move s (.load t true)
        (s.goto t (.loadVector f s.g.rtUpdateVectorCount))
  | loadFirstVector {t : thread} {f : file} (hpc : s.pc t = .load f) :
      Move s (.load t false) (s.goto t (.loadCount f s.pointer))
  | loadCount {t : thread} {f : file} {vector : Option Nat} {allocOk : Bool}
      (hpc : s.pc t = .loadCount f vector) :
      Move s (.next t allocOk)
        (beginCopy s t f vector s.g.rtUpdateVectorCount)
  | loadVector {t : thread} {f : file} {n : Nat} {allocOk : Bool}
      (hpc : s.pc t = .loadVector f n) :
      Move s (.next t allocOk) (beginCopy s t f s.pointer n)
  | endCopy {t : thread} {f : file} {vector : Option Nat} {n : Nat}
      {allocOk : Bool} (hpc : s.pc t = .copying f vector n) :
      Move s (.next t allocOk)
        ((s.addEvent (.copied f (s.pointee vector) n)).goto t (.exitLock f))
  | exitLock {t : thread} {f : file} {allocOk : Bool}
      (hpc : s.pc t = .exitLock f) (hcs : 0 < s.g.rtSerializeReadersCsSem) :
      Move s (.next t allocOk) (s.lowered.goto t (.exitTest f))
  | exitLast {t : thread} {f : file} {allocOk : Bool}
      (hpc : s.pc t = .exitTest f) (hone : s.readers.length = 1) :
      Move s (.next t allocOk) (s.goto t (.emptyList f))
  | exitOther {t : thread} {f : file} {allocOk : Bool}
      (hpc : s.pc t = .exitTest f) (hone : s.readers.length ≠ 1) :
      Move s (.next t allocOk) (s.goto t (.blackList f))
  | emptyList {t : thread} {f : file} {allocOk : Bool}
      (hpc : s.pc t = .emptyList f) :
      Move s (.next t allocOk)
        ((s.setTable s.g.table.rtEmptyChangeList).goto t (.resetCount f))
  | resetCount {t : thread} {f : file} {allocOk : Bool}
      (hpc : s.pc t = .resetCount f) :
      Move s (.next t allocOk) ((s.setCount 0).goto t (.free f))
  | free {t : thread} {f : file} {allocOk : Bool} (hpc : s.pc t = .free f) :
      Move s (.next t allocOk)
        ((s.kfree.addEvent (.kfreed (s.pointee s.pointer))).goto t
          (.blackList f))
  | blackList {t : thread} {f : file} {allocOk : Bool}
      (hpc : s.pc t = .blackList f) :
      Move s (.next t allocOk) ((s.moveReader f).goto t .exitUnlock)
  | exitUnlock {t : thread} {allocOk : Bool} (hpc : s.pc t = .exitUnlock) :
      Move s (.next t allocOk) (s.upCs.goto t .upRead)
  | upRead {t : thread} {allocOk : Bool} (hpc : s.pc t = .upRead) :
      Move s (.next t allocOk)
        ((s.setReaders (s.g.rwSem.readers - 1)).goto t .idle)
  | apply {t : thread} {kmsg : RtUpdate} {allocOk : Bool}
      (hpc : s.pc t = .downWrite kmsg) :
      Move s (.next t allocOk) ((s.apply kmsg).goto t .idle)
  | interrupt {t : thread} {f : file}
      (hpc : s.pc t = .entryLock f ∨ s.pc t = .exitLock f) :
      Move s (.interrupt t) (s.goto t .idle)

variable [Fintype thread] {s u : State thread file} {t : thread}

theorem move_of_pollStep {f : file} {nonblock interrupted : Bool}
    (h : pollStep s t f nonblock interrupted = some u) :
    Move s (.poll t f nonblock interrupted) u := by
  unfold pollStep at h
  split at h
  · cases h
  · rename_i hguard
    have hpc : s.pc t = .idle := by
      by_contra hbusy
      exact hguard (Or.inl hbusy)
    rcases Option.map_eq_some_iff.mp h with ⟨v, hdown, hu⟩
    rcases State.lowered_of_downCs hdown with ⟨hcs, hv⟩
    rw [← hu, hv]
    split
    · exact Move.pollReady hpc
    · exact Move.look hpc hcs

theorem move_of_lock {p : Pc file} {allocOk : Bool}
    (hmove : 0 < s.g.rtSerializeReadersCsSem ->
      Move s (.next t allocOk) (s.lowered.goto t p))
    (h : s.downCs.map (·.goto t p) = some u) : Move s (.next t allocOk) u := by
  rcases Option.map_eq_some_iff.mp h with ⟨v, hdown, hu⟩
  rcases State.lowered_of_downCs hdown with ⟨hcs, hv⟩
  rw [← hu, hv]
  exact hmove hcs

theorem move_of_nextStep {allocOk : Bool}
    (h : nextStep s t allocOk = some u) : Move s (.next t allocOk) u := by
  unfold nextStep at h
  cases hpc : s.pc t with
  | idle | load f =>
      rw [hpc] at h
      cases h
  | entryLock f =>
      rw [hpc] at h
      exact move_of_lock (Move.entryLock hpc) h
  | exitLock f =>
      rw [hpc] at h
      exact move_of_lock (Move.exitLock hpc) h
  | entryTest f =>
      rw [hpc] at h
      cases h
      split
      · rename_i hempty
        exact Move.entryFirst hpc (isSinglyLlEmpty_iff.mp hempty)
      · rename_i hsome
        exact Move.entryLater hpc
          (fun hempty => hsome (isSinglyLlEmpty_iff.mpr hempty))
  | testCount f =>
      rw [hpc] at h
      cases h
      split
      · rename_i hover
        exact Move.countOver hpc hover
      · rename_i hfits
        exact Move.countFits hpc (Nat.le_of_not_lt hfits)
  | exitTest f =>
      rw [hpc] at h
      cases h
      split
      · rename_i hone
        exact Move.exitLast hpc hone
      · rename_i hone
        exact Move.exitOther hpc hone
  | downWrite kmsg =>
      rw [hpc] at h
      dsimp only at h
      split at h
      · cases h
      · cases h
        exact Move.apply hpc
  | pollWait f nonblock black data =>
      rw [hpc] at h
      cases h
      exact Move.endPoll hpc (s.g.endsPoll_rtPollWait f nonblock black data)
  | publish f =>
      rw [hpc] at h
      cases h
      exact Move.publish hpc (s.publishes_publish allocOk)
  | storeCount f n =>
      rw [hpc] at h
      cases h
      exact Move.storeCount hpc
  | clamp f =>
      rw [hpc] at h
      cases h
      exact Move.clamp hpc
  | entryUnlock f =>
      rw [hpc] at h
      cases h
      exact Move.entryUnlock hpc
  | loadCount f vector =>
      rw [hpc] at h
      cases h
      exact Move.loadCount hpc
  | loadVector f n =>
      rw [hpc] at h
      cases h
      exact Move.loadVector hpc
  | copying f vector n =>
      rw [hpc] at h
      cases h
      exact Move.endCopy hpc
  | emptyList f =>
      rw [hpc] at h
      cases h
      exact Move.emptyList hpc
  | resetCount f =>
      rw [hpc] at h
      cases h
      exact Move.resetCount hpc
  | free f =>
      rw [hpc] at h
      cases h
      exact Move.free hpc
  | blackList f =>
      rw [hpc] at h
      cases h
      exact Move.blackList hpc
  | exitUnlock =>
      rw [hpc] at h
      cases h
      exact Move.exitUnlock hpc
  | upRead =>
      rw [hpc] at h
      cases h
      exact Move.upRead hpc

theorem move_of_step {a : Action thread file} (h : step s a = some u) :
    Move s a u := by
  cases a with
  | poll t f nonblock interrupted => exact move_of_pollStep h
  | next t allocOk => exact move_of_nextStep h
  | read t f count =>
      change readStep s t f count = some u at h
      unfold readStep at h
      split at h
      · cases h
      · rename_i hguard
        cases h
        exact Move.read (not_not.mp (not_or.mp hguard).left)
  | write t kmsg count =>
      change writeStep s t kmsg count = some u at h
      unfold writeStep at h
      split at h
      · cases h
      · rename_i hguard
        cases h
        exact Move.write (not_not.mp hguard)
  | load t countFirst =>
      change loadStep s t countFirst = some u at h
      unfold loadStep at h
      split at h
      · rename_i f hpc
        cases h
        cases countFirst with
        | true => exact Move.loadFirstCount hpc
        | false => exact Move.loadFirstVector hpc
      · cases h
  | interrupt t =>
      change interruptStep s t = some u at h
      unfold interruptStep at h
      split at h
      · rename_i f hpc
        cases h
        exact Move.interrupt (Or.inl hpc)
      · rename_i f hpc
        cases h
        exact Move.interrupt (Or.inr hpc)
      · cases h

end Inversion

/-!
## Who holds the semaphore
-/

section Locks

variable [Fintype thread] {s v : State thread file}

def holders (pc : thread -> Pc file) : Nat :=
  Counting.total (fun _ p => p.holdsCs.toNat) pc

def Locked (s : State thread file) : Prop :=
  s.g.rtSerializeReadersCsSem + holders s.pc = 1

theorem locked_init : Locked (State.init : State thread file) := by
  have hnone : holders (State.init : State thread file).pc = 0 :=
    Counting.total_eq_zero_iff.mpr fun _ => rfl
  unfold Locked
  rw [hnone]
  rfl

variable [DecidableEq thread]

theorem locked_goto {t : thread} {p : Pc file} (h : Locked s)
    (hpc : v.pc = Function.update s.pc t p)
    (hcs : v.g.rtSerializeReadersCsSem + p.holdsCs.toNat =
      s.g.rtSerializeReadersCsSem + (s.pc t).holdsCs.toNat) : Locked v := by
  have hmoved := Counting.total_update (fun _ q => Bool.toNat (Pc.holdsCs q))
    s.pc t p
  unfold Locked holders at *
  rw [hpc]
  lia

theorem eq_of_holds (h : Locked s) {t u : thread}
    (ht : (s.pc t).holdsCs = true) (hu : (s.pc u).holdsCs = true) : t = u := by
  by_contra hne
  have htwo := Counting.measure_add_le_total
    (fun _ p => Bool.toNat (Pc.holdsCs p)) s.pc hne
  unfold Locked holders at h
  rw [ht, hu] at htwo
  simp only [Bool.toNat_true] at htwo
  lia

variable [DecidableEq file]

theorem locked_step {a : Action thread file} (h : Locked s)
    (hmove : Move s a v) : Locked v := by
  cases hmove with
  | pollReady hpc => exact h
  | look hpc hcs | entryLock hpc hcs | exitLock hpc hcs =>
      refine locked_goto h rfl ?_
      rw [hpc]
      exact Nat.succ_pred_eq_of_pos hcs
  | @endPoll t f nonblock black data allocOk g hpc hends =>
      refine locked_goto h rfl ?_
      rw [hpc]
      cases hends <;> rfl
  | publish hpc hpublish =>
      cases hpublish with
      | missing | live =>
          refine locked_goto h rfl ?_
          rw [hpc]
          rfl
  | interrupt hpc =>
      refine locked_goto h rfl ?_
      rcases hpc with hpc | hpc <;> rw [hpc] <;> rfl
  | read hpc | write hpc | entryFirst hpc | entryLater hpc | storeCount hpc
  | countOver hpc | countFits hpc | clamp hpc | entryUnlock hpc
  | loadFirstCount hpc | loadFirstVector hpc | loadCount hpc | loadVector hpc
  | endCopy hpc | exitLast hpc | exitOther hpc | emptyList hpc
  | resetCount hpc | free hpc | blackList hpc | exitUnlock hpc | upRead hpc
  | apply hpc =>
      refine locked_goto h rfl ?_
      rw [hpc]
      rfl

end Locks

end Access
end RIBDriver
