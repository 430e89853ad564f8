import RIBDriver.Rt.Ioctl.Model

/-!
# The moves of the ioctl scheduler

Everything a step can do, one constructor for each place a thread can be at.
Invariants are proved by cases on moves, so the step functions are taken apart
here and nowhere else.
-/

namespace RIBDriver
namespace Ioctl

variable {thread file : Type _}

inductive Move [DecidableEq thread] [DecidableEq file]
    (fileOf : thread -> file) (s : State thread file) :
    Action thread -> State thread file -> Prop where
  | call {t : thread} {req : Request} (hpc : s.pc t = .user) :
      Move fileOf s (.call t req) (s.goto t (firstPc req))
  | interruptLockQ {t : thread} {req : Request} (hpc : s.pc t = .lockQ req) :
      Move fileOf s (.interrupt t) (s.goto t .user)
  | interruptLockTable {t : thread} {op : WriterOp}
      (hpc : s.pc t = .lockTable op) :
      Move fileOf s (.interrupt t) (s.goto t .user)
  | interruptDownCs {t : thread} (hpc : s.pc t = .downCs) :
      Move fileOf s (.interrupt t) (s.goto t .test)
  | clamp {t : thread} (hpc : s.pc t = .clamp) :
      Move fileOf s (.client t)
        (({ s with g := s.g.clampUpdateVectorCount } : State thread file).goto
          t (.lockQ .subscribe))
  | lockQ {t : thread} {req : Request} (hpc : s.pc t = .lockQ req)
      (hsem : s.queueSem req.role ≠ 0) :
      Move fileOf s (.client t)
        ((s.setQueueSem req.role (s.queueSem req.role - 1)).goto t (.enq req))
  | enq {t : thread} {req : Request} (hpc : s.pc t = .enq req) :
      Move fileOf s (.client t)
        ((enqueueClient fileOf s t req).goto t (.unlockQ req))
  | unlockQ {t : thread} {req : Request} (hpc : s.pc t = .unlockQ req) :
      Move fileOf s (.client t) ((s.upQueue req.role).goto t (.wait req))
  | wait {t : thread} {req : Request} {issued : Role} {rest : List Role}
      (hpc : s.pc t = .wait req)
      (hdone : s.completion (fileOf t) = issued :: rest) :
      Move fileOf s (.client t)
        (({ s with
          completion := Function.update s.completion (fileOf t) rest
          wakes := (req.role, issued) :: s.wakes } :
            State thread file).goto t (afterWait req))
  | lockTable {t : thread} {op : WriterOp} (hpc : s.pc t = .lockTable op)
      (hsem : s.g.sem ≠ 0) :
      Move fileOf s (.client t)
        (({ s with g := { s.g with sem := s.g.sem - 1 } } :
          State thread file).goto t (.apply op))
  | apply {t : thread} {op : WriterOp} (hpc : s.pc t = .apply op) :
      Move fileOf s (.client t)
        (({ s with
          g := { s.g with table := op.perform s.g.table }
          performed := s.performed ++ [(t, op)] } :
            State thread file).goto t (afterApply op))
  | unlockTable {t : thread} (hpc : s.pc t = .unlockTable) :
      Move fileOf s (.client t)
        (({ s with g := { s.g with sem := s.g.sem + 1 } } :
          State thread file).goto t .handBack)
  | handBack {t : thread} (hpc : s.pc t = .handBack) :
      Move fileOf s (.client t)
        (({ s with g := { s.g with workerDone := s.g.workerDone + 1 } } :
          State thread file).goto t .user)
  | copy {t : thread} (hpc : s.pc t = .copy) :
      Move fileOf s (.client t)
        (({ s with
          served := (t, s.g.rtUpdateVectorCount, s.g.announced) :: s.served } :
            State thread file).goto t .downCs)
  | downCs {t : thread} (hpc : s.pc t = .downCs)
      (hsem : s.g.rtSerializeReadersCsSem ≠ 0) :
      Move fileOf s (.client t)
        (({ s with
          g := { s.g with
            rtSerializeReadersCsSem := s.g.rtSerializeReadersCsSem - 1 } } :
              State thread file).goto t .test)
  | testLast {t : thread} (hpc : s.pc t = .test)
      (hone : s.g.nReadersToBeService = 1) :
      Move fileOf s (.client t) (s.goto t .cleanUp)
  | testOther {t : thread} (hpc : s.pc t = .test)
      (hone : s.g.nReadersToBeService ≠ 1) :
      Move fileOf s (.client t) (s.goto t (.decLoad false))
  | cleanUp {t : thread} (hpc : s.pc t = .cleanUp) :
      Move fileOf s (.client t)
        (({ s with
          g := { s.g with
            rtUpdateVectorCount := 0
            table := s.g.table.rtEmptyChangeList
            rtUpdateVector := .null } } : State thread file).goto t .signal)
  | signal {t : thread} (hpc : s.pc t = .signal) :
      Move fileOf s (.client t)
        (({ s with g := { s.g with workerDone := s.g.workerDone + 1 } } :
          State thread file).goto t (.decLoad true))
  | decLoad {t : thread} {last : Bool} (hpc : s.pc t = .decLoad last) :
      Move fileOf s (.client t)
        (s.goto t (.decStore last s.g.nReadersToBeService))
  | decStore {t : thread} {last : Bool} {loaded : Nat}
      (hpc : s.pc t = .decStore last loaded) :
      Move fileOf s (.client t)
        (({ s with
          g := { s.g with
            nReadersToBeService := Globals.decrement32 loaded } } :
              State thread file).goto t .upCs)
  | upCs {t : thread} (hpc : s.pc t = .upCs) :
      Move fileOf s (.client t)
        (({ s with
          g := { s.g with
            rtSerializeReadersCsSem := s.g.rtSerializeReadersCsSem + 1 } } :
              State thread file).goto t .user)
  | waitWriter {allocOk : Bool} (hw : s.worker = .waitWriter)
      (hitems : (s.g.queue .writer).items ≠ []) :
      Move fileOf s (.worker allocOk) { s with worker := .lockWriterQ }
  | lockWriterQ {allocOk : Bool} (hw : s.worker = .lockWriterQ)
      (hsem : s.queueSem .writer ≠ 0) :
      Move fileOf s (.worker allocOk)
        { s.setQueueSem .writer (s.queueSem .writer - 1) with
          worker := .dequeWriter }
  | dequeWriterNull {allocOk : Bool} (hw : s.worker = .dequeWriter)
      (hitems : (s.g.queue .writer).items = []) :
      Move fileOf s (.worker allocOk)
        { s with
          g := s.g.setQueue .writer (s.g.queue .writer).deque
          worker := .crashed }
  | dequeWriter {allocOk : Bool} {f : file} {rest : List file}
      (hw : s.worker = .dequeWriter)
      (hitems : (s.g.queue .writer).items = f :: rest) :
      Move fileOf s (.worker allocOk)
        { s with
          g := s.g.setQueue .writer (s.g.queue .writer).deque
          worker := .unlockWriterQ f }
  | unlockWriterQ {allocOk : Bool} {f : file}
      (hw : s.worker = .unlockWriterQ f) :
      Move fileOf s (.worker allocOk)
        { s.upQueue .writer with worker := .completeWriter f }
  | completeWriter {allocOk : Bool} {f : file}
      (hw : s.worker = .completeWriter f) :
      Move fileOf s (.worker allocOk)
        { s.complete f .writer with worker := .waitWriterDone }
  | waitWriterDone {allocOk : Bool} (hw : s.worker = .waitWriterDone)
      (hdone : s.g.workerDone ≠ 0) :
      Move fileOf s (.worker allocOk)
        { s with
          g := { s.g with workerDone := s.g.workerDone - 1 }
          worker := .lockReaderQ }
  | lockReaderQ {allocOk : Bool} (hw : s.worker = .lockReaderQ)
      (hsem : s.queueSem .reader ≠ 0) :
      Move fileOf s (.worker allocOk)
        { s.setQueueSem .reader (s.queueSem .reader - 1) with
          worker := .countReaders }
  | countReaders {allocOk : Bool} (hw : s.worker = .countReaders) :
      Move fileOf s (.worker allocOk)
        { s with
          g := { s.g with
            nReadersToBeService := (s.g.queue .reader).items.length }
          worker := .unlockReaderQ }
  | unlockReaderQ {allocOk : Bool} (hw : s.worker = .unlockReaderQ) :
      Move fileOf s (.worker allocOk)
        { s.upQueue .reader with worker := .testReaders }
  | testNone {allocOk : Bool} (hw : s.worker = .testReaders)
      (hzero : s.g.nReadersToBeService = 0) :
      Move fileOf s (.worker allocOk) { s with worker := .emptyChangeList }
  | testSome {allocOk : Bool} (hw : s.worker = .testReaders)
      (hzero : s.g.nReadersToBeService ≠ 0) :
      Move fileOf s (.worker allocOk) { s with worker := .snapshot }
  | emptyChangeList {allocOk : Bool} (hw : s.worker = .emptyChangeList) :
      Move fileOf s (.worker allocOk)
        { s with
          g := { s.g with table := s.g.table.rtEmptyChangeList }
          worker := .waitWriter }
  | snapshot {allocOk : Bool} (hw : s.worker = .snapshot) :
      Move fileOf s (.worker allocOk)
        { s with
          g := s.g.refreshUpdateVector allocOk
          worker := .loadReaders }
  | loadNone {allocOk : Bool} (hw : s.worker = .loadReaders)
      (hzero : s.g.nReadersToBeService = 0) :
      Move fileOf s (.worker allocOk) { s with worker := .waitReadersDone }
  | loadSome {allocOk : Bool} (hw : s.worker = .loadReaders)
      (hzero : s.g.nReadersToBeService ≠ 0) :
      Move fileOf s (.worker allocOk)
        { s with worker := .lockGrant 0 s.g.nReadersToBeService }
  | lockGrant {allocOk : Bool} {i n : Nat} (hw : s.worker = .lockGrant i n)
      (hsem : s.queueSem .reader ≠ 0) :
      Move fileOf s (.worker allocOk)
        { s.setQueueSem .reader (s.queueSem .reader - 1) with
          worker := .dequeGrant i n }
  | dequeGrant {allocOk : Bool} {i n : Nat} (hw : s.worker = .dequeGrant i n) :
      Move fileOf s (.worker allocOk)
        { s with
          g := s.g.setQueue .reader (s.g.queue .reader).deque
          worker := .unlockGrant i n (s.g.queue .reader).items.head? }
  | unlockGrantNull {allocOk : Bool} {i n : Nat}
      (hw : s.worker = .unlockGrant i n none) :
      Move fileOf s (.worker allocOk)
        { s.upQueue .reader with worker := .crashed }
  | unlockGrant {allocOk : Bool} {i n : Nat} {f : file}
      (hw : s.worker = .unlockGrant i n (some f)) :
      Move fileOf s (.worker allocOk)
        { s.upQueue .reader with worker := .completeGrant i n f }
  | completeGrantNext {allocOk : Bool} {i n : Nat} {f : file}
      (hw : s.worker = .completeGrant i n f) (hlt : i + 1 < n) :
      Move fileOf s (.worker allocOk)
        { s.complete f .reader with worker := .lockGrant (i + 1) n }
  | completeGrantLast {allocOk : Bool} {i n : Nat} {f : file}
      (hw : s.worker = .completeGrant i n f) (hlt : ¬ i + 1 < n) :
      Move fileOf s (.worker allocOk)
        { s.complete f .reader with worker := .waitReadersDone }
  | waitReadersDone {allocOk : Bool} (hw : s.worker = .waitReadersDone)
      (hdone : s.g.workerDone ≠ 0) :
      Move fileOf s (.worker allocOk)
        { s with
          g := { s.g with workerDone := s.g.workerDone - 1 }
          worker := .waitWriter }

section Inversion

variable {fileOf : thread -> file} {s s' : State thread file}

theorem downQueue_eq_some {role : Role} (h : s.downQueue role = some s') :
    s.queueSem role ≠ 0 ∧
      s' = s.setQueueSem role (s.queueSem role - 1) := by
  unfold State.downQueue at h
  split at h
  · cases h
  · rename_i hsem
    cases h
    exact ⟨hsem, rfl⟩

variable [DecidableEq thread] [DecidableEq file]

theorem move_of_callStep {t : thread} {req : Request}
    (h : callStep s t req = some s') : Move fileOf s (.call t req) s' := by
  unfold callStep at h
  split at h
  · rename_i hpc
    cases h
    exact Move.call hpc
  · cases h

theorem move_of_interruptStep {t : thread}
    (h : interruptStep s t = some s') : Move fileOf s (.interrupt t) s' := by
  unfold interruptStep at h
  split at h
  · rename_i hpc
    cases h
    exact Move.interruptLockQ hpc
  · rename_i hpc
    cases h
    exact Move.interruptLockTable hpc
  · rename_i hpc
    cases h
    exact Move.interruptDownCs hpc
  · cases h

theorem move_of_clientStep {t : thread}
    (h : clientStep fileOf s t = some s') :
    Move fileOf s (.client t) s' := by
  unfold clientStep at h
  cases hpc : s.pc t with
  | user =>
      rw [hpc] at h
      cases h
  | clamp =>
      rw [hpc] at h
      cases h
      exact Move.clamp hpc
  | lockQ req =>
      rw [hpc] at h
      rcases Option.map_eq_some_iff.mp h with ⟨u, hdown, hgoto⟩
      rcases downQueue_eq_some hdown with ⟨hsem, hu⟩
      rw [← hgoto, hu]
      exact Move.lockQ hpc hsem
  | enq req =>
      rw [hpc] at h
      cases h
      exact Move.enq hpc
  | unlockQ req =>
      rw [hpc] at h
      cases h
      exact Move.unlockQ hpc
  | wait req =>
      rw [hpc] at h
      cases hdone : s.completion (fileOf t) with
      | nil =>
          simp only [hdone] at h
          cases h
      | cons issued rest =>
          simp only [hdone] at h
          cases h
          exact Move.wait hpc hdone
  | lockTable op =>
      rw [hpc] at h
      simp only at h
      split at h
      · cases h
      · rename_i hsem
        cases h
        exact Move.lockTable hpc hsem
  | apply op =>
      rw [hpc] at h
      cases h
      exact Move.apply hpc
  | unlockTable =>
      rw [hpc] at h
      cases h
      exact Move.unlockTable hpc
  | handBack =>
      rw [hpc] at h
      cases h
      exact Move.handBack hpc
  | copy =>
      rw [hpc] at h
      cases h
      exact Move.copy hpc
  | downCs =>
      rw [hpc] at h
      simp only at h
      split at h
      · cases h
      · rename_i hsem
        cases h
        exact Move.downCs hpc hsem
  | test =>
      rw [hpc] at h
      simp only at h
      split at h
      · rename_i hone
        cases h
        exact Move.testLast hpc hone
      · rename_i hone
        cases h
        exact Move.testOther hpc hone
  | cleanUp =>
      rw [hpc] at h
      cases h
      exact Move.cleanUp hpc
  | signal =>
      rw [hpc] at h
      cases h
      exact Move.signal hpc
  | decLoad last =>
      rw [hpc] at h
      cases h
      exact Move.decLoad hpc
  | decStore last loaded =>
      rw [hpc] at h
      cases h
      exact Move.decStore hpc
  | upCs =>
      rw [hpc] at h
      cases h
      exact Move.upCs hpc

theorem move_of_workerStep {allocOk : Bool}
    (h : workerStep s allocOk = some s') :
    Move fileOf s (.worker allocOk) s' := by
  unfold workerStep at h
  cases hw : s.worker with
  | waitWriter =>
      rw [hw] at h
      simp only at h
      split at h
      · cases h
      · rename_i hempty
        cases h
        exact Move.waitWriter hw
          (fun hitems => hempty ((KernelQueue.isQueueEmpty_iff _).mpr hitems))
  | lockWriterQ =>
      rw [hw] at h
      rcases Option.map_eq_some_iff.mp h with ⟨u, hdown, hnext⟩
      rcases downQueue_eq_some hdown with ⟨hsem, hu⟩
      rw [← hnext, hu]
      exact Move.lockWriterQ hw hsem
  | dequeWriter =>
      rw [hw] at h
      cases h
      rw [KernelQueue.taken_eq_head?]
      cases hitems : (s.g.queue .writer).items with
      | nil => exact Move.dequeWriterNull hw hitems
      | cons f rest => exact Move.dequeWriter hw hitems
  | unlockWriterQ f =>
      rw [hw] at h
      cases h
      exact Move.unlockWriterQ hw
  | completeWriter f =>
      rw [hw] at h
      cases h
      exact Move.completeWriter hw
  | waitWriterDone =>
      rw [hw] at h
      simp only at h
      split at h
      · cases h
      · rename_i hdone
        cases h
        exact Move.waitWriterDone hw hdone
  | lockReaderQ =>
      rw [hw] at h
      rcases Option.map_eq_some_iff.mp h with ⟨u, hdown, hnext⟩
      rcases downQueue_eq_some hdown with ⟨hsem, hu⟩
      rw [← hnext, hu]
      exact Move.lockReaderQ hw hsem
  | countReaders =>
      rw [hw] at h
      cases h
      rw [KernelQueue.count_eq_length]
      exact Move.countReaders hw
  | unlockReaderQ =>
      rw [hw] at h
      cases h
      exact Move.unlockReaderQ hw
  | testReaders =>
      rw [hw] at h
      cases h
      split
      · rename_i hzero
        exact Move.testNone hw hzero
      · rename_i hzero
        exact Move.testSome hw hzero
  | emptyChangeList =>
      rw [hw] at h
      cases h
      exact Move.emptyChangeList hw
  | snapshot =>
      rw [hw] at h
      cases h
      exact Move.snapshot hw
  | loadReaders =>
      rw [hw] at h
      cases h
      split
      · rename_i hzero
        exact Move.loadNone hw hzero
      · rename_i hzero
        exact Move.loadSome hw hzero
  | lockGrant i n =>
      rw [hw] at h
      rcases Option.map_eq_some_iff.mp h with ⟨u, hdown, hnext⟩
      rcases downQueue_eq_some hdown with ⟨hsem, hu⟩
      rw [← hnext, hu]
      exact Move.lockGrant hw hsem
  | dequeGrant i n =>
      rw [hw] at h
      cases h
      rw [KernelQueue.taken_eq_head?]
      exact Move.dequeGrant hw
  | unlockGrant i n reader =>
      rw [hw] at h
      cases h
      cases reader with
      | none => exact Move.unlockGrantNull hw
      | some f => exact Move.unlockGrant hw
  | completeGrant i n f =>
      rw [hw] at h
      cases h
      split
      · rename_i hlt
        exact Move.completeGrantNext hw hlt
      · rename_i hlt
        exact Move.completeGrantLast hw hlt
  | waitReadersDone =>
      rw [hw] at h
      simp only at h
      split at h
      · cases h
      · rename_i hdone
        cases h
        exact Move.waitReadersDone hw hdone
  | crashed =>
      rw [hw] at h
      cases h

theorem move_of_step {a : Action thread} (h : step fileOf s a = some s') :
    Move fileOf s a s' := by
  cases a with
  | call t req => exact move_of_callStep h
  | client t => exact move_of_clientStep h
  | interrupt t => exact move_of_interruptStep h
  | worker allocOk => exact move_of_workerStep h

end Inversion

end Ioctl
end RIBDriver
