import RIBDriver.Rt.Ioctl.Moves

/-!
# The effects of the moves

Most moves lead a thread from one place to the next and touch nothing else than
a semaphore, the table or the vector.  They are gathered into one effect for
the clients and one for the worker, so that an invariant is checked on each of
them once.
-/

namespace RIBDriver
namespace Ioctl

variable {thread file : Type _}

structure Signals (file : Type _) where
  worker : WorkerPc file
  completion : file -> List Role
  workerDone : Nat
  nReadersToBeService : Nat

structure Books (thread file : Type _) where
  items : Role -> List file
  accepted : List (thread × WriterOp)
  performed : List (thread × WriterOp)

namespace State

def signals (s : State thread file) : Signals file where
  worker := s.worker
  completion := s.completion
  workerDone := s.g.workerDone
  nReadersToBeService := s.g.nReadersToBeService

def books (s : State thread file) : Books thread file where
  items := fun r => (s.g.queue r).items
  accepted := s.accepted
  performed := s.performed

end State

/-- Between the two operations on `rt_serialize_readers_cs_sem`. -/
def ClientPc.inSection : ClientPc -> Bool
  | .test => true
  | .cleanUp => true
  | .signal => true
  | .decLoad _ => true
  | .decStore _ _ => true
  | .upCs => true
  | _ => false

/-!
## Edges of the two programs
-/

/-- A client goes from one place to another and does no more; `n` is the number
of readers to be serviced it finds. -/
inductive ClientEdge (n : Nat) : ClientPc -> ClientPc -> Prop where
  | call (req : Request) : ClientEdge n .user (firstPc req)
  | clamp : ClientEdge n .clamp (.lockQ .subscribe)
  | lockQ (req : Request) : ClientEdge n (.lockQ req) (.enq req)
  | giveUp (req : Request) : ClientEdge n (.lockQ req) .user
  | unlockQ (req : Request) : ClientEdge n (.unlockQ req) (.wait req)
  | lockTable (op : WriterOp) : ClientEdge n (.lockTable op) (.apply op)
  | unlockTable : ClientEdge n .unlockTable .handBack
  | copy : ClientEdge n .copy .downCs
  | downCs : ClientEdge n .downCs .test
  | testLast (h : n = 1) : ClientEdge n .test .cleanUp
  | testOther (h : n ≠ 1) : ClientEdge n .test (.decLoad false)
  | cleanUp : ClientEdge n .cleanUp .signal
  | decLoad (last : Bool) : ClientEdge n (.decLoad last) (.decStore last n)
  | upCs : ClientEdge n .upCs .user

inductive WorkerEdge (n : Nat) : WorkerPc file -> WorkerPc file -> Prop where
  | waitWriter : WorkerEdge n .waitWriter .lockWriterQ
  | lockWriterQ : WorkerEdge n .lockWriterQ .dequeWriter
  | dequeWriterNull : WorkerEdge n .dequeWriter .crashed
  | unlockWriterQ (f : file) :
      WorkerEdge n (.unlockWriterQ f) (.completeWriter f)
  | lockReaderQ : WorkerEdge n .lockReaderQ .countReaders
  | unlockReaderQ : WorkerEdge n .unlockReaderQ .testReaders
  | testNone (h : n = 0) : WorkerEdge n .testReaders .emptyChangeList
  | testSome (h : n ≠ 0) : WorkerEdge n .testReaders .snapshot
  | emptyChangeList : WorkerEdge n .emptyChangeList .waitWriter
  | snapshot : WorkerEdge n .snapshot .loadReaders
  | loadNone (h : n = 0) : WorkerEdge n .loadReaders .waitReadersDone
  | loadSome (h : n ≠ 0) : WorkerEdge n .loadReaders (.lockGrant 0 n)
  | lockGrant (i m : Nat) : WorkerEdge n (.lockGrant i m) (.dequeGrant i m)
  | dequeGrantNull (i m : Nat) :
      WorkerEdge n (.dequeGrant i m) (.unlockGrant i m none)
  | unlockGrantNull (i m : Nat) :
      WorkerEdge n (.unlockGrant i m none) .crashed
  | unlockGrant (i m : Nat) (f : file) :
      WorkerEdge n (.unlockGrant i m (some f)) (.completeGrant i m f)

inductive Effect [DecidableEq thread] [DecidableEq file]
    (fileOf : thread -> file) (s : State thread file) :
    Action thread -> State thread file -> Prop where
  | quiet {a : Action thread} {t : thread} {p : ClientPc}
      {u : State thread file} (hsignals : u.signals = s.signals)
      (hbooks : u.books = s.books) (hpcs : u.pc = s.pc)
      (hedge : ClientEdge s.g.nReadersToBeService (s.pc t) p)
      (hsection : a.isInterrupt = false ->
        u.g.rtSerializeReadersCsSem + (p.inSection).toNat =
          s.g.rtSerializeReadersCsSem + ((s.pc t).inSection).toNat) :
      Effect fileOf s a (u.goto t p)
  | giveUpGrant {t : thread} {op : WriterOp} (hpc : s.pc t = .lockTable op) :
      Effect fileOf s (.interrupt t) (s.goto t .user)
  | enq {t : thread} {req : Request} (hpc : s.pc t = .enq req) :
      Effect fileOf s (.client t)
        ((enqueueClient fileOf s t req).goto t (.unlockQ req))
  | wait {t : thread} {req : Request} {issued : Role} {rest : List Role}
      (hpc : s.pc t = .wait req)
      (hdone : s.completion (fileOf t) = issued :: rest) :
      Effect fileOf s (.client t)
        (({ s with
          completion := Function.update s.completion (fileOf t) rest
          wakes := (req.role, issued) :: s.wakes } :
            State thread file).goto t (afterWait req))
  | apply {t : thread} {op : WriterOp} (hpc : s.pc t = .apply op) :
      Effect fileOf s (.client t)
        (({ s with
          g := { s.g with table := op.perform s.g.table }
          performed := s.performed ++ [(t, op)] } :
            State thread file).goto t (afterApply op))
  | handBack {t : thread} (hpc : s.pc t = .handBack) :
      Effect fileOf s (.client t)
        (({ s with g := { s.g with workerDone := s.g.workerDone + 1 } } :
          State thread file).goto t .user)
  | signal {t : thread} (hpc : s.pc t = .signal) :
      Effect fileOf s (.client t)
        (({ s with g := { s.g with workerDone := s.g.workerDone + 1 } } :
          State thread file).goto t (.decLoad true))
  | decStore {t : thread} {last : Bool} {loaded : Nat}
      (hpc : s.pc t = .decStore last loaded) :
      Effect fileOf s (.client t)
        (({ s with
          g := { s.g with
            nReadersToBeService := Globals.decrement32 loaded } } :
              State thread file).goto t .upCs)
  | moveOn {allocOk : Bool} {w : WorkerPc file} {u : State thread file}
      (hsignals : u.signals = { s.signals with worker := w })
      (hbooks : u.books = s.books) (hpcs : u.pc = s.pc)
      (hcs : u.g.rtSerializeReadersCsSem = s.g.rtSerializeReadersCsSem)
      (hedge : WorkerEdge s.g.nReadersToBeService s.worker w) :
      Effect fileOf s (.worker allocOk) u
  | dequeWriter {allocOk : Bool} {f : file} {rest : List file}
      (hw : s.worker = .dequeWriter)
      (hitems : (s.g.queue .writer).items = f :: rest) :
      Effect fileOf s (.worker allocOk)
        { s with
          g := s.g.setQueue .writer (s.g.queue .writer).deque
          worker := .unlockWriterQ f }
  | dequeGrant {allocOk : Bool} {i m : Nat} {f : file} {rest : List file}
      (hw : s.worker = .dequeGrant i m)
      (hitems : (s.g.queue .reader).items = f :: rest) :
      Effect fileOf s (.worker allocOk)
        { s with
          g := s.g.setQueue .reader (s.g.queue .reader).deque
          worker := .unlockGrant i m (some f) }
  | completeWriter {allocOk : Bool} {f : file}
      (hw : s.worker = .completeWriter f) :
      Effect fileOf s (.worker allocOk)
        { s.complete f .writer with worker := .waitWriterDone }
  | completeGrant {allocOk : Bool} {i m : Nat} {f : file} {w : WorkerPc file}
      (hw : s.worker = .completeGrant i m f)
      (hnext : i + 1 < m ∧ w = .lockGrant (i + 1) m ∨
        ¬ i + 1 < m ∧ w = .waitReadersDone) :
      Effect fileOf s (.worker allocOk)
        { s.complete f .reader with worker := w }
  | signalled {allocOk : Bool} {w : WorkerPc file}
      (hw : s.worker = .waitWriterDone ∧ w = .lockReaderQ ∨
        s.worker = .waitReadersDone ∧ w = .waitWriter)
      (hdone : s.g.workerDone ≠ 0) :
      Effect fileOf s (.worker allocOk)
        { s with
          g := { s.g with workerDone := s.g.workerDone - 1 }
          worker := w }
  | countReaders {allocOk : Bool} (hw : s.worker = .countReaders) :
      Effect fileOf s (.worker allocOk)
        { s with
          g := { s.g with
            nReadersToBeService := (s.g.queue .reader).items.length }
          worker := .unlockReaderQ }

section Effects

variable {fileOf : thread -> file} {s u : State thread file}
variable {a : Action thread}

@[simp] theorem items_setQueue (g : Globals file) (role r : Role)
    (q : KernelQueue file) :
    ((g.setQueue role q).queue r).items =
      if r = role then q.items else (g.queue r).items := by
  unfold Globals.setQueue
  by_cases hr : r = role
  · rw [if_pos hr, hr]
    simp
  · rw [if_neg hr]
    simp [hr]

theorem books_setQueue {role : Role} {q : KernelQueue file}
    {w : WorkerPc file} (hitems : q.items = (s.g.queue role).items) :
    ({ s with g := s.g.setQueue role q, worker := w } :
      State thread file).books = s.books := by
  have hsame : (fun r => ((s.g.setQueue role q).queue r).items) =
      fun r => (s.g.queue r).items := by
    funext r
    rw [items_setQueue]
    split
    · rename_i hr
      rw [hr, hitems]
    · rfl
  unfold State.books
  rw [hsame]

variable [DecidableEq thread] [DecidableEq file]

theorem effect_quiet {t : thread} {q p : ClientPc} (hpc : s.pc t = q)
    (hedge : ClientEdge s.g.nReadersToBeService q p)
    (hsection : u.g.rtSerializeReadersCsSem + (p.inSection).toNat =
      s.g.rtSerializeReadersCsSem + (q.inSection).toNat)
    (hsignals : u.signals = s.signals) (hbooks : u.books = s.books)
    (hpcs : u.pc = s.pc) : Effect fileOf s a (u.goto t p) := by
  rw [← hpc] at hedge hsection
  exact Effect.quiet hsignals hbooks hpcs hedge (fun _ => hsection)

theorem effect_moveOn {allocOk : Bool} {w w' : WorkerPc file}
    (hw : s.worker = w) (hedge : WorkerEdge s.g.nReadersToBeService w w')
    (hsignals : u.signals = { s.signals with worker := w' })
    (hbooks : u.books = s.books) (hpcs : u.pc = s.pc)
    (hcs : u.g.rtSerializeReadersCsSem = s.g.rtSerializeReadersCsSem) :
    Effect fileOf s (.worker allocOk) u := by
  rw [← hw] at hedge
  exact Effect.moveOn hsignals hbooks hpcs hcs hedge

theorem effect_queueSem {t : thread} {q p : ClientPc} {role : Role} {n : Nat}
    (hpc : s.pc t = q) (hedge : ClientEdge s.g.nReadersToBeService q p)
    (hsection : p.inSection = q.inSection) :
    Effect fileOf s a ((s.setQueueSem role n).goto t p) := by
  refine effect_quiet hpc hedge ?_ rfl
    (books_setQueue (KernelQueue.setSem_items _ n)) rfl
  rw [hsection]
  rfl

theorem effect_workerSem {allocOk : Bool} {w w' : WorkerPc file} {role : Role}
    {n : Nat} (hw : s.worker = w)
    (hedge : WorkerEdge s.g.nReadersToBeService w w') :
    Effect fileOf s (.worker allocOk)
      { s.setQueueSem role n with worker := w' } :=
  effect_moveOn hw hedge rfl (books_setQueue (KernelQueue.setSem_items _ n)) rfl
    rfl

theorem effect_of_callMove {t : thread} {req : Request}
    (h : Move fileOf s (.call t req) u) : Effect fileOf s (.call t req) u := by
  cases h with
  | call hpc =>
      refine effect_quiet hpc (ClientEdge.call req) ?_ rfl rfl rfl
      cases req <;> rfl

theorem effect_of_clientMove {t : thread} (h : Move fileOf s (.client t) u) :
    Effect fileOf s (.client t) u := by
  cases h with
  | clamp hpc =>
      unfold Globals.clampUpdateVectorCount
      split <;> exact effect_quiet hpc ClientEdge.clamp rfl rfl rfl rfl
  | lockQ hpc hsem => exact effect_queueSem hpc (ClientEdge.lockQ _) rfl
  | enq hpc => exact Effect.enq hpc
  | unlockQ hpc => exact effect_queueSem hpc (ClientEdge.unlockQ _) rfl
  | wait hpc hdone => exact Effect.wait hpc hdone
  | lockTable hpc hsem =>
      exact effect_quiet hpc (ClientEdge.lockTable _) rfl rfl rfl rfl
  | apply hpc => exact Effect.apply hpc
  | unlockTable hpc =>
      exact effect_quiet hpc ClientEdge.unlockTable rfl rfl rfl rfl
  | handBack hpc => exact Effect.handBack hpc
  | copy hpc => exact effect_quiet hpc ClientEdge.copy rfl rfl rfl rfl
  | downCs hpc hsem =>
      refine effect_quiet hpc ClientEdge.downCs ?_ rfl rfl rfl
      exact Nat.sub_add_cancel (Nat.pos_of_ne_zero hsem)
  | testLast hpc hone =>
      exact effect_quiet hpc (ClientEdge.testLast hone) rfl rfl rfl rfl
  | testOther hpc hone =>
      exact effect_quiet hpc (ClientEdge.testOther hone) rfl rfl rfl rfl
  | cleanUp hpc => exact effect_quiet hpc ClientEdge.cleanUp rfl rfl rfl rfl
  | signal hpc => exact Effect.signal hpc
  | decLoad hpc => exact effect_quiet hpc (ClientEdge.decLoad _) rfl rfl rfl rfl
  | decStore hpc => exact Effect.decStore hpc
  | upCs hpc => exact effect_quiet hpc ClientEdge.upCs rfl rfl rfl rfl

theorem effect_of_interruptMove {t : thread}
    (h : Move fileOf s (.interrupt t) u) :
    Effect fileOf s (.interrupt t) u := by
  cases h with
  | interruptLockQ hpc =>
      exact effect_quiet hpc (ClientEdge.giveUp _) rfl rfl rfl rfl
  | interruptLockTable hpc => exact Effect.giveUpGrant hpc
  | interruptDownCs hpc =>
      -- the section is entered without its semaphore
      refine Effect.quiet rfl rfl rfl ?_ (fun hno => by cases hno)
      rw [hpc]
      exact ClientEdge.downCs

theorem effect_of_workerMove {allocOk : Bool}
    (h : Move fileOf s (.worker allocOk) u) :
    Effect fileOf s (.worker allocOk) u := by
  cases h with
  | waitWriter hw hitems =>
      exact effect_moveOn hw WorkerEdge.waitWriter rfl rfl rfl rfl
  | lockWriterQ hw hsem => exact effect_workerSem hw WorkerEdge.lockWriterQ
  | dequeWriterNull hw hitems =>
      refine effect_moveOn hw WorkerEdge.dequeWriterNull rfl ?_ rfl rfl
      apply books_setQueue
      rw [KernelQueue.deque_items, hitems, List.tail_nil]
  | dequeWriter hw hitems => exact Effect.dequeWriter hw hitems
  | unlockWriterQ hw => exact effect_workerSem hw (WorkerEdge.unlockWriterQ _)
  | completeWriter hw => exact Effect.completeWriter hw
  | waitWriterDone hw hdone => exact Effect.signalled (Or.inl ⟨hw, rfl⟩) hdone
  | lockReaderQ hw hsem => exact effect_workerSem hw WorkerEdge.lockReaderQ
  | countReaders hw => exact Effect.countReaders hw
  | unlockReaderQ hw => exact effect_workerSem hw WorkerEdge.unlockReaderQ
  | testNone hw hzero =>
      exact effect_moveOn hw (WorkerEdge.testNone hzero) rfl rfl rfl rfl
  | testSome hw hzero =>
      exact effect_moveOn hw (WorkerEdge.testSome hzero) rfl rfl rfl rfl
  | emptyChangeList hw =>
      exact effect_moveOn hw WorkerEdge.emptyChangeList rfl rfl rfl rfl
  | snapshot hw =>
      unfold Globals.refreshUpdateVector
      split <;> exact effect_moveOn hw WorkerEdge.snapshot rfl rfl rfl rfl
  | loadNone hw hzero =>
      exact effect_moveOn hw (WorkerEdge.loadNone hzero) rfl rfl rfl rfl
  | loadSome hw hzero =>
      exact effect_moveOn hw (WorkerEdge.loadSome hzero) rfl rfl rfl rfl
  | lockGrant hw hsem => exact effect_workerSem hw (WorkerEdge.lockGrant _ _)
  | dequeGrant hw =>
      cases hitems : (s.g.queue .reader).items with
      | nil =>
          refine effect_moveOn hw (WorkerEdge.dequeGrantNull _ _) rfl ?_ rfl rfl
          apply books_setQueue
          rw [KernelQueue.deque_items, hitems, List.tail_nil]
      | cons f rest => exact Effect.dequeGrant hw hitems
  | unlockGrantNull hw =>
      exact effect_workerSem hw (WorkerEdge.unlockGrantNull _ _)
  | unlockGrant hw => exact effect_workerSem hw (WorkerEdge.unlockGrant _ _ _)
  | completeGrantNext hw hlt => exact Effect.completeGrant hw (Or.inl ⟨hlt, rfl⟩)
  | completeGrantLast hw hlt => exact Effect.completeGrant hw (Or.inr ⟨hlt, rfl⟩)
  | waitReadersDone hw hdone => exact Effect.signalled (Or.inr ⟨hw, rfl⟩) hdone

theorem effect_of_move (h : Move fileOf s a u) : Effect fileOf s a u := by
  cases a with
  | call t req => exact effect_of_callMove h
  | client t => exact effect_of_clientMove h
  | interrupt t => exact effect_of_interruptMove h
  | worker allocOk => exact effect_of_workerMove h

end Effects

end Ioctl
end RIBDriver
