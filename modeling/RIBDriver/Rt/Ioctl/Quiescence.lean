import RIBDriver.Library.Potential
import RIBDriver.Rt.Ioctl.Exactness
import RIBDriver.Rt.Ioctl.Order
import RIBDriver.Rt.Ioctl.Wakeup

/-!
# Where the scheduler comes to rest

Every semaphore is free unless some thread is between its two operations, and
that thread can go on.  So a state in which no thread can go on is one in which
everybody has been served: the worker waits for a writer, the queue of writers
is empty and only subscribers are still waiting.
-/

namespace RIBDriver
namespace Ioctl

open Counting

variable {thread file : Type _}

/-!
## Who holds which semaphore
-/

namespace ClientPc

def holdsQueue (role : Role) : ClientPc -> Bool
  | .enq req => req.role = role
  | .unlockQ req => req.role = role
  | _ => false

def holdsTable : ClientPc -> Bool
  | .apply (.update _) => true
  | .unlockTable => true
  | _ => false

end ClientPc

def WorkerPc.holdsQueue : Role -> WorkerPc file -> Bool
  | .writer, .dequeWriter => true
  | .writer, .unlockWriterQ _ => true
  | .reader, .countReaders => true
  | .reader, .unlockReaderQ => true
  | .reader, .dequeGrant _ _ => true
  | .reader, .unlockGrant _ _ _ => true
  | _, _ => false

/-- A semaphore is free or held by one thread; a crashed worker may have taken
one with it. -/
structure Locked [Fintype thread] (s : State thread file) : Prop where
  queue : s.worker ≠ .crashed -> forall r,
    s.queueSem r + clientsAt (ClientPc.holdsQueue r) s +
      (s.worker.holdsQueue r).toNat = 1
  table : s.g.sem + clientsAt ClientPc.holdsTable s = 1
  updates : forall t op, s.pc t = .lockTable op -> exists msg, op = .update msg

section Locks

variable {fileOf : thread -> file} {s u : State thread file}
variable {a : Action thread}

@[simp] theorem queueSem_setQueueSem (s : State thread file) (role r : Role)
    (n : Nat) :
    (s.setQueueSem role n).queueSem r = if r = role then n else s.queueSem r := by
  unfold State.queueSem State.setQueueSem Globals.setQueue
  simp only [Function.update_apply]
  split
  · rfl
  · rfl

theorem queueSem_setQueue (role r : Role) (q : KernelQueue file) {w : WorkerPc file} :
    ({ s with g := s.g.setQueue role q, worker := w } :
      State thread file).queueSem r =
        if r = role then q.ring.sem else s.queueSem r := by
  unfold State.queueSem Globals.setQueue
  simp only [Function.update_apply]
  split <;> rfl

theorem sem_enqueue (q : KernelQueue file) (f : file) :
    (q.enqueue f).ring.sem = q.ring.sem := by
  show ((q.ring.enqueue (some f)).1).sem = _
  simp only [QueueT.enqueue, QueueT.insertAt]
  split_ifs <;> rfl

theorem queueSem_down {role : Role} (hsem : s.queueSem role ≠ 0) (r : Role) :
    (if r = role then s.queueSem role - 1 else s.queueSem r) +
      (decide (role = r)).toNat = s.queueSem r := by
  by_cases hr : r = role
  · rw [if_pos hr, hr, decide_eq_true rfl]
    simp only [Bool.toNat_true]
    lia
  · rw [if_neg hr, decide_eq_false (Ne.symm hr)]
    rfl

theorem queueSem_up {role : Role} (r : Role) :
    (if r = role then s.queueSem role + 1 else s.queueSem r) =
      s.queueSem r + (decide (role = r)).toNat := by
  by_cases hr : r = role
  · rw [if_pos hr, hr, decide_eq_true rfl]
    rfl
  · rw [if_neg hr, decide_eq_false (Ne.symm hr)]
    rfl

theorem queueSem_enqueueClient (s : State thread file) (t : thread)
    (req : Request) (r : Role) :
    (enqueueClient fileOf s t req).queueSem r = s.queueSem r := by
  show (((s.g.setQueue req.role _).queue r).ring).sem = _
  unfold Globals.setQueue
  simp only [Function.update_apply]
  split
  · rename_i hr
    rw [sem_enqueue, hr]
    rfl
  · rfl

variable [Fintype thread]

theorem sem_deque (q : KernelQueue file) : q.deque.ring.sem = q.ring.sem := by
  show (q.ring.deque.1).sem = _
  simp only [QueueT.deque]
  split_ifs <;> rfl

theorem locked_worker (h : Locked s) {w w' : WorkerPc file} (hw : s.worker = w)
    (hworker : u.worker = w') (hpcs : u.pc = s.pc) (htable : u.g.sem = s.g.sem)
    (hlive : w ≠ .crashed)
    (hqueue : w' ≠ .crashed -> forall r,
      u.queueSem r + (w'.holdsQueue r).toNat =
        s.queueSem r + (w.holdsQueue r).toNat) : Locked u := by
  refine ⟨?_, ?_, ?_⟩
  · intro hnext r
    rw [hworker] at hnext
    rw [← hw] at hlive
    have hold := h.queue hlive r
    have hsem := hqueue hnext r
    rw [hworker, clientsAt_congr _ hpcs]
    rw [hw] at hold
    lia
  · rw [clientsAt_congr _ hpcs, htable]
    exact h.table
  · rw [hpcs]
    exact h.updates

theorem locked_workerDown {role : Role} {w w' : WorkerPc file} (h : Locked s)
    (hw : s.worker = w) (hsem : s.queueSem role ≠ 0) (hlive : w ≠ .crashed)
    (hfree : forall r, w.holdsQueue r = false)
    (htakes : forall r, w'.holdsQueue r = decide (role = r)) :
    Locked { s.setQueueSem role (s.queueSem role - 1) with worker := w' } := by
  refine locked_worker h hw rfl rfl rfl hlive (fun _ r => ?_)
  rw [hfree, htakes]
  have hdown := queueSem_down hsem r
  rw [← queueSem_setQueueSem] at hdown
  exact hdown

theorem locked_workerUp {role : Role} {w w' : WorkerPc file} (h : Locked s)
    (hw : s.worker = w) (hlive : w ≠ .crashed)
    (hheld : forall r, w.holdsQueue r = decide (role = r))
    (hfree : forall r, w'.holdsQueue r = false) :
    Locked { s.upQueue role with worker := w' } := by
  refine locked_worker h hw rfl rfl rfl hlive (fun _ r => ?_)
  rw [hfree, hheld]
  have hup : (if r = role then s.queueSem role + 1 else s.queueSem r) =
      s.queueSem r + (decide (role = r)).toNat := queueSem_up r
  rw [← queueSem_setQueueSem] at hup
  exact hup

theorem locked_workerDeque {role : Role} {w w' : WorkerPc file} (h : Locked s)
    (hw : s.worker = w) (hlive : w ≠ .crashed)
    (hheld : w' ≠ .crashed -> forall r, w'.holdsQueue r = w.holdsQueue r) :
    Locked { s with
      g := s.g.setQueue role (s.g.queue role).deque
      worker := w' } := by
  refine locked_worker h hw rfl rfl rfl hlive (fun hnext r => ?_)
  rw [hheld hnext, queueSem_setQueue, sem_deque]
  split
  · rename_i hr
    rw [hr]
    rfl
  · rfl

theorem locked_init : Locked (State.init : State thread file) where
  queue := by
    intro _ r
    rw [clientsAt_init rfl]
    cases r <;> rfl
  table := by
    rw [clientsAt_init rfl]
    rfl
  updates := by
    intro t op hpc
    cases hpc

variable [DecidableEq thread]

theorem locked_goto {t : thread} {q p : ClientPc} (h : Locked s)
    (hpc : s.pc t = q) (hworker : u.worker = s.worker) (hpcs : u.pc = s.pc)
    (hqueue : forall r, u.queueSem r + (p.holdsQueue r).toNat =
      s.queueSem r + (q.holdsQueue r).toNat)
    (htable : u.g.sem + (p.holdsTable).toNat =
      s.g.sem + (q.holdsTable).toNat)
    (hupdate : forall op, p = .lockTable op -> exists msg, op = .update msg) :
    Locked (u.goto t p) := by
  have hmove := fun place => clientsAt_goto place u t p
  simp only [hpcs, clientsAt_congr _ hpcs, hpc] at hmove
  refine ⟨?_, ?_, ?_⟩
  · intro hlive r
    change u.worker ≠ .crashed at hlive
    rw [hworker] at hlive
    have hold := h.queue hlive r
    have hplace := hmove (ClientPc.holdsQueue r)
    have hsem := hqueue r
    show u.queueSem r + clientsAt (ClientPc.holdsQueue r) (u.goto t p) +
      (u.worker.holdsQueue r).toNat = 1
    rw [hworker]
    lia
  · have hold := h.table
    have hplace := hmove ClientPc.holdsTable
    show u.g.sem + clientsAt ClientPc.holdsTable (u.goto t p) = 1
    lia
  · intro t' op hplace
    change Function.update u.pc t p t' = .lockTable op at hplace
    by_cases ht : t' = t
    · rw [ht, Function.update_self] at hplace
      exact hupdate op hplace
    · rw [Function.update_of_ne ht, hpcs] at hplace
      exact h.updates t' op hplace

variable [DecidableEq file]

theorem holdsQueue_afterWait (req : Request) (r : Role) :
    (afterWait req).holdsQueue r = false := by
  cases req with
  | write op => cases op <;> rfl
  | subscribe => rfl

theorem holdsTable_afterWait (req : Request) :
    (afterWait req).holdsTable = false := by
  cases req with
  | write op => cases op <;> rfl
  | subscribe => rfl

theorem eq_update_of_afterWait {req : Request} {op : WriterOp}
    (h : afterWait req = .lockTable op) : exists msg, op = .update msg := by
  cases req with
  | write op' =>
      cases op' with
      | update msg =>
          cases h
          exact ⟨msg, rfl⟩
      | _ => cases h
  | subscribe => cases h

theorem afterApply_ne_lockTable (op op' : WriterOp) :
    afterApply op ≠ .lockTable op' := by
  cases op <;> simp [afterApply]

theorem firstPc_ne_lockTable (req : Request) (op : WriterOp) :
    firstPc req ≠ .lockTable op := by
  cases req <;> simp [firstPc]

theorem locked_clientMove {t : thread} (h : Locked s)
    (hmove : Move fileOf s (.client t) u) : Locked u := by
  cases hmove with
  | clamp hpc =>
      refine locked_goto h hpc rfl rfl (fun r => ?_) ?_ (by simp)
      · show ((s.g.clampUpdateVectorCount).queue r).ring.sem + 0 = _
        unfold Globals.clampUpdateVectorCount
        split <;> rfl
      · show (s.g.clampUpdateVectorCount).sem + 0 = _
        unfold Globals.clampUpdateVectorCount
        split <;> rfl
  | lockQ hpc hsem =>
      refine locked_goto h hpc rfl rfl (fun r => ?_) rfl (by simp)
      rw [queueSem_setQueueSem]
      exact queueSem_down hsem r
  | enq hpc =>
      refine locked_goto h hpc rfl rfl (fun r => ?_) rfl (by simp)
      rw [queueSem_enqueueClient]
      rfl
  | unlockQ hpc =>
      refine locked_goto h hpc rfl rfl (fun r => ?_) rfl (by simp)
      unfold State.upQueue
      rw [queueSem_setQueueSem]
      exact queueSem_up r
  | wait hpc hdone =>
      refine locked_goto h hpc rfl rfl (fun r => ?_) ?_
        (fun _ => eq_update_of_afterWait)
      · rw [holdsQueue_afterWait]
        rfl
      · rw [holdsTable_afterWait]
        rfl
  | lockTable hpc hsem =>
      rcases h.updates t _ hpc with ⟨msg, hop⟩
      rw [hop] at hpc ⊢
      refine locked_goto h hpc rfl rfl (fun _ => rfl) ?_ (by simp)
      show s.g.sem - 1 + 1 = s.g.sem + 0
      lia
  | apply hpc =>
      rename_i op
      refine locked_goto h hpc rfl rfl (fun r => ?_) ?_
        (fun op' hop => absurd hop (afterApply_ne_lockTable op op'))
      · cases op <;> rfl
      · cases op <;> rfl
  | testLast hpc hone =>
      exact locked_goto h hpc rfl rfl (fun _ => rfl) rfl (by simp)
  | testOther hpc hone =>
      exact locked_goto h hpc rfl rfl (fun _ => rfl) rfl (by simp)
  | downCs hpc hsem =>
      exact locked_goto h hpc rfl rfl (fun _ => rfl) rfl (by simp)
  | _ hpc => exact locked_goto h hpc rfl rfl (fun _ => rfl) rfl (by simp)

theorem locked_interruptMove {t : thread} (h : Locked s)
    (hmove : Move fileOf s (.interrupt t) u) : Locked u := by
  cases hmove with
  | interruptLockQ hpc =>
      exact locked_goto h hpc rfl rfl (fun _ => rfl) rfl (by simp)
  | interruptLockTable hpc =>
      exact locked_goto h hpc rfl rfl (fun _ => rfl) rfl (by simp)
  | interruptDownCs hpc =>
      exact locked_goto h hpc rfl rfl (fun _ => rfl) rfl (by simp)

theorem locked_workerMove {allocOk : Bool} (h : Locked s)
    (hmove : Move fileOf s (.worker allocOk) u) : Locked u := by
  cases hmove with
  | lockWriterQ hw hsem =>
      exact locked_workerDown h hw hsem (by simp) (by simp [WorkerPc.holdsQueue])
        (fun r => by cases r <;> rfl)
  | lockReaderQ hw hsem =>
      exact locked_workerDown h hw hsem (by simp) (by simp [WorkerPc.holdsQueue])
        (fun r => by cases r <;> rfl)
  | lockGrant hw hsem =>
      exact locked_workerDown h hw hsem (by simp) (by simp [WorkerPc.holdsQueue])
        (fun r => by cases r <;> rfl)
  | unlockWriterQ hw =>
      exact locked_workerUp h hw (by simp) (fun r => by cases r <;> rfl)
        (fun r => by cases r <;> rfl)
  | unlockReaderQ hw =>
      exact locked_workerUp h hw (by simp) (fun r => by cases r <;> rfl)
        (fun r => by cases r <;> rfl)
  | unlockGrantNull hw =>
      exact locked_workerUp h hw (by simp) (fun r => by cases r <;> rfl)
        (fun r => by cases r <;> rfl)
  | unlockGrant hw =>
      exact locked_workerUp h hw (by simp) (fun r => by cases r <;> rfl)
        (fun r => by cases r <;> rfl)
  | dequeWriterNull hw hitems =>
      exact locked_workerDeque h hw (by simp) (fun hnext => absurd rfl hnext)
  | dequeWriter hw hitems =>
      exact locked_workerDeque h hw (by simp) (fun _ r => by cases r <;> rfl)
  | dequeGrant hw =>
      exact locked_workerDeque h hw (by simp) (fun _ r => by cases r <;> rfl)
  | snapshot hw =>
      refine locked_worker h hw rfl rfl ?_ (by simp) (fun _ r => ?_)
      · show (s.g.refreshUpdateVector _).sem = s.g.sem
        unfold Globals.refreshUpdateVector
        split <;> rfl
      · cases r <;>
          show ((s.g.refreshUpdateVector _).queue _).ring.sem + 0 = _ <;>
          unfold Globals.refreshUpdateVector <;> split <;> rfl
  | _ hw =>
      exact locked_worker h hw rfl rfl rfl (by simp)
        (fun _ r => by cases r <;> rfl)

theorem locked_of_move (h : Locked s) (hmove : Move fileOf s a u) :
    Locked u := by
  cases a with
  | call t req =>
      cases hmove with
      | call hpc =>
          refine locked_goto h hpc rfl rfl (fun r => ?_) ?_
            (fun op hop => absurd hop (firstPc_ne_lockTable req op))
          · cases req <;> rfl
          · cases req <;> rfl
  | client t => exact locked_clientMove h hmove
  | interrupt t => exact locked_interruptMove h hmove
  | worker allocOk => exact locked_workerMove h hmove

end Locks

/-!
## Places where a thread is held up
-/

namespace ClientPc

def blocks : ClientPc -> Bool
  | .user => true
  | .lockQ _ => true
  | .wait _ => true
  | .lockTable _ => true
  | .downCs => true
  | _ => false

variable {p : ClientPc}

theorem holdsQueue_of_blocks (r : Role) (h : p.blocks = true) :
    p.holdsQueue r = false := by
  cases p <;> first | rfl | cases h

theorem holdsTable_of_blocks (h : p.blocks = true) : p.holdsTable = false := by
  cases p <;> first | rfl | cases h

theorem inSection_of_blocks (h : p.blocks = true) : p.inSection = false := by
  cases p <;> first | rfl | cases h

end ClientPc

namespace WorkerPc

def blocks : WorkerPc file -> Bool
  | .waitWriter => true
  | .lockWriterQ => true
  | .waitWriterDone => true
  | .lockReaderQ => true
  | .lockGrant _ _ => true
  | .waitReadersDone => true
  | .crashed => true
  | _ => false

theorem holdsQueue_of_blocks (r : Role) {w : WorkerPc file}
    (h : w.blocks = true) : w.holdsQueue r = false := by
  cases w <;> cases r <;> first | rfl | cases h

end WorkerPc

def Action.isProgress : Action thread -> Prop
  | .client _ => True
  | .worker _ => True
  | _ => False

def Stuck [DecidableEq thread] [DecidableEq file]
    (fileOf : thread -> file) (s : State thread file) : Prop :=
  Transition.Exhausted (step fileOf) Action.isProgress s

section Stuck

variable {fileOf : thread -> file} {s : State thread file}

theorem downQueue_isSome {role : Role} (h : s.queueSem role = 1) :
    s.downQueue role = some (s.setQueueSem role 0) := by
  unfold State.downQueue
  rw [h]
  rfl

theorem clientsAt_of_blocks [Fintype thread] {place : ClientPc -> Bool}
    (hblocks : forall t, (s.pc t).blocks = true)
    (hplace : forall p : ClientPc, p.blocks = true -> place p = false) :
    clientsAt place s = 0 := by
  unfold clientsAt
  rw [total_eq_zero_iff]
  intro t
  rw [hplace _ (hblocks t)]
  rfl

variable [DecidableEq file]

theorem blocks_of_workerStep {allocOk : Bool}
    (h : workerStep s allocOk = none) : s.worker.blocks = true := by
  unfold workerStep at h
  cases hw : s.worker <;> rw [hw] at h <;> first | rfl | cases h

variable [DecidableEq thread]

theorem stuck_iff : Stuck fileOf s <->
    (forall t, (clientStep fileOf s t).isNone = true) ∧
      forall allocOk, (workerStep s allocOk).isNone = true := by
  simp only [Option.isNone_iff_eq_none]
  constructor
  · intro h
    exact ⟨fun t => h (.client t) trivial, fun allocOk => h (.worker allocOk) trivial⟩
  · intro h a hprogress
    cases a with
    | client t => exact h.left t
    | worker allocOk => exact h.right allocOk
    | _ => cases hprogress

theorem blocks_of_clientStep {t : thread} (h : clientStep fileOf s t = none) :
    (s.pc t).blocks = true := by
  unfold clientStep at h
  cases hpc : s.pc t <;> rw [hpc] at h <;> first | rfl | cases h

theorem completion_of_wait (hstuck : Stuck fileOf s) {t : thread}
    {req : Request} (hpc : s.pc t = .wait req) :
    s.completion (fileOf t) = [] := by
  have hstop : clientStep fileOf s t = none := hstuck (.client t) trivial
  unfold clientStep at hstop
  rw [hpc] at hstop
  cases hdone : s.completion (fileOf t) with
  | nil => rfl
  | cons issued rest => simp [hdone] at hstop

variable [Fintype thread] [Fintype file]

structure Unlocked (s : State thread file) : Prop where
  queue : forall r, s.queueSem r = 1
  table : s.g.sem = 1
  serialize : s.g.rtSerializeReadersCsSem = 1
  clients : forall t, s.pc t = .user ∨ exists req, s.pc t = .wait req
  worker : s.worker = .waitWriter ∨ s.worker = .waitWriterDone ∨
    s.worker = .waitReadersDone

theorem unlocked_of_stuck (hstuck : Stuck fileOf s) (hlocked : Locked s)
    (hexact : Exact s) (halive : s.worker ≠ .crashed) : Unlocked s := by
  have hclient : forall t, clientStep fileOf s t = none :=
    fun t => hstuck (.client t) trivial
  have hworker : workerStep s true = none := hstuck (.worker true) trivial
  have hblocks := fun t => blocks_of_clientStep (hclient t)
  have hqueue : forall r, s.queueSem r = 1 := by
    intro r
    have hbalance := hlocked.queue halive r
    rw [clientsAt_of_blocks hblocks (fun p => p.holdsQueue_of_blocks r),
      WorkerPc.holdsQueue_of_blocks r (blocks_of_workerStep hworker)] at hbalance
    exact hbalance
  have htable : s.g.sem = 1 := by
    have hbalance := hlocked.table
    rw [clientsAt_of_blocks hblocks (fun p => p.holdsTable_of_blocks)] at hbalance
    exact hbalance
  have hsection : s.g.rtSerializeReadersCsSem = 1 := by
    have hbalance := hexact.alone
    rw [clientsAt_of_blocks hblocks (fun p => p.inSection_of_blocks)] at hbalance
    exact hbalance
  refine ⟨hqueue, htable, hsection, ?_, ?_⟩
  · intro t
    have hplace := hblocks t
    have hstop := hclient t
    unfold clientStep at hstop
    cases hpc : s.pc t with
    | user => exact Or.inl rfl
    | wait req => exact Or.inr ⟨req, rfl⟩
    | lockQ req =>
        rw [hpc] at hstop
        simp only [downQueue_isSome (hqueue _)] at hstop
        cases hstop
    | lockTable op =>
        rw [hpc] at hstop
        simp [htable] at hstop
    | downCs =>
        rw [hpc] at hstop
        simp [hsection] at hstop
    | _ =>
        rw [hpc] at hplace
        cases hplace
  · have hplace := blocks_of_workerStep hworker
    unfold workerStep at hworker
    cases hw : s.worker with
    | waitWriter => exact Or.inl rfl
    | waitWriterDone => exact Or.inr (Or.inl rfl)
    | waitReadersDone => exact Or.inr (Or.inr rfl)
    | lockWriterQ =>
        rw [hw] at hworker
        simp only [downQueue_isSome (hqueue _)] at hworker
        cases hworker
    | lockReaderQ =>
        rw [hw] at hworker
        simp only [downQueue_isSome (hqueue _)] at hworker
        cases hworker
    | lockGrant i n =>
        rw [hw] at hworker
        simp only [downQueue_isSome (hqueue _)] at hworker
        cases hworker
    | crashed => exact absurd hw halive
    | _ =>
        rw [hw] at hplace
        cases hplace

theorem tokens_of_stuck (hstuck : Stuck fileOf s) (hunlocked : Unlocked s)
    (hticketed : Ticketed fileOf s) (r : Role) : tokens s r = 0 := by
  by_contra hsome
  rcases exists_granted hticketed (Nat.pos_of_ne_zero hsome) with
    ⟨t, hengaged, hissued⟩
  rcases hunlocked.clients t with huser | ⟨req, hwait⟩
  · rw [huser] at hengaged
    cases hengaged
  · rw [completion_of_wait hstuck hwait] at hissued
    cases hissued

theorem worker_of_stuck (hstuck : Stuck fileOf s) (hunlocked : Unlocked s)
    (hticketed : Ticketed fileOf s) (hexact : Exact s) :
    s.worker = .waitWriter := by
  have hstop : workerStep s true = none := hstuck (.worker true) trivial
  have hnobody : forall place : ClientPc -> Bool, place .user = false ->
      (forall req, place (.wait req) = false) -> clientsAt place s = 0 := by
    intro place huser hwait
    unfold clientsAt
    rw [total_eq_zero_iff]
    intro t
    rcases hunlocked.clients t with hpc | ⟨req, hpc⟩
    · rw [hpc, huser]
      rfl
    · rw [hpc, hwait]
      rfl
  rcases hunlocked.worker with hw | hw | hw
  · exact hw
  · -- no writer has a grant, so the signal is there
    have hone := hexact.writer hw
    unfold grantedWriters at hone
    rw [tokens_of_stuck hstuck hunlocked hticketed,
      hnobody _ rfl (fun _ => rfl)] at hone
    unfold workerStep at hstop
    rw [hw] at hstop
    simp [show s.g.workerDone = 1 by lia] at hstop
  · -- no reader has one either
    by_cases hdone : s.g.workerDone = 0
    · have hpos := (hexact.readers hw hdone).left
      unfold grantedReaders at hpos
      rw [tokens_of_stuck hstuck hunlocked hticketed,
        hnobody _ rfl (fun _ => rfl)] at hpos
      cases hpos
    · unfold workerStep at hstop
      rw [hw] at hstop
      simp [hdone] at hstop

end Stuck

/-!
## States at rest
-/

/-- Everybody has been served but the subscribers that wait for the next
writer, no semaphore is held and no completion left over. -/
structure ControlRests {client : Type _} (fileOf : client -> file)
    (c : Control file) (worker : WorkerPc file) (completion : file -> Nat)
    (outside waits : client -> Prop) : Prop where
  worker : worker = .waitWriter
  writers : (c.queue .writer).items = []
  clients : forall t, outside t ∨
    waits t ∧ fileOf t ∈ (c.queue .reader).items
  free : c.sem = 1 ∧ c.serialize = 1 ∧ forall r, (c.queue r).ring.sem = 1
  consumed : c.workerDone = 0 ∧ forall f, completion f = 0

theorem ControlRests.mono {client : Type _} {fileOf : client -> file}
    {c : Control file} {worker : WorkerPc file} {completion : file -> Nat}
    {outside outside' waits waits' : client -> Prop}
    (h : ControlRests fileOf c worker completion outside waits)
    (houtside : forall t, outside t -> outside' t)
    (hwaits : forall t, waits t -> waits' t) :
    ControlRests fileOf c worker completion outside' waits' where
  worker := h.worker
  writers := h.writers
  clients := by
    intro t
    rcases h.clients t with hout | ⟨hwait, hmem⟩
    · exact Or.inl (houtside t hout)
    · exact Or.inr ⟨hwaits t hwait, hmem⟩
  free := h.free
  consumed := h.consumed

def SchedulerRests (fileOf : thread -> file) (s : State thread file) : Prop :=
  ControlRests fileOf s.g.control s.worker (fun f => (s.completion f).length)
    (fun t => s.pc t = .user) (fun t => s.pc t = .wait .subscribe)

/-- The scheduler rests, and the table is the result of all accepted writers. -/
structure AtRest (fileOf : thread -> file) (s : State thread file) : Prop where
  control : SchedulerRests fileOf s
  performed : s.performed = s.accepted
  table : s.g.table.cells =
    (serialTable (s.accepted.map Prod.snd)).map EntryCell.live

def Smooth [DecidableEq thread]
    (s : State thread file) (a : Action thread) : Prop :=
  Undisturbed s a ∧ RoomyEnqueue s a

section Rest

variable [Fintype thread]
variable {fileOf : thread -> file} {s : State thread file}

theorem settledCount_of_batched [DecidableEq thread] [Fintype file]
    (h : Batched s) (a : Action thread) :
    SettledCount s a := by
  intro t _ hstoring
  cases hcounting : s.worker.isCounting with
  | false => rfl
  | true =>
      have hnone : grantedReaders s = 0 ∧ staleReaders s = 0 := by
        have hphase := h.phase
        cases hw : s.worker <;> rw [hw] at hcounting hphase <;>
          first | exact ⟨hphase.right.right.left, hphase.right.right.right⟩ |
            cases hcounting
      cases hpc : s.pc t with
      | decStore last loaded =>
          cases last with
          | false =>
              have hserved : (s.pc t).isServed = true := by rw [hpc]; rfl
              have hpos := clientsAt_pos hserved
              unfold grantedReaders at hnone
              lia
          | true =>
              have hstale : (s.pc t).isStale = true := by rw [hpc]; rfl
              have hpos := clientsAt_pos hstale
              unfold staleReaders at hnone
              lia
      | _ =>
          rw [hpc] at hstoring
          cases hstoring

variable [DecidableEq file]

theorem performed_eq_accepted [Fintype file] (hserial : Serial fileOf s)
    (hwriters : (s.g.queue .writer).items = [])
    (hgranted : grantedWriters s = 0) (hw : s.worker = .waitWriter) :
    s.performed = s.accepted := by
  rcases hserial with ⟨rest, front, hserial⟩
  have hfront : front = [] := by
    rw [List.eq_nil_iff_forall_not_mem]
    intro f hmem
    have hcount := hserial.front_count f
    rw [unperformed_eq_zero hgranted (by rw [hw]; rfl)] at hcount
    exact List.count_eq_zero.mp hcount hmem
  have hrest : rest = [] := by
    have horder := hserial.order
    rw [hfront, hwriters] at horder
    exact List.map_eq_nil_iff.mp horder
  rw [hserial.accepted, hrest, List.append_nil]

variable [DecidableEq thread]

instance (s : State thread file) (a : Action thread) : Decidable (Smooth s a) :=
  inferInstanceAs (Decidable (Undisturbed s a ∧ RoomyEnqueue s a))

theorem locked_of_reachable
    {allowed : State thread file -> Action thread -> Prop}
    (h : Transition.Reachable (step fileOf) allowed State.init s) :
    Locked s := by
  refine Transition.reachable_invariant Locked locked_init ?_ h
  intro s a u hlocked _ hstep
  exact locked_of_move hlocked (move_of_step hstep)

variable [Fintype file]

theorem exists_granting_of_undisturbed (hfile : Function.Injective fileOf)
    (h : Transition.Reachable (step fileOf) Undisturbed State.init s) :
    exists r, Granting s r := by
  refine Transition.reachable_invariant_of (fun s => exists r, Granting s r)
    (fun _ => ticketed_and_batched_of_undisturbed hfile)
    ⟨GrantRecord.init, granting_init⟩ ?_ h
  intro s a u hknown hgranting _ hstep
  rcases hgranting with ⟨r, hr⟩
  exact ⟨r.after fileOf s a,
    granting_step hr (settledCount_of_batched hknown.right a) hstep⟩

theorem serial_of_undisturbed (hfile : Function.Injective fileOf)
    (h : Transition.Reachable (step fileOf) Undisturbed State.init s) :
    Serial fileOf s := by
  refine Transition.reachable_invariant_of (Serial fileOf)
    (fun _ => ticketed_and_batched_of_undisturbed hfile) serial_init ?_ h
  intro s a u hknown hserial hallowed hstep
  exact serial_step hfile hknown.left hknown.right hserial hallowed.left
    (move_of_step hstep)

structure Kept (fileOf : thread -> file) (s : State thread file) : Prop where
  locked : Locked s
  ticketed : Ticketed fileOf s
  matched : forall r f, held s r f = engaged fileOf s r f
  batched : Batched s
  exact : Exact s
  alive : s.worker ≠ .crashed
  serial : Serial fileOf s
  refined : Refined s

theorem kept_of_smooth (hfile : Function.Injective fileOf)
    (h : Transition.Reachable (step fileOf) Smooth State.init s) :
    Kept fileOf s := by
  have hundisturbed := Transition.reachable_mono (fun _ _ ha => ha.left) h
  have hroomy := Transition.reachable_mono (fun _ _ ha => ha.right) h
  rcases ticketed_and_batched_of_undisturbed hfile hundisturbed with
    ⟨hticketed, hbatched⟩
  rcases ticketed_and_matched_of_reachable hfile hroomy with ⟨_, hmatched⟩
  rcases exists_granting_of_undisturbed hfile hundisturbed with ⟨r, hgranting⟩
  exact {
    locked := locked_of_reachable h
    ticketed := hticketed
    matched := hmatched
    batched := hbatched
    exact := exact_of_undisturbed hfile hundisturbed
    alive := (grantsExact_of_granting hgranting).alive
    serial := serial_of_undisturbed hfile hundisturbed
    refined := refined_of_reachable h }

theorem atRest_of_kept (h : Kept fileOf s) (hstuck : Stuck fileOf s) :
    AtRest fileOf s := by
  have hunlocked := unlocked_of_stuck hstuck h.locked h.exact h.alive
  have hw := worker_of_stuck hstuck hunlocked h.ticketed h.exact
  have htokens := tokens_of_stuck hstuck hunlocked h.ticketed
  have hphase := h.batched.phase
  rw [hw] at hphase
  have hwriters : (s.g.queue .writer).items = [] := by
    have hstop : workerStep s true = none := hstuck (.worker true) trivial
    unfold workerStep at hstop
    rw [hw] at hstop
    rw [← KernelQueue.isQueueEmpty_iff]
    cases hempty : s.g.writerQ.ring.isQueueEmpty with
    | true => exact hempty
    | false => simp [hempty] at hstop
  have hdone : forall f, s.completion f = [] := by
    intro f
    rw [List.eq_nil_iff_forall_not_mem]
    intro role hmem
    have hcount := total_eq_zero_iff.mp (htokens role) f
    exact List.count_eq_zero.mp hcount hmem
  refine ⟨⟨hw, hwriters, ?_, ?_, ?_⟩, ?_, ?_⟩
  · intro t
    rcases hunlocked.clients t with huser | ⟨req, hwait⟩
    · exact Or.inl huser
    · -- its ticket can only be an entry of the queue of readers
      have hengaged : 0 < engaged fileOf s req.role (fileOf t) := by
        apply engaged_pos
        rw [hwait]
        simp [ClientPc.isEngaged]
      rw [← h.matched] at hengaged
      unfold held at hengaged
      rw [hdone, hw, List.count_nil] at hengaged
      have hstored : fileOf t ∈ (s.g.queue req.role).items := by
        apply List.count_pos_iff.mp
        simpa [inHand] using hengaged
      right
      cases req with
      | write op =>
          change fileOf t ∈ (s.g.queue .writer).items at hstored
          rw [hwriters] at hstored
          cases hstored
      | subscribe => exact ⟨hwait, hstored⟩
  · exact ⟨hunlocked.table, hunlocked.serialize, hunlocked.queue⟩
  · exact ⟨hphase.right.left, fun f => List.length_eq_zero_iff.mpr (hdone f)⟩
  · exact performed_eq_accepted h.serial hwriters hphase.left hw
  · rw [← performed_eq_accepted h.serial hwriters hphase.left hw]
    exact h.refined.cells

/-- A run cannot stop anywhere but at rest: a state in which no thread can go
on is one in which every writer has been served in its turn and only
subscribers wait, each of them still queued. -/
theorem atRest_of_stuck (hfile : Function.Injective fileOf)
    (h : Transition.Reachable (step fileOf) Smooth State.init s)
    (hstuck : Stuck fileOf s) : AtRest fileOf s := by
  exact atRest_of_kept (kept_of_smooth hfile h) hstuck

end Rest

theorem atRest_late_subscriber :
    exists s : State (Fin 4) (Fin 4),
      (s.pc 1 = .wait .subscribe ∧ s.performed.length = 1) ∧ AtRest id s := by
  have hrun : exists s : State (Fin 4) (Fin 4),
      Transition.Reachable (step id) Smooth State.init s ∧
        (decide ((s.pc 1 = .wait .subscribe ∧ s.performed.length = 1) ∧
          (forall t, (clientStep id s t).isNone = true) ∧
            forall allocOk, (workerStep s allocOk).isNone = true)) = true :=
    Transition.exists_reachable_of_schedule
      (callCreate 0 ++ workerRuns 5 ++ clientRuns 0 3 ++ workerRuns 6 ++
        callSubscribe 1) _
      (by decide +kernel)
  rcases hrun with ⟨s, hreach, htest⟩
  rcases of_decide_eq_true htest with ⟨hplaces, hstops⟩
  exact ⟨s, hplaces,
    atRest_of_stuck Function.injective_id hreach (stuck_iff.mpr hstops)⟩

end Ioctl
end RIBDriver
