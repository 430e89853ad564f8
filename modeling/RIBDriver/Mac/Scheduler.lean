import RIBDriver.Library.Refinement
import RIBDriver.Mac.Fops
import RIBDriver.Rt.Ioctl.Rest

/-!
# The scheduler of the MAC driver

The handler and the worker of the MAC driver look at their queues, completions,
counters and semaphores, and never at an entry.  So whatever both access paths
of the MAC driver do, its scheduler makes a run of the routing driver's.
-/

namespace RIBDriver

def MacGlobals.control {file : Type _} (g : MacGlobals file) :
    Control file where
  queue := g.queue
  sem := g.sem
  serialize := g.macSerializeReadersCsSem
  workerDone := g.workerDone
  nReadersToBeService := g.nReadersToBeService

namespace Mac

/-!
## Counterparts
-/

def blankEntry : RtEntry where
  dstIp := Vector.replicate 16 0
  nxtHopIp := Vector.replicate 16 0
  oif := Vector.replicate 16 0

def WriterOp.counterpart : WriterOp -> Ioctl.WriterOp
  | .update _ => .update { opCode := rtRouteAdd, entry := blankEntry }
  | .create _ => .create blankEntry
  | .purge => .purge

def Request.counterpart : Request -> Ioctl.Request
  | .write op => .write op.counterpart
  | .subscribe => .subscribe

def ClientPc.counterpart : ClientPc -> Ioctl.ClientPc
  | .user => .user
  | .clamp => .clamp
  | .lockQ req => .lockQ req.counterpart
  | .enq req => .enq req.counterpart
  | .unlockQ req => .unlockQ req.counterpart
  | .wait req => .wait req.counterpart
  | .lockTable op => .lockTable op.counterpart
  | .apply op => .apply op.counterpart
  | .unlockTable => .unlockTable
  | .handBack => .handBack
  | .copy => .copy
  | .downCs => .downCs
  | .test => .test
  | .cleanUp => .cleanUp
  | .signal => .signal
  | .decLoad last => .decLoad last
  | .decStore last loaded => .decStore last loaded
  | .upCs => .upCs

variable {client reader file : Type _}

def Action.counterpart? : Action client reader file ->
    Option (Ioctl.Action client)
  | .call t req => some (.call t req.counterpart)
  | .client t => some (.client t)
  | .interrupt t => some (.interrupt t)
  | .worker allocOk => some (.worker allocOk)
  | _ => none

structure Alike (i : Ioctl.State client file) (s : State client reader file) :
    Prop where
  control : i.g.control = s.g.control
  pc : forall t, i.pc t = (s.pc t).counterpart
  worker : i.worker = s.worker
  completion : forall f, (i.completion f).length = s.completion f

theorem role_counterpart (req : Request) : req.counterpart.role = req.role := by
  cases req <;> rfl

theorem firstPc_counterpart (req : Request) :
    (firstPc req).counterpart = Ioctl.firstPc req.counterpart := by
  cases req <;> rfl

theorem afterWait_counterpart (req : Request) :
    (afterWait req).counterpart = Ioctl.afterWait req.counterpart := by
  cases req with
  | write op => cases op <;> rfl
  | subscribe => rfl

theorem afterApply_counterpart (op : WriterOp) :
    (afterApply op).counterpart = Ioctl.afterApply op.counterpart := by
  cases op <;> rfl

theorem eq_user_of_counterpart {p : ClientPc} (h : p.counterpart = .user) :
    p = .user := by
  cases p <;> first | rfl | cases h

theorem eq_wait_of_counterpart {p : ClientPc}
    (h : p.counterpart = .wait .subscribe) : p = .wait .subscribe := by
  cases p with
  | wait req =>
      cases req with
      | subscribe => rfl
      | write op => cases h
  | _ => cases h

/-!
## What leaves the scheduler alone
-/

section Frames

variable (g : MacGlobals file)

theorem control_clamp : g.clampUpdateVectorCount.control = g.control := by
  unfold MacGlobals.clampUpdateVectorCount
  split <;> rfl

theorem control_refresh (allocOk : Bool) :
    (g.refreshUpdateVector allocOk).control = g.control := by
  unfold MacGlobals.refreshUpdateVector
  split <;> rfl

theorem control_rtClamp (g : Globals file) :
    g.clampUpdateVectorCount.control = g.control := by
  unfold Globals.clampUpdateVectorCount
  split <;> rfl

theorem control_rtRefresh (g : Globals file) (allocOk : Bool) :
    (g.refreshUpdateVector allocOk).control = g.control := by
  unfold Globals.refreshUpdateVector
  split <;> rfl

theorem control_macReadEntry (allocOk : Bool) :
    (g.macReadEntry allocOk).control = g.control := by
  unfold MacGlobals.macReadEntry
  dsimp only
  split
  · rw [control_clamp, control_refresh]
    rfl
  · rfl

variable [DecidableEq file]

theorem control_macPoll (f : file) (nonblock interrupted : Bool) :
    (g.macPoll f nonblock interrupted).1.control = g.control := by
  unfold MacGlobals.macPoll
  dsimp only
  split_ifs <;> rfl

theorem control_macReadExit (f : file) :
    (g.macReadExit f).control = g.control := by
  unfold MacGlobals.macReadExit
  dsimp only
  split <;> rfl

end Frames

/-!
## One step of the scheduler
-/

section Steps

variable {fileOf : client -> file}
variable {i : Ioctl.State client file} {s : State client reader file}
variable {b : Action client reader file} {v : State client reader file}

def Together (s : State client reader file)
    (r : State client reader file × Outcome MacUserRecord)
    (j : Ioctl.State client file) : Prop :=
  Alike j r.1 ∧ r.1.privateData = s.privateData

theorem alike_goto [DecidableEq client]
    (h : Alike i s) (t : client) {p : ClientPc}
    {q : Ioctl.ClientPc} (hp : q = p.counterpart) :
    Alike (i.goto t q) (s.goto t p) where
  control := h.control
  pc := by
    intro u
    show Function.update i.pc t q u = (Function.update s.pc t p u).counterpart
    rcases eq_or_ne u t with hu | hu
    · rw [hu, Function.update_self, Function.update_self, hp]
    · rw [Function.update_of_ne hu, Function.update_of_ne hu, h.pc]
  worker := h.worker
  completion := h.completion

theorem alike_setG (h : Alike i s) {g : Globals file} {g' : MacGlobals file}
    (hg : g.control = g'.control) :
    Alike { i with g := g } (s.setG g') :=
  { h with control := hg }

theorem queueSem_eq (h : Alike i s) (role : Role) :
    i.queueSem role = s.g.queueSem role := by
  have hqueue : i.g.queue = s.g.queue := congrArg Control.queue h.control
  show (i.g.queue role).ring.sem = (s.g.queue role).ring.sem
  rw [hqueue]

theorem control_setQueue (h : Alike i s) (role : Role)
    (change : KernelQueue file -> KernelQueue file) :
    (i.g.setQueue role (change (i.g.queue role))).control =
      (s.g.setQueue role (change (s.g.queue role))).control :=
  congrArg (fun c : Control file => { c with
    queue := Function.update c.queue role (change (c.queue role)) }) h.control

theorem alike_upQueue (h : Alike i s) (role : Role) :
    Alike (i.upQueue role) (s.setG (s.g.upQueue role)) := by
  unfold Ioctl.State.upQueue
  rw [queueSem_eq h]
  exact alike_setG h
    (control_setQueue h role fun q => q.setSem (s.g.queueSem role + 1))

theorem rel_downQueue {out out' : Type _} {rel : out -> out' -> Prop}
    (h : Alike i s) (role : Role) {f : MacGlobals file -> out}
    {f' : Ioctl.State client file -> out'}
    (hf : forall g u, Alike u (s.setG g) -> rel (f g) (f' u)) :
    Option.Rel rel ((s.g.downQueue role).map f)
      ((i.downQueue role).map f') := by
  unfold MacGlobals.downQueue Ioctl.State.downQueue
  rw [queueSem_eq h]
  split
  · exact Option.Rel.none
  · exact Option.Rel.some (hf _ _ (alike_setG h
      (control_setQueue h role fun q => q.setSem (s.g.queueSem role - 1))))

theorem rel_interruptStep [DecidableEq client] (h : Alike i s) (t : client) :
    Option.Rel (Together s) (interruptStep s t) (Ioctl.interruptStep i t) := by
  have hpc := h.pc t
  unfold interruptStep Ioctl.interruptStep
  rw [hpc]
  cases s.pc t with
  | lockQ req => exact Option.Rel.some ⟨alike_goto h t rfl, rfl⟩
  | lockTable op => exact Option.Rel.some ⟨alike_goto h t rfl, rfl⟩
  | downCs => exact Option.Rel.some ⟨alike_goto h t rfl, rfl⟩
  | _ => exact Option.Rel.none

theorem alike_setWorker (h : Alike i s) (p : Ioctl.WorkerPc file) :
    Alike { i with worker := p } (s.setWorker p) :=
  ⟨h.control, h.pc, rfl, h.completion⟩

variable [DecidableEq file]

theorem length_update (h : Alike i s) {f : file} (issued : List Role)
    (f' : file) :
    (Function.update i.completion f issued f').length =
      Function.update s.completion f issued.length f' := by
  rcases eq_or_ne f' f with hf | hf
  · rw [hf, Function.update_self, Function.update_self]
  · rw [Function.update_of_ne hf, Function.update_of_ne hf, h.completion]

theorem alike_complete (h : Alike i s) (f : file) (role : Role) :
    Alike (i.complete f role) (s.complete f) where
  control := h.control
  pc := h.pc
  worker := h.worker
  completion := by
    have hlength := length_update h (f := f) (i.completion f ++ [role])
    rw [List.length_append, h.completion] at hlength
    exact hlength

theorem rel_workerStep (h : Alike i s) (allocOk : Bool) :
    Option.Rel (fun v j => Alike j v ∧ v.privateData = s.privateData)
      (workerStep s allocOk) (Ioctl.workerStep i allocOk) := by
  have hworker := h.worker
  have hqueue : i.g.queue = s.g.queue := congrArg Control.queue h.control
  have hreaders : i.g.nReadersToBeService = s.g.nReadersToBeService :=
    congrArg Control.nReadersToBeService h.control
  have hdone : i.g.workerDone = s.g.workerDone :=
    congrArg Control.workerDone h.control
  unfold workerStep Ioctl.workerStep
  rw [hworker]
  cases s.worker with
  | waitWriter =>
      show Option.Rel _
        (if (s.g.queue .writer).ring.isQueueEmpty then none else some _)
        (if (i.g.queue .writer).ring.isQueueEmpty then none else some _)
      rw [hqueue]
      split
      · exact Option.Rel.none
      · exact Option.Rel.some ⟨alike_setWorker h _, rfl⟩
  | lockWriterQ =>
      exact rel_downQueue h .writer fun g u hu => ⟨alike_setWorker hu _, rfl⟩
  | dequeWriter =>
      refine Option.Rel.some ⟨?_, rfl⟩
      exact {
        control := control_setQueue h .writer KernelQueue.deque
        pc := h.pc
        worker := by rw [hqueue]; rfl
        completion := h.completion }
  | unlockWriterQ f =>
      exact Option.Rel.some
        ⟨alike_setWorker (alike_upQueue h .writer) _, rfl⟩
  | completeWriter f =>
      exact Option.Rel.some
        ⟨alike_setWorker (alike_complete h f .writer) _, rfl⟩
  | waitWriterDone | waitReadersDone =>
      exact Refinement.rel_ite hdone ⟨alike_setWorker (alike_setG h (congrArg
        (fun c : Control file => { c with workerDone := c.workerDone - 1 })
          h.control)) _, rfl⟩
  | lockReaderQ =>
      exact rel_downQueue h .reader fun g u hu => ⟨alike_setWorker hu _, rfl⟩
  | countReaders =>
      exact Option.Rel.some ⟨alike_setWorker (alike_setG h (congrArg
        (fun c : Control file => { c with
          nReadersToBeService := (c.queue .reader).ring.count }) h.control)) _,
            rfl⟩
  | unlockReaderQ =>
      exact Option.Rel.some
        ⟨alike_setWorker (alike_upQueue h .reader) _, rfl⟩
  | testReaders | loadReaders =>
      dsimp only
      rw [hreaders]
      exact Option.Rel.some ⟨alike_setWorker h _, rfl⟩
  | emptyChangeList =>
      exact Option.Rel.some ⟨⟨h.control, h.pc, rfl, h.completion⟩, rfl⟩
  | snapshot =>
      have hrefresh : (i.g.refreshUpdateVector allocOk).control =
          (s.g.refreshUpdateVector allocOk).control := by
        rw [control_rtRefresh, control_refresh, h.control]
      exact Option.Rel.some
        ⟨alike_setWorker (alike_setG h hrefresh) _, rfl⟩
  | lockGrant k n =>
      exact rel_downQueue h .reader fun g u hu => ⟨alike_setWorker hu _, rfl⟩
  | dequeGrant k n =>
      refine Option.Rel.some ⟨?_, rfl⟩
      exact {
        control := control_setQueue h .reader KernelQueue.deque
        pc := h.pc
        worker := by rw [hqueue]; rfl
        completion := h.completion }
  | unlockGrant k n f =>
      exact Option.Rel.some
        ⟨alike_setWorker (alike_upQueue h .reader) _, rfl⟩
  | completeGrant k n f =>
      exact Option.Rel.some
        ⟨alike_setWorker (alike_complete h f .reader) _, rfl⟩
  | crashed => exact Option.Rel.none

variable [DecidableEq client]

theorem rel_clientStep (h : Alike i s) (t : client) :
    Option.Rel (Together s) (clientStep fileOf s t)
      (Ioctl.clientStep fileOf i t) := by
  have hpc := h.pc t
  have hreaders : i.g.nReadersToBeService = s.g.nReadersToBeService :=
    congrArg Control.nReadersToBeService h.control
  unfold clientStep Ioctl.clientStep
  rw [hpc]
  cases s.pc t with
  | user => exact Option.Rel.none
  | clamp =>
      have hclamp : i.g.clampUpdateVectorCount.control =
          s.g.clampUpdateVectorCount.control := by
        rw [control_rtClamp, control_clamp, h.control]
      exact Option.Rel.some ⟨alike_goto (alike_setG h hclamp) t rfl, rfl⟩
  | lockQ req =>
      dsimp only [ClientPc.counterpart]
      rw [role_counterpart]
      exact rel_downQueue h req.role fun g u hu => ⟨alike_goto hu t rfl, rfl⟩
  | enq req =>
      have henq : Alike (Ioctl.enqueueClient fileOf i t req.counterpart)
          (s.setG (s.g.setQueue req.role
            ((s.g.queue req.role).enqueue (fileOf t)))) := by
        rw [← role_counterpart]
        exact { h with
          control := control_setQueue h req.counterpart.role fun q =>
            q.enqueue (fileOf t) }
      exact Option.Rel.some ⟨alike_goto henq t rfl, rfl⟩
  | unlockQ req =>
      dsimp only [ClientPc.counterpart]
      rw [role_counterpart]
      exact Option.Rel.some
        ⟨alike_goto (alike_upQueue h req.role) t rfl, rfl⟩
  | wait req =>
      have hlength := h.completion (fileOf t)
      dsimp only [ClientPc.counterpart]
      cases hdone : i.completion (fileOf t) with
      | nil =>
          rw [hdone, List.length_nil] at hlength
          rw [if_pos hlength.symm]
          exact Option.Rel.none
      | cons issued rest =>
          rw [hdone, List.length_cons] at hlength
          rw [if_neg (by lia)]
          refine Option.Rel.some
            ⟨alike_goto ?_ t (afterWait_counterpart req).symm, rfl⟩
          rw [← hlength]
          exact { h with completion := length_update h rest }
  | lockTable op =>
      exact Refinement.rel_ite (congrArg Control.sem h.control)
        ⟨alike_goto (alike_setG h (congrArg (fun c : Control file =>
          { c with sem := c.sem - 1 }) h.control)) t rfl, rfl⟩
  | apply op =>
      refine Option.Rel.some
        ⟨alike_goto ?_ t (afterApply_counterpart op).symm, rfl⟩
      exact ⟨h.control, h.pc, h.worker, h.completion⟩
  | unlockTable =>
      exact Option.Rel.some ⟨alike_goto (alike_setG h (congrArg
        (fun c : Control file => { c with sem := c.sem + 1 }) h.control)) t rfl,
          rfl⟩
  | handBack =>
      exact Option.Rel.some ⟨alike_goto (alike_setG h (congrArg
        (fun c : Control file => { c with workerDone := c.workerDone + 1 })
          h.control)) t rfl, rfl⟩
  | copy =>
      refine Option.Rel.some ⟨alike_goto ?_ t rfl, rfl⟩
      exact ⟨h.control, h.pc, h.worker, h.completion⟩
  | downCs =>
      exact Refinement.rel_ite (congrArg Control.serialize h.control)
        ⟨alike_goto (alike_setG h (congrArg (fun c : Control file =>
          { c with serialize := c.serialize - 1 }) h.control)) t rfl, rfl⟩
  | test =>
      dsimp only [ClientPc.counterpart]
      rw [hreaders]
      refine Option.Rel.some ⟨alike_goto h t ?_, rfl⟩
      split <;> rfl
  | cleanUp =>
      refine Option.Rel.some ⟨alike_goto ?_ t rfl, rfl⟩
      exact ⟨h.control, h.pc, h.worker, h.completion⟩
  | signal =>
      exact Option.Rel.some ⟨alike_goto (alike_setG h (congrArg
        (fun c : Control file => { c with workerDone := c.workerDone + 1 })
          h.control)) t rfl, rfl⟩
  | decLoad last =>
      have hloaded := congrArg (Ioctl.ClientPc.decStore last) hreaders
      exact Option.Rel.some ⟨alike_goto h t hloaded, rfl⟩
  | decStore last loaded =>
      exact Option.Rel.some ⟨alike_goto (alike_setG h (congrArg
        (fun c : Control file => { c with
          nReadersToBeService := Globals.decrement32 loaded }) h.control)) t rfl,
          rfl⟩
  | upCs =>
      exact Option.Rel.some ⟨alike_goto (alike_setG h (congrArg
        (fun c : Control file => { c with serialize := c.serialize + 1 })
          h.control)) t rfl, rfl⟩

end Steps

/-!
## One step of the driver
-/

section Driver

variable {fileOf : client -> file}
variable {i : Ioctl.State client file} {s : State client reader file}
variable {b : Action client reader file} {v : State client reader file}

/-- No wait of the handler is interrupted, and the worker counts the readers
while none of them is about to decrement the counter. -/
def Undisturbed (s : State client reader file) :
    Action client reader file -> Prop
  | .interrupt _ => False
  | .worker _ => s.worker = .countReaders ->
      forall t, (s.pc t).counterpart.isStale = false
  | _ => True

/-- Beside the scheduler: who has not opened its file makes no call. -/
structure Follows (fileOf : client -> file) (i : Ioctl.State client file)
    (s : State client reader file) : Prop where
  alike : Alike i s
  opened : forall t, s.privateData (fileOf t) = false -> s.pc t = .user

theorem Alike.pc_eq_user_iff (h : Alike i s) (t : client) :
    i.pc t = .user <-> s.pc t = .user := by
  rw [h.pc]
  constructor
  · exact eq_user_of_counterpart
  · intro hpc
    rw [hpc]
    rfl

theorem undisturbed_counterpart (h : Alike i s) (hallowed : Undisturbed s b)
    {a : Ioctl.Action client} (hpath : b.counterpart? = some a) :
    Ioctl.Undisturbed i a := by
  cases b with
  | call t req =>
      cases hpath
      exact ⟨rfl, fun hworker => by cases hworker⟩
  | client t =>
      cases hpath
      exact ⟨rfl, fun hworker => by cases hworker⟩
  | interrupt t => cases hallowed
  | worker allocOk =>
      cases hpath
      refine ⟨rfl, fun _ hcounts t => ?_⟩
      rw [h.pc]
      exact hallowed (h.worker.symm.trans hcounts) t
  | _ => cases hpath

theorem completion_eq_nil [DecidableEq file] [Fintype client]
    (hticketed : Ioctl.Ticketed fileOf i) {f : file}
    (huser : forall t, fileOf t = f -> i.pc t = .user) :
    i.completion f = [] := by
  rw [List.eq_nil_iff_forall_not_mem]
  intro r hmem
  have hnone : Ioctl.engaged fileOf i r f = 0 := by
    rw [Ioctl.engaged_eq_zero_iff]
    intro t ht
    rw [huser t ht]
    rfl
  have hcovered := hticketed.covered r f
  have hcount := List.count_pos_iff.mpr hmem
  unfold Ioctl.held at hcovered
  lia

variable [DecidableEq client] [DecidableEq file]

theorem follows_step {a : Ioctl.Action client} {j : Ioctl.State client file}
    (h : Follows fileOf i s) (hstep : Ioctl.step fileOf i a = some j)
    (halike : Alike j v) (hsame : v.privateData = s.privateData)
    (hcall : forall t req, a = .call t req ->
      s.privateData (fileOf t) = true) : Follows fileOf j v where
  alike := halike
  opened := by
    intro t hclosed
    rw [hsame] at hclosed
    have huser := (h.alike.pc_eq_user_iff t).mpr (h.opened t hclosed)
    rw [← halike.pc_eq_user_iff]
    cases a with
    | call t' req =>
        have hopen := hcall t' req rfl
        have hne : t ≠ t' := by
          intro hself
          rw [hself, hopen] at hclosed
          cases hclosed
        cases Ioctl.move_of_step hstep with
        | call hpc =>
            exact (Function.update_of_ne hne _ _).trans huser
    | _ =>
        exact Ioctl.eq_user_of_move (Ioctl.move_of_step hstep)
          (fun _ _ hself => by cases hself) huser

variable [DecidableEq reader]

def next (fileOf : client -> file) (s : State client reader file)
    (b : Action client reader file) : Option (State client reader file) :=
  (step fileOf s b).map Prod.fst

theorem alike_of_unscheduled (h : Alike i s) (hnext : next fileOf s b = some v)
    (hpath : b.counterpart? = none) (hopen : forall f, b ≠ .openFile f) :
    Alike i v ∧ v.privateData = s.privateData ∧ v.pc = s.pc := by
  rcases Option.map_eq_some_iff.mp hnext with ⟨⟨u, out⟩, hstep, hu⟩
  cases hu
  cases b with
  | openFile f => exact absurd rfl (hopen f)
  | call t req | client t | interrupt t | worker allocOk => cases hpath
  | poll f nonblock interrupted =>
      simp only [step] at hstep
      split at hstep
      · cases hstep
      · cases hstep
        exact ⟨alike_setG h (h.control.trans (control_macPoll _ _ _ _).symm),
          rfl, rfl⟩
  | pollInterrupted | inaccessible =>
      cases hstep
      exact ⟨h, rfl, rfl⟩
  | readEntry t f allocOk interrupted =>
      simp only [step, readEntryStep] at hstep
      split_ifs at hstep
      · cases hstep
        exact ⟨alike_setG h h.control, rfl, rfl⟩
      · cases hstep
        refine ⟨⟨?_, h.pc, h.worker, h.completion⟩, rfl, rfl⟩
        exact h.control.trans (control_macReadEntry _ _).symm
  | readCopy t =>
      simp only [step, readCopyStep] at hstep
      split at hstep
      · cases hstep
        exact ⟨⟨h.control, h.pc, h.worker, h.completion⟩, rfl, rfl⟩
      · cases hstep
  | readExit t interrupted =>
      simp only [step, readExitStep] at hstep
      split at hstep
      · split at hstep
        · cases hstep
          exact ⟨⟨h.control, h.pc, h.worker, h.completion⟩, rfl, rfl⟩
        · split at hstep
          · cases hstep
          · cases hstep
            refine ⟨⟨?_, h.pc, h.worker, h.completion⟩, rfl, rfl⟩
            exact h.control.trans (control_macReadExit _ _).symm
      · cases hstep
  | write kmsg =>
      simp only [step] at hstep
      split at hstep
      · cases hstep
      · cases hstep
        exact ⟨alike_setG h h.control, rfl, rfl⟩
  | infoCall t =>
      simp only [step, infoCallStep] at hstep
      split at hstep
      · cases hstep
        exact ⟨⟨h.control, h.pc, h.worker, h.completion⟩, rfl, rfl⟩
      · cases hstep
  | infoRead t =>
      simp only [step, infoReadStep] at hstep
      split at hstep
      · cases hstep
      · split at hstep
        · cases hstep
        · cases hstep
          exact ⟨⟨h.control, h.pc, h.worker, h.completion⟩, rfl, rfl⟩

theorem exists_step_of_scheduled (h : Alike i s)
    (hnext : next fileOf s b = some v) {a : Ioctl.Action client}
    (hpath : b.counterpart? = some a) :
    exists j, Ioctl.step fileOf i a = some j ∧ Alike j v ∧
      v.privateData = s.privateData ∧
        forall t req, a = .call t req -> s.privateData (fileOf t) = true := by
  rcases Option.map_eq_some_iff.mp hnext with ⟨⟨u, out⟩, hstep, hu⟩
  cases hu
  cases b with
  | call t req =>
      cases hpath
      simp only [step, callStep] at hstep
      split at hstep
      · rename_i hguard
        cases hstep
        simp only [Bool.and_eq_true, beq_iff_eq] at hguard
        rcases hguard with ⟨⟨hopen, _⟩, huser⟩
        refine ⟨i.goto t (Ioctl.firstPc req.counterpart), ?_,
          alike_goto h t (firstPc_counterpart req).symm, rfl, ?_⟩
        · show Ioctl.callStep i t _ = _
          unfold Ioctl.callStep
          rw [(h.pc_eq_user_iff t).mpr huser]
        · intro t' req' hcall
          cases hcall
          exact hopen
      · cases hstep
  | client t =>
      cases hpath
      rcases Refinement.exists_of_rel (rel_clientStep h t) hstep with
        ⟨j, hj, halike, hsame⟩
      exact ⟨j, hj, halike, hsame, fun t' req hcall => by cases hcall⟩
  | interrupt t =>
      cases hpath
      rcases Refinement.exists_of_rel (rel_interruptStep h t) hstep with
        ⟨j, hj, halike, hsame⟩
      exact ⟨j, hj, halike, hsame, fun t' req hcall => by cases hcall⟩
  | worker allocOk =>
      cases hpath
      rcases Option.map_eq_some_iff.mp hstep with ⟨w, hw, hpair⟩
      cases hpair
      rcases Refinement.exists_of_rel (rel_workerStep h allocOk) hw with
        ⟨j, hj, halike, hsame⟩
      exact ⟨j, hj, halike, hsame, fun t' req hcall => by cases hcall⟩
  | _ => cases hpath

variable [Fintype client]

theorem follows_open (hticketed : Ioctl.Ticketed fileOf i)
    (h : Follows fileOf i s) {f : file}
    (hnext : next fileOf s (.openFile f) = some v) : Follows fileOf i v := by
  rcases Option.map_eq_some_iff.mp hnext with ⟨⟨u, out⟩, hstep, hu⟩
  cases hu
  simp only [step, openStep] at hstep
  split at hstep
  · cases hstep
  · rename_i hclosed
    cases hstep
    have huser : forall t, fileOf t = f -> i.pc t = .user := by
      intro t ht
      rw [← ht] at hclosed
      exact (h.alike.pc_eq_user_iff t).mpr
        (h.opened t (Bool.eq_false_of_not_eq_true hclosed))
    refine ⟨⟨h.alike.control, h.alike.pc, h.alike.worker, ?_⟩, ?_⟩
    · intro f'
      show _ = Function.update s.completion f 0 f'
      rcases eq_or_ne f' f with hf | hf
      · rw [hf, Function.update_self, completion_eq_nil hticketed huser]
        rfl
      · rw [Function.update_of_ne hf]
        exact h.alike.completion f'
    · intro t hstill
      change Function.update s.privateData f true (fileOf t) = false at hstill
      rcases eq_or_ne (fileOf t) f with ht | ht
      · rw [ht, Function.update_self] at hstill
        cases hstill
      · rw [Function.update_of_ne ht] at hstill
        exact h.opened t hstill

variable [Fintype file]

/-- The scheduler of the MAC driver makes a run of the routing driver's
scheduler, whatever goes on beside it. -/
theorem exists_follows (hfile : Function.Injective fileOf)
    (h : Transition.Reachable (next fileOf) Undisturbed State.init s) :
    exists i : Ioctl.State client file,
      Transition.Reachable (Ioctl.step fileOf) Ioctl.Undisturbed
        Ioctl.State.init i ∧ Follows fileOf i s := by
  induction h with
  | start =>
      exact ⟨_, Transition.Reachable.start,
        ⟨rfl, fun _ => rfl, rfl, fun _ => rfl⟩, fun _ _ => rfl⟩
  | @step s v b _ hallowed hnext ih =>
      rcases ih with ⟨i, hreach, hfollows⟩
      cases hpath : b.counterpart? with
      | some a =>
          rcases exists_step_of_scheduled hfollows.alike hnext hpath with
            ⟨j, hj, halike, hsame, hcall⟩
          exact ⟨j, Transition.Reachable.step hreach
              (undisturbed_counterpart hfollows.alike hallowed hpath) hj,
            follows_step hfollows hj halike hsame hcall⟩
      | none =>
          refine ⟨i, hreach, ?_⟩
          have hticketed :=
            (Ioctl.ticketed_and_batched_of_undisturbed hfile hreach).left
          by_cases hopen : exists f, b = .openFile f
          · rcases hopen with ⟨f, hf⟩
            rw [hf] at hnext
            exact follows_open hticketed hfollows hnext
          · have hquiet := alike_of_unscheduled hfollows.alike hnext hpath
              fun f hf => hopen ⟨f, hf⟩
            rcases hquiet with ⟨halike, hsame, hpcs⟩
            refine ⟨halike, fun t hclosed => ?_⟩
            rw [hsame] at hclosed
            rw [hpcs]
            exact hfollows.opened t hclosed

end Driver

/-!
## Rest
-/

section Rest

variable {fileOf : client -> file}
variable {i j : Ioctl.State client file} {s v : State client reader file}
variable {b : Action client reader file}

def AtRest (fileOf : client -> file) (s : State client reader file) : Prop :=
  Ioctl.ControlRests fileOf s.g.control s.worker s.completion
    (fun t => s.pc t = .user) (fun t => s.pc t = .wait .subscribe)

theorem atRest_of_alike (h : Alike i s) (hrest : Ioctl.AtRest fileOf i) :
    AtRest fileOf s := by
  have hcompletion : (fun f => (i.completion f).length) = s.completion :=
    funext h.completion
  have hcontrol : Ioctl.ControlRests fileOf s.g.control s.worker s.completion
      (fun t => i.pc t = .user) (fun t => i.pc t = .wait .subscribe) := by
    rw [← h.control, ← h.worker, ← hcompletion]
    exact hrest.control
  refine hcontrol.mono (fun t huser => (h.pc_eq_user_iff t).mp huser) ?_
  intro t hwait
  rw [h.pc] at hwait
  exact eq_wait_of_counterpart hwait

variable [DecidableEq file] [DecidableEq client]

def Halted (fileOf : client -> file) (s : State client reader file) : Prop :=
  (forall t, clientStep fileOf s t = none) ∧
    forall allocOk, workerStep s allocOk = none

theorem stuck_of_halted (h : Alike i s) (hhalted : Halted fileOf s) :
    Ioctl.Stuck fileOf i := by
  intro a hprogress
  cases a with
  | client t =>
      exact Refinement.eq_none_of_rel (rel_clientStep h t) (hhalted.left t)
  | worker allocOk =>
      exact Refinement.eq_none_of_rel (rel_workerStep h allocOk)
        (hhalted.right allocOk)
  | _ => cases hprogress

end Rest

/-!
## The work of the scheduler
-/

section Work

variable {fileOf : client -> file}
variable {i j : Ioctl.State client file} {s v : State client reader file}
variable {b : Action client reader file}

def State.counterpart (s : State client reader file) :
    Ioctl.State client file where
  g := { (Globals.init : Globals file) with
    queue := s.g.queue
    sem := s.g.sem
    rtSerializeReadersCsSem := s.g.macSerializeReadersCsSem
    workerDone := s.g.workerDone
    nReadersToBeService := s.g.nReadersToBeService }
  pc := fun t => (s.pc t).counterpart
  worker := s.worker
  completion := fun f => List.replicate (s.completion f) .writer
  accepted := []
  performed := []
  wakes := []
  served := []

theorem alike_counterpart (s : State client reader file) :
    Alike s.counterpart s where
  control := rfl
  pc := fun _ => rfl
  worker := rfl
  completion := fun _ => List.length_replicate

theorem work_eq_of_alike [Fintype client] (hi : Alike i s) (hj : Alike j s) :
    Ioctl.work i = Ioctl.work j := by
  have hpcs : i.pc = j.pc := by
    funext t
    rw [hi.pc, hj.pc]
  have hqueue : i.g.queue = j.g.queue :=
    congrArg Control.queue (hi.control.trans hj.control.symm)
  unfold Ioctl.work Ioctl.queueWork
  rw [Ioctl.clientWork_eq_of_pc hpcs, hqueue, hi.worker, hj.worker]

/-- What a step may add to the work: a call of the handler its cost, and a step
of the other path itself. -/
def Action.credit (b : Action client reader file) : Nat :=
  match b.counterpart? with
  | some a => a.credit
  | none => 1

def Action.isCall : Action client reader file -> Bool
  | .call _ _ => true
  | _ => false

def Action.isProgress : Action client reader file -> Bool
  | .client _ => true
  | .worker _ => true
  | _ => false

theorem countP_add_credits_le {actions : List (Action client reader file)}
    (h : forall b, b ∈ actions -> b.isCall = false) :
    actions.countP Action.isProgress + (actions.map Action.credit).sum ≤
      actions.length := by
  induction actions with
  | nil => exact Nat.le_refl _
  | cons b rest ih =>
      have hrest := ih fun c hc => h c (List.mem_cons_of_mem b hc)
      have hcall := h b (by simp)
      have hone : b.isProgress.toNat + b.credit ≤ 1 := by
        cases b with
        | call t req => cases hcall
        | _ => exact Nat.le_of_ble_eq_true rfl
      rw [List.countP_cons, List.map_cons, List.sum_cons, List.length_cons]
      cases hprogress : b.isProgress with
      | true =>
          rw [hprogress] at hone
          simp only [Bool.toNat_true] at hone
          simp only [if_true]
          lia
      | false =>
          rw [hprogress] at hone
          simp only [Bool.toNat_false] at hone
          simp only [Bool.false_eq_true, if_false]
          lia

variable [DecidableEq file] [DecidableEq client]

def Continuing (s : State client reader file)
    (b : Action client reader file) : Prop :=
  b.isProgress = true ∧ Undisturbed s b

theorem halted_of_stopped [DecidableEq reader]
    (h : forall b, Continuing s b -> next fileOf s b = none) :
    Halted fileOf s := by
  have hclient : forall t, clientStep fileOf s t = none := by
    intro t
    exact Option.map_eq_none_iff.mp (h (.client t) ⟨rfl, trivial⟩)
  refine ⟨hclient, fun allocOk => ?_⟩
  have hnone : next fileOf s (.worker allocOk) = none := by
    refine h (.worker allocOk) ⟨rfl, fun _ t => ?_⟩
    have hstop := Refinement.eq_none_of_rel
      (rel_clientStep (alike_counterpart s) t) (hclient t)
    have hblocks := Ioctl.blocks_of_clientStep hstop
    change (s.pc t).counterpart.blocks = true at hblocks
    cases hpc : (s.pc t).counterpart <;> rw [hpc] at hblocks <;>
      first | rfl | cases hblocks
  have hstep : (workerStep s allocOk).map (·, Outcome.continues) = none :=
    Option.map_eq_none_iff.mp hnone
  exact Option.map_eq_none_iff.mp hstep

variable [Fintype client]

instance (s : State client reader file) (b : Action client reader file) :
    Decidable (Undisturbed s b) :=
  match b with
  | .interrupt _ => inferInstanceAs (Decidable False)
  | .worker _ =>
      inferInstanceAs (Decidable (s.worker = .countReaders ->
        forall t, (s.pc t).counterpart.isStale = false))
  | .openFile _ | .call _ _ | .client _ | .poll _ _ _ | .pollInterrupted
  | .readEntry _ _ _ _ | .readCopy _ | .readExit _ _ | .write _ | .inaccessible
  | .infoCall _ | .infoRead _ => inferInstanceAs (Decidable True)

variable [DecidableEq reader]

theorem work_next (hnext : next fileOf s b = some v) :
    Ioctl.work v.counterpart + 1 ≤ Ioctl.work s.counterpart + b.credit := by
  unfold Action.credit
  cases hpath : b.counterpart? with
  | some a =>
      rcases exists_step_of_scheduled (alike_counterpart s) hnext hpath with
        ⟨j, hj, halike, _⟩
      rw [work_eq_of_alike (alike_counterpart v) halike]
      exact Ioctl.work_step hj
  | none =>
      by_cases hopen : exists f, b = .openFile f
      · rcases hopen with ⟨f, hf⟩
        rw [hf] at hnext
        rcases Option.map_eq_some_iff.mp hnext with ⟨⟨u, out⟩, hstep, hu⟩
        cases hu
        simp only [step, openStep] at hstep
        split at hstep
        · cases hstep
        · cases hstep
          exact Nat.le_refl _
      · have hquiet := alike_of_unscheduled (alike_counterpart s) hnext hpath
          fun f hf => hopen ⟨f, hf⟩
        rw [work_eq_of_alike (alike_counterpart v) hquiet.left]

theorem countP_progress_le {actions : List (Action client reader file)}
    (hcalls : forall b, b ∈ actions -> b.isCall = false)
    (hrun : Transition.run (next fileOf) s actions = some v) :
    actions.countP Action.isProgress ≤ 24 * Fintype.card client + 1016 := by
  have hbound := Transition.length_add_potential_le
    (fun s b v => work_next (s := s) (b := b) (v := v)) hrun
  have hcredits := countP_add_credits_le hcalls
  have hwork := Ioctl.work_le s.counterpart
  lia

variable [Fintype file]

theorem atRest_of_halted (hfile : Function.Injective fileOf)
    (hfew : Fintype.card client ≤ qDefaultSize)
    (h : Transition.Reachable (next fileOf) Undisturbed State.init s)
    (hhalted : Halted fileOf s) : AtRest fileOf s := by
  rcases exists_follows hfile h with ⟨i, hi, hfollows⟩
  have hkept := Ioctl.kept_of_smooth hfile
    (Ioctl.smooth_of_undisturbed hfile hfew hi)
  exact atRest_of_alike hfollows.alike
    (Ioctl.atRest_of_kept hkept (stuck_of_halted hfollows.alike hhalted))

theorem exists_continuation (hfile : Function.Injective fileOf)
    (hfew : Fintype.card client ≤ qDefaultSize)
    (h : Transition.Reachable (next fileOf) Undisturbed State.init s) :
    exists u, Transition.Reachable (next fileOf) Continuing s u ∧
      AtRest fileOf u := by
  have hless : forall (s : State client reader file) b v, Continuing s b ->
      next fileOf s b = some v ->
        Ioctl.work v.counterpart < Ioctl.work s.counterpart := by
    intro s b v hallowed hnext
    have hwork := work_next hnext
    cases b with
    | client t => exact hwork
    | worker allocOk => exact hwork
    | _ => cases hallowed.left
  rcases Transition.exists_stopped hless s with ⟨u, hreach, hstopped⟩
  have hundisturbed := Transition.reachable_trans h
    (Transition.reachable_mono (fun _ _ ha => ha.right) hreach)
  exact ⟨u, hreach,
    atRest_of_halted hfile hfew hundisturbed (halted_of_stopped hstopped)⟩

/-- In every undisturbed run of the MAC driver, with both access paths in use
and an open file of its own for each of no more clients than a queue has slots:
the scheduler can stop only at rest, it takes a bounded number of steps without
a further call, whatever goes on beside it, and it can always come to rest. -/
theorem comes_to_rest (hfile : Function.Injective fileOf)
    (hfew : Fintype.card client ≤ qDefaultSize)
    (h : Transition.Reachable (next fileOf) Undisturbed State.init s) :
    (Halted fileOf s -> AtRest fileOf s) ∧
      (forall actions u, (forall b, b ∈ actions -> b.isCall = false) ->
        Transition.run (next fileOf) s actions = some u ->
          actions.countP Action.isProgress ≤
            24 * Fintype.card client + 1016) ∧
      exists u, Transition.Reachable (next fileOf) Continuing s u ∧
        AtRest fileOf u :=
  ⟨atRest_of_halted hfile hfew h, fun _ _ => countP_progress_le,
    exists_continuation hfile hfew h⟩

end Work

theorem comes_to_rest_while_read :
    exists s : State (Fin 2) (Fin 1) (Fin 2),
      s.pc 0 = .wait (.write .purge) ∧ s.readPc 0 = .copy 1 ∧
        exists u, Transition.Reachable (next id) Continuing s u ∧
          AtRest id u := by
  have hrun : exists s : State (Fin 2) (Fin 1) (Fin 2),
      Transition.Reachable (next id) Undisturbed State.init s ∧
        decide (s.pc 0 = .wait (.write .purge) ∧ s.readPc 0 = .copy 1) = true :=
    Transition.exists_reachable_of_schedule
      ([.openFile 0, .openFile 1, .call 0 (.write .purge), .client 0, .client 0,
        .write {
          opCode := macRouteAdd
          entry :=
            { vlanId := Vector.replicate 16 1
              mac := Vector.replicate 48 2
              oif := Vector.replicate 16 3 } },
        .worker true, .client 0, .poll 1 false false,
        .readEntry 0 1 true false] :
          List (Action (Fin 2) (Fin 1) (Fin 2))) _ (by decide +kernel)
  rcases hrun with ⟨s, hreach, htest⟩
  rcases of_decide_eq_true htest with ⟨hwait, hread⟩
  have hrest := comes_to_rest Function.injective_id (by decide) hreach
  exact ⟨s, hwait, hread, hrest.right.right⟩

end Mac
end RIBDriver
