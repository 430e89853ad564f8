import RIBDriver.Rt.Ioctl.Quiescence

/-!
# Every counted subscriber is served once

When the worker counts the queued subscribers it promises each of them one
copy of the vector.  The promise of a file goes from the queue over the
worker's hand and the completion to the reader's copy and is kept there.
-/

namespace RIBDriver
namespace Ioctl

open Counting

variable {thread file : Type _}

/-- The worker's grants and the files whose readers have copied the vector
since the worker last counted. -/
structure ServiceRecord (file : Type _) where
  grants : GrantRecord file
  served : List file

namespace ServiceRecord

def init : ServiceRecord file where
  grants := GrantRecord.init
  served := []

def servedAfter (fileOf : thread -> file) (r : ServiceRecord file)
    (s : State thread file) : Action thread -> List file
  | .client t =>
      match s.pc t with
      | .copy => fileOf t :: r.served
      | _ => r.served
  | .worker _ =>
      match s.worker with
      | .countReaders => []
      | _ => r.served
  | _ => r.served

def after (fileOf : thread -> file) (r : ServiceRecord file)
    (s : State thread file) (a : Action thread) : ServiceRecord file where
  grants := r.grants.after fileOf s a
  served := r.servedAfter fileOf s a

def queued (r : ServiceRecord file) : List file :=
  r.grants.counted.drop r.grants.taken.length

end ServiceRecord

def copying [DecidableEq file] (fileOf : thread -> file) (f : file) (t : thread)
    (p : ClientPc) : Nat :=
  if fileOf t = f ∧ p.isReading = true then 1 else 0

/-- The promises to a file that are on their way to its reader. -/
def promised [DecidableEq file]
    [Fintype thread] (fileOf : thread -> file) (s : State thread file)
    (f : file) : Nat :=
  inHand s.worker .reader f + (s.completion f).count .reader +
    total (copying fileOf f) s.pc

/-- No promise is lost and none is kept twice. -/
def Conserved [DecidableEq file] [Fintype thread] (fileOf : thread -> file)
    (s : State thread file) (r : ServiceRecord file) : Prop :=
  forall f, r.grants.counted.count f =
    r.queued.count f + promised fileOf s f + r.served.count f

section Steps

variable {fileOf : thread -> file} {s u : State thread file}
variable {r : ServiceRecord file}

theorem grants_client (r : GrantRecord file) (s : State thread file)
    (t : thread) : (r.client fileOf s t).counted = r.counted ∧
      (r.client fileOf s t).taken = r.taken := by
  unfold GrantRecord.client
  split
  · split <;> exact ⟨rfl, rfl⟩
  · exact ⟨rfl, rfl⟩

theorem served_client {t : thread} (hpc : s.pc t ≠ .copy) :
    r.servedAfter fileOf s (.client t) = r.served := by
  simp only [ServiceRecord.servedAfter]

theorem served_worker {allocOk : Bool} (hw : s.worker ≠ .countReaders) :
    r.servedAfter fileOf s (.worker allocOk) = r.served := by
  simp only [ServiceRecord.servedAfter]

variable [DecidableEq file]

theorem copying_eq_zero {p : ClientPc} (h : p.isReading = false) (f : file)
    (t : thread) : copying fileOf f t p = 0 := by
  unfold copying
  rw [if_neg]
  intro hboth
  rw [h] at hboth
  cases hboth.right

theorem copying_copy (f : file) (t : thread) :
    copying fileOf f t .copy = if fileOf t = f then 1 else 0 := by
  simp [copying, ClientPc.isReading]

variable [Fintype thread]

/-- The rule for client steps: what leaves the promises arrives among the
served. -/
theorem conserved_client {t : thread} (h : Conserved fileOf s r)
    (hkept : forall f, promised fileOf u f +
        (r.servedAfter fileOf s (.client t)).count f =
      promised fileOf s f + r.served.count f) :
    Conserved fileOf u (r.after fileOf s (.client t)) := by
  intro f
  have hold := h f
  have hmoved := hkept f
  have hgrants : (r.grants.client fileOf s t).counted = r.grants.counted ∧
      (r.grants.client fileOf s t).taken = r.grants.taken :=
    grants_client r.grants s t
  show (r.grants.client fileOf s t).counted.count f =
    ((r.grants.client fileOf s t).counted.drop
      (r.grants.client fileOf s t).taken.length).count f +
        promised fileOf u f + (r.servedAfter fileOf s (.client t)).count f
  rw [hgrants.left, hgrants.right]
  unfold ServiceRecord.queued at hold
  lia

variable [DecidableEq thread]

theorem copying_goto (fileOf : thread -> file) (s : State thread file)
    (t : thread) (p : ClientPc) (f : file) :
    total (copying fileOf f) (s.goto t p).pc + copying fileOf f t (s.pc t) =
      total (copying fileOf f) s.pc + copying fileOf f t p :=
  total_update (copying fileOf f) s.pc t p

theorem promised_goto {t : thread} {q p : ClientPc} (hpc : s.pc t = q)
    (hq : q.isReading = false) (hp : p.isReading = false)
    (hworker : u.worker = s.worker) (hdone : u.completion = s.completion)
    (hpcs : u.pc = s.pc) (f : file) :
    promised fileOf (u.goto t p) f = promised fileOf s f := by
  have hmove := copying_goto fileOf u t p f
  rw [hpcs, hpc, copying_eq_zero hq, copying_eq_zero hp] at hmove
  unfold promised
  rw [show (u.goto t p).worker = s.worker from hworker,
    show (u.goto t p).completion = s.completion from hdone]
  lia

theorem conserved_goto {t : thread} {q p : ClientPc} (h : Conserved fileOf s r)
    (hpc : s.pc t = q) (hq : q.isReading = false) (hp : p.isReading = false)
    (hworker : u.worker = s.worker) (hdone : u.completion = s.completion)
    (hpcs : u.pc = s.pc) :
    Conserved fileOf (u.goto t p) (r.after fileOf s (.client t)) := by
  apply conserved_client h
  intro f
  have hserved : r.servedAfter fileOf s (.client t) = r.served := by
    apply served_client
    rw [hpc]
    intro hcopy
    rw [hcopy] at hq
    cases hq
  rw [hserved, promised_goto hpc hq hp hworker hdone hpcs]

theorem conserved_aside {t : thread} {q p : ClientPc} (h : Conserved fileOf s r)
    (hpc : s.pc t = q) (hq : q.isReading = false) (hp : p.isReading = false) :
    Conserved fileOf (s.goto t p) r := by
  intro f
  rw [promised_goto hpc hq hp rfl rfl rfl]
  exact h f

theorem conserved_wait {t : thread} {req : Request} {rest : List Role}
    (h : Conserved fileOf s r) (hpc : s.pc t = .wait req)
    (hdone : s.completion (fileOf t) = req.role :: rest) :
    Conserved fileOf
      (({ s with
        completion := Function.update s.completion (fileOf t) rest
        wakes := (req.role, req.role) :: s.wakes } :
          State thread file).goto t (afterWait req))
      (r.after fileOf s (.client t)) := by
  apply conserved_client h
  intro f
  rw [served_client (by rw [hpc]; simp)]
  have hmove := copying_goto fileOf ({ s with
    completion := Function.update s.completion (fileOf t) rest
    wakes := (req.role, req.role) :: s.wakes } : State thread file) t
    (afterWait req) f
  change _ + copying fileOf f t (s.pc t) = total (copying fileOf f) s.pc + _
    at hmove
  rw [hpc, copying_eq_zero (p := .wait req) rfl] at hmove
  have hcount : (Function.update s.completion (fileOf t) rest f).count .reader +
      copying fileOf f t (afterWait req) = (s.completion f).count .reader := by
    by_cases hf : f = fileOf t
    · rw [hf, Function.update_self, hdone, List.count_cons]
      cases req with
      | write op => cases op <;> simp [copying, afterWait, ClientPc.isReading,
          Request.role]
      | subscribe => simp [copying, afterWait, ClientPc.isReading, Request.role]
    · rw [Function.update_of_ne hf]
      unfold copying
      rw [if_neg (fun hboth => hf hboth.left.symm)]
      lia
  show inHand s.worker .reader f +
    (Function.update s.completion (fileOf t) rest f).count .reader + _ + _ = _
  unfold promised
  lia

theorem conserved_copy {t : thread} (h : Conserved fileOf s r)
    (hpc : s.pc t = .copy) (hworker : u.worker = s.worker)
    (hdone : u.completion = s.completion) (hpcs : u.pc = s.pc) :
    Conserved fileOf (u.goto t .downCs) (r.after fileOf s (.client t)) := by
  apply conserved_client h
  intro f
  have hserved : r.servedAfter fileOf s (.client t) = fileOf t :: r.served := by
    simp only [ServiceRecord.servedAfter, hpc]
  have hmove := copying_goto fileOf u t .downCs f
  rw [hpcs, hpc, copying_copy, copying_eq_zero (p := .downCs) rfl] at hmove
  rw [hserved, List.count_cons]
  unfold promised
  rw [show (u.goto t .downCs).worker = s.worker from hworker,
    show (u.goto t .downCs).completion = s.completion from hdone]
  simp only [beq_iff_eq]
  lia

theorem isReading_afterApply (op : WriterOp) :
    (afterApply op).isReading = false := by
  cases op <;> rfl

theorem isReading_firstPc (req : Request) : (firstPc req).isReading = false := by
  cases req <;> rfl

theorem conserved_clientMove {t : thread} (h : Conserved fileOf s r)
    (hticketed : Ticketed fileOf s) (hmove : Move fileOf s (.client t) u) :
    Conserved fileOf u (r.after fileOf s (.client t)) := by
  cases hmove with
  | wait hpc hdone =>
      have hrole := issued_eq_role hticketed hpc hdone
      rw [hrole] at hdone ⊢
      exact conserved_wait h hpc hdone
  | copy hpc => exact conserved_copy h hpc rfl rfl rfl
  | apply hpc =>
      exact conserved_goto h hpc rfl (isReading_afterApply _) rfl rfl rfl
  | downCs hpc hsem => exact conserved_goto h hpc rfl rfl rfl rfl rfl
  | testLast hpc hone => exact conserved_goto h hpc rfl rfl rfl rfl rfl
  | testOther hpc hone => exact conserved_goto h hpc rfl rfl rfl rfl rfl
  | lockQ hpc hsem => exact conserved_goto h hpc rfl rfl rfl rfl rfl
  | lockTable hpc hsem => exact conserved_goto h hpc rfl rfl rfl rfl rfl
  | _ hpc => exact conserved_goto h hpc rfl rfl rfl rfl rfl

end Steps

/-!
## Steps of the worker
-/

section WorkerSteps

variable {fileOf : thread -> file} {s u : State thread file}
variable {r : ServiceRecord file}

theorem worker_still {g : GrantRecord file} (hcount : s.worker ≠ .countReaders)
    (hgrant : forall i n, s.worker ≠ .dequeGrant i n) : g.worker s = g := by
  unfold GrantRecord.worker
  split
  · rename_i hw
    exact absurd hw hcount
  · rename_i i n hw
    exact absurd hw (hgrant i n)
  · rfl

variable [DecidableEq file] [Fintype thread]

theorem conserved_worker {allocOk : Bool} (h : Conserved fileOf s r)
    (hcount : s.worker ≠ .countReaders) (hpcs : u.pc = s.pc)
    (hcounted : (r.grants.worker s).counted = r.grants.counted)
    (hkept : forall f, ((r.grants.worker s).counted.drop
        (r.grants.worker s).taken.length).count f +
          inHand u.worker .reader f + (u.completion f).count .reader =
      r.queued.count f + inHand s.worker .reader f +
        (s.completion f).count .reader) :
    Conserved fileOf u (r.after fileOf s (.worker allocOk)) := by
  intro f
  have hold := h f
  have hmoved := hkept f
  show (r.grants.worker s).counted.count f =
    ((r.grants.worker s).counted.drop (r.grants.worker s).taken.length).count f +
      promised fileOf u f + (r.servedAfter fileOf s (.worker allocOk)).count f
  rw [served_worker hcount, hcounted]
  rw [hcounted] at hmoved
  unfold promised at hold ⊢
  rw [hpcs]
  lia

theorem conserved_still {allocOk : Bool} (h : Conserved fileOf s r)
    (hcount : s.worker ≠ .countReaders)
    (hgrant : forall i n, s.worker ≠ .dequeGrant i n) (hpcs : u.pc = s.pc)
    (hkept : forall f, inHand u.worker .reader f +
        (u.completion f).count .reader =
      inHand s.worker .reader f + (s.completion f).count .reader) :
    Conserved fileOf u (r.after fileOf s (.worker allocOk)) := by
  have hsame : r.grants.worker s = r.grants := worker_still hcount hgrant
  apply conserved_worker h hcount hpcs
  · rw [hsame]
  · intro f
    have hmoved := hkept f
    rw [hsame]
    unfold ServiceRecord.queued
    lia

theorem conserved_dequeGrant {allocOk : Bool} {i n : Nat}
    (h : Conserved fileOf s r) (hgranting : Granting s r.grants)
    (hw : s.worker = .dequeGrant i n) :
    Conserved fileOf
      { s with
        g := s.g.setQueue .reader (s.g.queue .reader).deque
        worker := .unlockGrant i n (s.g.queue .reader).items.head? }
      (r.after fileOf s (.worker allocOk)) := by
  have hprogress := hgranting.progress
  rw [hw] at hprogress
  rcases hprogress with ⟨hn, hi, hlt⟩
  have hmore : r.grants.taken.length < r.grants.counted.length := by lia
  have hdrop := List.drop_eq_getElem_cons hmore
  have hhead : (s.g.queue .reader).items.head? =
      some (r.grants.counted[r.grants.taken.length]) := by
    rw [hgranting.stay, hdrop, List.cons_append, List.head?_cons]
  have hrecord : r.grants.worker s =
      { r.grants with
        taken := r.grants.taken ++ [(s.g.queue .reader).taken] } := by
    unfold GrantRecord.worker
    rw [hw]
  refine conserved_worker h (by rw [hw]; simp) rfl ?_ ?_
  · rw [hrecord]
  · intro f
    have hlength : (r.grants.taken ++ [(s.g.queue .reader).taken]).length =
        r.grants.taken.length + 1 := by simp
    have hqueued : r.queued.count f =
        (r.grants.counted.drop (r.grants.taken.length + 1)).count f +
          if r.grants.counted[r.grants.taken.length] = f then 1 else 0 := by
      unfold ServiceRecord.queued
      rw [hdrop, List.count_cons]
      simp only [beq_iff_eq]
    rw [hrecord, hqueued, hhead, hw]
    show (r.grants.counted.drop
      (r.grants.taken ++ [(s.g.queue .reader).taken]).length).count f +
        (if r.grants.counted[r.grants.taken.length] = f then 1 else 0) + _ =
          _ + _ + 0 + _
    rw [hlength]
    lia

theorem promised_eq_zero [Fintype file]
    (hgranted : grantedReaders s = 0) {f : file}
    (hhand : inHand s.worker .reader f = 0) : promised fileOf s f = 0 := by
  unfold grantedReaders at hgranted
  have htoken := measure_le_total
    (fun _ (done : List Role) => done.count .reader) s.completion f
  have hnobody : total (copying fileOf f) s.pc = 0 := by
    rw [total_eq_zero_iff]
    intro t
    apply copying_eq_zero
    cases hplace : (s.pc t).isReading with
    | false => rfl
    | true =>
        have hserved := clientsAt_pos (isServed_of_isReading hplace)
        lia
  unfold tokens at hgranted
  unfold promised
  lia

theorem conserved_countReaders [Fintype file]
    {allocOk : Bool} (hbatched : Batched s)
    (hw : s.worker = .countReaders) :
    Conserved fileOf
      { s with
        g := { s.g with
          nReadersToBeService := (s.g.queue .reader).items.length }
        worker := .unlockReaderQ }
      (r.after fileOf s (.worker allocOk)) := by
  intro f
  have hphase := hbatched.phase
  rw [hw] at hphase
  have hnone : promised fileOf s f = 0 :=
    promised_eq_zero hphase.right.right (by rw [hw]; rfl)
  have hgrants : r.grants.after fileOf s (.worker allocOk) =
      { counted := (s.g.queue .reader).items, taken := [], arrived := [] } := by
    show r.grants.worker s = _
    unfold GrantRecord.worker
    rw [hw]
  have hserved : r.servedAfter fileOf s (.worker allocOk) = [] := by
    simp only [ServiceRecord.servedAfter, hw]
  have hsame : promised fileOf { s with
      g := { s.g with
        nReadersToBeService := (s.g.queue .reader).items.length }
      worker := .unlockReaderQ } f = promised fileOf s f := by
    unfold promised
    rw [hw]
    rfl
  unfold ServiceRecord.queued ServiceRecord.after
  rw [hgrants, hserved, hsame, hnone]
  rfl

variable [Fintype file] [DecidableEq thread]

theorem conserved_workerMove {allocOk : Bool} (h : Conserved fileOf s r)
    (hbatched : Batched s) (hgranting : Granting s r.grants)
    (hmove : Move fileOf s (.worker allocOk) u) :
    Conserved fileOf u (r.after fileOf s (.worker allocOk)) := by
  cases hmove with
  | countReaders hw => exact conserved_countReaders hbatched hw
  | dequeGrant hw => exact conserved_dequeGrant h hgranting hw
  | completeWriter hw =>
      refine conserved_still h (by simp [hw]) (by simp [hw]) rfl (fun f => ?_)
      rw [held_complete, hw]
      simp [inHand, single]
  | completeGrantNext hw hlt =>
      refine conserved_still h (by simp [hw]) (by simp [hw]) rfl (fun f => ?_)
      rw [held_complete, hw]
      simp [inHand, single, eq_comm, Nat.add_comm]
  | completeGrantLast hw hlt =>
      refine conserved_still h (by simp [hw]) (by simp [hw]) rfl (fun f => ?_)
      rw [held_complete, hw]
      simp [inHand, single, eq_comm, Nat.add_comm]
  | waitWriter hw hitems =>
      exact conserved_still h (by simp [hw]) (by simp [hw]) rfl
        (fun f => by rw [hw]; rfl)
  | _ hw =>
      exact conserved_still h (by simp [hw]) (by simp [hw]) rfl
        (fun f => by rw [hw]; rfl)

theorem conserved_step {a : Action thread} (h : Conserved fileOf s r)
    (hticketed : Ticketed fileOf s) (hbatched : Batched s)
    (hgranting : Granting s r.grants) (hstep : step fileOf s a = some u) :
    Conserved fileOf u (r.after fileOf s a) := by
  have hmove := move_of_step hstep
  cases a with
  | client t => exact conserved_clientMove h hticketed hmove
  | worker allocOk => exact conserved_workerMove h hbatched hgranting hmove
  | call t req =>
      cases hmove with
      | call hpc => exact conserved_aside h hpc rfl (isReading_firstPc req)
  | interrupt t =>
      cases hmove with
      | interruptLockQ hpc => exact conserved_aside h hpc rfl rfl
      | interruptLockTable hpc => exact conserved_aside h hpc rfl rfl
      | interruptDownCs hpc => exact conserved_aside h hpc rfl rfl

end WorkerSteps

/-!
## Between two batches
-/

/-- Between the end of one batch and the count for the next one. -/
def WorkerPc.isBetween : WorkerPc file -> Bool
  | .emptyChangeList => true
  | .waitWriter => true
  | .lockWriterQ => true
  | .dequeWriter => true
  | .unlockWriterQ _ => true
  | .completeWriter _ => true
  | .waitWriterDone => true
  | .lockReaderQ => true
  | .countReaders => true
  | _ => false

def Settled (s : State thread file) (r : ServiceRecord file) : Prop :=
  s.worker.isBetween = true -> r.queued = []

section Between

variable {fileOf : thread -> file} {s u : State thread file}
variable {r : ServiceRecord file} {a : Action thread}

theorem settled_init :
    Settled (State.init : State thread file) ServiceRecord.init :=
  fun _ => rfl

theorem queued_of_length (h : r.grants.counted.length ≤ r.grants.taken.length) :
    r.queued = [] :=
  List.drop_eq_nil_of_le h

theorem queued_worker {allocOk : Bool}
    (hw : ¬ (s.worker = .countReaders ∨ exists i n, s.worker = .dequeGrant i n)) :
    (r.after fileOf s (.worker allocOk)).queued = r.queued := by
  have hsame : r.grants.worker s = r.grants :=
    worker_still (fun hcount => hw (Or.inl hcount))
      (fun i n hgrant => hw (Or.inr ⟨i, n, hgrant⟩))
  show (ServiceRecord.queued { r with grants := r.grants.worker s }) = _
  rw [hsame]

theorem settled_client {t : thread} (h : Settled s r)
    (hworker : u.worker = s.worker) :
    Settled u (r.after fileOf s (.client t)) := by
  intro hbetween
  rw [hworker] at hbetween
  have hold := h hbetween
  have hgrants : (r.grants.client fileOf s t).counted = r.grants.counted ∧
      (r.grants.client fileOf s t).taken = r.grants.taken :=
    grants_client r.grants s t
  unfold ServiceRecord.queued at hold ⊢
  show (r.grants.client fileOf s t).counted.drop
    (r.grants.client fileOf s t).taken.length = []
  rw [hgrants.left, hgrants.right]
  exact hold

variable [DecidableEq thread] [DecidableEq file]

theorem settled_workerMove {allocOk : Bool} (h : Settled s r)
    (hgranting : Granting s r.grants)
    (hmove : Move fileOf s (.worker allocOk) u) :
    Settled u (r.after fileOf s (.worker allocOk)) := by
  have hprogress := hgranting.progress
  have hsame : s.worker.isBetween = true -> s.worker ≠ .countReaders ->
      (r.after fileOf s (.worker allocOk)).queued = [] := by
    intro hbetween hcount
    rw [queued_worker (by
      intro hcounting
      rcases hcounting with hw | ⟨i, n, hw⟩
      · exact hcount hw
      · rw [hw] at hbetween
        cases hbetween)]
    exact h hbetween
  intro hbetween
  cases hmove with
  | testNone hw hzero =>
      rw [queued_worker (by simp [hw])]
      rw [hw] at hprogress
      apply queued_of_length
      have hlength := hprogress.right
      lia
  | waitReadersDone hw hdone =>
      rw [queued_worker (by simp [hw])]
      rw [hw] at hprogress
      exact queued_of_length (Nat.le_of_eq hprogress.symm)
  | waitWriter hw hitems => exact hsame (by rw [hw]; rfl) (by simp [hw])
  | lockWriterQ hw hsem => exact hsame (by rw [hw]; rfl) (by simp [hw])
  | dequeWriter hw hitems => exact hsame (by rw [hw]; rfl) (by simp [hw])
  | unlockWriterQ hw => exact hsame (by rw [hw]; rfl) (by simp [hw])
  | completeWriter hw => exact hsame (by rw [hw]; rfl) (by simp [hw])
  | waitWriterDone hw hdone => exact hsame (by rw [hw]; rfl) (by simp [hw])
  | lockReaderQ hw hsem => exact hsame (by rw [hw]; rfl) (by simp [hw])
  | emptyChangeList hw => exact hsame (by rw [hw]; rfl) (by simp [hw])
  | _ => cases hbetween

theorem settled_step (h : Settled s r) (hgranting : Granting s r.grants)
    (hmove : Move fileOf s a u) : Settled u (r.after fileOf s a) := by
  cases a with
  | worker allocOk => exact settled_workerMove h hgranting hmove
  | client t =>
      apply settled_client h
      cases hmove <;> rfl
  | call t req =>
      cases hmove with
      | call hpc => exact h
  | interrupt t =>
      cases hmove with
      | interruptLockQ hpc => exact h
      | interruptLockTable hpc => exact h
      | interruptDownCs hpc => exact h

end Between

/-!
## Runs
-/

def servingStep [DecidableEq thread] [DecidableEq file]
    (fileOf : thread -> file) :
    State thread file × ServiceRecord file -> Action thread ->
      Option (State thread file × ServiceRecord file) :=
  Transition.recording (step fileOf) (ServiceRecord.after fileOf)

section Runs

variable [DecidableEq file]
variable [Fintype thread]
variable {fileOf : thread -> file} {s : State thread file}
variable {r : ServiceRecord file}

theorem conserved_init :
    Conserved fileOf (State.init : State thread file) ServiceRecord.init := by
  intro f
  have hnobody : total (copying fileOf f) (State.init : State thread file).pc =
      0 := by
    rw [total_eq_zero_iff]
    intro t
    exact copying_eq_zero rfl f t
  unfold promised
  rw [hnobody]
  rfl

theorem engaged_le_one (hfile : Function.Injective fileOf) (role : Role)
    (f : file) : engaged fileOf s role f ≤ 1 := by
  by_contra hmore
  have hpos : 0 < engaged fileOf s role f := by lia
  rcases total_pos_iff.mp hpos with ⟨t, ht⟩
  have hone : waiting fileOf role f t (s.pc t) ≤ 1 := by
    unfold waiting
    split <;> lia
  rcases exists_ne_of_one_lt_total hone (by unfold engaged at hmore; lia) with
    ⟨t', hne, ht'⟩
  have howner : forall {t : thread}, 0 < waiting fileOf role f t (s.pc t) ->
      fileOf t = f := by
    intro t hwaits
    by_contra hother
    unfold waiting at hwaits
    rw [if_neg (fun hboth => hother hboth.left)] at hwaits
    cases hwaits
  exact hne (hfile ((howner ht').trans (howner ht).symm))

theorem nodup_items (hfile : Function.Injective fileOf)
    (hticketed : Ticketed fileOf s) (role : Role) :
    (s.g.queue role).items.Nodup := by
  rw [List.nodup_iff_count_le_one]
  intro f
  have hcovered := hticketed.covered role f
  have hone := engaged_le_one (s := s) hfile role f
  unfold held at hcovered
  lia

theorem nodup_step {a : Action thread} (hfile : Function.Injective fileOf)
    (hticketed : Ticketed fileOf s) (h : r.grants.counted.Nodup) :
    (r.after fileOf s a).grants.counted.Nodup := by
  cases a with
  | client t =>
      show (r.grants.client fileOf s t).counted.Nodup
      rw [(grants_client r.grants s t).left]
      exact h
  | worker allocOk =>
      show (r.grants.worker s).counted.Nodup
      unfold GrantRecord.worker
      split
      · exact nodup_items hfile hticketed .reader
      · exact h
      · exact h
  | call t req => exact h
  | interrupt t => exact h

variable [Fintype file]

/-- Between two batches everybody the worker has counted has been served once,
and nobody else. -/
def ServesCounted (s : State thread file) (r : ServiceRecord file) : Prop :=
  s.worker = .waitWriter -> r.served.Perm r.grants.counted ∧ r.served.Nodup

theorem servesCounted_of_conserved (hbatched : Batched s)
    (hnodup : r.grants.counted.Nodup) (hsettled : Settled s r)
    (h : Conserved fileOf s r) : ServesCounted s r := by
  intro hw
  have hperm : r.served.Perm r.grants.counted := by
    rw [List.perm_iff_count]
    intro f
    have hphase := hbatched.phase
    rw [hw] at hphase
    have hkept := h f
    rw [promised_eq_zero hphase.right.right (by rw [hw]; rfl),
      hsettled (by rw [hw]; rfl), List.count_nil] at hkept
    lia
  exact ⟨hperm, hperm.nodup_iff.mpr hnodup⟩

variable [DecidableEq thread]

theorem serving_of_undisturbed (hfile : Function.Injective fileOf)
    (h : Transition.Reachable (servingStep fileOf)
      (fun p a => Undisturbed p.1 a) (State.init, ServiceRecord.init) (s, r)) :
    Ticketed fileOf s ∧ Batched s ∧ Granting s r.grants ∧
      r.grants.counted.Nodup ∧ Settled s r ∧ Conserved fileOf s r := by
  refine Transition.recorded_invariant (fun s r => Ticketed fileOf s ∧
    Batched s ∧ Granting s r.grants ∧ r.grants.counted.Nodup ∧ Settled s r ∧
      Conserved fileOf s r)
    ⟨ticketed_init, batched_init, granting_init, List.nodup_nil, settled_init,
      conserved_init⟩ ?_ h
  intro s r a u hinv hallowed hstep
  rcases hinv with
    ⟨hticketed, hbatched, hgranting, hnodup, hsettled, hconserved⟩
  have hmove := move_of_step hstep
  refine ⟨?_, ?_, ?_, ?_, ?_, ?_⟩
  · exact ticketed_step hticketed (separateRoles_of_injective hfile s a) hmove
  · exact batched_step hticketed hbatched hallowed.right hmove
  · exact granting_step hgranting (settledCount_of_batched hbatched a) hstep
  · exact nodup_step hfile hticketed hnodup
  · exact settled_step hsettled hgranting hmove
  · exact conserved_step hconserved hticketed hbatched hgranting hstep

/-- All promises of a batch are kept when the worker goes back to wait for a
writer: the files served since it last counted the queued subscribers are those
it has counted, each of them once. -/
theorem servesCounted_of_undisturbed (hfile : Function.Injective fileOf)
    (h : Transition.Reachable (servingStep fileOf)
      (fun p a => Undisturbed p.1 a) (State.init, ServiceRecord.init) (s, r)) :
    ServesCounted s r := by
  rcases serving_of_undisturbed hfile h with
    ⟨_, hbatched, _, hnodup, hsettled, hconserved⟩
  exact servesCounted_of_conserved hbatched hnodup hsettled hconserved

end Runs

theorem servesCounted_two_readers :
    exists (s : State (Fin 4) (Fin 4)) (r : ServiceRecord (Fin 4)),
      (s.worker = .waitWriter ∧ r.grants.counted = [1, 2] ∧
        r.served = [1, 2]) ∧ ServesCounted s r := by
  have hrun : exists p : State (Fin 4) (Fin 4) × ServiceRecord (Fin 4),
      Transition.Reachable (servingStep id) (fun p a => Undisturbed p.1 a)
          (State.init, ServiceRecord.init) p ∧
        (decide (p.1.worker = .waitWriter ∧ p.2.grants.counted = [1, 2] ∧
          p.2.served = [1, 2])) = true :=
    Transition.exists_reachable_of_schedule
      (callCreate 0 ++ callSubscribe 1 ++ callSubscribe 2 ++ workerRuns 5 ++
        clientRuns 0 3 ++ workerRuns 15 ++ clientRuns 2 7 ++ clientRuns 1 9 ++
        workerRuns 1) _
      (by decide +kernel)
  rcases hrun with ⟨⟨s, r⟩, hreach, htest⟩
  exact ⟨s, r, of_decide_eq_true htest,
    servesCounted_of_undisturbed Function.injective_id hreach⟩

end Ioctl
end RIBDriver
