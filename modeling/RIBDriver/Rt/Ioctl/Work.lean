import RIBDriver.Library.Potential
import RIBDriver.Rt.Ioctl.Grants

/-!
# The work of a call

No thread of the scheduler spins.  Every place has a bound on the steps its
thread still takes, and every queue entry one on the steps the worker takes for
it, so that a run is bounded by its calls whatever the order of the steps.
-/

namespace RIBDriver
namespace Ioctl

open Counting

variable {thread file : Type _}

/-- The worker's steps for an entry of its queue: a round for a writer, one
grant for a reader. -/
def Role.cost : Role -> Nat
  | .writer => 16
  | .reader => 4

/-- The steps of a client until it is back in user space, and those of the
worker for an entry it has yet to enqueue. -/
def ClientPc.work : ClientPc -> Nat
  | .user => 0
  | .clamp => 17
  | .lockQ (.write _) => 24
  | .enq (.write _) => 23
  | .unlockQ (.write _) => 6
  | .wait (.write _) => 5
  | .lockTable _ => 4
  | .apply _ => 3
  | .unlockTable => 2
  | .handBack => 1
  | .lockQ .subscribe => 16
  | .enq .subscribe => 15
  | .unlockQ .subscribe => 10
  | .wait .subscribe => 9
  | .copy => 8
  | .downCs => 7
  | .test => 6
  | .cleanUp => 5
  | .signal => 4
  | .decLoad _ => 3
  | .decStore _ _ => 2
  | .upCs => 1

/-- The steps of the worker until it waits for a writer that is not there, less
those for the entries it will find. -/
def WorkerPc.work : WorkerPc file -> Nat
  | .waitWriter => 3
  | .lockWriterQ => 2
  | .dequeWriter => 1
  | .unlockWriterQ _ => 16
  | .completeWriter _ => 15
  | .waitWriterDone => 14
  | .lockReaderQ => 13
  | .countReaders => 12
  | .unlockReaderQ => 11
  | .testReaders => 10
  | .emptyChangeList => 4
  | .snapshot => 9
  | .loadReaders => 8
  | .lockGrant _ _ => 7
  | .dequeGrant _ _ => 6
  | .unlockGrant _ _ none => 5
  | .unlockGrant _ _ (some _) => 9
  | .completeGrant _ _ _ => 8
  | .waitReadersDone => 4
  | .crashed => 0

def queueWork (s : State thread file) (r : Role) : Nat :=
  Role.cost r * (s.g.queue r).items.length

section Work

variable {fileOf : thread -> file} {s u : State thread file}
variable {a : Action thread}

def Action.isCall (r : Role) : Action thread -> Bool
  | .call _ req => req.role = r
  | _ => false

/-- What a call brings along: its own step and all that follow from it. -/
def Action.credit (a : Action thread) : Nat :=
  25 * (a.isCall .writer).toNat + 18 * (a.isCall .reader).toNat

variable [Fintype thread]

def clientWork (s : State thread file) : Nat :=
  total (fun _ p => p.work) s.pc

def work (s : State thread file) : Nat :=
  clientWork s + queueWork s .writer + queueWork s .reader + s.worker.work

end Work

/-!
## Every step does some of the work
-/

section Steps

variable {fileOf : thread -> file} {s u : State thread file}
variable {a : Action thread}

theorem queueWork_congr (hitems : u.books.items = s.books.items) (r : Role) :
    queueWork u r = queueWork s r := by
  have hlist : (u.g.queue r).items = (s.g.queue r).items := congrFun hitems r
  unfold queueWork
  rw [hlist]

theorem eq_user_of_move [DecidableEq thread] [DecidableEq file]
    (hmove : Move fileOf s a u)
    (hcall : forall t req, a ≠ .call t req) {t : thread}
    (hpc : s.pc t = .user) : u.pc t = .user := by
  have hother : forall {t' : thread} {p : ClientPc}, s.pc t' ≠ .user ->
      Function.update s.pc t' p t = .user := by
    intro t' p hne
    rw [Function.update_of_ne]
    · exact hpc
    · intro ht
      rw [← ht] at hne
      exact hne hpc
  cases hmove with
  | call hself => exact absurd rfl (hcall _ _)
  | clamp hself => exact hother (by simp [hself])
  | lockQ hself hsem => exact hother (by simp [hself])
  | wait hself hdone => exact hother (by simp [hself])
  | _ => first | exact hpc | exact hother (by simp [*])

variable [Fintype thread]

theorem clientWork_eq_of_pc (hpcs : u.pc = s.pc) :
    clientWork u = clientWork s := by
  unfold clientWork
  rw [hpcs]

theorem work_worker (hitems : u.books.items = s.books.items)
    (hpcs : u.pc = s.pc) (hless : u.worker.work < s.worker.work) :
    work u + 1 ≤ work s := by
  unfold work
  rw [queueWork_congr hitems, queueWork_congr hitems, clientWork_eq_of_pc hpcs]
  lia

theorem work_deque {r : Role} {f : file} {rest : List file} {w : WorkerPc file}
    (hitems : (s.g.queue r).items = f :: rest)
    (hless : w.work < s.worker.work + Role.cost r) :
    work { s with g := s.g.setQueue r (s.g.queue r).deque, worker := w } + 1 ≤
      work s := by
  have hqueue : forall r',
      (({ s with g := s.g.setQueue r (s.g.queue r).deque, worker := w } :
        State thread file).g.queue r').items =
        if r' = r then rest else (s.g.queue r').items := by
    intro r'
    rw [items_setQueue, KernelQueue.deque_items, hitems, List.tail_cons]
  have hclients :
      clientWork ({ s with g := s.g.setQueue r (s.g.queue r).deque, worker := w } :
        State thread file) = clientWork s := rfl
  unfold work queueWork
  rw [hclients, hqueue, hqueue]
  cases r with
  | writer =>
      rw [if_pos rfl, if_neg (by decide), hitems, List.length_cons]
      simp only [Role.cost] at hless ⊢
      lia
  | reader =>
      rw [if_pos rfl, if_neg (by decide), hitems, List.length_cons]
      simp only [Role.cost] at hless ⊢
      lia

theorem work_init : work (State.init : State thread file) = 3 := by
  have hclients : clientWork (State.init : State thread file) = 0 := by
    unfold clientWork
    rw [total_eq_zero_iff]
    intro t
    rfl
  unfold work
  rw [hclients]
  rfl

variable [DecidableEq thread]

theorem clientWork_goto (s : State thread file) (t : thread) (p : ClientPc) :
    clientWork (s.goto t p) + (s.pc t).work = clientWork s + p.work :=
  total_update (fun _ p => p.work) s.pc t p

theorem ClientEdge.work_lt {n : Nat} {q p : ClientPc} (h : ClientEdge n q p)
    (huser : q ≠ .user) : p.work < q.work := by
  cases h with
  | call req => exact absurd rfl huser
  | lockQ req => cases req <;> simp [ClientPc.work]
  | giveUp req => cases req <;> simp [ClientPc.work]
  | unlockQ req => cases req <;> simp [ClientPc.work]
  | _ => simp [ClientPc.work]

theorem ClientEdge.ne_user {n : Nat} {p : ClientPc} (h : ClientEdge n .user p) :
    p ≠ .user := by
  cases h with
  | call req => cases req <;> simp [firstPc]

theorem WorkerEdge.work_lt {n : Nat} {w w' : WorkerPc file}
    (h : WorkerEdge n w w') : w'.work < w.work := by
  cases h <;> simp [WorkerPc.work]

theorem work_goto {t : thread} {p : ClientPc}
    (hitems : u.books.items = s.books.items) (hworker : u.worker = s.worker)
    (hpcs : u.pc = s.pc)
    (hless : p.work < (s.pc t).work) : work (u.goto t p) + 1 ≤ work s := by
  have hmove := clientWork_goto u t p
  rw [hpcs, clientWork_eq_of_pc hpcs] at hmove
  have hqueue : forall r, queueWork (u.goto t p) r = queueWork s r :=
    queueWork_congr (u := u.goto t p) hitems
  have hsame : (u.goto t p).worker.work = s.worker.work :=
    congrArg WorkerPc.work hworker
  unfold work
  rw [hqueue, hqueue, hsame]
  lia

theorem work_enq {t : thread} {req : Request} (hpc : s.pc t = .enq req) :
    work ((enqueueClient fileOf s t req).goto t (.unlockQ req)) + 1 ≤
      work s := by
  have hmove := clientWork_goto (enqueueClient fileOf s t req) t (.unlockQ req)
  have hclients : clientWork (enqueueClient fileOf s t req) = clientWork s := rfl
  have hold : (enqueueClient fileOf s t req).pc t = .enq req := hpc
  rw [hold, hclients] at hmove
  have hqueue : forall r,
      (((enqueueClient fileOf s t req).goto t (.unlockQ req)).g.queue r).items =
        if r = req.role then
          ((s.g.queue req.role).enqueue (fileOf t)).items
        else (s.g.queue r).items := fun r => items_setQueue s.g req.role r _
  have hlength : ((s.g.queue req.role).enqueue (fileOf t)).items.length ≤
      (s.g.queue req.role).items.length + 1 := by
    rw [KernelQueue.enqueue_items]
    split
    · rw [List.length_append]
      exact Nat.le_refl _
    · exact Nat.le_succ _
  have hworker : ((enqueueClient fileOf s t req).goto t (.unlockQ req)).worker =
      s.worker := rfl
  unfold work queueWork
  rw [hworker, hqueue, hqueue]
  cases req with
  | write op =>
      change _ ≤ (s.g.queue .writer).items.length + 1 at hlength
      rw [show Request.role (.write op) = .writer from rfl, if_pos rfl,
        if_neg (by decide)]
      simp only [ClientPc.work, Role.cost] at hmove ⊢
      rw [show Request.role (.write op) = .writer from rfl] at hlength
      lia
  | subscribe =>
      rw [show Request.role .subscribe = .reader from rfl] at hlength ⊢
      rw [if_pos rfl, if_neg (by decide)]
      simp only [ClientPc.work, Role.cost] at hmove ⊢
      lia

theorem work_afterWait_lt (req : Request) :
    (afterWait req).work < (ClientPc.wait req).work := by
  cases req with
  | write op => cases op <;> simp [afterWait, ClientPc.work]
  | subscribe => simp [afterWait, ClientPc.work]

theorem work_afterApply_lt (op : WriterOp) :
    (afterApply op).work < (ClientPc.apply op).work := by
  cases op <;> simp [afterApply, ClientPc.work]

theorem work_call {t : thread} {req : Request} (hpc : s.pc t = .user) :
    work (s.goto t (firstPc req)) + 1 ≤
      work s + (Action.call t req).credit := by
  have hmove := clientWork_goto s t (firstPc req)
  rw [hpc] at hmove
  have hqueue : forall r, queueWork (s.goto t (firstPc req)) r = queueWork s r :=
    queueWork_congr (u := s.goto t (firstPc req)) rfl
  have hworker : (s.goto t (firstPc req)).worker = s.worker := rfl
  unfold work Action.credit
  rw [hqueue, hqueue, hworker]
  cases req with
  | write op =>
      simp [Action.isCall, Request.role, firstPc, ClientPc.work] at hmove ⊢
      lia
  | subscribe =>
      simp [Action.isCall, Request.role, firstPc, ClientPc.work] at hmove ⊢
      lia

variable [DecidableEq file]

/-- A step uses up work unless it is a call, whatever the clients share and
whatever is interrupted. -/
theorem work_step (hstep : step fileOf s a = some u) :
    work u + 1 ≤ work s + a.credit := by
  have hmove := move_of_step hstep
  suffices hless : (forall t req, a ≠ .call t req) -> work u + 1 ≤ work s by
    cases a with
    | call t req =>
        cases hmove with
        | call hpc => exact work_call hpc
    | _ => exact Nat.le_trans (hless (by simp)) (Nat.le_add_right _ _)
  intro hcall
  cases effect_of_move hmove with
  | quiet hsignals hbooks hpcs hedge hsection =>
      rename_i t p v
      apply work_goto (congrArg Books.items hbooks)
        (congrArg Signals.worker hsignals) hpcs
      apply hedge.work_lt
      intro huser
      -- the edge would be that of a call
      have hstay := eq_user_of_move hmove hcall huser
      change Function.update v.pc t p t = .user at hstay
      rw [Function.update_self] at hstay
      rw [huser] at hedge
      exact hedge.ne_user hstay
  | giveUpGrant hpc =>
      apply work_goto rfl rfl rfl
      rw [hpc]
      simp [ClientPc.work]
  | enq hpc => exact work_enq hpc
  | wait hpc hdone =>
      apply work_goto rfl rfl rfl
      rw [hpc]
      exact work_afterWait_lt _
  | apply hpc =>
      apply work_goto rfl rfl rfl
      rw [hpc]
      exact work_afterApply_lt _
  | handBack hpc =>
      apply work_goto rfl rfl rfl
      rw [hpc]
      simp [ClientPc.work]
  | signal hpc =>
      apply work_goto rfl rfl rfl
      rw [hpc]
      simp [ClientPc.work]
  | decStore hpc =>
      apply work_goto rfl rfl rfl
      rw [hpc]
      simp [ClientPc.work]
  | moveOn hsignals hbooks hpcs hcs hedge =>
      apply work_worker (congrArg Books.items hbooks) hpcs
      rw [show u.worker = _ from congrArg Signals.worker hsignals]
      exact hedge.work_lt
  | dequeWriter hw hitems =>
      apply work_deque hitems
      simp [hw, WorkerPc.work, Role.cost]
  | dequeGrant hw hitems =>
      apply work_deque hitems
      simp [hw, WorkerPc.work, Role.cost]
  | completeWriter hw =>
      apply work_worker
      · rfl
      · rfl
      · simp [hw, WorkerPc.work]
  | completeGrant hw hnext =>
      apply work_worker
      · rfl
      · rfl
      · rcases hnext with ⟨_, hnext⟩ | ⟨_, hnext⟩ <;>
          simp [hw, hnext, WorkerPc.work]
  | signalled hw hdone =>
      apply work_worker
      · rfl
      · rfl
      · rcases hw with ⟨hw, hnext⟩ | ⟨hw, hnext⟩ <;>
          simp [hw, hnext, WorkerPc.work]
  | countReaders hw =>
      apply work_worker
      · rfl
      · rfl
      · simp [hw, WorkerPc.work]

end Steps

/-!
## Runs
-/

section Runs

variable {fileOf : thread -> file} {s : State thread file}

def calls (r : Role) (actions : List (Action thread)) : Nat :=
  actions.countP (Action.isCall r)

theorem sum_credit (actions : List (Action thread)) :
    (actions.map Action.credit).sum =
      25 * calls .writer actions + 18 * calls .reader actions := by
  induction actions with
  | nil => rfl
  | cons a rest ih =>
      have hcount : forall r, calls r (a :: rest) =
          calls r rest + (a.isCall r).toNat := by
        intro r
        unfold calls
        rw [List.countP_cons]
        cases a.isCall r <;> rfl
      rw [List.map_cons, List.sum_cons, ih, hcount, hcount, Action.credit]
      lia

variable [DecidableEq thread] [DecidableEq file] [Fintype thread]

/-- The scheduler takes at most 25 steps for each call of a writer and 18 for
each call of a subscriber, whatever the order of the steps, the sharing of open
files and the interruptions. -/
theorem length_le_of_run {actions : List (Action thread)}
    (hrun : Transition.run (step fileOf) State.init actions = some s) :
    actions.length ≤
      3 + 25 * calls .writer actions + 18 * calls .reader actions := by
  have hbound := Transition.length_add_potential_le
    (fun s a u => work_step (s := s) (u := u) (a := a)) hrun
  rw [work_init, sum_credit] at hbound
  lia

end Runs

theorem length_le_two_calls :
    exists s : State (Fin 4) (Fin 4),
      Transition.run (step id) State.init
          (callCreate 0 ++ callSubscribe 1 ++ workerRuns 5 ++ clientRuns 0 3) =
        some s ∧
      17 ≤ 3 + 25 * 1 + 18 * 1 := by
  have hsome : (Transition.run (step id)
      (State.init : State (Fin 4) (Fin 4))
      (callCreate 0 ++ callSubscribe 1 ++ workerRuns 5 ++
        clientRuns 0 3)).isSome = true := by
    decide +kernel
  rcases Option.isSome_iff_exists.mp hsome with ⟨s, hrun⟩
  exact ⟨s, hrun, length_le_of_run hrun⟩

end Ioctl
end RIBDriver
