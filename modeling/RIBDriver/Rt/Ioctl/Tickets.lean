import RIBDriver.Library.Counting
import RIBDriver.Rt.Ioctl.Effects

/-!
# Tickets of waiting clients

A client that has called `enqueue` waits for a completion of its open file.
What the scheduler owes it is a ticket: an entry in the queue of its role, the
entry in the worker's hand, or the completion issued for the entry.  Tickets
are counted for each role and file, next to the clients that wait for them.
-/

namespace RIBDriver
namespace Ioctl

open Counting

variable {thread file : Type _} [DecidableEq file]

/-- The entry the worker has dequeued and not yet completed. -/
def inHand : WorkerPc file -> Role -> file -> Nat
  | .unlockWriterQ w, .writer, f => if w = f then 1 else 0
  | .completeWriter w, .writer, f => if w = f then 1 else 0
  | .unlockGrant _ _ (some x), .reader, f => if x = f then 1 else 0
  | .completeGrant _ _ x, .reader, f => if x = f then 1 else 0
  | _, _, _ => 0

/-- The tickets out for a role and a file. -/
def held (s : State thread file) (r : Role) (f : file) : Nat :=
  (s.g.queue r).items.count f + inHand s.worker r f + (s.completion f).count r

def waiting (fileOf : thread -> file) (r : Role) (f : file) (t : thread)
    (p : ClientPc) : Nat :=
  if fileOf t = f ∧ p.isEngaged r = true then 1 else 0

def engaged [Fintype thread] (fileOf : thread -> file) (s : State thread file)
    (r : Role) (f : file) : Nat :=
  total (waiting fileOf r f) s.pc

def single (role : Role) (owner : file) (r : Role) (f : file) : Nat :=
  if r = role ∧ f = owner then 1 else 0

/-- What a step does to the tickets and to the clients waiting for them. -/
inductive TicketChange [Fintype thread]
    (fileOf : thread -> file) (s : State thread file)
    (a : Action thread) (s' : State thread file) : Prop where
  | same (hheld : forall r f, held s' r f = held s r f)
      (hengaged : forall r f, engaged fileOf s' r f = engaged fileOf s r f)
  | accepted (t : thread) (req : Request) (hact : a = .client t)
      (hpc : s.pc t = .enq req)
      (hheld : forall r f,
        held s' r f = held s r f + single req.role (fileOf t) r f)
      (hengaged : forall r f, engaged fileOf s' r f =
        engaged fileOf s r f + single req.role (fileOf t) r f)
  | refused (t : thread) (req : Request) (hact : a = .client t)
      (hpc : s.pc t = .enq req)
      (hfull : ¬ (s.g.queue req.role).items.length < qDefaultSize)
      (hheld : forall r f, held s' r f = held s r f)
      (hengaged : forall r f, engaged fileOf s' r f =
        engaged fileOf s r f + single req.role (fileOf t) r f)
  | returned (t : thread) (req : Request) (issued : Role)
      (hpc : s.pc t = .wait req)
      (hwakes : s'.wakes = (req.role, issued) :: s.wakes)
      (hheld : forall r f,
        held s' r f + single issued (fileOf t) r f = held s r f)
      (hengaged : forall r f, engaged fileOf s' r f +
        single req.role (fileOf t) r f = engaged fileOf s r f)

section Changes

variable {fileOf : thread -> file} {s u : State thread file}
variable {a : Action thread}

theorem held_complete (f : file) (role r : Role) (f' : file) :
    (((s.complete f role).completion f').count r) =
      (s.completion f').count r + single role f r f' := by
  unfold State.complete single
  by_cases hf : f' = f
  · rw [hf]
    by_cases hr : r = role
    · simp [hr]
    · simp [hr, Ne.symm hr]
  · simp [hf]

variable [Fintype thread]

theorem ticketChange_worker (hitems : u.books.items = s.books.items)
    (hhand : forall r f, inHand u.worker r f = inHand s.worker r f)
    (hdone : u.completion = s.completion) (hpcs : u.pc = s.pc) :
    TicketChange fileOf s a u := by
  apply TicketChange.same
  · intro r f
    have hqueue : (u.g.queue r).items = (s.g.queue r).items := congrFun hitems r
    unfold held
    rw [hqueue, hhand, hdone]
  · intro r f
    unfold engaged
    rw [hpcs]

theorem ticketChange_complete {f : file} {role : Role} {w : WorkerPc file}
    (hhand : forall r f', inHand w r f' + single role f r f' =
      inHand s.worker r f') :
    TicketChange fileOf s a { s.complete f role with worker := w } := by
  apply TicketChange.same
  · intro r f'
    have hpoint := hhand r f'
    show (s.g.queue r).items.count f' + inHand w r f' +
      ((s.complete f role).completion f').count r = held s r f'
    rw [held_complete]
    unfold held
    lia
  · intro r f'
    rfl

theorem ticketChange_deque {role : Role} {f : file} {rest : List file}
    {w : WorkerPc file}
    (hitems : (s.g.queue role).items = f :: rest)
    (hhand : forall r f', inHand w r f' =
      inHand s.worker r f' + single role f r f') :
    TicketChange fileOf s a
      { s with
        g := s.g.setQueue role (s.g.queue role).deque
        worker := w } := by
  apply TicketChange.same
  · intro r f'
    have hpoint := hhand r f'
    show ((s.g.setQueue role (s.g.queue role).deque).queue r).items.count f' +
      inHand w r f' + (s.completion f').count r = held s r f'
    unfold held
    rw [items_setQueue]
    by_cases hr : r = role
    · rw [if_pos hr, KernelQueue.deque_items, hr, hitems, List.tail_cons,
        List.count_cons]
      rw [hr] at hpoint
      unfold single at hpoint
      by_cases hf : f = f'
      · rw [if_pos ⟨rfl, hf.symm⟩] at hpoint
        simp only [hf, beq_self_eq_true, if_true]
        lia
      · rw [if_neg (fun h => hf h.right.symm)] at hpoint
        simp only [beq_iff_eq, hf, if_false]
        lia
    · unfold single at hpoint
      rw [if_neg (fun h => hr h.left)] at hpoint
      rw [if_neg hr]
      lia
  · intro r f'
    rfl

variable [DecidableEq thread]

theorem ClientEdge.isEngaged_eq {n : Nat} {q p : ClientPc}
    (h : ClientEdge n q p) (r : Role) : p.isEngaged r = q.isEngaged r := by
  cases h with
  | call req => cases req <;> rfl
  | _ => rfl

theorem WorkerEdge.inHand_eq {n : Nat} {w w' : WorkerPc file}
    (h : WorkerEdge n w w') (r : Role) (f : file) :
    inHand w' r f = inHand w r f := by
  cases h <;> cases r <;> rfl

theorem engaged_goto (fileOf : thread -> file) (s : State thread file)
    (t : thread) (p : ClientPc) (r : Role) (f : file) :
    engaged fileOf (s.goto t p) r f + waiting fileOf r f t (s.pc t) =
      engaged fileOf s r f + waiting fileOf r f t p :=
  total_update (waiting fileOf r f) s.pc t p

theorem ticketChange_goto {t : thread} {p : ClientPc}
    (hitems : u.books.items = s.books.items) (hworker : u.worker = s.worker)
    (hdone : u.completion = s.completion) (hpcs : u.pc = s.pc)
    (hwait : forall r, p.isEngaged r = (s.pc t).isEngaged r) :
    TicketChange fileOf s a (u.goto t p) := by
  apply TicketChange.same
  · intro r f
    have hqueue : (u.g.queue r).items = (s.g.queue r).items := congrFun hitems r
    show (u.g.queue r).items.count f + inHand u.worker r f +
      (u.completion f).count r = held s r f
    rw [hqueue, hworker, hdone]
    rfl
  · intro r f
    have hmove := engaged_goto fileOf u t p r f
    have hsame : engaged fileOf u r f = engaged fileOf s r f := by
      unfold engaged
      rw [hpcs]
    have hpoint : waiting fileOf r f t p = waiting fileOf r f t (u.pc t) := by
      unfold waiting
      rw [hwait, hpcs]
    lia

theorem ticketChange_enq {t : thread} {req : Request}
    (hpc : s.pc t = .enq req) :
    TicketChange fileOf s (.client t)
      ((enqueueClient fileOf s t req).goto t (.unlockQ req)) := by
  have hengaged : forall r f,
      engaged fileOf ((enqueueClient fileOf s t req).goto t (.unlockQ req)) r f =
        engaged fileOf s r f + single req.role (fileOf t) r f := by
    intro r f
    have hmove := engaged_goto fileOf (enqueueClient fileOf s t req) t
      (.unlockQ req) r f
    have hsame : engaged fileOf (enqueueClient fileOf s t req) r f =
        engaged fileOf s r f := rfl
    have hold : waiting fileOf r f t ((enqueueClient fileOf s t req).pc t) = 0 := by
      show waiting fileOf r f t (s.pc t) = 0
      simp [waiting, hpc, ClientPc.isEngaged]
    have hnew : waiting fileOf r f t (.unlockQ req) =
        single req.role (fileOf t) r f := by
      simp [waiting, single, ClientPc.isEngaged, eq_comm, and_comm]
    lia
  have hitems : forall r,
      (((enqueueClient fileOf s t req).goto t (.unlockQ req)).g.queue r).items =
        if r = req.role then
          ((s.g.queue req.role).enqueue (fileOf t)).items
        else (s.g.queue r).items := fun r => items_setQueue s.g req.role r _
  by_cases hroom : (s.g.queue req.role).items.length < qDefaultSize
  · refine TicketChange.accepted t req rfl hpc ?_ hengaged
    intro r f
    unfold held
    rw [hitems, KernelQueue.enqueue_items, if_pos hroom]
    show _ + inHand s.worker r f + (s.completion f).count r = _
    by_cases hr : r = req.role
    · rw [if_pos hr, hr, List.count_append, List.count_singleton]
      by_cases hf : fileOf t = f
      · simp [single, hf]
        lia
      · simp [single, hf, Ne.symm hf]
    · simp [single, hr]
  · refine TicketChange.refused t req rfl hpc hroom ?_ hengaged
    intro r f
    unfold held
    rw [hitems, KernelQueue.enqueue_items, if_neg hroom]
    show _ + inHand s.worker r f + (s.completion f).count r = _
    by_cases hr : r = req.role
    · rw [if_pos hr, hr]
    · rw [if_neg hr]

theorem isEngaged_afterWait (req : Request) (r : Role) :
    (afterWait req).isEngaged r = false := by
  cases req with
  | write op => cases op <;> rfl
  | subscribe => rfl

theorem isEngaged_afterApply (op : WriterOp) (r : Role) :
    (afterApply op).isEngaged r = false := by
  cases op <;> rfl

theorem ticketChange_wait {t : thread} {req : Request} {issued : Role}
    {rest : List Role} (hpc : s.pc t = .wait req)
    (hdone : s.completion (fileOf t) = issued :: rest) :
    TicketChange fileOf s (.client t)
      (({ s with
        completion := Function.update s.completion (fileOf t) rest
        wakes := (req.role, issued) :: s.wakes } :
          State thread file).goto t (afterWait req)) := by
  refine TicketChange.returned t req issued hpc rfl ?_ ?_
  · intro r f
    show (s.g.queue r).items.count f + inHand s.worker r f +
      (Function.update s.completion (fileOf t) rest f).count r +
        single issued (fileOf t) r f = held s r f
    unfold held
    by_cases hf : f = fileOf t
    · rw [hf, Function.update_self, hdone, List.count_cons]
      by_cases hr : issued = r
      · simp [single, hr]
        lia
      · simp [single, hr, Ne.symm hr]
    · simp [single, hf]
  · intro r f
    have hmove := engaged_goto fileOf
      ({ s with
        completion := Function.update s.completion (fileOf t) rest
        wakes := (req.role, issued) :: s.wakes } : State thread file)
      t (afterWait req) r f
    have hnew : waiting fileOf r f t (afterWait req) = 0 := by
      simp [waiting, isEngaged_afterWait]
    have hold : waiting fileOf r f t (s.pc t) =
        single req.role (fileOf t) r f := by
      simp [waiting, single, hpc, ClientPc.isEngaged, eq_comm, and_comm]
    have hsame : engaged fileOf ({ s with
        completion := Function.update s.completion (fileOf t) rest
        wakes := (req.role, issued) :: s.wakes } : State thread file) r f =
        engaged fileOf s r f := rfl
    change _ + waiting fileOf r f t (s.pc t) = _ at hmove
    lia

theorem ticketChange_of_move (h : Move fileOf s a u) :
    TicketChange fileOf s a u := by
  cases effect_of_move h with
  | quiet hsignals hbooks hpcs hedge hsection =>
      exact ticketChange_goto (congrArg Books.items hbooks)
        (congrArg Signals.worker hsignals)
        (congrArg Signals.completion hsignals) hpcs hedge.isEngaged_eq
  | giveUpGrant hpc =>
      exact ticketChange_goto rfl rfl rfl rfl (fun r => by rw [hpc]; rfl)
  | enq hpc => exact ticketChange_enq hpc
  | wait hpc hdone => exact ticketChange_wait hpc hdone
  | apply hpc =>
      refine ticketChange_goto rfl rfl rfl rfl ?_
      intro r
      rw [hpc, isEngaged_afterApply]
      rfl
  | handBack hpc =>
      exact ticketChange_goto rfl rfl rfl rfl (fun r => by rw [hpc]; rfl)
  | signal hpc =>
      exact ticketChange_goto rfl rfl rfl rfl (fun r => by rw [hpc]; rfl)
  | decStore hpc =>
      exact ticketChange_goto rfl rfl rfl rfl (fun r => by rw [hpc]; rfl)
  | moveOn hsignals hbooks hpcs hcs hedge =>
      rename_i w
      have hworker : u.worker = w := congrArg Signals.worker hsignals
      refine ticketChange_worker (congrArg Books.items hbooks) ?_
        (congrArg Signals.completion hsignals) hpcs
      intro r f
      rw [hworker]
      exact hedge.inHand_eq r f
  | dequeWriter hw hitems =>
      refine ticketChange_deque hitems ?_
      intro r f
      rw [hw]
      cases r <;> simp [inHand, single, eq_comm]
  | dequeGrant hw hitems =>
      refine ticketChange_deque hitems ?_
      intro r f
      rw [hw]
      cases r <;> simp [inHand, single, eq_comm]
  | completeWriter hw =>
      refine ticketChange_complete ?_
      intro r f
      rw [hw]
      cases r <;> simp [inHand, single, eq_comm]
  | completeGrant hw hnext =>
      refine ticketChange_complete ?_
      intro r f
      rw [hw]
      rcases hnext with ⟨_, hnext⟩ | ⟨_, hnext⟩ <;> rw [hnext] <;>
        cases r <;> simp [inHand, single, eq_comm]
  | signalled hw hdone =>
      refine ticketChange_worker rfl ?_ rfl rfl
      intro r f
      rcases hw with ⟨hw, hnext⟩ | ⟨hw, hnext⟩ <;> rw [hw, hnext] <;>
        cases r <;> rfl
  | countReaders hw =>
      refine ticketChange_worker rfl ?_ rfl rfl
      intro r f
      rw [hw]
      cases r <;> rfl

end Changes

/-!
## The ticket invariant

While the roles are kept apart on every file, no more tickets are out than
clients wait for them, so a client only returns on a completion of its role.
-/

structure Ticketed [Fintype thread]
    (fileOf : thread -> file) (s : State thread file) :
    Prop where
  covered : forall r f, held s r f ≤ engaged fileOf s r f
  separate : forall f,
    engaged fileOf s .reader f = 0 ∨ engaged fileOf s .writer f = 0

section Invariant

variable [Fintype thread]
variable {fileOf : thread -> file} {s s' : State thread file}
variable {a : Action thread}

theorem engaged_eq_zero_iff {r : Role} {f : file} :
    engaged fileOf s r f = 0 <->
      forall t, fileOf t = f -> (s.pc t).isEngaged r = false := by
  unfold engaged
  rw [total_eq_zero_iff]
  constructor
  · intro h t hfile
    have ht := h t
    unfold waiting at ht
    cases heng : (s.pc t).isEngaged r with
    | false => rfl
    | true =>
        rw [if_pos ⟨hfile, heng⟩] at ht
        cases ht
  · intro h t
    unfold waiting
    rw [if_neg]
    intro hboth
    rw [h t hboth.left] at hboth
    cases hboth.right

theorem engaged_pos {r : Role} {t : thread}
    (h : (s.pc t).isEngaged r = true) : 0 < engaged fileOf s r (fileOf t) := by
  unfold engaged
  rw [total_pos_iff]
  refine ⟨t, ?_⟩
  unfold waiting
  rw [if_pos ⟨rfl, h⟩]
  exact Nat.one_pos

theorem exists_engaged {r : Role} {f : file}
    (h : 0 < engaged fileOf s r f) :
    exists t, fileOf t = f ∧ (s.pc t).isEngaged r = true := by
  by_contra hnone
  have hzero : engaged fileOf s r f = 0 := by
    rw [engaged_eq_zero_iff]
    intro t hfile
    cases heng : (s.pc t).isEngaged r with
    | false => rfl
    | true => exact absurd ⟨t, hfile, heng⟩ hnone
  lia

theorem role_eq_of_held (h : Ticketed fileOf s) {r issued : Role} {f : file}
    (hwaits : 0 < engaged fileOf s r f) (hheld : 0 < held s issued f) :
    issued = r := by
  have hcovered := h.covered issued f
  have hseparate := h.separate f
  cases issued with
  | reader =>
      cases r with
      | reader => rfl
      | writer => lia
  | writer =>
      cases r with
      | reader => lia
      | writer => rfl

theorem ticketed_init :
    Ticketed fileOf (State.init : State thread file) where
  covered := fun r f => by cases r <;> exact Nat.zero_le _
  separate := by
    intro f
    left
    rw [engaged_eq_zero_iff]
    intro t _
    rfl

variable [DecidableEq thread]

theorem separate_enq {t : thread} {req : Request} (h : Ticketed fileOf s)
    (hsep : SeparateRoles fileOf s (.client t)) (hpc : s.pc t = .enq req)
    (hengaged : forall r f, engaged fileOf s' r f =
      engaged fileOf s r f + single req.role (fileOf t) r f) (f : file) :
    engaged fileOf s' .reader f = 0 ∨ engaged fileOf s' .writer f = 0 := by
  have hreader := hengaged .reader f
  have hwriter := hengaged .writer f
  have hold := h.separate f
  have henq : (s.pc t).isEnqueuing req.role = true := by
    rw [hpc]
    simp [ClientPc.isEnqueuing]
  have hother : engaged fileOf s req.role.other (fileOf t) = 0 := by
    rw [engaged_eq_zero_iff]
    intro t' hfile
    exact hsep t req.role (by simp [Action.isClient]) henq t' hfile
  unfold single at hreader hwriter
  by_cases hf : f = fileOf t
  · rw [← hf] at hother
    cases hrole : req.role with
    | reader =>
        rw [hrole] at hother hwriter
        simp [Role.other] at hother hwriter
        lia
    | writer =>
        rw [hrole] at hother hreader
        simp [Role.other] at hother hreader
        lia
  · simp [hf] at hreader hwriter
    lia

theorem ticketed_step (h : Ticketed fileOf s)
    (hsep : SeparateRoles fileOf s a) (hmove : Move fileOf s a s') :
    Ticketed fileOf s' := by
  cases ticketChange_of_move hmove with
  | same hheld hengaged =>
      constructor
      · intro r f
        rw [hheld, hengaged]
        exact h.covered r f
      · intro f
        rw [hengaged, hengaged]
        exact h.separate f
  | accepted t req hact hpc hheld hengaged =>
      rw [hact] at hsep
      constructor
      · intro r f
        have hcovered := h.covered r f
        rw [hheld, hengaged]
        lia
      · exact separate_enq h hsep hpc hengaged
  | refused t req hact hpc hfull hheld hengaged =>
      rw [hact] at hsep
      constructor
      · intro r f
        have hcovered := h.covered r f
        rw [hheld, hengaged]
        lia
      · exact separate_enq h hsep hpc hengaged
  | returned t req issued hpc hwakes hheld hengaged =>
      have hwaits : 0 < engaged fileOf s req.role (fileOf t) := by
        apply engaged_pos
        rw [hpc]
        simp [ClientPc.isEngaged]
      have hissued : 0 < held s issued (fileOf t) := by
        have hpoint := hheld issued (fileOf t)
        simp only [single, and_self, if_true] at hpoint
        lia
      have hrole : issued = req.role := role_eq_of_held h hwaits hissued
      rw [hrole] at hheld
      constructor
      · intro r f
        have hcovered := h.covered r f
        have hheldPoint := hheld r f
        have hengagedPoint := hengaged r f
        lia
      · intro f
        have hreader := hengaged .reader f
        have hwriter := hengaged .writer f
        have hold := h.separate f
        lia

theorem held_eq_engaged_step (h : Ticketed fileOf s)
    (heq : forall r f, held s r f = engaged fileOf s r f)
    (hroom : RoomyEnqueue s a) (hmove : Move fileOf s a s') (r : Role)
    (f : file) : held s' r f = engaged fileOf s' r f := by
  have hpoint := heq r f
  cases ticketChange_of_move hmove with
  | same hheld hengaged => rw [hheld, hengaged, hpoint]
  | accepted t req hact hpc hheld hengaged => rw [hheld, hengaged, hpoint]
  | refused t req hact hpc hfull hheld hengaged =>
      have hnotFull := hroom t req.role (by rw [hact]; simp [Action.isClient])
        (by rw [hpc]; simp [ClientPc.isEnqueuing])
      exact absurd ((KernelQueue.isQueueFull_eq_false_iff _).mp hnotFull) hfull
  | returned t req issued hpc hwakes hheld hengaged =>
      have hwaits : 0 < engaged fileOf s req.role (fileOf t) := by
        apply engaged_pos
        rw [hpc]
        simp [ClientPc.isEngaged]
      have hissued : 0 < held s issued (fileOf t) := by
        have hone := hheld issued (fileOf t)
        simp only [single, and_self, if_true] at hone
        lia
      have hrole : issued = req.role := role_eq_of_held h hwaits hissued
      have hheldPoint := hheld r f
      have hengagedPoint := hengaged r f
      rw [hrole] at hheldPoint
      lia

end Invariant

/-!
## No stranded client

A client blocked on its completion is stored in the queue of its role, or in
the worker's hand, or has a completion pending.  `enqueue` refuses a client
when `Q_DEFAULT_SIZE` kernel threads are stored, and no caller looks at its
result: such a client waits for a completion nobody will issue.
-/

def NoneStranded (fileOf : thread -> file) (s : State thread file) : Prop :=
  forall t req, s.pc t = .wait req ->
    (exists slot, (s.g.queue req.role).ring.elem slot = some (fileOf t)) ∨
      0 < inHand s.worker req.role (fileOf t) ∨
      s.completion (fileOf t) ≠ []

section Stranded

variable [DecidableEq thread] [Fintype thread]
variable {fileOf : thread -> file} {s : State thread file}

theorem ticketed_and_matched_of_reachable
    (hfile : Function.Injective fileOf)
    (h : Transition.Reachable (step fileOf) RoomyEnqueue State.init s) :
    Ticketed fileOf s ∧ forall r f, held s r f = engaged fileOf s r f := by
  refine Transition.reachable_invariant (fun s =>
    Ticketed fileOf s ∧ forall r f, held s r f = engaged fileOf s r f) ?_ ?_ h
  · refine ⟨ticketed_init, ?_⟩
    intro r f
    have hzero : engaged fileOf (State.init : State thread file) r f = 0 := by
      rw [engaged_eq_zero_iff]
      intro t _
      rfl
    rw [hzero]
    cases r <;> rfl
  · intro s a s' hinv hroom hstep
    have hmove := move_of_step hstep
    have hsep := separateRoles_of_injective hfile s a
    exact ⟨ticketed_step hinv.left hsep hmove,
      held_eq_engaged_step hinv.left hinv.right hroom hmove⟩

/-- With an open file of its own no client is stranded in a run in which every
`enqueue` finds room, whatever waits are interrupted. -/
theorem noneStranded_of_roomyEnqueue (hfile : Function.Injective fileOf)
    (h : Transition.Reachable (step fileOf) RoomyEnqueue State.init s) :
    NoneStranded fileOf s := by
  rcases ticketed_and_matched_of_reachable hfile h with ⟨_, hmatched⟩
  intro t req hpc
  have hwaits : 0 < engaged fileOf s req.role (fileOf t) := by
    apply engaged_pos
    rw [hpc]
    simp [ClientPc.isEngaged]
  rw [← hmatched] at hwaits
  unfold held at hwaits
  by_cases hstored : fileOf t ∈ (s.g.queue req.role).items
  · left
    exact (KernelQueue.mem_items_iff _ _).mp hstored
  · have hnone := List.count_eq_zero.mpr hstored
    by_cases hhand : 0 < inHand s.worker req.role (fileOf t)
    · right
      left
      exact hhand
    · right
      right
      intro hempty
      rw [hempty, List.count_nil] at hwaits
      lia

end Stranded

def purgesUntilWait (n : Nat) : List (Action (Fin 51)) :=
  ((List.finRange 51).take n).flatMap fun t =>
    .call t (.write .purge) :: List.replicate 3 (.client t)

theorem noneStranded_two_purges :
    exists s : State (Fin 51) (Fin 51),
      (s.worker = .unlockWriterQ 0 ∧ s.pc 1 = .wait (.write .purge)) ∧
        NoneStranded id s := by
  have hrun : exists s : State (Fin 51) (Fin 51),
      Transition.Reachable (step id) RoomyEnqueue State.init s ∧
        (decide (s.worker = .unlockWriterQ 0 ∧
          s.pc 1 = .wait (.write .purge))) = true :=
    Transition.exists_reachable_of_schedule
      (purgesUntilWait 2 ++ List.replicate 3 (.worker true)) _
      (by decide +kernel)
  rcases hrun with ⟨s, hreach, hplaces⟩
  exact ⟨s, of_decide_eq_true hplaces,
    noneStranded_of_roomyEnqueue Function.injective_id hreach⟩

/-- The 51st of 51 purges is refused by the full queue and waits in vain. -/
theorem exists_stranded_client :
    exists s : State (Fin 51) (Fin 51),
      Transition.Reachable (step id) NoInterrupt State.init s ∧
        ¬ NoneStranded id s := by
  have hrun : exists s : State (Fin 51) (Fin 51),
      Transition.Reachable (step id) NoInterrupt State.init s ∧
        (decide (s.worker = .waitWriter ∧ s.pc 50 = .wait (.write .purge) ∧
          50 ∉ (s.g.queue .writer).items ∧ s.completion 50 = [])) = true :=
    Transition.exists_reachable_of_schedule (purgesUntilWait 51) _
      (by decide +kernel)
  rcases hrun with ⟨s, hreach, htest⟩
  rcases of_decide_eq_true htest with ⟨hworker, hpc, hitems, hdone⟩
  refine ⟨s, hreach, ?_⟩
  intro hnone
  rcases hnone 50 (.write .purge) hpc with hstored | hhand | hpending
  · exact hitems ((KernelQueue.mem_items_iff _ _).mpr hstored)
  · rw [hworker] at hhand
    cases hhand
  · exact hpending hdone

end Ioctl
end RIBDriver
