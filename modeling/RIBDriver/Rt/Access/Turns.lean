import RIBDriver.Rt.Access.Shared

/-!
# The scheduler beside an open batch

The change list, the cached vector and its count belong to both paths, and
neither looks whether the other is at work.  They leave each other alone if
they take turns: the scheduler is set in motion only when no batch is open, and
reads and writes begin only when the scheduler is at rest.
-/

namespace RIBDriver

def Poll.Event.writes {file : Type _} (u : Nat) : Poll.Event file -> Bool
  | .wrote src _ => src = u
  | _ => false

namespace Ioctl

def ClientPc.isSubscriber : ClientPc -> Bool
  | .lockQ req | .enq req | .unlockQ req | .wait req => req.role = .reader
  | .clamp | .copy | .downCs | .test | .cleanUp | .signal | .decLoad _
  | .decStore _ _ | .upCs => true
  | _ => false

/-- Outside the driver or in a subscription that is not yet granted. -/
def ClientPc.isParked : ClientPc -> Bool
  | .user | .clamp => true
  | .lockQ req | .enq req | .unlockQ req | .wait req => req.role = .reader
  | _ => false

end Ioctl

namespace Access
namespace Shared

section Definitions

variable {client reader file : Type _}

def Written (s : State client reader file) (u : Nat) : Prop :=
  exists event, event ∈ s.readers.log ∧ event.writes u = true

/-- Some registered file has not read the update, which `rt_write` put on the
change list. -/
def Awaited [DecidableEq file] (s : State client reader file) (u : Nat) : Prop :=
  u ∈ s.table.pending ∧ Written s u ∧
    exists f, f ∈ s.readers.readers ∧ ¬ Poll.Delivered s.readers.log f u

def OfReaders (s : State client reader file) :
    Action client reader file -> Prop
  | .ioctl (.call _ req) => req.role = .reader
  | .ioctl (.client t) => (s.ioctl.pc t).isSubscriber = true
  | .ioctl (.interrupt t) => (s.ioctl.pc t).isSubscriber = true
  | .ioctl (.worker _) => True
  | .readers _ => False

structure LeavesBatch [DecidableEq file] (s u : State client reader file) :
    Prop where
  kept : forall a, Awaited s a -> a ∈ u.table.pending
  vector : s.readers.black ≠ [] ->
    u.readers.pointer = s.readers.pointer ∧
      u.g.rtUpdateVector = s.g.rtUpdateVector ∧
        u.g.rtUpdateVectorCount = s.g.rtUpdateVectorCount

/-- A step of the worker or of a subscriber leaves the batch alone. -/
def Considerate [DecidableEq client] [DecidableEq reader] [DecidableEq file]
    [Fintype reader] (fileOf : client -> file) (s : State client reader file)
    (a : Action client reader file) : Prop :=
  OfReaders s a -> forall u, step fileOf s a = some u -> LeavesBatch s u

/-- No writer is queued or served, and no subscriber is granted. -/
structure Resting (fileOf : client -> file) (s : State client reader file) :
    Prop where
  worker : s.ioctl.worker = .waitWriter
  queue : (s.ioctl.g.queue .writer).items = []
  parked : forall t, (s.ioctl.pc t).isParked = true
  start : forall t, s.sub t = .start
  completion : forall t, s.ioctl.completion (fileOf t) = []

/-- Nothing is pending, nobody is on the blacklist and no `rt_read` or
`rt_write` is under way. -/
structure Closed (s : State client reader file) : Prop where
  black : s.readers.black = []
  still : forall t, (s.readers.pc t).isTransferring = false
  pending : s.table.pending = []

/-- The first writer finds no batch open, and a subscriber that comes before it
finds the count within the limit or no batch open.  Reads and writes begin only
when the scheduler is at rest. -/
def Turns (fileOf : client -> file) (s : State client reader file) :
    Action client reader file -> Prop
  | .ioctl (.call _ req) =>
      req.role = .writer -> Resting fileOf s -> Closed s
  | .ioctl (.client t) =>
      s.ioctl.pc t = .clamp -> Resting fileOf s ->
        s.g.rtUpdateVectorCount ≤ rtMaxEntriesFetch ∨ Closed s
  | .readers (.read _ _ _) => Resting fileOf s
  | .readers (.write _ _ _) => Resting fileOf s
  | _ => True

end Definitions

section Decidability

variable {client reader file : Type _} [DecidableEq file]
variable (s : State client reader file)

instance (log : List (Poll.Event file)) (f : file) (u : Nat) :
    Decidable (Poll.Delivered log f u) :=
  inferInstanceAs (Decidable (exists event, event ∈ log ∧
    Poll.delivers f u event = true))

instance (u : Nat) : Decidable (Awaited s u) :=
  inferInstanceAs (Decidable (_ ∧ (exists event, event ∈ s.readers.log ∧ _) ∧ _))

instance (a : Action client reader file) : Decidable (OfReaders s a) :=
  match a with
  | .ioctl (.call _ req) => inferInstanceAs (Decidable (req.role = .reader))
  | .ioctl (.client t) =>
      inferInstanceAs (Decidable ((s.ioctl.pc t).isSubscriber = true))
  | .ioctl (.interrupt t) =>
      inferInstanceAs (Decidable ((s.ioctl.pc t).isSubscriber = true))
  | .ioctl (.worker _) => isTrue trivial
  | .readers _ => isFalse id

instance [Fintype client] (fileOf : client -> file) :
    Decidable (Resting fileOf s) :=
  decidable_of_iff (s.ioctl.worker = .waitWriter ∧
      (s.ioctl.g.queue .writer).items = [] ∧
        (forall t, (s.ioctl.pc t).isParked = true) ∧
          (forall t, s.sub t = .start) ∧
            forall t, s.ioctl.completion (fileOf t) = [])
    ⟨fun h => ⟨h.1, h.2.1, h.2.2.1, h.2.2.2.1, h.2.2.2.2⟩,
      fun h => ⟨h.worker, h.queue, h.parked, h.start, h.completion⟩⟩

instance [Fintype reader] : Decidable (Closed s) :=
  decidable_of_iff (s.readers.black = [] ∧
      (forall t, (s.readers.pc t).isTransferring = false) ∧
        s.table.pending = [])
    ⟨fun h => ⟨h.1, h.2.1, h.2.2⟩, fun h => ⟨h.black, h.still, h.pending⟩⟩

instance [Fintype client] [Fintype reader] (fileOf : client -> file)
    (a : Action client reader file) : Decidable (Turns fileOf s a) :=
  match a with
  | .ioctl (.call _ req) =>
      inferInstanceAs (Decidable (req.role = .writer ->
        Resting fileOf s -> Closed s))
  | .ioctl (.client t) =>
      inferInstanceAs (Decidable (s.ioctl.pc t = .clamp ->
        Resting fileOf s ->
          s.g.rtUpdateVectorCount ≤ rtMaxEntriesFetch ∨ Closed s))
  | .ioctl (.interrupt _) | .ioctl (.worker _) => isTrue trivial
  | .readers (.read _ _ _) | .readers (.write _ _ _) =>
      inferInstanceAs (Decidable (Resting fileOf s))
  | .readers (.poll _ _ _ _) | .readers (.next _ _) | .readers (.load _ _)
  | .readers (.interrupt _) => isTrue trivial

end Decidability

/-!
## What a step of the scheduler may touch
-/

section Tables

variable {file : Type _}

structure Grows (t t' : RtTable file) : Prop where
  next : t.next ≤ t'.next
  pending : forall a, a ∈ t'.pending -> a ∈ t.pending ∨ a = t.next

theorem Grows.refl (t : RtTable file) : Grows t t :=
  ⟨Nat.le_refl _, fun _ ha => Or.inl ha⟩

theorem Grows.empty (t : RtTable file) : Grows t t.rtEmptyChangeList :=
  ⟨Nat.le_refl _, fun _ ha => by cases ha⟩

theorem Grows.add (t : RtTable file) (entry : RtEntry) :
    Grows t (t.addRtTableEntryByVal entry) := by
  refine ⟨Nat.le_succ _, ?_⟩
  intro a ha
  rw [RtTable.pending_add] at ha
  rcases List.mem_cons.mp ha with hnew | hold
  · exact Or.inr hnew
  · exact Or.inl hold

theorem Grows.perform (t : RtTable file) (op : Ioctl.WriterOp) :
    Grows t (op.perform t) := by
  cases op with
  | update msg =>
      show Grows t (t.applyRtUpdates msg)
      unfold RtTable.applyRtUpdates
      split
      · exact Grows.add t msg.entry
      · exact Grows.refl t
  | create entry => exact Grows.add t entry
  | purge => exact ⟨Nat.le_refl _, fun _ ha => Or.inl ha⟩

end Tables

section Scheduler

variable {client reader file : Type _}
variable [DecidableEq client] [DecidableEq file]
variable {fileOf : client -> file} {s u : State client reader file}
variable {a : Ioctl.Action client}

theorem black_of_ioctlMove {i w : Ioctl.State client file}
    (hmove : Ioctl.Move fileOf i a w) :
    w.g.blackListedPollReadersList = i.g.blackListedPollReadersList := by
  cases hmove with
  | clamp hpc =>
      show (Globals.clampUpdateVectorCount i.g).blackListedPollReadersList = _
      unfold Globals.clampUpdateVectorCount
      split <;> rfl
  | snapshot hw =>
      show (Globals.refreshUpdateVector i.g _).blackListedPollReadersList = _
      unfold Globals.refreshUpdateVector
      split <;> rfl
  | _ => rfl

theorem grows_of_ioctlMove {i w : Ioctl.State client file}
    (hmove : Ioctl.Move fileOf i a w) : Grows i.g.table w.g.table := by
  cases Ioctl.tableChange_of_move hmove with
  | same htable hdone =>
      rw [htable]
      exact Grows.refl _
  | performed t op hact hpc htable hdone =>
      rw [htable]
      exact Grows.perform _ op
  | emptied htable hdone =>
      rw [htable]
      exact Grows.empty _

structure Beside (s u : State client reader file) : Prop where
  black : u.readers.black = s.readers.black
  pc : u.readers.pc = s.readers.pc
  log : u.readers.log = s.readers.log
  grows : Grows s.table u.table

theorem beside_of_ioctlMove (hmove : IoctlMove fileOf s a u) : Beside s u := by
  have hblack : s.readers.black = s.g.blackListedPollReadersList :=
    congrArg Globals.blackListedPollReadersList s.shared
  have htable : s.readers.g.table = s.table := congrArg Globals.table s.shared
  cases hmove with
  | plain hplain hmove =>
      exact ⟨(black_of_ioctlMove hmove).trans hblack.symm, rfl, rfl,
        grows_of_ioctlMove hmove⟩
  | endCopy hpc hmove =>
      exact ⟨(black_of_ioctlMove hmove).trans hblack.symm, rfl, rfl,
        grows_of_ioctlMove hmove⟩
  | publish hw hstoring hpublish =>
      cases hpublish with
      | missing | live =>
          refine ⟨rfl, rfl, rfl, ?_⟩
          show Grows s.table s.readers.g.table
          rw [htable]
          exact Grows.refl _
  | emptyList hpc =>
      refine ⟨rfl, rfl, rfl, ?_⟩
      show Grows s.table s.readers.g.table.rtEmptyChangeList
      rw [htable]
      exact Grows.empty _
  | storeCount hw hstoring | clamp hpc hsub | resetCount hpc | free hpc
  | resetPointer hpc =>
      refine ⟨rfl, rfl, rfl, ?_⟩
      show Grows s.table s.readers.g.table
      rw [htable]
      exact Grows.refl _
  | countOver hpc hover | countFits hpc | beginCopy hpc =>
      exact ⟨rfl, rfl, rfl, Grows.refl _⟩

end Scheduler

/-!
## The scheduler at rest
-/

section Rest

variable {client reader file : Type _}
variable {fileOf : client -> file} {s u : State client reader file}

theorem Resting.not_at (h : Resting fileOf s) {t : client} {p : Ioctl.ClientPc}
    (hpc : s.ioctl.pc t = p) (hp : p.isParked = false) : False := by
  have hparked := h.parked t
  rw [hpc, hp] at hparked
  cases hparked

theorem Resting.not_worker_at (h : Resting fileOf s) {w : Ioctl.WorkerPc file}
    (hw : s.ioctl.worker = w) (hne : w ≠ .waitWriter) : False :=
  hne (hw.symm.trans h.worker)

theorem Resting.reader_at (h : Resting fileOf s) {t : client}
    {req : Ioctl.Request} {p : Ioctl.ClientPc} (hpc : s.ioctl.pc t = p)
    (hp : p.isParked = decide (req.role = .reader)) : req.role = .reader := by
  have hparked := h.parked t
  rw [hpc, hp] at hparked
  exact of_decide_eq_true hparked

theorem items_setQueue_reader {g : Globals file} {role : Role}
    {q : KernelQueue file} (hrole : role = .reader) :
    ((g.setQueue role q).queue .writer).items = (g.queue .writer).items := by
  rw [hrole]
  rfl

theorem leavesBatch_of_same [DecidableEq file] (htable : u.table = s.table)
    (hpointer : u.readers.pointer = s.readers.pointer)
    (hvector : u.g.rtUpdateVector = s.g.rtUpdateVector)
    (hcount : u.g.rtUpdateVectorCount = s.g.rtUpdateVectorCount) :
    LeavesBatch s u := by
  constructor
  · intro a ha
    rw [htable]
    exact ha.left
  · intro _
    exact ⟨hpointer, hvector, hcount⟩

variable [DecidableEq client]

theorem resting_goto {t : client} {p : Ioctl.ClientPc} (h : Resting fileOf s)
    (hp : p.isParked = true)
    (hpc : u.ioctl.pc = Function.update s.ioctl.pc t p)
    (hqueue : (u.ioctl.g.queue .writer).items =
      (s.ioctl.g.queue .writer).items)
    (hworker : u.ioctl.worker = s.ioctl.worker)
    (hcompletion : u.ioctl.completion = s.ioctl.completion)
    (hsub : u.sub = s.sub) : Resting fileOf u := by
  constructor
  · rw [hworker]
    exact h.worker
  · rw [hqueue]
    exact h.queue
  · intro w
    rw [hpc, Function.update_apply]
    split
    · exact hp
    · exact h.parked w
  · rw [hsub]
    exact h.start
  · rw [hcompletion]
    exact h.completion

variable [DecidableEq file] {a : Ioctl.Action client}

/-- At rest no step touches the shared data, and only a writer's call or a
subscriber over the limit sets the scheduler in motion. -/
theorem leavesBatch_of_resting (h : Resting fileOf s)
    (hmove : IoctlMove fileOf s a u) :
    LeavesBatch s u ∧
      (Resting fileOf u ∨
        (exists t req, a = .call t req ∧ req.role = .writer) ∨
          exists t, a = .client t ∧ s.ioctl.pc t = .clamp ∧
            rtMaxEntriesFetch < s.g.rtUpdateVectorCount) := by
  cases hmove with
  | countOver hpc hover =>
      refine ⟨leavesBatch_of_same rfl rfl rfl rfl, ?_⟩
      exact Or.inr (Or.inr ⟨_, rfl, hpc, hover⟩)
  | @countFits t hpc =>
      refine ⟨leavesBatch_of_same rfl rfl rfl rfl, Or.inl ?_⟩
      exact resting_goto (t := t) (p := .lockQ .subscribe) h rfl rfl rfl rfl
        rfl rfl
  | publish hw hstoring hpublish | storeCount hw hstoring =>
      exact (h.not_worker_at hw (fun hsame => by cases hsame)).elim
  | @clamp t hpc hsub =>
      rw [h.start t] at hsub
      cases hsub
  | beginCopy hpc | endCopy hpc hmove | resetCount hpc | emptyList hpc
  | free hpc | resetPointer hpc => exact (h.not_at hpc rfl).elim
  | plain hplain hmove =>
      cases hmove with
      | @call t req hpc =>
          refine ⟨leavesBatch_of_same rfl rfl rfl rfl, ?_⟩
          cases req with
          | write op => exact Or.inr (Or.inl ⟨t, .write op, rfl, rfl⟩)
          | subscribe =>
              exact Or.inl (resting_goto (t := t) h rfl rfl rfl rfl rfl rfl)
      | @interruptLockQ t req hpc =>
          refine ⟨leavesBatch_of_same rfl rfl rfl rfl, Or.inl ?_⟩
          exact resting_goto (t := t) (p := .user) h rfl rfl rfl rfl rfl rfl
      | @lockQ t req hpc hsem =>
          have hrole : req.role = .reader := h.reader_at hpc rfl
          refine ⟨leavesBatch_of_same rfl rfl rfl rfl, Or.inl ?_⟩
          exact resting_goto (t := t) (p := .enq req) h
            (decide_eq_true hrole) rfl (items_setQueue_reader hrole) rfl rfl
            rfl
      | @enq t req hpc =>
          have hrole : req.role = .reader := h.reader_at hpc rfl
          refine ⟨leavesBatch_of_same rfl rfl rfl rfl, Or.inl ?_⟩
          exact resting_goto (t := t) (p := .unlockQ req) h
            (decide_eq_true hrole) rfl (items_setQueue_reader hrole) rfl rfl
            rfl
      | @unlockQ t req hpc =>
          have hrole : req.role = .reader := h.reader_at hpc rfl
          refine ⟨leavesBatch_of_same rfl rfl rfl rfl, Or.inl ?_⟩
          exact resting_goto (t := t) (p := .wait req) h
            (decide_eq_true hrole) rfl (items_setQueue_reader hrole) rfl rfl
            rfl
      | wait hpc hdone =>
          rw [h.completion] at hdone
          cases hdone
      | clamp hpc => exact absurd hpc (hplain.clamp _ rfl)
      | waitWriter hw hitems => exact absurd h.queue hitems
      | interruptLockTable hpc | interruptDownCs hpc | lockTable hpc hsem
      | apply hpc | unlockTable hpc | handBack hpc | copy hpc
      | downCs hpc hsem | testLast hpc hone | testOther hpc hone
      | cleanUp hpc | signal hpc | decLoad hpc | decStore hpc | upCs hpc =>
          exact (h.not_at hpc rfl).elim
      | lockWriterQ hw hsem | dequeWriterNull hw hitems
      | dequeWriter hw hitems | unlockWriterQ hw | completeWriter hw
      | waitWriterDone hw hdone | lockReaderQ hw hsem | countReaders hw
      | unlockReaderQ hw | testNone hw hzero | testSome hw hzero
      | emptyChangeList hw | snapshot hw | loadNone hw hzero
      | loadSome hw hzero | lockGrant hw hsem | dequeGrant hw
      | unlockGrantNull hw | unlockGrant hw | completeGrantNext hw hlt
      | completeGrantLast hw hlt | waitReadersDone hw hdone =>
          exact (h.not_worker_at hw (fun hsame => by cases hsame)).elim

end Rest

/-!
## Turns
-/

section Quiet

variable {client reader file : Type _}
variable {fileOf : client -> file} {s u : State client reader file}

/-- Nobody is on the blacklist or in a read or a write, and no update of
`rt_write` is pending. -/
structure Quiet (s : State client reader file) : Prop where
  black : s.readers.black = []
  still : forall t, (s.readers.pc t).isTransferring = false
  pending : forall a, a ∈ s.table.pending -> ¬ Written s a

def Fresh (s : State client reader file) : Prop :=
  forall a, Written s a -> a < s.table.next

theorem quiet_of_closed (h : Closed s) : Quiet s where
  black := h.black
  still := h.still
  pending := by
    rw [h.pending]
    intro a ha
    cases ha

theorem written_congr (hlog : u.readers.log = s.readers.log) (a : Nat) :
    Written u a <-> Written s a := by
  unfold Written
  rw [hlog]

theorem fresh_of_beside (h : Fresh s) (hbeside : Beside s u) : Fresh u := by
  intro a ha
  have hlt := h a ((written_congr hbeside.log a).mp ha)
  exact Nat.lt_of_lt_of_le hlt hbeside.grows.next

theorem quiet_of_beside (hfresh : Fresh s) (h : Quiet s)
    (hbeside : Beside s u) : Quiet u where
  black := hbeside.black.trans h.black
  still := by
    rw [hbeside.pc]
    exact h.still
  pending := by
    intro a ha hwritten
    rw [written_congr hbeside.log] at hwritten
    rcases hbeside.grows.pending a ha with hold | hnew
    · exact h.pending a hold hwritten
    · have hlt := hfresh a hwritten
      lia

theorem leavesBatch_of_quiet [DecidableEq file] (h : Quiet s) :
    LeavesBatch s u := by
  constructor
  · intro a ha
    exact absurd ha.right.left (h.pending a ha.left)
  · intro hblack
    exact absurd h.black hblack

theorem Quiet.not_at (h : Quiet s) {t : reader} {pc : Pc file}
    (hpc : s.readers.pc t = pc) (hmoves : pc.isTransferring = true) :
    False := by
  have hstill := h.still t
  rw [hpc, hmoves] at hstill
  cases hstill

theorem quiet_goto [DecidableEq reader] {t : reader} {pc : Pc file}
    {q : Access.State reader file} (h : Quiet s)
    (hpc : q.pc = Function.update s.readers.pc t pc)
    (hstill : pc.isTransferring = false)
    (hblack : q.black = s.readers.black ∨ q.black = [])
    (htable : q.g.table.pending = s.readers.g.table.pending)
    (hlog : q.log = s.readers.log) : Quiet (s.withReaders q) := by
  constructor
  · show q.black = []
    rcases hblack with hsame | hnil
    · exact hsame.trans h.black
    · exact hnil
  · intro w
    show (q.pc w).isTransferring = false
    rw [hpc, Function.update_apply]
    split
    · exact hstill
    · exact h.still w
  · intro u hu
    rw [written_congr hlog]
    apply h.pending
    change u ∈ q.g.table.pending at hu
    rw [htable, s.shared] at hu
    exact hu

/-- The scheduler is at rest or the readers are. -/
structure Apart (fileOf : client -> file) (s : State client reader file) :
    Prop where
  fresh : Fresh s
  turn : Resting fileOf s ∨ Quiet s

theorem apart_init : Apart fileOf (State.init : State client reader file) := by
  constructor
  · intro a ha
    rcases ha with ⟨event, hmem, hwrites⟩
    cases hmem
  · right
    refine ⟨rfl, fun _ => rfl, ?_⟩
    intro a ha
    cases ha

theorem mem_of_addEvent {log : List (Poll.Event file)}
    {event other : Poll.Event file} {u : Nat}
    (hmem : event ∈ other :: log) (hwrites : event.writes u = true)
    (hother : other.writes u = false) : event ∈ log := by
  rcases List.mem_cons.mp hmem with hsame | hold
  · rw [hsame, hother] at hwrites
    cases hwrites
  · exact hold

variable [DecidableEq client] [DecidableEq file]

theorem apart_ioctl {a : Ioctl.Action client} (h : Apart fileOf s)
    (hturns : Turns fileOf s (.ioctl a)) (hmove : IoctlMove fileOf s a u) :
    Apart fileOf u := by
  have hbeside := beside_of_ioctlMove hmove
  refine ⟨fresh_of_beside h.fresh hbeside, ?_⟩
  have hclosed : Closed s -> Resting fileOf u ∨ Quiet u := fun hclosed =>
    Or.inr (quiet_of_beside h.fresh (quiet_of_closed hclosed) hbeside)
  rcases h.turn with hrest | hquiet
  · rcases (leavesBatch_of_resting hrest hmove).right with
      hstill | ⟨t, req, hact, hrole⟩ | ⟨t, hact, hpc, hover⟩
    · exact Or.inl hstill
    · rw [hact] at hturns
      exact hclosed (hturns hrole hrest)
    · rw [hact] at hturns
      rcases hturns hpc hrest with hle | hall
      · lia
      · exact hclosed hall
  · exact Or.inr (quiet_of_beside h.fresh hquiet hbeside)

end Quiet

/-!
## The readers' side
-/

section Readers

variable {client reader file : Type _} [DecidableEq reader] [DecidableEq file]
variable [Fintype reader] {fileOf : client -> file}
variable {s : State client reader file} {p q : Access.State reader file}
variable {a : Access.Action reader file}

theorem queue_of_move (hmove : Access.Move p a q) :
    q.g.queue = p.g.queue := by
  cases hmove with
  | endPoll hpc hends => cases hends <;> rfl
  | publish hpc hpublish => cases hpublish <;> rfl
  | _ => rfl

theorem resting_of_move (h : Resting fileOf s)
    (hmove : Access.Move s.readers a q) :
    Resting fileOf (s.withReaders q) := by
  refine ⟨h.worker, ?_, h.parked, h.start, h.completion⟩
  show (q.g.queue .writer).items = []
  rw [queue_of_move hmove, s.shared]
  exact h.queue

theorem written_of_move (hmove : Access.Move p a q) :
    p.g.table.next ≤ q.g.table.next ∧
      forall event u, event ∈ q.log -> event.writes u = true ->
        event ∈ p.log ∨ u < q.g.table.next := by
  cases hmove with
  | @apply t kmsg allocOk hpc =>
      show p.g.table.next ≤ (p.g.table.applyRtUpdates kmsg).next ∧
        forall event u, event ∈ (if kmsg.opCode = rtRouteAdd then _ else _) ->
          event.writes u = true ->
            event ∈ p.log ∨ u < (p.g.table.applyRtUpdates kmsg).next
      unfold RtTable.applyRtUpdates
      split
      · refine ⟨Nat.le_succ _, ?_⟩
        intro event u hmem hwrites
        rcases List.mem_cons.mp hmem with hnew | hold
        · rw [hnew] at hwrites
          have hu : p.g.table.next = u := of_decide_eq_true hwrites
          rw [← hu]
          exact Or.inr (Nat.lt_succ_self _)
        · exact Or.inl hold
      · exact ⟨Nat.le_refl _, fun _ _ hmem _ => Or.inl hmem⟩
  | endPoll hpc hends =>
      refine ⟨?_, fun _ _ hmem _ => Or.inl hmem⟩
      cases hends with
      | same | rotate => exact Nat.le_refl _
      | register =>
          show _ ≤ (RtTable.addRtTableUniquePollReader _ _).next
          unfold RtTable.addRtTableUniquePollReader
          split <;> exact Nat.le_refl _
  | publish hpc hpublish =>
      cases hpublish with
      | missing | live =>
          refine ⟨Nat.le_refl _, ?_⟩
          intro event u hmem hwrites
          exact Or.inl (mem_of_addEvent hmem hwrites rfl)
  | endCopy hpc | free hpc =>
      refine ⟨Nat.le_refl _, ?_⟩
      intro event u hmem hwrites
      exact Or.inl (mem_of_addEvent hmem hwrites rfl)
  | blackList hpc =>
      rw [State.moveReader, Globals.blackListPollReader_eq]
      exact ⟨Nat.le_refl _, fun _ _ hmem _ => Or.inl hmem⟩
  | _ => exact ⟨Nat.le_refl _, fun _ _ hmem _ => Or.inl hmem⟩

theorem fresh_readers (h : Fresh s) (hmove : Access.Move s.readers a q) :
    Fresh (s.withReaders q) := by
  have hlog := written_of_move hmove
  have hnext : s.readers.g.table.next = s.table.next :=
    congrArg (fun g => g.table.next) s.shared
  rintro u ⟨event, hmem, hwrites⟩
  rcases hlog.right event u hmem hwrites with hold | hlt
  · have hu := h u ⟨event, hold, hwrites⟩
    rw [← hnext] at hu
    exact Nat.lt_of_lt_of_le hu hlog.left
  · exact hlt

theorem quiet_readers (h : Quiet s) (hrest : ¬ Resting fileOf s)
    (hturns : Turns fileOf s (.readers a))
    (hmove : Access.Move s.readers a q) : Quiet (s.withReaders q) := by
  cases hmove with
  | read hpc | write hpc => exact absurd hturns hrest
  | pollReady hpc =>
      refine ⟨h.black, h.still, ?_⟩
      intro u hu
      change u ∈ s.readers.g.table.pending at hu
      rw [s.shared] at hu
      exact h.pending u hu
  | look hpc hcs => exact quiet_goto h rfl rfl (Or.inl rfl) rfl rfl
  | endPoll hpc hends =>
      cases hends with
      | same => exact quiet_goto h rfl rfl (Or.inl rfl) rfl rfl
      | rotate => exact quiet_goto h rfl rfl (Or.inr rfl) rfl rfl
      | @register hblack hblock =>
          refine quiet_goto h rfl rfl (Or.inl rfl) ?_ rfl
          show (RtTable.addRtTableUniquePollReader _ _).pending = _
          unfold RtTable.addRtTableUniquePollReader
          split <;> rfl
  | interrupt hpc =>
      rcases hpc with hpc | hpc
      · exact (h.not_at hpc rfl).elim
      · exact (h.not_at hpc rfl).elim
  | entryLock hpc | entryFirst hpc | entryLater hpc | publish hpc
  | storeCount hpc | countOver hpc | countFits hpc | clamp hpc
  | entryUnlock hpc | loadFirstCount hpc | loadFirstVector hpc
  | loadCount hpc | loadVector hpc | endCopy hpc | exitLock hpc
  | exitLast hpc | exitOther hpc | emptyList hpc | resetCount hpc
  | free hpc | blackList hpc | exitUnlock hpc | upRead hpc | apply hpc =>
      exact (h.not_at hpc rfl).elim

theorem apart_readers (h : Apart fileOf s)
    (hturns : Turns fileOf s (.readers a))
    (hmove : Access.Move s.readers a q) :
    Apart fileOf (s.withReaders q) := by
  refine ⟨fresh_readers h.fresh hmove, ?_⟩
  by_cases hrest : Resting fileOf s
  · exact Or.inl (resting_of_move hrest hmove)
  · rcases h.turn with hold | hquiet
    · exact absurd hold hrest
    · exact Or.inr (quiet_readers hquiet hrest hturns hmove)

end Readers

/-!
## Over whole runs
-/

section Runs

variable {client reader file : Type _}
variable [DecidableEq client] [DecidableEq reader] [DecidableEq file]
variable [Fintype reader] {fileOf : client -> file}
variable {s u : State client reader file} {a : Action client reader file}

theorem apart_step (h : Apart fileOf s) (hturns : Turns fileOf s a)
    (hstep : step fileOf s a = some u) : Apart fileOf u := by
  cases a with
  | ioctl a => exact apart_ioctl h hturns (move_of_ioctlStep hstep)
  | readers a =>
      rcases Option.map_eq_some_iff.mp hstep with ⟨q, hq, hu⟩
      rw [← hu]
      exact apart_readers h hturns (Access.move_of_step hq)

theorem considerate_of_apart (h : Apart fileOf s) :
    Considerate fileOf s a := by
  intro hreaders u hstep
  cases a with
  | readers a => exact hreaders.elim
  | ioctl a =>
      rcases h.turn with hrest | hquiet
      · exact (leavesBatch_of_resting hrest (move_of_ioctlStep hstep)).left
      · exact leavesBatch_of_quiet hquiet

/-- In a run that takes turns every step of the scheduler leaves open batches
alone. -/
theorem considerate_of_turns {actions : List (Action client reader file)}
    (h : Transition.StepsMeet (step fileOf) (Turns fileOf) State.init
      actions) :
    Transition.StepsMeet (step fileOf) (Considerate fileOf) State.init
      actions :=
  Transition.stepsMeet_of_invariant
    (fun _ _ _ hinv hturns hstep => apart_step hinv hturns hstep)
    (fun _ _ hinv _ => considerate_of_apart hinv) apart_init h

end Runs

/-!
## Two runs
-/

section Schedules

variable {client reader file : Type _}

def snapshotUntilCleanUp (subscriber : client) : List (Ioctl.Action client) :=
  Ioctl.workerRuns 7 ++ Ioctl.clientRuns subscriber 5

def fullBatch (t : reader) (f : file) : List (Access.Action reader file) :=
  pollThrough t f ++ writeThrough t Poll.someUpdate sizeofRtUpdate ++
    .poll t f false false :: firstReadToCopy t f 960 ++ endRead t true ++
      pollThrough t f

def halfBatch (t : reader) (f f' : file) : List (Access.Action reader file) :=
  pollThrough t f ++ pollThrough t f' ++
    writeThrough t Poll.someUpdate sizeofRtUpdate ++
      .poll t f false false :: firstReadToCopy t f 960 ++ endRead t false

end Schedules

theorem considerate_between_batches :
    Transition.StepsMeet (step id) (Considerate id)
      (State.init : State (Fin 3) (Fin 3) (Fin 3))
      ((fullBatch 0 0).map .readers ++
        (Mixed.subscribeAndCreate 1 2 ++ snapshotUntilCleanUp 1 ++
          Ioctl.clientRuns 1 8 ++ Ioctl.workerRuns 1 :
            List (Ioctl.Action (Fin 3))).map .ioctl ++
        (fullBatch 0 0).map .readers) :=
  considerate_of_turns (by decide +kernel)

/-- The last subscriber cleans up while file `1` has still to read: first the
count is reset, then the update is gone. -/
theorem exists_inconsiderate :
    exists s u v : State (Fin 3) (Fin 3) (Fin 3),
      Transition.Reachable (step id) Disciplined State.init s ∧
        (step id s (.ioctl (.client 1)) = some u ∧
          s.readers.black ≠ [] ∧ s.g.rtUpdateVectorCount = 2 ∧
            u.g.rtUpdateVectorCount = 0) ∧
        (step id u (.ioctl (.client 1)) = some v ∧
          Awaited u 0 ∧ v.table.pending = []) ∧
            ¬ Considerate id s (.ioctl (.client 1)) ∧
              ¬ Considerate id u (.ioctl (.client 1)) := by
  have hrun : exists s : State (Fin 3) (Fin 3) (Fin 3),
      Transition.Reachable (step id) Disciplined State.init s ∧
        ((step id s (.ioctl (.client 1))).any fun u =>
          (step id u (.ioctl (.client 1))).any fun v =>
            decide ((OfReaders s (.ioctl (.client 1)) ∧
              s.readers.black ≠ [] ∧ s.g.rtUpdateVectorCount = 2 ∧
                u.g.rtUpdateVectorCount = 0) ∧
              OfReaders u (.ioctl (.client 1)) ∧ Awaited u 0 ∧
                v.table.pending = [])) = true :=
    Transition.exists_reachable_of_schedule
      ((halfBatch 0 0 1).map .readers ++
        (Mixed.subscribeAndCreate 1 2 ++ snapshotUntilCleanUp 1 :
          List (Ioctl.Action (Fin 3))).map .ioctl) _
      (by decide +kernel)
  rcases hrun with ⟨s, hreach, htest⟩
  rcases (Option.any_eq_true _ _).mp htest with ⟨u, hu, htest⟩
  rcases (Option.any_eq_true _ _).mp htest with ⟨v, hv, htest⟩
  rcases of_decide_eq_true htest with
    ⟨⟨hsubscriber, hcount⟩, hsubscriber', hlost⟩
  refine ⟨s, u, v, hreach, ⟨hu, hcount⟩, ⟨hv, hlost⟩, ?_, ?_⟩
  · intro hconsiderate
    have hleaves := hconsiderate hsubscriber u hu
    have hsame := (hleaves.vector hcount.left).right.right
    rw [hcount.right.left, hcount.right.right] at hsame
    cases hsame
  · intro hconsiderate
    have hleaves := hconsiderate hsubscriber' v hv
    have hkept := hleaves.kept 0 hlost.left
    rw [hlost.right] at hkept
    cases hkept

end Shared
end Access
end RIBDriver
