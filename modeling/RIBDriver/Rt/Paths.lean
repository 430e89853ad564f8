import RIBDriver.Rt.Ioctl.Grants
import RIBDriver.Rt.Poll.Model

/-!
# Exclusion across the two write paths

`rt_write` changes the table under `rt->rw_sem`, the ioctl writers change it
between their grant and their hand-back, one of them under `rt->sem`.  Here
every acquisition of a lock and the entry into and the exit from an operation
on the table are steps of their own.  Each path excludes its own threads;
nothing excludes a thread of the one from those of the other.
-/

namespace RIBDriver

namespace Globals

variable {file : Type _}

structure SameScheduler (g g' : Globals file) : Prop where
  queue : g'.queue = g.queue
  workerDone : g'.workerDone = g.workerDone
  counter : g'.nReadersToBeService = g.nReadersToBeService

theorem sameScheduler_refresh (g : Globals file) (allocOk : Bool) :
    SameScheduler g (g.refreshUpdateVector allocOk) := by
  unfold refreshUpdateVector
  split <;> exact ⟨rfl, rfl, rfl⟩

theorem sameScheduler_clamp (g : Globals file) :
    SameScheduler g g.clampUpdateVectorCount := by
  unfold clampUpdateVectorCount
  split <;> exact ⟨rfl, rfl, rfl⟩

theorem SameScheduler.trans {g g' g'' : Globals file}
    (h : SameScheduler g g') (h' : SameScheduler g' g'') :
    SameScheduler g g'' where
  queue := h'.queue.trans h.queue
  workerDone := h'.workerDone.trans h.workerDone
  counter := h'.counter.trans h.counter

theorem rwSem_refresh (g : Globals file) (allocOk : Bool) :
    (g.refreshUpdateVector allocOk).rwSem = g.rwSem := by
  unfold refreshUpdateVector
  split <;> rfl

theorem rwSem_clamp (g : Globals file) :
    g.clampUpdateVectorCount.rwSem = g.rwSem := by
  unfold clampUpdateVectorCount
  split <;> rfl

variable [DecidableEq file]

/-- The exit section of `rt_read` between its semaphore operations. -/
def rtReadExitSection (g : Globals file) (filep : file) : Globals file :=
  { g.rtReadExit filep with rwSem := g.rwSem }

theorem sameScheduler_readExit (g : Globals file) (f : file) :
    SameScheduler g (g.rtReadExit f) := by
  unfold rtReadExit rtReadLast
  split <;> exact ⟨rfl, rfl, rfl⟩

end Globals

def Ioctl.ClientPc.isApplying : Ioctl.ClientPc -> Bool
  | .apply _ => true
  | _ => false

def Ioctl.ClientPc.isWriterSide : Ioctl.ClientPc -> Bool
  | .user => true
  | .lockQ req => req.role = .writer
  | .enq req => req.role = .writer
  | .unlockQ req => req.role = .writer
  | .wait req => req.role = .writer
  | .lockTable _ => true
  | .apply _ => true
  | .unlockTable => true
  | .handBack => true
  | _ => false

namespace Paths

variable {client thread file : Type _}

inductive FilePc (file : Type _) where
  | idle
  | downWrite (kmsg : RtUpdate)
  | enterApply (kmsg : RtUpdate)
  -- inside `apply_rt_updates`
  | inApply (kmsg : RtUpdate)
  | upWrite
  | downRead (filep : file)
  | lockEntry (filep : file)
  | testBlack (filep : file)
  -- inside `rt_get_updated_rt_entries`
  | inSnapshot (filep : file)
  | unlockEntry (filep : file)
  | enterCopy (filep : file)
  -- inside `copy_to_user`
  | inCopy (filep : file)
  | lockExit (filep : file)
  | exitSection (filep : file)
  | unlockExit
  | upRead
deriving DecidableEq

/-- `entered c`: the ioctl writer `c` is inside its table operation.  A thread
that uses both paths is a client while it is in an ioctl. -/
structure State (client thread file : Type _) where
  ioctl : Ioctl.State client file
  entered : client -> Bool
  pc : thread -> FilePc file

inductive Action (client thread file : Type _) where
  | ioctl (a : Ioctl.Action client)
  /-- A thread calls `rt_write` or `rt_read`. -/
  | write (t : thread) (kmsg : RtUpdate)
  | read (t : thread) (filep : file)
  /-- A thread inside one of them takes its next step. -/
  | file (t : thread) (allocOk : Bool)
  /-- A signal interrupts the wait for `rt_serialize_readers_cs_sem`. -/
  | interrupt (t : thread)
deriving DecidableEq

namespace State

variable [DecidableEq thread]

def init : State client thread file where
  ioctl := Ioctl.State.init
  entered := fun _ => false
  pc := fun _ => .idle

def g (s : State client thread file) : Globals file := s.ioctl.g

def setG (s : State client thread file) (g : Globals file) :
    State client thread file :=
  { s with ioctl := { s.ioctl with g := g } }

def goto (s : State client thread file) (t : thread) (p : FilePc file) :
    State client thread file :=
  { s with pc := Function.update s.pc t p }

end State

/-- `access_ok` holds; the update is copied before the lock is taken. -/
def callStep [DecidableEq thread]
    (s : State client thread file) (t : thread) (p : FilePc file) :
    Option (State client thread file) :=
  match s.pc t with
  | .idle => some (s.goto t p)
  | _ => none

def fileStep [DecidableEq file] [DecidableEq thread]
    (s : State client thread file) (t : thread) (allocOk : Bool) :
    Option (State client thread file) :=
  match s.pc t with
  | .idle => none
  | .downWrite kmsg =>
      if s.g.rwSem.readers ≠ 0 ∨ s.g.rwSem.writer = true then none
      else some ((s.setG { s.g with
        rwSem := { s.g.rwSem with writer := true } }).goto t (.enterApply kmsg))
  | .enterApply kmsg => some (s.goto t (.inApply kmsg))
  | .inApply kmsg =>
      some ((s.setG { s.g with table := s.g.table.applyRtUpdates kmsg }).goto t
        .upWrite)
  | .upWrite =>
      some ((s.setG { s.g with
        rwSem := { s.g.rwSem with writer := false } }).goto t .idle)
  | .downRead filep =>
      if s.g.rwSem.writer = true then none
      else some ((s.setG { s.g with
        rwSem := { s.g.rwSem with readers := s.g.rwSem.readers + 1 } }).goto t
          (.lockEntry filep))
  | .lockEntry filep =>
      if s.g.rtSerializeReadersCsSem = 0 then none
      else some ((s.setG { s.g with
        rtSerializeReadersCsSem := s.g.rtSerializeReadersCsSem - 1 }).goto t
          (.testBlack filep))
  | .testBlack filep =>
      some (s.goto t
        (if isSinglyLlEmpty s.g.blackListedPollReadersList then .inSnapshot filep
          else .unlockEntry filep))
  | .inSnapshot filep =>
      some ((s.setG (s.g.refreshUpdateVector allocOk).clampUpdateVectorCount).goto
        t (.unlockEntry filep))
  | .unlockEntry filep =>
      some ((s.setG { s.g with
        rtSerializeReadersCsSem := s.g.rtSerializeReadersCsSem + 1 }).goto t
          (.enterCopy filep))
  | .enterCopy filep => some (s.goto t (.inCopy filep))
  | .inCopy filep => some (s.goto t (.lockExit filep))
  | .lockExit filep =>
      if s.g.rtSerializeReadersCsSem = 0 then none
      else some ((s.setG { s.g with
        rtSerializeReadersCsSem := s.g.rtSerializeReadersCsSem - 1 }).goto t
          (.exitSection filep))
  | .exitSection filep =>
      some ((s.setG (s.g.rtReadExitSection filep)).goto t .unlockExit)
  | .unlockExit =>
      some ((s.setG { s.g with
        rtSerializeReadersCsSem := s.g.rtSerializeReadersCsSem + 1 }).goto t
          .upRead)
  | .upRead =>
      some ((s.setG { s.g with
        rwSem := { s.g.rwSem with readers := s.g.rwSem.readers - 1 } }).goto t
          .idle)

/-- `SEM_LOCK` leaves `rt_read` with `rw_sem` held. -/
def interruptStep [DecidableEq thread]
    (s : State client thread file) (t : thread) :
    Option (State client thread file) :=
  match s.pc t with
  | .lockEntry _ => some (s.goto t .idle)
  | .lockExit _ => some (s.goto t .idle)
  | _ => none

/-- The scheduler's step, with the table operation of a writer in two. -/
def ioctlStep [DecidableEq file] [DecidableEq client]
    (fileOf : client -> file) (s : State client thread file)
    (a : Ioctl.Action client) : Option (State client thread file) :=
  match a with
  | .client c =>
      match s.ioctl.pc c, s.entered c with
      | .apply _, false =>
          some { s with entered := Function.update s.entered c true }
      | _, _ =>
          (Ioctl.step fileOf s.ioctl a).map fun u =>
            { s with ioctl := u, entered := Function.update s.entered c false }
  | _ => (Ioctl.step fileOf s.ioctl a).map fun u => { s with ioctl := u }

def step [DecidableEq file] [DecidableEq client] [DecidableEq thread]
    (fileOf : client -> file) (s : State client thread file) :
    Action client thread file -> Option (State client thread file)
  | .ioctl a => ioctlStep fileOf s a
  | .write t kmsg => callStep s t (.downWrite kmsg)
  | .read t filep => callStep s t (.downRead filep)
  | .file t allocOk => fileStep s t allocOk
  | .interrupt t => interruptStep s t

/-!
## The property and its condition
-/

inductive Party (client thread : Type _) where
  | client (c : client)
  | thread (t : thread)
deriving DecidableEq

namespace FilePc

def isApplying : FilePc file -> Bool
  | .inApply _ => true
  | _ => false

def isReading : FilePc file -> Bool
  | .inSnapshot _ => true
  | .inCopy _ => true
  | _ => false

def isAcquiring : FilePc file -> Bool
  | .downWrite _ => true
  | .downRead _ => true
  | _ => false

def holdsWrite : FilePc file -> Bool
  | .enterApply _ => true
  | .inApply _ => true
  | .upWrite => true
  | _ => false

def holdsRead : FilePc file -> Bool
  | .lockEntry _ => true
  | .testBlack _ => true
  | .inSnapshot _ => true
  | .unlockEntry _ => true
  | .enterCopy _ => true
  | .inCopy _ => true
  | .lockExit _ => true
  | .exitSection _ => true
  | .unlockExit => true
  | .upRead => true
  | _ => false

end FilePc

def State.InTable (s : State client thread file) : Party client thread -> Prop
  | .client c => s.entered c = true
  | .thread t => (s.pc t).isApplying = true

/-- One party at most modifies the table, and nobody reads meanwhile. -/
structure Exclusive (s : State client thread file) : Prop where
  one : forall p q, s.InTable p -> s.InTable q -> p = q
  alone : forall p t, s.InTable p -> (s.pc t).isReading = false

def WritersOnly (_s : State client thread file) :
    Action client thread file -> Prop
  | .ioctl (.call _ req) => req.role = .writer
  | _ => True

/-- The table operations of the ioctl writers run as if they held the write
side of `rt->rw_sem`: one begins only when nobody holds it, and nobody acquires
it before the operation ends. -/
def AsIfLocked (s : State client thread file) :
    Action client thread file -> Prop
  | .ioctl (.client c) =>
      (s.ioctl.pc c).isApplying = true -> s.entered c = false ->
        s.g.rwSem = { readers := 0, writer := false }
  | .file t _ =>
      (s.pc t).isAcquiring = true -> forall c, s.entered c = false
  | _ => True

/-!
## What a step of the file operations does to the locks
-/

inductive FileEffect [DecidableEq thread]
    (s : State client thread file) (t : thread) :
    State client thread file -> Prop where
  | quiet {g : Globals file} {p : FilePc file}
      (hscheduler : Globals.SameScheduler s.g g)
      (hrwSem : g.rwSem = s.g.rwSem)
      (hwrite : p.holdsWrite = (s.pc t).holdsWrite)
      (hread : p.holdsRead = (s.pc t).holdsRead) :
      FileEffect s t ((s.setG g).goto t p)
  | downWrite {kmsg : RtUpdate} (hpc : s.pc t = .downWrite kmsg)
      (hfree : s.g.rwSem = { readers := 0, writer := false }) :
      FileEffect s t ((s.setG { s.g with
        rwSem := { s.g.rwSem with writer := true } }).goto t (.enterApply kmsg))
  | upWrite (hpc : s.pc t = .upWrite) :
      FileEffect s t ((s.setG { s.g with
        rwSem := { s.g.rwSem with writer := false } }).goto t .idle)
  | downRead {f : file} (hpc : s.pc t = .downRead f)
      (hfree : s.g.rwSem.writer = false) :
      FileEffect s t ((s.setG { s.g with
        rwSem := { s.g.rwSem with readers := s.g.rwSem.readers + 1 } }).goto t
          (.lockEntry f))
  | upRead (hpc : s.pc t = .upRead) :
      FileEffect s t ((s.setG { s.g with
        rwSem := { s.g.rwSem with readers := s.g.rwSem.readers - 1 } }).goto t
          .idle)
  | abandon (hread : (s.pc t).holdsRead = true)
      (hwrite : (s.pc t).holdsWrite = false) :
      FileEffect s t (s.goto t .idle)

section Effects

variable [DecidableEq thread]
variable {s u : State client thread file} {t : thread}

theorem fileEffect_quiet {g : Globals file} {q p : FilePc file}
    (hpc : s.pc t = q) (hscheduler : Globals.SameScheduler s.g g)
    (hrwSem : g.rwSem = s.g.rwSem) (hwrite : p.holdsWrite = q.holdsWrite)
    (hread : p.holdsRead = q.holdsRead) :
    FileEffect s t ((s.setG g).goto t p) := by
  rw [← hpc] at hwrite hread
  exact FileEffect.quiet hscheduler hrwSem hwrite hread

theorem fileEffect_of_callStep {p : FilePc file}
    (hwrite : p.holdsWrite = false) (hread : p.holdsRead = false)
    (h : callStep s t p = some u) : FileEffect s t u := by
  unfold callStep at h
  split at h
  · rename_i hpc
    cases h
    exact fileEffect_quiet (g := s.g) hpc ⟨rfl, rfl, rfl⟩ rfl hwrite hread
  · cases h

theorem fileEffect_of_interruptStep (h : interruptStep s t = some u) :
    FileEffect s t u := by
  unfold interruptStep at h
  split at h
  · rename_i f hpc
    cases h
    exact FileEffect.abandon (by rw [hpc]; rfl) (by rw [hpc]; rfl)
  · rename_i f hpc
    cases h
    exact FileEffect.abandon (by rw [hpc]; rfl) (by rw [hpc]; rfl)
  · cases h

variable [DecidableEq file]

theorem fileEffect_of_fileStep {allocOk : Bool}
    (h : fileStep s t allocOk = some u) : FileEffect s t u := by
  unfold fileStep at h
  split at h
  · cases h
  · rename_i kmsg hpc
    split at h
    · cases h
    · rename_i hguard
      cases h
      refine FileEffect.downWrite hpc ?_
      cases hrw : s.g.rwSem with
      | mk readers writer =>
          rw [hrw] at hguard
          simp only [ne_eq, not_or, not_not, Bool.not_eq_true] at hguard
          rw [hguard.left, hguard.right]
  · rename_i kmsg hpc
    cases h
    exact fileEffect_quiet (g := s.g) hpc ⟨rfl, rfl, rfl⟩ rfl rfl rfl
  · rename_i kmsg hpc
    cases h
    exact fileEffect_quiet hpc ⟨rfl, rfl, rfl⟩ rfl rfl rfl
  · rename_i hpc
    cases h
    exact FileEffect.upWrite hpc
  · rename_i f hpc
    split at h
    · cases h
    · rename_i hguard
      cases h
      exact FileEffect.downRead hpc (Bool.not_eq_true _ |>.mp hguard)
  · rename_i f hpc
    split at h
    · cases h
    · cases h
      exact fileEffect_quiet hpc ⟨rfl, rfl, rfl⟩ rfl rfl rfl
  · rename_i f hpc
    cases h
    refine fileEffect_quiet (g := s.g) hpc ⟨rfl, rfl, rfl⟩ rfl ?_ ?_ <;>
      split <;> rfl
  · rename_i f hpc
    cases h
    refine fileEffect_quiet hpc ?_ ?_ rfl rfl
    · exact (Globals.sameScheduler_refresh _ _).trans
        (Globals.sameScheduler_clamp _)
    · exact (Globals.rwSem_clamp _).trans (Globals.rwSem_refresh _ _)
  · rename_i f hpc
    cases h
    exact fileEffect_quiet hpc ⟨rfl, rfl, rfl⟩ rfl rfl rfl
  · rename_i f hpc
    cases h
    exact fileEffect_quiet (g := s.g) hpc ⟨rfl, rfl, rfl⟩ rfl rfl rfl
  · rename_i f hpc
    cases h
    exact fileEffect_quiet (g := s.g) hpc ⟨rfl, rfl, rfl⟩ rfl rfl rfl
  · rename_i f hpc
    split at h
    · cases h
    · cases h
      exact fileEffect_quiet hpc ⟨rfl, rfl, rfl⟩ rfl rfl rfl
  · rename_i f hpc
    cases h
    have hkept := Globals.sameScheduler_readExit s.g f
    exact fileEffect_quiet hpc
      ⟨hkept.queue, hkept.workerDone, hkept.counter⟩ rfl rfl rfl
  · rename_i hpc
    cases h
    exact fileEffect_quiet hpc ⟨rfl, rfl, rfl⟩ rfl rfl rfl
  · rename_i hpc
    cases h
    exact FileEffect.upRead hpc

end Effects

/-!
## The invariant
-/

open Counting

def holders [Fintype thread]
    (side : FilePc file -> Bool) (s : State client thread file) : Nat :=
  total (fun _ p => (side p).toNat) s.pc

structure Locked [Fintype thread] (s : State client thread file) : Prop where
  writers : holders FilePc.holdsWrite s = s.g.rwSem.writer.toNat
  readers : holders FilePc.holdsRead s ≤ s.g.rwSem.readers
  apart : s.g.rwSem.writer = true -> s.g.rwSem.readers = 0

/-- The clients of the scheduler are writers, and one that is inside its table
operation is alone with `rt->rw_sem` free. -/
structure Scheduled [DecidableEq file] [Fintype client] [Fintype file]
    (fileOf : client -> file)
    (s : State client thread file) : Prop where
  ticketed : Ioctl.Ticketed fileOf s.ioctl
  batched : Ioctl.Batched s.ioctl
  writers : forall c, (s.ioctl.pc c).isWriterSide = true
  applying : forall c, s.entered c = true ->
    (s.ioctl.pc c).isApplying = true
  free : forall c, s.entered c = true ->
    s.g.rwSem = { readers := 0, writer := false }

section FileSteps

variable {s u : State client thread file} {t : thread}
variable {fileOf : client -> file}

theorem ticketed_setG [DecidableEq file] [Fintype client]
    {i : Ioctl.State client file} {g : Globals file}
    (h : Ioctl.Ticketed fileOf i) (hscheduler : Globals.SameScheduler i.g g) :
    Ioctl.Ticketed fileOf { i with g := g } := by
  have hheld : forall r f, Ioctl.held { i with g := g } r f =
      Ioctl.held i r f := by
    intro r f
    unfold Ioctl.held
    show (g.queue r).items.count f + _ + _ = _
    rw [hscheduler.queue]
  constructor
  · intro r f
    rw [hheld]
    exact h.covered r f
  · exact h.separate

theorem batched_setG [Fintype client] [Fintype file]
    {i : Ioctl.State client file} {g : Globals file}
    (h : Ioctl.Batched i) (hscheduler : Globals.SameScheduler i.g g) :
    Ioctl.Batched { i with g := g } := by
  have howed : Ioctl.owed { i with g := g } = Ioctl.owed i := by
    show Ioctl.grantedReaders i + Ioctl.staleReaders i +
      Ioctl.ungranted i.worker g.nReadersToBeService = _
    rw [hscheduler.counter]
    rfl
  constructor
  · show Ioctl.Phase i.worker (Ioctl.grantedWriters i) g.workerDone
      (Ioctl.grantedReaders i) (Ioctl.staleReaders i)
    rw [hscheduler.workerDone]
    exact h.phase
  · show _ ≤ g.nReadersToBeService
    rw [howed, hscheduler.counter]
    exact h.counter
  · show g.nReadersToBeService ≤ _
    rw [hscheduler.counter]
    exact h.counter_le
  · intro t last n hpc
    rw [howed]
    exact h.loaded t last n hpc
  · intro t hplace
    rw [howed]
    exact h.last t hplace

theorem scheduled_setG [DecidableEq file] [DecidableEq thread] [Fintype client]
    [Fintype file] {g : Globals file} {p : FilePc file}
    (h : Scheduled fileOf s) (hscheduler : Globals.SameScheduler s.g g)
    (hfree : forall c, s.entered c = true ->
      g.rwSem = { readers := 0, writer := false }) :
    Scheduled fileOf ((s.setG g).goto t p) where
  ticketed := ticketed_setG h.ticketed hscheduler
  batched := batched_setG h.batched hscheduler
  writers := h.writers
  applying := h.applying
  free := hfree

variable [Fintype thread]

theorem holders_pos {side : FilePc file -> Bool} (h : side (s.pc t) = true) :
    0 < holders side s := by
  refine total_pos_iff.mpr ⟨t, ?_⟩
  rw [h]
  exact Nat.one_pos

theorem holders_eq_zero [DecidableEq file] [Fintype client] [Fintype file]
    (hlocked : Locked s) (h : Scheduled fileOf s)
    {c : client} (hc : s.entered c = true) :
    holders FilePc.holdsWrite s = 0 ∧ holders FilePc.holdsRead s = 0 := by
  have hwriters := hlocked.writers
  have hreaders := hlocked.readers
  rw [h.free c hc] at hwriters hreaders
  exact ⟨hwriters, Nat.le_zero.mp hreaders⟩

variable [DecidableEq thread]

theorem holders_goto (side : FilePc file -> Bool)
    (s : State client thread file) (t : thread) (g : Globals file)
    (p : FilePc file) :
    holders side ((s.setG g).goto t p) + (side (s.pc t)).toNat =
      holders side s + (side p).toNat :=
  total_update _ s.pc t p

theorem locked_goto {g : Globals file} {p : FilePc file} (h : Locked s)
    (hwrite : (p.holdsWrite).toNat + (s.g.rwSem.writer).toNat =
      ((s.pc t).holdsWrite).toNat + (g.rwSem.writer).toNat)
    (hread : (p.holdsRead).toNat + s.g.rwSem.readers ≤
      ((s.pc t).holdsRead).toNat + g.rwSem.readers)
    (hapart : g.rwSem.writer = true -> g.rwSem.readers = 0) :
    Locked ((s.setG g).goto t p) := by
  have hw := holders_goto FilePc.holdsWrite s t g p
  have hr := holders_goto FilePc.holdsRead s t g p
  have hwriters := h.writers
  have hreaders := h.readers
  refine ⟨?_, ?_, hapart⟩
  · show _ = (g.rwSem.writer).toNat
    lia
  · show _ ≤ g.rwSem.readers
    lia

theorem locked_file (h : Locked s) (heffect : FileEffect s t u) : Locked u := by
  cases heffect with
  | quiet hscheduler hrwSem hwrite hread =>
      apply locked_goto h
      · rw [hrwSem, hwrite]
      · rw [hrwSem, hread]
      · rw [hrwSem]
        exact h.apart
  | downWrite hpc hfree =>
      apply locked_goto h
      · rw [hpc, hfree]
        rfl
      · rw [hpc, hfree]
        exact Nat.le_refl 0
      · intro _
        show s.g.rwSem.readers = 0
        rw [hfree]
  | upWrite hpc =>
      have hholds : (s.pc t).holdsWrite = true := by rw [hpc]; rfl
      have hpos := holders_pos hholds
      have hwriters := h.writers
      have hle := Bool.toNat_le s.g.rwSem.writer
      apply locked_goto h
      · rw [hholds]
        show 0 + (s.g.rwSem.writer).toNat = 1 + 0
        lia
      · rw [hpc]
        exact Nat.le_refl _
      · intro hwriter
        cases hwriter
  | downRead hpc hfree =>
      apply locked_goto h
      · rw [hpc]
        rfl
      · rw [hpc]
        show 1 + s.g.rwSem.readers ≤ 0 + (s.g.rwSem.readers + 1)
        lia
      · intro hwriter
        change s.g.rwSem.writer = true at hwriter
        rw [hfree] at hwriter
        cases hwriter
  | upRead hpc =>
      apply locked_goto h
      · rw [hpc]
        rfl
      · rw [hpc]
        show 0 + s.g.rwSem.readers ≤ 1 + (s.g.rwSem.readers - 1)
        lia
      · intro hwriter
        show s.g.rwSem.readers - 1 = 0
        rw [h.apart hwriter]
  | abandon hread hwrite =>
      apply locked_goto (g := s.g) h
      · rw [hwrite]
        rfl
      · rw [hread]
        show 0 + s.g.rwSem.readers ≤ 1 + s.g.rwSem.readers
        lia
      · exact h.apart

variable [Fintype client] [DecidableEq file] [Fintype file]

theorem scheduled_file (hlocked : Locked s) (h : Scheduled fileOf s)
    (halone : (s.pc t).isAcquiring = true -> forall c, s.entered c = false)
    (heffect : FileEffect s t u) : Scheduled fileOf u := by
  cases heffect with
  | quiet hscheduler hrwSem hwrite hread =>
      refine scheduled_setG h hscheduler ?_
      intro c hc
      rw [hrwSem]
      exact h.free c hc
  | downWrite hpc hfree =>
      refine scheduled_setG h ⟨rfl, rfl, rfl⟩ ?_
      intro c hc
      rw [halone (by rw [hpc]; rfl) c] at hc
      cases hc
  | upWrite hpc =>
      refine scheduled_setG h ⟨rfl, rfl, rfl⟩ ?_
      intro c hc
      have hholds : (s.pc t).holdsWrite = true := by rw [hpc]; rfl
      have hpos := holders_pos hholds
      have hzero := (holders_eq_zero hlocked h hc).left
      lia
  | downRead hpc hfree =>
      refine scheduled_setG h ⟨rfl, rfl, rfl⟩ ?_
      intro c hc
      rw [halone (by rw [hpc]; rfl) c] at hc
      cases hc
  | upRead hpc =>
      refine scheduled_setG h ⟨rfl, rfl, rfl⟩ ?_
      intro c hc
      have hholds : (s.pc t).holdsRead = true := by rw [hpc]; rfl
      have hpos := holders_pos hholds
      have hzero := (holders_eq_zero hlocked h hc).right
      lia
  | abandon hread hwrite =>
      exact scheduled_setG (g := s.g) h ⟨rfl, rfl, rfl⟩ h.free

end FileSteps

section IoctlSteps

variable {fileOf : client -> file}

section Moves

variable {i v : Ioctl.State client file} {a : Ioctl.Action client} {c : client}

theorem not_writerSide {t : client} {q : Ioctl.ClientPc}
    (h : forall c, (i.pc c).isWriterSide = true) (hpc : i.pc t = q)
    (hq : q.isWriterSide = false) : False := by
  have hside := h t
  rw [hpc, hq] at hside
  cases hside

theorem isWriterSide_request {t : client} {q : Ioctl.ClientPc}
    (h : forall c, (i.pc c).isWriterSide = true) (hpc : i.pc t = q) :
    q.isWriterSide = true := by
  rw [← hpc]
  exact h t

variable [DecidableEq client]

theorem isApplying_source {n : Nat} {q p : Ioctl.ClientPc}
    (h : Ioctl.ClientEdge n q p) : q.isApplying = false := by
  cases h <;> rfl

theorem isApplying_goto {t : client} {p : Ioctl.ClientPc}
    (happlying : (i.pc c).isApplying = true) (hpcs : v.pc = i.pc)
    (hsource : (i.pc t).isApplying = false) :
    ((v.goto t p).pc c).isApplying = true := by
  have hne : c ≠ t := by
    intro hsame
    rw [hsame, hsource] at happlying
    cases happlying
  show (Function.update v.pc t p c).isApplying = true
  rw [Function.update_of_ne hne, hpcs]
  exact happlying

theorem isStale_of_writerSide {p : Ioctl.ClientPc}
    (h : p.isWriterSide = true) : p.isStale = false := by
  cases p with
  | decLoad last => cases h
  | decStore last loaded => cases h
  | _ => rfl

theorem isEngaged_of_writerSide {p : Ioctl.ClientPc}
    (h : p.isWriterSide = true) : p.isEngaged .reader = false := by
  cases p with
  | unlockQ req =>
      simp only [Ioctl.ClientPc.isWriterSide, decide_eq_true_eq] at h
      simp [Ioctl.ClientPc.isEngaged, h]
  | wait req =>
      simp only [Ioctl.ClientPc.isWriterSide, decide_eq_true_eq] at h
      simp [Ioctl.ClientPc.isEngaged, h]
  | _ => rfl

theorem role_of_writerSide {p : Ioctl.ClientPc} {role : Role}
    (h : p.isWriterSide = true) (henq : p.isEnqueuing role = true) :
    role = .writer := by
  cases p with
  | enq req =>
      simp only [Ioctl.ClientPc.isWriterSide, decide_eq_true_eq] at h
      simp only [Ioctl.ClientPc.isEnqueuing, decide_eq_true_eq] at henq
      rw [← henq, h]
  | _ => cases henq

theorem quiet_of_writerSide (h : forall c, (i.pc c).isWriterSide = true)
    (a : Ioctl.Action client) :
    Ioctl.SeparateRoles fileOf i a ∧ Ioctl.CleanCount i a := by
  constructor
  · intro t role _ henq t' _
    rw [role_of_writerSide (h t) henq]
    exact isEngaged_of_writerSide (h t')
  · intro _ _ t
    exact isStale_of_writerSide (h t)

theorem writerSide_goto {t : client} {p : Ioctl.ClientPc}
    (h : forall c, (i.pc c).isWriterSide = true) (hpcs : v.pc = i.pc)
    (hp : p.isWriterSide = true) (c : client) :
    ((v.goto t p).pc c).isWriterSide = true := by
  show (Function.update v.pc t p c).isWriterSide = true
  by_cases hc : c = t
  · rw [hc, Function.update_self]
    exact hp
  · rw [Function.update_of_ne hc, hpcs]
    exact h c

variable [DecidableEq file]

theorem rwSem_of_move (hmove : Ioctl.Move fileOf i a v) :
    v.g.rwSem = i.g.rwSem := by
  cases hmove with
  | clamp hpc => exact Globals.rwSem_clamp i.g
  | snapshot hw => exact Globals.rwSem_refresh i.g _
  | _ => rfl

theorem isApplying_of_move (happlying : (i.pc c).isApplying = true)
    (hother : a ≠ .client c) (hmove : Ioctl.Move fileOf i a v) :
    (v.pc c).isApplying = true := by
  cases Ioctl.effect_of_move hmove with
  | quiet hsignals hbooks hpcs hedge hsection =>
      exact isApplying_goto happlying hpcs (isApplying_source hedge)
  | giveUpGrant hpc =>
      exact isApplying_goto happlying rfl (by rw [hpc]; rfl)
  | enq hpc => exact isApplying_goto happlying rfl (by rw [hpc]; rfl)
  | wait hpc hdone => exact isApplying_goto happlying rfl (by rw [hpc]; rfl)
  | apply hpc =>
      rename_i t op
      have hne : c ≠ t := by
        intro hsame
        exact hother (by rw [hsame])
      show (Function.update i.pc t _ c).isApplying = true
      rw [Function.update_of_ne hne]
      exact happlying
  | handBack hpc => exact isApplying_goto happlying rfl (by rw [hpc]; rfl)
  | signal hpc => exact isApplying_goto happlying rfl (by rw [hpc]; rfl)
  | decStore hpc => exact isApplying_goto happlying rfl (by rw [hpc]; rfl)
  | moveOn hsignals hbooks hpcs hcs hedge =>
      rw [hpcs]
      exact happlying
  | dequeWriter hw hitems => exact happlying
  | dequeGrant hw hitems => exact happlying
  | completeWriter hw => exact happlying
  | completeGrant hw hnext => exact happlying
  | signalled hw hdone => exact happlying
  | countReaders hw => exact happlying

theorem isWriterSide_afterWait {req : Ioctl.Request} (h : req.role = .writer) :
    (Ioctl.afterWait req).isWriterSide = true := by
  cases req with
  | write op => cases op <;> rfl
  | subscribe => cases h

theorem writerSide_of_move (h : forall c, (i.pc c).isWriterSide = true)
    (hcall : forall t req, a = .call t req -> req.role = .writer)
    (hmove : Ioctl.Move fileOf i a v) (c : client) :
    (v.pc c).isWriterSide = true := by
  cases hmove with
  | @call t req hpc =>
      refine writerSide_goto h rfl ?_ c
      have hrole := hcall t req rfl
      cases req with
      | write op => rfl
      | subscribe => cases hrole
  | interruptLockQ hpc => exact writerSide_goto h rfl rfl c
  | interruptLockTable hpc => exact writerSide_goto h rfl rfl c
  | interruptDownCs hpc => exact (not_writerSide h hpc rfl).elim
  | clamp hpc => exact (not_writerSide h hpc rfl).elim
  | @lockQ t req hpc hsem =>
      have hside := isWriterSide_request h hpc
      exact writerSide_goto (p := .enq req) h rfl hside c
  | @enq t req hpc =>
      have hside := isWriterSide_request h hpc
      exact writerSide_goto (p := .unlockQ req) h rfl hside c
  | @unlockQ t req hpc =>
      have hside := isWriterSide_request h hpc
      exact writerSide_goto (p := .wait req) h rfl hside c
  | @wait t req issued rest hpc hdone =>
      have hrole := of_decide_eq_true (isWriterSide_request h hpc)
      exact writerSide_goto h rfl (isWriterSide_afterWait hrole) c
  | lockTable hpc hsem => exact writerSide_goto h rfl rfl c
  | @apply t op hpc =>
      refine writerSide_goto h rfl ?_ c
      cases op <;> rfl
  | unlockTable hpc => exact writerSide_goto h rfl rfl c
  | handBack hpc => exact writerSide_goto h rfl rfl c
  | copy hpc => exact (not_writerSide h hpc rfl).elim
  | downCs hpc hsem => exact (not_writerSide h hpc rfl).elim
  | testLast hpc hone => exact (not_writerSide h hpc rfl).elim
  | testOther hpc hone => exact (not_writerSide h hpc rfl).elim
  | cleanUp hpc => exact (not_writerSide h hpc rfl).elim
  | signal hpc => exact (not_writerSide h hpc rfl).elim
  | decLoad hpc => exact (not_writerSide h hpc rfl).elim
  | decStore hpc => exact (not_writerSide h hpc rfl).elim
  | upCs hpc => exact (not_writerSide h hpc rfl).elim
  | _ => exact h c

end Moves

inductive IoctlEffect [DecidableEq file] [DecidableEq client]
    (fileOf : client -> file) (s : State client thread file)
    (a : Ioctl.Action client) : State client thread file -> Prop where
  | enter {c : client} (hact : a = .client c)
      (happlying : (s.ioctl.pc c).isApplying = true)
      (hout : s.entered c = false) :
      IoctlEffect fileOf s a
        { s with entered := Function.update s.entered c true }
  | move {v : Ioctl.State client file} {entered : client -> Bool}
      (hstep : Ioctl.step fileOf s.ioctl a = some v)
      (hentered : forall c, entered c = true ->
        s.entered c = true ∧ a ≠ .client c) :
      IoctlEffect fileOf s a { s with ioctl := v, entered := entered }

variable {s u : State client thread file} {a : Ioctl.Action client}

theorem ioctlEffect_client [DecidableEq file] [DecidableEq client] {t : client}
    (h : (Ioctl.step fileOf s.ioctl (.client t)).map (fun v =>
      { s with ioctl := v, entered := Function.update s.entered t false }) =
        some u) : IoctlEffect fileOf s (.client t) u := by
  rcases Option.map_eq_some_iff.mp h with ⟨v, hv, hu⟩
  rw [← hu]
  refine IoctlEffect.move hv ?_
  intro c hc
  have hne : c ≠ t := by
    intro hsame
    rw [hsame, Function.update_self] at hc
    cases hc
  rw [Function.update_of_ne hne] at hc
  refine ⟨hc, ?_⟩
  intro hact
  cases hact
  exact hne rfl

theorem ioctlEffect_other [DecidableEq file] [DecidableEq client]
    (hother : forall c, a ≠ .client c)
    (h : (Ioctl.step fileOf s.ioctl a).map (fun v => { s with ioctl := v }) =
      some u) : IoctlEffect fileOf s a u := by
  rcases Option.map_eq_some_iff.mp h with ⟨v, hv, hu⟩
  rw [← hu]
  exact IoctlEffect.move hv (fun c hc => ⟨hc, hother c⟩)

theorem ioctlEffect_of_step [DecidableEq file] [DecidableEq client]
    (h : ioctlStep fileOf s a = some u) :
    IoctlEffect fileOf s a u := by
  cases a with
  | client c =>
      simp only [ioctlStep] at h
      split at h
      · rename_i op hpc hout
        cases h
        exact IoctlEffect.enter rfl (by rw [hpc]; rfl) hout
      · exact ioctlEffect_client h
  | call t req => exact ioctlEffect_other (fun _ hact => by cases hact) h
  | interrupt t => exact ioctlEffect_other (fun _ hact => by cases hact) h
  | worker allocOk => exact ioctlEffect_other (fun _ hact => by cases hact) h

theorem locked_ioctl [DecidableEq file] [DecidableEq client] [Fintype thread]
    (h : Locked s) (heffect : IoctlEffect fileOf s a u) :
    Locked u := by
  cases heffect with
  | enter hact happlying hout => exact ⟨h.writers, h.readers, h.apart⟩
  | @move v entered hstep hentered =>
      have hrwSem : v.g.rwSem = s.g.rwSem :=
        rwSem_of_move (Ioctl.move_of_step hstep)
      refine ⟨?_, ?_, ?_⟩
      · show holders FilePc.holdsWrite s = v.g.rwSem.writer.toNat
        rw [hrwSem]
        exact h.writers
      · show holders FilePc.holdsRead s ≤ v.g.rwSem.readers
        rw [hrwSem]
        exact h.readers
      · show v.g.rwSem.writer = true -> v.g.rwSem.readers = 0
        rw [hrwSem]
        exact h.apart

theorem scheduled_ioctl [DecidableEq file] [DecidableEq client] [Fintype client]
    [Fintype file] (h : Scheduled fileOf s)
    (hwriters : WritersOnly s (.ioctl a)) (halone : AsIfLocked s (.ioctl a))
    (heffect : IoctlEffect fileOf s a u) : Scheduled fileOf u := by
  cases heffect with
  | @enter t hact happlying hout =>
      rw [hact] at halone
      refine ⟨h.ticketed, h.batched, h.writers, ?_, ?_⟩
      · intro c hc
        by_cases hsame : c = t
        · rw [hsame]
          exact happlying
        · change Function.update s.entered t true c = true at hc
          rw [Function.update_of_ne hsame] at hc
          exact h.applying c hc
      · intro c hc
        exact halone happlying hout
  | @move v entered hstep hentered =>
      have hmove := Ioctl.move_of_step hstep
      have hquiet : Ioctl.SeparateRoles fileOf s.ioctl a ∧
          Ioctl.CleanCount s.ioctl a := quiet_of_writerSide h.writers a
      have hcall : forall t req, a = .call t req -> req.role = .writer := by
        intro t req hact
        rw [hact] at hwriters
        exact hwriters
      refine ⟨?_, ?_, ?_, ?_, ?_⟩
      · exact Ioctl.ticketed_step h.ticketed hquiet.left hmove
      · exact Ioctl.batched_step h.ticketed h.batched hquiet.right hmove
      · exact writerSide_of_move h.writers hcall hmove
      · intro c hc
        have hold := hentered c hc
        exact isApplying_of_move (h.applying c hold.left) hold.right hmove
      · intro c hc
        show v.g.rwSem = _
        rw [rwSem_of_move hmove]
        exact h.free c (hentered c hc).left

end IoctlSteps

/-!
## Exclusion over whole runs
-/

section Runs

variable {fileOf : client -> file} {s u : State client thread file}
variable {a : Action client thread file}

theorem holders_init [Fintype thread]
    {side : FilePc file -> Bool} (h : side .idle = false) :
    holders side (State.init : State client thread file) = 0 := by
  refine total_eq_zero_iff.mpr ?_
  intro t
  show (side .idle).toNat = 0
  rw [h]
  rfl

theorem locked_init [Fintype thread] :
    Locked (State.init : State client thread file) where
  writers := holders_init rfl
  readers := Nat.le_of_eq (holders_init rfl)
  apart := fun h => by cases h

theorem not_acquiring_of_call [DecidableEq thread]
    {t : thread} {p : FilePc file}
    (h : callStep s t p = some u) (hacquiring : (s.pc t).isAcquiring = true)
    (c : client) : s.entered c = false := by
  unfold callStep at h
  split at h
  · rename_i hpc
    rw [hpc] at hacquiring
    cases hacquiring
  · cases h

theorem not_acquiring_of_interrupt [DecidableEq thread] {t : thread}
    (h : interruptStep s t = some u) (hacquiring : (s.pc t).isAcquiring = true)
    (c : client) : s.entered c = false := by
  unfold interruptStep at h
  split at h
  · rename_i f hpc
    rw [hpc] at hacquiring
    cases hacquiring
  · rename_i f hpc
    rw [hpc] at hacquiring
    cases hacquiring
  · cases h

theorem isWriting_of_isApplying {p : Ioctl.ClientPc}
    (h : p.isApplying = true) : p.isWriting = true := by
  cases p with
  | apply op => rfl
  | _ => cases h

theorem holdsWrite_of_isApplying {p : FilePc file}
    (h : p.isApplying = true) : p.holdsWrite = true := by
  cases p with
  | inApply kmsg => rfl
  | _ => cases h

theorem eq_of_inApply [DecidableEq thread] [Fintype thread]
    (h : Locked s) {t t' : thread}
    (ht : (s.pc t).isApplying = true) (ht' : (s.pc t').isApplying = true) :
    t = t' := by
  by_contra hne
  have hpair := measure_add_le_total
    (fun _ (p : FilePc file) => p.holdsWrite.toNat) s.pc hne
  simp only [holdsWrite_of_isApplying ht, holdsWrite_of_isApplying ht',
    Bool.toNat_true] at hpair
  have hwriters := h.writers
  have hle := Bool.toNat_le s.g.rwSem.writer
  unfold holders at hwriters
  lia

variable [Fintype client]

def Allowed (s : State client thread file) (a : Action client thread file) :
    Prop :=
  WritersOnly s a ∧ AsIfLocked s a

instance (s : State client thread file) (a : Action client thread file) :
    Decidable (WritersOnly s a) := by
  unfold WritersOnly
  split <;> infer_instance

instance (s : State client thread file) (a : Action client thread file) :
    Decidable (AsIfLocked s a) := by
  unfold AsIfLocked
  split <;> infer_instance

instance (s : State client thread file) (a : Action client thread file) :
    Decidable (Allowed s a) :=
  inferInstanceAs (Decidable (WritersOnly s a ∧ AsIfLocked s a))

theorem scheduled_init [DecidableEq file] [Fintype file] :
    Scheduled fileOf (State.init : State client thread file) where
  ticketed := Ioctl.ticketed_init
  batched := Ioctl.batched_init
  writers := fun _ => rfl
  applying := fun _ h => by cases h
  free := fun _ h => by cases h

theorem holdsRead_of_isReading {p : FilePc file}
    (h : p.isReading = true) : p.holdsRead = true := by
  cases p with
  | inSnapshot f => rfl
  | inCopy f => rfl
  | _ => cases h

theorem eq_of_entered [DecidableEq file] [DecidableEq client] [Fintype file]
    (h : Scheduled fileOf s) {c c' : client}
    (hc : s.entered c = true) (hc' : s.entered c' = true) : c = c' := by
  by_contra hne
  have hwriting := isWriting_of_isApplying (h.applying c hc)
  have hwriting' := isWriting_of_isApplying (h.applying c' hc')
  have hpair := measure_add_le_total
    (fun _ (p : Ioctl.ClientPc) => p.isWriting.toNat) s.ioctl.pc hne
  simp only [hwriting, hwriting', Bool.toNat_true] at hpair
  have hone := Ioctl.grantedWriters_le_one h.batched
  unfold Ioctl.grantedWriters Ioctl.clientsAt at hone
  lia

variable [DecidableEq thread] [Fintype thread] [DecidableEq file] [Fintype file]
variable [DecidableEq client]

theorem locked_and_scheduled_step (hlocked : Locked s)
    (hscheduled : Scheduled fileOf s) (hallowed : Allowed s a)
    (hstep : step fileOf s a = some u) : Locked u ∧ Scheduled fileOf u := by
  cases a with
  | ioctl a =>
      have heffect := ioctlEffect_of_step hstep
      exact ⟨locked_ioctl hlocked heffect,
        scheduled_ioctl hscheduled hallowed.left hallowed.right heffect⟩
  | write t kmsg =>
      have heffect := fileEffect_of_callStep rfl rfl hstep
      exact ⟨locked_file hlocked heffect,
        scheduled_file hlocked hscheduled (not_acquiring_of_call hstep) heffect⟩
  | read t filep =>
      have heffect := fileEffect_of_callStep rfl rfl hstep
      exact ⟨locked_file hlocked heffect,
        scheduled_file hlocked hscheduled (not_acquiring_of_call hstep) heffect⟩
  | file t allocOk =>
      have heffect := fileEffect_of_fileStep hstep
      exact ⟨locked_file hlocked heffect,
        scheduled_file hlocked hscheduled hallowed.right heffect⟩
  | interrupt t =>
      have heffect := fileEffect_of_interruptStep hstep
      exact ⟨locked_file hlocked heffect,
        scheduled_file hlocked hscheduled (not_acquiring_of_interrupt hstep)
          heffect⟩

theorem exclusive_of_scheduled (hlocked : Locked s) (h : Scheduled fileOf s) :
    Exclusive s where
  one := by
    have hmixed : forall {c : client} {t : thread}, s.entered c = true ->
        (s.pc t).isApplying = true -> False := by
      intro c t hc ht
      have hpos := holders_pos (holdsWrite_of_isApplying ht)
      have hzero := (holders_eq_zero hlocked h hc).left
      lia
    intro p q hp hq
    cases p with
    | client c =>
        cases q with
        | client c' => rw [eq_of_entered h hp hq]
        | thread t => exact (hmixed hp hq).elim
    | thread t =>
        cases q with
        | client c => exact (hmixed hq hp).elim
        | thread t' => rw [eq_of_inApply hlocked hp hq]
  alone := by
    intro p t hp
    cases hreading : (s.pc t).isReading with
    | false => rfl
    | true =>
        have hpos := holders_pos (holdsRead_of_isReading hreading)
        cases p with
        | client c =>
            have hzero := (holders_eq_zero hlocked h hp).right
            lia
        | thread t' =>
            have hwriter := holders_pos (holdsWrite_of_isApplying hp)
            have hwriters := hlocked.writers
            have hreaders := hlocked.readers
            cases hrw : s.g.rwSem.writer with
            | false =>
                rw [hrw] at hwriters
                simp only [Bool.toNat_false] at hwriters
                lia
            | true =>
                have hnone := hlocked.apart hrw
                lia

theorem exclusive_of_asIfLocked
    (h : Transition.Reachable (step fileOf) Allowed
      (State.init : State client thread file) s) : Exclusive s := by
  have hinv := Transition.reachable_invariant
    (fun s => Locked s ∧ Scheduled fileOf s)
    ⟨locked_init, scheduled_init⟩
    (fun _ _ _ hinv hallowed hstep =>
      locked_and_scheduled_step hinv.left hinv.right hallowed hstep) h
  exact exclusive_of_scheduled hinv.left hinv.right

end Runs

/-!
## Two writers inside
-/

section Schedules

def kmsg : RtUpdate where
  opCode := rtRouteAdd
  entry := Ioctl.someEntry

def ioctlRuns (actions : List (Ioctl.Action (Fin 1))) :
    List (Action (Fin 1) (Fin 1) (Fin 1)) :=
  actions.map .ioctl

def fileRuns (t : Fin 1) (n : Nat) : List (Action (Fin 1) (Fin 1) (Fin 1)) :=
  List.replicate n (.file t true)

def updateInside (c : Fin 1) : List (Action (Fin 1) (Fin 1) (Fin 1)) :=
  ioctlRuns (.call c Ioctl.anUpdate :: (Ioctl.clientRuns c 3 ++
    Ioctl.workerRuns 5 ++ Ioctl.clientRuns c 3))

end Schedules

theorem exclusive_update_after_write :
    exists s : State (Fin 1) (Fin 1) (Fin 1),
      s.entered 0 = true ∧ Exclusive s := by
  have hrun : exists s : State (Fin 1) (Fin 1) (Fin 1),
      Transition.Reachable (step id) Allowed State.init s ∧
        s.entered 0 = true :=
    Transition.exists_reachable_of_schedule
      (.write 0 kmsg :: fileRuns 0 4 ++ updateInside 0) _ (by decide +kernel)
  rcases hrun with ⟨s, hreach, hentered⟩
  exact ⟨s, hentered, exclusive_of_asIfLocked hreach⟩

/-- `rt_write` holds `rt->rw_sem` inside `apply_rt_updates`, and the ioctl
writer enters it under `rt->sem`. -/
theorem exists_two_inside :
    exists s : State (Fin 1) (Fin 1) (Fin 1),
      Transition.Reachable (step id) WritersOnly State.init s ∧
        ¬ Exclusive s := by
  have hrun : exists s : State (Fin 1) (Fin 1) (Fin 1),
      Transition.Reachable (step id) WritersOnly State.init s ∧
        (s.entered 0 && (s.pc 0).isApplying) = true :=
    Transition.exists_reachable_of_schedule
      (.write 0 kmsg :: fileRuns 0 2 ++ updateInside 0) _ (by decide +kernel)
  rcases hrun with ⟨s, hreach, htest⟩
  rw [Bool.and_eq_true] at htest
  refine ⟨s, hreach, ?_⟩
  intro hexclusive
  have hsame := hexclusive.one (.client 0) (.thread 0) htest.left htest.right
  cases hsame

end Paths
end RIBDriver
