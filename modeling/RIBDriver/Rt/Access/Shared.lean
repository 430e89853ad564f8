import RIBDriver.Rt.Access.Moves
import RIBDriver.Rt.Mixed

/-!
# Both paths access by access

The ioctl scheduler beside the readers.  The scheduler takes its steps as
before, except where its model has several accesses to the cached vector and
its count in one step: the worker's snapshot, and in a subscription the clamp,
the copy with the result, and the last reader's clean-up.
-/

namespace RIBDriver
namespace Access
namespace Shared

/-- How far a subscriber is in a step of the scheduler that has several
accesses. -/
inductive Sub where
  | start
  -- the count has been found over the limit
  | clamp
  -- `copy_to_user` has its arguments
  | copying
  | emptyList
  | free
  | resetPointer
deriving DecidableEq

/-- `storing` is the count the worker has still to store, when it has published
a vector. -/
structure State (client reader file : Type _) where
  ioctl : Ioctl.State client file
  readers : Access.State reader file
  shared : readers.g = ioctl.g
  sub : client -> Sub
  storing : Option Nat

inductive Action (client reader file : Type _) where
  | ioctl (a : Ioctl.Action client)
  | readers (a : Access.Action reader file)
deriving DecidableEq

namespace State

variable {client reader file : Type _}

def init : State client reader file where
  ioctl := Ioctl.State.init
  readers := Access.State.init
  shared := rfl
  sub := fun _ => .start
  storing := none

def g (s : State client reader file) : Globals file := s.ioctl.g

def table (s : State client reader file) : RtTable file := s.ioctl.g.table

def withIoctl (s : State client reader file) (u : Ioctl.State client file) :
    State client reader file :=
  { s with
    ioctl := u
    readers := { s.readers with g := u.g }
    shared := rfl }

def withReaders (s : State client reader file)
    (u : Access.State reader file) : State client reader file :=
  { s with
    ioctl := { s.ioctl with g := u.g }
    readers := u
    shared := rfl }

def setCount (s : State client reader file) (n : Nat) :
    State client reader file :=
  s.withReaders (s.readers.setCount n)

def addUser (s : State client reader file) (access : UserAccess) :
    State client reader file :=
  { s with readers := s.readers.addUser access }

def setStoring (s : State client reader file) (storing : Option Nat) :
    State client reader file :=
  { s with storing := storing }

def setWorker (s : State client reader file) (worker : Ioctl.WorkerPc file) :
    State client reader file :=
  { s with ioctl := { s.ioctl with worker := worker } }

def resetPointer (s : State client reader file) : State client reader file :=
  s.withReaders { s.readers with
    g := { s.readers.g with rtUpdateVector := .null }
    pointer := none }

variable [DecidableEq client]

def setSub (s : State client reader file) (t : client) (sub : Sub) :
    State client reader file :=
  { s with sub := Function.update s.sub t sub }

def goto (s : State client reader file) (t : client) (pc : Ioctl.ClientPc) :
    State client reader file :=
  { s with ioctl := s.ioctl.goto t pc }

end State

section Steps

variable {client reader file : Type _}
variable [DecidableEq client] [DecidableEq file]

def runIoctl (fileOf : client -> file) (s : State client reader file)
    (a : Ioctl.Action client) : Option (State client reader file) :=
  (Ioctl.step fileOf s.ioctl a).map s.withIoctl

/-- `rt_update_vector_count = rt_get_updated_rt_entries(...)` of the worker. -/
def snapshotStep (s : State client reader file) (allocOk : Bool) :
    State client reader file :=
  match s.storing with
  | none =>
      (s.withReaders (s.readers.publish allocOk)).setStoring
        (some (s.readers.published allocOk))
  | some n => ((s.setCount n).setWorker .loadReaders).setStoring none

def clampStep (s : State client reader file) (t : client) :
    State client reader file :=
  match s.sub t with
  | .clamp =>
      ((s.setCount rtMaxEntriesFetch).setSub t .start).goto t
        (.lockQ .subscribe)
  | _ =>
      if s.g.rtUpdateVectorCount > rtMaxEntriesFetch then s.setSub t .clamp
      else s.goto t (.lockQ .subscribe)

def copyStep (fileOf : client -> file) (s : State client reader file)
    (t : client) : Option (State client reader file) :=
  match s.sub t with
  | .copying =>
      (runIoctl fileOf s (.client t)).map fun u =>
        (u.addUser (.subscribed s.g.rtUpdateVectorCount)).setSub t .start
  | _ =>
      some ((s.addUser
        (.subscribeOut (sizeofRtEntry * s.g.rtUpdateVectorCount))).setSub t
          .copying)

def cleanUpStep (s : State client reader file) (t : client) :
    State client reader file :=
  match s.sub t with
  | .emptyList =>
      (s.withReaders { s.readers with
        g := { s.readers.g with
          table := s.readers.g.table.rtEmptyChangeList } }).setSub t .free
  | .free => (s.withReaders s.readers.kfree).setSub t .resetPointer
  | .resetPointer => (s.resetPointer.setSub t .start).goto t .signal
  | _ => (s.setCount 0).setSub t .emptyList

def ioctlStep (fileOf : client -> file) (s : State client reader file) :
    Ioctl.Action client -> Option (State client reader file)
  | .worker allocOk =>
      match s.ioctl.worker with
      | .snapshot => some (snapshotStep s allocOk)
      | _ => runIoctl fileOf s (.worker allocOk)
  | .client t =>
      match s.ioctl.pc t with
      | .clamp => some (clampStep s t)
      | .copy => copyStep fileOf s t
      | .cleanUp => some (cleanUpStep s t)
      | _ => runIoctl fileOf s (.client t)
  | a => runIoctl fileOf s a

variable [DecidableEq reader] [Fintype reader]

def step (fileOf : client -> file) (s : State client reader file) :
    Action client reader file -> Option (State client reader file)
  | .ioctl a => ioctlStep fileOf s a
  | .readers a => (Access.step s.readers a).map s.withReaders

def Disciplined (s : State client reader file) :
    Action client reader file -> Prop
  | .ioctl a => Ioctl.NoInterrupt s.ioctl a
  | .readers a => Access.Disciplined s.readers a

instance (s : State client reader file) (a : Action client reader file) :
    Decidable (Disciplined s a) :=
  match a with
  | .ioctl a => inferInstanceAs (Decidable (Ioctl.NoInterrupt s.ioctl a))
  | .readers a => inferInstanceAs (Decidable (Access.Disciplined s.readers a))

end Steps

/-!
## What the scheduler does to the shared data
-/

section Moves

variable {client reader file : Type _} [DecidableEq client] [DecidableEq file]

/-- A step of the scheduler that does not touch the vector or its count. -/
structure Plain (s : State client reader file) (a : Ioctl.Action client) :
    Prop where
  worker : forall allocOk, a = .worker allocOk -> s.ioctl.worker ≠ .snapshot
  clamp : forall t, a = .client t -> s.ioctl.pc t ≠ .clamp
  copy : forall t, a = .client t -> s.ioctl.pc t ≠ .copy
  cleanUp : forall t, a = .client t -> s.ioctl.pc t ≠ .cleanUp

inductive IoctlMove (fileOf : client -> file) (s : State client reader file) :
    Ioctl.Action client -> State client reader file -> Prop where
  | plain {a : Ioctl.Action client} {u : Ioctl.State client file}
      (hplain : Plain s a) (hmove : Ioctl.Move fileOf s.ioctl a u) :
      IoctlMove fileOf s a (s.withIoctl u)
  | publish {allocOk : Bool} {n : Nat} {v : Access.State reader file}
      (hw : s.ioctl.worker = .snapshot) (hstoring : s.storing = none)
      (hpublish : s.readers.Publishes allocOk n v) :
      IoctlMove fileOf s (.worker allocOk)
        ((s.withReaders v).setStoring (some n))
  | storeCount {allocOk : Bool} {n : Nat} (hw : s.ioctl.worker = .snapshot)
      (hstoring : s.storing = some n) :
      IoctlMove fileOf s (.worker allocOk)
        (((s.setCount n).setWorker .loadReaders).setStoring none)
  | countOver {t : client} (hpc : s.ioctl.pc t = .clamp)
      (hover : rtMaxEntriesFetch < s.g.rtUpdateVectorCount) :
      IoctlMove fileOf s (.client t) (s.setSub t .clamp)
  | countFits {t : client} (hpc : s.ioctl.pc t = .clamp) :
      IoctlMove fileOf s (.client t) (s.goto t (.lockQ .subscribe))
  | clamp {t : client} (hpc : s.ioctl.pc t = .clamp) (hsub : s.sub t = .clamp) :
      IoctlMove fileOf s (.client t)
        (((s.setCount rtMaxEntriesFetch).setSub t .start).goto t
          (.lockQ .subscribe))
  | beginCopy {t : client} (hpc : s.ioctl.pc t = .copy) :
      IoctlMove fileOf s (.client t)
        ((s.addUser (.subscribeOut
          (sizeofRtEntry * s.g.rtUpdateVectorCount))).setSub t .copying)
  | endCopy {t : client} {u : Ioctl.State client file}
      (hpc : s.ioctl.pc t = .copy)
      (hmove : Ioctl.Move fileOf s.ioctl (.client t) u) :
      IoctlMove fileOf s (.client t)
        (((s.withIoctl u).addUser
          (.subscribed s.g.rtUpdateVectorCount)).setSub t .start)
  | resetCount {t : client} (hpc : s.ioctl.pc t = .cleanUp) :
      IoctlMove fileOf s (.client t) ((s.setCount 0).setSub t .emptyList)
  | emptyList {t : client} (hpc : s.ioctl.pc t = .cleanUp) :
      IoctlMove fileOf s (.client t)
        ((s.withReaders { s.readers with
          g := { s.readers.g with
            table := s.readers.g.table.rtEmptyChangeList } }).setSub t .free)
  | free {t : client} (hpc : s.ioctl.pc t = .cleanUp) :
      IoctlMove fileOf s (.client t)
        ((s.withReaders s.readers.kfree).setSub t .resetPointer)
  | resetPointer {t : client} (hpc : s.ioctl.pc t = .cleanUp) :
      IoctlMove fileOf s (.client t)
        ((s.resetPointer.setSub t .start).goto t .signal)

variable {fileOf : client -> file} {s u : State client reader file}

theorem move_of_runIoctl {a : Ioctl.Action client} (hplain : Plain s a)
    (h : runIoctl fileOf s a = some u) : IoctlMove fileOf s a u := by
  rcases Option.map_eq_some_iff.mp h with ⟨v, hstep, hu⟩
  rw [← hu]
  exact IoctlMove.plain hplain (Ioctl.move_of_step hstep)

theorem move_of_snapshotStep (allocOk : Bool)
    (hw : s.ioctl.worker = .snapshot) :
    IoctlMove fileOf s (.worker allocOk) (snapshotStep s allocOk) := by
  unfold snapshotStep
  cases hstoring : s.storing with
  | none =>
      exact IoctlMove.publish hw hstoring
        (s.readers.publishes_publish allocOk)
  | some n => exact IoctlMove.storeCount hw hstoring

theorem move_of_clampStep {t : client} (hpc : s.ioctl.pc t = .clamp) :
    IoctlMove fileOf s (.client t) (clampStep s t) := by
  unfold clampStep
  split
  · rename_i hsub
    exact IoctlMove.clamp hpc hsub
  · split
    · rename_i hover
      exact IoctlMove.countOver hpc hover
    · exact IoctlMove.countFits hpc

theorem move_of_copyStep {t : client} (hpc : s.ioctl.pc t = .copy)
    (h : copyStep fileOf s t = some u) : IoctlMove fileOf s (.client t) u := by
  unfold copyStep at h
  split at h
  · rcases Option.map_eq_some_iff.mp h with ⟨v, hrun, hu⟩
    rcases Option.map_eq_some_iff.mp hrun with ⟨w, hstep, hv⟩
    rw [← hu, ← hv]
    exact IoctlMove.endCopy hpc (Ioctl.move_of_step hstep)
  · cases h
    exact IoctlMove.beginCopy hpc

theorem move_of_cleanUpStep {t : client} (hpc : s.ioctl.pc t = .cleanUp) :
    IoctlMove fileOf s (.client t) (cleanUpStep s t) := by
  unfold cleanUpStep
  split
  · exact IoctlMove.emptyList hpc
  · exact IoctlMove.free hpc
  · exact IoctlMove.resetPointer hpc
  · exact IoctlMove.resetCount hpc

theorem move_of_ioctlStep {a : Ioctl.Action client}
    (h : ioctlStep fileOf s a = some u) : IoctlMove fileOf s a u := by
  cases a with
  | call t req =>
      refine move_of_runIoctl ?_ h
      constructor <;> intro _ hact <;> cases hact
  | interrupt t =>
      refine move_of_runIoctl ?_ h
      constructor <;> intro _ hact <;> cases hact
  | worker allocOk =>
      simp only [ioctlStep] at h
      split at h
      · rename_i hw
        cases h
        exact move_of_snapshotStep allocOk hw
      · rename_i hw
        refine move_of_runIoctl ?_ h
        constructor
        · intro _ _
          exact hw
        · intro _ hact
          cases hact
        · intro _ hact
          cases hact
        · intro _ hact
          cases hact
  | client t =>
      simp only [ioctlStep] at h
      split at h
      · rename_i hpc
        cases h
        exact move_of_clampStep hpc
      · rename_i hpc
        exact move_of_copyStep hpc h
      · rename_i hpc
        cases h
        exact move_of_cleanUpStep hpc
      · rename_i hclamp hcopy hcleanUp
        refine move_of_runIoctl ?_ h
        constructor
        · intro _ hact
          cases hact
        · intro t' hact
          cases hact
          exact hclamp
        · intro t' hact
          cases hact
          exact hcopy
        · intro t' hact
          cases hact
          exact hcleanUp

end Moves

end Shared
end Access
end RIBDriver
