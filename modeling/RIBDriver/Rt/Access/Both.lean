import RIBDriver.Rt.Access.Sections
import RIBDriver.Rt.Access.Shared

/-!
# Both paths from sections to accesses

The scheduler beside the readers, in whole steps: each of its steps is one or
several accesses in a row, and every run of both paths is one of both paths
access by access.
-/

namespace RIBDriver
namespace Access
namespace Shared

variable {client reader file : Type _}

/-- Neither the worker nor a subscriber is inside a step of the scheduler, and
no thread inside a section. -/
structure Alongside (m : Mixed.State client reader file)
    (s : State client (Option reader) file) : Prop where
  ioctl : s.ioctl = m.ioctl
  readers : Between m.poll s.readers
  sub : forall t, s.sub t = .start
  storing : s.storing = none

theorem alongside_init :
    Alongside (Mixed.State.init : Mixed.State client reader file)
      State.init where
  ioctl := rfl
  readers := between_init
  sub := fun _ => rfl
  storing := rfl

theorem withReaders_self (s : State client reader file) :
    s.withReaders s.readers = s := by
  cases s with
  | mk ioctl readers shared sub storing =>
      cases ioctl
      cases shared
      rfl

section Plain

variable [DecidableEq client] [DecidableEq file]
variable {fileOf : client -> file} {s : State client reader file}
variable {a : Ioctl.Action client}

theorem ioctlStep_of_plain (h : Plain s a) :
    ioctlStep fileOf s a = runIoctl fileOf s a := by
  cases a with
  | call t req => rfl
  | interrupt t => rfl
  | worker allocOk =>
      simp only [ioctlStep]
      split
      · rename_i hw
        exact absurd hw (h.worker allocOk rfl)
      · rfl
  | client t =>
      simp only [ioctlStep]
      split
      · rename_i hpc
        exact absurd hpc (h.clamp t rfl)
      · rename_i hpc
        exact absurd hpc (h.copy t rfl)
      · rename_i hpc
        exact absurd hpc (h.cleanUp t rfl)
      · rfl

theorem vector_of_plain {u : Ioctl.State client file} (h : Plain s a)
    (hmove : Ioctl.Move fileOf s.ioctl a u) :
    u.g.rtUpdateVector = s.g.rtUpdateVector := by
  cases hmove with
  | snapshot hw => exact absurd hw (h.worker _ rfl)
  | clamp hpc => exact absurd hpc (h.clamp _ rfl)
  | cleanUp hpc => exact absurd hpc (h.cleanUp _ rfl)
  | _ => rfl

end Plain

section Steps

variable [DecidableEq client] [DecidableEq reader] [DecidableEq file]
variable [Fintype reader] {fileOf : client -> file}
variable {m : Mixed.State client reader file}
variable {s v : State client (Option reader) file}
variable {u : Ioctl.State client file}

theorem reachable_ioctl {a : Ioctl.Action client}
    (hallowed : a.isInterrupt = false) (h : ioctlStep fileOf s a = some v) :
    Transition.Reachable (step fileOf) Disciplined s v :=
  Transition.Reachable.step Transition.Reachable.start (a := .ioctl a)
    hallowed h

theorem exists_plain {a : Ioctl.Action client} (h : Alongside m s)
    (hallowed : a.isInterrupt = false) (hplain : Plain s a)
    (hstep : Ioctl.step fileOf m.ioctl a = some u) :
    exists v, Transition.Reachable (step fileOf) Disciplined s v ∧
      Alongside { ioctl := u, poll := { m.poll with g := u.g }, shared := rfl }
        v := by
  rw [← h.ioctl] at hstep
  have hrun : ioctlStep fileOf s a = some (s.withIoctl u) := by
    rw [ioctlStep_of_plain hplain]
    unfold runIoctl
    rw [hstep]
    rfl
  have hvector := vector_of_plain hplain (Ioctl.move_of_step hstep)
  have hcoherent : Coherent (s.withIoctl u).readers := by
    refine Eq.trans h.readers.coherent (congrArg UpdateVector.forget ?_)
    rw [s.shared]
    exact hvector.symm
  exact ⟨_, reachable_ioctl hallowed hrun, {
    ioctl := rfl
    readers := h.readers.access rfl rfl rfl rfl hcoherent
    sub := h.sub
    storing := h.storing }⟩

theorem exists_snapshot {allocOk : Bool} (h : Alongside m s)
    (hw : s.ioctl.worker = .snapshot)
    (hstep : Ioctl.step fileOf m.ioctl (.worker allocOk) = some u) :
    exists v, Transition.Reachable (step fileOf) Disciplined s v ∧
      Alongside { ioctl := u, poll := { m.poll with g := u.g }, shared := rfl }
        v := by
  rw [← h.ioctl] at hstep
  simp only [Ioctl.step, Ioctl.workerStep, hw] at hstep
  cases hstep
  let published := (s.withReaders (s.readers.publish allocOk)).setStoring
    (some (s.readers.published allocOk))
  have hpublish : ioctlStep fileOf s (.worker allocOk) = some published := by
    simp only [ioctlStep, hw, snapshotStep, h.storing]
    rfl
  have hstore : ioctlStep fileOf published (.worker allocOk) =
      some (((published.setCount (s.readers.published allocOk)).setWorker
        .loadReaders).setStoring none) := by
    have hat : published.ioctl.worker = .snapshot := hw
    simp only [ioctlStep, hat, snapshotStep]
    rfl
  refine ⟨_, Transition.reachable_trans (reachable_ioctl rfl hpublish)
    (reachable_ioctl rfl hstore), ?_⟩
  have hg := setCount_publish s.readers allocOk
  rw [s.shared] at hg
  refine {
    ioctl := ?_
    readers := h.readers.access hg ?_ ?_ ?_ (coherent_publish _ allocOk)
    sub := h.sub
    storing := rfl }
  · show { s.ioctl with
      g := ((s.readers.publish allocOk).setCount
        (s.readers.published allocOk)).g
      worker := .loadReaders } = _
    rw [hg]
  · cases allocOk <;> rfl
  · cases allocOk <;> rfl
  · cases allocOk <;> rfl

theorem start_update {sub : client -> Sub} {t : client}
    (h : forall t', t' ≠ t -> sub t' = .start) (t' : client) :
    Function.update sub t .start t' = .start := by
  by_cases ht : t' = t
  · rw [ht, Function.update_self]
  · rw [Function.update_of_ne ht, h t' ht]

theorem start_updates {sub : client -> Sub} (h : forall t, sub t = .start)
    (t : client) (at' : Sub) (t' : client) :
    Function.update (Function.update sub t at') t .start t' = .start :=
  start_update (fun other hne => by
    rw [Function.update_of_ne hne, h other]) t'

theorem exists_clamp {t : client} (h : Alongside m s)
    (hpc : s.ioctl.pc t = .clamp)
    (hstep : Ioctl.step fileOf m.ioctl (.client t) = some u) :
    exists v, Transition.Reachable (step fileOf) Disciplined s v ∧
      Alongside { ioctl := u, poll := { m.poll with g := u.g }, shared := rfl }
        v := by
  rw [← h.ioctl] at hstep
  simp only [Ioctl.step, Ioctl.clientStep, hpc] at hstep
  cases hstep
  unfold Globals.clampUpdateVectorCount
  by_cases hover : s.ioctl.g.rtUpdateVectorCount > rtMaxEntriesFetch
  · have htest : ioctlStep fileOf s (.client t) =
        some (s.setSub t .clamp) := by
      simp only [ioctlStep, hpc, clampStep, h.sub t]
      exact congrArg some (if_pos hover)
    have hclamp : ioctlStep fileOf (s.setSub t .clamp) (.client t) =
        some ((((s.setSub t .clamp).setCount rtMaxEntriesFetch).setSub t
          .start).goto t (.lockQ .subscribe)) := by
      have hat : (s.setSub t .clamp).ioctl.pc t = .clamp := hpc
      have hsub : (s.setSub t .clamp).sub t = .clamp :=
        Function.update_self _ _ _
      simp only [ioctlStep, hat, clampStep, hsub]
    rw [if_pos hover]
    exact ⟨_, Transition.reachable_trans (reachable_ioctl rfl htest)
      (reachable_ioctl rfl hclamp), {
        ioctl := by rw [← s.shared]; rfl
        readers := h.readers.access
          (by rw [← s.shared]; rfl) rfl rfl rfl h.readers.coherent
        sub := start_updates h.sub t .clamp
        storing := h.storing }⟩
  · have htest : ioctlStep fileOf s (.client t) =
        some (s.goto t (.lockQ .subscribe)) := by
      simp only [ioctlStep, hpc, clampStep, h.sub t]
      exact congrArg some (if_neg hover)
    rw [if_neg hover]
    exact ⟨_, reachable_ioctl rfl htest, {
      ioctl := rfl
      readers := h.readers.access s.shared rfl rfl rfl h.readers.coherent
      sub := h.sub
      storing := h.storing }⟩

theorem exists_copyStep {t : client} (h : Alongside m s)
    (hpc : s.ioctl.pc t = .copy)
    (hstep : Ioctl.step fileOf m.ioctl (.client t) = some u) :
    exists v, Transition.Reachable (step fileOf) Disciplined s v ∧
      Alongside { ioctl := u, poll := { m.poll with g := u.g }, shared := rfl }
        v := by
  rw [← h.ioctl] at hstep
  let begun := (s.addUser (.subscribeOut
    (sizeofRtEntry * s.g.rtUpdateVectorCount))).setSub t .copying
  have hbegin : ioctlStep fileOf s (.client t) = some begun := by
    simp only [ioctlStep, hpc, copyStep, h.sub t]
    rfl
  have hend : ioctlStep fileOf begun (.client t) =
      some (((begun.withIoctl u).addUser
        (.subscribed s.g.rtUpdateVectorCount)).setSub t .start) := by
    have hat : begun.ioctl.pc t = .copy := hpc
    have hsub : begun.sub t = .copying := Function.update_self _ _ _
    have hrun : runIoctl fileOf begun (.client t) =
        some (begun.withIoctl u) := by
      unfold runIoctl
      exact congrArg (Option.map begun.withIoctl) hstep
    simp only [ioctlStep, hat, copyStep, hsub, hrun]
    rfl
  have hg : u.g = s.ioctl.g := by
    simp only [Ioctl.step, Ioctl.clientStep, hpc] at hstep
    cases hstep
    rfl
  exact ⟨_, Transition.reachable_trans (reachable_ioctl rfl hbegin)
    (reachable_ioctl rfl hend), {
      ioctl := rfl
      readers := h.readers.access rfl rfl rfl rfl (by
        show s.readers.pointee s.readers.pointer = u.g.rtUpdateVector.forget
        rw [hg, ← s.shared]
        exact h.readers.coherent)
      sub := start_updates h.sub t .copying
      storing := h.storing }⟩

theorem exists_cleanUp {t : client} (h : Alongside m s)
    (hpc : s.ioctl.pc t = .cleanUp)
    (hstep : Ioctl.step fileOf m.ioctl (.client t) = some u) :
    exists v, Transition.Reachable (step fileOf) Disciplined s v ∧
      Alongside { ioctl := u, poll := { m.poll with g := u.g }, shared := rfl }
        v := by
  rw [← h.ioctl] at hstep
  simp only [Ioctl.step, Ioctl.clientStep, hpc] at hstep
  cases hstep
  let reset := (s.setCount 0).setSub t .emptyList
  let emptied := (reset.withReaders { reset.readers with
    g := { reset.readers.g with
      table := reset.readers.g.table.rtEmptyChangeList } }).setSub t .free
  let freed := (emptied.withReaders emptied.readers.kfree).setSub t
    .resetPointer
  have hreset : ioctlStep fileOf s (.client t) = some reset := by
    simp only [ioctlStep, hpc, cleanUpStep, h.sub t]
    rfl
  have hempty : ioctlStep fileOf reset (.client t) = some emptied := by
    have hat : reset.ioctl.pc t = .cleanUp := hpc
    have hsub : reset.sub t = .emptyList := Function.update_self _ _ _
    simp only [ioctlStep, hat, cleanUpStep, hsub]
    rfl
  have hfree : ioctlStep fileOf emptied (.client t) = some freed := by
    have hat : emptied.ioctl.pc t = .cleanUp := hpc
    have hsub : emptied.sub t = .free := Function.update_self _ _ _
    simp only [ioctlStep, hat, cleanUpStep, hsub]
    rfl
  have hpointer : ioctlStep fileOf freed (.client t) =
      some ((freed.resetPointer.setSub t .start).goto t .signal) := by
    have hat : freed.ioctl.pc t = .cleanUp := hpc
    have hsub : freed.sub t = .resetPointer := Function.update_self _ _ _
    simp only [ioctlStep, hat, cleanUpStep, hsub]
  have hreach := Transition.reachable_trans
    (Transition.reachable_trans (reachable_ioctl rfl hreset)
      (reachable_ioctl rfl hempty))
    (Transition.reachable_trans (reachable_ioctl rfl hfree)
      (reachable_ioctl rfl hpointer))
  exact ⟨_, hreach, {
    ioctl := by rw [← s.shared]; rfl
    readers := h.readers.access (by rw [← s.shared]; rfl) rfl rfl rfl rfl
    sub := start_update fun other hne =>
      (Function.update_of_ne hne _ _).trans
        ((Function.update_of_ne hne _ _).trans
          ((Function.update_of_ne hne _ _).trans (h.sub other)))
    storing := h.storing }⟩

theorem exists_ioctl {a : Ioctl.Action client} (h : Alongside m s)
    (hallowed : a.isInterrupt = false)
    (hstep : Ioctl.step fileOf m.ioctl a = some u) :
    exists v, Transition.Reachable (step fileOf) Disciplined s v ∧
      Alongside { ioctl := u, poll := { m.poll with g := u.g }, shared := rfl }
        v := by
  cases a with
  | call t req =>
      refine exists_plain h hallowed ?_ hstep
      constructor <;> intro _ hact <;> cases hact
  | interrupt t => cases hallowed
  | worker allocOk =>
      by_cases hw : s.ioctl.worker = .snapshot
      · exact exists_snapshot h hw hstep
      · refine exists_plain h hallowed ?_ hstep
        constructor
        · intro _ _
          exact hw
        all_goals
          intro _ hact
          cases hact
  | client t =>
      by_cases hclamp : s.ioctl.pc t = .clamp
      · exact exists_clamp h hclamp hstep
      · by_cases hcopy : s.ioctl.pc t = .copy
        · exact exists_copyStep h hcopy hstep
        · by_cases hclean : s.ioctl.pc t = .cleanUp
          · exact exists_cleanUp h hclean hstep
          · refine exists_plain h hallowed ?_ hstep
            constructor
            · intro _ hact
              cases hact
            all_goals
              intro t' hact
              cases hact
              assumption

/-- What the readers do by themselves they do beside the scheduler. -/
theorem reachable_readers {w : Access.State (Option reader) file}
    (h : Transition.Reachable Access.step Access.Disciplined s.readers w) :
    Transition.Reachable (step fileOf) Disciplined s (s.withReaders w) := by
  induction h with
  | start =>
      rw [withReaders_self]
      exact Transition.Reachable.start
  | @step w w' a _ hallowed hstep ih =>
      refine Transition.Reachable.step ih (a := .readers a) hallowed ?_
      exact congrArg (Option.map (s.withReaders w).withReaders) hstep

/-- Every disciplined run of both paths with whole sections for steps is one
access by access. -/
theorem exists_shared_run
    (h : Transition.Reachable (Mixed.step fileOf) Mixed.Disciplined
      Mixed.State.init m) :
    exists s : State client (Option reader) file,
      Transition.Reachable (step fileOf) Disciplined State.init s ∧
        Alongside m s := by
  refine Transition.exists_refined_of_reachable Alongside alongside_init ?_ h
  intro m s a d hrel hallowed hstep
  cases a with
  | ioctl a =>
      rcases Option.map_eq_some_iff.mp hstep with ⟨u, hu, hd⟩
      rw [← hd]
      exact exists_ioctl hrel hallowed hu
  | poll a =>
      rcases Option.map_eq_some_iff.mp hstep with ⟨b, hb, hd⟩
      rw [← hd]
      rcases exists_section hrel.readers hallowed hb with ⟨w, hreach, hw⟩
      exact ⟨_, reachable_readers hreach, {
        ioctl := by
          show { s.ioctl with g := w.g } = _
          rw [hrel.ioctl, hw.g]
        readers := hw
        sub := hrel.sub
        storing := hrel.storing }⟩

end Steps

end Shared

end Access
end RIBDriver
