import RIBDriver.Rt.Ioctl.Order
import RIBDriver.Rt.Poll.Delivery

/-!
# Both access paths on one table

Clients of the ioctl scheduler and of the poll protocol run side by side on the
same shared variables.  Any wait may be interrupted and reads need no poll
before them.
-/

namespace RIBDriver
namespace Mixed

variable {client reader file : Type _}

structure State (client reader file : Type _) where
  ioctl : Ioctl.State client file
  poll : Poll.State reader file
  shared : poll.g = ioctl.g

inductive Action (client reader file : Type _) where
  | ioctl (a : Ioctl.Action client)
  | poll (a : Poll.Action reader file)

namespace State

def init : State client reader file where
  ioctl := Ioctl.State.init
  poll := Poll.State.init
  shared := rfl

def table (s : State client reader file) : RtTable file := s.ioctl.g.table

end State

def step [DecidableEq client] [DecidableEq reader] [DecidableEq file]
    [Fintype reader] (fileOf : client -> file)
    (s : State client reader file) :
    Action client reader file -> Option (State client reader file)
  | .ioctl a =>
      (Ioctl.step fileOf s.ioctl a).map fun u =>
        { ioctl := u, poll := { s.poll with g := u.g }, shared := rfl }
  | .poll a =>
      (Poll.step s.poll a).map fun u =>
        { ioctl := { s.ioctl with g := u.g }, poll := u, shared := rfl }

def Sound (s : State client reader file) : Prop := s.table.Sound

def Linked (s : State client reader file) : Prop := s.table.Linked

/-- `purge_rt_table` runs only when no update is pending. -/
def PurgesIdle (s : State client reader file) :
    Action client reader file -> Prop
  | .ioctl (.client t) =>
      s.ioctl.pc t = .apply .purge -> s.table.pending = []
  | _ => True

section Steps

variable {s v : State client reader file} {fileOf : client -> file}

theorem linked_perform_iff {t : RtTable file} (hsound : t.Sound)
    (h : t.Linked) (op : Ioctl.WriterOp) :
    (op.perform t).Linked <-> (op = .purge -> t.pending = []) := by
  cases op with
  | update msg =>
      refine iff_of_true (RtTable.linked_apply hsound h msg) ?_
      intro hop
      cases hop
  | create entry =>
      refine iff_of_true (RtTable.linked_add hsound h entry) ?_
      intro hop
      cases hop
  | purge =>
      show t.purgeRtTable.Linked <-> _
      rw [RtTable.linked_purge_iff]
      simp

theorem sound_init : Sound (State.init : State client reader file) :=
  RtTable.sound_init

variable [DecidableEq file] [DecidableEq client]

theorem linked_ioctlMove_iff {i u : Ioctl.State client file}
    {a : Ioctl.Action client} (hsound : i.g.table.Sound)
    (h : i.g.table.Linked) (hmove : Ioctl.Move fileOf i a u) :
    u.g.table.Linked <->
      forall t, a = .client t -> i.pc t = .apply .purge ->
        i.g.table.pending = [] := by
  constructor
  · intro hlinked t hact hpc
    rw [hact] at hmove
    rw [Ioctl.table_of_apply hmove hpc] at hlinked
    exact (linked_perform_iff hsound h .purge).mp hlinked rfl
  · intro hidle
    cases Ioctl.tableChange_of_move hmove with
    | same htable hdone =>
        rw [htable]
        exact h
    | performed t op hact hpc htable hdone =>
        rw [htable]
        apply (linked_perform_iff hsound h op).mpr
        intro hop
        rw [hop] at hpc
        exact hidle t hact hpc
    | emptied htable hdone =>
        rw [htable]
        exact RtTable.linked_of_pending_nil rfl

variable [DecidableEq reader]

theorem linked_of_pollMove {p q : Poll.State reader file}
    {a : Poll.Action reader file} (hsound : p.g.table.Sound)
    (h : p.g.table.Linked) (hmove : Poll.Move p a q) : q.g.table.Linked := by
  cases hmove with
  | pollRegister hblack hempty =>
      apply RtTable.linked_of_pending_nil
      exact (Poll.pending_register p _).left.trans hempty
  | pollRotate hblack hempty hreaders => exact h
  | exitLast hpc hone => exact RtTable.linked_of_pending_nil rfl
  | exitOther hpc hone => exact h
  | writeAdd hadd hreaders => exact RtTable.linked_add hsound h _
  | pollReady hblack hdata hidle => exact h
  | pollStay => exact h
  | entryInterrupted hpc => exact h
  | entryFirst hpc hblack hvector => exact h
  | entryLater hpc hblack => exact h
  | copy hpc => exact h
  | exitInterrupted hpc => exact h
  | writeOther hadd => exact h

variable [Fintype reader]

theorem sound_step {a : Action client reader file} (h : Sound s)
    (hstep : step fileOf s a = some v) : Sound v := by
  cases a with
  | ioctl a =>
      rcases Option.map_eq_some_iff.mp hstep with ⟨u, hu, hv⟩
      rw [← hv]
      exact Ioctl.sound_of_move h (Ioctl.move_of_step hu)
  | poll a =>
      rcases Option.map_eq_some_iff.mp hstep with ⟨u, hu, hv⟩
      rw [← hv]
      refine Poll.sound_step ?_ (Poll.move_of_step hu)
      rw [s.shared]
      exact h

theorem linked_step_iff {a : Action client reader file} (hsound : Sound s)
    (h : Linked s) (hstep : step fileOf s a = some v) :
    Linked v <-> PurgesIdle s a := by
  cases a with
  | ioctl a =>
      rcases Option.map_eq_some_iff.mp hstep with ⟨u, hu, hv⟩
      rw [← hv]
      have hmove := Ioctl.move_of_step hu
      show u.g.table.Linked <-> _
      rw [linked_ioctlMove_iff hsound h hmove]
      cases a with
      | client t =>
          constructor
          · intro hidle
            exact hidle t rfl
          · intro hidle t' hact
            cases hact
            exact hidle
      | call t req => simp [PurgesIdle]
      | interrupt t => simp [PurgesIdle]
      | worker allocOk => simp [PurgesIdle]
  | poll a =>
      rcases Option.map_eq_some_iff.mp hstep with ⟨u, hu, hv⟩
      rw [← hv]
      refine iff_of_true ?_ trivial
      refine linked_of_pollMove ?_ ?_ (Poll.move_of_step hu)
      · rw [s.shared]
        exact hsound
      · rw [s.shared]
        exact h

end Steps

/-- In every run the pending updates point to live entries of the table in all
states exactly if no purge runs while an update is pending. -/
theorem linked_iff_purgesIdle [DecidableEq client] [DecidableEq reader]
    [DecidableEq file] [Fintype reader] (fileOf : client -> file)
    (actions : List (Action client reader file)) :
    Transition.StatesMeet (step fileOf) Linked State.init actions <->
      Transition.StepsMeet (step fileOf) PurgesIdle State.init actions := by
  refine Transition.statesMeet_iff_stepsMeet ?_ ?_ sound_init ?_
    (Transition.stepsMeet_true _ _)
  · intro s a v hsound _ hstep
    exact sound_step hsound hstep
  · intro s a v hsound h _ hstep
    exact linked_step_iff hsound h hstep
  · exact RtTable.linked_of_pending_nil rfl

def Disciplined (s : State client reader file) :
    Action client reader file -> Prop
  | .ioctl a => Ioctl.NoInterrupt s.ioctl a
  | .poll a => Poll.Disciplined s.poll a

instance (s : State client reader file) (a : Action client reader file) :
    Decidable (Disciplined s a) :=
  match a with
  | .ioctl a => inferInstanceAs (Decidable (Ioctl.NoInterrupt s.ioctl a))
  | .poll a => inferInstanceAs (Decidable (Poll.Disciplined s.poll a))

def purgeCall : List (Ioctl.Action (Fin 1)) :=
  .call 0 (.write .purge) :: Ioctl.clientRuns 0 3 ++ Ioctl.workerRuns 5 ++
    Ioctl.clientRuns 0 3

def subscribeAndCreate (subscriber creator : client) :
    List (Ioctl.Action client) :=
  Ioctl.callSubscribe subscriber ++ Ioctl.callCreate creator ++
    Ioctl.workerRuns 5 ++ Ioctl.clientRuns creator 3 ++ Ioctl.workerRuns 5

/-- An update written by `write()` is pending when a purge ioctl frees its
entry. -/
theorem exists_dangling_update :
    exists s : State (Fin 1) (Fin 1) (Fin 1),
      Transition.Reachable (step id) Disciplined State.init s ∧
        (s.table.pending = [0] ∧ s.table.rt = [] ∧ s.table.heap 0 = .freed) ∧
          ¬ Linked s := by
  have hrun : exists s : State (Fin 1) (Fin 1) (Fin 1),
      Transition.Reachable (step id) Disciplined State.init s ∧
        (decide (s.table.pending = [0] ∧ s.table.rt = [] ∧
          s.table.heap 0 = .freed)) = true :=
    Transition.exists_reachable_of_schedule
      (.poll (.write Poll.someUpdate) :: purgeCall.map .ioctl) _
      (by decide +kernel)
  rcases hrun with ⟨s, hreach, htest⟩
  have hdead := of_decide_eq_true htest
  refine ⟨s, hreach, hdead, ?_⟩
  intro hlinked
  have hmem : (0 : Nat) ∈ s.table.pending := by
    rw [hdead.left]
    exact List.mem_singleton.mpr rfl
  have hheld := (hlinked 0 hmem).left
  rw [hdead.right.left] at hheld
  cases hheld

end Mixed
end RIBDriver
