import RIBDriver.Rt.Select.Sections
import RIBDriver.Rt.Select.Wakeups

/-!
# Nothing left to do

When no call can go on, no lock is held and every reader that sleeps has read
what there is.
-/

namespace RIBDriver
namespace Select

variable {thread file : Type _}

/-- What a program or a timer decides. -/
def Action.isDecision : Action thread file -> Bool
  | .select _ _ _ => true
  | .giveUp _ => true
  | .read _ _ => true
  | .write _ _ => true
  | _ => false

/-- No wait is interrupted and no entry is written while a thread is about to
enter the queue. -/
def Undisturbed (s : State thread file) (a : Action thread file) : Prop :=
  a.isInterrupted = false ∧ Undivided s a

instance [Fintype thread] (s : State thread file) (a : Action thread file) :
    Decidable (Undisturbed s a) :=
  inferInstanceAs (Decidable (_ ∧ _))

def Stalled [DecidableEq thread] [DecidableEq file] [Fintype thread]
    (s : State thread file) : Prop :=
  forall a : Action thread file, a.isDecision = false ->
    a.isInterrupted = false -> step s a = none

/-- Every lock is free, every thread is outside of calls or sleeps unwoken, and
who sleeps on a file that is not blacklisted has nothing to read. -/
structure AtRest (s : State thread file) : Prop where
  sem : s.g.sem = 1
  cs : s.g.rtSerializeReadersCsSem = 1
  rwSem : s.g.rwSem = { readers := 0, writer := false }
  threads : forall t, s.pc t = .idle ∨
    exists call, s.pc t = .asleep call ∧ s.woken t = false
  noNews : forall t call, s.pc t = .asleep call -> call.filep ∉ s.black ->
    s.pending = []

/-- Without interruptions the lock counts the reads, and nobody takes
`rt->sem` for longer than a look. -/
structure Counted [Fintype thread] (s : State thread file) : Prop where
  readers : s.g.rwSem.readers = readersIn s.pc
  sem : s.g.sem = 1

section Steps

variable [Fintype thread]
variable {s v : State thread file}

theorem counted_init : Counted (State.init : State thread file) where
  readers := (Counting.total_eq_zero_iff.mpr fun _ => rfl).symm
  sem := rfl

theorem counted_goto [DecidableEq thread]
    {t : thread} {next : Pc file} (h : Counted s)
    (hpc : v.pc = Function.update s.pc t next) (hsem : v.g.sem = s.g.sem)
    (hreaders : v.g.rwSem.readers + (s.pc t).holdsRead.toNat =
      s.g.rwSem.readers + next.holdsRead.toNat) : Counted v where
  readers := by
    have hcounts := (counts_goto s.pc t next).left
    have hold := h.readers
    rw [hpc]
    lia
  sem := hsem.trans h.sem

theorem sem_rtReadFirst (g : Globals file) (allocOk : Bool) :
    (g.rtReadFirst allocOk).sem = g.sem := by
  rcases g.exists_rtReadFirst_eq allocOk with ⟨vector, n, hfirst⟩
  rw [hfirst]

variable [DecidableEq file]

theorem sem_rtPollWait (g : Globals file) (f : file)
    (nonblock black data : Bool) :
    (g.rtPollWait f nonblock black data).1.sem = g.sem := by
  unfold Globals.rtPollWait
  split
  · split <;> rfl
  · split
    · rfl
    · split <;> rfl

theorem sem_rtReadLast (g : Globals file) (f : file) :
    (g.rtReadLast f).sem = g.sem := by
  unfold Globals.rtReadLast
  dsimp only
  split <;> rfl

variable [DecidableEq thread]

theorem counted_step {a : Action thread file} (h : Counted s)
    (hquiet : a.isInterrupted = false) (hstep : step s a = some v) :
    Counted v := by
  cases move_of_step hstep with
  | pollInterrupted _ | firstInterrupted _ | lastInterrupted _ => cases hquiet
  | select hpc | resume hpc | giveUp hpc | pollDown hpc | firstDown hpc
  | lastDown hpc | lookReady hpc | lookOn hpc | read hpc | copy hpc | write hpc
  | apply hpc | upWrite hpc | wakeUp hpc =>
      exact counted_goto h rfl rfl (by rw [hpc]; rfl)
  | @sleep t call black data hpc | @again t call black data hpc =>
      have hlocks := rwSem_rtPollWait s.g call.filep call.nonblock black data
      refine counted_goto h rfl (sem_rtPollWait s.g _ _ _ _) ?_
      rw [hpc]
      exact congrArg RwSem.readers hlocks.left
  | @first t f allocOk hpc =>
      have hlocks := rwSem_rtReadFirst s.g allocOk
      refine counted_goto h rfl (sem_rtReadFirst s.g allocOk) ?_
      rw [hpc]
      exact congrArg (fun l => RwSem.readers l + 1) hlocks.left
  | @last t f hpc =>
      have hlocks := rwSem_rtReadLast s.g f
      refine counted_goto h rfl (sem_rtReadLast s.g f) ?_
      rw [hpc]
      exact congrArg (fun l => RwSem.readers l + 1) hlocks.left
  | @upRead t hpc =>
      have hone := Counting.measure_le_total
        (fun _ p => Bool.toNat (Pc.holdsRead p)) s.pc t
      have hreaders := h.readers
      unfold readersIn at hreaders
      rw [hpc] at hone
      change 1 ≤ _ at hone
      refine counted_goto h rfl rfl ?_
      rw [hpc]
      show s.g.rwSem.readers - 1 + 1 = s.g.rwSem.readers + 0
      lia

end Steps

/-!
## Stalled states
-/

section Stalled

variable [DecidableEq thread] [DecidableEq file]
variable {s : State thread file}

theorem pollWaitStep_ne_none {t : thread} {call : PollCall file}
    {black data : Bool} (hpc : s.pc t = .pollWait call black data) :
    pollWaitStep s t ≠ none := by
  intro hnone
  unfold pollWaitStep at hnone
  rw [hpc] at hnone
  simp only at hnone
  split at hnone <;> cases hnone

theorem not_holdsCs_of_stalled [Fintype thread]
    (hcounted : Counted s) (h : Stalled s)
    (t : thread) : (s.pc t).holdsCs = false := by
  have hsem : ¬ (s.g.sem = 0 ∧ false = false) := by
    rw [hcounted.sem]
    exact fun hc => absurd hc.left Nat.one_ne_zero
  cases hpc : s.pc t with
  | pollLook call =>
      have hnone := h (.look t false) rfl rfl
      change lookStep s t false = none at hnone
      unfold lookStep at hnone
      rw [hpc] at hnone
      change (if s.g.sem = 0 ∧ false = false then none else _) = none at hnone
      rw [if_neg hsem] at hnone
      dsimp only at hnone
      split at hnone <;> cases hnone
  | pollWait call black data =>
      exact absurd (h (.pollWait t) rfl rfl) (pollWaitStep_ne_none hpc)
  | readFirst f =>
      have hnone := h (.first t true) rfl rfl
      simp only [step, readStep, hpc] at hnone
      cases hnone
  | readLast f =>
      have hnone := h (.last t) rfl rfl
      simp only [step, readStep, hpc] at hnone
      cases hnone
  | _ => rfl

theorem idle_or_asleep_of_stalled [Fintype thread] (h : Stalled s)
    (hcs : s.g.rtSerializeReadersCsSem = 1)
    (hfree : forall t, (s.pc t).holdsCs = false) (t : thread) :
    s.pc t = .idle ∨ exists call, s.pc t = .asleep call ∧ s.woken t = false := by
  have hnonzero : ¬ s.g.rtSerializeReadersCsSem = 0 := by
    rw [hcs]
    exact Nat.one_ne_zero
  have hdown := h (.downCs t false) rfl rfl
  change downCsStep s t false = none at hdown
  unfold downCsStep at hdown
  cases hpc : s.pc t with
  | idle => exact Or.inl rfl
  | asleep call =>
      refine Or.inr ⟨call, rfl, ?_⟩
      have hnone := h (.resume t) rfl rfl
      simp only [step, selectStep, hpc] at hnone
      split at hnone
      · cases hnone
      · rename_i hwoken
        exact Bool.eq_false_of_not_eq_true hwoken
  | pollLock call | readLock f | lastLock f =>
      rw [hpc] at hdown
      simp only [Bool.false_eq_true, if_false, if_neg hnonzero] at hdown
      cases hdown
  | pollLook call | pollWait call black data | readFirst f | readLast f =>
      have hheld := hfree t
      rw [hpc] at hheld
      cases hheld
  | readCopy f =>
      have hnone := h (.copy t) rfl rfl
      simp only [step, readStep, hpc] at hnone
      cases hnone
  | upRead =>
      have hnone := h (.upRead t) rfl rfl
      simp only [step, readStep, hpc] at hnone
      cases hnone
  | apply kmsg =>
      have hnone := h (.apply t) rfl rfl
      simp only [step, writeStep, hpc] at hnone
      cases hnone
  | upWrite =>
      have hnone := h (.upWrite t) rfl rfl
      simp only [step, writeStep, hpc] at hnone
      cases hnone
  | wakeUp =>
      have hnone := h (.wakeUp t) rfl rfl
      simp only [step, writeStep, hpc] at hnone
      cases hnone

theorem stalled_of_idle_or_asleep [Fintype thread]
    (h : forall t, s.pc t = .idle ∨
      exists call, s.pc t = .asleep call ∧ s.woken t = false) :
    Stalled s := by
  intro a hdecision _
  cases a with
  | select t f nonblock | giveUp t | read t f | write t kmsg => cases hdecision
  | downCs t interrupted =>
      show downCsStep s t interrupted = none
      unfold downCsStep
      rcases h t with hpc | ⟨call, hpc, _⟩ <;> rw [hpc]
  | look t interrupted =>
      show lookStep s t interrupted = none
      unfold lookStep
      rcases h t with hpc | ⟨call, hpc, _⟩ <;> rw [hpc]
  | pollWait t =>
      show pollWaitStep s t = none
      unfold pollWaitStep
      rcases h t with hpc | ⟨call, hpc, _⟩ <;> rw [hpc]
  | resume t =>
      rcases h t with hpc | ⟨call, hpc, hwoken⟩
      · simp only [step, selectStep, hpc]
      · simp only [step, selectStep, hpc, hwoken, Bool.false_eq_true, if_false]
  | first t allocOk | copy t | last t | upRead t =>
      rcases h t with hpc | ⟨call, hpc, _⟩ <;> simp only [step, readStep, hpc]
  | apply t | upWrite t | wakeUp t =>
      rcases h t with hpc | ⟨call, hpc, _⟩ <;> simp only [step, writeStep, hpc]

theorem invariants_of_undisturbed [Fintype thread]
    (h : Transition.Reachable step Undisturbed State.init s) :
    Locked s ∧ Heard s ∧ Counted s := by
  refine Transition.reachable_invariant
    (fun s : State thread file => Locked s ∧ Heard s ∧ Counted s)
    ⟨locked_init, heard_init, counted_init⟩ ?_ h
  intro s a v hinv hallowed hstep
  rcases hinv with ⟨hlocked, hheard, hcounted⟩
  exact ⟨locked_step hlocked hstep,
    heard_step hlocked hheard hallowed.right hstep,
    counted_step hcounted hallowed.left hstep⟩

theorem atRest_of_stalled [Fintype thread]
    (hlocked : Locked s) (hheard : Heard s)
    (hcounted : Counted s) (hstalled : Stalled s) : AtRest s := by
  have hfree := not_holdsCs_of_stalled hcounted hstalled
  have hcs : s.g.rtSerializeReadersCsSem = 1 := by
    have hone := hlocked.cs
    have hnone : holders s.pc = 0 :=
      Counting.total_eq_zero_iff.mpr fun t => by rw [hfree t]; rfl
    lia
  have hthreads := idle_or_asleep_of_stalled hstalled hcs hfree
  -- a property of the two places a thread can be at holds everywhere
  have heverywhere : forall p : Pc file -> Bool, p .idle = false ->
      (forall call, p (.asleep call) = false) ->
        forall t, p (s.pc t) = false := by
    intro p hidle hasleep t
    rcases hthreads t with hpc | ⟨call, hpc, _⟩
    · rw [hpc]
      exact hidle
    · rw [hpc]
      exact hasleep call
  constructor
  · exact hcounted.sem
  · exact hcs
  · have hreaders : s.g.rwSem.readers = 0 := by
      rw [hcounted.readers]
      refine Counting.total_eq_zero_iff.mpr fun t => ?_
      rw [heverywhere Pc.holdsRead rfl (fun _ => rfl) t]
      rfl
    have hwriter : s.g.rwSem.writer.toNat = 0 := by
      rw [← hlocked.writer]
      refine Counting.total_eq_zero_iff.mpr fun t => ?_
      rw [heverywhere Pc.writes rfl (fun _ => rfl) t]
      rfl
    cases hrw : s.g.rwSem with
    | mk readers writer =>
        rw [hrw] at hreaders hwriter
        cases writer with
        | true => cases hwriter
        | false => exact congrArg (fun n => RwSem.mk n false) hreaders
  · exact hthreads
  · intro t call hpc hfresh
    by_contra hnews
    rcases hheard.told t call hpc hfresh hnews with hwoken | ⟨u, hu⟩
    · rcases hthreads t with hidle | ⟨other, _, hunwoken⟩
      · rw [hpc] at hidle
        cases hidle
      · rw [hunwoken] at hwoken
        cases hwoken
    · rw [heverywhere Pc.willWake rfl (fun _ => rfl) u] at hu
      cases hu

/-- In every run without interruptions in which no entry is written between the
look of a first poll and its entry into the queue: when no call can go on, no
lock is held, nobody waits for one, and whoever sleeps on a file that is not
blacklisted has read every update. -/
theorem rest_of_stalled [Fintype thread]
    (h : Transition.Reachable step Undisturbed State.init s)
    (hstalled : Stalled s) : AtRest s := by
  rcases invariants_of_undisturbed h with ⟨hlocked, hheard, hcounted⟩
  exact atRest_of_stalled hlocked hheard hcounted hstalled

theorem rest_of_stalled_asleep :
    exists s : State (Fin 2) (Fin 2), s.pc 0 = .asleep firstPoll ∧
      s.g.table.next ≠ 0 ∧ AtRest s := by
  have hrun : exists s : State (Fin 2) (Fin 2),
      Transition.Reachable step Undisturbed State.init s ∧
        decide (s.pc 0 = .asleep firstPoll ∧ s.woken 0 = false ∧
          s.pc 1 = .idle ∧ s.g.table.next ≠ 0) = true :=
    Transition.exists_reachable_of_schedule
      ([.select 0 0 false, .downCs 0 false, .look 0 false, .pollWait 0] ++
        writeOnce ++
        [.resume 0, .downCs 0 false, .look 0 false, .read 0 0, .downCs 0 false,
          .first 0 true, .copy 0, .downCs 0 false, .last 0, .upRead 0,
          .select 0 0 false, .downCs 0 false, .look 0 false, .pollWait 0]) _
      (by decide +kernel)
  rcases hrun with ⟨s, hreach, htest⟩
  rcases of_decide_eq_true htest with ⟨hpc, hwoken, hidle, hwritten⟩
  have hstalled : Stalled s := by
    refine stalled_of_idle_or_asleep fun t => ?_
    match t with
    | 0 => exact Or.inr ⟨firstPoll, hpc, hwoken⟩
    | 1 => exact Or.inl hidle
  exact ⟨s, hpc, hwritten, rest_of_stalled hreach hstalled⟩

end Stalled

end Select
end RIBDriver
