import RIBDriver.Rt.Poll.Delivery

/-!
# Stuck batches

The blacklist goes back to `rt->poll_readers_list` only when a blacklisted file
is polled at a moment when nothing is pending and no file is registered.  Two
steps miss that moment: a write that comes after the last reader and before the
rotation, and a read that ends a batch nobody is registered for.
-/

namespace RIBDriver
namespace Poll

variable {thread file : Type _}

/-- While something is pending and there are readers at all, one of them can
still be told to read. -/
def NotStuck (s : State thread file) : Prop :=
  s.pending ≠ [] -> s.readers ≠ [] ∨ s.black ≠ [] ->
    exists f, f ∈ s.readers ∧ f ∉ s.black

/-- No update is added while the blacklist waits for its rotation, and no read
leaves while something is pending and no file is registered. -/
def Timely (s : State thread file) : Action thread file -> Prop
  | .write kmsg =>
      kmsg.opCode = rtRouteAdd -> ¬ (s.readers = [] ∧ s.black ≠ [])
  | .readExit _ _ => ¬ (s.readers = [] ∧ s.pending ≠ [])
  | _ => True

instance (s : State thread file) (a : Action thread file) :
    Decidable (Timely s a) :=
  match a with
  | .write kmsg =>
      inferInstanceAs (Decidable (kmsg.opCode = rtRouteAdd ->
        ¬ (s.readers = [] ∧ s.black ≠ [])))
  | .readExit _ _ =>
      inferInstanceAs (Decidable (¬ (s.readers = [] ∧ s.pending ≠ [])))
  | .poll _ _ _ => isTrue trivial
  | .readEntry _ _ _ _ => isTrue trivial
  | .readCopy _ => isTrue trivial

section Steps

variable {s v : State thread file}

theorem notStuck_iff (h : Listed s) :
    NotStuck s <-> ¬ (s.pending ≠ [] ∧ s.readers = [] ∧ s.black ≠ []) := by
  constructor
  · intro hnot hall
    rcases hall with ⟨hpending, hreaders, hblack⟩
    rcases hnot hpending (Or.inr hblack) with ⟨f, hf, _⟩
    rw [hreaders] at hf
    cases hf
  · intro hnone hpending hsome
    cases hreaders : s.readers with
    | nil =>
        rcases hsome with hsome | hsome
        · exact absurd hreaders hsome
        · exact absurd ⟨hpending, hreaders, hsome⟩ hnone
    | cons f rest =>
        have hf : f ∈ s.readers := by
          rw [hreaders]
          exact List.mem_cons_self
        exact ⟨f, List.mem_cons_self, h.disjoint f hf⟩

variable [DecidableEq file]

theorem erase_eq_nil_iff {readers : List file} (f : file)
    (h : readers.length ≠ 1) : readers.erase f = [] <-> readers = [] := by
  constructor
  · intro hnil
    by_contra hsome
    have hlength := List.length_erase_add_one (a := f) (l := readers)
    have hpos := List.length_pos_of_ne_nil hsome
    by_cases hmem : f ∈ readers
    · have hone := hlength hmem
      rw [hnil] at hone
      exact h hone.symm
    · rw [List.erase_of_not_mem hmem] at hnil
      exact hsome hnil
  · intro hnil
    rw [hnil]
    rfl

variable [DecidableEq thread]

theorem notStuck_step_iff {a : Action thread file}
    (h : Regular s) (hdisciplined : Disciplined s a) (hnot : NotStuck s)
    (hmove : Move s a v) : NotStuck v <-> Timely s a := by
  have hregular := regular_step h hdisciplined hmove
  rw [notStuck_iff h.listed] at hnot
  rw [notStuck_iff hregular.listed]
  cases hmove with
  | pollReady hblack hdata hidle => exact iff_of_true hnot trivial
  | pollStay => exact iff_of_true hnot trivial
  | pollRegister hblack hempty =>
      refine iff_of_true ?_ trivial
      intro hall
      rw [(pending_register s _).left] at hall
      exact hall.left hempty
  | pollRotate hblack hempty hreaders =>
      exact iff_of_true (fun hall => hall.left hempty) trivial
  | entryInterrupted hpc => cases hdisciplined.left
  | entryFirst hpc hblack hvector => exact iff_of_true hnot trivial
  | entryLater hpc hblack => exact iff_of_true hnot trivial
  | copy hpc => exact iff_of_true hnot trivial
  | exitInterrupted hpc => cases hdisciplined.left
  | exitLast hpc hone =>
      refine iff_of_true (fun hall => hall.left rfl) ?_
      intro hboth
      rw [hboth.left] at hone
      cases hone
  | exitOther hpc hone =>
      rename_i t f
      show ¬ (s.pending ≠ [] ∧ s.readers.erase f = [] ∧
        f :: s.black ≠ []) <-> ¬ (s.readers = [] ∧ s.pending ≠ [])
      rw [erase_eq_nil_iff f hone]
      constructor
      · intro hnone hboth
        exact hnone ⟨hboth.right, hboth.left, List.cons_ne_nil _ _⟩
      · intro hnone hall
        exact hnone ⟨hall.right.left, hall.left⟩
  | writeAdd hadd hreaders =>
      show ¬ (s.g.table.next :: s.pending ≠ [] ∧ s.readers = [] ∧
        s.black ≠ []) <-> (_ -> ¬ (s.readers = [] ∧ s.black ≠ []))
      constructor
      · intro hnone _ hboth
        exact hnone ⟨List.cons_ne_nil _ _, hboth⟩
      · intro htimely hall
        exact htimely hadd hall.right
  | writeOther hadd =>
      refine iff_of_true hnot ?_
      intro hop
      exact absurd hop hadd

end Steps

/-- A disciplined run is never stuck exactly if all its writes and read exits
are timely. -/
theorem notStuck_iff_timely [DecidableEq thread] [DecidableEq file]
    [Fintype thread]
    {actions : List (Action thread file)}
    (h : Transition.StepsMeet step Disciplined State.init actions) :
    Transition.StatesMeet step NotStuck State.init actions <->
      Transition.StepsMeet step Timely State.init actions := by
  refine Transition.statesMeet_iff_stepsMeet ?_ ?_
    regular_init ?_ h
  · intro s a v hregular hdisciplined hstep
    exact regular_step hregular hdisciplined (move_of_step hstep)
  · intro s a v hregular hnot hdisciplined hstep
    exact notStuck_step_iff hregular hdisciplined hnot (move_of_step hstep)
  · intro hpending
    exact absurd rfl hpending

theorem notStuck_two_batches :
    Transition.StatesMeet step NotStuck (State.init : State (Fin 3) (Fin 3))
      ([pollOnce 0, pollOnce 1, .write someUpdate, pollOnce 0, pollOnce 1] ++
        readOnce 1 ++ readOnce 0 ++
        [pollOnce 0, .write someUpdate, pollOnce 0] ++ readOnce 0) :=
  (notStuck_iff_timely (by decide +kernel)).mpr (by decide +kernel)

/-- A file reads an update and the next one is written before it polls again:
every reader is on the blacklist, and only an empty change list would bring it
back. -/
theorem exists_stuck :
    exists s : State (Fin 3) (Fin 3),
      Transition.Reachable step Supplied State.init s ∧
        (s.pending = [1] ∧ s.readers = [] ∧ s.black = [0]) ∧ ¬ NotStuck s := by
  have hrun : exists s : State (Fin 3) (Fin 3),
      Transition.Reachable step Supplied State.init s ∧
        (decide (s.pending = [1] ∧ s.readers = [] ∧ s.black = [0])) = true :=
    Transition.exists_reachable_of_schedule
      ([pollOnce 0, .write someUpdate, pollOnce 0] ++ readOnce 0 ++
        [.write someUpdate]) _
      (by decide +kernel)
  rcases hrun with ⟨s, hreach, htest⟩
  rcases of_decide_eq_true htest with ⟨hpending, hreaders, hblack⟩
  refine ⟨s, hreach, ⟨hpending, hreaders, hblack⟩, ?_⟩
  intro hnot
  have hsome : exists f, f ∈ s.readers ∧ f ∉ s.black := by
    apply hnot
    · rw [hpending]
      exact List.cons_ne_nil _ _
    · rw [hblack]
      exact Or.inr (List.cons_ne_nil _ _)
  rcases hsome with ⟨f, hf, _⟩
  rw [hreaders] at hf
  cases hf

end Poll
end RIBDriver
