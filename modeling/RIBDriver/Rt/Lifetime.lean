import RIBDriver.Rt.Poll.Partition

/-!
# Open files and the reader lists

The poll protocol with the calls that begin and end the life of a file.
`rt_release` leaves both lists as they are, so that a released file stays on
the list it is on.
-/

namespace RIBDriver

namespace Globals

variable {file : Type _}

/-- `rt_open` fills the private data of its file and touches nothing shared. -/
def rtOpen (g : Globals file) (_filp : file) : Globals file × Int := (g, 0)

/-- `rt_release` prints a line. -/
def rtRelease (g : Globals file) (_filp : file) : Globals file × Int := (g, 0)

end Globals

namespace Lifetime

structure State (thread file : Type _) where
  poll : Poll.State thread file
  isOpen : file -> Bool

inductive Action (thread file : Type _) where
  | rtOpen (filp : file)
  /-- A step of `rt_poll`, `rt_read` or `rt_write` on the file. -/
  | call (filp : file) (a : Poll.Action thread file)
  | rtRelease (filp : file)
deriving DecidableEq

section Steps

variable {thread file : Type _} [DecidableEq thread] [DecidableEq file]

def State.init : State thread file where
  poll := Poll.State.init
  isOpen := fun _ => false

/-- The step belongs to a call on the file; `rt_write` does not look at it. -/
def IsOn (s : Poll.State thread file) (filp : file) :
    Poll.Action thread file -> Prop
  | .poll f _ _ => f = filp
  | .readEntry _ f _ _ => f = filp
  | .readCopy t => (s.pc t).file? = some filp
  | .readExit t _ => (s.pc t).file? = some filp
  | .write _ => True

instance (s : Poll.State thread file) (filp : file)
    (a : Poll.Action thread file) : Decidable (IsOn s filp a) :=
  match a with
  | .poll f _ _ => inferInstanceAs (Decidable (f = filp))
  | .readEntry _ f _ _ => inferInstanceAs (Decidable (f = filp))
  | .readCopy t => inferInstanceAs (Decidable ((s.pc t).file? = some filp))
  | .readExit t _ => inferInstanceAs (Decidable ((s.pc t).file? = some filp))
  | .write _ => isTrue trivial

variable [Fintype thread]

/-- A file is opened when it is not open, used while it is open, and released
when it is open and nobody is inside `rt_read` on it. -/
def step (s : State thread file) :
    Action thread file -> Option (State thread file)
  | .rtOpen filp =>
      if s.isOpen filp = true then none
      else
        some {
          poll := { s.poll with g := (s.poll.g.rtOpen filp).1 }
          isOpen := Function.update s.isOpen filp true }
  | .call filp a =>
      if s.isOpen filp = true ∧ IsOn s.poll filp a then
        (Poll.step s.poll a).map fun poll => { s with poll := poll }
      else none
  | .rtRelease filp =>
      if s.isOpen filp = true ∧ ¬ s.poll.Reading filp then
        some {
          poll := { s.poll with g := (s.poll.g.rtRelease filp).1 }
          isOpen := Function.update s.isOpen filp false }
      else none

end Steps

/-!
## Only open files are listed
-/

section Lists

variable {thread file : Type _}

/-- Both lists hold open files only, and so the count that decides when
`rt_read` empties the change list is the number of its open readers. -/
structure TracksOpen (s : State thread file) : Prop where
  readers : forall f, f ∈ s.poll.readers -> s.isOpen f = true
  black : forall f, f ∈ s.poll.black -> s.isOpen f = true
  counted : s.poll.g.rtGetPollReaderCount =
    (s.poll.readers.filter s.isOpen).length

theorem tracksOpen_iff {s : State thread file} :
    TracksOpen s <-> forall f, Poll.OnList s.poll f -> s.isOpen f = true := by
  constructor
  · intro h f hf
    rcases hf with hreaders | hblack
    · exact h.readers f hreaders
    · exact h.black f hblack
  · intro h
    constructor
    · intro f hf
      exact h f (Or.inl hf)
    · intro f hf
      exact h f (Or.inr hf)
    · have hall : s.poll.readers.filter s.isOpen = s.poll.readers := by
        apply List.filter_eq_self.mpr
        intro f hf
        exact h f (Or.inl hf)
      rw [hall]
      rfl

variable [DecidableEq file]

/-- A file that is released is on neither list. -/
def ReleasesUnlisted (s : State thread file) : Action thread file -> Prop
  | .rtRelease filp => ¬ Poll.OnList s.poll filp
  | _ => True

instance (s : Poll.State thread file) (f : file) :
    Decidable (Poll.OnList s f) :=
  inferInstanceAs (Decidable (f ∈ s.readers ∨ f ∈ s.black))

instance (s : State thread file) (a : Action thread file) :
    Decidable (ReleasesUnlisted s a) :=
  match a with
  | .rtRelease filp => inferInstanceAs (Decidable (¬ Poll.OnList s.poll filp))
  | .rtOpen _ => isTrue trivial
  | .call _ _ => isTrue trivial

end Lists

/-!
## What a step can list
-/

section Moves

variable {thread file : Type _}
variable {s u : Poll.State thread file} {filp f : file}

open Poll

theorem file_eq {t : thread} {p : ReadPc file} (hfile : p.file? = some f)
    (hpc : s.pc t = p) (hon : (s.pc t).file? = some filp) : f = filp := by
  rw [hpc, hfile] at hon
  exact Option.some.inj hon

variable [DecidableEq file]

theorem onList_of_register {f' : file} (h : OnList (s.register f') f) :
    OnList s f ∨ f = f' := by
  rcases h with hreaders | hblack
  · rw [readers_register] at hreaders
    split at hreaders
    · exact Or.inl (Or.inl hreaders)
    · rcases List.mem_cons.mp hreaders with hsame | hold
      · exact Or.inr hsame
      · exact Or.inl (Or.inl hold)
  · exact Or.inl (Or.inr hblack)

variable [DecidableEq thread]

theorem onList_of_leave {t : thread} {f' : file}
    (h : OnList (s.leave t f') f) : OnList s f ∨ f = f' := by
  rcases h with hreaders | hblack
  · exact Or.inl (Or.inl (List.mem_of_mem_erase hreaders))
  · rcases List.mem_cons.mp hblack with hsame | hold
    · exact Or.inr hsame
    · exact Or.inl (Or.inr hold)

theorem onList_of_move {a : Poll.Action thread file} (hmove : Move s a u)
    (hon : IsOn s filp a) (h : OnList u f) : OnList s f ∨ f = filp := by
  cases hmove with
  | @pollRegister f' hblack hempty =>
      have hown : f' = filp := hon
      rw [← hown]
      exact onList_of_register h
  | pollRotate hblack hempty hreaders =>
      rcases h with hmoved | hnone
      · exact Or.inl (Or.inr hmoved)
      · cases hnone
  | exitLast hpc hone =>
      rw [← file_eq rfl hpc hon]
      exact onList_of_leave (s := s.endBatch) h
  | exitOther hpc hone =>
      rw [← file_eq rfl hpc hon]
      exact onList_of_leave h
  | pollReady hblack hdata hidle => exact Or.inl h
  | pollStay => exact Or.inl h
  | entryInterrupted hpc => exact Or.inl h
  | entryFirst hpc hblack hvector => exact Or.inl h
  | entryLater hpc hblack => exact Or.inl h
  | copy hpc => exact Or.inl h
  | exitInterrupted hpc => exact Or.inl h
  | writeAdd hadd hreaders => exact Or.inl h
  | writeOther hadd => exact Or.inl h

end Moves

/-!
## Runs
-/

section Runs

variable {thread file : Type _}
variable {s u : State thread file}

theorem tracksOpen_init : TracksOpen (State.init : State thread file) := by
  apply tracksOpen_iff.mpr
  intro f hf
  rcases hf with hreaders | hblack
  · cases hreaders
  · cases hblack

variable [DecidableEq file]

theorem isOpen_update {isOpen : file -> Bool} {filp f : file}
    (h : isOpen f = true) : Function.update isOpen filp true f = true := by
  by_cases hsame : f = filp
  · rw [hsame, Function.update_self]
  · rw [Function.update_of_ne hsame]
    exact h

theorem isOpen_of_ne {isOpen : file -> Bool} {filp f : file}
    (hother : f ≠ filp) (h : isOpen f = true) :
    Function.update isOpen filp false f = true := by
  rw [Function.update_of_ne hother]
  exact h

variable [DecidableEq thread] [Fintype thread]

theorem call_eq_some {filp : file} {a : Poll.Action thread file}
    (h : step s (.call filp a) = some u) :
    (s.isOpen filp = true ∧ IsOn s.poll filp a) ∧
      Poll.Move s.poll a u.poll ∧ u.isOpen = s.isOpen := by
  unfold step at h
  dsimp only at h
  split at h
  · rename_i hguard
    rcases Option.map_eq_some_iff.mp h with ⟨poll, hpoll, hu⟩
    rw [← hu]
    exact ⟨hguard, Poll.move_of_step hpoll, rfl⟩
  · cases h

theorem release_eq_some {filp : file}
    (h : step s (.rtRelease filp) = some u) :
    u = { s with isOpen := Function.update s.isOpen filp false } := by
  unfold step at h
  dsimp only at h
  split at h
  · exact (Option.some.inj h).symm
  · cases h

theorem open_eq_some {filp : file} (h : step s (.rtOpen filp) = some u) :
    u = { s with isOpen := Function.update s.isOpen filp true } := by
  unfold step at h
  dsimp only at h
  split at h
  · cases h
  · exact (Option.some.inj h).symm

theorem tracksOpen_step_iff {a : Action thread file} (h : TracksOpen s)
    (hstep : step s a = some u) : TracksOpen u <-> ReleasesUnlisted s a := by
  have hlisted := tracksOpen_iff.mp h
  rw [tracksOpen_iff]
  cases a with
  | rtOpen filp =>
      rw [open_eq_some hstep]
      constructor
      · intro _
        exact trivial
      · intro _ f hf
        exact isOpen_update (hlisted f hf)
  | call filp a =>
      rcases call_eq_some hstep with ⟨hguard, hmove, hsame⟩
      rw [hsame]
      constructor
      · intro _
        exact trivial
      · intro _ f hf
        rcases onList_of_move hmove hguard.right hf with hold | hown
        · exact hlisted f hold
        · rw [hown]
          exact hguard.left
  | rtRelease filp =>
      rw [release_eq_some hstep]
      constructor
      · intro hafter hfilp
        have hopen : Function.update s.isOpen filp false filp = true :=
          hafter filp hfilp
        rw [Function.update_self] at hopen
        cases hopen
      · intro hunlisted f hf
        apply isOpen_of_ne
        · intro hsame
          rw [hsame] at hf
          exact hunlisted hf
        · exact hlisted f hf

/-- The lists hold open files throughout a run exactly if every file released
on the way is on neither of them. -/
theorem tracksOpen_iff_releasesUnlisted (actions : List (Action thread file)) :
    Transition.StatesMeet step TracksOpen State.init actions <->
      Transition.StepsMeet step ReleasesUnlisted State.init actions := by
  have hstays : forall (s : State thread file) a t, True -> True ->
      step s a = some t -> True := by
    intro s a t _ _ _
    exact trivial
  apply Transition.statesMeet_iff_stepsMeet hstays
  · intro s a t _ hs _ hstep
    exact tracksOpen_step_iff hs hstep
  · exact trivial
  · exact tracksOpen_init
  · exact Transition.stepsMeet_true State.init actions

end Runs

/-- A file waits for data and is released.  It stays on `rt->poll_readers_list`
and is the one reader counted, with no file open. -/
theorem exists_closed_reader :
    exists s : State (Fin 1) (Fin 1),
      Transition.Reachable step (fun _ _ => True) State.init s ∧
        (s.poll.g.rtGetPollReaderCount = 1 ∧ s.isOpen 0 = false) ∧
          ¬ TracksOpen s := by
  have hrun : exists s : State (Fin 1) (Fin 1),
      Transition.Reachable step (fun _ _ => True) State.init s ∧
        (s.poll.readers == [0] && !s.isOpen 0) = true :=
    Transition.exists_reachable_of_schedule
      [.rtOpen 0, .call 0 (.poll 0 false false), .rtRelease 0] _ (by decide)
  rcases hrun with ⟨s, hreach, htest⟩
  rw [Bool.and_eq_true, beq_iff_eq, Bool.not_eq_true'] at htest
  rcases htest with ⟨hreaders, hclosed⟩
  have hcount : s.poll.g.rtGetPollReaderCount = 1 :=
    congrArg List.length hreaders
  refine ⟨s, hreach, ⟨hcount, hclosed⟩, ?_⟩
  intro h
  have hmem : 0 ∈ s.poll.readers := by
    rw [hreaders]
    exact List.mem_cons_self
  have hopen := h.readers 0 hmem
  rw [hclosed] at hopen
  cases hopen

end Lifetime
end RIBDriver
