import RIBDriver.Rt.Poll.Delivery

/-!
# Registered readers stay listed

A file comes onto one of the two lists when `rt_poll` puts it to sleep as a
fresh reader or when a read of it ends.  From then on every step leaves it on
one of them, the move of the blacklist included: `rt_poll` moves it only over
an empty list.
-/

namespace RIBDriver

namespace Globals

variable {file : Type _} [DecidableEq file]

theorem mem_pollReadersList_of_rtPoll {g : Globals file} {f : file}
    {nonblock interrupted : Bool} (hblack : f ∉ g.blackListedPollReadersList)
    (hsleep : (g.rtPoll f nonblock interrupted).2 = 0) :
    f ∈ (g.rtPoll f nonblock interrupted).1.table.pollReadersList := by
  have hpolls := polls_rtPoll g f nonblock interrupted
  revert hsleep hpolls
  rcases g.rtPoll f nonblock interrupted with ⟨g', mask⟩
  intro hsleep hpolls
  cases hpolls with
  | ready _ hdata => cases hsleep
  | again _ hempty => cases hsleep
  | register _ hempty =>
      show f ∈ (g.table.addRtTableUniquePollReader f).pollReadersList
      unfold RtTable.addRtTableUniquePollReader
      split
      · rename_i hpresent
        exact of_decide_eq_true hpresent
      · exact List.mem_cons_self
  | stay hpresent => exact absurd hpresent hblack
  | rotate hpresent hempty hreaders => exact absurd hpresent hblack

end Globals

namespace Poll

variable {thread file : Type _}

def OnList (s : State thread file) (f : file) : Prop :=
  f ∈ s.readers ∨ f ∈ s.black

/-- The step puts a fresh reader to sleep or finishes a read of the file. -/
def Enrols [DecidableEq file]
    (s : State thread file) (f : file) : Action thread file -> Prop
  | .poll filep nonblock interrupted =>
      filep = f ∧ f ∉ s.black ∧ (s.g.rtPoll filep nonblock interrupted).2 = 0
  | .readExit t _ => s.pc t = .exit f
  | _ => False

def Enrolled [DecidableEq file] [DecidableEq thread]
    [Fintype thread] (s : State thread file) (f : file) : Prop :=
  exists (v : State thread file) (a : Action thread file)
    (u : State thread file),
    (Transition.Reachable step Disciplined State.init v ∧ Disciplined v a) ∧
      (step v a = some u ∧ Enrols v f a) ∧
        Transition.Reachable step Disciplined u s

section Steps

variable {s u : State thread file} {f : file}

theorem onList_rotate (hempty : s.readers = []) (h : OnList s f) :
    OnList s.rotate f := by
  rcases h with hreaders | hblack
  · rw [hempty] at hreaders
    cases hreaders
  · exact Or.inl hblack

variable [DecidableEq file]

theorem onList_register {f' : file} (h : OnList s f) :
    OnList (s.register f') f := by
  rcases h with hreaders | hblack
  · left
    rw [readers_register]
    split
    · exact hreaders
    · exact List.mem_cons_of_mem f' hreaders
  · exact Or.inr hblack

variable [DecidableEq thread]

theorem onList_leave {t : thread} {f' : file} (h : OnList s f) :
    OnList (s.leave t f') f := by
  show f ∈ s.readers.erase f' ∨ f ∈ f' :: s.black
  rcases h with hreaders | hblack
  · by_cases hsame : f = f'
    · rw [hsame]
      exact Or.inr List.mem_cons_self
    · exact Or.inl ((List.mem_erase_of_ne hsame).mpr hreaders)
  · exact Or.inr (List.mem_cons_of_mem f' hblack)

theorem onList_step {a : Action thread file} (h : OnList s f)
    (hmove : Move s a u) : OnList u f := by
  cases hmove with
  | pollRegister hblack hempty => exact onList_register h
  | pollRotate hblack hempty hreaders => exact onList_rotate hreaders h
  | exitLast hpc hone => exact onList_leave (s := s.endBatch) h
  | exitOther hpc hone => exact onList_leave h
  | pollReady hblack hdata hidle => exact h
  | pollStay => exact h
  | entryInterrupted hpc => exact h
  | entryFirst hpc hblack hvector => exact h
  | entryLater hpc hblack => exact h
  | copy hpc => exact h
  | exitInterrupted hpc => exact h
  | writeAdd hadd hreaders => exact h
  | writeOther hadd => exact h

variable [Fintype thread]

theorem onList_of_enrols {a : Action thread file}
    (hdisciplined : Disciplined s a) (hstep : step s a = some u)
    (h : Enrols s f a) : OnList u f := by
  cases a with
  | poll filep nonblock interrupted =>
      rcases h with ⟨hself, hblack, hsleep⟩
      change pollStep s filep nonblock interrupted = some u at hstep
      unfold pollStep at hstep
      split at hstep
      · cases hstep
      · simp only [Option.some.injEq] at hstep
        rw [← hstep]
        left
        rw [← hself] at hblack ⊢
        exact Globals.mem_pollReadersList_of_rtPoll hblack hsleep
  | readExit t interrupted =>
      have hmove := move_of_step hstep
      have hself : forall f', s.pc t = .exit f' -> f' = f := by
        intro f' hpc
        rw [show s.pc t = .exit f from h] at hpc
        cases hpc
        rfl
      cases hmove with
      | exitInterrupted hpc => cases hdisciplined.left
      | exitLast hpc hone =>
          rw [hself _ hpc]
          exact Or.inr List.mem_cons_self
      | exitOther hpc hone =>
          rw [hself _ hpc]
          exact Or.inr List.mem_cons_self
  | readEntry t filep allocOk interrupted => cases h
  | readCopy t => cases h
  | write kmsg => cases h

end Steps

section Runs

variable [DecidableEq file] [DecidableEq thread]
variable [Fintype thread] {s : State thread file}

theorem onList_of_reachable {u : State thread file} {f : file}
    (h : Transition.Reachable step Disciplined u s) (hlisted : OnList u f) :
    OnList s f := by
  refine Transition.reachable_invariant (fun v => OnList v f) hlisted ?_ h
  intro v a w hv _ hstep
  exact onList_step hv (move_of_step hstep)

theorem onList_of_enrolled {f : file} (h : Enrolled s f) : OnList s f := by
  rcases h with ⟨v, a, u, ⟨_, hdisciplined⟩, ⟨hstep, henrols⟩, hreach⟩
  exact onList_of_reachable hreach (onList_of_enrols hdisciplined hstep henrols)

/-- In a disciplined run the two lists partition the files enrolled so far, and
no step takes a file off both. -/
theorem lists_partition
    (h : Transition.Reachable step Disciplined State.init s) :
    (s.readers.Nodup ∧ s.black.Nodup ∧
        forall f, f ∈ s.readers -> f ∉ s.black) ∧
      (forall f, Enrolled s f ->
        (f ∈ s.readers ∧ f ∉ s.black) ∨ (f ∈ s.black ∧ f ∉ s.readers)) ∧
      (forall a u, Disciplined s a -> step s a = some u ->
        forall f, OnList s f -> OnList u f) := by
  have hlisted : Listed s := (regular_of_reachable h).listed
  refine ⟨⟨hlisted.readers_nodup, hlisted.black_nodup, hlisted.disjoint⟩, ?_, ?_⟩
  · intro f henrolled
    rcases onList_of_enrolled henrolled with hreaders | hblack
    · exact Or.inl ⟨hreaders, hlisted.disjoint f hreaders⟩
    · refine Or.inr ⟨hblack, ?_⟩
      intro hreaders
      exact hlisted.disjoint f hreaders hblack
  · intro a u _ hstep f hf
    exact onList_step hf (move_of_step hstep)

end Runs

theorem lists_partition_rotation :
    exists s : State (Fin 3) (Fin 3),
      (s.readers = [1, 0] ∧ s.black = []) ∧
        s.readers.Nodup := by
  have hrun : exists s : State (Fin 3) (Fin 3),
      Transition.Reachable step Disciplined State.init s ∧
        (decide (s.readers = [1, 0] ∧ s.black = [])) = true :=
    Transition.exists_reachable_of_schedule
      ([pollOnce 0, pollOnce 1, .write someUpdate, pollOnce 0, pollOnce 1] ++
        readOnce 0 ++ readOnce 1 ++ [pollOnce 0]) _
      (by decide +kernel)
  rcases hrun with ⟨s, hreach, htest⟩
  exact ⟨s, of_decide_eq_true htest, (lists_partition hreach).left.left⟩

end Poll
end RIBDriver
