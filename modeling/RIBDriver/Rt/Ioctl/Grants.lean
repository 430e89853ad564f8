import RIBDriver.Rt.Ioctl.Batch

/-!
# What a grant is worth

The worker grants one writer or a batch of readers, never both, and a client
that returns from its wait has consumed a grant of its own role.  Both rest on
the worker counting the readers at a moment when no reader of an old batch is
still to decrement the counter.
-/

namespace RIBDriver
namespace Ioctl

open Counting

variable {thread file : Type _}

/-!
## Schedules
-/

section Schedules

def workerRuns (n : Nat) : List (Action thread) :=
  List.replicate n (.worker true)

def clientRuns (t : thread) (n : Nat) : List (Action thread) :=
  List.replicate n (.client t)

def someEntry : RtEntry where
  dstIp := Vector.replicate 16 0
  nxtHopIp := Vector.replicate 16 0
  oif := Vector.replicate 16 0

def callCreate (t : thread) : List (Action thread) :=
  .call t (.write (.create someEntry)) :: clientRuns t 3

def callSubscribe (t : thread) : List (Action thread) :=
  .call t .subscribe :: clientRuns t 4

/-- A writer and the reader `1` are served, and the reader stops between its
signal and its decrement. -/
def signalledBatch : List (Action (Fin 4)) :=
  callCreate 0 ++ callSubscribe 1 ++ workerRuns 5 ++ clientRuns 0 3 ++
    workerRuns 11 ++ clientRuns 1 6 ++ workerRuns 1

end Schedules

/-!
## Granted clients
-/

def Granted (fileOf : thread -> file) (s : State thread file) (r : Role)
    (t : thread) : Prop :=
  (s.pc t).isEngaged r = true ∧ r ∈ s.completion (fileOf t)

def HoldsGrant (fileOf : thread -> file) (s : State thread file)
    (t : thread) : Prop :=
  Granted fileOf s .writer t ∨ (s.pc t).isWriting = true

section Granted

variable {fileOf : thread -> file} {s : State thread file}

theorem count_pos_of_granted {r : Role} {t : thread}
    (h : Granted fileOf s r t) : 0 < (s.completion (fileOf t)).count r :=
  List.count_pos_iff.mpr h.right

variable [Fintype file]

theorem tokens_pos_of_granted {r : Role} {t : thread}
    (h : Granted fileOf s r t) : 0 < tokens s r :=
  total_pos_iff.mpr ⟨fileOf t, count_pos_of_granted h⟩

variable [Fintype thread]

theorem grantedWriters_le_one (h : Batched s) : grantedWriters s ≤ 1 := by
  have hphase := h.phase
  cases hw : s.worker <;> rw [hw] at hphase <;> simp only [Phase] at hphase <;>
    lia

variable [DecidableEq file]

theorem exists_granted (hticketed : Ticketed fileOf s) {r : Role}
    (h : 0 < tokens s r) : exists t, Granted fileOf s r t := by
  rcases total_pos_iff.mp h with ⟨f, hf⟩
  have hheld : 0 < held s r f := by
    unfold held
    lia
  have hcovered := hticketed.covered r f
  rcases exists_engaged (by lia : 0 < engaged fileOf s r f) with
    ⟨t, hfile, hengaged⟩
  refine ⟨t, hengaged, ?_⟩
  rw [hfile]
  exact List.count_pos_iff.mp hf

variable [DecidableEq thread]

theorem holdsGrant_unique (hfile : Function.Injective fileOf) (h : Batched s)
    {t t' : thread} (ht : HoldsGrant fileOf s t)
    (ht' : HoldsGrant fileOf s t') : t = t' := by
  by_contra hne
  have hone := grantedWriters_le_one h
  unfold grantedWriters at hone
  rcases ht with ht | ht
  · rcases ht' with ht' | ht'
    · have hpair := measure_add_le_total
        (fun _ (done : List Role) => done.count .writer) s.completion
        (fun hsame => hne (hfile hsame))
      have hcount := count_pos_of_granted ht
      have hcount' := count_pos_of_granted ht'
      unfold tokens at hone
      lia
    · have htoken := tokens_pos_of_granted ht
      have hwriting := clientsAt_pos ht'
      lia
  · rcases ht' with ht' | ht'
    · have htoken := tokens_pos_of_granted ht'
      have hwriting := clientsAt_pos ht
      lia
    · have hpair := measure_add_le_total
        (fun _ (p : ClientPc) => (p.isWriting).toNat) s.pc hne
      unfold clientsAt at hone
      rw [ht, ht'] at hpair
      simp only [Bool.toNat_true] at hpair
      lia

end Granted

/-!
## Readers and writers exclude each other
-/

/-- While a writer holds its grant no reader copies. -/
def Exclusive (s : State thread file) : Prop :=
  forall t t', (s.pc t).isWriting = true -> (s.pc t').isReading = false

section Exclusion

variable [DecidableEq file]
variable [Fintype thread] [Fintype file]
variable {fileOf : thread -> file} {s : State thread file}

theorem isServed_of_isReading {p : ClientPc} (h : p.isReading = true) :
    p.isServed = true := by
  cases p with
  | copy => rfl
  | _ => cases h

theorem exclusive_of_batched (h : Batched s) : Exclusive s := by
  intro t t' hwriting
  have hphase := h.phase
  have hwait := eq_waitWriterDone_of_phase hphase (grantedWriters_pos hwriting)
  rw [hwait] at hphase
  cases hreading : (s.pc t').isReading with
  | false => rfl
  | true =>
      have hpos := grantedReaders_pos (isServed_of_isReading hreading)
      have hnone := hphase.right
      lia

variable [DecidableEq thread]

theorem exclusive_of_cleanCount (hfile : Function.Injective fileOf)
    (h : Transition.Reachable (step fileOf) CleanCount State.init s) :
    Exclusive s := by
  rcases ticketed_and_batched_of_reachable
    (fun s a _ => separateRoles_of_injective hfile s a)
    (fun _ _ hallowed => hallowed) h with ⟨_, hbatched⟩
  exact exclusive_of_batched hbatched

end Exclusion

theorem exclusive_granted_writer :
    exists s : State (Fin 4) (Fin 4),
      (s.pc 0 = .apply (.create someEntry) ∧ s.pc 1 = .wait .subscribe) ∧
        Exclusive s := by
  have hrun : exists s : State (Fin 4) (Fin 4),
      Transition.Reachable (step id) CleanCount State.init s ∧
        (decide (s.pc 0 = .apply (.create someEntry) ∧
          s.pc 1 = .wait .subscribe)) = true :=
    Transition.exists_reachable_of_schedule
      (callCreate 0 ++ callSubscribe 1 ++ workerRuns 5 ++ clientRuns 0 1) _
      (by decide +kernel)
  rcases hrun with ⟨s, hreach, hplaces⟩
  exact ⟨s, of_decide_eq_true hplaces,
    exclusive_of_cleanCount Function.injective_id hreach⟩

/-- The decrement of reader `1` is late: with readers `2` and `3` counted, the
first of them already finds the counter at one, and the worker grants a writer
before the other has copied. -/
theorem exists_not_exclusive :
    exists s : State (Fin 4) (Fin 4),
      Transition.Reachable (step id) NoInterrupt State.init s ∧
        ¬ Exclusive s := by
  have hrun : exists s : State (Fin 4) (Fin 4),
      Transition.Reachable (step id) NoInterrupt State.init s ∧
        (decide ((s.pc 0).isWriting = true ∧ (s.pc 3).isReading = true)) =
          true :=
    Transition.exists_reachable_of_schedule
      (signalledBatch ++ callCreate 0 ++ workerRuns 5 ++ clientRuns 0 3 ++
        callSubscribe 2 ++ callSubscribe 3 ++ workerRuns 15 ++
        clientRuns 1 3 ++ clientRuns 2 6 ++ workerRuns 1 ++
        callCreate 0 ++ workerRuns 5 ++ clientRuns 0 1 ++ clientRuns 3 1) _
      (by decide +kernel)
  rcases hrun with ⟨s, hreach, hplaces⟩
  rcases of_decide_eq_true hplaces with ⟨hwriting, hreading⟩
  refine ⟨s, hreach, ?_⟩
  intro hexclusive
  rw [hexclusive 0 3 hwriting] at hreading
  cases hreading

/-!
## A grant wakes the role it was issued for
-/

/-- Every return from `wait_for_completion` has consumed a completion issued
for the role it returns in, and no reader decrements the counter at zero,
neither as it was loaded nor as it is when the result is stored. -/
def GrantsMatch (s : State thread file) : Prop :=
  (forall wake, wake ∈ s.wakes -> wake.1 = wake.2) ∧
    forall t last loaded, s.pc t = .decStore last loaded ->
      loaded ≠ 0 ∧ s.g.nReadersToBeService ≠ 0

section Roles

variable [Fintype thread]
variable {fileOf : thread -> file} {s u : State thread file}
variable {a : Action thread}

theorem ne_zero_of_decStore [Fintype file]
    (h : Batched s) {t : thread} {last : Bool}
    {loaded : Nat} (hpc : s.pc t = .decStore last loaded) :
    loaded ≠ 0 ∧ s.g.nReadersToBeService ≠ 0 := by
  have hloaded := h.loaded t last loaded hpc
  have hcounter := h.counter
  have hpos := readers_pos (isServed_or_isStale_of_isStoring hpc)
  unfold owed at hloaded hcounter
  constructor <;> lia

variable [DecidableEq thread] [DecidableEq file]

theorem wakes_match_step (hticketed : Ticketed fileOf s)
    (h : forall wake, wake ∈ s.wakes -> wake.1 = wake.2)
    (hmove : Move fileOf s a u) :
    forall wake, wake ∈ u.wakes -> wake.1 = wake.2 := by
  cases hmove with
  | wait hpc hdone =>
      intro wake hmem
      rcases List.mem_cons.mp hmem with hnew | hold
      · rw [hnew]
        exact (issued_eq_role hticketed hpc hdone).symm
      · exact h wake hold
  | _ => exact h

variable [Fintype file]

theorem grantsMatch_of_separateRoles
    (h : Transition.Reachable (step fileOf)
      (fun s a => SeparateRoles fileOf s a ∧ CleanCount s a) State.init s) :
    GrantsMatch s := by
  have hknown : forall s, Transition.Reachable (step fileOf)
      (fun s a => SeparateRoles fileOf s a ∧ CleanCount s a) State.init s ->
        Ticketed fileOf s ∧ Batched s := by
    intro s hreach
    exact ticketed_and_batched_of_reachable (fun _ _ hallowed => hallowed.left)
      (fun _ _ hallowed => hallowed.right) hreach
  constructor
  · refine Transition.reachable_invariant_of
      (fun s => forall wake, wake ∈ s.wakes -> wake.1 = wake.2) hknown ?_ ?_ h
    · intro wake hmem
      cases hmem
    · intro s a u hinv hwakes _ hstep
      exact wakes_match_step hinv.left hwakes (move_of_step hstep)
  · intro t last loaded hpc
    exact ne_zero_of_decStore (hknown s h).right hpc

end Roles

def anUpdate : Request :=
  .write (.update { opCode := rtRouteAdd, entry := someEntry })

theorem grantsMatch_shared_file :
    exists s : State (Fin 2) (Fin 1),
      (s.wakes = [(.reader, .reader), (.writer, .writer)] ∧
        s.pc 1 = .decStore true 1) ∧ GrantsMatch s := by
  have hrun : exists s : State (Fin 2) (Fin 1),
      Transition.Reachable (step fun _ => 0)
          (fun s a => SeparateRoles (fun _ => 0) s a ∧ CleanCount s a)
          State.init s ∧
        (decide (s.wakes = [(.reader, .reader), (.writer, .writer)] ∧
          s.pc 1 = .decStore true 1)) = true :=
    Transition.exists_reachable_of_schedule
      (.call 0 anUpdate :: clientRuns 0 3 ++ workerRuns 5 ++ clientRuns 0 5 ++
        callSubscribe 1 ++ workerRuns 11 ++ clientRuns 1 7) _
      (by decide +kernel)
  rcases hrun with ⟨s, hreach, hplaces⟩
  exact ⟨s, of_decide_eq_true hplaces, grantsMatch_of_separateRoles hreach⟩

/-- A reader and a writer wait on one open file: the reader consumes the
completion issued for the writer, and decrements the counter at zero. -/
theorem exists_grants_mismatched :
    exists s : State (Fin 2) (Fin 1),
      Transition.Reachable (step fun _ => 0) NoInterrupt State.init s ∧
        (s.wakes = [(.reader, .writer)] ∧ s.pc 1 = .decStore false 0) ∧
          ¬ GrantsMatch s := by
  have hrun : exists s : State (Fin 2) (Fin 1),
      Transition.Reachable (step fun _ => 0) NoInterrupt State.init s ∧
        (decide (s.wakes = [(.reader, .writer)] ∧
          s.pc 1 = .decStore false 0)) = true :=
    Transition.exists_reachable_of_schedule
      (.call 0 anUpdate :: clientRuns 0 3 ++ callSubscribe 1 ++ workerRuns 5 ++
        clientRuns 1 5) _
      (by decide +kernel)
  rcases hrun with ⟨s, hreach, hplaces⟩
  rcases of_decide_eq_true hplaces with ⟨hwakes, hpc⟩
  refine ⟨s, hreach, ⟨hwakes, hpc⟩, ?_⟩
  intro hmatch
  exact (hmatch.right 1 false 0 hpc).left rfl

end Ioctl
end RIBDriver
