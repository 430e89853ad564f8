import RIBDriver.Rt.Poll.Delivery

/-!
# Agreement within a batch

Between two moves of the blacklist the vector is filled only before the first
reader leaves, and until then a reader holds `rt->rw_sem`, so that all who fill
it find the same change list.  What is copied is that one snapshot or nothing,
and nothing from the moment the change list has been emptied.
-/

namespace RIBDriver

namespace RtTable

variable {file : Type _}

def newSnapshot (t : RtTable file) : List VectorCell :=
  ((t.rtGetUpdatedRtEntries true).getD []).take rtMaxEntriesFetch

theorem newSnapshot_register [DecidableEq file] (t : RtTable file) (f : file) :
    (t.addRtTableUniquePollReader f).newSnapshot = t.newSnapshot := by
  unfold addRtTableUniquePollReader
  split <;> rfl

end RtTable

namespace Globals

variable {file : Type _}

theorem announced_rtReadEntry {g : Globals file} {allocOk : Bool}
    (hblack : g.blackListedPollReadersList = []) :
    (g.rtReadEntry allocOk).announced =
      if allocOk then g.table.newSnapshot else [] := by
  rw [rtReadEntry_first hblack]
  cases allocOk with
  | false => rfl
  | true =>
      rcases Poll.take_clamp
        (({ g with rwSem := { g.rwSem with readers := g.rwSem.readers + 1 } } :
          Globals file).refreshUpdateVector true) rfl with ⟨n, hclamp, htake⟩
      rw [hclamp]
      exact htake

end Globals

namespace Poll

open Counting RtTable

variable {thread file : Type _}

def Rotates (s : State thread file) : Action thread file -> Prop
  | .poll f _ _ => f ∈ s.black ∧ s.pending = [] ∧ s.readers = []
  | _ => False

def InPeriod (s : State thread file) (a : Action thread file) : Prop :=
  Uninterrupted s a ∧ ¬ Rotates s a

instance [DecidableEq file] (s : State thread file) (a : Action thread file) :
    Decidable (InPeriod s a) :=
  match a with
  | .poll f nonblock interrupted =>
      inferInstanceAs (Decidable (Uninterrupted s (.poll f nonblock interrupted) ∧
        ¬ (f ∈ s.black ∧ s.pending = [] ∧ s.readers = [])))
  | .readEntry t f allocOk interrupted =>
      inferInstanceAs (Decidable
        (Uninterrupted s (.readEntry t f allocOk interrupted) ∧ ¬ False))
  | .readCopy t =>
      inferInstanceAs (Decidable (Uninterrupted s (.readCopy t) ∧ ¬ False))
  | .readExit t interrupted =>
      inferInstanceAs (Decidable
        (Uninterrupted s (.readExit t interrupted) ∧ ¬ False))
  | .write kmsg =>
      inferInstanceAs (Decidable (Uninterrupted s (.write kmsg) ∧ ¬ False))

def Event.copiedRecords : Event file -> List VectorCell
  | .copied _ vector count => vector.records.take count
  | _ => []

/-- In a log, newest event first, no record is copied after a read exit has
emptied the change list, which is where it frees the vector. -/
def SilentOnceEmptied : List (Event file) -> Prop
  | [] => True
  | event :: earlier =>
      ((exists vector, Event.kfreed vector ∈ earlier) ->
        event.copiedRecords = []) ∧ SilentOnceEmptied earlier

variable [Fintype thread]

/-!
## The invariant

`batch` is what the copies of a period deliver, as far as it is known.
-/

structure Agreed (batch : List VectorCell) (s : State thread file) : Prop where
  locked : s.g.rwSem.readers = total inside s.pc
  announced : s.g.announced = [] ∨ s.g.announced = batch
  current : s.black = [] -> batch ≠ [] ->
    0 < s.g.rwSem.readers ∧ s.g.table.newSnapshot = batch

/-- The events of a period up to now. -/
structure Period (batch : List VectorCell) (period : List (Event file))
    (s : State thread file) : Prop where
  agreed : Agreed batch s
  copies : forall event, event ∈ period ->
    event.copiedRecords = [] ∨ event.copiedRecords = batch
  emptied : (exists vector, Event.kfreed vector ∈ period) ->
    s.black ≠ [] ∧ s.g.announced = []
  silent : SilentOnceEmptied period

section Steps

variable {s v : State thread file} {batch : List VectorCell}
variable {period : List (Event file)}

theorem agreed_announced (h : Agreed batch s) : Agreed s.g.announced s where
  locked := h.locked
  announced := Or.inr rfl
  current := by
    intro hblack hsome
    rcases h.announced with hnone | hbatch
    · exact absurd hnone hsome
    · rw [hbatch] at hsome ⊢
      exact h.current hblack hsome

theorem period_quiet (h : Period batch period s)
    (hlocked : v.g.rwSem.readers = total inside v.pc)
    (hannounced : v.g.announced = s.g.announced)
    (hblack : v.black = [] -> s.black = [])
    (hcurrent : v.black = [] -> 0 < s.g.rwSem.readers ->
      0 < v.g.rwSem.readers ∧
        v.g.table.newSnapshot = s.g.table.newSnapshot) :
    Period batch period v where
  agreed :=
    { locked := hlocked
      announced := by
        rw [hannounced]
        exact h.agreed.announced
      current := by
        intro hnone hsome
        have hold := h.agreed.current (hblack hnone) hsome
        have hkept := hcurrent hnone hold.left
        rw [hkept.right]
        exact ⟨hkept.left, hold.right⟩ }
  copies := h.copies
  emptied := by
    intro hemptied
    have hold := h.emptied hemptied
    rw [hannounced]
    exact ⟨fun hnone => hold.left (hblack hnone), hold.right⟩
  silent := h.silent

theorem period_cons {event : Event file} (h : Period batch period s)
    (hfree : forall vector, event ≠ .kfreed vector)
    (hcopies : event.copiedRecords = [] ∨
      event.copiedRecords = s.g.announced) :
    Period batch (event :: period) s where
  agreed := h.agreed
  copies := by
    intro event' hmem
    rcases List.mem_cons.mp hmem with hnew | hold
    · rw [hnew]
      rcases hcopies with hnone | hsame
      · exact Or.inl hnone
      · rw [hsame]
        exact h.agreed.announced
    · exact h.copies event' hold
  emptied := by
    intro hemptied
    rcases hemptied with ⟨vector, hmem⟩
    rcases List.mem_cons.mp hmem with hnew | hold
    · exact absurd hnew.symm (hfree vector)
    · exact h.emptied ⟨vector, hold⟩
  silent := by
    refine ⟨?_, h.silent⟩
    intro hemptied
    rcases hcopies with hnone | hsame
    · exact hnone
    · rw [hsame]
      exact (h.emptied hemptied).right

structure Coherent (s : State thread file) : Prop where
  quiet : s.pending = [] -> s.g.announced = []
  agreed : Agreed s.g.announced s

theorem period_start (h : Coherent s) : Period s.g.announced [] s where
  agreed := h.agreed
  copies := by
    intro event hmem
    cases hmem
  emptied := by
    intro hemptied
    rcases hemptied with ⟨vector, hmem⟩
    cases hmem
  silent := trivial

theorem coherent_init : Coherent (State.init : State thread file) where
  quiet := fun _ => rfl
  agreed :=
    { locked := (total_eq_zero_iff.mpr (fun _ => rfl)).symm
      announced := Or.inl rfl
      current := fun _ hsome => absurd rfl hsome }

variable [DecidableEq file] [DecidableEq thread]

theorem period_entryFirst {t : thread} {f : file} {allocOk : Bool}
    {vector : UpdateVector} {n : Nat} (h : Period batch period s)
    (hpc : s.pc t = .idle) (hblack : s.black = [])
    (hannounced : (vector.records.take n = [] ∨
      vector.records.take n = s.g.table.newSnapshot)) :
    Period s.g.table.newSnapshot (.opened allocOk :: period)
      ((s.snapshot allocOk vector n).downRead.enter t f) := by
  refine ⟨⟨?_, hannounced, ?_⟩, ?_, ?_, ?_, h.silent⟩
  · exact locked_enter h.agreed.locked hpc
  · intro _ _
    exact ⟨Nat.succ_pos _, rfl⟩
  · intro event hmem
    rcases List.mem_cons.mp hmem with hnew | hold
    · rw [hnew]
      exact Or.inl rfl
    · rcases h.copies event hold with hnone | hbatch
      · exact Or.inl hnone
      · by_cases hsome : batch = []
        · exact Or.inl (hbatch.trans hsome)
        · exact Or.inr (hbatch.trans (h.agreed.current hblack hsome).right.symm)
  · intro hemptied
    rcases hemptied with ⟨vector', hmem⟩
    rcases List.mem_cons.mp hmem with hnew | hold
    · cases hnew
    · exact absurd hblack (h.emptied ⟨vector', hold⟩).left
  · intro _
    rfl

theorem period_exitLast {t : thread} {f : file} (h : Period batch period s)
    (hpc : s.pc t = .exit f) :
    Period batch (.kfreed s.g.rtUpdateVector :: period)
      (s.endBatch.leave t f) where
  agreed :=
    { locked := locked_leave h.agreed.locked hpc
      announced := by
        left
        simp [State.endBatch, State.leave, Globals.announced]
      current := by
        intro hnone
        cases hnone }
  copies := by
    intro event hmem
    rcases List.mem_cons.mp hmem with hnew | hold
    · rw [hnew]
      exact Or.inl rfl
    · exact h.copies event hold
  emptied := by
    intro _
    refine ⟨List.cons_ne_nil _ _, ?_⟩
    simp [State.endBatch, State.leave, Globals.announced]
  silent := ⟨fun _ => rfl, h.silent⟩

theorem period_step {a : Action thread file} (h : Period batch period s)
    (hallowed : InPeriod s a) (hstep : step s a = some v) :
    exists events batch', v.log = events ++ s.log ∧
      Period batch' (events ++ period) v := by
  have hlocked := h.agreed.locked
  have hmove := move_of_step hstep
  cases hmove with
  | pollReady hblack hdata hidle =>
      exact ⟨[], batch, rfl, period_quiet h hlocked rfl id
        (fun _ hpos => ⟨hpos, rfl⟩)⟩
  | pollStay => exact ⟨[], batch, rfl, h⟩
  | pollRegister hblack hempty =>
      refine ⟨[], batch, rfl, period_quiet h hlocked rfl id ?_⟩
      intro _ hpos
      exact ⟨hpos, newSnapshot_register _ _⟩
  | pollRotate hblack hempty hreaders =>
      exact absurd ⟨hblack, hempty, hreaders⟩ hallowed.right
  | entryInterrupted hpc => cases hallowed.left
  | entryFirst hpc hblack hvector =>
      rename_i t f allocOk vector n
      have hg : vector.records.take n = (s.g.rtReadEntry allocOk).announced := by
        change readEntryStep s t f allocOk false = some _ at hstep
        unfold readEntryStep at hstep
        split at hstep
        · cases hstep
        · simp only [Bool.false_eq_true, if_false] at hstep
          split at hstep
          · cases hstep
          · have hsame := congrArg (fun w => w.g.announced)
              (Option.some.inj hstep)
            exact hsame.symm
      rw [Globals.announced_rtReadEntry hblack] at hg
      refine ⟨[.opened allocOk], s.g.table.newSnapshot, rfl,
        period_entryFirst h hpc hblack ?_⟩
      cases allocOk with
      | true => exact Or.inr hg
      | false => exact Or.inl hg
  | entryLater hpc hblack =>
      rename_i t f allocOk
      refine ⟨[], batch, rfl,
        period_quiet h (locked_enter hlocked hpc) rfl id ?_⟩
      intro hnone
      exact absurd hnone hblack
  | copy hpc =>
      rename_i t f
      refine ⟨[.copied f s.g.rtUpdateVector s.g.rtUpdateVectorCount], batch, rfl,
        period_quiet (period_cons h ?_ (Or.inr rfl)) (locked_copyOut hlocked hpc)
          rfl id (fun _ hpos => ⟨hpos, rfl⟩)⟩
      intro vector hfree
      cases hfree
  | exitInterrupted hpc => cases hallowed.left
  | exitLast hpc hone =>
      exact ⟨[.kfreed s.g.rtUpdateVector], batch, rfl, period_exitLast h hpc⟩
  | exitOther hpc hone =>
      refine ⟨[], batch, rfl,
        period_quiet h (locked_leave hlocked hpc) rfl ?_ ?_⟩
      · intro hnone
        cases hnone
      · intro hnone
        cases hnone
  | writeAdd hadd hreaders =>
      refine ⟨[.wrote s.g.table.next s.g.table.pollReadersList], batch, rfl,
        period_quiet (period_cons h ?_ (Or.inl rfl)) hlocked rfl id ?_⟩
      · intro vector hfree
        cases hfree
      · intro _ hpos
        -- nobody writes while a reader is inside
        lia
  | writeOther hadd => exact ⟨[], batch, rfl, h⟩

theorem quiet_step {a : Action thread file}
    (h : s.pending = [] -> s.g.announced = [])
    (hallowed : Uninterrupted s a) (hstep : step s a = some v) :
    v.pending = [] -> v.g.announced = [] := by
  have hmove := move_of_step hstep
  cases hmove with
  | pollRegister hblack hempty => exact fun _ => h hempty
  | pollRotate hblack hempty hreaders => exact h
  | entryInterrupted hpc => cases hallowed
  | entryFirst hpc hblack hvector =>
      intro hempty
      have hannounces := hvector.announces
      rw [show s.pending = [] from hempty] at hannounces
      refine List.map_eq_nil_iff.mp (hannounces.trans ?_)
      split <;> rfl
  | exitLast hpc hone =>
      intro _
      simp [State.endBatch, State.leave, Globals.announced]
  | writeAdd hadd hreaders =>
      intro hempty
      cases hempty
  | pollReady hblack hdata hidle => exact h
  | pollStay => exact h
  | entryLater hpc hblack => exact h
  | copy hpc => exact h
  | exitInterrupted hpc => exact h
  | exitOther hpc hone => exact h
  | writeOther hadd => exact h

theorem coherent_step {a : Action thread file} (h : Coherent s)
    (hallowed : Uninterrupted s a) (hstep : step s a = some v) :
    Coherent v := by
  refine ⟨quiet_step h.quiet hallowed hstep, ?_⟩
  by_cases hrotates : Rotates s a
  · have hmove := move_of_step hstep
    cases hmove with
    | pollRotate hblack hempty hreaders =>
        have hnone : s.rotate.g.announced = [] := h.quiet hempty
        rw [hnone]
        exact ⟨h.agreed.locked, Or.inl hnone, fun _ hsome => absurd rfl hsome⟩
    | pollReady hblack hdata hidle => exact absurd hrotates.left hblack
    | pollStay => exact h.agreed
    | pollRegister hblack hempty => exact absurd hrotates.left hblack
    | _ => cases hrotates
  · rcases period_step (period_start h) ⟨hallowed, hrotates⟩ hstep with
      ⟨events, batch, _, hnext⟩
    exact agreed_announced hnext.agreed

theorem period_of_reachable (hs : Coherent s)
    (h : Transition.Reachable step InPeriod s v) :
    exists period batch, v.log = period ++ s.log ∧ Period batch period v := by
  refine Transition.reachable_invariant
    (fun v => exists period batch, v.log = period ++ s.log ∧
      Period batch period v) ⟨[], _, rfl, period_start hs⟩ ?_ h
  intro w a v hw hallowed hstep
  rcases hw with ⟨period, batch, hlog, hperiod⟩
  rcases period_step hperiod hallowed hstep with
    ⟨events, batch', hevents, hnext⟩
  refine ⟨events ++ period, batch', ?_, hnext⟩
  rw [hevents, hlog, List.append_assoc]

end Steps

end Poll
end RIBDriver
