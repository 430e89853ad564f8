import RIBDriver.Rt.Calls
import RIBDriver.Rt.Poll.Agreement

/-!
# What `POLLIN` promises

A call of `rt_poll` whose mask has the `POLLIN` bit, followed at once by an
`rt_read` of the same file.  The poll looks at the change list and at its own
file; the read looks at the blacklist and at the vector another read may have
left.
-/

namespace RIBDriver

namespace RtTable

variable {file : Type _}

def pendingRecords (t : RtTable file) : List VectorCell :=
  (t.rtGetUpdatedRtEntries true).getD []

variable {t : RtTable file}

theorem newSnapshot_eq_take :
    t.newSnapshot = t.pendingRecords.take rtMaxEntriesFetch := rfl

theorem pendingRecords_eq_nil_iff : t.pendingRecords = [] <-> t.pending = [] := by
  simp [pendingRecords, rtGetUpdatedRtEntries, pending]

theorem pendingRecords_add (h : Sound t) (entry : RtEntry) :
    (t.addRtTableEntryByVal entry).pendingRecords =
      { opCode := rtRouteAdd, entry := some entry, src := t.next } ::
        t.pendingRecords := by
  simp only [pendingRecords, rtGetUpdatedRtEntries, if_true, Option.getD_some]
  show List.map _ (_ :: t.rtChangeList) = _
  rw [List.map_cons]
  congr 1
  · simp [addRtTableEntryByVal, EntryCell.contents]
  · apply List.map_congr_left
    intro data hdata
    have hlt : data.entry < t.next :=
      h.pending_lt data.entry (List.mem_map_of_mem hdata)
    have hother : data.entry ≠ t.next := by lia
    show VectorCell.mk _ (Function.update t.heap t.next _ data.entry).contents
      _ = _
    rw [Function.update_of_ne hother]

end RtTable

namespace Globals

variable {file : Type _}

def pollIn : UInt32 := 0x1

def hasPollIn (mask : UInt32) : Bool := mask &&& pollIn != 0

theorem hasPollIn_pollInRdNorm : hasPollIn pollInRdNorm = true := by decide

theorem hasPollIn_minusEagain : hasPollIn minusEagain = true := by decide

theorem hasPollIn_minusErestartsys :
    hasPollIn minusErestartsysMask = false := by decide

theorem hasPollIn_zero : hasPollIn 0 = false := by decide

/-- The call returns at least one record and its count, and all are pending. -/
structure DeliversPending (g : Globals file) (r : ReadResult file) : Prop where
  some : r.buf ≠ []
  counted : r.rc = r.buf.length
  pending : forall record, record ∈ r.buf -> record ∈ g.table.pendingRecords

instance (g : Globals file) (r : ReadResult file) :
    Decidable (DeliversPending g r) :=
  decidable_of_iff (r.buf ≠ [] ∧ r.rc = r.buf.length ∧
    forall record, record ∈ r.buf -> record ∈ g.table.pendingRecords)
    ⟨fun h => ⟨h.left, h.right.left, h.right.right⟩,
      fun h => ⟨h.some, h.counted, h.pending⟩⟩

/-- If the mask has `POLLIN`, a read of the file that comes next delivers. -/
def ReadinessSound [DecidableEq file] (g : Globals file) (f : file)
    (nonblock interruptedCs interrupted : Bool) (env : ReadEnv) : Prop :=
  hasPollIn (g.rtPollCall f nonblock interruptedCs interrupted).2 = true ->
    DeliversPending (g.rtPollCall f nonblock interruptedCs interrupted).1
      ((g.rtPollCall f nonblock interruptedCs interrupted).1.rtReadCall f env)

instance [DecidableEq file] (g : Globals file) (f : file)
    (nonblock interruptedCs interrupted : Bool) (env : ReadEnv) :
    Decidable (ReadinessSound g f nonblock interruptedCs interrupted env) :=
  inferInstanceAs (Decidable (_ -> _))

/-!
## When the poll says that there is data
-/

/-- The poll is interrupted while it waits for `rt_serialize_readers_cs_sem`,
its file is blacklisted, or it puts a fresh reader to sleep. -/
def StaysSilent (g : Globals file) (f : file)
    (nonblock interruptedCs interrupted : Bool) : Prop :=
  interruptedCs = true ∨ f ∈ g.blackListedPollReadersList ∨
    g.table.pending = [] ∧ nonblock = false ∧ interrupted = false

section Polls

variable [DecidableEq file]
variable {g : Globals file} {f : file}
variable {nonblock interruptedCs interrupted : Bool}

theorem rtPollCall_of_not_silent
    (h : ¬ StaysSilent g f nonblock interruptedCs interrupted) :
    (g.rtPollCall f nonblock interruptedCs interrupted).1 = g ∧
      hasPollIn (g.rtPollCall f nonblock interruptedCs interrupted).2 =
        true := by
  have hpolls := polls_rtPoll g f nonblock interrupted
  unfold rtPollCall
  cases interruptedCs with
  | true => exact absurd (Or.inl rfl) h
  | false =>
      simp only [Bool.false_eq_true, if_false]
      revert hpolls
      rcases g.rtPoll f nonblock interrupted with ⟨g', mask⟩
      intro hpolls
      cases hpolls with
      | ready hblack hdata => exact ⟨rfl, hasPollIn_pollInRdNorm⟩
      | again hblack hempty => exact ⟨rfl, hasPollIn_minusEagain⟩
      | register hblack hempty =>
          exact absurd (Or.inr (Or.inr ⟨hempty, rfl, rfl⟩)) h
      | stay hblack => exact absurd (Or.inr (Or.inl hblack)) h
      | rotate hblack hempty hreaders => exact absurd (Or.inr (Or.inl hblack)) h

theorem hasPollIn_of_silent
    (h : StaysSilent g f nonblock interruptedCs interrupted) :
    hasPollIn (g.rtPollCall f nonblock interruptedCs interrupted).2 =
      false := by
  have hpolls := polls_rtPoll g f nonblock interrupted
  unfold rtPollCall
  cases interruptedCs with
  | true => exact hasPollIn_minusErestartsys
  | false =>
      simp only [Bool.false_eq_true, if_false]
      revert hpolls
      rcases g.rtPoll f nonblock interrupted with ⟨g', mask⟩
      intro hpolls
      cases hpolls with
      | ready hblack hdata =>
          rcases h with hfalse | hfalse | ⟨hempty, hblocking, hquiet⟩
          · cases hfalse
          · exact absurd hfalse hblack
          · rcases hdata with hinterrupted | hpending
            · rw [hquiet] at hinterrupted
              cases hinterrupted
            · exact absurd hempty hpending
      | again hblack hempty =>
          rcases h with hfalse | hfalse | ⟨hempty, hblocking, hquiet⟩
          · cases hfalse
          · exact absurd hfalse hblack
          · cases hblocking
      | register hblack hempty => exact hasPollIn_zero
      | stay hblack => exact hasPollIn_zero
      | rotate hblack hempty hreaders => exact hasPollIn_zero

end Polls

/-!
## What the vector announces
-/

/-- The vector holds as many records as are counted, and what it announces is
pending. -/
structure Truthful (g : Globals file) : Prop where
  sound : g.table.Sound
  fits : g.rtUpdateVectorCount ≤ g.rtUpdateVector.records.length
  announces : forall record, record ∈ g.announced ->
    record ∈ g.table.pendingRecords

section Truth

variable {g g' : Globals file}

theorem length_announced (h : Truthful g) :
    g.announced.length = g.rtUpdateVectorCount := by
  unfold announced
  rw [List.length_take]
  exact Nat.min_eq_left h.fits

theorem truthful_init : Truthful (init : Globals file) where
  sound := RtTable.sound_init
  fits := Nat.zero_le _
  announces := by
    intro record hrecord
    cases hrecord

theorem truthful_of_same (h : Truthful g) (hsound : g'.table.Sound)
    (hpending : g'.table.pendingRecords = g.table.pendingRecords)
    (hvector : g'.rtUpdateVector = g.rtUpdateVector)
    (hcount : g'.rtUpdateVectorCount = g.rtUpdateVectorCount) :
    Truthful g' where
  sound := hsound
  fits := by
    rw [hvector, hcount]
    exact h.fits
  announces := by
    intro record hrecord
    unfold announced at hrecord
    rw [hvector, hcount] at hrecord
    rw [hpending]
    exact h.announces record hrecord

theorem truthful_setReaders (h : Truthful g) (readers black : List file) :
    Truthful { g with
      table := { g.table with pollReadersList := readers }
      blackListedPollReadersList := black } :=
  truthful_of_same h (RtTable.sound_setReaders h.sound readers) rfl rfl rfl

theorem truthful_downRead (h : Truthful g) :
    Truthful { g with
      rwSem := { g.rwSem with readers := g.rwSem.readers + 1 } } :=
  truthful_of_same h h.sound rfl rfl rfl

theorem fits_clamp
    (h : g.rtUpdateVectorCount ≤ g.rtUpdateVector.records.length) :
    g.clampUpdateVectorCount.rtUpdateVectorCount ≤
      g.clampUpdateVectorCount.rtUpdateVector.records.length := by
  unfold clampUpdateVectorCount
  split
  · show rtMaxEntriesFetch ≤ g.rtUpdateVector.records.length
    lia
  · exact h

theorem fits_refresh (allocOk : Bool) :
    (g.refreshUpdateVector allocOk).rtUpdateVectorCount ≤
      (g.refreshUpdateVector allocOk).rtUpdateVector.records.length := by
  unfold refreshUpdateVector
  split
  · exact Nat.le_refl 0
  · exact Nat.le_refl _

theorem table_rtReadEntry (allocOk : Bool) :
    (g.rtReadEntry allocOk).table = g.table := by
  rcases exists_rtReadEntry_eq g allocOk with ⟨vector, n, hentry⟩
  rw [hentry]

theorem truthful_rtReadEntry (h : Truthful g) (allocOk : Bool) :
    Truthful (g.rtReadEntry allocOk) := by
  by_cases hblack : g.blackListedPollReadersList = []
  · constructor
    · rw [table_rtReadEntry]
      exact h.sound
    · rw [rtReadEntry_first hblack]
      exact fits_clamp (fits_refresh allocOk)
    · intro record hrecord
      rw [announced_rtReadEntry hblack] at hrecord
      rw [table_rtReadEntry]
      cases allocOk with
      | false => cases hrecord
      | true => exact List.mem_of_mem_take hrecord
  · rw [rtReadEntry_later hblack]
    exact truthful_downRead h

theorem truthful_rtWrite (h : Truthful g) (kmsg : RtUpdate) :
    Truthful (g.rtWrite kmsg) := by
  constructor
  · exact RtTable.sound_apply h.sound kmsg
  · exact h.fits
  · intro record hrecord
    have hold : record ∈ g.table.pendingRecords := h.announces record hrecord
    show record ∈ (g.table.applyRtUpdates kmsg).pendingRecords
    unfold RtTable.applyRtUpdates
    split
    · rw [RtTable.pendingRecords_add h.sound]
      exact List.mem_cons_of_mem _ hold
    · exact hold

variable [DecidableEq file]

theorem truthful_polls {f : file} {nonblock interrupted : Bool}
    {mask : UInt32} (h : Truthful g)
    (hpolls : Polls g f nonblock interrupted g' mask) : Truthful g' := by
  cases hpolls with
  | ready hblack hdata => exact h
  | again hblack hempty => exact h
  | register hblack hempty =>
      unfold RtTable.addRtTableUniquePollReader
      split
      · exact h
      · exact truthful_setReaders h _ g.blackListedPollReadersList
  | stay hblack => exact h
  | rotate hblack hempty hreaders =>
      exact truthful_setReaders h g.blackListedPollReadersList []

theorem truthful_rtReadExit (h : Truthful g) (f : file) :
    Truthful (g.rtReadExit f) := by
  unfold rtReadExit rtReadLast blackListPollReader
  dsimp only
  split
  · constructor
    · exact RtTable.sound_setReaders (RtTable.sound_empty h.sound) _
    · exact Nat.zero_le _
    · intro record hrecord
      cases hrecord
  · exact truthful_of_same h (RtTable.sound_setReaders h.sound _) rfl rfl rfl

theorem truthful_sharedStep (h : Truthful g)
    (hshared : Poll.SharedStep g g') : Truthful g' := by
  cases hshared with
  | same => exact h
  | poll f nonblock interrupted =>
      exact truthful_polls h (polls_rtPoll g f nonblock interrupted)
  | downRead => exact truthful_downRead h
  | readEntry allocOk => exact truthful_rtReadEntry h allocOk
  | readExit f => exact truthful_rtReadExit h f
  | write kmsg => exact truthful_rtWrite h kmsg

end Truth

/-!
## When the read delivers
-/

/-- The read waits undisturbed, and there is an update for it: on the change
list if it fills the vector itself, in the vector otherwise. -/
def Served (g : Globals file) (env : ReadEnv) : Prop :=
  env.isInterrupted = false ∧ g.table.pending ≠ [] ∧
    (g.blackListedPollReadersList = [] ∨ 0 < g.rtUpdateVectorCount)

section Reads

variable {g : Globals file} {f : file} {env : ReadEnv}

theorem announced_rtReadEntry_later (allocOk : Bool)
    (hblack : g.blackListedPollReadersList ≠ []) :
    (g.rtReadEntry allocOk).announced = g.announced := by
  rw [rtReadEntry_later hblack]
  rfl

theorem announced_ne_nil_iff (h : Truthful g) :
    g.announced ≠ [] <-> 0 < g.rtUpdateVectorCount := by
  rw [← length_announced h]
  exact List.length_pos_iff.symm

theorem newSnapshot_ne_nil_iff {t : RtTable file} :
    t.newSnapshot ≠ [] <-> t.pending ≠ [] := by
  rw [RtTable.newSnapshot_eq_take, Ne, List.take_eq_nil_iff,
    RtTable.pendingRecords_eq_nil_iff]
  have hfetch : rtMaxEntriesFetch ≠ 0 := by decide
  simp [hfetch]

theorem announced_rtReadEntry_ne_nil_iff (h : Truthful g) :
    (g.rtReadEntry true).announced ≠ [] <->
      g.table.pending ≠ [] ∧
        (g.blackListedPollReadersList = [] ∨ 0 < g.rtUpdateVectorCount) := by
  by_cases hblack : g.blackListedPollReadersList = []
  · rw [announced_rtReadEntry hblack]
    simp only [if_true, hblack, true_or, and_true]
    exact newSnapshot_ne_nil_iff
  · rw [announced_rtReadEntry_later true hblack, announced_ne_nil_iff h]
    constructor
    · intro hpos
      constructor
      · intro hempty
        rcases List.exists_mem_of_ne_nil _ ((announced_ne_nil_iff h).mpr hpos)
          with ⟨record, hrecord⟩
        have hpending := h.announces record hrecord
        rw [RtTable.pendingRecords_eq_nil_iff.mpr hempty] at hpending
        cases hpending
      · exact Or.inr hpos
    · intro hserved
      rcases hserved.right with hnone | hpos
      · exact absurd hnone hblack
      · exact hpos

variable [DecidableEq file]

theorem rtReadCall_rc_of_interrupted (h : env.isInterrupted = true) :
    (g.rtReadCall f env).rc = minusErestartsys := by
  unfold rtReadCall
  split
  · rfl
  · rename_i hentry
    have hexit : env.exitInterrupted = true := by
      simpa [ReadEnv.isInterrupted, hentry] using h
    dsimp only
    rw [if_pos hexit]

theorem rtReadCall_of_uninterrupted (h : env.isInterrupted = false) :
    g.rtReadCall f env =
      { g := (g.rtReadEntry env.allocOk).rtReadExit f
        rc := (g.rtReadEntry env.allocOk).rtUpdateVectorCount
        buf := (g.rtReadEntry env.allocOk).announced } := by
  rcases Bool.or_eq_false_iff.mp h with ⟨hentry, hexit⟩
  unfold rtReadCall
  simp only [hentry, hexit, Bool.false_eq_true, if_false, ite_self]

theorem deliversPending_iff_served (h : Truthful g)
    (halloc : env.allocOk = true) :
    DeliversPending g (g.rtReadCall f env) <-> Served g env := by
  by_cases hinterrupted : env.isInterrupted = true
  · constructor
    · intro hdelivers
      have hcount := hdelivers.counted
      rw [rtReadCall_rc_of_interrupted hinterrupted] at hcount
      have hnegative : minusErestartsys < 0 := by decide
      lia
    · intro hserved
      rw [hserved.left] at hinterrupted
      cases hinterrupted
  · have hquiet : env.isInterrupted = false := Bool.not_eq_true _ |>.mp hinterrupted
    have hfound := announced_rtReadEntry_ne_nil_iff h
    have htruthful := truthful_rtReadEntry h true
    rw [rtReadCall_of_uninterrupted hquiet, halloc]
    constructor
    · intro hdelivers
      exact ⟨hquiet, hfound.mp hdelivers.some⟩
    · intro hserved
      constructor
      · exact hfound.mpr hserved.right
      · exact congrArg Nat.cast (length_announced htruthful).symm
      · intro record hrecord
        have hpending := htruthful.announces record hrecord
        rw [table_rtReadEntry] at hpending
        exact hpending

theorem readinessSound_iff (h : Truthful g) (halloc : env.allocOk = true)
    (nonblock interruptedCs interrupted : Bool) :
    ReadinessSound g f nonblock interruptedCs interrupted env <->
      StaysSilent g f nonblock interruptedCs interrupted ∨ Served g env := by
  by_cases hsilent : StaysSilent g f nonblock interruptedCs interrupted
  · apply iff_of_true
    · intro hmask
      rw [hasPollIn_of_silent hsilent] at hmask
      cases hmask
    · exact Or.inl hsilent
  · rcases rtPollCall_of_not_silent hsilent with ⟨hsame, hmask⟩
    have hread := deliversPending_iff_served (f := f) h halloc
    unfold ReadinessSound
    rw [hsame, hmask]
    constructor
    · intro hsound
      exact Or.inr (hread.mp (hsound rfl))
    · intro hcond _
      rcases hcond with hfalse | hserved
      · exact absurd hfalse hsilent
      · exact hread.mpr hserved

end Reads

end Globals

/-!
## Readiness in every reachable state
-/

namespace Poll

open Globals

variable {thread file : Type _} [DecidableEq thread] [DecidableEq file]
variable [Fintype thread]

theorem truthful_of_reachable {allowed : State thread file ->
    Action thread file -> Prop} {s : State thread file}
    (hs : Transition.Reachable step allowed State.init s) : Truthful s.g := by
  apply Transition.reachable_invariant (fun v => Truthful v.g) truthful_init _ hs
  intro v a w hv _ hstep
  exact truthful_sharedStep hv (sharedStep_of_step hstep)

/-- Wherever a run of the protocol stands, `POLLIN` on a file keeps its promise
exactly if the poll is silent or the read is served. -/
theorem readinessSound_iff_served {s : State thread file}
    (hs : Transition.Reachable step (fun _ _ => True) State.init s) (f : file)
    (nonblock interruptedCs interrupted : Bool) {env : ReadEnv}
    (halloc : env.allocOk = true) :
    ReadinessSound s.g f nonblock interruptedCs interrupted env <->
      StaysSilent s.g f nonblock interruptedCs interrupted ∨
        Served s.g env :=
  readinessSound_iff (truthful_of_reachable hs) halloc nonblock interruptedCs
    interrupted

theorem readinessSound_oneReader :
    exists s : State (Fin 1) (Fin 1),
      hasPollIn (s.g.rtPollCall 0 false false false).2 = true ∧
        ReadinessSound s.g 0 false false false ⟨false, true, false⟩ := by
  have hreached : exists s : State (Fin 1) (Fin 1),
      Transition.Reachable step (fun _ _ => True) State.init s ∧
        decide (hasPollIn (s.g.rtPollCall 0 false false false).2 = true ∧
          s.pending = [0] ∧ s.black = []) = true :=
    Transition.exists_reachable_of_schedule (oneReaderReady 0) _ (by decide)
  rcases hreached with ⟨s, hreach, htest⟩
  rcases of_decide_eq_true htest with ⟨hmask, hpending, hblack⟩
  have hserved : Served s.g ⟨false, true, false⟩ := by
    constructor
    · rfl
    · constructor
      · rw [show s.g.table.pending = [0] from hpending]
        exact List.cons_ne_nil 0 []
      · exact Or.inl hblack
  exact ⟨s, hmask, (readinessSound_iff_served hreach 0 false false false
    rfl).mpr (Or.inr hserved)⟩

/-- A nonblocking poll of the empty table is answered with `-EAGAIN`, which has
the bit of `POLLIN`.  A blocking poll of file `1` finds an update, but file `0`
is still blacklisted with the batch it has ended, and the read gets nothing. -/
theorem exists_empty_read :
    (¬ ReadinessSound (State.init : State (Fin 2) (Fin 2)).g 0 true false false
        ⟨false, true, false⟩) ∧
      exists s : State (Fin 2) (Fin 2),
        Transition.Reachable step Supplied State.init s ∧
          (s.g.rtPollCall 1 false false false).2 = pollInRdNorm ∧
            (s.g.rtReadCall 1 ⟨false, true, false⟩).rc = 0 ∧
              ¬ ReadinessSound s.g 1 false false false
                ⟨false, true, false⟩ := by
  constructor
  · decide
  · have hreached : exists s : State (Fin 2) (Fin 2),
        Transition.Reachable step Supplied State.init s ∧
          decide ((s.g.rtPollCall 1 false false false).2 = pollInRdNorm ∧
            (s.g.rtReadCall 1 ⟨false, true, false⟩).rc = 0 ∧
              ¬ ReadinessSound s.g 1 false false false
                ⟨false, true, false⟩) = true :=
      Transition.exists_reachable_of_schedule
        (oneReaderReady 0 ++ readSteps 0 0 ⟨false, true, false⟩ ++
          [.write someUpdate]) _ (by decide)
    rcases hreached with ⟨s, hreach, htest⟩
    exact ⟨s, hreach, of_decide_eq_true htest⟩

end Poll
end RIBDriver
