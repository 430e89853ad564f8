import RIBDriver.Rt.Poll.Readers

/-!
# At-most-once delivery

What the cached vector announces is still pending, and a file to which a
pending update has been delivered is on the blacklist or on its way there.  So
a file that may read has received none of the updates it is about to copy.
-/

namespace RIBDriver
namespace Poll

variable {thread file : Type _}

def delivers [DecidableEq file] (f : file) (u : Nat) : Event file -> Bool
  | .copied filep vector count =>
      decide (filep = f ∧ u ∈ (vector.records.take count).map (·.src))
  | _ => false

/-- Delivery is the copy.  When reads overlap, the exit section may load a count
that another read has reset, and return 0 for it. -/
def Delivered [DecidableEq file]
    (log : List (Event file)) (f : file) (u : Nat) : Prop :=
  exists event, event ∈ log ∧ delivers f u event = true

def deliveries [DecidableEq file]
    (log : List (Event file)) (f : file) (u : Nat) : Nat :=
  log.countP (delivers f u)

section Log

variable [DecidableEq file]
variable {log : List (Event file)} {event : Event file} {f : file} {u : Nat}

theorem delivered_cons :
    Delivered (event :: log) f u <->
      delivers f u event = true ∨ Delivered log f u := by
  simp [Delivered]

theorem deliveries_eq_zero (h : ¬ Delivered log f u) :
    deliveries log f u = 0 := by
  unfold deliveries
  rw [List.countP_eq_zero]
  intro event hmem hdelivers
  exact h ⟨event, hmem, hdelivers⟩

end Log

section Copy

variable [DecidableEq file]
variable {s : State thread file} {t : thread} {f f' : file} {u : Nat}

theorem delivers_copied :
    delivers f' u (.copied f s.g.rtUpdateVector s.g.rtUpdateVectorCount) =
      decide (f = f' ∧ u ∈ s.announced) := rfl

variable [DecidableEq thread]

theorem delivered_copyOut :
    Delivered (s.copyOut t f).log f' u <->
      f = f' ∧ u ∈ s.announced ∨ Delivered s.log f' u := by
  show Delivered (.copied f s.g.rtUpdateVector s.g.rtUpdateVectorCount ::
    s.log) f' u <-> _
  rw [delivered_cons, delivers_copied, decide_eq_true_eq]

theorem deliveries_copyOut :
    deliveries (s.copyOut t f).log f' u =
      deliveries s.log f' u + (if f = f' ∧ u ∈ s.announced then 1 else 0) := by
  show (Event.copied f s.g.rtUpdateVector s.g.rtUpdateVectorCount ::
    s.log).countP (delivers f' u) = _
  rw [List.countP_cons, delivers_copied]
  simp only [decide_eq_true_eq]
  rfl

end Copy

/-!
## The invariant
-/

structure Fresh [DecidableEq file] (s : State thread file) : Prop where
  pending : forall u, u ∈ s.announced -> u ∈ s.pending
  settled : forall f u, Delivered s.log f u -> u ∈ s.pending ->
    f ∈ s.black ∨ exists t, s.pc t = .exit f
  seen : forall f u, Delivered s.log f u -> u < s.g.table.next
  once : forall f u, deliveries s.log f u ≤ 1

section Steps

variable {s v : State thread file}

theorem mem_pending_of_snapshot {allocOk : Bool} {vector : UpdateVector}
    {n u : Nat} (hvector : Snapshot s allocOk vector n)
    (hu : u ∈ (s.snapshot allocOk vector n).announced) : u ∈ s.pending := by
  change u ∈ (vector.records.take n).map (·.src) at hu
  rw [hvector.announces] at hu
  cases allocOk with
  | true => exact List.mem_of_mem_take hu
  | false => cases hu

variable [DecidableEq file]

theorem fresh_of_quiet (h : Fresh s)
    (hpending : forall u, u ∈ v.announced -> u ∈ v.pending)
    (hlog : forall f u, deliveries v.log f u = deliveries s.log f u ∧
      (Delivered v.log f u -> Delivered s.log f u))
    (hsettled : forall f u, Delivered s.log f u -> u ∈ v.pending ->
      f ∈ v.black ∨ exists t, v.pc t = .exit f)
    (hnext : s.g.table.next ≤ v.g.table.next) : Fresh v where
  pending := hpending
  settled := by
    intro f u hdelivered hu
    exact hsettled f u ((hlog f u).right hdelivered) hu
  seen := by
    intro f u hdelivered
    have hold := h.seen f u ((hlog f u).right hdelivered)
    lia
  once := by
    intro f u
    rw [(hlog f u).left]
    exact h.once f u

theorem deliveries_cons_of_not {log : List (Event file)} {event : Event file}
    (hevent : forall f u, delivers f u event = false) (f : file) (u : Nat) :
    deliveries (event :: log) f u = deliveries log f u ∧
      (Delivered (event :: log) f u -> Delivered log f u) := by
  constructor
  · unfold deliveries
    rw [List.countP_cons_of_neg]
    rw [hevent f u]
    exact Bool.false_ne_true
  · intro hdelivered
    rcases delivered_cons.mp hdelivered with hnew | hold
    · rw [hevent f u] at hnew
      cases hnew
    · exact hold

theorem fresh_endBatch (h : Fresh s) : Fresh s.endBatch := by
  apply fresh_of_quiet h
  · intro u hu
    have hnone : s.endBatch.announced = [] := by
      simp [State.announced, State.endBatch, Globals.announced]
    rw [hnone] at hu
    cases hu
  · exact deliveries_cons_of_not (fun _ _ => rfl)
  · intro f u _ hu
    cases hu
  · exact Nat.le_refl _

theorem fresh_snapshot {allocOk : Bool} {vector : UpdateVector} {n : Nat}
    (h : Fresh s) (hvector : Snapshot s allocOk vector n) :
    Fresh (s.snapshot allocOk vector n) := by
  apply fresh_of_quiet h
  · intro u hu
    show u ∈ s.pending
    exact mem_pending_of_snapshot hvector hu
  · exact deliveries_cons_of_not (fun _ _ => rfl)
  · exact h.settled
  · exact Nat.le_refl _

theorem pending_register (s : State thread file) (f : file) :
    (s.register f).pending = s.pending ∧
      (s.register f).g.table.next = s.g.table.next := by
  unfold State.register State.pending RtTable.addRtTableUniquePollReader
  split <;> exact ⟨rfl, rfl⟩

theorem fresh_register {f : file} (h : Fresh s) : Fresh (s.register f) := by
  rcases pending_register s f with ⟨hpending, hnext⟩
  apply fresh_of_quiet h
  · rw [hpending]
    exact h.pending
  · intro f' u
    exact ⟨rfl, id⟩
  · rw [hpending]
    exact h.settled
  · rw [hnext]

theorem fresh_rotate (h : Fresh s) (hempty : s.pending = []) :
    Fresh s.rotate := by
  apply fresh_of_quiet h
  · exact h.pending
  · intro f u
    exact ⟨rfl, id⟩
  · intro f u _ hu
    change u ∈ s.pending at hu
    rw [hempty] at hu
    cases hu
  · exact Nat.le_refl _

theorem fresh_writeAdd {kmsg : RtUpdate} (h : Fresh s) :
    Fresh (s.writeAdd kmsg) := by
  apply fresh_of_quiet h
  · intro u hu
    exact List.mem_cons_of_mem _ (h.pending u hu)
  · exact deliveries_cons_of_not (fun _ _ => rfl)
  · intro f u hdelivered hu
    rcases List.mem_cons.mp hu with hnew | hold
    · have hlt := h.seen f u hdelivered
      lia
    · exact h.settled f u hdelivered hold
  · exact Nat.le_succ _

variable [DecidableEq thread]

theorem fresh_copyOut {t : thread} {f : file} (hsound : s.g.table.Sound)
    (horderly : Orderly s) (h : Fresh s) (hpc : s.pc t = .copy f) :
    Fresh (s.copyOut t f) := by
  have hself : (s.pc t).file? = some f := file?_eq_of_pc (Or.inl hpc)
  have hnew : forall u, u ∈ s.announced -> ¬ Delivered s.log f u := by
    intro u hu hdelivered
    rcases h.settled f u hdelivered (h.pending u hu) with hblack | ⟨t', ht'⟩
    · exact horderly.reading t f hself hblack
    · have hsame := horderly.alone t' t f (file?_eq_of_pc (Or.inr ht')) hself
      rw [hsame, hpc] at ht'
      cases ht'
  constructor
  · exact h.pending
  · intro f' u hdelivered hu
    rcases delivered_copyOut.mp hdelivered with ⟨hf, _⟩ | hold
    · right
      refine ⟨t, ?_⟩
      show Function.update s.pc t (.exit f) t = .exit f'
      rw [Function.update_self, hf]
    · rcases h.settled f' u hold hu with hblack | ⟨t', ht'⟩
      · exact Or.inl hblack
      · right
        refine ⟨t', ?_⟩
        show Function.update s.pc t (.exit f) t' = .exit f'
        by_cases ht : t' = t
        · rw [ht, hpc] at ht'
          cases ht'
        · rw [Function.update_of_ne ht]
          exact ht'
  · intro f' u hdelivered
    rcases delivered_copyOut.mp hdelivered with ⟨_, hu⟩ | hold
    · exact hsound.pending_lt u (h.pending u hu)
    · exact h.seen f' u hold
  · intro f' u
    rw [deliveries_copyOut]
    split
    · rename_i hboth
      have hzero := deliveries_eq_zero (hnew u hboth.right)
      rw [hboth.left] at hzero
      lia
    · exact h.once f' u

theorem fresh_leave {t : thread} {f : file} (h : Fresh s)
    (hpc : s.pc t = .exit f) : Fresh (s.leave t f) := by
  apply fresh_of_quiet h
  · exact h.pending
  · intro f' u
    exact ⟨rfl, id⟩
  · intro f' u hdelivered hu
    rcases h.settled f' u hdelivered hu with hblack | ⟨t', ht'⟩
    · exact Or.inl (List.mem_cons_of_mem f hblack)
    · by_cases ht : t' = t
      · rw [ht, hpc] at ht'
        cases ht'
        exact Or.inl List.mem_cons_self
      · right
        refine ⟨t', ?_⟩
        show Function.update s.pc t .idle t' = .exit f'
        rw [Function.update_of_ne ht]
        exact ht'
  · exact Nat.le_refl _

theorem fresh_enter {t : thread} {f : file} (h : Fresh s)
    (hpc : s.pc t = .idle) : Fresh (s.enter t f) := by
  apply fresh_of_quiet h
  · exact h.pending
  · intro f' u
    exact ⟨rfl, id⟩
  · intro f' u hdelivered hu
    rcases h.settled f' u hdelivered hu with hblack | ⟨t', ht'⟩
    · exact Or.inl hblack
    · right
      refine ⟨t', ?_⟩
      show Function.update s.pc t (.copy f) t' = .exit f'
      by_cases ht : t' = t
      · rw [ht, hpc] at ht'
        cases ht'
      · rw [Function.update_of_ne ht]
        exact ht'
  · exact Nat.le_refl _

theorem fresh_step {a : Action thread file} (hsound : s.g.table.Sound)
    (horderly : Orderly s) (h : Fresh s) (hdisciplined : Disciplined s a)
    (hmove : Move s a v) : Fresh v := by
  cases hmove with
  | pollReady hblack hdata hidle =>
      exact fresh_of_quiet h h.pending (fun _ _ => ⟨rfl, id⟩) h.settled
        (Nat.le_refl _)
  | pollStay => exact h
  | pollRegister hblack hempty => exact fresh_register h
  | pollRotate hblack hempty hreaders => exact fresh_rotate h hempty
  | entryInterrupted hpc => cases hdisciplined.left
  | entryFirst hpc hblack hvector =>
      refine fresh_enter ?_ hpc
      exact fresh_of_quiet (fresh_snapshot h hvector)
        (fresh_snapshot h hvector).pending (fun _ _ => ⟨rfl, id⟩)
        (fresh_snapshot h hvector).settled (Nat.le_refl _)
  | entryLater hpc hblack =>
      refine fresh_enter ?_ hpc
      exact fresh_of_quiet h h.pending (fun _ _ => ⟨rfl, id⟩) h.settled
        (Nat.le_refl _)
  | copy hpc => exact fresh_copyOut hsound horderly h hpc
  | exitInterrupted hpc => cases hdisciplined.left
  | exitLast hpc hone => exact fresh_leave (fresh_endBatch h) hpc
  | exitOther hpc hone => exact fresh_leave h hpc
  | writeAdd hadd hreaders => exact fresh_writeAdd h
  | writeOther hadd => exact h

theorem sound_step {a : Action thread file} (h : s.g.table.Sound)
    (hmove : Move s a v) : v.g.table.Sound := by
  cases hmove with
  | pollRegister hblack hempty =>
      rename_i f
      show (s.g.table.addRtTableUniquePollReader f).Sound
      unfold RtTable.addRtTableUniquePollReader
      split
      · exact h
      · exact RtTable.sound_setReaders h _
  | pollRotate hblack hempty hreaders => exact RtTable.sound_setReaders h _
  | exitLast hpc hone =>
      exact RtTable.sound_setReaders (RtTable.sound_empty h) _
  | exitOther hpc hone => exact RtTable.sound_setReaders h _
  | writeAdd hadd hreaders => exact RtTable.sound_add h _
  | pollReady hblack hdata hidle => exact h
  | pollStay => exact h
  | entryInterrupted hpc => exact h
  | entryFirst hpc hblack hvector => exact h
  | entryLater hpc hblack => exact h
  | copy hpc => exact h
  | exitInterrupted hpc => exact h
  | writeOther hadd => exact h

end Steps

theorem fresh_init [DecidableEq file] :
    Fresh (State.init : State thread file) where
  pending := by
    intro u hu
    cases hu
  settled := by
    intro f u hdelivered
    rcases hdelivered with ⟨event, hmem, _⟩
    cases hmem
  seen := by
    intro f u hdelivered
    rcases hdelivered with ⟨event, hmem, _⟩
    cases hmem
  once := by
    intro f u
    exact Nat.zero_le 1

/-- What a disciplined run keeps, whether its allocations fail or not. -/
structure Regular [DecidableEq file] (s : State thread file) : Prop where
  sound : s.g.table.Sound
  orderly : Orderly s
  listed : Listed s
  fresh : Fresh s

section Runs

variable [DecidableEq file]
variable {s v : State thread file} {a : Action thread file}

theorem regular_init : Regular (State.init : State thread file) where
  sound := RtTable.sound_init
  orderly := orderly_init
  listed := listed_init
  fresh := fresh_init

variable [DecidableEq thread]

theorem regular_step (h : Regular s) (hdisciplined : Disciplined s a)
    (hmove : Move s a v) : Regular v where
  sound := sound_step h.sound hmove
  orderly := orderly_step h.orderly hdisciplined hmove
  listed := listed_step h.orderly h.listed hmove
  fresh := fresh_step h.sound h.orderly h.fresh hdisciplined hmove

theorem regular_of_reachable [Fintype thread]
    (h : Transition.Reachable step Disciplined State.init s) : Regular s := by
  refine Transition.reachable_invariant Regular regular_init ?_ h
  intro s a v hregular hdisciplined hstep
  exact regular_step hregular hdisciplined (move_of_step hstep)

/-- In a disciplined run no update is copied to a file by two reads. -/
theorem delivered_at_most_once [Fintype thread]
    (h : Transition.Reachable step Disciplined State.init s) (f : file)
    (u : Nat) : deliveries s.log f u ≤ 1 :=
  (regular_of_reachable h).fresh.once f u

end Runs

/-!
## Schedules
-/

section Schedules

def someUpdate : RtUpdate where
  opCode := rtRouteAdd
  entry := {
    dstIp := Vector.replicate 16 0
    nxtHopIp := Vector.replicate 16 0
    oif := Vector.replicate 16 0 }

def pollOnce (f : Fin 3) : Action (Fin 3) (Fin 3) := .poll f false false

def readOnce (t : Fin 3) : List (Action (Fin 3) (Fin 3)) :=
  [.readEntry t t true false, .readCopy t, .readExit t false]

end Schedules

theorem delivered_at_most_once_two_readers :
    exists s : State (Fin 3) (Fin 3),
      (Delivered s.log 0 0 ∧ Delivered s.log 1 0 ∧ Delivered s.log 0 1) ∧
        deliveries s.log 0 0 ≤ 1 := by
  have hrun : exists s : State (Fin 3) (Fin 3),
      Transition.Reachable step Disciplined State.init s ∧
        (s.log.any (delivers 0 0) && s.log.any (delivers 1 0) &&
          s.log.any (delivers 0 1)) = true :=
    Transition.exists_reachable_of_schedule
      ([pollOnce 0, pollOnce 1, .write someUpdate, pollOnce 0, pollOnce 1] ++
        readOnce 0 ++ readOnce 1 ++
        [pollOnce 0, .write someUpdate, pollOnce 0] ++ readOnce 0) _
      (by decide +kernel)
  rcases hrun with ⟨s, hreach, htest⟩
  simp only [Bool.and_eq_true, List.any_eq_true] at htest
  exact ⟨s, ⟨htest.left.left, htest.left.right, htest.right⟩,
    delivered_at_most_once hreach 0 0⟩

end Poll
end RIBDriver
