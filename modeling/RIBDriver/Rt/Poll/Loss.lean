import RIBDriver.Rt.Poll.Delivery

/-!
# Lost updates

An update is owed to the files registered when it is written.  The last
registered reader throws away all that is pending, delivered or not.  Nothing
is lost exactly if it has copied itself, no more is pending than one snapshot
holds, and nothing has been written since that snapshot.
-/

namespace RIBDriver
namespace Poll

open Counting

variable {thread file : Type _}

/-- The file was registered when the update was written. -/
def Owed (log : List (Event file)) (f : file) (u : Nat) : Prop :=
  exists registered, Event.wrote u registered ∈ log ∧ f ∈ registered

/-- An update that is no longer pending has been delivered to every file it was
owed to. -/
def NoneLost [DecidableEq file] (s : State thread file) : Prop :=
  forall f u, Owed s.log f u -> u ∉ s.pending -> Delivered s.log f u

/-- A read entry has found the blacklist empty, and no update has been written
since the last such entry. -/
def snapshotCurrent : List (Event file) -> Bool
  | [] => false
  | .opened _ :: _ => true
  | .wrote _ _ :: _ => false
  | .copied _ _ _ :: rest => snapshotCurrent rest
  | .kfreed _ :: rest => snapshotCurrent rest

/-- A read exit that ends a batch with updates pending finds the last
registered file between its copy and its exit section, no more updates than a
snapshot holds, and none written since the snapshot. -/
def EndsServed (s : State thread file) : Action thread file -> Prop
  | .readExit _ _ =>
      s.readers.length = 1 -> s.pending ≠ [] ->
        (forall f, f ∈ s.readers -> exists t, s.pc t = .exit f) ∧
          s.pending.length ≤ rtMaxEntriesFetch ∧
          snapshotCurrent s.log = true
  | _ => True

instance [DecidableEq file]
    [Fintype thread] (s : State thread file) (a : Action thread file) :
    Decidable (EndsServed s a) :=
  match a with
  | .readExit _ _ =>
      inferInstanceAs (Decidable (s.readers.length = 1 -> s.pending ≠ [] ->
        (forall f, f ∈ s.readers -> exists t, s.pc t = .exit f) ∧
          s.pending.length ≤ rtMaxEntriesFetch ∧
          snapshotCurrent s.log = true))
  | .write _ => isTrue trivial
  | .poll _ _ _ => isTrue trivial
  | .readEntry _ _ _ _ => isTrue trivial
  | .readCopy _ => isTrue trivial

/-!
## The invariant
-/

structure Accounted [DecidableEq file] [Fintype thread]
    (s : State thread file) : Prop where
  locked : s.g.rwSem.readers = total inside s.pc
  known : forall f u, Owed s.log f u -> u < s.g.table.next
  owed : forall f u, f ∈ s.readers -> u ∈ s.pending -> Owed s.log f u
  placed : forall f u, Owed s.log f u -> u ∈ s.pending ->
    f ∈ s.readers ∨ f ∈ s.black
  served : forall f u, f ∈ s.black -> u ∈ s.announced -> Delivered s.log f u
  leaving : forall t f u, s.pc t = .exit f -> u ∈ s.pending ->
    (Delivered s.log f u <-> u ∈ s.announced)
  opened : forall t, s.pc t ≠ .idle -> s.black = [] ->
    s.announced = s.pending.take rtMaxEntriesFetch
  current : snapshotCurrent s.log = true ->
    s.pending = [] ∨ s.announced = s.pending.take rtMaxEntriesFetch
  stale : snapshotCurrent s.log = false ->
    forall u, s.pending.head? = some u -> u ∉ s.announced

section Log

variable {log : List (Event file)} {event : Event file} {f : file} {u : Nat}

theorem owed_cons_of_not (hevent : forall v registered,
    event ≠ .wrote v registered) : Owed (event :: log) f u <-> Owed log f u := by
  constructor
  · intro h
    rcases h with ⟨registered, hmem, hf⟩
    rcases List.mem_cons.mp hmem with hnew | hold
    · exact absurd hnew.symm (hevent u registered)
    · exact ⟨registered, hold, hf⟩
  · intro h
    rcases h with ⟨registered, hmem, hf⟩
    exact ⟨registered, List.mem_cons_of_mem event hmem, hf⟩

theorem owed_wrote {v : Nat} {registered : List file} :
    Owed (.wrote v registered :: log) f u <->
      u = v ∧ f ∈ registered ∨ Owed log f u := by
  constructor
  · intro h
    rcases h with ⟨registered', hmem, hf⟩
    rcases List.mem_cons.mp hmem with hnew | hold
    · cases hnew
      exact Or.inl ⟨rfl, hf⟩
    · exact Or.inr ⟨registered', hold, hf⟩
  · intro h
    rcases h with ⟨hu, hf⟩ | ⟨registered', hmem, hf⟩
    · rw [hu]
      exact ⟨registered, List.mem_cons_self, hf⟩
    · exact ⟨registered', List.mem_cons_of_mem _ hmem, hf⟩

variable [DecidableEq file]

theorem delivered_cons_of_not (hevent : forall f u,
    delivers f u event = false) :
    Delivered (event :: log) f u <-> Delivered log f u := by
  rw [delivered_cons, hevent f u]
  simp

end Log

section Steps

variable [DecidableEq file]
variable {s v : State thread file}

theorem announced_eq_nil (h : Fresh s) (hempty : s.pending = []) :
    s.announced = [] := by
  rw [List.eq_nil_iff_forall_not_mem]
  intro u hu
  have hmem := h.pending u hu
  rw [hempty] at hmem
  cases hmem

variable [Fintype thread]

theorem pc_idle_of_unlocked (h : Accounted s) (hfree : s.g.rwSem.readers = 0)
    (t : thread) : s.pc t = .idle := by
  have hlocked := h.locked
  rw [hfree] at hlocked
  have hpoint := (total_eq_zero_iff.mp hlocked.symm) t
  cases hpc : s.pc t with
  | idle => rfl
  | copy f =>
      rw [hpc] at hpoint
      cases hpoint
  | exit f =>
      rw [hpc] at hpoint
      cases hpoint

theorem accounted_setReady (f : file) (h : Accounted s) :
    Accounted (s.setReady f) where
  locked := h.locked
  known := h.known
  owed := h.owed
  placed := h.placed
  served := h.served
  leaving := h.leaving
  opened := h.opened
  current := h.current
  stale := h.stale

theorem accounted_of_empty (hlocked : v.g.rwSem.readers = total inside v.pc)
    (hknown : forall f u, Owed v.log f u -> u < v.g.table.next)
    (hpending : v.pending = []) (hannounced : v.announced = []) :
    Accounted v where
  locked := hlocked
  known := hknown
  owed := by
    intro f u _ hu
    rw [hpending] at hu
    cases hu
  placed := by
    intro f u _ hu
    rw [hpending] at hu
    cases hu
  served := by
    intro f u _ hu
    rw [hannounced] at hu
    cases hu
  leaving := by
    intro t f u _ hu
    rw [hpending] at hu
    cases hu
  opened := by
    intro t _ _
    rw [hannounced, hpending]
    rfl
  current := by
    intro _
    exact Or.inl hpending
  stale := by
    intro _ u hu
    rw [hpending] at hu
    cases hu

theorem accounted_snapshot {vector : UpdateVector} {n : Nat} (h : Accounted s)
    (hblack : s.black = []) (hvector : Snapshot s true vector n) :
    Accounted (s.snapshot true vector n) := by
  have hannounced : (s.snapshot true vector n).announced =
      s.pending.take rtMaxEntriesFetch := hvector.announces
  have hdelivered : forall f u,
      Delivered (s.snapshot true vector n).log f u <-> Delivered s.log f u :=
    fun f u => delivered_cons_of_not (fun _ _ => rfl)
  have howed : forall f u,
      Owed (s.snapshot true vector n).log f u <-> Owed s.log f u :=
    fun f u => owed_cons_of_not (fun _ _ hevent => by cases hevent)
  constructor
  · exact h.locked
  · intro f u hf
    exact h.known f u ((howed f u).mp hf)
  · intro f u hf hu
    exact (howed f u).mpr (h.owed f u hf hu)
  · intro f u hf hu
    exact h.placed f u ((howed f u).mp hf) hu
  · intro f u hf
    change f ∈ s.black at hf
    rw [hblack] at hf
    cases hf
  · intro t f u hpc hu
    rw [hdelivered, hannounced]
    have hopened := h.opened t (by rw [show s.pc t = .exit f from hpc]; simp)
      hblack
    rw [← hopened]
    exact h.leaving t f u hpc hu
  · intro t _ _
    exact hannounced
  · intro _
    exact Or.inr hannounced
  · intro hstale
    cases hstale

theorem accounted_writeAdd {kmsg : RtUpdate} (hsound : s.g.table.Sound)
    (hfresh : Fresh s) (h : Accounted s) (hfree : s.g.rwSem.readers = 0) :
    Accounted (s.writeAdd kmsg) := by
  have hidle := pc_idle_of_unlocked h hfree
  constructor
  · exact h.locked
  · intro f u howed
    show u < s.g.table.next + 1
    rcases owed_wrote.mp howed with ⟨hnew, _⟩ | hold
    · lia
    · have hlt := h.known f u hold
      lia
  · intro f u hf hu
    change u ∈ s.g.table.next :: s.pending at hu
    apply owed_wrote.mpr
    rcases List.mem_cons.mp hu with hnew | hold
    · exact Or.inl ⟨hnew, hf⟩
    · exact Or.inr (h.owed f u hf hold)
  · intro f u howed hu
    change u ∈ s.g.table.next :: s.pending at hu
    rcases owed_wrote.mp howed with ⟨_, hf⟩ | hold
    · exact Or.inl hf
    · rcases List.mem_cons.mp hu with hnew | hpending
      · have hlt := h.known f u hold
        lia
      · exact h.placed f u hold hpending
  · intro f u hf hu
    exact (delivered_cons_of_not (fun _ _ => rfl)).mpr (h.served f u hf hu)
  · intro t f u hpc
    change s.pc t = .exit f at hpc
    rw [hidle t] at hpc
    cases hpc
  · intro t hpc
    exact absurd (hidle t) hpc
  · intro hcurrent
    cases hcurrent
  · intro _ u hu hannounced
    change some s.g.table.next = some u at hu
    have hmem := hfresh.pending u hannounced
    have hlt := hsound.pending_lt u hmem
    rw [← Option.some.inj hu] at hlt
    exact Nat.lt_irrefl _ hlt

theorem accounted_register {f : file} (hfresh : Fresh s) (h : Accounted s)
    (hempty : s.pending = []) : Accounted (s.register f) := by
  rcases pending_register s f with ⟨hpending, hnext⟩
  apply accounted_of_empty
  · exact h.locked
  · rw [hnext]
    exact h.known
  · rw [hpending]
    exact hempty
  · show s.announced = []
    exact announced_eq_nil hfresh hempty

theorem accounted_init : Accounted (State.init : State thread file) := by
  apply accounted_of_empty
  · exact (total_eq_zero_iff.mpr (fun _ => rfl)).symm
  · intro f u howed
    rcases howed with ⟨registered, hmem, _⟩
    cases hmem
  · rfl
  · rfl

variable [DecidableEq thread]

theorem accounted_enter {t : thread} {f : file} (h : Accounted s)
    (hidle : s.pc t = .idle)
    (hopened : s.black = [] ->
      s.announced = s.pending.take rtMaxEntriesFetch) :
    Accounted (s.downRead.enter t f) := by
  constructor
  · exact locked_enter h.locked hidle
  · exact h.known
  · exact h.owed
  · exact h.placed
  · exact h.served
  · intro t' f' u hpc hu
    change Function.update s.pc t (.copy f) t' = .exit f' at hpc
    by_cases ht : t' = t
    · rw [ht, Function.update_self] at hpc
      cases hpc
    · rw [Function.update_of_ne ht] at hpc
      exact h.leaving t' f' u hpc hu
  · intro t' _ hblack
    exact hopened hblack
  · exact h.current
  · exact h.stale

theorem accounted_copyOut {t : thread} {f : file} (horderly : Orderly s)
    (hfresh : Fresh s) (h : Accounted s) (hpc : s.pc t = .copy f) :
    Accounted (s.copyOut t f) := by
  have hself : (s.pc t).file? = some f := file?_eq_of_pc (Or.inl hpc)
  have howed : forall f' u,
      Owed (s.copyOut t f).log f' u <-> Owed s.log f' u :=
    fun f' u => owed_cons_of_not (fun _ _ hevent => by cases hevent)
  constructor
  · exact locked_copyOut h.locked hpc
  · intro f' u hf
    exact h.known f' u ((howed f' u).mp hf)
  · intro f' u hf hu
    exact (howed f' u).mpr (h.owed f' u hf hu)
  · intro f' u hf hu
    exact h.placed f' u ((howed f' u).mp hf) hu
  · intro f' u hf hu
    exact delivered_copyOut.mpr (Or.inr (h.served f' u hf hu))
  · intro t' f' u hpc' hu
    change Function.update s.pc t (.exit f) t' = .exit f' at hpc'
    rw [delivered_copyOut]
    by_cases ht : t' = t
    · rw [ht, Function.update_self] at hpc'
      cases hpc'
      constructor
      · intro hdelivered
        rcases hdelivered with hnew | hold
        · exact hnew.right
        · exfalso
          rcases hfresh.settled f u hold hu with hblack | ⟨t', ht'⟩
          · exact horderly.reading t f hself hblack
          · have hsame := horderly.alone t' t f (file?_eq_of_pc (Or.inr ht'))
              hself
            rw [hsame, hpc] at ht'
            cases ht'
      · intro hannounced
        exact Or.inl ⟨rfl, hannounced⟩
    · rw [Function.update_of_ne ht] at hpc'
      have hne : f ≠ f' := by
        intro hsame
        rw [← hsame] at hpc'
        exact ht (horderly.alone t' t f (file?_eq_of_pc (Or.inr hpc')) hself)
      have hold := h.leaving t' f' u hpc' hu
      constructor
      · intro hdelivered
        rcases hdelivered with hnew | hdelivered
        · exact absurd hnew.left hne
        · exact hold.mp hdelivered
      · intro hannounced
        exact Or.inr (hold.mpr hannounced)
  · intro t' _ hblack
    exact h.opened t (by rw [hpc]; simp) hblack
  · exact h.current
  · exact h.stale

theorem accounted_leave {t : thread} {f : file} (hfresh : Fresh s)
    (h : Accounted s) (hpc : s.pc t = .exit f) :
    Accounted (s.leave t f) := by
  constructor
  · exact locked_leave h.locked hpc
  · exact h.known
  · intro f' u hf hu
    change f' ∈ s.readers.erase f at hf
    exact h.owed f' u (List.mem_of_mem_erase hf) hu
  · intro f' u hf hu
    show f' ∈ s.readers.erase f ∨ f' ∈ f :: s.black
    rcases h.placed f' u hf hu with hreaders | hblack
    · by_cases hsame : f' = f
      · rw [hsame]
        exact Or.inr List.mem_cons_self
      · exact Or.inl ((List.mem_erase_of_ne hsame).mpr hreaders)
    · exact Or.inr (List.mem_cons_of_mem f hblack)
  · intro f' u hf hu
    change f' ∈ f :: s.black at hf
    rcases List.mem_cons.mp hf with hsame | hold
    · rw [hsame]
      exact (h.leaving t f u hpc (hfresh.pending u hu)).mpr hu
    · exact h.served f' u hold hu
  · intro t' f' u hpc' hu
    change Function.update s.pc t .idle t' = .exit f' at hpc'
    by_cases ht : t' = t
    · rw [ht, Function.update_self] at hpc'
      cases hpc'
    · rw [Function.update_of_ne ht] at hpc'
      exact h.leaving t' f' u hpc' hu
  · intro t' _ hblack
    cases hblack
  · exact h.current
  · exact h.stale

theorem accounted_leave_last {t : thread} {f : file} (h : Accounted s)
    (hpc : s.pc t = .exit f) : Accounted (s.endBatch.leave t f) := by
  apply accounted_of_empty
  · show s.g.rwSem.readers - 1 = total inside (Function.update s.pc t .idle)
    exact locked_leave h.locked hpc
  · intro f' u howed
    refine h.known f' u ?_
    exact (owed_cons_of_not (fun _ _ hevent => by cases hevent)).mp howed
  · rfl
  · simp [State.announced, State.endBatch, State.leave, Globals.announced]

theorem accounted_step {a : Action thread file} (hregular : Regular s)
    (h : Accounted s) (hsupplied : Supplied s a) (hmove : Move s a v) :
    Accounted v := by
  have hfresh := hregular.fresh
  cases hmove with
  | pollReady hblack hdata hidle => exact accounted_setReady _ h
  | pollStay => exact h
  | pollRegister hblack hempty => exact accounted_register hfresh h hempty
  | pollRotate hblack hempty hreaders =>
      have hannounced := announced_eq_nil hfresh hempty
      exact accounted_of_empty (v := s.rotate) h.locked h.known hempty
        hannounced
  | entryInterrupted hpc => cases hsupplied.left.left
  | entryFirst hpc hblack hvector =>
      have hallocOk := hsupplied.right
      change _ = true at hallocOk
      subst hallocOk
      refine accounted_enter (accounted_snapshot h hblack hvector) hpc ?_
      intro _
      exact hvector.announces
  | entryLater hpc hblack =>
      refine accounted_enter h hpc ?_
      intro hempty
      exact absurd hempty hblack
  | copy hpc => exact accounted_copyOut hregular.orderly hfresh h hpc
  | exitInterrupted hpc => cases hsupplied.left.left
  | exitLast hpc hone => exact accounted_leave_last h hpc
  | exitOther hpc hone => exact accounted_leave hfresh h hpc
  | writeAdd hadd hreaders =>
      exact accounted_writeAdd hregular.sound hfresh h hreaders
  | writeOther hadd => exact h

end Steps

/-!
## The end of a batch
-/

section EndOfBatch

variable [DecidableEq file]
variable {s v : State thread file}

theorem length_le_of_subset_take {pending : List Nat} {n : Nat}
    (hnodup : pending.Nodup)
    (h : forall u, u ∈ pending -> u ∈ pending.take n) : pending.length ≤ n := by
  have hlength := (hnodup.subperm h).length_le
  rw [List.length_take] at hlength
  lia

theorem all_announced_iff [Fintype thread]
    (hsound : s.g.table.Sound) (h : Accounted s)
    (hsome : s.pending ≠ []) :
    (forall u, u ∈ s.pending -> u ∈ s.announced) <->
      s.pending.length ≤ rtMaxEntriesFetch ∧ snapshotCurrent s.log = true := by
  constructor
  · intro hall
    have hcurrent : snapshotCurrent s.log = true := by
      cases hvalue : snapshotCurrent s.log with
      | true => rfl
      | false =>
          cases hhead : s.pending with
          | nil => exact absurd hhead hsome
          | cons u rest =>
              have hmem : u ∈ s.pending := by
                rw [hhead]
                exact List.mem_cons_self
              exact absurd (hall u hmem)
                (h.stale hvalue u (by rw [hhead]; rfl))
    refine ⟨?_, hcurrent⟩
    rcases h.current hcurrent with hnone | htake
    · exact absurd hnone hsome
    · rw [htake] at hall
      exact length_le_of_subset_take hsound.pending_nodup hall
  · intro hboth u hu
    rcases h.current hboth.right with hnone | htake
    · exact absurd hnone hsome
    · rw [htake, List.take_of_length_le hboth.left]
      exact hu

theorem noneLost_of_kept (hnone : NoneLost s)
    (hpending : forall u, u ∈ s.pending -> u ∈ v.pending)
    (howed : forall f u, Owed v.log f u -> u ∉ v.pending -> Owed s.log f u)
    (hdelivered : forall f u, Delivered s.log f u -> Delivered v.log f u) :
    NoneLost v := by
  intro f u hf hu
  apply hdelivered
  exact hnone f u (howed f u hf hu) (fun hmem => hu (hpending u hmem))

variable [DecidableEq thread]

theorem noneLost_endBatch_iff {t : thread} {f : file} (hnone : NoneLost s) :
    NoneLost (s.endBatch.leave t f) <->
      forall f' u, Owed s.log f' u -> u ∈ s.pending -> Delivered s.log f' u := by
  have hdelivered : forall f' u, Delivered (s.endBatch.leave t f).log f' u <->
      Delivered s.log f' u :=
    fun f' u => delivered_cons_of_not (fun _ _ => rfl)
  have howed : forall f' u, Owed (s.endBatch.leave t f).log f' u <->
      Owed s.log f' u :=
    fun f' u => owed_cons_of_not (fun _ _ hevent => by cases hevent)
  constructor
  · intro h f' u hf _
    have hlost := h f' u ((howed f' u).mpr hf) List.not_mem_nil
    exact (hdelivered f' u).mp hlost
  · intro h f' u hf _
    apply (hdelivered f' u).mpr
    have hold := (howed f' u).mp hf
    by_cases hu : u ∈ s.pending
    · exact h f' u hold hu
    · exact hnone f' u hold hu

variable [Fintype thread]

theorem noneLost_exitLast_iff {t : thread} {f : file} (hregular : Regular s)
    (h : Accounted s) (hnone : NoneLost s) (hone : s.readers.length = 1) :
    NoneLost (s.endBatch.leave t f) <-> EndsServed s (.readExit t false) := by
  rw [noneLost_endBatch_iff hnone]
  rcases List.length_eq_one_iff.mp hone with ⟨last, hlast⟩
  have hregistered : last ∈ s.readers := by
    rw [hlast]
    exact List.mem_singleton.mpr rfl
  constructor
  · intro hserved _ hsome
    have hall : forall u, u ∈ s.pending -> Delivered s.log last u :=
      fun u hu => hserved last u (h.owed last u hregistered hu) hu
    have hcopied : exists t', s.pc t' = .exit last := by
      rcases List.exists_mem_of_ne_nil s.pending hsome with ⟨u, hu⟩
      rcases hregular.fresh.settled last u (hall u hu) hu with hblack | hexit
      · exact absurd hblack (hregular.listed.disjoint last hregistered)
      · exact hexit
    constructor
    · intro f' hf'
      rw [hlast] at hf'
      rw [List.mem_singleton.mp hf']
      exact hcopied
    · rcases hcopied with ⟨t', ht'⟩
      apply (all_announced_iff hregular.sound h hsome).mp
      intro u hu
      exact (h.leaving t' last u ht' hu).mp (hall u hu)
  · intro hends f' u howed hu
    have hsome : s.pending ≠ [] := List.ne_nil_of_mem hu
    rcases hends hone hsome with ⟨hcopied, hserved⟩
    have hannounced := (all_announced_iff hregular.sound h hsome).mpr hserved u hu
    rcases h.placed f' u howed hu with hreaders | hblack
    · rcases hcopied f' hreaders with ⟨t', ht'⟩
      exact (h.leaving t' f' u ht' hu).mpr hannounced
    · exact h.served f' u hblack hannounced

theorem noneLost_step_iff {a : Action thread file} (hregular : Regular s)
    (h : Accounted s) (hnone : NoneLost s) (hsupplied : Supplied s a)
    (hmove : Move s a v) : NoneLost v <-> EndsServed s a := by
  cases hmove with
  | pollReady hblack hdata hidle => exact iff_of_true hnone trivial
  | pollStay => exact iff_of_true hnone trivial
  | pollRegister hblack hempty =>
      refine iff_of_true ?_ trivial
      apply noneLost_of_kept hnone
      · rw [(pending_register s _).left]
        exact fun _ hu => hu
      · exact fun _ _ hf _ => hf
      · exact fun _ _ hd => hd
  | pollRotate hblack hempty hreaders => exact iff_of_true hnone trivial
  | entryInterrupted hpc => cases hsupplied.left.left
  | entryFirst hpc hblack hvector =>
      refine iff_of_true ?_ trivial
      apply noneLost_of_kept hnone
      · exact fun _ hu => hu
      · intro f u hf _
        exact (owed_cons_of_not (fun _ _ hevent => by cases hevent)).mp hf
      · intro f u hd
        exact (delivered_cons_of_not (fun _ _ => rfl)).mpr hd
  | entryLater hpc hblack => exact iff_of_true hnone trivial
  | copy hpc =>
      refine iff_of_true ?_ trivial
      apply noneLost_of_kept hnone
      · exact fun _ hu => hu
      · intro f u hf _
        exact (owed_cons_of_not (fun _ _ hevent => by cases hevent)).mp hf
      · intro f u hd
        exact delivered_copyOut.mpr (Or.inr hd)
  | exitInterrupted hpc => cases hsupplied.left.left
  | exitLast hpc hone => exact noneLost_exitLast_iff hregular h hnone hone
  | exitOther hpc hone =>
      refine iff_of_true hnone ?_
      intro hlength
      exact absurd hlength hone
  | writeAdd hadd hreaders =>
      refine iff_of_true ?_ trivial
      apply noneLost_of_kept hnone
      · exact fun u hu => List.mem_cons_of_mem _ hu
      · intro f u hf hu
        rcases owed_wrote.mp hf with ⟨hnew, _⟩ | hold
        · rw [hnew] at hu
          exact absurd List.mem_cons_self hu
        · exact hold
      · intro f u hd
        exact (delivered_cons_of_not (fun _ _ => rfl)).mpr hd
  | writeOther hadd => exact iff_of_true hnone trivial

end EndOfBatch

def Kept [DecidableEq file] [Fintype thread]
    (s : State thread file) : Prop := Regular s ∧ Accounted s

theorem kept_init [DecidableEq file] [Fintype thread] :
    Kept (State.init : State thread file) :=
  ⟨regular_init, accounted_init⟩

/-- In a disciplined run whose allocations succeed no update is lost exactly if
every batch that ends with updates pending ends served. -/
theorem noneLost_iff_endsServed [DecidableEq thread] [DecidableEq file]
    [Fintype thread] {actions : List (Action thread file)}
    (h : Transition.StepsMeet step Supplied State.init actions) :
    Transition.StatesMeet step NoneLost State.init actions <->
      Transition.StepsMeet step EndsServed State.init actions := by
  refine Transition.statesMeet_iff_stepsMeet ?_ ?_ kept_init ?_ h
  · intro s a v hinv hsupplied hstep
    have hmove := move_of_step hstep
    exact ⟨regular_step hinv.left hsupplied.left hmove,
      accounted_step hinv.left hinv.right hsupplied hmove⟩
  · intro s a v hinv hnone hsupplied hstep
    exact noneLost_step_iff hinv.left hinv.right hnone hsupplied
      (move_of_step hstep)
  · intro f u howed
    rcases howed with ⟨registered, hmem, _⟩
    cases hmem

theorem noneLost_two_batches :
    Transition.StatesMeet step NoneLost (State.init : State (Fin 3) (Fin 3))
      ([pollOnce 0, pollOnce 1, pollOnce 2, .write someUpdate,
          .write someUpdate, pollOnce 0, pollOnce 1, pollOnce 2] ++
        readOnce 1 ++ readOnce 0 ++ readOnce 2 ++
        [pollOnce 0, .write someUpdate, pollOnce 0, pollOnce 1] ++
        readOnce 0 ++ readOnce 1) :=
  (noneLost_iff_endsServed (by decide +kernel)).mpr (by decide +kernel)

/-- An update written between the reads of two registered files: the second one
reads the old snapshot and throws the new update away. -/
theorem exists_lost_update :
    exists s : State (Fin 3) (Fin 3),
      Transition.Reachable step Supplied State.init s ∧
        (Owed s.log 1 1 ∧ s.pending = [] ∧ ¬ Delivered s.log 1 1) ∧
          ¬ NoneLost s := by
  have hrun : exists s : State (Fin 3) (Fin 3),
      Transition.Reachable step Supplied State.init s ∧
        (s.log.any (fun event =>
            event = .wrote 1 [1]) && decide (s.pending = []) &&
          s.log.all (fun event => !delivers 1 1 event)) = true :=
    Transition.exists_reachable_of_schedule
      ([pollOnce 0, pollOnce 1, .write someUpdate, pollOnce 0, pollOnce 1] ++
        readOnce 0 ++ [.write someUpdate] ++ readOnce 1) _
      (by decide +kernel)
  rcases hrun with ⟨s, hreach, htest⟩
  simp only [Bool.and_eq_true, List.any_eq_true, List.all_eq_true,
    decide_eq_true_eq, Bool.not_eq_true'] at htest
  rcases htest with ⟨⟨⟨event, hmem, hevent⟩, hpending⟩, hall⟩
  rw [hevent] at hmem
  have howed : Owed s.log 1 1 := ⟨[1], hmem, List.mem_singleton.mpr rfl⟩
  have hmissed : ¬ Delivered s.log 1 1 := by
    intro hdelivered
    rcases hdelivered with ⟨event', hmem', hdelivers⟩
    rw [hall event' hmem'] at hdelivers
    cases hdelivers
  refine ⟨s, hreach, ⟨howed, hpending, hmissed⟩, ?_⟩
  intro hnone
  apply hmissed
  apply hnone 1 1 howed
  rw [hpending]
  exact List.not_mem_nil

end Poll
end RIBDriver
