import Mathlib.Data.Fintype.Option
import RIBDriver.Rt.Access.Moves
import RIBDriver.Rt.Select.Model

/-!
# From sections to accesses

A thread that is not overtaken in a section goes through it as in the protocol
with sections for steps.  Every run of that protocol is therefore one of the
protocol access by access, with one thread more for the polls and the writes.
-/

namespace RIBDriver

/-- What was in a freed vector is forgotten. -/
def UpdateVector.forget : UpdateVector -> UpdateVector
  | .freed _ => .freed []
  | vector => vector

theorem UpdateVector.forget_forget (vector : UpdateVector) :
    vector.forget.forget = vector.forget := by
  cases vector <;> rfl

def Poll.Event.forget {file : Type _} : Poll.Event file -> Poll.Event file
  | .copied f vector count => .copied f vector.forget count
  | .kfreed vector => .kfreed vector.forget
  | event => event

theorem Poll.Event.forget_copied {file : Type _} (f : file)
    (vector : UpdateVector) (n : Nat) :
    (Poll.Event.copied f vector.forget n).forget =
      (Poll.Event.copied f vector n).forget :=
  congrArg (Poll.Event.copied f · n) vector.forget_forget

theorem Poll.Event.forget_kfreed {file : Type _} (vector : UpdateVector) :
    (Poll.Event.kfreed vector.forget : Poll.Event file).forget =
      (Poll.Event.kfreed vector).forget :=
  congrArg Poll.Event.kfreed vector.forget_forget

namespace Access

variable {thread file : Type _}

/-- The pointer refers to what the variable has behind it. -/
def Coherent (s : State thread file) : Prop :=
  s.pointee s.pointer = s.g.rtUpdateVector.forget

section Parts

variable (s : State thread file)

theorem downCs_of_free (hcs : s.g.rtSerializeReadersCsSem ≠ 0) :
    s.downCs = some s.lowered :=
  if_neg hcs

theorem upCs_of_relock {s : State thread file} {g g' : Globals file}
    (hcs : g.rtSerializeReadersCsSem ≠ 0)
    (hsame : g'.relock g.rwSem g.rtSerializeReadersCsSem = g')
    (hg : s.g = g'.relock g.rwSem (g.rtSerializeReadersCsSem - 1)) :
    s.upCs.g = g' := by
  have hup : s.upCs.g =
      s.g.relock s.g.rwSem (s.g.rtSerializeReadersCsSem + 1) := rfl
  rw [hup, hg]
  show g'.relock g.rwSem (g.rtSerializeReadersCsSem - 1 + 1) = g'
  rw [Nat.sub_add_cancel (Nat.pos_of_ne_zero hcs), hsame]

theorem coherent_publish (allocOk : Bool) : Coherent (s.publish allocOk) := by
  cases allocOk with
  | false => rfl
  | true => exact State.pointee_of_read _ (s.vectors.read_alloc_self _)

theorem pointee_kfree :
    s.kfree.pointee s.kfree.pointer =
      (s.pointee s.pointer).kfree.forget := by
  have hkeep : s.kfree.pointer = s.pointer := rfl
  rw [hkeep]
  cases hpointer : s.pointer with
  | none => rfl
  | some a =>
      have hvectors : s.kfree.vectors = (s.vectors.free a).getD s.vectors := by
        simp only [State.kfree, hpointer]
      have hfreed : s.kfree.vectors.read a = none := by
        rw [hvectors, Heap.read_getD_free]
      rw [State.pointee_of_freed _ hfreed]
      cases hread : s.vectors.read a with
      | none => rw [State.pointee_of_freed _ hread]; rfl
      | some records => rw [State.pointee_of_read _ hread]; rfl

theorem coherent_kfree {s : State thread file} (h : Coherent s) :
    Coherent s.kfree := by
  unfold Coherent at h ⊢
  rw [pointee_kfree, h]
  show _ = s.g.rtUpdateVector.kfree.forget
  cases s.g.rtUpdateVector <;> rfl

theorem setCount_publish (allocOk : Bool) :
    ((s.publish allocOk).setCount (s.published allocOk)).g =
      s.g.refreshUpdateVector allocOk := by
  cases allocOk with
  | false => rfl
  | true => simp [State.publish, State.published, State.setCount,
      Globals.refreshUpdateVector, RtTable.rtGetUpdatedRtEntries,
      getNodeCountSinglyLl]

end Parts

def Pc.ofReadPc : Poll.ReadPc file -> Pc file
  | .idle => .idle
  | .copy filep => .load filep
  | .exit filep => .exitLock filep

section Runs

variable [DecidableEq thread] [DecidableEq file] [Fintype thread]
variable {s u v : State thread file} {t : thread} {f : file}

/-- A thread goes on by itself, to another place. -/
structure Goes (t : thread) (p : Pc file) (s v : State thread file) :
    Prop where
  reach : Transition.Reachable step Disciplined s v
  pc : v.pc = Function.update s.pc t p
  ready : v.ready = s.ready

theorem Goes.at {p : Pc file} (h : Goes t p s v) : v.pc t = p := by
  rw [h.pc, Function.update_self]

theorem Goes.trans {p q : Pc file} (hs : Goes t p s u) (hu : Goes t q u v) :
    Goes t q s v where
  reach := Transition.reachable_trans hs.reach hu.reach
  pc := by rw [hu.pc, hs.pc, Function.update_idem]
  ready := hu.ready.trans hs.ready

theorem goes_step {p : Pc file} {a : Action thread file}
    (hallowed : Disciplined s a) (h : step s a = some v)
    (hpc : v.pc = Function.update s.pc t p) (hready : v.ready = s.ready) :
    Goes t p s v where
  reach := Transition.Reachable.step Transition.Reachable.start hallowed h
  pc := hpc
  ready := hready

theorem goes_next {p : Pc file} (allocOk : Bool)
    (h : nextStep s t allocOk = some v)
    (hpc : v.pc = Function.update s.pc t p) (hready : v.ready = s.ready) :
    Goes t p s v :=
  goes_step (a := .next t allocOk) ⟨rfl, trivial⟩ h hpc hready

/-!
## The section before the copy
-/

theorem goes_lock {p : Pc file} (hcs : s.g.rtSerializeReadersCsSem ≠ 0)
    (hpc : nextStep s t true = s.downCs.map (·.goto t p)) :
    Goes t p s (s.lowered.goto t p) :=
  goes_next true (by rw [hpc, downCs_of_free s hcs]; rfl) rfl rfl

theorem goes_entryFirst (hpc : s.pc t = .entryTest f)
    (hempty : isSinglyLlEmpty s.g.blackListedPollReadersList = true) :
    Goes t (.publish f) s (s.goto t (.publish f)) :=
  goes_next true (by simp only [nextStep, hpc, hempty, if_true]) rfl rfl

theorem goes_entryLater (hpc : s.pc t = .entryTest f)
    (hempty : ¬ isSinglyLlEmpty s.g.blackListedPollReadersList = true) :
    Goes t (.entryUnlock f) s (s.goto t (.entryUnlock f)) :=
  goes_next true (by simp only [nextStep, hpc, if_neg hempty]) rfl rfl

theorem goes_storeCount {n : Nat} (hpc : s.pc t = .storeCount f n) :
    Goes t (.testCount f) s ((s.setCount n).goto t (.testCount f)) :=
  goes_next true (by simp only [nextStep, hpc]) rfl rfl

theorem exists_goes_clamp (hpc : s.pc t = .testCount f) :
    exists v, Goes t (.entryUnlock f) s v ∧ v.g = s.g.clampUpdateVectorCount ∧
      v.log = s.log ∧ (Coherent v <-> Coherent s) := by
  unfold Globals.clampUpdateVectorCount
  by_cases hmany : s.g.rtUpdateVectorCount > rtMaxEntriesFetch
  · have htest : Goes t (.clamp f) s (s.goto t (.clamp f)) :=
      goes_next true (by simp only [nextStep, hpc, if_pos hmany]) rfl rfl
    have hclamp : Goes t (.entryUnlock f) (s.goto t (.clamp f))
        (((s.goto t (.clamp f)).setCount rtMaxEntriesFetch).goto t
          (.entryUnlock f)) :=
      goes_next true (by simp only [nextStep, htest.at]) rfl rfl
    rw [if_pos hmany]
    exact ⟨_, htest.trans hclamp, rfl, rfl, Iff.rfl⟩
  · have htest : Goes t (.entryUnlock f) s (s.goto t (.entryUnlock f)) :=
      goes_next true (by simp only [nextStep, hpc, if_neg hmany]) rfl rfl
    rw [if_neg hmany]
    exact ⟨_, htest, rfl, rfl, Iff.rfl⟩

/-- The first reader of a batch fills the vector and clamps the count. -/
theorem exists_goes_snapshot (hpc : s.pc t = .publish f) (allocOk : Bool) :
    exists v, Goes t (.entryUnlock f) s v ∧
      v.g = (s.g.refreshUpdateVector allocOk).clampUpdateVectorCount ∧
      v.log = .opened allocOk :: s.log ∧ Coherent v := by
  have hpublish : Goes t (.storeCount f (s.published allocOk)) s _ :=
    goes_next allocOk (v := ((s.publish allocOk).addEvent
      (.opened allocOk)).goto t (.storeCount f (s.published allocOk)))
      (by simp only [nextStep, hpc]) (by cases allocOk <;> rfl)
      (by cases allocOk <;> rfl)
  rcases exists_goes_clamp (goes_storeCount hpublish.at).at with
    ⟨v, hclamp, hg, hlog, hcoherent⟩
  refine ⟨v, (hpublish.trans (goes_storeCount hpublish.at)).trans hclamp,
    ?_, ?_, hcoherent.mpr ?_⟩
  · rw [hg, ← setCount_publish]
    rfl
  · rw [hlog]
    cases allocOk <;> rfl
  · exact coherent_publish s allocOk

theorem goes_entryUnlock (hpc : s.pc t = .entryUnlock f) :
    Goes t (.load f) s (s.upCs.goto t (.load f)) :=
  goes_next true (by simp only [nextStep, hpc]) rfl rfl

/-- The section of a read before its copy. -/
theorem exists_goes_first (hpc : s.pc t = .entryLock f)
    (hcs : s.g.rtSerializeReadersCsSem ≠ 0) (hcoherent : Coherent s)
    (allocOk : Bool) :
    exists v, Goes t (.load f) s v ∧ v.g = s.g.rtReadFirst allocOk ∧
      v.log = (if isSinglyLlEmpty s.g.blackListedPollReadersList then
        .opened allocOk :: s.log else s.log) ∧ Coherent v := by
  have hlock : Goes t (.entryTest f) s (s.lowered.goto t (.entryTest f)) :=
    goes_lock hcs (by simp only [nextStep, hpc])
  have hsame : (s.g.rtReadFirst allocOk).relock s.g.rwSem
      s.g.rtSerializeReadersCsSem = s.g.rtReadFirst allocOk := by
    rw [← Globals.rtReadFirst_relock, Globals.relock_self]
  have hfirst := Globals.rtReadFirst_relock s.g s.g.rwSem
    (s.g.rtSerializeReadersCsSem - 1) allocOk
  by_cases hempty : isSinglyLlEmpty s.g.blackListedPollReadersList = true
  · have htest := hlock.trans (goes_entryFirst hlock.at hempty)
    rcases exists_goes_snapshot htest.at allocOk with
      ⟨u, hsnapshot, hg, hlog, hu⟩
    have hunlock := goes_entryUnlock hsnapshot.at
    refine ⟨_, (htest.trans hsnapshot).trans hunlock, ?_, ?_, hu⟩
    · refine upCs_of_relock hcs hsame (hg.trans ?_)
      rw [← hfirst]
      exact (if_pos hempty).symm
    · rw [if_pos hempty]
      exact hlog
  · have htest := hlock.trans (goes_entryLater hlock.at hempty)
    refine ⟨_, htest.trans (goes_entryUnlock htest.at), ?_, ?_, hcoherent⟩
    · refine upCs_of_relock hcs hsame ?_
      rw [← hfirst]
      exact (if_neg hempty).symm
    · rw [if_neg hempty]
      rfl

/-!
## The copy and the section behind it
-/

theorem goes_load (hpc : s.pc t = .load f) :
    Goes t (.loadCount f s.pointer) s (s.goto t (.loadCount f s.pointer)) :=
  goes_step (a := .load t false) ⟨rfl, trivial⟩
    (by simp only [step, loadStep, hpc]; rfl) rfl rfl

theorem goes_loadCount {vector : Option Nat}
    (hpc : s.pc t = .loadCount f vector) :
    Goes t (.copying f vector s.g.rtUpdateVectorCount) s
      (beginCopy s t f vector s.g.rtUpdateVectorCount) :=
  goes_next true (by simp only [nextStep, hpc]) rfl rfl

theorem goes_copying {vector : Option Nat} {n : Nat}
    (hpc : s.pc t = .copying f vector n) :
    Goes t (.exitLock f) s
      ((s.addEvent (.copied f (s.pointee vector) n)).goto t (.exitLock f)) :=
  goes_next true (by simp only [nextStep, hpc]) rfl rfl

/-- The copy, with its arguments evaluated. -/
theorem exists_goes_copy (hpc : s.pc t = .load f) (hcoherent : Coherent s) :
    exists v, Goes t (.exitLock f) s v ∧ v.g = s.g ∧
      v.log = .copied f s.g.rtUpdateVector.forget s.g.rtUpdateVectorCount ::
        s.log ∧ Coherent v := by
  have hload := goes_load hpc
  have hbegin := hload.trans (goes_loadCount hload.at)
  refine ⟨_, hbegin.trans (goes_copying hbegin.at), rfl, ?_, hcoherent⟩
  rw [← hcoherent]
  rfl

theorem goes_exitLast (hpc : s.pc t = .exitTest f)
    (hone : s.g.rtGetPollReaderCount = 1) :
    Goes t (.emptyList f) s (s.goto t (.emptyList f)) :=
  goes_next true (by simp only [nextStep, hpc, if_pos hone]) rfl rfl

theorem goes_exitLater (hpc : s.pc t = .exitTest f)
    (hone : s.g.rtGetPollReaderCount ≠ 1) :
    Goes t (.blackList f) s (s.goto t (.blackList f)) :=
  goes_next true (by simp only [nextStep, hpc, if_neg hone]) rfl rfl

theorem goes_emptyList (hpc : s.pc t = .emptyList f) :
    Goes t (.resetCount f) s
      ((s.setTable s.g.table.rtEmptyChangeList).goto t (.resetCount f)) :=
  goes_next true (by simp only [nextStep, hpc]; rfl) rfl rfl

theorem goes_resetCount (hpc : s.pc t = .resetCount f) :
    Goes t (.free f) s ((s.setCount 0).goto t (.free f)) :=
  goes_next true (by simp only [nextStep, hpc]) rfl rfl

theorem goes_free (hpc : s.pc t = .free f) :
    Goes t (.blackList f) s
      ((s.kfree.addEvent (.kfreed (s.pointee s.pointer))).goto t
        (.blackList f)) :=
  goes_next true (by simp only [nextStep, hpc]) rfl rfl

/-- The last registered reader ends the batch. -/
theorem exists_goes_endBatch (hpc : s.pc t = .emptyList f)
    (hcoherent : Coherent s) :
    exists v, Goes t (.blackList f) s v ∧
      v.g = { s.g with
        table := s.g.table.rtEmptyChangeList
        rtUpdateVectorCount := 0
        rtUpdateVector := s.g.rtUpdateVector.kfree } ∧
      v.log = .kfreed s.g.rtUpdateVector.forget :: s.log ∧ Coherent v := by
  have hempty := goes_emptyList hpc
  have hreset := hempty.trans (goes_resetCount hempty.at)
  refine ⟨_, hreset.trans (goes_free hreset.at), rfl, ?_, ?_⟩
  · rw [← hcoherent]
    rfl
  · exact coherent_kfree hcoherent

theorem goes_blackList (hpc : s.pc t = .blackList f) :
    Goes t .exitUnlock s ((s.moveReader f).goto t .exitUnlock) :=
  goes_next true (by simp only [nextStep, hpc]; rfl) rfl rfl

theorem goes_exitUnlock (hpc : s.pc t = .exitUnlock) :
    Goes t .upRead s (s.upCs.goto t .upRead) :=
  goes_next true (by simp only [nextStep, hpc]) rfl rfl

theorem goes_upRead (hpc : s.pc t = .upRead) :
    Goes t .idle s ((s.setReaders (s.g.rwSem.readers - 1)).goto t .idle) :=
  goes_next true (by simp only [nextStep, hpc]) rfl rfl

/-- The reader is blacklisted and leaves. -/
theorem exists_goes_leave (hpc : s.pc t = .blackList f) :
    exists v, Goes t .idle s v ∧
      v.g = (s.g.blackListPollReader f).relock
        { s.g.rwSem with readers := s.g.rwSem.readers - 1 }
        (s.g.rtSerializeReadersCsSem + 1) ∧
      v.log = s.log ∧ (Coherent v <-> Coherent s) := by
  have hmove := goes_blackList hpc
  have hunlock := hmove.trans (goes_exitUnlock hmove.at)
  exact ⟨_, hunlock.trans (goes_upRead hunlock.at), rfl, rfl, Iff.rfl⟩

/-- The section of a read behind its copy, and `up_read`. -/
theorem exists_goes_last (hpc : s.pc t = .exitLock f)
    (hcs : s.g.rtSerializeReadersCsSem ≠ 0) (hcoherent : Coherent s) :
    exists v, Goes t .idle s v ∧ v.g = s.g.rtReadExit f ∧
      v.log = (if s.g.rtGetPollReaderCount = 1 then
        .kfreed s.g.rtUpdateVector.forget :: s.log else s.log) ∧
      Coherent v := by
  have hlock : Goes t (.exitTest f) s (s.lowered.goto t (.exitTest f)) :=
    goes_lock hcs (by simp only [nextStep, hpc])
  have hback : s.g.rtSerializeReadersCsSem - 1 + 1 =
      s.g.rtSerializeReadersCsSem :=
    Nat.sub_add_cancel (Nat.pos_of_ne_zero hcs)
  rw [Globals.rtReadExit_eq_relock]
  unfold Globals.rtReadLast
  by_cases hone : s.g.rtGetPollReaderCount = 1
  · have htest := hlock.trans (goes_exitLast hlock.at hone)
    rcases exists_goes_endBatch htest.at hcoherent with
      ⟨u, hend, hg, hlog, hu⟩
    rcases exists_goes_leave (htest.trans hend).at with
      ⟨v, hleave, hgv, hlogv, hv⟩
    refine ⟨v, (htest.trans hend).trans hleave, ?_, ?_, hv.mpr hu⟩
    · rw [hgv, hg, if_pos hone, ← hback]
      rfl
    · rw [hlogv, hlog, if_pos hone]
      rfl
  · have htest := hlock.trans (goes_exitLater hlock.at hone)
    rcases exists_goes_leave htest.at with ⟨v, hleave, hgv, hlogv, hv⟩
    refine ⟨v, htest.trans hleave, ?_, ?_, hv.mpr hcoherent⟩
    · rw [hgv, if_neg hone, ← hback]
      rfl
    · rw [hlogv, if_neg hone]
      rfl

/-!
## The other calls
-/

theorem goes_downWrite {kmsg : RtUpdate} (hpc : s.pc t = .downWrite kmsg)
    (hfree : ¬ (s.g.rwSem.readers ≠ 0 ∨ s.g.rwSem.writer = true)) :
    Goes t .idle s ((s.apply kmsg).goto t .idle) :=
  goes_next true (by simp only [nextStep, hpc]; exact if_neg hfree) rfl rfl

theorem exists_goes_write (kmsg : RtUpdate) (hpc : s.pc t = .idle)
    (hfree : ¬ (s.g.rwSem.readers ≠ 0 ∨ s.g.rwSem.writer = true)) :
    exists v, Goes t .idle s v ∧ v.g = s.g.rtWrite kmsg ∧
      v.log = (if kmsg.opCode = rtRouteAdd then
        .wrote s.g.table.next s.g.table.pollReadersList :: s.log
        else s.log) ∧ (Coherent v <-> Coherent s) := by
  have hwrite : Goes t (.downWrite kmsg) s
      ((s.addUser (.writeIn sizeofRtUpdate 0)).goto t (.downWrite kmsg)) :=
    goes_step (a := .write t kmsg 0) ⟨rfl, trivial⟩
      (by simp only [step, writeStep, hpc]; rfl) rfl rfl
  exact ⟨_, hwrite.trans (goes_downWrite hwrite.at hfree), rfl, rfl, Iff.rfl⟩

theorem goes_pollWait {nonblock black data : Bool}
    (hpc : s.pc t = .pollWait f nonblock black data) :
    Goes t .idle s
      ((s.endPoll (s.g.rtPollWait f nonblock black data).1).goto t .idle) :=
  goes_next true (by simp only [nextStep, hpc]; rfl) rfl rfl

theorem reachable_pollReady (nonblock : Bool) (hpc : s.pc t = .idle)
    (hcs : s.g.rtSerializeReadersCsSem ≠ 0) (hsem : s.g.sem ≠ 0)
    (hfound : (!singlyLlIsValuePresent s.g.blackListedPollReadersList f &&
      s.g.table.mutexIsRtUpdated) = true) :
    Transition.Reachable step Disciplined s { s with
      ready :=
        if s.Reading f then s.ready
        else Function.update s.ready f true } := by
  refine Transition.Reachable.step Transition.Reachable.start
    (a := .poll t f nonblock false) ⟨rfl, trivial⟩ ?_
  simp [step, pollStep, hpc, hsem, downCs_of_free s hcs, hfound]

/-- A poll that does not find anything, from its look to its end. -/
theorem exists_goes_poll (nonblock : Bool) (hpc : s.pc t = .idle)
    (hcs : s.g.rtSerializeReadersCsSem ≠ 0) (hsem : s.g.sem ≠ 0)
    (hcoherent : Coherent s)
    (hfound : ¬ (!singlyLlIsValuePresent s.g.blackListedPollReadersList f &&
      s.g.table.mutexIsRtUpdated) = true) :
    exists v, Goes t .idle s v ∧
      v.g = (s.g.rtPollWait f nonblock
        (singlyLlIsValuePresent s.g.blackListedPollReadersList f)
        s.g.table.mutexIsRtUpdated).1 ∧ v.log = s.log ∧ Coherent v := by
  have hlook : Goes t _ s (s.look t f nonblock false) :=
    goes_step (a := .poll t f nonblock false) ⟨rfl, trivial⟩
      (by simp [step, pollStep, hpc, hsem, downCs_of_free s hcs, hfound,
        State.look]) rfl rfl
  have hend := hlook.trans (goes_pollWait hlook.at)
  have hrest := s.g.rtPollWait_relock s.g.rwSem
    (s.g.rtSerializeReadersCsSem - 1) f nonblock
    (singlyLlIsValuePresent s.g.blackListedPollReadersList f)
    s.g.table.mutexIsRtUpdated
  have hsame := s.g.rtPollWait_relock s.g.rwSem s.g.rtSerializeReadersCsSem f
    nonblock (singlyLlIsValuePresent s.g.blackListedPollReadersList f)
    s.g.table.mutexIsRtUpdated
  rw [Globals.relock_self] at hsame
  have hg := upCs_of_relock (s := { s.look t f nonblock false with
    g := ((s.look t f nonblock false).g.rtPollWait f nonblock _ _).1 }) hcs
    (congrArg Prod.fst hsame).symm (congrArg Prod.fst hrest)
  refine ⟨_, hend, hg, rfl, ?_⟩
  refine Eq.trans hcoherent (congrArg UpdateVector.forget ?_)
  rw [← (s.g.rtPollWait_frame f nonblock _ _).left, ← hg]
  rfl

end Runs

/-!
## Runs
-/

/-- Every thread is between two sections, and one thread more is outside of
calls.  What was in a vector when it was freed is not compared. -/
structure Between (b : Poll.State thread file)
    (s : State (Option thread) file) : Prop where
  g : s.g = b.g
  reads : forall t, s.pc (some t) = .ofReadPc (b.pc t)
  idle : s.pc none = .idle
  ready : s.ready = b.ready
  log : s.log.map Poll.Event.forget = b.log.map Poll.Event.forget
  coherent : Coherent s

theorem between_init :
    Between (Poll.State.init : Poll.State thread file) State.init where
  g := rfl
  reads := fun _ => rfl
  idle := rfl
  ready := rfl
  log := rfl
  coherent := rfl

theorem Pc.file?_ofReadPc (p : Poll.ReadPc file) :
    (Pc.ofReadPc p).file? = p.file? := by
  cases p <;> rfl

section Steps

variable {b : Poll.State thread file} {s : State (Option thread) file}

theorem reading_iff (h : Between b s) (f : file) :
    s.Reading f <-> b.Reading f := by
  constructor
  · rintro ⟨t, ht⟩
    cases t with
    | none =>
        rw [h.idle] at ht
        cases ht
    | some t =>
        rw [h.reads, Pc.file?_ofReadPc] at ht
        exact ⟨t, ht⟩
  · rintro ⟨t, ht⟩
    refine ⟨some t, ?_⟩
    rw [h.reads, Pc.file?_ofReadPc]
    exact ht

/-- Only the shared variables change, and the vectors with them. -/
theorem Between.access {v : State (Option thread) file} {g : Globals file}
    (h : Between b s) (hg : v.g = g) (hpc : v.pc = s.pc)
    (hready : v.ready = s.ready) (hlog : v.log = s.log) (hv : Coherent v) :
    Between { b with g := g } v where
  g := hg
  reads := by
    rw [hpc]
    exact h.reads
  idle := by
    rw [hpc]
    exact h.idle
  ready := hready.trans h.ready
  log := by
    rw [hlog]
    exact h.log
  coherent := hv

variable [DecidableEq thread]

theorem reads_update {v : State (Option thread) file} {t : thread}
    {p : Poll.ReadPc file} (h : Between b s)
    (hpc : v.pc = Function.update s.pc (some t) (.ofReadPc p)) :
    (forall t', v.pc (some t') =
      .ofReadPc (Function.update b.pc t p t')) ∧ v.pc none = .idle := by
  constructor
  · intro t'
    rw [hpc]
    by_cases ht : t' = t
    · rw [ht, Function.update_self, Function.update_self]
    · rw [Function.update_of_ne ht,
        Function.update_of_ne (fun hsome => ht (Option.some.inj hsome))]
      exact h.reads t'
  · rw [hpc, Function.update_of_ne (fun hnone => by cases hnone)]
    exact h.idle

theorem reads_none {v : State (Option thread) file} (h : Between b s)
    (hpc : v.pc = Function.update s.pc none .idle) :
    (forall t, v.pc (some t) = .ofReadPc (b.pc t)) ∧ v.pc none = .idle := by
  constructor
  · intro t
    rw [hpc, Function.update_of_ne (fun hnone => by cases hnone)]
    exact h.reads t
  · rw [hpc, Function.update_self]

variable [DecidableEq file] [Fintype thread] {d : Poll.State thread file}

theorem exists_copy {t : thread} (h : Between b s)
    (hstep : Poll.readCopyStep b t = some d) :
    exists v, Transition.Reachable step Disciplined s v ∧ Between d v := by
  unfold Poll.readCopyStep at hstep
  split at hstep
  · rename_i f hpc
    cases hstep
    have hload : s.pc (some t) = .load f := by
      rw [h.reads, hpc]
      rfl
    rcases exists_goes_copy hload h.coherent with ⟨v, hgoes, hg, hlog, hv⟩
    rcases reads_update (p := .exit f) h hgoes.pc with ⟨hreads, hidle⟩
    refine ⟨v, hgoes.reach, ?_⟩
    exact {
      g := hg.trans h.g
      reads := hreads
      idle := hidle
      ready := hgoes.ready.trans h.ready
      log := by
        rw [hlog, h.g, List.map_cons, List.map_cons, h.log,
          Poll.Event.forget_copied]
      coherent := hv }
  · cases hstep

theorem exists_entry {t : thread} {f : file} {allocOk : Bool}
    (h : Between b s) (hready : b.ready f = true)
    (hstep : Poll.readEntryStep b t f allocOk false = some d) :
    exists v, Transition.Reachable step Disciplined s v ∧ Between d v := by
  unfold Poll.readEntryStep at hstep
  simp only [Bool.false_eq_true, if_false] at hstep
  split at hstep
  · cases hstep
  · rename_i hfree
    rcases not_or.mp hfree with ⟨hidle, hwriter⟩
    split at hstep
    · cases hstep
    · rename_i hcs
      cases hstep
      rw [← h.g] at hcs hwriter
      have hpc : s.pc (some t) = .idle := by
        rw [h.reads, Classical.not_not.mp hidle]
        rfl
      have hread : step s (.read (some t) f 0) =
          some (s.enter (some t) f 0) := by
        simp only [step, readStep, hpc, hwriter]
        rfl
      rcases exists_goes_first (s := s.enter (some t) f 0) (t := some t)
        (f := f) (Function.update_self _ _ _) hcs h.coherent allocOk with
        ⟨v, hgoes, hg, hlog, hv⟩
      have hlast : v.pc = Function.update s.pc (some t) (.load f) := by
        rw [hgoes.pc]
        exact Function.update_idem _ _ _
      rcases reads_update (p := .copy f) h hlast with ⟨hreads, hnone⟩
      refine ⟨v, Transition.reachable_trans (Transition.Reachable.step
        Transition.Reachable.start ⟨rfl, h.ready ▸ hready⟩ hread)
        hgoes.reach, ?_⟩
      exact {
        g := by
          rw [hg]
          show Globals.rtReadFirst { s.g with rwSem := _ } allocOk = _
          rw [h.g]
          rfl
        reads := hreads
        idle := hnone
        ready := by
          rw [hgoes.ready]
          show Function.update s.ready f false = _
          rw [h.ready]
        log := by
          rw [hlog]
          show List.map _ (if isSinglyLlEmpty
            s.g.blackListedPollReadersList = true then _ else s.log) = _
          rw [h.g]
          split
          · rw [List.map_cons, List.map_cons, ← h.log]
            rfl
          · exact h.log
        coherent := hv }

theorem exists_exit {t : thread} (h : Between b s)
    (hstep : Poll.readExitStep b t false = some d) :
    exists v, Transition.Reachable step Disciplined s v ∧ Between d v := by
  unfold Poll.readExitStep at hstep
  simp only [Bool.false_eq_true, if_false] at hstep
  split at hstep
  · rename_i f hpc
    split at hstep
    · cases hstep
    · rename_i hcs
      cases hstep
      have hlock : s.pc (some t) = .exitLock f := by
        rw [h.reads, hpc]
        rfl
      rw [← h.g] at hcs
      rcases exists_goes_last hlock hcs h.coherent with
        ⟨v, hgoes, hg, hlog, hv⟩
      rcases reads_update (p := .idle) h hgoes.pc with ⟨hreads, hnone⟩
      refine ⟨v, hgoes.reach, ?_⟩
      exact {
        g := hg.trans (by rw [h.g])
        reads := hreads
        idle := hnone
        ready := hgoes.ready.trans h.ready
        log := by
          rw [hlog, h.g]
          split
          · rw [List.map_cons, List.map_cons, ← h.log,
              Poll.Event.forget_kfreed]
          · exact h.log
        coherent := hv }
  · cases hstep

theorem exists_write {kmsg : RtUpdate} (h : Between b s)
    (hstep : Poll.writeStep b kmsg = some d) :
    exists v, Transition.Reachable step Disciplined s v ∧ Between d v := by
  unfold Poll.writeStep at hstep
  split at hstep
  · cases hstep
  · rename_i hfree
    cases hstep
    rw [← h.g] at hfree
    rcases exists_goes_write kmsg h.idle hfree with ⟨v, hgoes, hg, hlog, hv⟩
    rcases reads_none h hgoes.pc with ⟨hreads, hnone⟩
    refine ⟨v, hgoes.reach, ?_⟩
    exact {
      g := hg.trans (by rw [h.g])
      reads := hreads
      idle := hnone
      ready := hgoes.ready.trans h.ready
      log := by
        rw [hlog, h.g]
        split
        · rw [List.map_cons, List.map_cons, ← h.log]
        · exact h.log
      coherent := hv.mpr h.coherent }

theorem exists_poll {f : file} {nonblock : Bool} (h : Between b s)
    (hstep : Poll.pollStep b f nonblock false = some d) :
    exists v, Transition.Reachable step Disciplined s v ∧ Between d v := by
  unfold Poll.pollStep Globals.rtPoll at hstep
  split at hstep
  · cases hstep
  · rename_i hfree
    rcases not_or.mp hfree with ⟨hcs, hsem⟩
    have hsem : b.g.sem ≠ 0 := fun hzero => hsem ⟨hzero, rfl⟩
    simp only [Bool.false_or] at hstep
    split at hstep
    · rename_i hfound
      cases hstep
      rw [← h.g] at hcs hsem hfound
      refine ⟨_, reachable_pollReady nonblock h.idle hcs hsem hfound, ?_⟩
      refine { h with ready := ?_ }
      by_cases hreading : s.Reading f
      · rw [if_pos hreading,
          if_neg (fun hboth => hboth.right ((reading_iff h f).mp hreading))]
        exact h.ready
      · rw [if_neg hreading,
          if_pos ⟨rfl, fun hother => hreading ((reading_iff h f).mpr hother)⟩,
          h.ready]
    · rename_i hfound
      cases hstep
      rw [← h.g] at hcs hsem hfound
      rcases exists_goes_poll nonblock h.idle hcs hsem h.coherent hfound with
        ⟨v, hgoes, hg, hlog, hv⟩
      rcases reads_none h hgoes.pc with ⟨hreads, hnone⟩
      refine ⟨v, hgoes.reach, ?_⟩
      exact {
        g := hg.trans (by rw [h.g])
        reads := hreads
        idle := hnone
        ready := by
          rw [hgoes.ready, h.ready]
          refine (if_neg fun hboth => ?_).symm
          rcases b.g.rtPollWait_mask f nonblock
            (singlyLlIsValuePresent b.g.blackListedPollReadersList f)
            b.g.table.mutexIsRtUpdated with hmask | hmask <;>
            rw [hmask] at hboth <;> exact absurd hboth.left (by decide)
        log := hlog ▸ h.log
        coherent := hv }

theorem exists_section {a : Poll.Action thread file} (h : Between b s)
    (hallowed : Poll.Disciplined b a) (hstep : Poll.step b a = some d) :
    exists v, Transition.Reachable step Disciplined s v ∧ Between d v := by
  cases a with
  | poll f nonblock interrupted =>
      cases (show interrupted = false from hallowed.left)
      exact exists_poll h hstep
  | readEntry t f allocOk interrupted =>
      cases (show interrupted = false from hallowed.left)
      exact exists_entry h hallowed.right hstep
  | readCopy t => exact exists_copy h hstep
  | readExit t interrupted =>
      cases (show interrupted = false from hallowed.left)
      exact exists_exit h hstep
  | write kmsg => exact exists_write h hstep

/-- Every disciplined run of the protocol with sections for steps is one of the
protocol access by access. -/
theorem exists_accesses_run
    (h : Transition.Reachable Poll.step Poll.Disciplined Poll.State.init b) :
    exists s : State (Option thread) file,
      Transition.Reachable step Disciplined State.init s ∧ Between b s :=
  Transition.exists_refined_of_reachable Between between_init
    (fun _ _ _ _ hrel hallowed hstep => exists_section hrel hallowed hstep) h

end Steps

end Access
end RIBDriver
