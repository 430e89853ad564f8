import RIBDriver.Rt.Driver

/-!
# Whole calls of the poll protocol

`rt_poll` and `rt_read` as one call each, with nothing between the sections of
a read, and what a failing `rt_read` leaves behind.
-/

namespace RIBDriver

namespace Globals

variable {file : Type _}

def minusErestartsysMask : UInt32 := 0xFFFFFE00

/-- What the kernel decides during a call of `rt_read`: whether its two waits
for `rt_serialize_readers_cs_sem` are interrupted and whether `kzalloc`
succeeds. -/
structure ReadEnv where
  entryInterrupted : Bool
  allocOk : Bool
  exitInterrupted : Bool
deriving DecidableEq

def ReadEnv.isInterrupted (env : ReadEnv) : Bool :=
  env.entryInterrupted || env.exitInterrupted

/-- `buf` has the records the call has copied. -/
structure ReadResult (file : Type _) where
  g : Globals file
  rc : Int
  buf : List RtTable.VectorCell

def rtPollCall [DecidableEq file] (g : Globals file) (filep : file)
    (nonblock interruptedCs interrupted : Bool) : Globals file × UInt32 :=
  if interruptedCs then (g, minusErestartsysMask)
  else g.rtPoll filep nonblock interrupted

/-- `SEM_LOCK` returns from `rt_read` with `rw_sem` held. -/
def rtReadCall [DecidableEq file]
    (g : Globals file) (filp : file) (env : ReadEnv) :
    ReadResult file :=
  if env.entryInterrupted then
    { g := { g with rwSem := { g.rwSem with readers := g.rwSem.readers + 1 } }
      rc := minusErestartsys
      buf := [] }
  else
    let g := g.rtReadEntry env.allocOk
    let rc := g.rtUpdateVectorCount
    let buf := g.announced
    if env.exitInterrupted then { g := g, rc := minusErestartsys, buf := buf }
    else
      let rc :=
        if g.rtGetPollReaderCount = 1 then g.rtUpdateVectorCount else rc
      { g := g.rtReadExit filp, rc := rc, buf := buf }

/-!
## A read that fails
-/

/-- A wait of the call is interrupted, or the first reader of a batch gets no
memory. -/
def ReadFails (g : Globals file) (env : ReadEnv) : Prop :=
  env.entryInterrupted = true ∨ env.exitInterrupted = true ∨
    env.allocOk = false ∧ g.blackListedPollReadersList = []

structure Unchanged (g g' : Globals file) : Prop where
  rwSem : g'.rwSem = g.rwSem
  serializeReaders : g'.rtSerializeReadersCsSem = g.rtSerializeReadersCsSem
  changeList : g'.table.rtChangeList = g.table.rtChangeList
  pollReaders : g'.table.pollReadersList = g.table.pollReadersList
  blackList : g'.blackListedPollReadersList = g.blackListedPollReadersList

/-- What a failing call changes.  After an interruption `rw_sem` stays held; a
call without memory goes on as if there were nothing to read. -/
structure LeftBehind (g : Globals file) (filp : file) (env : ReadEnv)
    (g' : Globals file) : Prop where
  held : env.isInterrupted = true -> g'.rwSem.readers = g.rwSem.readers + 1
  blackListed : env.isInterrupted = false ->
    g.blackListedPollReadersList = [] ∧ g'.blackListedPollReadersList = [filp]
  discarded : env.isInterrupted = false -> g.rtGetPollReaderCount = 1 ->
    g'.table.rtChangeList = []

section Fields

variable (g : Globals file)

theorem exists_rtReadEntry_eq (allocOk : Bool) :
    exists vector n, g.rtReadEntry allocOk =
      { g with
        rwSem := { g.rwSem with readers := g.rwSem.readers + 1 }
        rtUpdateVector := vector
        rtUpdateVectorCount := n } := by
  by_cases hblack : g.blackListedPollReadersList = []
  · let s : Poll.State Unit file := { (Poll.State.init) with g := g }
    rcases Poll.snapshot_of_refresh s allocOk
      { g with rwSem := { g.rwSem with readers := g.rwSem.readers + 1 } } rfl
      with ⟨vector, n, hentry, _⟩
    exact ⟨vector, n, (rtReadEntry_first hblack allocOk).trans hentry⟩
  · exact ⟨g.rtUpdateVector, g.rtUpdateVectorCount,
      rtReadEntry_later hblack allocOk⟩

variable [DecidableEq file]

theorem blackList_rtReadExit (filp : file) :
    (g.rtReadExit filp).blackListedPollReadersList =
      filp :: g.blackListedPollReadersList := by
  unfold rtReadExit rtReadLast
  dsimp only
  split <;> rfl

theorem changeList_rtReadExit (filp : file)
    (hone : g.rtGetPollReaderCount = 1) :
    (g.rtReadExit filp).table.rtChangeList = [] := by
  unfold rtReadExit rtReadLast
  rw [if_pos hone]
  rfl

end Fields

section Failure

variable {g g' : Globals file} {filp : file} {env : ReadEnv}

theorem not_unchanged_of_leftBehind (h : LeftBehind g filp env g') :
    ¬ Unchanged g g' := by
  intro hsame
  by_cases hinterrupted : env.isInterrupted = true
  · have hreaders := h.held hinterrupted
    rw [hsame.rwSem] at hreaders
    exact absurd hreaders.symm (Nat.succ_ne_self _)
  · have hblack := h.blackListed (Bool.not_eq_true _ |>.mp hinterrupted)
    rw [hsame.blackList, hblack.left] at hblack
    cases hblack.right

variable [DecidableEq file]

theorem leftBehind_of_readFails (h : ReadFails g env) :
    LeftBehind g filp env (g.rtReadCall filp env).g := by
  rcases exists_rtReadEntry_eq g env.allocOk with ⟨vector, n, hentry⟩
  unfold rtReadCall
  by_cases hentryInterrupted : env.entryInterrupted = true
  · have hinterrupted : env.isInterrupted = true := by
      simp [ReadEnv.isInterrupted, hentryInterrupted]
    simp only [hentryInterrupted, if_true]
    constructor <;> simp [hinterrupted]
  · by_cases hexitInterrupted : env.exitInterrupted = true
    · have hinterrupted : env.isInterrupted = true := by
        simp [ReadEnv.isInterrupted, hexitInterrupted]
      simp only [hentryInterrupted, hexitInterrupted, if_true, if_false,
        Bool.false_eq_true, hentry]
      constructor <;> simp [hinterrupted]
    · have hinterrupted : env.isInterrupted = false := by
        simp [ReadEnv.isInterrupted, hentryInterrupted, hexitInterrupted]
      have hblack : g.blackListedPollReadersList = [] := by
        rcases h with hfalse | hfalse | hnoMemory
        · exact absurd hfalse hentryInterrupted
        · exact absurd hfalse hexitInterrupted
        · exact hnoMemory.right
      simp only [hentryInterrupted, hexitInterrupted, if_false,
        Bool.false_eq_true, hentry]
      constructor
      · intro hfalse
        rw [hinterrupted] at hfalse
        cases hfalse
      · intro _
        rw [blackList_rtReadExit]
        exact ⟨hblack, congrArg (filp :: ·) hblack⟩
      · intro _ hone
        exact changeList_rtReadExit _ filp hone

end Failure

end Globals

namespace Poll

open Globals

variable {thread file : Type _} [DecidableEq thread] [DecidableEq file]

def readSteps (t : thread) (filp : file) (env : ReadEnv) :
    List (Action thread file) :=
  .readEntry t filp env.allocOk env.entryInterrupted ::
    if env.entryInterrupted then []
    else [.readCopy t, .readExit t env.exitInterrupted]

/-- Between two steps nobody is in a critical section or writes. -/
structure Free (s : State thread file) : Prop where
  serializeReaders : s.g.rtSerializeReadersCsSem = 1
  sem : s.g.sem = 1
  writer : s.g.rwSem.writer = false

theorem free_of_move {s u : State thread file} {a : Action thread file}
    (h : Free s) (hmove : Move s a u) : Free u := by
  cases hmove <;> exact ⟨h.serializeReaders, h.sem, h.writer⟩

variable [Fintype thread] {s : State thread file}

theorem free_of_reachable {allowed : State thread file ->
    Action thread file -> Prop}
    (h : Transition.Reachable step allowed State.init s) : Free s := by
  apply Transition.reachable_invariant Free ⟨rfl, rfl, rfl⟩ _ h
  intro v a w hv _ hstep
  exact free_of_move hv (move_of_step hstep)

theorem run_readSteps (hfree : Free s) {t : thread} (hidle : s.pc t = .idle)
    (filp : file) (env : ReadEnv) :
    exists u, Transition.runAllowed step (fun _ _ => True) s
        (readSteps t filp env) = some u ∧
      u.g = (s.g.rtReadCall filp env).g ∧
        (env.entryInterrupted = false ->
          exists vector n, .copied filp vector n ∈ u.log ∧
            vector.records.take n = (s.g.rtReadCall filp env).buf) := by
  have hserialize : ¬ s.g.rtSerializeReadersCsSem = 0 := by
    rw [hfree.serializeReaders]
    exact Nat.one_ne_zero
  have henabled : ¬ (s.pc t ≠ .idle ∨ s.g.rwSem.writer = true) := by
    rw [hidle, hfree.writer]
    simp
  cases hentry : env.entryInterrupted with
  | true =>
      simp only [readSteps, hentry, if_true, Transition.runAllowed, step,
        readEntryStep, if_neg henabled, rtReadCall]
      exact ⟨_, rfl, rfl, by simp⟩
  | false =>
      rcases exists_rtReadEntry_eq s.g env.allocOk with ⟨vector, n, hsection⟩
      cases hexit : env.exitInterrupted with
      | true =>
          simp only [readSteps, hentry, hexit, if_true, if_false,
            Bool.false_eq_true, Transition.runAllowed, step, readEntryStep,
            if_neg henabled, if_neg hserialize, readCopyStep, readExitStep,
            Function.update_self, rtReadCall, hsection]
          exact ⟨_, rfl, rfl, fun _ => ⟨vector, n, List.mem_cons_self, rfl⟩⟩
      | false =>
          simp only [readSteps, hentry, hexit, if_true, if_false,
            Bool.false_eq_true, Transition.runAllowed, step, readEntryStep,
            if_neg henabled, if_neg hserialize, readCopyStep, readExitStep,
            Function.update_self, rtReadCall, hsection]
          refine ⟨_, rfl, rfl, fun _ => ⟨vector, n, ?_, rfl⟩⟩
          simp only
          split
          · exact List.mem_cons_of_mem _ List.mem_cons_self
          · exact List.mem_cons_self

/-- Wherever a run of the protocol stands, a failing `rt_read` of an idle
thread leaves its mark: the call never restores the state it has found. -/
theorem readSteps_not_atomic
    (hs : Transition.Reachable step (fun _ _ => True) State.init s)
    {t : thread} (hidle : s.pc t = .idle) (filp : file) {env : ReadEnv}
    (hfails : ReadFails s.g env) :
    exists u, Transition.runAllowed step (fun _ _ => True) s
        (readSteps t filp env) = some u ∧
      LeftBehind s.g filp env u.g ∧ ¬ Unchanged s.g u.g := by
  rcases run_readSteps (free_of_reachable hs) hidle filp env with
    ⟨u, hrun, hcall, _⟩
  have hleft : LeftBehind s.g filp env u.g := by
    rw [hcall]
    exact leftBehind_of_readFails hfails
  exact ⟨u, hrun, hleft, not_unchanged_of_leftBehind hleft⟩

def oneReaderReady (filep : file) : List (Action thread file) :=
  [.poll filep false false, .write someUpdate, .poll filep false false]

theorem readSteps_not_atomic_noMemory :
    exists s u : State (Fin 1) (Fin 1),
      s.pending = [0] ∧ u.pending = [] ∧ ¬ Unchanged s.g u.g := by
  have hreached : exists s : State (Fin 1) (Fin 1),
      Transition.Reachable step (fun _ _ => True) State.init s ∧
        decide (s.pending = [0] ∧ s.pc 0 = .idle ∧ s.readers.length = 1 ∧
          s.black = []) = true :=
    Transition.exists_reachable_of_schedule (oneReaderReady 0) _ (by decide)
  rcases hreached with ⟨s, hreach, htest⟩
  rcases of_decide_eq_true htest with ⟨hpending, hidle, hone, hblack⟩
  have hfails : ReadFails s.g ⟨false, false, false⟩ :=
    Or.inr (Or.inr ⟨rfl, hblack⟩)
  rcases readSteps_not_atomic hreach hidle 0 hfails with
    ⟨u, _, hleft, hchanged⟩
  have hgone : u.pending = [] :=
    congrArg (List.map RtPreserveUpdate.entry) (hleft.discarded rfl hone)
  exact ⟨s, u, hpending, hgone, hchanged⟩

/-- A disciplined run has brought one file to its read.  If the first wait of
the read is interrupted nobody can write any more; if there is no memory the
pending update is gone. -/
theorem exists_failed_read :
    exists s u v : State (Fin 1) (Fin 1),
      (Transition.Reachable step Disciplined State.init s ∧
        s.ready 0 = true ∧ s.pending = [0]) ∧
        (Transition.runAllowed step (fun _ _ => True) s
            (readSteps 0 0 ⟨true, true, false⟩) = some u ∧
          step u (.write someUpdate) = none ∧ ¬ Unchanged s.g u.g) ∧
          Transition.runAllowed step (fun _ _ => True) s
              (readSteps 0 0 ⟨false, false, false⟩) = some v ∧
            v.pending = [] ∧ ¬ Unchanged s.g v.g := by
  have hreached : exists s : State (Fin 1) (Fin 1),
      Transition.Reachable step Disciplined State.init s ∧
        decide (s.ready 0 = true ∧ s.pending = [0] ∧ s.pc 0 = .idle ∧
          s.readers.length = 1 ∧ s.black = []) = true :=
    Transition.exists_reachable_of_schedule (oneReaderReady 0) _ (by decide)
  rcases hreached with ⟨s, hreach, htest⟩
  rcases of_decide_eq_true htest with
    ⟨hready, hpending, hidle, hone, hblack⟩
  have hfree := free_of_reachable hreach
  rcases run_readSteps hfree hidle 0 ⟨true, true, false⟩ with
    ⟨u, hrunU, hu, _⟩
  rcases run_readSteps hfree hidle 0 ⟨false, false, false⟩ with
    ⟨v, hrunV, hv, _⟩
  have hleftU : LeftBehind s.g 0 ⟨true, true, false⟩ u.g := by
    rw [hu]
    exact leftBehind_of_readFails (Or.inl rfl)
  have hleftV : LeftBehind s.g 0 ⟨false, false, false⟩ v.g := by
    rw [hv]
    exact leftBehind_of_readFails (Or.inr (Or.inr ⟨rfl, hblack⟩))
  have hblocked : step u (.write someUpdate) = none := by
    have hheld := hleftU.held rfl
    have hbusy : u.g.rwSem.readers ≠ 0 ∨ u.g.rwSem.writer = true := by
      rw [hheld]
      exact Or.inl (Nat.succ_ne_zero _)
    show writeStep u someUpdate = none
    unfold writeStep
    rw [if_pos hbusy]
  have hgone : v.pending = [] :=
    congrArg (List.map RtPreserveUpdate.entry) (hleftV.discarded rfl hone)
  refine ⟨s, u, v, ⟨hreach, hready, hpending⟩, ⟨hrunU, hblocked, ?_⟩,
    hrunV, hgone, ?_⟩
  · exact not_unchanged_of_leftBehind hleftU
  · exact not_unchanged_of_leftBehind hleftV

end Poll
end RIBDriver
