import RIBDriver.Rt.Poll.Stream
import RIBDriver.Rt.Select.Moves

/-!
# From locks to sections

`rt_poll` decides with its look at the lists and changes them later, while a
write may add an entry in between and a read holds `rt->rw_sem` on both sides of
its sections.  None of this shows: what the protocol lock by lock reaches, the
protocol with whole sections for steps reaches as well.  That a section of a
read and a copy are one step each is common to both.
-/

namespace RIBDriver
namespace Select

variable {thread file : Type _}

namespace Pc

def inWindow : Pc file -> Bool
  | .pollWait _ _ _ => true
  | _ => false

def holdsRead : Pc file -> Bool
  | .readLock _ => true
  | .readFirst _ => true
  | .readCopy _ => true
  | .lastLock _ => true
  | .readLast _ => true
  | .upRead => true
  | _ => false

/-- The thread is past the first section of a read and not past its last. -/
def inside : Pc file -> Bool
  | .readCopy _ => true
  | .lastLock _ => true
  | .readLast _ => true
  | _ => false

end Pc

/-- An event, up to who was registered when an entry was written. -/
def unregistered : Poll.Event file -> Poll.Event file
  | .wrote src _ => .wrote src []
  | event => event

/-- The shared variables once a poll that has looked has done its rest. -/
inductive Settled [DecidableEq file]
    (s : State thread file) : Globals file -> Prop where
  | quiet (h : forall t, (s.pc t).inWindow = false) : Settled s s.g
  | window {t : thread} {call : PollCall file} {black data : Bool}
      (hpc : s.pc t = .pollWait call black data) :
      Settled s (s.g.rtPollWait call.filep call.nonblock black data).1

section Counts

variable [DecidableEq file]
variable [Fintype thread]

def readersIn (pc : thread -> Pc file) : Nat :=
  Counting.total (fun _ p => p.holdsRead.toNat) pc

def insideIn (pc : thread -> Pc file) : Nat :=
  Counting.total (fun _ p => p.inside.toNat) pc

/-- The `k` interrupted reads never give the lock back. -/
structure SharedBy (s : State thread file) (g' g : Globals file) (k : Nat) :
    Prop where
  settled : Settled s g
  readers : s.g.rwSem.readers = k + readersIn s.pc
  same : g' = g.relock { readers := k + insideIn s.pc, writer := false } 1

/-- The state of the protocol with sections for steps. -/
structure Matches (s : State thread file) (b : Poll.State thread file) :
    Prop where
  pc : forall t, b.pc t = (s.pc t).stage
  ready : b.ready = s.ready
  log : b.log.map unregistered = s.log.map unregistered
  shared : exists g k, SharedBy s b.g g k

end Counts

def sectionOf (s : State thread file) : Action thread file ->
    Option (Poll.Action thread file)
  | .look t interrupted =>
      match s.pc t with
      | .pollLook call => some (.poll call.filep call.nonblock interrupted)
      | _ => none
  | .downCs t true =>
      match s.pc t with
      | .readLock filep => some (.readEntry t filep true true)
      | .lastLock _ => some (.readExit t true)
      | _ => none
  | .first t allocOk =>
      match s.pc t with
      | .readFirst filep => some (.readEntry t filep allocOk false)
      | _ => none
  | .copy t => some (.readCopy t)
  | .last t => some (.readExit t false)
  | .apply t =>
      match s.pc t with
      | .apply kmsg => some (.write kmsg)
      | _ => none
  | _ => none

/-!
## The rest of a poll
-/

section Settling

variable {s v : State thread file} {g : Globals file}

theorem holdsCs_of_inWindow {p : Pc file} (h : p.inWindow = true) :
    p.holdsCs = true := by
  cases p with
  | pollWait call black data => rfl
  | _ => cases h

theorem quiet_of_holds [DecidableEq thread] [Fintype thread]
    (hlocked : Locked s) {t u : thread}
    (hholds : (s.pc t).holdsCs = true) (hne : u ≠ t) :
    (s.pc u).inWindow = false := by
  cases hu : (s.pc u).inWindow with
  | false => rfl
  | true =>
      exact absurd (eq_of_holds hlocked (holdsCs_of_inWindow hu) hholds) hne

variable [DecidableEq file]

theorem Settled.frame (h : Settled s g) :
    g.rtUpdateVector = s.g.rtUpdateVector ∧
      g.rtUpdateVectorCount = s.g.rtUpdateVectorCount ∧
      g.table.next = s.g.table.next := by
  cases h with
  | quiet _ => exact ⟨rfl, rfl, rfl⟩
  | window _ => exact Globals.rtPollWait_frame _ _ _ _ _

variable [DecidableEq thread]

theorem settled_goto {t : thread} {next : Pc file}
    (change : Globals file -> Globals file)
    (hcomm : forall (g : Globals file) f nonblock black data,
      ((change g).rtPollWait f nonblock black data).1 =
        change (g.rtPollWait f nonblock black data).1)
    (h : Settled s g) (hpc : v.pc = Function.update s.pc t next)
    (hold : (s.pc t).inWindow = false) (hnext : next.inWindow = false)
    (hg : v.g = change s.g) : Settled v (change g) := by
  cases h with
  | quiet hnone =>
      rw [← hg]
      refine Settled.quiet fun u => ?_
      rw [hpc]
      rcases eq_or_ne u t with hu | hu
      · rw [hu, Function.update_self]
        exact hnext
      · rw [Function.update_of_ne hu]
        exact hnone u
  | @window u call black data hu =>
      have hne : u ≠ t := by
        intro hsame
        rw [← hsame, hu] at hold
        cases hold
      have hstill : v.pc u = .pollWait call black data := by
        rw [hpc, Function.update_of_ne hne]
        exact hu
      rw [← hcomm, ← hg]
      exact Settled.window hstill

variable [Fintype thread]

theorem settled_of_holds (hlocked : Locked s) (h : Settled s g) {t : thread}
    (hholds : (s.pc t).holdsCs = true) (hout : (s.pc t).inWindow = false) :
    g = s.g := by
  cases h with
  | quiet _ => rfl
  | @window u call black data hu =>
      rcases eq_or_ne u t with hsame | hne
      · rw [← hsame, hu] at hout
        cases hout
      · have hnone := quiet_of_holds hlocked hholds hne
        rw [hu] at hnone
        cases hnone

theorem settled_of_window (hlocked : Locked s) (h : Settled s g) {t : thread}
    {call : PollCall file} {black data : Bool}
    (hpc : s.pc t = .pollWait call black data) :
    g = (s.g.rtPollWait call.filep call.nonblock black data).1 := by
  cases h with
  | quiet hnone =>
      have hin := hnone t
      rw [hpc] at hin
      cases hin
  | @window u call' black' data' hu =>
      have hsame : u = t :=
        eq_of_holds hlocked (by rw [hu]; rfl) (by rw [hpc]; rfl)
      rw [hsame, hpc] at hu
      cases hu
      rfl

theorem settled_endSection (hlocked : Locked s) {t : thread} {next : Pc file}
    (hholds : (s.pc t).holdsCs = true)
    (hpc : v.pc = Function.update s.pc t next)
    (hnext : next.inWindow = false) : Settled v v.g := by
  refine Settled.quiet fun u => ?_
  rw [hpc]
  rcases eq_or_ne u t with hu | hu
  · rw [hu, Function.update_self]
    exact hnext
  · rw [Function.update_of_ne hu]
    exact quiet_of_holds hlocked hholds hu

end Settling

/-!
## One step
-/

section Steps

variable {s v : State thread file} {b : Poll.State thread file}

theorem reading_iff [DecidableEq file] [Fintype thread]
    (h : Matches s b) (f : file) :
    b.Reading f <-> s.Reading f := by
  constructor
  · intro hreading
    rcases hreading with ⟨t, ht⟩
    rw [h.pc t] at ht
    exact ⟨t, ht⟩
  · intro hreading
    rcases hreading with ⟨t, ht⟩
    rw [← h.pc t] at ht
    exact ⟨t, ht⟩

theorem disciplined_section [DecidableEq file] [Fintype thread]
    {a : Action thread file}
    {c : Poll.Action thread file} (h : Matches s b) (hallowed : Disciplined s a)
    (hsection : sectionOf s a = some c) : Poll.Disciplined b c := by
  rcases hallowed with ⟨hquiet, hready⟩
  cases a with
  | look t interrupted =>
      simp only [sectionOf] at hsection
      split at hsection
      · cases hsection
        exact ⟨hquiet, rfl⟩
      · cases hsection
  | downCs t interrupted =>
      change interrupted = false at hquiet
      rw [hquiet] at hsection
      cases hsection
  | first t allocOk =>
      simp only [sectionOf] at hsection
      split at hsection
      · rename_i f hpc
        cases hsection
        simp only [Action.isReady, hpc] at hready
        refine ⟨rfl, ?_⟩
        show b.ready f = true
        rw [h.ready]
        exact hready
      · cases hsection
  | copy t =>
      cases hsection
      exact ⟨rfl, rfl⟩
  | last t =>
      cases hsection
      exact ⟨rfl, rfl⟩
  | apply t =>
      simp only [sectionOf] at hsection
      split at hsection
      · cases hsection
        exact ⟨rfl, rfl⟩
      · cases hsection
  | _ => cases hsection

variable [DecidableEq thread]

theorem stage_goto {stages : thread -> Poll.ReadPc file}
    {pc : thread -> Pc file} {t : thread} {next : Pc file}
    (h : forall u, stages u = (pc u).stage)
    (hstage : next.stage = (pc t).stage) (u : thread) :
    stages u = (Function.update pc t next u).stage := by
  rcases eq_or_ne u t with hu | hu
  · rw [hu, Function.update_self, hstage]
    exact h t
  · rw [Function.update_of_ne hu]
    exact h u

theorem stage_both {stages : thread -> Poll.ReadPc file}
    {pc : thread -> Pc file} (t : thread) (next : Pc file)
    (h : forall u, stages u = (pc u).stage) (u : thread) :
    Function.update stages t next.stage u =
      (Function.update pc t next u).stage := by
  rcases eq_or_ne u t with hu | hu
  · rw [hu, Function.update_self, Function.update_self]
  · rw [Function.update_of_ne hu, Function.update_of_ne hu]
    exact h u

variable [Fintype thread]

theorem counts_goto (pc : thread -> Pc file) (t : thread) (next : Pc file) :
    readersIn (Function.update pc t next) + (pc t).holdsRead.toNat =
        readersIn pc + next.holdsRead.toNat ∧
      insideIn (Function.update pc t next) + (pc t).inside.toNat =
        insideIn pc + next.inside.toNat :=
  ⟨Counting.total_update (fun _ p => Bool.toNat (Pc.holdsRead p)) pc t next,
    Counting.total_update (fun _ p => Bool.toNat (Pc.inside p)) pc t next⟩

variable [DecidableEq file]

theorem matches_of_quiet {t : thread} {next : Pc file} {rwSem : RwSem}
    {cs : Nat} (h : Matches s b) (hpc : v.pc = Function.update s.pc t next)
    (hg : v.g = s.g.relock rwSem cs) (hready : v.ready = s.ready)
    (hlog : v.log = s.log) (hstage : next.stage = (s.pc t).stage)
    (hold : (s.pc t).inWindow = false) (hnext : next.inWindow = false)
    (hinside : next.inside = (s.pc t).inside)
    (hreaders : rwSem.readers + (s.pc t).holdsRead.toNat =
      s.g.rwSem.readers + next.holdsRead.toNat) : Matches v b := by
  rcases h.shared with ⟨g, k, hshared⟩
  have hcounts := counts_goto s.pc t next
  have hreadersNow := hshared.readers
  refine ⟨?_, ?_, ?_, g.relock rwSem cs, k, ?_, ?_, ?_⟩
  · rw [hpc]
    exact stage_goto h.pc hstage
  · rw [hready]
    exact h.ready
  · rw [hlog]
    exact h.log
  · exact settled_goto (fun g => g.relock rwSem cs)
      (fun g f nonblock black data => by rw [Globals.rtPollWait_relock])
      hshared.settled hpc hold hnext hg
  · rw [hg, hpc]
    show rwSem.readers = _
    lia
  · rw [Globals.relock_relock, hshared.same, hpc]
    have hsame : insideIn (Function.update s.pc t next) = insideIn s.pc := by
      have hboth := hcounts.right
      rw [hinside] at hboth
      lia
    rw [hsame]

theorem matches_lookReady {t : thread} {call : PollCall file}
    {interrupted : Bool} (hlocked : Locked s) (h : Matches s b)
    (hpc : s.pc t = .pollLook call)
    (hsem : ¬ (s.g.sem = 0 ∧ interrupted = false))
    (hready : (!singlyLlIsValuePresent s.g.blackListedPollReadersList
      call.filep && (interrupted || s.g.table.mutexIsRtUpdated)) = true) :
    exists d, Poll.step b (.poll call.filep call.nonblock interrupted) =
      some d ∧ Matches (s.returnReady t call) d := by
  rcases h.shared with ⟨g, k, hshared⟩
  have hholds : (s.pc t).holdsCs = true := by rw [hpc]; rfl
  have hg : g = s.g :=
    settled_of_holds hlocked hshared.settled hholds (by rw [hpc]; rfl)
  have hbg := hshared.same
  rw [hg] at hbg
  have hpoll : b.g.rtPoll call.filep call.nonblock interrupted =
      (b.g, Globals.pollInRdNorm) := by
    rw [hbg, Globals.rtPoll]
    exact if_pos hready
  have hguard : ¬ (b.g.rtSerializeReadersCsSem = 0 ∨
      (b.g.sem = 0 ∧ interrupted = false)) := by
    rw [hbg]
    exact not_or.mpr ⟨Nat.one_ne_zero, hsem⟩
  refine ⟨{ b with
    ready :=
      if b.Reading call.filep then b.ready
      else Function.update b.ready call.filep true }, ?_, ?_⟩
  · show Poll.pollStep b _ _ _ = _
    unfold Poll.pollStep
    rw [if_neg hguard, hpoll]
    simp only [true_and, ite_not]
  · have hcounts := counts_goto s.pc t .idle
    rw [hpc] at hcounts
    have hreadersNow := hshared.readers
    have hsettled : Settled (s.returnReady t call)
        (s.returnReady t call).g :=
      settled_endSection hlocked hholds rfl rfl
    have hidle : (Pc.idle : Pc file).stage = (s.pc t).stage := by
      rw [hpc]
      rfl
    have hstages : forall u, b.pc u = ((s.returnReady t call).pc u).stage :=
      stage_goto h.pc hidle
    refine ⟨hstages, ?_, h.log, _, k, hsettled, ?_, ?_⟩
    · show (if b.Reading call.filep then b.ready else _) =
        if s.Reading call.filep then s.ready else _
      simp only [reading_iff h, h.ready]
    · exact hreadersNow.trans (congrArg (k + ·) hcounts.left.symm)
    · rw [hbg]
      exact congrArg (fun n => s.g.relock ⟨k + n, false⟩ 1) hcounts.right.symm

theorem matches_lookOn {t : thread} {call : PollCall file}
    {interrupted : Bool} (hlocked : Locked s) (h : Matches s b)
    (hpc : s.pc t = .pollLook call)
    (hsem : ¬ (s.g.sem = 0 ∧ interrupted = false))
    (hready : (!singlyLlIsValuePresent s.g.blackListedPollReadersList
      call.filep && (interrupted || s.g.table.mutexIsRtUpdated)) = false) :
    exists d, Poll.step b (.poll call.filep call.nonblock interrupted) =
      some d ∧ Matches (s.goto t (s.lookAt call interrupted)) d := by
  rcases h.shared with ⟨g, k, hshared⟩
  have hg : g = s.g :=
    settled_of_holds hlocked hshared.settled (by rw [hpc]; rfl)
      (by rw [hpc]; rfl)
  have hbg := hshared.same
  rw [hg] at hbg
  let rest := s.g.rtPollWait call.filep call.nonblock
    (singlyLlIsValuePresent s.g.blackListedPollReadersList call.filep)
    (interrupted || s.g.table.mutexIsRtUpdated)
  have hpoll : b.g.rtPoll call.filep call.nonblock interrupted =
      (rest.1.relock ⟨k + insideIn s.pc, false⟩ 1, rest.2) := by
    rw [hbg, Globals.rtPoll]
    exact (if_neg (by rw [Bool.not_eq_true]; exact hready)).trans
      (Globals.rtPollWait_relock _ _ _ _ _ _ _)
  have hmask : rest.2 ≠ Globals.pollInRdNorm := by
    rcases s.g.rtPollWait_mask call.filep call.nonblock
      (singlyLlIsValuePresent s.g.blackListedPollReadersList call.filep)
      (interrupted || s.g.table.mutexIsRtUpdated) with hagain | hzero
    · rw [hagain]
      decide
    · rw [hzero]
      decide
  have hguard : ¬ (b.g.rtSerializeReadersCsSem = 0 ∨
      (b.g.sem = 0 ∧ interrupted = false)) := by
    rw [hbg]
    exact not_or.mpr ⟨Nat.one_ne_zero, hsem⟩
  refine ⟨{ b with g := rest.1.relock ⟨k + insideIn s.pc, false⟩ 1 }, ?_, ?_⟩
  · show Poll.pollStep b _ _ _ = _
    unfold Poll.pollStep
    rw [if_neg hguard, hpoll]
    simp only [hmask, false_and, if_false]
  · have hcounts := counts_goto s.pc t (s.lookAt call interrupted)
    rw [hpc] at hcounts
    have hreadersNow := hshared.readers
    have hsettled : Settled (s.goto t (s.lookAt call interrupted)) rest.1 :=
      Settled.window (Function.update_self t _ s.pc)
    refine ⟨stage_goto h.pc (by rw [hpc]; rfl), h.ready, h.log, rest.1, k,
      hsettled, ?_, ?_⟩
    · exact hreadersNow.trans (congrArg (k + ·) hcounts.left.symm)
    · exact congrArg (fun n => rest.1.relock ⟨k + n, false⟩ 1)
        hcounts.right.symm

theorem matches_endPoll {t : thread} {call : PollCall file} {black data : Bool}
    {next : Pc file} (hlocked : Locked s) (h : Matches s b)
    (hpc : s.pc t = .pollWait call black data)
    (hvpc : v.pc = Function.update s.pc t next)
    (hg : v.g = (s.endPoll call black data).g) (hready : v.ready = s.ready)
    (hlog : v.log = s.log) (hstage : next.stage = .idle)
    (hnext : next.inWindow = false) (hheld : next.holdsRead = false)
    (hinside : next.inside = false) : Matches v b := by
  rcases h.shared with ⟨g, k, hshared⟩
  have hsettled := settled_of_window hlocked hshared.settled hpc
  have hcounts := counts_goto s.pc t next
  rw [hpc, hheld, hinside] at hcounts
  have hreadersNow := hshared.readers
  refine ⟨?_, ?_, ?_, v.g, k, ?_, ?_, ?_⟩
  · rw [hvpc]
    exact stage_goto h.pc (by rw [hpc, hstage]; rfl)
  · rw [hready]
    exact h.ready
  · rw [hlog]
    exact h.log
  · exact settled_endSection hlocked (by rw [hpc]; rfl) hvpc hnext
  · rw [hg, hvpc]
    show (s.g.rtPollWait _ _ _ _).1.rwSem.readers = _
    rw [(rwSem_rtPollWait s.g _ _ _ _).left]
    exact hreadersNow.trans (congrArg (k + ·) hcounts.left.symm)
  · rw [hshared.same, hg, hvpc, hsettled]
    exact congrArg (fun n => (s.g.rtPollWait call.filep call.nonblock black
      data).1.relock ⟨k + n, false⟩ 1) hcounts.right.symm

theorem matches_firstInterrupted {t : thread} {f : file} (h : Matches s b)
    (hpc : s.pc t = .readLock f) :
    exists d, Poll.step b (.readEntry t f true true) = some d ∧
      Matches (s.goto t .idle) d := by
  rcases h.shared with ⟨g, k, hshared⟩
  have hbpc : b.pc t = .idle := by
    rw [h.pc t, hpc]
    rfl
  have hguard : ¬ (b.pc t ≠ .idle ∨ b.g.rwSem.writer = true) := by
    rw [hshared.same]
    exact not_or.mpr ⟨not_not.mpr hbpc, Bool.false_ne_true⟩
  have hcounts := counts_goto s.pc t .idle
  rw [hpc] at hcounts
  have hreaders : readersIn (Function.update s.pc t .idle) + 1 =
      readersIn s.pc := hcounts.left
  have hinside : insideIn (Function.update s.pc t .idle) = insideIn s.pc :=
    hcounts.right
  have hreadersNow := hshared.readers
  refine ⟨{ b with
    g := { b.g with
      rwSem := { b.g.rwSem with readers := b.g.rwSem.readers + 1 } } }, ?_, ?_⟩
  · show Poll.readEntryStep b _ _ _ _ = _
    unfold Poll.readEntryStep
    rw [if_neg hguard]
    rfl
  · refine ⟨stage_goto h.pc (by rw [hpc]; rfl), h.ready, h.log, g, k + 1, ?_, ?_,
      ?_⟩
    · exact settled_goto id (fun _ _ _ _ _ => rfl) hshared.settled rfl
        (by rw [hpc]; rfl) rfl rfl
    · show s.g.rwSem.readers = k + 1 + readersIn (Function.update s.pc t .idle)
      lia
    · show { b.g with
        rwSem := { b.g.rwSem with readers := b.g.rwSem.readers + 1 } } = _
      have hsum : k + insideIn s.pc + 1 =
          k + 1 + insideIn (Function.update s.pc t .idle) := by lia
      rw [hshared.same]
      exact congrArg (fun n => g.relock ⟨n, false⟩ 1) hsum

theorem matches_lastInterrupted {t : thread} {f : file} (h : Matches s b)
    (hpc : s.pc t = .lastLock f) :
    exists d, Poll.step b (.readExit t true) = some d ∧
      Matches (s.goto t .idle) d := by
  rcases h.shared with ⟨g, k, hshared⟩
  have hbpc : b.pc t = .exit f := by
    rw [h.pc t, hpc]
    rfl
  have hcounts := counts_goto s.pc t .idle
  rw [hpc] at hcounts
  have hreaders : readersIn (Function.update s.pc t .idle) + 1 =
      readersIn s.pc := hcounts.left
  have hinside : insideIn (Function.update s.pc t .idle) + 1 =
      insideIn s.pc := hcounts.right
  have hreadersNow := hshared.readers
  refine ⟨{ b with pc := Function.update b.pc t .idle }, ?_, ?_⟩
  · show Poll.readExitStep b _ _ = _
    unfold Poll.readExitStep
    rw [hbpc]
    rfl
  · refine ⟨stage_both t .idle h.pc, h.ready, h.log, g, k + 1, ?_, ?_, ?_⟩
    · exact settled_goto id (fun _ _ _ _ _ => rfl) hshared.settled rfl
        (by rw [hpc]; rfl) rfl rfl
    · show s.g.rwSem.readers = k + 1 + readersIn (Function.update s.pc t .idle)
      lia
    · show b.g = _
      have hsum : k + insideIn s.pc =
          k + 1 + insideIn (Function.update s.pc t .idle) := by lia
      rw [hshared.same]
      exact congrArg (fun n => g.relock ⟨n, false⟩ 1) hsum

theorem matches_first {t : thread} {f : file} {allocOk : Bool}
    (hlocked : Locked s) (h : Matches s b) (hpc : s.pc t = .readFirst f) :
    exists d, Poll.step b (.readEntry t f allocOk false) = some d ∧
      Matches ((s.readFirst f allocOk).goto t (.readCopy f)) d := by
  rcases h.shared with ⟨g, k, hshared⟩
  have hholds : (s.pc t).holdsCs = true := by rw [hpc]; rfl
  have hg : g = s.g :=
    settled_of_holds hlocked hshared.settled hholds (by rw [hpc]; rfl)
  have hbg := hshared.same
  rw [hg] at hbg
  have hbpc : b.pc t = .idle := by
    rw [h.pc t, hpc]
    rfl
  have hguard : ¬ (b.pc t ≠ .idle ∨ b.g.rwSem.writer = true) := by
    rw [hbg]
    exact not_or.mpr ⟨not_not.mpr hbpc, Bool.false_ne_true⟩
  have hfree : ¬ b.g.rtSerializeReadersCsSem = 0 := by
    rw [hbg]
    exact Nat.one_ne_zero
  have hblack : b.g.blackListedPollReadersList =
      s.g.blackListedPollReadersList := by rw [hbg]; rfl
  have hcounts := counts_goto s.pc t (.readCopy f)
  rw [hpc] at hcounts
  have hreaders : readersIn (Function.update s.pc t (.readCopy f)) =
      readersIn s.pc := Nat.succ.inj hcounts.left
  have hinside : insideIn (Function.update s.pc t (.readCopy f)) =
      insideIn s.pc + 1 := hcounts.right
  refine ⟨{
    g := b.g.rtReadEntry allocOk
    pc := Function.update b.pc t (.copy f)
    ready := Function.update b.ready f false
    log :=
      if isSinglyLlEmpty b.g.blackListedPollReadersList then
        .opened allocOk :: b.log
      else b.log }, ?_, ?_⟩
  · show Poll.readEntryStep b _ _ _ _ = _
    unfold Poll.readEntryStep
    rw [if_neg hguard]
    simp only [Bool.false_eq_true, if_false, if_neg hfree]
  · refine ⟨stage_both t (.readCopy f) h.pc, ?_, ?_, _, k,
      settled_endSection hlocked hholds rfl rfl, ?_, ?_⟩
    · show Function.update b.ready f false = Function.update s.ready f false
      rw [h.ready]
    · show List.map _ (if isSinglyLlEmpty b.g.blackListedPollReadersList then _
        else _) = List.map _ (if isSinglyLlEmpty
          s.g.blackListedPollReadersList then _ else _)
      rw [hblack]
      split
      · exact congrArg (_ :: ·) h.log
      · exact h.log
    · show (s.g.rtReadFirst allocOk).rwSem.readers =
        k + readersIn (Function.update s.pc t (.readCopy f))
      rw [(rwSem_rtReadFirst s.g allocOk).left, hreaders]
      exact hshared.readers
    · show b.g.rtReadEntry allocOk = (s.g.rtReadFirst allocOk).relock
        ⟨k + insideIn (Function.update s.pc t (.readCopy f)), false⟩ 1
      rw [Globals.rtReadEntry_eq_relock, hbg, hinside, Globals.relock_relock,
        Globals.rtReadFirst_relock]
      rfl

theorem matches_copy {t : thread} {f : file} (h : Matches s b)
    (hpc : s.pc t = .readCopy f) :
    exists d, Poll.step b (.readCopy t) = some d ∧
      Matches ((s.copyOut f).goto t (.lastLock f)) d := by
  rcases h.shared with ⟨g, k, hshared⟩
  have hbpc : b.pc t = .copy f := by
    rw [h.pc t, hpc]
    rfl
  have hframe := hshared.settled.frame
  have hvector : b.g.rtUpdateVector = s.g.rtUpdateVector := by
    rw [hshared.same]
    exact hframe.left
  have hcount : b.g.rtUpdateVectorCount = s.g.rtUpdateVectorCount := by
    rw [hshared.same]
    exact hframe.right.left
  have hcounts := counts_goto s.pc t (.lastLock f)
  rw [hpc] at hcounts
  have hreaders : readersIn (Function.update s.pc t (.lastLock f)) =
      readersIn s.pc := Nat.succ.inj hcounts.left
  have hinside : insideIn (Function.update s.pc t (.lastLock f)) =
      insideIn s.pc := Nat.succ.inj hcounts.right
  refine ⟨{ b with
    pc := Function.update b.pc t (.exit f)
    log := .copied f b.g.rtUpdateVector b.g.rtUpdateVectorCount :: b.log },
    ?_, ?_⟩
  · show Poll.readCopyStep b t = _
    unfold Poll.readCopyStep
    rw [hbpc]
  · refine ⟨stage_both t (.lastLock f) h.pc, h.ready, ?_, g, k, ?_, ?_, ?_⟩
    · show List.map _ (_ :: b.log) = List.map _ (_ :: s.log)
      rw [hvector, hcount]
      exact congrArg (_ :: ·) h.log
    · exact settled_goto id (fun _ _ _ _ _ => rfl) hshared.settled rfl
        (by rw [hpc]; rfl) rfl rfl
    · exact hshared.readers.trans (congrArg (k + ·) hreaders.symm)
    · exact hshared.same.trans
        (congrArg (fun n => g.relock ⟨k + n, false⟩ 1) hinside.symm)

theorem matches_last {t : thread} {f : file} (hlocked : Locked s)
    (h : Matches s b) (hpc : s.pc t = .readLast f) :
    exists d, Poll.step b (.readExit t false) = some d ∧
      Matches ((s.readLast f).goto t .upRead) d := by
  rcases h.shared with ⟨g, k, hshared⟩
  have hholds : (s.pc t).holdsCs = true := by rw [hpc]; rfl
  have hg : g = s.g :=
    settled_of_holds hlocked hshared.settled hholds (by rw [hpc]; rfl)
  have hbg := hshared.same
  rw [hg] at hbg
  have hbpc : b.pc t = .exit f := by
    rw [h.pc t, hpc]
    rfl
  have hfree : ¬ b.g.rtSerializeReadersCsSem = 0 := by
    rw [hbg]
    exact Nat.one_ne_zero
  have hcount : b.g.rtGetPollReaderCount = s.g.rtGetPollReaderCount := by
    rw [hbg]
    rfl
  have hvector : b.g.rtUpdateVector = s.g.rtUpdateVector := by
    rw [hbg]
    rfl
  have hcounts := counts_goto s.pc t .upRead
  rw [hpc] at hcounts
  have hreaders : readersIn (Function.update s.pc t .upRead) =
      readersIn s.pc := Nat.succ.inj hcounts.left
  have hinside : insideIn (Function.update s.pc t .upRead) + 1 =
      insideIn s.pc := hcounts.right
  refine ⟨{ b with
    g := b.g.rtReadExit f
    pc := Function.update b.pc t .idle
    log :=
      if b.g.rtGetPollReaderCount = 1 then .kfreed b.g.rtUpdateVector :: b.log
      else b.log }, ?_, ?_⟩
  · show Poll.readExitStep b _ _ = _
    unfold Poll.readExitStep
    rw [hbpc]
    simp only [Bool.false_eq_true, if_false, if_neg hfree]
  · refine ⟨stage_both t .upRead h.pc, h.ready, ?_, _, k,
      settled_endSection hlocked hholds rfl rfl, ?_, ?_⟩
    · show List.map _ (if b.g.rtGetPollReaderCount = 1 then _ else _) =
        List.map _ (if s.g.rtGetPollReaderCount = 1 then _ else _)
      rw [hcount, hvector]
      split
      · exact congrArg (_ :: ·) h.log
      · exact h.log
    · show (s.g.rtReadLast f).rwSem.readers =
        k + readersIn (Function.update s.pc t .upRead)
      rw [(rwSem_rtReadLast s.g f).left, hreaders]
      exact hshared.readers
    · show b.g.rtReadExit f = (s.g.rtReadLast f).relock
        ⟨k + insideIn (Function.update s.pc t .upRead), false⟩ 1
      have hless : k + insideIn s.pc - 1 =
          k + insideIn (Function.update s.pc t .upRead) := by lia
      rw [Globals.rtReadExit_eq_relock, hbg, Globals.rtReadLast_relock,
        Globals.relock_relock]
      exact congrArg (fun n => (s.g.rtReadLast f).relock ⟨n, false⟩ 1) hless

theorem matches_apply {t : thread} {kmsg : RtUpdate} (hlocked : Locked s)
    (h : Matches s b) (hpc : s.pc t = .apply kmsg) :
    exists d, Poll.step b (.write kmsg) = some d ∧
      Matches ((s.writeTable kmsg).goto t .upWrite) d := by
  rcases h.shared with ⟨g, k, hshared⟩
  have hwrites : (s.pc t).writes = true := by
    rw [hpc]
    rfl
  have hnone := hlocked.alone (writer_of_writes hlocked hwrites)
  have hsum := hshared.readers
  rw [hnone] at hsum
  have hno : insideIn s.pc = 0 := by
    refine Counting.total_eq_zero_iff.mpr fun u => ?_
    have hheld : (s.pc u).holdsRead.toNat = 0 :=
      Counting.total_eq_zero_iff.mp (show readersIn s.pc = 0 by lia) u
    cases hu : s.pc u with
    | readCopy f | lastLock f | readLast f =>
        rw [hu] at hheld
        cases hheld
    | _ => rfl
  have hguard : ¬ (b.g.rwSem.readers ≠ 0 ∨ b.g.rwSem.writer = true) := by
    rw [hshared.same]
    refine not_or.mpr ⟨not_not.mpr ?_, Bool.false_ne_true⟩
    show k + insideIn s.pc = 0
    lia
  have hnext : b.g.table.next = s.g.table.next := by
    rw [hshared.same]
    exact hshared.settled.frame.right.right
  have hcounts := counts_goto s.pc t .upWrite
  rw [hpc] at hcounts
  refine ⟨{ b with
    g := b.g.rtWrite kmsg
    log :=
      if kmsg.opCode = rtRouteAdd then
        .wrote b.g.table.next b.g.table.pollReadersList :: b.log
      else b.log }, ?_, ?_⟩
  · show Poll.writeStep b kmsg = _
    unfold Poll.writeStep
    rw [if_neg hguard]
  · have hidle : (Pc.upWrite : Pc file).stage = (s.pc t).stage := by
      rw [hpc]
      rfl
    refine ⟨stage_goto h.pc hidle, h.ready, ?_, g.rtWrite kmsg, k, ?_, ?_, ?_⟩
    · show List.map _ (if kmsg.opCode = rtRouteAdd then _ else _) =
        List.map _ (if kmsg.opCode = rtRouteAdd then _ else _)
      rw [hnext]
      split
      · exact congrArg (_ :: ·) h.log
      · exact h.log
    · exact settled_goto (fun g => g.rtWrite kmsg)
        (fun g f nonblock black data => g.rtPollWait_rtWrite kmsg f nonblock
          black data) hshared.settled rfl (by rw [hpc]; rfl) rfl rfl
    · exact hshared.readers.trans (congrArg (k + ·) hcounts.left.symm)
    · show b.g.rtWrite kmsg = _
      rw [hshared.same]
      exact congrArg (fun n => (g.rtWrite kmsg).relock ⟨k + n, false⟩ 1)
        hcounts.right.symm

/-- A step is the section it stands for, or changes nothing that the protocol
with sections for steps has. -/
theorem section_of_step {a : Action thread file} (hlocked : Locked s)
    (h : Matches s b) (hstep : step s a = some v) :
    match sectionOf s a with
    | none => Matches v b
    | some c => exists d, Poll.step b c = some d ∧ Matches v d := by
  cases move_of_step hstep with
  | select hpc | resume hpc | giveUp hpc | wakeUp hpc =>
      exact matches_of_quiet h rfl rfl rfl rfl (by rw [hpc]; rfl)
        (by rw [hpc]; rfl) rfl (by rw [hpc]; rfl) (by rw [hpc]; rfl)
  | write hpc | upWrite hpc | read hpc =>
      exact matches_of_quiet h rfl rfl rfl rfl (by rw [hpc]; rfl)
        (by rw [hpc]; rfl) rfl (by rw [hpc]; rfl) (by rw [hpc]; rfl)
  | @upRead t hpc =>
      have hpos : 0 < s.g.rwSem.readers := by
        rcases h.shared with ⟨g, k, hshared⟩
        have hone := Counting.measure_le_total
          (fun _ p => Bool.toNat (Pc.holdsRead p)) s.pc t
        have hreaders := hshared.readers
        unfold readersIn at hreaders
        rw [hpc] at hone
        change 1 ≤ _ at hone
        lia
      refine matches_of_quiet h rfl rfl rfl rfl (by rw [hpc]; rfl)
        (by rw [hpc]; rfl) rfl (by rw [hpc]; rfl) ?_
      rw [hpc]
      exact Nat.succ_pred_eq_of_pos hpos
  | pollInterrupted hpc =>
      simp only [sectionOf, hpc]
      exact matches_of_quiet h rfl rfl rfl rfl (by rw [hpc]; rfl)
        (by rw [hpc]; rfl) rfl (by rw [hpc]; rfl) (by rw [hpc]; rfl)
  | pollDown hpc | firstDown hpc | lastDown hpc =>
      exact matches_of_quiet h rfl rfl rfl rfl (by rw [hpc]; rfl)
        (by rw [hpc]; rfl) rfl (by rw [hpc]; rfl) (by rw [hpc]; rfl)
  | firstInterrupted hpc =>
      simp only [sectionOf, hpc]
      exact matches_firstInterrupted h hpc
  | lastInterrupted hpc =>
      simp only [sectionOf, hpc]
      exact matches_lastInterrupted h hpc
  | lookReady hpc hsem hready =>
      simp only [sectionOf, hpc]
      exact matches_lookReady hlocked h hpc hsem hready
  | lookOn hpc hsem hready =>
      simp only [sectionOf, hpc]
      exact matches_lookOn hlocked h hpc hsem hready
  | sleep hpc | again hpc =>
      exact matches_endPoll hlocked h hpc rfl rfl rfl rfl rfl rfl rfl rfl
  | first hpc =>
      simp only [sectionOf, hpc]
      exact matches_first hlocked h hpc
  | copy hpc => exact matches_copy h hpc
  | last hpc => exact matches_last hlocked h hpc
  | apply hpc =>
      simp only [sectionOf, hpc]
      exact matches_apply hlocked h hpc

end Steps

/-!
## Whole runs
-/

section Runs

variable [DecidableEq file]
variable [Fintype thread]

theorem matches_init :
    Matches (State.init : State thread file) Poll.State.init where
  pc := fun _ => rfl
  ready := rfl
  log := rfl
  shared := by
    have hreaders : readersIn (State.init : State thread file).pc = 0 :=
      Counting.total_eq_zero_iff.mpr fun _ => rfl
    have hinside : insideIn (State.init : State thread file).pc = 0 :=
      Counting.total_eq_zero_iff.mpr fun _ => rfl
    refine ⟨_, 0, Settled.quiet fun _ => rfl, ?_, ?_⟩
    · rw [hreaders]
      rfl
    · rw [hinside]
      rfl

/-- In every disciplined run, whatever happens between the look of a poll and
its rest and around the sections of a read, the protocol with whole sections
for steps has a disciplined run to a state with the same reads in progress, the
same readiness, the same history and, up to the locks and a poll that has
looked, the same shared variables. -/
theorem exists_sections_run [DecidableEq thread] {s : State thread file}
    (h : Transition.Reachable step Disciplined State.init s) :
    exists b : Poll.State thread file,
      Transition.Reachable Poll.step Poll.Disciplined Poll.State.init b ∧
        Matches s b := by
  have hrelated := Transition.exists_related_of_reachable
    (fun (s : State thread file) (b : Poll.State thread file) =>
      Locked s ∧ Matches s b) ⟨locked_init, matches_init⟩
    (by
      intro s b a v hboth hallowed hstep
      have hlocked := locked_step hboth.left hstep
      have hsection := section_of_step hboth.left hboth.right hstep
      cases hc : sectionOf s a with
      | none =>
          rw [hc] at hsection
          exact Or.inl ⟨hlocked, hsection⟩
      | some c =>
          rw [hc] at hsection
          rcases hsection with ⟨d, hd, hnext⟩
          exact Or.inr ⟨c, d, disciplined_section hboth.right hallowed hc, hd,
            hlocked, hnext⟩) h
  rcases hrelated with ⟨b, hreach, _, hmatches⟩
  exact ⟨b, hreach, hmatches⟩

def updateOf (kind : UInt8) : RtUpdate where
  opCode := rtRouteAdd
  entry :=
    { dstIp := Vector.replicate 16 kind
      nxtHopIp := Vector.replicate 16 0
      oif := Vector.replicate 16 0 }

theorem exists_sections_run_writes_in_poll :
    exists s : State (Fin 2) (Fin 2),
      Poll.received s.log 0 = [
        { opCode := rtRouteAdd, entry := some (updateOf 2).entry, src := 1 },
        { opCode := rtRouteAdd, entry := some (updateOf 1).entry, src := 0 }] ∧
        exists b : Poll.State (Fin 2) (Fin 2),
          Transition.Reachable Poll.step Poll.Disciplined Poll.State.init b ∧
            Matches s b := by
  have hrun : exists s : State (Fin 2) (Fin 2),
      Transition.Reachable step Disciplined State.init s ∧
        decide (Poll.received s.log 0 = [
          { opCode := rtRouteAdd, entry := some (updateOf 2).entry, src := 1 },
          { opCode := rtRouteAdd, entry := some (updateOf 1).entry, src := 0 }]) =
            true :=
    Transition.exists_reachable_of_schedule
      ([.select 0 0 false, .downCs 0 false, .look 0 false,
        .write 1 (updateOf 1), .apply 1, .upWrite 1, .wakeUp 1, .pollWait 0,
        .write 1 (updateOf 2), .apply 1, .upWrite 1, .wakeUp 1,
        .resume 0, .downCs 0 false, .look 0 false,
        .read 0 0, .downCs 0 false, .first 0 true, .copy 0] :
          List (Action (Fin 2) (Fin 2))) _ (by decide +kernel)
  rcases hrun with ⟨s, hreach, htest⟩
  exact ⟨s, of_decide_eq_true htest, exists_sections_run hreach⟩

end Runs

end Select
end RIBDriver
