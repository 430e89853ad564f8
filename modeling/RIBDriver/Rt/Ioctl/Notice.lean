import RIBDriver.Rt.Ioctl.Quiescence

/-!
# What a subscriber is told

The change list is emptied after every writer, by the worker when nobody is
queued and else by the last reader.  So the vector a batch of readers copies
tells exactly what the writer before it did: the entry it added, or nothing.
-/

namespace RIBDriver

namespace RtTable

variable {file : Type _}

/-- The entries the pending updates point to, as a snapshot would copy them. -/
def changes (t : RtTable file) : List (Option RtEntry) :=
  t.rtChangeList.map fun data => (t.heap data.entry).contents

theorem changes_snapshot {t : RtTable file} {vector : List VectorCell}
    (h : t.rtGetUpdatedRtEntries true = some vector) :
    vector.map (·.entry) = t.changes := by
  unfold rtGetUpdatedRtEntries at h
  cases h
  simp [changes, Function.comp_def]

theorem changes_add_of_nil {t : RtTable file} (h : t.changes = [])
    (entry : RtEntry) : (t.addRtTableEntryByVal entry).changes = [some entry] := by
  have hnil : t.rtChangeList = [] := List.map_eq_nil_iff.mp h
  unfold changes addRtTableEntryByVal singlyLlAddNodeByVal
  rw [hnil]
  simp [EntryCell.contents]

end RtTable

namespace Ioctl

open Counting

variable {thread file : Type _}

def WriterOp.notice : WriterOp -> List RtEntry
  | .update msg => if msg.opCode = rtRouteAdd then [msg.entry] else []
  | .create entry => [entry]
  | .purge => []

theorem changes_perform {t : RtTable file} (h : t.changes = [])
    (op : WriterOp) : (op.perform t).changes = op.notice.map some := by
  cases op with
  | update msg =>
      simp only [WriterOp.perform, RtTable.applyRtUpdates, WriterOp.notice]
      split
      · exact RtTable.changes_add_of_nil h msg.entry
      · exact h
  | create entry => exact RtTable.changes_add_of_nil h entry
  | purge =>
      have hnil : t.rtChangeList = [] := List.map_eq_nil_iff.mp h
      show (t.purgeRtTable).rtChangeList.map _ = []
      rw [show t.purgeRtTable.rtChangeList = t.rtChangeList from rfl, hnil]
      rfl

theorem length_notice_le (op : WriterOp) : op.notice.length ≤ 1 := by
  cases op with
  | update msg =>
      simp only [WriterOp.notice]
      split <;> simp
  | create entry => exact Nat.le_refl 1
  | purge => exact Nat.zero_le 1

def Tells (done : List (thread × WriterOp)) (entries : List (Option RtEntry)) :
    Prop :=
  exists before w op, done = before ++ [(w, op)] ∧
    entries = op.notice.map some

def Announces (s : State thread file) : Prop :=
  Tells s.performed (s.g.announced.map (·.entry)) ∧
    s.g.rtUpdateVectorCount = s.g.announced.length

def toPerform [Fintype thread] [Fintype file] (s : State thread file) : Nat :=
  tokens s .writer + clientsAt ClientPc.isToPerform s

def CleanedUp [Fintype thread] [Fintype file] (s : State thread file) : Prop :=
  grantedReaders s = 0 ∨ exists t, s.pc t = .signal

/-- What holds at each place of the worker, when nothing is pending (`empty`),
the pending updates are the last writer's notice (`told`), or the vector is
(`announced`).  A granted writer has still to perform (`writes`); the last
reader has cleaned up (`cleaned`). -/
def NoticedAt (writes cleaned empty told announced : Prop) :
    WorkerPc file -> Prop
  | .waitWriterDone => (writes -> empty) ∧ (¬ writes -> told)
  | .lockReaderQ => told
  | .countReaders => told
  | .unlockReaderQ => told
  | .testReaders => told
  | .snapshot => told
  | .emptyChangeList => True
  | .loadReaders => announced
  | .lockGrant _ _ => announced
  | .dequeGrant _ _ => announced
  | .unlockGrant _ _ _ => announced
  | .completeGrant _ _ _ => announced
  | .waitReadersDone => (cleaned -> empty) ∧ (¬ cleaned -> announced)
  | .crashed => True
  | _ => empty

def Noticed [Fintype thread] [Fintype file] (s : State thread file) : Prop :=
  NoticedAt (0 < toPerform s) (CleanedUp s) (s.g.table.changes = [])
    (Tells s.performed s.g.table.changes) (Announces s) s.worker

theorem noticedAt_mono {w : WorkerPc file}
    {writes cleaned empty told announced : Prop}
    {writes' cleaned' empty' told' announced' : Prop}
    (h : NoticedAt writes cleaned empty told announced w)
    (hwrites : w = .waitWriterDone -> (writes' <-> writes))
    (hcleaned : w = .waitReadersDone -> (cleaned' <-> cleaned))
    (hempty : empty -> empty') (htold : told -> told')
    (hannounced : announced -> announced') :
    NoticedAt writes' cleaned' empty' told' announced' w := by
  cases w with
  | waitWriterDone =>
      have hsame := hwrites rfl
      exact ⟨fun hw => hempty (h.left (hsame.mp hw)),
        fun hw => htold (h.right (fun hold => hw (hsame.mpr hold)))⟩
  | waitReadersDone =>
      have hsame := hcleaned rfl
      exact ⟨fun hc => hempty (h.left (hsame.mp hc)),
        fun hc => hannounced (h.right (fun hold => hc (hsame.mpr hold)))⟩
  | emptyChangeList => trivial
  | crashed => trivial
  | lockReaderQ => exact htold h
  | countReaders => exact htold h
  | unlockReaderQ => exact htold h
  | testReaders => exact htold h
  | snapshot => exact htold h
  | loadReaders => exact hannounced h
  | lockGrant i n => exact hannounced h
  | dequeGrant i n => exact hannounced h
  | unlockGrant i n f => exact hannounced h
  | completeGrant i n f => exact hannounced h
  | _ => exact hempty h

section Steps

variable {fileOf : thread -> file} {s u : State thread file}

structure SameNews (s u : State thread file) : Prop where
  table : u.g.table = s.g.table
  vector : u.g.rtUpdateVector = s.g.rtUpdateVector
  count : u.g.rtUpdateVectorCount = s.g.rtUpdateVectorCount
  performed : u.performed = s.performed

theorem SameNews.announces (hnews : SameNews s u) (h : Announces s) :
    Announces u := by
  unfold Announces Globals.announced
  rw [hnews.vector, hnews.count, hnews.performed]
  exact h

variable [Fintype thread] [Fintype file]

theorem noticed_of_sameNews (h : Noticed s) (hnews : SameNews s u)
    (hworker : u.worker = s.worker)
    (hwrites : s.worker = .waitWriterDone -> (0 < toPerform u <-> 0 < toPerform s))
    (hcleaned : s.worker = .waitReadersDone -> (CleanedUp u <-> CleanedUp s)) :
    Noticed u := by
  unfold Noticed
  rw [hworker, hnews.table, hnews.performed]
  exact noticedAt_mono h hwrites hcleaned id id hnews.announces

end Steps

/-!
## Steps of clients
-/

section ClientSteps

variable {fileOf : thread -> file} {s u : State thread file}

theorem exists_signal_goto [DecidableEq thread]
    {t : thread} {p : ClientPc} (hpcs : u.pc = s.pc)
    (hq : s.pc t ≠ .signal) (hp : p ≠ .signal) :
    (exists t', (u.goto t p).pc t' = .signal) <->
      exists t', s.pc t' = .signal := by
  have hplace : forall t', (u.goto t p).pc t' = .signal <-> s.pc t' = .signal := by
    intro t'
    show Function.update u.pc t p t' = .signal <-> _
    by_cases ht : t' = t
    · rw [ht, Function.update_self]
      exact ⟨fun h => absurd h hp, fun h => absurd h hq⟩
    · rw [Function.update_of_ne ht, hpcs]
  simp only [hplace]

theorem clamp_of_announces (h : Announces s) :
    s.g.clampUpdateVectorCount = s.g := by
  rcases h with ⟨⟨before, w, op, _, hentries⟩, hcount⟩
  have hlength : s.g.rtUpdateVectorCount ≤ 1 := by
    have hnotice := length_notice_le op
    have hsame := congrArg List.length hentries
    rw [List.length_map, List.length_map] at hsame
    lia
  unfold Globals.clampUpdateVectorCount rtMaxEntriesFetch
  rw [if_neg (by lia)]

theorem table_clamp (g : Globals file) :
    g.clampUpdateVectorCount.table = g.table := by
  unfold Globals.clampUpdateVectorCount
  split <;> rfl

variable [Fintype thread] [Fintype file]

theorem toPerform_le (s : State thread file) : toPerform s ≤ grantedWriters s := by
  have hplaces : clientsAt ClientPc.isToPerform s ≤
      clientsAt ClientPc.isWriting s := by
    apply Finset.sum_le_sum
    intro t _
    show ((s.pc t).isToPerform).toNat ≤ ((s.pc t).isWriting).toNat
    cases hplace : (s.pc t).isToPerform with
    | false => exact Nat.zero_le _
    | true =>
        rw [ClientPc.isWriting_of_isToPerform hplace]
  unfold toPerform grantedWriters
  lia

theorem worker_of_isLast (hbatched : Batched s) (halive : s.worker ≠ .crashed)
    {t : thread} (hlast : (s.pc t).isLast = true) :
    s.worker = .waitReadersDone ∧ grantedReaders s = 1 := by
  have howed := hbatched.last t (by rw [hlast]; rfl)
  have hserved : (s.pc t).isServed = true := by
    cases hpc : s.pc t <;> rw [hpc] at hlast <;> first | rfl | cases hlast
  have hpos := grantedReaders_pos hserved
  have hphase := hbatched.phase
  unfold owed at howed
  cases hw : s.worker <;> rw [hw] at hphase howed halive <;>
    simp only [Phase, ungranted] at hphase howed <;>
    first | exact ⟨rfl, by lia⟩ | (exfalso; exact halive rfl) | (exfalso; lia)

variable [DecidableEq thread]

theorem toPerform_goto {t : thread} {p : ClientPc} (hpcs : u.pc = s.pc) :
    toPerform (u.goto t p) + ((s.pc t).isToPerform).toNat + tokens s .writer =
      toPerform s + (p.isToPerform).toNat + tokens u .writer := by
  have hmove := clientsAt_goto ClientPc.isToPerform u t p
  rw [hpcs, clientsAt_congr _ hpcs] at hmove
  have htokens : tokens (u.goto t p) .writer = tokens u .writer := rfl
  unfold toPerform
  lia

theorem noticed_quiet {t : thread} {q p : ClientPc} (h : Noticed s)
    (hpc : s.pc t = q) (hnews : SameNews s u) (hworker : u.worker = s.worker)
    (hdone : u.completion = s.completion) (hpcs : u.pc = s.pc)
    (hgrant : ClientPc.SameGrant q p) (hperform : p.isToPerform = q.isToPerform)
    (hq : q ≠ .signal) (hp : p ≠ .signal) : Noticed (u.goto t p) := by
  have hnumbers := numbers_quiet (u := u) (t := t) (p := p) hpcs hdone
    (by rw [hpc]; exact hgrant)
  have hwriters := toPerform_goto (u := u) (t := t) (p := p) hpcs
  rw [hpc, hperform, tokens_congr _ hdone] at hwriters
  apply noticed_of_sameNews h (u := u.goto t p)
  · exact ⟨hnews.table, hnews.vector, hnews.count, hnews.performed⟩
  · exact hworker
  · intro _
    constructor <;> intro hpos <;> lia
  · intro _
    unfold CleanedUp
    rw [hnumbers.right.left, exists_signal_goto hpcs (by rw [hpc]; exact hq) hp]

theorem noticed_decStore {t : thread} {last : Bool} {loaded : Nat}
    (h : Noticed s) (hbatched : Batched s) (hpc : s.pc t = .decStore last loaded)
    (hnews : SameNews s u) (hworker : u.worker = s.worker)
    (hdone : u.completion = s.completion) (hpcs : u.pc = s.pc)
    (hsignals : u.g.workerDone = s.g.workerDone)
    (hexact : Exact (u.goto t .upCs)) : Noticed (u.goto t .upCs) := by
  have hnumbers := numbers_decStore hpcs hdone hpc
  have hwriters := toPerform_goto (t := t) (p := .upCs) hpcs
  rw [hpc, tokens_congr _ hdone] at hwriters
  simp only [ClientPc.isToPerform, Bool.toNat_false] at hwriters
  apply noticed_of_sameNews h (u := u.goto t .upCs)
  · exact ⟨hnews.table, hnews.vector, hnews.count, hnews.performed⟩
  · exact hworker
  · intro _
    constructor <;> intro hpos <;> lia
  · intro hw
    have hphase := hbatched.phase
    rw [hw] at hphase
    unfold CleanedUp
    rw [exists_signal_goto hpcs (by rw [hpc]; simp) (by simp)]
    cases last with
    | true =>
        simp only [Bool.not_true, Bool.toNat_false] at hnumbers
        rw [show grantedReaders (u.goto t .upCs) = grantedReaders s by lia]
    | false =>
        simp only [Bool.not_false, Bool.toNat_true] at hnumbers
        have hquiet : s.g.workerDone = 0 := by
          by_contra hsome
          have hzero := hphase.right.right (by have := hphase.right.left; lia)
          lia
        have hmore := (hexact.readers (hworker.trans hw)
          (hsignals.trans hquiet)).left
        rw [or_iff_right (by lia : ¬ grantedReaders (u.goto t .upCs) = 0),
          or_iff_right (by lia : ¬ grantedReaders s = 0)]

theorem noticed_clamp {t : thread} (h : Noticed s) (hpc : s.pc t = .clamp)
    (hclamp : u.g = s.g.clampUpdateVectorCount) (hworker : u.worker = s.worker)
    (hdone : u.completion = s.completion) (hpcs : u.pc = s.pc)
    (hperformed : u.performed = s.performed) :
    Noticed (u.goto t (.lockQ .subscribe)) := by
  have hnumbers := numbers_quiet (u := u) (t := t) (p := .lockQ .subscribe)
    hpcs hdone (by rw [hpc]; exact ⟨rfl, rfl, rfl⟩)
  have hwriters := toPerform_goto (t := t) (p := .lockQ .subscribe) hpcs
  rw [hpc, tokens_congr _ hdone] at hwriters
  simp only [ClientPc.isToPerform, Bool.toNat_false] at hwriters
  have htable : u.g.table = s.g.table := by rw [hclamp, table_clamp]
  unfold Noticed
  rw [show (u.goto t (.lockQ .subscribe)).worker = s.worker from hworker]
  apply noticedAt_mono h
  · intro _
    constructor <;> intro hpos <;> lia
  · intro _
    unfold CleanedUp
    rw [hnumbers.right.left, exists_signal_goto hpcs (by rw [hpc]; simp)
      (by simp)]
  · intro hempty
    show u.g.table.changes = []
    rw [htable]
    exact hempty
  · intro htold
    show Tells u.performed u.g.table.changes
    rw [htable, hperformed]
    exact htold
  · intro hannounces
    show Tells u.performed (u.g.announced.map (·.entry)) ∧
      u.g.rtUpdateVectorCount = u.g.announced.length
    rw [hclamp, clamp_of_announces hannounces, hperformed]
    exact hannounces

variable [DecidableEq file]

theorem isToPerform_afterWait (req : Request) :
    ((afterWait req).isToPerform).toNat = if .writer = req.role then 1 else 0 := by
  rcases req with op | _
  · cases op <;> rfl
  · rfl

theorem afterWait_ne_signal (req : Request) : afterWait req ≠ .signal := by
  rcases req with op | _
  · cases op <;> simp [afterWait]
  · simp [afterWait]

theorem noticed_wait {t : thread} {req : Request} {rest : List Role}
    (h : Noticed s) (hnews : SameNews s u) (hworker : u.worker = s.worker)
    (hpcs : u.pc = s.pc) (hpc : s.pc t = .wait req)
    (hdone : s.completion (fileOf t) = req.role :: rest)
    (hnext : u.completion = Function.update s.completion (fileOf t) rest) :
    Noticed (u.goto t (afterWait req)) := by
  have hnumbers := numbers_wait hpcs hpc hdone hnext
  have hwriters := toPerform_goto (t := t) (p := afterWait req) hpcs
  have htokens := tokens_wait hdone .writer hnext
  rw [hpc, isToPerform_afterWait] at hwriters
  simp only [ClientPc.isToPerform, Bool.toNat_false] at hwriters
  apply noticed_of_sameNews h (u := u.goto t (afterWait req))
  · exact ⟨hnews.table, hnews.vector, hnews.count, hnews.performed⟩
  · exact hworker
  · intro _
    constructor <;> intro hpos <;> lia
  · intro _
    unfold CleanedUp
    rw [hnumbers.right.left, exists_signal_goto hpcs (by rw [hpc]; simp)
      (afterWait_ne_signal req)]

theorem noticed_apply {t : thread} {op : WriterOp} (h : Noticed s)
    (hbatched : Batched s) (hpc : s.pc t = .apply op)
    (hworker : u.worker = s.worker) (hdone : u.completion = s.completion)
    (hpcs : u.pc = s.pc) (htable : u.g.table = op.perform s.g.table)
    (hperformed : u.performed = s.performed ++ [(t, op)]) :
    Noticed (u.goto t (afterApply op)) := by
  have hpos : 0 < grantedWriters s := grantedWriters_pos (t := t) (by rw [hpc]; rfl)
  have hw : s.worker = .waitWriterDone :=
    eq_waitWriterDone_of_phase hbatched.phase hpos
  have hwriters := toPerform_goto (t := t) (p := afterApply op) hpcs
  rw [hpc, isToPerform_afterApply, tokens_congr _ hdone] at hwriters
  simp only [ClientPc.isToPerform, Bool.toNat_true, Bool.toNat_false] at hwriters
  have hone := grantedWriters_le_one hbatched
  have hle := toPerform_le s
  have hpending : s.g.table.changes = [] := by
    unfold Noticed at h
    rw [hw] at h
    exact h.left (by lia)
  unfold Noticed
  rw [show (u.goto t (afterApply op)).worker = .waitWriterDone from
    hworker.trans hw]
  constructor
  · intro hmore
    lia
  · intro _
    refine ⟨s.performed, t, op, hperformed, ?_⟩
    show u.g.table.changes = _
    rw [htable]
    exact changes_perform hpending op

theorem noticed_cleanUp {t : thread} (hbatched : Batched s)
    (hpc : s.pc t = .cleanUp) (hworker : u.worker = s.worker)
    (hempty : u.g.table.changes = []) :
    Noticed (u.goto t .signal) := by
  by_cases halive : s.worker = .crashed
  · unfold Noticed
    rw [show (u.goto t .signal).worker = .crashed from hworker.trans halive]
    trivial
  · have hw := (worker_of_isLast hbatched halive (t := t) (by rw [hpc]; rfl)).left
    unfold Noticed
    rw [show (u.goto t .signal).worker = .waitReadersDone from hworker.trans hw]
    constructor
    · intro _
      exact hempty
    · intro hnot
      have hself : (u.goto t .signal).pc t = .signal := by
        show Function.update u.pc t .signal t = .signal
        rw [Function.update_self]
      exact absurd (Or.inr ⟨t, hself⟩) hnot

theorem noticed_signal {t : thread} (h : Noticed s) (hbatched : Batched s)
    (hpc : s.pc t = .signal) (hworker : u.worker = s.worker)
    (hdone : u.completion = s.completion) (hpcs : u.pc = s.pc)
    (htable : u.g.table = s.g.table) : Noticed (u.goto t (.decLoad true)) := by
  by_cases halive : s.worker = .crashed
  · unfold Noticed
    rw [show (u.goto t (.decLoad true)).worker = .crashed from
      hworker.trans halive]
    trivial
  · rcases worker_of_isLast hbatched halive (t := t) (by rw [hpc]; rfl) with
      ⟨hw, hone⟩
    have hnumbers := numbers_signal hpcs hdone hpc
    unfold Noticed at h ⊢
    rw [hw] at h
    rw [show (u.goto t (.decLoad true)).worker = .waitReadersDone from
      hworker.trans hw]
    constructor
    · intro _
      show u.g.table.changes = []
      rw [htable]
      exact h.left (Or.inr ⟨t, hpc⟩)
    · intro hnot
      exact absurd (Or.inl (by lia)) hnot

theorem noticed_handBack {t : thread} (h : Noticed s) (hbatched : Batched s)
    (hpc : s.pc t = .handBack) (hnews : SameNews s u)
    (hworker : u.worker = s.worker) (hdone : u.completion = s.completion)
    (hpcs : u.pc = s.pc) : Noticed (u.goto t .user) := by
  have hpos : 0 < grantedWriters s := grantedWriters_pos (t := t) (by rw [hpc]; rfl)
  have hw := eq_waitWriterDone_of_phase hbatched.phase hpos
  have hwriters := toPerform_goto (t := t) (p := .user) hpcs
  rw [hpc, tokens_congr _ hdone] at hwriters
  simp only [ClientPc.isToPerform, Bool.toNat_false] at hwriters
  apply noticed_of_sameNews h (u := u.goto t .user)
  · exact ⟨hnews.table, hnews.vector, hnews.count, hnews.performed⟩
  · exact hworker
  · intro _
    constructor <;> intro hmore <;> lia
  · intro hreaders
    rw [hw] at hreaders
    cases hreaders

theorem noticed_clientMove {t : thread} (h : Noticed s)
    (hticketed : Ticketed fileOf s) (hbatched : Batched s) (hexact : Exact u)
    (hmove : Move fileOf s (.client t) u) : Noticed u := by
  cases hmove with
  | clamp hpc => exact noticed_clamp h hpc rfl rfl rfl rfl rfl
  | lockQ hpc hsem =>
      exact noticed_quiet h hpc ⟨rfl, rfl, rfl, rfl⟩ rfl rfl rfl ⟨rfl, rfl, rfl⟩
        rfl (by simp) (by simp)
  | enq hpc =>
      exact noticed_quiet h hpc ⟨rfl, rfl, rfl, rfl⟩ rfl rfl rfl ⟨rfl, rfl, rfl⟩
        rfl (by simp) (by simp)
  | unlockQ hpc =>
      exact noticed_quiet h hpc ⟨rfl, rfl, rfl, rfl⟩ rfl rfl rfl ⟨rfl, rfl, rfl⟩
        rfl (by simp) (by simp)
  | wait hpc hdone =>
      have hrole := issued_eq_role hticketed hpc hdone
      rw [hrole] at hdone
      exact noticed_wait h ⟨rfl, rfl, rfl, rfl⟩ rfl rfl hpc hdone rfl
  | apply hpc => exact noticed_apply h hbatched hpc rfl rfl rfl rfl rfl
  | handBack hpc =>
      exact noticed_handBack h hbatched hpc ⟨rfl, rfl, rfl, rfl⟩ rfl rfl rfl
  | cleanUp hpc => exact noticed_cleanUp hbatched hpc rfl rfl
  | signal hpc => exact noticed_signal h hbatched hpc rfl rfl rfl rfl
  | decStore hpc =>
      exact noticed_decStore h hbatched hpc ⟨rfl, rfl, rfl, rfl⟩ rfl rfl rfl rfl
        hexact
  | downCs hpc hsem =>
      exact noticed_quiet h hpc ⟨rfl, rfl, rfl, rfl⟩ rfl rfl rfl ⟨rfl, rfl, rfl⟩
        rfl (by simp) (by simp)
  | lockTable hpc hsem =>
      exact noticed_quiet h hpc ⟨rfl, rfl, rfl, rfl⟩ rfl rfl rfl ⟨rfl, rfl, rfl⟩
        rfl (by simp) (by simp)
  | testLast hpc hone =>
      exact noticed_quiet h hpc ⟨rfl, rfl, rfl, rfl⟩ rfl rfl rfl ⟨rfl, rfl, rfl⟩
        rfl (by simp) (by simp)
  | testOther hpc hone =>
      exact noticed_quiet h hpc ⟨rfl, rfl, rfl, rfl⟩ rfl rfl rfl ⟨rfl, rfl, rfl⟩
        rfl (by simp) (by simp)
  | _ hpc =>
      exact noticed_quiet h hpc ⟨rfl, rfl, rfl, rfl⟩ rfl rfl rfl ⟨rfl, rfl, rfl⟩
        rfl (by simp) (by simp)

end ClientSteps

/-!
## Steps of the worker
-/

section WorkerSteps

variable {fileOf : thread -> file} {s u : State thread file}

theorem announces_snapshot (h : Tells s.performed s.g.table.changes) :
    Announces { s with
      g := s.g.refreshUpdateVector true
      worker := .loadReaders } := by
  cases hvector : s.g.table.rtGetUpdatedRtEntries true with
  | none =>
      unfold RtTable.rtGetUpdatedRtEntries at hvector
      cases hvector
  | some vector =>
      have hentries := RtTable.changes_snapshot hvector
      unfold Announces Globals.announced Globals.refreshUpdateVector
      simp only [hvector, UpdateVector.records, List.take_length]
      rw [hentries]
      exact ⟨h, trivial⟩

variable [Fintype thread] [Fintype file] [DecidableEq thread]
variable [DecidableEq file]

theorem noticed_workerMove (h : Noticed s) (hbatched : Batched s)
    (hexact : Exact s) (hmove : Move fileOf s (.worker true) u) :
    Noticed u := by
  have hphase := hbatched.phase
  unfold Noticed at h
  cases hmove with
  | completeWriter hw =>
      rename_i f
      rw [hw] at h
      have hissued := tokens_complete s f .writer .writer
      rw [if_pos rfl] at hissued
      have hwrites : 0 < toPerform ({ s.complete f .writer with
          worker := .waitWriterDone } : State thread file) := by
        show 0 < tokens (s.complete f .writer) .writer + _
        lia
      exact ⟨fun _ => h, fun hnone => absurd hwrites hnone⟩
  | waitWriterDone hw hdone =>
      rw [hw] at h hphase
      have hle := toPerform_le s
      exact h.right (by have := hphase.left; lia)
  | testNone hw hzero => trivial
  | emptyChangeList hw => rfl
  | snapshot hw =>
      rw [hw] at h
      exact announces_snapshot h
  | loadNone hw hzero => exact absurd hzero (hexact.nonzero (Or.inr hw))
  | dequeWriterNull hw hitems => trivial
  | unlockGrantNull hw => trivial
  | completeGrantLast hw hlt =>
      rename_i i m f
      rw [hw] at h
      have hissued := tokens_complete s f .reader .reader
      rw [if_pos rfl] at hissued
      refine ⟨?_, fun _ => h⟩
      intro hcleaned
      rcases hcleaned with hnone | ⟨t, ht⟩
      · have hsame : grantedReaders ({ s.complete f .reader with
            worker := .waitReadersDone } : State thread file) =
          tokens (s.complete f .reader) .reader +
            clientsAt ClientPc.isServed s := rfl
        lia
      · have halive : s.worker ≠ .crashed := by simp [hw]
        have hlast := worker_of_isLast hbatched halive (t := t) (by
          rw [show s.pc t = .signal from ht]
          rfl)
        rw [hw] at hlast
        cases hlast.left
  | waitReadersDone hw hdone =>
      rw [hw] at h hphase
      have hone : s.g.workerDone = 1 := by
        have hle := hphase.right.left
        lia
      exact h.left (Or.inl (hphase.right.right hone))
  | waitWriter hw hitems =>
      rw [hw] at h
      exact h
  | _ hw =>
      rw [hw] at h
      exact h

end WorkerSteps

/-!
## Runs
-/

def Action.allocates : Action thread -> Bool
  | .worker allocOk => allocOk
  | _ => true

def Provided (s : State thread file) (a : Action thread) : Prop :=
  Undisturbed s a ∧ a.allocates = true

def ServedNotices (s : State thread file) : Prop :=
  forall t n vector, (t, n, vector) ∈ s.served ->
    exists w op, (w, op) ∈ s.performed ∧ n = vector.length ∧
      vector.map (·.entry) = op.notice.map some

/-- A reader about to copy finds the notice of the last writer. -/
structure Informed (s : State thread file) : Prop where
  copying : forall t, s.pc t = .copy -> Announces s
  served : ServedNotices s

section Runs

variable {fileOf : thread -> file} {s u : State thread file}

theorem noticed_init [Fintype thread] [Fintype file] :
    Noticed (State.init : State thread file) := rfl

variable [DecidableEq thread]

theorem announces_of_copy [Fintype thread] [Fintype file]
    (h : Noticed s) (hbatched : Batched s)
    (halive : s.worker ≠ .crashed) {t : thread} (hpc : s.pc t = .copy) :
    Announces s := by
  have hserved : (s.pc t).isServed = true := by rw [hpc]; rfl
  have hpos := grantedReaders_pos hserved
  have hphase := hbatched.phase
  have hnot : ¬ CleanedUp s := by
    intro hcleaned
    rcases hcleaned with hnone | ⟨t', ht'⟩
    · lia
    · -- a reader at its signal is the only one left
      have hone := (worker_of_isLast hbatched halive (t := t') (by
        rw [ht']
        rfl)).right
      have hne : t ≠ t' := by
        intro hsame
        rw [hsame, ht'] at hpc
        cases hpc
      have htwo := measure_add_le_total
        (fun _ (p : ClientPc) => (p.isServed).toNat) s.pc hne
      rw [hpc, ht'] at htwo
      change 1 + 1 ≤ clientsAt ClientPc.isServed s at htwo
      unfold grantedReaders at hone
      lia
  unfold Noticed at h
  cases hw : s.worker <;> rw [hw] at h hphase halive <;>
    simp only [Phase] at hphase <;>
    first | exact h | exact h.right hnot | exact absurd rfl halive |
      (exfalso; lia)

variable [DecidableEq file]

theorem served_of_move {a : Action thread} (hmove : Move fileOf s a u) :
    u.served = s.served ∨ exists t, s.pc t = .copy ∧
      u.served = (t, s.g.rtUpdateVectorCount, s.g.announced) :: s.served := by
  cases hmove with
  | copy hpc => exact Or.inr ⟨_, hpc, rfl⟩
  | _ => exact Or.inl rfl

theorem performed_of_move {a : Action thread} (hmove : Move fileOf s a u)
    {x : thread × WriterOp} (hx : x ∈ s.performed) : x ∈ u.performed := by
  cases tableChange_of_move hmove with
  | same htable hdone =>
      rw [hdone]
      exact hx
  | performed t op hact hpc htable hdone =>
      rw [hdone]
      exact List.mem_append_left _ hx
  | emptied htable hdone =>
      rw [hdone]
      exact hx

theorem servedNotices_step {a : Action thread} (h : ServedNotices s)
    (hcopy : forall t, s.pc t = .copy -> Announces s)
    (hmove : Move fileOf s a u) : ServedNotices u := by
  have hold : forall t n vector, (t, n, vector) ∈ s.served ->
      exists w op, (w, op) ∈ u.performed ∧ n = vector.length ∧
        vector.map (·.entry) = op.notice.map some := by
    intro t n vector hmem
    rcases h t n vector hmem with ⟨w, op, hdone, hrest⟩
    exact ⟨w, op, performed_of_move hmove hdone, hrest⟩
  intro t n vector hmem
  rcases served_of_move hmove with hsame | ⟨t', hpc, hnew⟩
  · rw [hsame] at hmem
    exact hold t n vector hmem
  · rw [hnew] at hmem
    rcases List.mem_cons.mp hmem with hself | hrest
    · cases hself
      rcases hcopy t hpc with ⟨⟨before, w, op, hdone, hentries⟩, hcount⟩
      refine ⟨w, op, ?_, hcount, hentries⟩
      apply performed_of_move hmove
      rw [hdone]
      exact List.mem_append_right _ List.mem_cons_self
    · exact hold t n vector hrest

theorem undisturbed_of_provided
    (h : Transition.Reachable (step fileOf) Provided State.init s) :
    Transition.Reachable (step fileOf) Undisturbed State.init s :=
  Transition.reachable_mono (fun _ _ ha => ha.left) h

variable [Fintype thread]

instance (s : State thread file) (a : Action thread) :
    Decidable (Provided s a) :=
  inferInstanceAs (Decidable (Undisturbed s a ∧ a.allocates = true))

variable [Fintype file]

theorem noticed_step {a : Action thread} (h : Noticed s)
    (hticketed : Ticketed fileOf s) (hbatched : Batched s) (hexact : Exact s)
    (hexactNext : Exact u) (hallowed : Provided s a)
    (hstep : step fileOf s a = some u) : Noticed u := by
  have hmove := move_of_step hstep
  cases a with
  | call t req =>
      cases hmove with
      | call hpc =>
          refine noticed_quiet h hpc ⟨rfl, rfl, rfl, rfl⟩ rfl rfl rfl ?_ ?_
            (by simp) ?_
          · cases req <;> exact ⟨rfl, rfl, rfl⟩
          · cases req <;> rfl
          · cases req <;> simp [firstPc]
  | client t => exact noticed_clientMove h hticketed hbatched hexactNext hmove
  | interrupt t => cases hallowed.left.left
  | worker allocOk =>
      have halloc : allocOk = true := hallowed.right
      rw [halloc] at hmove
      exact noticed_workerMove h hbatched hexact hmove

theorem noticed_of_provided (hfile : Function.Injective fileOf)
    (h : Transition.Reachable (step fileOf) Provided State.init s) :
    Noticed s := by
  induction h with
  | start => exact noticed_init
  | step hs hallowed hstep ih =>
      have hnext := Transition.Reachable.step hs hallowed hstep
      rcases ticketed_and_batched_of_undisturbed hfile
        (undisturbed_of_provided hs) with ⟨hticketed, hbatched⟩
      exact noticed_step ih hticketed hbatched
        (exact_of_undisturbed hfile (undisturbed_of_provided hs))
        (exact_of_undisturbed hfile (undisturbed_of_provided hnext))
        hallowed hstep

theorem announces_of_provided (hfile : Function.Injective fileOf)
    (h : Transition.Reachable (step fileOf) Provided State.init s) {t : thread}
    (hpc : s.pc t = .copy) : Announces s := by
  rcases ticketed_and_batched_of_undisturbed hfile
    (undisturbed_of_provided h) with ⟨_, hbatched⟩
  rcases exists_granting_of_undisturbed hfile (undisturbed_of_provided h) with
    ⟨r, hgranting⟩
  exact announces_of_copy (noticed_of_provided hfile h) hbatched
    (grantsExact_of_granting hgranting).alive hpc

/-- In every undisturbed run with memory, a subscriber is told exactly what the
writer before its batch did: the one entry added, or nothing. -/
theorem informed_of_provided (hfile : Function.Injective fileOf)
    (h : Transition.Reachable (step fileOf) Provided State.init s) :
    Informed s where
  copying := fun _ hpc => announces_of_provided hfile h hpc
  served := by
    induction h with
    | start =>
        intro t n vector hmem
        cases hmem
    | step hs hallowed hstep ih =>
        exact servedNotices_step ih
          (fun _ hpc => announces_of_provided hfile hs hpc) (move_of_step hstep)

end Runs

theorem informed_after_purge :
    exists s : State (Fin 4) (Fin 4),
      (s.performed = [(0, .create someEntry), (3, .purge)] ∧
        s.served.map (fun x => (x.1, x.2.1)) = [(2, 0), (1, 1), (2, 1)]) ∧
          Informed s := by
  have hrun : exists s : State (Fin 4) (Fin 4),
      Transition.Reachable (step id) Provided State.init s ∧
        (decide (s.performed = [(0, .create someEntry), (3, .purge)] ∧
          s.served.map (fun x => (x.1, x.2.1)) =
            [(2, 0), (1, 1), (2, 1)])) = true :=
    Transition.exists_reachable_of_schedule
      (callCreate 0 ++ callSubscribe 1 ++ callSubscribe 2 ++ workerRuns 5 ++
        clientRuns 0 3 ++ workerRuns 15 ++ clientRuns 2 7 ++ clientRuns 1 9 ++
        workerRuns 1 ++ callSubscribe 2 ++ .call 3 (.write .purge) ::
        clientRuns 3 3 ++ workerRuns 5 ++ clientRuns 3 3 ++ workerRuns 11 ++
        clientRuns 2 2) _
      (by decide +kernel)
  rcases hrun with ⟨s, hreach, htest⟩
  exact ⟨s, of_decide_eq_true htest,
    informed_of_provided Function.injective_id hreach⟩

end Ioctl
end RIBDriver
