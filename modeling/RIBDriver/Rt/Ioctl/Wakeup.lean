import RIBDriver.Rt.Ioctl.Grants

/-!
# The wake-up of the worker

While the worker waits for its completion somebody still owes it the signal:
the granted writer, or the reader that will find the counter at one.  When no
wait is interrupted and the worker counts cleanly, the counter is exactly the
number of readers it must account for.
-/

namespace RIBDriver
namespace Ioctl

open Counting

variable {thread file : Type _}
variable [Fintype thread]

namespace ClientPc

def isBeforeTest : ClientPc -> Bool
  | .copy => true
  | .downCs => true
  | .test => true
  | _ => false

def isLeaving : ClientPc -> Bool
  | .decLoad last => !last
  | .decStore last _ => !last
  | _ => false

theorem isServed_cases {p : ClientPc} (h : p.isServed = true) :
    p.isBeforeTest = true ∨ p.isLast = true ∨ p.isLeaving = true := by
  cases p with
  | copy => exact Or.inl rfl
  | downCs => exact Or.inl rfl
  | test => exact Or.inl rfl
  | cleanUp => exact Or.inr (Or.inl rfl)
  | signal => exact Or.inr (Or.inl rfl)
  | decLoad last => exact Or.inr (Or.inr h)
  | decStore last loaded => exact Or.inr (Or.inr h)
  | _ => cases h

theorem isServed_of_isLeaving {p : ClientPc} (h : p.isLeaving = true) :
    p.isServed = true := by
  cases p with
  | decLoad last => exact h
  | decStore last loaded => exact h
  | _ => cases h

theorem inSection_of_isLeaving {p : ClientPc} (h : p.isLeaving = true) :
    p.inSection = true := by
  cases p with
  | decLoad last => rfl
  | decStore last loaded => rfl
  | _ => cases h

end ClientPc

theorem ClientEdge.isLeaving {n : Nat} {q p : ClientPc} (h : ClientEdge n q p)
    (hp : p.isLeaving = true) : q.isLeaving = true ∨ n ≠ 1 := by
  cases h with
  | testOther hone => exact Or.inr hone
  | decLoad last => exact Or.inl hp
  | call req => cases req <;> cases hp
  | _ => cases hp

namespace WorkerEdge

variable {n : Nat} {w w' : WorkerPc file}

theorem ne_crashed (h : WorkerEdge n w w') : w ≠ .crashed := by
  cases h <;> simp

theorem ungranted_eq (h : WorkerEdge n w w') (hlive : w' ≠ .crashed) :
    ungranted w' n = ungranted w n := by
  cases h with
  | dequeWriterNull => exact absurd rfl hlive
  | unlockGrantNull i m => exact absurd rfl hlive
  | testNone hzero => exact hzero.symm
  | loadNone hzero => exact hzero.symm
  | _ => rfl

theorem ne_waiting (h : WorkerEdge n w w') (hloads : w = .loadReaders -> n ≠ 0) :
    w' ≠ .waitWriterDone ∧ w' ≠ .waitReadersDone := by
  cases h with
  | loadNone hzero => exact absurd hzero (hloads rfl)
  | _ => simp

theorem nonzero (h : WorkerEdge n w w')
    (hold : w = .snapshot ∨ w = .loadReaders -> n ≠ 0)
    (hnext : w' = .snapshot ∨ w' = .loadReaders) : n ≠ 0 := by
  cases h with
  | testSome hsome => exact hsome
  | snapshot => exact hold (Or.inl rfl)
  | _ => simp at hnext

end WorkerEdge

/-!
## The exact counter
-/

structure Exact [Fintype file] (s : State thread file) : Prop where
  alone : s.g.rtSerializeReadersCsSem + clientsAt ClientPc.inSection s = 1
  counter : s.worker ≠ .crashed -> owed s = s.g.nReadersToBeService
  loaded : forall t last n, s.pc t = .decStore last n ->
    n = s.g.nReadersToBeService
  leaving : forall t, (s.pc t).isLeaving = true -> s.g.nReadersToBeService ≠ 1
  writer : s.worker = .waitWriterDone ->
    grantedWriters s + s.g.workerDone = 1
  readers : s.worker = .waitReadersDone -> s.g.workerDone = 0 ->
    0 < grantedReaders s ∧ staleReaders s = 0
  nonzero : s.worker = .snapshot ∨ s.worker = .loadReaders ->
    s.g.nReadersToBeService ≠ 0

section Exactness

variable [DecidableEq thread] [Fintype file]
variable {fileOf : thread -> file} {s u : State thread file}
variable {t : thread} {p : ClientPc}

theorem eq_of_inSection (h : Exact s) {t t' : thread}
    (ht : (s.pc t).inSection = true) (ht' : (s.pc t').inSection = true) :
    t = t' := by
  by_contra hne
  have hpair := measure_add_le_total
    (fun _ (p : ClientPc) => (p.inSection).toNat) s.pc hne
  have halone := h.alone
  unfold clientsAt at halone
  rw [ht, ht'] at hpair
  simp only [Bool.toNat_true] at hpair
  lia

/-- The rule for client steps: a client that changes the counter is alone in
the section, so no other one has loaded or tested it. -/
theorem exact_goto (h : Exact s) (hpcs : u.pc = s.pc)
    (hsection : u.g.rtSerializeReadersCsSem + (p.inSection).toNat =
      s.g.rtSerializeReadersCsSem + ((s.pc t).inSection).toNat)
    (hothers : u.g.nReadersToBeService = s.g.nReadersToBeService ∨
      (s.pc t).inSection = true)
    (hcounter : u.worker ≠ .crashed ->
      owed (u.goto t p) = u.g.nReadersToBeService)
    (hloaded : forall last n, p = .decStore last n ->
      n = u.g.nReadersToBeService)
    (hleaving : p.isLeaving = true -> u.g.nReadersToBeService ≠ 1)
    (hwriter : u.worker = .waitWriterDone ->
      grantedWriters (u.goto t p) + u.g.workerDone = 1)
    (hreaders : u.worker = .waitReadersDone -> u.g.workerDone = 0 ->
      0 < grantedReaders (u.goto t p) ∧ staleReaders (u.goto t p) = 0)
    (hnonzero : u.worker = .snapshot ∨ u.worker = .loadReaders ->
      u.g.nReadersToBeService ≠ 0) : Exact (u.goto t p) where
  alone := by
    have hmove := clientsAt_goto ClientPc.inSection u t p
    have halone := h.alone
    rw [hpcs, clientsAt_congr _ hpcs] at hmove
    show u.g.rtSerializeReadersCsSem +
      clientsAt ClientPc.inSection (u.goto t p) = 1
    lia
  counter := hcounter
  loaded := by
    intro t' last n hpc
    change Function.update u.pc t p t' = _ at hpc
    show n = u.g.nReadersToBeService
    by_cases ht : t' = t
    · rw [ht, Function.update_self] at hpc
      exact hloaded last n hpc
    · rw [Function.update_of_ne ht, hpcs] at hpc
      rcases hothers with hsame | halone
      · rw [hsame]
        exact h.loaded t' last n hpc
      · exact absurd (eq_of_inSection h (by rw [hpc]; rfl) halone) ht
  leaving := by
    intro t' hplace
    change (Function.update u.pc t p t').isLeaving = true at hplace
    show u.g.nReadersToBeService ≠ 1
    by_cases ht : t' = t
    · rw [ht, Function.update_self] at hplace
      exact hleaving hplace
    · rw [Function.update_of_ne ht, hpcs] at hplace
      rcases hothers with hsame | halone
      · rw [hsame]
        exact h.leaving t' hplace
      · exact absurd (eq_of_inSection h
          (ClientPc.inSection_of_isLeaving hplace) halone) ht
  writer := hwriter
  readers := hreaders
  nonzero := hnonzero

theorem exact_still (h : Exact s) (hpcs : u.pc = s.pc)
    (hworker : u.worker = s.worker)
    (hwd : u.g.workerDone = s.g.workerDone)
    (hn : u.g.nReadersToBeService = s.g.nReadersToBeService)
    (hnumbers : grantedWriters (u.goto t p) = grantedWriters s ∧
      grantedReaders (u.goto t p) = grantedReaders s ∧
      staleReaders (u.goto t p) = staleReaders s)
    (hsection : u.g.rtSerializeReadersCsSem + (p.inSection).toNat =
      s.g.rtSerializeReadersCsSem + ((s.pc t).inSection).toNat)
    (hloaded : forall last n, p = .decStore last n ->
      n = s.g.nReadersToBeService)
    (hleaving : p.isLeaving = true ->
      (s.pc t).isLeaving = true ∨ s.g.nReadersToBeService ≠ 1) :
    Exact (u.goto t p) := by
  rcases hnumbers with ⟨hgw, hgr, hst⟩
  apply exact_goto h hpcs hsection (Or.inl hn)
  · intro hlive
    rw [hworker] at hlive
    rw [owed_goto_eq hworker hn hgr hst, hn]
    exact h.counter hlive
  · intro last n hp
    rw [hn]
    exact hloaded last n hp
  · intro hp
    rw [hn]
    rcases hleaving hp with hold | hone
    · exact h.leaving t hold
    · exact hone
  · intro hw
    rw [hgw, hwd]
    rw [hworker] at hw
    exact h.writer hw
  · intro hw hdone
    rw [hgr, hst]
    rw [hworker] at hw
    rw [hwd] at hdone
    exact h.readers hw hdone
  · intro hw
    rw [hn]
    rw [hworker] at hw
    exact h.nonzero hw

theorem exact_quiet (h : Exact s) (hpcs : u.pc = s.pc)
    (hsignals : u.signals = s.signals)
    (hgrant : ClientPc.SameGrant (s.pc t) p)
    (hsection : u.g.rtSerializeReadersCsSem + (p.inSection).toNat =
      s.g.rtSerializeReadersCsSem + ((s.pc t).inSection).toNat)
    (hloaded : forall last n, p = .decStore last n ->
      n = s.g.nReadersToBeService)
    (hleaving : p.isLeaving = true ->
      (s.pc t).isLeaving = true ∨ s.g.nReadersToBeService ≠ 1) :
    Exact (u.goto t p) := by
  simp only [State.signals, Signals.mk.injEq] at hsignals
  rcases hsignals with ⟨hworker, hdone, hwd, hn⟩
  exact exact_still h hpcs hworker hwd hn (numbers_quiet hpcs hdone hgrant)
    hsection hloaded hleaving

theorem exact_enq {req : Request} (h : Exact s) (hpcs : u.pc = s.pc)
    (hsignals : u.signals = s.signals)
    (hcs : u.g.rtSerializeReadersCsSem = s.g.rtSerializeReadersCsSem)
    (hpc : s.pc t = .enq req) : Exact (u.goto t (.unlockQ req)) := by
  refine exact_quiet h hpcs hsignals ?_ ?_ ?_ ?_
  · rw [hpc]
    exact ⟨rfl, rfl, rfl⟩
  · rw [hcs, hpc]
    rfl
  · intro last n hp
    cases hp
  · intro hp
    cases hp

theorem exact_apply {op : WriterOp} (h : Exact s) (hpcs : u.pc = s.pc)
    (hsignals : u.signals = s.signals)
    (hcs : u.g.rtSerializeReadersCsSem = s.g.rtSerializeReadersCsSem)
    (hpc : s.pc t = .apply op) : Exact (u.goto t (afterApply op)) := by
  refine exact_quiet h hpcs hsignals ?_ ?_ ?_ ?_
  · rw [hpc]
    exact sameGrant_afterApply op
  · rw [hcs, hpc]
    cases op <;> rfl
  · intro last n hp
    cases op <;> cases hp
  · intro hp
    cases op <;> cases hp

theorem exact_signal (hbatched : Batched s) (h : Exact s) (hpcs : u.pc = s.pc)
    (hsignals : u.signals = { s.signals with workerDone := s.g.workerDone + 1 })
    (hcs : u.g.rtSerializeReadersCsSem = s.g.rtSerializeReadersCsSem)
    (hpc : s.pc t = .signal) : Exact (u.goto t (.decLoad true)) := by
  simp only [State.signals, Signals.mk.injEq] at hsignals
  rcases hsignals with ⟨hworker, hdone, hwd, hn⟩
  have hserved : 0 < grantedReaders s :=
    grantedReaders_pos (t := t) (by rw [hpc]; rfl)
  have hphase := hbatched.phase
  rcases numbers_signal hpcs hdone hpc with ⟨hgw, hgr, hst⟩
  apply exact_goto h hpcs
  · rw [hcs, hpc]
    rfl
  · exact Or.inl hn
  · intro hlive
    rw [hworker] at hlive
    have howed := h.counter hlive
    unfold owed at howed
    rw [owed_goto hworker hn, hn]
    lia
  · intro last n hp
    cases hp
  · intro hp
    cases hp
  · intro hw
    rw [hworker] at hw
    rw [hw] at hphase
    have hnone := hphase.right
    lia
  · intro _ hzero
    lia
  · intro hw
    rw [hn]
    rw [hworker] at hw
    exact h.nonzero hw

theorem exact_decStore {last : Bool} {loaded : Nat} (hbatched : Batched s)
    (h : Exact s) (hpcs : u.pc = s.pc)
    (hsignals : u.signals = { s.signals with
      nReadersToBeService := Globals.decrement32 loaded })
    (hcs : u.g.rtSerializeReadersCsSem = s.g.rtSerializeReadersCsSem)
    (hpc : s.pc t = .decStore last loaded) : Exact (u.goto t .upCs) := by
  simp only [State.signals, Signals.mk.injEq] at hsignals
  rcases hsignals with ⟨hworker, hdone, hwd, hn⟩
  have hloaded := h.loaded t last loaded hpc
  have hbound := hbatched.loaded t last loaded hpc
  have howed := owed_decStore hbatched hpc hpcs hworker hdone
  have hphase := hbatched.phase
  rcases numbers_decStore hpcs hdone hpc with ⟨hgw, hgr, hst⟩
  have hstored : u.g.nReadersToBeService = loaded - 1 := by
    rw [hn]
    apply Globals.decrement32_of_pos
    omega
  have hcounted : 0 < grantedReaders s + staleReaders s :=
    readers_pos (isServed_or_isStale_of_isStoring hpc)
  apply exact_goto h hpcs
  · rw [hcs, hpc]
    rfl
  · right
    rw [hpc]
    rfl
  · intro hlive
    rw [hworker] at hlive
    have hcounter := h.counter hlive
    omega
  · intro last n hp
    cases hp
  · intro hp
    cases hp
  · intro hw
    rw [hgw, hwd]
    rw [hworker] at hw
    exact h.writer hw
  · intro hw hzero
    rw [hworker] at hw
    rw [hwd] at hzero
    have hreaders := h.readers hw hzero
    have hcounter := h.counter (by rw [hw]; intro hcrash; cases hcrash)
    unfold owed at hcounter
    rw [hw] at hcounter
    simp only [ungranted] at hcounter
    cases last with
    | true =>
        -- the last reader would be stale
        simp only [Bool.toNat_true] at hst
        omega
    | false =>
        have hmore := h.leaving t (by rw [hpc]; rfl)
        simp only [Bool.not_false, Bool.toNat_true] at hgr
        simp only [Bool.toNat_false] at hst
        omega
  · intro hw
    rw [hworker] at hw
    rcases hw with hw | hw <;> rw [hw] at hphase <;>
      simp only [Phase] at hphase <;> omega

variable [DecidableEq file]

theorem inSection_afterWait (req : Request) :
    (afterWait req).inSection = false := by
  rcases req with op | _
  · cases op <;> rfl
  · rfl

theorem exact_wait {req : Request} {rest : List Role} (h : Exact s)
    (hpcs : u.pc = s.pc)
    (hsignals : u.signals = { s.signals with
      completion := Function.update s.completion (fileOf t) rest })
    (hcs : u.g.rtSerializeReadersCsSem = s.g.rtSerializeReadersCsSem)
    (hpc : s.pc t = .wait req)
    (hdone : s.completion (fileOf t) = req.role :: rest) :
    Exact (u.goto t (afterWait req)) := by
  simp only [State.signals, Signals.mk.injEq] at hsignals
  rcases hsignals with ⟨hworker, hnext, hwd, hn⟩
  apply exact_still h hpcs hworker hwd hn (numbers_wait hpcs hpc hdone hnext)
  · rw [hcs, hpc, inSection_afterWait]
    rfl
  · intro last n hp
    rcases req with op | _
    · cases op <;> cases hp
    · cases hp
  · intro hp
    rcases req with op | _
    · cases op <;> cases hp
    · cases hp

theorem exact_handBack (hbatched : Batched s) (h : Exact s)
    (hpcs : u.pc = s.pc)
    (hsignals : u.signals = { s.signals with workerDone := s.g.workerDone + 1 })
    (hcs : u.g.rtSerializeReadersCsSem = s.g.rtSerializeReadersCsSem)
    (hpc : s.pc t = .handBack) : Exact (u.goto t .user) := by
  simp only [State.signals, Signals.mk.injEq] at hsignals
  rcases hsignals with ⟨hworker, hdone, hwd, hn⟩
  have hwriting : (s.pc t).isWriting = true := by
    rw [hpc]
    rfl
  have hwait := eq_waitWriterDone_of_phase hbatched.phase
    (grantedWriters_pos hwriting)
  have hone := h.writer hwait
  rcases numbers_leave hpcs hdone hwriting with ⟨hgw, hgr, hst⟩
  apply exact_goto h hpcs
  · rw [hcs, hpc]
    rfl
  · exact Or.inl hn
  · intro hlive
    rw [hworker] at hlive
    rw [owed_goto_eq hworker hn hgr hst, hn]
    exact h.counter hlive
  · intro last n hp
    cases hp
  · intro hp
    cases hp
  · intro _
    lia
  · intro hw
    rw [hworker, hwait] at hw
    cases hw
  · intro hw
    rw [hworker, hwait] at hw
    rcases hw with hw | hw <;> cases hw

end Exactness

/-!
## Steps of the worker
-/

section WorkerSteps

variable [Fintype file]
variable {fileOf : thread -> file} {s u : State thread file}
variable {allocOk : Bool}

theorem exact_worker (h : Exact s) (hpcs : u.pc = s.pc)
    (hcs : u.g.rtSerializeReadersCsSem = s.g.rtSerializeReadersCsSem)
    (hn : u.g.nReadersToBeService = s.g.nReadersToBeService ∨
      grantedReaders s + staleReaders s = 0)
    (hcounter : u.worker ≠ .crashed -> owed u = u.g.nReadersToBeService)
    (hwriter : u.worker = .waitWriterDone ->
      grantedWriters u + u.g.workerDone = 1)
    (hreaders : u.worker = .waitReadersDone -> u.g.workerDone = 0 ->
      0 < grantedReaders u ∧ staleReaders u = 0)
    (hnonzero : u.worker = .snapshot ∨ u.worker = .loadReaders ->
      u.g.nReadersToBeService ≠ 0) : Exact u where
  alone := by
    rw [hcs, clientsAt_congr _ hpcs]
    exact h.alone
  counter := hcounter
  loaded := by
    intro t last n hpc
    rw [hpcs] at hpc
    rcases hn with hsame | hnone
    · rw [hsame]
      exact h.loaded t last n hpc
    · have hpos := readers_pos (isServed_or_isStale_of_isStoring hpc)
      lia
  leaving := by
    intro t hplace
    rw [hpcs] at hplace
    rcases hn with hsame | hnone
    · rw [hsame]
      exact h.leaving t hplace
    · have hpos := grantedReaders_pos (ClientPc.isServed_of_isLeaving hplace)
      lia
  writer := hwriter
  readers := hreaders
  nonzero := hnonzero

theorem exact_moveOn {w : WorkerPc file} (h : Exact s)
    (hlive : s.worker ≠ .crashed) (hpcs : u.pc = s.pc)
    (hworker : u.worker = w) (hdone : u.completion = s.completion)
    (hcs : u.g.rtSerializeReadersCsSem = s.g.rtSerializeReadersCsSem)
    (hn : u.g.nReadersToBeService = s.g.nReadersToBeService)
    (hungranted : w ≠ .crashed -> ungranted w s.g.nReadersToBeService =
      ungranted s.worker s.g.nReadersToBeService)
    (hplace : w ≠ .waitWriterDone ∧ w ≠ .waitReadersDone)
    (hnonzero : w = .snapshot ∨ w = .loadReaders ->
      s.g.nReadersToBeService ≠ 0) : Exact u := by
  rw [← hworker] at hungranted hplace hnonzero
  rcases numbers_worker hpcs hdone with ⟨_, hgr, hst⟩
  apply exact_worker h hpcs hcs (Or.inl hn)
  · intro hnext
    have howed := h.counter hlive
    unfold owed at howed ⊢
    rw [hgr, hst, hn, hungranted hnext]
    exact howed
  · intro hwait
    exact absurd hwait hplace.left
  · intro hwait
    exact absurd hwait hplace.right
  · intro hwait
    rw [hn]
    exact hnonzero hwait

theorem exact_signalled {w : WorkerPc file} (h : Exact s)
    (hw : s.worker = .waitWriterDone ∧ w = .lockReaderQ ∨
      s.worker = .waitReadersDone ∧ w = .waitWriter) :
    Exact ({ s with
      g := { s.g with workerDone := s.g.workerDone - 1 }
      worker := w } : State thread file) := by
  rcases hw with ⟨hfrom, hto⟩ | ⟨hfrom, hto⟩ <;> rw [hto] <;>
    exact exact_moveOn h (by simp [hfrom]) rfl rfl rfl rfl rfl
      (fun _ => by rw [hfrom]; rfl) (by simp) (by simp)

theorem exact_countReaders (hbatched : Batched s) (h : Exact s)
    (hclean : forall t, (s.pc t).isStale = false)
    (hw : s.worker = .countReaders) :
    Exact ({ s with
      g := { s.g with
        nReadersToBeService := (s.g.queue .reader).items.length }
      worker := .unlockReaderQ } : State thread file) := by
  have hnone := staleReaders_eq_zero hclean
  have hphase := hbatched.phase
  rw [hw] at hphase
  rcases hphase with ⟨_, _, hgr⟩
  apply exact_worker h
  · rfl
  · rfl
  · right
    lia
  · intro _
    show grantedReaders s + staleReaders s +
      (s.g.queue .reader).items.length = (s.g.queue .reader).items.length
    lia
  · intro hwait
    cases hwait
  · intro hwait
    cases hwait
  · intro hwait
    rcases hwait with hwait | hwait <;> cases hwait

variable [DecidableEq file]

theorem exact_completeWriter {f : file} (hbatched : Batched s) (h : Exact s)
    (hw : s.worker = .completeWriter f) :
    Exact ({ s.complete f .writer with worker := .waitWriterDone } :
      State thread file) := by
  have hphase := hbatched.phase
  rw [hw] at hphase
  rcases hphase with ⟨hgw, hwd, hgr⟩
  have hwriter := tokens_complete s f .writer .writer
  have hreader := tokens_complete s f .writer .reader
  simp only [if_true] at hwriter
  rw [if_neg (by decide)] at hreader
  have hcounter := h.counter (by rw [hw]; intro hcrash; cases hcrash)
  unfold owed grantedReaders at hcounter
  rw [hw] at hcounter
  unfold grantedWriters at hgw
  apply exact_worker h
  · rfl
  · rfl
  · exact Or.inl rfl
  · intro _
    show tokens (s.complete f .writer) .reader +
      clientsAt ClientPc.isServed s + staleReaders s + 0 =
        s.g.nReadersToBeService
    rw [hreader]
    exact hcounter
  · intro _
    show tokens (s.complete f .writer) .writer +
      clientsAt ClientPc.isWriting s + s.g.workerDone = 1
    lia
  · intro hwait
    cases hwait
  · intro hwait
    rcases hwait with hwait | hwait <;> cases hwait

theorem exact_completeGrant {i m : Nat} {f : file} {w : WorkerPc file}
    (hbatched : Batched s) (h : Exact s)
    (hw : s.worker = .completeGrant i m f)
    (hplace : i + 1 < m ∧ w = .lockGrant (i + 1) m ∨
      ¬ i + 1 < m ∧ w = .waitReadersDone) :
    Exact ({ s.complete f .reader with worker := w } : State thread file) := by
  have hphase := hbatched.phase
  rw [hw] at hphase
  rcases hphase with ⟨hgw, hwd, hst, hi⟩
  have hreader := tokens_complete s f .reader .reader
  simp only [if_true] at hreader
  have hcounter := h.counter (by rw [hw]; intro hcrash; cases hcrash)
  unfold owed grantedReaders at hcounter
  rw [hw] at hcounter
  simp only [ungranted] at hcounter
  apply exact_worker h
  · rfl
  · rfl
  · exact Or.inl rfl
  · intro _
    show tokens (s.complete f .reader) .reader +
      clientsAt ClientPc.isServed s + staleReaders s +
        ungranted w s.g.nReadersToBeService = s.g.nReadersToBeService
    rcases hplace with ⟨hlt, hplace⟩ | ⟨hlt, hplace⟩ <;> rw [hplace] <;>
      simp only [ungranted] <;> lia
  · intro hwait
    change w = .waitWriterDone at hwait
    rw [hwait] at hplace
    rcases hplace with ⟨_, hplace⟩ | ⟨_, hplace⟩ <;> cases hplace
  · intro _ _
    show 0 < tokens (s.complete f .reader) .reader +
      clientsAt ClientPc.isServed s ∧ staleReaders s = 0
    constructor <;> lia
  · intro hwait
    change w = .snapshot ∨ w = .loadReaders at hwait
    rcases hplace with ⟨_, hplace⟩ | ⟨_, hplace⟩ <;> rw [hplace] at hwait <;>
      rcases hwait with hwait | hwait <;> cases hwait

end WorkerSteps

section Runs

variable [Fintype file]
variable {fileOf : thread -> file} {s u : State thread file}
variable {a : Action thread}

theorem exact_init : Exact (State.init : State thread file) where
  alone := by
    rw [clientsAt_init rfl]
    rfl
  counter := fun _ => owed_init
  loaded := by
    intro t last n hpc
    cases hpc
  leaving := by
    intro t hplace
    cases hplace
  writer := by
    intro hw
    cases hw
  readers := by
    intro hw
    cases hw
  nonzero := by
    intro hw
    rcases hw with hw | hw <;> cases hw

variable [DecidableEq thread] [DecidableEq file]

theorem exact_step (hticketed : Ticketed fileOf s) (hbatched : Batched s)
    (h : Exact s) (hnointerrupt : NoInterrupt s a) (hclean : CleanCount s a)
    (hmove : Move fileOf s a u) : Exact u := by
  cases effect_of_move hmove with
  | quiet hsignals hbooks hpcs hedge hsection =>
      exact exact_quiet h hpcs hsignals hedge.sameGrant (hsection hnointerrupt)
        (fun _ _ => hedge.loaded) hedge.isLeaving
  | giveUpGrant hpc => cases hnointerrupt
  | enq hpc => exact exact_enq h rfl rfl rfl hpc
  | wait hpc hdone =>
      have hrole := issued_eq_role hticketed hpc hdone
      rw [hrole] at hdone
      exact exact_wait h rfl rfl rfl hpc hdone
  | apply hpc => exact exact_apply h rfl rfl rfl hpc
  | handBack hpc => exact exact_handBack hbatched h rfl rfl rfl hpc
  | signal hpc => exact exact_signal hbatched h rfl rfl rfl hpc
  | decStore hpc => exact exact_decStore hbatched h rfl rfl rfl hpc
  | moveOn hsignals hbooks hpcs hcs hedge =>
      simp only [State.signals, Signals.mk.injEq] at hsignals
      rcases hsignals with ⟨hworker, hdone, _, hn⟩
      exact exact_moveOn h hedge.ne_crashed hpcs hworker hdone hcs hn
        hedge.ungranted_eq (hedge.ne_waiting (fun hw => h.nonzero (Or.inr hw)))
        (hedge.nonzero h.nonzero)
  | dequeWriter hw hitems =>
      exact exact_moveOn h (by simp [hw]) rfl rfl rfl rfl rfl
        (fun _ => by rw [hw]; rfl) (by simp) (by simp)
  | dequeGrant hw hitems =>
      exact exact_moveOn h (by simp [hw]) rfl rfl rfl rfl rfl
        (fun _ => by rw [hw]; rfl) (by simp) (by simp)
  | completeWriter hw => exact exact_completeWriter hbatched h hw
  | completeGrant hw hnext => exact exact_completeGrant hbatched h hw hnext
  | signalled hw hdone => exact exact_signalled h hw
  | countReaders hw => exact exact_countReaders hbatched h (hclean rfl hw) hw

theorem exact_of_undisturbed (hfile : Function.Injective fileOf)
    (h : Transition.Reachable (step fileOf) Undisturbed State.init s) :
    Exact s := by
  refine Transition.reachable_invariant_of Exact
    (fun _ => ticketed_and_batched_of_undisturbed hfile) exact_init ?_ h
  intro s a u hknown hexact hallowed hstep
  exact exact_step hknown.left hknown.right hexact hallowed.left hallowed.right
    (move_of_step hstep)

end Runs

/-!
## Who owes the signal
-/

inductive OwesSignal [Fintype file]
    (fileOf : thread -> file) (s : State thread file)
    (t : thread) : Prop where
  /-- A granted writer that has not handed back. -/
  | writer (h : Granted fileOf s .writer t ∨ (s.pc t).isWriting = true)
  /-- A reader that has found the counter at one; its signal is next. -/
  | last (h : (s.pc t).isLast = true)
  /-- A granted reader before its test, while the counter is the number of
  granted readers that have not decremented it. -/
  | reader (h : Granted fileOf s .reader t ∨ (s.pc t).isBeforeTest = true)
      (hcounter : s.g.nReadersToBeService = grantedReaders s + staleReaders s)

/-- Whenever the worker is blocked on its completion, somebody owes it. -/
def NotOrphaned [Fintype file]
    (fileOf : thread -> file) (s : State thread file) : Prop :=
  s.worker = .waitWriterDone ∨ s.worker = .waitReadersDone ->
    s.g.workerDone = 0 -> exists t, OwesSignal fileOf s t

section Orphaned

variable [Fintype file]
variable {fileOf : thread -> file} {s : State thread file}

theorem exists_writer_owes [DecidableEq file] (hticketed : Ticketed fileOf s)
    (h : 0 < grantedWriters s) : exists t, OwesSignal fileOf s t := by
  unfold grantedWriters at h
  by_cases htoken : 0 < tokens s .writer
  · rcases exists_granted hticketed htoken with ⟨t, ht⟩
    exact ⟨t, OwesSignal.writer (Or.inl ht)⟩
  · rcases exists_clientAt (by lia : 0 < clientsAt ClientPc.isWriting s) with
      ⟨t, ht⟩
    exact ⟨t, OwesSignal.writer (Or.inr ht)⟩

variable [DecidableEq thread]

theorem exists_beforeTest (h : Exact s)
    (hlast : forall t, (s.pc t).isLast = false)
    (hpos : 0 < clientsAt ClientPc.isServed s)
    (hleaving : (exists t, (s.pc t).isLeaving = true) ->
      1 < clientsAt ClientPc.isServed s) :
    exists t, (s.pc t).isBeforeTest = true := by
  have hcases : forall t, (s.pc t).isServed = true ->
      (s.pc t).isBeforeTest = true ∨ (s.pc t).isLeaving = true := by
    intro t hserved
    rcases ClientPc.isServed_cases hserved with hbefore | hend | hleaves
    · exact Or.inl hbefore
    · rw [hlast t] at hend
      cases hend
    · exact Or.inr hleaves
  rcases exists_clientAt hpos with ⟨t, hserved⟩
  rcases hcases t hserved with hbefore | hleaves
  · exact ⟨t, hbefore⟩
  · have hmore := hleaving ⟨t, hleaves⟩
    have hone : ((s.pc t).isServed).toNat ≤ 1 := Bool.toNat_le _
    rcases exists_ne_of_one_lt_total hone hmore with ⟨t', hne, hpos'⟩
    have hserved' : (s.pc t').isServed = true := by
      cases hvalue : (s.pc t').isServed with
      | true => rfl
      | false =>
          rw [hvalue] at hpos'
          cases hpos'
    rcases hcases t' hserved' with hbefore | hleaves'
    · exact ⟨t', hbefore⟩
    · exact absurd (eq_of_inSection h
        (ClientPc.inSection_of_isLeaving hleaves')
        (ClientPc.inSection_of_isLeaving hleaves)) hne

variable [DecidableEq file]

theorem exists_reader_owes (hticketed : Ticketed fileOf s) (h : Exact s)
    (hw : s.worker = .waitReadersDone) (hdone : s.g.workerDone = 0) :
    exists t, OwesSignal fileOf s t := by
  rcases h.readers hw hdone with ⟨hpos, hstale⟩
  have hcounter : grantedReaders s + staleReaders s =
      s.g.nReadersToBeService := by
    have howed := h.counter (by rw [hw]; intro hcrash; cases hcrash)
    unfold owed at howed
    rw [hw] at howed
    exact howed
  by_cases hend : exists t, (s.pc t).isLast = true
  · rcases hend with ⟨t, ht⟩
    exact ⟨t, OwesSignal.last ht⟩
  · by_cases htoken : 0 < tokens s .reader
    · rcases exists_granted hticketed htoken with ⟨t, ht⟩
      exact ⟨t, OwesSignal.reader (Or.inl ht) hcounter.symm⟩
    · have hserved : clientsAt ClientPc.isServed s =
          s.g.nReadersToBeService := by
        unfold grantedReaders at hcounter
        lia
      have hpositive : 0 < s.g.nReadersToBeService := by lia
      have hbefore : exists t, (s.pc t).isBeforeTest = true := by
        apply exists_beforeTest h
        · intro t
          cases hvalue : (s.pc t).isLast with
          | false => rfl
          | true => exact absurd ⟨t, hvalue⟩ hend
        · lia
        · intro hleaves
          rcases hleaves with ⟨t, ht⟩
          have hmore := h.leaving t ht
          lia
      rcases hbefore with ⟨t, ht⟩
      exact ⟨t, OwesSignal.reader (Or.inr ht) hcounter.symm⟩

theorem notOrphaned_of_undisturbed (hfile : Function.Injective fileOf)
    (h : Transition.Reachable (step fileOf) Undisturbed State.init s) :
    NotOrphaned fileOf s := by
  have hexact := exact_of_undisturbed hfile h
  rcases ticketed_and_batched_of_undisturbed hfile h with ⟨hticketed, _⟩
  intro hblocked hdone
  rcases hblocked with hw | hw
  · have hone := hexact.writer hw
    exact exists_writer_owes hticketed (by lia)
  · exact exists_reader_owes hticketed hexact hw hdone

end Orphaned

theorem notOrphaned_granted_reader :
    exists s : State (Fin 4) (Fin 4),
      (s.worker = .waitReadersDone ∧ s.g.workerDone = 0 ∧
        s.completion 1 = [.reader]) ∧ NotOrphaned id s := by
  have hrun : exists s : State (Fin 4) (Fin 4),
      Transition.Reachable (step id) Undisturbed State.init s ∧
        (decide (s.worker = .waitReadersDone ∧ s.g.workerDone = 0 ∧
          s.completion 1 = [.reader])) = true :=
    Transition.exists_reachable_of_schedule
      (callCreate 0 ++ callSubscribe 1 ++ workerRuns 5 ++ clientRuns 0 3 ++
        workerRuns 11) _
      (by decide +kernel)
  rcases hrun with ⟨s, hreach, hplaces⟩
  exact ⟨s, of_decide_eq_true hplaces,
    notOrphaned_of_undisturbed Function.injective_id hreach⟩

/-- The decrement of reader `1` comes after the worker has counted reader `2`
alone: that reader finds the counter at zero, and nobody signals. -/
theorem exists_orphaned_worker :
    exists s : State (Fin 4) (Fin 4),
      Transition.Reachable (step id) NoInterrupt State.init s ∧
        (forall t, s.pc t = .user) ∧ ¬ NotOrphaned id s := by
  have hrun : exists s : State (Fin 4) (Fin 4),
      Transition.Reachable (step id) NoInterrupt State.init s ∧
        (decide (s.worker = .waitReadersDone ∧ s.g.workerDone = 0 ∧
          forall t, s.pc t = .user)) = true :=
    Transition.exists_reachable_of_schedule
      (signalledBatch ++ callCreate 0 ++ workerRuns 5 ++ clientRuns 0 3 ++
        callSubscribe 2 ++ workerRuns 11 ++ clientRuns 1 3 ++ clientRuns 2 7) _
      (by decide +kernel)
  rcases hrun with ⟨s, hreach, htest⟩
  rcases of_decide_eq_true htest with ⟨hw, hdone, hidle⟩
  refine ⟨s, hreach, hidle, ?_⟩
  intro hnot
  rcases hnot (Or.inr hw) hdone with ⟨t, howes⟩
  cases howes with
  | writer h =>
      unfold Granted at h
      rw [hidle t] at h
      rcases h with ⟨h, _⟩ | h <;> cases h
  | last h =>
      rw [hidle t] at h
      cases h
  | reader h hcounter =>
      unfold Granted at h
      rw [hidle t] at h
      rcases h with ⟨h, _⟩ | h <;> cases h

end Ioctl
end RIBDriver
