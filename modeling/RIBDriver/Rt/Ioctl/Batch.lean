import RIBDriver.Rt.Ioctl.Tickets

/-!
# Batches of granted clients

The worker grants one writer, waits for it, then grants the readers it has
counted and waits for the last of them.  The readers keep count by
`n_readers_to_be_service`: as long as no reader of an old batch is still to
decrement it when the worker assigns it, the counter is never below the number
of readers that have their grant or are about to get it.
-/

namespace RIBDriver
namespace Ioctl

open Counting

variable {thread file : Type _}

namespace ClientPc

/-- A reader past its wait that has neither signalled the worker nor
decremented the counter. -/
def isServed : ClientPc -> Bool
  | .copy => true
  | .downCs => true
  | .test => true
  | .cleanUp => true
  | .signal => true
  | .decLoad last => !last
  | .decStore last _ => !last
  | _ => false

/-- A reader that has found the counter at one and not yet signalled. -/
def isLast : ClientPc -> Bool
  | .cleanUp => true
  | .signal => true
  | _ => false

structure SameGrant (q p : ClientPc) : Prop where
  writing : p.isWriting = q.isWriting
  served : p.isServed = q.isServed
  stale : p.isStale = q.isStale

end ClientPc

namespace ClientEdge

variable {n : Nat} {q p : ClientPc}

theorem sameGrant (h : ClientEdge n q p) : ClientPc.SameGrant q p := by
  cases h with
  | call req => cases req <;> exact ⟨rfl, rfl, rfl⟩
  | _ => exact ⟨rfl, rfl, rfl⟩

theorem isLast (h : ClientEdge n q p) (hp : p.isLast = true) :
    q.isLast = true ∨ n = 1 := by
  cases h with
  | testLast hone => exact Or.inr hone
  | cleanUp => exact Or.inl rfl
  | call req => cases req <;> cases hp
  | _ => cases hp

theorem loaded (h : ClientEdge n q p) {last : Bool} {m : Nat}
    (hp : p = .decStore last m) : m = n := by
  cases h with
  | decLoad last =>
      cases hp
      rfl
  | call req => cases req <;> cases hp
  | _ => cases hp

end ClientEdge

/-!
## The numbers of a state
-/

def clientsAt [Fintype thread]
    (place : ClientPc -> Bool) (s : State thread file) : Nat :=
  total (fun _ p => (place p).toNat) s.pc

/-- The completions issued for entries of a role and not yet consumed. -/
def tokens [Fintype file] (s : State thread file) (r : Role) : Nat :=
  total (fun _ (done : List Role) => done.count r) s.completion

def grantedWriters [Fintype thread] [Fintype file]
    (s : State thread file) : Nat :=
  tokens s .writer + clientsAt ClientPc.isWriting s

/-- Readers granted that have neither signalled nor decremented. -/
def grantedReaders [Fintype thread] [Fintype file]
    (s : State thread file) : Nat :=
  tokens s .reader + clientsAt ClientPc.isServed s

/-- Readers that have signalled and not yet decremented. -/
def staleReaders [Fintype thread] (s : State thread file) : Nat :=
  clientsAt ClientPc.isStale s

/-- Readers counted by the worker and not yet granted. -/
def ungranted : WorkerPc file -> Nat -> Nat
  | .unlockReaderQ, n => n
  | .testReaders, n => n
  | .snapshot, n => n
  | .loadReaders, n => n
  | .lockGrant i m, _ => m - i
  | .dequeGrant i m, _ => m - i
  | .unlockGrant i m _, _ => m - i
  | .completeGrant i m _, _ => m - i
  | _, _ => 0

/-- What holds at each place of the worker, for `gw` granted writers, `wd`
signals to the worker, `gr` granted readers and `st` stale ones. -/
def Phase (w : WorkerPc file) (gw wd gr st : Nat) : Prop :=
  match w with
  | .waitWriterDone => gw + wd ≤ 1 ∧ gr = 0
  | .unlockReaderQ => gw = 0 ∧ wd = 0 ∧ gr = 0 ∧ st = 0
  | .testReaders => gw = 0 ∧ wd = 0 ∧ gr = 0 ∧ st = 0
  | .snapshot => gw = 0 ∧ wd = 0 ∧ gr = 0 ∧ st = 0
  | .loadReaders => gw = 0 ∧ wd = 0 ∧ gr = 0 ∧ st = 0
  | .lockGrant i m => gw = 0 ∧ wd = 0 ∧ st = 0 ∧ i < m
  | .dequeGrant i m => gw = 0 ∧ wd = 0 ∧ st = 0 ∧ i < m
  | .unlockGrant i m _ => gw = 0 ∧ wd = 0 ∧ st = 0 ∧ i < m
  | .completeGrant i m _ => gw = 0 ∧ wd = 0 ∧ st = 0 ∧ i < m
  | .waitReadersDone => gw = 0 ∧ wd ≤ 1 ∧ (wd = 1 -> gr = 0)
  | .crashed => gw = 0
  | _ => gw = 0 ∧ wd = 0 ∧ gr = 0

/-- The readers the counter must still account for. -/
def owed [Fintype thread] [Fintype file] (s : State thread file) : Nat :=
  grantedReaders s + staleReaders s + ungranted s.worker s.g.nReadersToBeService

structure Batched [Fintype thread] [Fintype file]
    (s : State thread file) : Prop where
  phase : Phase s.worker (grantedWriters s) s.g.workerDone (grantedReaders s)
    (staleReaders s)
  counter : owed s ≤ s.g.nReadersToBeService
  counter_le : s.g.nReadersToBeService ≤ qDefaultSize
  loaded : forall t last n, s.pc t = .decStore last n ->
    owed s ≤ n ∧ n ≤ qDefaultSize
  last : forall t, ((s.pc t).isLast || (s.pc t).isStale) = true -> owed s ≤ 1

section Numbers

variable {s u : State thread file}

theorem tokens_complete [DecidableEq file] [Fintype file]
    (s : State thread file) (f : file) (role r : Role) :
    tokens (s.complete f role) r =
      tokens s r + (if r = role then 1 else 0) := by
  have hupdate := total_update (fun _ (done : List Role) => done.count r)
    s.completion f (s.completion f ++ [role])
  have hcount : (s.completion f ++ [role]).count r =
      (s.completion f).count r + (if r = role then 1 else 0) := by
    rw [List.count_append, List.count_singleton]
    by_cases hr : r = role
    · simp [hr]
    · simp [hr, Ne.symm hr]
  unfold tokens State.complete
  lia

theorem tokens_wait [DecidableEq file] [Fintype file]
    {f : file} {issued : Role} {rest : List Role}
    (hdone : s.completion f = issued :: rest) (r : Role)
    (hnext : u.completion = Function.update s.completion f rest) :
    tokens u r + (if r = issued then 1 else 0) = tokens s r := by
  have hupdate := total_update (fun _ (done : List Role) => done.count r)
    s.completion f rest
  have hcount : (issued :: rest).count r =
      rest.count r + (if r = issued then 1 else 0) := by
    rw [List.count_cons]
    by_cases hr : issued = r
    · simp [hr]
    · simp [hr, Ne.symm hr]
  rw [hdone] at hupdate
  unfold tokens
  rw [hnext]
  lia

variable [Fintype thread]

theorem clientsAt_goto [DecidableEq thread]
    (place : ClientPc -> Bool) (s : State thread file)
    (t : thread) (p : ClientPc) :
    clientsAt place (s.goto t p) + (place (s.pc t)).toNat =
      clientsAt place s + (place p).toNat :=
  total_update (fun _ p => (place p).toNat) s.pc t p

theorem clientsAt_pos {place : ClientPc -> Bool} {t : thread}
    (h : place (s.pc t) = true) : 0 < clientsAt place s := by
  unfold clientsAt
  rw [total_pos_iff]
  refine ⟨t, ?_⟩
  rw [h]
  exact Nat.one_pos

theorem exists_clientAt {place : ClientPc -> Bool}
    (h : 0 < clientsAt place s) : exists t, place (s.pc t) = true := by
  unfold clientsAt at h
  rcases total_pos_iff.mp h with ⟨t, ht⟩
  refine ⟨t, ?_⟩
  cases hplace : place (s.pc t) with
  | false =>
      rw [hplace] at ht
      cases ht
  | true => rfl

end Numbers

/-!
## Steps of clients
-/

section ClientSteps

variable {fileOf : thread -> file} {s u : State thread file}
variable {t : thread} {p : ClientPc}

theorem tokens_congr [Fintype file]
    (r : Role) (hdone : u.completion = s.completion) :
    tokens u r = tokens s r := by
  unfold tokens
  rw [hdone]

variable [Fintype thread]

theorem clientsAt_congr (place : ClientPc -> Bool) (hpcs : u.pc = s.pc) :
    clientsAt place u = clientsAt place s := by
  unfold clientsAt
  rw [hpcs]

theorem phase_mono {w : WorkerPc file} {gw wd gr gr' st st' : Nat}
    (h : Phase w gw wd gr st) (hgr : gr' ≤ gr) (hst : st' ≤ st) :
    Phase w gw wd gr' st' := by
  cases w <;> simp only [Phase] at h ⊢ <;> omega

theorem eq_waitWriterDone_of_phase [DecidableEq file]
    {w : WorkerPc file} {gw wd gr st : Nat}
    (h : Phase w gw wd gr st) (hpos : 0 < gw) : w = .waitWriterDone := by
  cases w <;> simp only [Phase] at h <;> first | rfl | omega

theorem ungranted_congr {w : WorkerPc file} {gw wd gr st : Nat}
    (h : Phase w gw wd gr st) (hpos : 0 < gr + st) (n m : Nat) :
    ungranted w n = ungranted w m := by
  cases w <;> simp only [Phase] at h <;> first | rfl | omega

theorem issued_eq_role [DecidableEq file]
    (hticketed : Ticketed fileOf s) {req : Request}
    {issued : Role} {rest : List Role} (hpc : s.pc t = .wait req)
    (hdone : s.completion (fileOf t) = issued :: rest) :
    issued = req.role := by
  have hwaits : 0 < engaged fileOf s req.role (fileOf t) := by
    apply engaged_pos
    rw [hpc]
    simp [ClientPc.isEngaged]
  have hheld : 0 < held s issued (fileOf t) := by
    unfold held
    rw [hdone, List.count_cons_self]
    lia
  exact role_eq_of_held hticketed hwaits hheld

variable [Fintype file]

theorem grantedWriters_pos (h : (s.pc t).isWriting = true) :
    0 < grantedWriters s := by
  have hpos := clientsAt_pos h
  unfold grantedWriters
  omega

theorem grantedReaders_pos (h : (s.pc t).isServed = true) :
    0 < grantedReaders s := by
  have hpos := clientsAt_pos h
  unfold grantedReaders
  omega

variable [DecidableEq thread]

theorem numbers_goto (hpcs : u.pc = s.pc) :
    grantedWriters (u.goto t p) + ((s.pc t).isWriting).toNat + tokens s .writer =
        grantedWriters s + (p.isWriting).toNat + tokens u .writer ∧
      grantedReaders (u.goto t p) + ((s.pc t).isServed).toNat + tokens s .reader =
        grantedReaders s + (p.isServed).toNat + tokens u .reader ∧
      staleReaders (u.goto t p) + ((s.pc t).isStale).toNat =
        staleReaders s + (p.isStale).toNat := by
  have hwriting := clientsAt_goto ClientPc.isWriting u t p
  have hserved := clientsAt_goto ClientPc.isServed u t p
  have hstale := clientsAt_goto ClientPc.isStale u t p
  rw [hpcs, clientsAt_congr _ hpcs] at hwriting hserved hstale
  have hwriters : tokens (u.goto t p) .writer = tokens u .writer := rfl
  have hreaders : tokens (u.goto t p) .reader = tokens u .reader := rfl
  unfold grantedWriters grantedReaders staleReaders
  lia

theorem numbers_quiet (hpcs : u.pc = s.pc) (hdone : u.completion = s.completion)
    (hgrant : ClientPc.SameGrant (s.pc t) p) :
    grantedWriters (u.goto t p) = grantedWriters s ∧
      grantedReaders (u.goto t p) = grantedReaders s ∧
      staleReaders (u.goto t p) = staleReaders s := by
  rcases numbers_goto (t := t) (p := p) hpcs with ⟨hgw, hgr, hst⟩
  rw [hgrant.writing, tokens_congr _ hdone] at hgw
  rw [hgrant.served, tokens_congr _ hdone] at hgr
  rw [hgrant.stale] at hst
  lia

theorem numbers_leave (hpcs : u.pc = s.pc) (hdone : u.completion = s.completion)
    (hwriting : (s.pc t).isWriting = true) :
    grantedWriters (u.goto t .user) + 1 = grantedWriters s ∧
      grantedReaders (u.goto t .user) = grantedReaders s ∧
      staleReaders (u.goto t .user) = staleReaders s := by
  have hreads : (s.pc t).isServed = false ∧ (s.pc t).isStale = false := by
    cases hp : s.pc t <;> rw [hp] at hwriting <;>
      first | exact ⟨rfl, rfl⟩ | cases hwriting
  rcases numbers_goto (t := t) (p := .user) hpcs with ⟨hgw, hgr, hst⟩
  rw [hwriting, tokens_congr _ hdone] at hgw
  rw [hreads.left, tokens_congr _ hdone] at hgr
  rw [hreads.right] at hst
  simp only [ClientPc.isWriting, Bool.toNat_true, Bool.toNat_false] at hgw
  simp only [ClientPc.isServed, Bool.toNat_false] at hgr
  simp only [ClientPc.isStale, Bool.toNat_false] at hst
  lia

theorem numbers_signal (hpcs : u.pc = s.pc)
    (hdone : u.completion = s.completion) (hpc : s.pc t = .signal) :
    grantedWriters (u.goto t (.decLoad true)) = grantedWriters s ∧
      grantedReaders (u.goto t (.decLoad true)) + 1 = grantedReaders s ∧
      staleReaders (u.goto t (.decLoad true)) = staleReaders s + 1 := by
  rcases numbers_goto (t := t) (p := .decLoad true) hpcs with ⟨hgw, hgr, hst⟩
  rw [hpc, tokens_congr _ hdone] at hgw hgr
  rw [hpc] at hst
  simp only [ClientPc.isWriting, Bool.toNat_false] at hgw
  simp only [ClientPc.isServed, Bool.toNat_true, Bool.not_true,
    Bool.toNat_false] at hgr
  simp only [ClientPc.isStale, Bool.toNat_true, Bool.toNat_false] at hst
  lia

theorem numbers_decStore {last : Bool} {loaded : Nat} (hpcs : u.pc = s.pc)
    (hdone : u.completion = s.completion)
    (hpc : s.pc t = .decStore last loaded) :
    grantedWriters (u.goto t .upCs) = grantedWriters s ∧
      grantedReaders (u.goto t .upCs) + (!last).toNat = grantedReaders s ∧
      staleReaders (u.goto t .upCs) + last.toNat = staleReaders s := by
  rcases numbers_goto (t := t) (p := .upCs) hpcs with ⟨hgw, hgr, hst⟩
  rw [hpc, tokens_congr _ hdone] at hgw hgr
  rw [hpc] at hst
  simp only [ClientPc.isWriting, Bool.toNat_false] at hgw
  simp only [ClientPc.isServed, Bool.toNat_false] at hgr
  simp only [ClientPc.isStale, Bool.toNat_false] at hst
  lia

/-- The rule for client steps: the other clients stay where they are, so what
they have loaded and tested only has to survive the new amount owed. -/
theorem batched_goto (h : Batched s) (hpcs : u.pc = s.pc)
    (hphase : Phase u.worker (grantedWriters (u.goto t p)) u.g.workerDone
      (grantedReaders (u.goto t p)) (staleReaders (u.goto t p)))
    (howed : owed (u.goto t p) ≤ owed s)
    (hcounter : owed (u.goto t p) ≤ u.g.nReadersToBeService)
    (hcounterLe : u.g.nReadersToBeService ≤ qDefaultSize)
    (hloaded : forall last n, p = .decStore last n ->
      owed (u.goto t p) ≤ n ∧ n ≤ qDefaultSize)
    (hlast : (p.isLast || p.isStale) = true -> owed (u.goto t p) ≤ 1) :
    Batched (u.goto t p) where
  phase := hphase
  counter := hcounter
  counter_le := hcounterLe
  loaded := by
    intro t' last n hpc
    change Function.update u.pc t p t' = _ at hpc
    by_cases ht : t' = t
    · rw [ht, Function.update_self] at hpc
      exact hloaded last n hpc
    · rw [Function.update_of_ne ht, hpcs] at hpc
      have hold := h.loaded t' last n hpc
      lia
  last := by
    intro t' hplace
    change ((Function.update u.pc t p t').isLast ||
      (Function.update u.pc t p t').isStale) = true at hplace
    by_cases ht : t' = t
    · rw [ht, Function.update_self] at hplace
      exact hlast hplace
    · rw [Function.update_of_ne ht, hpcs] at hplace
      have hold := h.last t' hplace
      lia

theorem owed_goto (hworker : u.worker = s.worker)
    (hn : u.g.nReadersToBeService = s.g.nReadersToBeService) :
    owed (u.goto t p) =
      grantedReaders (u.goto t p) + staleReaders (u.goto t p) +
        ungranted s.worker s.g.nReadersToBeService := by
  rw [← hworker, ← hn]
  rfl

theorem owed_goto_eq (hworker : u.worker = s.worker)
    (hn : u.g.nReadersToBeService = s.g.nReadersToBeService)
    (hgr : grantedReaders (u.goto t p) = grantedReaders s)
    (hst : staleReaders (u.goto t p) = staleReaders s) :
    owed (u.goto t p) = owed s := by
  rw [owed_goto hworker hn, hgr, hst]
  rfl

theorem batched_quiet (h : Batched s) (hpcs : u.pc = s.pc)
    (hsignals : u.signals = s.signals)
    (hgrant : ClientPc.SameGrant (s.pc t) p)
    (hloaded : forall last n, p = .decStore last n ->
      n = s.g.nReadersToBeService)
    (hlast : p.isLast = true ->
      (s.pc t).isLast = true ∨ s.g.nReadersToBeService = 1) :
    Batched (u.goto t p) := by
  simp only [State.signals, Signals.mk.injEq] at hsignals
  rcases hsignals with ⟨hworker, hdone, hwd, hn⟩
  have hcounter := h.counter
  rcases numbers_quiet hpcs hdone hgrant with ⟨hgw', hgr', hst'⟩
  have howed := owed_goto_eq hworker hn hgr' hst'
  apply batched_goto h hpcs
  · rw [hgw', hgr', hst', hworker, hwd]
    exact h.phase
  · lia
  · rw [howed, hn]
    exact hcounter
  · rw [hn]
    exact h.counter_le
  · intro last n hp
    rw [howed, hloaded last n hp]
    exact ⟨hcounter, h.counter_le⟩
  · intro hplace
    rw [howed]
    rcases Bool.or_eq_true_iff.mp hplace with hp | hp
    · rcases hlast hp with hold | hone
      · exact h.last t (Bool.or_eq_true_iff.mpr (Or.inl hold))
      · lia
    · rw [hgrant.stale] at hp
      exact h.last t (Bool.or_eq_true_iff.mpr (Or.inr hp))

theorem batched_signal (h : Batched s) (hpcs : u.pc = s.pc)
    (hsignals : u.signals = { s.signals with workerDone := s.g.workerDone + 1 })
    (hpc : s.pc t = .signal) : Batched (u.goto t (.decLoad true)) := by
  simp only [State.signals, Signals.mk.injEq] at hsignals
  rcases hsignals with ⟨hworker, hdone, hwd, hn⟩
  have hserved : 0 < grantedReaders s :=
    grantedReaders_pos (t := t) (by rw [hpc]; rfl)
  have hone : owed s ≤ 1 := h.last t (by rw [hpc]; rfl)
  rcases numbers_signal hpcs hdone hpc with ⟨hgw, hgr, hst⟩
  have howed : owed (u.goto t (.decLoad true)) = owed s := by
    rw [owed_goto hworker hn]
    unfold owed
    omega
  apply batched_goto h hpcs
  · have hphase := h.phase
    unfold owed at hone
    rw [hworker, hwd]
    cases hw : s.worker <;> rw [hw] at hphase hone <;>
      simp only [Phase, ungranted] at hphase hone ⊢ <;> omega
  · omega
  · rw [howed, hn]
    exact h.counter
  · rw [hn]
    exact h.counter_le
  · intro last n hp
    cases hp
  · intro _
    rw [howed]
    exact hone

theorem owed_decStore {last : Bool} {loaded : Nat} (h : Batched s)
    (hpc : s.pc t = .decStore last loaded) (hpcs : u.pc = s.pc)
    (hworker : u.worker = s.worker) (hdone : u.completion = s.completion) :
    owed (u.goto t .upCs) + 1 = owed s := by
  rcases numbers_decStore hpcs hdone hpc with ⟨_, hgr, hst⟩
  have hsum : grantedReaders (u.goto t .upCs) + staleReaders (u.goto t .upCs) +
      1 = grantedReaders s + staleReaders s := by
    cases last <;>
      simp only [Bool.not_true, Bool.not_false, Bool.toNat_true,
        Bool.toNat_false] at hgr hst <;> lia
  have hsame := ungranted_congr h.phase (by lia) u.g.nReadersToBeService
    s.g.nReadersToBeService
  show grantedReaders (u.goto t .upCs) + staleReaders (u.goto t .upCs) +
    ungranted u.worker u.g.nReadersToBeService + 1 =
      grantedReaders s + staleReaders s +
        ungranted s.worker s.g.nReadersToBeService
  rw [hworker, hsame]
  lia

theorem batched_decStore {last : Bool} {loaded : Nat} (h : Batched s)
    (hpc : s.pc t = .decStore last loaded) (hpcs : u.pc = s.pc)
    (hsignals : u.signals = { s.signals with
      nReadersToBeService := Globals.decrement32 loaded }) :
    Batched (u.goto t .upCs) := by
  simp only [State.signals, Signals.mk.injEq] at hsignals
  rcases hsignals with ⟨hworker, hdone, hwd, hn⟩
  have hloaded := h.loaded t last loaded hpc
  have howed := owed_decStore h hpc hpcs hworker hdone
  rcases numbers_decStore hpcs hdone hpc with ⟨hgw, hgr, hst⟩
  have hstored : u.g.nReadersToBeService = loaded - 1 := by
    rw [hn]
    apply Globals.decrement32_of_pos
    omega
  apply batched_goto h hpcs
  · rw [hworker, hwd, hgw]
    exact phase_mono h.phase (by omega) (by omega)
  · omega
  · omega
  · omega
  · intro last n hp
    cases hp
  · intro hplace
    cases hplace

theorem sameGrant_afterApply (op : WriterOp) :
    ClientPc.SameGrant (.apply op) (afterApply op) := by
  cases op <;> exact ⟨rfl, rfl, rfl⟩

theorem batched_apply {op : WriterOp} (h : Batched s) (hpcs : u.pc = s.pc)
    (hsignals : u.signals = s.signals) (hpc : s.pc t = .apply op) :
    Batched (u.goto t (afterApply op)) := by
  refine batched_quiet h hpcs hsignals ?_ ?_ ?_
  · rw [hpc]
    exact sameGrant_afterApply op
  · intro last n hp
    cases op <;> cases hp
  · intro hp
    cases op <;> cases hp

theorem batched_enq {req : Request} (h : Batched s) (hpcs : u.pc = s.pc)
    (hsignals : u.signals = s.signals) (hpc : s.pc t = .enq req) :
    Batched (u.goto t (.unlockQ req)) := by
  refine batched_quiet h hpcs hsignals ?_ ?_ ?_
  · rw [hpc]
    exact ⟨rfl, rfl, rfl⟩
  · intro last n hp
    cases hp
  · intro hp
    cases hp

variable [DecidableEq file]

theorem toNat_isWriting_afterWait (req : Request) :
    ((afterWait req).isWriting).toNat = if .writer = req.role then 1 else 0 := by
  rcases req with op | _
  · cases op <;> rfl
  · rfl

theorem toNat_isServed_afterWait (req : Request) :
    ((afterWait req).isServed).toNat = if .reader = req.role then 1 else 0 := by
  rcases req with op | _
  · cases op <;> rfl
  · rfl

theorem isStale_afterWait (req : Request) :
    (afterWait req).isStale = false := by
  rcases req with op | _
  · cases op <;> rfl
  · rfl

theorem numbers_wait {req : Request} {rest : List Role} (hpcs : u.pc = s.pc)
    (hpc : s.pc t = .wait req)
    (hdone : s.completion (fileOf t) = req.role :: rest)
    (hnext : u.completion = Function.update s.completion (fileOf t) rest) :
    grantedWriters (u.goto t (afterWait req)) = grantedWriters s ∧
      grantedReaders (u.goto t (afterWait req)) = grantedReaders s ∧
      staleReaders (u.goto t (afterWait req)) = staleReaders s := by
  have hwriter := tokens_wait hdone .writer hnext
  have hreader := tokens_wait hdone .reader hnext
  rcases numbers_goto (t := t) (p := afterWait req) hpcs with ⟨hgw, hgr, hst⟩
  rw [hpc, toNat_isWriting_afterWait] at hgw
  rw [hpc, toNat_isServed_afterWait] at hgr
  rw [hpc, isStale_afterWait] at hst
  simp only [ClientPc.isWriting, Bool.toNat_false] at hgw
  simp only [ClientPc.isServed, Bool.toNat_false] at hgr
  simp only [ClientPc.isStale, Bool.toNat_false] at hst
  refine ⟨?_, ?_, ?_⟩ <;> omega

theorem batched_leave {done : Nat} (h : Batched s) (hpcs : u.pc = s.pc)
    (hsignals : u.signals =
      { s.signals with workerDone := s.g.workerDone + done })
    (hle : done ≤ 1) (hwriting : (s.pc t).isWriting = true) :
    Batched (u.goto t .user) := by
  simp only [State.signals, Signals.mk.injEq] at hsignals
  rcases hsignals with ⟨hworker, hdone, hwd, hn⟩
  have hwait := eq_waitWriterDone_of_phase h.phase (grantedWriters_pos hwriting)
  rcases numbers_leave hpcs hdone hwriting with ⟨hgw', hgr', hst'⟩
  have howed := owed_goto_eq hworker hn hgr' hst'
  have hphase := h.phase
  rw [hwait] at hphase
  rcases hphase with ⟨hone, hnone⟩
  apply batched_goto h hpcs
  · rw [hworker, hwait, hwd]
    constructor <;> omega
  · omega
  · rw [howed, hn]
    exact h.counter
  · rw [hn]
    exact h.counter_le
  · intro last n hp
    cases hp
  · intro hplace
    cases hplace

theorem batched_wait {req : Request} {rest : List Role} (h : Batched s)
    (hpcs : u.pc = s.pc)
    (hsignals : u.signals = { s.signals with
      completion := Function.update s.completion (fileOf t) rest })
    (hpc : s.pc t = .wait req)
    (hdone : s.completion (fileOf t) = req.role :: rest) :
    Batched (u.goto t (afterWait req)) := by
  simp only [State.signals, Signals.mk.injEq] at hsignals
  rcases hsignals with ⟨hworker, hnext, hwd, hn⟩
  rcases numbers_wait hpcs hpc hdone hnext with ⟨hgw', hgr', hst'⟩
  have howed := owed_goto_eq hworker hn hgr' hst'
  apply batched_goto h hpcs
  · rw [hgw', hgr', hst', hworker, hwd]
    exact h.phase
  · omega
  · rw [howed, hn]
    exact h.counter
  · rw [hn]
    exact h.counter_le
  · intro last n hp
    rcases req with op | _
    · cases op <;> cases hp
    · cases hp
  · intro hplace
    rcases req with op | _
    · cases op <;> cases hplace
    · cases hplace

end ClientSteps

/-!
## Steps of the worker
-/

section WorkerSteps

variable [Fintype thread]
variable {fileOf : thread -> file} {s u : State thread file}
variable {allocOk : Bool}

theorem WorkerEdge.phase {n : Nat} {w w' : WorkerPc file}
    (h : WorkerEdge n w w') {gw wd gr st : Nat} (hphase : Phase w gw wd gr st) :
    Phase w' gw wd gr st := by
  cases h <;> simp only [Phase] at hphase ⊢ <;> omega

theorem WorkerEdge.ungranted_le {n : Nat} {w w' : WorkerPc file}
    (h : WorkerEdge n w w') : ungranted w' n ≤ ungranted w n := by
  cases h <;> simp [ungranted]

theorem staleReaders_eq_zero (hclean : forall t, (s.pc t).isStale = false) :
    staleReaders s = 0 := by
  by_contra hsome
  rcases exists_clientAt (Nat.pos_of_ne_zero hsome) with ⟨t, ht⟩
  rw [hclean t] at ht
  cases ht

variable [Fintype file]

theorem isServed_or_isStale_of_isStoring {p : ClientPc} {last : Bool} {n : Nat}
    (hp : p = .decStore last n) : (p.isServed || p.isStale) = true := by
  rw [hp]
  cases last <;> rfl

theorem isServed_or_isStale_of_isLast {p : ClientPc}
    (hp : (p.isLast || p.isStale) = true) :
    (p.isServed || p.isStale) = true := by
  cases p <;> simp_all [ClientPc.isLast, ClientPc.isServed]

theorem readers_pos {t : thread}
    (h : ((s.pc t).isServed || (s.pc t).isStale) = true) :
    0 < grantedReaders s + staleReaders s := by
  rcases Bool.or_eq_true_iff.mp h with hserved | hstale
  · have hpos := grantedReaders_pos hserved
    lia
  · have hpos : 0 < staleReaders s := clientsAt_pos hstale
    lia

theorem batched_worker (h : Batched s) (hpcs : u.pc = s.pc)
    (hphase : Phase u.worker (grantedWriters u) u.g.workerDone
      (grantedReaders u) (staleReaders u))
    (hcounter : owed u ≤ u.g.nReadersToBeService)
    (hcounterLe : u.g.nReadersToBeService ≤ qDefaultSize)
    (howed : 0 < grantedReaders s + staleReaders s -> owed u ≤ owed s) :
    Batched u where
  phase := hphase
  counter := hcounter
  counter_le := hcounterLe
  loaded := by
    intro t last n hpc
    rw [hpcs] at hpc
    have hold := h.loaded t last n hpc
    have hpos := readers_pos (isServed_or_isStale_of_isStoring hpc)
    have hle := howed hpos
    lia
  last := by
    intro t hplace
    rw [hpcs] at hplace
    have hold := h.last t hplace
    have hpos := readers_pos (isServed_or_isStale_of_isLast hplace)
    have hle := howed hpos
    lia

theorem numbers_worker (hpcs : u.pc = s.pc)
    (hdone : u.completion = s.completion) :
    grantedWriters u = grantedWriters s ∧
      grantedReaders u = grantedReaders s ∧
      staleReaders u = staleReaders s := by
  unfold grantedWriters grantedReaders staleReaders
  rw [tokens_congr _ hdone, tokens_congr _ hdone, clientsAt_congr _ hpcs,
    clientsAt_congr _ hpcs, clientsAt_congr _ hpcs]
  exact ⟨rfl, rfl, rfl⟩

theorem batched_moveOn {w : WorkerPc file} (h : Batched s)
    (hpcs : u.pc = s.pc) (hsignals : u.signals = { s.signals with worker := w })
    (hphase : forall gw wd gr st, Phase s.worker gw wd gr st ->
      Phase w gw wd gr st)
    (hungranted : ungranted w s.g.nReadersToBeService ≤
      ungranted s.worker s.g.nReadersToBeService) : Batched u := by
  simp only [State.signals, Signals.mk.injEq] at hsignals
  rcases hsignals with ⟨hworker, hdone, hwd, hn⟩
  rcases numbers_worker hpcs hdone with ⟨hgw, hgr, hst⟩
  have howed : owed u ≤ owed s := by
    unfold owed
    rw [hgr, hst, hworker, hn]
    lia
  apply batched_worker h hpcs
  · rw [hgw, hgr, hst, hworker, hwd]
    exact hphase _ _ _ _ h.phase
  · rw [hn]
    exact Nat.le_trans howed h.counter
  · rw [hn]
    exact h.counter_le
  · intro _
    exact howed

theorem batched_signalled {w : WorkerPc file} (h : Batched s)
    (hw : s.worker = .waitWriterDone ∧ w = .lockReaderQ ∨
      s.worker = .waitReadersDone ∧ w = .waitWriter)
    (hpos : s.g.workerDone ≠ 0) :
    Batched ({ s with
      g := { s.g with workerDone := s.g.workerDone - 1 }
      worker := w } : State thread file) := by
  have hphase := h.phase
  have hidle : ungranted w s.g.nReadersToBeService = 0 := by
    rcases hw with ⟨_, hto⟩ | ⟨_, hto⟩ <;> rw [hto] <;> rfl
  have howed : grantedReaders s + staleReaders s +
      ungranted w s.g.nReadersToBeService ≤ owed s := by
    unfold owed
    lia
  apply batched_worker h
  · rfl
  · show Phase w (grantedWriters s) (s.g.workerDone - 1) (grantedReaders s)
      (staleReaders s)
    rcases hw with ⟨hfrom, hto⟩ | ⟨hfrom, hto⟩ <;> rw [hfrom] at hphase <;>
      rw [hto] <;> simp only [Phase] at hphase ⊢ <;> lia
  · exact Nat.le_trans howed h.counter
  · exact h.counter_le
  · intro _
    exact howed

theorem batched_countReaders (h : Batched s)
    (hclean : forall t, (s.pc t).isStale = false)
    (hw : s.worker = .countReaders) :
    Batched ({ s with
      g := { s.g with
        nReadersToBeService := (s.g.queue .reader).items.length }
      worker := .unlockReaderQ } : State thread file) := by
  have hnone := staleReaders_eq_zero hclean
  have hphase := h.phase
  rw [hw] at hphase
  rcases hphase with ⟨hgw, hwd, hgr⟩
  apply batched_worker h
  · rfl
  · exact ⟨hgw, hwd, hgr, hnone⟩
  · show grantedReaders s + staleReaders s + _ ≤ _
    rw [hgr, hnone]
    simp [ungranted]
  · exact (s.g.queue .reader).length_le
  · intro hpos
    lia

variable [DecidableEq file]

theorem batched_grant {f : file} {role : Role} {w : WorkerPc file}
    (h : Batched s)
    (hphase : Phase w
      (grantedWriters s + (if .writer = role then 1 else 0)) s.g.workerDone
      (grantedReaders s + (if .reader = role then 1 else 0)) (staleReaders s))
    (hungranted : (if .reader = role then 1 else 0) +
        ungranted w s.g.nReadersToBeService ≤
      ungranted s.worker s.g.nReadersToBeService) :
    Batched ({ s.complete f role with worker := w } : State thread file) := by
  have hwriter := tokens_complete s f role .writer
  have hreader := tokens_complete s f role .reader
  have hgw : grantedWriters ({ s.complete f role with worker := w } :
      State thread file) =
        grantedWriters s + (if .writer = role then 1 else 0) := by
    show tokens (s.complete f role) .writer + clientsAt ClientPc.isWriting s = _
    unfold grantedWriters
    lia
  have hgr : grantedReaders ({ s.complete f role with worker := w } :
      State thread file) =
        grantedReaders s + (if .reader = role then 1 else 0) := by
    show tokens (s.complete f role) .reader + clientsAt ClientPc.isServed s = _
    unfold grantedReaders
    lia
  have howed : owed ({ s.complete f role with worker := w } :
      State thread file) ≤ owed s := by
    unfold owed
    rw [hgr]
    show _ + staleReaders s + ungranted w s.g.nReadersToBeService ≤ _
    lia
  apply batched_worker h
  · rfl
  · rw [hgw, hgr]
    exact hphase
  · exact Nat.le_trans howed h.counter
  · exact h.counter_le
  · intro _
    exact howed

end WorkerSteps

theorem tokens_init [Fintype file] (r : Role) :
    tokens (State.init : State thread file) r = 0 :=
  total_eq_zero_iff.mpr (fun _ => rfl)

theorem clientsAt_init [Fintype thread]
    {place : ClientPc -> Bool} (h : place .user = false) :
    clientsAt place (State.init : State thread file) = 0 := by
  refine total_eq_zero_iff.mpr (fun _ => ?_)
  show (place .user).toNat = 0
  rw [h]
  rfl

theorem grantedReaders_init [Fintype thread] [Fintype file] :
    grantedReaders (State.init : State thread file) = 0 := by
  unfold grantedReaders
  rw [tokens_init, clientsAt_init rfl]

theorem owed_init [Fintype thread] [Fintype file] :
    owed (State.init : State thread file) = 0 := by
  unfold owed staleReaders
  rw [grantedReaders_init, clientsAt_init rfl]
  rfl

theorem batched_init [Fintype thread] [Fintype file] :
    Batched (State.init : State thread file) where
  phase := by
    refine ⟨?_, rfl, grantedReaders_init⟩
    unfold grantedWriters
    rw [tokens_init, clientsAt_init rfl]
  counter := by
    rw [owed_init]
    exact Nat.zero_le _
  counter_le := Nat.zero_le _
  loaded := by
    intro t last n hpc
    cases hpc
  last := by
    intro t hplace
    cases hplace

theorem batched_step [DecidableEq thread] [DecidableEq file] [Fintype thread]
    [Fintype file] {fileOf : thread -> file} {s u : State thread file}
    {a : Action thread} (hticketed : Ticketed fileOf s) (h : Batched s)
    (hclean : CleanCount s a) (hmove : Move fileOf s a u) : Batched u := by
  have hphase := h.phase
  cases effect_of_move hmove with
  | quiet hsignals hbooks hpcs hedge hsection =>
      exact batched_quiet h hpcs hsignals hedge.sameGrant
        (fun _ _ => hedge.loaded) hedge.isLast
  | giveUpGrant hpc =>
      -- the grant is dropped without a hand-back
      exact batched_leave h rfl rfl (Nat.zero_le 1) (by rw [hpc]; rfl)
  | enq hpc => exact batched_enq h rfl rfl hpc
  | wait hpc hdone =>
      have hrole := issued_eq_role hticketed hpc hdone
      rw [hrole] at hdone
      exact batched_wait h rfl rfl hpc hdone
  | apply hpc => exact batched_apply h rfl rfl hpc
  | handBack hpc =>
      exact batched_leave h rfl rfl (Nat.le_refl 1) (by rw [hpc]; rfl)
  | signal hpc => exact batched_signal h rfl rfl hpc
  | decStore hpc => exact batched_decStore h hpc rfl rfl
  | moveOn hsignals hbooks hpcs hcs hedge =>
      exact batched_moveOn h hpcs hsignals (fun _ _ _ _ => hedge.phase)
        hedge.ungranted_le
  | dequeWriter hw hitems =>
      refine batched_moveOn h rfl rfl ?_ ?_
      · intro gw wd gr st hold
        rw [hw] at hold
        exact hold
      · exact Nat.zero_le _
  | dequeGrant hw hitems =>
      refine batched_moveOn h rfl rfl ?_ ?_
      · intro gw wd gr st hold
        rw [hw] at hold
        exact hold
      · rw [hw]
        exact Nat.le_refl _
  | completeWriter hw =>
      rw [hw] at hphase
      rcases hphase with ⟨hgw, hwd, hgr⟩
      apply batched_grant h
      · simp [Phase, hgw, hwd, hgr]
      · simp [ungranted]
  | completeGrant hw hnext =>
      rw [hw] at hphase
      rcases hphase with ⟨hgw, hwd, hst, hi⟩
      apply batched_grant h
      · rcases hnext with ⟨hlt, hnext⟩ | ⟨_, hnext⟩ <;> rw [hnext] <;>
          simp [Phase, hgw, hwd, hst]
        exact hlt
      · rw [hw]
        rcases hnext with ⟨hlt, hnext⟩ | ⟨_, hnext⟩ <;> rw [hnext] <;>
          simp only [ungranted, if_true] <;> lia
  | signalled hw hdone => exact batched_signalled h hw hdone
  | countReaders hw => exact batched_countReaders h (hclean rfl hw) hw

theorem ticketed_and_batched_of_reachable [DecidableEq thread]
    [DecidableEq file] [Fintype thread] [Fintype file] {fileOf : thread -> file}
    {allowed : State thread file -> Action thread -> Prop}
    {s : State thread file}
    (hsep : forall s a, allowed s a -> SeparateRoles fileOf s a)
    (hclean : forall s a, allowed s a -> CleanCount s a)
    (h : Transition.Reachable (step fileOf) allowed State.init s) :
    Ticketed fileOf s ∧ Batched s := by
  refine Transition.reachable_invariant
    (fun s => Ticketed fileOf s ∧ Batched s) ?_ ?_ h
  · exact ⟨ticketed_init, batched_init⟩
  · intro s a u hinv hallowed hstep
    have hmove := move_of_step hstep
    constructor
    · exact ticketed_step hinv.left (hsep s a hallowed) hmove
    · exact batched_step hinv.left hinv.right (hclean s a hallowed) hmove

section Undisturbed

variable [DecidableEq thread] [DecidableEq file] [Fintype thread] [Fintype file]
variable {fileOf : thread -> file} {s : State thread file}
variable {a : Action thread}

/-- Runs without interrupted waits in which the worker counts cleanly. -/
def Undisturbed (s : State thread file) (a : Action thread) : Prop :=
  NoInterrupt s a ∧ CleanCount s a

instance : Decidable (Undisturbed s a) :=
  inferInstanceAs (Decidable (NoInterrupt s a ∧ CleanCount s a))

theorem ticketed_and_batched_of_undisturbed
    (hfile : Function.Injective fileOf)
    (h : Transition.Reachable (step fileOf) Undisturbed State.init s) :
    Ticketed fileOf s ∧ Batched s :=
  ticketed_and_batched_of_reachable
    (fun s a _ => separateRoles_of_injective hfile s a)
    (fun _ _ hallowed => hallowed.right) h

end Undisturbed

end Ioctl
end RIBDriver
