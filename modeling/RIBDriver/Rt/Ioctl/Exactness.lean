import RIBDriver.Rt.Ioctl.Grants

/-!
# The worker grants whom it has counted

`rt_worker_fn` dereferences what `deque` returns before it tests it, and calls
`deque` as often as the counter says that it has set in an earlier section.
Only the worker takes from the queues, so both are safe as long as the counter
is still what the worker has made it when it is read as the argument of
`allow_rt_access_to_readers`.
-/

namespace RIBDriver
namespace Ioctl

variable {thread file : Type _}

/-- The readers stored when the worker last counted them, the results of
`deque` in `allow_rt_access_to_readers` since, and the readers `enqueue` has
accepted since, all oldest first. -/
structure GrantRecord (file : Type _) where
  counted : List file
  taken : List (Option file)
  arrived : List file

namespace GrantRecord

def init : GrantRecord file where
  counted := []
  taken := []
  arrived := []

def worker (r : GrantRecord file) (s : State thread file) : GrantRecord file :=
  match s.worker with
  | .countReaders =>
      { counted := (s.g.queue .reader).items, taken := [], arrived := [] }
  | .dequeGrant _ _ =>
      { r with taken := r.taken ++ [(s.g.queue .reader).taken] }
  | _ => r

def client (fileOf : thread -> file) (r : GrantRecord file)
    (s : State thread file) (t : thread) : GrantRecord file :=
  match s.pc t with
  | .enq .subscribe =>
      if ((s.g.queue .reader).ring.enqueue (some (fileOf t))).2 = 1 then
        { r with arrived := r.arrived ++ [fileOf t] }
      else r
  | _ => r

def after (fileOf : thread -> file) (r : GrantRecord file)
    (s : State thread file) : Action thread -> GrantRecord file
  | .worker _ => r.worker s
  | .client t => r.client fileOf s t
  | _ => r

end GrantRecord

/-- The worker thread never has a `NULL` from `deque` in its hands, and the
readers it grants are those it has counted, oldest first, each once, while the
later ones stay queued. -/
structure GrantsExact (s : State thread file) (r : GrantRecord file) :
    Prop where
  writer : s.worker = .dequeWriter -> (s.g.queue .writer).taken ≠ none
  alive : s.worker ≠ .crashed
  calls : forall i n, s.worker = .dequeGrant i n ->
    n = r.counted.length ∧ i = r.taken.length
  taken : r.taken = (r.counted.take r.taken.length).map some
  stay : (s.g.queue .reader).items =
    r.counted.drop r.taken.length ++ r.arrived
  complete : s.worker = .waitReadersDone ->
    r.taken.length = r.counted.length

namespace ClientPc

def isStoring : ClientPc -> Bool
  | .decStore _ _ => true
  | _ => false

end ClientPc

/-- Between the assignment of `n_readers_to_be_service` and the reading of it
as the argument of `allow_rt_access_to_readers`. -/
def WorkerPc.isCounting : WorkerPc file -> Bool
  | .unlockReaderQ => true
  | .testReaders => true
  | .snapshot => true
  | .loadReaders => true
  | _ => false

/-- No reader stores its decrement of the counter between the worker's
assignment of it and the worker's reading of it. -/
def SettledCount [DecidableEq thread]
    (s : State thread file) (a : Action thread) : Prop :=
  forall t, a.isClient t = true -> (s.pc t).isStoring = true ->
    s.worker.isCounting = false

instance [DecidableEq thread]
    [Fintype thread] (s : State thread file) (a : Action thread) :
    Decidable (SettledCount s a) :=
  inferInstanceAs (Decidable (forall t, a.isClient t = true ->
    (s.pc t).isStoring = true -> s.worker.isCounting = false))

/-!
## The invariant
-/

/-- How far the worker has come with the readers it has counted; `n` is the
counter. -/
def Progress (r : GrantRecord file) (n : Nat) (writers : List file) :
    WorkerPc file -> Prop
  | .lockWriterQ => writers ≠ []
  | .dequeWriter => writers ≠ []
  | .unlockReaderQ => r.taken.length = 0 ∧ n = r.counted.length
  | .testReaders => r.taken.length = 0 ∧ n = r.counted.length
  | .snapshot => r.taken.length = 0 ∧ n = r.counted.length
  | .loadReaders => r.taken.length = 0 ∧ n = r.counted.length
  | .lockGrant i m =>
      m = r.counted.length ∧ i = r.taken.length ∧ i < m
  | .dequeGrant i m =>
      m = r.counted.length ∧ i = r.taken.length ∧ i < m
  | .unlockGrant i m reader =>
      m = r.counted.length ∧ i + 1 = r.taken.length ∧ reader ≠ none
  | .completeGrant i m _ => m = r.counted.length ∧ i + 1 = r.taken.length
  | .waitReadersDone => r.taken.length = r.counted.length
  | .crashed => False
  | _ => True

structure Granting (s : State thread file) (r : GrantRecord file) : Prop where
  taken : r.taken = (r.counted.take r.taken.length).map some
  stay : (s.g.queue .reader).items =
    r.counted.drop r.taken.length ++ r.arrived
  progress : Progress r s.g.nReadersToBeService (s.g.queue .writer).items
    s.worker

section Steps

variable {fileOf : thread -> file} {s u : State thread file}
variable {r : GrantRecord file}

theorem grantsExact_of_granting (h : Granting s r) : GrantsExact s r where
  writer := by
    intro hw
    have hprogress := h.progress
    rw [hw] at hprogress
    rw [KernelQueue.taken_eq_head?]
    intro hnone
    exact hprogress (List.head?_eq_none_iff.mp hnone)
  alive := by
    intro hw
    have hprogress := h.progress
    rw [hw] at hprogress
    exact hprogress
  calls := by
    intro i n hw
    have hprogress := h.progress
    rw [hw] at hprogress
    exact ⟨hprogress.left, hprogress.right.left⟩
  taken := h.taken
  stay := h.stay
  complete := by
    intro hw
    have hprogress := h.progress
    rw [hw] at hprogress
    exact hprogress

theorem progress_counter {n n' : Nat} {writers : List file}
    {w : WorkerPc file} (h : Progress r n writers w)
    (hcounter : w.isCounting = true -> n' = n) : Progress r n' writers w := by
  cases w with
  | unlockReaderQ =>
      rw [hcounter rfl]
      exact h
  | testReaders =>
      rw [hcounter rfl]
      exact h
  | snapshot =>
      rw [hcounter rfl]
      exact h
  | loadReaders =>
      rw [hcounter rfl]
      exact h
  | _ => exact h

theorem progress_writer {n : Nat} {writers : List file} {f : file}
    {w : WorkerPc file} (h : Progress r n writers w) :
    Progress r n (writers ++ [f]) w := by
  cases w with
  | lockWriterQ => exact List.append_ne_nil_of_left_ne_nil h _
  | dequeWriter => exact List.append_ne_nil_of_left_ne_nil h _
  | _ => exact h

theorem progress_arrived {n : Nat} {writers : List file} {f : file}
    {w : WorkerPc file} (h : Progress r n writers w) :
    Progress { r with arrived := r.arrived ++ [f] } n writers w := by
  cases w <;> exact h

theorem granting_client (h : Granting s r)
    (hitems : u.books.items = s.books.items) (hworker : u.worker = s.worker)
    (hcounter : s.worker.isCounting = true ->
      u.g.nReadersToBeService = s.g.nReadersToBeService) : Granting u r where
  taken := h.taken
  stay := (congrFun hitems .reader).trans h.stay
  progress := by
    rw [hworker, show (u.g.queue .writer).items = (s.g.queue .writer).items from
      congrFun hitems .writer]
    exact progress_counter h.progress hcounter

theorem granting_worker (h : Granting s r) {w : WorkerPc file}
    (hitems : u.books.items = s.books.items) (hworker : u.worker = w)
    (hprogress : Progress r u.g.nReadersToBeService (s.g.queue .writer).items w) :
    Granting u r where
  taken := h.taken
  stay := (congrFun hitems .reader).trans h.stay
  progress := by
    rw [hworker, show (u.g.queue .writer).items = (s.g.queue .writer).items from
      congrFun hitems .writer]
    exact hprogress

theorem client_of_ne {t : thread} (hne : s.pc t ≠ .enq .subscribe) :
    r.client fileOf s t = r := by
  unfold GrantRecord.client
  split
  · rename_i hpc
    exact absurd hpc hne
  · rfl

theorem granting_dequeGrant {i m : Nat} (h : Granting s r)
    (hw : s.worker = .dequeGrant i m) :
    Granting
      { s with
        g := s.g.setQueue .reader (s.g.queue .reader).deque
        worker := .unlockGrant i m (s.g.queue .reader).taken }
      { r with taken := r.taken ++ [(s.g.queue .reader).taken] } := by
  have hprogress := h.progress
  rw [hw] at hprogress
  rcases hprogress with ⟨hm, hi, hlt⟩
  have hmore : r.taken.length < r.counted.length := by lia
  have hdrop := List.drop_eq_getElem_cons hmore
  have hitems := h.stay
  rw [hdrop, List.cons_append] at hitems
  have htaken : (s.g.queue .reader).taken =
      some (r.counted[r.taken.length]) := by
    rw [KernelQueue.taken_eq_head?, hitems, List.head?_cons]
  have hreader : ((s.g.setQueue .reader (s.g.queue .reader).deque).queue
      .reader).items = r.counted.drop (r.taken.length + 1) ++ r.arrived := by
    rw [items_setQueue, if_pos rfl, KernelQueue.deque_items, hitems,
      List.tail_cons]
  have hlength : (r.taken ++ [(s.g.queue .reader).taken]).length =
      r.taken.length + 1 := by simp
  refine ⟨?_, ?_, ?_⟩
  · show r.taken ++ [(s.g.queue .reader).taken] =
      (r.counted.take (r.taken ++ [(s.g.queue .reader).taken]).length).map some
    rw [hlength, htaken, List.take_add_one, List.getElem?_eq_getElem hmore,
      List.map_append, ← h.taken]
    rfl
  · show _ = r.counted.drop (r.taken ++ [(s.g.queue .reader).taken]).length ++
      r.arrived
    rw [hlength]
    exact hreader
  · refine ⟨hm, ?_, ?_⟩
    · rw [hlength, hi]
    · rw [htaken]
      exact Option.some_ne_none _

theorem granting_workerSem {role : Role} {n : Nat} {w : WorkerPc file}
    (h : Granting s r)
    (hprogress : Progress r s.g.nReadersToBeService
      (s.g.queue .writer).items w) :
    Granting { s.setQueueSem role n with worker := w } r :=
  granting_worker h
    (congrArg Books.items (books_setQueue (KernelQueue.setSem_items _ _))) rfl
    hprogress

theorem granting_dequeWriter {f : file} (h : Granting s r) :
    Granting
      { s with
        g := s.g.setQueue .writer (s.g.queue .writer).deque
        worker := .unlockWriterQ f } r := by
  refine ⟨h.taken, ?_, trivial⟩
  have hreader : ((s.g.setQueue .writer (s.g.queue .writer).deque).queue
      .reader).items = (s.g.queue .reader).items := by
    rw [items_setQueue, if_neg (by decide)]
  exact hreader.trans h.stay

theorem granting_countReaders :
    Granting
      { s with
        g := { s.g with
          nReadersToBeService := (s.g.queue .reader).items.length }
        worker := .unlockReaderQ }
      { counted := (s.g.queue .reader).items, taken := [], arrived := [] } where
  taken := rfl
  stay := (List.append_nil _).symm
  progress := ⟨rfl, rfl⟩

theorem granting_snapshot {allocOk : Bool} (h : Granting s r)
    (hprogress : Progress r s.g.nReadersToBeService
      (s.g.queue .writer).items .snapshot) :
    Granting
      { s with g := s.g.refreshUpdateVector allocOk, worker := .loadReaders }
      r := by
  unfold Globals.refreshUpdateVector
  split <;> exact granting_worker h rfl rfl hprogress

variable [DecidableEq thread]

theorem granting_enqWriter {t : thread} {op : WriterOp} {p : ClientPc}
    (h : Granting s r) :
    Granting ((enqueueClient fileOf s t (.write op)).goto t p) r := by
  have hreader : (((enqueueClient fileOf s t (.write op)).goto t p).g.queue
      .reader).items = (s.g.queue .reader).items := by
    show ((s.g.setQueue .writer _).queue .reader).items = _
    rw [items_setQueue, if_neg (by decide)]
  have hwriter : (((enqueueClient fileOf s t (.write op)).goto t p).g.queue
      .writer).items = ((s.g.queue .writer).enqueue (fileOf t)).items := by
    show ((s.g.setQueue .writer _).queue .writer).items = _
    rw [items_setQueue, if_pos rfl]
    rfl
  refine ⟨h.taken, hreader.trans h.stay, ?_⟩
  rw [hwriter, KernelQueue.enqueue_items]
  split
  · exact progress_writer h.progress
  · exact h.progress

theorem granting_enqReader {t : thread} {p : ClientPc} (h : Granting s r)
    (hpc : s.pc t = .enq .subscribe) :
    Granting ((enqueueClient fileOf s t .subscribe).goto t p)
      (r.client fileOf s t) := by
  have hwriter : (((enqueueClient fileOf s t .subscribe).goto t p).g.queue
      .writer).items = (s.g.queue .writer).items := by
    show ((s.g.setQueue .reader _).queue .writer).items = _
    rw [items_setQueue, if_neg (by decide)]
  have hreader : (((enqueueClient fileOf s t .subscribe).goto t p).g.queue
      .reader).items = ((s.g.queue .reader).enqueue (fileOf t)).items := by
    show ((s.g.setQueue .reader _).queue .reader).items = _
    rw [items_setQueue, if_pos rfl]
    rfl
  unfold GrantRecord.client
  rw [hpc]
  simp only [KernelQueue.enqueue_eq_one_iff]
  rw [KernelQueue.enqueue_items] at hreader
  by_cases hroom : (s.g.queue .reader).items.length < qDefaultSize
  · rw [if_pos hroom] at hreader ⊢
    refine ⟨h.taken, ?_, ?_⟩
    · rw [hreader, h.stay, List.append_assoc]
    · rw [hwriter]
      exact progress_arrived h.progress
  · rw [if_neg hroom] at hreader ⊢
    refine ⟨h.taken, hreader.trans h.stay, ?_⟩
    rw [hwriter]
    exact h.progress

variable [DecidableEq file]

theorem granting_clientStep {t : thread} (h : Granting s r)
    (hsettled : SettledCount s (.client t))
    (hstep : step fileOf s (.client t) = some u) :
    Granting u (r.client fileOf s t) := by
  by_cases henq : s.pc t = .enq .subscribe
  · have hu : (enqueueClient fileOf s t .subscribe).goto t (.unlockQ .subscribe) =
        u := by
      change clientStep fileOf s t = some u at hstep
      unfold clientStep at hstep
      rw [henq] at hstep
      exact Option.some.inj hstep
    rw [← hu]
    exact granting_enqReader h henq
  · rw [client_of_ne henq]
    have heffect := effect_of_move (move_of_step hstep)
    cases heffect with
    | quiet hsignals hbooks hpcs hedge hsection =>
        exact granting_client h (congrArg Books.items hbooks)
          (congrArg Signals.worker hsignals)
          (fun _ => congrArg Signals.nReadersToBeService hsignals)
    | enq hpc =>
        rename_i req
        cases req with
        | write op => exact granting_enqWriter h
        | subscribe => exact absurd hpc henq
    | wait hpc hdone => exact granting_client h rfl rfl (fun _ => rfl)
    | apply hpc => exact granting_client h rfl rfl (fun _ => rfl)
    | handBack hpc => exact granting_client h rfl rfl (fun _ => rfl)
    | signal hpc => exact granting_client h rfl rfl (fun _ => rfl)
    | decStore hpc =>
        refine granting_client h rfl rfl ?_
        intro hcounting
        have hsettledHere := hsettled t (decide_eq_true rfl) (by rw [hpc]; rfl)
        rw [hsettledHere] at hcounting
        cases hcounting

theorem granting_workerMove {allocOk : Bool} (h : Granting s r)
    (hmove : Move fileOf s (.worker allocOk) u) : Granting u (r.worker s) := by
  have hprogress := h.progress
  unfold GrantRecord.worker
  cases hmove with
  | waitWriter hw hitems =>
      rw [hw]
      exact granting_worker h rfl rfl hitems
  | lockWriterQ hw hsem =>
      rw [hw] at hprogress ⊢
      exact granting_workerSem h hprogress
  | dequeWriterNull hw hitems =>
      rw [hw] at hprogress
      exact absurd hitems hprogress
  | dequeWriter hw hitems =>
      rw [hw]
      exact granting_dequeWriter h
  | unlockWriterQ hw =>
      rw [hw]
      exact granting_workerSem h trivial
  | completeWriter hw =>
      rw [hw]
      exact granting_worker h rfl rfl trivial
  | waitWriterDone hw hdone =>
      rw [hw]
      exact granting_worker h rfl rfl trivial
  | lockReaderQ hw hsem =>
      rw [hw]
      exact granting_workerSem h trivial
  | countReaders hw =>
      rw [hw]
      exact granting_countReaders
  | unlockReaderQ hw =>
      rw [hw] at hprogress ⊢
      exact granting_workerSem h hprogress
  | testNone hw hzero =>
      rw [hw]
      exact granting_worker h rfl rfl trivial
  | testSome hw hzero =>
      rw [hw] at hprogress ⊢
      exact granting_worker h rfl rfl hprogress
  | emptyChangeList hw =>
      rw [hw]
      exact granting_worker h rfl rfl trivial
  | snapshot hw =>
      rw [hw] at hprogress ⊢
      exact granting_snapshot h hprogress
  | loadNone hw hzero =>
      rw [hw] at hprogress ⊢
      refine granting_worker h rfl rfl ?_
      show r.taken.length = r.counted.length
      have htaken := hprogress.left
      have hcounter := hprogress.right
      lia
  | loadSome hw hzero =>
      rw [hw] at hprogress ⊢
      refine granting_worker h rfl rfl ⟨hprogress.right, ?_, ?_⟩
      · exact hprogress.left.symm
      · exact Nat.pos_of_ne_zero hzero
  | lockGrant hw hsem =>
      rw [hw] at hprogress ⊢
      exact granting_workerSem h hprogress
  | dequeGrant hw =>
      rw [← KernelQueue.taken_eq_head?]
      have hnext := granting_dequeGrant h hw
      rw [hw]
      exact hnext
  | unlockGrantNull hw =>
      rw [hw] at hprogress
      exact absurd rfl hprogress.right.right
  | unlockGrant hw =>
      rw [hw] at hprogress ⊢
      exact granting_workerSem h ⟨hprogress.left, hprogress.right.left⟩
  | completeGrantNext hw hlt =>
      rw [hw] at hprogress ⊢
      exact granting_worker h rfl rfl ⟨hprogress.left, hprogress.right, hlt⟩
  | completeGrantLast hw hlt =>
      rename_i i m f
      rw [hw] at hprogress ⊢
      refine granting_worker h rfl rfl ?_
      show r.taken.length = r.counted.length
      have hm := hprogress.left
      have hi := hprogress.right
      have hshort : r.taken.length ≤ r.counted.length := by
        have hlength := congrArg List.length h.taken
        rw [List.length_map, List.length_take] at hlength
        lia
      lia
  | waitReadersDone hw hdone =>
      rw [hw]
      exact granting_worker h rfl rfl trivial

theorem granting_step {a : Action thread} (h : Granting s r)
    (hsettled : SettledCount s a) (hstep : step fileOf s a = some u) :
    Granting u (r.after fileOf s a) := by
  cases a with
  | client t => exact granting_clientStep h hsettled hstep
  | worker allocOk => exact granting_workerMove h (move_of_step hstep)
  | call t req =>
      cases move_of_step hstep with
      | call hpc => exact granting_client h rfl rfl (fun _ => rfl)
  | interrupt t =>
      cases move_of_step hstep with
      | interruptLockQ hpc => exact granting_client h rfl rfl (fun _ => rfl)
      | interruptLockTable hpc => exact granting_client h rfl rfl (fun _ => rfl)
      | interruptDownCs hpc => exact granting_client h rfl rfl (fun _ => rfl)

end Steps

theorem granting_init :
    Granting (State.init : State thread file) GrantRecord.init where
  taken := rfl
  stay := rfl
  progress := trivial

def recordedStep [DecidableEq thread] [DecidableEq file]
    (fileOf : thread -> file) :
    State thread file × GrantRecord file -> Action thread ->
      Option (State thread file × GrantRecord file) :=
  Transition.recording (step fileOf) (GrantRecord.after fileOf)

/-- In every run whose count of readers is settled when it is used, the worker
grants exactly the readers it has counted. -/
theorem grantsExact_of_settledCount [DecidableEq thread] [DecidableEq file]
    {fileOf : thread -> file}
    {s : State thread file} {r : GrantRecord file}
    (h : Transition.Reachable (recordedStep fileOf)
      (fun p a => SettledCount p.1 a) (State.init, GrantRecord.init) (s, r)) :
    GrantsExact s r := by
  apply grantsExact_of_granting
  refine Transition.recorded_invariant Granting granting_init ?_ h
  intro s r a u hgranting hsettled hstep
  exact granting_step hgranting hsettled hstep

theorem grantsExact_three_readers :
    exists (s : State (Fin 4) (Fin 4)) (r : GrantRecord (Fin 4)),
      (s.worker = .waitReadersDone ∧ r.taken = [some 1, some 2] ∧
          r.arrived = [3]) ∧ GrantsExact s r := by
  have hrun : exists p : State (Fin 4) (Fin 4) × GrantRecord (Fin 4),
      Transition.Reachable (recordedStep id) (fun p a => SettledCount p.1 a)
          (State.init, GrantRecord.init) p ∧
        (decide (p.1.worker = .waitReadersDone ∧
          p.2.taken = [some 1, some 2] ∧ p.2.arrived = [3])) = true :=
    Transition.exists_reachable_of_schedule
      (callCreate 0 ++ callSubscribe 1 ++ callSubscribe 2 ++ workerRuns 5 ++
        clientRuns 0 3 ++ workerRuns 7 ++ callSubscribe 3 ++ workerRuns 8) _
      (by decide +kernel)
  rcases hrun with ⟨⟨s, r⟩, hreach, htest⟩
  exact ⟨s, r, of_decide_eq_true htest, grantsExact_of_settledCount hreach⟩

/-- The decrement of reader `1` is late again, as where a writer is granted
beside reader `3`.  Reader `3` then loads the counter at zero and stores the
result after the worker has counted one reader: the worker takes `2 ^ 32 - 1`
readers to be granted, and the second `deque` returns `NULL`. -/
theorem exists_null_granted :
    exists (s : State (Fin 4) (Fin 4)) (r : GrantRecord (Fin 4)),
      Transition.Reachable (recordedStep id) (fun p a => NoInterrupt p.1 a)
          (State.init, GrantRecord.init) (s, r) ∧
        s.worker = .crashed ∧ ¬ GrantsExact s r := by
  have hrun : exists s : State (Fin 4) (Fin 4),
      Transition.Reachable (step id) NoInterrupt State.init s ∧
        (decide (s.worker = .crashed)) = true :=
    Transition.exists_reachable_of_schedule
      (signalledBatch ++ callCreate 0 ++ workerRuns 5 ++ clientRuns 0 3 ++
        callSubscribe 2 ++ callSubscribe 3 ++ workerRuns 15 ++
        clientRuns 1 3 ++ clientRuns 2 6 ++ workerRuns 1 ++
        callCreate 0 ++ workerRuns 5 ++ clientRuns 0 1 ++ clientRuns 3 1 ++
        clientRuns 2 3 ++ clientRuns 3 4 ++ callSubscribe 1 ++
        clientRuns 0 2 ++ workerRuns 3 ++ clientRuns 3 1 ++ workerRuns 11) _
      (by decide +kernel)
  rcases hrun with ⟨s, hreach, htest⟩
  have hcrashed := of_decide_eq_true htest
  rcases Transition.exists_recorded_of_reachable hreach GrantRecord.init with
    ⟨r, hrecorded⟩
  exact ⟨s, r, hrecorded, hcrashed, fun hexact => hexact.alive hcrashed⟩

end Ioctl
end RIBDriver
