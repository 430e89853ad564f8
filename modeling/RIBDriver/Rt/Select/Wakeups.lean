import RIBDriver.Rt.Select.Moves

/-!
# Who sleeps on news

`rt_poll` looks at the change list before it enters `rt->readerQ`, and `rt_write`
adds its update and wakes the queue without the semaphore of the polls.  A
reader sleeps on an update nobody will wake it for only if the update was
written between the two.
-/

namespace RIBDriver
namespace Select

variable {thread file : Type _}

namespace Pc

/-- The first poll of a `select` has found no data and has not yet entered the
queue. -/
def entersQueue : Pc file -> Bool
  | .pollWait call _ isDataAvailable => call.first && !isDataAvailable
  | _ => false

/-- A write has been made and its `wake_up` has not. -/
def willWake : Pc file -> Bool
  | .upWrite => true
  | .wakeUp => true
  | _ => false

def addsEntry : Pc file -> Bool
  | .apply kmsg => kmsg.opCode = rtRouteAdd
  | _ => false

def call? : Pc file -> Option (PollCall file)
  | .pollLock call => some call
  | .pollLook call => some call
  | .pollWait call _ _ => some call
  | _ => none

end Pc

/-- No entry is written while a thread is about to enter the queue. -/
def Undivided (s : State thread file) (a : Action thread file) : Prop :=
  match a with
  | .apply t =>
      (s.pc t).addsEntry = true -> forall u, (s.pc u).entersQueue = false
  | _ => True

instance [Fintype thread] (s : State thread file) (a : Action thread file) :
    Decidable (Undivided s a) := by
  unfold Undivided
  split <;> infer_instance

def WakesSoon (s : State thread file) : Prop :=
  exists u, (s.pc u).willWake = true

def Told (s : State thread file) (t : thread) : Prop :=
  s.woken t = true ∨ WakesSoon s

instance [Fintype thread] (s : State thread file) : Decidable (WakesSoon s) :=
  inferInstanceAs (Decidable (exists u, (s.pc u).willWake = true))

instance [Fintype thread] (s : State thread file) (t : thread) :
    Decidable (Told s t) :=
  inferInstanceAs (Decidable (_ ∨ _))

structure Looked (s : State thread file) (t : thread) (call : PollCall file)
    (black data : Bool) : Prop where
  black : data = true -> black = true ∧ call.filep ∈ s.black
  first : data = false -> call.first = true -> s.pending = []
  again : data = false -> s.pending ≠ [] -> Told s t
  others : data = false -> s.pending ≠ [] -> forall u other,
    s.pc u = .asleep other -> Told s u

/-- The queue has everyone who sleeps or polls again, and who sleeps on news
for a file that is not blacklisted has been told. -/
structure Heard (s : State thread file) : Prop where
  queued : forall t call, s.pc t = .asleep call -> s.readerQ t = true
  polls : forall t call, (s.pc t).call? = some call -> call.first = false ->
    s.readerQ t = true
  looked : forall t call black data, s.pc t = .pollWait call black data ->
    Looked s t call black data
  told : forall t call, s.pc t = .asleep call -> call.filep ∉ s.black ->
    s.pending ≠ [] -> Told s t

section Steps

variable {s v : State thread file}

theorem heard_init : Heard (State.init : State thread file) where
  queued := by
    intro t call h
    cases h
  polls := by
    intro t call h
    cases h
  looked := by
    intro t call black data h
    cases h
  told := by
    intro t call h
    cases h

variable [DecidableEq thread]

theorem wakesSoon_goto {t : thread} {next : Pc file} (h : WakesSoon s)
    (hpc : v.pc = Function.update s.pc t next)
    (ht : (s.pc t).willWake = false ∨ next.willWake = true) : WakesSoon v := by
  rcases h with ⟨u, hu⟩
  refine ⟨u, ?_⟩
  rw [hpc]
  rcases eq_or_ne u t with hut | hut
  · rw [hut, Function.update_self]
    rw [hut] at hu
    rcases ht with hnot | hnext
    · rw [hnot] at hu
      cases hu
    · exact hnext
  · rw [Function.update_of_ne hut]
    exact hu

theorem pc_of_goto {t u : thread} {next p : Pc file}
    (hpc : v.pc = Function.update s.pc t next) (hu : v.pc u = p) :
    u = t ∧ next = p ∨ u ≠ t ∧ s.pc u = p := by
  rw [hpc] at hu
  rcases eq_or_ne u t with hut | hut
  · rw [hut, Function.update_self] at hu
    exact Or.inl ⟨hut, hu⟩
  · rw [Function.update_of_ne hut] at hu
    exact Or.inr ⟨hut, hu⟩

theorem heard_goto {t : thread} {next : Pc file} (h : Heard s)
    (hpc : v.pc = Function.update s.pc t next)
    (hawake : forall call, next ≠ .asleep call)
    (hout : forall call black data, next ≠ .pollWait call black data)
    (hblack : forall f, f ∈ s.black -> f ∈ v.black)
    (hpending : s.pending = [] -> v.pending = [])
    (hwoken : forall u, u ≠ t -> v.woken u = s.woken u)
    (hqueue : forall u, u ≠ t -> v.readerQ u = s.readerQ u)
    (hcall : forall call, next.call? = some call -> call.first = false ->
      v.readerQ t = true)
    (hwake : (s.pc t).willWake = false ∨ next.willWake = true) : Heard v := by
  have htold : forall u, u ≠ t -> Told s u -> Told v u := by
    intro u hne hu
    rcases hu with hu | hsoon
    · exact Or.inl ((hwoken u hne).trans hu)
    · exact Or.inr (wakesSoon_goto hsoon hpc hwake)
  have hsleeps : forall u call, v.pc u = .asleep call ->
      u ≠ t ∧ s.pc u = .asleep call := by
    intro u call hu
    rcases pc_of_goto hpc hu with ⟨_, hnext⟩ | hother
    · exact absurd hnext (hawake call)
    · exact hother
  constructor
  · intro u call hu
    rcases hsleeps u call hu with ⟨hne, hold⟩
    rw [hqueue u hne]
    exact h.queued u call hold
  · intro u call hu hagain
    rw [hpc] at hu
    rcases eq_or_ne u t with hut | hut
    · rw [hut, Function.update_self] at hu
      rw [hut]
      exact hcall call hu hagain
    · rw [Function.update_of_ne hut] at hu
      rw [hqueue u hut]
      exact h.polls u call hu hagain
  · intro u call black data hu
    rcases pc_of_goto hpc hu with ⟨_, hnext⟩ | ⟨hne, hold⟩
    · exact absurd hnext (hout call black data)
    · have hlooked := h.looked u call black data hold
      constructor
      · intro hdata
        rcases hlooked.black hdata with ⟨hb, hmem⟩
        exact ⟨hb, hblack _ hmem⟩
      · intro hdata hfirst
        exact hpending (hlooked.first hdata hfirst)
      · intro hdata hnews
        exact htold u hne (hlooked.again hdata (mt hpending hnews))
      · intro hdata hnews w other hw
        rcases hsleeps w other hw with ⟨hwne, hwold⟩
        exact htold w hwne (hlooked.others hdata (mt hpending hnews) w other
          hwold)
  · intro u call hu hfresh hnews
    rcases hsleeps u call hu with ⟨hne, hold⟩
    exact htold u hne (h.told u call hold (mt (hblack _) hfresh)
      (mt hpending hnews))

/-!
## The steps that count
-/

theorem heard_add {t : thread} {kmsg : RtUpdate} (h : Heard s)
    (hundivided : forall u, (s.pc u).entersQueue = false) :
    Heard ((s.writeTable kmsg).goto t .upWrite) := by
  let v := (s.writeTable kmsg).goto t .upWrite
  have hvpc : v.pc = Function.update s.pc t .upWrite := rfl
  have hsoon : WakesSoon v := by
    refine ⟨t, ?_⟩
    rw [hvpc, Function.update_self]
    rfl
  constructor
  · intro u call hu
    rcases pc_of_goto hvpc hu with ⟨_, hnext⟩ | ⟨_, hold⟩
    · cases hnext
    · exact h.queued u call hold
  · intro u call hu hagain
    change (Function.update s.pc t .upWrite u).call? = _ at hu
    rcases eq_or_ne u t with hut | hut
    · rw [hut, Function.update_self] at hu
      cases hu
    · rw [Function.update_of_ne hut] at hu
      exact h.polls u call hu hagain
  · intro u call black data hu
    rcases pc_of_goto hvpc hu with ⟨_, hnext⟩ | ⟨_, hold⟩
    · cases hnext
    · have hlooked := h.looked u call black data hold
      constructor
      · exact hlooked.black
      · intro hdata hfirst
        have henters := hundivided u
        rw [hold] at henters
        change (call.first && !data) = false at henters
        rw [hfirst, hdata] at henters
        cases henters
      · exact fun _ _ => Or.inr hsoon
      · exact fun _ _ _ _ _ => Or.inr hsoon
  · intro u call hu hfresh hnews
    exact Or.inr hsoon

theorem heard_apply {t : thread} {kmsg : RtUpdate} (h : Heard s)
    (hpc : s.pc t = .apply kmsg)
    (hundivided : (s.pc t).addsEntry = true ->
      forall u, (s.pc u).entersQueue = false) :
    Heard ((s.writeTable kmsg).goto t .upWrite) := by
  by_cases hadd : kmsg.opCode = rtRouteAdd
  · refine heard_add h (hundivided ?_)
    rw [hpc]
    exact decide_eq_true hadd
  · refine heard_goto h rfl (fun _ hc => by cases hc)
      (fun _ _ _ hc => by cases hc) (fun _ hf => hf) ?_ (fun _ _ => rfl)
      (fun _ _ => rfl) (fun _ hc => by cases hc) (Or.inr rfl)
    intro hnone
    show (s.g.table.applyRtUpdates kmsg).pending = []
    unfold RtTable.applyRtUpdates
    rw [if_neg hadd]
    exact hnone

theorem heard_wakeUp {t : thread} (h : Heard s) :
    Heard (s.wakeAll.goto t .idle) := by
  let v := s.wakeAll.goto t .idle
  have hvpc : v.pc = Function.update s.pc t .idle := rfl
  have hwoken : forall u, s.readerQ u = true -> Told v u := by
    intro u hu
    refine Or.inl ?_
    show (s.woken u || s.readerQ u) = true
    rw [hu, Bool.or_true]
  have hsleeps : forall u call, v.pc u = .asleep call ->
      s.pc u = .asleep call := by
    intro u call hu
    rcases pc_of_goto hvpc hu with ⟨_, hnext⟩ | hother
    · cases hnext
    · exact hother.right
  constructor
  · intro u call hu
    exact h.queued u call (hsleeps u call hu)
  · intro u call hu hagain
    change (Function.update s.pc t .idle u).call? = _ at hu
    rcases eq_or_ne u t with hut | hut
    · rw [hut, Function.update_self] at hu
      cases hu
    · rw [Function.update_of_ne hut] at hu
      exact h.polls u call hu hagain
  · intro u call black data hu
    rcases pc_of_goto hvpc hu with ⟨_, hnext⟩ | ⟨_, hold⟩
    · cases hnext
    · have hlooked := h.looked u call black data hold
      constructor
      · exact hlooked.black
      · exact hlooked.first
      · intro hdata hnews
        cases hfirst : call.first with
        | true => exact absurd (hlooked.first hdata hfirst) hnews
        | false => exact hwoken u (h.polls u call (by rw [hold]; rfl) hfirst)
      · intro _ _ w other hw
        exact hwoken w (h.queued w other (hsleeps w other hw))
  · intro u call hu _ _
    exact hwoken u (h.queued u call (hsleeps u call hu))

variable [DecidableEq file]

theorem heard_lookOn {t : thread} {call : PollCall file} {interrupted : Bool}
    (h : Heard s) (hpc : s.pc t = .pollLook call)
    (hready : (!singlyLlIsValuePresent s.g.blackListedPollReadersList
      call.filep && (interrupted || s.g.table.mutexIsRtUpdated)) = false) :
    Heard (s.goto t (s.lookAt call interrupted)) := by
  let v := s.goto t (s.lookAt call interrupted)
  have hvpc : v.pc = Function.update s.pc t (s.lookAt call interrupted) := rfl
  have htold : forall u, Told s u -> Told v u := by
    intro u hu
    rcases hu with hu | hsoon
    · exact Or.inl hu
    · exact Or.inr (wakesSoon_goto hsoon hvpc (Or.inl (by rw [hpc]; rfl)))
  have hsleeps : forall u other, v.pc u = .asleep other ->
      s.pc u = .asleep other := by
    intro u other hu
    rcases pc_of_goto hvpc hu with ⟨_, hnext⟩ | hother
    · cases hnext
    · exact hother.right
  have hnone : (interrupted || s.g.table.mutexIsRtUpdated) = false ->
      s.pending = [] := by
    intro hdata
    exact (RtTable.mutexIsRtUpdated_eq_false_iff _).mp
      (Bool.or_eq_false_iff.mp hdata).right
  constructor
  · intro u other hu
    exact h.queued u other (hsleeps u other hu)
  · intro u other hu hagain
    change (Function.update s.pc t (s.lookAt call interrupted) u).call? = _
      at hu
    rcases eq_or_ne u t with hut | hut
    · rw [hut, Function.update_self] at hu
      rw [hut]
      refine h.polls t other ?_ hagain
      rw [hpc]
      exact hu
    · rw [Function.update_of_ne hut] at hu
      exact h.polls u other hu hagain
  · intro u other black data hu
    rcases pc_of_goto hvpc hu with ⟨_, hnext⟩ | ⟨_, hold⟩
    · cases hnext
      constructor
      · intro hdata
        rw [hdata, Bool.and_true, Bool.not_eq_false'] at hready
        have hmem : call.filep ∈ s.g.blackListedPollReadersList := by
          simpa [singlyLlIsValuePresent] using hready
        exact ⟨hready, hmem⟩
      · intro hdata _
        exact hnone hdata
      · intro hdata hnews
        exact absurd (hnone hdata) hnews
      · intro hdata hnews
        exact absurd (hnone hdata) hnews
    · have hlooked := h.looked u other black data hold
      constructor
      · exact hlooked.black
      · exact hlooked.first
      · intro hdata hnews
        exact htold u (hlooked.again hdata hnews)
      · intro hdata hnews w sleeper hw
        exact htold w (hlooked.others hdata hnews w sleeper (hsleeps w sleeper
          hw))
  · intro u other hu hfresh hnews
    exact htold u (h.told u other (hsleeps u other hu) hfresh hnews)

theorem pending_rtPollWait (g : Globals file) (f : file)
    (nonblock black data : Bool) :
    (g.rtPollWait f nonblock black data).1.table.pending = g.table.pending := by
  unfold Globals.rtPollWait RtTable.addRtTableUniquePollReader
  split
  · split
    · rfl
    · split <;> rfl
  · split
    · rfl
    · split <;> rfl

theorem heard_endPoll [Fintype thread] {t : thread} {call : PollCall file}
    {black data : Bool} {next : Pc file} (hlocked : Locked s) (h : Heard s)
    (hpc : s.pc t = .pollWait call black data)
    (hvpc : v.pc = Function.update s.pc t next)
    (hnext : next = .asleep call ∨ next = .idle)
    (hg : v.g = (s.endPoll call black data).g) (hwoken : v.woken = s.woken)
    (hqueue : forall u, u ≠ t -> v.readerQ u = s.readerQ u)
    (hself : next = .asleep call -> v.readerQ t = (s.readerQ t || call.first)) :
    Heard v := by
  have hlooked := h.looked t call black data hpc
  have hpending : v.pending = s.pending := by
    show v.g.table.pending = s.g.table.pending
    rw [hg]
    exact pending_rtPollWait s.g call.filep call.nonblock black data
  have hblack : data = true -> v.black = s.black := by
    intro hdata
    show v.g.blackListedPollReadersList = _
    rw [hg, (hlooked.black hdata).left, hdata]
    rfl
  have htold : forall u, Told s u -> Told v u := by
    intro u hu
    rcases hu with hu | hsoon
    · refine Or.inl ?_
      rw [hwoken]
      exact hu
    · exact Or.inr (wakesSoon_goto hsoon hvpc (Or.inl (by rw [hpc]; rfl)))
  have hpolls : call.first = false -> s.readerQ t = true :=
    h.polls t call (by rw [hpc]; rfl)
  constructor
  · intro u other hu
    rcases pc_of_goto hvpc hu with ⟨hut, hsleep⟩ | ⟨hne, hold⟩
    · rcases hnext with hasleep | hidle
      · rw [hut, hself hasleep]
        cases hfirst : call.first with
        | true => exact Bool.or_true _
        | false =>
            rw [hpolls hfirst]
            rfl
      · rw [hidle] at hsleep
        cases hsleep
    · rw [hqueue u hne]
      exact h.queued u other hold
  · intro u other hu hagain
    rw [hvpc] at hu
    rcases eq_or_ne u t with hut | hut
    · rw [hut, Function.update_self] at hu
      rcases hnext with hasleep | hidle
      · rw [hasleep] at hu
        cases hu
      · rw [hidle] at hu
        cases hu
    · rw [Function.update_of_ne hut] at hu
      rw [hqueue u hut]
      exact h.polls u other hu hagain
  · intro u other black' data' hu
    rcases pc_of_goto hvpc hu with ⟨_, hlook⟩ | ⟨hne, hold⟩
    · rcases hnext with hasleep | hidle
      · rw [hasleep] at hlook
        cases hlook
      · rw [hidle] at hlook
        cases hlook
    · exact absurd (eq_of_holds hlocked (by rw [hold]; rfl) (by rw [hpc]; rfl))
        hne
  · intro u other hu hfresh hnews
    rw [hpending] at hnews
    rcases pc_of_goto hvpc hu with ⟨hut, hsleep⟩ | ⟨_, hold⟩
    · have hsame : other = call := by
        rcases hnext with hasleep | hidle
        · rw [hasleep] at hsleep
          cases hsleep
          rfl
        · rw [hidle] at hsleep
          cases hsleep
      rw [hut]
      cases hdata : data with
      | true =>
          rw [hblack hdata, hsame] at hfresh
          exact absurd (hlooked.black hdata).right hfresh
      | false => exact htold t (hlooked.again hdata hnews)
    · cases hdata : data with
      | true =>
          rw [hblack hdata] at hfresh
          exact htold u (h.told u other hold hfresh hnews)
      | false => exact htold u (hlooked.others hdata hnews u other hold)

theorem heard_last {t : thread} {f : file} (h : Heard s)
    (hpc : s.pc t = .readLast f) : Heard ((s.readLast f).goto t .upRead) := by
  refine heard_goto h rfl (fun _ hc => by cases hc) (fun _ _ _ hc => by cases hc)
    ?_ ?_ (fun _ _ => rfl) (fun _ _ => rfl) (fun _ hc => by cases hc)
    (Or.inl (by rw [hpc]; rfl))
  · intro f' hf'
    show f' ∈ (s.g.rtReadLast f).blackListedPollReadersList
    have hgrown : (s.g.rtReadLast f).blackListedPollReadersList =
        f :: s.g.blackListedPollReadersList := by
      unfold Globals.rtReadLast
      dsimp only
      split <;> rfl
    rw [hgrown]
    exact List.mem_cons_of_mem f hf'
  · intro hnone
    show (s.g.rtReadLast f).table.pending = []
    unfold Globals.rtReadLast
    dsimp only
    split
    · rfl
    · exact hnone

theorem heard_first {t : thread} {f : file} {allocOk : Bool} (h : Heard s)
    (hpc : s.pc t = .readFirst f) :
    Heard ((s.readFirst f allocOk).goto t (.readCopy f)) := by
  have hlists : (s.g.rtReadFirst allocOk).table = s.g.table ∧
      (s.g.rtReadFirst allocOk).blackListedPollReadersList =
        s.g.blackListedPollReadersList := by
    rcases s.g.exists_rtReadFirst_eq allocOk with ⟨vector, n, hfirst⟩
    rw [hfirst]
    exact ⟨rfl, rfl⟩
  refine heard_goto h rfl (fun _ hc => by cases hc) (fun _ _ _ hc => by cases hc)
    ?_ ?_ (fun _ _ => rfl) (fun _ _ => rfl) (fun _ hc => by cases hc)
    (Or.inl (by rw [hpc]; rfl))
  · intro f' hf'
    show f' ∈ (s.g.rtReadFirst allocOk).blackListedPollReadersList
    rw [hlists.right]
    exact hf'
  · intro hnone
    show (s.g.rtReadFirst allocOk).table.pending = []
    rw [hlists.left]
    exact hnone

theorem heard_step [Fintype thread] {a : Action thread file}
    (hlocked : Locked s) (h : Heard s) (hallowed : Undivided s a)
    (hstep : step s a = some v) : Heard v := by
  have hsame : forall f, f ∈ s.black -> f ∈ s.black := fun _ hf => hf
  cases move_of_step hstep with
  | @select t f nonblock hpc =>
      refine heard_goto h rfl (fun _ hc => by cases hc)
        (fun _ _ _ hc => by cases hc) hsame id ?_ (fun _ _ => rfl) ?_
        (Or.inl (by rw [hpc]; rfl))
      · exact fun u hne => Function.update_of_ne hne _ _
      · intro call hcall hagain
        cases hcall
        cases hagain
  | @resume t call hpc =>
      refine heard_goto h rfl (fun _ hc => by cases hc)
        (fun _ _ _ hc => by cases hc) hsame id ?_ (fun _ _ => rfl) ?_
        (Or.inl (by rw [hpc]; rfl))
      · exact fun u hne => Function.update_of_ne hne _ _
      · exact fun _ _ _ => h.queued t call hpc
  | giveUp hpc | pollInterrupted hpc | lookReady hpc =>
      exact heard_goto h rfl (fun _ hc => by cases hc)
        (fun _ _ _ hc => by cases hc) hsame id (fun _ _ => rfl)
        (fun u hne => Function.update_of_ne hne _ _) (fun _ hc => by cases hc)
        (Or.inl (by rw [hpc]; rfl))
  | @pollDown t call hpc =>
      refine heard_goto h rfl (fun _ hc => by cases hc)
        (fun _ _ _ hc => by cases hc) hsame id (fun _ _ => rfl)
        (fun _ _ => rfl) ?_ (Or.inl (by rw [hpc]; rfl))
      intro other hcall hagain
      refine h.polls t other ?_ hagain
      rw [hpc]
      exact hcall
  | firstInterrupted hpc | firstDown hpc | lastInterrupted hpc | lastDown hpc
  | read hpc | copy hpc | upRead hpc | write hpc =>
      exact heard_goto h rfl (fun _ hc => by cases hc)
        (fun _ _ _ hc => by cases hc) hsame id (fun _ _ => rfl)
        (fun _ _ => rfl) (fun _ hc => by cases hc) (Or.inl (by rw [hpc]; rfl))
  | upWrite hpc =>
      exact heard_goto h rfl (fun _ hc => by cases hc)
        (fun _ _ _ hc => by cases hc) hsame id (fun _ _ => rfl)
        (fun _ _ => rfl) (fun _ hc => by cases hc) (Or.inr rfl)
  | lookOn hpc _ hready => exact heard_lookOn h hpc hready
  | sleep hpc =>
      exact heard_endPoll hlocked h hpc rfl (Or.inl rfl) rfl rfl
        (fun u hne => Function.update_of_ne hne _ _)
        (fun _ => Function.update_self _ _ _)
  | again hpc =>
      exact heard_endPoll hlocked h hpc rfl (Or.inr rfl) rfl rfl
        (fun u hne => Function.update_of_ne hne _ _)
        (fun hc => by cases hc)
  | first hpc => exact heard_first h hpc
  | last hpc => exact heard_last h hpc
  | apply hpc => exact heard_apply h hpc hallowed
  | wakeUp hpc => exact heard_wakeUp h

end Steps

section Runs

variable [DecidableEq thread] [DecidableEq file]
variable [Fintype thread]

/-- In every run in which no entry is written between the look of a first poll
and its entry into the queue, a thread that sleeps on a file that is not
blacklisted while updates are pending has been woken, or a writer is about to
wake the queue. -/
theorem told_of_undivided {s : State thread file} {t : thread}
    {call : PollCall file}
    (h : Transition.Reachable step Undivided State.init s)
    (hpc : s.pc t = .asleep call) (hfresh : call.filep ∉ s.black)
    (hnews : s.pending ≠ []) : Told s t := by
  have hheard := Transition.reachable_invariant
    (fun s : State thread file => Locked s ∧ Heard s) ⟨locked_init, heard_init⟩
    (by
      intro s a v hboth hallowed hstep
      exact ⟨locked_step hboth.left hstep,
        heard_step hboth.left hboth.right hallowed hstep⟩) h
  exact hheard.right.told t call hpc hfresh hnews

def firstPoll : PollCall (Fin 2) where
  filep := 0
  nonblock := false
  first := true

def writeOnce : List (Action (Fin 2) (Fin 2)) :=
  [.write 1 {
      opCode := rtRouteAdd
      entry :=
        { dstIp := Vector.replicate 16 1
          nxtHopIp := Vector.replicate 16 2
          oif := Vector.replicate 16 3 } },
    .apply 1, .upWrite 1, .wakeUp 1]

theorem told_of_undivided_write :
    exists s : State (Fin 2) (Fin 2), s.pc 1 = .idle ∧ Told s 0 := by
  have hrun : exists s : State (Fin 2) (Fin 2),
      Transition.Reachable step Undivided State.init s ∧
        decide (s.pc 1 = .idle ∧ s.pc 0 = .asleep firstPoll ∧
          firstPoll.filep ∉ s.black ∧ s.pending ≠ []) = true :=
    Transition.exists_reachable_of_schedule
      ([.select 0 0 false, .downCs 0 false, .look 0 false, .pollWait 0] ++
        writeOnce) _ (by decide +kernel)
  rcases hrun with ⟨s, hreach, htest⟩
  rcases of_decide_eq_true htest with ⟨hidle, hpc, hfresh, hnews⟩
  exact ⟨s, hidle, told_of_undivided hreach hpc hfresh hnews⟩

/-- The write comes between the look and the queue: the reader sleeps on it. -/
theorem not_told_of_write_in_poll :
    exists s : State (Fin 2) (Fin 2),
      Transition.Reachable step (fun _ _ => True) State.init s ∧
        decide (s.pc 0 = .asleep firstPoll ∧ firstPoll.filep ∉ s.black ∧
          s.pending ≠ [] ∧ ¬ Told s 0) = true :=
  Transition.exists_reachable_of_schedule
    ([.select 0 0 false, .downCs 0 false, .look 0 false] ++ writeOnce ++
      [.pollWait 0]) _ (by decide +kernel)

end Runs

end Select
end RIBDriver
