import RIBDriver.Rt.Select.Rest

/-!
# The menu's readers and writers

Processes of the test program, each with its own open file: from the menu a
process writes a route, or enters the loop of `poll_rt_mac_table`, which never
ends: `select` on the two devices, then a `read` of each that is in the set.
What the other device does is not said: it is ready when it likes.
-/

namespace RIBDriver
namespace Monitor

open Select (PollCall)

/-- Where a process is.  `rt` and `mac` are the bits `select` has left set. -/
inductive Place where
  | mainMenu
  | write
  | select
  | testRt (rt mac : Bool)
  | read (mac : Bool)
  | testMac (mac : Bool)
deriving DecidableEq

structure State (thread file : Type _) where
  kernel : Select.State thread file
  place : thread -> Place

inductive Action (thread file : Type _) where
  /-- `rt_write` at the menu. -/
  | rtWrite (t : thread) (kmsg : RtUpdate)
  /-- `poll_rt_mac_table` at the menu. -/
  | pollRtMacTable (t : thread)
  /-- The next statement of the loop. -/
  | loop (t : thread)
  /-- A call goes on; `mac` is what `select` finds of the other device. -/
  | call (a : Select.Action thread file) (mac : Bool)
  /-- The other device ends the `select`. -/
  | macReady (t : thread)
  /-- The other device wakes the `select`. -/
  | macWake (t : thread)
deriving DecidableEq

namespace State

variable {thread file : Type _}

def init : State thread file where
  kernel := Select.State.init
  place := fun _ => .mainMenu

variable [DecidableEq thread]

def goto (s : State thread file) (kernel : Select.State thread file)
    (t : thread) (place : Place) : State thread file where
  kernel := kernel
  place := Function.update s.place t place

def macWoken (s : State thread file) (t : thread) : State thread file :=
  { s with
    kernel := { s.kernel with woken := Function.update s.kernel.woken t true } }

end State

/-- Where a process is after a step of its call, which has returned when the
thread is idle; `mac` is what `select` finds of the other device. -/
def placeAfter {file : Type _} (mac : Bool) :
    Place -> Select.Pc file -> Place
  | .write, .idle => .mainMenu
  | .select, .idle => .testRt true mac
  | .read mac, .idle => .testMac mac
  | place, _ => place

def caller {thread file : Type _} : Select.Action thread file -> thread
  | .select t _ _ => t
  | .downCs t _ => t
  | .look t _ => t
  | .pollWait t => t
  | .resume t => t
  | .giveUp t => t
  | .read t _ => t
  | .first t _ => t
  | .copy t => t
  | .last t => t
  | .upRead t => t
  | .write t _ => t
  | .apply t => t
  | .upWrite t => t
  | .wakeUp t => t

section Steps

variable {thread file : Type _} [DecidableEq thread] [DecidableEq file]
variable [Fintype thread] (rtFd : thread -> file)

def loopStep (s : State thread file) (t : thread) :
    Option (State thread file) :=
  match s.place t with
  | .testRt true mac =>
      (Select.step s.kernel (.read t (rtFd t))).map fun k =>
        s.goto k t (.read mac)
  | .testRt false mac => some (s.goto s.kernel t (.testMac mac))
  | .testMac _ =>
      (Select.step s.kernel (.select t (rtFd t) false)).map fun k =>
        s.goto k t .select
  | _ => none

def callStep (s : State thread file) (a : Select.Action thread file)
    (mac : Bool) : Option (State thread file) :=
  if a.isDecision then none
  else
    (Select.step s.kernel a).map fun k =>
      s.goto k (caller a)
        (placeAfter mac (s.place (caller a)) (k.pc (caller a)))

def step (s : State thread file) (a : Action thread file) :
    Option (State thread file) :=
  match a with
  | .rtWrite t kmsg =>
      if s.place t = .mainMenu then
        (Select.step s.kernel (.write t kmsg)).map fun k => s.goto k t .write
      else none
  | .pollRtMacTable t =>
      if s.place t = .mainMenu then
        (Select.step s.kernel (.select t (rtFd t) false)).map fun k =>
          s.goto k t .select
      else none
  | .loop t => loopStep rtFd s t
  | .call a mac => callStep s a mac
  | .macReady t =>
      (Select.step s.kernel (.giveUp t)).map fun k =>
        s.goto k t (.testRt false true)
  | .macWake t =>
      if s.place t = .select then some (s.macWoken t) else none

def Uninterrupted (_ : State thread file) : Action thread file -> Prop
  | .call a _ => a.isInterrupted = false
  | _ => True

instance (s : State thread file) (a : Action thread file) :
    Decidable (Uninterrupted s a) :=
  match a with
  | .call a _ => inferInstanceAs (Decidable (a.isInterrupted = false))
  | .rtWrite _ _ | .pollRtMacTable _ | .loop _ | .macReady _ | .macWake _ =>
      inferInstanceAs (Decidable True)

end Steps

/-!
## The processes and their calls
-/

section Places

variable {thread file : Type _}

inductive InCall (f : file) : Place -> Select.Pc file -> Prop where
  | mainMenu : InCall f .mainMenu .idle
  | testRt {rt mac : Bool} : InCall f (.testRt rt mac) .idle
  | testMac {mac : Bool} : InCall f (.testMac mac) .idle
  | pollLock {first : Bool} : InCall f .select (.pollLock ⟨f, false, first⟩)
  | pollLook {first : Bool} : InCall f .select (.pollLook ⟨f, false, first⟩)
  | pollWait {first black data : Bool} :
      InCall f .select (.pollWait ⟨f, false, first⟩ black data)
  | asleep {first : Bool} : InCall f .select (.asleep ⟨f, false, first⟩)
  | readLock {mac : Bool} : InCall f (.read mac) (.readLock f)
  | readFirst {mac : Bool} : InCall f (.read mac) (.readFirst f)
  | readCopy {mac : Bool} : InCall f (.read mac) (.readCopy f)
  | lastLock {mac : Bool} : InCall f (.read mac) (.lastLock f)
  | readLast {mac : Bool} : InCall f (.read mac) (.readLast f)
  | upRead {mac : Bool} : InCall f (.read mac) .upRead
  | apply {kmsg : RtUpdate} : InCall f .write (.apply kmsg)
  | upWrite : InCall f .write .upWrite
  | wakeUp : InCall f .write .wakeUp

/-- The process has found its file readable and has not begun to read it. -/
def expects : Place -> Select.Pc file -> Bool
  | .testRt true _, _ => true
  | _, .readLock _ => true
  | _, .readFirst _ => true
  | _, _ => false

/-- What the processes do with their files: each call is on the caller's own
file, and who is about to read has been told to. -/
structure Kept (rtFd : thread -> file) (s : State thread file) : Prop where
  inCall : forall t, InCall (rtFd t) (s.place t) (s.kernel.pc t)
  ready : forall t, expects (s.place t) (s.kernel.pc t) = true ->
    s.kernel.ready (rtFd t) = true

theorem file_of_inCall {f g : file} {place : Place} {pc : Select.Pc file}
    (h : InCall f place pc) (hreading : pc.stage.file? = some g) : g = f := by
  cases h with
  | readCopy | lastLock | readLast => exact (Option.some.inj hreading).symm
  | _ => cases hreading

theorem kept_init (rtFd : thread -> file) :
    Kept rtFd (State.init : State thread file) where
  inCall := fun _ => InCall.mainMenu
  ready := by
    intro t h
    cases h

variable [DecidableEq thread] {rtFd : thread -> file} {s v : State thread file}

theorem kept_goto {t : thread} {place : Place} {pc : Select.Pc file}
    (h : Kept rtFd s) (hpc : v.kernel.pc = Function.update s.kernel.pc t pc)
    (hplace : v.place = Function.update s.place t place)
    (hcall : InCall (rtFd t) place pc)
    (hothers : forall u, u ≠ t -> s.kernel.ready (rtFd u) = true ->
      v.kernel.ready (rtFd u) = true)
    (hself : expects place pc = true -> v.kernel.ready (rtFd t) = true) :
    Kept rtFd v where
  inCall := by
    intro u
    rw [hpc, hplace]
    by_cases hu : u = t
    · rw [hu, Function.update_self, Function.update_self]
      exact hcall
    · rw [Function.update_of_ne hu, Function.update_of_ne hu]
      exact h.inCall u
  ready := by
    intro u
    rw [hpc, hplace]
    by_cases hu : u = t
    · rw [hu, Function.update_self, Function.update_self]
      exact hself
    · rw [Function.update_of_ne hu, Function.update_of_ne hu]
      exact fun hexpects => hothers u hu (h.ready u hexpects)

theorem kept_of_quiet {t : thread} {place : Place} {pc : Select.Pc file}
    (h : Kept rtFd s) (hpc : v.kernel.pc = Function.update s.kernel.pc t pc)
    (hplace : v.place = Function.update s.place t place)
    (hcall : InCall (rtFd t) place pc)
    (hready : v.kernel.ready = s.kernel.ready)
    (hself : expects place pc = true ->
      expects (s.place t) (s.kernel.pc t) = true) : Kept rtFd v := by
  refine kept_goto h hpc hplace hcall ?_ ?_
  · intro u _ hu
    rw [hready]
    exact hu
  · intro hexpects
    rw [hready]
    exact h.ready t (hself hexpects)

end Places

section Calls

variable {thread file : Type _}
variable {rtFd : thread -> file} {s v : State thread file}

theorem not_reading_of_polls (hown : Function.Injective rtFd)
    (h : Kept rtFd s) {t : thread}
    (hpoll : (s.kernel.pc t).stage.file? = none) :
    ¬ s.kernel.Reading (rtFd t) := by
  intro hreading
  rcases hreading with ⟨u, hu⟩
  have hsame : rtFd t = rtFd u := file_of_inCall (h.inCall u) hu
  rw [← hown hsame, hpoll] at hu
  cases hu

variable [DecidableEq thread]

theorem kept_call_of_quiet {t : thread} {pc next : Select.Pc file} {mac : Bool}
    {k : Select.State thread file} (h : Kept rtFd s)
    (hpc : s.kernel.pc t = pc) (hk : k.pc = Function.update s.kernel.pc t next)
    (hready : k.ready = s.kernel.ready)
    (hcall : forall place, InCall (rtFd t) place pc ->
      InCall (rtFd t) (placeAfter mac place next) next ∧
        (expects (placeAfter mac place next) next = true ->
          expects place pc = true)) :
    Kept rtFd (s.goto k t (placeAfter mac (s.place t) (k.pc t))) := by
  have hnext : k.pc t = next := by
    rw [hk]
    exact Function.update_self t next s.kernel.pc
  have hthere := h.inCall t
  rw [hpc] at hthere
  have hparts := hcall (s.place t) hthere
  rw [hnext]
  refine kept_of_quiet h hk rfl hparts.left hready ?_
  rw [hpc]
  exact hparts.right

variable [DecidableEq file]

theorem mask_of_blocking (g : Globals file) (f : file) (black data : Bool) :
    (g.rtPollWait f false black data).2 = 0 := by
  unfold Globals.rtPollWait
  cases black <;> simp only [Bool.not_false, Bool.not_true, if_true,
    Bool.false_eq_true, if_false]
  split
  · rfl
  · split <;> rfl

variable [Fintype thread]

theorem kept_call {a : Select.Action thread file} {mac : Bool}
    (hown : Function.Injective rtFd) (h : Kept rtFd s)
    (hdecision : a.isDecision = false) (hquiet : a.isInterrupted = false)
    {k : Select.State thread file} (hmove : Select.Move s.kernel a k) :
    Kept rtFd (s.goto k (caller a)
      (placeAfter mac (s.place (caller a)) (k.pc (caller a)))) := by
  cases hmove with
  | select | giveUp | read | write => cases hdecision
  | pollInterrupted | firstInterrupted | lastInterrupted => cases hquiet
  | resume hpc | pollDown hpc | lastDown hpc | lookOn hpc | sleep hpc
  | copy hpc | last hpc | upRead hpc | apply hpc | upWrite hpc | wakeUp hpc =>
      refine kept_call_of_quiet h hpc rfl rfl ?_
      intro place hcall
      cases hcall
      exact ⟨by constructor, id⟩
  | firstDown hpc =>
      refine kept_call_of_quiet h hpc rfl rfl ?_
      intro place hcall
      cases hcall
      exact ⟨InCall.readFirst, fun _ => rfl⟩
  | @again t call black data hpc hmask =>
      -- the files are opened without `O_NONBLOCK`
      have hcall := h.inCall t
      rw [hpc] at hcall
      generalize s.place t = place at hcall
      cases hcall
      exact absurd (mask_of_blocking s.kernel.g (rtFd t) black data) hmask
  | @lookReady t call interrupted hpc =>
      have hcall := h.inCall t
      rw [hpc] at hcall
      have hparts : s.place t = .select ∧ call.filep = rtFd t := by
        generalize s.place t = place at hcall
        cases hcall
        exact ⟨rfl, rfl⟩
      have hready : (s.kernel.returnReady t call).ready =
          Function.update s.kernel.ready (rtFd t) true := by
        rw [← hparts.right]
        refine if_neg ?_
        rw [hparts.right]
        exact not_reading_of_polls hown h (by rw [hpc]; rfl)
      have hidle : (s.kernel.returnReady t call).pc t = .idle := by
        show Function.update s.kernel.pc t .idle t = .idle
        exact Function.update_self ..
      show Kept rtFd (s.goto _ t (placeAfter mac (s.place t)
        ((s.kernel.returnReady t call).pc t)))
      rw [hidle, hparts.left]
      refine kept_goto h rfl rfl InCall.testRt ?_ ?_
      · intro u hu htold
        change (s.kernel.returnReady t call).ready (rtFd u) = true
        rw [hready, Function.update_of_ne (hown.ne hu)]
        exact htold
      · intro _
        change (s.kernel.returnReady t call).ready (rtFd t) = true
        rw [hready, Function.update_self]
  | @first t f allocOk hpc =>
      have hcall := h.inCall t
      rw [hpc] at hcall
      have hparts : (exists other, s.place t = .read other) ∧ f = rtFd t := by
        generalize s.place t = place at hcall
        cases hcall
        exact ⟨⟨_, rfl⟩, rfl⟩
      rcases hparts with ⟨⟨other, hplace⟩, hfile⟩
      have hnext : ((s.kernel.readFirst f allocOk).goto t (.readCopy f)).pc t =
          .readCopy f := by
        show Function.update s.kernel.pc t (.readCopy f) t = .readCopy f
        exact Function.update_self ..
      show Kept rtFd (s.goto _ t (placeAfter mac (s.place t) (Select.State.pc
        ((s.kernel.readFirst f allocOk).goto t (.readCopy f)) t)))
      rw [hnext, hplace]
      refine kept_goto h rfl rfl (by rw [hfile]; exact InCall.readCopy) ?_ ?_
      · intro u hu htold
        change Function.update s.kernel.ready f false (rtFd u) = true
        rw [hfile, Function.update_of_ne (hown.ne hu)]
        exact htold
      · intro hexpects
        cases hexpects

end Calls

/-!
## Whole runs
-/

section Runs

variable {thread file : Type _} [DecidableEq file]
variable [Fintype thread] {rtFd : thread -> file} {s v : State thread file}

/-- A step of the program: a call starts, goes on or is ended by the other
device, the loop goes past a device that is not in the set, or the other device
wakes a process. -/
inductive Move [DecidableEq thread]
    (rtFd : thread -> file) (s : State thread file) :
    Action thread file -> State thread file -> Prop where
  | write {t : thread} {kmsg : RtUpdate} {k : Select.State thread file}
      (hplace : s.place t = .mainMenu)
      (hk : Select.step s.kernel (.write t kmsg) = some k) :
      Move rtFd s (.rtWrite t kmsg) (s.goto k t .write)
  | select {a : Action thread file} {t : thread}
      {k : Select.State thread file}
      (hk : Select.step s.kernel (.select t (rtFd t) false) = some k) :
      Move rtFd s a (s.goto k t .select)
  | read {t : thread} {mac : Bool} {k : Select.State thread file}
      (hplace : s.place t = .testRt true mac)
      (hk : Select.step s.kernel (.read t (rtFd t)) = some k) :
      Move rtFd s (.loop t) (s.goto k t (.read mac))
  | skip {t : thread} {mac : Bool} (hplace : s.place t = .testRt false mac) :
      Move rtFd s (.loop t) (s.goto s.kernel t (.testMac mac))
  | call {c : Select.Action thread file} {mac : Bool}
      {k : Select.State thread file} (hdecision : c.isDecision = false)
      (hk : Select.step s.kernel c = some k) :
      Move rtFd s (.call c mac) (s.goto k (caller c)
        (placeAfter mac (s.place (caller c)) (k.pc (caller c))))
  | macReady {t : thread} {k : Select.State thread file}
      (hk : Select.step s.kernel (.giveUp t) = some k) :
      Move rtFd s (.macReady t) (s.goto k t (.testRt false true))
  | macWake {t : thread} : Move rtFd s (.macWake t) (s.macWoken t)

theorem move_of_step [DecidableEq thread] {a : Action thread file}
    (hstep : step rtFd s a = some v) : Move rtFd s a v := by
  cases a with
  | rtWrite t kmsg =>
      simp only [step] at hstep
      split at hstep
      · rename_i hplace
        rcases Option.map_eq_some_iff.mp hstep with ⟨k, hk, hv⟩
        rw [← hv]
        exact Move.write hplace hk
      · cases hstep
  | pollRtMacTable t =>
      simp only [step] at hstep
      split at hstep
      · rcases Option.map_eq_some_iff.mp hstep with ⟨k, hk, hv⟩
        rw [← hv]
        exact Move.select hk
      · cases hstep
  | loop t =>
      change loopStep rtFd s t = some v at hstep
      unfold loopStep at hstep
      split at hstep
      · rename_i mac hplace
        rcases Option.map_eq_some_iff.mp hstep with ⟨k, hk, hv⟩
        rw [← hv]
        exact Move.read hplace hk
      · rename_i mac hplace
        rw [← Option.some.inj hstep]
        exact Move.skip hplace
      · rcases Option.map_eq_some_iff.mp hstep with ⟨k, hk, hv⟩
        rw [← hv]
        exact Move.select hk
      · cases hstep
  | call c mac =>
      change callStep s c mac = some v at hstep
      unfold callStep at hstep
      split at hstep
      · cases hstep
      · rename_i hdecision
        rcases Option.map_eq_some_iff.mp hstep with ⟨k, hk, hv⟩
        rw [← hv]
        exact Move.call (Bool.eq_false_of_not_eq_true hdecision) hk
  | macReady t =>
      rcases Option.map_eq_some_iff.mp hstep with ⟨k, hk, hv⟩
      rw [← hv]
      exact Move.macReady hk
  | macWake t =>
      simp only [step] at hstep
      split at hstep
      · rw [← Option.some.inj hstep]
        exact Move.macWake
      · cases hstep

theorem kept_step [DecidableEq thread]
    {a : Action thread file} (hown : Function.Injective rtFd)
    (h : Kept rtFd s) (hquiet : Uninterrupted s a)
    (hstep : step rtFd s a = some v) : Kept rtFd v := by
  cases move_of_step hstep with
  | write hplace hk =>
      cases Select.move_of_step hk with
      | write hpc =>
          exact kept_of_quiet h rfl rfl InCall.apply rfl (fun hno => by cases hno)
  | select hk =>
      cases Select.move_of_step hk with
      | select hpc =>
          exact kept_of_quiet h rfl rfl InCall.pollLock rfl
            (fun hno => by cases hno)
  | read hplace hk =>
      cases Select.move_of_step hk with
      | read hpc =>
          refine kept_of_quiet h rfl rfl InCall.readLock rfl ?_
          intro _
          rw [hplace]
          rfl
  | skip hplace =>
      rename_i t mac
      refine kept_of_quiet h (Function.update_eq_self t s.kernel.pc).symm rfl ?_
        rfl ?_
      · have hcall := h.inCall t
        rw [hplace] at hcall
        generalize s.kernel.pc t = pc at hcall
        cases hcall
        exact InCall.testMac
      · intro hno
        have hcall := h.inCall t
        rw [hplace] at hcall
        generalize s.kernel.pc t = pc at hcall hno
        cases hcall
        cases hno
  | call hdecision hk =>
      exact kept_call hown h hdecision hquiet (Select.move_of_step hk)
  | macReady hk =>
      cases Select.move_of_step hk with
      | giveUp hpc =>
          exact kept_of_quiet h rfl rfl InCall.testRt rfl (fun hno => by cases hno)
  | macWake => exact ⟨h.inCall, h.ready⟩

theorem disciplined_of_step [DecidableEq thread]
    {a : Action thread file} (h : Kept rtFd s)
    (hquiet : Uninterrupted s a) (hstep : step rtFd s a = some v) :
    (exists woken, v.kernel = { s.kernel with woken := woken }) ∨
      exists c, Select.Disciplined s.kernel c ∧
        Select.step s.kernel c = some v.kernel := by
  cases move_of_step hstep with
  | write hplace hk => exact Or.inr ⟨_, ⟨rfl, rfl⟩, hk⟩
  | select hk => exact Or.inr ⟨_, ⟨rfl, rfl⟩, hk⟩
  | read hplace hk => exact Or.inr ⟨_, ⟨rfl, rfl⟩, hk⟩
  | skip hplace => exact Or.inl ⟨_, rfl⟩
  | @call c mac k hdecision hk =>
      refine Or.inr ⟨c, ⟨hquiet, ?_⟩, hk⟩
      cases c with
      | first t allocOk =>
          cases hpc : s.kernel.pc t with
          | readFirst f =>
              have hcall := h.inCall t
              have hready := h.ready t
              rw [hpc] at hcall hready
              generalize s.place t = place at hcall hready
              cases hcall
              simp only [Select.Action.isReady, hpc]
              exact hready rfl
          | _ => simp only [Select.Action.isReady, hpc]
      | _ => rfl
  | macReady hk => exact Or.inr ⟨_, ⟨rfl, rfl⟩, hk⟩
  | macWake => exact Or.inl ⟨_, rfl⟩

theorem matches_of_woken {k : Select.State thread file}
    {b : Poll.State thread file} (h : Select.Matches k b)
    (woken : thread -> Bool) :
    Select.Matches { k with woken := woken } b := by
  rcases h.shared with ⟨g, n, hshared⟩
  refine ⟨h.pc, h.ready, h.log, g, n, ?_, hshared.readers, hshared.same⟩
  cases hshared.settled with
  | quiet hquiet => exact Select.Settled.quiet hquiet
  | window hpc => exact Select.Settled.window hpc

theorem received_unregistered (log : List (Poll.Event file)) (f : file) :
    Poll.received (log.map Select.unregistered) f = Poll.received log f := by
  unfold Poll.received
  rw [List.flatMap_map]
  congr 1
  funext event
  cases event <;> rfl

theorem tableRecords_rtPollWait (g : Globals file) (f : file)
    (nonblock black data : Bool) :
    (g.rtPollWait f nonblock black data).1.table.tableRecords =
      g.table.tableRecords := by
  unfold Globals.rtPollWait
  cases black with
  | false =>
      cases nonblock with
      | true => rfl
      | false =>
          show (g.table.addRtTableUniquePollReader f).tableRecords = _
          unfold RtTable.addRtTableUniquePollReader
          split <;> rfl
  | true =>
      cases data with
      | true => rfl
      | false =>
          simp only [Bool.not_true, Bool.false_eq_true, if_false]
          split <;> rfl

theorem tableRecords_of_matches {k : Select.State thread file}
    {b : Poll.State thread file} (h : Select.Matches k b) :
    b.g.table.tableRecords = k.g.table.tableRecords := by
  rcases h.shared with ⟨g, n, hshared⟩
  have hg : g.table.tableRecords = k.g.table.tableRecords := by
    cases hshared.settled with
    | quiet hquiet => rfl
    | window hpc => exact tableRecords_rtPollWait ..
  rw [hshared.same]
  exact hg

theorem exists_poll_run [DecidableEq thread] (hown : Function.Injective rtFd)
    (h : Transition.Reachable (step rtFd) Uninterrupted State.init s) :
    exists b : Poll.State thread file,
      Transition.Reachable Poll.step Poll.Disciplined Poll.State.init b ∧
        Select.Matches s.kernel b := by
  have hrelated := Transition.exists_related_of_reachable
    (fun (s : State thread file) (b : Poll.State thread file) =>
      Kept rtFd s ∧ Select.Locked s.kernel ∧ Select.Matches s.kernel b)
    ⟨kept_init rtFd, Select.locked_init, Select.matches_init⟩
    (by
      intro s b a v hrel hquiet hstep
      rcases hrel with ⟨hkept, hlocked, hmatches⟩
      have hnext := kept_step hown hkept hquiet hstep
      rcases disciplined_of_step hkept hquiet hstep with ⟨woken, hk⟩ |
        ⟨c, hdisciplined, hk⟩
      · refine Or.inl ⟨hnext, ?_, ?_⟩
        · rw [hk]
          exact ⟨hlocked.cs, hlocked.writer, hlocked.alone⟩
        · rw [hk]
          exact matches_of_woken hmatches woken
      · have hlockedNext := Select.locked_step hlocked hk
        have hsection := Select.section_of_step hlocked hmatches hk
        cases hc : Select.sectionOf s.kernel c with
        | none =>
            rw [hc] at hsection
            exact Or.inl ⟨hnext, hlockedNext, hsection⟩
        | some d =>
            rw [hc] at hsection
            rcases hsection with ⟨w, hw, hstill⟩
            exact Or.inr ⟨d, w,
              Select.disciplined_section hmatches hdisciplined hc, hw, hnext,
              hlockedNext, hstill⟩) h
  rcases hrelated with ⟨b, hreach, _, _, hmatches⟩
  exact ⟨b, hreach, hmatches⟩

/-- In every run of the program in which no wait is interrupted and each process
has opened its own file, whatever the other device does and wherever a process
is stopped: the driver does what a disciplined run of the protocol does, and
what a process has read is a subsequence of what has been written. -/
theorem monitors_follow_protocol [DecidableEq thread]
    (hown : Function.Injective rtFd)
    (h : Transition.Reachable (step rtFd) Uninterrupted State.init s) :
    (exists b : Poll.State thread file,
      Transition.Reachable Poll.step Poll.Disciplined Poll.State.init b ∧
        Select.Matches s.kernel b) ∧
      forall t, (Poll.received s.kernel.log (rtFd t)).Sublist
        s.kernel.g.table.tableRecords := by
  rcases exists_poll_run hown h with ⟨b, hreach, hmatches⟩
  refine ⟨⟨b, hreach, hmatches⟩, ?_⟩
  intro t
  have hlog : Poll.received s.kernel.log (rtFd t) =
      Poll.received b.log (rtFd t) := by
    rw [← received_unregistered s.kernel.log, ← hmatches.log,
      received_unregistered]
  rw [hlog, ← tableRecords_of_matches hmatches]
  exact (Poll.streamed_of_reachable hreach).received (rtFd t)

theorem monitors_follow_protocol_woken :
    exists s : State (Fin 2) (Fin 2), s.place 0 = .select ∧
      Poll.received s.kernel.log 0 = [
        { opCode := rtRouteAdd, entry := some (Select.updateOf 1).entry,
          src := 0 }] ∧
      (exists b : Poll.State (Fin 2) (Fin 2),
        Transition.Reachable Poll.step Poll.Disciplined Poll.State.init b ∧
          Select.Matches s.kernel b) ∧
        forall t, (Poll.received s.kernel.log t).Sublist
          s.kernel.g.table.tableRecords := by
  have hrun : exists s : State (Fin 2) (Fin 2),
      Transition.Reachable (step (id : Fin 2 -> Fin 2)) Uninterrupted State.init
        s ∧ decide (s.place 0 = .select ∧
          Poll.received s.kernel.log 0 = [
            { opCode := rtRouteAdd, entry := some (Select.updateOf 1).entry,
              src := 0 }]) = true :=
    Transition.exists_reachable_of_schedule
      ([.pollRtMacTable 0, .call (.downCs 0 false) false,
        .call (.look 0 false) false, .call (.pollWait 0) false,
        .macWake 0, .call (.resume 0) false, .call (.downCs 0 false) false,
        .call (.look 0 false) false,
        .rtWrite 1 (Select.updateOf 1), .call (.apply 1) false,
        .call (.upWrite 1) false, .call (.wakeUp 1) false,
        .call (.pollWait 0) false, .call (.resume 0) false,
        .call (.downCs 0 false) false, .call (.look 0 false) true,
        .loop 0, .call (.downCs 0 false) false, .call (.first 0 true) false,
        .call (.copy 0) false, .call (.downCs 0 false) false,
        .call (.last 0) false, .call (.upRead 0) false, .loop 0] :
          List (Action (Fin 2) (Fin 2))) _ (by decide +kernel)
  rcases hrun with ⟨s, hreach, htest⟩
  rcases of_decide_eq_true htest with ⟨hplace, hreceived⟩
  exact ⟨s, hplace, hreceived,
    monitors_follow_protocol Function.injective_id hreach⟩

end Runs

end Monitor
end RIBDriver
