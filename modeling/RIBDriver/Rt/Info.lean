import RIBDriver.Rt.Driver

/-!
# Table information during writes

One call of `RT_IOC_GET_RT_INFO` and any number of threads in `rt_write`.  The
call reads the head of the table, takes `rt->rw_sem` for reading and does the
rest under it; a write takes it for writing.
-/

namespace RIBDriver
namespace Info

inductive WritePc where
  | idle
  | downWrite (kmsg : RtUpdate)
  | apply (kmsg : RtUpdate)
  | upWrite
deriving DecidableEq

inductive InfoPc where
  | start
  | downRead (head : Option Nat)
  | locked (head : Option Nat)
  | done (fields : List (InfoField × Option Nat))
deriving DecidableEq

instance (pc : InfoPc) :
    Decidable (exists fields : List (InfoField × Option Nat),
      pc = .done fields) :=
  match pc with
  | .done fields => isTrue ⟨fields, rfl⟩
  | .start => isFalse (by simp)
  | .downRead _ => isFalse (by simp)
  | .locked _ => isFalse (by simp)

structure State (writer file : Type _) where
  g : Globals file
  write : writer -> WritePc
  info : InfoPc

inductive Action (writer : Type _) where
  /-- A thread calls `rt_write`. -/
  | call (t : writer) (kmsg : RtUpdate)
  | write (t : writer)
  | readHead
  | downRead
  | report
deriving DecidableEq

section Steps

variable {writer file : Type _} [DecidableEq writer]

def State.rt (s : State writer file) : List Nat := s.g.table.rt

def start (table : RtTable file) : State writer file where
  g := { Globals.init with table := table }
  write := fun _ => .idle
  info := .start

def State.goto (s : State writer file) (t : writer) (pc : WritePc) :
    State writer file :=
  { s with write := Function.update s.write t pc }

def writeStep (s : State writer file) (t : writer) :
    Option (State writer file) :=
  match s.write t with
  | .idle => none
  | .downWrite kmsg =>
      if s.g.rwSem.readers ≠ 0 ∨ s.g.rwSem.writer = true then none
      else
        some { s.goto t (.apply kmsg) with
          g := { s.g with rwSem := { s.g.rwSem with writer := true } } }
  | .apply kmsg => some { s.goto t .upWrite with g := s.g.rtWrite kmsg }
  | .upWrite =>
      some { s.goto t .idle with
        g := { s.g with rwSem := { s.g.rwSem with writer := false } } }

def infoStep (s : State writer file) : Action writer ->
    Option (State writer file)
  | .readHead =>
      if s.info = .start then some { s with info := .downRead s.rt.head? }
      else none
  | .downRead =>
      match s.info with
      | .downRead head =>
          if s.g.rwSem.writer = true then none
          else
            some { s with
              g := { s.g with
                rwSem := { s.g.rwSem with readers := s.g.rwSem.readers + 1 } }
              info := .locked head }
      | _ => none
  | .report =>
      match s.info with
      | .locked head =>
          some { s with
            g := { s.g with
              rwSem := { s.g.rwSem with readers := s.g.rwSem.readers - 1 } }
            info := .done (s.g.rtInfo head) }
      | _ => none
  | _ => none

def step (s : State writer file) : Action writer ->
    Option (State writer file)
  | .call t kmsg =>
      if s.write t = .idle then some (s.goto t (.downWrite kmsg)) else none
  | .write t => writeStep s t
  | a => infoStep s a

end Steps

/-!
## What is seen of the call
-/

section Seen

variable {writer file : Type _}

def InfoPc.inCall : InfoPc -> Bool
  | .downRead _ => true
  | .locked _ => true
  | _ => false

def InfoPc.isUnlocked : InfoPc -> Bool
  | .downRead _ => true
  | _ => false

def Action.adds (s : State writer file) : Action writer -> Bool
  | .write t =>
      match s.write t with
      | .apply kmsg => kmsg.opCode == rtRouteAdd
      | _ => false
  | _ => false

/-- `held` has the number of entries of the table at each instant of the call,
and `added` counts the entries added between its read of the head and its
acquisition of `rw_sem`. -/
structure Seen where
  held : List Nat
  added : Nat

def Seen.none : Seen where
  held := []
  added := 0

def Seen.after (seen : Seen) (s : State writer file) (a : Action writer) :
    Seen :=
  match a with
  | .readHead => { held := [s.rt.length], added := 0 }
  | _ =>
      { held := if s.info.inCall then s.rt.length :: seen.held else seen.held
        added :=
          if s.info.isUnlocked && a.adds s then seen.added + 1
          else seen.added }

/-- The two counts are reported as one number, that of the entries the table
held at some instant of the call. -/
def Consistent (fields : List (InfoField × Option Nat)) (held : List Nat) :
    Prop :=
  exists n, (.nodeCount, some n) ∈ fields ∧
    (.actualNodeCount, some n) ∈ fields ∧ n ∈ held

end Seen

/-!
## The invariant
-/

def WritePc.holdsLock : WritePc -> Bool
  | .apply _ => true
  | .upWrite => true
  | _ => false

/-- The nodes from `head` on are what the table held when `head` was read;
`added` newer ones are in front of them. -/
structure Behind (rt : List Nat) (head : Option Nat) (added : Nat)
    (news old : List Nat) : Prop where
  split : rt = news ++ old
  head : old.head? = head
  fresh : forall a, a ∈ news -> a ∉ old
  added : news.length = added

section Invariant

variable {writer file : Type _}

def Found (s : State writer file) (seen : Seen) : Prop :=
  match s.info with
  | .start => True
  | .downRead head => exists news old, Behind s.rt head seen.added news old
  | .locked head => exists news old, Behind s.rt head seen.added news old
  | .done fields => Consistent fields seen.held <-> seen.added = 0

structure Inv (s : State writer file) (seen : Seen) : Prop where
  sound : s.g.table.Sound
  writer : forall t, (s.write t).holdsLock = true -> s.g.rwSem.writer = true
  alone : forall t t', (s.write t).holdsLock = true ->
    (s.write t').holdsLock = true -> t = t'
  shared : s.g.rwSem.readers ≠ 0 -> s.g.rwSem.writer = false
  locked : forall head, s.info = .locked head -> s.g.rwSem.readers ≠ 0
  found : Found s seen

end Invariant

section Counts

variable {file : Type _} {g : Globals file} {head : Option Nat}
variable {added : Nat} {news old held : List Nat}

theorem actualNodeCount_behind
    (h : Behind g.table.rt head added news old) :
    Globals.actualNodeCount g.table head = some old.length := by
  have hhead := h.head
  cases old with
  | nil =>
      rw [← hhead]
      rfl
  | cons node rest =>
      rw [← hhead]
      have hmem : node ∈ g.table.rt := by
        rw [h.split]
        exact List.mem_append_right _ List.mem_cons_self
      have hnews : forall a, a ∈ news -> (a != node) = true := by
        intro a ha
        rw [bne_iff_ne]
        intro hsame
        apply h.fresh a ha
        rw [hsame]
        exact List.mem_cons_self
      have hdrop : g.table.rt.dropWhile (· != node) = node :: rest := by
        rw [h.split, List.dropWhile_append_of_pos hnews,
          List.dropWhile_cons_of_neg (by simp)]
      show (if node ∈ g.table.rt then _ else _) = _
      rw [if_pos hmem, hdrop]

theorem consistent_rtInfo_iff (h : Behind g.table.rt head added news old) :
    Consistent (g.rtInfo head) (g.table.rt.length :: held) <-> added = 0 := by
  have hactual := actualNodeCount_behind h
  have hlength : g.table.rt.length = added + old.length := by
    rw [h.split, List.length_append, h.added]
  constructor
  · intro hconsistent
    rcases hconsistent with ⟨n, hcount, hactual', _⟩
    simp only [Globals.rtInfo, getNodeCountSinglyLl, hactual, List.mem_cons,
      Prod.mk.injEq, reduceCtorEq, false_and, true_and, false_or, or_false,
      Option.some.injEq, List.not_mem_nil] at hcount hactual'
    lia
  · intro hzero
    exists g.table.rt.length
    have hsame : old.length = g.table.rt.length := by lia
    rw [hsame] at hactual
    constructor
    · exact List.mem_cons_self
    · constructor
      · rw [Globals.rtInfo, hactual]
        exact List.mem_cons_of_mem _ List.mem_cons_self
      · exact List.mem_cons_self

end Counts

section Preservation

variable {writer file : Type _}
variable {s u : State writer file} {seen seen' : Seen} {t : writer}

theorem found_of_same (h : Found s seen) (hinfo : u.info = s.info)
    (hrt : u.rt = s.rt) (hadded : seen'.added = seen.added)
    (hheld : s.info.inCall = false -> seen'.held = seen.held) :
    Found u seen' := by
  unfold Found at h ⊢
  rw [hinfo, hrt, hadded]
  cases hpc : s.info with
  | start => trivial
  | downRead head =>
      rw [hpc] at h
      exact h
  | locked head =>
      rw [hpc] at h
      exact h
  | done fields =>
      rw [hpc] at h hheld
      show Consistent fields seen'.held <-> _
      rw [hheld rfl]
      exact h

theorem after_eq (seen : Seen) {a : Action writer} (ha : a ≠ .readHead)
    (hadds : a.adds s = false) :
    (seen.after s a).added = seen.added ∧
      (s.info.inCall = false -> (seen.after s a).held = seen.held) := by
  cases a with
  | readHead => exact absurd rfl ha
  | call t kmsg => simp [Seen.after, hadds]
  | write t => simp [Seen.after, hadds]
  | downRead => simp [Seen.after, hadds]
  | report => simp [Seen.after, hadds]

theorem inv_readHead (h : Inv s seen) :
    Inv { s with info := .downRead s.rt.head? } (seen.after s .readHead) where
  sound := h.sound
  writer := h.writer
  alone := h.alone
  shared := h.shared
  locked := by
    intro head hlocked
    cases hlocked
  found := by
    have hbehind : Behind s.rt s.rt.head? 0 [] s.rt :=
      ⟨rfl, rfl, fun _ ha => absurd ha List.not_mem_nil, rfl⟩
    exact ⟨[], s.rt, hbehind⟩

theorem inv_downRead {head : Option Nat} (h : Inv s seen)
    (hinfo : s.info = .downRead head) (hwriter : s.g.rwSem.writer = false) :
    Inv { s with
        g := { s.g with
          rwSem := { s.g.rwSem with readers := s.g.rwSem.readers + 1 } }
        info := .locked head } (seen.after s .downRead) where
  sound := h.sound
  writer := h.writer
  alone := h.alone
  shared := fun _ => hwriter
  locked := fun _ _ => Nat.succ_ne_zero _
  found := by
    have hfound := h.found
    unfold Found at hfound
    rw [hinfo] at hfound
    have hadded := (after_eq seen (s := s) (a := .downRead)
      (by simp) rfl).left
    show exists news old, Behind s.rt head _ news old
    rw [hadded]
    exact hfound

theorem inv_report {head : Option Nat} (h : Inv s seen)
    (hinfo : s.info = .locked head) :
    Inv { s with
        g := { s.g with
          rwSem := { s.g.rwSem with readers := s.g.rwSem.readers - 1 } }
        info := .done (s.g.rtInfo head) } (seen.after s .report) where
  sound := h.sound
  writer := h.writer
  alone := h.alone
  shared := fun _ => h.shared (h.locked head hinfo)
  locked := by
    intro head' hlocked
    cases hlocked
  found := by
    have hfound := h.found
    unfold Found at hfound
    rw [hinfo] at hfound
    rcases hfound with ⟨news, old, hbehind⟩
    have hafter : seen.after s .report =
        { held := s.rt.length :: seen.held, added := seen.added } := by
      simp [Seen.after, hinfo, InfoPc.inCall, InfoPc.isUnlocked]
    show Consistent (s.g.rtInfo head) (seen.after s .report).held <->
      (seen.after s .report).added = 0
    rw [hafter]
    exact consistent_rtInfo_iff hbehind

theorem inv_start {table : RtTable file} (hsound : table.Sound) :
    Inv (start table : State writer file) Seen.none where
  sound := hsound
  writer := by
    intro t ht
    cases ht
  alone := by
    intro t t' ht
    cases ht
  shared := fun _ => rfl
  locked := by
    intro head hlocked
    cases hlocked
  found := trivial

variable [DecidableEq writer]

theorem holdsLock_goto {pc : WritePc} (hpc : pc.holdsLock = false)
    {t' : writer} (h : ((s.goto t pc).write t').holdsLock = true) :
    (s.write t').holdsLock = true := by
  change (Function.update s.write t pc t').holdsLock = true at h
  by_cases ht : t' = t
  · rw [ht, Function.update_self, hpc] at h
    cases h
  · rw [Function.update_of_ne ht] at h
    exact h

theorem inv_call {kmsg : RtUpdate} (h : Inv s seen) :
    Inv (s.goto t (.downWrite kmsg)) (seen.after s (.call t kmsg)) where
  sound := h.sound
  writer := by
    intro t' ht'
    exact h.writer t' (holdsLock_goto rfl ht')
  alone := by
    intro t1 t2 h1 h2
    exact h.alone t1 t2 (holdsLock_goto rfl h1) (holdsLock_goto rfl h2)
  shared := h.shared
  locked := h.locked
  found := by
    rcases after_eq seen (s := s) (a := .call t kmsg) (by simp) rfl
      with ⟨hadded, hheld⟩
    exact found_of_same h.found rfl rfl hadded hheld

theorem holdsLock_other {pc : WritePc} {t' : writer} (ht : t' ≠ t) :
    ((s.goto t pc).write t').holdsLock = (s.write t').holdsLock := by
  show (Function.update s.write t pc t').holdsLock = _
  rw [Function.update_of_ne ht]

theorem inv_downWrite {kmsg : RtUpdate} (h : Inv s seen)
    (hpc : s.write t = .downWrite kmsg) (hreaders : s.g.rwSem.readers = 0)
    (hwriter : s.g.rwSem.writer = false) :
    Inv { s.goto t (.apply kmsg) with
        g := { s.g with rwSem := { s.g.rwSem with writer := true } } }
      (seen.after s (.write t)) where
  sound := h.sound
  writer := fun _ _ => rfl
  alone := by
    have hnobody : forall t', ((s.goto t (.apply kmsg)).write t').holdsLock =
        true -> t' = t := by
      intro t' ht'
      by_contra hother
      rw [holdsLock_other hother] at ht'
      rw [h.writer t' ht'] at hwriter
      cases hwriter
    intro t1 t2 h1 h2
    rw [hnobody t1 h1, hnobody t2 h2]
  shared := fun hsome => absurd hreaders hsome
  locked := h.locked
  found := by
    have hadds : Action.adds s (.write t) = false := by
      rw [Action.adds, hpc]
    rcases after_eq seen (by simp) hadds with ⟨hadded, hheld⟩
    exact found_of_same h.found rfl rfl hadded hheld

theorem inv_upWrite (h : Inv s seen) (hpc : s.write t = .upWrite) :
    Inv { s.goto t .idle with
        g := { s.g with rwSem := { s.g.rwSem with writer := false } } }
      (seen.after s (.write t)) where
  sound := h.sound
  writer := by
    intro t' ht'
    have hidle : WritePc.idle.holdsLock = false := rfl
    have hheld := holdsLock_goto hidle ht'
    have hsame : t' = t := h.alone t' t hheld (by rw [hpc]; rfl)
    rw [hsame] at ht'
    change (Function.update s.write t .idle t).holdsLock = true at ht'
    rw [Function.update_self] at ht'
    cases ht'
  alone := by
    intro t1 t2 h1 h2
    exact h.alone t1 t2 (holdsLock_goto rfl h1) (holdsLock_goto rfl h2)
  shared := fun _ => rfl
  locked := h.locked
  found := by
    have hadds : Action.adds s (.write t) = false := by
      rw [Action.adds, hpc]
    rcases after_eq seen (by simp) hadds with ⟨hadded, hheld⟩
    exact found_of_same h.found rfl rfl hadded hheld

theorem behind_add {table : RtTable file} {head : Option Nat} {added : Nat}
    {news old : List Nat} (hsound : table.Sound)
    (h : Behind table.rt head added news old) (entry : RtEntry) :
    Behind (table.addRtTableEntryByVal entry).rt head (added + 1)
      (table.next :: news) old where
  split := by
    show table.next :: table.rt = _
    rw [h.split]
    rfl
  head := h.head
  fresh := by
    intro a ha hold
    rcases List.mem_cons.mp ha with hnew | hnews
    · have hlt := hsound.rt_lt a (by
        rw [h.split]
        exact List.mem_append_right _ hold)
      lia
    · exact h.fresh a hnews hold
  added := congrArg Nat.succ h.added

theorem found_apply {kmsg : RtUpdate} (h : Inv s seen)
    (hpc : s.write t = .apply kmsg) :
    Found { s.goto t .upWrite with g := s.g.rtWrite kmsg }
      (seen.after s (.write t)) := by
  have hfound := h.found
  unfold Found at hfound ⊢
  show match s.info with
    | .start => True
    | .downRead head => exists news old,
        Behind (s.g.table.applyRtUpdates kmsg).rt head _ news old
    | .locked head => exists news old,
        Behind (s.g.table.applyRtUpdates kmsg).rt head _ news old
    | .done fields => Consistent fields _ <-> _ = 0
  cases hinfo : s.info with
  | start => trivial
  | downRead head =>
      rw [hinfo] at hfound
      rcases hfound with ⟨news, old, hbehind⟩
      unfold RtTable.applyRtUpdates
      by_cases hadd : kmsg.opCode = rtRouteAdd
      · have hadded : (seen.after s (.write t)).added = seen.added + 1 := by
          simp [Seen.after, Action.adds, hpc, hinfo, InfoPc.isUnlocked, hadd]
        rw [if_pos hadd, hadded]
        exact ⟨_, _, behind_add h.sound hbehind kmsg.entry⟩
      · have hadded : (seen.after s (.write t)).added = seen.added := by
          simp [Seen.after, Action.adds, hpc, hadd]
        rw [if_neg hadd, hadded]
        exact ⟨news, old, hbehind⟩
  | locked head =>
      -- the lock is held for writing
      have hwriter := h.writer t (by rw [hpc]; rfl)
      rw [h.shared (h.locked head hinfo)] at hwriter
      cases hwriter
  | done fields =>
      rw [hinfo] at hfound
      have hafter : seen.after s (.write t) = seen := by
        simp [Seen.after, hinfo, InfoPc.inCall, InfoPc.isUnlocked]
      show Consistent fields (seen.after s (.write t)).held <->
        (seen.after s (.write t)).added = 0
      rw [hafter]
      exact hfound

theorem inv_apply {kmsg : RtUpdate} (h : Inv s seen)
    (hpc : s.write t = .apply kmsg) :
    Inv { s.goto t .upWrite with g := s.g.rtWrite kmsg }
      (seen.after s (.write t)) where
  sound := RtTable.sound_apply h.sound kmsg
  writer := by
    intro t' ht'
    exact h.writer t (by rw [hpc]; rfl)
  alone := by
    have hwas : forall t', ((s.goto t .upWrite).write t').holdsLock = true ->
        t' = t := by
      intro t' ht'
      by_contra hother
      rw [holdsLock_other hother] at ht'
      exact hother (h.alone t' t ht' (by rw [hpc]; rfl))
    intro t1 t2 h1 h2
    rw [hwas t1 h1, hwas t2 h2]
  shared := h.shared
  locked := h.locked
  found := found_apply h hpc

theorem inv_step {a : Action writer} (h : Inv s seen)
    (hstep : step s a = some u) : Inv u (seen.after s a) := by
  cases a with
  | call t kmsg =>
      change (if s.write t = .idle then _ else _) = some u at hstep
      split at hstep
      · cases hstep
        exact inv_call h
      · cases hstep
  | write t =>
      change writeStep s t = some u at hstep
      unfold writeStep at hstep
      cases hpc : s.write t with
      | idle =>
          rw [hpc] at hstep
          cases hstep
      | downWrite kmsg =>
          simp only [hpc] at hstep
          split at hstep
          · cases hstep
          · rename_i hguard
            rw [not_or, not_not, Bool.not_eq_true] at hguard
            cases hstep
            exact inv_downWrite h hpc hguard.left hguard.right
      | apply kmsg =>
          simp only [hpc, Option.some.injEq] at hstep
          rw [← hstep]
          exact inv_apply h hpc
      | upWrite =>
          simp only [hpc, Option.some.injEq] at hstep
          rw [← hstep]
          exact inv_upWrite h hpc
  | readHead =>
      change (if s.info = .start then _ else _) = some u at hstep
      split at hstep
      · cases hstep
        exact inv_readHead h
      · cases hstep
  | downRead =>
      change (match s.info with | .downRead _ => _ | _ => none) = some u at hstep
      split at hstep
      · rename_i head hinfo
        split at hstep
        · cases hstep
        · rename_i hwriter
          cases hstep
          exact inv_downRead h hinfo (Bool.not_eq_true _ |>.mp hwriter)
      · cases hstep
  | report =>
      change (match s.info with | .locked _ => _ | _ => none) = some u at hstep
      split at hstep
      · rename_i head hinfo
        cases hstep
        exact inv_report h hinfo
      · cases hstep

end Preservation

/-!
## When the report is consistent
-/

section Runs

variable {client reader file writer : Type _} [DecidableEq client]
variable [DecidableEq reader] [DecidableEq writer]
variable [Fintype reader]

theorem inv_of_reachable {table : RtTable file} (hsound : table.Sound)
    {s : State writer file} {seen : Seen}
    (h : Transition.Reachable (Transition.recording step Seen.after)
      (fun _ _ => True) (start table, Seen.none) (s, seen)) : Inv s seen := by
  have hkeeps : forall (v : State writer file) seen a w, Inv v seen -> True ->
      step v a = some w -> Inv w (seen.after v a) := by
    intro v seen a w hinv _ hstep
    exact inv_step hinv hstep
  exact @Transition.recorded_invariant _ _ _ _ _ (fun _ _ => True) _ _ Inv
    (inv_start hsound) hkeeps _ _ h

variable [DecidableEq file]

/-- On every table the driver can have, the call reports one consistent number
exactly if no entry is added between its read of the head and its acquisition
of `rw_sem`. -/
theorem consistent_iff_undisturbed {fileOf : client -> file}
    {m : Mixed.State client reader file}
    (hm : Transition.Reachable (Mixed.step fileOf) (fun _ _ => True)
      Mixed.State.init m)
    {s : State writer file} {seen : Seen}
    (h : Transition.Reachable (Transition.recording step Seen.after)
      (fun _ _ => True) (start m.table, Seen.none) (s, seen))
    {fields : List (InfoField × Option Nat)} (hdone : s.info = .done fields) :
    Consistent fields seen.held <-> seen.added = 0 := by
  have hsound : m.table.Sound := by
    apply Transition.reachable_invariant Mixed.Sound Mixed.sound_init _ hm
    intro v a w hv _ hstep
    exact Mixed.sound_step hv hstep
  have hfound := (inv_of_reachable hsound h).found
  unfold Found at hfound
  rw [hdone] at hfound
  exact hfound

end Runs

section Schedules

def writeOnce {writer : Type _} (t : writer) : List (Action writer) :=
  [.call t Poll.someUpdate, .write t, .write t, .write t]

def emptyTable : Mixed.State (Fin 1) (Fin 1) (Fin 1) := Mixed.State.init

theorem consistent_between_writes :
    exists (s : State (Fin 1) (Fin 1)) (seen : Seen)
        (fields : List (InfoField × Option Nat)),
      s.info = .done fields ∧ s.rt.length = 2 ∧
        Consistent fields seen.held := by
  have hrun : exists p : State (Fin 1) (Fin 1) × Seen,
      Transition.Reachable (Transition.recording step Seen.after)
          (fun _ _ => True) (start emptyTable.table, Seen.none) p ∧
        decide ((exists fields, p.1.info = .done fields) ∧
          p.1.rt.length = 2 ∧ p.2.added = 0) = true :=
    Transition.exists_reachable_of_schedule
      (writeOnce 0 ++ [.readHead, .downRead, .report] ++ writeOnce 0) _
      (by decide +kernel)
  rcases hrun with ⟨⟨s, seen⟩, hreach, htest⟩
  rcases of_decide_eq_true htest with ⟨⟨fields, hdone⟩, hlength, hadded⟩
  have hstart : Transition.Reachable (Mixed.step id) (fun _ _ => True)
      Mixed.State.init emptyTable := Transition.Reachable.start
  exact ⟨s, seen, fields, hdone, hlength,
    (consistent_iff_undisturbed hstart hreach hdone).mpr hadded⟩

/-- An entry is added when the head of the empty table has been read: the call
counts one entry and finds none. -/
theorem exists_inconsistent :
    exists (s : State (Fin 1) (Fin 1)) (seen : Seen)
        (fields : List (InfoField × Option Nat)),
      Transition.Reachable (Transition.recording step Seen.after)
          (fun _ _ => True) (start emptyTable.table, Seen.none) (s, seen) ∧
        s.info = .done fields ∧
          fields.take 2 = [(.nodeCount, some 1), (.actualNodeCount, some 0)] ∧
            ¬ Consistent fields seen.held := by
  have hrun : exists p : State (Fin 1) (Fin 1) × Seen,
      Transition.Reachable (Transition.recording step Seen.after)
          (fun _ _ => True) (start emptyTable.table, Seen.none) p ∧
        decide (p.1.info = .done [(.nodeCount, some 1),
          (.actualNodeCount, some 0), (.noOfPendingUpdates, some 1),
          (.noOfPollingReaders, some 0),
          (.noOfBlacklistedPollingReaders, some 0)]) = true :=
    Transition.exists_reachable_of_schedule
      ([.readHead] ++ writeOnce 0 ++ [.downRead, .report]) _
      (by decide +kernel)
  rcases hrun with ⟨⟨s, seen⟩, hreach, htest⟩
  refine ⟨s, seen, _, hreach, of_decide_eq_true htest, rfl, ?_⟩
  intro hconsistent
  rcases hconsistent with ⟨n, hcount, hactual, _⟩
  simp at hcount hactual
  lia

end Schedules

end Info
end RIBDriver
