import RIBDriver.Rt.Access.Shared

/-!
# The extents of user buffers

What the driver reads from and writes to user memory in a run of both paths.
The number of records of a copy is the count it has loaded without a lock, so
the bound is followed through every store of the count: the worker's snapshot,
the store of a first reader and the clamp after it, the clamp of a subscriber
and the two places that reset the count.
-/

namespace RIBDriver
namespace Access

/-- Within the buffer; for a subscriber it is the one `access_ok` has seen. -/
def UserAccess.inBounds : UserAccess -> Prop
  | .readOut bytes count => bytes ≤ count
  | .writeIn bytes count => bytes ≤ count
  | .subscribeOut bytes => bytes ≤ sizeofUserBuffer
  | .subscribed rc => rc ≤ rtMaxEntriesFetch

def Pc.isClamping {file : Type _} : Pc file -> Bool
  | .testCount _ | .clamp _ => true
  | _ => false

namespace Shared

variable {client reader file : Type _}

def InBounds (s : State client reader file) : Prop :=
  forall access, access ∈ s.readers.user -> access.inBounds

/-- What bounds the snapshots of a run: a number, or only the clamp of
`rt_read`. -/
inductive Regime where
  | within (bound : Nat)
  | clamped
deriving DecidableEq

def Regime.bound : Regime -> Nat
  | .within bound => bound
  | .clamped => rtMaxEntriesFetch

/-- No reader is between its store of the count and the end of its clamp. -/
def Settled (s : State client reader file) : Prop :=
  forall t, (s.readers.pc t).isClamping = false

instance [Fintype reader] (s : State client reader file) :
    Decidable (Settled s) :=
  inferInstanceAs (Decidable (forall t, (s.readers.pc t).isClamping = false))

def LoadsCount (s : State client reader file) :
    Action client reader file -> Bool
  | .readers (.load _ countFirst) => countFirst
  | .readers (.next t _) =>
      match s.readers.pc t with
      | .loadCount _ _ => true
      | _ => false
  | .ioctl (.client t) => s.ioctl.pc t = .copy
  | _ => false

/-- The `count` of a call covers a record of an update, or as many records of
entries as a snapshot may have.  Every snapshot finds at most that many updates
pending; a first reader may find more if they are cut to
`RT_MAX_ENTRIES_FETCH` before anybody loads the count. -/
def Fits (regime : Regime) (s : State client reader file)
    (a : Action client reader file) : Prop :=
  (regime = .clamped -> LoadsCount s a = true -> Settled s) ∧
    match a with
    | .readers (.write _ _ count) => sizeofRtUpdate ≤ count
    | .readers (.read _ _ count) => sizeofRtEntry * regime.bound ≤ count
    | .readers (.next t _) =>
        match s.readers.pc t with
        | .publish _ =>
            regime = .clamped ∨ s.table.rtChangeList.length ≤ regime.bound
        | _ => True
    | .ioctl (.worker _) =>
        s.ioctl.worker = .snapshot -> s.storing = none ->
          s.table.rtChangeList.length ≤ regime.bound
    | _ => True

instance [Fintype reader] [DecidableEq file] (regime : Regime)
    (s : State client reader file) (a : Action client reader file) :
    Decidable (Fits regime s a) := by
  unfold Fits
  split
  · infer_instance
  · infer_instance
  · split <;> infer_instance
  · infer_instance
  · infer_instance

def Holds (regime : Regime) : Pc file -> Prop
  | .storeCount _ n => regime = .clamped ∨ n ≤ regime.bound
  | .loadVector _ n => n ≤ regime.bound
  | .clamp _ => regime = .clamped
  | _ => True

/-- What the count, and every copy of it that is still to be used, is bounded
by. -/
structure Capped (regime : Regime) (s : State client reader file) : Prop where
  count : regime ≠ .clamped ∨ Settled s ->
    s.g.rtUpdateVectorCount ≤ regime.bound
  each : forall t, Holds regime (s.readers.pc t)
  storing : forall n, s.storing = some n -> n ≤ regime.bound
  subscriber : forall t, s.sub t = .clamp -> regime = .clamped
  requested : forall t f, (s.readers.pc t).file? = some f ->
    sizeofRtEntry * regime.bound ≤ s.readers.requested t

section Readers

variable {regime : Regime}
variable {s : State client reader file} {u : Access.State reader file}

theorem count_eq (s : State client reader file) :
    s.readers.g.rtUpdateVectorCount = s.g.rtUpdateVectorCount :=
  congrArg Globals.rtUpdateVectorCount s.shared

theorem count_le {a : Action client reader file} (h : Capped regime s)
    (hloads : LoadsCount s a = true)
    (hfits : regime = .clamped -> LoadsCount s a = true -> Settled s) :
    s.g.rtUpdateVectorCount ≤ regime.bound := by
  refine h.count ?_
  by_cases hclamped : regime = .clamped
  · exact Or.inr (hfits hclamped hloads)
  · exact Or.inl hclamped

variable [DecidableEq reader]

theorem settled_of_update {t : reader} {p : Pc file}
    (hpc : u.pc = Function.update s.readers.pc t p)
    (hidle : (s.readers.pc t).isClamping = false)
    (h : Settled (s.withReaders u)) : Settled s := by
  intro w
  have hw : (u.pc w).isClamping = false := h w
  rw [hpc, Function.update_apply] at hw
  split at hw
  · rename_i hwt
    rw [hwt]
    exact hidle
  · exact hw

theorem not_settled_of_update {t : reader} {p : Pc file}
    (hpc : u.pc = Function.update s.readers.pc t p)
    (hbusy : p.isClamping = true) : ¬ Settled (s.withReaders u) := by
  intro h
  have ht : (u.pc t).isClamping = false := h t
  rw [hpc, Function.update_self, hbusy] at ht
  cases ht

theorem capped_goto {t : reader} {p : Pc file} (h : Capped regime s)
    (hpc : u.pc = Function.update s.readers.pc t p)
    (hrequested : u.requested = s.readers.requested)
    (hcount : regime ≠ .clamped ∨ Settled (s.withReaders u) ->
      u.g.rtUpdateVectorCount ≤ regime.bound)
    (hp : Holds regime p)
    (hfile : forall f, p.file? = some f -> (s.readers.pc t).file? = some f) :
    Capped regime (s.withReaders u) := by
  have hat : forall w, u.pc w = if w = t then p else s.readers.pc w := by
    intro w
    rw [hpc]
    exact Function.update_apply s.readers.pc t p w
  constructor
  · exact hcount
  · intro w
    show Holds regime (u.pc w)
    rw [hat]
    split
    · exact hp
    · exact h.each w
  · exact h.storing
  · exact h.subscriber
  · intro w f hw
    change (u.pc w).file? = _ at hw
    show _ ≤ u.requested w
    rw [hat] at hw
    rw [hrequested]
    split at hw
    · rename_i hwt
      rw [hwt]
      exact h.requested t f (hfile f hw)
    · exact h.requested w f hw

theorem capped_keep {t : reader} {p : Pc file} (h : Capped regime s)
    (hpc : u.pc = Function.update s.readers.pc t p)
    (hrequested : u.requested = s.readers.requested)
    (hsame : u.g.rtUpdateVectorCount = s.readers.g.rtUpdateVectorCount)
    (hidle : (s.readers.pc t).isClamping = false) (hp : Holds regime p)
    (hfile : forall f, p.file? = some f -> (s.readers.pc t).file? = some f) :
    Capped regime (s.withReaders u) := by
  refine capped_goto h hpc hrequested ?_ hp hfile
  intro hsettled
  rw [hsame, s.shared]
  refine h.count ?_
  rcases hsettled with hwithin | hsettled
  · exact Or.inl hwithin
  · exact Or.inr (settled_of_update hpc hidle hsettled)

variable [DecidableEq file]

/-- The `count` of a read covers a whole snapshot. -/
theorem capped_enter {t : reader} {f : file} {count : Nat}
    (h : Capped regime s) (hpc : s.readers.pc t = .idle)
    (hcovers : sizeofRtEntry * regime.bound ≤ count) :
    Capped regime (s.withReaders (s.readers.enter t f count)) := by
  have hidle : (s.readers.pc t).isClamping = false := by
    rw [hpc]
    rfl
  have hat : forall w, (s.readers.enter t f count).pc w =
      if w = t then .entryLock f else s.readers.pc w :=
    fun w => Function.update_apply s.readers.pc t _ w
  constructor
  · intro hsettled
    show s.readers.g.rtUpdateVectorCount ≤ _
    rw [count_eq]
    refine h.count ?_
    rcases hsettled with hwithin | hsettled
    · exact Or.inl hwithin
    · exact Or.inr (settled_of_update rfl hidle hsettled)
  · intro w
    show Holds regime ((s.readers.enter t f count).pc w)
    rw [hat]
    split
    · trivial
    · exact h.each w
  · exact h.storing
  · exact h.subscriber
  · intro w f' hw
    change ((s.readers.enter t f count).pc w).file? = _ at hw
    show _ ≤ Function.update s.readers.requested t count w
    rw [hat] at hw
    rw [Function.update_apply]
    split at hw
    · rename_i hwt
      rw [if_pos hwt]
      exact hcovers
    · rename_i hwt
      rw [if_neg hwt]
      exact h.requested w f' hw

variable [Fintype reader]

theorem capped_readers {a : Access.Action reader file}
    (hbound : regime.bound ≤ rtMaxEntriesFetch) (h : Capped regime s)
    (hfits : Fits regime s (.readers a)) (hmove : Access.Move s.readers a u) :
    Capped regime (s.withReaders u) := by
  cases hmove with
  | pollReady hpc =>
      refine ⟨?_, h.each, h.storing, h.subscriber, h.requested⟩
      show _ -> s.readers.g.rtUpdateVectorCount ≤ _
      rw [count_eq]
      exact h.count
  | endPoll hpc hends =>
      refine capped_keep h rfl rfl ?_ (by rw [hpc]; rfl) trivial
        (fun _ hp => by cases hp)
      cases hends <;> rfl
  | read hpc => exact capped_enter h hpc hfits.right
  | @publish t f allocOk n v hpc hpublish =>
      have hsnapshot := hfits.right
      simp only [hpc] at hsnapshot
      have hn : regime = .clamped ∨ n ≤ regime.bound := by
        cases hpublish with
        | missing => exact Or.inr (Nat.zero_le _)
        | live records =>
            rw [s.shared]
            exact hsnapshot
      cases hpublish <;>
        exact capped_keep h rfl rfl rfl (by rw [hpc]; rfl) hn
          (fun _ hp => by rw [hpc]; exact hp)
  | @storeCount t f n allocOk hpc =>
      have hn := h.each t
      rw [hpc] at hn
      refine capped_goto h rfl rfl ?_ trivial (fun _ hp => by rw [hpc]; exact hp)
      rintro (hwithin | hsettled)
      · rcases hn with hclamped | hle
        · exact absurd hclamped hwithin
        · exact hle
      · exact absurd hsettled (not_settled_of_update rfl rfl)
  | @countOver t f allocOk hpc hover =>
      rw [count_eq] at hover
      have hclamped : regime = .clamped := by
        by_contra hwithin
        have hle := h.count (Or.inl hwithin)
        lia
      refine capped_goto h rfl rfl ?_ hclamped
        (fun _ hp => by rw [hpc]; exact hp)
      rintro (hwithin | hsettled)
      · exact absurd hclamped hwithin
      · exact absurd hsettled (not_settled_of_update rfl rfl)
  | @countFits t f allocOk hpc hle =>
      refine capped_goto h rfl rfl ?_ trivial (fun _ hp => by rw [hpc]; exact hp)
      intro hsettled
      show s.readers.g.rtUpdateVectorCount ≤ _
      cases hregime : regime with
      | clamped => exact hle
      | within bound =>
          have hwithin : regime ≠ .clamped := by
            rw [hregime]
            exact fun hsame => by cases hsame
          rw [count_eq, ← hregime]
          exact h.count (Or.inl hwithin)
  | @clamp t f allocOk hpc =>
      have hclamped := h.each t
      rw [hpc] at hclamped
      have hregime : regime = .clamped := hclamped
      refine capped_goto h rfl rfl ?_ trivial (fun _ hp => by rw [hpc]; exact hp)
      intro _
      rw [hregime]
      exact Nat.le_refl _
  | resetCount hpc =>
      exact capped_goto h rfl rfl (fun _ => Nat.zero_le _) trivial
        (fun _ hp => by rw [hpc]; exact hp)
  | @loadFirstCount t f hpc =>
      refine capped_keep h rfl rfl rfl (by rw [hpc]; rfl) ?_
        (fun _ hp => by rw [hpc]; exact hp)
      show s.readers.g.rtUpdateVectorCount ≤ _
      rw [count_eq]
      exact count_le h rfl hfits.left
  | interrupt hpc =>
      refine capped_keep h rfl rfl rfl ?_ trivial (fun _ hp => by cases hp)
      rcases hpc with hpc | hpc <;> rw [hpc] <;> rfl
  | look hpc | write hpc | blackList hpc | exitUnlock hpc | upRead hpc
  | apply hpc =>
      exact capped_keep h rfl rfl rfl (by rw [hpc]; rfl) trivial
        (fun _ hp => by cases hp)
  | entryLock hpc | entryFirst hpc | entryLater hpc | entryUnlock hpc
  | loadFirstVector hpc | loadCount hpc | loadVector hpc | endCopy hpc
  | exitLock hpc | exitLast hpc | exitOther hpc | emptyList hpc | free hpc =>
      exact capped_keep h rfl rfl rfl (by rw [hpc]; rfl) trivial
        (fun _ hp => by rw [hpc]; exact hp)

end Readers

section Scheduler

variable {regime : Regime} {s u : State client reader file}

theorem capped_scheduler (h : Capped regime s)
    (hpc : u.readers.pc = s.readers.pc)
    (hrequested : u.readers.requested = s.readers.requested)
    (hcount : u.g.rtUpdateVectorCount ≤ regime.bound ∨
      u.g.rtUpdateVectorCount = s.g.rtUpdateVectorCount)
    (hstoring : forall n, u.storing = some n -> n ≤ regime.bound)
    (hsub : forall t, u.sub t = .clamp ->
      s.sub t = .clamp ∨ regime = .clamped) : Capped regime u := by
  have hsettled : Settled u <-> Settled s := by
    unfold Settled
    rw [hpc]
  constructor
  · intro hwhen
    rcases hcount with hle | hsame
    · exact hle
    · rw [hsame]
      rw [hsettled] at hwhen
      exact h.count hwhen
  · rw [hpc]
    exact h.each
  · exact hstoring
  · intro t ht
    rcases hsub t ht with hold | hclamped
    · exact h.subscriber t hold
    · exact hclamped
  · rw [hpc, hrequested]
    exact h.requested

variable [DecidableEq client]

theorem sub_setSub {t w : client} {sub : Sub}
    (h : (s.setSub t sub).sub w = .clamp) (hne : sub ≠ .clamp) :
    s.sub w = .clamp := by
  change Function.update s.sub t sub w = _ at h
  rw [Function.update_apply] at h
  split at h
  · exact absurd h hne
  · exact h

variable [DecidableEq file] {fileOf : client -> file}
variable {a : Ioctl.Action client}

theorem count_of_plain {v : Ioctl.State client file} (hplain : Plain s a)
    (hmove : Ioctl.Move fileOf s.ioctl a v) :
    v.g.rtUpdateVectorCount = s.g.rtUpdateVectorCount := by
  cases hmove with
  | clamp hpc => exact absurd hpc (hplain.clamp _ rfl)
  | cleanUp hpc => exact absurd hpc (hplain.cleanUp _ rfl)
  | snapshot hw => exact absurd hw (hplain.worker _ rfl)
  | _ => rfl

theorem capped_ioctl (hbound : regime.bound ≤ rtMaxEntriesFetch)
    (h : Capped regime s) (hfits : Fits regime s (.ioctl a))
    (hmove : IoctlMove fileOf s a u) : Capped regime u := by
  cases hmove with
  | plain hplain hmove =>
      exact capped_scheduler h rfl rfl (Or.inr (count_of_plain hplain hmove))
        h.storing (fun _ ht => Or.inl ht)
  | @publish allocOk n v hw hstoring hpublish =>
      have hn : n ≤ regime.bound := by
        cases hpublish with
        | missing => exact Nat.zero_le _
        | live records =>
            rw [s.shared]
            exact hfits.right hw hstoring
      have hstored : forall n', some n = some n' -> n' ≤ regime.bound := by
        intro n' hsame
        cases hsame
        exact hn
      cases hpublish <;>
        exact capped_scheduler h rfl rfl (Or.inr (count_eq s)) hstored
          (fun _ ht => Or.inl ht)
  | @storeCount allocOk n hw hstoring =>
      exact capped_scheduler h rfl rfl (Or.inl (h.storing n hstoring))
        (fun _ hn => by cases hn) (fun _ ht => Or.inl ht)
  | @countOver t hpc hover =>
      refine capped_scheduler h rfl rfl (Or.inr rfl) h.storing ?_
      intro w _
      right
      by_contra hwithin
      have hle := h.count (Or.inl hwithin)
      lia
  | countFits hpc =>
      exact capped_scheduler h rfl rfl (Or.inr rfl) h.storing
        (fun _ ht => Or.inl ht)
  | @clamp t hpc hsub =>
      refine capped_scheduler h rfl rfl (Or.inl ?_) h.storing
        (fun _ ht => Or.inl (sub_setSub ht (by decide)))
      rw [h.subscriber t hsub]
      exact Nat.le_refl _
  | beginCopy hpc =>
      exact capped_scheduler h rfl rfl (Or.inr rfl) h.storing
        (fun _ ht => Or.inl (sub_setSub ht (by decide)))
  | @endCopy t v hpc hmove =>
      have hsame : v.g.rtUpdateVectorCount = s.g.rtUpdateVectorCount := by
        cases hmove with
        | copy => rfl
        | clamp hp | cleanUp hp =>
            rw [hpc] at hp
            cases hp
        | _ => rfl
      exact capped_scheduler h rfl rfl (Or.inr hsame) h.storing
        (fun _ ht => Or.inl (sub_setSub ht (by decide)))
  | resetCount hpc =>
      exact capped_scheduler h rfl rfl (Or.inl (Nat.zero_le _)) h.storing
        (fun _ ht => Or.inl (sub_setSub ht (by decide)))
  | emptyList hpc | free hpc | resetPointer hpc =>
      exact capped_scheduler h rfl rfl (Or.inr (count_eq s)) h.storing
        (fun _ ht => Or.inl (sub_setSub ht (by decide)))

end Scheduler

/-!
## The buffers
-/

section Buffers

variable {regime : Regime} {fileOf : client -> file}
variable {s u : State client reader file}

theorem inBounds_cons {access : UserAccess} (h : InBounds s)
    (huser : u.readers.user = access :: s.readers.user)
    (haccess : access.inBounds) : InBounds u := by
  intro other hmem
  rw [huser] at hmem
  rcases List.mem_cons.mp hmem with hsame | hold
  · rw [hsame]
    exact haccess
  · exact h other hold

variable [DecidableEq file]

theorem inBounds_readers [DecidableEq reader] [Fintype reader]
    {a : Access.Action reader file} {v : Access.State reader file}
    (hcapped : Capped regime s) (hfits : Fits regime s (.readers a)) (h : InBounds s)
    (hmove : Access.Move s.readers a v) : InBounds (s.withReaders v) := by
  cases hmove with
  | write hpc => exact inBounds_cons h rfl hfits.right
  | @loadCount t f vector allocOk hpc =>
      have hloads : LoadsCount s (.readers (.next t allocOk)) = true := by
        simp only [LoadsCount, hpc]
      have hle := count_le hcapped hloads hfits.left
      refine inBounds_cons h rfl ?_
      calc sizeofRtEntry * s.readers.g.rtUpdateVectorCount
        _ = sizeofRtEntry * s.g.rtUpdateVectorCount := by rw [count_eq]
        _ ≤ sizeofRtEntry * regime.bound := Nat.mul_le_mul_left _ hle
        _ ≤ s.readers.requested t := hcapped.requested t f (by rw [hpc]; rfl)
  | @loadVector t f n allocOk hpc =>
      have hn := hcapped.each t
      rw [hpc] at hn
      refine inBounds_cons h rfl ?_
      calc sizeofRtEntry * n
        _ ≤ sizeofRtEntry * regime.bound := Nat.mul_le_mul_left _ hn
        _ ≤ s.readers.requested t := hcapped.requested t f (by rw [hpc]; rfl)
  | publish hpc hpublish => cases hpublish <;> exact h
  | _ => exact h

variable [DecidableEq client]

theorem inBounds_ioctl {a : Ioctl.Action client}
    (hbound : regime.bound ≤ rtMaxEntriesFetch) (hcapped : Capped regime s)
    (hfits : Fits regime s (.ioctl a)) (h : InBounds s)
    (hmove : IoctlMove fileOf s a u) : InBounds u := by
  cases hmove with
  | @beginCopy t hpc =>
      have hloads : LoadsCount s (.ioctl (.client t)) = true :=
        decide_eq_true hpc
      have hle := count_le hcapped hloads hfits.left
      refine inBounds_cons h rfl ?_
      -- 20 records of 48 bytes in the room for 20 records of 52
      show 48 * s.g.rtUpdateVectorCount ≤ 20 * (4 + 48)
      unfold rtMaxEntriesFetch at hbound
      lia
  | @endCopy t v hpc hmove =>
      have hloads : LoadsCount s (.ioctl (.client t)) = true :=
        decide_eq_true hpc
      have hle := count_le hcapped hloads hfits.left
      refine inBounds_cons h rfl ?_
      show s.g.rtUpdateVectorCount ≤ rtMaxEntriesFetch
      lia
  | publish hw hstoring hpublish => cases hpublish <;> exact h
  | _ => exact h

variable [DecidableEq reader] [Fintype reader]

/-- In every run whose calls pass a `count` for what they transfer, and whose
snapshots are small enough or cut in time, no buffer is overrun. -/
theorem inBounds_of_fits (hbound : regime.bound ≤ rtMaxEntriesFetch)
    (h : Transition.Reachable (step fileOf) (Fits regime) State.init s) :
    InBounds s := by
  have hinv := Transition.reachable_invariant
    (fun s : State client reader file => Capped regime s ∧ InBounds s) ?_ ?_ h
  · exact hinv.right
  · refine ⟨⟨fun _ => Nat.zero_le _, fun _ => trivial, ?_, ?_, ?_⟩, ?_⟩
    · intro n hn
      cases hn
    · intro t ht
      cases ht
    · intro t f ht
      cases ht
    · intro access hmem
      cases hmem
  · intro s a v hinv hfits hstep
    cases a with
    | ioctl a =>
        have hmove := move_of_ioctlStep hstep
        exact ⟨capped_ioctl hbound hinv.left hfits hmove,
          inBounds_ioctl hbound hinv.left hfits hinv.right hmove⟩
    | readers a =>
        rcases Option.map_eq_some_iff.mp hstep with ⟨w, hw, hv⟩
        have hmove := Access.move_of_step hw
        rw [← hv]
        exact ⟨capped_readers hbound hinv.left hfits hmove,
          inBounds_readers hinv.left hfits hinv.right hmove⟩

end Buffers

section Schedules

variable {client reader file : Type _}

def writesThenSubscriber (n count : Nat) (writer : reader)
    (subscriber creator : client) : List (Action client reader file) :=
  (List.replicate n (writeThrough writer Poll.someUpdate count)).flatten.map
      .readers ++
    (Mixed.subscribeAndCreate subscriber creator ++ Ioctl.workerRuns 7 ++
      Ioctl.clientRuns subscriber 3).map .ioctl

end Schedules

theorem inBounds_two_updates :
    exists s : State (Fin 3) (Fin 3) (Fin 3),
      s.readers.user = [.readOut 96 96, .subscribed 2, .subscribeOut 96,
        .writeIn 52 52] ∧ InBounds s := by
  have hrun : exists s : State (Fin 3) (Fin 3) (Fin 3),
      Transition.Reachable (step id) (Fits (.within 2)) State.init s ∧
        (decide (s.readers.user = [.readOut 96 96, .subscribed 2,
          .subscribeOut 96, .writeIn 52 52])) = true :=
    Transition.exists_reachable_of_schedule
      (writesThenSubscriber 1 52 0 1 2 ++
        (Access.Action.poll 0 0 false false ::
          firstReadToCopy 0 0 96).map .readers) _
      (by decide +kernel)
  rcases hrun with ⟨s, hreach, htest⟩
  exact ⟨s, of_decide_eq_true htest, inBounds_of_fits (by decide) hreach⟩

/-- With 23 updates pending and calls that pass a `count` of zero, `rt_write`
reads 52 bytes, the subscriber gets 1104 bytes for its 1040 and is told of 23
records, and `rt_read` writes 960 bytes. -/
theorem exists_overrun :
    exists s : State (Fin 3) (Fin 3) (Fin 3),
      Transition.Reachable (step id) Disciplined State.init s ∧
        (.readOut 960 0 ∈ s.readers.user ∧ .subscribed 23 ∈ s.readers.user ∧
          .subscribeOut 1104 ∈ s.readers.user ∧
            .writeIn 52 0 ∈ s.readers.user) ∧ ¬ InBounds s := by
  have hrun : exists s : State (Fin 3) (Fin 3) (Fin 3),
      Transition.Reachable (step id) Disciplined State.init s ∧
        (decide (.readOut 960 0 ∈ s.readers.user ∧
          .subscribed 23 ∈ s.readers.user ∧
            .subscribeOut 1104 ∈ s.readers.user ∧
              .writeIn 52 0 ∈ s.readers.user)) = true :=
    Transition.exists_reachable_of_schedule
      (writesThenSubscriber 22 0 0 1 2 ++
        ((.poll 0 0 false false :: .read 0 0 0 :: nexts 0 7 ++
          [.load 0 false, .next 0 true] : List (Access.Action _ _)).map
            .readers)) _
      (by decide +kernel)
  rcases hrun with ⟨s, hreach, htest⟩
  have hbeyond := of_decide_eq_true htest
  refine ⟨s, hreach, hbeyond, ?_⟩
  intro h
  have hread : 960 ≤ 0 := h _ hbeyond.left
  lia

end Shared
end Access
end RIBDriver
