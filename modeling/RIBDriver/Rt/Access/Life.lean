import RIBDriver.Library.Transition
import RIBDriver.Rt.Access.Moves
import RIBDriver.Rt.Poll.Delivery

/-!
# The life of the update vector

`rt_read` frees the vector when exactly one file is registered and leaves the
pointer as it is; it allocates a new one when the blacklist is empty.  Nothing
ties the two conditions together, nor does anything keep a reader in its copy
from the section in which another reader frees the vector.

The two conditions agree as long as only registered files read and no file
registers between the end of a batch and the rotation of the lists.
-/

namespace RIBDriver
namespace Access

variable {thread file : Type _}

/-- `kfree` gets no freed vector, and a copy of records reads a live vector from
its beginning to its end. -/
structure VectorSafe (s : State thread file) : Prop where
  freed : forall records, .kfreed (.freed records) ∉ s.log
  copied : forall t f vector n, s.pc t = .copying f vector n -> 0 < n ->
    exists records, s.pointee vector = .live records

/-- A file reads only while it is on `rt->poll_readers_list`, and a poll puts a
new file there only while the blacklist is empty.  While another read is about
to evaluate the arguments of its copy, a vector is replaced only by a vector:
neither `kzalloc` has failed. -/
def Orderly (s : State thread file) : Action thread file -> Prop
  | .read _ f _ => f ∈ s.readers
  | .next t allocOk =>
      match s.pc t with
      | .pollWait f nonblock black _ =>
          black = false -> nonblock = false -> f ∉ s.readers -> s.black = []
      | .publish _ => s.OtherLoads t -> allocOk = true ∧ s.pointer ≠ none
      | _ => True
  | _ => True

instance [Fintype thread] [DecidableEq thread] [DecidableEq file]
    (s : State thread file) (a : Action thread file) :
    Decidable (Orderly s a) :=
  match a with
  | .read _ f _ => inferInstanceAs (Decidable (f ∈ s.readers))
  | .next t allocOk =>
      show Decidable (match s.pc t with
        | .pollWait f nonblock black _ =>
            black = false -> nonblock = false -> f ∉ s.readers -> s.black = []
        | .publish _ => s.OtherLoads t -> allocOk = true ∧ s.pointer ≠ none
        | _ => True) from
      match s.pc t with
      | .pollWait f nonblock black _ =>
          inferInstanceAs (Decidable (black = false -> nonblock = false ->
            f ∉ s.readers -> s.black = []))
      | .publish _ =>
          inferInstanceAs (Decidable (s.OtherLoads t ->
            allocOk = true ∧ s.pointer ≠ none))
      | .idle | .entryLock _ | .entryTest _ | .storeCount _ _ | .testCount _
      | .clamp _ | .entryUnlock _ | .load _ | .loadCount _ _ | .loadVector _ _
      | .copying _ _ _ | .exitLock _ | .exitTest _ | .emptyList _
      | .resetCount _ | .free _ | .blackList _ | .exitUnlock | .upRead
      | .downWrite _ => isTrue trivial
  | .poll _ _ _ _ | .write _ _ _ | .load _ _ | .interrupt _ => isTrue trivial

namespace Pc

/-- The thread has found exactly one file registered and is ending the batch. -/
def ends : Pc file -> Option file
  | .emptyList filep | .resetCount filep | .free filep => some filep
  | _ => none

/-- The thread needs the vector: it has published it or found that others
have, and is not past the end of the batch. -/
def needsVector : Pc file -> Bool
  | .storeCount _ _ | .testCount _ | .clamp _ | .entryUnlock _ | .load _
  | .loadCount _ _ | .loadVector _ _ | .copying _ _ _ | .exitLock _
  | .exitTest _ | .emptyList _ | .resetCount _ | .free _ => true
  | _ => false

def loaded : Pc file -> Option Nat
  | .loadCount _ vector | .copying _ vector _ => vector
  | _ => none

def isMoving : Pc file -> Bool
  | .blackList _ => true
  | _ => false

end Pc

/-!
## Who is registered
-/

/-- A file is read by one thread at most, which has used up its poll, and is
registered until the thread moves it to the blacklist.  Who ends a batch is
alone in it. -/
structure Attended (s : State thread file) : Prop where
  ready : forall t f, (s.pc t).file? = some f -> s.ready f = false
  single : forall t u f, (s.pc t).file? = some f -> (s.pc u).file? = some f ->
    t = u
  registered : forall t f, (s.pc t).file? = some f -> f ∈ s.readers
  ending : forall t f, (s.pc t).ends = some f -> s.readers = [f]

section Lists

variable {s v : State thread file}

theorem attended_init : Attended (State.init : State thread file) := by
  constructor <;> intros <;> contradiction

theorem file_of_ends {p : Pc file} {f : file} (h : p.ends = some f) :
    p.file? = some f := by
  cases p with
  | emptyList f' | resetCount f' | free f' => exact h
  | _ => cases h

theorem holdsCs_of_ends {p : Pc file} {f : file} (h : p.ends = some f) :
    p.holdsCs = true := by
  cases p with
  | emptyList f' | resetCount f' | free f' => rfl
  | _ => cases h

theorem eq_of_alone (h : Attended s) {t u : thread} {f f' : file}
    (halone : s.readers = [f]) (ht : (s.pc t).file? = some f)
    (hu : (s.pc u).file? = some f') : u = t := by
  have hmem := h.registered u f' hu
  rw [halone, List.mem_singleton] at hmem
  rw [hmem] at hu
  exact h.single u t f hu ht

variable [DecidableEq thread]

theorem attended_goto {t : thread} {p : Pc file} (h : Attended s)
    (hpc : v.pc = Function.update s.pc t p) (hready : v.ready = s.ready)
    (hreaders : v.readers = s.readers)
    (hfile : forall f, p.file? = some f -> (s.pc t).file? = some f)
    (hends : forall f, p.ends = some f -> s.readers = [f]) : Attended v := by
  have hold : forall u f, (v.pc u).file? = some f ->
      (s.pc u).file? = some f := by
    intro u f hu
    rw [hpc] at hu
    by_cases hut : u = t
    · rw [hut, Function.update_self] at hu
      rw [hut]
      exact hfile f hu
    · rw [Function.update_of_ne hut] at hu
      exact hu
  constructor
  · intro u f hu
    rw [hready]
    exact h.ready u f (hold u f hu)
  · intro u w f hu hw
    exact h.single u w f (hold u f hu) (hold w f hw)
  · intro u f hu
    rw [hreaders]
    exact h.registered u f (hold u f hu)
  · intro u f hu
    rw [hreaders]
    rw [hpc] at hu
    by_cases hut : u = t
    · rw [hut, Function.update_self] at hu
      exact hends f hu
    · rw [Function.update_of_ne hut] at hu
      exact h.ending u f hu

theorem attended_section [Fintype thread] {t : thread} {p : Pc file}
    (hlocked : Locked s) (h : Attended s) (hholds : (s.pc t).holdsCs = true)
    (hpc : v.pc = Function.update s.pc t p) (hready : v.ready = s.ready)
    (hfile : p.file? = none)
    (hkeeps : forall u f, u ≠ t -> (s.pc u).file? = some f -> f ∈ v.readers) :
    Attended v := by
  have hold : forall u f, (v.pc u).file? = some f ->
      u ≠ t ∧ (s.pc u).file? = some f := by
    intro u f hu
    rw [hpc] at hu
    by_cases hut : u = t
    · rw [hut, Function.update_self, hfile] at hu
      cases hu
    · rw [Function.update_of_ne hut] at hu
      exact ⟨hut, hu⟩
  constructor
  · intro u f hu
    rw [hready]
    exact h.ready u f (hold u f hu).right
  · intro u w f hu hw
    exact h.single u w f (hold u f hu).right (hold w f hw).right
  · intro u f hu
    exact hkeeps u f (hold u f hu).left (hold u f hu).right
  · intro u f hu
    rcases hold u f (file_of_ends hu) with ⟨hut, _⟩
    rw [hpc, Function.update_of_ne hut] at hu
    exact absurd (eq_of_holds hlocked (holdsCs_of_ends hu) hholds) hut

variable [DecidableEq file]

theorem attended_enter {t : thread} {f : file} {n : Nat} (h : Attended s)
    (hready : s.ready f = true) (hmem : f ∈ s.readers) :
    Attended (s.enter t f n) := by
  have hnone : forall u, (s.pc u).file? ≠ some f := by
    intro u hu
    have hused := h.ready u f hu
    rw [hready] at hused
    cases hused
  have hold : forall u f', ((s.enter t f n).pc u).file? = some f' ->
      (u = t ∧ f' = f) ∨ (u ≠ t ∧ f' ≠ f ∧ (s.pc u).file? = some f') := by
    intro u f' hu
    change (Function.update s.pc t (.entryLock f) u).file? = _ at hu
    by_cases hut : u = t
    · rw [hut, Function.update_self] at hu
      cases hu
      exact Or.inl ⟨hut, rfl⟩
    · rw [Function.update_of_ne hut] at hu
      refine Or.inr ⟨hut, ?_, hu⟩
      intro hsame
      rw [hsame] at hu
      exact hnone u hu
  constructor
  · intro u f' hu
    show Function.update s.ready f false f' = false
    rcases hold u f' hu with ⟨_, hf⟩ | ⟨_, hne, hu'⟩
    · rw [hf, Function.update_self]
    · rw [Function.update_of_ne hne]
      exact h.ready u f' hu'
  · intro u w f' hu hw
    rcases hold u f' hu with ⟨hut, hf⟩ | ⟨_, hne, hu'⟩
    · rcases hold w f' hw with ⟨hwt, _⟩ | ⟨_, hne, _⟩
      · rw [hut, hwt]
      · exact absurd hf hne
    · rcases hold w f' hw with ⟨_, hf⟩ | ⟨_, _, hw'⟩
      · exact absurd hf hne
      · exact h.single u w f' hu' hw'
  · intro u f' hu
    rcases hold u f' hu with ⟨_, hf⟩ | ⟨_, _, hu'⟩
    · rw [hf]
      exact hmem
    · exact h.registered u f' hu'
  · intro u f' hu
    rcases hold u f' (file_of_ends hu) with ⟨hut, _⟩ | ⟨hut, _, _⟩
    · change (Function.update s.pc t (.entryLock f) u).ends = _ at hu
      rw [hut, Function.update_self] at hu
      cases hu
    · change (Function.update s.pc t (.entryLock f) u).ends = _ at hu
      rw [Function.update_of_ne hut] at hu
      exact h.ending u f' hu

variable [Fintype thread]

theorem attended_endPoll {t : thread} {f : file}
    {nonblock black data : Bool} {g : Globals file} (hlocked : Locked s)
    (h : Attended s) (hpc : s.pc t = .pollWait f nonblock black data)
    (hends : s.g.EndsPoll f nonblock black data g) :
    Attended ((s.endPoll g).goto t .idle) := by
  have hholds : (s.pc t).holdsCs = true := by
    rw [hpc]
    rfl
  refine attended_section hlocked h hholds rfl rfl rfl ?_
  intro u f' _ hu
  have hmem := h.registered u f' hu
  cases hends with
  | same => exact hmem
  | register hblack hblock =>
      show f' ∈ (s.g.table.addRtTableUniquePollReader f).pollReadersList
      rw [RtTable.pollReadersList_addUnique]
      split
      · exact hmem
      · exact List.mem_cons_of_mem _ hmem
  | rotate hblack hdata hreaders =>
      unfold State.readers at hmem
      rw [hreaders] at hmem
      cases hmem

theorem attended_step {a : Action thread file} (hlocked : Locked s)
    (h : Attended s) (hallowed : Disciplined s a ∧ Orderly s a)
    (hmove : Move s a v) : Attended v := by
  cases hmove with
  | @pollReady t f nonblock interrupted hpc =>
      refine ⟨?_, h.single, h.registered, h.ending⟩
      intro u f' hu
      have hold := h.ready u f' hu
      show (if s.Reading f then s.ready else Function.update s.ready f true)
        f' = false
      split
      · exact hold
      · rename_i hidle
        rw [Function.update_of_ne]
        · exact hold
        · intro hsame
          exact hidle ⟨u, by rw [← hsame]; exact hu⟩
  | endPoll hpc hends => exact attended_endPoll hlocked h hpc hends
  | read hpc => exact attended_enter h hallowed.left.right hallowed.right
  | exitLast hpc hone =>
      rename_i t f allocOk
      refine attended_goto h rfl rfl rfl ?_ ?_
      · intro f' hf'
        rw [hpc]
        exact hf'
      · intro f' hf'
        cases hf'
        rcases List.length_eq_one_iff.mp hone with ⟨f', hreaders⟩
        have hmem := h.registered t f (by rw [hpc]; rfl)
        rw [hreaders, List.mem_singleton] at hmem
        rw [hreaders, hmem]
  | @emptyList t f allocOk hpc | @resetCount t f allocOk hpc =>
      refine attended_goto h rfl rfl rfl ?_ ?_
      · intro f' hf'
        rw [hpc]
        exact hf'
      · intro f' hf'
        refine h.ending t f' ?_
        rw [hpc]
        exact hf'
  | @blackList t f allocOk hpc =>
      have hholds : (s.pc t).holdsCs = true := by
        rw [hpc]
        rfl
      refine attended_section hlocked h hholds rfl rfl rfl ?_
      intro u f' hut hu
      show f' ∈ (s.g.blackListPollReader f).table.pollReadersList
      rw [Globals.blackListPollReader_eq]
      refine (List.mem_erase_of_ne ?_).mpr (h.registered u f' hu)
      intro hsame
      rw [hsame] at hu
      exact hut (h.single u t f hu (by rw [hpc]; rfl))
  | publish hpc hpublish =>
      cases hpublish <;>
      · refine attended_goto h rfl rfl rfl ?_ ?_
        · intro f' hf'
          rw [hpc]
          exact hf'
        · intro f' hf'
          cases hf'
  | apply hpc =>
      refine attended_goto h rfl rfl ?_ ?_ ?_
      · show (RtTable.applyRtUpdates _ _).pollReadersList = _
        unfold RtTable.applyRtUpdates
        split <;> rfl
      · intro f' hf'
        cases hf'
      · intro f' hf'
        cases hf'
  | interrupt hpc => cases hallowed.left.left
  | look hpc | write hpc | exitUnlock hpc | upRead hpc =>
      refine attended_goto h rfl rfl rfl ?_ ?_
      · intro f' hf'
        cases hf'
      · intro f' hf'
        cases hf'
  | entryLock hpc | entryFirst hpc | entryLater hpc | storeCount hpc
  | countOver hpc | countFits hpc | clamp hpc | entryUnlock hpc
  | loadFirstCount hpc | loadFirstVector hpc | loadCount hpc | loadVector hpc
  | endCopy hpc | exitLock hpc | exitOther hpc | free hpc =>
      refine attended_goto h rfl rfl rfl ?_ ?_
      · intro f' hf'
        rw [hpc]
        exact hf'
      · intro f' hf'
        cases hf'

end Lists

/-!
## What the pointers refer to
-/

def State.Live (s : State thread file) (vector : Option Nat) : Prop :=
  forall a, vector = some a -> (s.vectors.read a).isSome = true

/-- Who needs the vector finds it.  A freed vector is behind the pointer only
while its batch is being ended, or nobody is registered, or nobody is on the
blacklist and the next read allocates. -/
structure Kept (s : State thread file) : Prop where
  needed : forall t, (s.pc t).needsVector = true -> s.Live s.pointer
  moving : forall t f, s.pc t = .blackList f -> ¬ s.Live s.pointer ->
    s.readers = [f]
  spent : ¬ s.Live s.pointer -> (forall t, (s.pc t).isMoving = false) ->
    s.readers = [] ∨ s.black = []
  loaded : forall t, s.Live (s.pc t).loaded

section Vector

variable {s v : State thread file}

theorem live_none (s : State thread file) : s.Live none := by
  intro a ha
  cases ha

theorem kept_init : Kept (State.init : State thread file) where
  needed := by
    intro t h
    cases h
  moving := by
    intro t f h
    cases h
  spent := fun _ _ => Or.inl rfl
  loaded := fun _ => live_none _

theorem needsVector_of_loaded {p : Pc file} {a : Nat}
    (h : p.loaded = some a) : p.needsVector = true := by
  cases p with
  | loadCount f vector | copying f vector n => rfl
  | _ => cases h

theorem exists_file_of_needsVector {p : Pc file}
    (h : p.needsVector = true) : exists f, p.file? = some f := by
  cases p with
  | idle | pollWait f b c d | entryLock f | entryTest f | publish f
  | blackList f | exitUnlock | upRead | downWrite kmsg => cases h
  | _ => exact ⟨_, rfl⟩

variable [DecidableEq thread]

theorem kept_goto {t : thread} {p : Pc file} (h : Kept s)
    (hpc : v.pc = Function.update s.pc t p) (hpointer : v.pointer = s.pointer)
    (hvectors : v.vectors = s.vectors) (hreaders : v.readers = s.readers)
    (hblack : v.black = s.black)
    (hneeds : p.needsVector = true -> s.Live s.pointer)
    (hmoving : forall f, p = .blackList f -> s.Live s.pointer)
    (hstays : (s.pc t).isMoving = false) (hloaded : s.Live p.loaded) :
    Kept v := by
  have hlive : forall vector, v.Live vector <-> s.Live vector := by
    intro vector
    unfold State.Live
    rw [hvectors]
  have hat : forall u, v.pc u = if u = t then p else s.pc u := by
    intro u
    rw [hpc]
    exact Function.update_apply s.pc t p u
  constructor
  · intro u hu
    rw [hat] at hu
    rw [hlive, hpointer]
    split at hu
    · exact hneeds hu
    · exact h.needed u hu
  · intro u f hu hdead
    rw [hlive, hpointer] at hdead
    rw [hat] at hu
    rw [hreaders]
    split at hu
    · exact absurd (hmoving f hu) hdead
    · exact h.moving u f hu hdead
  · intro hdead hnobody
    rw [hlive, hpointer] at hdead
    rw [hreaders, hblack]
    refine h.spent hdead ?_
    intro u
    have hu := hnobody u
    rw [hat] at hu
    split at hu
    · rename_i hut
      rw [hut]
      exact hstays
    · exact hu
  · intro u
    rw [hlive, hat]
    split
    · exact hloaded
    · exact h.loaded u

theorem kept_publish {t : thread} {f : file} {n : Nat} {allocOk : Bool}
    (h : Kept s) (hpublish : s.Publishes allocOk n v) :
    Kept ((v.addEvent (.opened allocOk)).goto t (.storeCount f n)) := by
  have hlive : v.Live v.pointer ∧ forall vector, s.Live vector ->
      v.Live vector := by
    cases hpublish with
    | missing => exact ⟨live_none _, fun _ hold => hold⟩
    | live records =>
        constructor
        · intro a ha
          cases ha
          show ((s.vectors.alloc records).1.read _).isSome = true
          rw [Heap.read_alloc_self]
          rfl
        · intro vector hold a ha
          have hread := hold a ha
          show ((s.vectors.alloc records).1.read a).isSome = true
          rw [Heap.sameOutside_alloc s.vectors records a]
          · exact hread
          · intro hnext
            rw [List.mem_singleton.mp hnext,
              s.vectors.read_fresh (Nat.le_refl _)] at hread
            cases hread
  have hpc : v.pc = s.pc := by
    cases hpublish <;> rfl
  constructor
  · intro _ _
    exact hlive.left
  · intro _ _ _ hdead
    exact absurd hlive.left hdead
  · intro hdead
    exact absurd hlive.left hdead
  · intro u
    show v.Live (Function.update v.pc t (.storeCount f n) u).loaded
    rw [hpc, Function.update_apply]
    split
    · exact live_none _
    · exact hlive.right _ (h.loaded u)

variable [Fintype thread]

theorem live_of_later {t : thread} {f : file} (hlocked : Locked s)
    (hattended : Attended s) (h : Kept s) (hpc : s.pc t = .entryTest f)
    (hblack : s.black ≠ []) : s.Live s.pointer := by
  by_contra hdead
  have hnobody : forall u, (s.pc u).isMoving = false := by
    intro u
    cases hu : s.pc u with
    | blackList f' =>
        have hut := eq_of_holds hlocked (t := u) (u := t) (by rw [hu]; rfl)
          (by rw [hpc]; rfl)
        rw [hut, hpc] at hu
        cases hu
    | _ => rfl
  rcases h.spent hdead hnobody with hreaders | hempty
  · have hmem := hattended.registered t f (by rw [hpc]; rfl)
    rw [hreaders] at hmem
    cases hmem
  · exact hblack hempty

theorem kept_free {t : thread} {f : file} {event : Poll.Event file}
    (hlocked : Locked s) (hattended : Attended s) (hpc : s.pc t = .free f) :
    Kept ((s.kfree.addEvent event).goto t (.blackList f)) := by
  have halone : s.readers = [f] := hattended.ending t f (by rw [hpc]; rfl)
  have hat : forall u, ((s.kfree.addEvent event).goto t (.blackList f)).pc u =
      if u = t then .blackList f else s.pc u :=
    fun u => Function.update_apply s.pc t (.blackList f) u
  have hnone : forall u, u ≠ t -> (s.pc u).needsVector = false := by
    intro u hut
    by_contra hneeds
    rcases exists_file_of_needsVector (Bool.eq_true_of_not_eq_false hneeds) with
      ⟨f', hf'⟩
    exact hut (eq_of_alone hattended halone (by rw [hpc]; rfl) hf')
  constructor
  · intro u hu
    rw [hat] at hu
    split at hu
    · cases hu
    · rename_i hut
      rw [hnone u hut] at hu
      cases hu
  · intro u f' hu _
    rw [hat] at hu
    split at hu
    · cases hu
      exact halone
    · rename_i hut
      exact absurd (eq_of_holds hlocked (by rw [hu]; rfl) (by rw [hpc]; rfl))
        hut
  · intro _ hnobody
    have hmoves := hnobody t
    rw [hat, if_pos rfl] at hmoves
    cases hmoves
  · intro u a ha
    rw [hat] at ha
    split at ha
    · cases ha
    · rename_i hut
      have hneeds := needsVector_of_loaded ha
      rw [hnone u hut] at hneeds
      cases hneeds

variable [DecidableEq file]

theorem kept_endPoll {t : thread} {f : file} {nonblock black data : Bool}
    {g : Globals file} (hlocked : Locked s) (h : Kept s)
    (hpc : s.pc t = .pollWait f nonblock black data)
    (hends : s.g.EndsPoll f nonblock black data g)
    (hfresh : black = false -> nonblock = false -> f ∉ s.readers ->
      s.black = []) : Kept ((s.endPoll g).goto t .idle) := by
  have hat : forall u, ((s.endPoll g).goto t .idle).pc u =
      if u = t then .idle else s.pc u :=
    fun u => Function.update_apply s.pc t .idle u
  have hnobody : forall u, (s.pc u).isMoving = false := by
    intro u
    cases hu : s.pc u with
    | blackList f' =>
        have hut := eq_of_holds hlocked (t := u) (u := t) (by rw [hu]; rfl)
          (by rw [hpc]; rfl)
        rw [hut, hpc] at hu
        cases hu
    | _ => rfl
  constructor
  · intro u hu
    rw [hat] at hu
    split at hu
    · cases hu
    · exact h.needed u hu
  · intro u f' hu
    rw [hat] at hu
    split at hu
    · cases hu
    · have hmoves := hnobody u
      rw [hu] at hmoves
      cases hmoves
  · intro hdead _
    have hold := h.spent hdead hnobody
    cases hends with
    | same => exact hold
    | register hblack hblock =>
        show (s.g.table.addRtTableUniquePollReader f).pollReadersList = [] ∨
          s.black = []
        rw [RtTable.pollReadersList_addUnique]
        split
        · exact hold
        · rename_i hmem
          exact Or.inr (hfresh hblack hblock hmem)
    | rotate hblack hdata hreaders => exact Or.inr rfl
  · intro u
    rw [hat]
    split
    · exact live_none _
    · exact h.loaded u

theorem kept_blackList {t : thread} {f : file} (hlocked : Locked s)
    (h : Kept s) (hpc : s.pc t = .blackList f) :
    Kept ((s.moveReader f).goto t .exitUnlock) := by
  have hat : forall u, ((s.moveReader f).goto t .exitUnlock).pc u =
      if u = t then .exitUnlock else s.pc u :=
    fun u => Function.update_apply s.pc t .exitUnlock u
  constructor
  · intro u hu
    rw [hat] at hu
    split at hu
    · cases hu
    · exact h.needed u hu
  · intro u f' hu
    rw [hat] at hu
    split at hu
    · cases hu
    · rename_i hut
      exact absurd (eq_of_holds hlocked (by rw [hu]; rfl) (by rw [hpc]; rfl))
        hut
  · intro hdead _
    left
    show (s.g.blackListPollReader f).table.pollReadersList = []
    rw [Globals.blackListPollReader_eq]
    show s.readers.erase f = []
    rw [h.moving t f hpc hdead]
    simp
  · intro u
    rw [hat]
    split
    · exact live_none _
    · exact h.loaded u

theorem kept_step {a : Action thread file} (hlocked : Locked s)
    (hattended : Attended s) (h : Kept s) (hallowed : Orderly s a)
    (hmove : Move s a v) : Kept v := by
  cases hmove with
  | pollReady hpc => exact ⟨h.needed, h.moving, h.spent, h.loaded⟩
  | endPoll hpc hends =>
      simp only [Orderly, hpc] at hallowed
      exact kept_endPoll hlocked h hpc hends hallowed
  | publish hpc hpublish => exact kept_publish h hpublish
  | free hpc => exact kept_free hlocked hattended hpc
  | blackList hpc => exact kept_blackList hlocked h hpc
  | entryLater hpc hblack =>
      have hlive := live_of_later hlocked hattended h hpc hblack
      exact kept_goto h rfl rfl rfl rfl rfl (fun _ => hlive)
        (fun _ hp => by cases hp) (by rw [hpc]; rfl) (live_none _)
  | exitOther hpc hone =>
      have hlive := h.needed _ (congrArg Pc.needsVector hpc)
      exact kept_goto h rfl rfl rfl rfl rfl (fun _ => hlive) (fun _ _ => hlive)
        (by rw [hpc]; rfl) (live_none _)
  | loadFirstVector hpc | loadVector hpc =>
      have hlive := h.needed _ (congrArg Pc.needsVector hpc)
      exact kept_goto h rfl rfl rfl rfl rfl (fun _ => hlive)
        (fun _ hp => by cases hp) (by rw [hpc]; rfl) hlive
  | @loadCount t f vector allocOk hpc =>
      have hlive := h.needed t (congrArg Pc.needsVector hpc)
      have hloaded := h.loaded t
      rw [hpc] at hloaded
      exact kept_goto h rfl rfl rfl rfl rfl (fun _ => hlive)
        (fun _ hp => by cases hp) (by rw [hpc]; rfl) hloaded
  | apply hpc =>
      refine kept_goto h rfl rfl rfl ?_ rfl (fun hp => by cases hp)
        (fun _ hp => by cases hp) (by rw [hpc]; rfl) (live_none _)
      show (RtTable.applyRtUpdates _ _).pollReadersList = _
      unfold RtTable.applyRtUpdates
      split <;> rfl
  | interrupt hpc =>
      refine kept_goto h rfl rfl rfl rfl rfl (fun hp => by cases hp)
        (fun _ hp => by cases hp) ?_ (live_none _)
      rcases hpc with hpc | hpc <;> rw [hpc] <;> rfl
  | look hpc | read hpc | write hpc | entryLock hpc | entryFirst hpc
  | exitUnlock hpc | upRead hpc =>
      exact kept_goto h rfl rfl rfl rfl rfl (fun hp => by cases hp)
        (fun _ hp => by cases hp) (by rw [hpc]; rfl) (live_none _)
  | storeCount hpc | countOver hpc | countFits hpc | clamp hpc
  | entryUnlock hpc | loadFirstCount hpc | endCopy hpc | exitLock hpc
  | exitLast hpc | emptyList hpc | resetCount hpc =>
      have hlive := h.needed _ (congrArg Pc.needsVector hpc)
      exact kept_goto h rfl rfl rfl rfl rfl (fun _ => hlive)
        (fun _ hp => by cases hp) (by rw [hpc]; rfl) (live_none _)

end Vector

/-!
## Vectors and counts
-/

/-- What a thread has loaded or is about to store fits the pointer: without a
vector there are no records. -/
def Pc.Numbered (pointer : Option Nat) : Pc file -> Prop
  | .storeCount _ n => pointer = none -> n = 0
  | .clamp _ => pointer ≠ none
  | .loadCount _ none => pointer = none
  | .loadVector _ n => 0 < n -> pointer ≠ none
  | .copying _ none n => n = 0
  | _ => True

def Pc.isStoring : Pc file -> Bool
  | .storeCount _ _ => true
  | _ => false

/-- While `kzalloc` has failed and the count is not yet stored, nobody is about
to evaluate the arguments of a copy. -/
structure Numbered (s : State thread file) : Prop where
  each : forall t, (s.pc t).Numbered s.pointer
  quiet : forall t u, (s.pc t).isStoring = true -> s.pointer = none ->
    (s.pc u).isLoading = false
  noVector : s.pointer = none -> s.g.rtUpdateVectorCount = 0 ∨
    exists t, (s.pc t).isStoring = true

section Counts

variable {s v : State thread file}

theorem numbered_init : Numbered (State.init : State thread file) where
  each := fun _ => trivial
  quiet := by
    intro t u h
    cases h
  noVector := fun _ => Or.inl rfl

theorem holdsCs_of_isStoring {p : Pc file} (h : p.isStoring = true) :
    p.holdsCs = true := by
  cases p with
  | storeCount f n => rfl
  | _ => cases h

theorem count_eq_zero (h : Numbered s) {t : thread}
    (hloading : (s.pc t).isLoading = true) (hnone : s.pointer = none) :
    s.g.rtUpdateVectorCount = 0 := by
  rcases h.noVector hnone with hzero | ⟨u, hu⟩
  · exact hzero
  · have hquiet := h.quiet u t hu hnone
    rw [hloading] at hquiet
    cases hquiet

variable [DecidableEq thread] [Fintype thread]

theorem numbered_goto {t : thread} {p : Pc file} (hlocked : Locked s)
    (h : Numbered s) (hpc : v.pc = Function.update s.pc t p)
    (hpointer : v.pointer = s.pointer) (hp : p.Numbered s.pointer)
    (hstoring : p.isStoring = false)
    (hloading : p.isLoading = true ->
      (s.pc t).isLoading = true ∨ (s.pc t).holdsCs = true)
    (hcount : s.pointer = none -> v.g.rtUpdateVectorCount = 0 ∨
      v.g.rtUpdateVectorCount = s.g.rtUpdateVectorCount ∧
        (s.pc t).isStoring = false) : Numbered v := by
  have hat : forall u, v.pc u = if u = t then p else s.pc u := by
    intro u
    rw [hpc]
    exact Function.update_apply s.pc t p u
  constructor
  · intro u
    rw [hpointer, hat]
    split
    · exact hp
    · exact h.each u
  · intro u w hu hnone
    rw [hpointer] at hnone
    rw [hat] at hu
    split at hu
    · rw [hstoring] at hu
      cases hu
    · rename_i hut
      have hquiet := h.quiet u w hu hnone
      rw [hat]
      split
      · rename_i hwt
        rw [hwt] at hquiet
        by_contra hloads
        rcases hloading (Bool.eq_true_of_not_eq_false hloads) with hwas | hholds
        · rw [hwas] at hquiet
          cases hquiet
        · exact hut (eq_of_holds hlocked (holdsCs_of_isStoring hu) hholds)
      · exact hquiet
  · intro hnone
    rw [hpointer] at hnone
    rcases hcount hnone with hzero | ⟨hsame, hidle⟩
    · exact Or.inl hzero
    · rw [hsame]
      rcases h.noVector hnone with hzero | ⟨u, hu⟩
      · exact Or.inl hzero
      · refine Or.inr ⟨u, ?_⟩
        rw [hat, if_neg]
        · exact hu
        · intro hut
          rw [hut, hidle] at hu
          cases hu

theorem numbered_publish {t : thread} {f : file} {n : Nat} {allocOk : Bool}
    (hlocked : Locked s) (h : Numbered s) (hpc : s.pc t = .publish f)
    (hothers : s.OtherLoads t -> allocOk = true ∧ s.pointer ≠ none)
    (hpublish : s.Publishes allocOk n v) :
    Numbered ((v.addEvent (.opened allocOk)).goto t (.storeCount f n)) := by
  have hsame : v.pc = s.pc := by
    cases hpublish <;> rfl
  have hnull : v.pointer = none -> allocOk = false ∧ n = 0 := by
    intro hnone
    cases hpublish with
    | missing => exact ⟨rfl, rfl⟩
    | live records => cases hnone
  have hat : forall u, ((v.addEvent (.opened allocOk)).goto t
      (.storeCount f n)).pc u = if u = t then .storeCount f n else s.pc u := by
    intro u
    rw [← hsame]
    exact Function.update_apply v.pc t _ u
  have halone : forall u, u ≠ t -> (s.pc u).holdsCs = false := by
    intro u hut
    by_contra hholds
    exact hut (eq_of_holds hlocked (Bool.eq_true_of_not_eq_false hholds)
      (by rw [hpc]; rfl))
  constructor
  · intro u
    rw [hat]
    split
    · intro hnone
      exact (hnull hnone).right
    · rename_i hut
      have hold := h.each u
      show (s.pc u).Numbered v.pointer
      cases hu : s.pc u with
      | storeCount f' n' | clamp f' =>
          have hfree := halone u hut
          rw [hu] at hfree
          cases hfree
      | loadCount f' vector =>
          cases vector with
          | none =>
              rw [hu] at hold
              exact absurd hold
                (hothers ⟨u, hut, by rw [hu]; rfl⟩).right
          | some a => trivial
      | loadVector f' n' =>
          intro _ hnone
          have halloc := (hothers ⟨u, hut, by rw [hu]; rfl⟩).left
          rw [(hnull hnone).left] at halloc
          cases halloc
      | copying f' vector n' =>
          rw [hu] at hold
          cases vector with
          | none => exact hold
          | some a => trivial
      | _ => trivial
  · intro u w _ hnone
    rw [hat]
    split
    · rfl
    · rename_i hwt
      by_contra hloads
      have halloc := (hothers
        ⟨w, hwt, Bool.eq_true_of_not_eq_false hloads⟩).left
      rw [(hnull hnone).left] at halloc
      cases halloc
  · intro _
    refine Or.inr ⟨t, ?_⟩
    rw [hat, if_pos rfl]
    rfl

variable [DecidableEq file]

theorem numbered_step {a : Action thread file} (hlocked : Locked s)
    (h : Numbered s) (hallowed : Orderly s a) (hmove : Move s a v) :
    Numbered v := by
  cases hmove with
  | pollReady hpc => exact ⟨h.each, h.quiet, h.noVector⟩
  | endPoll hpc hends =>
      refine numbered_goto hlocked h rfl rfl trivial rfl
        (fun hp => by cases hp) ?_
      intro _
      refine Or.inr ⟨?_, by rw [hpc]; rfl⟩
      cases hends <;> rfl
  | publish hpc hpublish =>
      simp only [Orderly, hpc] at hallowed
      exact numbered_publish hlocked h hpc hallowed hpublish
  | @storeCount t f n allocOk hpc =>
      have hn := h.each t
      rw [hpc] at hn
      exact numbered_goto hlocked h rfl rfl trivial rfl
        (fun hp => by cases hp) (fun hnone => Or.inl (hn hnone))
  | @clamp t f allocOk hpc =>
      have hsome := h.each t
      rw [hpc] at hsome
      exact numbered_goto hlocked h rfl rfl trivial rfl
        (fun hp => by cases hp) (fun hnone => absurd hnone hsome)
  | resetCount hpc =>
      exact numbered_goto hlocked h rfl rfl trivial rfl
        (fun hp => by cases hp) (fun _ => Or.inl rfl)
  | @countOver t f allocOk hpc hover =>
      refine numbered_goto hlocked h rfl rfl ?_ rfl (fun hp => by cases hp)
        (fun _ => Or.inr ⟨rfl, by rw [hpc]; rfl⟩)
      intro hnone
      rcases h.noVector hnone with hzero | ⟨u, hu⟩
      · lia
      · have hut := eq_of_holds hlocked (t := u) (u := t)
          (holdsCs_of_isStoring hu) (by rw [hpc]; rfl)
        rw [hut, hpc] at hu
        cases hu
  | entryUnlock hpc =>
      exact numbered_goto hlocked h rfl rfl trivial rfl
        (fun _ => Or.inr (by rw [hpc]; rfl))
        (fun _ => Or.inr ⟨rfl, by rw [hpc]; rfl⟩)
  | @loadFirstCount t f hpc =>
      refine numbered_goto hlocked h rfl rfl ?_ rfl
        (fun _ => Or.inl (by rw [hpc]; rfl))
        (fun _ => Or.inr ⟨rfl, by rw [hpc]; rfl⟩)
      intro hpos hnone
      have hzero := count_eq_zero h (t := t) (by rw [hpc]; rfl) hnone
      lia
  | loadFirstVector hpc =>
      refine numbered_goto hlocked h rfl rfl ?_ rfl
        (fun _ => Or.inl (by rw [hpc]; rfl))
        (fun _ => Or.inr ⟨rfl, by rw [hpc]; rfl⟩)
      cases hpointer : s.pointer with
      | none => rfl
      | some a => trivial
  | @loadCount t f vector allocOk hpc =>
      refine numbered_goto hlocked h rfl rfl ?_ rfl (fun hp => by cases hp)
        (fun _ => Or.inr ⟨rfl, by rw [hpc]; rfl⟩)
      have hold := h.each t
      rw [hpc] at hold
      cases vector with
      | none => exact count_eq_zero h (t := t) (by rw [hpc]; rfl) hold
      | some a => trivial
  | @loadVector t f n allocOk hpc =>
      refine numbered_goto hlocked h rfl rfl ?_ rfl (fun hp => by cases hp)
        (fun _ => Or.inr ⟨rfl, by rw [hpc]; rfl⟩)
      have hold := h.each t
      rw [hpc] at hold
      cases hpointer : s.pointer with
      | none =>
          by_contra hpos
          exact hold (Nat.pos_of_ne_zero hpos) hpointer
      | some a => trivial
  | free hpc =>
      exact numbered_goto hlocked h rfl rfl trivial rfl
        (fun hp => by cases hp) (fun _ => Or.inr ⟨rfl, by rw [hpc]; rfl⟩)
  | blackList hpc =>
      refine numbered_goto hlocked h rfl rfl trivial rfl
        (fun hp => by cases hp) (fun _ => Or.inr ⟨rfl, by rw [hpc]; rfl⟩)
  | interrupt hpc =>
      refine numbered_goto hlocked h rfl rfl trivial rfl
        (fun hp => by cases hp) (fun _ => Or.inr ⟨rfl, ?_⟩)
      rcases hpc with hpc | hpc <;> rw [hpc] <;> rfl
  | look hpc | read hpc | write hpc | entryLock hpc | entryFirst hpc
  | entryLater hpc | countFits hpc | endCopy hpc | exitLock hpc | exitLast hpc
  | exitOther hpc | emptyList hpc | exitUnlock hpc | upRead hpc | apply hpc =>
      exact numbered_goto hlocked h rfl rfl trivial rfl
        (fun hp => by cases hp) (fun _ => Or.inr ⟨rfl, by rw [hpc]; rfl⟩)

end Counts

/-!
## Over whole runs
-/

section Runs

variable [DecidableEq thread] [DecidableEq file] [Fintype thread]
variable {s v : State thread file}

theorem freed_step {a : Action thread file} (hkept : Kept s)
    (h : forall records, .kfreed (.freed records) ∉ s.log)
    (hmove : Move s a v) (records : List RtTable.VectorCell) :
    .kfreed (.freed records) ∉ v.log := by
  have hcons : forall event : Poll.Event file,
      event ≠ .kfreed (.freed records) ->
        .kfreed (.freed records) ∉ event :: s.log := by
    intro event hne hmem
    rcases List.mem_cons.mp hmem with hsame | hold
    · exact hne hsame.symm
    · exact h records hold
  cases hmove with
  | @free t f allocOk hpc =>
      have hlive := hkept.needed t (congrArg Pc.needsVector hpc)
      refine hcons _ ?_
      cases hpointer : s.pointer with
      | none =>
          intro hsame
          cases hsame
      | some a =>
          rcases Option.isSome_iff_exists.mp (hlive a hpointer) with
            ⟨found, hread⟩
          rw [s.pointee_of_read hread]
          intro hsame
          cases hsame
  | publish hpc hpublish =>
      cases hpublish <;> exact hcons _ (fun hsame => by cases hsame)
  | endCopy hpc => exact hcons _ (fun hsame => by cases hsame)
  | @apply t kmsg allocOk hpc =>
      show _ ∉ (if kmsg.opCode = rtRouteAdd then _ else s.log)
      split
      · exact hcons _ (fun hsame => by cases hsame)
      · exact h records
  | _ => exact h records

/-- In every disciplined run in which files read while they are registered,
register while nobody is on the blacklist and get their memory, the vector is
handled safely in all states. -/
theorem vectorSafe_of_orderly
    (h : Transition.Reachable step
      (fun s a => Disciplined s a ∧ Orderly s a) State.init s) :
    VectorSafe s := by
  have hinv := Transition.reachable_invariant
    (fun s : State thread file => Locked s ∧ Attended s ∧ Kept s ∧ Numbered s ∧
      forall records, .kfreed (.freed records) ∉ s.log) ?_ ?_ h
  · rcases hinv with ⟨_, _, hkept, hnumbered, hfreed⟩
    refine ⟨hfreed, ?_⟩
    intro t f vector n hpc hpos
    have hfits := hnumbered.each t
    have hlive := hkept.loaded t
    rw [hpc] at hfits hlive
    cases vector with
    | none =>
        have hzero : n = 0 := hfits
        lia
    | some a =>
        rcases Option.isSome_iff_exists.mp (hlive a rfl) with ⟨records, hread⟩
        exact ⟨records, s.pointee_of_read hread⟩
  · refine ⟨locked_init, attended_init, kept_init, numbered_init, ?_⟩
    intro records hmem
    cases hmem
  · intro s a v hinv hallowed hstep
    rcases hinv with ⟨hlocked, hattended, hkept, hnumbered, hfreed⟩
    have hmove := move_of_step hstep
    exact ⟨locked_step hlocked hmove,
      attended_step hlocked hattended hallowed hmove,
      kept_step hlocked hattended hkept hallowed.right hmove,
      numbered_step hlocked hnumbered hallowed.right hmove,
      freed_step hkept hfreed hmove⟩

end Runs

section Schedules

theorem vectorSafe_two_batches :
    exists s : State (Fin 3) (Fin 2),
      (s.vectors.next = 3 ∧ (s.log.countP fun
        | .kfreed (.live records) => records.length = 1
        | _ => false) = 2) ∧ VectorSafe s := by
  have hrun : exists s : State (Fin 3) (Fin 2),
      Transition.Reachable step (fun s a => Disciplined s a ∧ Orderly s a)
        State.init s ∧
        (decide (s.vectors.next = 3 ∧ (s.log.countP fun
          | .kfreed (.live records) => records.length = 1
          | _ => false) = 2)) = true :=
    Transition.exists_reachable_of_schedule
      (pollThrough 0 0 ++ pollThrough 1 1 ++
        writeThrough 2 Poll.someUpdate 52 ++
        [.poll 0 0 false false, .poll 1 1 false false] ++
        firstReadToCopy 0 0 1040 ++ firstReadToCopy 1 1 1040 ++
        endRead 1 false ++ endRead 0 true ++
        pollThrough 0 0 ++ pollThrough 1 1 ++
        writeThrough 2 Poll.someUpdate 52 ++
        [.poll 0 0 false false, .poll 1 1 false false] ++
        firstReadToCopy 0 0 1040 ++ endRead 0 false ++
        laterReadToCopy 1 1 1040 ++ endRead 1 true) _ (by decide +kernel)
  rcases hrun with ⟨s, hreach, htest⟩
  exact ⟨s, of_decide_eq_true htest, vectorSafe_of_orderly hreach⟩

/-- File `1` registers when the batch of file `0` is over and the lists are not
yet rotated: its read finds no snapshot to take and frees the only vector, with
its one record, again.  A file that has never registered copies a record while
the last registered file frees the vector. -/
theorem exists_double_free :
    (exists s : State (Fin 3) (Fin 2),
      Transition.Reachable step Supplied State.init s ∧
        (s.vectors.next = 1 ∧
          (exists records, records ≠ [] ∧ .kfreed (.live records) ∈ s.log) ∧
            .kfreed (.freed []) ∈ s.log) ∧ ¬ VectorSafe s) ∧
      exists s : State (Fin 3) (Fin 2),
        Transition.Reachable step Supplied State.init s ∧
          (exists a, s.pc 1 = .copying 1 (some a) 1 ∧
            s.vectors.read a = none) ∧ ¬ VectorSafe s := by
  constructor
  · have hrun : exists s : State (Fin 3) (Fin 2),
        Transition.Reachable step Supplied State.init s ∧
          (decide (s.vectors.next = 1 ∧
            (exists event, event ∈ s.log ∧ (match event with
              | .kfreed (.live records) => records != []
              | _ => false) = true) ∧
              .kfreed (.freed []) ∈ s.log)) = true :=
      Transition.exists_reachable_of_schedule
        (pollThrough 0 0 ++ writeThrough 2 Poll.someUpdate 52 ++
          [.poll 0 0 false false] ++ firstReadToCopy 0 0 1040 ++
          endRead 0 true ++ pollThrough 1 1 ++
          writeThrough 2 Poll.someUpdate 52 ++ [.poll 1 1 false false] ++
          laterReadToCopy 1 1 1040 ++ endRead 1 true) _ (by decide +kernel)
    rcases hrun with ⟨s, hreach, htest⟩
    rcases of_decide_eq_true htest with ⟨hone, ⟨event, hmem, hevent⟩, hfreed⟩
    split at hevent
    · rename_i records
      exact ⟨s, hreach, ⟨hone, ⟨records, by simpa using hevent, hmem⟩, hfreed⟩,
        fun hsafe => hsafe.freed [] hfreed⟩
    · cases hevent
  · have hrun : exists s : State (Fin 3) (Fin 2),
        Transition.Reachable step Supplied State.init s ∧
          (decide (s.pc 1 = .copying 1 (some 1) 1 ∧
            s.vectors.read 1 = none)) = true :=
      Transition.exists_reachable_of_schedule
        (pollThrough 0 0 ++ writeThrough 2 Poll.someUpdate 52 ++
          [.poll 0 0 false false, .poll 1 1 false false] ++
          firstReadToCopy 0 0 1040 ++ firstReadToCopy 1 1 1040 ++
          nexts 0 6) _ (by decide +kernel)
    rcases hrun with ⟨s, hreach, htest⟩
    rcases of_decide_eq_true htest with ⟨hpc, hread⟩
    refine ⟨s, hreach, ⟨1, hpc, hread⟩, ?_⟩
    intro hsafe
    rcases hsafe.copied 1 1 (some 1) 1 hpc Nat.one_pos with ⟨records, hlive⟩
    rw [s.pointee_of_freed hread] at hlive
    cases hlive

end Schedules

end Access
end RIBDriver
