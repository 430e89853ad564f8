import RIBDriver.Library.Counting
import RIBDriver.Rt.Poll.Moves

/-!
# The two lists of readers

In a disciplined run a file is read by one thread at a time and is not on the
blacklist while it may be read, so the two lists never share a file and no file
is on one of them twice.
-/

namespace RIBDriver
namespace Poll

open Counting

variable {thread file : Type _}

structure Orderly (s : State thread file) : Prop where
  alone : forall t t' f, (s.pc t).file? = some f -> (s.pc t').file? = some f ->
    t = t'
  ready : forall f, s.ready f = true -> f ∉ s.black ∧ ¬ s.Reading f
  reading : forall t f, (s.pc t).file? = some f -> f ∉ s.black

structure Listed (s : State thread file) : Prop where
  readers_nodup : s.readers.Nodup
  black_nodup : s.black.Nodup
  disjoint : forall f, f ∈ s.readers -> f ∉ s.black

section Steps

variable {s u : State thread file}

theorem file?_eq_of_pc {p : ReadPc file} {f : file}
    (h : p = .copy f ∨ p = .exit f) : p.file? = some f := by
  rcases h with h | h <;> rw [h] <;> rfl

theorem orderly_of_same (h : Orderly s)
    (hfiles : forall t, (u.pc t).file? = (s.pc t).file?)
    (hready : forall f, u.ready f = true -> s.ready f = true ∨
      f ∉ s.black ∧ ¬ s.Reading f)
    (hblack : u.black = s.black) : Orderly u where
  alone := by
    intro t t' f ht ht'
    rw [hfiles] at ht ht'
    exact h.alone t t' f ht ht'
  ready := by
    intro f hf
    have hold : f ∉ s.black ∧ ¬ s.Reading f := by
      rcases hready f hf with hready | hfree
      · exact h.ready f hready
      · exact hfree
    rw [hblack]
    refine ⟨hold.left, ?_⟩
    intro hreading
    rcases hreading with ⟨t, ht⟩
    rw [hfiles] at ht
    exact hold.right ⟨t, ht⟩
  reading := by
    intro t f ht
    rw [hfiles] at ht
    rw [hblack]
    exact h.reading t f ht

theorem orderly_rotate (h : Orderly s) : Orderly s.rotate where
  alone := h.alone
  ready := by
    intro f hf
    exact ⟨List.not_mem_nil, (h.ready f hf).right⟩
  reading := by
    intro t f _
    exact List.not_mem_nil

theorem listed_rotate (h : Listed s) : Listed s.rotate where
  readers_nodup := h.black_nodup
  black_nodup := List.nodup_nil
  disjoint := by
    intro f _
    exact List.not_mem_nil

theorem listed_of_same (h : Listed s) (hreaders : u.readers = s.readers)
    (hblack : u.black = s.black) : Listed u where
  readers_nodup := by
    rw [hreaders]
    exact h.readers_nodup
  black_nodup := by
    rw [hblack]
    exact h.black_nodup
  disjoint := by
    rw [hreaders, hblack]
    exact h.disjoint

variable [DecidableEq file]

theorem readers_register (s : State thread file) (f : file) :
    (s.register f).readers =
      if f ∈ s.readers then s.readers else f :: s.readers :=
  RtTable.pollReadersList_addUnique _ f

theorem listed_register {f : file} (h : Listed s) (hblack : f ∉ s.black) :
    Listed (s.register f) := by
  by_cases hmem : f ∈ s.readers
  · have hsame : (s.register f).readers = s.readers := by
      rw [readers_register, if_pos hmem]
    constructor
    · rw [hsame]
      exact h.readers_nodup
    · exact h.black_nodup
    · rw [hsame]
      exact h.disjoint
  · have hnew : (s.register f).readers = f :: s.readers := by
      rw [readers_register, if_neg hmem]
    constructor
    · rw [hnew]
      exact List.nodup_cons.mpr ⟨hmem, h.readers_nodup⟩
    · exact h.black_nodup
    · intro f' hf'
      rw [hnew] at hf'
      rcases List.mem_cons.mp hf' with hsame | hold
      · rw [hsame]
        exact hblack
      · exact h.disjoint f' hold

variable [DecidableEq thread]

theorem orderly_enter {t : thread} {f : file} (h : Orderly s)
    (hready : s.ready f = true) : Orderly (s.enter t f) := by
  have hf := h.ready f hready
  have hpoint : forall t', ((s.enter t f).pc t').file? =
      if t' = t then some f else (s.pc t').file? := by
    intro t'
    show ((Function.update s.pc t (.copy f)) t').file? = _
    by_cases ht : t' = t
    · rw [if_pos ht, ht, Function.update_self]
      rfl
    · rw [if_neg ht, Function.update_of_ne ht]
  constructor
  · intro t1 t2 f' h1 h2
    rw [hpoint] at h1 h2
    by_cases ht1 : t1 = t
    · by_cases ht2 : t2 = t
      · rw [ht1, ht2]
      · rw [if_pos ht1] at h1
        rw [if_neg ht2] at h2
        rw [← Option.some.inj h1] at h2
        exact absurd ⟨t2, h2⟩ hf.right
    · rw [if_neg ht1] at h1
      by_cases ht2 : t2 = t
      · rw [if_pos ht2] at h2
        rw [← Option.some.inj h2] at h1
        exact absurd ⟨t1, h1⟩ hf.right
      · rw [if_neg ht2] at h2
        exact h.alone t1 t2 f' h1 h2
  · intro f' hf'
    change Function.update s.ready f false f' = true at hf'
    by_cases hself : f' = f
    · rw [hself, Function.update_self] at hf'
      cases hf'
    · rw [Function.update_of_ne hself] at hf'
      have hold := h.ready f' hf'
      refine ⟨hold.left, ?_⟩
      intro hreading
      rcases hreading with ⟨t', ht'⟩
      rw [hpoint] at ht'
      by_cases ht : t' = t
      · rw [if_pos ht] at ht'
        exact hself (Option.some.inj ht').symm
      · rw [if_neg ht] at ht'
        exact hold.right ⟨t', ht'⟩
  · intro t' f' ht'
    rw [hpoint] at ht'
    by_cases ht : t' = t
    · rw [if_pos ht] at ht'
      rw [← Option.some.inj ht']
      exact hf.left
    · rw [if_neg ht] at ht'
      exact h.reading t' f' ht'

theorem orderly_leave {t : thread} {f : file} (h : Orderly s)
    (hpc : s.pc t = .exit f) : Orderly (s.leave t f) := by
  have hself : (s.pc t).file? = some f := by rw [hpc]; rfl
  have hstays : forall t' f', ((s.leave t f).pc t').file? = some f' ->
      (s.pc t').file? = some f' ∧ f' ≠ f := by
    intro t' f' ht'
    change ((Function.update s.pc t .idle) t').file? = some f' at ht'
    by_cases ht : t' = t
    · rw [ht, Function.update_self] at ht'
      cases ht'
    · rw [Function.update_of_ne ht] at ht'
      refine ⟨ht', ?_⟩
      intro hsame
      rw [hsame] at ht'
      exact ht (h.alone t' t f ht' hself)
  constructor
  · intro t1 t2 f' h1 h2
    exact h.alone t1 t2 f' (hstays t1 f' h1).left (hstays t2 f' h2).left
  · intro f' hf'
    have hold := h.ready f' hf'
    constructor
    · show f' ∉ f :: s.black
      intro hmem
      rcases List.mem_cons.mp hmem with hsame | hblack
      · rw [hsame] at hold
        exact hold.right ⟨t, hself⟩
      · exact hold.left hblack
    · intro hreading
      rcases hreading with ⟨t', ht'⟩
      exact hold.right ⟨t', (hstays t' f' ht').left⟩
  · intro t' f' ht'
    have hold := hstays t' f' ht'
    show f' ∉ f :: s.black
    intro hmem
    rcases List.mem_cons.mp hmem with hsame | hblack
    · exact hold.right hsame
    · exact h.reading t' f' hold.left hblack

theorem orderly_step {a : Action thread file} (h : Orderly s)
    (hdisciplined : Disciplined s a) (hmove : Move s a u) : Orderly u := by
  cases hmove with
  | pollReady hblack hdata hidle =>
      rename_i f nonblock interrupted
      refine orderly_of_same h (fun _ => rfl) ?_ rfl
      intro f' hf'
      change Function.update s.ready f true f' = true at hf'
      by_cases hsame : f' = f
      · rw [hsame]
        exact Or.inr ⟨hblack, hidle⟩
      · rw [Function.update_of_ne hsame] at hf'
        exact Or.inl hf'
  | pollStay => exact h
  | pollRegister hblack hempty =>
      exact orderly_of_same h (fun _ => rfl) (fun _ hf => Or.inl hf) rfl
  | pollRotate hblack hempty hreaders => exact orderly_rotate h
  | entryInterrupted hpc => cases hdisciplined.left
  | entryFirst hpc hblack hvector =>
      refine orderly_enter ?_ hdisciplined.right
      exact orderly_of_same h (fun _ => rfl) (fun _ hf => Or.inl hf) rfl
  | entryLater hpc hblack =>
      refine orderly_enter ?_ hdisciplined.right
      exact orderly_of_same h (fun _ => rfl) (fun _ hf => Or.inl hf) rfl
  | copy hpc =>
      rename_i t f
      refine orderly_of_same h ?_ (fun _ hf => Or.inl hf) rfl
      intro t'
      show ((Function.update s.pc t (.exit f)) t').file? = _
      by_cases ht : t' = t
      · rw [ht, Function.update_self, hpc]
        rfl
      · rw [Function.update_of_ne ht]
  | exitInterrupted hpc => cases hdisciplined.left
  | exitLast hpc hone =>
      refine orderly_leave ?_ hpc
      exact orderly_of_same h (fun _ => rfl) (fun _ hf => Or.inl hf) rfl
  | exitOther hpc hone => exact orderly_leave h hpc
  | writeAdd hadd hreaders =>
      exact orderly_of_same h (fun _ => rfl) (fun _ hf => Or.inl hf) rfl
  | writeOther hadd => exact h

theorem listed_leave {t : thread} {f : file} (h : Listed s)
    (hblack : f ∉ s.black) : Listed (s.leave t f) where
  readers_nodup := h.readers_nodup.erase f
  black_nodup := List.nodup_cons.mpr ⟨hblack, h.black_nodup⟩
  disjoint := by
    intro f' hf'
    change f' ∈ s.readers.erase f at hf'
    rcases (h.readers_nodup.mem_erase_iff).mp hf' with ⟨hne, hmem⟩
    show f' ∉ f :: s.black
    intro hin
    rcases List.mem_cons.mp hin with hsame | hold
    · exact hne hsame
    · exact h.disjoint f' hmem hold

theorem listed_step {a : Action thread file} (horderly : Orderly s)
    (h : Listed s) (hmove : Move s a u) : Listed u := by
  cases hmove with
  | pollRegister hblack hempty => exact listed_register h hblack
  | pollRotate hblack hempty hreaders => exact listed_rotate h
  | exitLast hpc hone =>
      refine listed_leave (listed_of_same h rfl rfl) ?_
      exact horderly.reading _ _ (file?_eq_of_pc (Or.inr hpc))
  | exitOther hpc hone =>
      refine listed_leave h ?_
      exact horderly.reading _ _ (file?_eq_of_pc (Or.inr hpc))
  | pollReady hblack hdata hidle => exact listed_of_same h rfl rfl
  | entryInterrupted hpc => exact listed_of_same h rfl rfl
  | entryFirst hpc hblack hvector => exact listed_of_same h rfl rfl
  | entryLater hpc hblack => exact listed_of_same h rfl rfl
  | copy hpc => exact listed_of_same h rfl rfl
  | exitInterrupted hpc => exact listed_of_same h rfl rfl
  | writeAdd hadd hreaders => exact listed_of_same h rfl rfl
  | pollStay => exact h
  | writeOther hadd => exact h

end Steps

theorem orderly_init : Orderly (State.init : State thread file) where
  alone := by
    intro t t' f ht
    cases ht
  ready := by
    intro f hf
    cases hf
  reading := by
    intro t f ht
    cases ht

theorem listed_init : Listed (State.init : State thread file) where
  readers_nodup := List.nodup_nil
  black_nodup := List.nodup_nil
  disjoint := by
    intro f hf
    cases hf

/-!
## Holders of the read side

In an uninterrupted run `rt->rw_sem` counts the threads inside `rt_read`.
-/

def inside (_t : thread) : ReadPc file -> Nat
  | .idle => 0
  | _ => 1

section Holders

variable [DecidableEq thread]
variable [Fintype thread] {s : State thread file} {t : thread} {f : file}

theorem inside_update (t : thread) (p : ReadPc file) :
    total inside (Function.update s.pc t p) + inside t (s.pc t) =
      total inside s.pc + inside t p :=
  total_update inside s.pc t p

theorem locked_enter (hlocked : s.g.rwSem.readers = total inside s.pc)
    (hpc : s.pc t = .idle) :
    s.g.rwSem.readers + 1 =
      total inside (Function.update s.pc t (.copy f)) := by
  have hmove := inside_update (s := s) t (.copy f)
  rw [hpc] at hmove
  simp only [inside] at hmove
  lia

theorem locked_copyOut (hlocked : s.g.rwSem.readers = total inside s.pc)
    (hpc : s.pc t = .copy f) :
    s.g.rwSem.readers = total inside (Function.update s.pc t (.exit f)) := by
  have hmove := inside_update (s := s) t (.exit f)
  rw [hpc] at hmove
  simp only [inside] at hmove
  lia

theorem locked_leave (hlocked : s.g.rwSem.readers = total inside s.pc)
    (hpc : s.pc t = .exit f) :
    s.g.rwSem.readers - 1 = total inside (Function.update s.pc t .idle) := by
  have hmove := inside_update (s := s) t .idle
  rw [hpc] at hmove
  simp only [inside] at hmove
  lia

end Holders

end Poll
end RIBDriver
