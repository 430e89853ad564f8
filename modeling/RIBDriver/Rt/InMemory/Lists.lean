import RIBDriver.Common.HeapList.Refinement
import RIBDriver.Rt.InMemory.Model

/-!
# Lists of entries, updates and readers

How many addresses each function of the lists hands out, and what the lists of
the driver hold: a new entry goes in front and no other changes its address,
files are told apart by their addresses, and a search finds what a list of
files holds.
-/

namespace RIBDriver
namespace HeapList

open Heap (SameOutside)

/-!
## Addresses handed out
-/

section Next

variable {h h' h1 : Heap Cell} {ll ll' : LlT} {a : Nat} {c : Cell}

theorem next_write (hwrite : h.write a c = some h') : h'.next = h.next := by
  unfold Heap.write at hwrite
  split at hwrite
  · rw [← Option.some.inj hwrite]
    rfl
  · cases hwrite

theorem next_kfree {ptr : Option Nat} (hfree : kfree h ptr = some h') :
    h'.next = h.next := by
  cases ptr with
  | none => rw [← Option.some.inj hfree]
  | some a =>
      change h.free a = some h' at hfree
      unfold Heap.free at hfree
      split at hfree
      · rw [← Option.some.inj hfree]
        rfl
      · cases hfree

theorem next_addNode {node : Nat} {rc : RcT}
    (hcall : singlyLlAddNode h ll node = some (h', ll', rc)) :
    h'.next = h.next := by
  unfold singlyLlAddNode at hcall
  split at hcall
  · cases hcall
    rfl
  · rcases Option.bind_eq_some_iff.mp hcall with ⟨n, _, hcall⟩
    rcases Option.bind_eq_some_iff.mp hcall with ⟨h1, hwrite, hcall⟩
    cases hcall
    exact next_write hwrite

theorem next_addNodeByVal {data : List UInt8} {size : UInt32} {rc : RcT}
    (hcall : singlyLlAddNodeByVal h ll data size = some (h', ll', rc)) :
    h'.next = h.next + 2 := by
  unfold singlyLlAddNodeByVal at hcall
  split at hcall
  · rcases Option.bind_eq_some_iff.mp hcall with ⟨n, _, hcall⟩
    rcases Option.bind_eq_some_iff.mp hcall with ⟨h1, hwrite, hcall⟩
    have hlinked : h'.next = h1.next := next_addNode hcall
    have hfilled : h1.next = h.next + 2 := next_write hwrite
    rw [hlinked, hfilled]
  · cases hcall

theorem next_deleteNode {node : Nat}
    (hcall : singlyLlDeleteNode h ll node = some (h', ll')) :
    h'.next = h.next := by
  unfold singlyLlDeleteNode at hcall
  split at hcall
  · cases hcall
    rfl
  · rcases Option.bind_eq_some_iff.mp hcall with ⟨n, _, hcall⟩
    split at hcall
    · rcases Option.bind_eq_some_iff.mp hcall with ⟨h1, hfree, hcall⟩
      rcases Option.bind_eq_some_iff.mp hcall with ⟨successor, _, hcall⟩
      rcases Option.bind_eq_some_iff.mp hcall with ⟨h2, hwrite, hcall⟩
      rcases Option.bind_eq_some_iff.mp hcall with ⟨h3, hfree', hcall⟩
      cases hcall
      rw [next_kfree hfree', next_write hwrite, next_kfree hfree]
    · split at hcall
      · rcases Option.bind_eq_some_iff.mp hcall with ⟨h1, hfree, hcall⟩
        rcases Option.bind_eq_some_iff.mp hcall with ⟨h2, hfree', hcall⟩
        cases hcall
        rw [next_kfree hfree', next_kfree hfree]
      · rcases Option.bind_eq_some_iff.mp hcall with ⟨trav, _, hcall⟩
        rcases Option.bind_eq_some_iff.mp hcall with ⟨t, _, hcall⟩
        rcases Option.bind_eq_some_iff.mp hcall with ⟨h1, hwrite, hcall⟩
        rcases Option.bind_eq_some_iff.mp hcall with ⟨h2, hfree, hcall⟩
        rcases Option.bind_eq_some_iff.mp hcall with ⟨h3, hfree', hcall⟩
        cases hcall
        rw [next_kfree hfree', next_kfree hfree, next_write hwrite]

theorem next_deleteNodeByValue {key : List UInt8} {size n : UInt32}
    (hcall : singlyLlDeleteNodeByValue h ll key size = some (h', ll', n)) :
    h'.next = h.next := by
  unfold singlyLlDeleteNodeByValue at hcall
  split at hcall
  · cases hcall
    rfl
  · rcases Option.bind_eq_some_iff.mp hcall with ⟨found, _, hcall⟩
    split at hcall
    · cases hcall
      rfl
    · rcases Option.bind_eq_some_iff.mp hcall with ⟨⟨h1, ll1⟩, hdelete, hcall⟩
      cases hcall
      exact next_deleteNode hdelete

theorem next_freeNodes {fuel : Nat} {head next : Option Nat}
    (hcall : freeNodes fuel h head next = some h') : h'.next = h.next := by
  induction fuel generalizing h head next with
  | zero => cases hcall
  | succ fuel ih =>
      unfold freeNodes at hcall
      rcases Option.bind_eq_some_iff.mp hcall with ⟨n, _, hcall⟩
      rcases Option.bind_eq_some_iff.mp hcall with ⟨h1, hfree, hcall⟩
      rcases Option.bind_eq_some_iff.mp hcall with ⟨h2, hfree', hcall⟩
      have hfreed : h2.next = h.next := by
        rw [next_kfree hfree', next_kfree hfree]
      split at hcall
      · cases hcall
        exact hfreed
      · rcases Option.bind_eq_some_iff.mp hcall with ⟨n, _, hcall⟩
        rw [ih hcall, hfreed]

theorem next_deleteSinglyLl (hcall : deleteSinglyLl h ll = some (h', ll')) :
    h'.next = h.next := by
  unfold deleteSinglyLl at hcall
  split at hcall
  · cases hcall
    rfl
  · rcases Option.bind_eq_some_iff.mp hcall with ⟨n, _, hcall⟩
    rcases Option.bind_eq_some_iff.mp hcall with ⟨h1, hfree, hcall⟩
    cases hcall
    exact next_freeNodes hfree

end Next

/-!
## Lists of files
-/

section Files

variable {file : Type _} (ptr : FilePointers file)
variable {h : Heap Cell} {ll : LlT} {items : List Item} {files : List file}

theorem injective_bytes : Function.Injective ptr.bytes := ptr.injective

theorem length_of_files {payload : List UInt8}
    (hmem : payload ∈ files.map ptr.bytes) :
    payload.length = (8 : UInt32).toNat := by
  rcases List.mem_map.mp hmem with ⟨f, _, hbytes⟩
  rw [← hbytes, ptr.length_bytes]
  rfl

theorem comparable_files (f : file) :
    Comparable (ptr.bytes f) 8 (files.map ptr.bytes) := by
  constructor
  · rw [ptr.length_bytes]
    exact Nat.le_refl _
  · intro payload hmem
    rw [length_of_files ptr hmem]

theorem addNodeByVal_files (howns : Owns h ll items)
    (hfiles : payloads items = files.map ptr.bytes) (f : file)
    (hroom : files.length + 1 < UInt32.size) :
    exists h' ll' rc,
      singlyLlAddNodeByVal h ll (ptr.bytes f) 8 = some (h', ll', rc) ∧
        Becomes h items h' ll' ((f :: files).map ptr.bytes) := by
  have hlength := congrArg List.length hfiles
  rw [payloads, List.length_map, List.length_map] at hlength
  have hbytes : (ptr.bytes f).length = (8 : UInt32).toNat := ptr.length_bytes f
  rcases addNodeByVal_becomes howns hbytes.ge
    (by rw [hlength]; exact hroom) with ⟨h', ll', hcall, hbecomes⟩
  refine ⟨h', ll', _, hcall, ?_⟩
  rw [hfiles, List.take_of_length_le hbytes.le] at hbecomes
  exact hbecomes

variable [DecidableEq file]

theorem isValuePresent_files (howns : Owns h ll items)
    (hfiles : payloads items = files.map ptr.bytes) (f : file) :
    exists found, singlyLlIsValuePresent h ll (ptr.bytes f) 8 = some found ∧
      found.isSome = decide (f ∈ files) := by
  have hfits : Comparable (ptr.bytes f) 8 (payloads items) := by
    rw [hfiles]
    exact comparable_files ptr f
  refine ⟨_, search_eq howns hfits, ?_⟩
  have hlengths : forall payload, payload ∈ files.map ptr.bytes ->
      payload.length = (8 : UInt32).toNat := fun _ hmem => length_of_files ptr hmem
  have hpresent := find_isSome_eq_isValuePresent (ptr.length_bytes f) hlengths
  rw [← hfiles, payloads, List.find?_map, Option.isSome_map, ← payloads,
    hfiles] at hpresent
  rw [Option.isSome_map]
  refine hpresent.trans ?_
  simp [RIBDriver.singlyLlIsValuePresent,
    List.mem_map_of_injective (injective_bytes ptr)]

theorem eraseP_files (files : List file) (f : file) :
    (files.map ptr.bytes).eraseP (agree · (ptr.bytes f) 8) =
      (files.erase f).map ptr.bytes := by
  have herase : files.eraseP (fun g => agree (ptr.bytes g) (ptr.bytes f) 8) =
      files.erase f := by
    refine eraseP_eq_singlyLlDeleteNodeByValue fun g _ => ?_
    rw [agree_iff (ptr.length_bytes f) (ptr.length_bytes g)]
    exact ⟨ptr.injective g f, fun hsame => by rw [hsame]⟩
  rw [List.eraseP_map, ← herase]
  rfl

theorem deleteNodeByValue_files (howns : Owns h ll items)
    (hfiles : payloads items = files.map ptr.bytes) (f : file) :
    exists h' ll' n,
      singlyLlDeleteNodeByValue h ll (ptr.bytes f) 8 = some (h', ll', n) ∧
        Becomes h items h' ll' ((files.erase f).map ptr.bytes) := by
  have hfits : Comparable (ptr.bytes f) 8 (payloads items) := by
    rw [hfiles]
    exact comparable_files ptr f
  rcases deleteNodeByValue_becomes howns hfits with ⟨h', ll', hcall, hbecomes⟩
  refine ⟨h', ll', _, hcall, ?_⟩
  rw [hfiles, eraseP_files] at hbecomes
  exact hbecomes

end Files

end HeapList
end RIBDriver
