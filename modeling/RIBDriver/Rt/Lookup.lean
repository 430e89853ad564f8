import RIBDriver.Common.HeapList.Deletion
import RIBDriver.Rt.Transfer

/-!
# Lookup and deletion of an entry

`lookup_rt_table` and `delete_rt_table_entry` on the routing table as a list in
the heap, whose payloads are the 48 bytes of the entries.  The lookup calls
`strncpy` where a comparison belongs.
-/

namespace RIBDriver
namespace HeapList

open Heap (SameOutside)

/-- What `strncpy` writes: the source up to its first zero, and zeros. -/
def strncpyBytes (src : List UInt8) (n : Nat) : List UInt8 :=
  let text := (src.take n).takeWhile (· != 0)
  text ++ List.replicate (n - text.length) 0

def strncpy (h : Heap Cell) (dst : Option Nat) (src : List UInt8) (n : Nat) :
    Option (Heap Cell × Option Nat) :=
  match dst with
  | none => none
  | some a =>
      match h.read a with
      | some (.bytes old) =>
          if n ≤ old.length then do
            let h <- h.write a (.bytes (strncpyBytes src n ++ old.drop n))
            some (h, some a)
          else none
      | _ => none

/-- The loop of `lookup_rt_table`, with the rounds left.  `dst_ip` is the first
field of an entry. -/
def lookupLoop (ipKey : List UInt8) : Nat -> Heap Cell -> Option Nat ->
    Option (Heap Cell × Option Nat)
  | 0, h, _ => some (h, none)
  | i + 1, h, head => do
      let n <- deref h head
      let (h, dst) <- strncpy h n.data ipKey 16
      if dst = none then some (h, n.data)
      else lookupLoop ipKey i h n.next

/-- The pointer to the entry found comes last. -/
def lookupRtTable (h : Heap Cell) (ll : LlT) (ipKey : List UInt8) :
    Option (Heap Cell × Option Nat) :=
  lookupLoop ipKey ll.nodeCount.toNat h ll.head

def deleteRtTableEntry (h : Heap Cell) (ll : LlT) (ipKey : List UInt8) :
    Option (Heap Cell × LlT × UInt32) :=
  singlyLlDeleteNodeByValue h ll ipKey 16

/-!
## What the two functions are for
-/

def ZeroPadded (bytes : List UInt8) : Prop :=
  exists text n, bytes = text ++ List.replicate n 0 ∧ (0 : UInt8) ∉ text

/-- A routing table: each payload is an entry with a padded `dst_ip`. -/
structure TableOf (h : Heap Cell) (ll : LlT) (items : List Item) : Prop where
  owns : Owns h ll items
  entries : forall i, i ∈ items -> exists e : RtEntry,
    i.payload = e.bytes ∧ ZeroPadded e.dstIp.toList

def hasDst (ipKey : List UInt8) (i : Item) : Bool := agree i.payload ipKey 16

/-- The lookup returns the first entry with the key, which is the one deletion
frees, or `NULL` if deletion would return 0, and leaves the entries alone. -/
structure FindsWhatDeletionFrees (h : Heap Cell)
    (items : List Item) (ipKey : List UInt8) (h' : Heap Cell)
    (found : Option Nat) (hd : Heap Cell) (deleted : UInt32) : Prop where
  first : found = (items.find? (hasDst ipKey)).map (·.data)
  absent : found = none <-> deleted = 0
  frees : forall i, i ∈ items ->
    (found = some i.data <-> hd.read i.data ≠ h.read i.data)
  kept : forall i, i ∈ items -> h'.read i.data = h.read i.data

def LookupCorrect (h : Heap Cell) (ll : LlT) (items : List Item)
    (ipKey : List UInt8) : Prop :=
  exists h' found hd lld deleted,
    lookupRtTable h ll ipKey = some (h', found) ∧
      deleteRtTableEntry h ll ipKey = some (hd, lld, deleted) ∧
        FindsWhatDeletionFrees h items ipKey h' found hd deleted

/-!
## What the lookup does
-/

section Strncpy

variable {h : Heap Cell} {a n : Nat} {old src : List UInt8}

theorem strncpyBytes_of_zeroPadded (hpadded : ZeroPadded src) :
    strncpyBytes src src.length = src := by
  rcases hpadded with ⟨text, n, hsrc, hzero⟩
  have htext : (src.take src.length).takeWhile (· != 0) = text := by
    rw [List.take_length, hsrc, List.takeWhile_append_of_pos]
    · cases n with
      | zero => simp
      | succ n => simp [List.replicate_succ]
    · intro b hb
      rw [bne_iff_ne]
      intro hsame
      rw [hsame] at hb
      exact hzero hb
  have hlength : src.length - text.length = n := by
    rw [hsrc, List.length_append, List.length_replicate]
    lia
  rw [strncpyBytes, htext, hlength]
  exact hsrc.symm

theorem strncpy_of_read (src : List UInt8)
    (hread : h.read a = some (.bytes old))
    (hfits : n ≤ old.length) :
    exists h', strncpy h (some a) src n = some (h', some a) ∧
      h'.read a = some (.bytes (strncpyBytes src n ++ old.drop n)) ∧
        SameOutside [a] h h' := by
  rcases Heap.write_of_read (Cell.bytes (strncpyBytes src n ++ old.drop n))
    hread with ⟨h', hwrite, hnew, hsame⟩
  exists h'
  constructor
  · simp only [strncpy, hread, hfits, if_true, hwrite, Option.bind_eq_bind,
      Option.bind_some]
  · exact ⟨hnew, hsame⟩

end Strncpy

section Lookup

variable {h : Heap Cell} {ll : LlT} {items : List Item} {ipKey : List UInt8}

def Item.overwrite (ipKey : List UInt8) (i : Item) : Item :=
  { i with payload := strncpyBytes ipKey 16 ++ i.payload.drop 16 }

theorem headOr_overwrite (after : Option Nat) (items : List Item) :
    headOr after (items.map (Item.overwrite ipKey)) = headOr after items := by
  cases items with
  | nil => rfl
  | cons i rest => rfl

theorem footprint_overwrite (items : List Item) :
    footprint (items.map (Item.overwrite ipKey)) = footprint items := by
  induction items with
  | nil => rfl
  | cons i rest ih =>
      rw [List.map_cons, footprint_cons, footprint_cons, ih]
      rfl

theorem lookupLoop_segment (ipKey : List UInt8)
    (hitems : Segment h none items)
    (hnodup : (footprint items).Nodup)
    (hlong : forall i, i ∈ items -> 16 ≤ i.payload.length) :
    exists h', lookupLoop ipKey items.length h (headOr none items) =
        some (h', none) ∧
      Segment h' none (items.map (Item.overwrite ipKey)) ∧
        SameOutside (items.map (·.data)) h h' := by
  induction items generalizing h with
  | nil => exact ⟨h, rfl, trivial, Heap.sameOutside_refl _ h⟩
  | cons i rest ih =>
      rcases apart_head hnodup with ⟨hi, hirest⟩
      rcases hitems.left.node with ⟨dataSize, hnode⟩
      have hderef := deref_of_read hnode
      rcases strncpy_of_read ipKey hitems.left.data
        (hlong i List.mem_cons_self) with ⟨h1, hcopy, hnew, hsame1⟩
      have hrest : Segment h1 none rest := by
        apply segment_frame hitems.right hsame1
        intro a ha
        rw [List.mem_singleton.mp ha]
        exact hirest.data
      rcases ih hrest (hnodup.sublist (by simp))
        (fun j hj => hlong j (List.mem_cons_of_mem _ hj)) with
          ⟨h', hloop, hdone, hsame2⟩
      have houtside : forall a, a ∉ footprint rest ->
          h'.read a = h1.read a := by
        intro a ha
        apply hsame2
        intro hmem
        apply ha
        rcases List.mem_map.mp hmem with ⟨j, hj, hdata⟩
        rw [← hdata]
        exact List.mem_flatMap.mpr ⟨j, hj, by simp⟩
      exists h'
      constructor
      · show lookupLoop ipKey (rest.length + 1) h (some i.node) = _
        simp only [lookupLoop, hderef, Option.bind_eq_bind, Option.bind_some,
          hcopy, reduceCtorEq, if_false]
        exact hloop
      · constructor
        · constructor
          · constructor
            · exists dataSize
              show h'.read i.node = _
              rw [houtside _ hirest.node, hsame1 _ (by simpa using hi),
                headOr_overwrite]
              exact hnode
            · show h'.read i.data = _
              rw [houtside _ hirest.data]
              exact hnew
          · exact hdone
        · intro a ha
          rw [List.map_cons, List.mem_cons, not_or] at ha
          rw [hsame2 a ha.right, hsame1 a (by simpa using ha.left)]

theorem lookupRtTable_overwrites (ipKey : List UInt8)
    (howns : Owns h ll items)
    (hlong : forall i, i ∈ items -> 16 ≤ i.payload.length) :
    exists h', lookupRtTable h ll ipKey = some (h', none) ∧
      Owns h' ll (items.map (Item.overwrite ipKey)) ∧
        SameOutside (items.map (·.data)) h h' := by
  rcases lookupLoop_segment ipKey howns.chain howns.nodup hlong with
    ⟨h', hloop, hdone, hsame⟩
  exists h'
  constructor
  · rw [lookupRtTable, howns.count, howns.head]
    exact hloop
  · constructor
    · constructor
      · rw [headOr_overwrite]
        exact howns.head
      · rw [List.length_map]
        exact howns.count
      · exact hdone
      · rw [footprint_overwrite]
        exact howns.nodup
    · exact hsame

theorem length_payload (htable : TableOf h ll items) {i : Item}
    (hi : i ∈ items) : 16 ≤ i.payload.length := by
  rcases htable.entries i hi with ⟨e, hpayload, _⟩
  rw [hpayload, e.length_bytes, sizeofRtEntry]
  lia

theorem hasDst_of_overwrite {i : Item} (hkey : ipKey.length = 16)
    (hpadded : ZeroPadded ipKey)
    (hsame : (i.overwrite ipKey).payload = i.payload) :
    hasDst ipKey i = true := by
  have hcopy : strncpyBytes ipKey 16 = ipKey := by
    rw [← hkey]
    exact strncpyBytes_of_zeroPadded hpadded
  have hpayload : i.payload = ipKey ++ i.payload.drop 16 := by
    rw [Item.overwrite, hcopy] at hsame
    exact hsame.symm
  rw [hasDst, agree, hpayload, beq_iff_eq]
  show (ipKey ++ i.payload.drop 16).take 16 = ipKey.take 16
  rw [List.take_append_of_le_length (Nat.le_of_eq hkey.symm)]

/-- The lookup does what it should on the empty table and on no other. -/
theorem lookupCorrect_iff_empty (htable : TableOf h ll items)
    (hkey : ipKey.length = 16) (hpadded : ZeroPadded ipKey) :
    LookupCorrect h ll items ipKey <-> items = [] := by
  constructor
  · intro hcorrect
    rcases hcorrect with ⟨h', found, hd, lld, deleted, hcall, _, hfinds⟩
    rcases lookupRtTable_overwrites ipKey htable.owns
      fun i hi => length_payload htable hi with ⟨h1, hlookup, hdone, _⟩
    rw [hcall, Option.some.injEq, Prod.mk.injEq] at hlookup
    have hfirst := hfinds.first
    rw [hlookup.right] at hfirst
    cases items with
    | nil => rfl
    | cons i rest =>
        have hkept := hfinds.kept i List.mem_cons_self
        have hnew : h'.read i.data = some (.bytes (i.overwrite ipKey).payload) := by
          rw [hlookup.left]
          exact hdone.chain.left.data
        rw [hnew, htable.owns.chain.left.data, Option.some.injEq,
          Cell.bytes.injEq] at hkept
        have hhas := hasDst_of_overwrite hkey hpadded hkept
        rw [List.find?_cons_of_pos hhas] at hfirst
        cases hfirst
  · intro hnil
    rw [hnil]
    have howns := htable.owns
    rw [hnil] at howns
    have hhead : ll.head = none := howns.head
    have hcount : ll.nodeCount.toNat = 0 := howns.count
    exists h, none, h, ll, 0
    constructor
    · rw [lookupRtTable, hcount]
      rfl
    · constructor
      · rw [deleteRtTableEntry, singlyLlDeleteNodeByValue, hhead]
      · constructor
        · rfl
        · exact iff_of_true rfl rfl
        · intro i hi
          cases hi
        · intro i hi
          cases hi

end Lookup

section Tables

def keyOne : Vector UInt8 16 :=
  #v[0x31, 0x30, 0x2e, 0x30, 0x2e, 0x30, 0x2e, 0x31, 0, 0, 0, 0, 0, 0, 0, 0]

def entryOne : RtEntry where
  dstIp := keyOne
  nxtHopIp := keyOne
  oif := Vector.replicate 16 0

theorem zeroPadded_keyOne : ZeroPadded keyOne.toList :=
  ⟨[0x31, 0x30, 0x2e, 0x30, 0x2e, 0x30, 0x2e, 0x31], 8, rfl, by decide⟩

def oneEntry : Heap Cell :=
  let h := (Heap.empty.alloc (.node ⟨some 1, 48, none⟩)).1
  (h.alloc (.bytes entryOne.bytes)).1

theorem tableOf_oneEntry :
    TableOf oneEntry ⟨1, some 0⟩ [⟨0, 1, entryOne.bytes⟩] where
  owns := ⟨rfl, rfl, ⟨⟨⟨48, rfl⟩, rfl⟩, trivial⟩, by decide⟩
  entries := by
    intro i hi
    rw [List.mem_singleton.mp hi]
    exact ⟨entryOne, rfl, zeroPadded_keyOne⟩

theorem lookupCorrect_empty :
    LookupCorrect Heap.empty initSinglyLl [] keyOne.toList := by
  have htable : TableOf Heap.empty initSinglyLl [] :=
    ⟨⟨rfl, rfl, trivial, List.nodup_nil⟩, fun i hi => by cases hi⟩
  exact (lookupCorrect_iff_empty htable rfl zeroPadded_keyOne).mpr rfl

/-- The entry with the key is in the table and deletion finds it; the lookup
returns `NULL`. -/
theorem exists_entry_missed :
    TableOf oneEntry ⟨1, some 0⟩ [⟨0, 1, entryOne.bytes⟩] ∧
      (lookupRtTable oneEntry ⟨1, some 0⟩ keyOne.toList).map (·.2) =
          some none ∧
        (deleteRtTableEntry oneEntry ⟨1, some 0⟩ keyOne.toList).map
            (fun r => r.2.2) = some 1 ∧
          ¬ LookupCorrect oneEntry ⟨1, some 0⟩ [⟨0, 1, entryOne.bytes⟩]
            keyOne.toList := by
  have hlookup : (lookupRtTable oneEntry ⟨1, some 0⟩ keyOne.toList).map (·.2) =
      some none := rfl
  constructor
  · exact tableOf_oneEntry
  · constructor
    · exact hlookup
    · constructor
      · rfl
      · intro hcorrect
        rcases hcorrect with ⟨h', found, hd, lld, deleted, hcall, _, hfinds⟩
        rw [hcall, Option.map_some, Option.some.injEq] at hlookup
        have hnone : found = none := hlookup
        have hfirst := hfinds.first
        rw [hnone] at hfirst
        revert hfirst
        decide

end Tables

end HeapList
end RIBDriver
