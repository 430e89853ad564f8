import RIBDriver.Common.HeapList.Removal

/-!
# Payloads of different sizes

What a traversal of a list reads: payloads with the `data_size` of their nodes.
Deletion moves the payload of the successor into the node it is asked for and
leaves `data_size` as it is; removal takes the node out.
-/

namespace RIBDriver
namespace HeapList

open Heap (SameOutside)

def readFrom (h : Heap Cell) : Nat -> Option Nat ->
    Option (List (List UInt8 × UInt32))
  | 0, _ => none
  | _ + 1, none => some []
  | fuel + 1, some a => do
      let n <- deref h (some a)
      let ptr <- n.data
      match h.read ptr with
      | some (.bytes payload) =>
          let rest <- readFrom h fuel n.next
          some ((payload, n.dataSize) :: rest)
      | _ => none

def contents (h : Heap Cell) (ll : LlT) : Option (List (List UInt8 × UInt32)) :=
  readFrom h (rounds h) ll.head

/-- The two functions return the same number and leave the same count, and a
traversal of either list reads the original sequence without its first match. -/
def RemovalsAgree (h : Heap Cell) (ll : LlT) (key : List UInt8) (size : UInt32)
    (original : List (List UInt8 × UInt32)) : Prop :=
  exists n hd lld hr llr,
    singlyLlDeleteNodeByValue h ll key size = some (hd, lld, n) ∧
      singlyLlRemoveNodeByValue h ll key size = some (hr, llr, n) ∧
        lld.nodeCount = llr.nodeCount ∧
          contents hd lld = some (original.eraseP (agree ·.1 key size)) ∧
            contents hr llr = some (original.eraseP (agree ·.1 key size))

/-- The first match is the last element, or has the size of its successor. -/
def SameSizeBehind (matching : List UInt8 -> Bool) :
    List (List UInt8 × UInt32) -> Prop
  | [] => True
  | x :: rest =>
      if matching x.1 then forall y, rest.head? = some y -> y.2 = x.2
      else SameSizeBehind matching rest

/-!
## No function changes a size
-/

def KeepsSizes (h h' : Heap Cell) : Prop :=
  forall a n', deref h' (some a) = some n' ->
    exists n, deref h (some a) = some n ∧ n.dataSize = n'.dataSize

section Sizes

variable {h h1 h2 : Heap Cell} {ll ll' : LlT} {a : Nat} {n n' : Node}

theorem keepsSizes_refl (h : Heap Cell) : KeepsSizes h h :=
  fun _ n' hread => ⟨n', hread, rfl⟩

theorem deref_eq_some_iff :
    deref h (some a) = some n <-> h.read a = some (.node n) := by
  cases hread : h.read a with
  | none => simp [deref, hread]
  | some c =>
      cases c with
      | node m => simp [deref, hread]
      | bytes payload => simp [deref, hread]

theorem keepsSizes_free (hkeeps : KeepsSizes h h1)
    (hfree : h1.free a = some h2) : KeepsSizes h h2 := by
  intro b n' hread
  apply hkeeps
  rw [deref_eq_some_iff] at hread ⊢
  unfold Heap.free at hfree
  split at hfree
  · cases hfree
    rw [Heap.read_set] at hread
    split at hread
    · cases hread
    · exact hread
  · cases hfree

theorem keepsSizes_kfree {ptr : Option Nat} (hkeeps : KeepsSizes h h1)
    (hfree : kfree h1 ptr = some h2) : KeepsSizes h h2 := by
  cases ptr with
  | none =>
      cases hfree
      exact hkeeps
  | some a => exact keepsSizes_free hkeeps hfree

theorem keepsSizes_write (hkeeps : KeepsSizes h h1)
    (hnode : deref h (some a) = some n)
    (hwrite : h1.write a (.node n') = some h2)
    (hsize : n.dataSize = n'.dataSize) : KeepsSizes h h2 := by
  intro b m hread
  rw [deref_eq_some_iff] at hread
  unfold Heap.write at hwrite
  split at hwrite
  · cases hwrite
    rw [Heap.read_set] at hread
    split at hread
    · rename_i hsame
      cases hread
      rw [hsame]
      exact ⟨n, hnode, hsize⟩
    · exact hkeeps b m (deref_eq_some_iff.mpr hread)
  · cases hwrite

theorem keepsSizes_deleteNode {node : Nat}
    (hcall : singlyLlDeleteNode h ll node = some (h2, ll')) :
    KeepsSizes h h2 := by
  unfold singlyLlDeleteNode at hcall
  split at hcall
  · cases hcall
    exact keepsSizes_refl h
  · rename_i head hhead
    rcases Option.bind_eq_some_iff.mp hcall with ⟨n, hn, hcall⟩
    split at hcall
    · rcases Option.bind_eq_some_iff.mp hcall with ⟨h3, hfree, hcall⟩
      rcases Option.bind_eq_some_iff.mp hcall with ⟨successor, _, hcall⟩
      rcases Option.bind_eq_some_iff.mp hcall with ⟨h4, hwrite, hcall⟩
      rcases Option.bind_eq_some_iff.mp hcall with ⟨h5, hfree', hcall⟩
      cases hcall
      have h3keeps := keepsSizes_kfree (keepsSizes_refl h) hfree
      have h4keeps := keepsSizes_write h3keeps hn hwrite rfl
      exact keepsSizes_kfree h4keeps hfree'
    · split at hcall
      · rcases Option.bind_eq_some_iff.mp hcall with ⟨h3, hfree, hcall⟩
        rcases Option.bind_eq_some_iff.mp hcall with ⟨h4, hfree', hcall⟩
        cases hcall
        exact keepsSizes_kfree (keepsSizes_kfree (keepsSizes_refl h) hfree)
          hfree'
      · rcases Option.bind_eq_some_iff.mp hcall with ⟨trav, _, hcall⟩
        rcases Option.bind_eq_some_iff.mp hcall with ⟨t, ht, hcall⟩
        rcases Option.bind_eq_some_iff.mp hcall with ⟨h3, hwrite, hcall⟩
        rcases Option.bind_eq_some_iff.mp hcall with ⟨h4, hfree, hcall⟩
        rcases Option.bind_eq_some_iff.mp hcall with ⟨h5, hfree', hcall⟩
        cases hcall
        have h3keeps := keepsSizes_write (keepsSizes_refl h) ht hwrite rfl
        exact keepsSizes_kfree (keepsSizes_kfree h3keeps hfree) hfree'

theorem keepsSizes_unlink {node prev fuel : Nat} {count idx : UInt32}
    {head : Option Nat}
    (hcall : unlink h node count fuel idx prev head = some (some h2)) :
    KeepsSizes h h2 := by
  induction fuel generalizing idx prev head with
  | zero => cases hcall
  | succ fuel ih =>
      unfold unlink at hcall
      split at hcall
      · split at hcall
        · rename_i hsame
          rcases Option.bind_eq_some_iff.mp hcall with ⟨p, hp, hcall⟩
          rcases Option.bind_eq_some_iff.mp hcall with ⟨n, hn, hcall⟩
          rcases Option.bind_eq_some_iff.mp hcall with ⟨h3, hwrite, hcall⟩
          rcases Option.bind_eq_some_iff.mp hcall with ⟨h4, hwrite', hcall⟩
          cases hcall
          rw [hsame] at hn
          have h3keeps := keepsSizes_write (keepsSizes_refl h) hp hwrite rfl
          exact keepsSizes_write h3keeps hn hwrite' rfl
        · split at hcall
          · cases hcall
          · rcases Option.bind_eq_some_iff.mp hcall with ⟨n, _, hcall⟩
            exact ih hcall
      · cases hcall

theorem keepsSizes_removeNode {node : Nat} {rc : RcT}
    (hcall : singlyLlRemoveNode h ll node = some (h2, ll', rc)) :
    KeepsSizes h h2 := by
  unfold singlyLlRemoveNode at hcall
  split at hcall
  · cases hcall
    exact keepsSizes_refl h
  · rename_i head hhead
    rcases Option.bind_eq_some_iff.mp hcall with ⟨n, hn, hcall⟩
    split at hcall
    · rename_i hsame
      rcases Option.bind_eq_some_iff.mp hcall with ⟨h3, hwrite, hcall⟩
      cases hcall
      rw [hsame] at hn
      exact keepsSizes_write (keepsSizes_refl h) hn hwrite rfl
    · rcases Option.bind_eq_some_iff.mp hcall with ⟨found, hunlink, hcall⟩
      split at hcall
      · cases hcall
        exact keepsSizes_unlink hunlink
      · cases hcall
        exact keepsSizes_refl h

theorem keepsSizes_deleteNodeByValue {key : List UInt8} {size n : UInt32}
    (hcall : singlyLlDeleteNodeByValue h ll key size = some (h2, ll', n)) :
    KeepsSizes h h2 := by
  unfold singlyLlDeleteNodeByValue at hcall
  split at hcall
  · cases hcall
    exact keepsSizes_refl h
  · rcases Option.bind_eq_some_iff.mp hcall with ⟨found, _, hcall⟩
    split at hcall
    · cases hcall
      exact keepsSizes_refl h
    · rcases Option.bind_eq_some_iff.mp hcall with ⟨⟨h3, ll3⟩, hdelete, hcall⟩
      cases hcall
      exact keepsSizes_deleteNode hdelete

theorem keepsSizes_removeNodeByValue {key : List UInt8} {size n : UInt32}
    (hcall : singlyLlRemoveNodeByValue h ll key size = some (h2, ll', n)) :
    KeepsSizes h h2 := by
  unfold singlyLlRemoveNodeByValue at hcall
  split at hcall
  · cases hcall
    exact keepsSizes_refl h
  · rcases Option.bind_eq_some_iff.mp hcall with ⟨found, _, hcall⟩
    split at hcall
    · cases hcall
      exact keepsSizes_refl h
    · rcases Option.bind_eq_some_iff.mp hcall with
        ⟨⟨h3, ll3, rc⟩, hremove, hcall⟩
      rcases Option.bind_eq_some_iff.mp hcall with ⟨h4, hfree, hcall⟩
      cases hcall
      exact keepsSizes_kfree (keepsSizes_removeNode hremove) hfree

end Sizes

/-!
## What a traversal reads
-/

section Contents

variable {h h' : Heap Cell} {ll : LlT} {items pre post : List Item} {i : Item}

def sizeOf (h : Heap Cell) (i : Item) : UInt32 :=
  ((deref h (some i.node)).map (·.dataSize)).getD 0

def records (h : Heap Cell) (items : List Item) :
    List (List UInt8 × UInt32) :=
  items.map fun i => (i.payload, sizeOf h i)

theorem records_append (h : Heap Cell) (xs ys : List Item) :
    records h (xs ++ ys) = records h xs ++ records h ys := List.map_append

theorem readFrom_segment {fuel : Nat} (hitems : Segment h none items)
    (hfuel : items.length < fuel) :
    readFrom h fuel (headOr none items) = some (records h items) := by
  induction items generalizing fuel with
  | nil =>
      cases fuel with
      | zero => cases hfuel
      | succ fuel => rfl
  | cons i rest ih =>
      cases fuel with
      | zero => cases hfuel
      | succ fuel =>
          rcases hitems.left.node with ⟨dataSize, hnode⟩
          have hderef := deref_of_read hnode
          have hrest := ih hitems.right (Nat.lt_of_succ_lt_succ hfuel)
          have hsize : sizeOf h i = dataSize := by
            rw [sizeOf, hderef]
            rfl
          show readFrom h (fuel + 1) (some i.node) = _
          simp only [readFrom, hderef, Option.bind_eq_bind, Option.bind_some,
            hitems.left.data, hrest, records, List.map_cons, hsize]

theorem contents_of_owns (howns : Owns h ll items) :
    contents h ll = some (records h items) := by
  have hle := length_le_next howns.chain howns.nodup
  rw [contents, howns.head]
  exact readFrom_segment howns.chain (Nat.lt_succ_of_le hle)

theorem records_of_keeps {after : Option Nat} (hkeeps : KeepsSizes h h')
    (hitems : Segment h' after items) : records h' items = records h items := by
  induction items with
  | nil => rfl
  | cons i rest ih =>
      rcases hitems.left.node with ⟨dataSize, hnode⟩
      have hderef := deref_of_read hnode
      rcases hkeeps i.node _ hderef with ⟨n, hn, hsize⟩
      have hrest := ih hitems.right
      have hsame : sizeOf h' i = sizeOf h i := by
        rw [sizeOf, sizeOf, hderef, hn, Option.map_some, Option.map_some, hsize]
      rw [records, List.map_cons, hsame]
      exact congrArg _ hrest

theorem any_records {p : List UInt8 -> Bool}
    (hno : forall x, x ∈ pre -> p x.payload = false) :
    forall x, x ∈ records h pre -> ¬ p x.1 = true := by
  intro x hx
  rcases List.mem_map.mp hx with ⟨y, hy, hsame⟩
  rw [← hsame, hno y hy]
  exact Bool.false_ne_true

theorem sameSizeBehind_append {p : List UInt8 -> Bool}
    (hno : forall x, x ∈ pre -> p x.payload = false)
    (hmatch : p i.payload = true) :
    SameSizeBehind p (records h (pre ++ i :: post)) <->
      forall j, post.head? = some j -> sizeOf h j = sizeOf h i := by
  induction pre with
  | nil =>
      show (if p i.payload then _ else _) <-> _
      rw [if_pos hmatch, List.head?_map]
      simp
  | cons k rest ih =>
      have hk := hno k List.mem_cons_self
      have hrest := ih fun x hx => hno x (List.mem_cons_of_mem _ hx)
      show (if p k.payload then _ else _) <-> _
      rw [if_neg (by rw [hk]; exact Bool.false_ne_true)]
      exact hrest

theorem sameSizeBehind_of_none {p : List UInt8 -> Bool}
    (hno : forall x, x ∈ items -> p x.payload = false) :
    SameSizeBehind p (records h items) := by
  induction items with
  | nil => exact trivial
  | cons k rest ih =>
      have hk := hno k List.mem_cons_self
      show (if p k.payload then _ else _)
      rw [if_neg (by rw [hk]; exact Bool.false_ne_true)]
      exact ih fun x hx => hno x (List.mem_cons_of_mem _ hx)

theorem records_deleted_iff :
    records h (pre ++ i.deleted post) = records h (pre ++ post) <->
      forall j, post.head? = some j -> sizeOf h j = sizeOf h i := by
  rw [records_append, records_append, List.append_right_inj]
  cases post with
  | nil => simp [Item.deleted]
  | cons j post =>
      have htake : records h (i.deleted (j :: post)) =
          (j.payload, sizeOf h i) :: records h post := rfl
      have hkeep : records h (j :: post) =
          (j.payload, sizeOf h j) :: records h post := rfl
      rw [htake, hkeep]
      simp [eq_comm]

end Contents

/-!
## When the two functions agree
-/

section Agreement

variable {h : Heap Cell} {ll : LlT} {items : List Item}
variable {key : List UInt8} {size : UInt32}
variable {original : List (List UInt8 × UInt32)}

theorem eraseP_records {pre post : List Item} {i : Item}
    (hno : forall x, x ∈ pre -> agree x.payload key size = false)
    (hmatch : agree i.payload key size = true) :
    (records h (pre ++ i :: post)).eraseP (agree ·.1 key size) =
      records h (pre ++ post) := by
  rw [records_append, records_append,
    List.eraseP_append_right _ (any_records (p := (agree · key size)) hno)]
  congr 1
  exact List.eraseP_cons_of_pos hmatch

theorem contents_deleteNodeByValue {pre post : List Item} {i : Item}
    (howns : Owns h ll (pre ++ i :: post))
    (hsearch : findValue h key size (rounds h) ll.head = some (some i.node)) :
    exists hd lld, singlyLlDeleteNodeByValue h ll key size =
        some (hd, lld, ll.nodeCount - lld.nodeCount) ∧
      lld.nodeCount = ll.nodeCount - 1 ∧
        contents hd lld = some (records h (pre ++ i.deleted post)) := by
  rcases deleteNodeByValue_present howns hsearch with
    ⟨hd, lld, hdelete, hless, hdowns, _⟩
  have hkeeps := keepsSizes_deleteNodeByValue hdelete
  exists hd, lld
  rw [contents_of_owns hdowns, records_of_keeps hkeeps hdowns.chain]
  exact ⟨hdelete, hless, rfl⟩

theorem contents_removeNodeByValue {pre post : List Item} {i : Item}
    (howns : Owns h ll (pre ++ i :: post))
    (hsearch : findValue h key size (rounds h) ll.head = some (some i.node)) :
    exists hr llr, singlyLlRemoveNodeByValue h ll key size =
        some (hr, llr, ll.nodeCount - llr.nodeCount) ∧
      llr.nodeCount = ll.nodeCount - 1 ∧
        contents hr llr = some (records h (pre ++ post)) := by
  rcases removeNodeByValue_present howns hsearch with
    ⟨hr, llr, hremove, hless, hrowns, _⟩
  have hkeeps := keepsSizes_removeNodeByValue hremove
  exists hr, llr
  rw [contents_of_owns hrowns, records_of_keeps hkeeps hrowns.chain]
  exact ⟨hremove, hless, rfl⟩

/-- Both functions leave the original sequence without its first match exactly
if that is the last element or has the size of its successor. -/
theorem removalsAgree_iff (howns : Owns h ll items)
    (hfits : Comparable key size (payloads items))
    (hcontents : contents h ll = some original) :
    RemovalsAgree h ll key size original <->
      SameSizeBehind (agree · key size) original := by
  have hread := contents_of_owns howns
  rw [hcontents, Option.some.injEq] at hread
  rw [hread]
  have hsearch := search_eq howns hfits
  cases hfind : items.find? fun i => agree i.payload key size with
  | none =>
      rw [hfind] at hsearch
      have hno : forall x, x ∈ items -> agree x.payload key size = false := by
        intro x hx
        simpa using List.find?_eq_none.mp hfind x hx
      have herase : (records h items).eraseP (agree ·.1 key size) =
          records h items :=
        List.eraseP_of_forall_not (any_records (p := (agree · key size)) hno)
      apply iff_of_true
      · exists 0, h, ll, h, ll
        rw [herase]
        exact ⟨deleteNodeByValue_absent hsearch,
          removeNodeByValue_absent hsearch, rfl, contents_of_owns howns,
          contents_of_owns howns⟩
      · exact sameSizeBehind_of_none hno
  | some i =>
      rw [hfind] at hsearch
      rcases List.find?_eq_some_iff_append.mp hfind with
        ⟨hmatch, pre, post, hitems, hbefore⟩
      have hno : forall x, x ∈ pre -> agree x.payload key size = false := by
        intro x hx
        simpa using hbefore x hx
      rw [hitems] at howns ⊢
      rcases contents_deleteNodeByValue howns hsearch with
        ⟨hd, lld, hdelete, hdless, hdcontents⟩
      rcases contents_removeNodeByValue howns hsearch with
        ⟨hr, llr, hremove, hrless, hrcontents⟩
      rw [sameSizeBehind_append hno hmatch, ← records_deleted_iff]
      constructor
      · intro hagree
        rcases hagree with ⟨n, hd', lld', hr', llr', hcall, _, _, hleft, _⟩
        rw [hdelete, Option.some.injEq, Prod.mk.injEq, Prod.mk.injEq] at hcall
        rw [← hcall.left, ← hcall.right.left, hdcontents,
          eraseP_records hno hmatch, Option.some.injEq] at hleft
        exact hleft
      · intro hsame
        exists ll.nodeCount - lld.nodeCount, hd, lld, hr, llr
        rw [eraseP_records hno hmatch]
        rw [hsame] at hdcontents
        have hcount : llr.nodeCount = lld.nodeCount := by
          rw [hrless, hdless]
        rw [hcount] at hremove
        exact ⟨hdelete, hremove, hcount.symm, hdcontents, hrcontents⟩

end Agreement

section Examples

def mixedSizes : Heap Cell :=
  let h := (Heap.empty.alloc (.node ⟨some 1, 2, none⟩)).1
  let h := (h.alloc (.bytes [2, 3])).1
  let h := (h.alloc (.node ⟨some 3, 1, some 0⟩)).1
  (h.alloc (.bytes [1])).1

theorem owns_mixedSizes :
    Owns mixedSizes ⟨2, some 2⟩ [⟨2, 3, [1]⟩, ⟨0, 1, [2, 3]⟩] :=
  ⟨rfl, rfl, ⟨⟨⟨1, rfl⟩, rfl⟩, ⟨⟨2, rfl⟩, rfl⟩, trivial⟩, by decide⟩

theorem removalsAgree_last :
    RemovalsAgree mixedSizes ⟨2, some 2⟩ [2] 1 [([1], 1), ([2, 3], 2)] := by
  apply (removalsAgree_iff owns_mixedSizes (by decide) rfl).mpr
  intro y hy
  cases hy

/-- The first of the two is deleted: its node takes the payload of the second
and remains one of size 1. -/
theorem exists_removals_differ :
    contents mixedSizes ⟨2, some 2⟩ = some [([1], 1), ([2, 3], 2)] ∧
      Comparable [1] 1 [[1], [2, 3]] ∧
        ¬ RemovalsAgree mixedSizes ⟨2, some 2⟩ [1] 1
          [([1], 1), ([2, 3], 2)] := by
  have hdeleted :
      (singlyLlDeleteNodeByValue mixedSizes ⟨2, some 2⟩ [1] 1).map
        (fun r => contents r.1 r.2.1) = some (some [([2, 3], 1)]) := rfl
  constructor
  · rfl
  · constructor
    · decide
    · intro hagree
      rcases hagree with ⟨n, hd, lld, hr, llr, hcall, _, _, hleft, _⟩
      rw [hcall, Option.map_some, hleft] at hdeleted
      cases hdeleted

end Examples

end HeapList
end RIBDriver
