import RIBDriver.Common.HeapList.Shape

/-!
# What the functions do to a list

For each function: it does not fail, it keeps the list a chain of its own
cells, and it does to the payloads what its name says.
-/

namespace RIBDriver
namespace HeapList

open Heap (SameOutside)

/-- A function changes what its list owns and allocates, and no more. -/
structure Local (h h' : Heap Cell) (items items' : List Item) : Prop where
  kept : forall a c, a ∉ footprint items -> h.read a = some c ->
    h'.read a = some c
  fresh : forall a, a ∈ footprint items' ->
    a ∈ footprint items ∨ h.read a = none

section Facts

variable {h h' : Heap Cell} {items items' pre post : List Item} {i : Item}

theorem local_of_sublist (hsame : SameOutside (footprint items) h h')
    (hsub : (footprint items').Sublist (footprint items)) :
    Local h h' items items' where
  kept := by
    intro a c ha hread
    rw [hsame a ha]
    exact hread
  fresh := by
    intro a ha
    exact Or.inl (hsub.subset ha)

/-- An item shares no address with the items around it. -/
structure Apart (i : Item) (others : List Item) : Prop where
  node : i.node ∉ footprint others
  data : i.data ∉ footprint others

theorem apart_append {xs ys : List Item} :
    Apart i (xs ++ ys) <-> Apart i xs ∧ Apart i ys := by
  constructor
  · intro hi
    have hnode := hi.node
    have hdata := hi.data
    rw [footprint_append, List.mem_append, not_or] at hnode hdata
    exact ⟨⟨hnode.left, hdata.left⟩, ⟨hnode.right, hdata.right⟩⟩
  · intro hi
    constructor <;> rw [footprint_append, List.mem_append, not_or]
    · exact ⟨hi.left.node, hi.right.node⟩
    · exact ⟨hi.left.data, hi.right.data⟩

structure Distinct (i j : Item) : Prop where
  nodes : i.node ≠ j.node
  nodeData : i.node ≠ j.data
  dataNode : i.data ≠ j.node
  datas : i.data ≠ j.data

theorem apart_cons {j : Item} {rest : List Item} (hi : Apart i (j :: rest)) :
    Distinct i j ∧ Apart i rest := by
  have hnode := hi.node
  have hdata := hi.data
  simp only [footprint_cons, List.mem_cons, not_or] at hnode hdata
  exact ⟨⟨hnode.left, hnode.right.left, hdata.left, hdata.right.left⟩,
    ⟨hnode.right.right, hdata.right.right⟩⟩

theorem apart_of_nodup (hnodup : (footprint (pre ++ i :: post)).Nodup) :
    i.node ≠ i.data ∧ Apart i pre ∧ Apart i post := by
  rw [footprint_append, footprint_cons, List.nodup_append] at hnodup
  rcases hnodup with ⟨_, hrest, hdisjoint⟩
  rw [List.nodup_cons, List.nodup_cons, List.mem_cons] at hrest
  refine ⟨fun hsame => hrest.left (Or.inl hsame), ⟨?_, ?_⟩, ⟨?_, ?_⟩⟩
  · intro hmem
    exact hdisjoint _ hmem _ List.mem_cons_self rfl
  · intro hmem
    exact hdisjoint _ hmem _ (List.mem_cons_of_mem _ List.mem_cons_self) rfl
  · intro hmem
    exact hrest.left (Or.inr hmem)
  · exact hrest.right.left

theorem apart_head (hnodup : (footprint (i :: post)).Nodup) :
    i.node ≠ i.data ∧ Apart i post := by
  have hsplit : (footprint ([] ++ i :: post)).Nodup := hnodup
  rcases apart_of_nodup hsplit with ⟨hi, _, hipost⟩
  exact ⟨hi, hipost⟩

theorem apart_pair {j : Item}
    (hnodup : (footprint (pre ++ i :: j :: post)).Nodup) :
    (i.node ≠ i.data ∧ j.node ≠ j.data ∧ Distinct i j) ∧
      (Apart i pre ∧ Apart i post) ∧ Apart j pre ∧ Apart j post := by
  rcases apart_of_nodup hnodup with ⟨hi, hipre, hipost⟩
  have hsplit : (footprint ((pre ++ [i]) ++ j :: post)).Nodup := by
    rw [List.append_assoc]
    exact hnodup
  rcases apart_of_nodup hsplit with ⟨hj, hjpre, hjpost⟩
  rcases apart_cons hipost with ⟨hij, hipost⟩
  exact ⟨⟨hi, hj, hij⟩, ⟨hipre, hipost⟩, (apart_append.mp hjpre).left, hjpost⟩

theorem segment_frame {after : Option Nat} {changed : List Nat}
    (hitems : Segment h after items) (hsame : SameOutside changed h h')
    (houtside : forall a, a ∈ changed -> a ∉ footprint items) :
    Segment h' after items := by
  refine segment_congr hitems ?_
  intro a ha
  exact hsame a (fun hmem => houtside a hmem ha)

theorem free_item {next : Option Nat} (hi : Holds h i next)
    (hne : i.node ≠ i.data) :
    exists h1 h2, h.free i.data = some h1 ∧ h1.free i.node = some h2 ∧
      SameOutside [i.data, i.node] h h2 := by
  rcases hi.node with ⟨dataSize, hnode⟩
  rcases Heap.free_of_read hi.data with ⟨h1, hfree, hsame1⟩
  have hread1 : h1.read i.node = _ :=
    (hsame1 _ (by simpa using hne)).trans hnode
  rcases Heap.free_of_read hread1 with ⟨h2, hfree', hsame2⟩
  exact ⟨h1, h2, hfree, hfree',
    (hsame1.mono (by simp)).trans (hsame2.mono (by simp))⟩

theorem count_succ {n : UInt32} (hlt : n.toNat + 1 < UInt32.size) :
    (n + 1).toNat = n.toNat + 1 := by
  rw [UInt32.toNat_add]
  exact Nat.mod_eq_of_lt hlt

theorem count_pred {n : UInt32} {k : Nat} (hn : n.toNat = k + 1) :
    (n - 1).toNat = k ∧ n - (n - 1) = 1 := by
  have hle : (1 : UInt32) ≤ n := by
    rw [UInt32.le_iff_toNat_le, hn]
    exact Nat.succ_le_succ (Nat.zero_le k)
  constructor
  · rw [UInt32.toNat_sub_of_le _ _ hle, hn]
    rfl
  · grind

end Facts

/-!
## Deletion
-/

section Delete

variable {h : Heap Cell} {ll : LlT} {pre post : List Item} {i j k : Item}

/-- The item left where `j` has moved to the node of `i`. -/
def Item.takeOver (i j : Item) : Item :=
  { node := i.node, data := j.data, payload := j.payload }

theorem headOr_eq_some (after : Option Nat) (pre : List Item) (i : Item)
    (post : List Item) :
    exists a, headOr after (pre ++ i :: post) = some a := by
  cases pre with
  | nil => exact ⟨i.node, rfl⟩
  | cons x rest => exact ⟨x.node, rfl⟩

theorem headOr_takeOver (pre post post' : List Item) (i j : Item) :
    headOr none (pre ++ i.takeOver j :: post) =
      headOr none (pre ++ i :: post') := by
  cases pre <;> rfl

theorem deleteNode_inner (howns : Owns h ll (pre ++ i :: j :: post)) :
    exists h', singlyLlDeleteNode h ll i.node =
        some (h', { ll with nodeCount := ll.nodeCount - 1 }) ∧
      Owns h' { ll with nodeCount := ll.nodeCount - 1 }
          (pre ++ i.takeOver j :: post) ∧
        SameOutside (footprint (pre ++ i :: j :: post)) h h' := by
  rcases headOr_eq_some none pre i (j :: post) with ⟨first, hfirst⟩
  have hhead := howns.head
  rw [hfirst] at hhead
  rcases apart_pair howns.nodup with
    ⟨⟨hi, hj, hij⟩, ⟨hipre, hipost⟩, hjpre, hjpost⟩
  rcases segment_append.mp howns.chain with ⟨hpre, hhere, hnext, hpost⟩
  rcases hhere.node with ⟨dataSize, hnode⟩
  rcases hnext.node with ⟨dataSize', hnode'⟩
  -- the payload of the node goes, then the node is overwritten
  rcases Heap.free_of_read hhere.data with ⟨h1, hfree, hsame1⟩
  have hread1 : h1.read i.node = _ :=
    (hsame1 _ (by simpa using hi)).trans hnode
  have hread1' : h1.read j.node = _ :=
    (hsame1 _ (by simpa using hij.dataNode.symm)).trans hnode'
  rcases Heap.write_of_read
    (Cell.node ⟨some j.data, dataSize, headOr none post⟩) hread1 with
      ⟨h2, hwrite, hread2, hsame2⟩
  have hread2' : h2.read j.node = _ :=
    (hsame2 _ (by simpa using hij.nodes.symm)).trans hread1'
  rcases Heap.free_of_read hread2' with ⟨h3, hfree', hsame3⟩
  have hsame : SameOutside [i.data, i.node, j.node] h h3 :=
    ((hsame1.mono (by simp)).trans (hsame2.mono (by simp))).trans
      (hsame3.mono (by simp))
  refine ⟨h3, ?_, ?_, hsame.mono (by simp)⟩
  · simp only [singlyLlDeleteNode, hhead, deref_of_read hnode,
      Option.bind_eq_bind, Option.bind_some, headOr_cons, kfree, hfree,
      deref_of_read hread1', hwrite, hfree']
  · constructor
    · rw [headOr_takeOver pre post (j :: post)]
      exact howns.head
    · have hcount := howns.count
      rw [List.length_append, List.length_cons, List.length_cons] at hcount
      rw [List.length_append, List.length_cons]
      exact (count_pred (by lia)).left
    · refine segment_append.mpr ⟨?_, ⟨?_, ?_⟩, ?_⟩
      · refine segment_frame hpre hsame ?_
        simp [hipre.data, hipre.node, hjpre.node]
      · refine ⟨dataSize, ?_⟩
        show h3.read i.node = _
        rw [hsame3 _ (by simpa using hij.nodes)]
        exact hread2
      · show h3.read j.data = _
        rw [hsame _ (by simp [hij.datas.symm, hij.nodeData.symm, hj.symm])]
        exact hnext.data
      · refine segment_frame hpost hsame ?_
        simp [hipost.data, hipost.node, hjpost.node]
    · refine List.Nodup.sublist ?_ howns.nodup
      simp [Item.takeOver]

theorem chase_segment {node fuel : Nat}
    (hitems : Segment h (some node) (pre ++ [k]))
    (hother : forall x, x ∈ pre ++ [k] -> x.node ≠ node)
    (hfuel : pre.length < fuel) :
    chase h node fuel (headOr (some node) (pre ++ [k])) = some k.node := by
  induction pre generalizing fuel with
  | nil =>
      cases fuel with
      | zero => cases hfuel
      | succ fuel =>
          rcases hitems.left.node with ⟨dataSize, hnode⟩
          show chase h node (fuel + 1) (some k.node) = _
          simp [chase, deref_of_read hnode, headOr]
  | cons x rest ih =>
      cases fuel with
      | zero => cases hfuel
      | succ fuel =>
          rcases hitems.left.node with ⟨dataSize, hnode⟩
          have hrest := ih hitems.right
            (fun y hy => hother y (List.mem_cons_of_mem _ hy))
            (Nat.lt_of_succ_lt_succ hfuel)
          have hnext : headOr (some node) (rest ++ [k]) ≠ some node := by
            cases rest with
            | nil =>
                intro hsame
                exact hother k (by simp) (Option.some.inj hsame)
            | cons y rest =>
                intro hsame
                exact hother y (by simp) (Option.some.inj hsame)
          have hderef : deref h (some x.node) =
              some ⟨some x.data, dataSize, headOr (some node) (rest ++ [k])⟩ :=
            deref_of_read hnode
          show chase h node (fuel + 1) (some x.node) = _
          simp only [chase, hderef, Option.bind_eq_bind, Option.bind_some,
            hnext, if_false]
          exact hrest

theorem rounds_gt (howns : Owns h ll (pre ++ post)) :
    pre.length < rounds h := by
  have hle := length_le_next howns.chain howns.nodup
  rw [List.length_append] at hle
  show pre.length < h.next + 1
  lia

theorem deleteNode_last (howns : Owns h ll (pre ++ [k, i])) :
    exists h', singlyLlDeleteNode h ll i.node =
        some (h', { ll with nodeCount := ll.nodeCount - 1 }) ∧
      Owns h' { ll with nodeCount := ll.nodeCount - 1 } (pre ++ [k]) ∧
        SameOutside (footprint (pre ++ [k, i])) h h' := by
  rcases headOr_eq_some none pre k [i] with ⟨first, hfirst⟩
  have hhead := howns.head
  rw [hfirst] at hhead
  rcases apart_pair howns.nodup with
    ⟨⟨hk, hi, hki⟩, ⟨hkpre, _⟩, hipre, _⟩
  have hcount := howns.count
  rw [List.length_append] at hcount
  have hnotOne : ¬ (ll.nodeCount = 1 ∧ first = i.node) := by
    intro hone
    rw [hone.left] at hcount
    change 1 = pre.length + 2 at hcount
    lia
  rcases segment_append.mp howns.chain with ⟨hpre, hbefore, hhere, _⟩
  have hchase : chase h i.node (rounds h) (some first) = some k.node := by
    rw [← hfirst, show pre ++ [k, i] = (pre ++ [k]) ++ [i] by simp,
      headOr_append]
    refine chase_segment (segment_append.mpr ⟨hpre, hbefore, trivial⟩) ?_
      (rounds_gt howns)
    intro x hx hsame
    rcases List.mem_append.mp hx with hmem | hmem
    · exact hipre.node (by rw [← hsame]; exact mem_footprint_node hmem)
    · rw [List.mem_singleton.mp hmem] at hsame
      exact hki.nodes hsame
  rcases hbefore.node with ⟨dataSize, hnode⟩
  rcases hhere.node with ⟨dataSize', hnode'⟩
  rcases Heap.write_of_read (Cell.node ⟨some k.data, dataSize, none⟩) hnode with
    ⟨h1, hwrite, hread1, hsame1⟩
  have hhere1 : Holds h1 i none := by
    refine holds_congr hhere ?_
    intro a ha
    rcases ha with ha | ha
    · exact hsame1 a (by simpa [ha] using hki.nodes.symm)
    · exact hsame1 a (by simpa [ha] using hki.nodeData.symm)
  rcases free_item hhere1 hi with ⟨h2, h3, hfree, hfree', hsame3⟩
  have hsame : SameOutside [k.node, i.data, i.node] h h3 :=
    (hsame1.mono (by simp)).trans (hsame3.mono (by simp))
  refine ⟨h3, ?_, ?_, hsame.mono (by simp)⟩
  · simp only [singlyLlDeleteNode, hhead, deref_of_read hnode',
      Option.bind_eq_bind, Option.bind_some, headOr, hnotOne, if_false, hchase,
      deref_of_read hnode, hwrite, kfree, hfree, hfree']
  · constructor
    · show ll.head = _
      rw [hhead, ← hfirst]
      cases pre <;> rfl
    · exact (count_pred (by rw [hcount]; simp)).left
    · refine segment_append.mpr ⟨?_, ⟨⟨dataSize, ?_⟩, ?_⟩, trivial⟩
      · refine segment_frame hpre hsame ?_
        simp [hkpre.node, hipre.data, hipre.node]
      · show h3.read k.node = _
        rw [hsame3 _ (by simp [hki.nodes, hki.nodeData])]
        exact hread1
      · rw [hsame _ (by simp [hk.symm, hki.datas, hki.dataNode])]
        exact hbefore.data
    · refine List.Nodup.sublist ?_ howns.nodup
      simp

theorem deleteNode_only (howns : Owns h ll [i]) :
    exists h', singlyLlDeleteNode h ll i.node =
        some (h', { nodeCount := ll.nodeCount - 1, head := none }) ∧
      Owns h' { nodeCount := ll.nodeCount - 1, head := none } [] ∧
        SameOutside (footprint [i]) h h' := by
  have hhead : ll.head = some i.node := howns.head
  have hcount : ll.nodeCount.toNat = 1 := howns.count
  have hone : ll.nodeCount = 1 := UInt32.toNat_inj.mp hcount
  rcases apart_head howns.nodup with ⟨hi, _⟩
  rcases howns.chain.left.node with ⟨dataSize, hnode⟩
  rcases free_item howns.chain.left hi with ⟨h1, h2, hfree, hfree', hsame⟩
  refine ⟨h2, ?_, ?_, ?_⟩
  · simp only [singlyLlDeleteNode, hhead, deref_of_read hnode,
      Option.bind_eq_bind, Option.bind_some, headOr, hone, and_self, if_true,
      kfree, hfree, hfree']
  · exact ⟨rfl, (count_pred hcount).left, trivial, List.nodup_nil⟩
  · exact hsame.mono (by simp)

end Delete

/-!
## Deletion by value
-/

/-- The function has turned the list into one with these payloads. -/
def Becomes (h : Heap Cell) (items : List Item) (h' : Heap Cell) (ll' : LlT)
    (contents : List (List UInt8)) : Prop :=
  exists items', Owns h' ll' items' ∧ payloads items' = contents ∧
    Local h h' items items'

section ByValue

variable {h : Heap Cell} {ll : LlT} {items pre post : List Item} {i : Item}
variable {key : List UInt8} {size : UInt32}

theorem becomes_self (howns : Owns h ll items) :
    Becomes h items h ll (payloads items) :=
  ⟨items, howns, rfl,
    local_of_sublist (Heap.sameOutside_refl _ _) (List.Sublist.refl _)⟩

/-- What is left behind the items before `i` when `i` is deleted. -/
def Item.deleted (i : Item) : List Item -> List Item
  | [] => []
  | j :: post => i.takeOver j :: post

theorem deleteNode_owns (howns : Owns h ll (pre ++ i :: post)) :
    exists h' ll', singlyLlDeleteNode h ll i.node = some (h', ll') ∧
      ll'.nodeCount = ll.nodeCount - 1 ∧
        Owns h' ll' (pre ++ i.deleted post) ∧
          SameOutside (footprint (pre ++ i :: post)) h h' := by
  cases post with
  | cons j post =>
      rcases deleteNode_inner howns with ⟨h', hcall, howns', hsame⟩
      exact ⟨h', _, hcall, rfl, howns', hsame⟩
  | nil =>
      rcases List.eq_nil_or_concat pre with hpre | ⟨front, k, hpre⟩
      · rw [hpre] at howns ⊢
        rcases deleteNode_only howns with ⟨h', hcall, howns', hsame⟩
        exact ⟨h', _, hcall, rfl, howns', hsame⟩
      · rw [List.concat_eq_append] at hpre
        rw [hpre, List.append_assoc] at howns
        rcases deleteNode_last howns with ⟨h', hcall, howns', hsame⟩
        rw [hpre, List.append_assoc, List.append_assoc]
        exact ⟨h', _, hcall, rfl, howns', hsame⟩

theorem deleted_sublist :
    (footprint (pre ++ i.deleted post)).Sublist
      (footprint (pre ++ i :: post)) := by
  cases post with
  | nil => simp [Item.deleted]
  | cons j post => simp [Item.deleted, Item.takeOver]

theorem payloads_deleted :
    payloads (pre ++ i.deleted post) = payloads pre ++ payloads post := by
  rw [payloads_append]
  cases post with
  | nil => rfl
  | cons j post => rfl

theorem split_of_find
    (hfind : (items.find? fun i => agree i.payload key size) = some i) :
    exists pre post, items = pre ++ i :: post ∧
      (payloads items).any (agree · key size) = true ∧
        (payloads items).eraseP (agree · key size) =
          payloads pre ++ payloads post := by
  rcases List.find?_eq_some_iff_append.mp hfind with
    ⟨hagree, pre, post, hitems, hbefore⟩
  refine ⟨pre, post, hitems, ?_, ?_⟩
  · rw [hitems, payloads_append, payloads_cons]
    simp [hagree]
  · rw [hitems, payloads_append, payloads_cons,
      List.eraseP_append_right,
      List.eraseP_cons_of_pos (p := (agree · key size)) hagree]
    intro payload hmem
    rcases List.mem_map.mp hmem with ⟨x, hx, hpayload⟩
    have hx' := hbefore x hx
    rw [← hpayload]
    simpa using hx'

theorem none_of_find
    (hfind : (items.find? fun i => agree i.payload key size) = none) :
    (payloads items).any (agree · key size) = false ∧
      (payloads items).eraseP (agree · key size) = payloads items := by
  have hno : forall payload, payload ∈ payloads items ->
      ¬ agree payload key size = true := by
    intro payload hmem
    rcases List.mem_map.mp hmem with ⟨x, hx, hpayload⟩
    rw [← hpayload]
    exact List.find?_eq_none.mp hfind x hx
  constructor
  · simpa using hno
  · exact List.eraseP_of_forall_not hno

def matched (contents : List (List UInt8)) (key : List UInt8) (size : UInt32) :
    UInt32 :=
  if contents.any (agree · key size) then 1 else 0

theorem search_eq (howns : Owns h ll items)
    (hfits : Comparable key size (payloads items)) :
    findValue h key size (rounds h) ll.head =
      some ((items.find? fun i => agree i.payload key size).map (·.node)) := by
  rw [howns.head]
  refine findValue_segment howns.chain hfits ?_
  have hle := length_le_next howns.chain howns.nodup
  show items.length < h.next + 1
  lia

theorem byValue_becomes {result : Option (Heap Cell × LlT × UInt32)}
    (howns : Owns h ll items) (hfits : Comparable key size (payloads items))
    (habsent : findValue h key size (rounds h) ll.head = some none ->
      result = some (h, ll, 0))
    (hpresent : forall pre i post, items = pre ++ i :: post ->
      findValue h key size (rounds h) ll.head = some (some i.node) ->
        exists h' ll', result = some (h', ll', ll.nodeCount - ll'.nodeCount) ∧
          ll'.nodeCount = ll.nodeCount - 1 ∧
            Becomes h items h' ll' (payloads pre ++ payloads post)) :
    exists h' ll', result = some (h', ll', matched (payloads items) key size) ∧
      Becomes h items h' ll' ((payloads items).eraseP (agree · key size)) := by
  have hsearch := search_eq howns hfits
  cases hfind : items.find? fun i => agree i.payload key size with
  | none =>
      rcases none_of_find hfind with ⟨hany, herase⟩
      rw [hfind] at hsearch
      refine ⟨h, ll, ?_, ?_⟩
      · rw [habsent hsearch, matched, hany]
        rfl
      · rw [herase]
        exact becomes_self howns
  | some i =>
      rcases split_of_find hfind with ⟨pre, post, hitems, hany, herase⟩
      rw [hfind] at hsearch
      rcases hpresent pre i post hitems hsearch with
        ⟨h', ll', hresult, hless, hbecomes⟩
      have hcount := howns.count
      rw [hitems, List.length_append, List.length_cons] at hcount
      have hone := (count_pred hcount).right
      refine ⟨h', ll', ?_, ?_⟩
      · rw [hresult, hless, hone, matched, hany]
        rfl
      · rw [herase]
        exact hbecomes

theorem head_of_append {pre post : List Item}
    (howns : Owns h ll (pre ++ i :: post)) :
    exists first, ll.head = some first := by
  rw [howns.head]
  cases pre with
  | nil => exact ⟨i.node, rfl⟩
  | cons k rest => exact ⟨k.node, rfl⟩

theorem deleteNodeByValue_absent
    (hsearch : findValue h key size (rounds h) ll.head = some none) :
    singlyLlDeleteNodeByValue h ll key size = some (h, ll, 0) := by
  cases hhead : ll.head with
  | none => simp [singlyLlDeleteNodeByValue, hhead]
  | some first =>
      rw [hhead] at hsearch
      simp [singlyLlDeleteNodeByValue, hhead, hsearch]

theorem deleteNodeByValue_present (howns : Owns h ll (pre ++ i :: post))
    (hsearch : findValue h key size (rounds h) ll.head = some (some i.node)) :
    exists h' ll', singlyLlDeleteNodeByValue h ll key size =
        some (h', ll', ll.nodeCount - ll'.nodeCount) ∧
      ll'.nodeCount = ll.nodeCount - 1 ∧
        Owns h' ll' (pre ++ i.deleted post) ∧
          SameOutside (footprint (pre ++ i :: post)) h h' := by
  rcases head_of_append howns with ⟨first, hhead⟩
  rcases deleteNode_owns howns with ⟨h', ll', hcall, hleft⟩
  exists h', ll'
  constructor
  · rw [hhead] at hsearch
    simp only [singlyLlDeleteNodeByValue, hhead, hsearch, Option.bind_eq_bind,
      Option.bind_some, hcall]
  · exact hleft

theorem deleteNodeByValue_becomes (howns : Owns h ll items)
    (hfits : Comparable key size (payloads items)) :
    exists h' ll', singlyLlDeleteNodeByValue h ll key size =
        some (h', ll', matched (payloads items) key size) ∧
      Becomes h items h' ll' ((payloads items).eraseP (agree · key size)) := by
  apply byValue_becomes howns hfits deleteNodeByValue_absent
  intro pre i post hitems hsearch
  rw [hitems] at howns ⊢
  rcases deleteNodeByValue_present howns hsearch with
    ⟨h', ll', hcall, hless, howns', hsame⟩
  exact ⟨h', ll', hcall, hless, _, howns', payloads_deleted,
    local_of_sublist hsame deleted_sublist⟩

end ByValue

end HeapList
end RIBDriver
