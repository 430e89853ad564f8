import RIBDriver.Common.HeapList.Deletion

/-!
# Removal, emptying and insertion

`singly_ll_remove_node_by_value`, `delete_singly_ll` and
`singly_ll_add_node_by_val` on a list that owns its cells.
-/

namespace RIBDriver
namespace HeapList

open Heap (SameOutside)

/-!
## Removal by value
-/

section Remove

variable {h : Heap Cell} {ll : LlT} {items pre post : List Item}
variable {i k x : Item} {count idx : UInt32} {fuel : Nat}

/-- The node of `i` is out of the chain and its predecessor is `k`. -/
structure Unlinked (h h' : Heap Cell) (k i : Item) (post : List Item) :
    Prop where
  before : exists dataSize,
    h'.read k.node = some (.node ⟨some k.data, dataSize, headOr none post⟩)
  out : exists n, h'.read i.node = some (.node n)
  same : SameOutside [k.node, i.node] h h'

theorem unlink_segment {front : List Item} (hfront : x :: front = pre ++ [k])
    (hitems : Segment h none (x :: front ++ i :: post))
    (hother : forall y, y ∈ front -> y.node ≠ i.node)
    (hki : k.node ≠ i.node)
    (hidx : idx.toNat + pre.length + 1 + post.length = count.toNat)
    (hfuel : pre.length < fuel) :
    exists h', unlink h i.node count fuel idx x.node
        (headOr none (front ++ i :: post)) = some (some h') ∧
      Unlinked h h' k i post := by
  have hlt : idx < count := by
    rw [UInt32.lt_iff_toNat_lt]
    lia
  induction pre generalizing x front idx fuel with
  | nil =>
      cases fuel with
      | zero => cases hfuel
      | succ fuel =>
          rw [List.nil_append, List.cons.injEq] at hfront
          rcases hfront with ⟨hx, hnil⟩
          rw [hx, hnil] at hitems
          rw [hx, hnil]
          rcases hitems.left.node with ⟨dataSize, hnode⟩
          rcases hitems.right.left.node with ⟨dataSize', hnode'⟩
          have hderef : deref h (some i.node) =
              some ⟨some i.data, dataSize', headOr none post⟩ :=
            deref_of_read hnode'
          rcases Heap.write_of_read
            (Cell.node ⟨some k.data, dataSize, headOr none post⟩) hnode with
              ⟨h1, hwrite, hread1, hsame1⟩
          have hread1' : h1.read i.node = _ :=
            (hsame1 _ (by simpa using hki.symm)).trans hnode'
          rcases Heap.write_of_read
            (Cell.node ⟨some i.data, dataSize', none⟩) hread1' with
              ⟨h2, hwrite', hread2, hsame2⟩
          refine ⟨h2, ?_, ⟨dataSize, ?_⟩, ⟨_, hread2⟩, ?_⟩
          · simp only [unlink, hlt, if_true, List.nil_append, headOr_cons,
              deref_of_read hnode, hderef, Option.bind_eq_bind,
              Option.bind_some, hwrite, hwrite']
          · rw [hsame2 _ (by simpa using hki)]
            exact hread1
          · exact (hsame1.mono (by simp)).trans (hsame2.mono (by simp))
  | cons y rest ih =>
      cases fuel with
      | zero => cases hfuel
      | succ fuel =>
          rw [List.cons_append, List.cons.injEq] at hfront
          rcases hfront with ⟨hx, hfront⟩
          cases front with
          | nil => simp at hfront
          | cons z front =>
              rcases hitems.right.left.node with ⟨dataSize, hnode⟩
              have hderef : deref h (some z.node) =
                  some ⟨some z.data, dataSize,
                    headOr none (front ++ i :: post)⟩ := deref_of_read hnode
              rw [List.length_cons] at hidx hfuel
              have hsize := count.toNat_lt
              have hnext : (idx + 1).toNat = idx.toNat + 1 :=
                count_succ (by rw [UInt32.size]; lia)
              have hidx' : (idx + 1).toNat + rest.length + 1 + post.length =
                  count.toNat := by lia
              have hlt' : idx + 1 < count := by
                rw [UInt32.lt_iff_toNat_lt]
                lia
              rcases ih hfront hitems.right
                (fun w hw => hother w (List.mem_cons_of_mem _ hw)) hidx'
                (Nat.lt_of_succ_lt_succ hfuel) hlt' with
                  ⟨h', hrest, hunlinked⟩
              refine ⟨h', ?_, hunlinked⟩
              have hz : ¬ z.node = i.node := hother z List.mem_cons_self
              simp only [unlink, hlt, if_true, List.cons_append, headOr_cons,
                Option.some.injEq, hz, if_false, hderef, Option.bind_eq_bind,
                Option.bind_some]
              exact hrest

theorem removeNode_first (howns : Owns h ll (i :: post)) :
    exists h1 h', singlyLlRemoveNode h ll i.node =
        some (h1, ⟨ll.nodeCount - 1, headOr none post⟩, .llSuccess) ∧
      kfree h1 (some i.node) = some h' ∧
        Owns h' ⟨ll.nodeCount - 1, headOr none post⟩ post ∧
          SameOutside (footprint (i :: post)) h h' := by
  have hhead : ll.head = some i.node := howns.head
  rcases apart_head howns.nodup with ⟨_, hipost⟩
  rcases howns.chain.left.node with ⟨dataSize, hnode⟩
  rcases Heap.write_of_read (Cell.node ⟨some i.data, dataSize, none⟩) hnode with
    ⟨h1, hwrite, hread1, hsame1⟩
  rcases Heap.free_of_read hread1 with ⟨h2, hfree, hsame2⟩
  have hsame : SameOutside [i.node] h h2 := hsame1.trans hsame2
  refine ⟨h1, h2, ?_, hfree, ?_, hsame.mono (by simp)⟩
  · simp only [singlyLlRemoveNode, hhead, deref_of_read hnode,
      Option.bind_eq_bind, Option.bind_some, if_true, hwrite]
  · constructor
    · rfl
    · exact (count_pred howns.count).left
    · refine segment_frame howns.chain.right hsame ?_
      simp [hipost.node]
    · exact howns.nodup.sublist (by simp)

theorem removeNode_later (howns : Owns h ll (pre ++ k :: i :: post)) :
    exists h1 h', singlyLlRemoveNode h ll i.node =
        some (h1, { ll with nodeCount := ll.nodeCount - 1 }, .llSuccess) ∧
      kfree h1 (some i.node) = some h' ∧
        Owns h' { ll with nodeCount := ll.nodeCount - 1 } (pre ++ k :: post) ∧
          SameOutside (footprint (pre ++ k :: i :: post)) h h' := by
  rcases apart_pair howns.nodup with
    ⟨⟨hk, hi, hki⟩, ⟨hkpre, hkpost⟩, hipre, hipost⟩
  have hcount := howns.count
  rw [List.length_append, List.length_cons, List.length_cons] at hcount
  rcases segment_append.mp howns.chain with ⟨hpre, hbefore, hhere, hpost⟩
  have hsplit : exists x front, x :: front = pre ++ [k] := by
    cases pre with
    | nil => exact ⟨k, [], rfl⟩
    | cons x rest => exact ⟨x, rest ++ [k], rfl⟩
  rcases hsplit with ⟨x, front, hfront⟩
  have hitems : pre ++ k :: i :: post = x :: (front ++ i :: post) := by
    rw [← List.cons_append, hfront]
    simp
  have hother : forall y, y ∈ x :: front -> y.node ≠ i.node := by
    intro y hy hsame
    rw [hfront] at hy
    rcases List.mem_append.mp hy with hmem | hmem
    · exact hipre.node (by rw [← hsame]; exact mem_footprint_node hmem)
    · rw [List.mem_singleton.mp hmem] at hsame
      exact hki.nodes hsame
  have hchain := howns.chain
  have hhead := howns.head
  rw [hitems] at hchain hhead
  rw [headOr_cons] at hhead
  rcases hchain.left.node with ⟨dataSize, hnode⟩
  have hderef : deref h (some x.node) =
      some ⟨some x.data, dataSize, headOr none (front ++ i :: post)⟩ :=
    deref_of_read hnode
  have hidx : (1 : UInt32).toNat + pre.length + 1 + post.length =
      ll.nodeCount.toNat := by
    rw [hcount]
    show 1 + pre.length + 1 + post.length = _
    lia
  rcases unlink_segment hfront hchain
    (fun y hy => hother y (List.mem_cons_of_mem _ hy)) hki.nodes hidx
    (rounds_gt howns) with ⟨h1, hloop, hunlinked⟩
  rcases hunlinked.out with ⟨n, hout⟩
  rcases Heap.free_of_read hout with ⟨h2, hfree, hsame2⟩
  have hsame : SameOutside [k.node, i.node] h h2 :=
    hunlinked.same.trans (hsame2.mono (by simp))
  have hx : ¬ x.node = i.node := hother x List.mem_cons_self
  refine ⟨h1, h2, ?_, hfree, ?_, hsame.mono (by simp)⟩
  · simp only [singlyLlRemoveNode, hhead, hderef, Option.bind_eq_bind,
      Option.bind_some, hx, if_false, hloop]
  · constructor
    · show ll.head = _
      rw [howns.head]
      cases pre <;> rfl
    · rw [List.length_append, List.length_cons]
      exact (count_pred (by lia)).left
    · refine segment_append.mpr ⟨?_, ⟨?_, ?_⟩, ?_⟩
      · refine segment_frame hpre hsame ?_
        simp [hkpre.node, hipre.node]
      · rcases hunlinked.before with ⟨dataSize', hread⟩
        refine ⟨dataSize', ?_⟩
        rw [hsame2 _ (by simpa using hki.nodes)]
        exact hread
      · rw [hsame _ (by simp [hk.symm, hki.dataNode])]
        exact hbefore.data
      · refine segment_frame hpost hsame ?_
        simp [hkpost.node, hipost.node]
    · refine howns.nodup.sublist ?_
      simp

theorem removeNode_owns (howns : Owns h ll (pre ++ i :: post)) :
    exists h1 h' ll' rc, singlyLlRemoveNode h ll i.node = some (h1, ll', rc) ∧
      kfree h1 (some i.node) = some h' ∧
        ll'.nodeCount = ll.nodeCount - 1 ∧ Owns h' ll' (pre ++ post) ∧
          SameOutside (footprint (pre ++ i :: post)) h h' := by
  rcases List.eq_nil_or_concat pre with hpre | ⟨front, k, hpre⟩
  · rw [hpre] at howns ⊢
    rcases removeNode_first howns with ⟨h1, h', hcall, hfree, howns', hsame⟩
    exact ⟨h1, h', _, _, hcall, hfree, rfl, howns', hsame⟩
  · rw [List.concat_eq_append] at hpre
    rw [hpre, List.append_assoc] at howns
    rcases removeNode_later howns with ⟨h1, h', hcall, hfree, howns', hsame⟩
    rw [hpre, List.append_assoc, List.append_assoc]
    exact ⟨h1, h', _, _, hcall, hfree, rfl, howns', hsame⟩

theorem removeNodeByValue_absent {key : List UInt8} {size : UInt32}
    (hsearch : findValue h key size (rounds h) ll.head = some none) :
    singlyLlRemoveNodeByValue h ll key size = some (h, ll, 0) := by
  cases hhead : ll.head with
  | none => simp [singlyLlRemoveNodeByValue, hhead]
  | some first =>
      rw [hhead] at hsearch
      simp [singlyLlRemoveNodeByValue, hhead, hsearch]

theorem removeNodeByValue_present {key : List UInt8} {size : UInt32}
    (howns : Owns h ll (pre ++ i :: post))
    (hsearch : findValue h key size (rounds h) ll.head = some (some i.node)) :
    exists h' ll', singlyLlRemoveNodeByValue h ll key size =
        some (h', ll', ll.nodeCount - ll'.nodeCount) ∧
      ll'.nodeCount = ll.nodeCount - 1 ∧ Owns h' ll' (pre ++ post) ∧
        SameOutside (footprint (pre ++ i :: post)) h h' := by
  rcases head_of_append howns with ⟨first, hhead⟩
  rcases removeNode_owns howns with ⟨h1, h', ll', rc, hcall, hfree, hleft⟩
  exists h', ll'
  constructor
  · rw [hhead] at hsearch
    simp only [singlyLlRemoveNodeByValue, hhead, hsearch, Option.bind_eq_bind,
      Option.bind_some, hcall, hfree]
  · exact hleft

theorem removeNodeByValue_becomes {key : List UInt8} {size : UInt32}
    (howns : Owns h ll items)
    (hfits : Comparable key size (payloads items)) :
    exists h' ll', singlyLlRemoveNodeByValue h ll key size =
        some (h', ll', matched (payloads items) key size) ∧
      Becomes h items h' ll' ((payloads items).eraseP (agree · key size)) := by
  apply byValue_becomes howns hfits removeNodeByValue_absent
  intro pre i post hitems hsearch
  rw [hitems] at howns ⊢
  rcases removeNodeByValue_present howns hsearch with
    ⟨h', ll', hcall, hless, howns', hsame⟩
  exact ⟨h', ll', hcall, hless, _, howns', payloads_append pre post,
    local_of_sublist hsame (by simp)⟩

end Remove

/-!
## Emptying
-/

section Empty

variable {h : Heap Cell} {ll : LlT} {items rest : List Item} {i : Item}

theorem freeNodes_segment {fuel : Nat} (hitems : Segment h none (i :: rest))
    (hnodup : (footprint (i :: rest)).Nodup) (hfuel : rest.length < fuel) :
    exists h', freeNodes fuel h (some i.node) (headOr none rest) = some h' ∧
      SameOutside (footprint (i :: rest)) h h' := by
  induction rest generalizing h i fuel with
  | nil =>
      cases fuel with
      | zero => cases hfuel
      | succ fuel =>
          rcases apart_head hnodup with ⟨hi, _⟩
          rcases hitems.left.node with ⟨dataSize, hnode⟩
          rcases free_item hitems.left hi with ⟨h1, h2, hfree, hfree', hsame⟩
          refine ⟨h2, ?_, ?_⟩
          · simp only [freeNodes, deref_of_read hnode, Option.bind_eq_bind,
              Option.bind_some, kfree, hfree, hfree', headOr]
          · exact hsame.mono (by simp)
  | cons j rest ih =>
      cases fuel with
      | zero => cases hfuel
      | succ fuel =>
          rcases apart_head hnodup with ⟨hi, hirest⟩
          rcases hitems.left.node with ⟨dataSize, hnode⟩
          rcases free_item hitems.left hi with ⟨h1, h2, hfree, hfree', hsame⟩
          have hrest : Segment h2 none (j :: rest) := by
            refine segment_frame hitems.right hsame ?_
            intro a ha
            rcases List.mem_cons.mp ha with hdata | hnode
            · rw [hdata]
              exact hirest.data
            · rw [List.mem_singleton.mp hnode]
              exact hirest.node
          rcases hrest.left.node with ⟨dataSize', hnext⟩
          rcases ih hrest (hnodup.sublist (by simp))
            (Nat.lt_of_succ_lt_succ hfuel) with ⟨h3, hloop, hsame3⟩
          refine ⟨h3, ?_, ?_⟩
          · simp only [freeNodes, deref_of_read hnode, Option.bind_eq_bind,
              Option.bind_some, kfree, hfree, hfree', headOr_cons,
              deref_of_read hnext]
            exact hloop
          · refine (hsame.mono (by simp)).trans (hsame3.mono ?_)
            intro a ha
            exact List.mem_cons_of_mem _ (List.mem_cons_of_mem _ ha)

theorem deleteSinglyLl_becomes (howns : Owns h ll items) :
    exists h' ll', deleteSinglyLl h ll = some (h', ll') ∧
      Becomes h items h' ll' [] := by
  have hcount := howns.count
  cases items with
  | nil =>
      have hzero : ll.nodeCount = 0 := UInt32.toNat_inj.mp hcount
      refine ⟨h, ll, ?_, becomes_self howns⟩
      simp only [deleteSinglyLl, hzero, if_true]
  | cons i rest =>
      have hzero : ¬ ll.nodeCount = 0 := by
        intro hnone
        rw [hnone] at hcount
        cases hcount
      have hhead : ll.head = some i.node := howns.head
      rcases howns.chain.left.node with ⟨dataSize, hnode⟩
      have hle := length_le_next howns.chain howns.nodup
      rw [List.length_cons] at hle
      rcases freeNodes_segment howns.chain howns.nodup
        (Nat.lt_of_succ_le (Nat.le_succ_of_le hle)) with ⟨h', hloop, hsame⟩
      refine ⟨h', ⟨0, none⟩, ?_, [], ⟨rfl, rfl, trivial, List.nodup_nil⟩, rfl,
        local_of_sublist hsame (List.nil_sublist _)⟩
      simp only [deleteSinglyLl, hzero, if_false, hhead, deref_of_read hnode,
        Option.bind_eq_bind, Option.bind_some, rounds, hloop]

end Empty

/-!
## Insertion
-/

section Add

variable {h h' : Heap Cell} {ll : LlT} {items : List Item} {i : Item}
variable {data : List UInt8} {size : UInt32}

theorem owns_fresh (howns : Owns h ll items)
    (hroom : items.length + 1 < UInt32.size)
    (hitem : i.node = h.next ∧ i.data = h.next + 1)
    (hholds : Holds h' i (headOr none items))
    (hsame : SameOutside [i.node, i.data] h h') :
    Owns h' ⟨ll.nodeCount + 1, some i.node⟩ (i :: items) ∧
      Local h h' items (i :: items) := by
  have hold : forall a, a ∈ footprint items -> a ≠ i.node ∧ a ≠ i.data := by
    intro a ha
    rcases read_of_mem_footprint howns.chain ha with ⟨c, hread⟩
    have hlt := Heap.lt_next_of_read hread
    rw [hitem.left, hitem.right]
    exact ⟨by lia, by lia⟩
  refine ⟨?_, ?_⟩
  · constructor
    · rfl
    · rw [List.length_cons, ← howns.count]
      exact count_succ (by rw [howns.count]; exact hroom)
    · refine ⟨hholds, segment_congr howns.chain ?_⟩
      intro a ha
      exact hsame a (by simp [hold a ha])
    · rw [footprint_cons, List.nodup_cons, List.nodup_cons, List.mem_cons]
      refine ⟨?_, ?_, howns.nodup⟩
      · intro hmem
        rcases hmem with hself | hmem
        · rw [hitem.left, hitem.right] at hself
          lia
        · exact (hold _ hmem).left rfl
      · intro hmem
        exact (hold _ hmem).right rfl
  · constructor
    · intro a c _ hread
      have hlt := Heap.lt_next_of_read hread
      rw [hsame a (by
        rw [hitem.left, hitem.right]
        simp only [List.mem_cons, List.not_mem_nil, or_false, not_or]
        exact ⟨by lia, by lia⟩)]
      exact hread
    · intro a ha
      rw [footprint_cons, List.mem_cons, List.mem_cons] at ha
      rcases ha with hnode | hdata | hmem
      · exact Or.inr (h.read_fresh (Nat.le_of_eq (hnode.trans hitem.left).symm))
      · exact Or.inr (h.read_fresh (by rw [hdata, hitem.right]; lia))
      · exact Or.inl hmem

theorem addNodeByVal_eq (ll : LlT) (hdata : size.toNat ≤ data.length) :
    exists h', singlyLlAddNodeByVal h ll data size =
        singlyLlAddNode h' ll h.next ∧
      h'.read h.next = some (.node ⟨some (h.next + 1), size, none⟩) ∧
        h'.read (h.next + 1) = some (.bytes (data.take size.toNat)) ∧
          SameOutside [h.next, h.next + 1] h h' := by
  let blank := Cell.node { data := none, dataSize := 0, next := none }
  let payload := Cell.bytes (data.take size.toNat)
  have hread1 : (h.alloc blank).1.read h.next = some blank :=
    h.read_alloc_self blank
  have hsame1 : SameOutside [h.next] h (h.alloc blank).1 :=
    h.sameOutside_alloc blank
  let h2 := ((h.alloc blank).1.alloc payload).1
  have hread2 : h2.read (h.next + 1) = some payload :=
    (h.alloc blank).1.read_alloc_self payload
  have hsame2 : SameOutside [h.next + 1] (h.alloc blank).1 h2 :=
    (h.alloc blank).1.sameOutside_alloc payload
  have hnode2 : h2.read h.next = some blank :=
    (hsame2 h.next (by simp)).trans hread1
  rcases Heap.write_of_read (Cell.node ⟨some (h.next + 1), size, none⟩) hnode2
    with ⟨h3, hwrite, hnode3, hsame3⟩
  refine ⟨h3, ?_, hnode3, ?_, ?_⟩
  · unfold singlyLlAddNodeByVal
    rw [if_pos hdata]
    show (deref h2 (some h.next) >>= fun n => h2.write h.next
      (.node { n with data := some (h.next + 1), dataSize := size }) >>=
        fun h' => singlyLlAddNode h' ll h.next) = _
    rw [deref_of_read hnode2]
    simp only [Option.bind_eq_bind, Option.bind_some, hwrite]
  · exact (hsame3 (h.next + 1) (by simp)).trans hread2
  · exact ((hsame1.mono (by simp)).trans (hsame2.mono (by simp))).trans
      (hsame3.mono (by simp))

theorem addNodeByVal_front (howns : Owns h ll items)
    (hdata : size.toNat ≤ data.length)
    (hroom : items.length + 1 < UInt32.size) :
    exists h' ll' i,
      singlyLlAddNodeByVal h ll data size = some (h', ll', .llSuccess) ∧
        i.payload = data.take size.toNat ∧ Owns h' ll' (i :: items) ∧
          Local h h' items (i :: items) := by
  rcases addNodeByVal_eq (h := h) ll hdata with
    ⟨h1, hcall, hnode, hbytes, hsame⟩
  rw [hcall]
  let i : Item := ⟨h.next, h.next + 1, data.take size.toNat⟩
  cases items with
  | nil =>
      have hhead : ll.head = none := howns.head
      refine ⟨h1, _, i, ?_, rfl, owns_fresh (i := i) howns hroom ⟨rfl, rfl⟩
        ⟨⟨size, hnode⟩, hbytes⟩ hsame⟩
      simp only [singlyLlAddNode, hhead]
      rfl
  | cons j rest =>
      have hhead : ll.head = some j.node := howns.head
      rcases Heap.write_of_read
        (Cell.node ⟨some (h.next + 1), size, some j.node⟩) hnode with
          ⟨h2, hwrite, hnode2, hsame2⟩
      refine ⟨h2, _, i, ?_, rfl, owns_fresh (i := i) howns hroom ⟨rfl, rfl⟩
        ⟨⟨size, hnode2⟩, ?_⟩ (hsame.trans (hsame2.mono (by simp)))⟩
      · simp only [singlyLlAddNode, hhead, deref_of_read hnode,
          Option.bind_eq_bind, Option.bind_some, hwrite]
        rfl
      · exact (hsame2 (h.next + 1) (by simp)).trans hbytes

theorem addNodeByVal_becomes (howns : Owns h ll items)
    (hdata : size.toNat ≤ data.length)
    (hroom : items.length + 1 < UInt32.size) :
    exists h' ll',
      singlyLlAddNodeByVal h ll data size = some (h', ll', .llSuccess) ∧
        Becomes h items h' ll' (data.take size.toNat :: payloads items) := by
  rcases addNodeByVal_front howns hdata hroom with
    ⟨h', ll', i, hcall, hpayload, howns', hlocal⟩
  exact ⟨h', ll', hcall, i :: items, howns', by rw [payloads_cons, hpayload],
    hlocal⟩

end Add

end HeapList
end RIBDriver
