import RIBDriver.Common.HeapList.Removal
import RIBDriver.Common.LinkedList
import RIBDriver.Library.Refinement

/-!
# The heap lists as functional lists

What `LinkedListApi.c` is for: any number of sequences of payloads.  Lists that
share one heap own disjoint parts of it, so that a call on one of them does
nothing to the others.
-/

namespace RIBDriver
namespace HeapList

/-!
## Functional lists
-/

namespace Contents

def onList (lists : List (List (List UInt8))) (l : Nat)
    (ask : List (List UInt8) -> Prop) [DecidablePred ask]
    (f : List (List UInt8) -> List (List UInt8) × Answer) :
    Option (List (List (List UInt8)) × Answer) :=
  match lists[l]? with
  | none => none
  | some contents =>
      if ask contents then
        some (lists.set l (f contents).1, (f contents).2)
      else none

/-- Insertion, erasure of the first match, search for the first match, emptying
and moving.  A key is no shorter than its comparison and is compared over at
most the size of each payload; a list has less than `2 ^ 32` elements; a move
is from one list to another, and nothing happens if that one is not empty. -/
def call (lists : List (List (List UInt8))) :
    Call -> Option (List (List (List UInt8)) × Answer)
  | .init => some (lists ++ [[]], .list lists.length)
  | .add l data size =>
      onList lists l
        (fun contents => size.toNat ≤ data.length ∧
          contents.length + 1 < UInt32.size)
        fun contents => (data.take size.toNat :: contents, .code .llSuccess)
  | .delete l key size =>
      onList lists l (Comparable key size) fun contents =>
        (contents.eraseP (agree · key size),
          .count (matched contents key size))
  | .remove l key size =>
      onList lists l (Comparable key size) fun contents =>
        (contents.eraseP (agree · key size),
          .count (matched contents key size))
  | .find l key size =>
      onList lists l (Comparable key size) fun contents =>
        (contents, .found (contents.find? (agree · key size)))
  | .empty l => onList lists l (fun _ => True) fun _ => ([], .done)
  | .move dst src =>
      match lists[dst]?, lists[src]? with
      | some target, some source =>
          if dst = src then none
          else if target = [] then
            some ((lists.set dst source).set src [], .done)
          else some (lists, .done)
      | _, _ => none

end Contents

/-!
## Representation
-/

/-- Each list owns the cells of its items and no cell has two owners. -/
structure Represents (m : Memory) (shapes : List (List Item)) : Prop where
  length : m.lists.length = shapes.length
  owns : forall (l : Nat) ll items, m.lists[l]? = some ll ->
    shapes[l]? = some items -> Owns m.heap ll items
  apart : forall (l l' : Nat) items items', l ≠ l' -> shapes[l]? = some items ->
    shapes[l']? = some items' ->
      List.Disjoint (footprint items) (footprint items')

def Refines (m : Memory) (lists : List (List (List UInt8))) : Prop :=
  exists shapes, Represents m shapes ∧ shapes.map payloads = lists

section Frame

variable {m : Memory} {shapes : List (List Item)} {h' : Heap Cell} {ll' : LlT}
variable {items items' : List Item} {l : Nat}

theorem owns_frame {ll : LlT} {others : List Item}
    (howns : Owns m.heap ll others) (hlocal : Local m.heap h' items items')
    (hdisjoint : List.Disjoint (footprint items) (footprint others)) :
    Owns h' ll others where
  head := howns.head
  count := howns.count
  chain := by
    refine segment_congr howns.chain ?_
    intro a ha
    rcases read_of_mem_footprint howns.chain ha with ⟨c, hread⟩
    rw [hread]
    exact hlocal.kept a c (fun hmem => hdisjoint hmem ha) hread
  nodup := howns.nodup

theorem represents_set (h : Represents m shapes)
    (hl : shapes[l]? = some items) (howns : Owns h' ll' items')
    (hlocal : Local m.heap h' items items') :
    Represents { heap := h', lists := m.lists.set l ll' }
      (shapes.set l items') := by
  have hapart : forall (k : Nat) others, k ≠ l -> shapes[k]? = some others ->
      List.Disjoint (footprint items') (footprint others) := by
    intro k others hk hothers a ha hmem
    rcases hlocal.fresh a ha with hold | hfresh
    · exact h.apart l k items others (Ne.symm hk) hl hothers hold hmem
    · rcases List.getElem?_eq_some_iff.mp hothers with ⟨hlt, _⟩
      rw [← h.length] at hlt
      have howned := h.owns k _ others (List.getElem?_eq_getElem hlt) hothers
      rcases read_of_mem_footprint howned.chain hmem with ⟨c, hread⟩
      rw [hread] at hfresh
      cases hfresh
  constructor
  · simp [h.length]
  · intro k ll others hk hothers
    change (m.lists.set l ll')[k]? = some ll at hk
    by_cases hsame : k = l
    · rw [hsame, List.getElem?_set_self'] at hk hothers
      rcases Option.map_eq_some_iff.mp hk with ⟨_, _, hll⟩
      rcases Option.map_eq_some_iff.mp hothers with ⟨_, _, hitems⟩
      rw [← hll, ← hitems]
      exact howns
    · rw [List.getElem?_set_ne (Ne.symm hsame)] at hk hothers
      refine owns_frame (h.owns k ll others hk hothers) hlocal ?_
      exact h.apart l k items others (Ne.symm hsame) hl hothers
  · intro k k' others others' hne hothers hothers'
    by_cases hk : k = l
    · rw [hk, List.getElem?_set_self'] at hothers
      rcases Option.map_eq_some_iff.mp hothers with ⟨_, _, hitems⟩
      rw [List.getElem?_set_ne (by rw [← hk]; exact hne)] at hothers'
      rw [← hitems]
      exact hapart k' others' (by rw [← hk]; exact hne.symm) hothers'
    · rw [List.getElem?_set_ne (Ne.symm hk)] at hothers
      by_cases hk' : k' = l
      · rw [hk', List.getElem?_set_self'] at hothers'
        rcases Option.map_eq_some_iff.mp hothers' with ⟨_, _, hitems⟩
        rw [← hitems]
        intro a ha hmem
        exact hapart k others hk hothers hmem ha
      · rw [List.getElem?_set_ne (Ne.symm hk')] at hothers'
        exact h.apart k k' others others' hne hothers hothers'

end Frame

/-!
## One call
-/

section Calls

variable {m : Memory} {lists lists' : List (List (List UInt8))} {l : Nat}
variable {answer : Answer}

theorem onList_refines {ask : List (List UInt8) -> Prop} [DecidablePred ask]
    {f : Heap Cell -> LlT -> Option (Heap Cell × LlT × Answer)}
    {g : List (List UInt8) -> List (List UInt8) × Answer}
    (hspec : forall h ll items, Owns h ll items -> ask (payloads items) ->
      exists h' ll', f h ll = some (h', ll', (g (payloads items)).2) ∧
        Becomes h items h' ll' (g (payloads items)).1)
    (h : Refines m lists)
    (hcall : Contents.onList lists l ask g = some (lists', answer)) :
    exists m', m.onList l f = some (m', answer) ∧ Refines m' lists' := by
  rcases h with ⟨shapes, hrep, hlists⟩
  unfold Contents.onList at hcall
  split at hcall
  · cases hcall
  · rename_i contents hcontents
    split at hcall
    · rename_i hask
      cases hcall
      rw [← hlists, List.getElem?_map] at hcontents
      rcases Option.map_eq_some_iff.mp hcontents with ⟨items, hitems, hpayloads⟩
      rcases List.getElem?_eq_some_iff.mp hitems with ⟨hlt, _⟩
      rw [← hrep.length] at hlt
      have hll := List.getElem?_eq_getElem hlt
      rw [← hpayloads] at hask
      rcases hspec m.heap _ items (hrep.owns l _ items hll hitems) hask with
        ⟨h', ll', hrun, items', howns, hnew, hlocal⟩
      refine ⟨{ heap := h', lists := m.lists.set l ll' }, ?_,
        shapes.set l items', represents_set hrep hitems howns hlocal, ?_⟩
      · simp only [Memory.onList, hll, Option.bind_eq_bind, Option.bind_some,
          hrun, hpayloads]
      · rw [List.map_set, hnew, hlists, hpayloads]
    · cases hcall

theorem init_refines (h : Refines m lists) :
    Refines { m with lists := m.lists ++ [initSinglyLl] } (lists ++ [[]]) := by
  rcases h with ⟨shapes, hrep, hlists⟩
  have hfresh : Owns m.heap initSinglyLl [] :=
    ⟨rfl, rfl, trivial, List.nodup_nil⟩
  refine ⟨shapes ++ [[]], ⟨?_, ?_, ?_⟩, ?_⟩
  · simp [hrep.length]
  · intro k ll items hk hitems
    change (m.lists ++ [initSinglyLl])[k]? = some ll at hk
    rw [List.getElem?_append] at hk hitems
    rw [hrep.length] at hk
    split at hk
    · rename_i hlt
      rw [if_pos hlt] at hitems
      exact hrep.owns k ll items hk hitems
    · rename_i hlt
      rw [if_neg hlt] at hitems
      rw [List.getElem?_singleton] at hk hitems
      split at hk
      · rename_i hzero
        rw [if_pos hzero] at hitems
        cases hk
        cases hitems
        exact hfresh
      · cases hk
  · have hlast : forall (k : Nat) items, (shapes ++ [[]])[k]? = some items ->
        shapes[k]? = some items ∨ items = [] := by
      intro k items hitems
      rw [List.getElem?_append] at hitems
      split at hitems
      · exact Or.inl hitems
      · rw [List.getElem?_singleton] at hitems
        split at hitems
        · exact Or.inr (Option.some.inj hitems).symm
        · cases hitems
    intro k k' items items' hne hitems hitems'
    rcases hlast k items hitems with hold | hnil
    · rcases hlast k' items' hitems' with hold' | hnil'
      · exact hrep.apart k k' items items' hne hold hold'
      · rw [hnil']
        exact List.disjoint_nil_right _
    · rw [hnil]
      exact List.disjoint_nil_left _
  · rw [List.map_append, hlists]
    rfl

theorem find_spec {h : Heap Cell} {ll : LlT} {items : List Item}
    {key : List UInt8} {size : UInt32} (howns : Owns h ll items)
    (hfits : Comparable key size (payloads items)) :
    exists h' ll',
      (do
        match <- singlyLlIsValuePresent h ll key size with
        | none => some (h, ll, Answer.found none)
        | some node =>
            let found <- Memory.payload h node
            some (h, ll, Answer.found (some found))) =
        some (h', ll', .found ((payloads items).find? (agree · key size))) ∧
        Becomes h items h' ll' (payloads items) := by
  have hsearch : singlyLlIsValuePresent h ll key size = _ :=
    search_eq howns hfits
  have hfound : (payloads items).find? (agree · key size) =
      (items.find? fun i => agree i.payload key size).map (·.payload) :=
    List.find?_map
  refine ⟨h, ll, ?_, becomes_self howns⟩
  rw [hsearch, hfound]
  cases hfind : items.find? fun i => agree i.payload key size with
  | none => rfl
  | some i =>
      rcases split_of_find hfind with ⟨pre, post, hitems, _, _⟩
      have hchain := howns.chain
      rw [hitems] at hchain
      have hholds := (segment_append.mp hchain).right.left
      rcases hholds.node with ⟨dataSize, hnode⟩
      simp [Memory.payload, deref_of_read hnode, hholds.data]

theorem set_self {alpha : Type _} {xs : List alpha} {k : Nat} {x : alpha}
    (hx : xs[k]? = some x) : xs.set k x = xs := by
  rcases List.getElem?_eq_some_iff.mp hx with ⟨hlt, hget⟩
  rw [← hget]
  exact List.set_getElem_self hlt

theorem represents_move {shapes : List (List Item)} {dst src : Nat}
    {source : LlT} {items : List Item} (h : Represents m shapes)
    (hsource : m.lists[src]? = some source) (hitems : shapes[src]? = some items) :
    Represents
      { m with lists := (m.lists.set dst source).set src ⟨0, none⟩ }
      ((shapes.set dst items).set src []) := by
  have howns := h.owns src source items hsource hitems
  -- where the items of a list come from
  have hfrom : forall (k : Nat) others,
      ((shapes.set dst items).set src [])[k]? = some others ->
        others = [] ∨ (k = dst ∧ others = items) ∨
          (k ≠ dst ∧ k ≠ src ∧ shapes[k]? = some others) := by
    intro k others hothers
    by_cases hsrc : k = src
    · rw [hsrc, List.getElem?_set_self'] at hothers
      rcases Option.map_eq_some_iff.mp hothers with ⟨_, _, hnil⟩
      exact Or.inl hnil.symm
    · rw [List.getElem?_set_ne (Ne.symm hsrc)] at hothers
      by_cases hdst : k = dst
      · rw [hdst, List.getElem?_set_self'] at hothers
        rcases Option.map_eq_some_iff.mp hothers with ⟨_, _, hsame⟩
        exact Or.inr (Or.inl ⟨hdst, hsame.symm⟩)
      · rw [List.getElem?_set_ne (Ne.symm hdst)] at hothers
        exact Or.inr (Or.inr ⟨hdst, hsrc, hothers⟩)
  constructor
  · simp [h.length]
  · intro k ll others hk hothers
    change ((m.lists.set dst source).set src ⟨0, none⟩)[k]? = some ll at hk
    by_cases hsrc : k = src
    · rw [hsrc, List.getElem?_set_self'] at hk hothers
      rcases Option.map_eq_some_iff.mp hk with ⟨_, _, hll⟩
      rcases Option.map_eq_some_iff.mp hothers with ⟨_, _, hnil⟩
      rw [← hll, ← hnil]
      exact ⟨rfl, rfl, trivial, List.nodup_nil⟩
    · rw [List.getElem?_set_ne (Ne.symm hsrc)] at hk hothers
      by_cases hdst : k = dst
      · rw [hdst, List.getElem?_set_self'] at hk hothers
        rcases Option.map_eq_some_iff.mp hk with ⟨_, _, hll⟩
        rcases Option.map_eq_some_iff.mp hothers with ⟨_, _, hsame⟩
        rw [← hll, ← hsame]
        exact howns
      · rw [List.getElem?_set_ne (Ne.symm hdst)] at hk hothers
        exact h.owns k ll others hk hothers
  · intro k k' others others' hkk hothers hothers'
    rcases hfrom k others hothers with hnil | hmoved | hold
    · rw [hnil]
      exact List.disjoint_nil_left _
    · rcases hfrom k' others' hothers' with hnil' | hmoved' | hold'
      · rw [hnil']
        exact List.disjoint_nil_right _
      · exact absurd (hmoved.left.trans hmoved'.left.symm) hkk
      · rw [hmoved.right]
        exact h.apart src k' items others' (Ne.symm hold'.right.left) hitems
          hold'.right.right
    · rcases hfrom k' others' hothers' with hnil' | hmoved' | hold'
      · rw [hnil']
        exact List.disjoint_nil_right _
      · rw [hmoved'.right]
        exact h.apart k src others items hold.right.left hold.right.right hitems
      · exact h.apart k k' others others' hkk hold.right.right
          hold'.right.right

theorem move_refines {dst src : Nat} (h : Refines m lists)
    (hcall : Contents.call lists (.move dst src) = some (lists', answer)) :
    exists m', m.call (.move dst src) = some (m', answer) ∧
      Refines m' lists' := by
  rcases h with ⟨shapes, hrep, hlists⟩
  simp only [Contents.call] at hcall
  split at hcall
  · rename_i contents contents' hdst hsrc
    rw [← hlists, List.getElem?_map] at hdst hsrc
    rcases Option.map_eq_some_iff.mp hdst with ⟨items, hitems, hpayloads⟩
    rcases Option.map_eq_some_iff.mp hsrc with ⟨items', hitems', hpayloads'⟩
    rcases List.getElem?_eq_some_iff.mp hitems with ⟨hlt, _⟩
    rcases List.getElem?_eq_some_iff.mp hitems' with ⟨hlt', _⟩
    rw [← hrep.length] at hlt hlt'
    have htarget := List.getElem?_eq_getElem hlt
    have hsource := List.getElem?_eq_getElem hlt'
    have hcount := (hrep.owns dst _ items htarget hitems).count
    split at hcall
    · cases hcall
    · rename_i hne
      split at hcall
      · rename_i hempty
        cases hcall
        rw [hempty] at hpayloads
        have hnil : items = [] := List.map_eq_nil_iff.mp hpayloads
        rw [hnil] at hcount
        have hzero : (m.lists[dst]).nodeCount = 0 := UInt32.toNat_inj.mp hcount
        refine ⟨{ m with lists := (m.lists.set dst m.lists[src]).set src ⟨0, none⟩ },
          ?_, (shapes.set dst items').set src [],
          represents_move hrep hsource hitems', ?_⟩
        · simp only [Memory.call, htarget, hsource, Option.bind_eq_bind,
            Option.bind_some, moveNodes, hzero, if_true]
        · rw [List.map_set, List.map_set, hlists, hpayloads']
          rfl
      · rename_i hfull
        cases hcall
        have hzero : ¬ (m.lists[dst]).nodeCount = 0 := by
          intro hnone
          rw [hnone] at hcount
          have hnil : items = [] := List.length_eq_zero_iff.mp hcount.symm
          rw [hnil] at hpayloads
          exact hfull hpayloads.symm
        refine ⟨m, ?_, shapes, hrep, hlists⟩
        simp only [Memory.call, htarget, hsource, Option.bind_eq_bind,
          Option.bind_some, moveNodes, hzero, if_false, set_self htarget,
          set_self hsource]
  · cases hcall

theorem call_refines (m : Memory) (lists : List (List (List UInt8)))
    (c : Call) (lists' : List (List (List UInt8))) (answer : Answer)
    (h : Refines m lists)
    (hcall : Contents.call lists c = some (lists', answer)) :
    exists m', m.call c = some (m', answer) ∧ Refines m' lists' := by
  cases c with
  | init =>
      cases hcall
      have hlength : m.lists.length = lists.length := by
        rcases h with ⟨shapes, hrep, hlists⟩
        rw [← hlists, hrep.length, List.length_map]
      refine ⟨_, ?_, init_refines h⟩
      rw [← hlength]
      rfl
  | add l data size =>
      simp only [Memory.call]
      refine onList_refines ?_ h hcall
      intro h ll items howns hask
      rw [payloads, List.length_map] at hask
      rcases addNodeByVal_becomes howns hask.left hask.right with
        ⟨h', ll', hrun, hbecomes⟩
      exact ⟨h', ll', by simp [hrun], hbecomes⟩
  | delete l key size =>
      simp only [Memory.call]
      refine onList_refines ?_ h hcall
      intro h ll items howns hask
      rcases deleteNodeByValue_becomes howns hask with ⟨h', ll', hrun, hbecomes⟩
      exact ⟨h', ll', by simp [hrun], hbecomes⟩
  | remove l key size =>
      simp only [Memory.call]
      refine onList_refines ?_ h hcall
      intro h ll items howns hask
      rcases removeNodeByValue_becomes howns hask with ⟨h', ll', hrun, hbecomes⟩
      exact ⟨h', ll', by simp [hrun], hbecomes⟩
  | find l key size =>
      simp only [Memory.call]
      refine onList_refines ?_ h hcall
      intro h ll items howns hask
      exact find_spec howns hask
  | empty l =>
      simp only [Memory.call]
      refine onList_refines ?_ h hcall
      intro h ll items howns _
      rcases deleteSinglyLl_becomes howns with ⟨h', ll', hrun, hbecomes⟩
      exact ⟨h', ll', by simp [hrun], hbecomes⟩
  | move dst src => exact move_refines h hcall

end Calls

/-!
## Every sequence of calls
-/

theorem refines_init : Refines Memory.init [] := by
  refine ⟨[], ⟨rfl, ?_, ?_⟩, rfl⟩
  · intro l ll items hll
    cases hll
  · intro l l' items items' _ hitems
    cases hitems

/-- Calls that may be asked of the functional lists run without a fault, with
the same answers, and leave chains of live nodes that no two lists share. -/
theorem heap_refines_lists {calls : List Call}
    {lists : List (List (List UInt8))} {answers : List Answer}
    (h : Refinement.answers? Contents.call [] calls = some (lists, answers)) :
    exists m,
      Refinement.answers? Memory.call Memory.init calls = some (m, answers) ∧
        Refines m lists :=
  Refinement.answers?_of_related call_refines refines_init h

theorem heap_refines_lists_two :
    exists m, Refinement.answers? Memory.call Memory.init
        [.init, .init, .add 0 [1] 1, .add 0 [2] 1, .add 0 [3] 1, .add 0 [4] 1,
          .delete 0 [4] 1, .remove 0 [2] 1, .find 0 [1] 1, .move 1 0,
          .delete 1 [1] 1, .delete 0 [1] 1, .empty 1] =
        some (m, [.list 0, .list 1, .code .llSuccess, .code .llSuccess,
          .code .llSuccess, .code .llSuccess, .count 1, .count 1,
          .found (some [1]), .done, .count 1, .count 0, .done]) ∧
      Refines m [[], []] :=
  heap_refines_lists (by decide)

/-!
## Payloads of one size

The driver compares whole payloads: its records and its pointers.
-/

section Whole

variable {contents : List (List UInt8)} {key : List UInt8} {size : UInt32}

theorem agree_iff {payload : List UInt8} (hkey : key.length = size.toNat)
    (hpayload : payload.length = size.toNat) :
    agree payload key size = true <-> payload = key := by
  rw [agree, List.take_of_length_le (Nat.le_of_eq hpayload),
    List.take_of_length_le (Nat.le_of_eq hkey), beq_iff_eq]

theorem find_isSome_eq_isValuePresent (hkey : key.length = size.toNat)
    (hcontents : forall payload, payload ∈ contents ->
      payload.length = size.toNat) :
    (contents.find? (agree · key size)).isSome =
      RIBDriver.singlyLlIsValuePresent contents key :=
  find_isSome_eq_singlyLlIsValuePresent fun p hp =>
    agree_iff hkey (hcontents p hp)

end Whole

end HeapList
end RIBDriver
