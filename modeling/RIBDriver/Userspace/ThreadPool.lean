import RIBDriver.Library.Slots
import RIBDriver.Library.Transition

/-!
# The pool of blocked threads

The pool of `threadApi.c` is an array of pointers to thread structures, of
which the first `pool_size` are used.  Each call holds `pool_mutex` while it
looks at the slots, so that calls follow one another; their pool pointer is not
null.
-/

namespace RIBDriver

def maxPoolSize : Nat := 100

def failure : Int := -1

/-- `blocked_pool_t`; a slot is `none` where the array holds `NULL`. -/
structure BlockedPool (pthread : Type _) where
  poolSize : UInt32
  blockedThreadCollection : Vector (Option pthread) maxPoolSize

namespace BlockedPool

variable {pthread : Type _}

inductive Message where
  | added (selfid : UInt32) (loc : Int)
  | full (selfid : UInt32)
  | alreadyInPool (selfid : UInt32)
  | removed (selfid : UInt32)
  | doesNotExist (selfid : UInt32)
deriving DecidableEq

structure Result (pthread : Type _) where
  pool : BlockedPool pthread
  rc : Int
  message : Option Message

def slot (blockPool : BlockedPool pthread) (i : Nat) : Option pthread :=
  (blockPool.blockedThreadCollection[i]?).join

def setSlot (blockPool : BlockedPool pthread) (loc : Int) (x : Option pthread) :
    BlockedPool pthread :=
  { blockPool with
    blockedThreadCollection :=
      blockPool.blockedThreadCollection.setIfInBounds loc.toNat x }

/-- Only the slots in use are cleared. -/
def initBlockedPool (old : BlockedPool pthread) (poolSize : UInt32) :
    BlockedPool pthread where
  poolSize := poolSize
  blockedThreadCollection :=
    old.blockedThreadCollection.mapIdx fun i x =>
      if i < poolSize.toNat then none else x

/-- The slots in the order of `for(i = 0; i < pool_size; i++)`. -/
def slotsUp (blockPool : BlockedPool pthread) : List Nat :=
  List.range blockPool.poolSize.toNat

/-- The slots in the order of `for(i = pool_size -1; i >= 0; i--)`; the start
is computed unsigned and stored in an `int`. -/
def slotsDown (blockPool : BlockedPool pthread) : List Nat :=
  (List.range ((blockPool.poolSize - 1).toInt32.toInt + 1).toNat).reverse

def firstSlot (slots : List Nat) (found : Nat -> Bool) : Int :=
  match slots.find? found with
  | some i => i
  | none => failure

section Calls

variable (selfid : pthread -> UInt32)

def isThreadInBlockPool (thid : UInt32) (blockPool : BlockedPool pthread) :
    Int :=
  firstSlot blockPool.slotsUp fun i =>
    (blockPool.slot i).any fun thread => selfid thread == thid

def getEmptySlotFromPool (blockPool : BlockedPool pthread) : Int :=
  firstSlot blockPool.slotsDown fun i => (blockPool.slot i).isNone

def poolAdd (blockPool : BlockedPool pthread) (thread : pthread) :
    Result pthread :=
  if selfid thread > blockPool.poolSize - 1 then
    { pool := blockPool, rc := -1, message := none }
  else
    let loc := blockPool.getEmptySlotFromPool
    if loc > -1 then
      { pool := blockPool.setSlot loc (some thread)
        rc := loc
        message := some (.added (selfid thread) loc) }
    else
      { pool := blockPool
        rc := failure
        message := some (.full (selfid thread)) }

def addThreadToPool (blockPool : BlockedPool pthread) (thread : pthread) :
    Result pthread :=
  if blockPool.isThreadInBlockPool selfid (selfid thread) < 0 then
    blockPool.poolAdd selfid thread
  else
    { pool := blockPool
      rc := failure
      message := some (.alreadyInPool (selfid thread)) }

def removeThreadFromPool (blockPool : BlockedPool pthread) (thread : pthread) :
    Result pthread :=
  if selfid thread > blockPool.poolSize - 1 then
    { pool := blockPool, rc := failure, message := none }
  else
    let loc := blockPool.isThreadInBlockPool selfid (selfid thread)
    if loc > -1 then
      { pool := blockPool.setSlot loc none
        rc := loc
        message := some (.removed (selfid thread)) }
    else
      { pool := blockPool
        rc := loc
        message := some (.doesNotExist (selfid thread)) }

end Calls
/-!
## One call
-/

structure SizeOk (blockPool : BlockedPool pthread) : Prop where
  pos : 1 ≤ blockPool.poolSize.toNat
  le_max : blockPool.poolSize.toNat ≤ maxPoolSize

def Stored (selfid : pthread -> UInt32) (blockPool : BlockedPool pthread)
    (thid : UInt32) : Prop :=
  Slots.Holds blockPool.slot (fun thread => (selfid thread).toNat)
    blockPool.poolSize.toNat thid.toNat

def Keyed (selfid : pthread -> UInt32) (blockPool : BlockedPool pthread) : Prop :=
  Slots.Keyed blockPool.slot (fun thread => (selfid thread).toNat)
    blockPool.poolSize.toNat

section Slot

variable {blockPool : BlockedPool pthread}

theorem slot_setSlot {loc : Nat} (hloc : loc < maxPoolSize)
    (x : Option pthread) :
    (blockPool.setSlot loc x).slot = Function.update blockPool.slot loc x := by
  funext i
  by_cases hi : i = loc
  · rw [hi, Function.update_self]
    unfold slot setSlot
    simp [hloc]
  · rw [Function.update_of_ne hi]
    have hne : loc ≠ i := fun hsame => hi hsame.symm
    unfold slot setSlot
    simp [hne]

theorem slot_init {old : BlockedPool pthread} {poolSize : UInt32} {i : Nat}
    (hi : i < poolSize.toNat) : (initBlockedPool old poolSize).slot i = none := by
  unfold slot initBlockedPool
  dsimp only
  rw [Vector.getElem?_mapIdx]
  cases old.blockedThreadCollection[i]? with
  | none => rfl
  | some x => simp [hi]

theorem toInt_toInt32 {x : UInt32} (h : 2 * x.toNat < UInt32.size) :
    x.toInt32.toInt = x.toNat :=
  BitVec.toInt_eq_toNat_of_lt h

theorem toNat_last (hsize : SizeOk blockPool) :
    (blockPool.poolSize - 1).toNat = blockPool.poolSize.toNat - 1 := by
  have hone : (1 : UInt32) ≤ blockPool.poolSize := hsize.pos
  rw [UInt32.toNat_sub_of_le _ _ hone]
  rfl

theorem not_gt_last_iff (hsize : SizeOk blockPool) {thid : UInt32} :
    ¬ thid > blockPool.poolSize - 1 <->
      thid.toNat < blockPool.poolSize.toNat := by
  have hpos := hsize.pos
  have hlast := toNat_last hsize
  rw [gt_iff_lt, UInt32.lt_iff_toNat_lt, hlast]
  lia

theorem slotsDown_eq (hsize : SizeOk blockPool) :
    blockPool.slotsDown = blockPool.slotsUp.reverse := by
  have hpos := hsize.pos
  have hle := hsize.le_max
  unfold maxPoolSize at hle
  have hlast := toNat_last hsize
  have hsigned : (blockPool.poolSize - 1).toInt32.toInt =
      (blockPool.poolSize.toNat - 1 : Nat) := by
    rw [← hlast]
    apply toInt_toInt32
    rw [hlast]
    unfold UInt32.size
    lia
  unfold slotsDown slotsUp
  rw [hsigned]
  congr 2
  lia

theorem firstSlot_eq_some {slots : List Nat} {found : Nat -> Bool} {loc : Int}
    (h : firstSlot slots found = loc) (hloc : -1 < loc) :
    exists i, i ∈ slots ∧ found i = true ∧ loc = i := by
  unfold firstSlot at h
  split at h
  · rename_i i hi
    exact ⟨i, List.mem_of_find?_eq_some hi, List.find?_some hi, h.symm⟩
  · unfold failure at h
    lia

theorem firstSlot_lt_zero_iff {slots : List Nat} {found : Nat -> Bool} :
    firstSlot slots found < 0 <-> forall i, i ∈ slots -> found i = false := by
  unfold firstSlot
  cases hfind : slots.find? found with
  | none =>
      have hall := List.find?_eq_none.mp hfind
      apply iff_of_true
      · show failure < 0
        decide
      · intro i hi
        exact Bool.not_eq_true _ |>.mp (hall i hi)
  | some i =>
      apply iff_of_false
      · show ¬ (i : Int) < 0
        lia
      · intro hall
        have hfalse := hall i (List.mem_of_find?_eq_some hfind)
        rw [List.find?_some hfind] at hfalse
        cases hfalse

theorem firstSlot_eq_failure {slots : List Nat} {found : Nat -> Bool}
    (h : firstSlot slots found < 0) : firstSlot slots found = failure := by
  unfold firstSlot at h ⊢
  split
  · rename_i i hi
    rw [hi] at h
    exact absurd h (by lia)
  · rfl

end Slot

section Calls

variable {selfid : pthread -> UInt32} {blockPool : BlockedPool pthread}

theorem isThreadInBlockPool_lt_zero_iff {thid : UInt32} :
    blockPool.isThreadInBlockPool selfid thid < 0 <->
      ¬ Stored selfid blockPool thid := by
  unfold isThreadInBlockPool
  rw [firstSlot_lt_zero_iff]
  constructor
  · intro hnone hstored
    rcases hstored with ⟨i, thread, hi, hslot, hid⟩
    have hmiss := hnone i (List.mem_range.mpr hi)
    rw [hslot] at hmiss
    have hsame : selfid thread = thid := UInt32.toNat_inj.mp hid
    simp [hsame] at hmiss
  · intro hnew i hi
    cases hslot : blockPool.slot i with
    | none => rfl
    | some thread =>
        have hother : ¬ selfid thread = thid := by
          intro hsame
          exact hnew ⟨i, thread, List.mem_range.mp hi, hslot,
            congrArg UInt32.toNat hsame⟩
        simp [hother]

theorem slot_of_isThreadInBlockPool {thid : UInt32}
    (hloc : blockPool.isThreadInBlockPool selfid thid > -1) :
    exists (i : Nat) (thread : pthread),
      blockPool.isThreadInBlockPool selfid thid = i ∧
        i < blockPool.poolSize.toNat ∧ blockPool.slot i = some thread ∧
          selfid thread = thid := by
  rcases firstSlot_eq_some rfl hloc with ⟨i, hi, hfound, heq⟩
  cases hslot : blockPool.slot i with
  | none =>
      rw [hslot] at hfound
      cases hfound
  | some thread =>
      rw [hslot] at hfound
      exact ⟨i, thread, heq, List.mem_range.mp hi, hslot, beq_iff_eq.mp hfound⟩

inductive Adds (selfid : pthread -> UInt32) (blockPool : BlockedPool pthread)
    (thread : pthread) : Result pthread -> Prop where
  | stored (hstored : Stored selfid blockPool (selfid thread)) :
      Adds selfid blockPool thread
        ⟨blockPool, failure, some (.alreadyInPool (selfid thread))⟩
  | outOfRange
      (hrange : ¬ (selfid thread).toNat < blockPool.poolSize.toNat) :
      Adds selfid blockPool thread ⟨blockPool, -1, none⟩
  | added {i : Nat} (hnew : ¬ Stored selfid blockPool (selfid thread))
      (hrange : (selfid thread).toNat < blockPool.poolSize.toNat)
      (hi : i < blockPool.poolSize.toNat) (hempty : blockPool.slot i = none) :
      Adds selfid blockPool thread
        ⟨blockPool.setSlot i (some thread), i,
          some (.added (selfid thread) i)⟩
  | full (hnew : ¬ Stored selfid blockPool (selfid thread))
      (hrange : (selfid thread).toNat < blockPool.poolSize.toNat)
      (hfull : forall i, i < blockPool.poolSize.toNat ->
        blockPool.slot i ≠ none) :
      Adds selfid blockPool thread
        ⟨blockPool, failure, some (.full (selfid thread))⟩

inductive Removes (selfid : pthread -> UInt32)
    (blockPool : BlockedPool pthread) (thread : pthread) :
    Result pthread -> Prop where
  | outOfRange
      (hrange : ¬ (selfid thread).toNat < blockPool.poolSize.toNat) :
      Removes selfid blockPool thread ⟨blockPool, failure, none⟩
  | removed {i : Nat} {held : pthread} (hi : i < blockPool.poolSize.toNat)
      (hslot : blockPool.slot i = some held)
      (hid : selfid held = selfid thread) :
      Removes selfid blockPool thread
        ⟨blockPool.setSlot i none, i, some (.removed (selfid thread))⟩
  | absent (hnew : ¬ Stored selfid blockPool (selfid thread)) :
      Removes selfid blockPool thread
        ⟨blockPool, failure, some (.doesNotExist (selfid thread))⟩

theorem adds_addThreadToPool (hsize : SizeOk blockPool) (thread : pthread) :
    Adds selfid blockPool thread (blockPool.addThreadToPool selfid thread) := by
  unfold addThreadToPool
  split
  · rename_i hneg
    have hnew := isThreadInBlockPool_lt_zero_iff.mp hneg
    unfold poolAdd
    split
    · rename_i hgt
      apply Adds.outOfRange
      intro hrange
      exact (not_gt_last_iff hsize).mpr hrange hgt
    · rename_i hngt
      have hrange := (not_gt_last_iff hsize).mp hngt
      dsimp only
      split
      · rename_i hloc
        rcases firstSlot_eq_some rfl hloc with ⟨i, hi, hnone, heq⟩
        rw [slotsDown_eq hsize, List.mem_reverse] at hi
        have hempty := Option.isNone_iff_eq_none.mp hnone
        rw [show blockPool.getEmptySlotFromPool = i from heq]
        exact Adds.added hnew hrange (List.mem_range.mp hi) hempty
      · rename_i hloc
        apply Adds.full hnew hrange
        intro i hi hempty
        have hneg : firstSlot blockPool.slotsDown
            (fun i => (blockPool.slot i).isNone) < 0 := by
          unfold getEmptySlotFromPool at hloc
          lia
        have hmiss := firstSlot_lt_zero_iff.mp hneg i (by
          rw [slotsDown_eq hsize, List.mem_reverse]
          exact List.mem_range.mpr hi)
        rw [hempty] at hmiss
        cases hmiss
  · rename_i hfound
    apply Adds.stored
    by_contra hnew
    exact hfound (isThreadInBlockPool_lt_zero_iff.mpr hnew)

theorem removes_removeThreadFromPool (hsize : SizeOk blockPool)
    (thread : pthread) :
    Removes selfid blockPool thread
      (blockPool.removeThreadFromPool selfid thread) := by
  unfold removeThreadFromPool
  split
  · rename_i hgt
    apply Removes.outOfRange
    intro hrange
    exact (not_gt_last_iff hsize).mpr hrange hgt
  · dsimp only
    split
    · rename_i hloc
      rcases slot_of_isThreadInBlockPool hloc with ⟨i, held, heq, hi, hslot, hid⟩
      rw [heq]
      exact Removes.removed hi hslot hid
    · rename_i hloc
      have hneg : blockPool.isThreadInBlockPool selfid (selfid thread) < 0 := by
        lia
      rw [show blockPool.isThreadInBlockPool selfid (selfid thread) = failure
        from firstSlot_eq_failure hneg]
      exact Removes.absent (isThreadInBlockPool_lt_zero_iff.mp hneg)

end Calls

/-!
## Runs
-/

structure State (pthread : Type _) where
  blockPool : BlockedPool pthread
  selfid : pthread -> UInt32

inductive Action (pthread : Type _) where
  | addThreadToPool (thread : pthread)
  | removeThreadFromPool (thread : pthread)
  /-- `pthread_init` gives a thread structure an id. -/
  | pthreadInit (thread : pthread) (tid : UInt32)
deriving DecidableEq

section Steps

variable [DecidableEq pthread]

def isPooled (blockPool : BlockedPool pthread) (thread : pthread) : Bool :=
  blockPool.slotsUp.any fun i => blockPool.slot i == some thread

def start (old : BlockedPool pthread) (poolSize : UInt32)
    (selfid : pthread -> UInt32) : State pthread where
  blockPool := initBlockedPool old poolSize
  selfid := selfid

/-- The id of a structure changes only while it is not stored. -/
def step (s : State pthread) : Action pthread -> Option (State pthread)
  | .addThreadToPool thread =>
      some { s with
        blockPool := (s.blockPool.addThreadToPool s.selfid thread).pool }
  | .removeThreadFromPool thread =>
      some { s with
        blockPool := (s.blockPool.removeThreadFromPool s.selfid thread).pool }
  | .pthreadInit thread tid =>
      if s.blockPool.isPooled thread then none
      else some { s with selfid := Function.update s.selfid thread tid }

structure SlotChanged (blockPool blockPool' : BlockedPool pthread) (loc : Nat)
    (x : Option pthread) : Prop where
  poolSize : blockPool'.poolSize = blockPool.poolSize
  changed : blockPool'.slot loc = x
  kept : forall i, i ≠ loc -> blockPool'.slot i = blockPool.slot i

/-- A call that adds returns a slot that was empty and now holds the thread, or
a negative number and changes nothing, and it never finds the pool full. -/
structure AddsExactly (selfid : pthread -> UInt32)
    (blockPool : BlockedPool pthread) (thread : pthread)
    (r : Result pthread) : Prop where
  added_iff : 0 ≤ r.rc <->
    (selfid thread).toNat < blockPool.poolSize.toNat ∧
      ¬ Stored selfid blockPool (selfid thread)
  added : 0 ≤ r.rc -> exists loc : Nat, r.rc = loc ∧
    loc < blockPool.poolSize.toNat ∧ blockPool.slot loc = none ∧
      SlotChanged blockPool r.pool loc (some thread)
  refused : r.rc < 0 -> r.pool = blockPool
  neverFull : r.message ≠ some (.full (selfid thread))

/-- A call that removes returns the slot that held the id and frees it, or a
negative number and changes nothing. -/
structure RemovesExactly (selfid : pthread -> UInt32)
    (blockPool : BlockedPool pthread) (thread : pthread)
    (r : Result pthread) : Prop where
  refused_iff : r.rc < 0 <-> ¬ Stored selfid blockPool (selfid thread)
  removed : 0 ≤ r.rc -> exists (loc : Nat) (held : pthread), r.rc = loc ∧
    loc < blockPool.poolSize.toNat ∧ blockPool.slot loc = some held ∧
      selfid held = selfid thread ∧ SlotChanged blockPool r.pool loc none
  refused : r.rc < 0 -> r.pool = blockPool

structure Safe (s : State pthread) : Prop where
  unique : forall i j thread thread', i < s.blockPool.poolSize.toNat ->
    j < s.blockPool.poolSize.toNat -> s.blockPool.slot i = some thread ->
      s.blockPool.slot j = some thread' ->
        s.selfid thread = s.selfid thread' -> i = j
  below : forall i thread, i < s.blockPool.poolSize.toNat ->
    s.blockPool.slot i = some thread -> s.selfid thread < s.blockPool.poolSize
  adds : forall thread, AddsExactly s.selfid s.blockPool thread
    (s.blockPool.addThreadToPool s.selfid thread)
  removes : forall thread, RemovesExactly s.selfid s.blockPool thread
    (s.blockPool.removeThreadFromPool s.selfid thread)

end Steps

section Exactness

variable {selfid : pthread -> UInt32} {blockPool : BlockedPool pthread}
variable {thread : pthread}

theorem slotChanged_setSlot (hsize : SizeOk blockPool) {loc : Nat}
    (hloc : loc < blockPool.poolSize.toNat) (x : Option pthread) :
    SlotChanged blockPool (blockPool.setSlot loc x) loc x := by
  have hslot : (blockPool.setSlot loc x).slot =
      Function.update blockPool.slot loc x :=
    slot_setSlot (Nat.lt_of_lt_of_le hloc hsize.le_max) x
  constructor
  · rfl
  · rw [hslot, Function.update_self]
  · intro i hi
    rw [hslot, Function.update_of_ne hi]

theorem failure_lt_zero : failure < 0 := by decide

theorem addsExactly_refused
    (hrefused : ¬ ((selfid thread).toNat < blockPool.poolSize.toNat ∧
      ¬ Stored selfid blockPool (selfid thread)))
    {message : Option Message}
    (hmessage : message ≠ some (.full (selfid thread))) :
    AddsExactly selfid blockPool thread ⟨blockPool, failure, message⟩ where
  added_iff := iff_of_false (Int.not_le.mpr failure_lt_zero) hrefused
  added := fun hadded => absurd hadded (Int.not_le.mpr failure_lt_zero)
  refused := fun _ => rfl
  neverFull := hmessage

theorem addsExactly_of_adds (hsize : SizeOk blockPool)
    (hkeyed : Keyed selfid blockPool) {r : Result pthread}
    (h : Adds selfid blockPool thread r) :
    AddsExactly selfid blockPool thread r := by
  cases h with
  | stored hstored =>
      apply addsExactly_refused
      · intro hadds
        exact hadds.right hstored
      · simp
  | outOfRange hrange =>
      apply addsExactly_refused
      · intro hadds
        exact hrange hadds.left
      · simp
  | @added i hnew hrange hi hempty =>
      constructor
      · exact iff_of_true (Int.natCast_nonneg i) ⟨hrange, hnew⟩
      · intro _
        exact ⟨i, rfl, hi, hempty, slotChanged_setSlot hsize hi (some thread)⟩
      · intro hneg
        exact absurd hneg (Int.not_lt.mpr (Int.natCast_nonneg i))
      · simp
  | full hnew hrange hfull =>
      rcases Slots.exists_empty hkeyed hrange hnew with ⟨i, hi, hempty⟩
      exact absurd hempty (hfull i hi)

theorem removesExactly_refused
    (hnew : ¬ Stored selfid blockPool (selfid thread))
    (message : Option Message) :
    RemovesExactly selfid blockPool thread ⟨blockPool, failure, message⟩ where
  refused_iff := iff_of_true failure_lt_zero hnew
  removed := fun hremoved => absurd hremoved (Int.not_le.mpr failure_lt_zero)
  refused := fun _ => rfl

theorem removesExactly_of_removes (hsize : SizeOk blockPool)
    (hkeyed : Keyed selfid blockPool) {r : Result pthread}
    (h : Removes selfid blockPool thread r) :
    RemovesExactly selfid blockPool thread r := by
  cases h with
  | outOfRange hrange =>
      apply removesExactly_refused
      intro hstored
      rcases hstored with ⟨i, held, hi, hslot, hid⟩
      have hbelow := hkeyed.below i held hi hslot
      dsimp only at hid hbelow
      rw [hid] at hbelow
      exact hrange hbelow
  | @removed i held hi hslot hid =>
      have hnonneg := Int.natCast_nonneg i
      constructor
      · apply iff_of_false (Int.not_lt.mpr hnonneg)
        intro hnew
        exact hnew ⟨i, held, hi, hslot, congrArg UInt32.toNat hid⟩
      · intro _
        exact ⟨i, held, rfl, hi, hslot, hid, slotChanged_setSlot hsize hi none⟩
      · intro hneg
        exact absurd hneg (Int.not_lt.mpr hnonneg)
  | absent hnew => exact removesExactly_refused hnew _

end Exactness

/-!
## The invariant
-/

structure Inv (s : State pthread) : Prop where
  size : SizeOk s.blockPool
  keyed : Keyed s.selfid s.blockPool

section Invariant

variable {s u : State pthread}

theorem safe_of_inv (h : Inv s) : Safe s where
  unique := by
    intro i j thread thread' hi hj hthread hthread' hsame
    exact h.keyed.unique i j thread thread' hi hj hthread hthread'
      (congrArg UInt32.toNat hsame)
  below := by
    intro i thread hi hthread
    exact h.keyed.below i thread hi hthread
  adds := by
    intro thread
    exact addsExactly_of_adds h.size h.keyed
      (adds_addThreadToPool h.size thread)
  removes := by
    intro thread
    exact removesExactly_of_removes h.size h.keyed
      (removes_removeThreadFromPool h.size thread)

theorem inv_start {old : BlockedPool pthread} {poolSize : UInt32}
    (hpos : 1 ≤ poolSize.toNat) (hmax : poolSize.toNat ≤ maxPoolSize)
    (selfid : pthread -> UInt32) : Inv (start old poolSize selfid) := by
  constructor
  · exact ⟨hpos, hmax⟩
  · apply Slots.keyed_empty
    intro i hi
    exact slot_init hi

theorem inv_add (h : Inv s) {thread : pthread} {r : Result pthread}
    (hadds : Adds s.selfid s.blockPool thread r) :
    Inv { s with blockPool := r.pool } := by
  cases hadds with
  | @added i hnew hrange hi hempty =>
      constructor
      · exact ⟨h.size.pos, h.size.le_max⟩
      · show Slots.Keyed (s.blockPool.setSlot i (some thread)).slot _ _
        rw [slot_setSlot (Nat.lt_of_lt_of_le hi h.size.le_max)]
        exact Slots.keyed_insert h.keyed hrange hnew
  | stored hstored => exact h
  | outOfRange hrange => exact h
  | full hnew hrange hfull => exact h

theorem inv_remove (h : Inv s) {thread : pthread} {r : Result pthread}
    (hremoves : Removes s.selfid s.blockPool thread r) :
    Inv { s with blockPool := r.pool } := by
  cases hremoves with
  | @removed i held hi hslot hid =>
      constructor
      · exact ⟨h.size.pos, h.size.le_max⟩
      · show Slots.Keyed (s.blockPool.setSlot i none).slot _ _
        rw [slot_setSlot (Nat.lt_of_lt_of_le hi h.size.le_max)]
        exact Slots.keyed_erase h.keyed i
  | outOfRange hrange => exact h
  | absent hnew => exact h

variable [DecidableEq pthread]

theorem slot_ne_of_not_isPooled {blockPool : BlockedPool pthread}
    {thread : pthread} (hout : ¬ blockPool.isPooled thread = true) {i : Nat}
    (hi : i < blockPool.poolSize.toNat) : blockPool.slot i ≠ some thread := by
  intro hslot
  apply hout
  apply List.any_eq_true.mpr
  exact ⟨i, List.mem_range.mpr hi, beq_iff_eq.mpr hslot⟩

theorem inv_step {a : Action pthread} (h : Inv s)
    (hstep : step s a = some u) : Inv u := by
  cases a with
  | addThreadToPool thread =>
      cases hstep
      exact inv_add h (adds_addThreadToPool h.size thread)
  | removeThreadFromPool thread =>
      cases hstep
      exact inv_remove h (removes_removeThreadFromPool h.size thread)
  | pthreadInit thread tid =>
      change (if s.blockPool.isPooled thread = true then none else _) =
        some u at hstep
      split at hstep
      · cases hstep
      · rename_i hout
        cases hstep
        constructor
        · exact h.size
        · apply Slots.keyed_rekey h.keyed
          intro i held hi hslot
          have hother : held ≠ thread := by
            intro hsame
            rw [hsame] at hslot
            exact slot_ne_of_not_isPooled hout hi hslot
          show (Function.update s.selfid thread tid held).toNat = _
          rw [Function.update_of_ne hother]

/-- From any array and for every size it has room for, every sequence of calls
leaves a pool in which each id is stored once, an id in range that is new finds
a slot, and a removal frees the slot of its id. -/
theorem pool_never_overflows {old : BlockedPool pthread} {poolSize : UInt32}
    (hpos : 1 ≤ poolSize.toNat) (hmax : poolSize.toNat ≤ maxPoolSize)
    {selfid : pthread -> UInt32} {s : State pthread}
    (hs : Transition.Reachable step (fun _ _ => True)
      (start old poolSize selfid) s) :
    Safe s := by
  apply safe_of_inv
  apply Transition.reachable_invariant Inv (inv_start hpos hmax selfid) _ hs
  intro v a w hv _ hstep
  exact inv_step hv hstep

end Invariant

theorem pool_never_overflows_two_slots :
    exists s : State (Fin 3),
      s.blockPool.slot 0 = some 1 ∧ s.blockPool.slot 1 = none ∧ Safe s := by
  let old : BlockedPool (Fin 3) := ⟨100, Vector.replicate maxPoolSize (some 2)⟩
  have hrun : exists s : State (Fin 3),
      Transition.Reachable step (fun _ _ => True)
          (start old 2 fun thread => UInt32.ofNat thread) s ∧
        decide (s.blockPool.slot 0 = some 1 ∧ s.blockPool.slot 1 = none) =
          true :=
    Transition.exists_reachable_of_schedule
      [.addThreadToPool 0, .addThreadToPool 1, .addThreadToPool 2,
        .removeThreadFromPool 0] _ (by decide +kernel)
  rcases hrun with ⟨s, hreach, htest⟩
  rcases of_decide_eq_true htest with ⟨hfirst, hsecond⟩
  exact ⟨s, hfirst, hsecond,
    pool_never_overflows (by decide) (by decide) hreach⟩

end BlockedPool
end RIBDriver
