import RIBDriver.Library.Records
import RIBDriver.Rt.Poll.Model

/-!
# The bytes of a delivery

A client passes a buffer of `RT_MAX_ENTRIES_FETCH` records and reads it as an
array of `struct rt_update_t`.  Both delivery paths hand it
`sizeof(struct rt_entry)` bytes for each record.
-/

namespace RIBDriver

/-!
## Records in memory
-/

def sizeofRtEntry : Nat := 48

/-- `unsigned int op_code` and the entry, without padding. -/
def sizeofRtUpdate : Nat := 4 + sizeofRtEntry

def sizeofUserBuffer : Nat := rtMaxEntriesFetch * sizeofRtUpdate

inductive ByteOrder where
  | little
  | big
deriving DecidableEq

namespace ByteOrder

def arrange : ByteOrder -> List UInt8 -> List UInt8
  | .little, bytes => bytes
  | .big, bytes => bytes.reverse

theorem arrange_arrange (order : ByteOrder) (bytes : List UInt8) :
    order.arrange (order.arrange bytes) = bytes := by
  cases order with
  | little => rfl
  | big => exact List.reverse_reverse bytes

theorem length_arrange (order : ByteOrder) (bytes : List UInt8) :
    (order.arrange bytes).length = bytes.length := by
  cases order with
  | little => rfl
  | big => exact List.length_reverse

def encode (order : ByteOrder) (x : UInt32) : List UInt8 :=
  order.arrange [x.toUInt8, (x >>> 8).toUInt8, (x >>> 16).toUInt8,
    (x >>> 24).toUInt8]

def decode (order : ByteOrder) (bytes : List UInt8) : UInt32 :=
  match order.arrange bytes with
  | [a, b, c, d] =>
      UInt32.ofNat (a.toNat + 256 * (b.toNat + 256 * (c.toNat +
        256 * d.toNat)))
  | _ => 0

theorem length_encode (order : ByteOrder) (x : UInt32) :
    (order.encode x).length = 4 := order.length_arrange _

theorem decode_encode (order : ByteOrder) (x : UInt32) :
    order.decode (order.encode x) = x := by
  unfold decode encode
  rw [arrange_arrange]
  apply UInt32.toNat_inj.mp
  have hlt := x.toNat_lt
  simp only [UInt32.toNat_ofNat', UInt32.toNat_toUInt8, UInt32.toNat_shiftRight,
    Nat.shiftRight_eq_div_pow, UInt32.reduceToNat]
  lia

end ByteOrder

namespace RtEntry

def bytes (e : RtEntry) : List UInt8 :=
  e.dstIp.toList ++ e.nxtHopIp.toList ++ e.oif.toList

def field (bytes : List UInt8) : Vector UInt8 16 :=
  Vector.ofFn fun i => bytes.getD i 0

def ofBytes (bytes : List UInt8) : RtEntry where
  dstIp := field bytes
  nxtHopIp := field (bytes.drop 16)
  oif := field (bytes.drop 32)

theorem length_bytes (e : RtEntry) : e.bytes.length = sizeofRtEntry := by
  simp [bytes, sizeofRtEntry]

theorem field_append (v : Vector UInt8 16) (rest : List UInt8) :
    field (v.toList ++ rest) = v := by
  apply Vector.ext
  intro i hi
  simp [field, List.getElem?_append]

theorem ofBytes_bytes (e : RtEntry) : ofBytes e.bytes = e := by
  have hnxt : e.bytes.drop 16 = e.nxtHopIp.toList ++ e.oif.toList := by
    simp [bytes, List.append_assoc]
  have hoif : e.bytes.drop 32 = e.oif.toList ++ [] := by
    rw [List.append_nil]
    exact List.drop_left' (by simp)
  have hdst : e.bytes = e.dstIp.toList ++ (e.nxtHopIp.toList ++ e.oif.toList) :=
    List.append_assoc _ _ _
  unfold ofBytes
  rw [hnxt, hoif, hdst, field_append, field_append, field_append]

end RtEntry

namespace RtUpdate

def layout (order : ByteOrder) : Layout RtUpdate UInt8 where
  width := sizeofRtUpdate
  encode := fun u => order.encode u.opCode ++ u.entry.bytes
  decode := fun bytes =>
    { opCode := order.decode (bytes.take 4)
      entry := RtEntry.ofBytes (bytes.drop 4) }
  length_encode := by
    intro u
    rw [List.length_append, order.length_encode, u.entry.length_bytes]
    rfl
  decode_encode := by
    intro u
    have hlen := order.length_encode u.opCode
    rw [List.take_left' hlen, List.drop_left' hlen, order.decode_encode,
      RtEntry.ofBytes_bytes]

end RtUpdate

/-- The record as it is in memory, unless it was copied from a dead entry. -/
def RtTable.VectorCell.update? (cell : RtTable.VectorCell) : Option RtUpdate :=
  cell.entry.map fun entry => { opCode := cell.opCode, entry := entry }

/-!
## The two paths
-/

namespace Globals

variable {file : Type _} [DecidableEq file]

/-- `copy_to_user(buf, rt_update_vector, sizeof(struct rt_entry) *
rt_update_vector_count)`; `none` if the vector has bytes of a dead entry. -/
def copyVectorToUser (order : ByteOrder) (g : Globals file)
    (buf : List UInt8) : Option (List UInt8) :=
  (g.rtUpdateVector.records.mapM RtTable.VectorCell.update?).map
    fun updates =>
      Layout.copy buf ((RtUpdate.layout order).bytes updates)
        (sizeofRtEntry * g.rtUpdateVectorCount)

def rtRead (order : ByteOrder) (g : Globals file) (filep : file)
    (allocOk : Bool) (buf : List UInt8) :
    Option (Globals file × List UInt8 × Nat) :=
  let g := g.rtReadEntry allocOk
  (g.copyVectorToUser order buf).map fun buf =>
    (g.rtReadExit filep, buf, g.rtUpdateVectorCount)

/-- The vector a subscriber finds after its wait: before it the subscriber has
clamped the count, in it the worker has taken its snapshot and, if `clamped`,
another subscriber has arrived. -/
def subscribeEntry (g : Globals file) (allocOk clamped : Bool) : Globals file :=
  let g := g.clampUpdateVectorCount
  let g := g.refreshUpdateVector allocOk
  if clamped then g.clampUpdateVectorCount else g

/-- A call of `RT_IOC_SUBSCRIBE_RT` by the last reader of a batch. -/
def subscribeRt (order : ByteOrder) (g : Globals file) (allocOk clamped : Bool)
    (buf : List UInt8) : Option (Globals file × List UInt8 × Nat) :=
  let g := g.subscribeEntry allocOk clamped
  (g.copyVectorToUser order buf).map fun buf =>
    ({ g with
      rtUpdateVectorCount := 0
      table := g.table.rtEmptyChangeList
      rtUpdateVector := .null }, buf, g.rtUpdateVectorCount)

end Globals

namespace Transfer

variable {file : Type _}

inductive Path (file : Type _) where
  | read (filep : file)
  | subscribe (clamped : Bool)

def Path.call [DecidableEq file]
    (path : Path file) (order : ByteOrder) (g : Globals file)
    (allocOk : Bool) (buf : List UInt8) :
    Option (Globals file × List UInt8 × Nat) :=
  match path with
  | .read filep => g.rtRead order filep allocOk buf
  | .subscribe clamped => g.subscribeRt order allocOk clamped buf

def Path.atCopy (path : Path file) (g : Globals file) (allocOk : Bool) :
    Globals file :=
  match path with
  | .read _ => g.rtReadEntry allocOk
  | .subscribe clamped => g.subscribeEntry allocOk clamped

def Path.Snapshots (path : Path file) (g : Globals file) : Prop :=
  match path with
  | .read _ => g.blackListedPollReadersList = []
  | .subscribe _ => True

/-- The updates the vector has its records from: those of the change list, or
for a later reader of a batch those of the vector as it is. -/
structure Source (path : Path file) (g : Globals file)
    (updates : List RtUpdate) : Prop where
  pending : path.Snapshots g ->
    g.table.rtChangeList.map (fun data =>
      (data.opCode, (g.table.heap data.entry).contents)) =
        updates.map fun u => (u.opCode, some u.entry)
  cached : ¬ path.Snapshots g ->
    g.rtUpdateVector.records.map RtTable.VectorCell.update? =
      updates.map some ∧ g.rtUpdateVectorCount ≤ updates.length

/-- The buffer holds the first `n` updates, and a client that reads it as an
array of `n` records finds them. -/
structure Decodes (order : ByteOrder) (buf : List UInt8)
    (updates : List RtUpdate) (n : Nat) : Prop where
  bytes : (RtUpdate.layout order).Holds buf updates n
  recovered : (RtUpdate.layout order).read buf n = updates.take n

/-- The bytes of the `n` records that are not copied are in the buffer. -/
def TailFits (order : ByteOrder) (buf : List UInt8) (updates : List RtUpdate)
    (n : Nat) : Prop :=
  (buf.drop (48 * n)).take (4 * n) =
    (((RtUpdate.layout order).bytes updates).drop (48 * n)).take (4 * n)

instance (order : ByteOrder) (buf : List UInt8) (updates : List RtUpdate)
    (n : Nat) : Decidable (TailFits order buf updates n) :=
  inferInstanceAs (Decidable (_ = _))

/-!
## What the copy finds
-/

structure Announces (g : Globals file) (updates : List RtUpdate) : Prop where
  records : 0 < g.rtUpdateVectorCount ->
    g.rtUpdateVector.records.map RtTable.VectorCell.update? =
      updates.map some
  count : g.rtUpdateVectorCount ≤ updates.length

section Copy

variable {g : Globals file} {updates : List RtUpdate}

theorem announces_refresh (allocOk : Bool)
    (h : g.table.rtChangeList.map (fun data =>
      (data.opCode, (g.table.heap data.entry).contents)) =
        updates.map fun u => (u.opCode, some u.entry)) :
    Announces (g.refreshUpdateVector allocOk) updates := by
  have hlength : g.table.rtChangeList.length = updates.length := by
    have := congrArg List.length h
    simpa using this
  cases allocOk with
  | false =>
      constructor
      · intro hpos
        exact absurd hpos (Nat.lt_irrefl 0)
      · exact Nat.zero_le _
  | true =>
      constructor
      · intro _
        have hupdates := congrArg (List.map fun (p : UInt32 × Option RtEntry) =>
          p.2.map fun entry => ({ opCode := p.1, entry := entry } : RtUpdate)) h
        rw [List.map_map, List.map_map] at hupdates
        show ((g.table.rtChangeList.map _).map _) = _
        rw [List.map_map]
        exact hupdates
      · show (g.table.rtChangeList.map _).length ≤ _
        rw [List.length_map, hlength]

theorem announces_clamp (h : Announces g updates) :
    Announces g.clampUpdateVectorCount updates := by
  unfold Globals.clampUpdateVectorCount
  split
  · rename_i hgt
    constructor
    · intro _
      exact h.records (by lia)
    · show rtMaxEntriesFetch ≤ updates.length
      have hcount := h.count
      lia
  · exact h

theorem announces_atCopy {path : Path file} (allocOk : Bool)
    (h : Source path g updates) :
    Announces (path.atCopy g allocOk) updates := by
  cases path with
  | read filep =>
      by_cases hblack : g.blackListedPollReadersList = []
      · have hpending := h.pending hblack
        show Announces (g.rtReadEntry allocOk) updates
        rw [Globals.rtReadEntry_first hblack]
        exact announces_clamp (announces_refresh allocOk hpending)
      · have hcached := h.cached hblack
        show Announces (g.rtReadEntry allocOk) updates
        rw [Globals.rtReadEntry_later hblack]
        exact ⟨fun _ => hcached.left, hcached.right⟩
  | subscribe clamped =>
      have htable : g.clampUpdateVectorCount.table = g.table := by
        unfold Globals.clampUpdateVectorCount
        split <;> rfl
      have hsnapshot : Announces
          (g.clampUpdateVectorCount.refreshUpdateVector allocOk) updates := by
        apply announces_refresh
        rw [htable]
        exact h.pending trivial
      cases clamped with
      | false => exact hsnapshot
      | true => exact announces_clamp hsnapshot

theorem mapM_update {cells : List RtTable.VectorCell}
    (h : cells.map RtTable.VectorCell.update? = updates.map some) :
    cells.mapM RtTable.VectorCell.update? = some updates := by
  induction cells generalizing updates with
  | nil =>
      cases updates with
      | nil => rfl
      | cons u rest => cases h
  | cons cell rest ih =>
      cases updates with
      | nil => cases h
      | cons u us =>
          rw [List.map_cons, List.map_cons, List.cons.injEq] at h
          rw [List.mapM_cons, h.left, ih h.right]
          rfl

theorem copyVectorToUser_eq_some {order : ByteOrder} {buf buf' : List UInt8}
    (h : Announces g updates)
    (hcopy : g.copyVectorToUser order buf = some buf') :
    buf' = Layout.copy buf ((RtUpdate.layout order).bytes updates)
      (sizeofRtEntry * g.rtUpdateVectorCount) := by
  rcases Option.map_eq_some_iff.mp hcopy with ⟨found, hfound, hbuf⟩
  rw [← hbuf]
  cases hcount : g.rtUpdateVectorCount with
  | zero => rfl
  | succ n =>
      have hall := mapM_update (h.records (by lia))
      rw [hall] at hfound
      rw [Option.some.inj hfound]

variable [DecidableEq file]

theorem call_eq_some {path : Path file} {order : ByteOrder} {allocOk : Bool}
    {buf buf' : List UInt8} {g' : Globals file} {n : Nat}
    (hcall : path.call order g allocOk buf = some (g', buf', n)) :
    (path.atCopy g allocOk).copyVectorToUser order buf = some buf' ∧
      n = (path.atCopy g allocOk).rtUpdateVectorCount := by
  cases path with
  | read filep =>
      rcases Option.map_eq_some_iff.mp hcall with ⟨found, hfound, hresult⟩
      cases hresult
      exact ⟨hfound, rfl⟩
  | subscribe clamped =>
      rcases Option.map_eq_some_iff.mp hcall with ⟨found, hfound, hresult⟩
      cases hresult
      exact ⟨hfound, rfl⟩

end Copy

/-!
## When a client finds what was delivered
-/

/-- The call copies 48 of the 52 bytes of each record: a client finds the
updates exactly if the last bytes are in its buffer already. -/
theorem decodes_iff_tailFits [DecidableEq file]
    {path : Path file} {order : ByteOrder}
    {g g' : Globals file} {allocOk : Bool} {buf buf' : List UInt8} {n : Nat}
    {updates : List RtUpdate} (hsource : Source path g updates)
    (hcall : path.call order g allocOk buf = some (g', buf', n)) :
    Decodes order buf' updates n <-> TailFits order buf updates n := by
  have hannounces := announces_atCopy allocOk hsource
  rcases call_eq_some hcall with ⟨hcopy, hcount⟩
  have hn : n ≤ updates.length := by
    rw [hcount]
    exact hannounces.count
  have hbuf := copyVectorToUser_eq_some hannounces hcopy
  rw [← hcount] at hbuf
  have hlen : sizeofRtEntry * n ≤ n * (RtUpdate.layout order).width := by
    show 48 * n ≤ n * 52
    lia
  have hrest : n * (RtUpdate.layout order).width - sizeofRtEntry * n =
      4 * n := by
    show n * 52 - 48 * n = 4 * n
    lia
  have hholds : (RtUpdate.layout order).Holds buf' updates n <->
      TailFits order buf updates n := by
    rw [hbuf, Layout.holds_copy_iff hn hlen, hrest]
    rfl
  constructor
  · intro h
    exact hholds.mp h.bytes
  · intro h
    have hbytes := hholds.mpr h
    exact ⟨hbytes, (RtUpdate.layout order).read_of_holds hn hbytes⟩

section Schedules

def fullUpdate : RtUpdate where
  opCode := rtRouteAdd
  entry := {
    dstIp := Vector.replicate 16 0x61
    nxtHopIp := Vector.replicate 16 0x61
    oif := Vector.replicate 16 0x61 }

def oneWritten : Globals (Fin 1) := Globals.init.rtWrite fullUpdate

theorem source_oneWritten (path : Path (Fin 1)) :
    Source path oneWritten [fullUpdate] where
  pending := fun _ => rfl
  cached := fun h => by
    cases path with
    | read filep => exact absurd rfl h
    | subscribe clamped => exact absurd trivial h

theorem decodes_prepared_buffer :
    exists g' buf',
      (Path.read (0 : Fin 1)).call .little oneWritten true
          (List.replicate sizeofUserBuffer 0x61) = some (g', buf', 1) ∧
        Decodes .little buf' [fullUpdate] 1 := by
  have hcall : exists g' buf',
      (Path.read (0 : Fin 1)).call .little oneWritten true
        (List.replicate sizeofUserBuffer 0x61) = some (g', buf', 1) :=
    ⟨_, _, rfl⟩
  rcases hcall with ⟨g', buf', hcall⟩
  refine ⟨g', buf', hcall, ?_⟩
  exact (decodes_iff_tailFits (source_oneWritten _) hcall).mpr
    (by decide +kernel)

/-- Into a buffer of zeros the entry comes without its last four bytes. -/
theorem exists_undecoded :
    exists (g' : Globals (Fin 1)) (buf' : List UInt8),
      Source (.read 0) oneWritten [fullUpdate] ∧
        (Path.read (0 : Fin 1)).call .little oneWritten true
            (List.replicate sizeofUserBuffer 0) = some (g', buf', 1) ∧
          ¬ Decodes .little buf' [fullUpdate] 1 := by
  refine ⟨_, _, source_oneWritten _, rfl, ?_⟩
  intro h
  have hbytes := h.bytes 0 Nat.one_pos Nat.one_pos
  revert hbytes
  decide +kernel

end Schedules

end Transfer
end RIBDriver
