import RIBDriver.Rt.Poll.Stream
import RIBDriver.Userspace.Prompts

/-!
# From the prompt to the display

A route typed at one client's prompts, written to the driver, read by another
client and printed.  The printing loop never moves on to the next record, and
the read leaves the last four bytes for each record to the cleared buffer.
-/

namespace RIBDriver
namespace DrTest

structure Row where
  number : Nat
  dstIp : List UInt8
  nxtHopIp : List UInt8
  oif : List UInt8
deriving DecidableEq

/-- `entry` is the memory from the entry on; a string ends at its terminator,
wherever that is. -/
def printRtOneEntry (i : Nat) (entry : List UInt8) : Row where
  number := i
  dstIp := Strings.string 0 entry
  nxtHopIp := Strings.string 0 (entry.drop 16)
  oif := Strings.string 0 (entry.drop 32)

/-- `update_msg` stays at the first record. -/
def printRtFetchedEntries (buf : List UInt8) (units : Nat) : List Row :=
  (List.range units).map fun j => printRtOneEntry (j + 1) (buf.drop 4)

section Calls

variable {file : Type _} [DecidableEq file]

/-- `write` of a record, which `rt_write` copies from the user's memory. -/
def writeRecord (order : ByteOrder) (g : Globals file) (msg : RtUpdate) :
    Globals file :=
  g.rtWrite ((RtUpdate.layout order).decode ((RtUpdate.layout order).encode msg))

/-- What `poll_rt_mac_table` does when `select` reports the table: it clears
its buffer, reads and prints. -/
def pollRtTable (order : ByteOrder) (g : Globals file) (filep : file)
    (allocOk : Bool) : Option (Globals file × List Row) :=
  (g.rtRead order filep allocOk (List.replicate sizeofUserBuffer 0)).map
    fun r => (r.1, printRtFetchedEntries r.2.1 r.2.2)

end Calls

/-!
## The strings of a record
-/

section Strings

variable {a b c rest : List UInt8}

theorem toList_padded {n : Nat} (h : a.length ≤ n) :
    (padded n a).toList = a ++ List.replicate (n - a.length) 0 := by
  have harray : (array n a).length = n := length_array h
  have hsame : padded n (lineArray (n, 0) a ++ []) = padded n a :=
    padded_lineArray 0
  have hwhole : lineArray (n, 0) a = array n a :=
    congrArg (array n) (List.take_of_length_le h)
  rw [hwhole] at hsame
  rw [← hsame]
  exact toList_padded_append harray

theorem string_padded {n : Nat} (ha : 0 ∉ a) (h : a.length < n) :
    Strings.string 0 ((padded n a).toList ++ rest) = a := by
  have hzeros : List.replicate (n - a.length) (0 : UInt8) =
      0 :: List.replicate (n - a.length - 1) 0 := by
    have hsucc : n - a.length = n - a.length - 1 + 1 := by lia
    rw [hsucc, List.replicate_succ]
    rfl
  rw [toList_padded (Nat.le_of_lt h), hzeros, List.append_assoc]
  exact Strings.string_append ha _

theorem string_take_padded {n m k : Nat} (ha : 0 ∉ a) (h : a.length ≤ n) :
    Strings.string 0 ((padded n a).toList.take m ++ List.replicate k 0) =
      a.take m := by
  have htake : 0 ∉ a.take m := fun hmem => ha (List.mem_of_mem_take hmem)
  rw [toList_padded h, List.take_append, List.take_replicate, List.append_assoc,
    List.replicate_append_replicate]
  exact Strings.string_append_replicate htake _

end Strings

/-!
## The read
-/

section Read

variable {file : Type _} [DecidableEq file]
variable {g : Globals file} {updates : List RtUpdate}

theorem rtRead_first (order : ByteOrder) (f : file) (buf : List UInt8)
    (hblack : g.blackListedPollReadersList = [])
    (hrecords : g.table.pendingRecords.map RtTable.VectorCell.update? =
      updates.map some) :
    exists g', g.rtRead order f true buf =
      some (g', Layout.copy buf ((RtUpdate.layout order).bytes updates)
        (sizeofRtEntry * min updates.length rtMaxEntriesFetch),
        min updates.length rtMaxEntriesFetch) := by
  have hlength : g.table.pendingRecords.length = updates.length := by
    have hlengths := congrArg List.length hrecords
    rw [List.length_map, List.length_map] at hlengths
    exact hlengths
  have hentry : (g.rtReadEntry true).rtUpdateVector.records =
      g.table.pendingRecords ∧
        (g.rtReadEntry true).rtUpdateVectorCount =
          min updates.length rtMaxEntriesFetch := by
    rw [Globals.rtReadEntry_first hblack, ← hlength]
    unfold Globals.clampUpdateVectorCount
    split
    · rename_i hmore
      refine ⟨rfl, ?_⟩
      change g.table.pendingRecords.length > rtMaxEntriesFetch at hmore
      exact (Nat.min_eq_right (Nat.le_of_lt hmore)).symm
    · rename_i hless
      refine ⟨rfl, ?_⟩
      change ¬ g.table.pendingRecords.length > rtMaxEntriesFetch at hless
      exact (Nat.min_eq_left (Nat.le_of_not_gt hless)).symm
  refine ⟨(g.rtReadEntry true).rtReadExit f, ?_⟩
  unfold Globals.rtRead Globals.copyVectorToUser
  simp only
  rw [hentry.left, hentry.right, Transfer.mapM_update hrecords]
  rfl

theorem bytes_cons (order : ByteOrder) (u : RtUpdate) (rest : List RtUpdate) :
    (RtUpdate.layout order).bytes (u :: rest) =
      order.encode u.opCode ++ (u.entry.dstIp.toList ++
        (u.entry.nxtHopIp.toList ++ (u.entry.oif.toList ++
          (RtUpdate.layout order).bytes rest))) := by
  show (order.encode u.opCode ++ (u.entry.dstIp.toList ++
    u.entry.nxtHopIp.toList ++ u.entry.oif.toList)) ++ _ = _
  simp only [List.append_assoc]
  rfl

theorem take_front {front back : List UInt8} {n m : Nat}
    (hfront : front.length = n) :
    (front ++ back).take (n + m) = front ++ back.take m := by
  rw [← hfront]
  exact List.take_length_add_append m

theorem drop_copy (order : ByteOrder) (u : RtUpdate) (rest : List RtUpdate)
    (memory : List UInt8) (m : Nat) :
    (Layout.copy memory ((RtUpdate.layout order).bytes (u :: rest))
      (4 + (16 + (16 + m)))).drop 4 =
        u.entry.dstIp.toList ++ (u.entry.nxtHopIp.toList ++
          ((u.entry.oif.toList ++ (RtUpdate.layout order).bytes rest).take m ++
            memory.drop (4 + (16 + (16 + m))))) := by
  unfold Layout.copy
  rw [bytes_cons, take_front (order.length_encode u.opCode),
    take_front Vector.length_toList, take_front Vector.length_toList]
  simp only [List.append_assoc]
  exact List.drop_left' (order.length_encode u.opCode)

theorem string_oif {c : List UInt8} (hc : 0 ∉ c) (hlength : c.length ≤ 13)
    (behind : List UInt8) (n k : Nat) (hpos : 0 < n) :
    Strings.string 0 (((padded 16 c).toList ++ behind).take (48 * n - 36) ++
      List.replicate k 0) = if n = 1 then c.take 12 else c := by
  have hsixteen : (padded 16 c).toList.length = 16 := Vector.length_toList
  rcases Nat.eq_or_lt_of_le (Nat.succ_le_of_lt hpos) with hone | hmore
  · have htwelve : ((padded 16 c).toList ++ behind).take 12 =
        (padded 16 c).toList.take 12 :=
      List.take_append_of_le_length (by lia)
    rw [if_pos hone.symm, ← hone]
    show Strings.string 0 (List.take 12 _ ++ _) = _
    rw [htwelve]
    exact string_take_padded hc (by lia)
  · have hwhole : 48 * n - 36 = 16 + (48 * n - 52) := by lia
    rw [if_neg (by lia), hwhole, take_front hsixteen, List.append_assoc]
    exact string_padded hc (by lia)

theorem printRtOneEntry_fields {a b : List UInt8} (ha : 0 ∉ a) (hb : 0 ∉ b)
    (hlengthA : a.length ≤ 13) (hlengthB : b.length ≤ 13) (i : Nat)
    (tail : List UInt8) :
    printRtOneEntry i ((padded 16 a).toList ++ ((padded 16 b).toList ++
      tail)) =
        { number := i
          dstIp := a
          nxtHopIp := b
          oif := Strings.string 0 tail } := by
  have hdst : (padded 16 a).toList.length = 16 := Vector.length_toList
  have hnxt : (padded 16 b).toList.length = 16 := Vector.length_toList
  have hboth : ((padded 16 a).toList ++ ((padded 16 b).toList ++ tail)).drop
      32 = tail := by
    rw [← List.append_assoc]
    exact List.drop_left' (by rw [List.length_append, hdst, hnxt])
  unfold printRtOneEntry
  rw [string_padded ha (by lia), List.drop_left' hdst,
    string_padded hb (by lia), hboth]

theorem printRtOneEntry_typed (order : ByteOrder) (rest : List RtUpdate)
    {a b c : List UInt8} (ha : 0 ∉ a) (hb : 0 ∉ b) (hc : 0 ∉ c)
    (hsizes : a.length ≤ 13 ∧ b.length ≤ 13 ∧ c.length ≤ 13) (i n : Nat)
    (hpos : 0 < n) :
    printRtOneEntry i ((Layout.copy (List.replicate sizeofUserBuffer 0)
      ((RtUpdate.layout order).bytes (typedRt a b c :: rest))
        (sizeofRtEntry * n)).drop 4) =
      { number := i
        dstIp := a
        nxtHopIp := b
        oif := if n = 1 then c.take 12 else c } := by
  have hbound : sizeofRtEntry * n = 4 + (16 + (16 + (48 * n - 36))) := by
    show 48 * n = _
    lia
  have hmemory := drop_copy order (typedRt a b c) rest
    (List.replicate sizeofUserBuffer 0) (48 * n - 36)
  rw [List.drop_replicate] at hmemory
  rw [hbound, hmemory]
  refine (printRtOneEntry_fields ha hb hsizes.left hsizes.right.left i _).trans
    (congrArg (Row.mk i a b) ?_)
  exact string_oif hc hsizes.right.right _ n _ hpos

end Read

/-!
## End to end
-/

section Runs

variable {thread file : Type _} [DecidableEq thread] [DecidableEq file]
variable [Fintype thread] {s : Poll.State thread file}

theorem exists_updates {cells : List RtTable.VectorCell}
    (h : forall cell, cell ∈ cells ->
      exists u, RtTable.VectorCell.update? cell = some u) :
    exists updates : List RtUpdate,
      cells.map RtTable.VectorCell.update? = updates.map some := by
  induction cells with
  | nil => exact ⟨[], rfl⟩
  | cons cell rest ih =>
      rcases h cell List.mem_cons_self with ⟨u, hu⟩
      rcases ih (fun other hmem => h other (List.mem_cons_of_mem cell hmem)) with
        ⟨updates, hrest⟩
      exact ⟨u :: updates, by rw [List.map_cons, hu, hrest, List.map_cons]⟩

theorem exists_pending_updates
    (h : Transition.Reachable Poll.step Poll.Disciplined Poll.State.init s) :
    exists updates : List RtUpdate,
      s.g.table.pendingRecords.map RtTable.VectorCell.update? =
        updates.map some ∧ updates.length = s.pending.length := by
  have hsound := (Poll.regular_of_reachable h).sound
  have hstream := (Poll.streamed_of_reachable h).pending
  have hlive : forall cell, cell ∈ s.g.table.pendingRecords ->
      exists u, RtTable.VectorCell.update? cell = some u := by
    intro cell hcell
    rcases List.mem_map.mp (hstream.subset hcell) with ⟨a, ha, hrecord⟩
    rcases hsound.rt_live a ha with ⟨entry, hentry⟩
    rw [← hrecord]
    unfold RtTable.VectorCell.update?
    rw [hentry]
    exact ⟨_, rfl⟩
  rcases exists_updates hlive with ⟨updates, hupdates⟩
  refine ⟨updates, hupdates, ?_⟩
  have hlengths := congrArg List.length hupdates
  rw [List.length_map, List.length_map] at hlengths
  rw [← hlengths, ← List.length_map (·.src), RtTable.pendingRecords_src]
  rfl

/-- In every state the protocol reaches with nobody blacklisted: a route of
three strings of at most 13 characters, typed, written, read by any file that
polls the table and printed, stands in every row, whatever else is pending.  A
route that is read alone loses the 13th character of its last string. -/
theorem typed_route_displayed (order : ByteOrder) (f : file) (first : UInt8)
    {a b c : List UInt8} (rest : List UInt8)
    (h : Transition.Reachable Poll.step Poll.Disciplined Poll.State.init s)
    (hfirst : s.black = []) (ha : IsLine a) (hb : IsLine b) (hc : IsLine c)
    (hsizes : a.length ≤ 13 ∧ b.length ≤ 13 ∧ c.length ≤ 13) :
    exists msg, rtWrite (first :: (typed [a, b, c] ++ rest)) =
        .ok (.writeRt msg, rest) ∧
      exists g, pollRtTable order (writeRecord order s.g msg) f true =
        some (g, (List.range (min (s.pending.length + 1) rtMaxEntriesFetch)).map
          fun j => {
              number := j + 1
              dstIp := a
              nxtHopIp := b
              oif := if s.pending = [] then c.take 12 else c }) := by
  have htyped := (prompts_rt_iff (fun _ _ => Request.writeRt.inj)
    first rest ha hb hc).mpr hsizes
  refine ⟨typedRt a b c, htyped, ?_⟩
  rcases exists_pending_updates h with ⟨updates, hupdates, hlength⟩
  have hdecoded : writeRecord order s.g (typedRt a b c) =
      s.g.rtWrite (typedRt a b c) := by
    unfold writeRecord
    rw [(RtUpdate.layout order).decode_encode]
  have hrecords : (s.g.rtWrite (typedRt a b c)).table.pendingRecords.map
      RtTable.VectorCell.update? = (typedRt a b c :: updates).map some := by
    have hadd := RtTable.pendingRecords_add (Poll.regular_of_reachable h).sound
      (typedRt a b c).entry
    show (s.g.table.addRtTableEntryByVal
      (typedRt a b c).entry).pendingRecords.map _ = _
    rw [hadd, List.map_cons, hupdates]
    rfl
  have hblack : (s.g.rtWrite
      (typedRt a b c)).blackListedPollReadersList = [] := hfirst
  rcases rtRead_first order f (List.replicate sizeofUserBuffer 0) hblack hrecords
    with ⟨g, hread⟩
  rw [List.length_cons, hlength] at hread
  have hpos : 0 < min (s.pending.length + 1) rtMaxEntriesFetch := by
    unfold rtMaxEntriesFetch
    lia
  have hone : min (s.pending.length + 1) rtMaxEntriesFetch = 1 <->
      s.pending = [] := by
    unfold rtMaxEntriesFetch
    rw [← List.length_eq_zero_iff]
    lia
  refine ⟨g, ?_⟩
  unfold pollRtTable printRtFetchedEntries
  rw [hdecoded, hread]
  refine congrArg (fun rows => some (g, rows)) (List.map_congr_left ?_)
  intro j _
  rw [printRtOneEntry_typed order updates ha.noNul hb.noNul hc.noNul hsizes
    (j + 1) _ hpos]
  exact congrArg (Row.mk (j + 1) a b) (if_congr hone rfl rfl)

theorem typed_route_displayed_alone :
    exists msg, rtWrite (newline :: (typed [[0x31, 0x2e, 0x31],
        [0x31, 0x2e, 0x32], List.replicate 13 0x65] ++ [])) =
          .ok (.writeRt msg, []) ∧
      exists g, pollRtTable .little (writeRecord .little
          (Poll.State.init : Poll.State (Fin 1) (Fin 1)).g msg) 0 true =
        some (g, [{
          number := 1
          dstIp := [0x31, 0x2e, 0x31]
          nxtHopIp := [0x31, 0x2e, 0x32]
          oif := List.replicate 12 0x65 }]) := by
  have hstart : Transition.Reachable Poll.step Poll.Disciplined
      (Poll.State.init : Poll.State (Fin 1) (Fin 1)) Poll.State.init :=
    Transition.Reachable.start
  have hrows : (List.range (min ((Poll.State.init :
      Poll.State (Fin 1) (Fin 1)).pending.length + 1) rtMaxEntriesFetch)).map
        (fun j => Row.mk (j + 1) [0x31, 0x2e, 0x31] [0x31, 0x2e, 0x32]
          (if (Poll.State.init : Poll.State (Fin 1) (Fin 1)).pending = [] then
            (List.replicate 13 0x65).take 12 else List.replicate 13 0x65)) =
      [Row.mk 1 [0x31, 0x2e, 0x31] [0x31, 0x2e, 0x32]
        (List.replicate 12 0x65)] := by decide
  have hdisplayed := typed_route_displayed .little (0 : Fin 1) newline [] hstart
    rfl
    (⟨by decide, by decide⟩ : IsLine [0x31, 0x2e, 0x31])
    (⟨by decide, by decide⟩ : IsLine [0x31, 0x2e, 0x32])
    (⟨by decide, by decide⟩ : IsLine (List.replicate 13 0x65)) (by decide)
  rw [hrows] at hdisplayed
  exact hdisplayed

end Runs

end DrTest
end RIBDriver
