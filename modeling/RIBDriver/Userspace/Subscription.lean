import RIBDriver.Rt.Ioctl.Notice
import RIBDriver.Userspace.Display

/-!
# What a subscriber prints

`rt_subscrption_fn` asks for the updates over and over, with a cleared buffer
each time, and prints the first record of the buffer for every update.  There
is never more than one.
-/

namespace RIBDriver
namespace DrTest

open Ioctl (WriterOp Announces Noticed Tells Move)

def printUpdates (order : ByteOrder) (buf : List UInt8) (n : Nat) :
    List (UInt32 × Row) :=
  (List.range n).map fun i =>
    (order.decode (buf.take 4), printRtOneEntry (i + 1) (buf.drop 4))

/-- A pass of the loop, from the copy of the vector on. -/
def rtSubscrptionFn {file : Type _} (order : ByteOrder)
    (g : Globals file) : Option (List (UInt32 × Row)) :=
  (g.copyVectorToUser order (List.replicate sizeofUserBuffer 0)).map
    fun buf => printUpdates order buf g.rtUpdateVectorCount

/-- The row of an entry of which the last four bytes are missing. -/
def announcedRow (entry : RtEntry) : UInt32 × Row :=
  (rtRouteAdd, printRtOneEntry 1 (entry.dstIp.toList ++
    (entry.nxtHopIp.toList ++ (entry.oif.toList.take 12 ++
      List.replicate (sizeofUserBuffer - sizeofRtEntry) 0))))

/-!
## The vector
-/

section Vector

variable {thread file : Type _} [DecidableEq thread]
variable {fileOf : thread -> file} {s u : Ioctl.State thread file}
variable {a : Ioctl.Action thread}

/-- Only additions are pending, and the vector has whole additions. -/
structure Authentic (g : Globals file) : Prop where
  pending : forall data, data ∈ g.table.rtChangeList -> data.opCode = rtRouteAdd
  records : forall cell, cell ∈ g.rtUpdateVector.records ->
    exists entry : RtEntry, RtTable.VectorCell.update? cell =
      some { opCode := rtRouteAdd, entry := entry }

theorem pending_perform {t : RtTable file}
    (h : forall data, data ∈ t.rtChangeList -> data.opCode = rtRouteAdd)
    (op : WriterOp) (data : RtPreserveUpdate)
    (hdata : data ∈ (op.perform t).rtChangeList) : data.opCode = rtRouteAdd := by
  have hadd : forall entry, data ∈ (t.addRtTableEntryByVal entry).rtChangeList ->
      data.opCode = rtRouteAdd := by
    intro entry hmem
    rcases List.mem_cons.mp hmem with hnew | hold
    · rw [hnew]
    · exact h data hold
  cases op with
  | update msg =>
      simp only [WriterOp.perform, RtTable.applyRtUpdates] at hdata
      split at hdata
      · exact hadd msg.entry hdata
      · exact h data hdata
  | create entry => exact hadd entry hdata
  | purge => exact h data hdata

theorem exists_announced_updates {g : Globals file} {op : WriterOp}
    (h : Authentic g) (hentries : g.announced.map (·.entry) = op.notice.map some) :
    exists rest : List RtUpdate,
      g.rtUpdateVector.records.map RtTable.VectorCell.update? =
        (op.notice.map (fun entry => RtUpdate.mk rtRouteAdd entry) ++
          rest).map some := by
  have hlive : forall cell,
      cell ∈ g.rtUpdateVector.records.drop g.rtUpdateVectorCount ->
        exists update, RtTable.VectorCell.update? cell = some update := by
    intro cell hcell
    rcases h.records cell (List.mem_of_mem_drop hcell) with ⟨entry, hentry⟩
    exact ⟨_, hentry⟩
  rcases exists_updates hlive with ⟨rest, hrest⟩
  refine ⟨rest, ?_⟩
  have hcells : g.announced.map RtTable.VectorCell.update? =
      (g.announced.map (·.entry)).map
        (Option.map fun entry => RtUpdate.mk rtRouteAdd entry) := by
    rw [List.map_map]
    refine List.map_congr_left ?_
    intro cell hcell
    rcases h.records cell (List.mem_of_mem_take hcell) with ⟨entry, hentry⟩
    rcases Option.map_eq_some_iff.mp hentry with ⟨found, _, hsame⟩
    have hop : cell.opCode = rtRouteAdd := congrArg RtUpdate.opCode hsame
    show cell.entry.map _ = cell.entry.map _
    rw [hop]
  rw [List.map_append, ← hrest,
    ← List.take_append_drop g.rtUpdateVectorCount g.rtUpdateVector.records,
    List.map_append, List.take_append_drop]
  refine congrArg (· ++ _) ?_
  change g.announced.map RtTable.VectorCell.update? = _
  rw [hcells, hentries, List.map_map, List.map_map]
  rfl

variable [DecidableEq file]

theorem pending_of_move
    (h : forall data, data ∈ s.g.table.rtChangeList -> data.opCode = rtRouteAdd)
    (hmove : Move fileOf s a u) :
    forall data, data ∈ u.g.table.rtChangeList -> data.opCode = rtRouteAdd := by
  cases Ioctl.tableChange_of_move hmove with
  | same htable hdone =>
      rw [htable]
      exact h
  | performed t op hact hpc htable hdone =>
      rw [htable]
      exact pending_perform h op
  | emptied htable hdone =>
      intro data hdata
      rw [htable] at hdata
      cases hdata

theorem vector_of_move (hmove : Move fileOf s a u) :
    u.g.rtUpdateVector = s.g.rtUpdateVector ∨ u.g.rtUpdateVector = .null ∨
      s.worker = .snapshot ∧ exists allocOk,
        u.g = s.g.refreshUpdateVector allocOk := by
  cases hmove with
  | clamp hpc =>
      refine Or.inl ?_
      show (Globals.clampUpdateVectorCount s.g).rtUpdateVector = _
      unfold Globals.clampUpdateVectorCount
      split <;> rfl
  | cleanUp hpc => exact Or.inr (Or.inl rfl)
  | snapshot hw => exact Or.inr (Or.inr ⟨hw, _, rfl⟩)
  | _ => exact Or.inl rfl

theorem authentic_of_move [Fintype thread] [Fintype file]
    (h : Authentic s.g) (hnoticed : Noticed s) (hmove : Move fileOf s a u) :
    Authentic u.g where
  pending := pending_of_move h.pending hmove
  records := by
    intro cell hcell
    rcases vector_of_move hmove with hsame | hnull | ⟨hw, allocOk, hsnapshot⟩
    · rw [hsame] at hcell
      exact h.records cell hcell
    · rw [hnull] at hcell
      cases hcell
    · have htold : Tells s.performed s.g.table.changes := by
        unfold Noticed at hnoticed
        rw [hw] at hnoticed
        exact hnoticed
      rcases htold with ⟨before, w, op, _, hchanges⟩
      rw [hsnapshot] at hcell
      cases allocOk with
      | false => cases hcell
      | true =>
          rcases List.mem_map.mp hcell with ⟨data, hdata, hcopy⟩
          have hmem : (s.g.table.heap data.entry).contents ∈
              s.g.table.changes := List.mem_map_of_mem hdata
          rw [hchanges] at hmem
          rcases List.mem_map.mp hmem with ⟨entry, _, hentry⟩
          refine ⟨entry, ?_⟩
          rw [← hcopy]
          unfold RtTable.VectorCell.update?
          rw [← hentry, h.pending data hdata]
          rfl

theorem authentic_of_provided [Fintype thread] [Fintype file]
    (hfile : Function.Injective fileOf)
    (h : Transition.Reachable (Ioctl.step fileOf) Ioctl.Provided
      Ioctl.State.init s) : Authentic s.g := by
  induction h with
  | start =>
      constructor
      · intro data hdata
        cases hdata
      · intro cell hcell
        cases hcell
  | step hs hallowed hstep ih =>
      exact authentic_of_move ih (Ioctl.noticed_of_provided hfile hs)
        (Ioctl.move_of_step hstep)

end Vector

/-!
## The copy
-/

section Copy

variable {file : Type _} {g : Globals file}

theorem printUpdates_copy (order : ByteOrder) (u : RtUpdate)
    (rest : List RtUpdate) (hadd : u.opCode = rtRouteAdd) :
    printUpdates order (Layout.copy (List.replicate sizeofUserBuffer 0)
      ((RtUpdate.layout order).bytes (u :: rest)) (sizeofRtEntry * 1)) 1 =
        [announcedRow u.entry] := by
  have hmemory := drop_copy order u rest (List.replicate sizeofUserBuffer 0) 12
  rw [List.drop_replicate] at hmemory
  have hoif : (u.entry.oif.toList ++ (RtUpdate.layout order).bytes rest).take
      12 = u.entry.oif.toList.take 12 :=
    List.take_append_of_le_length (by rw [Vector.length_toList]; lia)
  have hop : (Layout.copy (List.replicate sizeofUserBuffer 0)
      ((RtUpdate.layout order).bytes (u :: rest))
        (sizeofRtEntry * 1)).take 4 = order.encode u.opCode := by
    unfold Layout.copy
    rw [bytes_cons, show sizeofRtEntry * 1 = 4 + 44 from rfl,
      take_front (order.length_encode u.opCode), List.append_assoc]
    exact List.take_left' (order.length_encode u.opCode)
  have hrows : forall buf : List UInt8, printUpdates order buf 1 =
      [(order.decode (buf.take 4), printRtOneEntry 1 (buf.drop 4))] :=
    fun _ => rfl
  rw [hrows, hop, order.decode_encode, hadd]
  unfold announcedRow
  rw [← hoif]
  exact congrArg (fun memory => [(rtRouteAdd, printRtOneEntry 1 memory)]) hmemory

theorem rtSubscrptionFn_of_notice (order : ByteOrder) {op : WriterOp}
    (h : Authentic g) (hentries : g.announced.map (·.entry) = op.notice.map some)
    (hcount : g.rtUpdateVectorCount = g.announced.length) :
    rtSubscrptionFn order g = some (op.notice.map announcedRow) := by
  rcases exists_announced_updates h hentries with ⟨rest, hrecords⟩
  have hlength : g.rtUpdateVectorCount = op.notice.length := by
    have hlengths := congrArg List.length hentries
    rw [List.length_map, List.length_map] at hlengths
    rw [hcount, hlengths]
  unfold rtSubscrptionFn Globals.copyVectorToUser
  rw [Transfer.mapM_update hrecords, hlength]
  have hone := Ioctl.length_notice_le op
  cases hnotice : op.notice with
  | nil => rfl
  | cons entry others =>
      have hnone : others = [] := by
        rw [hnotice, List.length_cons] at hone
        exact List.length_eq_zero_iff.mp (by lia)
      rw [hnone]
      exact congrArg some (printUpdates_copy order _ rest rfl)

theorem announcedRow_typed {a b c : List UInt8} (ha : 0 ∉ a) (hb : 0 ∉ b)
    (hc : 0 ∉ c) (hsizes : a.length ≤ 13 ∧ b.length ≤ 13 ∧ c.length ≤ 13) :
    announcedRow (typedRt a b c).entry =
      (rtRouteAdd, {
        number := 1
        dstIp := a
        nxtHopIp := b
        oif := c.take 12 }) := by
  have hoif : Strings.string 0 ((padded 16 c).toList.take 12 ++
      List.replicate (sizeofUserBuffer - sizeofRtEntry) 0) = c.take 12 :=
    string_take_padded hc (by lia)
  refine congrArg (Prod.mk rtRouteAdd) ?_
  refine (printRtOneEntry_fields ha hb hsizes.left hsizes.right.left 1 _).trans ?_
  exact congrArg (Row.mk 1 a b) hoif

end Copy

/-!
## End to end
-/

section Runs

variable {thread file : Type _} [DecidableEq thread] [DecidableEq file]
variable [Fintype thread] [Fintype file]
variable {fileOf : thread -> file} {s : Ioctl.State thread file}

/-- In every undisturbed run with memory: what a subscriber prints is what the
writer before its batch has done, a row for the entry it has added and none for
a purge.  If that was a route of three strings of at most 13 characters, typed
at the prompts, the row has its strings, the last one up to 12 characters. -/
theorem typed_route_announced (order : ByteOrder)
    (hfile : Function.Injective fileOf) (first : UInt8) {a b c : List UInt8}
    (rest : List UInt8)
    (h : Transition.Reachable (Ioctl.step fileOf) Ioctl.Provided
      Ioctl.State.init s)
    {t : thread} (hpc : s.pc t = .copy)
    (ha : IsLine a) (hb : IsLine b) (hc : IsLine c)
    (hsizes : a.length ≤ 13 ∧ b.length ≤ 13 ∧ c.length ≤ 13) :
    exists before w op, s.performed = before ++ [(w, op)] ∧
      rtSubscrptionFn order s.g = some (op.notice.map announcedRow) ∧
      ioctlAddRtRoute (first :: (typed [a, b, c] ++ rest)) =
        .ok (.commonUpdateRt (typedRt a b c), rest) ∧
      (op = .update (typedRt a b c) -> rtSubscrptionFn order s.g = some
        [(rtRouteAdd, {
          number := 1
          dstIp := a
          nxtHopIp := b
          oif := c.take 12 })]) := by
  rcases Ioctl.announces_of_provided hfile h hpc with
    ⟨⟨before, w, op, hdone, hentries⟩, hcount⟩
  have hrows := rtSubscrptionFn_of_notice order
    (authentic_of_provided hfile h) hentries hcount
  have htyped := (prompts_rt_iff (fun _ _ => Request.commonUpdateRt.inj)
    first rest ha hb hc).mpr hsizes
  refine ⟨before, w, op, hdone, hrows, htyped, ?_⟩
  intro hop
  rw [hrows, hop, ← announcedRow_typed ha.noNul hb.noNul hc.noNul hsizes]
  rfl

theorem typed_route_announced_one :
    exists s : Ioctl.State (Fin 2) (Fin 2),
      rtSubscrptionFn .little s.g = some [(rtRouteAdd, {
        number := 1
        dstIp := [0x31]
        nxtHopIp := [0x32]
        oif := List.replicate 12 0x65 })] := by
  have hrun : exists s : Ioctl.State (Fin 2) (Fin 2),
      Transition.Reachable (Ioctl.step (id : Fin 2 -> Fin 2)) Ioctl.Provided
        Ioctl.State.init s ∧
        decide (s.pc 1 = .copy ∧ s.performed = [(0, .update
          (typedRt [0x31] [0x32] (List.replicate 13 0x65)))]) = true :=
    Transition.exists_reachable_of_schedule
      (.call 0 (.write (.update
          (typedRt [0x31] [0x32] (List.replicate 13 0x65)))) ::
        Ioctl.clientRuns 0 3 ++ Ioctl.callSubscribe 1 ++ Ioctl.workerRuns 5 ++
        Ioctl.clientRuns 0 5 ++ Ioctl.workerRuns 11 ++ Ioctl.clientRuns 1 1) _
      (by decide +kernel)
  rcases hrun with ⟨s, hreach, htest⟩
  rcases of_decide_eq_true htest with ⟨hpc, hperformed⟩
  rcases typed_route_announced .little Function.injective_id newline [] hreach
    hpc (⟨by decide, by decide⟩ : IsLine [0x31])
    (⟨by decide, by decide⟩ : IsLine [0x32])
    (⟨by decide, by decide⟩ : IsLine (List.replicate 13 0x65)) (by decide)
    with ⟨before, w, op, hdone, _, _, hrow⟩
  rw [hperformed] at hdone
  have hlast := List.append_inj_right' (show [] ++ _ = before ++ _ from hdone) rfl
  cases hlast
  exact ⟨s, hrow rfl⟩

end Runs

end DrTest
end RIBDriver
