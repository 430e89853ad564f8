import RIBDriver.Rt.Readiness

/-!
# The order of delivery

Everything ever written is still on `rt->rt`, newest first.  The change list is
the newest part of it, and what a file has received before is older than all
that is pending while it reads.  So the reads of a file, one after the other,
follow the order of the writes.
-/

namespace RIBDriver

namespace RtTable

variable {file : Type _}

/-- The entries of the table as a snapshot would copy them, newest first. -/
def tableRecords (t : RtTable file) : List VectorCell :=
  t.rt.map fun a =>
    { opCode := rtRouteAdd, entry := (t.heap a).contents, src := a }

theorem tableRecords_add {t : RtTable file} (h : Sound t) (entry : RtEntry) :
    (t.addRtTableEntryByVal entry).tableRecords =
      { opCode := rtRouteAdd, entry := some entry, src := t.next } ::
        t.tableRecords := by
  show List.map _ (_ :: t.rt) = _
  rw [List.map_cons]
  congr 1
  · simp [addRtTableEntryByVal, EntryCell.contents]
  · apply List.map_congr_left
    intro a ha
    have hlt : a < t.next := h.rt_lt a ha
    have hother : a ≠ t.next := by lia
    show VectorCell.mk _ (Function.update t.heap t.next _ a).contents _ = _
    rw [Function.update_of_ne hother]

theorem pendingRecords_src (t : RtTable file) :
    t.pendingRecords.map (·.src) = t.pending := by
  have hvector : t.rtGetUpdatedRtEntries true = some t.pendingRecords := rfl
  exact rtGetUpdatedRtEntries_src t hvector

end RtTable

namespace Poll

open RtTable

variable {thread file : Type _} [DecidableEq file]

def Event.receivedRecords (f : file) : Event file -> List VectorCell
  | .copied filep vector count =>
      if filep = f then vector.records.take count else []
  | _ => []

/-- All the reads of the file have brought, the last one first. -/
def received (log : List (Event file)) (f : file) : List VectorCell :=
  log.flatMap (Event.receivedRecords f)

theorem delivered_of_received {log : List (Event file)} {f : file}
    {record : VectorCell} (h : record ∈ received log f) :
    Delivered log f record.src := by
  rcases List.mem_flatMap.mp h with ⟨event, hevent, hrecord⟩
  cases event with
  | copied filep vector count =>
      simp only [Event.receivedRecords] at hrecord
      split at hrecord
      · rename_i hf
        refine ⟨_, hevent, decide_eq_true ⟨hf, ?_⟩⟩
        exact List.mem_map_of_mem hrecord
      · cases hrecord
  | _ => cases hrecord

/-!
## The invariant
-/

/-- The pending updates are the newest entries, the announced ones are among
them, and every file has received its records in the order of the table. -/
structure Streamed (s : State thread file) : Prop where
  pending : s.g.table.pendingRecords <+: s.g.table.tableRecords
  announced : s.g.announced.Sublist s.g.table.pendingRecords
  received : forall f, (received s.log f).Sublist s.g.table.tableRecords

section Steps

variable {s v : State thread file}

theorem streamed_init : Streamed (State.init : State thread file) where
  pending := List.nil_prefix
  announced := List.Sublist.refl []
  received := fun _ => List.Sublist.refl []

theorem streamed_of_quiet (h : Streamed s)
    (hentries : v.g.table.tableRecords = s.g.table.tableRecords)
    (hpending : v.g.table.pendingRecords = s.g.table.pendingRecords)
    (hannounced : v.g.announced.Sublist v.g.table.pendingRecords)
    (hlog : forall f, received v.log f = received s.log f) : Streamed v where
  pending := by
    rw [hpending, hentries]
    exact h.pending
  announced := hannounced
  received := by
    intro f
    rw [hlog, hentries]
    exact h.received f

theorem streamed_writeAdd {kmsg : RtUpdate} (hsound : s.g.table.Sound)
    (h : Streamed s) : Streamed (s.writeAdd kmsg) where
  pending := by
    show (s.g.table.addRtTableEntryByVal kmsg.entry).pendingRecords <+:
      (s.g.table.addRtTableEntryByVal kmsg.entry).tableRecords
    rw [pendingRecords_add hsound, tableRecords_add hsound, List.cons_prefix_cons]
    exact ⟨rfl, h.pending⟩
  announced := by
    show s.g.announced.Sublist
      (s.g.table.addRtTableEntryByVal kmsg.entry).pendingRecords
    rw [pendingRecords_add hsound]
    exact h.announced.cons _
  received := by
    intro f
    show (received s.log f).Sublist
      (s.g.table.addRtTableEntryByVal kmsg.entry).tableRecords
    rw [tableRecords_add hsound]
    exact (h.received f).cons _

theorem streamed_endBatch (h : Streamed s) : Streamed s.endBatch where
  pending := List.nil_prefix
  announced := by
    have hnone : s.endBatch.g.announced = [] := by
      simp [State.endBatch, Globals.announced]
    rw [hnone]
    exact List.nil_sublist _
  received := h.received

variable [DecidableEq thread]

theorem streamed_copyOut {t : thread} {f : file} (hregular : Regular s)
    (h : Streamed s) (hpc : s.pc t = .copy f) : Streamed (s.copyOut t f) where
  pending := h.pending
  announced := h.announced
  received := by
    intro f'
    have hself : (s.pc t).file? = some f := file?_eq_of_pc (Or.inl hpc)
    show (Event.receivedRecords f' (.copied f s.g.rtUpdateVector
      s.g.rtUpdateVectorCount) ++ received s.log f').Sublist _
    by_cases hf : f = f'
    · rw [← hf]
      have hold : forall record, record ∈ received s.log f ->
          record ∉ s.g.table.pendingRecords := by
        intro record hrecord hmem
        have hpending : record.src ∈ s.pending := by
          have hsrc : record.src ∈ s.g.table.pendingRecords.map (·.src) :=
            List.mem_map_of_mem hmem
          rw [pendingRecords_src] at hsrc
          exact hsrc
        rcases hregular.fresh.settled f record.src
          (delivered_of_received hrecord) hpending with hblack | ⟨t', ht'⟩
        · exact hregular.orderly.reading t f hself hblack
        · have hsame := hregular.orderly.alone t' t f
            (file?_eq_of_pc (Or.inr ht')) hself
          rw [hsame, hpc] at ht'
          cases ht'
      rcases h.pending with ⟨rest, hrest⟩
      have hreceived : (received s.log f).Sublist rest := by
        have hall := h.received f
        rw [← hrest] at hall
        rcases List.sublist_append_iff.mp hall with ⟨new, old, hsplit, hnew, hrest⟩
        have hnone : new = [] := by
          rw [List.eq_nil_iff_forall_not_mem]
          intro record hrecord
          refine hold record ?_ (hnew.subset hrecord)
          rw [hsplit]
          exact List.mem_append_left old hrecord
        rw [hsplit, hnone]
        exact hrest
      rw [← show s.g.table.pendingRecords ++ rest =
        (s.copyOut t f).g.table.tableRecords from hrest]
      have hcopied : Event.receivedRecords f (.copied f s.g.rtUpdateVector
          s.g.rtUpdateVectorCount) = s.g.announced := if_pos rfl
      rw [hcopied]
      exact h.announced.append hreceived
    · have hcopied : Event.receivedRecords f' (.copied f s.g.rtUpdateVector
          s.g.rtUpdateVectorCount) = [] := if_neg hf
      rw [hcopied]
      exact h.received f'

theorem announced_readEntry [Fintype thread] {t : thread} {f : file}
    {allocOk : Bool} (hblack : s.black = [])
    (hstep : step s (.readEntry t f allocOk false) = some v) :
    v.g.announced = if allocOk then s.g.table.newSnapshot else [] := by
  rw [← Globals.announced_rtReadEntry hblack]
  change readEntryStep s t f allocOk false = some v at hstep
  unfold readEntryStep at hstep
  split at hstep
  · cases hstep
  · simp only [Bool.false_eq_true, if_false] at hstep
    split at hstep
    · cases hstep
    · rw [← Option.some.inj hstep]

theorem streamed_step [Fintype thread] {a : Action thread file}
    (hregular : Regular s) (h : Streamed s) (hdisciplined : Disciplined s a)
    (hstep : step s a = some v) : Streamed v := by
  have hmove := move_of_step hstep
  cases hmove with
  | pollReady hblack hdata hidle =>
      exact streamed_of_quiet h rfl rfl h.announced (fun _ => rfl)
  | pollStay => exact h
  | pollRegister hblack hempty =>
      rename_i f
      have hsame : (s.register f).g.table.tableRecords =
          s.g.table.tableRecords ∧
          (s.register f).g.table.pendingRecords =
            s.g.table.pendingRecords := by
        unfold State.register addRtTableUniquePollReader
        split <;> exact ⟨rfl, rfl⟩
      refine streamed_of_quiet h hsame.left hsame.right ?_ (fun _ => rfl)
      rw [hsame.right]
      exact h.announced
  | pollRotate hblack hempty hreaders =>
      exact streamed_of_quiet h rfl rfl h.announced (fun _ => rfl)
  | entryInterrupted hpc => cases hdisciplined.left
  | entryFirst hpc hblack hvector =>
      refine streamed_of_quiet h rfl rfl ?_ (fun _ => rfl)
      rw [announced_readEntry hblack hstep]
      split
      · exact List.take_sublist _ _
      · exact List.nil_sublist _
  | entryLater hpc hblack =>
      exact streamed_of_quiet h rfl rfl h.announced (fun _ => rfl)
  | copy hpc => exact streamed_copyOut hregular h hpc
  | exitInterrupted hpc => cases hdisciplined.left
  | exitLast hpc hone =>
      exact streamed_of_quiet (streamed_endBatch h) rfl rfl
        (streamed_endBatch h).announced (fun _ => rfl)
  | exitOther hpc hone =>
      exact streamed_of_quiet h rfl rfl h.announced (fun _ => rfl)
  | writeAdd hadd hreaders => exact streamed_writeAdd hregular.sound h
  | writeOther hadd => exact h

end Steps

section Runs

variable [DecidableEq thread]
variable [Fintype thread] {s : State thread file}

theorem streamed_of_reachable
    (h : Transition.Reachable step Disciplined State.init s) : Streamed s := by
  refine Transition.reachable_invariant_of Streamed
    (fun _ => regular_of_reachable) streamed_init ?_ h
  intro s a v hregular hold hdisciplined hstep
  exact streamed_step hregular hold hdisciplined hstep

/-- In a disciplined run, with or without memory, the reads of a file bring it
a subsequence of the entries written: each as it was written, none twice and
none before an older one. -/
theorem received_in_order
    (h : Transition.Reachable step Disciplined State.init s) (f : file) :
    (received s.log f).Sublist s.g.table.tableRecords :=
  (streamed_of_reachable h).received f

end Runs

theorem received_in_order_two_readers :
    exists s : State (Fin 3) (Fin 3),
      ((received s.log 0).map (·.src) = [2, 1, 0] ∧
        (received s.log 1).map (·.src) = [0]) ∧
          (received s.log 0).Sublist s.g.table.tableRecords := by
  have hrun : exists s : State (Fin 3) (Fin 3),
      Transition.Reachable step Disciplined State.init s ∧
        decide ((received s.log 0).map (·.src) = [2, 1, 0] ∧
          (received s.log 1).map (·.src) = [0]) = true :=
    Transition.exists_reachable_of_schedule
      ([pollOnce 0, pollOnce 1, .write someUpdate, pollOnce 0, pollOnce 1] ++
        readOnce 0 ++ readOnce 1 ++ [pollOnce 0, .write someUpdate,
          .write someUpdate, pollOnce 0] ++ readOnce 0) _
      (by decide +kernel)
  rcases hrun with ⟨s, hreach, htest⟩
  exact ⟨s, of_decide_eq_true htest, received_in_order hreach 0⟩

end Poll
end RIBDriver
