import RIBDriver.Rt.Transfer

/-!
# The two exports of the table

`rt_get_updated_rt_entries` walks the change list and follows its pointers into
the table, `copy_rt_table_to_user_space` walks the table itself.  Until a purge
the pending updates are the newest entries of the table, in the same order, so
that the one export begins like the other.
-/

namespace RIBDriver

def RtEntry.layout : Layout RtEntry UInt8 where
  width := sizeofRtEntry
  encode := RtEntry.bytes
  decode := RtEntry.ofBytes
  length_encode := RtEntry.length_bytes
  decode_encode := RtEntry.ofBytes_bytes

namespace RtTable

variable {file : Type _}

/-- The loop of `copy_rt_table_to_user_space`, with the entries left to copy;
`none` if there is no node or its entry is dead.  `buf` is the memory from the
pointer of that name on. -/
def copyEntries (heap : Nat -> EntryCell) :
    Nat -> List Nat -> List UInt8 -> Option (List UInt8)
  | 0, _, buf => some buf
  | _ + 1, [], _ => none
  | i + 1, node :: rest, buf => do
      let entry <- (heap node).contents
      let behind <- copyEntries heap i rest (buf.drop sizeofRtEntry)
      some (entry.bytes ++ behind)

def copyRtTableToUserSpace (t : RtTable file) (accessOk : Bool)
    (buf : List UInt8) (bufSize : UInt32) : Option (List UInt8 × Nat) :=
  if isSinglyLlEmpty t.rt then some (buf, 0)
  else if accessOk = false then some (buf, 0)
  else
    let buffUnits := bufSize.toNat / sizeofRtEntry
    let maxNodes := getNodeCountSinglyLl t.rt
    let buffUnits := if buffUnits < maxNodes then buffUnits else maxNodes
    (copyEntries t.heap buffUnits t.rt buf).map fun buf => (buf, buffUnits)

/-!
## Sequences of calls
-/

inductive Call where
  | apply (msg : RtUpdate)
  | add (entry : RtEntry)
  | emptyChangeList
deriving DecidableEq

def call (t : RtTable file) : Call -> RtTable file
  | .apply msg => t.applyRtUpdates msg
  | .add entry => t.addRtTableEntryByVal entry
  | .emptyChangeList => t.rtEmptyChangeList

def addedSince (n : Nat) : Call -> Nat
  | .apply msg => if msg.opCode = rtRouteAdd then n + 1 else n
  | .add _ => n + 1
  | .emptyChangeList => 0

def afterCalls (calls : List Call) : RtTable file := calls.foldl call init

def addedSinceEmptying (calls : List Call) : Nat := calls.foldl addedSince 0

/-- The change list announces the first `n` entries of the table. -/
structure Leads (n : Nat) (t : RtTable file) : Prop where
  sound : Sound t
  le : n ≤ t.rt.length
  pending : t.pending = t.rt.take n
  adds : forall data, data ∈ t.rtChangeList -> data.opCode = rtRouteAdd

section Calls

variable {t : RtTable file} {n : Nat}

theorem leads_add (h : Leads n t) (entry : RtEntry) :
    Leads (n + 1) (t.addRtTableEntryByVal entry) where
  sound := sound_add h.sound entry
  le := Nat.succ_le_succ h.le
  pending := by
    rw [pending_add, h.pending]
    rfl
  adds := by
    intro data hdata
    rcases List.mem_cons.mp hdata with hnew | hold
    · rw [hnew]
    · exact h.adds data hold

theorem leads_empty (h : Leads n t) : Leads 0 t.rtEmptyChangeList where
  sound := sound_empty h.sound
  le := Nat.zero_le _
  pending := rfl
  adds := by
    intro data hdata
    cases hdata

theorem leads_call (h : Leads n t) (c : Call) :
    Leads (addedSince n c) (t.call c) := by
  cases c with
  | apply msg =>
      rw [addedSince, call, applyRtUpdates]
      split
      · exact leads_add h msg.entry
      · exact h
  | add entry => exact leads_add h entry
  | emptyChangeList => exact leads_empty h

theorem leads_foldl (h : Leads n t) (calls : List Call) :
    Leads (calls.foldl addedSince n) (calls.foldl call t) := by
  induction calls generalizing t n with
  | nil => exact h
  | cons c rest ih => exact ih (leads_call h c)

theorem leads_init : Leads 0 (init : RtTable file) where
  sound := sound_init
  le := Nat.le_refl 0
  pending := rfl
  adds := by
    intro data hdata
    cases hdata

theorem leads_afterCalls (calls : List Call) :
    Leads (addedSinceEmptying calls) (afterCalls calls : RtTable file) :=
  leads_foldl leads_init calls

end Calls

/-!
## What the exports deliver
-/

section Exports

variable {t : RtTable file} {n : Nat} {entries : List RtEntry}

theorem exists_entries_of_live {heap : Nat -> EntryCell} {nodes : List Nat}
    (hlive : forall a, a ∈ nodes -> exists entry, heap a = .live entry) :
    exists entries : List RtEntry, nodes.map heap = entries.map .live := by
  induction nodes with
  | nil => exact ⟨[], rfl⟩
  | cons node rest ih =>
      rcases hlive node List.mem_cons_self with ⟨entry, hentry⟩
      rcases ih fun a ha => hlive a (List.mem_cons_of_mem _ ha) with
        ⟨others, hothers⟩
      exists entry :: others
      rw [List.map_cons, List.map_cons, hentry, hothers]

theorem exists_entries (h : Sound t) :
    exists entries : List RtEntry, t.cells = entries.map .live :=
  exists_entries_of_live h.rt_live

theorem length_entries (hcells : t.cells = entries.map .live) :
    t.rt.length = entries.length := by
  have hsame := congrArg List.length hcells
  simpa [cells] using hsame

theorem copyEntries_live {heap : Nat -> EntryCell} {nodes : List Nat}
    (buf : List UInt8) (hcells : nodes.map heap = entries.map .live)
    (hn : n ≤ entries.length) :
    copyEntries heap n nodes buf =
      some (RtEntry.layout.bytes (entries.take n) ++
        buf.drop (n * sizeofRtEntry)) := by
  induction n generalizing nodes entries buf with
  | zero =>
      rw [copyEntries, List.take_zero, Nat.zero_mul, List.drop_zero]
      rfl
  | succ n ih =>
      cases entries with
      | nil => cases hn
      | cons entry others =>
          cases nodes with
          | nil => cases hcells
          | cons node rest =>
              rw [List.map_cons, List.map_cons, List.cons.injEq] at hcells
              have hcontents : (heap node).contents = some entry := by
                rw [hcells.left]
                rfl
              have hrest := ih (buf.drop sizeofRtEntry) hcells.right
                (Nat.le_of_succ_le_succ hn)
              have hbytes : RtEntry.layout.bytes (entry :: others.take n) =
                  entry.bytes ++ RtEntry.layout.bytes (others.take n) := rfl
              rw [copyEntries, hcontents, List.take_succ_cons, hbytes]
              simp only [Option.bind_eq_bind, Option.bind_some, hrest]
              rw [List.drop_drop, List.append_assoc, Nat.add_mul, Nat.one_mul,
                Nat.add_comm]

theorem copyRtTable_eq (hcells : t.cells = entries.map .live)
    (buf : List UInt8) (bufSize : UInt32) {m : Nat}
    (hm : m = min (bufSize.toNat / sizeofRtEntry) entries.length) :
    t.copyRtTableToUserSpace true buf bufSize =
      some (RtEntry.layout.bytes (entries.take m) ++
        buf.drop (m * sizeofRtEntry), m) := by
  have hlength := length_entries hcells
  unfold copyRtTableToUserSpace
  cases hempty : isSinglyLlEmpty t.rt with
  | true =>
      have hnil := isSinglyLlEmpty_iff.mp hempty
      rw [hnil, List.length_nil] at hlength
      have hzero : m = 0 := by
        rw [hm, ← hlength, Nat.min_zero]
      rw [if_pos rfl, hzero, List.take_zero, Nat.zero_mul, List.drop_zero]
      rfl
  | false =>
      have hunits : (if bufSize.toNat / sizeofRtEntry <
          getNodeCountSinglyLl t.rt then bufSize.toNat / sizeofRtEntry
          else getNodeCountSinglyLl t.rt) = m := by
        rw [hm, getNodeCountSinglyLl, hlength]
        split
        · lia
        · lia
      have hle : m ≤ entries.length := by
        rw [hm]
        exact Nat.min_le_right _ _
      simp only [Bool.false_eq_true, if_false, hunits, reduceCtorEq]
      rw [copyEntries_live buf hcells hle]
      rfl

theorem vector_of_leads (h : Leads n t) (hcells : t.cells = entries.map .live) :
    exists vector, t.rtGetUpdatedRtEntries true = some vector ∧
      vector.map (·.entry) = (entries.take n).map some ∧
        forall cell, cell ∈ vector -> cell.opCode = rtRouteAdd := by
  refine ⟨_, rfl, ?_, ?_⟩
  · have hpointers : t.rtChangeList.map
        (fun data => (t.heap data.entry).contents) =
          (t.pending.map t.heap).map EntryCell.contents := by
      rw [pending, List.map_map, List.map_map]
      rfl
    rw [List.map_map]
    show t.rtChangeList.map (fun data => (t.heap data.entry).contents) = _
    rw [hpointers, h.pending, List.map_take]
    change (t.cells.take n).map EntryCell.contents = _
    rw [hcells, ← List.map_take, List.map_map]
    rfl
  · intro cell hcell
    rcases List.mem_map.mp hcell with ⟨data, hdata, hcopy⟩
    rw [← hcopy]
    exact h.adds data hdata

theorem drop_copied {m : Nat} (hm : m ≤ entries.length) {buf : List UInt8} :
    (RtEntry.layout.bytes (entries.take m) ++
      buf.drop (m * sizeofRtEntry)).drop (m * sizeofRtEntry) =
        buf.drop (m * sizeofRtEntry) := by
  apply List.drop_left'
  rw [RtEntry.layout.length_bytes, List.length_take, Nat.min_eq_left hm]
  rfl

theorem record_copied {m : Nat} {vector : List VectorCell} {rest : List UInt8}
    (hentries : vector.map (·.entry) = (entries.take n).map some)
    (hm : m ≤ entries.length) {i : Nat} (hi : i < vector.length) (him : i < m) :
    (vector.get ⟨i, hi⟩).entry.map RtEntry.bytes =
      some (RtEntry.layout.bytesAt
        (RtEntry.layout.bytes (entries.take m) ++ rest) i) := by
  have hlength : i < (entries.take m).length := by
    rw [List.length_take]
    lia
  have hcopied := RtEntry.layout.bytesAt_append (entries.take m) rest i hlength
  have hrecord : (vector.map (·.entry))[i]? = ((entries.take n).map some)[i]? :=
    congrArg (·[i]?) hentries
  have hin : i < n := by
    have hsame := congrArg List.length hentries
    rw [List.length_map, List.length_map, List.length_take] at hsame
    lia
  rw [List.getElem?_map, List.getElem?_eq_getElem hi, List.getElem?_map,
    List.getElem?_take_of_lt hin,
    List.getElem?_eq_getElem (by lia)] at hrecord
  simp only [Option.map_some, Option.some.injEq] at hrecord
  rw [hcopied, List.get_eq_getElem, hrecord, List.get_eq_getElem,
    List.getElem_take]
  rfl

/-- After any calls the incremental export delivers one record for each entry
added since the change list was last emptied, the full export as many entries
as fit into the buffer, and they agree as far as both go. -/
theorem exports_agree (calls : List Call) (buf : List UInt8)
    (bufSize : UInt32) :
    exists vector buf' m,
      (afterCalls calls : RtTable file).rtGetUpdatedRtEntries true =
          some vector ∧
        (afterCalls calls : RtTable file).copyRtTableToUserSpace true buf
            bufSize = some (buf', m) ∧
          vector.length = addedSinceEmptying calls ∧
            (forall cell, cell ∈ vector -> cell.opCode = rtRouteAdd) ∧
              m = min (bufSize.toNat / sizeofRtEntry)
                (getNodeCountSinglyLl (afterCalls calls : RtTable file).rt) ∧
                buf'.drop (m * sizeofRtEntry) = buf.drop (m * sizeofRtEntry) ∧
                  forall i (hi : i < vector.length), i < m ->
                    (vector.get ⟨i, hi⟩).entry.map RtEntry.bytes =
                      some (RtEntry.layout.bytesAt buf' i) := by
  have hleads : Leads (addedSinceEmptying calls)
      (afterCalls calls : RtTable file) := leads_afterCalls calls
  rcases exists_entries hleads.sound with ⟨entries, hcells⟩
  have hlength := length_entries hcells
  rcases vector_of_leads hleads hcells with ⟨vector, hvector, hentries, hadds⟩
  have hcopy := copyRtTable_eq hcells buf bufSize rfl
  have hcount : vector.length = addedSinceEmptying calls := by
    have hsame := congrArg List.length hentries
    rw [List.length_map, List.length_map, List.length_take] at hsame
    have hle := hleads.le
    lia
  refine ⟨vector, _, _, hvector, hcopy, hcount, hadds, ?_, ?_, ?_⟩
  · rw [getNodeCountSinglyLl, hlength]
  · exact drop_copied (Nat.min_le_right _ _)
  · intro i hi him
    exact record_copied hentries (Nat.min_le_right _ _) hi him

end Exports

end RtTable
end RIBDriver
