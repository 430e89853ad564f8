import RIBDriver.Library.Refinement
import RIBDriver.Mac.Simulation

/-!
# How far the two drivers agree

The states of both drivers stay related in every run.  What their clients see
differs where `MAC_IOC_GET_MAC_INFO` leaves out a field, and where a copy that
is too short for its records ends in different fields of them.
-/

namespace RIBDriver
namespace Mac

variable {client reader file : Type _}

/-!
## Copies of the vector

A copy of `n` records lacks their last `4 * n` bytes.  Up to four records these
are bytes of the last `oif`, which has 16 bytes in both drivers.  From five
records on the field before it is cut as well, and that has 16 bytes in the
routing driver and 48 in the MAC driver.
-/

section Copies

variable {R : Renaming} {n j : Nat}

def cutOf (len offset size : Nat) : Option Nat :=
  if offset + size ≤ len then none else some (len - offset)

def CutsApart (n j : Nat) : Prop :=
  cutOf (sizeofRtEntry * n) (j * sizeofRtUpdate) 4 ≠
      cutOf (sizeofMacEntry * n) (j * sizeofMacUpdate) 4 ∨
    cutOf (sizeofRtEntry * n) (j * sizeofRtUpdate + 20) 16 ≠
      cutOf (sizeofMacEntry * n) (j * sizeofMacUpdate + 20) 48

theorem exists_cutsApart (hn : 4 < n) : exists j, j < n ∧ CutsApart n j := by
  unfold CutsApart cutOf sizeofRtUpdate sizeofMacUpdate sizeofRtEntry
    sizeofMacEntry
  by_cases hlast : n < 13
  · refine ⟨n - 1, by lia, Or.inr ?_⟩
    rw [if_neg (by lia), if_neg (by lia), ne_eq, Option.some.injEq]
    lia
  · by_cases hsecond : n < 21
    · refine ⟨n - 1, by lia, Or.inl ?_⟩
      rw [if_neg (by lia), if_pos (by lia)]
      exact Option.some_ne_none _
    · by_cases hthird : n < 26
      · refine ⟨n - 2, by lia, Or.inr ?_⟩
        rw [if_neg (by lia)]
        split
        · exact Option.some_ne_none _
        · rw [ne_eq, Option.some.injEq]
          lia
      · refine ⟨n - n / 13, by lia, Or.inl ?_⟩
        rw [if_neg (by lia)]
        split
        · exact Option.some_ne_none _
        · rw [ne_eq, Option.some.injEq]
          lia

theorem field_record {value value' : Type _} (field : RtEntry -> value)
    (field' : MacEntry -> value') (onField : value -> value')
    (h : forall e, field' (R.entry e) = onField (field e))
    (c : Option RtTable.VectorCell) :
    ((c.map R.record).bind (·.entry)).map field' =
      ((c.bind (·.entry)).map field).map onField := by
  cases c with
  | none => rfl
  | some cell =>
      show (cell.entry.map R.entry).map field' = (cell.entry.map field).map onField
      rw [Option.map_map, Option.map_map]
      exact congrArg (fun f => cell.entry.map f) (funext h)

theorem userRecord_ofCopy (hn : n ≤ 4) (hj : j < n)
    (c : Option RtTable.VectorCell) :
    MacUserRecord.ofCopy (sizeofMacEntry * n) j (c.map R.record) =
      R.userRecord (RtUserRecord.ofCopy (sizeofRtEntry * n) j c) := by
  have hcode : (c.map R.record).map (·.opCode) =
      (c.map (·.opCode)).map R.opCode := by
    cases c <;> rfl
  have hvlan : ((c.map R.record).bind (·.entry)).map (·.vlanId) =
      ((c.bind (·.entry)).map (·.dstIp)).map R.dstIp :=
    field_record RtEntry.dstIp MacEntry.vlanId R.dstIp (fun _ => rfl) c
  have hmac : ((c.map R.record).bind (·.entry)).map (·.mac) =
      ((c.bind (·.entry)).map (·.nxtHopIp)).map R.nxtHopIp :=
    field_record RtEntry.nxtHopIp MacEntry.mac R.nxtHopIp (fun _ => rfl) c
  have hoif : ((c.map R.record).bind (·.entry)).map (·.oif) =
      ((c.bind (·.entry)).map (·.oif)).map R.oif :=
    field_record RtEntry.oif MacEntry.oif R.oif (fun _ => rfl) c
  unfold MacUserRecord.ofCopy RtUserRecord.ofCopy Renaming.userRecord
  rw [hcode, hvlan, hmac, hoif, MacUserRecord.mk.injEq]
  unfold sizeofRtUpdate sizeofMacUpdate sizeofRtEntry sizeofMacEntry
  refine ⟨?_, ?_, ?_, ?_⟩
  · apply Extent.ofCopy_eq_map <;> lia
  · apply Extent.ofCopy_eq_map <;> lia
  · apply Extent.ofCopy_eq_map <;> lia
  · apply Extent.ofCopy_eq_map <;> lia

theorem userRecord_ofCopy_ne (c : Option RtTable.VectorCell)
    (hcut : CutsApart n j) :
    MacUserRecord.ofCopy (sizeofMacEntry * n) j (c.map R.record) ≠
      R.userRecord (RtUserRecord.ofCopy (sizeofRtEntry * n) j c) := by
  intro hsame
  rcases hcut with hcode | hfield
  · have hbytes := congrArg (fun r => Extent.cut (MacUserRecord.opCode r)) hsame
    apply hcode
    calc cutOf (sizeofRtEntry * n) (j * sizeofRtUpdate) 4
      _ = (Extent.ofCopy (sizeofRtEntry * n) (j * sizeofRtUpdate) 4
            (c.map (·.opCode))).cut := (Extent.cut_ofCopy ..).symm
      _ = _ := (Extent.cut_map ..).symm
      _ = _ := hbytes.symm
      _ = cutOf (sizeofMacEntry * n) (j * sizeofMacUpdate) 4 :=
            Extent.cut_ofCopy ..
  · have hbytes := congrArg (fun r => Extent.cut (MacUserRecord.mac r)) hsame
    apply hfield
    calc cutOf (sizeofRtEntry * n) (j * sizeofRtUpdate + 20) 16
      _ = (Extent.ofCopy (sizeofRtEntry * n) (j * sizeofRtUpdate + 20) 16
            ((c.bind (·.entry)).map (·.nxtHopIp))).cut :=
              (Extent.cut_ofCopy ..).symm
      _ = _ := (Extent.cut_map ..).symm
      _ = _ := hbytes.symm
      _ = cutOf (sizeofMacEntry * n) (j * sizeofMacUpdate + 20) 48 :=
            Extent.cut_ofCopy ..

theorem copiedRecords_globals_iff (g : Globals file) :
    (R.globals g).copiedRecords = g.copiedRecords.map R.userRecord <->
      g.rtUpdateVectorCount ≤ 4 := by
  have hcell : forall j : Nat, (R.globals g).macUpdateVector.records[j]? =
      g.rtUpdateVector.records[j]?.map R.record := by
    intro j
    show (R.vector g.rtUpdateVector).records[j]? = _
    rw [Renaming.records_vector, List.getElem?_map]
  unfold MacGlobals.copiedRecords Globals.copiedRecords
  rw [List.map_map]
  show (List.range g.rtUpdateVectorCount).map _ = _ <-> _
  rw [List.map_inj_left]
  constructor
  · intro hall
    by_contra hmany
    rcases exists_cutsApart (Nat.lt_of_not_le hmany) with ⟨j, hj, hcut⟩
    have hsame := hall j (List.mem_range.mpr hj)
    rw [hcell] at hsame
    exact userRecord_ofCopy_ne _ hcut hsame
  · intro hn j hj
    rw [hcell]
    exact userRecord_ofCopy hn (List.mem_range.mp hj) _

end Copies

/-!
## Runs of both drivers
-/

/-- The step is no end of a `RT_IOC_GET_RT_INFO` and no copy of more than four
records. -/
def Agreeing (s : Driver.State client reader file) :
    Driver.Action client reader file -> Prop
  | .ioctl (.client t) =>
      s.mixed.ioctl.pc t = .copy -> s.g.rtUpdateVectorCount ≤ 4
  | .poll (.readCopy _) => s.g.rtUpdateVectorCount ≤ 4
  | .infoRead _ => False
  | _ => True

section Steps

variable {R : Renaming}
variable (s : Driver.State client reader file)

theorem copied_eq_iff :
    (Outcome.copied (R.globals s.g).copiedRecords : Outcome MacUserRecord) =
        R.outcome (.copied s.g.copiedRecords) <->
      s.g.rtUpdateVectorCount ≤ 4 := by
  rw [← copiedRecords_globals_iff (R := R)]
  show Outcome.copied _ = Outcome.copied _ <-> _
  rw [Outcome.copied.injEq]

theorem informed_ne (g : Globals file) (head : Option Nat) :
    (Outcome.informed ((g.rtInfo head).filter fun f =>
        f.1 != .noOfPollingReaders) : Outcome MacUserRecord) ≠
      R.outcome (.informed (g.rtInfo head)) := by
  intro hsame
  have hlength := congrArg List.length (Outcome.informed.inj hsame)
  cases hlength

variable [Fintype reader] {fileOf : client -> file}
variable {s} {u : Driver.State client reader file}

variable [DecidableEq client] [DecidableEq reader] [DecidableEq file]

theorem macOutcome_eq_iff {a : Driver.Action client reader file}
    (hnext : Driver.next fileOf s a = some u) :
    R.macOutcome s a = R.outcome (Driver.outcome s a) <-> Agreeing s a := by
  cases a with
  | openFile f => exact iff_of_true rfl trivial
  | ioctl a =>
      cases a with
      | call t req => exact iff_of_true rfl trivial
      | client t =>
          simp only [Renaming.macOutcome, Driver.outcome, Driver.ioctlOutcome,
            Agreeing]
          cases s.mixed.ioctl.pc t with
          | copy =>
              simp only [true_imp_iff]
              exact copied_eq_iff s
          | _ => exact iff_of_true rfl (fun h => by cases h)
      | interrupt t =>
          refine iff_of_true ?_ trivial
          simp only [Renaming.macOutcome, Driver.outcome, Driver.ioctlOutcome]
          cases s.mixed.ioctl.pc t <;> rfl
      | worker allocOk => exact iff_of_true rfl trivial
  | poll a =>
      cases a with
      | poll f nonblock interrupted => exact iff_of_true rfl trivial
      | readEntry t f allocOk interrupted =>
          refine iff_of_true ?_ trivial
          cases interrupted <;> rfl
      | readCopy t => exact copied_eq_iff s
      | readExit t interrupted =>
          refine iff_of_true ?_ trivial
          cases interrupted with
          | true => rfl
          | false =>
              by_cases hlast : s.g.rtGetPollReaderCount = 1 <;>
                simp [Renaming.macOutcome, Driver.outcome, Driver.pollOutcome,
                  hlast]
      | write msg => exact iff_of_true rfl trivial
  | pollInterrupted => exact iff_of_true rfl trivial
  | inaccessible => exact iff_of_true rfl trivial
  | infoCall t => exact iff_of_true rfl trivial
  | infoRead t =>
      refine iff_of_false ?_ (fun h => h)
      simp only [Driver.next] at hnext
      simp only [Renaming.macOutcome, Driver.outcome]
      cases hinfo : s.info t with
      | idle =>
          rw [hinfo] at hnext
          cases hnext
      | downRead head => exact informed_ne s.g head

end Steps

section Runs

variable [DecidableEq client] [DecidableEq reader] [DecidableEq file]
variable [Fintype reader]

theorem states_renamed (R : Renaming) (fileOf : client -> file)
    (actions : List (Driver.Action client reader file)) :
    (Refinement.answers? (step fileOf) State.init
        (actions.map R.action)).map Prod.fst =
      (Refinement.answers? (Driver.step fileOf) Driver.State.init actions).map
        fun r => R.state r.1 := by
  have hstep : forall (s : Driver.State client reader file) a,
      (step fileOf (R.state s) (R.action a)).map Prod.fst =
        (Driver.step fileOf s a).map fun r => R.state r.1 := by
    intro s a
    rw [Renaming.step_state]
    simp [Driver.step, Function.comp_def]
  exact Refinement.states_renamed hstep Driver.State.init actions

def SameMachine (R : Renaming) (fileOf : client -> file)
    (actions : List (Driver.Action client reader file)) : Prop :=
  forall pre, pre <+: actions ->
    Refinement.answers? (step fileOf) State.init (pre.map R.action) =
      (Refinement.answers? (Driver.step fileOf) Driver.State.init pre).map
        fun r => (R.state r.1, r.2.map R.outcome)

/-- For every renaming and every run. -/
theorem sameMachine_iff_agreeing (R : Renaming) (fileOf : client -> file)
    (actions : List (Driver.Action client reader file)) :
    SameMachine R fileOf actions <->
      Transition.StepsMeet (Driver.next fileOf) Agreeing Driver.State.init
        actions := by
  have hstates : (fun s (a : Driver.Action client reader file) =>
      (Driver.step fileOf s a).map Prod.fst) = Driver.next fileOf := by
    funext s a
    simp [Driver.step, Function.comp_def]
  unfold SameMachine
  rw [← hstates, ← Renaming.state_init (R := R)]
  refine Refinement.corresponds_iff_stepsMeet ?_ ?_
  · intro s a hnone
    have hnext : Driver.next fileOf s a = none := by
      simpa [Driver.step] using hnone
    rw [Renaming.step_state, hnext]
    rfl
  · intro s a u x hsome
    rcases Option.map_eq_some_iff.mp hsome with ⟨v, hnext, hpair⟩
    cases hpair
    refine ⟨R.macOutcome s a, ?_, macOutcome_eq_iff hnext⟩
    rw [Renaming.step_state, hnext]
    rfl

theorem not_sameMachine {R : Renaming} {fileOf : client -> file}
    {actions : List (Driver.Action client reader file)}
    {xs : List (Outcome RtUserRecord)} {ys : List (Outcome MacUserRecord)}
    (hrt : (Refinement.answers? (Driver.step fileOf) Driver.State.init
      actions).map Prod.snd = some xs)
    (hmac : (Refinement.answers? (step fileOf) State.init
      (actions.map R.action)).map Prod.snd = some ys)
    (hne : ys ≠ xs.map R.outcome) : ¬ SameMachine R fileOf actions := by
  intro hsame
  have hall := congrArg (Option.map Prod.snd)
    (hsame actions (List.prefix_refl _))
  have hanswers : some ys = (some xs).map (List.map R.outcome) := by
    rw [← hmac, ← hrt, hall, Option.map_map, Option.map_map]
    rfl
  exact hne (Option.some.inj hanswers)

end Runs

section Schedules

def pollThenInfo (t : client) (f f' : file) :
    List (Driver.Action client reader file) :=
  [.openFile f, .openFile f', .poll (.poll f' false false), .infoCall t,
    .infoRead t]

end Schedules

/-- The fields both drivers write, around what the routing driver writes to
`no_of_polling_readers`. -/
def infoFields (polling : List (InfoField × Option Nat)) :
    List (InfoField × Option Nat) :=
  [(.nodeCount, some 0), (.actualNodeCount, some 0),
    (.noOfPendingUpdates, some 0)] ++ polling ++
      [(.noOfBlacklistedPollingReaders, some 0)]

def answersOf (polling : List (InfoField × Option Nat)) {record : Type} :
    List (Outcome record) :=
  [.returns 0, .returns 0, .returns 0, .continues,
    .informed (infoFields polling)]

/-- The routing driver reports one polling reader; the MAC driver does not
write `no_of_polling_readers`. -/
theorem exists_drift :
    exists actions : List (Driver.Action (Fin 1) (Fin 1) (Fin 2)),
      (Refinement.answers? (Driver.step fun _ => 0) Driver.State.init
          actions).map Prod.snd =
        some (answersOf [(.noOfPollingReaders, some 1)]) ∧
      (Refinement.answers? (step fun _ => 0) State.init
          (actions.map Renaming.cmdcodes.action)).map Prod.snd =
        some (answersOf []) ∧
      ¬ SameMachine Renaming.cmdcodes (fun _ => 0) actions := by
  have hruns : exists actions : List (Driver.Action (Fin 1) (Fin 1) (Fin 2)),
      (Refinement.answers? (Driver.step fun _ => 0) Driver.State.init
          actions).map Prod.snd =
        some (answersOf [(.noOfPollingReaders, some 1)]) ∧
      (Refinement.answers? (step fun _ => 0) State.init
          (actions.map Renaming.cmdcodes.action)).map Prod.snd =
        some (answersOf []) :=
    ⟨pollThenInfo 0 0 1, by decide +kernel, by decide +kernel⟩
  rcases hruns with ⟨actions, hrt, hmac⟩
  exact ⟨actions, hrt, hmac, not_sameMachine hrt hmac (by decide)⟩

end Mac
end RIBDriver
