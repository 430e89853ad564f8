import Mathlib.Data.List.Basic
import Mathlib.Logic.Function.Basic
import RIBDriver.Library.Transition

/-!
# Loading and unloading the drivers

`char_driver_init_module` registers the minor number 0 of its major number and
gives the minor number 1 back: the clean-up uses `dev` as the initialisation
has left it.  A worker thread is started with the table and never stopped.
-/

namespace RIBDriver
namespace Registration

/-!
## The kernel's device numbers
-/

structure Dev where
  major : Nat
  minor : Nat
deriving DecidableEq

def InRegion (dev : Dev) (count : Nat) (number : Dev) : Prop :=
  number.major = dev.major ∧ dev.minor ≤ number.minor ∧
    number.minor < dev.minor + count

instance (dev : Dev) (count : Nat) (number : Dev) :
    Decidable (InRegion dev count number) :=
  inferInstanceAs (Decidable (_ ∧ _))

/-- The functions of the kernel the modules call; `none` is a negative result. -/
structure Chrdev (kernel : Type _) where
  IsTaken : kernel -> Dev -> Prop
  registerChrdevRegion : kernel -> Dev -> Nat -> Option kernel
  unregisterChrdevRegion : kernel -> Dev -> Nat -> kernel

/-- Registering takes numbers nobody has, all of the region and no others;
unregistering concerns the numbers of the region only. -/
structure Chrdev.Documented {kernel : Type _} (api : Chrdev kernel) : Prop where
  free : forall {k k' : kernel} {dev : Dev} {count : Nat} {number : Dev},
    api.registerChrdevRegion k dev count = some k' ->
      InRegion dev count number -> ¬ api.IsTaken k number
  taken : forall {k k' : kernel} {dev : Dev} {count : Nat} {number : Dev},
    api.registerChrdevRegion k dev count = some k' ->
      (api.IsTaken k' number <->
        api.IsTaken k number ∨ InRegion dev count number)
  others : forall (k : kernel) {dev : Dev} {count : Nat} {number : Dev},
    ¬ InRegion dev count number ->
      (api.IsTaken (api.unregisterChrdevRegion k dev count) number <->
        api.IsTaken k number)

/-!
## The modules
-/

def rtMajorNumber : Nat := 245
def rtMinorUnits : Nat := 1
def macMajorNumber : Nat := 246
def macMinorUnits : Nat := 1

/-- How a load ends; `nullTable` is the clean-up of a table that could not be
allocated. -/
inductive LoadResult where
  | majorNumberRegFailed
  | nullTable
  | cdevAddFailed
  | success
deriving DecidableEq

structure Loading (kernel : Type _) where
  kernel : kernel
  hasWorker : Bool
  result : LoadResult

section Modules

variable {kernel : Type _} (api : Chrdev kernel)

def charDriverCleanupModule (k : kernel) (dev : Dev) (units : Nat) : kernel :=
  api.unregisterChrdevRegion k dev units

/-- `allocOk` and `addOk` say whether `init_rt_table` gets its memory and
`cdev_add` succeeds. -/
def charDriverInitModule (major units : Nat) (k : kernel)
    (allocOk addOk : Bool) : Loading kernel :=
  let dev : Dev := { major := major, minor := 0 }
  match api.registerChrdevRegion k dev units with
  | none =>
      { kernel := k, hasWorker := false, result := .majorNumberRegFailed }
  | some k =>
      if !allocOk then
        { kernel := charDriverCleanupModule api k dev units
          hasWorker := false
          result := .nullTable }
      else
        let dev : Dev := { major := major, minor := 1 }
        if !addOk then
          { kernel := charDriverCleanupModule api k dev units
            hasWorker := true
            result := .cdevAddFailed }
        else { kernel := k, hasWorker := true, result := .success }

inductive Module where
  | rtTableDrv
  | macTableDrv
deriving DecidableEq

def Module.major : Module -> Nat
  | .rtTableDrv => rtMajorNumber
  | .macTableDrv => macMajorNumber

def Module.units : Module -> Nat
  | .rtTableDrv => rtMinorUnits
  | .macTableDrv => macMinorUnits

/-- `workers` counts the worker threads there are, `loads` has the results of
the loads, the last one first. -/
structure State (kernel : Type _) where
  kernel : kernel
  loaded : Module -> Bool
  workers : Module -> Nat
  loads : List (Module × LoadResult)

inductive Action where
  | load (m : Module) (allocOk addOk : Bool)
  | unload (m : Module)
deriving DecidableEq

def State.init (k : kernel) : State kernel where
  kernel := k
  loaded := fun _ => false
  workers := fun _ => 0
  loads := []

/-- The load of a module that has used the null pointer has not come back. -/
def State.hasCrashed (s : State kernel) : Bool :=
  s.loads.any fun load => load.2 = .nullTable

def step (s : State kernel) : Action -> Option (State kernel)
  | .load m allocOk addOk =>
      if s.hasCrashed || s.loaded m then none
      else
        let r := charDriverInitModule api m.major m.units s.kernel allocOk addOk
        some {
          kernel := r.kernel
          loaded := Function.update s.loaded m (r.result = .success)
          workers := Function.update s.workers m
            (s.workers m + r.hasWorker.toNat)
          loads := (m, r.result) :: s.loads }
  | .unload m =>
      if s.hasCrashed || !s.loaded m then none
      else
        some { s with
          kernel := charDriverCleanupModule api s.kernel
            { major := m.major, minor := 1 } m.units
          loaded := Function.update s.loaded m false }

end Modules

/-!
## One load
-/

def Module.first (m : Module) : Dev where
  major := m.major
  minor := 0

def Module.second (m : Module) : Dev where
  major := m.major
  minor := 1

theorem inRegion_first (m : Module) : InRegion m.first m.units m.first := by
  cases m <;> decide

theorem not_inRegion_first {m m' : Module} (hne : m' ≠ m) :
    ¬ InRegion m.first m.units m'.first := by
  cases m <;> cases m' <;> first | exact absurd rfl hne | decide

theorem not_inRegion_second (m m' : Module) :
    ¬ InRegion m.second m.units m'.first := by
  cases m <;> cases m' <;> decide

def LoadResult.passes : LoadResult -> Bool
  | .cdevAddFailed => true
  | .success => true
  | _ => false

section Loads

variable {kernel : Type _} {api : Chrdev kernel}

def Taken (api : Chrdev kernel) (k : kernel) (m : Module) : Prop :=
  api.IsTaken k m.first

/-- A load is refused, or finds its number free and then has it for good, or
crashes; the other module keeps its number. -/
inductive Loaded (api : Chrdev kernel) (m : Module) (k : kernel) :
    Loading kernel -> Prop where
  | refused : Loaded api m k
      { kernel := k, hasWorker := false, result := .majorNumberRegFailed }
  | crashed {r : Loading kernel} (hfree : ¬ Taken api k m)
      (hresult : r.result = .nullTable) (hworker : r.hasWorker = false)
      (hothers : forall m', m' ≠ m -> Taken api k m' -> Taken api r.kernel m') :
      Loaded api m k r
  | passed {r : Loading kernel} (hfree : ¬ Taken api k m)
      (hresult : r.result.passes = true) (hworker : r.hasWorker = true)
      (htaken : Taken api r.kernel m)
      (hothers : forall m', m' ≠ m -> Taken api k m' -> Taken api r.kernel m') :
      Loaded api m k r

theorem taken_of_register (hdoc : api.Documented) {m : Module} {k k' : kernel}
    (h : api.registerChrdevRegion k m.first m.units = some k') :
    ¬ Taken api k m ∧ Taken api k' m ∧
      forall m', Taken api k m' -> Taken api k' m' :=
  ⟨hdoc.free h (inRegion_first m), (hdoc.taken h).mpr (Or.inr (inRegion_first m)),
    fun _ hm' => (hdoc.taken h).mpr (Or.inl hm')⟩

theorem taken_cleanup (hdoc : api.Documented) (m m' : Module) (k : kernel) :
    Taken api (charDriverCleanupModule api k m.second m.units) m' <->
      Taken api k m' :=
  hdoc.others k (not_inRegion_second m m')

theorem loaded_of_init (hdoc : api.Documented) (m : Module) (k : kernel)
    (allocOk addOk : Bool) :
    Loaded api m k
      (charDriverInitModule api m.major m.units k allocOk addOk) := by
  unfold charDriverInitModule
  change Loaded api m k (match api.registerChrdevRegion k m.first m.units with
    | none => _
    | some k => _)
  cases hreg : api.registerChrdevRegion k m.first m.units with
  | none => exact Loaded.refused
  | some k' =>
      rcases taken_of_register hdoc hreg with ⟨hfree, htaken, hothers⟩
      cases allocOk with
      | false =>
          refine Loaded.crashed hfree rfl rfl ?_
          intro m' hne hm'
          exact (hdoc.others k' (not_inRegion_first hne)).mpr (hothers m' hm')
      | true =>
          cases addOk with
          | false =>
              refine Loaded.passed hfree rfl rfl ?_ ?_
              · exact (taken_cleanup hdoc m m k').mpr htaken
              · intro m' _ hm'
                exact (taken_cleanup hdoc m m' k').mpr (hothers m' hm')
          | true =>
              exact Loaded.passed hfree rfl rfl htaken (fun m' _ => hothers m')

theorem init_of_taken (hdoc : api.Documented) {m : Module} {k : kernel}
    (h : Taken api k m) (allocOk addOk : Bool) :
    charDriverInitModule api m.major m.units k allocOk addOk =
      { kernel := k, hasWorker := false, result := .majorNumberRegFailed } := by
  unfold charDriverInitModule
  change (match api.registerChrdevRegion k m.first m.units with
    | none => _
    | some k => _) = _
  cases hreg : api.registerChrdevRegion k m.first m.units with
  | none => rfl
  | some k' => exact absurd h (taken_of_register hdoc hreg).left

end Loads

/-!
## Runs of loads and unloads
-/

section Runs

variable {kernel : Type _} {api : Chrdev kernel} {s v : State kernel}

def passes (s : State kernel) (m : Module) : Nat :=
  s.loads.countP fun load => load.1 = m && load.2.passes

/-- At most one load of the module ever gets past the registration, whether the
module has been unloaded since or not; its worker thread is there as long, and
every other load is refused. -/
structure LoadedOnce (api : Chrdev kernel) (s : State kernel) (m : Module) :
    Prop where
  once : passes s m ≤ 1
  workers : s.workers m = passes s m
  refused : passes s m = 1 -> forall allocOk addOk,
    charDriverInitModule api m.major m.units s.kernel allocOk addOk =
      { kernel := s.kernel, hasWorker := false, result := .majorNumberRegFailed }

structure Held (api : Chrdev kernel) (s : State kernel) (m : Module) :
    Prop where
  once : passes s m ≤ 1
  workers : s.workers m = passes s m
  taken : passes s m = 1 -> Taken api s.kernel m

theorem held_init (api : Chrdev kernel) (k : kernel) (m : Module) :
    Held api (State.init k) m where
  once := Nat.zero_le 1
  workers := rfl
  taken := by
    intro h
    cases h

theorem passes_cons (s : State kernel) (m m' : Module) (r : LoadResult)
    (hloads : v.loads = (m, r) :: s.loads) :
    passes v m' = passes s m' + (decide (m = m') && r.passes).toNat := by
  unfold passes
  rw [hloads, List.countP_cons]
  cases decide (m = m') && r.passes <;> rfl

theorem held_load {m : Module} {r : Loading kernel}
    (h : forall m, Held api s m) (hload : Loaded api m s.kernel r)
    (hkernel : v.kernel = r.kernel)
    (hworkers : v.workers = Function.update s.workers m
      (s.workers m + r.hasWorker.toNat))
    (hloads : v.loads = (m, r.result) :: s.loads) (m' : Module) :
    Held api v m' := by
  have hold := h m'
  have hpasses := passes_cons s m m' r.result hloads
  by_cases hm : m = m'
  · rw [← hm] at hold hpasses ⊢
    rw [decide_eq_true rfl, Bool.true_and] at hpasses
    cases hload with
    | refused =>
        refine ⟨by rw [hpasses]; exact hold.once, ?_, ?_⟩
        · rw [hworkers, hpasses, Function.update_self, hold.workers]
          rfl
        · rw [hpasses, hkernel]
          exact hold.taken
    | crashed hfree hresult hworker hothers =>
        rw [hresult] at hpasses
        refine ⟨by rw [hpasses]; exact hold.once, ?_, ?_⟩
        · rw [hworkers, hpasses, Function.update_self, hold.workers, hworker]
          rfl
        · intro hone
          rw [hpasses] at hone
          exact absurd (hold.taken hone) hfree
    | passed hfree hresult hworker htaken hothers =>
        have hnone : passes s m = 0 := by
          rcases Nat.le_one_iff_eq_zero_or_eq_one.mp hold.once with hzero | hone
          · exact hzero
          · exact absurd (hold.taken hone) hfree
        rw [hresult, hnone] at hpasses
        refine ⟨Nat.le_of_eq hpasses, ?_, ?_⟩
        · rw [hworkers, hpasses, Function.update_self, hold.workers, hnone,
            hworker]
        · intro _
          rw [hkernel]
          exact htaken
  · rw [decide_eq_false hm, Bool.false_and] at hpasses
    change passes v m' = passes s m' at hpasses
    refine ⟨by rw [hpasses]; exact hold.once, ?_, ?_⟩
    · rw [hworkers, hpasses, Function.update_of_ne (Ne.symm hm)]
      exact hold.workers
    · rw [hpasses, hkernel]
      intro hone
      have hthere := hold.taken hone
      cases hload with
      | refused => exact hthere
      | crashed hfree hresult hworker hothers =>
          exact hothers m' (Ne.symm hm) hthere
      | passed hfree hresult hworker htaken hothers =>
          exact hothers m' (Ne.symm hm) hthere

theorem held_step (hdoc : api.Documented) {a : Action}
    (h : forall m, Held api s m) (hstep : step api s a = some v) (m' : Module) :
    Held api v m' := by
  cases a with
  | unload m =>
      have hold := h m'
      simp only [step] at hstep
      split at hstep
      · cases hstep
      · rw [← Option.some.inj hstep]
        exact ⟨hold.once, hold.workers,
          fun hone => (taken_cleanup hdoc m m' s.kernel).mpr (hold.taken hone)⟩
  | load m allocOk addOk =>
      simp only [step] at hstep
      split at hstep
      · cases hstep
      · rw [← Option.some.inj hstep]
        exact held_load h (loaded_of_init hdoc m s.kernel allocOk addOk) rfl rfl
          rfl m'

/-- In every run of loads and unloads of the two modules, wherever memory or
`cdev_add` fails: each module gets past its registration once, its worker thread
outlives it, and no later load of it succeeds. -/
theorem loaded_once (hdoc : api.Documented) {k : kernel}
    (h : Transition.Reachable (step api) (fun _ _ => True) (State.init k) s)
    (m : Module) : LoadedOnce api s m := by
  have hheld := Transition.reachable_invariant
    (fun s : State kernel => forall m, Held api s m) (held_init api k)
    (fun _ _ _ hs _ hstep m' => held_step hdoc hs hstep m') h m
  exact ⟨hheld.once, hheld.workers,
    fun hone => init_of_taken hdoc (hheld.taken hone)⟩

def regions : Chrdev (List (Dev × Nat)) where
  IsTaken k number := exists r, r ∈ k ∧ InRegion r.1 r.2 number
  registerChrdevRegion k dev count :=
    if k.any fun r => r.1.major = dev.major && r.1.minor < dev.minor + count &&
        dev.minor < r.1.minor + r.2 then none
    else some ((dev, count) :: k)
  unregisterChrdevRegion k dev count := k.filter (· ≠ (dev, count))

theorem regions_documented : regions.Documented where
  free := by
    intro k k' dev count number hreg hregion htaken
    rcases htaken with ⟨r, hr, hin⟩
    simp only [regions] at hreg
    split at hreg
    · cases hreg
    · rename_i hnone
      refine hnone (List.any_eq_true.mpr ⟨r, hr, ?_⟩)
      rcases hregion with ⟨hmajor, hlow, hhigh⟩
      rcases hin with ⟨hmajor', hlow', hhigh'⟩
      simp only [Bool.and_eq_true, decide_eq_true_eq]
      exact ⟨⟨hmajor'.symm.trans hmajor, by lia⟩, by lia⟩
  taken := by
    intro k k' dev count number hreg
    simp only [regions] at hreg
    split at hreg
    · cases hreg
    · rw [← Option.some.inj hreg]
      constructor
      · rintro ⟨r, hr, hin⟩
        rcases List.mem_cons.mp hr with hnew | hold
        · rw [hnew] at hin
          exact Or.inr hin
        · exact Or.inl ⟨r, hold, hin⟩
      · rintro (⟨r, hr, hin⟩ | hin)
        · exact ⟨r, List.mem_cons_of_mem _ hr, hin⟩
        · exact ⟨(dev, count), List.mem_cons_self, hin⟩
  others := by
    intro k dev count number hout
    constructor
    · rintro ⟨r, hr, hin⟩
      exact ⟨r, List.mem_of_mem_filter hr, hin⟩
    · rintro ⟨r, hr, hin⟩
      refine ⟨r, List.mem_filter.mpr ⟨hr, decide_eq_true ?_⟩, hin⟩
      intro hsame
      rw [hsame] at hin
      exact hout hin

theorem loaded_once_reload :
    exists s : State (List (Dev × Nat)),
      (s.loads = [(.rtTableDrv, .majorNumberRegFailed),
        (.macTableDrv, .cdevAddFailed), (.rtTableDrv, .success)] ∧
          s.loaded .rtTableDrv = false ∧ s.workers .rtTableDrv = 1) ∧
        LoadedOnce regions s .rtTableDrv := by
  have hrun : exists s : State (List (Dev × Nat)),
      Transition.Reachable (step regions) (fun _ _ => True) (State.init []) s ∧
        decide (s.loads = [(.rtTableDrv, .majorNumberRegFailed),
          (.macTableDrv, .cdevAddFailed), (.rtTableDrv, .success)] ∧
            s.loaded .rtTableDrv = false ∧ s.workers .rtTableDrv = 1) = true :=
    Transition.exists_reachable_of_schedule
      [.load .rtTableDrv true true, .unload .rtTableDrv,
        .load .macTableDrv true false, .load .rtTableDrv true true] _
      (by decide +kernel)
  rcases hrun with ⟨s, hreach, htest⟩
  exact ⟨s, of_decide_eq_true htest,
    loaded_once regions_documented hreach .rtTableDrv⟩

end Runs

end Registration
end RIBDriver
