import Mathlib.Data.Fintype.Basic
import RIBDriver.Common.Queue
import RIBDriver.Rt.Table

/-!
# The shared variables of the driver

The fields of `struct rt_table` outside its lists and the static variables of
`rt_fops.c`.  Semaphores and completions are their counters.
-/

namespace RIBDriver

inductive Role where
  | reader
  | writer
deriving DecidableEq

namespace Role

instance : Fintype Role where
  elems := {.reader, .writer}
  complete := by
    intro role
    cases role <;> simp

def other : Role -> Role
  | .reader => .writer
  | .writer => .reader

end Role

/-- The pointer `rt_update_vector` and what it points to. -/
inductive UpdateVector where
  | null
  | live (vector : List RtTable.VectorCell)
  | freed (vector : List RtTable.VectorCell)
deriving DecidableEq

namespace UpdateVector

def records : UpdateVector -> List RtTable.VectorCell
  | .null => []
  | .live vector => vector
  | .freed vector => vector

/-- `kfree` ignores a null pointer. -/
def kfree : UpdateVector -> UpdateVector
  | .null => .null
  | .live vector => .freed vector
  | .freed vector => .freed vector

end UpdateVector

/-- `rw_semaphore`: the number of holders of the read side and whether the
write side is held. -/
structure RwSem where
  readers : Nat
  writer : Bool
deriving DecidableEq

structure Globals (file : Type _) where
  table : RtTable file
  sem : Nat
  rwSem : RwSem
  queue : Role -> KernelQueue file
  /-- Completions of `rt->worker_thread` not yet waited for. -/
  workerDone : Nat
  nReadersToBeService : Nat
  rtSerializeReadersCsSem : Nat
  rtUpdateVector : UpdateVector
  rtUpdateVectorCount : Nat
  blackListedPollReadersList : List file

/-- The shared variables a scheduler looks at. -/
structure Control (file : Type _) where
  queue : Role -> KernelQueue file
  sem : Nat
  serialize : Nat
  workerDone : Nat
  nReadersToBeService : Nat

namespace Globals

variable {file : Type _}

def control (g : Globals file) : Control file where
  queue := g.queue
  sem := g.sem
  serialize := g.rtSerializeReadersCsSem
  workerDone := g.workerDone
  nReadersToBeService := g.nReadersToBeService

def writerQ (g : Globals file) : KernelQueue file := g.queue .writer

def init : Globals file where
  table := RtTable.init
  sem := 1
  rwSem := { readers := 0, writer := false }
  queue := fun _ => KernelQueue.initQ
  workerDone := 0
  nReadersToBeService := 0
  rtSerializeReadersCsSem := 1
  rtUpdateVector := .null
  rtUpdateVectorCount := 0
  blackListedPollReadersList := []

def setQueue (g : Globals file) (role : Role) (q : KernelQueue file) :
    Globals file :=
  { g with queue := Function.update g.queue role q }

def rtGetPollReaderCount (g : Globals file) : Nat :=
  getNodeCountSinglyLl g.table.pollReadersList

/-- `rt_update_vector_count = rt_get_updated_rt_entries(rt, &rt_update_vector)`.
The old vector is not freed; a failed allocation leaves a null pointer. -/
def refreshUpdateVector (g : Globals file) (allocOk : Bool) : Globals file :=
  match g.table.rtGetUpdatedRtEntries allocOk with
  | none => { g with rtUpdateVector := .null, rtUpdateVectorCount := 0 }
  | some vector =>
      { g with
        rtUpdateVector := .live vector
        rtUpdateVectorCount := vector.length }

def clampUpdateVectorCount (g : Globals file) : Globals file :=
  if g.rtUpdateVectorCount > rtMaxEntriesFetch then
    { g with rtUpdateVectorCount := rtMaxEntriesFetch }
  else g

/-- The records a `copy_to_user` of the vector hands to its caller. -/
def announced (g : Globals file) : List RtTable.VectorCell :=
  g.rtUpdateVector.records.take g.rtUpdateVectorCount

/-- `n_readers_to_be_service--`: the counter is an unsigned 32-bit number. -/
def decrement32 (n : Nat) : Nat :=
  if n = 0 then UInt32.size - 1 else n - 1

theorem decrement32_of_pos {n : Nat} (hpos : 0 < n) :
    decrement32 n = n - 1 := by
  unfold decrement32
  rw [if_neg (by lia)]

end Globals
end RIBDriver
