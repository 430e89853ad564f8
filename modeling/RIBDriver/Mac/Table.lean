import Mathlib.Logic.Function.Basic
import RIBDriver.Common.LinkedList

/-!
# The MAC table and its change list

The table operations of `mac_table.c`.
-/

namespace RIBDriver

/-- `struct mac_entry`: fields of 16, 48 and 16 bytes. -/
structure MacEntry where
  vlanId : Vector UInt8 16
  mac : Vector UInt8 48
  oif : Vector UInt8 16
deriving DecidableEq

structure MacUpdate where
  opCode : UInt32
  entry : MacEntry
deriving DecidableEq

def macRouteAdd : UInt32 := 5

def macMaxEntriesFetch : Nat := 20

def sizeofMacEntry : Nat := 80

def sizeofMacUpdate : Nat := 4 + sizeofMacEntry

inductive MacCell where
  | unallocated
  | live (entry : MacEntry)
  | freed
deriving DecidableEq

def MacCell.contents : MacCell -> Option MacEntry
  | .live entry => some entry
  | _ => none

structure MacPreserveUpdate where
  opCode : UInt32
  entry : Nat
deriving DecidableEq

/-- The lists of `struct mac_table` over the heap of entries. -/
structure MacTable (file : Type _) where
  heap : Nat -> MacCell
  next : Nat
  mac : List Nat
  macChangeList : List MacPreserveUpdate
  pollReadersList : List file

namespace MacTable

variable {file : Type _}

def init : MacTable file where
  heap := fun _ => .unallocated
  next := 0
  mac := []
  macChangeList := []
  pollReadersList := []

def addMacTableEntryByVal (t : MacTable file) (entry : MacEntry) :
    MacTable file :=
  { t with
    heap := Function.update t.heap t.next (.live entry)
    next := t.next + 1
    mac := singlyLlAddNodeByVal t.mac t.next
    macChangeList := singlyLlAddNodeByVal t.macChangeList
      { opCode := macRouteAdd, entry := t.next } }

/-- `MAC_ROUTE_UPDATE`, `MAC_ROUTE_DEL`, `MAC_DELETE` and unknown codes do
nothing. -/
def applyMacUpdates (t : MacTable file) (msg : MacUpdate) : MacTable file :=
  if msg.opCode = macRouteAdd then t.addMacTableEntryByVal msg.entry else t

def purgeMacTable (t : MacTable file) : MacTable file :=
  { t with
    heap := fun a => if a ∈ t.mac then .freed else t.heap a
    mac := deleteSinglyLl t.mac }

def macEmptyChangeList (t : MacTable file) : MacTable file :=
  { t with macChangeList := deleteSinglyLl t.macChangeList }

structure VectorCell where
  opCode : UInt32
  entry : Option MacEntry
deriving DecidableEq

/-- `none` when `kzalloc` fails. -/
def macGetUpdatedMacEntries (t : MacTable file) (allocOk : Bool) :
    Option (List VectorCell) :=
  if allocOk then
    some (t.macChangeList.map fun data =>
      { opCode := data.opCode
        entry := (t.heap data.entry).contents })
  else none

def mutexIsMacUpdated (t : MacTable file) : Bool :=
  getNodeCountSinglyLl t.macChangeList != 0

def addMacTableUniquePollReader [DecidableEq file] (t : MacTable file)
    (filep : file) : MacTable file :=
  if singlyLlIsValuePresent t.pollReadersList filep then t
  else { t with pollReadersList := singlyLlAddNodeByVal t.pollReadersList filep }

end MacTable
end RIBDriver
