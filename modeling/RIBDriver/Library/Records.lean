import Mathlib.Data.List.Basic

/-!
# Arrays of fixed-size records in memory

A layout gives the bytes of a record, all records being of one width.  Memory
from some address on is the list of its bytes, an array the concatenation of
its records, and a copy overwrites a prefix.
-/

namespace RIBDriver

structure Layout (record byte : Type _) where
  width : Nat
  encode : record -> List byte
  decode : List byte -> record
  length_encode : forall r, (encode r).length = width
  decode_encode : forall r, decode (encode r) = r

namespace Layout

variable {record byte : Type _} (L : Layout record byte)

def bytes (records : List record) : List byte := records.flatMap L.encode

def bytesAt (memory : List byte) (i : Nat) : List byte :=
  (memory.drop (i * L.width)).take L.width

def read (memory : List byte) (n : Nat) : List record :=
  (List.range n).map fun i => L.decode (L.bytesAt memory i)

def Holds (memory : List byte) (records : List record) (n : Nat) : Prop :=
  forall i (hi : i < records.length), i < n ->
    L.bytesAt memory i = L.encode (records.get ⟨i, hi⟩)

def copy (memory source : List byte) (len : Nat) : List byte :=
  source.take len ++ memory.drop len

section Arrays

theorem length_bytes (records : List record) :
    (L.bytes records).length = records.length * L.width := by
  induction records with
  | nil => simp [bytes]
  | cons r rest ih =>
      have hcons : L.bytes (r :: rest) = L.encode r ++ L.bytes rest := rfl
      rw [hcons, List.length_append, L.length_encode, ih, List.length_cons,
        Nat.add_mul, Nat.one_mul, Nat.add_comm]

theorem bytesAt_bytes (records : List record) (i : Nat)
    (hi : i < records.length) :
    L.bytesAt (L.bytes records) i = L.encode (records.get ⟨i, hi⟩) := by
  induction records generalizing i with
  | nil => cases hi
  | cons r rest ih =>
      have hcons : L.bytes (r :: rest) = L.encode r ++ L.bytes rest := rfl
      have hwidth := L.length_encode r
      cases i with
      | zero =>
          unfold bytesAt
          rw [hcons, Nat.zero_mul, List.drop_zero,
            List.take_left' hwidth]
          rfl
      | succ i =>
          have hdrop : (L.encode r ++ L.bytes rest).drop ((i + 1) * L.width) =
              (L.bytes rest).drop (i * L.width) := by
            rw [Nat.add_mul, Nat.one_mul, Nat.add_comm, ← List.drop_drop,
              List.drop_left' hwidth]
          have hrest := ih i (Nat.lt_of_succ_lt_succ hi)
          unfold bytesAt at hrest ⊢
          rw [hcons, hdrop, hrest]
          rfl

theorem bytesAt_congr {memory memory' : List byte} {n i : Nat}
    (h : memory.take (n * L.width) = memory'.take (n * L.width))
    (hi : i < n) : L.bytesAt memory i = L.bytesAt memory' i := by
  have hbound : i * L.width + L.width ≤ n * L.width := by
    rw [← Nat.succ_mul]
    exact Nat.mul_le_mul_right _ hi
  have hbefore : forall m : List byte,
      L.bytesAt m i = L.bytesAt (m.take (n * L.width)) i := by
    intro m
    unfold bytesAt
    rw [List.drop_take, List.take_take, Nat.min_eq_left (by lia)]
  rw [hbefore memory, hbefore memory', h]

theorem bytesAt_append (records : List record) (rest : List byte) (i : Nat)
    (hi : i < records.length) :
    L.bytesAt (L.bytes records ++ rest) i =
      L.encode (records.get ⟨i, hi⟩) := by
  have hlength := L.length_bytes records
  have hsame : (L.bytes records ++ rest).take (records.length * L.width) =
      (L.bytes records).take (records.length * L.width) := by
    rw [List.take_left' hlength, List.take_of_length_le (Nat.le_of_eq hlength)]
  rw [L.bytesAt_congr hsame hi]
  exact L.bytesAt_bytes records i hi

theorem holds_iff {memory : List byte} {records : List record} {n : Nat}
    (hn : n ≤ records.length) :
    L.Holds memory records n <->
      memory.take (n * L.width) = (L.bytes records).take (n * L.width) := by
  constructor
  · intro h
    induction n with
    | zero => simp
    | succ n ih =>
        have hold := ih (by lia) (fun i hi hlt => h i hi (by lia))
        have hlast := h n (by lia) (by lia)
        rw [← L.bytesAt_bytes records n (by lia)] at hlast
        unfold bytesAt at hlast
        rw [Nat.add_mul, Nat.one_mul, List.take_add, List.take_add, hold, hlast]
  · intro h i hi hlt
    rw [L.bytesAt_congr h hlt]
    exact L.bytesAt_bytes records i hi

theorem read_of_holds {memory : List byte} {records : List record} {n : Nat}
    (hn : n ≤ records.length) (h : L.Holds memory records n) :
    L.read memory n = records.take n := by
  apply List.ext_getElem
  · simp [read, Nat.min_eq_left hn]
  · intro i hread htake
    have hlt : i < n := by
      simp only [read, List.length_map, List.length_range] at hread
      exact hread
    have hi : i < records.length := by lia
    have hrecord := h i hi hlt
    simp only [read, List.getElem_map, List.getElem_range, List.getElem_take,
      hrecord, L.decode_encode, List.get_eq_getElem]

end Arrays

section Copy

variable {L}

theorem take_copy {memory source : List byte} {len m : Nat}
    (hlen : len ≤ source.length) (hm : len ≤ m) :
    (copy memory source len).take m =
      source.take len ++ (memory.drop len).take (m - len) := by
  unfold copy
  rw [List.take_append, List.length_take, Nat.min_eq_left hlen,
    List.take_of_length_le]
  rw [List.length_take]
  lia

theorem holds_copy_iff {memory : List byte} {records : List record}
    {n len : Nat} (hn : n ≤ records.length) (hlen : len ≤ n * L.width) :
    L.Holds (copy memory (L.bytes records) len) records n <->
      (memory.drop len).take (n * L.width - len) =
        ((L.bytes records).drop len).take (n * L.width - len) := by
  have hsource : len ≤ (L.bytes records).length := by
    rw [L.length_bytes]
    exact Nat.le_trans hlen (Nat.mul_le_mul_right _ hn)
  have hsplit : (L.bytes records).take (n * L.width) =
      (L.bytes records).take len ++
        ((L.bytes records).drop len).take (n * L.width - len) := by
    rw [← List.take_add, Nat.add_sub_cancel' hlen]
  rw [L.holds_iff hn, take_copy hsource hlen, hsplit]
  exact List.append_right_inj _

end Copy

end Layout

/-!
## Fields of a copied array

A copy that ends inside an array writes some fields whole, cuts one and leaves
the rest.
-/

/-- What a copy does to a field: all of the value is written, its first `bytes`
bytes, or nothing. -/
inductive Extent (value : Type _) where
  | whole (v : value)
  | part (bytes : Nat) (v : value)
  | untouched
deriving DecidableEq

namespace Extent

variable {value value' : Type _}

def map (f : value -> value') : Extent value -> Extent value'
  | .whole v => .whole (f v)
  | .part bytes v => .part bytes (f v)
  | .untouched => .untouched

def ofCopy (len offset size : Nat) (v : value) : Extent value :=
  if offset + size ≤ len then .whole v
  else if offset < len then .part (len - offset) v
  else .untouched

def cut : Extent value -> Option Nat
  | .whole _ => none
  | .part bytes _ => some bytes
  | .untouched => some 0

theorem cut_map (f : value -> value') (e : Extent value) :
    (e.map f).cut = e.cut := by
  cases e <;> rfl

theorem cut_ofCopy (len offset size : Nat) (v : value) :
    (ofCopy len offset size v).cut =
      if offset + size ≤ len then none else some (len - offset) := by
  unfold ofCopy
  split
  · rfl
  · split
    · rfl
    · rename_i hbeyond
      show some 0 = some (len - offset)
      rw [Nat.sub_eq_zero_of_le (Nat.le_of_not_lt hbeyond)]

theorem ofCopy_eq_map {len len' offset offset' size size' : Nat}
    (f : value -> value') (v : value)
    (hend : offset + size ≤ len <-> offset' + size' ≤ len')
    (hcut : len < offset + size -> len' - offset' = len - offset) :
    ofCopy len' offset' size' (f v) = (ofCopy len offset size v).map f := by
  unfold ofCopy
  by_cases hwhole : offset + size ≤ len
  · rw [if_pos hwhole, if_pos (hend.mp hwhole)]
    rfl
  · have hbytes := hcut (Nat.lt_of_not_le hwhole)
    rw [if_neg hwhole, if_neg (fun h => hwhole (hend.mpr h))]
    by_cases hpart : offset < len
    · rw [if_pos hpart, if_pos (by lia), hbytes]
      rfl
    · rw [if_neg hpart, if_neg (by lia)]
      rfl

end Extent
end RIBDriver
