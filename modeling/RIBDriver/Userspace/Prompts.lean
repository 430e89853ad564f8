import RIBDriver.Library.Strings
import RIBDriver.Mac.Table
import RIBDriver.Rt.Transfer

/-!
# The prompts of the test client

`dr_test` asks for the three strings of a route and makes one system call with
them.  A route goes to the kernel as it is typed exactly if every line leaves
room for its end and a terminator.
-/

namespace RIBDriver
namespace DrTest

def newline : UInt8 := 10

/-- How a prompt ends the program: by `exit`, or by a store to the index
`strlen - 1` of an empty string. -/
inductive Halt where
  | exit
  | outOfBounds
deriving DecidableEq

/-- `fgets(buf, size, stdin)`: the characters stored and those left; `none` at
the end of the input. -/
def fgets (size : Nat) (stdin : List UInt8) :
    Option (List UInt8 × List UInt8) :=
  if stdin = [] then none
  else some (Strings.splitLine newline (size - 1) stdin)

def array (capacity : Nat) (line : List UInt8) : List UInt8 :=
  line ++ List.replicate (capacity - line.length) 0

/-- `field[strlen(field) - 1] = '\0'`. -/
def cutLast (field : List UInt8) : Option (List UInt8) :=
  match (Strings.string 0 field).length with
  | 0 => none
  | n + 1 => some (field.set n 0)

def promptField (capacity size : Nat) (stdin : List UInt8) :
    Except Halt (List UInt8 × List UInt8) :=
  match fgets size stdin with
  | none => .error .exit
  | some (line, rest) =>
      match cutLast (array capacity line) with
      | none => .error .outOfBounds
      | some field => .ok (field, rest)

/-- One prompt after the other, for arrays of these capacities and with these
sizes passed to `fgets`. -/
def promptFields : List (Nat × Nat) -> List UInt8 ->
    Except Halt (List (List UInt8) × List UInt8)
  | [], stdin => .ok ([], stdin)
  | (capacity, size) :: fields, stdin =>
      match promptField capacity size stdin with
      | .error halt => .error halt
      | .ok (field, rest) =>
          (promptFields fields rest).map fun r => (field :: r.1, r.2)

/-- `fgets(consume_new_line, 2, stdin)`, whose result nobody looks at. -/
def consumeNewLine (stdin : List UInt8) : List UInt8 :=
  match fgets 2 stdin with
  | none => stdin
  | some (_, rest) => rest

def padded (n : Nat) (bytes : List UInt8) : Vector UInt8 n :=
  Vector.ofFn fun i => bytes.getD i 0

def macEntryOfBytes (bytes : List UInt8) : MacEntry where
  vlanId := padded 16 bytes
  mac := padded 48 (bytes.drop 16)
  oif := padded 16 (bytes.drop 64)

def rtFields : List (Nat × Nat) := [(16, 15), (16, 15), (16, 15)]

def macFields : List (Nat × Nat) := [(16, 15), (48, 48), (16, 15)]

def rtUpdateOf (fields : List (List UInt8)) : RtUpdate where
  opCode := rtRouteAdd
  entry := RtEntry.ofBytes fields.flatten

def macUpdateOf (fields : List (List UInt8)) : MacUpdate where
  opCode := macRouteAdd
  entry := macEntryOfBytes fields.flatten

inductive Request where
  | writeRt (msg : RtUpdate)
  /-- `RT_IOC_COMMON_UPDATE_RT`. -/
  | commonUpdateRt (msg : RtUpdate)
  | writeMac (msg : MacUpdate)
  /-- `MAC_IOC_COMMON_UPDATE_MAC`. -/
  | commonUpdateMac (msg : MacUpdate)
deriving DecidableEq

def prompts (fields : List (Nat × Nat))
    (request : List (List UInt8) -> Request) (stdin : List UInt8) :
    Except Halt (Request × List UInt8) :=
  (promptFields fields (consumeNewLine stdin)).map fun r => (request r.1, r.2)

def rtWrite : List UInt8 -> Except Halt (Request × List UInt8) :=
  prompts rtFields fun fields => .writeRt (rtUpdateOf fields)

def ioctlAddRtRoute : List UInt8 -> Except Halt (Request × List UInt8) :=
  prompts rtFields fun fields => .commonUpdateRt (rtUpdateOf fields)

def macWrite : List UInt8 -> Except Halt (Request × List UInt8) :=
  prompts macFields fun fields => .writeMac (macUpdateOf fields)

def ioctlAddMacRoute : List UInt8 -> Except Halt (Request × List UInt8) :=
  prompts macFields fun fields => .commonUpdateMac (macUpdateOf fields)

/-!
## One line
-/

/-- What can be typed on a line and is a string. -/
structure IsLine (line : List UInt8) : Prop where
  noNewline : newline ∉ line
  noNul : 0 ∉ line

def typed (lines : List (List UInt8)) : List UInt8 :=
  lines.flatMap (· ++ [newline])

section Prompt

variable {capacity size : Nat} {line rest stdin : List UInt8}

theorem length_array (h : line.length ≤ capacity) :
    (array capacity line).length = capacity := by
  unfold array
  rw [List.length_append, List.length_replicate]
  lia

theorem string_array (h : 0 ∉ line) :
    Strings.string 0 (array capacity line) = line :=
  Strings.string_append_replicate h _

theorem cutLast_array {c : UInt8} (h : 0 ∉ line ++ [c])
    (hroom : line.length < capacity) :
    cutLast (array capacity (line ++ [c])) = some (array capacity line) := by
  have hlength : (line ++ [c]).length = line.length + 1 := List.length_append
  have hzeros : List.replicate (capacity - line.length) (0 : UInt8) =
      0 :: List.replicate (capacity - (line.length + 1)) 0 := by
    have hsucc : capacity - line.length = capacity - (line.length + 1) + 1 := by
      lia
    rw [hsucc, List.replicate_succ]
  unfold cutLast
  rw [string_array h, hlength]
  show some ((array capacity (line ++ [c])).set line.length 0) = _
  unfold array
  rw [hzeros, hlength, List.append_assoc,
    List.set_append_right _ _ (Nat.le_refl _), Nat.sub_self]
  rfl

theorem promptField_of_fits (hline : IsLine line)
    (hfits : line.length + 2 ≤ size) (hsize : size ≤ capacity) :
    promptField capacity size (line ++ newline :: rest) =
      .ok (array capacity line, rest) := by
  have hinput : line ++ newline :: rest ≠ [] := by simp
  have hstring : 0 ∉ line ++ [newline] := by
    intro hmem
    rcases List.mem_append.mp hmem with hold | hend
    · exact hline.noNul hold
    · rcases List.mem_singleton.mp hend with hzero
      cases hzero
  unfold promptField fgets
  rw [if_neg hinput, Strings.splitLine_of_fits hline.noNewline (by lia)]
  simp only
  rw [cutLast_array hstring (by lia)]

theorem promptField_of_long (hline : IsLine line)
    (hlong : size < line.length + 2) (hpos : 2 ≤ size)
    (hsize : size ≤ capacity) :
    promptField capacity size (line ++ newline :: rest) =
      .ok (array capacity (line.take (size - 2)),
        line.drop (size - 1) ++ newline :: rest) := by
  have hinput : line ++ newline :: rest ≠ [] := by simp
  have hlt : size - 2 < line.length := by lia
  have htaken : line.take (size - 1) =
      line.take (size - 2) ++ [line.get ⟨size - 2, hlt⟩] := by
    have hsucc : size - 1 = size - 2 + 1 := by lia
    rw [hsucc, List.take_succ_eq_append_getElem hlt]
    rfl
  have hstring : 0 ∉ line.take (size - 2) ++ [line.get ⟨size - 2, hlt⟩] := by
    rw [← htaken]
    exact fun hmem => hline.noNul (List.mem_of_mem_take hmem)
  have hroom : (line.take (size - 2)).length < capacity := by
    rw [List.length_take]
    lia
  unfold promptField fgets
  rw [if_neg hinput, Strings.splitLine_of_long hline.noNewline (by lia)]
  simp only
  rw [htaken, cutLast_array hstring hroom]

theorem length_splitLine_le (n : Nat) (input : List UInt8) :
    (Strings.splitLine newline n input).1.length ≤ n := by
  induction n generalizing input with
  | zero => exact Nat.le_refl 0
  | succ n ih =>
      cases input with
      | nil => exact Nat.zero_le _
      | cons c rest =>
          rw [Strings.splitLine]
          split
          · exact Nat.succ_le_succ (Nat.zero_le n)
          · exact Nat.succ_le_succ (ih rest)

theorem length_of_promptField {field : List UInt8} (hsize : size ≤ capacity)
    (h : promptField capacity size stdin = .ok (field, rest)) :
    field.length = capacity := by
  unfold promptField fgets at h
  split at h
  · cases h
  · rename_i line left hline
    split at hline
    · cases hline
    · have hshort := length_splitLine_le (size - 1) stdin
      rw [Option.some.inj hline] at hshort
      change line.length ≤ size - 1 at hshort
      split at h
      · cases h
      · rename_i cut hcut
        cases h
        unfold cutLast at hcut
        split at hcut
        · cases hcut
        · rw [← Option.some.inj hcut, List.length_set]
          exact length_array (by lia)

end Prompt

/-!
## A whole command
-/

section Commands

variable {fields : List (Nat × Nat)} {lines : List (List UInt8)}
variable {rest : List UInt8}

def lineArray (field : Nat × Nat) (line : List UInt8) : List UInt8 :=
  array field.1 (line.take field.1)

def Fits (field : Nat × Nat) (line : List UInt8) : Prop :=
  line.length + 2 ≤ field.2

instance (field : Nat × Nat) (line : List UInt8) :
    Decidable (Fits field line) :=
  inferInstanceAs (Decidable (_ ≤ _))

def Filled (field : Nat × Nat) (value : List UInt8) : Prop :=
  value.length = field.1

theorem typed_cons (line : List UInt8) (lines : List (List UInt8))
    (rest : List UInt8) :
    typed (line :: lines) ++ rest =
      line ++ newline :: (typed lines ++ rest) := by
  simp [typed]

theorem filled_lineArrays (fields : List (Nat × Nat))
    (lines : List (List UInt8)) (hlength : lines.length = fields.length) :
    List.Forall₂ Filled fields (List.zipWith lineArray fields lines) := by
  induction fields generalizing lines with
  | nil => exact List.Forall₂.nil
  | cons field fields ih =>
      cases lines with
      | nil => cases hlength
      | cons line lines =>
          refine List.Forall₂.cons ?_ (ih lines (Nat.succ.inj hlength))
          refine length_array ?_
          rw [List.length_take]
          exact Nat.min_le_left _ _

theorem filled_of_promptFields {stdin : List UInt8}
    {values : List (List UInt8)}
    (hsizes : forall field, field ∈ fields -> field.2 ≤ field.1)
    (h : promptFields fields stdin = .ok (values, rest)) :
    List.Forall₂ Filled fields values := by
  induction fields generalizing stdin values with
  | nil =>
      cases h
      exact List.Forall₂.nil
  | cons field fields ih =>
      rcases field with ⟨capacity, size⟩
      rw [promptFields] at h
      cases hfield : promptField capacity size stdin with
      | error halt =>
          rw [hfield] at h
          cases h
      | ok r =>
          rcases r with ⟨value, left⟩
          rw [hfield] at h
          simp only at h
          cases hothers : promptFields fields left with
          | error halt =>
              rw [hothers] at h
              cases h
          | ok others =>
              rcases others with ⟨others, left'⟩
              rw [hothers] at h
              cases h
              refine List.Forall₂.cons ?_ (ih ?_ hothers)
              · exact length_of_promptField (hsizes _ List.mem_cons_self) hfield
              · exact fun f hf => hsizes f (List.mem_cons_of_mem _ hf)

/-- The arrays are those of the lines, and the input behind the lines is left,
exactly if every line fits: by induction on the prompts, since the first line
that does not fit is cut. -/
theorem promptFields_eq_iff
    (hsizes : forall field, field ∈ fields ->
      2 ≤ field.2 ∧ field.2 ≤ field.1)
    (hlines : forall line, line ∈ lines -> IsLine line)
    (hlength : lines.length = fields.length) :
    promptFields fields (typed lines ++ rest) =
        .ok (List.zipWith lineArray fields lines, rest) <->
      List.Forall₂ Fits fields lines := by
  induction fields generalizing lines with
  | nil =>
      cases lines with
      | nil => exact iff_of_true rfl List.Forall₂.nil
      | cons line lines => cases hlength
  | cons field fields ih =>
      cases lines with
      | nil => cases hlength
      | cons line lines =>
          rcases field with ⟨capacity, size⟩
          rcases hsizes _ List.mem_cons_self with ⟨htwo, hsize⟩
          have hline := hlines line List.mem_cons_self
          have hothers := @ih lines
            (fun f hf => hsizes f (List.mem_cons_of_mem _ hf))
            (fun l hl => hlines l (List.mem_cons_of_mem _ hl))
            (Nat.succ.inj hlength)
          rw [typed_cons, promptFields, List.forall₂_cons, List.zipWith_cons_cons]
          rcases Nat.lt_or_ge size (line.length + 2) with hlong | hfits
          · rw [promptField_of_long hline hlong htwo hsize]
            refine iff_of_false ?_ (fun h => absurd h.left (Nat.not_le.mpr hlong))
            intro h
            simp only at h
            cases hrest : promptFields fields (line.drop (size - 1) ++
                newline :: (typed lines ++ rest)) with
            | error halt =>
                rw [hrest] at h
                cases h
            | ok r =>
                rw [hrest] at h
                have hpair := Except.ok.inj h
                have hfirst := (List.cons.inj (Prod.mk.inj hpair).left).left
                have hstrings := congrArg (Strings.string 0) hfirst
                unfold lineArray at hstrings
                rw [string_array fun h0 => hline.noNul (List.mem_of_mem_take h0),
                  string_array fun h0 => hline.noNul (List.mem_of_mem_take h0)]
                  at hstrings
                have hlengths := congrArg List.length hstrings
                rw [List.length_take, List.length_take] at hlengths
                change min (size - 2) _ = min capacity _ at hlengths
                lia
          · have hwhole : line.take capacity = line :=
              List.take_of_length_le (by lia)
            rw [promptField_of_fits hline hfits hsize]
            simp only
            rw [← hothers]
            have harray : lineArray (capacity, size) line =
                array capacity line := congrArg (array capacity) hwhole
            rw [harray]
            cases promptFields fields (typed lines ++ rest) with
            | error halt =>
                refine iff_of_false (fun h => by cases h) ?_
                intro h
                cases h.right
            | ok r =>
                constructor
                · intro h
                  have hpair := Prod.mk.inj (Except.ok.inj h)
                  refine ⟨hfits, congrArg Except.ok (Prod.ext ?_ hpair.right)⟩
                  exact (List.cons.inj hpair.left).right
                · intro h
                  rw [h.right]
                  rfl

theorem prompts_eq_iff {request : List (List UInt8) -> Request} (first : UInt8)
    (hinj : forall values values', List.Forall₂ Filled fields values ->
      List.Forall₂ Filled fields values' ->
        request values = request values' -> values = values')
    (hsizes : forall field, field ∈ fields -> 2 ≤ field.2 ∧ field.2 ≤ field.1)
    (hlines : forall line, line ∈ lines -> IsLine line)
    (hlength : lines.length = fields.length) :
    prompts fields request (first :: (typed lines ++ rest)) =
        .ok (request (List.zipWith lineArray fields lines), rest) <->
      List.Forall₂ Fits fields lines := by
  rw [← promptFields_eq_iff hsizes hlines hlength]
  have hconsumed : consumeNewLine (first :: (typed lines ++ rest)) =
      typed lines ++ rest := by
    show (Strings.splitLine newline 1 (first :: (typed lines ++ rest))).2 = _
    rw [Strings.splitLine]
    split <;> rfl
  unfold prompts
  rw [hconsumed]
  cases hrun : promptFields fields (typed lines ++ rest) with
  | error halt => exact iff_of_false (fun h => by cases h) (fun h => by cases h)
  | ok r =>
      rcases r with ⟨values, left⟩
      have hfilled := filled_of_promptFields
        (fun field hf => (hsizes field hf).right) hrun
      constructor
      · intro h
        have hpair := Prod.mk.inj (Except.ok.inj h)
        have hvalues := hinj _ _ hfilled
          (filled_lineArrays fields lines hlength) hpair.left
        have hleft : left = rest := hpair.right
        rw [hvalues, hleft]
      · intro h
        have hpair := Prod.mk.inj (Except.ok.inj h)
        rw [hpair.left, hpair.right]
        rfl

end Commands

/-!
## The four commands
-/

section Fields

variable {n : Nat} {field rest line : List UInt8}

theorem toList_padded_append (h : field.length = n) :
    (padded n (field ++ rest)).toList = field := by
  apply List.ext_getElem
  · rw [Vector.length_toList, h]
  · intro i hi hfield
    simp [padded, List.getElem?_append_left hfield,
      List.getElem?_eq_getElem hfield]

theorem padded_lineArray (size : Nat) :
    padded n (lineArray (n, size) line ++ rest) = padded n line := by
  apply Vector.ext
  intro i hi
  unfold padded lineArray array
  rw [Vector.getElem_ofFn, Vector.getElem_ofFn]
  simp only [List.getD_eq_getElem?_getD]
  rcases Nat.lt_or_ge i line.length with hlt | hge
  · have htake : i < (line.take n).length := by
      rw [List.length_take]
      lia
    rw [List.append_assoc, List.getElem?_append_left htake,
      List.getElem?_take_of_lt hi]
  · have htake : (line.take n).length = line.length := by
      rw [List.length_take]
      lia
    rw [List.append_assoc, List.getElem?_append_right (by lia), htake,
      List.getElem?_append_left (by rw [List.length_replicate]; lia),
      List.getElem?_replicate, if_pos (by lia), List.getElem?_eq_none hge]
    rfl

end Fields

def typedRt (dstIp nxtHopIp oif : List UInt8) : RtUpdate where
  opCode := rtRouteAdd
  entry :=
    { dstIp := padded 16 dstIp
      nxtHopIp := padded 16 nxtHopIp
      oif := padded 16 oif }

def typedMac (vlanId mac oif : List UInt8) : MacUpdate where
  opCode := macRouteAdd
  entry :=
    { vlanId := padded 16 vlanId
      mac := padded 48 mac
      oif := padded 16 oif }

inductive Command where
  | rtWrite
  | ioctlAddRtRoute
  | macWrite
  | ioctlAddMacRoute
deriving DecidableEq

namespace Command

def run : Command -> List UInt8 -> Except Halt (Request × List UInt8)
  | .rtWrite => DrTest.rtWrite
  | .ioctlAddRtRoute => DrTest.ioctlAddRtRoute
  | .macWrite => DrTest.macWrite
  | .ioctlAddMacRoute => DrTest.ioctlAddMacRoute

def request : Command -> List UInt8 -> List UInt8 -> List UInt8 -> Request
  | .rtWrite, a, b, c => .writeRt (typedRt a b c)
  | .ioctlAddRtRoute, a, b, c => .commonUpdateRt (typedRt a b c)
  | .macWrite, a, b, c => .writeMac (typedMac a b c)
  | .ioctlAddMacRoute, a, b, c => .commonUpdateMac (typedMac a b c)

def middle : Command -> Nat
  | .rtWrite => 13
  | .ioctlAddRtRoute => 13
  | .macWrite => 46
  | .ioctlAddMacRoute => 46

end Command

section Structures

variable {values values' : List (List UInt8)}

theorem three_of_filled {f g h : Nat × Nat}
    (hfilled : List.Forall₂ Filled [f, g, h] values) :
    exists a b c, values = [a, b, c] ∧ a.length = f.1 ∧ b.length = g.1 ∧
      c.length = h.1 := by
  rcases values with _ | ⟨a, _ | ⟨b, _ | ⟨c, _ | ⟨d, rest⟩⟩⟩⟩
  all_goals simp only [List.forall₂_cons, List.forall₂_nil_left_iff,
    List.forall₂_nil_right_iff, reduceCtorEq, and_false] at hfilled
  exact ⟨a, b, c, rfl, hfilled.left, hfilled.right.left, hfilled.right.right.left⟩

theorem eq_of_padded {f g k : Nat × Nat}
    (h : List.Forall₂ Filled [f, g, k] values)
    (h' : List.Forall₂ Filled [f, g, k] values')
    (hfirst : padded f.1 values.flatten = padded f.1 values'.flatten)
    (hsecond : padded g.1 (values.flatten.drop f.1) =
      padded g.1 (values'.flatten.drop f.1))
    (hthird : padded k.1 (values.flatten.drop (f.1 + g.1)) =
      padded k.1 (values'.flatten.drop (f.1 + g.1))) : values = values' := by
  have hfields : forall x y z : List UInt8, x.length = f.1 -> y.length = g.1 ->
      z.length = k.1 ->
        (padded f.1 [x, y, z].flatten).toList = x ∧
          (padded g.1 ([x, y, z].flatten.drop f.1)).toList = y ∧
            (padded k.1 ([x, y, z].flatten.drop (f.1 + g.1))).toList = z := by
    intro x y z hx hy hz
    have hflat : [x, y, z].flatten = x ++ (y ++ (z ++ [])) := rfl
    have hdrop : (x ++ (y ++ (z ++ []))).drop (f.1 + g.1) = z ++ [] := by
      rw [← List.append_assoc]
      exact List.drop_left' (by rw [List.length_append, hx, hy])
    rw [hflat, List.drop_left' hx, hdrop]
    exact ⟨toList_padded_append hx, toList_padded_append hy,
      toList_padded_append hz⟩
  rcases three_of_filled h with ⟨a, b, c, hvalues, ha, hb, hc⟩
  rcases three_of_filled h' with ⟨a', b', c', hvalues', ha', hb', hc'⟩
  rcases hfields a b c ha hb hc with ⟨hone, htwo, hthree⟩
  rcases hfields a' b' c' ha' hb' hc' with ⟨hone', htwo', hthree'⟩
  rw [hvalues, hvalues'] at hfirst hsecond hthird
  rw [hfirst, hone'] at hone
  rw [hsecond, htwo'] at htwo
  rw [hthird, hthree'] at hthree
  rw [hvalues, hvalues', hone, htwo, hthree]

theorem rtUpdateOf_inj (h : List.Forall₂ Filled rtFields values)
    (h' : List.Forall₂ Filled rtFields values')
    (hsame : rtUpdateOf values = rtUpdateOf values') : values = values' :=
  eq_of_padded h h' (congrArg (fun u => u.entry.dstIp) hsame)
    (congrArg (fun u => u.entry.nxtHopIp) hsame)
    (congrArg (fun u => u.entry.oif) hsame)

theorem macUpdateOf_inj (h : List.Forall₂ Filled macFields values)
    (h' : List.Forall₂ Filled macFields values')
    (hsame : macUpdateOf values = macUpdateOf values') : values = values' :=
  eq_of_padded h h' (congrArg (fun u => u.entry.vlanId) hsame)
    (congrArg (fun u => u.entry.mac) hsame)
    (congrArg (fun u => u.entry.oif) hsame)

theorem padded_lineArrays (f g k : Nat × Nat) (a b c : List UInt8) :
    padded f.1 (List.zipWith lineArray [f, g, k] [a, b, c]).flatten =
        padded f.1 a ∧
      padded g.1 ((List.zipWith lineArray [f, g, k] [a, b, c]).flatten.drop
        f.1) = padded g.1 b ∧
      padded k.1 ((List.zipWith lineArray [f, g, k] [a, b, c]).flatten.drop
        (f.1 + g.1)) = padded k.1 c := by
  have hfilled : forall (p : Nat × Nat) line,
      (lineArray p line).length = p.1 := by
    intro p line
    refine length_array ?_
    rw [List.length_take]
    exact Nat.min_le_left _ _
  have hflat : (List.zipWith lineArray [f, g, k] [a, b, c]).flatten =
      lineArray f a ++ (lineArray g b ++ (lineArray k c ++ [])) := rfl
  have hdrop : (lineArray f a ++ (lineArray g b ++ (lineArray k c ++ []))).drop
      (f.1 + g.1) = lineArray k c ++ [] := by
    rw [← List.append_assoc]
    exact List.drop_left' (by rw [List.length_append, hfilled, hfilled])
  rw [hflat, List.drop_left' (hfilled f a), hdrop]
  exact ⟨padded_lineArray f.2, padded_lineArray g.2, padded_lineArray k.2⟩

theorem rtUpdateOf_lineArrays (a b c : List UInt8) :
    rtUpdateOf (List.zipWith lineArray rtFields [a, b, c]) = typedRt a b c := by
  rcases padded_lineArrays (16, 15) (16, 15) (16, 15) a b c with
    ⟨hfirst, hsecond, hthird⟩
  refine congrArg (RtUpdate.mk rtRouteAdd) ?_
  exact (RtEntry.mk.injEq _ _ _ _ _ _).mpr ⟨hfirst, hsecond, hthird⟩

theorem macUpdateOf_lineArrays (a b c : List UInt8) :
    macUpdateOf (List.zipWith lineArray macFields [a, b, c]) =
      typedMac a b c := by
  rcases padded_lineArrays (16, 15) (48, 48) (16, 15) a b c with
    ⟨hfirst, hsecond, hthird⟩
  refine congrArg (MacUpdate.mk macRouteAdd) ?_
  exact (MacEntry.mk.injEq _ _ _ _ _ _).mpr ⟨hfirst, hsecond, hthird⟩

end Structures

section Sent

variable {a b c rest : List UInt8}

theorem forall_fits_iff (f g k : Nat × Nat) (a b c : List UInt8) :
    List.Forall₂ Fits [f, g, k] [a, b, c] <->
      a.length + 2 ≤ f.2 ∧ b.length + 2 ≤ g.2 ∧ c.length + 2 ≤ k.2 := by
  simp [Fits]

theorem sizes_rtFields : forall field, field ∈ rtFields ->
    2 ≤ field.2 ∧ field.2 ≤ field.1 := by decide

theorem sizes_macFields : forall field, field ∈ macFields ->
    2 ≤ field.2 ∧ field.2 ≤ field.1 := by decide

theorem isLine_three (ha : IsLine a) (hb : IsLine b) (hc : IsLine c) :
    forall line, line ∈ [a, b, c] -> IsLine line := by
  intro line hmem
  rcases List.mem_cons.mp hmem with rfl | hmem
  · exact ha
  rcases List.mem_cons.mp hmem with rfl | hmem
  · exact hb
  rcases List.mem_singleton.mp hmem with rfl
  exact hc

theorem prompts_rt_iff {request : RtUpdate -> Request}
    (hinj : Function.Injective request) (first : UInt8)
    (rest : List UInt8) (ha : IsLine a) (hb : IsLine b) (hc : IsLine c) :
    prompts rtFields (fun fields => request (rtUpdateOf fields))
        (first :: (typed [a, b, c] ++ rest)) =
          .ok (request (typedRt a b c), rest) <->
      a.length ≤ 13 ∧ b.length ≤ 13 ∧ c.length ≤ 13 := by
  have hprompts : prompts rtFields (fun fields => request (rtUpdateOf fields))
      (first :: (typed [a, b, c] ++ rest)) = .ok (request (rtUpdateOf
        (List.zipWith lineArray rtFields [a, b, c])), rest) <->
      List.Forall₂ Fits rtFields [a, b, c] :=
    prompts_eq_iff first
      (fun _ _ h h' hsame => rtUpdateOf_inj h h' (hinj hsame))
      sizes_rtFields (isLine_three ha hb hc) rfl
  rw [rtUpdateOf_lineArrays] at hprompts
  refine hprompts.trans ((forall_fits_iff _ _ _ a b c).trans ?_)
  show a.length + 2 ≤ 15 ∧ b.length + 2 ≤ 15 ∧ c.length + 2 ≤ 15 <-> _
  lia

theorem prompts_mac_iff {request : MacUpdate -> Request}
    (hinj : Function.Injective request) (first : UInt8)
    (rest : List UInt8) (ha : IsLine a) (hb : IsLine b) (hc : IsLine c) :
    prompts macFields (fun fields => request (macUpdateOf fields))
        (first :: (typed [a, b, c] ++ rest)) =
          .ok (request (typedMac a b c), rest) <->
      a.length ≤ 13 ∧ b.length ≤ 46 ∧ c.length ≤ 13 := by
  have hprompts : prompts macFields (fun fields => request (macUpdateOf fields))
      (first :: (typed [a, b, c] ++ rest)) = .ok (request (macUpdateOf
        (List.zipWith lineArray macFields [a, b, c])), rest) <->
      List.Forall₂ Fits macFields [a, b, c] :=
    prompts_eq_iff first
      (fun _ _ h h' hsame => macUpdateOf_inj h h' (hinj hsame))
      sizes_macFields (isLine_three ha hb hc) rfl
  rw [macUpdateOf_lineArrays] at hprompts
  refine hprompts.trans ((forall_fits_iff _ _ _ a b c).trans ?_)
  show a.length + 2 ≤ 15 ∧ b.length + 2 ≤ 48 ∧ c.length + 2 ≤ 15 <-> _
  lia

/-- The route goes to the kernel as it is typed, and the next command begins
behind its lines, exactly if the strings have at most 13 characters, a MAC
address 46.  A longer string is cut, and its rest answers the next prompt. -/
theorem sent_as_typed_iff (command : Command) (first : UInt8) (ha : IsLine a)
    (hb : IsLine b) (hc : IsLine c) :
    command.run (first :: (typed [a, b, c] ++ rest)) =
        .ok (command.request a b c, rest) <->
      a.length ≤ 13 ∧ b.length ≤ command.middle ∧ c.length ≤ 13 := by
  cases command with
  | rtWrite =>
      exact prompts_rt_iff (fun _ _ => Request.writeRt.inj) first rest ha hb hc
  | ioctlAddRtRoute =>
      exact prompts_rt_iff (fun _ _ => Request.commonUpdateRt.inj) first rest ha
        hb hc
  | macWrite =>
      exact prompts_mac_iff (fun _ _ => Request.writeMac.inj) first rest ha hb hc
  | ioctlAddMacRoute =>
      exact prompts_mac_iff (fun _ _ => Request.commonUpdateMac.inj) first rest
        ha hb hc

theorem sent_as_typed_iff_long :
    Command.rtWrite.run (newline :: (typed
      [List.replicate 14 0x31, [0x32], [0x65]] ++ [0x37])) ≠
        .ok (Command.rtWrite.request (List.replicate 14 0x31) [0x32] [0x65],
          [0x37]) := by
  intro h
  have hfits := (sent_as_typed_iff .rtWrite newline
    ⟨by decide, by decide⟩ ⟨by decide, by decide⟩ ⟨by decide, by decide⟩).mp h
  exact absurd hfits.left (by decide)

end Sent

end DrTest
end RIBDriver
