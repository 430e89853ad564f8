import Mathlib.Data.List.Basic

/-!
# Lines and terminated strings

A reader with room for `n` characters takes a line up to and with its end, or
`n` characters of it.  A string in memory ends before the first terminator.
-/

namespace RIBDriver
namespace Strings

variable {char : Type _} [DecidableEq char]

/-- What a reader with room for `n` characters takes, and what it leaves. -/
def splitLine (stop : char) : Nat -> List char -> List char × List char
  | 0, input => ([], input)
  | _ + 1, [] => ([], [])
  | n + 1, c :: rest =>
      if c = stop then ([c], rest)
      else (c :: (splitLine stop n rest).1, (splitLine stop n rest).2)

def string (nul : char) (memory : List char) : List char :=
  memory.takeWhile (· != nul)

section Lines

variable {stop : char}

theorem splitLine_of_fits {line rest : List char} {n : Nat}
    (hline : stop ∉ line) (hfits : line.length < n) :
    splitLine stop n (line ++ stop :: rest) = (line ++ [stop], rest) := by
  induction line generalizing n with
  | nil =>
      cases n with
      | zero => cases hfits
      | succ n => exact if_pos rfl
  | cons c line ih =>
      cases n with
      | zero => cases hfits
      | succ n =>
          have hc : c ≠ stop := ne_of_mem_of_not_mem List.mem_cons_self hline
          have hrest := ih (fun hmem => hline (List.mem_cons_of_mem c hmem))
            (Nat.lt_of_succ_lt_succ hfits)
          rw [List.cons_append, splitLine, if_neg hc, hrest]
          rfl

theorem splitLine_of_long {line rest : List char} {n : Nat}
    (hline : stop ∉ line) (hlong : n ≤ line.length) :
    splitLine stop n (line ++ rest) = (line.take n, line.drop n ++ rest) := by
  induction line generalizing n with
  | nil =>
      cases Nat.le_zero.mp hlong
      rfl
  | cons c line ih =>
      cases n with
      | zero => rfl
      | succ n =>
          have hc : c ≠ stop := ne_of_mem_of_not_mem List.mem_cons_self hline
          have hrest := ih (fun hmem => hline (List.mem_cons_of_mem c hmem))
            (Nat.le_of_succ_le_succ hlong)
          rw [List.cons_append, splitLine, if_neg hc, hrest]
          rfl

end Lines

section Terminated

variable {nul : char} {s : List char}

theorem string_append (hs : nul ∉ s) (rest : List char) :
    string nul (s ++ nul :: rest) = s := by
  unfold string
  rw [List.takeWhile_append_of_pos]
  · simp
  · intro c hc
    simpa using ne_of_mem_of_not_mem hc hs

theorem string_append_replicate (hs : nul ∉ s) (n : Nat) :
    string nul (s ++ List.replicate n nul) = s := by
  unfold string
  rw [List.takeWhile_append_of_pos]
  · simp
  · intro c hc
    simpa using ne_of_mem_of_not_mem hc hs

end Terminated

end Strings
end RIBDriver
