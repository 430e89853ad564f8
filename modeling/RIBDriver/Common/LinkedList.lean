/-!
# Singly linked lists by their payloads

The operations of `LinkedListApi.c` the driver uses, on the sequence of
payloads of a list, head first: a new node goes to the head and a deletion
takes the first node whose payload matches.
-/

namespace RIBDriver

variable {alpha : Type _}

def singlyLlAddNodeByVal (ll : List alpha) (data : alpha) : List alpha :=
  data :: ll

def getNodeCountSinglyLl (ll : List alpha) : Nat := ll.length

def isSinglyLlEmpty (ll : List alpha) : Bool := getNodeCountSinglyLl ll == 0

def deleteSinglyLl (_ll : List alpha) : List alpha := []

section Search

variable [DecidableEq alpha]

def singlyLlIsValuePresent (ll : List alpha) (data : alpha) : Bool :=
  decide (data ∈ ll)

/-- The list left; the C function also returns the number of nodes deleted. -/
def singlyLlDeleteNodeByValue (ll : List alpha) (key : alpha) : List alpha :=
  ll.erase key

end Search

theorem isSinglyLlEmpty_iff {ll : List alpha} :
    isSinglyLlEmpty ll = true <-> ll = [] := by
  simp [isSinglyLlEmpty, getNodeCountSinglyLl]

section Matching

variable [DecidableEq alpha] {matching : alpha -> Bool} {ll : List alpha}
variable {key : alpha}

theorem eraseP_eq_singlyLlDeleteNodeByValue
    (h : forall x, x ∈ ll -> (matching x = true <-> x = key)) :
    ll.eraseP matching = singlyLlDeleteNodeByValue ll key := by
  induction ll with
  | nil => rfl
  | cons x rest ih =>
      have hrest := ih fun y hy => h y (List.mem_cons_of_mem _ hy)
      have hhead := h x List.mem_cons_self
      rw [singlyLlDeleteNodeByValue] at hrest ⊢
      rw [List.eraseP_cons, List.erase_cons, hrest]
      by_cases hsame : x = key
      · rw [hhead.mpr hsame]
        simp [hsame]
      · rw [Bool.eq_false_iff.mpr fun hmatching => hsame (hhead.mp hmatching)]
        simp [hsame]

theorem find_isSome_eq_singlyLlIsValuePresent
    (h : forall x, x ∈ ll -> (matching x = true <-> x = key)) :
    (ll.find? matching).isSome = singlyLlIsValuePresent ll key := by
  rw [singlyLlIsValuePresent, Bool.eq_iff_iff, List.find?_isSome,
    decide_eq_true_iff]
  constructor
  · rintro ⟨x, hmem, hmatching⟩
    rw [← (h x hmem).mp hmatching]
    exact hmem
  · intro hmem
    exact ⟨key, hmem, (h key hmem).mpr rfl⟩

end Matching

end RIBDriver
