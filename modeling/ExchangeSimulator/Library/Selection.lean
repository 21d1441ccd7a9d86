import Mathlib.Order.Defs.Unbundled

/-!
# The first of the best

Among the elements of a list, those with the best key under a strict total order,
and of these the one that stands first. The choice is determined by two facts: no
key of the list is better, and no element before it has the same key.
-/

namespace Library

variable {α κ : Type} (key : α → κ) (before : κ → κ → Prop) [DecidableRel before]

/-- The first element with the best key. -/
def firstBest : List α → Option α
  | [] => none
  | first :: rest =>
    match firstBest rest with
    | none => some first
    | some other => if before (key other) (key first) then some other else some first

/-- Only an empty list has none. -/
theorem firstBest_eq_none {list : List α} : firstBest key before list = none ↔ list = [] := by
  cases list with
  | nil => exact iff_of_true rfl rfl
  | cons first rest =>
    refine iff_of_false ?_ (by simp)
    simp only [firstBest]
    split
    · simp
    · split <;> simp

variable [IsStrictTotalOrder κ before] [DecidableEq κ]

/-- What the choice is: an element that no key of the list beats, and the first with its key. -/
theorem firstBest_spec {list : List α} {best : α} (chosen : firstBest key before list = some best) :
    (∀ other ∈ list, ¬before (key other) (key best)) ∧
      (list.filter fun other => key other = key best).head? = some best := by
  induction list generalizing best with
  | nil => contradiction
  | cons first rest ih =>
    simp only [firstBest] at chosen
    split at chosen
    · rename_i none
      cases chosen
      rw [firstBest_eq_none] at none
      subst none
      refine ⟨?_, by simp⟩
      intro other member
      rw [List.mem_singleton] at member
      rw [member]
      exact irrefl_of before _
    · rename_i later found
      obtain ⟨minimal, heads⟩ := ih found
      split at chosen
      · rename_i better
        cases chosen
        refine ⟨?_, ?_⟩
        · intro other member
          rcases List.mem_cons.mp member with rfl | member
          · exact asymm_of before better
          · exact minimal other member
        · rw [List.filter_cons_of_neg, heads]
          intro same
          rw [decide_eq_true_eq] at same
          rw [same] at better
          exact irrefl_of before _ better
      · rename_i notBetter
        cases chosen
        refine ⟨?_, ?_⟩
        · intro other member
          rcases List.mem_cons.mp member with rfl | member
          · exact irrefl_of before _
          · intro earlier
            rcases trichotomous_of before (key later) (key first) with less | same | more
            · exact notBetter less
            · rw [← same] at earlier
              exact minimal other member earlier
            · exact minimal other member (trans_of before earlier more)
        · rw [List.filter_cons_of_pos (by simp), List.head?_cons]

/-- An element that no key of the list beats, and the first with its key, is chosen. -/
theorem firstBest_of {list : List α} {best : α}
    (minimal : ∀ other ∈ list, ¬before (key other) (key best))
    (heads : (list.filter fun other => key other = key best).head? = some best) :
    firstBest key before list = some best := by
  cases chosen : firstBest key before list with
  | none =>
    rw [firstBest_eq_none] at chosen
    subst chosen
    contradiction
  | some other =>
    obtain ⟨otherMinimal, otherHeads⟩ := firstBest_spec key before chosen
    have member : best ∈ list := (List.mem_filter.mp (List.mem_of_mem_head? heads)).1
    have otherMember : other ∈ list := (List.mem_filter.mp (List.mem_of_mem_head? otherHeads)).1
    have same : key other = key best := by
      rcases trichotomous_of before (key other) (key best) with less | same | more
      · exact absurd less (minimal other otherMember)
      · exact same
      · exact absurd more (otherMinimal best member)
    rw [same, heads] at otherHeads
    exact otherHeads.symm

end Library
