-- SUMMARY: The pieces of a text between separators.

/-!
# Splitting

`splitAt` cuts a text at every separator. Pieces may be empty, and there is always
one piece more than there are separators.
-/

namespace ApiStubs.Text

variable {α : Type} [DecidableEq α]

def splitAt (separator : α) : List α → List (List α)
  | [] => [[]]
  | c :: cs =>
    if c = separator then [] :: splitAt separator cs
    else match splitAt separator cs with
      | [] => [[c]]
      | piece :: pieces => (c :: piece) :: pieces

theorem splitAt_cons_self (separator : α) (s : List α) :
    splitAt separator (separator :: s) = [] :: splitAt separator s := by
  rw [splitAt, if_pos rfl]

theorem splitAt_cons_of_ne {c separator : α} (hc : c ≠ separator) {s piece : List α}
    {pieces : List (List α)} (h : splitAt separator s = piece :: pieces) :
    splitAt separator (c :: s) = (c :: piece) :: pieces := by
  rw [splitAt, if_neg hc, h]

theorem exists_splitAt (separator : α) (s : List α) :
    ∃ piece pieces, splitAt separator s = piece :: pieces := by
  induction s with
  | nil => exact ⟨[], [], rfl⟩
  | cons c s ih =>
    obtain ⟨piece, pieces, hs⟩ := ih
    by_cases hc : c = separator
    · subst hc
      exact ⟨_, _, splitAt_cons_self c s⟩
    · exact ⟨_, _, splitAt_cons_of_ne hc hs⟩

end ApiStubs.Text
