import Mathlib.Logic.Function.Basic

/-!
# Partial maps

A table of records is a function into `Option`.  These lemmas say what is found
in a table after one entry was set, and after all entries were mapped.
-/

namespace Dirtsand.Lib

variable {α β : Type} [DecidableEq α] {f : α → Option β} {a x : α} {b y : β}

theorem update_eq_some (h : Function.update f a (some b) x = some y) :
    (x = a ∧ y = b) ∨ (x ≠ a ∧ f x = some y) := by
  by_cases hx : x = a
  · subst hx
    rw [Function.update_self] at h
    exact .inl ⟨rfl, (Option.some.inj h).symm⟩
  · rw [Function.update_of_ne hx] at h
    exact .inr ⟨hx, h⟩

theorem update_eq_none (h : Function.update f a (some b) x = none) : x ≠ a ∧ f x = none := by
  by_cases hx : x = a
  · subst hx
    rw [Function.update_self] at h
    cases h
  · rw [Function.update_of_ne hx] at h
    exact ⟨hx, h⟩

/-- An entry that is there stays apart from a fresh key. -/
theorem update_of_some (hfresh : f a = none) (hy : f x = some y) (b : β) :
    Function.update f a (some b) x = some y := by
  have hne : x ≠ a := by
    rintro rfl
    rw [hfresh] at hy
    cases hy
  rw [Function.update_of_ne hne, hy]

end Dirtsand.Lib
