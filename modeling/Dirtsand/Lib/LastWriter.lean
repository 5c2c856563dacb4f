import Mathlib.Order.Defs.LinearOrder
import Mathlib.Order.MinMax
import Mathlib.Data.Set.Basic
import Mathlib.Tactic.Common

/-!
# The last writer wins

A value has a stamp.  Of two values, `join` takes the second if its stamp is the
later one.

* `joins_latest` — the values of a set, joined in any order and any number of times,
  give the latest of them.
* `Latest.agree` — which is only one, if two values of one stamp are the same.
-/

namespace Dirtsand.Lib.LastWriter

variable {α τ : Type} [LinearOrder τ] (stamp : α → τ)

def join (a b : α) : α := if stamp a < stamp b then b else a

/-- What is left of a value that others are joined to, one after the other. -/
def joins (a : α) (bs : List α) : α := bs.foldl (join stamp) a

/-- The value of a set that was written last. -/
def Latest (s : Set α) (a : α) : Prop := a ∈ s ∧ ∀ b ∈ s, stamp b ≤ stamp a

variable {stamp} {a b : α} {bs : List α} {s : Set α}

theorem join_of_lt (h : stamp a < stamp b) : join stamp a b = b := if_pos h

theorem join_of_le (h : stamp b ≤ stamp a) : join stamp a b = a := if_neg (not_lt.2 h)

theorem join_mem (ha : a ∈ s) (hb : b ∈ s) : join stamp a b ∈ s := by
  rcases lt_or_ge (stamp a) (stamp b) with h | h
  · rw [join_of_lt h]
    exact hb
  · rw [join_of_le h]
    exact ha

theorem stamp_join (stamp : α → τ) (a b : α) : stamp (join stamp a b) = max (stamp a) (stamp b) := by
  rcases lt_or_ge (stamp a) (stamp b) with h | h
  · rw [join_of_lt h, max_eq_right h.le]
  · rw [join_of_le h, max_eq_left h]

theorem joins_mem (ha : a ∈ s) (hbs : ∀ b ∈ bs, b ∈ s) : joins stamp a bs ∈ s := by
  induction bs generalizing a with
  | nil => exact ha
  | cons b bs ih =>
    apply ih (join_mem ha (hbs b List.mem_cons_self))
    intro c hc
    exact hbs c (List.mem_cons_of_mem b hc)

theorem stamp_le_joins (a : α) (bs : List α) : ∀ b ∈ a :: bs, stamp b ≤ stamp (joins stamp a bs) := by
  induction bs generalizing a with
  | nil => simp [joins]
  | cons c bs ih =>
    have hjoin := ih (join stamp a c) _ List.mem_cons_self
    rw [stamp_join stamp a c, max_le_iff] at hjoin
    intro b hb
    rcases List.mem_cons.1 hb with rfl | hb
    · exact hjoin.1
    · rcases List.mem_cons.1 hb with rfl | hb
      · exact hjoin.2
      · exact ih (join stamp a c) b (List.mem_cons_of_mem _ hb)

theorem joins_latest (ha : a ∈ s) (hbs : ∀ b ∈ bs, b ∈ s) (hall : ∀ b ∈ s, b ∈ a :: bs) :
    Latest stamp s (joins stamp a bs) :=
  ⟨joins_mem ha hbs, fun b hb => stamp_le_joins a bs b (hall b hb)⟩

theorem Latest.agree {R : α → α → Prop} (hR : ∀ a ∈ s, ∀ b ∈ s, stamp a = stamp b → R a b)
    (ha : Latest stamp s a) (hb : Latest stamp s b) : R a b :=
  hR a ha.1 b hb.1 (le_antisymm (hb.2 a ha.1) (ha.2 b hb.1))

end Dirtsand.Lib.LastWriter
