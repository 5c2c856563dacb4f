import Mathlib.Data.List.Basic
import Mathlib.Tactic

/-!
# Arrays that are accessed in place

An array is a list of the length that it was allocated with.  What is put outside
of it is not put anywhere.  A counting loop runs a body for one number after the
other.

* `put_eq` — what is put is in its place, and nothing else has changed.
* `loop_rule` — what the body of a loop keeps holds at its end.
-/

namespace Dirtsand.Lib

variable {α σ : Type}

/-- Write the elements from place `i` on. -/
def put (a : List α) (i : Nat) (vs : List α) : Option (List α) :=
  if a.length < i + vs.length then none
  else some (a.take i ++ vs ++ a.drop (i + vs.length))

/-- Read `n` elements from place `i` on. -/
def slice (a : List α) (i n : Nat) : Option (List α) :=
  if a.length < i + n then none else some ((a.drop i).take n)

theorem put_eq {a vs : List α} {i : Nat} (h : i + vs.length ≤ a.length) :
    ∃ b, put a i vs = some b ∧ b.length = a.length ∧
      ∀ j, b[j]? = if i ≤ j ∧ j < i + vs.length then vs[j - i]? else a[j]? := by
  refine ⟨a.take i ++ vs ++ a.drop (i + vs.length), if_neg (not_lt.2 h), ?_, fun j => ?_⟩
  · rw [List.length_append, List.length_append, List.length_take, List.length_drop]
    omega
  · have htake : (a.take i).length = i := by
      rw [List.length_take]
      omega
    have hhead : (a.take i ++ vs).length = i + vs.length := by
      rw [List.length_append, htake]
    by_cases hlo : j < i
    · rw [if_neg (by omega), List.getElem?_append_left (by omega),
        List.getElem?_append_left (by omega), List.getElem?_take_of_lt hlo]
    · by_cases hhi : j < i + vs.length
      · rw [if_pos ⟨not_lt.1 hlo, hhi⟩, List.getElem?_append_left (by omega),
          List.getElem?_append_right (by omega), htake]
      · rw [if_neg (by omega), List.getElem?_append_right (by omega), hhead, List.getElem?_drop]
        congr 1
        omega

/-- What stands in the middle is replaced by as much. -/
theorem put_middle (head : List α) {old tail vs : List α} (h : vs.length = old.length) :
    put (head ++ (old ++ tail)) head.length vs = some (head ++ (vs ++ tail)) := by
  have hlen : (head ++ (old ++ tail)).length = head.length + (old.length + tail.length) := by
    rw [List.length_append, List.length_append]
  have hdrop : (head ++ (old ++ tail)).drop (head.length + vs.length) = tail := by
    rw [h, ← List.drop_drop, List.drop_left, List.drop_left]
  rw [put, if_neg (by omega), List.take_left, hdrop, List.append_assoc]

/-- `for (i = start; i < start + count; ++i)`. -/
def loop (body : Nat → σ → Option σ) : Nat → Nat → σ → Option σ
  | _, 0, s => some s
  | start, count + 1, s => do
    let s ← body start s
    loop body (start + 1) count s

/-- **What the body keeps holds at the end**, and the body never fails. -/
theorem loop_rule {body : Nat → σ → Option σ} (P : Nat → σ → Prop) {start count : Nat} {s : σ}
    (hbody : ∀ i s, start ≤ i → i < start + count → P i s → ∃ s', body i s = some s' ∧ P (i + 1) s')
    (h : P start s) : ∃ s', loop body start count s = some s' ∧ P (start + count) s' := by
  induction count generalizing start s with
  | zero => exact ⟨s, rfl, h⟩
  | succ count ih =>
    obtain ⟨s₁, hs₁, hP⟩ := hbody start s le_rfl (by omega) h
    obtain ⟨s₂, hs₂, hlast⟩ := ih (fun i s hle hlt => hbody i s (by omega) (by omega)) hP
    refine ⟨s₂, ?_, ?_⟩
    · rw [loop, hs₁]
      exact hs₂
    · rw [Nat.add_succ, ← Nat.succ_add]
      exact hlast

end Dirtsand.Lib
