import Mathlib.Data.List.Basic
import Mathlib.Tactic

/-!
# Encodings of text

An encoding writes each character as a few units.  A decoder reads the characters
back, and puts what it likes for units that are no character, but no more characters
than there are units.

* `Decodes.encode` — a text is decoded from its units.
* `Decodes.cut_ne` — if more than a few units of a text are cut off, what is decoded
  is another text.
-/

namespace Dirtsand.Lib

variable {υ : Type} {units : Char → List υ} {decode : List υ → List Char}

structure Decodes (units : Char → List υ) (decode : List υ → List Char) : Prop where
  whole : ∀ c us, decode (units c ++ us) = c :: decode us
  length_le : ∀ us, (decode us).length ≤ us.length

theorem length_encode_le {w : Nat} (hwidth : ∀ c, (units c).length ≤ w) (cs : List Char) :
    (cs.flatMap units).length ≤ w * cs.length := by
  induction cs with
  | nil => simp
  | cons c cs ih =>
    have hc := hwidth c
    rw [List.flatMap_cons, List.length_append, List.length_cons, Nat.mul_succ]
    omega

/-- The first units of a text are some of its characters, and less than one more. -/
theorem take_encode {w : Nat} (hw : 0 < w) (hwidth : ∀ c, (units c).length ≤ w)
    (cs : List Char) (k : Nat) : ∃ p rest us, cs = p ++ rest ∧
      (cs.flatMap units).take k = p.flatMap units ++ us ∧ us.length < w := by
  induction cs generalizing k with
  | nil => exact ⟨[], [], [], rfl, by simp, hw⟩
  | cons c cs ih =>
    by_cases hk : (units c).length ≤ k
    · obtain ⟨p, rest, us, hcs, htake, hus⟩ := ih (k - (units c).length)
      refine ⟨c :: p, rest, us, by rw [hcs, List.cons_append], ?_, hus⟩
      rw [List.flatMap_cons, List.take_append, List.take_of_length_le hk, htake,
        List.flatMap_cons, List.append_assoc]
    · have hc := hwidth c
      refine ⟨[], c :: cs, ((c :: cs).flatMap units).take k, rfl, by simp, ?_⟩
      have hle := List.length_take_le k ((c :: cs).flatMap units)
      omega

namespace Decodes

theorem nil (h : Decodes units decode) : decode [] = [] := by
  have hle := h.length_le []
  simpa using hle

theorem encode_append (h : Decodes units decode) (cs : List Char) (us : List υ) :
    decode (cs.flatMap units ++ us) = cs ++ decode us := by
  induction cs with
  | nil => rfl
  | cons c cs ih => rw [List.flatMap_cons, List.append_assoc, h.whole, ih, List.cons_append]

theorem encode (h : Decodes units decode) (cs : List Char) : decode (cs.flatMap units) = cs := by
  have happend := h.encode_append cs []
  rwa [List.append_nil, h.nil, List.append_nil] at happend

/-- **A text that is cut off is another text.** -/
theorem cut_ne (h : Decodes units decode) {w : Nat} (hw : 0 < w)
    (hwidth : ∀ c, (units c).length ≤ w) {cs : List Char} {k : Nat}
    (hcut : k + w * w < (cs.flatMap units).length) : decode ((cs.flatMap units).take k) ≠ cs := by
  intro heq
  obtain ⟨p, rest, us, hcs, htake, hus⟩ := take_encode hw hwidth cs k
  have hlen := congrArg List.length htake
  rw [List.length_take, List.length_append] at hlen
  rw [htake, h.encode_append, hcs, List.append_cancel_left_eq] at heq
  -- What is missing is decoded from less than `w` units.
  have hrest : rest.length < w := by
    rw [← heq]
    exact lt_of_le_of_lt (h.length_le us) hus
  have hunits := length_encode_le hwidth rest
  have hmul : w * rest.length ≤ w * w := Nat.mul_le_mul_left w hrest.le
  rw [hcs, List.flatMap_append, List.length_append] at hcut hlen
  omega

/-- The first unit of a text tells its first character, where a character has that unit alone. -/
theorem first_unit (h : Decodes units decode) {c : Char} {u : υ} (hc : units c = [u])
    {us : List υ} {cs : List Char} (heq : decode (u :: us) = cs) :
    ∃ cs', cs = c :: cs' := by
  refine ⟨decode us, ?_⟩
  rw [← heq, ← h.whole, hc, List.singleton_append]

end Decodes

end Dirtsand.Lib
