import Mathlib.Data.List.Basic
import Mathlib.Logic.Function.Iterate

/-!
# Stream ciphers

A `Keystream` gives one byte after the other, and a text is encrypted by
combining each of its bytes with the next byte of the keystream.  Decrypting is
the same with a keystream that stands where the other one stood.

* `crypt_append` — a text may be encrypted in pieces.
* `crypt_crypt` — what is encrypted twice is the text again.
-/

namespace Dirtsand.Lib

structure Keystream (κ : Type) where
  next : κ → UInt8 × κ

namespace Keystream

variable {κ : Type} (g : Keystream κ)

def crypt (k : κ) : List UInt8 → List UInt8
  | [] => []
  | b :: bytes => (b ^^^ (g.next k).1) :: crypt (g.next k).2 bytes

/-- Where the keystream stands behind `n` bytes. -/
def skip (k : κ) (n : Nat) : κ := (fun k => (g.next k).2)^[n] k

@[simp] theorem crypt_nil (k : κ) : g.crypt k [] = [] := rfl

@[simp] theorem skip_zero (k : κ) : g.skip k 0 = k := rfl

theorem skip_succ (k : κ) (n : Nat) : g.skip k (n + 1) = g.skip (g.next k).2 n := rfl

@[simp] theorem length_crypt (k : κ) (bytes : List UInt8) :
    (g.crypt k bytes).length = bytes.length := by
  induction bytes generalizing k with
  | nil => rfl
  | cons b bytes ih => rw [crypt, List.length_cons, List.length_cons, ih]

/-- **In pieces.** -/
theorem crypt_append (k : κ) (bytes bytes' : List UInt8) :
    g.crypt k (bytes ++ bytes') = g.crypt k bytes ++ g.crypt (g.skip k bytes.length) bytes' := by
  induction bytes generalizing k with
  | nil => rfl
  | cons b bytes ih => rw [List.cons_append, crypt, crypt, ih, List.cons_append, List.length_cons,
      skip_succ]

theorem crypt_take (k : κ) (bytes : List UInt8) (n : Nat) :
    (g.crypt k bytes).take n = g.crypt k (bytes.take n) := by
  induction bytes generalizing k n with
  | nil => simp only [crypt_nil, List.take_nil]
  | cons b bytes ih =>
    cases n with
    | zero => rfl
    | succ n => rw [crypt, List.take_succ_cons, List.take_succ_cons, crypt, ih]

theorem crypt_drop (k : κ) (bytes : List UInt8) (n : Nat) :
    (g.crypt k bytes).drop n = g.crypt (g.skip k n) (bytes.drop n) := by
  induction bytes generalizing k n with
  | nil => simp only [crypt_nil, List.drop_nil]
  | cons b bytes ih =>
    cases n with
    | zero => rfl
    | succ n => rw [crypt, List.drop_succ_cons, List.drop_succ_cons, ih, skip_succ]

/-- **Encrypting undoes itself.** -/
@[simp] theorem crypt_crypt (k : κ) (bytes : List UInt8) : g.crypt k (g.crypt k bytes) = bytes := by
  induction bytes generalizing k with
  | nil => rfl
  | cons b bytes ih => rw [crypt, crypt, ih, UInt8.xor_assoc, UInt8.xor_self, UInt8.xor_zero]

end Keystream

end Dirtsand.Lib
