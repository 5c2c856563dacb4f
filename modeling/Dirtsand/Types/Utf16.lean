import Dirtsand.Streams
import Mathlib

/-!
# UTF-16

`ST::string::to_utf16` and `ST::string::from_utf16`, and the memory of a buffer of
`char16_t`.

* `decodes_decodeUtf16` — a decoder of what is written.
-/

namespace Dirtsand.Vault

open Streams (writeU16)

/-! ## Units -/

/-- The units of a character. -/
def utf16Units (c : Char) : List UInt16 :=
  if c.toNat < 0x10000 then [UInt16.ofNat c.toNat]
  else
    [UInt16.ofNat (0xD800 + (c.toNat - 0x10000) / 0x400),
      UInt16.ofNat (0xDC00 + (c.toNat - 0x10000) % 0x400)]

/-- `ST::string::to_utf16`. -/
def toUtf16 (s : String) : List UInt16 := s.toList.flatMap utf16Units

/-- What `ST::string::from_utf16` does with `ST::substitute_invalid`: it decodes
UTF-16, and puts one `U+FFFD` for each unit that belongs to no character. -/
structure Decodes (fromUtf16 : List UInt16 → String) : Prop where
  valid : ∀ s, fromUtf16 (toUtf16 s) = s
  substituted : ∀ units, (toUtf16 (fromUtf16 units)).length ≤ units.length

def isSurrogate (u : UInt16) : Bool := 0xD800 ≤ u.toNat && u.toNat < 0xE000

/-- A decoder as `Decodes` has it. -/
def decodeUnits : List UInt16 → List Char
  | [] => []
  | [u] => [if isSurrogate u then '\uFFFD' else Char.ofNat u.toNat]
  | u :: v :: units =>
    if 0xD800 ≤ u.toNat ∧ u.toNat < 0xDC00 ∧ 0xDC00 ≤ v.toNat ∧ v.toNat < 0xE000 then
      Char.ofNat (0x10000 + (u.toNat - 0xD800) * 0x400 + (v.toNat - 0xDC00)) :: decodeUnits units
    else (if isSurrogate u then '\uFFFD' else Char.ofNat u.toNat) :: decodeUnits (v :: units)

def decodeUtf16 (units : List UInt16) : String := String.ofList (decodeUnits units)

theorem decodeUnits_cons {u : UInt16} (hu : isSurrogate u = false) (units : List UInt16) :
    decodeUnits (u :: units) = Char.ofNat u.toNat :: decodeUnits units := by
  cases units with
  | nil =>
    show [if isSurrogate u then '\uFFFD' else Char.ofNat u.toNat] = _
    rw [hu]
    rfl
  | cons v units =>
    have hpair : ¬ (0xD800 ≤ u.toNat ∧ u.toNat < 0xDC00 ∧ 0xDC00 ≤ v.toNat ∧ v.toNat < 0xE000) := by
      rintro ⟨hlow, hhigh, -⟩
      rw [isSurrogate, Bool.and_eq_false_iff, decide_eq_false_iff_not, decide_eq_false_iff_not] at hu
      omega
    rw [decodeUnits, if_neg hpair, hu]
    rfl

theorem decodeUnits_utf16Units (c : Char) (units : List UInt16) :
    decodeUnits (utf16Units c ++ units) = c :: decodeUnits units := by
  have hvalid : c.toNat < 0xD800 ∨ 0xDFFF < c.toNat ∧ c.toNat < 0x110000 := c.valid
  rw [utf16Units]
  split
  · rename_i hbmp
    have hunit : (UInt16.ofNat c.toNat).toNat = c.toNat := UInt16.toNat_ofNat_of_lt' hbmp
    have hplain : isSurrogate (UInt16.ofNat c.toNat) = false := by
      rw [isSurrogate, hunit, Bool.and_eq_false_iff, decide_eq_false_iff_not,
        decide_eq_false_iff_not]
      omega
    rw [List.singleton_append, decodeUnits_cons hplain, hunit, Char.ofNat_toNat]
  · rename_i hpair
    have hhigh : (UInt16.ofNat (0xD800 + (c.toNat - 0x10000) / 0x400)).toNat =
        0xD800 + (c.toNat - 0x10000) / 0x400 :=
      UInt16.toNat_ofNat_of_lt' (show _ < 65536 by omega)
    have hlow : (UInt16.ofNat (0xDC00 + (c.toNat - 0x10000) % 0x400)).toNat =
        0xDC00 + (c.toNat - 0x10000) % 0x400 :=
      UInt16.toNat_ofNat_of_lt' (show _ < 65536 by omega)
    have hcode : 0x10000 + (0xD800 + (c.toNat - 0x10000) / 0x400 - 0xD800) * 0x400 +
        (0xDC00 + (c.toNat - 0x10000) % 0x400 - 0xDC00) = c.toNat := by
      omega
    show decodeUnits (_ :: _ :: units) = _
    rw [decodeUnits, hhigh, hlow, if_pos (by omega), hcode, Char.ofNat_toNat]

theorem length_utf16Units_le (c : Char) : (utf16Units c).length ≤ 2 := by
  rw [utf16Units]
  split
  · exact Nat.le_succ 1
  · exact le_refl 2

theorem length_utf16Units_unit (u : UInt16) :
    (utf16Units (if isSurrogate u then '\uFFFD' else Char.ofNat u.toNat)).length = 1 := by
  have hsmall : (if isSurrogate u then '\uFFFD' else Char.ofNat u.toNat).toNat < 0x10000 := by
    split
    · decide
    · rw [Char.toNat_ofNat]
      split
      · exact u.toNat_lt
      · decide
  rw [utf16Units, if_pos hsmall]
  rfl

theorem decodes_decodeUtf16 : Decodes decodeUtf16 where
  valid s := by
    have hchars : ∀ cs : List Char, decodeUnits (cs.flatMap utf16Units) = cs := by
      intro cs
      induction cs with
      | nil => rfl
      | cons c cs ih => rw [List.flatMap_cons, decodeUnits_utf16Units, ih]
    rw [decodeUtf16, toUtf16, hchars, String.ofList_toList]
  substituted units := by
    rw [toUtf16, decodeUtf16, String.toList_ofList]
    induction units using decodeUnits.induct with
    | case1 => exact le_refl 0
    | case2 u =>
      rw [decodeUnits, List.flatMap_cons, List.length_append, length_utf16Units_unit]
      exact le_refl 1
    | case3 u v units hpair ih =>
      rw [decodeUnits, if_pos hpair, List.flatMap_cons, List.length_append, List.length_cons,
        List.length_cons]
      have hle := length_utf16Units_le
        (Char.ofNat (0x10000 + (u.toNat - 0xD800) * 0x400 + (v.toNat - 0xDC00)))
      omega
    | case4 u v units hpair ih =>
      rw [decodeUnits, if_neg hpair, List.flatMap_cons, List.length_append,
        length_utf16Units_unit, List.length_cons]
      omega

/-! ## Memory -/

/-- The memory of a buffer of `char16_t`. -/
def bytesOfUnits (units : List UInt16) : List UInt8 := units.flatMap writeU16

def unitsOfBytes : List UInt8 → List UInt16
  | a :: b :: bytes => UInt16.ofNat (a.toNat + 256 * b.toNat) :: unitsOfBytes bytes
  | _ => []

theorem toUtf16_push_nul (s : String) : toUtf16 (s.push '\x00') = toUtf16 s ++ [0] := by
  rw [toUtf16, String.toList_push, List.flatMap_append]
  rfl

theorem length_bytesOfUnits (units : List UInt16) :
    (bytesOfUnits units).length = units.length * 2 := by
  induction units with
  | nil => rfl
  | cons u units ih =>
    rw [bytesOfUnits, List.flatMap_cons, List.length_append, ← bytesOfUnits, ih, List.length_cons,
      writeU16, Lib.Reader.length_leBytes]
    omega

theorem unitsOfBytes_bytesOfUnits (units : List UInt16) :
    unitsOfBytes (bytesOfUnits units) = units := by
  induction units with
  | nil => rfl
  | cons u units ih =>
    have hlow : (UInt8.ofNat u.toNat).toNat = u.toNat % 256 := rfl
    have hhigh : (UInt8.ofNat (u.toNat / 256)).toNat = u.toNat / 256 % 256 := rfl
    have hu := u.toNat_lt
    have hunit : UInt16.ofNat ((UInt8.ofNat u.toNat).toNat +
        256 * (UInt8.ofNat (u.toNat / 256)).toNat) = u := by
      rw [hlow, hhigh, ← UInt16.toNat_inj, UInt16.toNat_ofNat_of_lt' (show _ < 65536 by omega)]
      omega
    show UInt16.ofNat _ :: unitsOfBytes (bytesOfUnits units) = _
    rw [ih, hunit]

theorem length_unitsOfBytes (bytes : List UInt8) :
    (unitsOfBytes bytes).length = bytes.length / 2 := by
  induction bytes using unitsOfBytes.induct with
  | case1 a b bytes ih =>
    rw [unitsOfBytes, List.length_cons, ih, List.length_cons, List.length_cons]
    omega
  | case2 bytes h =>
    match bytes, h with
    | [], _ => rfl
    | [_], _ => simp [unitsOfBytes]
    | a :: b :: bytes, h => exact absurd rfl (h a b bytes)

end Dirtsand.Vault
