import Mathlib.Data.List.TakeWhile
import Dirtsand.PlasMOUL.Key
import Dirtsand.SDL.DescriptorDb

/-!
# Elements of SDL variables

What the arrays of `SDL::Variable` hold, and the cases of `resize`, `read`,
`write`, `setDefault` and `isDefault` for each type of variable
(SDL/StateInfo.cpp).  The creatables of PlasMOUL and the states inside a state
are parameters.

* `Elem.reads` — an element is read as it was written.
* `Elem.same_of_isDefault` — what `isDefault` accepts is what `setDefault` sets,
  keys excepted.
-/

namespace Dirtsand.SDL

open Lib.Reader (Reads Yields)
open Streams (readU8 readU16 readU32 readU64 writeU8 writeU16 writeU32 writeU64)

/-- The time at which so many bytes are left to read. -/
abbrev Clock := Nat → UnifiedTime

/-- Creatables as variables use them. -/
structure Creatables (κ : Type) where
  type : κ → UInt16
  /-- `Factory::Create`, with the `read` of what it creates. -/
  create : UInt16 → Except StreamError (Read κ)
  write : κ → List UInt8

/-- A creatable that is read as it was written. -/
def Creatables.RoundTrips {κ : Type} (C : Creatables κ) (c : κ) : Prop :=
  C.type c ≠ 0x8000 ∧ ∃ obj, C.create (C.type c) = .ok obj ∧ Reads obj (C.write c) c

/-- The `SDL::State`s inside a variable. -/
structure Children (σ : Type) where
  /-- The constructor, with the descriptor that `FindDescriptor(name, -1)` finds. -/
  new : String → Except StreamError σ
  read : Clock → σ → Read σ
  write : σ → List UInt8
  isDirty : σ → Bool
  setDefault : σ → σ
  isDefault : σ → Bool
  update : σ → Except StreamError σ

/-- An element of the array of a variable. -/
@[reducible] def VarType.Elem (κ σ : Type) : VarType → Type
  | .int => UInt32
  | .float => FloatBits
  | .bool => Bool
  | .string => String
  | .key => MOUL.Uoid
  | .stateDesc => σ
  | .creatable => Option κ
  | .double => DoubleBits
  | .time => UnifiedTime
  | .byte => UInt8
  | .short => UInt16
  | .vector3 | .point3 => Vector3
  | .rgb | .rgba => ColorRgba
  | .quaternion => Quaternion
  | .rgb8 | .rgba8 => ColorRgba8
  | .ageTimeOfDay | .invalid => Unit

variable {κ σ : Type}

namespace Elem

/-! ## Arrays -/

/-- `_ref::resize`.  (The alpha of a new `ColorRgba8` is indeterminate.) -/
def resize (S : Children σ) (typeName : String) :
    (t : VarType) → Nat → Except StreamError (List (t.Elem κ σ))
  | .stateDesc, 0 => .ok []
  | .stateDesc, n + 1 =>
    match S.new typeName with
    | .ok child => .ok (List.replicate (n + 1) child)
    | .error e => .error e
  | .int, n => .ok (List.replicate n 0)
  | .float, n => .ok (List.replicate n 0)
  | .bool, n => .ok (List.replicate n false)
  | .string, n => .ok (List.replicate n "")
  | .key, n => .ok (List.replicate n {})
  | .creatable, n => .ok (List.replicate n none)
  | .double, n => .ok (List.replicate n 0)
  | .time, n => .ok (List.replicate n {})
  | .byte, n => .ok (List.replicate n 0)
  | .short, n => .ok (List.replicate n 0)
  | .vector3, n | .point3, n => .ok (List.replicate n {})
  | .rgb, n | .rgba, n => .ok (List.replicate n {})
  | .quaternion, n => .ok (List.replicate n {})
  | .rgb8, n | .rgba8, n => .ok (List.replicate n {})
  | .ageTimeOfDay, n | .invalid, n => .ok (List.replicate n ())

/-! ## Defaults -/

/-- The bits of 1.0f. -/
def oneBits : FloatBits := 0x3F800000

/-- `Variable::setDefault` for one element. -/
def setDefault (S : Children σ) : (t : VarType) → Option t.Default → t.Elem κ σ → t.Elem κ σ
  | .int, d, _ => d.getD 0
  | .float, d, _ => d.getD 0
  | .bool, d, _ => d.getD false
  | .string, d, _ => d.getD ""
  | .key, _, _ => {}
  | .creatable, _, _ => none
  | .double, d, _ => d.getD 0
  | .time, d, _ => d.getD {}
  | .byte, d, _ => (d.getD 0).toUInt8
  | .short, d, _ => (d.getD 0).toUInt16
  | .vector3, d, _ | .point3, d, _ => d.getD ⟨0, 0, 0⟩
  | .quaternion, d, _ => d.getD ⟨0, 0, 0, oneBits⟩
  | .rgb, d, _ | .rgba, d, _ => d.getD ⟨0, 0, 0, oneBits⟩
  | .rgb8, d, _ | .rgba8, d, _ => d.getD ⟨0, 0, 0, 255⟩
  | .stateDesc, _, child => S.setDefault child
  | .ageTimeOfDay, _, e | .invalid, _, e => e

/-- `Variable::isDefault` for one element, with the descriptor's default. -/
def isDefault (S : Children σ) : (t : VarType) → t.Default → t.Elem κ σ → Bool
  | .int, d, e => decide (e = d)
  | .float, d, e => floatEq e d
  | .bool, d, e => decide (e = d)
  | .string, d, e => decide (e = d)
  | .key, _, e => e.isNull
  | .creatable, _, e => e.isNone
  | .double, d, e => doubleEq e d
  | .time, d, e => decide (e = d)
  | .byte, d, e => decide (e.toInt8.toInt = d.toInt32.toInt)
  | .short, d, e => decide (e.toInt16.toInt = d.toInt32.toInt)
  | .vector3, d, e | .point3, d, e => e.eq d
  | .quaternion, d, e => e.eq d
  | .rgb, d, e | .rgba, d, e => e.eq d
  | .rgb8, d, e | .rgba8, d, e => decide (e = d)
  | .stateDesc, _, child => S.isDefault child
  | .ageTimeOfDay, _, _ | .invalid, _, _ => true

/-! ## Reading and writing -/

/-- What `e_VarString` reads.  (`readBytes` may find fewer than 32 bytes left; then
the state ends before its second count, and reading it ends with an exception.) -/
def readString : Read String := do
  let buffer ← Lib.Reader.take .eof 32
  Lib.Reader.ofExcept
    ((String.fromUTF8? (buffer.takeWhile (· ≠ 0)).toByteArray).elim (.error .unicode) .ok)

/-- What `e_VarString` writes: a C string, cut off at 31 bytes. -/
def writeString (s : String) : List UInt8 :=
  let buffer := (s.toByteArray.data.toList.takeWhile (· ≠ 0)).take 31
  buffer ++ List.replicate (32 - buffer.length) 0

/-- What `e_VarCreatable` reads: with type 0x8000 the element stays.  The size is
for a warning. -/
def readCreatable (C : Creatables κ) (old : Option κ) : Read (Option κ) := do
  let type ← readU16
  if type = 0x8000 then pure old
  else
    let obj ← Lib.Reader.ofExcept (C.create type)
    let _ ← readU32
    let c ← obj
    pure (some c)

def writeCreatable (C : Creatables κ) : Option κ → List UInt8
  | none => writeU16 0x8000
  | some c => writeU16 (C.type c) ++ (writeU32 (UInt32.ofNat (C.write c).length) ++ C.write c)

/-- `_ref::read` for one element. -/
def read (C : Creatables κ) : (t : VarType) → t.Elem κ σ → Read (t.Elem κ σ)
  | .int, _ => readU32
  | .float, _ => readU32
  | .bool, _ => Streams.readBool
  | .string, _ => readString
  | .key, _ => MOUL.Uoid.read
  | .creatable, old => readCreatable C old
  | .double, _ => readU64
  | .time, _ => UnifiedTime.read
  | .byte, _ => readU8
  | .short, _ => readU16
  | .vector3, _ | .point3, _ => Vector3.read
  | .quaternion, _ => Quaternion.read
  | .rgb, old => old.readRgb
  | .rgba, _ => ColorRgba.readRgba
  | .rgb8, old => old.readRgb
  | .rgba8, _ => ColorRgba8.readRgba
  | .stateDesc, _ => Lib.Reader.fail .crash
  | .ageTimeOfDay, _ => pure ()
  | .invalid, _ => Lib.Reader.fail .malformedData

/-- `_ref::write` for one element.  No variable has `e_VarInvalid`, which the parser
of descriptors never sets, and nested states are written elsewhere. -/
def write (C : Creatables κ) : (t : VarType) → t.Elem κ σ → List UInt8
  | .int, e => writeU32 e
  | .float, e => writeU32 e
  | .bool, e => Streams.writeBool e
  | .string, e => writeString e
  | .key, e => e.write
  | .creatable, e => writeCreatable C e
  | .double, e => writeU64 e
  | .time, e => e.write
  | .byte, e => writeU8 e
  | .short, e => writeU16 e
  | .vector3, e | .point3, e => e.write
  | .quaternion, e => e.write
  | .rgb, e => e.writeRgb
  | .rgba, e => e.writeRgba
  | .rgb8, e => e.writeRgb
  | .rgba8, e => e.writeRgba
  | .stateDesc, _ | .ageTimeOfDay, _ | .invalid, _ => []

/-! ## The same element -/

/-- The same value, without the alpha that RGB and RGB8 do not store. -/
def Same (R : σ → σ → Prop) : (t : VarType) → t.Elem κ σ → t.Elem κ σ → Prop
  | .int, a, b => a = b
  | .float, a, b => FloatSame a b
  | .bool, a, b => a = b
  | .string, a, b => a = b
  | .key, a, b => a = b
  | .creatable, a, b => a = b
  | .double, a, b => DoubleSame a b
  | .time, a, b => a = b
  | .byte, a, b => a = b
  | .short, a, b => a = b
  | .vector3, a, b | .point3, a, b => a.Same b
  | .quaternion, a, b => a.Same b
  | .rgb, a, b => a.SameRgb b
  | .rgba, a, b => a.SameRgba b
  | .rgb8, a, b => a.SameRgb b
  | .rgba8, a, b => a = b
  | .stateDesc, a, b => R a b
  | .ageTimeOfDay, _, _ | .invalid, _, _ => True

/-! ## What is read of what was written -/

/-- A string that fits the 32 bytes of `e_VarString`. -/
structure Fits (s : String) : Prop where
  short : s.toByteArray.data.toList.length ≤ 31
  noNul : ∀ b ∈ s.toByteArray.data.toList, b ≠ 0

theorem reads_string {s : String} (h : Fits s) : Reads readString (writeString s) s := by
  have hall : s.toByteArray.data.toList.takeWhile (· ≠ 0) = s.toByteArray.data.toList :=
    List.takeWhile_eq_self_iff.2 fun b hb => decide_eq_true (h.noNul b hb)
  have hbuffer : writeString s = s.toByteArray.data.toList ++
      List.replicate (32 - s.toByteArray.data.toList.length) 0 := by
    rw [writeString, hall, List.take_of_length_le h.short]
  have hlen : (writeString s).length = 32 := by
    have hshort := h.short
    rw [hbuffer, List.length_append, List.length_replicate]
    omega
  have hback : ((writeString s).takeWhile (· ≠ 0)).toByteArray = s.toByteArray := by
    have hnul : (List.replicate (32 - s.toByteArray.data.toList.length) (0 : UInt8)).takeWhile
        (· ≠ 0) = [] := by
      rw [List.takeWhile_replicate]
      rfl
    rw [hbuffer, List.takeWhile_append, hall, if_pos rfl, hnul, List.append_nil]
    exact ByteArray.ext (by rw [List.data_toByteArray, Array.toArray_toList])
  refine (Lib.Reader.reads_take StreamError.eof hlen).andThen ?_
  rw [hback, String.fromUTF8?, dif_pos s.isValidUTF8]
  exact .pure s

theorem reads_creatable {C : Creatables κ} {e : Option κ} (h : ∀ c ∈ e, C.RoundTrips c) :
    Reads (readCreatable C none) (writeCreatable C e) e := by
  cases e with
  | none =>
    refine (Streams.reads_u16 _).andThen ?_
    rw [if_pos rfl]
    exact .pure none
  | some c =>
    obtain ⟨htype, obj, hobj, hreads⟩ := h c rfl
    refine (Streams.reads_u16 _).bind ?_
    rw [if_neg htype, hobj]
    refine (Reads.pure obj).after ?_
    refine (Streams.reads_u32 _).bind ?_
    refine hreads.andThen ?_
    exact .pure (some c)

/-- What a blob can hold. -/
def Storable (C : Creatables κ) : (t : VarType) → t.Elem κ σ → Prop
  | .string, e => Fits e
  | .key, e => Streams.Safe e.name
  | .creatable, e => ∀ c ∈ e, C.RoundTrips c
  | .stateDesc, _ | .invalid, _ => False
  | _, _ => True

/-- An element that reading replaces: a null creatable would stay. -/
def Replaced : (t : VarType) → t.Elem κ σ → Prop
  | .creatable, old => old = none
  | _, _ => True

/-- **An element is read as it was written.** -/
theorem reads {C : Creatables κ} {R : σ → σ → Prop} {t : VarType} {old e : t.Elem κ σ}
    (hold : Replaced t old) (h : Storable C t e) :
    ∃ e', Reads (read C t old) (write C t e) e' ∧ Same R t e e' := by
  cases t with
  | int => exact ⟨e, Streams.reads_u32 e, rfl⟩
  | float => exact ⟨e, Streams.reads_u32 e, .refl e⟩
  | bool => exact ⟨e, Streams.reads_bool e, rfl⟩
  | string => exact ⟨e, reads_string h, rfl⟩
  | key => exact ⟨e, MOUL.Uoid.reads h, rfl⟩
  | stateDesc => exact absurd h id
  | creatable =>
    obtain rfl : old = none := hold
    exact ⟨e, reads_creatable h, rfl⟩
  | double => exact ⟨e, Streams.reads_u64 e, .refl e⟩
  | time => exact ⟨e, UnifiedTime.reads e, rfl⟩
  | byte => exact ⟨e, Streams.reads_u8 e, rfl⟩
  | short => exact ⟨e, Streams.reads_u16 e, rfl⟩
  | ageTimeOfDay => exact ⟨(), .pure (), trivial⟩
  | vector3 => exact ⟨e, Vector3.reads e, .refl e⟩
  | point3 => exact ⟨e, Vector3.reads e, .refl e⟩
  | rgb => exact ⟨_, ColorRgba.reads_rgb e old, .refl _, .refl _, .refl _⟩
  | rgba => exact ⟨e, ColorRgba.reads_rgba e, .refl e⟩
  | quaternion => exact ⟨e, Quaternion.reads e, .refl e⟩
  | rgb8 => exact ⟨_, ColorRgba8.reads_rgb e old, rfl, rfl, rfl⟩
  | rgba8 => exact ⟨e, ColorRgba8.reads_rgba e, rfl⟩
  | invalid => exact absurd h id

/-- What every element that was read has. -/
def Sound : (t : VarType) → t.Elem κ σ → Prop
  | .key, e => Streams.Safe e.name
  | .stateDesc, _ | .invalid, _ => False
  | _, _ => True

theorem yields_read (C : Creatables κ) (t : VarType) (old : t.Elem κ σ) :
    Yields (read C t old) (Sound t) := by
  cases t with
  | key => exact MOUL.Uoid.yields_read
  | stateDesc => exact .fail
  | invalid => exact .fail
  | _ => exact Yields.any _

/-- What is assumed of an element: its strings fit, and its creatables are read as
they were written. -/
def Assumed (C : Creatables κ) : (t : VarType) → t.Elem κ σ → Prop
  | .string, e => Fits e
  | .creatable, e => ∀ c ∈ e, C.RoundTrips c
  | _, _ => True

/-- Of most types nothing is assumed. -/
theorem assumed_of_ne (C : Creatables κ) {t : VarType} (hstring : t ≠ .string)
    (hcreatable : t ≠ .creatable) (e : t.Elem κ σ) : Assumed C t e := by
  cases t with
  | string => exact absurd rfl hstring
  | creatable => exact absurd rfl hcreatable
  | _ => trivial

theorem storable {C : Creatables κ} {t : VarType} {e : t.Elem κ σ} (hsound : Sound t e)
    (h : Assumed C t e) : Storable C t e := by
  cases t with
  | string => exact h
  | creatable => exact h
  | key => exact hsound
  | stateDesc => exact hsound
  | invalid => exact hsound
  | _ => trivial

/-! ## Default elements -/

theorem truncate {w : Nat} (hw : w ≤ 32) {x : BitVec w} {y : BitVec 32}
    (h : x.toInt = y.toInt) : x = y.setWidth w := by
  rw [← BitVec.signExtend_eq_setWidth_of_le y hw, BitVec.signExtend, ← h, BitVec.ofInt_toInt]

/-- **What `isDefault` accepts is what `setDefault` sets**, keys excepted. -/
theorem same_of_isDefault {S : Children σ} {R : σ → σ → Prop} {t : VarType} {d : t.Default}
    {e : t.Elem κ σ} (x : t.Elem κ σ) (hkey : t ≠ .key) (hnested : t ≠ .stateDesc)
    (h : isDefault S t d e = true) : Same R t e (setDefault S t (some d) x) := by
  cases t with
  | int => exact (of_decide_eq_true h : e = d)
  | float => exact .inr h
  | bool => exact (of_decide_eq_true h : e = d)
  | string => exact (of_decide_eq_true h : e = d)
  | key => exact absurd rfl hkey
  | stateDesc => exact absurd rfl hnested
  | creatable => exact Option.isNone_iff_eq_none.1 h
  | double => exact .inr h
  | time => exact (of_decide_eq_true h : e = d)
  | byte =>
    have heq : e.toInt8.toInt = d.toInt32.toInt := of_decide_eq_true h
    show e = d.toUInt8
    rw [← UInt8.toBitVec_inj, UInt32.toBitVec_toUInt8]
    exact truncate (by decide) heq
  | short =>
    have heq : e.toInt16.toInt = d.toInt32.toInt := of_decide_eq_true h
    show e = d.toUInt16
    rw [← UInt16.toBitVec_inj, UInt32.toBitVec_toUInt16]
    exact truncate (by decide) heq
  | ageTimeOfDay => trivial
  | vector3 => exact Vector3.same_of_eq h
  | point3 => exact Vector3.same_of_eq h
  | rgb => exact (ColorRgba.same_of_eq h).1
  | rgba => exact ColorRgba.same_of_eq h
  | quaternion => exact Quaternion.same_of_eq h
  | rgb8 =>
    obtain rfl := of_decide_eq_true h
    exact ⟨rfl, rfl, rfl⟩
  | rgba8 => exact (of_decide_eq_true h : e = d)
  | invalid => trivial

theorem Same.refl {R : σ → σ → Prop} (hR : ∀ s, R s s) (t : VarType) (e : t.Elem κ σ) :
    Same R t e e := by
  cases t with
  | float => exact FloatSame.refl e
  | double => exact DoubleSame.refl e
  | vector3 => exact Vector3.Same.refl e
  | point3 => exact Vector3.Same.refl e
  | rgb => exact ColorRgba.SameRgb.refl e
  | rgba => exact ColorRgba.SameRgba.refl e
  | quaternion => exact Quaternion.Same.refl e
  | rgb8 => exact ⟨rfl, rfl, rfl⟩
  | stateDesc => exact hR e
  | ageTimeOfDay => trivial
  | invalid => trivial
  | _ => rfl

/-- A key that the default is equal to; `isDefault` does not look that closely. -/
def Blank : (t : VarType) → t.Elem κ σ → Prop
  | .key, e => e = {}
  | _, _ => True

instance (t : VarType) (e : t.Elem κ σ) : Decidable (Blank t e) := by
  cases t with
  | key => exact inferInstanceAs (Decidable (e = ({} : MOUL.Uoid)))
  | _ => exact .isTrue trivial

theorem same_setDefault_key {S : Children σ} {R : σ → σ → Prop} {t : VarType} {e : t.Elem κ σ}
    (d : Option t.Default) (x : t.Elem κ σ) (hkey : t = .key) :
    Same R t e (setDefault S t d x) ↔ Blank t e := by
  subst hkey
  exact Iff.rfl

theorem blank_of_ne {t : VarType} (hkey : t ≠ .key) (e : t.Elem κ σ) : Blank t e := by
  cases t with
  | key => exact absurd rfl hkey
  | _ => trivial

theorem resize_simple {S : Children σ} {t : VarType} (hnested : t ≠ .stateDesc)
    (typeName : String) (n : Nat) : ∃ es : List (t.Elem κ σ),
      resize S typeName t n = .ok es ∧ es.length = n ∧ ∀ e ∈ es, Replaced t e := by
  cases t with
  | stateDesc => exact absurd rfl hnested
  | creatable =>
    exact ⟨_, rfl, List.length_replicate, fun e he => (List.mem_replicate.1 he).2⟩
  | _ => exact ⟨_, rfl, List.length_replicate, fun _ _ => trivial⟩

theorem replaced_setDefault {S : Children σ} (t : VarType) (d : Option t.Default)
    (e : t.Elem κ σ) : Replaced t (setDefault S t d e) := by
  cases t with
  | creatable => rfl
  | _ => trivial

end Elem

end Dirtsand.SDL
