import Dirtsand.Streams

/-!
# Times, vectors and colours

`DS::UnifiedTime`, `DS::Vector3`, `DS::Quaternion`, `DS::ColorRgba` and
`DS::ColorRgba8` (Types/UnifiedTime.h, Types/Math.h, Types/Color.h), with the
bits of a floating point number for the number.
-/

namespace Dirtsand

open Lib.Reader (Reads)
open Streams (readU8 readU32 writeU8 writeU32)

/-! ## Times -/

structure UnifiedTime where
  secs : UInt32 := 0
  micros : UInt32 := 0
deriving DecidableEq, Repr

namespace UnifiedTime

def read : Read UnifiedTime := do
  let secs ← readU32
  let micros ← readU32
  pure ⟨secs, micros⟩

def write (t : UnifiedTime) : List UInt8 :=
  writeU32 t.secs ++ writeU32 t.micros

/-- `UnifiedTime::operator>`. -/
def later (t u : UnifiedTime) : Bool :=
  u.secs < t.secs || (t.secs = u.secs && u.micros < t.micros)

/-- A time in units of which no second has more than 2^32. -/
def ticks (t : UnifiedTime) : Nat := t.secs.toNat * 2 ^ 32 + t.micros.toNat

theorem later_iff (t u : UnifiedTime) : t.later u = true ↔ u.ticks < t.ticks := by
  have hu := u.micros.toNat_lt
  have ht := t.micros.toNat_lt
  rw [later, Bool.or_eq_true, Bool.and_eq_true, decide_eq_true_iff, decide_eq_true_iff,
    decide_eq_true_iff, UInt32.lt_iff_toNat_lt, UInt32.lt_iff_toNat_lt, ← UInt32.toNat_inj, ticks, ticks]
  omega

theorem ticks_inj {t u : UnifiedTime} (h : t.ticks = u.ticks) : t = u := by
  obtain ⟨secs, micros⟩ := t
  obtain ⟨secs', micros'⟩ := u
  have hlt := micros.toNat_lt
  have hlt' := micros'.toNat_lt
  rw [ticks, ticks] at h
  dsimp only at h
  rw [UnifiedTime.mk.injEq, ← UInt32.toNat_inj, ← UInt32.toNat_inj]
  omega

theorem later_eq_false (t u : UnifiedTime) : t.later u = false ↔ t.ticks ≤ u.ticks := by
  rw [← Bool.not_eq_true, later_iff, not_lt]

/-- Nothing is before the first time. -/
theorem later_zero (t : UnifiedTime) : t.later {} = true ↔ t ≠ {} := by
  have hzero : ticks {} = 0 := rfl
  rw [later_iff, hzero, Nat.pos_iff_ne_zero, ne_eq, ne_eq, not_iff_not]
  constructor
  · intro h
    exact ticks_inj (h.trans hzero.symm)
  · intro h
    rw [h, hzero]

theorem reads (t : UnifiedTime) : Reads read t.write t := by
  refine (Streams.reads_u32 _).bind ?_
  refine (Streams.reads_u32 _).andThen ?_
  exact .pure t

end UnifiedTime

/-! ## Floating point numbers -/

/-- The bits of a `float`. -/
abbrev FloatBits := UInt32

/-- The bits of a `double`. -/
abbrev DoubleBits := UInt64

/-- `==` on `float`: a NaN equals nothing, and the two zeros are equal. -/
def floatEq (a b : FloatBits) : Bool :=
  (a &&& 0x7FFFFFFF ≤ 0x7F800000 && b &&& 0x7FFFFFFF ≤ 0x7F800000) &&
    (a = b || (a &&& 0x7FFFFFFF = 0 && b &&& 0x7FFFFFFF = 0))

/-- `==` on `double`. -/
def doubleEq (a b : DoubleBits) : Bool :=
  (a &&& 0x7FFFFFFFFFFFFFFF ≤ 0x7FF0000000000000 && b &&& 0x7FFFFFFFFFFFFFFF ≤ 0x7FF0000000000000) &&
    (a = b || (a &&& 0x7FFFFFFFFFFFFFFF = 0 && b &&& 0x7FFFFFFFFFFFFFFF = 0))

/-- The same number: bit by bit, or as `==` has it. -/
def FloatSame (a b : FloatBits) : Prop := a = b ∨ floatEq a b = true

def DoubleSame (a b : DoubleBits) : Prop := a = b ∨ doubleEq a b = true

theorem FloatSame.refl (a : FloatBits) : FloatSame a a := .inl rfl

theorem DoubleSame.refl (a : DoubleBits) : DoubleSame a a := .inl rfl

/-! ## Vectors -/

structure Vector3 where
  x : FloatBits := 0
  y : FloatBits := 0
  z : FloatBits := 0
deriving DecidableEq, Repr

namespace Vector3

def read : Read Vector3 := do
  let x ← readU32
  let y ← readU32
  let z ← readU32
  pure ⟨x, y, z⟩

def write (v : Vector3) : List UInt8 :=
  writeU32 v.x ++ (writeU32 v.y ++ writeU32 v.z)

/-- `Vector3::operator==`. -/
def eq (v w : Vector3) : Bool :=
  floatEq v.x w.x && floatEq v.y w.y && floatEq v.z w.z

def Same (v w : Vector3) : Prop :=
  FloatSame v.x w.x ∧ FloatSame v.y w.y ∧ FloatSame v.z w.z

theorem reads (v : Vector3) : Reads read v.write v := by
  refine (Streams.reads_u32 _).bind ?_
  refine (Streams.reads_u32 _).bind ?_
  refine (Streams.reads_u32 _).andThen ?_
  exact .pure v

theorem Same.refl (v : Vector3) : Same v v := ⟨.refl _, .refl _, .refl _⟩

theorem same_of_eq {v w : Vector3} (h : v.eq w = true) : Same v w := by
  simp only [eq, Bool.and_eq_true] at h
  exact ⟨.inr h.1.1, .inr h.1.2, .inr h.2⟩

end Vector3

structure Quaternion where
  x : FloatBits := 0
  y : FloatBits := 0
  z : FloatBits := 0
  w : FloatBits := 0
deriving DecidableEq, Repr

namespace Quaternion

def read : Read Quaternion := do
  let x ← readU32
  let y ← readU32
  let z ← readU32
  let w ← readU32
  pure ⟨x, y, z, w⟩

def write (q : Quaternion) : List UInt8 :=
  writeU32 q.x ++ (writeU32 q.y ++ (writeU32 q.z ++ writeU32 q.w))

/-- `Quaternion::operator==`. -/
def eq (q r : Quaternion) : Bool :=
  floatEq q.x r.x && floatEq q.y r.y && floatEq q.z r.z && floatEq q.w r.w

def Same (q r : Quaternion) : Prop :=
  FloatSame q.x r.x ∧ FloatSame q.y r.y ∧ FloatSame q.z r.z ∧ FloatSame q.w r.w

theorem reads (q : Quaternion) : Reads read q.write q := by
  refine (Streams.reads_u32 _).bind ?_
  refine (Streams.reads_u32 _).bind ?_
  refine (Streams.reads_u32 _).bind ?_
  refine (Streams.reads_u32 _).andThen ?_
  exact .pure q

theorem Same.refl (q : Quaternion) : Same q q := ⟨.refl _, .refl _, .refl _, .refl _⟩

theorem same_of_eq {q r : Quaternion} (h : q.eq r = true) : Same q r := by
  simp only [eq, Bool.and_eq_true] at h
  exact ⟨.inr h.1.1.1, .inr h.1.1.2, .inr h.1.2, .inr h.2⟩

end Quaternion

/-! ## Colours -/

structure ColorRgba where
  r : FloatBits := 0
  g : FloatBits := 0
  b : FloatBits := 0
  a : FloatBits := 0
deriving DecidableEq, Repr

namespace ColorRgba

/-- What `e_VarRgb` reads: the alpha stays. -/
def readRgb (c : ColorRgba) : Read ColorRgba := do
  let r ← readU32
  let g ← readU32
  let b ← readU32
  pure ⟨r, g, b, c.a⟩

def readRgba : Read ColorRgba := do
  let r ← readU32
  let g ← readU32
  let b ← readU32
  let a ← readU32
  pure ⟨r, g, b, a⟩

def writeRgb (c : ColorRgba) : List UInt8 :=
  writeU32 c.r ++ (writeU32 c.g ++ writeU32 c.b)

def writeRgba (c : ColorRgba) : List UInt8 :=
  writeU32 c.r ++ (writeU32 c.g ++ (writeU32 c.b ++ writeU32 c.a))

/-- `ColorRgba::operator==`. -/
def eq (c d : ColorRgba) : Bool :=
  floatEq c.r d.r && floatEq c.g d.g && floatEq c.b d.b && floatEq c.a d.a

def SameRgb (c d : ColorRgba) : Prop :=
  FloatSame c.r d.r ∧ FloatSame c.g d.g ∧ FloatSame c.b d.b

def SameRgba (c d : ColorRgba) : Prop :=
  SameRgb c d ∧ FloatSame c.a d.a

theorem reads_rgb (c d : ColorRgba) : Reads (readRgb d) c.writeRgb ⟨c.r, c.g, c.b, d.a⟩ := by
  refine (Streams.reads_u32 _).bind ?_
  refine (Streams.reads_u32 _).bind ?_
  refine (Streams.reads_u32 _).andThen ?_
  exact .pure _

theorem reads_rgba (c : ColorRgba) : Reads readRgba c.writeRgba c := by
  refine (Streams.reads_u32 _).bind ?_
  refine (Streams.reads_u32 _).bind ?_
  refine (Streams.reads_u32 _).bind ?_
  refine (Streams.reads_u32 _).andThen ?_
  exact .pure c

theorem SameRgb.refl (c : ColorRgba) : SameRgb c c := ⟨.refl _, .refl _, .refl _⟩

theorem SameRgba.refl (c : ColorRgba) : SameRgba c c := ⟨.refl _, .refl _⟩

theorem same_of_eq {c d : ColorRgba} (h : c.eq d = true) : SameRgba c d := by
  simp only [eq, Bool.and_eq_true] at h
  exact ⟨⟨.inr h.1.1.1, .inr h.1.1.2, .inr h.1.2⟩, .inr h.2⟩

end ColorRgba

structure ColorRgba8 where
  r : UInt8 := 0
  g : UInt8 := 0
  b : UInt8 := 0
  a : UInt8 := 0
deriving DecidableEq, Repr

namespace ColorRgba8

/-- What `e_VarRgb8` reads: the alpha stays. -/
def readRgb (c : ColorRgba8) : Read ColorRgba8 := do
  let r ← readU8
  let g ← readU8
  let b ← readU8
  pure ⟨r, g, b, c.a⟩

def readRgba : Read ColorRgba8 := do
  let r ← readU8
  let g ← readU8
  let b ← readU8
  let a ← readU8
  pure ⟨r, g, b, a⟩

def writeRgb (c : ColorRgba8) : List UInt8 :=
  writeU8 c.r ++ (writeU8 c.g ++ writeU8 c.b)

def writeRgba (c : ColorRgba8) : List UInt8 :=
  writeU8 c.r ++ (writeU8 c.g ++ (writeU8 c.b ++ writeU8 c.a))

def SameRgb (c d : ColorRgba8) : Prop :=
  c.r = d.r ∧ c.g = d.g ∧ c.b = d.b

theorem reads_rgb (c d : ColorRgba8) : Reads (readRgb d) c.writeRgb ⟨c.r, c.g, c.b, d.a⟩ := by
  refine (Streams.reads_u8 _).bind ?_
  refine (Streams.reads_u8 _).bind ?_
  refine (Streams.reads_u8 _).andThen ?_
  exact .pure _

theorem reads_rgba (c : ColorRgba8) : Reads readRgba c.writeRgba c := by
  refine (Streams.reads_u8 _).bind ?_
  refine (Streams.reads_u8 _).bind ?_
  refine (Streams.reads_u8 _).bind ?_
  refine (Streams.reads_u8 _).andThen ?_
  exact .pure c

end ColorRgba8

end Dirtsand
