import Dirtsand.SDL.RoundTrip
import Dirtsand.SDL.Printing
import Dirtsand.SDL.Upgrade

/-!
# Defaults that are recognised

What `setDefault` stores and what `isDefault` looks for are two switches over the
types of variables (SDL/StateInfo.cpp), and `parse_default` fills what both of them
read.  A byte or a short is stored cut to its size and compared with the whole
number, and a null key need not be the key that is stored.

* `Elem.isDefault_setDefault`, `Elem.equal_of_isDefault` — one element.
* `Variable.History.kept` — what any history keeps.
* `Variable.defaults_recognised` — for which defaults `isDefault` is right.
-/

namespace Dirtsand.SDL

open Lib.Reader (Reads Yields given left)
open Streams (readU8 writeU8)

variable {κ σ : Type}

/-! ## Numbers -/

/-- No NaN. -/
def FloatNumber (a : FloatBits) : Prop := a &&& 0x7FFFFFFF ≤ 0x7F800000

def DoubleNumber (a : DoubleBits) : Prop := a &&& 0x7FFFFFFFFFFFFFFF ≤ 0x7FF0000000000000

theorem floatEq_self (a : FloatBits) : floatEq a a = true ↔ FloatNumber a := by
  rw [floatEq, Bool.and_self, decide_eq_true rfl, Bool.true_or, Bool.and_true]
  exact decide_eq_true_iff

theorem doubleEq_self (a : DoubleBits) : doubleEq a a = true ↔ DoubleNumber a := by
  rw [doubleEq, Bool.and_self, decide_eq_true rfl, Bool.true_or, Bool.and_true]
  exact decide_eq_true_iff

theorem vectorEq_self (v : Vector3) :
    v.eq v = true ↔ FloatNumber v.x ∧ FloatNumber v.y ∧ FloatNumber v.z := by
  simp only [Vector3.eq, Bool.and_eq_true, floatEq_self, and_assoc]

theorem quatEq_self (q : Quaternion) : q.eq q = true ↔
    FloatNumber q.x ∧ FloatNumber q.y ∧ FloatNumber q.z ∧ FloatNumber q.w := by
  simp only [Quaternion.eq, Bool.and_eq_true, floatEq_self, and_assoc]

theorem colorEq_self (c : ColorRgba) : c.eq c = true ↔
    FloatNumber c.r ∧ FloatNumber c.g ∧ FloatNumber c.b ∧ FloatNumber c.a := by
  simp only [ColorRgba.eq, Bool.and_eq_true, floatEq_self, and_assoc]

namespace Elem

/-! ## One element -/

/-- `==` on the elements, by their type. -/
def Equal : (t : VarType) → t.Elem κ σ → t.Elem κ σ → Prop
  | .int, a, b => a = b
  | .float, a, b => floatEq a b = true
  | .bool, a, b => a = b
  | .string, a, b => a = b
  | .key, a, b => a.same b = true
  | .creatable, a, b => a = b
  | .double, a, b => doubleEq a b = true
  | .time, a, b => a = b
  | .byte, a, b => a = b
  | .short, a, b => a = b
  | .vector3, a, b | .point3, a, b => a.eq b = true
  | .quaternion, a, b => a.eq b = true
  | .rgb, a, b | .rgba, a, b => a.eq b = true
  | .rgb8, a, b | .rgba8, a, b => a = b
  | .stateDesc, a, b => a = b
  | .ageTimeOfDay, _, _ | .invalid, _, _ => True

/-- A default that its own elements can be compared with: it is a number that fits
them, and is no key. -/
def Comparable : (t : VarType) → t.Default → Prop
  | .float, d => FloatNumber d
  | .double, d => DoubleNumber d
  | .byte, d => -128 ≤ d.toInt32.toInt ∧ d.toInt32.toInt ≤ 127
  | .short, d => -32768 ≤ d.toInt32.toInt ∧ d.toInt32.toInt ≤ 32767
  | .vector3, d | .point3, d => FloatNumber d.x ∧ FloatNumber d.y ∧ FloatNumber d.z
  | .quaternion, d => FloatNumber d.x ∧ FloatNumber d.y ∧ FloatNumber d.z ∧ FloatNumber d.w
  | .rgb, d | .rgba, d => FloatNumber d.r ∧ FloatNumber d.g ∧ FloatNumber d.b ∧ FloatNumber d.a
  | .key, _ => False
  | _, _ => True

theorem toInt_truncate {w : Nat} (hw : w ≤ 32) (y : BitVec 32) :
    (y.setWidth w).toInt = y.toInt.bmod (2 ^ w) := by
  rw [← BitVec.signExtend_eq_setWidth_of_le y hw, BitVec.toInt_signExtend, min_eq_left hw]

/-- A number that is cut to a byte is the same number where it fits. -/
theorem toInt_toUInt8 (d : UInt32) :
    d.toUInt8.toInt8.toInt = d.toInt32.toInt ↔ -128 ≤ d.toInt32.toInt ∧ d.toInt32.toInt ≤ 127 := by
  have hcut : d.toUInt8.toInt8.toInt = d.toInt32.toInt.bmod 256 := by
    show d.toUInt8.toBitVec.toInt = _
    rw [UInt32.toBitVec_toUInt8]
    exact toInt_truncate (by decide) d.toBitVec
  rw [hcut, Int.bmod_def]
  split
  · omega
  · omega

theorem toInt_toUInt16 (d : UInt32) : d.toUInt16.toInt16.toInt = d.toInt32.toInt ↔
    -32768 ≤ d.toInt32.toInt ∧ d.toInt32.toInt ≤ 32767 := by
  have hcut : d.toUInt16.toInt16.toInt = d.toInt32.toInt.bmod 65536 := by
    show d.toUInt16.toBitVec.toInt = _
    rw [UInt32.toBitVec_toUInt16]
    exact toInt_truncate (by decide) d.toBitVec
  rw [hcut, Int.bmod_def]
  split
  · omega
  · omega

/-- **What `setDefault` stores is recognised** where the default is comparable. -/
theorem isDefault_setDefault {S : Children σ} {t : VarType} (hkey : t ≠ .key)
    (hnested : t ≠ .stateDesc) (d : t.Default) (x : t.Elem κ σ) :
    isDefault S t d (setDefault S t (some d) x) = true ↔ Comparable t d := by
  cases t with
  | float => exact floatEq_self d
  | double => exact doubleEq_self d
  | key => exact absurd rfl hkey
  | stateDesc => exact absurd rfl hnested
  | byte => exact decide_eq_true_iff.trans (toInt_toUInt8 d)
  | short => exact decide_eq_true_iff.trans (toInt_toUInt16 d)
  | vector3 => exact vectorEq_self d
  | point3 => exact vectorEq_self d
  | rgb => exact colorEq_self d
  | rgba => exact colorEq_self d
  | quaternion => exact quatEq_self d
  | creatable => exact iff_of_true rfl trivial
  | ageTimeOfDay => exact iff_of_true rfl trivial
  | invalid => exact iff_of_true rfl trivial
  | _ => exact iff_of_true (decide_eq_true rfl) trivial

/-- **What is recognised is what `setDefault` stores**, keys excepted. -/
theorem equal_of_isDefault {S : Children σ} {t : VarType} (hkey : t ≠ .key)
    (hnested : t ≠ .stateDesc) {d : t.Default} {e : t.Elem κ σ} (h : isDefault S t d e = true)
    (x : t.Elem κ σ) : Equal t e (setDefault S t (some d) x) := by
  cases t with
  | float => exact h
  | double => exact h
  | key => exact absurd rfl hkey
  | stateDesc => exact absurd rfl hnested
  | byte => exact @same_of_isDefault κ σ S (fun _ _ => True) .byte d e x hkey hnested h
  | short => exact @same_of_isDefault κ σ S (fun _ _ => True) .short d e x hkey hnested h
  | vector3 => exact h
  | point3 => exact h
  | quaternion => exact h
  | rgb => exact h
  | rgba => exact h
  | creatable => exact Option.isNone_iff_eq_none.1 h
  | ageTimeOfDay => trivial
  | invalid => trivial
  | int => exact (of_decide_eq_true h : e = d)
  | bool => exact (of_decide_eq_true h : e = d)
  | string => exact (of_decide_eq_true h : e = d)
  | time => exact (of_decide_eq_true h : e = d)
  | rgb8 => exact (of_decide_eq_true h : e = d)
  | rgba8 => exact (of_decide_eq_true h : e = d)

end Elem

namespace Variable

variable {C : Creatables κ} {S : Children σ} {v : VarDescriptor}

/-! ## Histories -/

/-- What can become of a variable.  The handlers that work on `m_data` store into its
elements and set its time and its flags. -/
inductive History (C : Creatables κ) (S : Children σ) {v : VarDescriptor} : Variable κ σ v → Prop
  | new {var : Variable κ σ v} (h : Variable.new S v = .ok var) : History C S var
  | setDefault {var : Variable κ σ v} (h : History C S var) : History C S (var.setDefault S)
  | read {now : Clock} {bytes rest : List UInt8} {var var' : Variable κ σ v} (h : History C S var)
      (hread : Variable.read C S now var bytes = .ok (var', rest)) : History C S var'
  | copy {w : VarDescriptor} {rhs : Variable κ σ w} {var var' : Variable κ σ v}
      (h : History C S var) (hcopy : var.copy S rhs = .ok var') : History C S var'
  | written {var : Variable κ σ v} (h : History C S var) : History C S (var.written S)
  | assign {var : Variable κ σ v} (h : History C S var) {elems : List (v.type.Elem κ σ)}
      (hlen : elems.length = var.elems.length) (timestamp : UnifiedTime) (flags : UInt8)
      (dirty : Bool) : History C S { var with elems, timestamp, flags, dirty }

/-- What a history keeps of a variable whose size is fixed. -/
structure Sized (var : Variable κ σ v) : Prop where
  length : var.elems.length = v.size.toNat
  hint : Streams.Safe var.notificationHint

theorem yields_readSimple_sized {var : Variable κ σ v} (now : Clock) (hsize : v.size ≠ -1)
    (hnested : v.type ≠ .stateDesc) (h : Sized var) :
    Yields (readSimple C S now var) Sized := by
  refine (Yields.any _).bind fun t _ => ?_
  refine (Yields.any _).bind fun rest _ => ?_
  refine Yields.bind (P := fun es => es.length = var.elems.length) ?_ fun es hes =>
    .pure ⟨hes.trans h.length, h.hint⟩
  refine Lib.Reader.yields_given (fun _ => ?_) fun _ => rfl
  exact (yields_readElems hnested var.elems).mono fun es hes => hes.fixed hsize

theorem yields_read_sized {var : Variable κ σ v} (now : Clock) (hsize : v.size ≠ -1)
    (hnested : v.type ≠ .stateDesc) (h : Sized var) :
    Yields (read C S now var) Sized := by
  have hhint : Yields readHint Streams.Safe :=
    (Yields.any _).bind fun _ _ => Streams.yields_readSafeString
  refine (Yields.any _).bind fun contents _ => ?_
  refine (Lib.Reader.yields_given (fun _ => hhint) fun _ => h.hint).bind fun hint hsafe => ?_
  refine (Yields.any _).bind fun flags _ => ?_
  dsimp only
  rw [readNested_simple now v.typeName v.size hnested]
  have hsimple : Yields (readSimple C S now { var with notificationHint := hint, flags }) Sized :=
    yields_readSimple_sized now hsize hnested ⟨h.length, hsafe⟩
  exact hsimple.bind fun w hw => .pure ⟨hw.length, hw.hint⟩

theorem copy_hint {f var : Variable κ σ v} {w : VarDescriptor} {rhs : Variable κ σ w}
    (h : f.copy S rhs = .ok var) : var.notificationHint = f.notificationHint := by
  unfold copy at h
  split at h
  · obtain ⟨dest, -, h⟩ := Lib.bind_eq_ok.1 h
    obtain ⟨new, -, h⟩ := Lib.bind_eq_ok.1 h
    obtain rfl := Except.ok.inj h
    rfl
  · cases h

theorem copy_sized {var var' : Variable κ σ v} {w : VarDescriptor} {rhs : Variable κ σ w}
    (hsize : v.size ≠ -1) (h : Sized var) (hcopy : var.copy S rhs = .ok var') : Sized var' := by
  obtain ⟨ht, dest, new, hdest, htaken, helems, -⟩ := copy_eq_ok hcopy
  rw [if_neg hsize] at hdest
  have hnew := htaken.length_eq
  rw [List.length_take] at hnew
  constructor
  · rw [helems, List.length_append, List.length_drop, ← h.length, ← hdest]
    omega
  · rw [copy_hint hcopy]
    exact h.hint

/-- **What any history keeps.** -/
theorem History.sized {var : Variable κ σ v} (hsize : v.size ≠ -1) (hnested : v.type ≠ .stateDesc)
    (h : History C S var) : Sized var := by
  induction h with
  | new h =>
    obtain ⟨es, hes, hlen, -⟩ := Elem.resize_simple (S := S) hnested v.typeName v.size.toNat
    rw [Variable.new, hes] at h
    obtain rfl := Except.ok.inj h
    exact ⟨hlen, safe_empty⟩
  | setDefault h ih => exact ⟨(List.length_map _).trans ih.length, ih.hint⟩
  | read h hread ih => exact yields_read_sized _ hsize hnested ih _ _ _ hread
  | copy h hcopy ih => exact copy_sized hsize ih hcopy
  | written h ih => exact ⟨ih.length, ih.hint⟩
  | assign h hlen timestamp flags dirty ih => exact ⟨hlen.trans ih.length, ih.hint⟩

/-! ## Blobs -/

/-- **A variable that is left out of a blob** has the elements of a new one. -/
theorem read_omitted {f var : Variable κ σ v} (now : Clock) (hf : IsNew S f)
    (hnested : v.type ≠ .stateDesc) (hhint : Streams.Safe var.notificationHint)
    (hflag : (var.written S).flags &&& sameAsDefault ≠ 0) (rest : List UInt8) :
    ∃ var', read C S now f (var.write C S ++ rest) = .ok (var', rest) ∧ var'.elems = f.elems := by
  set flags := (var.written S).flags with hflags
  set g : Variable κ σ v := { f with notificationHint := var.notificationHint, flags } with hg
  have hwrite : writeSimple C (var.written S) =
      if flags &&& hasTimeStamp ≠ 0 then var.timestamp.write else [] := by
    rw [writeSimple, ← hflags, if_neg hflag, List.append_nil]
    rfl
  have htime : Reads (given (flags &&& hasTimeStamp ≠ 0) UnifiedTime.read f.timestamp)
      (writeSimple C (var.written S))
      (if flags &&& hasTimeStamp ≠ 0 then var.timestamp else f.timestamp) := by
    rw [hwrite]
    refine Lib.Reader.reads_given (fun hstamp => ?_) fun hstamp => if_neg hstamp
    rw [if_pos hstamp]
    exact UnifiedTime.reads _
  have hkeep : ∀ flags' : UInt8, flags' &&& sameAsDefault ≠ 0 → ∀ time : UnifiedTime,
      (do
        let elems ← given (flags' &&& sameAsDefault = 0) (readElems C S g.elems) g.elems
        pure { g with elems, timestamp := time, flags := flags' } : Read (Variable κ σ v)) rest =
      .ok ({ g with timestamp := time, flags := flags' }, rest) := by
    intro flags' hsame time
    rw [given, if_neg hsame]
    rfl
  have hsimple : ∃ w, readSimple C S now g (writeSimple C (var.written S) ++ rest) = .ok (w, rest) ∧
      w.elems = f.elems := by
    rw [readSimple, htime.run, Lib.Reader.bind_of_ok (show left rest = .ok (rest, rest) from rfl)]
    by_cases hwanted : g.flags &&& hasDirtyFlag ≠ 0 ∧ g.flags &&& wantTimeStamp ≠ 0
    · rw [if_pos hwanted, if_pos hwanted]
      refine ⟨_, hkeep _ ?_ _, rfl⟩
      rw [(stamped_flags flags).2.2]
      exact hflag
    · rw [if_neg hwanted, if_neg hwanted]
      exact ⟨_, hkeep _ hflag _, rfl⟩
  obtain ⟨w, hw, helems⟩ := hsimple
  exact ⟨_, read_write hf hnested hhint hw, helems⟩

/-- A blob that gives the elements, and no time. -/
theorem reads_plain {f : Variable κ σ v} (now : Clock) (hf : IsNew S f) (hnested : v.type ≠ .stateDesc)
    {bytes : List UInt8} {es : List (v.type.Elem κ σ)} (h : Reads (readElems C S f.elems) bytes es) :
    Reads (read C S now f) (writeU8 0 ++ (writeU8 0 ++ bytes)) { elems := es, dirty := true } := by
  refine (Streams.reads_u8 _).bind ?_
  rw [given, if_neg (by decide)]
  refine (Reads.pure _).after ?_
  refine (Streams.reads_u8 _).bind ?_
  dsimp only
  rw [readNested_simple now v.typeName v.size hnested]
  refine Reads.andThen (a := { elems := es }) ?_ (Reads.pure _)
  have hnone : given ((0 : UInt8) &&& hasTimeStamp ≠ 0) UnifiedTime.read f.timestamp =
      pure f.timestamp := if_neg (by decide)
  have hall : given ((0 : UInt8) &&& sameAsDefault = 0) (readElems C S f.elems) f.elems =
      readElems C S f.elems := if_pos (by decide)
  have hunwanted : ¬ ((0 : UInt8) &&& hasDirtyFlag ≠ 0 ∧ (0 : UInt8) &&& wantTimeStamp ≠ 0) := by decide
  have hbody : Reads (do
      let elems ← readElems C S f.elems
      pure ({ elems, timestamp := f.timestamp, notificationHint := f.notificationHint,
              dirty := f.dirty } : Variable κ σ v)) bytes { elems := es } := by
    rw [hf.timestamp, hf.notificationHint, hf.clean]
    exact h.andThen (Reads.pure _)
  rw [readSimple, hnone]
  refine (Reads.pure _).after ?_
  refine Reads.left (fun rest => ?_) hbody
  dsimp only
  rw [if_neg hunwanted, if_neg hunwanted, hall]

/-! ## What is recognised -/

/-- `isDefault` is right about a variable: it holds after `setDefault`, where it holds the
elements are those that `setDefault` stores, and a blob that leaves them out gives them back. -/
structure Recognises (C : Creatables κ) (S : Children σ) (var : Variable κ σ v) : Prop where
  stored : (var.setDefault S).isDefault S = true
  equal : var.isDefault S = true →
    List.Forall₂ (Elem.Equal v.type) var.elems (var.setDefault S).elems
  restored : var.isDefault S = true → ∀ (now : Clock) (f : Variable κ σ v), IsNew S f → ∀ rest,
    ∃ var', Variable.read C S now f (var.write C S ++ rest) = .ok (var', rest) ∧
      List.Forall₂ (Elem.Equal v.type) var.elems var'.elems

variable {d : v.type.Default}

theorem isDefault_iff (hsize : v.size ≠ -1) (hdefault : v.default = some d) (var : Variable κ σ v) :
    var.isDefault S = true ↔ ∀ e ∈ var.elems, Elem.isDefault S v.type d e = true := by
  rw [isDefault, decide_eq_true hsize, Bool.true_and, hdefault, Option.any_some, List.all_eq_true]

/-- The elements of a new variable, one by one. -/
theorem equal_new (hnested : v.type ≠ .stateDesc) (hkey : v.type ≠ .key)
    (hdefault : v.default = some d) {es es' : List (v.type.Elem κ σ)} (hlen : es.length = es'.length)
    (h : ∀ e ∈ es, Elem.isDefault S v.type d e = true) :
    List.Forall₂ (Elem.Equal v.type) es (es'.map (Elem.setDefault S v.type v.default)) := by
  refine List.forall₂_iff_zip.2 ⟨hlen.trans (List.length_map _).symm, fun {e e'} he => ?_⟩
  obtain ⟨hmem, hmem'⟩ := List.of_mem_zip he
  obtain ⟨x, -, rfl⟩ := List.mem_map.1 hmem'
  rw [hdefault]
  exact Elem.equal_of_isDefault hkey hnested (h e hmem) x

theorem ne_key_of_comparable (h : Elem.Comparable v.type d) : v.type ≠ .key := by
  obtain ⟨t, typeName, name, size, default⟩ := v
  rintro rfl
  exact h

theorem recognises {var : Variable κ σ v} (hsize : v.size ≠ -1) (hnested : v.type ≠ .stateDesc)
    (hdefault : v.default = some d) (hvar : Sized var) (h : Elem.Comparable v.type d) :
    Recognises C S var := by
  have hkey := ne_key_of_comparable h
  refine ⟨?_, fun hd => ?_, fun hd now f hf rest => ?_⟩
  · rw [isDefault_iff hsize hdefault]
    intro e he
    obtain ⟨x, -, rfl⟩ := List.mem_map.1 he
    rw [hdefault]
    exact (Elem.isDefault_setDefault hkey hnested d x).2 h
  · exact equal_new hnested hkey hdefault rfl ((isDefault_iff hsize hdefault var).1 hd)
  · have hflag : (var.written S).flags &&& sameAsDefault ≠ 0 := by
      rw [written, if_pos hd]
      exact sameAsDefault_set _
    obtain ⟨var', hread, helems⟩ := read_omitted (C := C) now hf hnested hvar.hint hflag rest
    obtain ⟨es, hes, hfes⟩ := hf.elems
    refine ⟨var', hread, ?_⟩
    have hlen := hf.length hnested
    rw [hfes, List.length_map] at hlen
    rw [helems, hfes]
    exact equal_new hnested hkey hdefault (hvar.length.trans hlen.symm)
      ((isDefault_iff hsize hdefault var).1 hd)

/-- A variable without elements has nothing to recognise. -/
theorem recognises_empty {var : Variable κ σ v} (hsize : v.size ≠ -1) (hnested : v.type ≠ .stateDesc)
    (hdefault : v.default = some d) (hvar : Sized var) (h : v.size.toNat = 0) :
    Recognises C S var := by
  have hlen := hvar.length
  rw [h] at hlen
  have hnil := List.length_eq_zero_iff.1 hlen
  refine ⟨?_, fun hd => ?_, fun hd now f hf rest => ?_⟩
  · rw [isDefault_iff hsize hdefault, setDefault, hnil]
    exact fun e he => absurd he List.not_mem_nil
  · rw [setDefault, hnil]
    exact .nil
  · have hflag : (var.written S).flags &&& sameAsDefault ≠ 0 := by
      rw [written, if_pos hd]
      exact sameAsDefault_set _
    obtain ⟨var', hread, helems⟩ := read_omitted (C := C) now hf hnested hvar.hint hflag rest
    have hfnil := hf.length hnested
    rw [h] at hfnil
    refine ⟨var', hread, ?_⟩
    rw [helems, hnil, List.length_eq_zero_iff.1 hfnil]
    exact .nil

/-- A key that is null, and not the key of a new variable. -/
def nullKey : MOUL.Uoid := { id := 1 }

/-- **A null key is read off a blob**, into a variable that has keys. -/
theorem not_recognises_key {v : VarDescriptor} (hkey : v.type = .key) (hsize : v.size ≠ -1)
    {d : v.type.Default} (hdefault : v.default = some d) (hpos : v.size.toNat ≠ 0) :
    ∃ var : Variable κ σ v, History C S var ∧ ¬ Recognises C S var := by
  obtain ⟨t, typeName, name, size, default, defaultOption, displayOption⟩ := v
  obtain rfl : t = .key := hkey
  set v : VarDescriptor := ⟨.key, typeName, name, size, default, defaultOption, displayOption⟩
    with hv
  obtain ⟨k, hk⟩ := Nat.exists_eq_succ_of_ne_zero hpos
  have hnested : v.type ≠ .stateDesc := (by decide : VarType.key ≠ VarType.stateDesc)
  have hnew : Variable.new (κ := κ) S v = .ok { elems := List.replicate v.size.toNat {} } := rfl
  have hf : IsNew (κ := κ) S _ := ⟨_, hnew, rfl⟩
  have hlen := hf.length hnested
  -- The blob has as many keys as the variable.
  have hstore : ∀ e ∈ List.replicate v.size.toNat nullKey,
      Elem.Storable C (σ := σ) v.type e := by
    intro e he
    obtain rfl := (List.mem_replicate.1 he).2
    exact safe_empty
  obtain ⟨es, hreads, hsame⟩ := reads_elems (C := C) (R := Eq) hf hnested hstore
    (fun _ => List.length_replicate.trans hlen.symm) (fun h => absurd h hsize)
  have hes : List.replicate v.size.toNat nullKey = es := List.forall₂_eq_eq_eq ▸ hsame
  have hread := reads_plain (fun _ => {}) hf hnested hreads []
  refine ⟨_, .read (.setDefault (.new hnew)) hread, fun h => ?_⟩
  have hdef : ({ elems := es, dirty := true } : Variable κ σ v).isDefault S = true := by
    rw [isDefault_iff hsize hdefault, ← hes]
    intro e he
    obtain rfl := (List.mem_replicate.1 he).2
    rfl
  have hequal := h.equal hdef
  rw [setDefault, ← hes, hk, List.replicate_succ, List.map_cons] at hequal
  cases hequal with
  | cons hhead htail =>
    have hne : nullKey.same {} = false := by decide
    have heq : nullKey.same {} = true := hhead
    rw [hne] at heq
    cases heq

/-- **`isDefault` is right about a variable in every history** if and only if the variable has no
elements, or its default is a number that fits them and no key. -/
theorem defaults_recognised {d : v.type.Default} (hdefault : v.default = some d) (hsize : v.size ≠ -1)
    (hnested : v.type ≠ .stateDesc) :
    (∀ var : Variable κ σ v, History C S var → Recognises C S var) ↔
      v.size.toNat = 0 ∨ Elem.Comparable v.type d := by
  constructor
  · intro hall
    by_cases hpos : v.size.toNat = 0
    · exact .inl hpos
    · refine .inr ?_
      have hkey : v.type ≠ .key := by
        intro hkey
        obtain ⟨var, hvar, hnot⟩ := not_recognises_key (C := C) (S := S) hkey hsize hdefault hpos
        exact hnot (hall var hvar)
      obtain ⟨es, hes, hlen, -⟩ := Elem.resize_simple (κ := κ) (S := S) hnested v.typeName v.size.toNat
      have hnew : Variable.new S v = .ok { elems := es } := by rw [Variable.new, hes]
      have hstored := (isDefault_iff hsize hdefault _).1 (hall _ (.new hnew)).stored
      obtain ⟨e, he⟩ := List.exists_mem_of_length_pos (show 0 < es.length by omega)
      have hfirst := hstored _ (List.mem_map_of_mem he)
      rw [hdefault] at hfirst
      exact (Elem.isDefault_setDefault hkey hnested d e).1 hfirst
  · rintro (hzero | hcomparable) var hvar
    · exact recognises_empty hsize hnested hdefault (hvar.sized hsize hnested) hzero
    · exact recognises hsize hnested hdefault (hvar.sized hsize hnested) hcomparable

theorem defaults_recognised_int :
    (∀ var : Variable Empty Empty State.intVar, History State.noCreatables State.noChildren var →
      Recognises State.noCreatables State.noChildren var) ↔
      State.intVar.size.toNat = 0 ∨ Elem.Comparable .int 0 :=
  defaults_recognised (v := State.intVar) (d := (0 : UInt32)) rfl (by decide) (by decide)

end Variable

/-! ## A byte that is not recognised -/

/-- `VAR BYTE b[1] DEFAULT=200`. -/
def byteVar : VarDescriptor := { type := .byte, name := "b", size := 1, default := some (200 : UInt32) }

def byteTokens : List Token :=
  [.var, .type .byte, .ident "b", .punct '[', .numeric "1", .punct ']', .default, .punct '=',
    .numeric "200"]

theorem printed_byte : PrintedVar decimals byteVar byteTokens := by
  have hdenotes : Denotes decimals .byte [.numeric "200"] (200 : UInt32) :=
    ⟨"200", rfl, by decide⟩
  exact ⟨.type .byte, [.numeric "1"], _, _, 0, .keyword (by decide),
    .fixed (by decide) (by decide), .cons (.default hdenotes (.one rfl (by decide))) .nil,
    rfl, rfl⟩

/-- `STATEDESC Lamp { VERSION 1 VAR BYTE b[1] DEFAULT=200 }`. -/
def lampTokens : List Token :=
  .statedesc :: .ident "Lamp" :: .punct '{' ::
    ((([Token.version, Token.numeric "1"] ++ byteTokens)) ++ Token.punct '}' :: [])

/-- **The parser takes a default of 200 for a byte**, which is stored as -56 and is not the default
then. -/
theorem default_unrecognised :
    (parseFile decimals (filled .written nul) (spaced lampTokens)).map
        (fun descs => descs.map fun desc => desc.vars) = some [[byteVar]] ∧
      ∃ var : Variable Empty Empty byteVar,
        Variable.History State.noCreatables State.noChildren var ∧
          (var.setDefault State.noChildren).isDefault State.noChildren = false := by
  constructor
  · have hvars : PrintedVars decimals [byteVar] (byteTokens ++ []) := .cons printed_byte .nil
    rw [List.append_nil] at hvars
    have hversion : PrintedVersion decimals 1 [.version, .numeric "1"] :=
      .version (by decide) 0
    have hbody := PrintedBody.versioned hversion (by decide) .nil hvars
    have hfile : PrintedFile decimals [⟨"Lamp", some 1, [byteVar]⟩] (spaced lampTokens) := by
      refine ⟨lampTokens, .cons hbody .nil, .last ⟨?_, ?_, ?_⟩⟩
      · exact renders_spaced (by decide)
      · decide
      · decide
    rw [parse_inverts_print (holds_filled .written nul) hfile]
    rfl
  · exact ⟨{ elems := [(0 : UInt8)] }, .new rfl, by decide⟩

end Dirtsand.SDL
