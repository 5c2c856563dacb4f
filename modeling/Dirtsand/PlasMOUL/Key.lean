import Dirtsand.Streams
import Dirtsand.Lib.Dict

/-!
# Object keys

`MOUL::Location` and `MOUL::Uoid` (PlasMOUL/Key.h, PlasMOUL/Key.cpp).

* `Uoid.reads` — a key is read as it was written, if its name is safe.
* `Uoid.same` — `Uoid::operator==`, which does not look at the location's flags
  nor at the load mask; `UoidHash` agrees with it.
-/

namespace Dirtsand.MOUL

open Lib.Reader (Reads Yields given)
open Streams (readU8 readU16 readU32 writeU8 writeU16 writeU32)

structure Location where
  sequence : UInt32 := 0xFFFFFFFF
  flags : UInt16 := 0
deriving DecidableEq, Repr

namespace Location

def read : Read Location := do
  let sequence ← readU32
  let flags ← readU16
  pure ⟨sequence, flags⟩

def write (l : Location) : List UInt8 :=
  writeU32 l.sequence ++ writeU16 l.flags

theorem reads (l : Location) : Reads read l.write l := by
  refine (Streams.reads_u32 _).bind ?_
  refine (Streams.reads_u16 _).andThen ?_
  exact .pure l

end Location

structure Uoid where
  location : Location := {}
  loadMask : UInt8 := 0xFF
  type : UInt16 := 0x8000
  name : String := ""
  id : UInt32 := 0
  cloneId : UInt32 := 0
  clonePlayerId : UInt32 := 0
deriving DecidableEq, Repr

namespace Uoid

/-- `e_HasCloneIds`. -/
def hasCloneIds : UInt8 := 1

/-- `e_HasLoadMask`. -/
def hasLoadMask : UInt8 := 2

def isNull (u : Uoid) : Bool := u.type = 0x8000

/-- `Uoid::operator==`. -/
def same (u v : Uoid) : Bool :=
  u.location.sequence = v.location.sequence ∧ u.type = v.type ∧ u.name = v.name ∧ u.id = v.id ∧
    u.cloneId = v.cloneId ∧ u.clonePlayerId = v.clonePlayerId

def read : Read Uoid := do
  let contents ← readU8
  let location ← Location.read
  let loadMask ← given (contents &&& hasLoadMask ≠ 0) readU8 0xFF
  let type ← readU16
  let id ← readU32
  let name ← Streams.readSafeString
  if contents &&& hasCloneIds ≠ 0 then
    let cloneId ← readU32
    let clonePlayerId ← readU32
    pure ⟨location, loadMask, type, name, id, cloneId, clonePlayerId⟩
  else pure ⟨location, loadMask, type, name, id, 0, 0⟩

def contents (u : Uoid) : UInt8 :=
  (if u.loadMask ≠ 0xFF then hasLoadMask else 0) |||
    (if u.cloneId ≠ 0 ∨ u.clonePlayerId ≠ 0 then hasCloneIds else 0)

def write (u : Uoid) : List UInt8 :=
  writeU8 u.contents ++
  (u.location.write ++
  ((if u.contents &&& hasLoadMask ≠ 0 then writeU8 u.loadMask else []) ++
  (writeU16 u.type ++
  (writeU32 u.id ++
  (Streams.writeSafeString u.name ++
  (if u.contents &&& hasCloneIds ≠ 0 then writeU32 u.cloneId ++ writeU32 u.clonePlayerId
    else []))))))

theorem contents_loadMask (u : Uoid) : u.contents &&& hasLoadMask ≠ 0 ↔ u.loadMask ≠ 0xFF := by
  by_cases hm : u.loadMask ≠ 0xFF
  · rw [contents, if_pos hm]
    split <;> exact iff_of_true (by decide) hm
  · rw [contents, if_neg hm]
    split <;> exact iff_of_false (by decide) hm

theorem contents_cloneIds (u : Uoid) :
    u.contents &&& hasCloneIds ≠ 0 ↔ u.cloneId ≠ 0 ∨ u.clonePlayerId ≠ 0 := by
  by_cases hc : u.cloneId ≠ 0 ∨ u.clonePlayerId ≠ 0
  · rw [contents, if_pos hc]
    split <;> exact iff_of_true (by decide) hc
  · rw [contents, if_neg hc]
    split <;> exact iff_of_false (by decide) hc

/-- **A key is read as it was written.** -/
theorem reads {u : Uoid} (h : Streams.Safe u.name) : Reads read u.write u := by
  refine (Streams.reads_u8 _).bind ?_
  refine (Location.reads _).bind ?_
  refine (Lib.Reader.reads_given (fun _ => Streams.reads_u8 _) fun hm => ?_).bind ?_
  · exact not_not.1 (mt (contents_loadMask u).2 hm)
  refine (Streams.reads_u16 _).bind ?_
  refine (Streams.reads_u32 _).bind ?_
  refine (Streams.reads_safeString h).bind ?_
  by_cases hc : u.contents &&& hasCloneIds ≠ 0
  · rw [if_pos hc, if_pos hc]
    refine (Streams.reads_u32 _).bind ?_
    refine (Streams.reads_u32 _).andThen ?_
    exact .pure u
  · rw [if_neg hc, if_neg hc]
    rw [contents_cloneIds, not_or, not_not, not_not] at hc
    obtain ⟨hid, hplayer⟩ := hc
    have hu : (⟨u.location, u.loadMask, u.type, u.name, u.id, 0, 0⟩ : Uoid) = u := by
      cases u
      subst hid hplayer
      rfl
    rw [hu]
    exact .pure u

theorem yields_read : Yields read fun u => Streams.Safe u.name := by
  refine (Yields.any _).bind fun contents _ => ?_
  refine (Yields.any _).bind fun location _ => ?_
  refine (Yields.any _).bind fun loadMask _ => ?_
  refine (Yields.any _).bind fun type _ => ?_
  refine (Yields.any _).bind fun id _ => ?_
  refine Streams.yields_readSafeString.bind fun name hname => ?_
  split
  · refine (Yields.any _).bind fun cloneId _ => ?_
    exact (Yields.any _).bind fun clonePlayerId _ => .pure hname
  · exact .pure hname

theorem same_iff {u v : Uoid} : u.same v = true ↔
    u.location.sequence = v.location.sequence ∧ u.type = v.type ∧ u.name = v.name ∧ u.id = v.id ∧
      u.cloneId = v.cloneId ∧ u.clonePlayerId = v.clonePlayerId := by
  rw [same, decide_eq_true_iff]

theorem same_symm {u v : Uoid} (h : u.same v = true) : v.same u = true := by
  obtain ⟨hloc, htype, hname, hid, hclone, hplayer⟩ := same_iff.1 h
  exact same_iff.2 ⟨hloc.symm, htype.symm, hname.symm, hid.symm, hclone.symm, hplayer.symm⟩

theorem same_trans {u v w : Uoid} (h : u.same v = true) (h' : v.same w = true) :
    u.same w = true := by
  obtain ⟨hloc, htype, hname, hid, hclone, hplayer⟩ := same_iff.1 h
  rw [same_iff, hloc, htype, hname, hid, hclone, hplayer]
  exact same_iff.1 h'

/-- The keys of an `unordered_map<Uoid, _, UoidHash>`. -/
def keyEq : Lib.KeyEq Uoid where
  same := same
  refl _ := same_iff.2 ⟨rfl, rfl, rfl, rfl, rfl, rfl⟩
  symm := same_symm
  trans := same_trans

end Uoid

/-- `UoidHash`, with the hash of a string. -/
def UoidHash (hash : String → UInt64) (u : Uoid) : UInt64 :=
  hash u.name ^^^ (u.location.sequence + (u.type.toUInt32 <<< 8)).toUInt64

/-- **Keys that are equal have the same hash**, so that a map finds one by the other. -/
theorem UoidHash_eq (hash : String → UInt64) {u v : Uoid} (h : u.same v = true) :
    UoidHash hash u = UoidHash hash v := by
  obtain ⟨hloc, htype, hname, -⟩ := Uoid.same_iff.1 h
  rw [UoidHash, UoidHash, hloc, htype, hname]

end Dirtsand.MOUL
