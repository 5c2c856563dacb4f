import Dirtsand.AuthServ.VaultTypes
import Mathlib.Data.Nat.Bitwise
import Mathlib.Logic.Function.Basic

/-!
# The members of a vault node

`DS::Vault::Node` as the class keeps it (AuthServ/VaultTypes.h): a member for
every field, set or not, and the mask `m_fields`.

* `NodeData.has_set` — a setter sets its own bit and no other.
* `NodeData.Same.view_eq` — nodes with the same mask and the same values of what
  it has are the same `Vault.Node`.
-/

namespace Dirtsand.Vault

/-! ## Fields -/

/-- `DS::Vault::NodeFields`. -/
inductive Field where
  | nodeIdx | createTime | modifyTime | createAgeName | createAgeUuid | creatorUuid | creatorIdx
  | nodeType
  | int32_1 | int32_2 | int32_3 | int32_4
  | uint32_1 | uint32_2 | uint32_3 | uint32_4
  | uuid_1 | uuid_2 | uuid_3 | uuid_4
  | string64_1 | string64_2 | string64_3 | string64_4 | string64_5 | string64_6
  | iString64_1 | iString64_2
  | text_1 | text_2
  | blob_1 | blob_2
deriving DecidableEq, Repr

/-- The types of the members. -/
inductive Kind where
  | uint32
  | int32
  | uuid
  | string
  | blob
deriving DecidableEq, Repr

abbrev Kind.Value : Kind → Type
  | .uint32 => UInt32
  | .int32 => Int32
  | .uuid => Uuid
  | .string => String
  | .blob => Blob

/-- The empty value. -/
def Kind.zero : (k : Kind) → k.Value
  | .uint32 => 0
  | .int32 => 0
  | .uuid => .null
  | .string => ""
  | .blob => []

namespace Field

/-- The first argument of `NODE_FIELD`. -/
def kind : Field → Kind
  | nodeIdx | createTime | modifyTime | creatorIdx => .uint32
  | createAgeName => .string
  | createAgeUuid | creatorUuid => .uuid
  | nodeType => .int32
  | int32_1 | int32_2 | int32_3 | int32_4 => .int32
  | uint32_1 | uint32_2 | uint32_3 | uint32_4 => .uint32
  | uuid_1 | uuid_2 | uuid_3 | uuid_4 => .uuid
  | string64_1 | string64_2 | string64_3 | string64_4 | string64_5 | string64_6 => .string
  | iString64_1 | iString64_2 => .string
  | text_1 | text_2 => .string
  | blob_1 | blob_2 => .blob

abbrev Value (f : Field) : Type := f.kind.Value

/-- `e_Field... = (1ULL<<bit)`. -/
def bit : Field → Nat
  | nodeIdx => 0
  | createTime => 1
  | modifyTime => 2
  | createAgeName => 3
  | createAgeUuid => 4
  | creatorUuid => 5
  | creatorIdx => 6
  | nodeType => 7
  | int32_1 => 8
  | int32_2 => 9
  | int32_3 => 10
  | int32_4 => 11
  | uint32_1 => 12
  | uint32_2 => 13
  | uint32_3 => 14
  | uint32_4 => 15
  | uuid_1 => 16
  | uuid_2 => 17
  | uuid_3 => 18
  | uuid_4 => 19
  | string64_1 => 20
  | string64_2 => 21
  | string64_3 => 22
  | string64_4 => 23
  | string64_5 => 24
  | string64_6 => 25
  | iString64_1 => 26
  | iString64_2 => 27
  | text_1 => 28
  | text_2 => 29
  | blob_1 => 30
  | blob_2 => 31

def mask (f : Field) : UInt64 := UInt64.ofNat (2 ^ f.bit)

theorem toNat_mask (f : Field) : f.mask.toNat = 2 ^ f.bit := by
  cases f <;> rfl

theorem bit_inj {f g : Field} (h : f.bit = g.bit) : f = g := by
  revert h
  cases f <;> cases g <;> first | exact fun _ => rfl | exact fun h => absurd h (by decide)

end Field

/-! ## Nodes -/

/-- `DS::Vault::Node`. -/
structure NodeData where
  fields : UInt64
  value : (f : Field) → f.Value

namespace NodeData

/-- A node after `Node()`, with zeros for the numbers that it leaves open. -/
def blank : NodeData where
  fields := 0
  value f := f.kind.zero

/-- `has_...`. -/
def has (n : NodeData) (f : Field) : Bool := n.fields &&& f.mask ≠ 0

/-- An assignment to a member. -/
def assign (n : NodeData) (f : Field) (v : f.Value) : NodeData :=
  { n with value := Function.update n.value f v }

/-- `set_...`. -/
def set (n : NodeData) (f : Field) (v : f.Value) : NodeData :=
  { n.assign f v with fields := n.fields ||| f.mask }

theorem has_eq_testBit (n : NodeData) (f : Field) : n.has f = n.fields.toNat.testBit f.bit := by
  have hand : (n.fields &&& f.mask).toNat = (n.fields.toNat.testBit f.bit).toNat * 2 ^ f.bit := by
    rw [UInt64.toNat_and, f.toNat_mask, Nat.and_two_pow]
  have hzero : n.fields &&& f.mask ≠ 0 ↔ n.fields.toNat.testBit f.bit = true := by
    rw [ne_eq, ← UInt64.toNat_inj, hand]
    cases n.fields.toNat.testBit f.bit with
    | true => simp
    | false => simp
  rw [has, Bool.eq_iff_iff, decide_eq_true_iff, hzero]

theorem has_assign (n : NodeData) (f : Field) (v : f.Value) : (n.assign f v).has = n.has := rfl

theorem value_assign (n : NodeData) (f : Field) (v : f.Value) : (n.assign f v).value f = v :=
  Function.update_self ..

theorem value_assign_of_ne (n : NodeData) {f g : Field} (h : g ≠ f) (v : f.Value) :
    (n.assign f v).value g = n.value g :=
  Function.update_of_ne h ..

/-- **A setter sets its own bit and no other.** -/
theorem has_set (n : NodeData) (f g : Field) (v : f.Value) :
    (n.set f v).has g = (decide (g = f) || n.has g) := by
  rw [has_eq_testBit, has_eq_testBit]
  show (n.fields ||| f.mask).toNat.testBit g.bit = _
  rw [UInt64.toNat_or, f.toNat_mask, Nat.testBit_or, Bool.or_comm]
  congr 1
  rw [Nat.testBit_two_pow, decide_eq_decide]
  exact ⟨fun h => (Field.bit_inj h).symm, fun h => congrArg Field.bit h.symm⟩

/-- What a caller sees that asks `has_...` first. -/
def get (n : NodeData) (f : Field) : Option f.Value := if n.has f then some (n.value f) else none

theorem get_eq_some {n : NodeData} {f : Field} {v : f.Value} :
    n.get f = some v ↔ n.has f = true ∧ n.value f = v := by
  rw [get]
  split
  · rename_i h
    rw [Option.some.injEq]
    exact ⟨fun hv => ⟨h, hv⟩, And.right⟩
  · rename_i h
    exact ⟨fun hv => (nomatch hv), fun hv => absurd hv.1 h⟩

theorem get_set_self (n : NodeData) (f : Field) (v : f.Value) : (n.set f v).get f = some v := by
  rw [get_eq_some, has_set]
  exact ⟨by simp, n.value_assign f v⟩

theorem get_set_of_ne (n : NodeData) {f g : Field} (h : g ≠ f) (v : f.Value) :
    (n.set f v).get g = n.get g := by
  have hvalue : (n.set f v).value g = n.value g := n.value_assign_of_ne h v
  rw [get, get, has_set, hvalue, decide_eq_false h, Bool.false_or]

/-- The node as the daemon's functions see it. -/
def view (n : NodeData) : Node where
  nodeIdx := n.get .nodeIdx
  createTime := n.get .createTime
  modifyTime := n.get .modifyTime
  createAgeName := n.get .createAgeName
  createAgeUuid := n.get .createAgeUuid
  creatorUuid := n.get .creatorUuid
  creatorIdx := n.get .creatorIdx
  nodeType := (n.get .nodeType).map Int32.toInt
  int32_1 := (n.get .int32_1).map Int32.toInt
  int32_2 := (n.get .int32_2).map Int32.toInt
  int32_3 := (n.get .int32_3).map Int32.toInt
  int32_4 := (n.get .int32_4).map Int32.toInt
  uint32_1 := n.get .uint32_1
  uint32_2 := n.get .uint32_2
  uint32_3 := n.get .uint32_3
  uint32_4 := n.get .uint32_4
  uuid_1 := n.get .uuid_1
  uuid_2 := n.get .uuid_2
  uuid_3 := n.get .uuid_3
  uuid_4 := n.get .uuid_4
  string64_1 := n.get .string64_1
  string64_2 := n.get .string64_2
  string64_3 := n.get .string64_3
  string64_4 := n.get .string64_4
  string64_5 := n.get .string64_5
  string64_6 := n.get .string64_6
  iString64_1 := n.get .iString64_1
  iString64_2 := n.get .iString64_2
  text_1 := n.get .text_1
  text_2 := n.get .text_2
  blob_1 := n.get .blob_1
  blob_2 := n.get .blob_2

/-- The same mask, and the same value of every field that it has. -/
def Same (n m : NodeData) : Prop :=
  n.fields = m.fields ∧ ∀ f, n.has f = true → n.value f = m.value f

/-- **Such nodes are one to the daemon.** -/
theorem Same.view_eq {n m : NodeData} (h : Same n m) : n.view = m.view := by
  have hget : n.get = m.get := by
    funext f
    have hhas : m.has f = n.has f := by rw [has, has, h.1]
    rw [get, get, hhas]
    split
    · rename_i hf
      rw [h.2 f hf]
    · rfl
  rw [view, view, hget]

end NodeData

end Dirtsand.Vault
