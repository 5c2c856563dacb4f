import Dirtsand.AuthServ.VaultFields
import Dirtsand.Streams
import Dirtsand.Types.Utf16
import Mathlib

/-!
# Vault nodes on the wire

`Node::read` and `Node::write` (AuthServ/VaultTypes.cpp) on a blob or a buffer.
A string is written with a terminator that is part of its length, and read with
all of its units.

The reader does not ask how much `readBytes` gave it; what is missing is what the
memory of the buffer held.

* `NodeData.reads_terminated` — a node is read as it was written, but for a NUL at
  the end of every string.
* `NodeData.codec_round_trips` — so it is the node that was written if it has no
  string, and no blob whose size needs more than 32 bits, and only then.
-/

namespace Dirtsand.Vault

open Lib.Reader (Reads bind_eq_ok)
open Streams (readU16 readU32 readU64 writeU16 writeU32 writeU64)

/-! ## Members -/

/-- `readBytes` into memory, where nobody looks at what it returns. -/
def readBytes (memory : Nat → UInt8) (n : Nat) : Read (List UInt8) := fun bytes =>
  .ok (bytes.take n ++ (List.range' bytes.length (n - bytes.length)).map memory, bytes.drop n)

theorem readBytes_of_le (memory : Nat → UInt8) {n : Nat} {bytes : List UInt8}
    (h : n ≤ bytes.length) : readBytes memory n bytes = .ok (bytes.take n, bytes.drop n) := by
  rw [readBytes, Nat.sub_eq_zero_of_le h]
  show Except.ok (bytes.take n ++ [], _) = _
  rw [List.append_nil]

theorem reads_readBytes (memory : Nat → UInt8) {n : Nat} {bytes : List UInt8}
    (h : bytes.length = n) : Reads (readBytes memory n) bytes bytes := by
  intro rest
  subst h
  rw [readBytes_of_le memory (by rw [List.length_append]; omega), List.take_left, List.drop_left]

/-- `Uuid::read`. -/
def readUuid (old : Uuid) : Read Uuid := do
  let data1 ← readU32
  let data2 ← readU16
  let data3 ← readU16
  let data4 ← readBytes (fun i => old.data4.toList.getD i 0) 8
  pure { data1, data2, data3, data4 := Vector.ofFn fun i => data4.getD i 0 }

/-- `Uuid::write`. -/
def writeUuid (uuid : Uuid) : List UInt8 :=
  writeU32 uuid.data1 ++ (writeU16 uuid.data2 ++ (writeU16 uuid.data3 ++ uuid.data4.toList))

section

variable (fromUtf16 : List UInt16 → String) (memory : Nat → UInt8)

/-- `READ_VAULT_STRING`. -/
def readVaultString : Read String := do
  let length ← readU32
  if length % 2 ≠ 0 then Lib.Reader.fail .malformedData
  else do
    let bytes ← readBytes memory length.toNat
    pure (fromUtf16 (unitsOfBytes bytes))

/-- `WRITE_VAULT_STRING`. -/
def writeVaultString (value : String) : List UInt8 :=
  let wbuf := toUtf16 value
  writeU32 (UInt32.ofNat ((wbuf.length + 1) * 2)) ++ (bytesOfUnits wbuf ++ writeU16 0)

def readBlob : Read Blob := do
  let size ← readU32
  readBytes memory size.toNat

def writeBlob (blob : Blob) : List UInt8 := writeU32 (UInt32.ofNat blob.length) ++ blob

/-- What `Node::read` does for a member of some type that has the value `old`. -/
def Kind.read : (k : Kind) → (old : k.Value) → Read k.Value
  | .uint32, _ => readU32
  | .int32, _ => do
    let v ← readU32
    pure v.toInt32
  | .uuid, old => readUuid old
  | .string, _ => readVaultString fromUtf16 memory
  | .blob, _ => readBlob memory

end

/-- What `Node::write` does for a member of some type. -/
def Kind.write : (k : Kind) → k.Value → List UInt8
  | .uint32, v => writeU32 v
  | .int32, v => writeU32 v.toUInt32
  | .uuid, v => writeUuid v
  | .string, v => writeVaultString v
  | .blob, v => writeBlob v

theorem reads_uuid (old uuid : Uuid) : Reads (readUuid old) (writeUuid uuid) uuid := by
  refine (Streams.reads_u32 _).bind ?_
  refine (Streams.reads_u16 _).bind ?_
  refine (Streams.reads_u16 _).bind ?_
  refine (reads_readBytes _ uuid.data4.length_toList).andThen ?_
  have hback : Vector.ofFn (fun i : Fin 8 => uuid.data4.toList.getD i 0) = uuid.data4 := by
    apply Vector.ext
    intro i hi
    simp
  rw [hback]
  exact .pure uuid

/-- What comes back of a value: a string has its terminator in it. -/
def Kind.terminated : (k : Kind) → k.Value → k.Value
  | .string, v => v.push '\x00'
  | .uint32, v => v
  | .int32, v => v
  | .uuid, v => v
  | .blob, v => v

/-- The length of a value fits into its 32 bits. -/
def Kind.Fits : (k : Kind) → k.Value → Prop
  | .string, v => (toUtf16 v).length + 1 < 2 ^ 31
  | .blob, v => v.length < 2 ^ 32
  | _, _ => True

/-- The values that are read as they were written. -/
def Kind.Codable : (k : Kind) → k.Value → Prop
  | .string, _ => False
  | .blob, v => v.length < 2 ^ 32
  | _, _ => True

instance (k : Kind) (v : k.Value) : Decidable (k.Fits v) :=
  match k, v with
  | .string, v => inferInstanceAs (Decidable ((toUtf16 v).length + 1 < 2 ^ 31))
  | .blob, v => inferInstanceAs (Decidable (v.length < 2 ^ 32))
  | .uint32, _ => .isTrue trivial
  | .int32, _ => .isTrue trivial
  | .uuid, _ => .isTrue trivial

instance (k : Kind) (v : k.Value) : Decidable (k.Codable v) :=
  match k, v with
  | .string, _ => .isFalse id
  | .blob, v => inferInstanceAs (Decidable (v.length < 2 ^ 32))
  | .uint32, _ => .isTrue trivial
  | .int32, _ => .isTrue trivial
  | .uuid, _ => .isTrue trivial

section

variable {fromUtf16 : List UInt16 → String} (hdec : Decodes fromUtf16)

include hdec

theorem fromUtf16_terminated (s : String) : fromUtf16 (toUtf16 s ++ [0]) = s.push '\x00' := by
  rw [← toUtf16_push_nul, hdec.valid]

end

/-- What is read of a string: all of its units and the terminator, or, after the
length wrapped around, fewer units than it has. -/
theorem readVaultString_write (fromUtf16 : List UInt16 → String) (memory : Nat → UInt8) (s : String)
    (rest : List UInt8) :
    ∃ units rest', readVaultString fromUtf16 memory (writeVaultString s ++ rest) =
        .ok (fromUtf16 units, rest') ∧
      (units = toUtf16 s ++ [0] ∧ rest' = rest ∨
        2 ^ 31 ≤ (toUtf16 s).length + 1 ∧ units.length < (toUtf16 s).length) := by
  have hbuffer : bytesOfUnits (toUtf16 s) ++ writeU16 0 = bytesOfUnits (toUtf16 s ++ [0]) := by
    rw [bytesOfUnits, bytesOfUnits, List.flatMap_append]
    rfl
  have hsize : (bytesOfUnits (toUtf16 s ++ [0])).length = ((toUtf16 s).length + 1) * 2 := by
    rw [length_bytesOfUnits, List.length_append, List.length_singleton]
  set buffer := bytesOfUnits (toUtf16 s ++ [0]) with hdef
  have hlength : (UInt32.ofNat (((toUtf16 s).length + 1) * 2)).toNat =
      ((toUtf16 s).length + 1) * 2 % 2 ^ 32 := UInt32.toNat_ofNat
  set length := UInt32.ofNat (((toUtf16 s).length + 1) * 2) with hlen
  have heven : ¬ length % 2 ≠ 0 := by
    rw [not_not, ← UInt32.toNat_inj, UInt32.toNat_mod, hlength]
    show _ % 2 ^ 32 % 2 = 0
    omega
  have hle : length.toNat ≤ (buffer ++ rest).length := by
    rw [hlength, List.length_append, hsize]
    omega
  refine ⟨unitsOfBytes ((buffer ++ rest).take length.toNat), (buffer ++ rest).drop length.toNat,
    ?_, ?_⟩
  · rw [writeVaultString, hbuffer, ← hlen, List.append_assoc, readVaultString,
      (Streams.reads_u32 length).run, if_neg heven, bind_eq_ok]
    exact ⟨_, _, readBytes_of_le memory hle, rfl⟩
  · by_cases hshort : (toUtf16 s).length + 1 < 2 ^ 31
    · left
      have hall : length.toNat = buffer.length := by
        rw [hlength, hsize]
        omega
      rw [hall, List.take_left, List.drop_left]
      exact ⟨unitsOfBytes_bytesOfUnits _, rfl⟩
    · right
      refine ⟨by omega, ?_⟩
      rw [length_unitsOfBytes, List.length_take, min_eq_left hle, hlength]
      omega

/-- **A value that is not codable comes back as another one.** -/
theorem Kind.read_ne {fromUtf16 : List UInt16 → String} (hdec : Decodes fromUtf16)
    (memory : Nat → UInt8) {k : Kind} (old : k.Value) {v : k.Value} (hv : ¬ k.Codable v)
    (rest : List UInt8) :
    ∃ v' rest', k.read fromUtf16 memory old (k.write v ++ rest) = .ok (v', rest') ∧ v' ≠ v := by
  cases k with
  | uint32 => exact absurd trivial hv
  | int32 => exact absurd trivial hv
  | uuid => exact absurd trivial hv
  | string =>
    obtain ⟨units, rest', hread, hunits⟩ := readVaultString_write fromUtf16 memory v rest
    refine ⟨fromUtf16 units, rest', hread, fun heq => ?_⟩
    obtain ⟨rfl, -⟩ | ⟨-, hfewer⟩ := hunits
    · rw [fromUtf16_terminated hdec] at heq
      have hlen := congrArg String.length heq
      rw [String.length_push] at hlen
      omega
    · have hle := hdec.substituted units
      rw [heq] at hle
      omega
  | blob =>
    have hlong : 2 ^ 32 ≤ v.length := not_lt.1 hv
    have hsize : (UInt32.ofNat v.length).toNat = v.length % 2 ^ 32 := UInt32.toNat_ofNat
    have hle : (UInt32.ofNat v.length).toNat ≤ (v ++ rest).length := by
      rw [hsize, List.length_append]
      omega
    refine ⟨(v ++ rest).take (UInt32.ofNat v.length).toNat,
      (v ++ rest).drop (UInt32.ofNat v.length).toNat, ?_, fun heq => ?_⟩
    · show readBlob memory (writeU32 _ ++ v ++ rest) = _
      rw [List.append_assoc, readBlob, (Streams.reads_u32 _).run]
      exact readBytes_of_le memory hle
    · have hlen := congrArg List.length heq
      rw [List.length_take, min_eq_left hle, hsize] at hlen
      omega

/-- **A value whose length fits is read with its terminator.** -/
theorem Kind.reads_terminated {fromUtf16 : List UInt16 → String} (hdec : Decodes fromUtf16)
    (memory : Nat → UInt8) {k : Kind} (old : k.Value) {v : k.Value} (hv : k.Fits v) :
    Reads (k.read fromUtf16 memory old) (k.write v) (k.terminated v) := by
  cases k with
  | uint32 => exact Streams.reads_u32 v
  | int32 =>
    refine (Streams.reads_u32 _).andThen ?_
    rw [Int32.toInt32_toUInt32]
    exact .pure v
  | uuid => exact reads_uuid old v
  | string =>
    intro rest
    obtain ⟨units, rest', hread, hunits⟩ := readVaultString_write fromUtf16 memory v rest
    obtain ⟨rfl, rfl⟩ | ⟨hlong, -⟩ := hunits
    · rw [fromUtf16_terminated hdec] at hread
      exact hread
    · have hshort : (toUtf16 v).length + 1 < 2 ^ 31 := hv
      omega
  | blob =>
    refine (Streams.reads_u32 _).bind ?_
    exact reads_readBytes _ (UInt32.toNat_ofNat_of_lt' hv).symm

theorem Kind.Codable.fits {k : Kind} {v : k.Value} (h : k.Codable v) : k.Fits v := by
  cases k with
  | string => exact absurd h id
  | uint32 => trivial
  | int32 => trivial
  | uuid => trivial
  | blob => exact h

theorem Kind.Codable.terminated {k : Kind} {v : k.Value} (h : k.Codable v) :
    k.terminated v = v := by
  cases k with
  | string => exact absurd h id
  | uint32 => rfl
  | int32 => rfl
  | uuid => rfl
  | blob => rfl

/-! ## Nodes -/

namespace NodeData

/-- The `if (m_fields & e_Field...)` of `Node::read`. -/
def readOrder : List Field :=
  [.nodeIdx, .createTime, .modifyTime, .createAgeName, .createAgeUuid, .creatorUuid, .creatorIdx,
    .nodeType, .int32_1, .int32_2, .int32_3, .int32_4, .uint32_1, .uint32_2, .uint32_3, .uint32_4,
    .uuid_1, .uuid_2, .uuid_3, .uuid_4, .string64_1, .string64_2, .string64_3, .string64_4,
    .string64_5, .string64_6, .iString64_1, .iString64_2, .text_1, .text_2, .blob_1, .blob_2]

/-- The `if (m_fields & e_Field...)` of `Node::write`. -/
def writeOrder : List Field :=
  [.nodeIdx, .createTime, .modifyTime, .createAgeName, .createAgeUuid, .creatorUuid, .creatorIdx,
    .nodeType, .int32_1, .int32_2, .int32_3, .int32_4, .uint32_1, .uint32_2, .uint32_3, .uint32_4,
    .uuid_1, .uuid_2, .uuid_3, .uuid_4, .string64_1, .string64_2, .string64_3, .string64_4,
    .string64_5, .string64_6, .iString64_1, .iString64_2, .text_1, .text_2, .blob_1, .blob_2]

section

variable (fromUtf16 : List UInt16 → String) (memory : Field → Nat → UInt8)

def readField (f : Field) (n : NodeData) : Read NodeData :=
  if n.has f then do
    let v ← f.kind.read fromUtf16 (memory f) (n.value f)
    pure (n.assign f v)
  else pure n

def readFields : List Field → NodeData → Read NodeData
  | [], n => pure n
  | f :: fs, n => do
    let n ← readField fromUtf16 memory f n
    readFields fs n

/-- `Node::read`. -/
def read (n : NodeData) : Read NodeData := do
  let fields ← readU64
  readFields fromUtf16 memory readOrder { n with fields }

end

def writeField (n : NodeData) (f : Field) : List UInt8 :=
  if n.has f then f.kind.write (n.value f) else []

/-- `Node::write`. -/
def write (n : NodeData) : List UInt8 :=
  writeU64 n.fields ++ writeOrder.flatMap n.writeField

/-- The lengths of what a node has fit. -/
def Fits (n : NodeData) : Prop := ∀ f, n.has f = true → f.kind.Fits (n.value f)

/-- A node has no string and no blob of 2^32 bytes or more. -/
def Codable (n : NodeData) : Prop := ∀ f, n.has f = true → f.kind.Codable (n.value f)

/-- The two sequences are one. -/
theorem writeOrder_eq : writeOrder = readOrder := rfl

theorem mem_readOrder (f : Field) : f ∈ readOrder := by
  cases f <;> decide

theorem nodup_readOrder : readOrder.Nodup := by
  decide

theorem has_of_fields {n m : NodeData} (h : n.fields = m.fields) : n.has = m.has := by
  funext f
  rw [has, has, h]

section

variable {fromUtf16 : List UInt16 → String} {memory : Field → Nat → UInt8}

theorem readField_frame {f : Field} {n back : NodeData} {bytes rest : List UInt8}
    (h : readField fromUtf16 memory f n bytes = .ok (back, rest)) :
    back.fields = n.fields ∧ ∀ g, g ≠ f → back.value g = n.value g := by
  rw [readField] at h
  split at h
  · obtain ⟨v, mid, -, hv⟩ := bind_eq_ok.1 h
    cases hv
    exact ⟨rfl, fun g hg => n.value_assign_of_ne hg v⟩
  · cases h
    exact ⟨rfl, fun g _ => rfl⟩

/-- Members that are not read keep their value. -/
theorem readFields_frame {fs : List Field} {n back : NodeData} {bytes rest : List UInt8}
    (h : readFields fromUtf16 memory fs n bytes = .ok (back, rest)) :
    back.fields = n.fields ∧ ∀ g, g ∉ fs → back.value g = n.value g := by
  induction fs generalizing n bytes with
  | nil =>
    cases h
    exact ⟨rfl, fun g _ => rfl⟩
  | cons f fs ih =>
    obtain ⟨mid, bytes', hf, hfs⟩ := bind_eq_ok.1 h
    obtain ⟨hfields, hvalue⟩ := readField_frame hf
    obtain ⟨hfields', hvalue'⟩ := ih hfs
    refine ⟨hfields'.trans hfields, fun g hg => ?_⟩
    rw [List.mem_cons, not_or] at hg
    rw [hvalue' g hg.2, hvalue g hg.1]

section

variable (hdec : Decodes fromUtf16)

include hdec

/-- The reader goes where the writer went, as long as the lengths fit. -/
theorem reads_fields (memory : Field → Nat → UInt8) {fs : List Field} (hfs : fs.Nodup)
    {n node : NodeData} (hfields : node.fields = n.fields)
    (hfits : ∀ f ∈ fs, n.has f = true → f.kind.Fits (n.value f)) :
    ∃ back, Reads (readFields fromUtf16 memory fs node) (fs.flatMap n.writeField) back ∧
      ∀ f ∈ fs, n.has f = true → back.value f = f.kind.terminated (n.value f) := by
  induction fs generalizing node with
  | nil => exact ⟨node, .pure node, fun f hf => absurd hf List.not_mem_nil⟩
  | cons f fs ih =>
    rw [List.nodup_cons] at hfs
    have htail : ∀ g ∈ fs, n.has g = true → g.kind.Fits (n.value g) :=
      fun g hg => hfits g (List.mem_cons_of_mem f hg)
    have hnode : node.has f = n.has f := congrFun (has_of_fields hfields) f
    by_cases hf : n.has f = true
    · have hread : Reads (readField fromUtf16 memory f node) (n.writeField f)
          (node.assign f (f.kind.terminated (n.value f))) := by
        rw [readField, if_pos (hnode.trans hf), writeField, if_pos hf]
        exact (Kind.reads_terminated hdec (memory f) (node.value f)
          (hfits f List.mem_cons_self hf)).andThen (.pure _)
      have hassigned : (node.assign f (f.kind.terminated (n.value f))).fields = n.fields := hfields
      obtain ⟨back, hback, hvalues⟩ := ih hfs.2 hassigned htail
      refine ⟨back, hread.bind hback, fun g hg hhas => ?_⟩
      obtain rfl | hg := List.mem_cons.1 hg
      · have hframe := (readFields_frame (hback [])).2 g hfs.1
        rw [hframe, value_assign]
      · exact hvalues g hg hhas
    · have hread : Reads (readField fromUtf16 memory f node) (n.writeField f) node := by
        rw [readField, if_neg (hnode ▸ hf), writeField, if_neg hf]
        exact .pure node
      obtain ⟨back, hback, hvalues⟩ := ih hfs.2 hfields htail
      refine ⟨back, hread.bind hback, fun g hg hhas => ?_⟩
      obtain rfl | hg := List.mem_cons.1 hg
      · exact absurd hhas hf
      · exact hvalues g hg hhas

/-- If what comes back is what was written, it was codable: the first member that
is not is read as something else, and no later one is read into it. -/
theorem codable_of_readFields {fs : List Field} (hfs : fs.Nodup) {n node back : NodeData}
    (hfields : node.fields = n.fields) {rest rest' : List UInt8}
    (h : readFields fromUtf16 memory fs node (fs.flatMap n.writeField ++ rest) = .ok (back, rest'))
    (hsame : ∀ f ∈ fs, n.has f = true → back.value f = n.value f) :
    ∀ f ∈ fs, n.has f = true → f.kind.Codable (n.value f) := by
  induction fs generalizing node with
  | nil => exact fun f hf => absurd hf List.not_mem_nil
  | cons f fs ih =>
    rw [List.nodup_cons] at hfs
    have hnode : node.has f = n.has f := congrFun (has_of_fields hfields) f
    obtain ⟨mid, bytes, hhead, htail⟩ := bind_eq_ok.1 h
    have hmid := (readField_frame hhead).1.trans hfields
    have htailSame : ∀ g ∈ fs, n.has g = true → back.value g = n.value g :=
      fun g hg => hsame g (List.mem_cons_of_mem f hg)
    rw [List.flatMap_cons, List.append_assoc, readField] at hhead
    by_cases hf : n.has f = true
    · rw [if_pos (hnode.trans hf), writeField, if_pos hf] at hhead
      by_cases hcodable : f.kind.Codable (n.value f)
      · rw [(Kind.reads_terminated hdec (memory f) (node.value f) hcodable.fits).run] at hhead
        cases hhead
        intro g hg hhas
        obtain rfl | hg := List.mem_cons.1 hg
        · exact hcodable
        · exact ih hfs.2 hmid htail htailSame g hg hhas
      · obtain ⟨v, bytes', hread, hne⟩ := Kind.read_ne hdec (memory f) (node.value f) hcodable
          (fs.flatMap n.writeField ++ rest)
        obtain ⟨v', mid', hread', hpure⟩ := bind_eq_ok.1 hhead
        rw [hread] at hread'
        cases hread'
        cases hpure
        have hvalue := (readFields_frame htail).2 f hfs.1
        rw [value_assign, hsame f List.mem_cons_self hf] at hvalue
        exact absurd hvalue.symm hne
    · rw [if_neg (hnode ▸ hf), writeField, if_neg hf, List.nil_append] at hhead
      cases hhead
      intro g hg hhas
      obtain rfl | hg := List.mem_cons.1 hg
      · exact absurd hhas hf
      · exact ih hfs.2 hmid htail htailSame g hg hhas

/-- **A node is read as it was written, but for a NUL at the end of every
string.** -/
theorem reads_terminated (memory : Field → Nat → UInt8) (node : NodeData) {n : NodeData}
    (h : n.Fits) :
    ∃ back, Reads (node.read fromUtf16 memory) n.write back ∧ back.fields = n.fields ∧
      ∀ f, n.has f = true → back.value f = f.kind.terminated (n.value f) := by
  have hfields : ({ node with fields := n.fields } : NodeData).fields = n.fields := rfl
  obtain ⟨back, hback, hvalues⟩ := reads_fields hdec memory nodup_readOrder hfields fun f _ => h f
  rw [write, writeOrder_eq]
  exact ⟨back, (Streams.reads_u64 _).bind hback, (readFields_frame (hback [])).1,
    fun f => hvalues f (mem_readOrder f)⟩

/-- **The round trip of the codec.**  Reading what was written of a node takes
what was written and gives the node back if the node has no string and no blob of
2^32 bytes or more, and for no other node. -/
theorem codec_round_trips (node n : NodeData) (rest : List UInt8) :
    (∃ back, node.read fromUtf16 memory (n.write ++ rest) = .ok (back, rest) ∧ back.Same n) ↔
      n.Codable := by
  constructor
  · rintro ⟨back, hread, hfields, hvalues⟩ f hf
    rw [write, writeOrder_eq, List.append_assoc, read, (Streams.reads_u64 _).run] at hread
    have hmask : ({ node with fields := n.fields } : NodeData).fields = n.fields := rfl
    refine codable_of_readFields hdec nodup_readOrder hmask hread (fun g _ hg => ?_) f
      (mem_readOrder f) hf
    exact hvalues g (by rw [has_of_fields hfields]; exact hg)
  · intro h
    obtain ⟨back, hread, hfields, hvalues⟩ := reads_terminated hdec memory node
      fun f hf => (h f hf).fits
    refine ⟨back, hread rest, hfields, fun f hf => ?_⟩
    rw [has_of_fields hfields] at hf
    rw [hvalues f hf, (h f hf).terminated]

end

end

/-- The info node of a player with a name. -/
def playerInfo (name : String) : NodeData :=
  (((blank.set .nodeIdx (10042 : UInt32)).set .nodeType (23 : Int32)).set .uint32_1
    (10041 : UInt32)).set .iString64_1 name

theorem codec_round_trips_image :
    ∃ back, blank.read decodeUtf16 (fun _ _ => 0)
        (((blank.set .nodeType (25 : Int32)).set .blob_1 [1, 2, 3]).write ++ []) = .ok (back, []) ∧
      back.Same ((blank.set .nodeType (25 : Int32)).set .blob_1 [1, 2, 3]) := by
  refine (codec_round_trips decodes_decodeUtf16 blank _ []).2 fun f hf => ?_
  revert hf
  cases f <;> decide

theorem player_name_not_read_back :
    ¬ ∃ back, blank.read decodeUtf16 (fun _ _ => 0) (playerInfo "Yeesha").write = .ok (back, []) ∧
      back.Same (playerInfo "Yeesha") := by
  rintro ⟨back, hread, -, hsame⟩
  have hfits : (playerInfo "Yeesha").Fits := by
    intro f hf
    revert hf
    cases f <;> decide
  obtain ⟨back', hback, hfields, hvalues⟩ := reads_terminated decodes_decodeUtf16 (fun _ _ => 0) blank
    hfits
  have hread' := hback []
  rw [List.append_nil, hread] at hread'
  cases hread'
  have hvalue := hvalues .iString64_1 (by decide)
  rw [hsame .iString64_1 (by rw [has_of_fields hfields]; decide)] at hvalue
  have hne : "Yeesha" ≠ "Yeesha".push '\x00' := by decide
  exact hne hvalue

end NodeData

end Dirtsand.Vault
