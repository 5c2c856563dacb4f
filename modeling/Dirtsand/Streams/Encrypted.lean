import Dirtsand.Streams.Ciphers

/-!
# Encrypted streams

`DS::EncryptedStream` (streams.h, streams.cpp) over a stream of bytes with a
position.  A file is a header of 16 bytes, with a magic text for the cipher and
the length of what is in it, and then enciphered blocks of 8 bytes.  Reader and
writer keep a block between two calls, of which a part is done.

* `writeLoop_holds`, `writeBytes_wrote` — what was written is the blocks in the
  base stream and then the part in the buffer.
* `readLoop_remains`, `readBytes_remains` — what is still to be read is the rest of
  the buffer and then the blocks in the base stream.
* `round_trip` — what is written in any number of calls, and closed, is read again
  in any number of calls; the header has its length.
-/

namespace Dirtsand

open Lib.Reader (leBytes leValue leValue_leBytes length_leBytes)

/-- A `BufferStream`, or an open `FileStream`. -/
structure BufferStream where
  data : List UInt8 := []
  position : Nat := 0
deriving DecidableEq

namespace BufferStream

/-- What is read, which is less than `count` at the end of the stream. -/
def readBytes (s : BufferStream) (count : Nat) : List UInt8 × BufferStream :=
  let count := if s.data.length < s.position + count then s.data.length - s.position else count
  ((s.data.drop s.position).take count, { s with position := s.position + count })

def writeBytes (s : BufferStream) (bytes : List UInt8) : BufferStream where
  data := s.data.take s.position ++ bytes ++ s.data.drop (s.position + bytes.length)
  position := s.position + bytes.length

/-- `seek(offset, SEEK_SET)`. -/
def seek (s : BufferStream) (offset : Nat) : BufferStream :=
  { s with position := if s.data.length < offset then s.data.length else offset }

def atEof (s : BufferStream) : Bool := s.data.length ≤ s.position

def tell (s : BufferStream) : UInt32 := UInt32.ofNat s.position

def size (s : BufferStream) : UInt32 := UInt32.ofNat s.data.length

/-- The bytes from the position on. -/
def left (s : BufferStream) : List UInt8 := s.data.drop s.position

theorem writeBytes_end {s : BufferStream} (h : s.position = s.data.length) (bytes : List UInt8) :
    s.writeBytes bytes = ⟨s.data ++ bytes, (s.data ++ bytes).length⟩ := by
  rw [writeBytes, h, List.take_length, List.drop_eq_nil_of_le (Nat.le_add_right _ _),
    List.append_nil, List.length_append]

theorem readBytes_left {s : BufferStream} {bytes rest : List UInt8} (h : s.left = bytes ++ rest) :
    (s.readBytes bytes.length).1 = bytes ∧ (s.readBytes bytes.length).2.left = rest := by
  have hlen := congrArg List.length h
  rw [left, List.length_drop, List.length_append] at hlen
  have hleft : s.data.drop s.position = bytes ++ rest := h
  by_cases hshort : s.data.length < s.position + bytes.length
  · -- the stream has the bytes, so there are none
    obtain rfl : bytes = [] := List.eq_nil_of_length_eq_zero (by omega)
    have hzero : s.data.length - s.position = 0 := by
      rw [List.length_nil] at hshort hlen
      omega
    rw [readBytes, if_pos hshort, hzero]
    exact ⟨rfl, hleft⟩
  · rw [readBytes, if_neg hshort]
    refine ⟨?_, ?_⟩
    · rw [hleft, List.take_left]
    · rw [left, ← List.drop_drop, hleft, List.drop_left]

end BufferStream

namespace EncryptedStream

/-! ## The stream -/

inductive Mode where
  | read
  | write
deriving DecidableEq, Repr

/-- How a call ends other than by returning: `DS_ASSERT` ends the process, a
`FileIOException` has a text. -/
inductive Error where
  | assertionFailure
  | fileIo (msg : String)
deriving DecidableEq, Repr

/-- `sizeof(m_buffer)`. -/
def blockSize : Nat := 8

def zeros (n : Nat) : List UInt8 := List.replicate n 0

def whatdoyousee : List UInt8 := Streams.toLatin1 "whatdoyousee"

def briceIsSmart : List UInt8 := Streams.toLatin1 "BriceIsSmart"

def notthedroids : List UInt8 := Streams.toLatin1 "notthedroids"

def kTeaKey : Key := #v[0x6c0a5452, 0x03827d0f, 0x3a170b92, 0x16db7fc2]

end EncryptedStream

structure EncryptedStream where
  base : BufferStream
  buffer : List UInt8 := EncryptedStream.zeros EncryptedStream.blockSize
  key : EncryptedStream.Key
  pos : UInt32 := 0
  size : UInt32 := 0
  type : EncryptedStream.EncType
  mode : EncryptedStream.Mode

namespace EncryptedStream

/-- The cipher that a header names. -/
def typeOfMagic (magic : List UInt8) : Option EncType :=
  if magic = whatdoyousee ∨ magic = briceIsSmart then some .tea
  else if magic = notthedroids then some .xxtea
  else none

/-- `CheckEncryption`, with what the stack holds where the stream is too short for a header. -/
def checkEncryption (stack : Nat → UInt8) (stream : BufferStream) : Option EncType × BufferStream :=
  let pos := stream.tell
  let stream := if pos ≠ 0 then stream.seek 0 else stream
  let (bytes, stream) := stream.readBytes 12
  let header := bytes ++ (List.range' bytes.length (12 - bytes.length)).map stack
  (typeOfMagic header, stream.seek pos.toNat)

/-- The constructor. -/
def make (base : BufferStream) (mode : Mode) (type : Option EncType) (keys : Option Key) :
    Except Error EncryptedStream :=
  let key := keys.getD kTeaKey
  if base.position ≠ 0 then .error .assertionFailure
  else if type = none ∧ mode = .write then .error .assertionFailure
  else match mode with
  | .read =>
    let (bytes, base) := base.readBytes 16
    let header := bytes ++ zeros (16 - bytes.length)
    match typeOfMagic (header.take 12) with
    | none => .error (.fileIo "Unknown EncryptedString magic")
    | some found =>
      if type ≠ none ∧ type ≠ some found then .error .assertionFailure
      else
        let size := UInt32.ofNat (leValue (header.drop 12))
        .ok { base := base, key := key, size := size, type := found, mode := .read }
  | .write =>
    let base := base.writeBytes (zeros 16)
    .ok { base := base, key := key, type := type.getD .tea, mode := .write }

def cryptFlush (s : EncryptedStream) : EncryptedStream :=
  { s with
    base := s.base.writeBytes (encipher s.type s.key s.buffer)
    buffer := zeros blockSize }

/-- `memcpy(m_buffer + lp, bytes, …)`. -/
def patch (buffer : List UInt8) (lp : Nat) (bytes : List UInt8) : List UInt8 :=
  buffer.take lp ++ bytes ++ buffer.drop (lp + bytes.length)

local instance neZero_blockSize : NeZero 8 := ⟨by decide⟩

/-- The loop of `writeBytes`, with the bytes that are left to write. -/
def writeLoop (s : EncryptedStream) (lp : Fin 8) (bytes : List UInt8) : EncryptedStream :=
  if bytes = [] then s
  else if blockSize ≤ lp + bytes.length then
    let s := { s with buffer := patch s.buffer lp (bytes.take (blockSize - lp)) }
    writeLoop s.cryptFlush 0 (bytes.drop (blockSize - lp))
  else { s with buffer := patch s.buffer lp bytes }
termination_by bytes.length
decreasing_by
  rename_i hne _
  have hpos := List.length_pos_of_ne_nil hne
  rw [List.length_drop, blockSize]
  omega

/-- `m_pos % sizeof(m_buffer)`. -/
def offset (s : EncryptedStream) : Fin 8 := Fin.ofNat 8 s.pos.toNat

def writeBytes (s : EncryptedStream) (bytes : List UInt8) : Except Error EncryptedStream :=
  if s.mode ≠ .write then .error (.fileIo "EncryptedStream instance is not writeable")
  else
    let s' := s.writeLoop s.offset bytes
    let pos := s.pos + UInt32.ofNat bytes.length
    .ok { s' with pos := pos, size := if s.size < pos then pos else s.size }

/-- The magic text that `close` writes. -/
def magic : EncType → List UInt8
  | .xxtea => notthedroids
  | .tea => whatdoyousee

/-- `close` leaves the base stream. -/
def close (s : EncryptedStream) : BufferStream :=
  match s.mode with
  | .read => s.base
  | .write =>
    let s := if s.offset ≠ 0 then s.cryptFlush else s
    ((s.base.seek 0).writeBytes (magic s.type)).writeBytes (Streams.writeU32 s.size)

/-- The next block; where the base stream has too little, the buffer keeps the rest. -/
def fill (s : EncryptedStream) : EncryptedStream :=
  let (bytes, base) := s.base.readBytes blockSize
  { s with
    base := base
    buffer := decipher s.type s.key (patch s.buffer 0 bytes) }

/-- The loop of `readBytes`, with the number of bytes that are left to read. -/
def readLoop (s : EncryptedStream) (lp : Fin 8) (count : Nat) : List UInt8 × EncryptedStream :=
  if count = 0 then ([], s)
  else
    let s := if lp = 0 then s.fill else s
    if blockSize ≤ lp + count then
      let (rest, s') := readLoop s 0 (count - (blockSize - lp))
      (s.buffer.drop lp ++ rest, s')
    else ((s.buffer.drop lp).take count, s)
termination_by count
decreasing_by
  rw [blockSize]
  omega

def readBytes (s : EncryptedStream) (count : Nat) : Except Error (List UInt8 × EncryptedStream) :=
  if s.mode ≠ .read then .error (.fileIo "EncryptedStream instance is not readable")
  else
    let (bytes, s') := s.readLoop s.offset count
    .ok (bytes, { s' with pos := s.pos + UInt32.ofNat count })

/-- `EncryptedStream::atEof`. -/
def atEof (s : EncryptedStream) : Bool := s.pos = s.size

/-! ## A file written and read -/

def writeAll (s : EncryptedStream) : List (List UInt8) → Except Error EncryptedStream
  | [] => .ok s
  | bytes :: rest => do
    let s ← s.writeBytes bytes
    writeAll s rest

/-- The bytes of a new file to which these were written. -/
def writeFile (type : EncType) (key : Key) (writes : List (List UInt8)) :
    Except Error (List UInt8) := do
  let s ← make {} .write (some type) (some key)
  let s ← s.writeAll writes
  pure s.close.data

def readAll (s : EncryptedStream) : List Nat → Except Error (List (List UInt8) × EncryptedStream)
  | [] => .ok ([], s)
  | count :: rest => do
    let (bytes, s) ← s.readBytes count
    let (more, s) ← readAll s rest
    .ok (bytes :: more, s)

/-- What is read from a file in calls for so many bytes. -/
def readFile (key : Key) (file : List UInt8) (counts : List Nat) :
    Except Error (List (List UInt8) × EncryptedStream) := do
  let s ← make { data := file } .read none (some key)
  s.readAll counts

/-! ## Writing -/

/-- What `writeBytes` put into the base stream and the buffer so far: the blocks
of `text`, and the part of one that is left. -/
structure Holds (s : EncryptedStream) (text : List UInt8) (lp : Nat) : Prop where
  blocks : ∃ (blocks : List (List UInt8)) (part : List UInt8),
    (∀ b ∈ blocks, b.length = blockSize) ∧ text = blocks.flatten ++ part ∧
    part.length = lp ∧ s.buffer = part ++ zeros (blockSize - lp) ∧
    s.base.data = zeros 16 ++ blocks.flatMap (encipher s.type s.key)
  atEnd : s.base.position = s.base.data.length

theorem Holds.cryptFlush {s : EncryptedStream} {text : List UInt8} (h : s.Holds text blockSize) :
    s.cryptFlush.Holds text 0 := by
  obtain ⟨⟨blocks, part, hblocks, htext, hpart, hbuffer, hdata⟩, hend⟩ := h
  have hfull : s.buffer = part := by
    rw [hbuffer]
    exact List.append_nil part
  refine ⟨⟨blocks ++ [part], [], ?_, ?_, rfl, rfl, ?_⟩, ?_⟩
  · intro b hb
    obtain hb | hb := List.mem_append.1 hb
    · exact hblocks b hb
    · rw [List.mem_singleton.1 hb, hpart]
  · rw [htext, List.flatten_append, List.flatten_singleton, List.append_nil]
  · rw [EncryptedStream.cryptFlush, BufferStream.writeBytes_end hend, hfull, hdata,
      List.flatMap_append, List.flatMap_singleton, List.append_assoc]
  · rw [EncryptedStream.cryptFlush, BufferStream.writeBytes_end hend]

/-- Bytes that go into the block that was begun. -/
theorem Holds.patch {s : EncryptedStream} {text bytes : List UInt8} {lp : Nat}
    (h : s.Holds text lp) :
    ({ s with buffer := patch s.buffer lp bytes } : EncryptedStream).Holds (text ++ bytes)
      (lp + bytes.length) := by
  obtain ⟨⟨blocks, part, hblocks, htext, hpart, hbuffer, hdata⟩, hend⟩ := h
  refine ⟨⟨blocks, part ++ bytes, hblocks, ?_, ?_, ?_, hdata⟩, hend⟩
  · rw [htext, List.append_assoc]
  · rw [List.length_append, hpart]
  · have hdrop : s.buffer.drop (lp + bytes.length) = zeros (blockSize - (lp + bytes.length)) := by
      rw [hbuffer, ← List.drop_drop, List.drop_left' hpart, zeros, List.drop_replicate,
        Nat.sub_sub]
      rfl
    have htake : s.buffer.take lp = part := by
      rw [hbuffer, List.take_left' hpart]
    show EncryptedStream.patch s.buffer lp bytes = _
    rw [EncryptedStream.patch, htake, hdrop]

theorem writeLoop_frame (s : EncryptedStream) (lp : Fin 8) (bytes : List UInt8) :
    (s.writeLoop lp bytes).pos = s.pos ∧ (s.writeLoop lp bytes).size = s.size ∧
      (s.writeLoop lp bytes).type = s.type ∧ (s.writeLoop lp bytes).key = s.key ∧
      (s.writeLoop lp bytes).mode = s.mode := by
  induction s, lp, bytes using writeLoop.induct with
  | case1 s lp =>
    rw [writeLoop, if_pos rfl]
    exact ⟨rfl, rfl, rfl, rfl, rfl⟩
  | case2 s lp bytes hne hfull s' ih =>
    rw [writeLoop, if_neg hne, if_pos hfull]
    exact ih
  | case3 s lp bytes hne hfull =>
    rw [writeLoop, if_neg hne, if_neg hfull]
    exact ⟨rfl, rfl, rfl, rfl, rfl⟩

/-- **The loop of `writeBytes` adds its bytes to the text.** -/
theorem writeLoop_holds {s : EncryptedStream} {lp : Fin 8} {text bytes : List UInt8}
    (h : s.Holds text lp) :
    (s.writeLoop lp bytes).Holds (text ++ bytes) ((lp + bytes.length) % blockSize) := by
  revert text
  induction s, lp, bytes using writeLoop.induct with
  | case1 s lp =>
    intro text h
    have hlp : (lp : Nat) < blockSize := lp.isLt
    rw [writeLoop, if_pos rfl, List.append_nil, List.length_nil, Nat.add_zero,
      Nat.mod_eq_of_lt hlp]
    exact h
  | case2 s lp bytes hne hfull s' =>
    rename_i ih
    intro text h
    have htake : (bytes.take (blockSize - lp)).length = blockSize - lp := by
      rw [List.length_take]
      omega
    have hfit : lp + (bytes.take (blockSize - lp)).length = blockSize := by
      have hlp : (lp : Nat) < blockSize := lp.isLt
      omega
    have hpatch := @Holds.patch _ _ (bytes.take (blockSize - lp)) _ h
    rw [hfit] at hpatch
    have hrest := ih hpatch.cryptFlush
    rw [List.append_assoc, List.take_append_drop] at hrest
    have hmod : ((0 : Fin 8) + (bytes.drop (blockSize - lp)).length) % blockSize =
        (lp + bytes.length) % blockSize := by
      rw [List.length_drop, Fin.val_zero, blockSize]
      rw [blockSize] at hfull
      omega
    rw [hmod] at hrest
    rw [writeLoop, if_neg hne, if_pos hfull]
    exact hrest
  | case3 s lp bytes hne hfull =>
    intro text h
    rw [not_le] at hfull
    rw [writeLoop, if_neg hne, if_neg (not_le.2 hfull), Nat.mod_eq_of_lt hfull]
    exact h.patch

/-- A stream to which the text was written. -/
structure Wrote (s : EncryptedStream) (type : EncType) (key : Key) (text : List UInt8) : Prop where
  holds : s.Holds text (text.length % blockSize)
  pos : s.pos = UInt32.ofNat text.length
  size : s.size = UInt32.ofNat text.length
  type : s.type = type
  key : s.key = key
  mode : s.mode = .write

theorem offset_val {s : EncryptedStream} {n : Nat} (h : s.pos = UInt32.ofNat n) :
    (s.offset : Nat) = n % blockSize := by
  rw [offset, h, Fin.val_ofNat, UInt32.toNat_ofNat']
  exact Nat.mod_mod_of_dvd n (by decide)

theorem writeBytes_wrote {s : EncryptedStream} {type : EncType} {key : Key}
    {text bytes : List UInt8} (h : s.Wrote type key text)
    (hlen : (text ++ bytes).length < 2 ^ 32) :
    ∃ s', s.writeBytes bytes = .ok s' ∧ s'.Wrote type key (text ++ bytes) := by
  obtain ⟨hholds, hpos, hsize, htype, hkey, hmode⟩ := h
  obtain ⟨-, -, hloopType, hloopKey, hloopMode⟩ := writeLoop_frame s s.offset bytes
  have hoffset := offset_val hpos
  rw [List.length_append] at hlen
  have hsum : s.pos + UInt32.ofNat bytes.length = UInt32.ofNat (text ++ bytes).length := by
    rw [hpos, List.length_append, UInt32.ofNat_add]
  have hmax : (if s.size < s.pos + UInt32.ofNat bytes.length then
      s.pos + UInt32.ofNat bytes.length else s.size) = UInt32.ofNat (text ++ bytes).length := by
    rw [hsum]
    split
    · rfl
    · rename_i hle
      have htext : text.length < 2 ^ 32 := by omega
      rw [hsize, UInt32.lt_iff_toNat_lt, List.length_append, UInt32.toNat_ofNat_of_lt' hlen,
        UInt32.toNat_ofNat_of_lt' htext] at hle
      have hnil : bytes.length = 0 := by omega
      rw [hsize, List.length_append, hnil, Nat.add_zero]
  rw [writeBytes, if_neg (not_not.2 hmode)]
  refine ⟨_, rfl, ?_, hsum, hmax, hloopType.trans htype, hloopKey.trans hkey,
    hloopMode.trans hmode⟩
  rw [← hoffset] at hholds
  have hloop := @writeLoop_holds _ _ _ bytes hholds
  rw [hoffset, Nat.mod_add_mod, ← List.length_append] at hloop
  exact ⟨hloop.1, hloop.2⟩

theorem writeAll_wrote {s : EncryptedStream} {type : EncType} {key : Key} {text : List UInt8}
    {writes : List (List UInt8)} (h : s.Wrote type key text)
    (hlen : (text ++ writes.flatten).length < 2 ^ 32) :
    ∃ s', s.writeAll writes = .ok s' ∧ s'.Wrote type key (text ++ writes.flatten) := by
  induction writes generalizing s text with
  | nil =>
    refine ⟨s, rfl, ?_⟩
    rw [List.flatten_nil, List.append_nil]
    exact h
  | cons bytes rest ih =>
    rw [List.flatten_cons, ← List.append_assoc] at hlen ⊢
    have hfirst : (text ++ bytes).length < 2 ^ 32 := by
      rw [List.length_append] at hlen
      omega
    obtain ⟨s₁, h₁, hwrote⟩ := writeBytes_wrote h hfirst
    obtain ⟨s₂, h₂, hwrote⟩ := ih hwrote hlen
    refine ⟨s₂, ?_, hwrote⟩
    rw [writeAll, h₁]
    exact h₂

theorem make_wrote (type : EncType) (key : Key) :
    ∃ s, make {} .write (some type) (some key) = .ok s ∧ s.Wrote type key [] :=
  ⟨_, rfl, ⟨⟨⟨[], [], fun _ hb => absurd hb List.not_mem_nil, rfl, rfl, rfl, rfl⟩, rfl⟩,
    rfl, rfl, rfl, rfl, rfl⟩⟩

/-! ## Closing -/

theorem length_zeros (n : Nat) : (zeros n).length = n := List.length_replicate

theorem length_magic (type : EncType) : (magic type).length = 12 := by
  cases type <;> decide

theorem typeOfMagic_magic (type : EncType) : typeOfMagic (magic type) = some type := by
  cases type <;> decide

/-- The zeros at the end of the buffer belong to the last block. -/
theorem Holds.pad {s : EncryptedStream} {text : List UInt8} {lp : Nat} (h : s.Holds text lp)
    (hlp : lp ≤ blockSize) : s.Holds (text ++ zeros (blockSize - lp)) blockSize := by
  obtain ⟨⟨blocks, part, hblocks, htext, hpart, hbuffer, hdata⟩, hend⟩ := h
  refine ⟨⟨blocks, part ++ zeros (blockSize - lp), hblocks, ?_, ?_, ?_, hdata⟩, hend⟩
  · rw [htext, List.append_assoc]
  · rw [List.length_append, hpart, length_zeros]
    omega
  · rw [hbuffer, Nat.sub_self]
    exact (List.append_nil _).symm

/-- A file: the header, and blocks that hold the text and then less than a block of zeros. -/
structure IsFile (type : EncType) (key : Key) (text file : List UInt8)
    (blocks : List (List UInt8)) : Prop where
  full : ∀ b ∈ blocks, b.length = blockSize
  contents : ∃ pad < blockSize, blocks.flatten = text ++ zeros pad
  file : file = magic type ++
    (Streams.writeU32 (UInt32.ofNat text.length) ++ blocks.flatMap (encipher type key))

/-- The last block of a file is not all padding. -/
theorem IsFile.length_body {type : EncType} {key : Key} {text file : List UInt8}
    {blocks : List (List UInt8)} (h : IsFile type key text file blocks) :
    (blocks.flatMap (encipher type key)).length = (text.length + 7) / 8 * 8 := by
  obtain ⟨hfull, ⟨pad, hpad, hcontents⟩, -⟩ := h
  have htotal : ∀ f : List UInt8 → List UInt8, (∀ b ∈ blocks, (f b).length = blockSize) →
      (blocks.flatMap f).length = blocks.length * blockSize := by
    intro f hf
    rw [List.length_flatMap, List.map_congr_left hf, List.map_const', List.sum_replicate,
      smul_eq_mul]
  have hplain := htotal id hfull
  rw [List.flatMap_id, hcontents, List.length_append, length_zeros] at hplain
  rw [htotal (encipher type key) fun b _ => length_encipher type key b]
  rw [blockSize] at hpad hplain ⊢
  omega

theorem IsFile.length_file {type : EncType} {key : Key} {text file : List UInt8}
    {blocks : List (List UInt8)} (h : IsFile type key text file blocks) :
    file.length = 16 + (text.length + 7) / 8 * 8 := by
  have hword : (Streams.writeU32 (UInt32.ofNat text.length)).length = 4 := length_leBytes 4 _
  rw [h.file, List.length_append, List.length_append, length_magic, hword, h.length_body,
    ← Nat.add_assoc]

/-- The header goes where the constructor left room for it. -/
theorem writeHeader {base : BufferStream} {magic size body : List UInt8}
    (h : base.data = zeros 16 ++ body) (hmagic : magic.length = 12) (hsize : size.length = 4) :
    (((base.seek 0).writeBytes magic).writeBytes size).data = magic ++ (size ++ body) := by
  have hfirst : (base.seek 0).writeBytes magic = ⟨magic ++ (zeros 4 ++ body), 12⟩ := by
    have hdrop : (zeros 16 ++ body).drop 12 = zeros 4 ++ body := rfl
    rw [BufferStream.writeBytes, BufferStream.seek, if_neg (Nat.not_lt_zero _), h, hmagic,
      Nat.zero_add, hdrop, List.take_zero, List.nil_append]
  have hdrop : (zeros 4 ++ body).drop 4 = body := rfl
  rw [hfirst, BufferStream.writeBytes, hsize, List.take_left' hmagic, ← List.drop_drop,
    List.drop_left' hmagic, hdrop, List.append_assoc]

theorem close_isFile {s : EncryptedStream} {type : EncType} {key : Key} {text : List UInt8}
    (h : s.Wrote type key text) : ∃ blocks, IsFile type key text s.close.data blocks := by
  obtain ⟨hholds, hpos, hsize, htype, hkey, hmode⟩ := h
  have hoffset := offset_val hpos
  have hword : ∀ size, (Streams.writeU32 size).length = 4 := fun _ => length_leBytes 4 _
  by_cases hzero : s.offset = 0
  · have hlp : text.length % blockSize = 0 := by
      rw [← hoffset, hzero]
      rfl
    rw [hlp] at hholds
    obtain ⟨⟨blocks, part, hblocks, htext, hpart, -, hdata⟩, -⟩ := hholds
    obtain rfl := List.eq_nil_of_length_eq_zero hpart
    refine ⟨blocks, hblocks, ⟨0, by decide, ?_⟩, ?_⟩
    · rw [htext, List.append_nil]
      exact (List.append_nil _).symm
    · rw [close, hmode]
      simp only [hzero, ne_eq, not_true_eq_false, if_false]
      rw [writeHeader hdata (length_magic s.type) (hword _), hsize, htype, hkey]
  · have hlp : text.length % blockSize < blockSize := Nat.mod_lt _ (by decide)
    have hpos' : text.length % blockSize ≠ 0 := by
      rw [← hoffset]
      exact fun hval => hzero (Fin.ext hval)
    obtain ⟨⟨blocks, part, hblocks, htext, hpart, -, hdata⟩, -⟩ := (hholds.pad hlp.le).cryptFlush
    obtain rfl := List.eq_nil_of_length_eq_zero hpart
    refine ⟨blocks, hblocks, ⟨blockSize - text.length % blockSize, by omega, ?_⟩, ?_⟩
    · rw [htext, List.append_nil]
    · rw [close, hmode]
      simp only [hzero, ne_eq, not_false_eq_true, if_true]
      have hmagic : (magic s.cryptFlush.type).length = 12 := length_magic _
      rw [writeHeader hdata hmagic (hword _)]
      show magic s.type ++ (Streams.writeU32 s.size ++ blocks.flatMap (encipher s.type s.key)) = _
      rw [hsize, htype, hkey]

/-! ## Reading -/

/-- What is still to be read: the rest of the buffer, and then the blocks in the base stream. -/
structure Holding (s : EncryptedStream) (plain : List UInt8) (lp : Nat) : Prop where
  blocks : ∃ todo : List (List UInt8), (∀ b ∈ todo, b.length = blockSize) ∧
    s.base.left = todo.flatMap (encipher s.type s.key) ∧ plain = s.buffer.drop lp ++ todo.flatten
  buffer : s.buffer.length = blockSize

/-- As `Holding`, where at offset zero the buffer has nothing yet. -/
structure Remains (s : EncryptedStream) (plain : List UInt8) (lp : Nat) : Prop where
  blocks : ∃ todo : List (List UInt8), (∀ b ∈ todo, b.length = blockSize) ∧
    s.base.left = todo.flatMap (encipher s.type s.key) ∧
    plain = (if lp = 0 then [] else s.buffer.drop lp) ++ todo.flatten
  buffer : s.buffer.length = blockSize

theorem Remains.fill {s : EncryptedStream} {plain : List UInt8} (h : s.Remains plain 0)
    (hne : plain ≠ []) : s.fill.Holding plain 0 := by
  obtain ⟨⟨todo, htodo, hleft, hplain⟩, hbuffer⟩ := h
  rw [if_pos rfl, List.nil_append] at hplain
  obtain _ | ⟨b, todo⟩ := todo
  · exact absurd hplain hne
  · have hb := htodo b List.mem_cons_self
    rw [List.flatMap_cons] at hleft
    obtain ⟨hread, hrest⟩ := BufferStream.readBytes_left hleft
    rw [length_encipher] at hread hrest
    have hfill : s.fill.buffer = b := by
      show decipher s.type s.key (EncryptedStream.patch s.buffer 0 (s.base.readBytes 8).1) = b
      rw [hread, EncryptedStream.patch, length_encipher,
        List.drop_eq_nil_of_le (by rw [hbuffer]; decide), List.append_nil]
      exact decipher_encipher s.type s.key hb
    refine ⟨⟨todo, fun c hc => htodo c (List.mem_cons_of_mem b hc), hrest, ?_⟩, ?_⟩
    · rw [hfill, hplain, List.flatten_cons]
      rfl
    · rw [hfill, hb]

theorem Remains.holding {s : EncryptedStream} {plain : List UInt8} {lp : Nat}
    (h : s.Remains plain lp) (hlp : lp ≠ 0) : s.Holding plain lp := by
  obtain ⟨⟨todo, htodo, hleft, hplain⟩, hbuffer⟩ := h
  rw [if_neg hlp] at hplain
  exact ⟨⟨todo, htodo, hleft, hplain⟩, hbuffer⟩

/-- What the loop of `readBytes` copies from is what remains. -/
theorem Remains.current {s : EncryptedStream} {plain : List UInt8} {lp : Fin 8}
    (h : s.Remains plain lp) (hne : plain ≠ []) :
    (if lp = 0 then s.fill else s).Holding plain lp := by
  by_cases hlp : lp = 0
  · rw [if_pos hlp]
    subst hlp
    exact h.fill hne
  · rw [if_neg hlp]
    exact h.holding fun hval => hlp (Fin.ext hval)

/-- **The loop of `readBytes` takes its bytes off what remains.** -/
theorem readLoop_remains {s : EncryptedStream} {lp : Fin 8} {count : Nat} {plain : List UInt8}
    (h : s.Remains plain lp) (hcount : count ≤ plain.length) :
    (s.readLoop lp count).1 = plain.take count ∧
      (s.readLoop lp count).2.Remains (plain.drop count) ((lp + count) % blockSize) := by
  revert plain
  induction s, lp, count using readLoop.induct with
  | case1 s lp =>
    intro plain h _
    have hlp : (lp : Nat) < blockSize := lp.isLt
    rw [readLoop, if_pos rfl, Nat.add_zero, Nat.mod_eq_of_lt hlp]
    exact ⟨rfl, h⟩
  | case2 s lp count hne s₁ hfull =>
    rename_i ih
    intro plain h hcount
    have hplain : plain ≠ [] := by
      rintro rfl
      rw [List.length_nil] at hcount
      omega
    have hcurrent : s₁.Holding plain lp := h.current hplain
    obtain ⟨⟨todo, htodo, hleft, rfl⟩, hbuffer⟩ := hcurrent
    have hlp : (lp : Nat) < blockSize := lp.isLt
    have hlen : (s₁.buffer.drop lp).length = blockSize - lp := by
      rw [List.length_drop, hbuffer]
    have hsplit : count = (s₁.buffer.drop lp).length + (count - (blockSize - lp)) := by omega
    have hrest : s₁.Remains todo.flatten 0 := by
      refine ⟨⟨todo, htodo, hleft, ?_⟩, hbuffer⟩
      rw [if_pos rfl, List.nil_append]
    rw [List.length_append, hlen] at hcount
    obtain ⟨htake, hdrop⟩ := ih hrest (by omega)
    have hmod : (((0 : Fin 8) : Nat) + (count - (blockSize - lp))) % blockSize =
        (lp + count) % blockSize := by
      rw [Fin.val_zero]
      rw [blockSize] at hfull ⊢
      omega
    rw [readLoop, if_neg hne, if_pos hfull]
    constructor
    · show s₁.buffer.drop lp ++ (s₁.readLoop 0 (count - (blockSize - lp))).1 = _
      conv_rhs => rw [hsplit]
      rw [htake, List.take_length_add_append]
    · have hdropped : (s₁.buffer.drop lp ++ todo.flatten).drop count =
          todo.flatten.drop (count - (blockSize - lp)) := by
        conv_lhs => rw [hsplit]
        rw [List.drop_length_add_append]
      rw [hdropped, ← hmod]
      exact hdrop
  | case3 s lp count hne hfull =>
    intro plain h hcount
    have hplain : plain ≠ [] := by
      rintro rfl
      rw [List.length_nil] at hcount
      omega
    have hcurrent := h.current hplain
    rw [not_le] at hfull
    rw [readLoop, if_neg hne, if_neg (not_le.2 hfull), Nat.mod_eq_of_lt hfull]
    generalize (if lp = 0 then s.fill else s) = s₁ at hcurrent ⊢
    obtain ⟨⟨todo, htodo, hleft, rfl⟩, hbuffer⟩ := hcurrent
    have hshort : count ≤ (s₁.buffer.drop lp).length := by
      rw [List.length_drop, hbuffer]
      omega
    refine ⟨(List.take_append_of_le_length hshort).symm, ⟨todo, htodo, hleft, ?_⟩, hbuffer⟩
    rw [if_neg (by omega), List.drop_append_of_le_length hshort, List.drop_drop]

theorem fill_frame (s : EncryptedStream) :
    s.fill.mode = s.mode ∧ s.fill.size = s.size := ⟨rfl, rfl⟩

theorem readLoop_frame (s : EncryptedStream) (lp : Fin 8) (count : Nat) :
    (s.readLoop lp count).2.mode = s.mode ∧ (s.readLoop lp count).2.size = s.size := by
  have hcurrent : ∀ (s : EncryptedStream) (lp : Fin 8), (if lp = 0 then s.fill else s).mode = s.mode ∧
      (if lp = 0 then s.fill else s).size = s.size := by
    intro s lp
    split
    · exact s.fill_frame
    · exact ⟨rfl, rfl⟩
  induction s, lp, count using readLoop.induct with
  | case1 s lp =>
    rw [readLoop, if_pos rfl]
    exact ⟨rfl, rfl⟩
  | case2 s lp count hne s₁ hfull =>
    rename_i ih
    have hframe : s₁.mode = s.mode ∧ s₁.size = s.size := hcurrent s lp
    rw [readLoop, if_neg hne, if_pos hfull]
    exact ⟨ih.1.trans hframe.1, ih.2.trans hframe.2⟩
  | case3 s lp count hne hfull =>
    rw [readLoop, if_neg hne, if_neg hfull]
    exact hcurrent s lp

/-- A stream from which `done` bytes were read, with `plain` after them. -/
structure Reading (s : EncryptedStream) (size : UInt32) (done : Nat) (plain : List UInt8) :
    Prop where
  remains : s.Remains plain (done % blockSize)
  pos : s.pos = UInt32.ofNat done
  size : s.size = size
  mode : s.mode = .read

theorem readBytes_reading {s : EncryptedStream} {size : UInt32} {done count : Nat}
    {plain : List UInt8} (h : s.Reading size done plain) (hcount : count ≤ plain.length) :
    ∃ s', s.readBytes count = .ok (plain.take count, s') ∧
      s'.Reading size (done + count) (plain.drop count) := by
  obtain ⟨hremains, hpos, hsize, hmode⟩ := h
  have hoffset := offset_val hpos
  rw [← hoffset] at hremains
  obtain ⟨htake, hdrop⟩ := readLoop_remains hremains hcount
  obtain ⟨hloopMode, hloopSize⟩ := readLoop_frame s s.offset count
  rw [hoffset, Nat.mod_add_mod] at hdrop
  rw [readBytes, if_neg (not_not.2 hmode)]
  refine ⟨_, congrArg (fun bytes => Except.ok (bytes, _)) htake, ⟨hdrop.1, hdrop.2⟩, ?_,
    hloopSize.trans hsize, hloopMode.trans hmode⟩
  show s.pos + UInt32.ofNat count = UInt32.ofNat (done + count)
  rw [hpos, UInt32.ofNat_add]

theorem readAll_reading {s : EncryptedStream} {size : UInt32} {done : Nat} {plain : List UInt8}
    {counts : List Nat} (h : s.Reading size done plain) (hcounts : counts.sum ≤ plain.length) :
    ∃ reads s', s.readAll counts = .ok (reads, s') ∧ reads.flatten = plain.take counts.sum ∧
      reads.map List.length = counts ∧
      s'.Reading size (done + counts.sum) (plain.drop counts.sum) := by
  induction counts generalizing s done plain with
  | nil => exact ⟨[], s, rfl, rfl, rfl, h⟩
  | cons count rest ih =>
    rw [List.sum_cons] at hcounts ⊢
    obtain ⟨s₁, hread, hreading⟩ := @readBytes_reading _ _ _ count _ h (by omega)
    have hrest : rest.sum ≤ (plain.drop count).length := by
      rw [List.length_drop]
      omega
    obtain ⟨reads, s₂, hreads, hflatten, hlengths, hlast⟩ := ih hreading hrest
    refine ⟨plain.take count :: reads, s₂, ?_, ?_, ?_, ?_⟩
    · rw [readAll, hread]
      show (do let (more, s) ← s₁.readAll rest; Except.ok (plain.take count :: more, s)) = _
      rw [hreads]
      rfl
    · rw [List.flatten_cons, hflatten, List.take_add]
    · rw [List.map_cons, hlengths, List.length_take, min_eq_left (by omega)]
    · rw [← Nat.add_assoc, ← List.drop_drop]
      exact hlast

theorem make_reading {type : EncType} {key : Key} {text file : List UInt8}
    {blocks : List (List UInt8)} (h : IsFile type key text file blocks) :
    ∃ s, make { data := file } .read none (some key) = .ok s ∧
      s.Reading (UInt32.ofNat text.length) 0 blocks.flatten := by
  obtain ⟨hfull, -, rfl⟩ := h
  have hmagic := length_magic type
  have hword : (Streams.writeU32 (UInt32.ofNat text.length)).length = 4 := length_leBytes 4 _
  have hfile : BufferStream.left { data := magic type ++ (Streams.writeU32
        (UInt32.ofNat text.length) ++ blocks.flatMap (encipher type key)) } =
      (magic type ++ Streams.writeU32 (UInt32.ofNat text.length)) ++
        blocks.flatMap (encipher type key) := by
    rw [BufferStream.left, List.append_assoc]
    rfl
  obtain ⟨hread, hleft⟩ := BufferStream.readBytes_left hfile
  rw [List.length_append, hmagic, hword] at hread hleft
  have hheader : ∀ bytes : List UInt8, bytes.length = 16 → bytes ++ zeros (16 - bytes.length) = bytes := by
    intro bytes hlen
    rw [hlen]
    exact List.append_nil bytes
  have hlen : (magic type ++ Streams.writeU32 (UInt32.ofNat text.length)).length = 16 := by
    rw [List.length_append, hmagic, hword]
  have hsize : UInt32.ofNat (leValue (Streams.writeU32 (UInt32.ofNat text.length))) =
      UInt32.ofNat text.length := word_of_bytes _
  rw [make, if_neg (not_not.2 rfl), if_neg (fun hwrite => by cases hwrite.2)]
  simp only [hread, hheader _ hlen, List.take_left' hmagic, List.drop_left' hmagic,
    typeOfMagic_magic, hsize]
  refine ⟨_, rfl, ⟨⟨blocks, hfull, hleft, ?_⟩, rfl⟩, rfl, rfl, rfl⟩
  rw [Nat.zero_mod, if_pos rfl, List.nil_append]

/-! ## The round trip -/

/-- **What is written to an encrypted stream is read from it.**  For either
cipher and any key, whatever calls write the text and whatever calls read as
much, the file has the length of the text in its header and a body of whole
blocks, of which the last one is not all padding, and the reads return the text
and come to its end. -/
theorem round_trip (type : EncType) (key : Key) (writes : List (List UInt8)) (counts : List Nat)
    (hlen : writes.flatten.length < 2 ^ 32 - 8) (hcounts : counts.sum = writes.flatten.length) :
    ∃ file body, writeFile type key writes = .ok file ∧
      file = magic type ++ (Streams.writeU32 (UInt32.ofNat writes.flatten.length) ++ body) ∧
      (UInt32.ofNat writes.flatten.length).toNat = writes.flatten.length ∧
      body.length = (writes.flatten.length + 7) / 8 * 8 ∧
      ∃ reads s, readFile key file counts = .ok (reads, s) ∧ reads.flatten = writes.flatten ∧
        reads.map List.length = counts ∧ s.atEof = true := by
  have hsmall : writes.flatten.length < 2 ^ 32 := by omega
  obtain ⟨s₀, hmake, hstart⟩ := make_wrote type key
  obtain ⟨s₁, hwrite, hwrote⟩ := @writeAll_wrote _ _ _ _ writes hstart hsmall
  rw [List.nil_append] at hwrote
  obtain ⟨blocks, hfile⟩ := close_isFile hwrote
  obtain ⟨s₂, hopen, hreading⟩ := make_reading hfile
  have hbody := hfile.length_body
  obtain ⟨hfull, ⟨pad, hpad, hcontents⟩, hdata⟩ := hfile
  have hread : counts.sum ≤ blocks.flatten.length := by
    rw [hcontents, List.length_append]
    omega
  obtain ⟨reads, s₃, hreads, hflatten, hlengths, hlast⟩ := readAll_reading hreading hread
  refine ⟨_, blocks.flatMap (encipher type key), ?_, hdata, UInt32.toNat_ofNat_of_lt' hsmall,
    hbody, reads, s₃, ?_, ?_, hlengths, ?_⟩
  · rw [writeFile, hmake]
    show (do let s ← s₀.writeAll writes; pure s.close.data) = _
    rw [hwrite]
    rfl
  · rw [readFile, hopen]
    exact hreads
  · rw [hflatten, hcontents, hcounts, List.take_left]
  · rw [atEof, hlast.pos, hlast.size, Nat.zero_add, hcounts]
    exact decide_eq_true rfl

/-- A text of 13 bytes in two writes and three reads. -/
theorem round_trip_hello :
    ∃ file body, writeFile .tea kTeaKey [zeros 5, zeros 8] = .ok file ∧
      file = magic .tea ++ (Streams.writeU32 (UInt32.ofNat 13) ++ body) ∧
      (UInt32.ofNat 13).toNat = 13 ∧ body.length = (13 + 7) / 8 * 8 ∧
      ∃ reads s, readFile kTeaKey file [3, 0, 10] = .ok (reads, s) ∧
        reads.flatten = [zeros 5, zeros 8].flatten ∧ reads.map List.length = [3, 0, 10] ∧
        s.atEof = true :=
  round_trip .tea kTeaKey [zeros 5, zeros 8] [3, 0, 10] (by decide) (by decide)

end EncryptedStream

end Dirtsand
