import Dirtsand.Streams.Buffer

/-!
# What is read from a stream

`DS::Stream` (streams.h, streams.cpp) and its four implementations, as they are
read: an open file, a buffer, a blob, and an encrypted stream.  `read` and
`readLine` are written over the virtual `readBytes`.  What they are to return is
the text, piece by piece; `text` and `position` are those of a `Cursor`.

* `readBytes_spec`, `readLineLoop_spec` — every stream returns the bytes at the
  cursor, an encrypted one as long as nothing past the end is asked for.
* `readLineLoop_goesOn` — an encrypted stream fills every line, as it does not know
  where it ends.
* `contract_iff` — the streams that are read to their end and no further are those
  that are not encrypted; an encrypted one is, in the calls that stay inside.
-/

namespace Dirtsand

open RamBuffer (Cursor)

/-- The blob is not the stream's. -/
structure BlobStream where
  blob : List UInt8
  position : Nat := 0

/-- Nothing is returned where memory outside of the blob is read. -/
def BlobStream.readBytes (s : BlobStream) (count : Nat) : Option (List UInt8 × BlobStream) :=
  if s.blob.length < s.position then none
  else
    let count := if s.blob.length < s.position + count then s.blob.length - s.position else count
    some ((s.blob.drop s.position).take count, { s with position := s.position + count })

/-- A stream by its class. -/
inductive Stream where
  | file (s : BufferStream)
  | buffer (s : RamBuffer.BufferStream)
  | blob (s : BlobStream)
  | encrypted (s : EncryptedStream)

namespace Stream

/-- How a call fails: memory outside of an array is read, or as an encrypted stream does. -/
inductive Failure where
  | memory
  | error (e : EncryptedStream.Error)

/-! ## The virtual functions -/

/-- What is put into the buffer of the caller, of which the length is returned. -/
def readBytes (s : Stream) (count : Nat) : Except Failure (List UInt8 × Stream) :=
  match s with
  | .file s => .ok ((s.readBytes count).1, .file (s.readBytes count).2)
  | .buffer s => match s.readBytes count with
    | none => .error .memory
    | some (bytes, s) => .ok (bytes, .buffer s)
  | .blob s => match s.readBytes count with
    | none => .error .memory
    | some (bytes, s) => .ok (bytes, .blob s)
  | .encrypted s => match s.readBytes count with
    | .error e => .error (.error e)
    | .ok (bytes, s) => .ok (bytes, .encrypted s)

def tell : Stream → UInt32
  | .file s => s.tell
  | .buffer s => UInt32.ofNat s.position
  | .blob s => UInt32.ofNat s.position
  | .encrypted s => s.pos

def size : Stream → UInt32
  | .file s => s.size
  | .buffer s => UInt32.ofNat s.size
  | .blob s => UInt32.ofNat s.blob.length
  | .encrypted s => s.size

def atEof : Stream → Bool
  | .file s => s.atEof
  | .buffer s => s.size ≤ s.position
  | .blob s => UInt32.ofNat s.blob.length ≤ UInt32.ofNat s.position
  | .encrypted s => s.atEof

/-! ## Written over them -/

/-- `read`, of a type with this size: the bytes of the value, or an `EofException`, which leaves
the stream where the bytes ended. -/
def read (s : Stream) (width : Nat) : Except Failure (Option (List UInt8) × Stream) := do
  let (bytes, s) ← s.readBytes width
  if bytes.length ≠ width then .ok (none, s) else .ok (some bytes, s)

/-- The loop of `readLine`, with the bytes up to `endp` that are free. -/
def readLineLoop (s : Stream) : Nat → Except Failure (List UInt8 × Stream)
  | 0 => .ok ([], s)
  | room + 1 => do
    let (bytes, s) ← s.readBytes 1
    match bytes with
    | [] => .ok ([], s)
    | c :: _ =>
      if c = 10 then .ok ([c], s)
      else
        let (rest, s) ← readLineLoop s room
        .ok (c :: rest, s)

/-- `readLine`: what stands in the buffer before the zero, and whether it is anything. -/
def readLine (s : Stream) (count : Nat) : Except Failure ((List UInt8 × Bool) × Stream) :=
  if count < 1 then .error (.error .assertionFailure)
  else do
    let (line, s) ← s.readLineLoop (count - 1)
    .ok ((line, decide (line ≠ [])), s)

/-- `readLine` with a buffer after the other, until it returns false: the lines, and whether it
did. -/
def readLines (s : Stream) : List Nat → Except Failure (List (List UInt8) × Bool)
  | [] => .ok ([], false)
  | count :: counts => do
    let ((line, more), s) ← s.readLine count
    if more then
      let (lines, ended) ← readLines s counts
      .ok (line :: lines, ended)
    else .ok ([], true)

/-- What is called to read from a stream. -/
inductive Call where
  | readBytes (count : Nat)
  | read (width : Nat)
  /-- with a buffer for so many bytes and the zero -/
  | readLine (room : Nat)

/-- What a call returns. -/
inductive Answer where
  | bytes (bytes : List UInt8)
  | value (bytes : List UInt8)
  | eof
  | line (line : List UInt8) (more : Bool)
deriving DecidableEq

def perform (s : Stream) : Call → Except Failure (Answer × Stream)
  | .readBytes count => do
    let (bytes, s) ← s.readBytes count
    .ok (.bytes bytes, s)
  | .read width => do
    let (value, s) ← s.read width
    .ok (value.elim .eof .value, s)
  | .readLine room => do
    let ((line, more), s) ← s.readLine (room + 1)
    .ok (.line line more, s)

end Stream

/-! ## What they are to return -/

/-- The beginning of a text up to the end of a line, or as much as there is room for. -/
def lineOf : Nat → List UInt8 → List UInt8
  | 0, _ => []
  | _ + 1, [] => []
  | room + 1, c :: text => if c = 10 then [c] else c :: lineOf room text

/-- A line that ends before the text does: there is no more room, or it has its newline. -/
def Full (room : Nat) (line : List UInt8) : Prop := line.length = room ∨ line.getLast? = some 10

namespace Cursor

/-- The cursor after the bytes. -/
def past (c : Cursor) (bytes : List UInt8) : Cursor :=
  { c with position := c.position + bytes.length }

/-- What a call is to return, and the cursor after it. -/
def perform (c : Cursor) : Stream.Call → Stream.Answer × Cursor
  | .readBytes count => (.bytes (c.left.take count), past c (c.left.take count))
  | .read width =>
    (if c.left.length < width then .eof else .value (c.left.take width), past c (c.left.take width))
  | .readLine room =>
    (.line (lineOf room c.left) (decide (lineOf room c.left ≠ [])), past c (lineOf room c.left))

/-- A call that asks for nothing past the end. -/
def Inside (c : Cursor) : Stream.Call → Prop
  | .readBytes count => count ≤ c.left.length
  | .read width => width ≤ c.left.length
  | .readLine room => Full room (lineOf room c.left)

/-- So are all of these calls. -/
def Within (c : Cursor) : List Stream.Call → Prop
  | [] => True
  | call :: calls => Inside c call ∧ Within (perform c call).2 calls

end Cursor

namespace Stream

/-- The stream says where it is. -/
structure Agrees (s : Stream) (c : Cursor) : Prop where
  tell : s.tell.toNat = c.position
  size : s.size.toNat = c.data.length
  atEof : s.atEof = true ↔ c.left = []

/-- Every call returns what it is to return, and the stream says where it is before each of them
and at the end. -/
def Keeps (s : Stream) (c : Cursor) : List Call → Prop
  | [] => s.Agrees c
  | call :: calls => s.Agrees c ∧ ∃ s', s.perform call = .ok ((Cursor.perform c call).1, s') ∧
    s'.Keeps (Cursor.perform c call).2 calls

/-- After enough lines, of whatever room, there is no more, and together they are the text. -/
def LinesEnd (s : Stream) (c : Cursor) : Prop :=
  ∃ enough, ∀ counts : List Nat, (∀ count ∈ counts, 2 ≤ count) → enough ≤ counts.length →
    ∃ lines, s.readLines counts = .ok (lines, true) ∧ lines.flatten = c.left

/-- The contract of a stream at a cursor. -/
structure Contract (s : Stream) (c : Cursor) : Prop where
  keeps : ∀ calls, s.Keeps c calls
  lines : s.LinesEnd c

def Encrypted : Stream → Prop
  | .encrypted _ => True
  | _ => False

/-- The stream is open for reading, at this place of this text.  What is deciphered goes on after
the text, to the end of a block. -/
inductive Opened : Stream → Cursor → Prop where
  | file {c : Cursor} (position : c.position ≤ c.data.length) (size : c.data.length < 2 ^ 32) :
    Opened (.file c) c
  | buffer {s : RamBuffer.BufferStream} (inv : RamBuffer.Inv s) (size : s.size < 2 ^ 32) :
    Opened (.buffer s) (RamBuffer.content s)
  | blob {s : BlobStream} (position : s.position ≤ s.blob.length) (size : s.blob.length < 2 ^ 32) :
    Opened (.blob s) ⟨s.blob, s.position⟩
  | encrypted {s : EncryptedStream} {text pad : List UInt8} {done : Nat}
    (reading : s.Reading (UInt32.ofNat text.length) done ((text ++ pad).drop done))
    (position : done ≤ text.length) (size : text.length < 2 ^ 32) :
    Opened (.encrypted s) ⟨text, done⟩

end Stream

/-! ## Lines -/

theorem lineOf_prefix (room : Nat) (text : List UInt8) : lineOf room text <+: text := by
  induction room generalizing text with
  | zero => exact List.nil_prefix
  | succ room ih =>
    cases text with
    | nil => exact List.nil_prefix
    | cons c text =>
      rw [lineOf]
      split
      · exact ⟨text, rfl⟩
      · exact List.cons_prefix_cons.2 ⟨rfl, ih text⟩

theorem lineOf_eq_nil {room : Nat} (hroom : 1 ≤ room) {text : List UInt8} :
    lineOf room text = [] ↔ text = [] := by
  obtain ⟨room, rfl⟩ := Nat.exists_eq_add_of_le' hroom
  cases text with
  | nil => exact ⟨fun _ => rfl, fun _ => rfl⟩
  | cons c text =>
    rw [lineOf]
    split <;> simp

theorem Full.cons {room : Nat} {c : UInt8} {line : List UInt8} (hc : c ≠ 10) :
    Full (room + 1) (c :: line) ↔ Full room line := by
  have hlast : (c :: line).getLast? = some 10 ↔ line.getLast? = some 10 := by
    cases line with
    | nil => simpa using hc
    | cons d line => rw [List.getLast?_cons_cons]
  rw [Full, Full, List.length_cons, Nat.add_right_cancel_iff, hlast]

namespace Cursor

theorem left_past (c : Cursor) (bytes : List UInt8) :
    (past c bytes).left = c.left.drop bytes.length := by
  rw [BufferStream.left, BufferStream.left, List.drop_drop]
  rfl

theorem past_append (c : Cursor) (bytes more : List UInt8) :
    past c (bytes ++ more) = past (past c bytes) more := by
  show (⟨c.data, c.position + (bytes ++ more).length⟩ : Cursor) =
    ⟨c.data, c.position + bytes.length + more.length⟩
  rw [List.length_append, Nat.add_assoc]

/-- The bytes that `readBytes` returns, by the length that is left. -/
theorem readBytes_eq {c : Cursor} (h : c.position ≤ c.data.length) (count : Nat) :
    c.readBytes count = (c.left.take count, past c (c.left.take count)) := by
  have hlen : c.left.length = c.data.length - c.position := List.length_drop
  rw [BufferStream.readBytes, past, List.length_take, hlen]
  by_cases hshort : c.data.length < c.position + count
  · have hmin : min count (c.data.length - c.position) = c.data.length - c.position := by omega
    have htake : c.left.take count = c.left := List.take_of_length_le (by omega)
    have hall : c.left.take (c.data.length - c.position) = c.left :=
      List.take_of_length_le (by omega)
    rw [if_pos hshort, hmin, htake]
    exact Prod.ext hall rfl
  · have hmin : min count (c.data.length - c.position) = count := by omega
    rw [if_neg hshort, hmin]
    rfl

end Cursor

namespace Stream

/-! ## Bytes -/

theorem Opened.position_le {s : Stream} {c : Cursor} (h : Opened s c) :
    c.position ≤ c.data.length := by
  cases h with
  | file position _ => exact position
  | buffer inv _ =>
    rw [RamBuffer.length_content inv]
    exact inv.position
  | blob position _ => exact position
  | encrypted _ position _ => exact position

theorem Opened.past_file {c : Cursor} (hposition : c.position ≤ c.data.length) (count : Nat) :
    (Cursor.past c (c.left.take count)).position ≤ c.data.length := by
  have hlen : c.left.length = c.data.length - c.position := List.length_drop
  show c.position + (c.left.take count).length ≤ _
  rw [List.length_take, hlen]
  omega

/-- **A stream returns the bytes at the cursor**, an encrypted one if there are so many. -/
theorem readBytes_spec {s : Stream} {c : Cursor} (h : Opened s c) {count : Nat}
    (hin : s.Encrypted → count ≤ c.left.length) :
    ∃ s', s.readBytes count = .ok (c.left.take count, s') ∧
      Opened s' (Cursor.past c (c.left.take count)) ∧ (s'.Encrypted ↔ s.Encrypted) := by
  have hposition := h.position_le
  have hread := Cursor.readBytes_eq hposition count
  have hpast := Opened.past_file hposition count
  cases h with
  | file _ size =>
    refine ⟨.file (Cursor.past c (c.left.take count)), ?_, .file hpast size, Iff.rfl⟩
    rw [readBytes, hread]
  | @buffer s inv size =>
    obtain ⟨s', hbytes, hinv, hcontent⟩ := RamBuffer.readBytes_spec inv count
    rw [hread] at hbytes hcontent
    refine ⟨.buffer s', ?_, ?_, Iff.rfl⟩
    · rw [readBytes, hbytes]
    · have hcursor : RamBuffer.content s' = Cursor.past (RamBuffer.content s)
          ((RamBuffer.content s).left.take count) := hcontent
      rw [← hcursor]
      refine .buffer hinv ?_
      have hsame := congrArg (fun c : Cursor => c.data.length) hcontent
      have hlen : (RamBuffer.content s').data.length = (RamBuffer.content s).data.length := hsame
      rw [RamBuffer.length_content hinv, RamBuffer.length_content inv] at hlen
      omega
  | @blob s position size =>
    have hblob : s.readBytes count = some
        (((⟨s.blob, s.position⟩ : Cursor).readBytes count).1,
          ⟨s.blob, ((⟨s.blob, s.position⟩ : Cursor).readBytes count).2.position⟩) := by
      rw [BlobStream.readBytes, if_neg (by omega)]
      rfl
    rw [hread] at hblob
    refine ⟨.blob ⟨s.blob, _⟩, ?_, .blob hpast size, Iff.rfl⟩
    rw [readBytes, hblob]
    rfl
  | @encrypted s text pad done reading position size =>
    have hleft : (⟨text, done⟩ : Cursor).left = text.drop done := rfl
    have hcount : count ≤ (text.drop done).length := hin trivial
    rw [hleft]
    have hsplit : (text ++ pad).drop done = text.drop done ++ pad :=
      List.drop_append_of_le_length position
    have henough : count ≤ ((text ++ pad).drop done).length := by
      rw [hsplit, List.length_append]
      omega
    obtain ⟨s', hbytes, hreading⟩ := EncryptedStream.readBytes_reading reading henough
    rw [hsplit, List.take_append_of_le_length hcount] at hbytes
    rw [List.drop_drop] at hreading
    refine ⟨.encrypted s', ?_, ?_, Iff.rfl⟩
    · rw [readBytes, hbytes]
    · rw [Cursor.past, List.length_take, Nat.min_eq_left hcount]
      rw [List.length_drop] at hcount
      have hend : done + count ≤ text.length := by omega
      exact .encrypted hreading hend size

/-- An encrypted stream that can be read, wherever it is. -/
structure Deciphers (s : EncryptedStream) : Prop where
  buffer : s.buffer.length = EncryptedStream.blockSize
  mode : s.mode = .read

theorem Opened.deciphers {s : EncryptedStream} {c : Cursor} (h : Opened (.encrypted s) c) :
    Deciphers s := by
  cases h with
  | encrypted reading _ _ => exact ⟨reading.remains.buffer, reading.mode⟩

theorem Deciphers.readLoop {s : EncryptedStream} (h : Deciphers s) (lp : Fin 8) (count : Nat) :
    (s.readLoop lp count).1.length = count ∧ Deciphers (s.readLoop lp count).2 := by
  -- the next block is there before any byte is copied
  have hcurrent : ∀ {s : EncryptedStream} (lp : Fin 8), Deciphers s →
      Deciphers (if lp = 0 then s.fill else s) := by
    intro s lp hs
    split
    · exact ⟨EncryptedStream.length_decipher _ _ _, hs.mode⟩
    · exact hs
  induction s, lp, count using EncryptedStream.readLoop.induct with
  | case1 s lp =>
    rw [EncryptedStream.readLoop, if_pos rfl]
    exact ⟨rfl, h⟩
  | case2 s lp count hne s₁ hfull =>
    rename_i ih
    have hs₁ : Deciphers s₁ := hcurrent lp h
    have hlp : (lp : Nat) < EncryptedStream.blockSize := lp.isLt
    obtain ⟨hrest, hlast⟩ := ih hs₁
    rw [EncryptedStream.readLoop, if_neg hne, if_pos hfull]
    refine ⟨?_, hlast⟩
    show (s₁.buffer.drop lp ++ (s₁.readLoop 0 _).1).length = count
    rw [List.length_append, hrest, List.length_drop, hs₁.buffer]
    omega
  | case3 s lp count hne hfull =>
    have hs₁ := hcurrent lp h
    rw [EncryptedStream.readLoop, if_neg hne, if_neg hfull]
    refine ⟨?_, hs₁⟩
    show (List.take count (List.drop lp (if lp = 0 then s.fill else s).buffer)).length = count
    rw [List.length_take, List.length_drop, hs₁.buffer]
    omega

/-- **An encrypted stream returns as many bytes as are asked for**, at the end as well. -/
theorem Deciphers.readBytes {s : EncryptedStream} (h : Deciphers s) (count : Nat) :
    ∃ bytes s', Stream.readBytes (.encrypted s) count = .ok (bytes, .encrypted s') ∧
      bytes.length = count ∧ Deciphers s' := by
  obtain ⟨hlen, hlast⟩ := h.readLoop s.offset count
  refine ⟨(s.readLoop s.offset count).1,
    { (s.readLoop s.offset count).2 with pos := s.pos + UInt32.ofNat count }, ?_, hlen,
    ⟨hlast.buffer, hlast.mode⟩⟩
  rw [Stream.readBytes, EncryptedStream.readBytes, if_neg (not_not.2 h.mode)]

/-! ## Lines of a stream -/

/-! ### One byte, and one line -/

theorem readLineLoop_newline {s s₁ : Stream} (h : s.readBytes 1 = .ok ([10], s₁)) (room : Nat) :
    s.readLineLoop (room + 1) = .ok ([10], s₁) := by
  rw [readLineLoop, h]
  rfl

theorem readLineLoop_cons {s s₁ s₂ : Stream} {d : UInt8} {room : Nat} {line : List UInt8}
    (h : s.readBytes 1 = .ok ([d], s₁)) (hd : d ≠ 10) (hline : s₁.readLineLoop room = .ok (line, s₂)) :
    s.readLineLoop (room + 1) = .ok (d :: line, s₂) := by
  rw [readLineLoop, h]
  show (if d = 10 then _ else _) = _
  rw [if_neg hd]
  show (do let (rest, s) ← s₁.readLineLoop room; Except.ok (d :: rest, s)) = _
  rw [hline]
  rfl

theorem readLine_eq {s s₁ : Stream} {count : Nat} {line : List UInt8} (hcount : 2 ≤ count)
    (h : s.readLineLoop (count - 1) = .ok (line, s₁)) :
    s.readLine count = .ok ((line, decide (line ≠ [])), s₁) := by
  rw [readLine, if_neg (by omega), h]
  rfl

theorem readLines_end {s s₁ : Stream} {count : Nat} (hcount : 2 ≤ count)
    (h : s.readLineLoop (count - 1) = .ok ([], s₁)) (counts : List Nat) :
    s.readLines (count :: counts) = .ok ([], true) := by
  rw [readLines, readLine_eq hcount h]
  rfl

theorem readLines_cons {s s₁ : Stream} {count : Nat} {counts : List Nat} {line : List UInt8}
    {lines : List (List UInt8)} {ended : Bool} (hcount : 2 ≤ count)
    (h : s.readLineLoop (count - 1) = .ok (line, s₁)) (hline : line ≠ [])
    (hlines : s₁.readLines counts = .ok (lines, ended)) :
    s.readLines (count :: counts) = .ok (line :: lines, ended) := by
  rw [readLines, readLine_eq hcount h]
  show (if decide (line ≠ []) = true then _ else _) = _
  rw [if_pos (decide_eq_true hline)]
  show (do
    let (lines, ended) ← s₁.readLines counts
    Except.ok (line :: lines, ended)) = _
  rw [hlines]
  rfl

/-- **A stream returns the line at the cursor**, an encrypted one if the line ends before the text
does. -/
theorem readLineLoop_spec (room : Nat) {s : Stream} {c : Cursor} (h : Opened s c)
    (hin : s.Encrypted → Full room (lineOf room c.left)) :
    ∃ s', s.readLineLoop room = .ok (lineOf room c.left, s') ∧
      Opened s' (Cursor.past c (lineOf room c.left)) ∧ (s'.Encrypted ↔ s.Encrypted) := by
  induction room generalizing s c with
  | zero => exact ⟨s, rfl, h, Iff.rfl⟩
  | succ room ih =>
    have hone : s.Encrypted → 1 ≤ c.left.length := by
      intro hs
      have hfull := hin hs
      cases hleft : c.left with
      | nil =>
        rw [hleft, lineOf] at hfull
        obtain hlen | hlast := hfull
        · exact absurd hlen (Nat.zero_ne_add_one room)
        · exact absurd hlast (by simp)
      | cons d text => exact Nat.succ_pos _
    obtain ⟨s₁, hread, hopen, hsame⟩ := readBytes_spec h hone
    cases hleft : c.left with
    | nil =>
      rw [hleft] at hread hopen
      refine ⟨s₁, ?_, hopen, hsame⟩
      rw [readLineLoop, hread]
      rfl
    | cons d text =>
      have htake : (d :: text).take 1 = [d] := rfl
      rw [hleft, htake] at hread hopen
      have hrest : (Cursor.past c [d]).left = text := by
        rw [Cursor.left_past, hleft]
        rfl
      rw [lineOf]
      by_cases hd : d = 10
      · subst hd
        exact ⟨s₁, readLineLoop_newline hread room, hopen, hsame⟩
      · rw [if_neg hd]
        have hnext : s₁.Encrypted → Full room (lineOf room (Cursor.past c [d]).left) := by
          intro hs
          have hfull := hin (hsame.1 hs)
          rw [hleft, lineOf, if_neg hd] at hfull
          rw [hrest]
          exact (Full.cons hd).1 hfull
        obtain ⟨s₂, hloop, hopen₂, hsame₂⟩ := ih hopen hnext
        rw [hrest] at hloop hopen₂
        refine ⟨s₂, readLineLoop_cons hread hd hloop, ?_, hsame₂.trans hsame⟩
        rw [← Cursor.past_append] at hopen₂
        exact hopen₂

/-- **An encrypted stream fills a line, or ends it with a newline**, whatever it deciphers. -/
theorem readLineLoop_goesOn (room : Nat) {s : EncryptedStream} (h : Deciphers s) :
    ∃ line s', Stream.readLineLoop (.encrypted s) room = .ok (line, .encrypted s') ∧
      Full room line ∧ Deciphers s' := by
  induction room generalizing s with
  | zero => exact ⟨[], s, rfl, .inl rfl, h⟩
  | succ room ih =>
    obtain ⟨bytes, s₁, hread, hlen, hs₁⟩ := h.readBytes 1
    obtain ⟨d, rfl⟩ := List.length_eq_one_iff.1 hlen
    by_cases hd : d = 10
    · subst hd
      exact ⟨[10], s₁, readLineLoop_newline hread room, .inr rfl, hs₁⟩
    · obtain ⟨line, s₂, hloop, hfull, hs₂⟩ := ih hs₁
      exact ⟨d :: line, s₂, readLineLoop_cons hread hd hloop, (Full.cons hd).2 hfull, hs₂⟩

/-! ## The contract -/

theorem Opened.agrees {s : Stream} {c : Cursor} (h : Opened s c) : s.Agrees c := by
  have hleft : ∀ {c : Cursor}, c.left = [] ↔ c.data.length ≤ c.position := List.drop_eq_nil_iff
  have hword : ∀ {n m : Nat}, n ≤ m → m < 2 ^ 32 → (UInt32.ofNat n).toNat = n :=
    fun hle hlt => UInt32.toNat_ofNat_of_lt' (lt_of_le_of_lt hle hlt)
  cases h with
  | file position size =>
    exact ⟨hword position size, hword le_rfl size, decide_eq_true_iff.trans hleft.symm⟩
  | buffer inv size =>
    have hlen := RamBuffer.length_content inv
    refine ⟨hword inv.position size, ?_, decide_eq_true_iff.trans ?_⟩
    · rw [hlen]
      exact hword le_rfl size
    · rw [hleft, hlen]
      rfl
  | @blob s position size =>
    refine ⟨hword position size, hword le_rfl size, decide_eq_true_iff.trans ?_⟩
    rw [hleft, UInt32.le_iff_toNat_le, hword position size, hword le_rfl size]
  | @encrypted s text pad done reading position size =>
    have hpos : s.pos.toNat = done := by rw [reading.pos, hword position size]
    have hsize : s.size.toNat = text.length := by rw [reading.size, hword le_rfl size]
    refine ⟨hpos, hsize, decide_eq_true_iff.trans ?_⟩
    rw [hleft, ← UInt32.toNat_inj, hpos, hsize]
    show done = text.length ↔ text.length ≤ done
    omega

/-- **One call returns what it is to return**, on an encrypted stream if it stays inside. -/
theorem perform_spec {s : Stream} {c : Cursor} (h : Opened s c) (call : Call)
    (hin : s.Encrypted → Cursor.Inside c call) :
    ∃ s', s.perform call = .ok ((Cursor.perform c call).1, s') ∧
      Opened s' (Cursor.perform c call).2 ∧ (s'.Encrypted ↔ s.Encrypted) := by
  cases call with
  | readBytes count =>
    obtain ⟨s', hread, hopen, hsame⟩ := readBytes_spec h hin
    refine ⟨s', ?_, hopen, hsame⟩
    rw [perform, hread]
    rfl
  | read width =>
    obtain ⟨s', hread, hopen, hsame⟩ := readBytes_spec h hin
    refine ⟨s', ?_, hopen, hsame⟩
    have hshort : (c.left.take width).length ≠ width ↔ c.left.length < width := by
      rw [List.length_take]
      omega
    have hvalue : s.read width =
        .ok (if c.left.length < width then none else some (c.left.take width), s') := by
      rw [read, hread]
      show (if (c.left.take width).length ≠ width then _ else _) = _
      by_cases hlt : c.left.length < width
      · rw [if_pos (hshort.2 hlt), if_pos hlt]
      · rw [if_neg (mt hshort.1 hlt), if_neg hlt]
    rw [perform, hvalue, Cursor.perform]
    split <;> rfl
  | readLine room =>
    obtain ⟨s', hline, hopen, hsame⟩ := readLineLoop_spec room h hin
    refine ⟨s', ?_, hopen, hsame⟩
    rw [perform, readLine, if_neg (by omega), Nat.add_sub_cancel, hline]
    rfl

/-- Past the end an encrypted stream returns more than there is. -/
theorem perform_past {s : EncryptedStream} (h : Deciphers s) {c : Cursor} {call : Call}
    (hout : ¬ Cursor.Inside c call) (s' : Stream) :
    Stream.perform (.encrypted s) call ≠ .ok ((Cursor.perform c call).1, s') := by
  intro hperform
  cases call with
  | readBytes count =>
    obtain ⟨bytes, s₁, hread, hlen, -⟩ := h.readBytes count
    rw [perform, hread] at hperform
    obtain rfl : bytes = c.left.take count :=
      Answer.bytes.inj (congrArg Prod.fst (Except.ok.inj hperform))
    rw [List.length_take] at hlen
    exact hout (min_eq_left_iff.1 hlen)
  | read width =>
    obtain ⟨bytes, s₁, hread, hlen, -⟩ := h.readBytes width
    have hlt : c.left.length < width := not_le.1 hout
    rw [perform, read, hread] at hperform
    have hvalue : (Answer.value bytes, Stream.encrypted s₁) = ((Cursor.perform c (.read width)).1, s') := by
      refine Except.ok.inj (Eq.trans ?_ hperform)
      show _ = (do
        let (value, s) ← (if bytes.length ≠ width then Except.ok (none, Stream.encrypted s₁)
          else Except.ok (some bytes, Stream.encrypted s₁))
        Except.ok (value.elim Answer.eof Answer.value, s))
      rw [if_neg (not_not.2 hlen)]
      rfl
    have heof := congrArg Prod.fst hvalue
    rw [Cursor.perform, if_pos hlt] at heof
    cases heof
  | readLine room =>
    obtain ⟨line, s₁, hline, hfull, -⟩ := readLineLoop_goesOn room h
    rw [perform, readLine, if_neg (by omega), Nat.add_sub_cancel, hline] at hperform
    obtain ⟨rfl, -⟩ := Answer.line.inj (congrArg Prod.fst (Except.ok.inj hperform))
    exact hout hfull

theorem keeps_iff {s : Stream} {c : Cursor} (h : Opened s c) (calls : List Call) :
    s.Keeps c calls ↔ (s.Encrypted → Cursor.Within c calls) := by
  induction calls generalizing s c with
  | nil => exact ⟨fun _ _ => trivial, fun _ => h.agrees⟩
  | cons call calls ih =>
    rw [Keeps]
    constructor
    · rintro ⟨-, s', hperform, hkeeps⟩ hs
      have hin : Cursor.Inside c call := by
        by_contra hout
        cases s with
        | encrypted s => exact perform_past h.deciphers hout s' hperform
        | _ => exact hs
      obtain ⟨s₁, hspec, hopen, hsame⟩ := perform_spec h call fun _ => hin
      obtain rfl : s₁ = s' := congrArg Prod.snd (Except.ok.inj (hspec.symm.trans hperform))
      exact ⟨hin, (ih hopen).1 hkeeps (hsame.2 hs)⟩
    · intro hwithin
      obtain ⟨s', hspec, hopen, hsame⟩ := perform_spec h call fun hs => (hwithin hs).1
      exact ⟨h.agrees, s', hspec, (ih hopen).2 fun hs => (hwithin (hsame.1 hs)).2⟩

/-! ## All of the lines -/

/-- **The lines of a stream that is not encrypted are its text.** -/
theorem readLines_spec {s : Stream} {c : Cursor} (h : Opened s c) (hplain : ¬ s.Encrypted)
    {counts : List Nat} (hcounts : ∀ count ∈ counts, 2 ≤ count)
    (henough : c.left.length < counts.length) :
    ∃ lines, s.readLines counts = .ok (lines, true) ∧ lines.flatten = c.left := by
  induction counts generalizing s c with
  | nil => exact absurd henough (Nat.not_lt_zero _)
  | cons count counts ih =>
    have hcount := hcounts count List.mem_cons_self
    obtain ⟨s₁, hline, hopen, hsame⟩ := readLineLoop_spec (count - 1) h fun hs => absurd hs hplain
    by_cases hend : c.left = []
    · have hnone := (lineOf_eq_nil (show 1 ≤ count - 1 by omega)).2 hend
      rw [hnone] at hline
      refine ⟨[], readLines_end hcount hline counts, ?_⟩
      rw [hend]
      rfl
    · have hsome := mt (lineOf_eq_nil (show 1 ≤ count - 1 by omega)).1 hend
      have hleft := Cursor.left_past c (lineOf (count - 1) c.left)
      obtain ⟨rest, hsplit⟩ := lineOf_prefix (count - 1) c.left
      have hrest : (Cursor.past c (lineOf (count - 1) c.left)).left = rest := by
        rw [hleft]
        exact (congrArg (List.drop _) hsplit.symm).trans List.drop_left
      -- a line takes at least one byte off what is left
      have hshorter : rest.length < counts.length := by
        have hlen := congrArg List.length hsplit
        have hpos := List.length_pos_of_ne_nil hsome
        rw [List.length_append] at hlen
        rw [List.length_cons] at henough
        omega
      obtain ⟨lines, hlines, hflatten⟩ := ih hopen (mt hsame.1 hplain)
        (fun count hmem => hcounts count (List.mem_cons_of_mem _ hmem))
        (by rw [hrest]; exact hshorter)
      refine ⟨_, readLines_cons hcount hline hsome hlines, ?_⟩
      rw [List.flatten_cons, hflatten, hrest, hsplit]

/-- **The lines of an encrypted stream never end.** -/
theorem readLines_goesOn {s : EncryptedStream} (h : Deciphers s) {counts : List Nat}
    (hcounts : ∀ count ∈ counts, 2 ≤ count) :
    ∃ lines, Stream.readLines (.encrypted s) counts = .ok (lines, false) := by
  induction counts generalizing s with
  | nil => exact ⟨[], rfl⟩
  | cons count counts ih =>
    have hcount := hcounts count List.mem_cons_self
    obtain ⟨line, s₁, hline, hfull, hs₁⟩ := readLineLoop_goesOn (count - 1) h
    have hsome : line ≠ [] := by
      rintro rfl
      obtain hlen | hlast := hfull
      · rw [List.length_nil] at hlen
        omega
      · cases hlast
    obtain ⟨lines, hlines⟩ := ih hs₁ fun count hmem => hcounts count (List.mem_cons_of_mem _ hmem)
    exact ⟨line :: lines, readLines_cons hcount hline hsome hlines⟩

theorem linesEnd_iff {s : Stream} {c : Cursor} (h : Opened s c) :
    s.LinesEnd c ↔ ¬ s.Encrypted := by
  constructor
  · rintro ⟨enough, hlines⟩ hs
    have htwo : ∀ count ∈ List.replicate enough 2, 2 ≤ count :=
      fun count hmem => (List.eq_of_mem_replicate hmem).ge
    obtain ⟨lines, hend, -⟩ := hlines _ htwo List.length_replicate.ge
    cases s with
    | encrypted s =>
      obtain ⟨more, hmore⟩ := readLines_goesOn h.deciphers htwo
      have hended := congrArg Prod.snd (Except.ok.inj (hend.symm.trans hmore))
      cases hended
    | _ => exact hs
  · intro hplain
    exact ⟨c.left.length + 1, fun counts htwo henough => readLines_spec h hplain htwo henough⟩

/-- **The streams that keep the contract are those that are not encrypted.**  An encrypted stream
keeps it in the calls that ask for nothing past the end, and in no others. -/
theorem contract_iff {s : Stream} {c : Cursor} (h : Opened s c) :
    (s.Contract c ↔ ¬ s.Encrypted) ∧
      ∀ calls, s.Keeps c calls ↔ (s.Encrypted → Cursor.Within c calls) := by
  refine ⟨⟨fun hcontract => (linesEnd_iff h).1 hcontract.lines, fun hplain => ?_⟩, keeps_iff h⟩
  exact ⟨fun calls => (keeps_iff h calls).2 fun hs => absurd hs hplain, (linesEnd_iff h).2 hplain⟩

/-- A file that was written as an encrypted stream is opened at the start of its text. -/
theorem make_opened {type : EncryptedStream.EncType} {key : EncryptedStream.Key}
    {text file : List UInt8} {blocks : List (List UInt8)}
    (h : EncryptedStream.IsFile type key text file blocks) (hlen : text.length < 2 ^ 32) :
    ∃ s, EncryptedStream.make { data := file } .read none (some key) = .ok s ∧
      Opened (.encrypted s) ⟨text, 0⟩ := by
  obtain ⟨s, hmake, hreading⟩ := EncryptedStream.make_reading h
  obtain ⟨pad, -, hcontents⟩ := h.contents
  rw [hcontents] at hreading
  exact ⟨s, hmake, .encrypted hreading (Nat.zero_le _) hlen⟩

/-- A file with the letter A, enciphered with the usual key. -/
def letterFile : List UInt8 :=
  EncryptedStream.magic .tea ++ (Streams.writeU32 1 ++
    EncryptedStream.encipher .tea EncryptedStream.kTeaKey [65, 0, 0, 0, 0, 0, 0, 0])

theorem letterFile_isFile :
    EncryptedStream.IsFile .tea EncryptedStream.kTeaKey [65] letterFile
      [[65, 0, 0, 0, 0, 0, 0, 0]] where
  full b hb := by
    rw [List.mem_singleton.1 hb]
    rfl
  contents := ⟨7, by decide, rfl⟩
  file := by
    rw [letterFile, List.flatMap_singleton]
    rfl

theorem letter_contract :
    ∃ s, EncryptedStream.make { data := letterFile } .read none (some EncryptedStream.kTeaKey) = .ok s ∧
      Keeps (.encrypted s) ⟨[65], 0⟩ [.readLine 1] := by
  obtain ⟨s, hmake, hopen⟩ := make_opened letterFile_isFile (by decide)
  refine ⟨s, hmake, ((contract_iff hopen).2 _).2 fun _ => ⟨.inl ?_, trivial⟩⟩
  rfl

/-- The second byte of one is returned, and there is always another line. -/
theorem letter_goes_on :
    ∃ s, EncryptedStream.make { data := letterFile } .read none (some EncryptedStream.kTeaKey) = .ok s ∧
      Opened (.encrypted s) ⟨[65], 0⟩ ∧ ¬ Keeps (.encrypted s) ⟨[65], 0⟩ [.readBytes 2] ∧
      ¬ LinesEnd (.encrypted s) ⟨[65], 0⟩ := by
  obtain ⟨s, hmake, hopen⟩ := make_opened letterFile_isFile (by decide)
  refine ⟨s, hmake, hopen, fun hkeeps => ?_, fun hlines => (linesEnd_iff hopen).1 hlines trivial⟩
  have hin : 2 ≤ 1 := ((keeps_iff hopen _).1 hkeeps trivial).1
  omega

end Stream

end Dirtsand
