import Dirtsand.Config
import Dirtsand.AuthServ.FilePaths
import Dirtsand.Streams.Encrypted
import Dirtsand.Lib.Transition
import Dirtsand.Lib.PartialMap

/-!
# File downloads from the auth server

`cb_downloadStart` and `cb_downloadNext` (AuthServ/AuthServer.cpp).  A file of more
than one chunk is kept in `m_downloads` under the transaction id of its request,
and sent a chunk at a time, each for an acknowledgement.  A file of one chunk is
sent at once.

* `openStream_isFile` — a plain file is downloaded enciphered.
* `session_step` — what one message does to the downloads.
* `delivers` — the chunks that are sent for a request are its stream from the
  beginning, and all of it once nothing is pending, in runs where no request for
  one chunk takes the id of a download in progress.
-/

namespace Dirtsand.Downloads

open EncryptedStream (checkEncryption writeFile)
open Files (authDownloadPath)

/-! ## Streams -/

/-- `CHUNK_SIZE`. -/
def chunkSize : Nat := 0x8000

/-- The loop that reads a plain file.  The position is never beyond the end. -/
def readChunks (stream : BufferStream) : List (List UInt8) :=
  if stream.tell < stream.size ∧ stream.position < stream.data.length then
    let buf := stream.readBytes chunkSize
    buf.1 :: readChunks buf.2
  else []
termination_by stream.data.length - stream.position
decreasing_by
  rename_i h
  show stream.data.length - (stream.position + if _ then _ else _) < _
  have hchunk : 0 < chunkSize := by decide
  split <;> omega

/-- The stream that is sent of a file: all downloads are encrypted. -/
def openStream (droidKey : EncryptedStream.Key) (stack : Nat → UInt8) (file : List UInt8) :
    Except EncryptedStream.Error BufferStream :=
  match checkEncryption stack { data := file } with
  | (some _, stream) => .ok stream
  | (none, stream) => do
    let data ← writeFile .xxtea droidKey (readChunks stream)
    .ok { data }

theorem flatten_readChunks (stream : BufferStream) (hlen : stream.data.length < 2 ^ 32) :
    (readChunks stream).flatten = stream.left := by
  induction stream using readChunks.induct with
  | case1 stream hmore buf ih =>
    rw [readChunks, if_pos hmore, List.flatten_cons, ih hlen]
    show (stream.data.drop stream.position).take _ ++ stream.data.drop (stream.position + _) = _
    rw [← List.drop_drop, List.take_append_drop]
    rfl
  | case2 stream hdone =>
    rw [readChunks, if_neg hdone, BufferStream.left, List.flatten_nil, List.drop_eq_nil_of_le]
    by_contra hmore
    rw [not_le] at hmore
    refine hdone ⟨?_, hmore⟩
    rw [UInt32.lt_iff_toNat_lt, BufferStream.tell, BufferStream.size,
      UInt32.toNat_ofNat_of_lt' hlen, UInt32.toNat_ofNat_of_lt' (hmore.trans hlen)]
    exact hmore

/-- `CheckEncryption` leaves a stream that was just opened at its beginning. -/
theorem checkEncryption_snd (stack : Nat → UInt8) (file : List UInt8) :
    (checkEncryption stack { data := file }).2 = { data := file } := by
  have hseek : ∀ n, BufferStream.seek { data := file, position := n } 0 = { data := file } := by
    intro n
    rw [BufferStream.seek, if_neg (Nat.not_lt_zero _)]
  exact hseek _

/-- The length of the stream that is sent of a file. -/
def streamLength (stack : Nat → UInt8) (file : List UInt8) : Nat :=
  if (checkEncryption stack { data := file }).1.isSome then file.length
  else 16 + (file.length + 7) / 8 * 8

theorem streamLength_ge {stack : Nat → UInt8} {file : List UInt8} :
    file.length ≤ streamLength stack file := by
  rw [streamLength]
  split <;> omega

/-- **A plain file is downloaded enciphered**, and one that is enciphered already as it is. -/
theorem openStream_ok (droidKey : EncryptedStream.Key) (stack : Nat → UInt8) {file : List UInt8}
    (hlen : file.length < 2 ^ 32) :
    ∃ data, openStream droidKey stack file = .ok { data } ∧
      data.length = streamLength stack file ∧
      ((checkEncryption stack { data := file }).1.isSome → data = file) ∧
      ((checkEncryption stack { data := file }).1 = none →
        ∃ blocks, EncryptedStream.IsFile .xxtea droidKey file data blocks) := by
  have hsnd := checkEncryption_snd stack file
  rcases hcheck : checkEncryption stack { data := file } with ⟨found, stream⟩
  rw [hcheck] at hsnd
  obtain rfl : stream = { data := file } := hsnd
  cases found with
  | none =>
    have hchunks : (readChunks { data := file }).flatten = file := flatten_readChunks _ hlen
    obtain ⟨s, hmake, hwrote⟩ := EncryptedStream.make_wrote .xxtea droidKey
    obtain ⟨s', hwrite, hwrote'⟩ := @EncryptedStream.writeAll_wrote _ _ _ _
      (readChunks { data := file }) hwrote (by rw [List.nil_append, hchunks]; exact hlen)
    rw [List.nil_append, hchunks] at hwrote'
    obtain ⟨blocks, hfile⟩ := EncryptedStream.close_isFile hwrote'
    have hsent : writeFile .xxtea droidKey (readChunks { data := file }) = .ok s'.close.data := by
      rw [writeFile, hmake]
      show (do let s ← s.writeAll (readChunks { data := file }); pure s.close.data) = _
      rw [hwrite]
      rfl
    refine ⟨s'.close.data, ?_, ?_, fun h => absurd h Bool.noConfusion, fun _ => ⟨blocks, hfile⟩⟩
    · rw [openStream, hcheck]
      show (do let data ← writeFile .xxtea droidKey (readChunks { data := file })
               Except.ok ({ data } : BufferStream)) = _
      rw [hsent]
      rfl
    · rw [streamLength, hcheck]
      exact hfile.length_file
  | some type =>
    refine ⟨file, ?_, ?_, fun _ => rfl, fun h => by cases h⟩
    · rw [openStream, hcheck]
    · rw [streamLength, hcheck]
      rfl

/-! ## Messages -/

/-- `e_AuthToCli_FileDownloadChunk`. -/
structure Chunk where
  transId : UInt32
  result : NetResultCode
  fileSize : UInt32
  offset : UInt32
  dataSize : UInt32
  data : List UInt8
deriving DecidableEq

def notFound (transId : UInt32) : Chunk where
  transId := transId
  result := .fileNotFound
  fileSize := 0
  offset := 0
  dataSize := 0
  data := []

/-- The next bytes of a stream, and the stream after them. -/
def chunkOf (transId : UInt32) (stream : BufferStream) (count : UInt32) : Chunk × BufferStream :=
  let (data, rest) := stream.readBytes count.toNat
  ({ transId, result := .success, fileSize := stream.size, offset := stream.tell,
     dataSize := count, data }, rest)

/-- A chunk of a stream: a success, with the size of the stream. -/
structure Chunk.Of (chunk : Chunk) (transId : UInt32) (stream : List UInt8) : Prop where
  transId : chunk.transId = transId
  result : chunk.result = .success
  fileSize : chunk.fileSize.toNat = stream.length
  dataSize : chunk.dataSize.toNat = chunk.data.length

theorem chunkOf_spec (transId : UInt32) {stream : BufferStream} {count : UInt32}
    (hlen : stream.data.length < 2 ^ 32)
    (hcount : stream.position + count.toNat ≤ stream.data.length) :
    (chunkOf transId stream count).1.Of transId stream.data ∧
      (chunkOf transId stream count).1.offset.toNat = stream.position ∧
      (chunkOf transId stream count).1.data = stream.left.take count.toNat ∧
      (chunkOf transId stream count).2 =
        { stream with position := stream.position + count.toNat } := by
  have hread : stream.readBytes count.toNat =
      (stream.left.take count.toNat, { stream with position := stream.position + count.toNat }) := by
    rw [BufferStream.readBytes, if_neg (not_lt.2 hcount)]
    rfl
  have hchunk : chunkOf transId stream count =
      ({ transId, result := .success, fileSize := stream.size, offset := stream.tell,
         dataSize := count, data := stream.left.take count.toNat },
       { stream with position := stream.position + count.toNat }) := by
    rw [chunkOf, hread]
  have hposition : stream.position < 2 ^ 32 := by omega
  rw [hchunk]
  refine ⟨⟨rfl, rfl, ?_, ?_⟩, ?_, rfl, rfl⟩
  · exact UInt32.toNat_ofNat_of_lt' hlen
  · show count.toNat = (stream.left.take count.toNat).length
    rw [List.length_take, BufferStream.left, List.length_drop]
    omega
  · exact UInt32.toNat_ofNat_of_lt' hposition

/-- `m_downloads`. -/
abbrev Table := UInt32 → Option BufferStream

/-- A request, with what is on the disk and on the stack when it is handled. -/
structure Request where
  transId : UInt32
  filename : String
  disk : String → Option (List UInt8)
  stack : Nat → UInt8

/-- The stream of a request, `none` where it is refused, or cannot be opened. -/
def Request.open (settings : Settings) (req : Request) :
    Option (Except EncryptedStream.Error BufferStream) := do
  let path ← authDownloadPath settings req.filename
  let file ← req.disk (cstr path)
  some (openStream settings.droidKey req.stack file)

/-- `cb_downloadStart`, `none` where it throws. -/
def downloadStart (settings : Settings) (downloads : Table) (req : Request) :
    Option (Table × Chunk) :=
  match req.open settings with
  | none => some (downloads, notFound req.transId)
  | some (.error _) => none
  | some (.ok stream) =>
    if UInt32.ofNat chunkSize < stream.size then
      let (chunk, rest) := chunkOf req.transId stream (UInt32.ofNat chunkSize)
      some (Function.update downloads req.transId (some rest), chunk)
    else some (downloads, (chunkOf req.transId stream stream.size).1)

/-- `cb_downloadNext`: nothing is sent where the last chunk was already. -/
def downloadNext (downloads : Table) (transId : UInt32) : Table × Option Chunk :=
  match downloads transId with
  | none => (downloads, none)
  | some stream =>
    let bytesLeft := stream.size - stream.tell
    if UInt32.ofNat chunkSize < bytesLeft then
      let (chunk, rest) := chunkOf transId stream (UInt32.ofNat chunkSize)
      (Function.update downloads transId (some rest), some chunk)
    else (Function.update downloads transId none, some (chunkOf transId stream bytesLeft).1)

/-! ## Sessions -/

inductive Event where
  | start (req : Request)
  | next (transId : UInt32)

/-- A client's downloads, and what was received and sent so far, latest first. -/
structure Session where
  downloads : Table
  log : List (Event × Option Chunk)

def machine (settings : Settings) : Lib.Machine Session Event where
  start s := s.downloads = (fun _ => none) ∧ s.log = []
  step s
    | .start req =>
      (downloadStart settings s.downloads req).map fun p => ⟨p.1, (.start req, some p.2) :: s.log⟩
    | .next transId =>
      let (downloads, sent) := downloadNext s.downloads transId
      some ⟨downloads, (.next transId, sent) :: s.log⟩

/-- The stream of a request that is accepted. -/
def Request.stream (settings : Settings) (req : Request) : Option (List UInt8) :=
  match req.open settings with
  | some (.ok stream) => some stream.data
  | _ => none

/-- The stream of the latest accepted request of a transaction id, and the chunks that were sent
since. -/
def latest (settings : Settings) (transId : UInt32) :
    List (Event × Option Chunk) → Option (List UInt8 × List Chunk)
  | [] => none
  | (.start req, sent) :: past =>
    if req.transId = transId then
      match req.stream settings with
      | some stream => some (stream, sent.toList)
      | none => latest settings transId past
    else latest settings transId past
  | (.next id, sent) :: past =>
    if id = transId then
      (latest settings transId past).map fun p => (p.1, p.2 ++ sent.toList)
    else latest settings transId past

/-- Each chunk begins where the one before it ends. -/
def Contiguous (start : Nat) : List Chunk → Prop
  | [] => True
  | chunk :: rest => chunk.offset.toNat = start ∧ Contiguous (start + chunk.data.length) rest

/-- The bytes of some chunks. -/
def contents (chunks : List Chunk) : List UInt8 := chunks.flatMap Chunk.data

/-- Chunks that are the beginning of a stream. -/
structure Sent (transId : UInt32) (stream : List UInt8) (chunks : List Chunk) : Prop where
  each : ∀ chunk ∈ chunks, chunk.Of transId stream
  contiguous : Contiguous 0 chunks
  contents : contents chunks <+: stream

/-- **The download of a transaction id delivers its file**: its chunks are the beginning of the
stream, and all of it where the id has no entry. -/
structure Delivers (settings : Settings) (s : Session) (transId : UInt32) : Prop where
  asked : latest settings transId s.log = none → s.downloads transId = none
  sent : ∀ stream chunks, latest settings transId s.log = some (stream, chunks) →
    Sent transId stream chunks ∧ (s.downloads transId = none ↔ contents chunks = stream)

/-- A file that can be sent, and does not fit into one chunk where the id has a download in
progress. -/
def Ok (settings : Settings) (s : Session) : Event → Prop
  | .start req => ∀ path file, authDownloadPath settings req.filename = some path →
      req.disk (cstr path) = some file →
      streamLength req.stack file < 2 ^ 32 ∧
        (streamLength req.stack file ≤ chunkSize → s.downloads req.transId = none)
  | .next _ => True

/-! ## What was sent -/

theorem contents_append (chunks : List Chunk) (chunk : Chunk) :
    contents (chunks ++ [chunk]) = contents chunks ++ chunk.data := by
  rw [contents, List.flatMap_append, List.flatMap_singleton]
  rfl

theorem contiguous_append {start : Nat} {chunks : List Chunk} {chunk : Chunk}
    (h : Contiguous start chunks) (hoffset : chunk.offset.toNat = start + (contents chunks).length) :
    Contiguous start (chunks ++ [chunk]) := by
  induction chunks generalizing start with
  | nil => exact ⟨hoffset, trivial⟩
  | cons first rest ih =>
    obtain ⟨hfirst, hrest⟩ := h
    refine ⟨hfirst, ih hrest ?_⟩
    rw [hoffset, contents, List.flatMap_cons, List.length_append, ← Nat.add_assoc]
    rfl

/-- The chunks up to the position of a stream. -/
structure Beginning (transId : UInt32) (stream : BufferStream) (chunks : List Chunk) : Prop where
  sent : Sent transId stream.data chunks
  position : (contents chunks).length = stream.position
  size : stream.data.length < 2 ^ 32

theorem Beginning.nil (transId : UInt32) {data : List UInt8} (h : data.length < 2 ^ 32) :
    Beginning transId { data } [] :=
  ⟨⟨fun _ hchunk => absurd hchunk List.not_mem_nil, trivial, List.nil_prefix⟩, rfl, h⟩

theorem Beginning.contents {transId : UInt32} {stream : BufferStream} {chunks : List Chunk}
    (h : Beginning transId stream chunks) :
    contents chunks = stream.data.take stream.position := by
  rw [← h.position]
  exact List.prefix_iff_eq_take.1 h.sent.contents

/-- One more chunk. -/
theorem Beginning.next {transId : UInt32} {stream : BufferStream} {chunks : List Chunk}
    (h : Beginning transId stream chunks) {count : UInt32}
    (hcount : stream.position + count.toNat ≤ stream.data.length) :
    Beginning transId { stream with position := stream.position + count.toNat }
      (chunks ++ [(chunkOf transId stream count).1]) := by
  obtain ⟨hof, hoffset, hdata, -⟩ := chunkOf_spec transId h.size hcount
  have hcontents : Downloads.contents (chunks ++ [(chunkOf transId stream count).1]) =
      stream.data.take (stream.position + count.toNat) := by
    rw [contents_append, h.contents, hdata, List.take_add]
    rfl
  refine ⟨⟨?_, ?_, ?_⟩, ?_, h.size⟩
  · intro chunk hchunk
    obtain hchunk | hchunk := List.mem_append.1 hchunk
    · exact h.sent.each chunk hchunk
    · rw [List.mem_singleton.1 hchunk]
      exact hof
  · refine contiguous_append h.sent.contiguous ?_
    rw [hoffset, h.position, Nat.zero_add]
  · rw [hcontents]
    exact List.take_prefix _ _
  · rw [hcontents, List.length_take, min_eq_left hcount]

theorem Beginning.whole {transId : UInt32} {stream : BufferStream} {chunks : List Chunk}
    (h : Beginning transId stream chunks) :
    Downloads.contents chunks = stream.data ↔ stream.data.length ≤ stream.position := by
  rw [h.contents, List.take_eq_self_iff]

/-- An id with an entry has a download in progress; the download of one without is over. -/
structure Inv (settings : Settings) (s : Session) : Prop where
  pending : ∀ transId stream, s.downloads transId = some stream →
    ∃ chunks, latest settings transId s.log = some (stream.data, chunks) ∧
      Beginning transId stream chunks ∧ stream.position < stream.data.length
  finished : ∀ transId stream chunks, s.downloads transId = none →
    latest settings transId s.log = some (stream, chunks) →
    Sent transId stream chunks ∧ contents chunks = stream

theorem Inv.delivered {settings : Settings} {s : Session} (h : Inv settings s) (transId : UInt32) :
    Delivers settings s transId := by
  cases hentry : s.downloads transId with
  | none => exact ⟨fun _ => hentry, fun stream chunks hlatest =>
      ⟨(h.finished transId stream chunks hentry hlatest).1,
        fun _ => (h.finished transId stream chunks hentry hlatest).2, fun _ => hentry⟩⟩
  | some pending =>
    obtain ⟨chunks, hlatest, hbeginning, hmore⟩ := h.pending transId pending hentry
    refine ⟨fun hnone => ?_, fun stream chunks' hlatest' => ?_⟩
    · rw [hlatest] at hnone
      cases hnone
    · rw [hlatest] at hlatest'
      cases hlatest'
      refine ⟨hbeginning.sent, fun hnone => ?_, fun hwhole => ?_⟩
      · rw [hentry] at hnone
        cases hnone
      · have hdone := hbeginning.whole.1 hwhole
        omega

/-! ## One message -/

/-- What a message is about is one id: what holds of the others stays. -/
theorem Inv.of_next {settings : Settings} {s s' : Session} (h : Inv settings s) (transId : UInt32)
    (hother : ∀ id ≠ transId, s'.downloads id = s.downloads id ∧
      latest settings id s'.log = latest settings id s.log)
    (hself : ∃ stream chunks, latest settings transId s'.log = some (stream.data, chunks) ∧
      Beginning transId stream chunks ∧
      (stream.position < stream.data.length → s'.downloads transId = some stream) ∧
      (stream.data.length ≤ stream.position → s'.downloads transId = none)) :
    Inv settings s' := by
  obtain ⟨stream, chunks, hlatest, hbeginning, hmore, hdone⟩ := hself
  refine ⟨?_, ?_⟩
  · intro id pending hentry
    by_cases hid : id = transId
    · subst hid
      obtain hlt | hle := Nat.lt_or_ge stream.position stream.data.length
      · rw [hmore hlt] at hentry
        cases hentry
        exact ⟨chunks, hlatest, hbeginning, hlt⟩
      · rw [hdone hle] at hentry
        cases hentry
    · obtain ⟨htable, hlog⟩ := hother id hid
      rw [htable] at hentry
      rw [hlog]
      exact h.pending id pending hentry
  · intro id data sent hentry hsent
    by_cases hid : id = transId
    · subst hid
      rw [hlatest] at hsent
      cases hsent
      refine ⟨hbeginning.sent, hbeginning.whole.2 ?_⟩
      by_contra hlt
      rw [hmore (not_le.1 hlt)] at hentry
      cases hentry
    · obtain ⟨htable, hlog⟩ := hother id hid
      rw [htable] at hentry
      rw [hlog] at hsent
      exact h.finished id data sent hentry hsent

theorem Inv.congr {settings : Settings} {s s' : Session} (h : Inv settings s)
    (hdownloads : s'.downloads = s.downloads)
    (hlatest : ∀ id, latest settings id s'.log = latest settings id s.log) : Inv settings s' := by
  refine ⟨?_, ?_⟩
  · intro id stream hentry
    rw [hdownloads] at hentry
    rw [hlatest]
    exact h.pending id stream hentry
  · intro id stream chunks hentry hsent
    rw [hdownloads] at hentry
    rw [hlatest] at hsent
    exact h.finished id stream chunks hentry hsent

theorem latest_start_ne {settings : Settings} {req : Request} {id : UInt32}
    (hid : req.transId ≠ id) (sent : Option Chunk) (past : List (Event × Option Chunk)) :
    latest settings id ((.start req, sent) :: past) = latest settings id past := by
  rw [latest, if_neg hid]

theorem latest_refused {settings : Settings} {req : Request} (h : req.stream settings = none)
    (id : UInt32) (sent : Option Chunk) (past : List (Event × Option Chunk)) :
    latest settings id ((.start req, sent) :: past) = latest settings id past := by
  by_cases hid : req.transId = id
  · rw [latest, if_pos hid, h]
  · exact latest_start_ne hid sent past

theorem latest_accepted {settings : Settings} {req : Request} {stream : List UInt8}
    (h : req.stream settings = some stream) (sent : Option Chunk)
    (past : List (Event × Option Chunk)) :
    latest settings req.transId ((.start req, sent) :: past) = some (stream, sent.toList) := by
  rw [latest, if_pos rfl, h]

theorem latest_next_ne {settings : Settings} {transId id : UInt32} (hid : transId ≠ id)
    (sent : Option Chunk) (past : List (Event × Option Chunk)) :
    latest settings id ((.next transId, sent) :: past) = latest settings id past := by
  rw [latest, if_neg hid]

theorem latest_next {settings : Settings} (transId : UInt32) (sent : Option Chunk)
    (past : List (Event × Option Chunk)) :
    latest settings transId ((.next transId, sent) :: past) =
      (latest settings transId past).map fun p => (p.1, p.2 ++ sent.toList) := by
  rw [latest, if_pos rfl]

/-- What a message for a stream sends, and what it leaves of it. -/
structure Sends (transId : UInt32) (stream : BufferStream) (sent : Option Chunk)
    (downloads downloads' : Table) : Prop where
  other : ∀ id ≠ transId, downloads' id = downloads id
  self : ∃ count : UInt32, stream.position + count.toNat ≤ stream.data.length ∧
    sent = some (chunkOf transId stream count).1 ∧
    (stream.position + count.toNat < stream.data.length →
      downloads' transId = some { stream with position := stream.position + count.toNat }) ∧
    (stream.data.length ≤ stream.position + count.toNat → downloads' transId = none)

theorem Sends.inv {settings : Settings} {s s' : Session} (h : Inv settings s) {transId : UInt32}
    {stream : BufferStream} {sent : Option Chunk} {chunks : List Chunk}
    (hsends : Sends transId stream sent s.downloads s'.downloads)
    (hother : ∀ id ≠ transId, latest settings id s'.log = latest settings id s.log)
    (hself : latest settings transId s'.log = some (stream.data, chunks ++ sent.toList))
    (hbeginning : Beginning transId stream chunks) : Inv settings s' := by
  obtain ⟨htable, count, hcount, rfl, hmore, hdone⟩ := hsends
  exact h.of_next transId (fun id hid => ⟨htable id hid, hother id hid⟩)
    ⟨{ stream with position := stream.position + count.toNat }, _, hself, hbeginning.next hcount, hmore,
      hdone⟩

theorem chunkSize_toNat : (UInt32.ofNat chunkSize).toNat = chunkSize := by decide

theorem size_toNat {stream : BufferStream} (h : stream.data.length < 2 ^ 32) :
    stream.size.toNat = stream.data.length := UInt32.toNat_ofNat_of_lt' h

/-- `bytesLeft`. -/
theorem bytesLeft_toNat {stream : BufferStream} (hlen : stream.data.length < 2 ^ 32)
    (hmore : stream.position < stream.data.length) :
    (stream.size - stream.tell).toNat = stream.data.length - stream.position := by
  have htell : stream.tell.toNat = stream.position := UInt32.toNat_ofNat_of_lt' (hmore.trans hlen)
  rw [UInt32.toNat_sub_of_le, size_toNat hlen, htell]
  rw [UInt32.le_iff_toNat_le, size_toNat hlen, htell]
  exact hmore.le

/-- The last chunk takes the entry away. -/
theorem downloadNext_last {downloads : Table} {transId : UInt32} {stream : BufferStream}
    (hentry : downloads transId = some stream)
    (hlast : ¬UInt32.ofNat chunkSize < stream.size - stream.tell) :
    downloadNext downloads transId = (Function.update downloads transId none,
      some (chunkOf transId stream (stream.size - stream.tell)).1) := by
  rw [downloadNext, hentry]
  exact if_neg hlast

theorem downloadNext_sends {downloads : Table} {transId : UInt32} {stream : BufferStream}
    (hentry : downloads transId = some stream) (hlen : stream.data.length < 2 ^ 32)
    (hmore : stream.position < stream.data.length) :
    Sends transId stream (downloadNext downloads transId).2 downloads
      (downloadNext downloads transId).1 := by
  have hleft := bytesLeft_toNat hlen hmore
  by_cases hbig : UInt32.ofNat chunkSize < stream.size - stream.tell
  · have hnext : downloadNext downloads transId =
        (Function.update downloads transId
          (some (chunkOf transId stream (UInt32.ofNat chunkSize)).2),
          some (chunkOf transId stream (UInt32.ofNat chunkSize)).1) := by
      rw [downloadNext, hentry]
      exact if_pos hbig
    rw [UInt32.lt_iff_toNat_lt, hleft, chunkSize_toNat] at hbig
    have hfits : stream.position + (UInt32.ofNat chunkSize).toNat ≤ stream.data.length := by
      rw [chunkSize_toNat]
      omega
    rw [hnext]
    refine ⟨fun id hid => Function.update_of_ne hid _ _, UInt32.ofNat chunkSize, hfits, rfl, ?_, ?_⟩
    · intro _
      show Function.update downloads transId _ transId = _
      rw [Function.update_self, (chunkOf_spec transId hlen hfits).2.2.2]
    · intro hle
      rw [chunkSize_toNat] at hle
      omega
  · rw [downloadNext_last hentry hbig]
    refine ⟨fun id hid => Function.update_of_ne hid _ _, stream.size - stream.tell, ?_, rfl, ?_, ?_⟩
    · rw [hleft]
      omega
    · intro hlt
      rw [hleft] at hlt
      omega
    · intro _
      exact Function.update_self _ _ _

/-- A file of more than one chunk is kept. -/
theorem downloadStart_large {settings : Settings} {req : Request} {data : List UInt8}
    (hopen : req.open settings = some (.ok { data })) (hlen : data.length < 2 ^ 32)
    (hbig : chunkSize < data.length) (downloads : Table) : downloadStart settings downloads req =
      some (Function.update downloads req.transId (some { data, position := chunkSize }),
        (chunkOf req.transId { data } (UInt32.ofNat chunkSize)).1) := by
  have hlarge : UInt32.ofNat chunkSize < BufferStream.size { data } := by
    rw [UInt32.lt_iff_toNat_lt, size_toNat hlen, chunkSize_toNat]
    exact hbig
  have hfits : 0 + (UInt32.ofNat chunkSize).toNat ≤ data.length := by
    rw [chunkSize_toNat]
    omega
  have hrest : (chunkOf req.transId { data } (UInt32.ofNat chunkSize)).2 =
      { data, position := chunkSize } := by
    rw [(@chunkOf_spec req.transId { data } _ hlen hfits).2.2.2, chunkSize_toNat, Nat.zero_add]
  rw [downloadStart, hopen]
  show (if UInt32.ofNat chunkSize < BufferStream.size { data } then _ else _) = _
  rw [if_pos hlarge, ← hrest]

/-- A file of one chunk is sent at once, and nothing else is done. -/
theorem downloadStart_small {settings : Settings} {req : Request} {data : List UInt8}
    (hopen : req.open settings = some (.ok { data })) (hlen : data.length < 2 ^ 32)
    (hsmall : data.length ≤ chunkSize) (downloads : Table) : downloadStart settings downloads req =
      some (downloads, (chunkOf req.transId { data } (BufferStream.size { data })).1) := by
  have hnot : ¬ UInt32.ofNat chunkSize < BufferStream.size { data } := by
    rw [UInt32.lt_iff_toNat_lt, size_toNat hlen, chunkSize_toNat, not_lt]
    exact hsmall
  rw [downloadStart, hopen]
  exact if_neg hnot

theorem downloadStart_sends {settings : Settings} {downloads : Table} {req : Request}
    {data : List UInt8} (hopen : req.open settings = some (.ok { data }))
    (hlen : data.length < 2 ^ 32)
    (hsmall : data.length ≤ chunkSize → downloads req.transId = none) :
    ∃ downloads' chunk, downloadStart settings downloads req = some (downloads', chunk) ∧
      Sends req.transId { data } (some chunk) downloads downloads' := by
  by_cases hbig : chunkSize < data.length
  · have hcount : 0 + (UInt32.ofNat chunkSize).toNat = chunkSize := by
      rw [chunkSize_toNat, Nat.zero_add]
    refine ⟨_, _, downloadStart_large hopen hlen hbig downloads,
      fun id hid => Function.update_of_ne hid _ _, UInt32.ofNat chunkSize, ?_, rfl, ?_, ?_⟩
    · exact hcount.trans_le hbig.le
    · intro _
      rw [Function.update_self, hcount]
    · intro hle
      exact absurd (hle.trans_eq hcount) (not_le.2 hbig)
  · have hsize : (BufferStream.size { data }).toNat = data.length := size_toNat hlen
    refine ⟨_, _, downloadStart_small hopen hlen (not_lt.1 hbig) downloads, fun _ _ => rfl,
      BufferStream.size { data }, ?_, rfl, ?_, ?_⟩
    · rw [hsize]
      exact (Nat.zero_add _).le
    · intro hlt
      rw [hsize] at hlt
      exact absurd hlt (not_lt.2 (Nat.zero_add _).ge)
    · intro _
      exact hsmall (not_lt.1 hbig)

theorem Request.open_ok {settings : Settings} {s : Session} {req : Request}
    (hok : Ok settings s (.start req)) :
    req.open settings = none ∨ ∃ data, req.open settings = some (.ok { data }) ∧
      data.length < 2 ^ 32 ∧ (data.length ≤ chunkSize → s.downloads req.transId = none) := by
  cases hpath : authDownloadPath settings req.filename with
  | none =>
    left
    rw [Request.open, hpath]
    rfl
  | some path =>
    cases hfile : req.disk (cstr path) with
    | none =>
      left
      rw [Request.open, hpath]
      show (req.disk (cstr path) >>= _) = none
      rw [hfile]
      rfl
    | some file =>
      right
      obtain ⟨hlen, hsmall⟩ := hok path file hpath hfile
      obtain ⟨data, hopen, hdata, -, -⟩ :=
        openStream_ok settings.droidKey req.stack (streamLength_ge.trans_lt hlen)
      rw [← hdata] at hlen hsmall
      refine ⟨data, ?_, hlen, hsmall⟩
      rw [Request.open, hpath]
      show (req.disk (cstr path) >>= _) = _
      rw [hfile]
      exact congrArg some hopen

/-- **What one message does to the downloads.** -/
theorem session_step {settings : Settings} {s s' : Session} {e : Event} (h : Inv settings s)
    (hok : Ok settings s e) (hstep : (machine settings).step s e = some s') :
    Inv settings s' := by
  cases e with
  | start req =>
    obtain ⟨⟨downloads', chunk⟩, hstart, rfl⟩ := Option.map_eq_some_iff.1 hstep
    obtain hnone | ⟨data, hopen, hlen, hsmall⟩ := Request.open_ok hok
    · have hrefused : req.stream settings = none := by
        rw [Request.stream, hnone]
      rw [downloadStart, hnone] at hstart
      cases hstart
      exact h.congr rfl fun id => latest_refused hrefused id _ _
    · have haccepted : req.stream settings = some data := by
        rw [Request.stream, hopen]
      obtain ⟨table, first, hsent, hsends⟩ := downloadStart_sends hopen hlen hsmall
      rw [hsent] at hstart
      cases hstart
      exact Sends.inv h hsends (fun id hid => latest_start_ne (Ne.symm hid) _ _)
        (latest_accepted haccepted _ _) (Beginning.nil req.transId hlen)
  | next transId =>
    have hs' : s' = ⟨(downloadNext s.downloads transId).1,
        (.next transId, (downloadNext s.downloads transId).2) :: s.log⟩ :=
      (Option.some.inj hstep).symm
    cases hentry : s.downloads transId with
    | none =>
      have hnext : downloadNext s.downloads transId = (s.downloads, none) := by
        rw [downloadNext, hentry]
      rw [hnext] at hs'
      subst hs'
      refine h.congr rfl fun id => ?_
      by_cases hid : transId = id
      · subst hid
        rw [latest_next]
        have hid : (fun p : List UInt8 × List Chunk => (p.1, p.2 ++ Option.toList none)) = id := by
          funext p
          rw [Option.toList_none, List.append_nil]
          rfl
        rw [hid, Option.map_id_apply]
      · exact latest_next_ne hid _ _
    | some stream =>
      obtain ⟨chunks, hlatest, hbeginning, hmore⟩ := h.pending transId stream hentry
      subst hs'
      refine Sends.inv h (downloadNext_sends hentry hbeginning.size hmore)
        (fun id hid => latest_next_ne (Ne.symm hid) _ _) ?_ hbeginning
      rw [latest_next, hlatest]
      rfl

/-- **Downloads deliver the file.**  In a run where each request is for a file that can be sent,
and none for a file of one chunk takes the id of a download in progress, the chunks of every id
are the beginning of the stream of its latest accepted request, and all of it exactly where the id
has no entry left. -/
theorem delivers {settings : Settings} {s : Session}
    (h : (machine settings).ReachableWith (Ok settings) s) (transId : UInt32) :
    Delivers settings s transId := by
  have hinv : Inv settings s := by
    refine h.invariant (fun s hs => ?_) fun s e s' hs hok hstep => session_step hs hok hstep
    obtain ⟨htable, hlog⟩ := hs
    refine ⟨fun id stream hentry => ?_, fun id stream chunks _ hlatest => ?_⟩
    · rw [htable] at hentry
      cases hentry
    · rw [hlog] at hlatest
      cases hlatest
  exact hinv.delivered transId

/-! ## Files of zeros -/

/-- A request for a file of so many zeros. -/
def zeros (transId : UInt32) (n : Nat) : Request where
  transId
  filename := "zeros"
  disk _ := some (List.replicate n 0)
  stack _ := 0

theorem zeros_path : authDownloadPath Settings.defaults "zeros" =
    some (Settings.defaults.authRoot ++ "zeros") := by decide

theorem streamLength_zeros (n : Nat) :
    n ≤ streamLength (fun _ => 0) (List.replicate n 0) ∧
      streamLength (fun _ => 0) (List.replicate n 0) ≤ n + 23 := by
  rw [streamLength, List.length_replicate]
  split <;> omega

theorem zeros_open (transId : UInt32) {n : Nat} (hn : n + 23 < 2 ^ 32) :
    ∃ data, (zeros transId n).open Settings.defaults = some (.ok { data }) ∧ n ≤ data.length ∧
      data.length ≤ n + 23 := by
  obtain ⟨hge, hle⟩ := streamLength_zeros n
  have hlen : (List.replicate n (0 : UInt8)).length < 2 ^ 32 := by
    rw [List.length_replicate]
    omega
  obtain ⟨data, hopen, hdata, -, -⟩ :=
    openStream_ok Settings.defaults.droidKey (fun _ => 0) hlen
  refine ⟨data, ?_, hge.trans_eq hdata.symm, hdata.trans_le hle⟩
  show (authDownloadPath Settings.defaults "zeros" >>= _) = _
  rw [zeros_path]
  exact congrArg some hopen

theorem zeros_ok {s : Session} {transId : UInt32} {n : Nat} (hn : n + 23 < 2 ^ 32)
    (hfree : s.downloads transId = none) : Ok Settings.defaults s (.start (zeros transId n)) := by
  intro path file _ hfile
  obtain rfl := Option.some.inj hfile
  exact ⟨(streamLength_zeros n).2.trans_lt hn, fun _ => hfree⟩

theorem start_step {settings : Settings} {s : Session} {req : Request} {downloads' : Table}
    {chunk : Chunk}
    (h : downloadStart settings s.downloads req = some (downloads', chunk)) :
    (machine settings).step s (.start req) =
      some ⟨downloads', (.start req, some chunk) :: s.log⟩ := by
  show (downloadStart settings s.downloads req).map _ = _
  rw [h]
  rfl

theorem next_step {settings : Settings} {s : Session} {transId : UInt32} {downloads' : Table}
    {sent : Option Chunk} (h : downloadNext s.downloads transId = (downloads', sent)) :
    (machine settings).step s (.next transId) =
      some ⟨downloads', (.next transId, sent) :: s.log⟩ :=
  congrArg (fun p : Table × Option Chunk =>
    some (Session.mk p.1 ((.next transId, p.2) :: s.log))) h

/-- A large file is in progress after its request. -/
theorem zeros_pending {n : Nat} (hn : n + 23 < 2 ^ 32) (hbig : chunkSize < n) :
    ∃ s data first, n ≤ data.length ∧ data.length ≤ n + 23 ∧
      s.downloads = Function.update (fun _ => none) 1 (some { data, position := chunkSize }) ∧
      latest Settings.defaults 1 s.log = some (data, [first]) ∧
      (machine Settings.defaults).ReachableWith (Ok Settings.defaults) s := by
  obtain ⟨data, hopen, hge, hle⟩ := zeros_open 1 hn
  have haccepted : (zeros 1 n).stream Settings.defaults = some data := by
    rw [Request.stream, hopen]
  have hstart := downloadStart_large hopen (by omega) (hbig.trans_le hge) fun _ => none
  generalize (chunkOf _ _ _).1 = first at hstart
  have hinitial : (machine Settings.defaults).start ⟨fun _ => none, []⟩ := ⟨rfl, rfl⟩
  exact ⟨⟨_, (.start (zeros 1 n), some first) :: []⟩, data, first, hge, hle, rfl,
    latest_accepted haccepted (some first) [],
    .step (.start hinitial) (zeros_ok hn rfl) (start_step hstart)⟩

/-- A file of one chunk does not end the download that has its id. -/
theorem not_delivers_small {settings : Settings} {s : Session} {req : Request} {data : List UInt8}
    (hopen : req.open settings = some (.ok { data })) (hlen : data.length < 2 ^ 32)
    {pending : BufferStream} (hpending : s.downloads req.transId = some pending) :
    ¬ Delivers settings ⟨s.downloads, (.start req,
      some (chunkOf req.transId { data } (BufferStream.size { data })).1) :: s.log⟩ req.transId := by
  intro hdelivers
  have haccepted : req.stream settings = some data := by rw [Request.stream, hopen]
  have hsize : 0 + (BufferStream.size { data }).toNat = data.length := by
    rw [size_toNat hlen, Nat.zero_add]
  have hbeginning : Beginning req.transId { data, position := 0 + (BufferStream.size { data }).toNat }
      ([] ++ [(chunkOf req.transId { data } (BufferStream.size { data })).1]) :=
    (Beginning.nil req.transId hlen).next hsize.le
  have hwhole := hbeginning.whole.2 hsize.ge
  have hnone := (hdelivers.sent data _ (latest_accepted haccepted _ _)).2.2 hwhole
  rw [hpending] at hnone
  cases hnone

/-- Two requests and two acknowledgements: the second chunk of the large file is its last one. -/
theorem delivers_zeros : ∃ s stream first last,
    (∀ transId, Delivers Settings.defaults s transId) ∧ s.downloads 1 = none ∧
      latest Settings.defaults 1 s.log = some (stream, [first, last]) ∧
      contents [first, last] = stream := by
  obtain ⟨s, data, first, hge, hle, htable, hlatest, hreach⟩ :=
    zeros_pending (n := 0x8001) (by decide) (by decide)
  obtain ⟨small, hopen, -, hle'⟩ := zeros_open 2 (n := 8) (by decide)
  have hfree : s.downloads 2 = none := by
    rw [htable]
    rfl
  have hsmall := downloadStart_small hopen (by omega) (hle'.trans (by decide)) s.downloads
  generalize (chunkOf _ _ _).1 = chunk at hsmall
  have hentry : s.downloads 1 = some { data, position := chunkSize } := by
    rw [htable]
    rfl
  have hlen : data.length < 2 ^ 32 := by omega
  have hleft : (BufferStream.size { data } -
      BufferStream.tell { data, position := chunkSize }).toNat = data.length - chunkSize :=
    bytesLeft_toNat hlen hge
  have hlast : ¬UInt32.ofNat chunkSize <
      BufferStream.size { data } - BufferStream.tell { data, position := chunkSize } := by
    rw [UInt32.lt_iff_toNat_lt, chunkSize_toNat, hleft, not_lt, chunkSize]
    omega
  have hnext := downloadNext_last hentry hlast
  generalize (chunkOf _ _ _).1 = last at hnext
  have hfinished := Function.update_self 1 (none : Option BufferStream) s.downloads
  have hdone : downloadNext (Function.update s.downloads 1 none) 1 =
      (Function.update s.downloads 1 none, none) := by
    rw [downloadNext, hfinished]
  have hsecond : (machine Settings.defaults).ReachableWith (Ok Settings.defaults)
      ⟨s.downloads, (.start (zeros 2 8), some chunk) :: s.log⟩ :=
    hreach.step (zeros_ok (by decide) hfree) (start_step hsmall)
  have hwhole : (machine Settings.defaults).ReachableWith (Ok Settings.defaults)
      ⟨Function.update s.downloads 1 none, (.next 1, none) :: (.next 1, some last) ::
        (.start (zeros 2 8), some chunk) :: s.log⟩ :=
    (hsecond.step (e := Event.next 1) trivial (next_step hnext)).step (e := Event.next 1) trivial
      (next_step hdone)
  have hsent : latest Settings.defaults 1 ((.next 1, none) :: (.next 1, some last) ::
      (.start (zeros 2 8), some chunk) :: s.log) = some (data, [first, last]) := by
    simp only [latest, zeros, hlatest]
    rfl
  have hdelivers := delivers hwhole
  exact ⟨_, data, first, last, hdelivers, hfinished, hsent,
    ((hdelivers 1).sent _ _ hsent).2.1 hfinished⟩

/-- **A download that is not of its request.**  A file of one chunk takes the id of a download in
progress: its request is answered with the file, and then the id goes on with the old one. -/
theorem downloads_mixed : ∃ s, (machine Settings.defaults).Reachable s ∧
    ¬ Delivers Settings.defaults s 1 := by
  obtain ⟨s, large, -, -, -, htable, -, hreach⟩ :=
    zeros_pending (n := 0x8001) (by decide) (by decide)
  obtain ⟨data, hopen, -, hle⟩ := zeros_open 1 (n := 8) (by decide)
  have hstart := downloadStart_small hopen (by omega) (hle.trans (by decide)) s.downloads
  have hentry : s.downloads (zeros 1 8).transId = some { data := large, position := chunkSize } := by
    rw [htable]
    rfl
  exact ⟨_, .step hreach.reachable trivial (start_step hstart),
    not_delivers_small hopen (by omega) hentry⟩

end Dirtsand.Downloads
