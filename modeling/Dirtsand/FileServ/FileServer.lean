import Dirtsand.FileServ.Downloads
import Dirtsand.FileServ.Manifests
import Dirtsand.NetIO.ServeLoop

/-!
# The file server

`wk_fileServ` (FileServ/FileServer.cpp), the thread of one client: a header, and
then one request after the other.  Nothing is encrypted.  The size that is in
front of a request is not looked at, and the acknowledgements are not answered.

A client of another build has its socket closed in the middle of the loop; the
next receive finds it closed.  The size of a reply is a `uint32_t`, and as much of
the reply is sent as it says.

* `implements_file` — a round answers a whole request, and stops at anything
  else.
* `fileServer_transcript` — what a session sends, in which no manifest is loaded
  that has the process read past a string.
-/

namespace Dirtsand.FileServer

open FileDownloads (chunks reply notFound downloadStart downloadLoop)
open Files (fileDownloadPath fileManifestPath wrongBuild)
open Lib.Reader (length_leBytes leBytes_leValue leValue_lt leBytes)
open Manifest (LoadError)
open NetIO
open Streams (writeU32)

/-- What the process brings to a session.  `disk` has the files that can be opened. -/
structure Host where
  buildId : UInt32
  settings : Dirtsand.Settings
  codecs : Settings.Codecs
  disk : String → Option (List UInt8)

/-! ## The program -/

/-- `DS::RecvBuffer`. -/
def recvBytes (size : Nat) : Conn Empty (List UInt8) := Conn.recv (recvBuffer size size)

/-- `DS::RecvValue<uint32_t>`. -/
def recvU32 : Conn Empty UInt32 := do
  let bytes ← recvBytes 4
  pure (UInt32.ofNat (Lib.Reader.leValue bytes))

/-- The text of a buffer of 260 units, of which the last is made a NUL. -/
def nameOf (buffer : List UInt8) : String :=
  Vault.decodeUtf16 (((Vault.unitsOfBytes buffer).take 259).takeWhile (· ≠ 0))

def recvName : Conn Empty String := do
  let buffer ← recvBytes 520
  pure (nameOf buffer)

def put (buffer : BufferStream) (v : UInt32) : BufferStream := buffer.writeBytes (writeU32 v)

/-- `START_REPLY`. -/
def startReply (msgId : UInt32) : BufferStream := put (put {} 0) msgId

/-- `SEND_REPLY`.  `size()` is 32 bits wide, in front of the reply and for `SendBuffer`. -/
def sendReply (buffer : BufferStream) : Conn Empty Unit :=
  let buffer := put (buffer.seek 0) buffer.size
  Conn.send (buffer.data.take buffer.size.toNat)

/-- A program that only sends. -/
def sending {α : Type} (p : Send α) : Conn Empty α := fun c =>
  ExceptT.mk (p >>= fun a => pure (.ok (a, c)))

section Program

variable (h : Host)

/-- `file_init`. -/
def fileInit : Conn Empty Unit := do
  let size ← recvU32
  if size ≠ 12 then throw .invalidHeader else do
  let _ ← recvU32
  let _ ← recvU32
  pure ()

def cbPing : Conn Empty Unit := do
  let pingTime ← recvU32
  sendReply (put (startReply 0) pingTime)

def cbBuildId : Conn Empty Unit := do
  let transId ← recvU32
  sendReply (put (put (put (startReply 10) transId)
    (UInt32.ofNat NetResultCode.success.ctorIdx)) h.buildId)

/-- The end of a reply that has no manifest. -/
def sendNoManifest (buffer : BufferStream) (result : NetResultCode) : Conn Empty Unit :=
  sendReply (put (put (put (put buffer (UInt32.ofNat result.ctorIdx)) 0) 0) 0)

def sendManifest (buffer : BufferStream) (readerId : UInt32)
    (files : List Manifest.FileManifest.FileInfo) : Conn Empty Unit :=
  let buffer := put (put (put buffer (UInt32.ofNat NetResultCode.success.ctorIdx)) readerId)
    (UInt32.ofNat files.length)
  let sizeLocation := buffer.tell
  let buffer := put buffer 0
  let (buffer, dataSize) := Manifest.FileManifest.encodeToStream files buffer
  sendReply (put (buffer.seek sizeLocation.toNat) dataSize)

/-- `cb_manifest`, behind what it receives. -/
def answerManifest (readerId transId : UInt32) (mfsname : String) (buildId : UInt32) :
    Conn Empty UInt32 :=
  if wrongBuild h.buildId buildId then throw .sockHup else
  let buffer := put (startReply 20) transId
  match fileManifestPath h.buildId h.settings mfsname buildId with
  | none => do
    sendNoManifest buffer .fileNotFound
    pure readerId
  | some path =>
    match Manifest.FileManifest.loadManifest h.codecs (h.disk (cstr path)) with
    | .error .unicode => throw .exception
    | .error .outside => throw .overrun
    | .ok (result, files) =>
      if result ≠ .success then do
        sendNoManifest buffer result
        pure readerId
      else do
        sendManifest buffer (readerId + 1) files
        pure (readerId + 1)

/-- `cb_downloadStart`, behind what it receives. -/
def answerDownload (readerId transId : UInt32) (filename : String) (buildId : UInt32) :
    Conn Empty UInt32 :=
  match downloadStart h.buildId h.settings h.disk readerId transId filename buildId with
  | none => throw .sockHup
  | some p => sending p

/-- What `cb_manifest` and `cb_downloadStart` receive. -/
def recvNamed (answer : UInt32 → String → UInt32 → Conn Empty UInt32) : Conn Empty UInt32 := do
  let transId ← recvU32
  let name ← recvName
  let buildId ← recvU32
  answer transId name buildId

/-- `cb_manifest`, with the reader id that is left. -/
def cbManifest (readerId : UInt32) : Conn Empty UInt32 := recvNamed (answerManifest h readerId)

/-- `cb_downloadStart`, with the reader id that is left. -/
def cbDownloadStart (readerId : UInt32) : Conn Empty UInt32 := recvNamed (answerDownload h readerId)

/-- `cb_manifestAck` and `cb_downloadNext`. -/
def cbAck : Conn Empty Unit := do
  let _ ← recvU32
  let _ ← recvU32
  pure ()

/-- The cases on the kind of a request. -/
def fileDispatch (readerId msgId : UInt32) : Conn Empty UInt32 :=
  if msgId = 0 then do
    cbPing
    pure readerId
  else if msgId = 10 then do
    cbBuildId h
    pure readerId
  else if msgId = 20 then cbManifest h readerId
  else if msgId = 22 then do
    cbAck
    pure readerId
  else if msgId = 21 then cbDownloadStart h readerId
  else if msgId = 23 then do
    cbAck
    pure readerId
  else throw (.invalidMessage msgId.toNat)

/-- One round of the loop of `wk_fileServ`. -/
def fileRound (readerId : UInt32) : Conn Empty UInt32 := do
  let _ ← recvU32
  let msgId ← recvU32
  fileDispatch h readerId msgId

/-- `wk_fileServ`, up to the exception that ends it. -/
def wkFileServ (fuel : Nat) : Conn Empty Unit := do
  fileInit
  serveLoop (fileRound h) fuel 0

end Program

/-! ## Requests -/

inductive Request where
  | ping (pingTime : UInt32)
  | buildId (transId : UInt32)
  | manifest (transId : UInt32) (name : List UInt8) (build : UInt32)
  | download (transId : UInt32) (name : List UInt8) (build : UInt32)
  | manifestAck (transId readerId : UInt32)
  | downloadAck (transId readerId : UInt32)
deriving DecidableEq, Repr

namespace Request

def msgId : Request → UInt32
  | ping _ => 0
  | buildId _ => 10
  | manifest _ _ _ => 20
  | download _ _ _ => 21
  | manifestAck _ _ => 22
  | downloadAck _ _ => 23

def body : Request → List UInt8
  | ping pingTime => writeU32 pingTime
  | buildId transId => writeU32 transId
  | manifest transId name build => writeU32 transId ++ (name ++ writeU32 build)
  | download transId name build => writeU32 transId ++ (name ++ writeU32 build)
  | manifestAck transId readerId => writeU32 transId ++ writeU32 readerId
  | downloadAck transId readerId => writeU32 transId ++ writeU32 readerId

/-- A name fills its buffer. -/
def Valid : Request → Prop
  | manifest _ name _ => name.length = 520
  | download _ name _ => name.length = 520
  | _ => True

end Request

/-- A request behind the size that a client gives. -/
structure Message where
  size : UInt32
  request : Request
deriving DecidableEq, Repr

def Message.encode (m : Message) : List UInt8 :=
  writeU32 m.size ++ (writeU32 m.request.msgId ++ m.request.body)

/-- A reply: its size, its kind, and what else is in it, up to its size. -/
def frame (msgId : UInt32) (body : List UInt8) : List UInt8 :=
  let size := UInt32.ofNat (8 + body.length)
  (writeU32 size ++ (writeU32 msgId ++ body)).take size.toNat

/-- What a reply to a request for a manifest has. -/
def manifestBody (transId : UInt32) (result : NetResultCode) (readerId count dataSize : UInt32)
    (data : List UInt8) : List UInt8 :=
  writeU32 transId ++ (writeU32 (UInt32.ofNat result.ctorIdx) ++ (writeU32 readerId ++
    (writeU32 count ++ (writeU32 dataSize ++ data))))

/-- The manifest as it is sent. -/
def manifestData (files : List Manifest.FileManifest.FileInfo) : List UInt8 :=
  files.flatMap Manifest.FileManifest.writeFile ++ Streams.writeU16 0

/-- The number of units that is sent with a manifest. -/
def dataSize (files : List Manifest.FileManifest.FileInfo) : UInt32 :=
  UInt32.ofNat (manifestData files).length / 2

/-- What is sent for a request, with the reader id that is left. -/
def Request.serve (h : Host) (readerId : UInt32) : Request → List UInt8 × Except Stop UInt32
  | .ping pingTime => (frame 0 (writeU32 pingTime), .ok readerId)
  | .buildId transId => (frame 10 (writeU32 transId ++
      (writeU32 (UInt32.ofNat NetResultCode.success.ctorIdx) ++ writeU32 h.buildId)), .ok readerId)
  | .manifest transId name build =>
    if wrongBuild h.buildId build then ([], .error .sockHup)
    else
      match fileManifestPath h.buildId h.settings (nameOf name) build with
      | none => (frame 20 (manifestBody transId .fileNotFound 0 0 0 []), .ok readerId)
      | some path =>
        match Manifest.FileManifest.loadManifest h.codecs (h.disk (cstr path)) with
        | .error .unicode => ([], .error .exception)
        | .error .outside => ([], .error .overrun)
        | .ok (result, files) =>
          if result ≠ .success then (frame 20 (manifestBody transId result 0 0 0 []), .ok readerId)
          else (frame 20 (manifestBody transId .success (readerId + 1) (UInt32.ofNat files.length)
            (dataSize files) (manifestData files)), .ok (readerId + 1))
  | .download transId name build =>
    if wrongBuild h.buildId build then ([], .error .sockHup)
    else
      match (fileDownloadPath h.buildId h.settings (nameOf name) build).bind
          fun path => h.disk (cstr path) with
      | none => (notFound transId, .ok readerId)
      | some file => ((chunks file).flatMap (reply transId readerId file.length), .ok (readerId + 1))
  | .manifestAck _ _ => ([], .ok readerId)
  | .downloadAck _ _ => ([], .ok readerId)

/-- The request loads a manifest with a hash that ends before the 32 units that are copied, so that
the process reads on behind the string. -/
def Request.Overreads (h : Host) : Request → Prop
  | .manifest _ name build => ∃ path,
      fileManifestPath h.buildId h.settings (nameOf name) build = some path ∧
        Manifest.FileManifest.loadManifest h.codecs (h.disk (cstr path)) = .error .outside
  | _ => False

/-- How the session ends where no whole request comes. -/
def stopAt (hup : Bool) (clear : List UInt8) : Stop :=
  let msgId := Lib.Reader.leValue ((clear.drop 4).take 4)
  if clear.length < 8 ∨ msgId ∈ [0, 10, 20, 21, 22, 23] then starved hup else .invalidMessage msgId

def fileProtocol (h : Host) : Protocol UInt32 Message where
  encode := Message.encode
  Valid m := m.request.Valid
  serve readerId m := m.request.serve h readerId
  stopAt := stopAt

/-! ## Receiving -/

/-- Of no keystream there is anything. -/
def noCipher : Lib.Keystream Empty := ⟨Empty.elim⟩

section Receiving

variable {hup : Bool} {w : Option Empty}

theorem recvBytes_eq (size : Nat) : recvBytes size = cryptRecvBuffer noCipher size := by
  funext ⟨sock, crypt⟩
  cases crypt with
  | some state => exact state.readKey.elim
  | none =>
    unfold recvBytes cryptRecvBuffer
    show Conn.recv _ _ = (Conn.recv _ >>= _) _
    simp only [bind, StateT.bind, Conn.recv]
    cases recvBuffer size size sock with
    | ok bytes rest => rfl
    | blocked => rfl
    | sockHup => rfl
    | invalidHeader => rfl
    | overrun => rfl

theorem says_recvBytes {size : Nat} {bytes : List UInt8} (h : bytes.length = size)
    (rest : List UInt8) : Says noCipher (recvBytes size) ⟨bytes ++ rest, hup, w⟩ []
      (.ok (bytes, ⟨rest, hup, w⟩)) := by
  rw [recvBytes_eq]
  exact says_cryptRecvBuffer_append h rest

theorem says_recvBytes_short {size : Nat} {clear : List UInt8} (h : clear.length < size) :
    Says noCipher (recvBytes size) ⟨clear, hup, w⟩ [] (.error (starved hup)) := by
  rw [recvBytes_eq]
  exact says_cryptRecvBuffer_short ⟨clear, hup, w⟩ h

theorem says_recvU32 (v : UInt32) (rest : List UInt8) : Says noCipher recvU32
    ⟨writeU32 v ++ rest, hup, w⟩ [] (.ok (v, ⟨rest, hup, w⟩)) := by
  refine (says_recvBytes (length_leBytes 4 _) rest).after ?_
  rw [Lib.Reader.leValue_leBytes v.toNat_lt, UInt32.ofNat_toNat]
  exact says_pure _ _

theorem says_short {clear : List UInt8} (h : clear.length < 4) {α : Type}
    (f : UInt32 → Conn Empty α) :
    Says noCipher (recvU32 >>= f) ⟨clear, hup, w⟩ [] (.error (starved hup)) :=
  (says_recvBytes_short h).bind_error.bind_error

theorem says_recvName {name : List UInt8} (h : name.length = 520) (rest : List UInt8) :
    Says noCipher recvName ⟨name ++ rest, hup, w⟩ [] (.ok (nameOf name, ⟨rest, hup, w⟩)) :=
  (says_recvBytes h rest).after (says_pure _ _)

end Receiving

/-! ## Replies -/

/-- A reply that is no larger than its size can say is sent as a whole. -/
theorem frame_eq {msgId : UInt32} {body : List UInt8} (h : 8 + body.length < 2 ^ 32) :
    frame msgId body = writeU32 (UInt32.ofNat (8 + body.length)) ++ (writeU32 msgId ++ body) := by
  have hsize : (UInt32.ofNat (8 + body.length)).toNat = 8 + body.length :=
    UInt32.toNat_ofNat_of_lt' h
  refine List.take_of_length_le ?_
  rw [hsize]
  simp only [List.length_append, writeU32, length_leBytes]
  omega

/-- A buffer behind `START_REPLY`, with the room for the size. -/
def filled (body : List UInt8) : BufferStream :=
  ⟨writeU32 0 ++ body, (writeU32 0 ++ body).length⟩

theorem length_writeU32 (v : UInt32) : (writeU32 v).length = 4 := length_leBytes 4 _

theorem startReply_eq (msgId : UInt32) : startReply msgId = filled (writeU32 msgId) := rfl

theorem put_filled (body : List UInt8) (v : UInt32) :
    put (filled body) v = filled (body ++ writeU32 v) := by
  rw [put, BufferStream.writeBytes_end rfl, filled, filled, List.append_assoc]

/-- `SEND_REPLY` depends on the bytes of the buffer only. -/
theorem put_size {buffer : BufferStream} {body : List UInt8} (h : buffer.data = writeU32 0 ++ body) :
    (put (buffer.seek 0) buffer.size).data = writeU32 (UInt32.ofNat (4 + body.length)) ++ body := by
  have hlen : buffer.data.length = 4 + body.length := by
    rw [h, List.length_append, length_writeU32]
  have hseek : (buffer.seek 0).position = 0 := rfl
  have hdrop : (writeU32 0 ++ body).drop 4 = body := List.drop_left' (length_writeU32 0)
  show (buffer.seek 0).data.take _ ++ writeU32 buffer.size ++ _ = _
  rw [hseek, List.take_zero, List.nil_append, length_writeU32, Nat.zero_add]
  show writeU32 (UInt32.ofNat buffer.data.length) ++ buffer.data.drop 4 = _
  rw [hlen, h, hdrop]

theorem says_sendReply {peer : Peer Empty} {buffer : BufferStream} {msgId : UInt32}
    {body : List UInt8} (h : buffer.data = writeU32 0 ++ (writeU32 msgId ++ body)) :
    Says noCipher (sendReply buffer) peer (frame msgId body) (.ok ((), peer)) := by
  have hbytes := put_size h
  have hlen : 4 + (writeU32 msgId ++ body).length = 8 + body.length := by
    rw [List.length_append, length_writeU32]
    omega
  have hsize : (put (buffer.seek 0) buffer.size).size = UInt32.ofNat (8 + body.length) := by
    rw [BufferStream.size, hbytes, List.length_append, length_writeU32, hlen]
  rw [hlen] at hbytes
  rw [sendReply]
  simp only [hsize, hbytes]
  exact says_send peer _

/-- A number that was left out is written over zeros. -/
theorem patched (before after : List UInt8) (v : UInt32) (h : before.length < 2 ^ 31) :
    (put ((filled (before ++ writeU32 0 ++ after)).seek (filled before).tell.toNat) v).data =
      writeU32 0 ++ (before ++ (writeU32 v ++ after)) := by
  have hzero := length_writeU32 0
  have hdata : (filled (before ++ writeU32 0 ++ after)).data =
      writeU32 0 ++ before ++ (writeU32 0 ++ after) := by
    simp only [filled, List.append_assoc]
  have hfirst : (writeU32 0 ++ before).length = 4 + before.length := by
    rw [List.length_append, hzero]
  have htell : (filled before).tell.toNat = (writeU32 0 ++ before).length := by
    show (UInt32.ofNat (writeU32 0 ++ before).length).toNat = _
    exact UInt32.toNat_ofNat_of_lt' (show _ < 2 ^ 32 by omega)
  have hseek : ((filled (before ++ writeU32 0 ++ after)).seek (filled before).tell.toNat).position =
      (writeU32 0 ++ before).length := by
    show (if (filled _).data.length < _ then _ else _) = _
    rw [htell, hdata, if_neg (by simp only [List.length_append] at hfirst ⊢; omega)]
  show (filled _).data.take _ ++ writeU32 v ++ (filled _).data.drop _ = _
  rw [hseek, hdata, length_writeU32, List.take_left, ← List.drop_drop, List.drop_left,
    List.drop_left' hzero, List.append_assoc, List.append_assoc]

theorem encodeToStream_filled (files : List Manifest.FileManifest.FileInfo) (body : List UInt8) :
    Manifest.FileManifest.encodeToStream files (filled body) =
      (filled (body ++ manifestData files), dataSize files) := by
  have hwrite : (filled body).writeBytes (manifestData files) =
      filled (body ++ manifestData files) := by
    rw [BufferStream.writeBytes_end rfl, filled, filled, List.append_assoc]
  have hcount : (filled (body ++ manifestData files)).tell - (filled body).tell =
      UInt32.ofNat (manifestData files).length := by
    have hpos : (filled (body ++ manifestData files)).position =
        (filled body).position + (manifestData files).length := by
      show (writeU32 0 ++ (body ++ manifestData files)).length = _ + _
      rw [← List.append_assoc, List.length_append]
      rfl
    rw [BufferStream.tell, BufferStream.tell, hpos, UInt32.ofNat_add, add_sub_cancel_left]
  show (BufferStream.writeBytes _ _, _ / 2) = _
  rw [← manifestData, hwrite, hcount, dataSize]

theorem says_sending {α : Type} {p : Send α} {bytes : List UInt8} {a : α}
    (h : Sends p bytes fun b => b = a) (peer : Peer Empty) :
    Says noCipher (sending p) peer bytes (.ok (a, peer)) := by
  rintro c rfl
  rw [← List.append_nil bytes]
  refine Sends.bind h fun b hb => ?_
  subst hb
  exact Sends.pure rfl

/-! ## One round -/

section Round

variable {h : Host} {hup : Bool} {w : Option Empty}

theorem says_noManifest (transId : UInt32) (result : NetResultCode) (peer : Peer Empty) :
    Says noCipher (sendNoManifest (put (startReply 20) transId) result) peer
      (frame 20 (manifestBody transId result 0 0 0 [])) (.ok ((), peer)) := by
  refine says_sendReply ?_
  simp only [startReply_eq, put_filled, List.append_assoc]
  rfl

theorem says_manifest (transId readerId : UInt32) (files : List Manifest.FileManifest.FileInfo)
    (peer : Peer Empty) :
    Says noCipher (sendManifest (put (startReply 20) transId) readerId files) peer
      (frame 20 (manifestBody transId .success readerId (UInt32.ofNat files.length) (dataSize files)
        (manifestData files))) (.ok ((), peer)) := by
  unfold sendManifest
  simp only [startReply_eq, put_filled, encodeToStream_filled]
  refine says_sendReply ?_
  refine (patched _ _ _ (by simp only [List.length_append, length_writeU32]; decide)).trans ?_
  simp only [manifestBody, List.append_assoc]

theorem says_answerDownload (transId readerId : UInt32) (name : List UInt8) (build : UInt32)
    (peer : Peer Empty) : Says noCipher (answerDownload h readerId transId (nameOf name) build) peer
      ((Request.download transId name build).serve h readerId).1
      (((Request.download transId name build).serve h readerId).2.map fun a => (a, peer)) := by
  rw [answerDownload, downloadStart, Request.serve]
  cases hbuild : wrongBuild h.buildId build with
  | true => exact says_throw _ _
  | false =>
    simp only [Bool.false_eq_true, if_false]
    cases hpath : (fileDownloadPath h.buildId h.settings (nameOf name) build).bind
        fun path => h.disk (cstr path) with
    | none =>
      refine says_sending ?_ peer
      rw [← List.append_nil (notFound transId)]
      exact Sends.bind ( NetIO.sends_sendBuffer _) fun _ _ => Sends.pure rfl
    | some file =>
      have hloop := FileDownloads.sends_downloadLoop transId readerId file 0 (Nat.zero_le _)
      rw [List.drop_zero] at hloop
      refine says_sending ?_ peer
      show Sends _ ((chunks file).flatMap (reply transId readerId file.length)) _
      rw [← List.append_nil (List.flatMap _ _)]
      exact hloop.bind fun _ _ => Sends.pure rfl

theorem sealed_noCipher (peer : Peer Empty) (bytes : List UInt8) :
    peer.sealed noCipher bytes = bytes := by
  obtain ⟨clear, hup, w⟩ := peer
  cases w with
  | none => rfl
  | some k => exact k.elim

theorem got_noCipher (peer : Peer Empty) (n : Nat) : peer.got noCipher n = peer := by
  obtain ⟨clear, hup, w⟩ := peer
  cases w with
  | none => rfl
  | some k => exact k.elim

theorem says_answerManifest (transId readerId : UInt32) (name : List UInt8) (build : UInt32)
    (peer : Peer Empty) : Says noCipher (answerManifest h readerId transId (nameOf name) build) peer
      ((Request.manifest transId name build).serve h readerId).1
      (((Request.manifest transId name build).serve h readerId).2.map fun a => (a, peer)) := by
  have hthen : ∀ {p : Conn Empty Unit} {bytes : List UInt8} (a : UInt32),
      Says noCipher p peer bytes (.ok ((), peer)) →
        Says noCipher (do p; pure a) peer bytes (.ok (a, peer)) := by
    intro p bytes a hp
    rw [← List.append_nil bytes]
    exact hp.bind (says_pure _ _)
  rw [answerManifest, Request.serve]
  split
  · exact says_throw _ _
  · split
    · exact hthen _ (says_noManifest transId _ peer)
    · split
      · exact says_throw _ _
      · exact says_throw _ _
      · split
        · exact hthen _ (says_noManifest transId _ peer)
        · exact hthen _ (says_manifest transId _ _ peer)

theorem says_recvNamed {answer : UInt32 → String → UInt32 → Conn Empty UInt32} {transId build : UInt32}
    {name bytes rest : List UInt8} (hname : name.length = 520) {result : Except Stop UInt32}
    (hanswer : ∀ peer, Says noCipher (answer transId (nameOf name) build) peer bytes
      (result.map fun a => (a, peer))) :
    Says noCipher (recvNamed answer) ⟨writeU32 transId ++ (name ++ writeU32 build) ++ rest, hup, w⟩
      bytes (result.map fun a => (a, ⟨rest, hup, w⟩)) := by
  simp only [List.append_assoc]
  exact (says_recvU32 _ _).after ((says_recvName hname _).after ((says_recvU32 _ _).after
    (hanswer _)))

theorem says_ack (transId oldId readerId : UInt32) (rest : List UInt8) :
    Says noCipher (do cbAck; pure readerId) ⟨writeU32 transId ++ writeU32 oldId ++ rest, hup, w⟩ []
      (.ok (readerId, ⟨rest, hup, w⟩)) := by
  rw [List.append_assoc]
  have hack : Says noCipher cbAck ⟨writeU32 transId ++ (writeU32 oldId ++ rest), hup, w⟩ []
      (.ok ((), ⟨rest, hup, w⟩)) :=
    (says_recvU32 _ _).after ((says_recvU32 _ _).after (says_pure _ _))
  exact hack.after (says_pure _ _)

/-- **A whole request is served.** -/
theorem says_dispatch {r : Request} (hr : r.Valid) (readerId : UInt32) (rest : List UInt8) :
    Says noCipher (fileDispatch h readerId r.msgId) ⟨r.body ++ rest, hup, w⟩
      (r.serve h readerId).1 ((r.serve h readerId).2.map fun a => (a, ⟨rest, hup, w⟩)) := by
  cases r with
  | ping pingTime =>
    have hping : Says noCipher cbPing ⟨writeU32 pingTime ++ rest, hup, w⟩
        (frame 0 (writeU32 pingTime)) (.ok ((), ⟨rest, hup, w⟩)) := by
      refine (says_recvU32 _ _).after (says_sendReply ?_)
      rw [startReply_eq, put_filled]
      rfl
    rw [← List.append_nil (Request.serve _ _ _).1]
    exact hping.bind (says_pure _ _)
  | buildId transId =>
    have hbuild : Says noCipher (cbBuildId h) ⟨writeU32 transId ++ rest, hup, w⟩
        (frame 10 (writeU32 transId ++ (writeU32 (UInt32.ofNat NetResultCode.success.ctorIdx) ++
          writeU32 h.buildId))) (.ok ((), ⟨rest, hup, w⟩)) := by
      refine (says_recvU32 _ _).after (says_sendReply ?_)
      simp only [startReply_eq, put_filled, List.append_assoc]
      rfl
    rw [← List.append_nil (Request.serve _ _ _).1]
    exact hbuild.bind (says_pure _ _)
  | manifest transId name build =>
    exact says_recvNamed hr fun peer => says_answerManifest transId readerId name build peer
  | download transId name build =>
    exact says_recvNamed hr fun peer => says_answerDownload transId readerId name build peer
  | manifestAck transId oldId => exact says_ack transId oldId readerId rest
  | downloadAck transId oldId => exact says_ack transId oldId readerId rest

/-! ## What is not a request -/

theorem exists_u32 {clear : List UInt8} (h : 4 ≤ clear.length) :
    ∃ (v : UInt32) (rest : List UInt8), clear = writeU32 v ++ rest := by
  have hlen : (clear.take 4).length = 4 := by
    rw [List.length_take]
    exact min_eq_left h
  have hlt := leValue_lt (clear.take 4)
  have hbytes := leBytes_leValue (clear.take 4)
  rw [hlen] at hlt hbytes
  refine ⟨UInt32.ofNat (Lib.Reader.leValue (clear.take 4)), clear.drop 4, ?_⟩
  rw [writeU32, UInt32.toNat_ofNat_of_lt' hlt, hbytes, List.take_append_drop]

theorem says_cut_u32 {clear : List UInt8} (hcut : ∀ v rest, clear ≠ writeU32 v ++ rest) {α : Type}
    (f : UInt32 → Conn Empty α) :
    Says noCipher (recvU32 >>= f) ⟨clear, hup, w⟩ [] (.error (starved hup)) := by
  refine says_short (not_le.1 fun hle => ?_) f
  obtain ⟨v, rest, heq⟩ := exists_u32 hle
  exact hcut v rest heq

theorem says_cut_ack {clear : List UInt8}
    (hcut : ∀ v v' rest, clear ≠ writeU32 v ++ writeU32 v' ++ rest) :
    Says noCipher cbAck ⟨clear, hup, w⟩ [] (.error (starved hup)) := by
  by_cases h4 : clear.length < 4
  · exact says_short h4 _
  obtain ⟨v, clear, rfl⟩ := exists_u32 (not_lt.1 h4)
  refine (says_recvU32 _ _).after (says_cut_u32 (fun v' rest heq => ?_) _)
  exact hcut v v' rest (by rw [heq, List.append_assoc])

theorem says_cut_named {answer : UInt32 → String → UInt32 → Conn Empty UInt32} {clear : List UInt8}
    (hcut : ∀ v name v' rest, name.length = 520 →
      clear ≠ writeU32 v ++ (name ++ writeU32 v') ++ rest) :
    Says noCipher (recvNamed answer) ⟨clear, hup, w⟩ [] (.error (starved hup)) := by
  by_cases h4 : clear.length < 4
  · exact says_short h4 _
  obtain ⟨v, clear, rfl⟩ := exists_u32 (not_lt.1 h4)
  refine (says_recvU32 _ _).after ?_
  by_cases hname : clear.length < 520
  · exact (says_recvBytes_short hname).bind_error.bind_error
  have hlen : (clear.take 520).length = 520 := by
    rw [List.length_take]
    exact min_eq_left (not_lt.1 hname)
  have hrecv : Says noCipher recvName ⟨clear.take 520 ++ clear.drop 520, hup, w⟩ []
      (.ok (nameOf (clear.take 520), ⟨clear.drop 520, hup, w⟩)) := says_recvName hlen _
  rw [List.take_append_drop] at hrecv
  refine hrecv.after (says_cut_u32 (fun v' rest heq => ?_) _)
  refine hcut v (clear.take 520) v' rest hlen ?_
  rw [List.append_assoc, List.append_assoc, ← heq, List.take_append_drop]

theorem stopAt_id (size msgId : UInt32) (rest : List UInt8) :
    stopAt hup (writeU32 size ++ (writeU32 msgId ++ rest)) =
      if msgId.toNat ∈ [0, 10, 20, 21, 22, 23] then starved hup
      else .invalidMessage msgId.toNat := by
  have hlong : ¬ (writeU32 size ++ (writeU32 msgId ++ rest)).length < 8 := by
    simp only [List.length_append, length_writeU32]
    omega
  have hid : Lib.Reader.leValue (((writeU32 size ++ (writeU32 msgId ++ rest)).drop 4).take 4) =
      msgId.toNat := by
    rw [List.drop_left' (length_writeU32 size), List.take_left' (length_writeU32 msgId), writeU32,
      Lib.Reader.leValue_leBytes msgId.toNat_lt]
  simp only [stopAt, hid, hlong, false_or]

/-- The rest of a request that breaks off behind its kind. -/
theorem says_cut_body {readerId msgId : UInt32} {clear : List UInt8}
    (hcut : ∀ (r : Request) (rest : List UInt8), r.Valid → r.msgId = msgId →
      clear ≠ r.body ++ rest) :
    Says noCipher (fileDispatch h readerId msgId) ⟨clear, hup, w⟩ []
      (.error (if msgId.toNat ∈ [0, 10, 20, 21, 22, 23] then starved hup
        else .invalidMessage msgId.toNat)) := by
  unfold fileDispatch
  by_cases h0 : msgId = 0
  · subst h0
    exact (says_cut_u32 (fun v rest => hcut (.ping v) rest trivial rfl) _).bind_error
  by_cases h10 : msgId = 10
  · subst h10
    exact (says_cut_u32 (fun v rest => hcut (.buildId v) rest trivial rfl) _).bind_error
  by_cases h20 : msgId = 20
  · subst h20
    exact says_cut_named fun v name v' rest hname => hcut (.manifest v name v') rest hname rfl
  by_cases h22 : msgId = 22
  · subst h22
    exact (says_cut_ack fun v v' rest => hcut (.manifestAck v v') rest trivial rfl).bind_error
  by_cases h21 : msgId = 21
  · subst h21
    exact says_cut_named fun v name v' rest hname => hcut (.download v name v') rest hname rfl
  by_cases h23 : msgId = 23
  · subst h23
    exact (says_cut_ack fun v v' rest => hcut (.downloadAck v v') rest trivial rfl).bind_error
  · have hother : msgId.toNat ∉ [0, 10, 20, 21, 22, 23] := by
      simp only [← UInt32.toNat_inj, UInt32.reduceToNat] at h0 h10 h20 h21 h22 h23
      simp only [List.mem_cons, List.not_mem_nil, or_false, not_or]
      exact ⟨h0, h10, h20, h21, h22, h23⟩
    rw [if_neg h0, if_neg h10, if_neg h20, if_neg h22, if_neg h21, if_neg h23, if_neg hother]
    exact says_throw _ _

/-- **Anything else than a whole request ends the session.** -/
theorem says_cut (readerId : UInt32) {clear : List UInt8} (hcut : (fileProtocol h).Cut clear) :
    Says noCipher (fileRound h readerId) ⟨clear, hup, w⟩ [] (.error (stopAt hup clear)) := by
  have hcut : ∀ (m : Message) (rest : List UInt8), m.request.Valid → clear ≠ m.encode ++ rest := hcut
  by_cases h4 : clear.length < 4
  · rw [stopAt, if_pos (.inl (by omega))]
    exact says_short h4 _
  obtain ⟨size, clear, rfl⟩ := exists_u32 (not_lt.1 h4)
  by_cases h8 : clear.length < 4
  · rw [stopAt, if_pos (.inl (by rw [List.length_append, length_writeU32]; omega))]
    exact (says_recvU32 _ _).after (says_short h8 _)
  obtain ⟨msgId, clear, rfl⟩ := exists_u32 (not_lt.1 h8)
  rw [stopAt_id]
  refine (says_recvU32 _ _).after ((says_recvU32 _ _).after (says_cut_body ?_))
  rintro r rest hr rfl heq
  refine hcut ⟨size, r⟩ rest hr ?_
  rw [heq, Message.encode, List.append_assoc, List.append_assoc]

/-- **The file server implements its protocol.** -/
theorem implements_file : (fileProtocol h).Implements noCipher (fileRound h) where
  pos _ := Nat.zero_lt_succ _
  request readerId m rest _ _ hr := by
    rw [sealed_noCipher, Protocol.after]
    simp only [got_noCipher]
    show Says _ _ ⟨m.encode ++ rest, _, _⟩ _ _
    rw [Message.encode, List.append_assoc, List.append_assoc]
    exact (says_recvU32 _ _).after ((says_recvU32 _ _).after (says_dispatch hr readerId rest))
  cut readerId _ _ _ hcut := says_cut readerId hcut

end Round

/-! ## The session -/

/-- A request overreads that the session comes to. -/
def Overread (h : Host) (bytes : List UInt8) : Prop :=
  ∃ (build serverType readerId : UInt32) (ms : List Message) (m : Message) (rest : List UInt8),
    (∀ m' ∈ ms, m'.request.Valid) ∧ m.request.Valid ∧
      bytes = writeU32 12 ++ (writeU32 build ++ (writeU32 serverType ++
        (ms.flatMap Message.encode ++ (m.encode ++ rest)))) ∧
      ((fileProtocol h).serveAll 0 ms).2 = .ok readerId ∧ m.request.Overreads h

/-- What is sent to a client that sends `s`, and why its session is over. -/
inductive Transcript (h : Host) (s : NetIO.Stream) : List UInt8 → Stop → Prop
  | served {serverType build : UInt32} {ms : List Message} {tail : List UInt8}
      (hms : ∀ m ∈ ms, m.request.Valid) (htail : (fileProtocol h).Cut tail)
      (hinside : ((fileProtocol h).serveAll 0 ms).2 ≠ .error .overrun)
      (hs : s.bytes = writeU32 12 ++ (writeU32 build ++ (writeU32 serverType ++
        (ms.flatMap Message.encode ++ tail)))) :
      Transcript h s ((fileProtocol h).serveAll 0 ms).1
        ((fileProtocol h).ends s.hup tail ((fileProtocol h).serveAll 0 ms).2)
  | refused {size : UInt32} {rest : List UInt8} (hsize : size ≠ 12)
      (hs : s.bytes = writeU32 size ++ rest) : Transcript h s [] .invalidHeader
  | short (hs : s.bytes.length < 12) (hsize : 4 ≤ s.bytes.length → writeU32 12 <+: s.bytes) :
      Transcript h s [] (starved s.hup)

section Session

variable {h : Host} {hup : Bool} {w : Option Empty} {fuel : Nat}

theorem says_wrongSize {size : UInt32} (hsize : size ≠ 12) (rest : List UInt8) :
    Says noCipher (wkFileServ h fuel) ⟨writeU32 size ++ rest, hup, w⟩ []
      (.error .invalidHeader) := by
  refine Says.bind_error ((says_recvU32 size rest).after ?_)
  rw [if_pos hsize]
  exact says_throw _ _

theorem says_shortHeader {rest : List UInt8} (hlen : rest.length < 8) :
    Says noCipher (wkFileServ h fuel) ⟨writeU32 12 ++ rest, hup, w⟩ []
      (.error (starved hup)) := by
  refine Says.bind_error ((says_recvU32 12 rest).after ?_)
  rw [if_neg (not_not.2 rfl)]
  by_cases h4 : rest.length < 4
  · exact says_short h4 _
  obtain ⟨build, rest, rfl⟩ := exists_u32 (not_lt.1 h4)
  rw [List.length_append, length_writeU32] at hlen
  exact (says_recvU32 build rest).after (says_short (by omega) _)

theorem says_served {serverType build : UInt32} {ms : List Message} {tail : List UInt8}
    (hms : ∀ m ∈ ms, m.request.Valid) (htail : (fileProtocol h).Cut tail)
    (hfuel : ms.length < fuel) :
    Says noCipher (wkFileServ h fuel) ⟨writeU32 12 ++ (writeU32 build ++ (writeU32 serverType ++
        (ms.flatMap Message.encode ++ tail))), hup, w⟩ ((fileProtocol h).serveAll 0 ms).1
      (.error ((fileProtocol h).ends hup tail ((fileProtocol h).serveAll 0 ms).2)) := by
  have hinit : Says noCipher fileInit ⟨writeU32 12 ++ (writeU32 build ++ (writeU32 serverType ++
      (ms.flatMap Message.encode ++ tail))), hup, w⟩ []
        (.ok ((), ⟨ms.flatMap Message.encode ++ tail, hup, w⟩)) := by
    refine (says_recvU32 12 _).after ?_
    rw [if_neg (not_not.2 rfl)]
    exact (says_recvU32 _ _).after ((says_recvU32 _ _).after (says_pure _ _))
  have hloop := implements_file.says_serveLoop hms htail hup w 0 hfuel
  rw [sealed_noCipher] at hloop
  exact hinit.after hloop

theorem overreads_of_serve {readerId : UInt32} {r : Request}
    (hstop : (r.serve h readerId).2 = .error .overrun) : r.Overreads h := by
  cases r with
  | ping pingTime => cases hstop
  | buildId transId => cases hstop
  | manifest transId name build =>
    rw [Request.serve] at hstop
    split at hstop
    · cases hstop
    · split at hstop
      · cases hstop
      · rename_i path hpath
        split at hstop
        · cases hstop
        · rename_i hload
          exact ⟨path, hpath, hload⟩
        · split at hstop
          · cases hstop
          · cases hstop
  | download transId name build =>
    rw [Request.serve] at hstop
    split at hstop
    · cases hstop
    · split at hstop
      · cases hstop
      · cases hstop
  | manifestAck transId oldId => cases hstop
  | downloadAck transId oldId => cases hstop

theorem serveAll_inside {build serverType : UInt32} {ms : List Message} {tail : List UInt8}
    (hms : ∀ m ∈ ms, m.request.Valid)
    (hinside : ¬ Overread h (writeU32 12 ++ (writeU32 build ++ (writeU32 serverType ++
      (ms.flatMap Message.encode ++ tail))))) :
    ((fileProtocol h).serveAll 0 ms).2 ≠ .error .overrun := by
  intro hstop
  obtain ⟨before, m, after, readerId, rfl, hbefore, hserve⟩ := Protocol.serveAll_error hstop
  refine hinside ⟨build, serverType, readerId, before, m, after.flatMap Message.encode ++ tail,
    fun m' hm' => hms m' (List.mem_append_left _ hm'),
    hms m (List.mem_append_right _ List.mem_cons_self), ?_, hbefore, overreads_of_serve hserve⟩
  rw [List.flatMap_append, List.flatMap_cons, List.append_assoc, List.append_assoc]

end Session

/-- A host that has a manifest. -/
def manifestHost : Host where
  buildId := 918
  settings := Settings.defaults
  codecs := Manifest.utf8Codecs
  disk path := if path = cstr (Settings.defaults.fileRoot ++ "m.mfs") then some Manifest.mixed
    else none

theorem disk_manifestHost (path : String) : manifestHost.disk path =
    if path = cstr (Settings.defaults.fileRoot ++ "m.mfs") then some Manifest.mixed else none :=
  rfl

theorem not_overread_manifestHost (bytes : List UInt8) : ¬ Overread manifestHost bytes := by
  rintro ⟨build, serverType, readerId, ms, m, rest, -, -, -, -, hover⟩
  cases hm : m.request with
  | manifest transId name build =>
    rw [hm] at hover
    obtain ⟨path, -, hload⟩ := hover
    rw [disk_manifestHost] at hload
    split at hload
    · have hfaithful := (Manifest.faithful_iff Manifest.FileManifest.lawful_kind
        Manifest.plain_utf8Codecs Manifest.mixed).2 Manifest.holds_mixed_file.2
      have hkept := hfaithful.kept (Lines.lines Manifest.mixed).length
      rw [List.take_length, (Lines.lines_spec Manifest.mixed).2] at hkept
      cases hload.symm.trans hkept
    · cases hload
  | _ =>
    rw [hm] at hover
    exact hover

/-- A name in its buffer of 260 units. -/
def nameBuffer (name : List UInt8) : List UInt8 :=
  name ++ List.replicate (520 - name.length) 0

def mixedRequests : List Message :=
  [⟨12, .ping 5⟩, ⟨12, .buildId 1⟩, ⟨536, .manifest 2 (nameBuffer [109, 0]) 918⟩,
    ⟨16, .manifestAck 2 1⟩, ⟨536, .download 3 (nameBuffer [109, 0, 46, 0, 109, 0, 102, 0, 115, 0]) 918⟩,
    ⟨16, .downloadAck 3 1⟩]

/-- A session with requests of all kinds, in two segments. -/
def mixedSocket : Socket :=
  let bytes := writeU32 918 ++ (writeU32 0 ++ mixedRequests.flatMap Message.encode)
  [.segment 12 ([0, 0, 0] ++ bytes.take 41), .segment (bytes.getD 41 0) (bytes.drop 42), .hangup]

theorem stream_mixedSocket : mixedSocket.stream =
    ⟨writeU32 12 ++ (writeU32 918 ++ (writeU32 0 ++ mixedRequests.flatMap Message.encode)), true⟩ := by
  decide +kernel

end Dirtsand.FileServer
