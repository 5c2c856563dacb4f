import Dirtsand.Config
import Dirtsand.FileServ.FilePaths
import Dirtsand.NetIO.SendIO

/-!
# File downloads from the file server

`cb_downloadStart` (FileServ/FileServer.cpp), which sends all of a file at once, in
replies of at most one chunk.  The part of the file goes to the socket by
`sendfile`, which moves the position of the loop.

* `sends_downloadLoop` — the loop sends the replies of what is left of the file.
* `downloads_deliver_iff` — when a download delivers its file.
-/

namespace Dirtsand.FileDownloads

open Files (fileDownloadPath wrongBuild)
open NetIO (Ends Send Sends Sent Kernel sendBuffer sendFile)
open Streams (writeU32)

/-- `CHUNK_SIZE`. -/
def chunkSize : Nat := 0x8000

/-- `e_FileToCli_FileDownloadReply`. -/
def fileDownloadReply : UInt32 := 21

/-- What is before the data of a reply. -/
def replyHeader (transId : UInt32) (result : NetResultCode) (readerId : UInt32)
    (fileSize chunksz : Nat) : List UInt8 :=
  writeU32 (UInt32.ofNat (28 + chunksz)) ++ (writeU32 fileDownloadReply ++ (writeU32 transId ++
    (writeU32 (UInt32.ofNat result.ctorIdx) ++ (writeU32 readerId ++
      (writeU32 (UInt32.ofNat fileSize) ++ writeU32 (UInt32.ofNat chunksz))))))

/-- The reply where there is no file to send. -/
def notFound (transId : UInt32) : List UInt8 := replyHeader transId .fileNotFound 0 0 0

/-- The size of the next chunk. -/
def chunkLength (remsz : Nat) : Nat := if chunkSize < remsz then chunkSize else remsz

theorem chunkLength_le (remsz : Nat) : chunkLength remsz ≤ remsz ∧ chunkLength remsz ≤ chunkSize := by
  rw [chunkLength]
  split
  · omega
  · omega

theorem chunkLength_pos {remsz : Nat} (h : 0 < remsz) : 0 < chunkLength remsz := by
  rw [chunkLength]
  split
  · decide
  · exact h

/-- What one turn of the loop sends. -/
theorem sends_chunk (header : List UInt8) {file : List UInt8} {filepos : Nat}
    (h : filepos < file.length) :
    Sends (sendFile header file filepos (chunkLength (file.length - filepos)))
      (header ++ (file.drop filepos).take (chunkLength (file.length - filepos)))
      fun o => o = filepos + chunkLength (file.length - filepos) := by
  have hle := (chunkLength_le (file.length - filepos)).1
  exact NetIO.sends_sendFile header (by omega)

/-- The loop over the chunks. -/
def downloadLoop (transId readerId : UInt32) (file : List UInt8) (filepos : Nat) (out : List UInt8)
    (ks : Kernel) : Sent Unit :=
  if _hmore : filepos < file.length then
    match _hsend : sendFile (replyHeader transId .success readerId file.length
        (chunkLength (file.length - filepos))) file filepos (chunkLength (file.length - filepos))
        out ks with
    | .done filepos out ks => downloadLoop transId readerId file filepos out ks
    | .blocked out => .blocked out
    | .sockHup out => .sockHup out
  else .done () out ks
termination_by file.length - filepos
decreasing_by
  rename_i filepos₀ out₀ ks₀
  have hends := sends_chunk (replyHeader transId .success readerId file.length
    (chunkLength (file.length - filepos₀))) _hmore out₀ ks₀
  rw [_hsend] at hends
  have hpos := chunkLength_pos (show 0 < file.length - filepos₀ by omega)
  have hmoved := hends.value
  omega

/-- `cb_downloadStart`: what it sends, with the reader id that is left, or `none` where it closes
the socket.  `disk` has the files that can be opened. -/
def downloadStart (productBuildId : UInt32) (s : Settings) (disk : String → Option (List UInt8))
    (readerId transId : UInt32) (filename : String) (buildId : UInt32) : Option (Send UInt32) :=
  if wrongBuild productBuildId buildId then none
  else
    match (fileDownloadPath productBuildId s filename buildId).bind fun path => disk (cstr path) with
    | none => some do
      sendBuffer (notFound transId)
      return readerId
    | some file => some do
      downloadLoop transId readerId file 0
      return readerId + 1

/-! ## What is sent -/

/-- A file in chunks. -/
def chunks (file : List UInt8) : List (List UInt8) :=
  if file = [] then [] else file.take chunkSize :: chunks (file.drop chunkSize)
termination_by file.length
decreasing_by
  rename_i hne
  have hpos := List.length_pos_of_ne_nil hne
  have hchunk : 0 < chunkSize := by decide
  rw [List.length_drop]
  omega

theorem chunks_nil : chunks [] = [] := by
  rw [chunks, if_pos rfl]

theorem chunks_cons {file : List UInt8} (h : file ≠ []) :
    chunks file = file.take chunkSize :: chunks (file.drop chunkSize) := by
  rw [chunks, if_neg h]

theorem flatten_chunks (file : List UInt8) : (chunks file).flatten = file := by
  induction file using chunks.induct with
  | case1 => rw [chunks_nil]; rfl
  | case2 file hne ih => rw [chunks_cons hne, List.flatten_cons, ih, List.take_append_drop]

theorem length_chunk {file chunk : List UInt8} (h : chunk ∈ chunks file) :
    chunk.length ≤ chunkSize := by
  induction file using chunks.induct with
  | case1 =>
    rw [chunks_nil] at h
    exact absurd h List.not_mem_nil
  | case2 file hne ih =>
    rw [chunks_cons hne] at h
    obtain rfl | h := List.mem_cons.1 h
    · exact List.length_take_le _ _
    · exact ih h

/-- A reply. -/
def reply (transId readerId : UInt32) (fileSize : Nat) (data : List UInt8) : List UInt8 :=
  replyHeader transId .success readerId fileSize data.length ++ data

theorem downloadLoop_more (transId readerId : UInt32) {file : List UInt8} {filepos : Nat}
    (h : filepos < file.length) : downloadLoop transId readerId file filepos =
      (do
        let filepos ← sendFile (replyHeader transId .success readerId file.length
          (chunkLength (file.length - filepos))) file filepos (chunkLength (file.length - filepos))
        downloadLoop transId readerId file filepos : Send Unit) := by
  funext out ks
  rw [downloadLoop, dif_pos h]
  show _ = Send.bind _ _ out ks
  unfold Send.bind
  split
  · rename_i hsend
    rw [hsend]
  · rename_i hsend
    rw [hsend]
  · rename_i hsend
    rw [hsend]

theorem downloadLoop_end (transId readerId : UInt32) {file : List UInt8} {filepos : Nat}
    (h : ¬ filepos < file.length) (out : List UInt8) (ks : Kernel) :
    downloadLoop transId readerId file filepos out ks = .done () out ks := by
  rw [downloadLoop, dif_neg h]

theorem take_chunkLength (file : List UInt8) (filepos : Nat) :
    (file.drop filepos).take (chunkLength (file.length - filepos)) =
      (file.drop filepos).take chunkSize := by
  rw [chunkLength]
  split
  · rfl
  · rw [List.take_of_length_le (by rw [List.length_drop]), List.take_of_length_le (by
      rw [List.length_drop]
      omega)]

theorem drop_chunkLength (file : List UInt8) (filepos : Nat) :
    file.drop (filepos + chunkLength (file.length - filepos)) =
      (file.drop filepos).drop chunkSize := by
  rw [chunkLength, List.drop_drop]
  split
  · rfl
  · rw [List.drop_eq_nil_of_le (by omega), List.drop_eq_nil_of_le (by omega)]

/-- **The loop sends what is left of the file**, a chunk with each reply. -/
theorem sends_downloadLoop (transId readerId : UInt32) (file : List UInt8) (filepos : Nat)
    (h : filepos ≤ file.length) : Sends (downloadLoop transId readerId file filepos)
      ((chunks (file.drop filepos)).flatMap (reply transId readerId file.length)) fun _ => True := by
  induction hleft : file.length - filepos using Nat.strongRecOn generalizing filepos with
  | ind left ih =>
    by_cases hmore : filepos < file.length
    · have hne : file.drop filepos ≠ [] := by
        rw [ne_eq, List.drop_eq_nil_iff]
        omega
      have hle := (chunkLength_le (file.length - filepos)).1
      have hpos := chunkLength_pos (show 0 < file.length - filepos by omega)
      have hdata : ((file.drop filepos).take chunkSize).length =
          chunkLength (file.length - filepos) := by
        rw [← take_chunkLength, List.length_take, List.length_drop]
        omega
      have hchunk := sends_chunk (replyHeader transId .success readerId file.length
        (chunkLength (file.length - filepos))) hmore
      rw [take_chunkLength] at hchunk
      rw [downloadLoop_more transId readerId hmore, chunks_cons hne, List.flatMap_cons, reply, hdata]
      refine hchunk.bind fun filepos' hmoved => ?_
      subst hmoved
      rw [← drop_chunkLength]
      exact ih _ (by omega) _ (by omega) rfl
    · have hnil : file.drop filepos = [] := List.drop_eq_nil_of_le (not_lt.1 hmore)
      rw [hnil, chunks_nil]
      intro out ks
      rw [downloadLoop_end transId readerId hmore]
      exact .nothing trivial out ks

/-! ## Downloads -/

/-- A reply with a payload: its length and the length of the payload are right, and it has the
transaction id and the size of the file. -/
def IsReply (transId : UInt32) (fileSize : Nat) (payload bytes : List UInt8) : Prop :=
  ∃ size readerId filesz chunksz : UInt32,
    bytes = writeU32 size ++ (writeU32 fileDownloadReply ++ (writeU32 transId ++
      (writeU32 (UInt32.ofNat NetResultCode.success.ctorIdx) ++ (writeU32 readerId ++
        (writeU32 filesz ++ writeU32 chunksz))))) ++ payload ∧
    size.toNat = bytes.length ∧ filesz.toNat = fileSize ∧ chunksz.toNat = payload.length

/-- A program sends a file in replies, of which there is at least one: all of them, or a part from
the beginning where the connection is lost. -/
def Delivers (transId : UInt32) (file : List UInt8) (p : Send UInt32) : Prop :=
  ∃ payloads replies : List (List UInt8), payloads ≠ [] ∧
    List.Forall₂ (IsReply transId file.length) payloads replies ∧
    (∀ payload ∈ payloads, payload.length ≤ chunkSize) ∧ payloads.flatten = file ∧
    Sends p replies.flatten fun _ => True

theorem length_replyHeader (transId : UInt32) (result : NetResultCode) (readerId : UInt32)
    (fileSize chunksz : Nat) : (replyHeader transId result readerId fileSize chunksz).length = 28 := by
  have hword : ∀ w : UInt32, (writeU32 w).length = 4 := fun w => Lib.Reader.length_leBytes 4 _
  simp only [replyHeader, List.length_append, hword]

theorem isReply_reply (transId readerId : UInt32) {fileSize : Nat} (hfile : fileSize < 2 ^ 32)
    {data : List UInt8} (hdata : data.length ≤ chunkSize) :
    IsReply transId fileSize data (reply transId readerId fileSize data) := by
  have hchunk : chunkSize = 32768 := rfl
  refine ⟨_, _, _, _, rfl, ?_, ?_, ?_⟩
  · rw [UInt32.toNat_ofNat_of_lt' (show 28 + data.length < 2 ^ 32 by omega), reply, List.length_append,
      length_replyHeader]
  · exact UInt32.toNat_ofNat_of_lt' hfile
  · exact UInt32.toNat_ofNat_of_lt' (show data.length < 2 ^ 32 by omega)

theorem IsReply.ne_nil {transId : UInt32} {fileSize : Nat} {payload bytes : List UInt8}
    (h : IsReply transId fileSize payload bytes) : bytes ≠ [] := by
  obtain ⟨size, readerId, filesz, chunksz, rfl, -⟩ := h
  exact fun hnil => List.cons_ne_nil _ _ hnil

theorem downloadStart_opens {productBuildId : UInt32} {s : Settings}
    {disk : String → Option (List UInt8)} {filename path : String} {buildId : UInt32}
    {file : List UInt8} (readerId transId : UInt32)
    (hpath : fileDownloadPath productBuildId s filename buildId = some path)
    (hdisk : disk (cstr path) = some file) :
    downloadStart productBuildId s disk readerId transId filename buildId = some (do
      downloadLoop transId readerId file 0
      return readerId + 1) := by
  have hbuild : wrongBuild productBuildId buildId = false := by
    rw [fileDownloadPath] at hpath
    split at hpath
    · cases hpath
    · rename_i hbuild
      exact Bool.eq_false_of_not_eq_true hbuild
  rw [downloadStart, hbuild, if_neg Bool.false_ne_true, hpath, Option.bind_some, hdisk]

theorem delivers_downloadLoop (transId readerId : UInt32) {file : List UInt8} (hne : file ≠ [])
    (hfile : file.length < 2 ^ 32) : Delivers transId file (do
      downloadLoop transId readerId file 0
      return readerId + 1) := by
  refine ⟨chunks file, (chunks file).map (reply transId readerId file.length), ?_, ?_,
    fun payload => length_chunk, flatten_chunks file, ?_⟩
  · rw [chunks_cons hne]
    exact List.cons_ne_nil _ _
  · rw [List.forall₂_map_right_iff, List.forall₂_same]
    exact fun chunk hchunk => isReply_reply transId readerId hfile (length_chunk hchunk)
  · have hloop := sends_downloadLoop transId readerId file 0 (Nat.zero_le _)
    have hall := hloop.bind (f := fun _ => (pure (readerId + 1) : Send UInt32)) fun _ _ =>
      Sends.pure (P := fun _ => True) trivial
    rw [List.drop_zero, List.append_nil, List.flatMap_def] at hall
    exact hall

/-- Of an empty file nothing is sent. -/
theorem not_delivers_nil (transId readerId : UInt32) : ¬ Delivers transId [] (do
    downloadLoop transId readerId [] 0
    return readerId + 1) := by
  rintro ⟨payloads, replies, hne, hreplies, -, -, hsends⟩
  have hdone : (do
      downloadLoop transId readerId [] 0
      return readerId + 1 : Send UInt32) [] [] = .done (readerId + 1) [] [] := by
    show Send.bind (downloadLoop transId readerId [] 0) _ [] [] = _
    unfold Send.bind
    rw [downloadLoop_end transId readerId (Nat.lt_irrefl 0) [] []]
    rfl
  have hends := hsends [] []
  rw [hdone] at hends
  have hnothing := hends.sent
  cases hreplies with
  | nil => exact hne rfl
  | cons hreply hrest =>
    rw [List.nil_append, eq_comm, List.flatten_cons, List.append_eq_nil_iff] at hnothing
    exact hreply.ne_nil hnothing.1

/-- **A download delivers its file** if and only if the file is not empty: of an empty one nothing
is sent at all. -/
theorem downloads_deliver_iff {productBuildId : UInt32} {s : Settings}
    {disk : String → Option (List UInt8)} {filename path : String} {buildId : UInt32}
    {file : List UInt8} (readerId transId : UInt32)
    (hpath : fileDownloadPath productBuildId s filename buildId = some path)
    (hdisk : disk (cstr path) = some file) (hfile : file.length < 2 ^ 32) :
    (∃ p, downloadStart productBuildId s disk readerId transId filename buildId = some p ∧
      Delivers transId file p) ↔ file ≠ [] := by
  rw [downloadStart_opens readerId transId hpath hdisk]
  constructor
  · rintro ⟨p, hp, hdelivers⟩ rfl
    obtain rfl := Option.some.inj hp
    exact not_delivers_nil transId readerId hdelivers
  · exact fun hne => ⟨_, rfl, delivers_downloadLoop transId readerId hne hfile⟩

theorem lengths_chunks (n : Nat) (byte : UInt8) :
    (chunks (List.replicate (n + 1) byte)).map List.length =
      min chunkSize (n + 1) :: (chunks (List.replicate (n + 1 - chunkSize) byte)).map List.length := by
  have hne : List.replicate (n + 1) byte ≠ [] := List.cons_ne_nil _ _
  rw [chunks_cons hne, List.map_cons, List.length_take, List.length_replicate, List.drop_replicate]

/-- A file of two full chunks and one more byte. -/
theorem downloads_deliver_three :
    (∃ p, downloadStart 918 Settings.defaults (fun _ => some (List.replicate 0x10001 7)) 0 1
        "dat\\city.age" 918 = some p ∧ Delivers 1 (List.replicate 0x10001 7) p) ∧
      (chunks (List.replicate 0x10001 7)).map List.length = [0x8000, 0x8000, 1] := by
  have hpath : fileDownloadPath 918 Settings.defaults "dat\\city.age" 918 =
      some (Settings.defaults.fileRoot ++ Files.withSlashes "dat\\city.age") := by decide
  have hsecond : 0x10000 + 1 - chunkSize = 0x8000 + 1 := rfl
  have hthird : 0x8000 + 1 - chunkSize = 0 + 1 := rfl
  refine ⟨(downloads_deliver_iff 0 1 hpath rfl
    (List.length_replicate.trans_lt (by decide))).2 (List.cons_ne_nil _ _), ?_⟩
  rw [lengths_chunks 0x10000, hsecond, lengths_chunks 0x8000, hthird, lengths_chunks 0]
  exact congrArg (fun rest : List (List UInt8) => 0x8000 :: 0x8000 :: 1 :: rest.map List.length)
    chunks_nil

/-- The request is accepted and the file is there, but nothing is sent. -/
theorem downloads_deliver_fail :
    (∃ path, fileDownloadPath 918 Settings.defaults "dat\\empty.age" 918 = some path) ∧
    ¬ ∃ p, downloadStart 918 Settings.defaults (fun _ => some []) 0 1 "dat\\empty.age" 918 = some p ∧
      Delivers 1 [] p := by
  have hpath : fileDownloadPath 918 Settings.defaults "dat\\empty.age" 918 =
      some (Settings.defaults.fileRoot ++ Files.withSlashes "dat\\empty.age") := by decide
  refine ⟨⟨_, hpath⟩, ?_⟩
  rintro ⟨p, hp, hdelivers⟩
  rw [downloadStart_opens 0 1 hpath rfl] at hp
  obtain rfl := Option.some.inj hp
  exact not_delivers_nil 1 0 hdelivers

end Dirtsand.FileDownloads
