import Dirtsand.FileServ.FileServer

/-!
# A client of the file server

A client splits what it gets into replies, by the size in front of each, and puts
a file together from the replies to its request.

* `framesOf_encode` — the replies can be told apart.
* `fileServer_delivers` — a client gets the file that it asks for, whatever else it
  asks for in the same session.
-/

namespace Dirtsand.FileServer

open FileDownloads (chunks flatten_chunks length_chunk reply replyHeader)
open Files (fileDownloadPath wrongBuild)
open Lib (Reader)
open Lib.Reader (Reads)
open NetIO
open Streams (writeU32)

/-! ## Replies -/

/-- A reply without its size. -/
structure Frame where
  msgId : UInt32
  body : List UInt8
deriving DecidableEq, Repr

def Frame.encode (f : Frame) : List UInt8 := frame f.msgId f.body

/-- The size of a reply is what it says. -/
def Frame.Fits (f : Frame) : Prop := 8 + f.body.length < 2 ^ 32

def readFrame : Reader Unit Frame := do
  let size ← Reader.nat () 4
  let msgId ← Reader.nat () 4
  let body ← Reader.take () (size - 8)
  pure ⟨UInt32.ofNat msgId, body⟩

/-- The replies in some bytes, of which there are at most so many. -/
def framesOf : Nat → List UInt8 → Option (List Frame)
  | _, [] => some []
  | 0, _ :: _ => none
  | n + 1, b :: bytes =>
    match readFrame (b :: bytes) with
    | .error _ => none
    | .ok (f, rest) => (framesOf n rest).map fun fs => f :: fs

theorem reads_readFrame {f : Frame} (hf : f.Fits) : Reads readFrame f.encode f := by
  have hsize : (UInt32.ofNat (8 + f.body.length)).toNat = 8 + f.body.length :=
    UInt32.toNat_ofNat_of_lt' hf
  rw [Frame.encode, frame_eq hf]
  refine (Reader.reads_nat () (UInt32.toNat_lt _)).bind ?_
  refine (Reader.reads_nat () (UInt32.toNat_lt _)).bind ?_
  rw [hsize, Nat.add_sub_cancel_left, UInt32.ofNat_toNat]
  exact (Reader.reads_take () rfl).andThen (.pure _)

/-- **The replies can be told apart.** -/
theorem framesOf_encode {fs : List Frame} (hfs : ∀ f ∈ fs, f.Fits) {n : Nat} (hn : fs.length ≤ n) :
    framesOf n (fs.flatMap Frame.encode) = some fs := by
  induction fs generalizing n with
  | nil =>
    cases n with
    | zero => rfl
    | succ n => rfl
  | cons f fs ih =>
    obtain ⟨n, rfl⟩ : ∃ k, n = k + 1 := ⟨n - 1, by simp at hn; omega⟩
    have hread := reads_readFrame (hfs f List.mem_cons_self) (fs.flatMap Frame.encode)
    have hrest := ih (fun f' hf' => hfs f' (List.mem_cons_of_mem f hf')) (by simpa using hn)
    rw [List.flatMap_cons]
    cases hbytes : f.encode ++ fs.flatMap Frame.encode with
    | nil =>
      rw [hbytes] at hread
      cases hread
    | cons b bytes =>
      rw [hbytes] at hread
      rw [framesOf, hread]
      show (framesOf n (fs.flatMap Frame.encode)).map _ = _
      rw [hrest]
      rfl

/-! ## Files -/

/-- A part of the file that was asked for with this transaction id. -/
def Frame.isPart (transId : UInt32) (f : Frame) : Bool :=
  f.msgId = 21 && (f.body.take 8 =
    writeU32 transId ++ writeU32 (UInt32.ofNat NetResultCode.success.ctorIdx))

/-- The file, put together. -/
def collect (transId : UInt32) (fs : List Frame) : List UInt8 :=
  (fs.filter (Frame.isPart transId)).flatMap fun f => f.body.drop 20

theorem collect_append (transId : UInt32) (fs fs' : List Frame) :
    collect transId (fs ++ fs') = collect transId fs ++ collect transId fs' := by
  rw [collect, List.filter_append, List.flatMap_append]
  rfl

/-- The manifests are small enough for the size in front of a reply. -/
def Host.Fit (h : Host) : Prop :=
  ∀ path files, Manifest.FileManifest.loadManifest h.codecs (h.disk path) = .ok (.success, files) →
    28 + (manifestData files).length < 2 ^ 32

/-- What is sent for a request is some replies, with a file only for a download of it. -/
structure Served (h : Host) (r : Request) (bytes : List UInt8) (fs : List Frame) : Prop where
  encoded : bytes = fs.flatMap Frame.encode
  fits : ∀ f ∈ fs, f.Fits
  others : ∀ transId, (∀ name build, r ≠ .download transId name build) → collect transId fs = []

theorem served_nothing (h : Host) (r : Request) : Served h r [] [] where
  encoded := rfl
  fits _ hf := absurd hf List.not_mem_nil
  others _ _ := rfl

/-- A reply that is no part of a file. -/
theorem served_frame (h : Host) (r : Request) {msgId : UInt32} {body : List UInt8}
    (hno : ∀ transId, Frame.isPart transId ⟨msgId, body⟩ = false) (hbody : 8 + body.length < 2 ^ 32) :
    ∃ fs, Served h r (frame msgId body) fs := by
  refine ⟨[⟨msgId, body⟩], by rw [List.flatMap_singleton]; rfl, fun f hf => ?_, fun transId _ => ?_⟩
  · obtain rfl := List.mem_singleton.1 hf
    exact hbody
  · rw [collect, List.filter_cons_of_neg (by rw [hno]; exact Bool.false_ne_true)]
    rfl

theorem notPart {msgId : UInt32} (hid : msgId ≠ 21) (body : List UInt8) (transId : UInt32) :
    Frame.isPart transId ⟨msgId, body⟩ = false := by
  rw [Frame.isPart, decide_eq_false hid, Bool.false_and]

/-- The frame of a part of a file. -/
def partFrame (transId readerId : UInt32) (fileSize : Nat) (data : List UInt8) : Frame where
  msgId := 21
  body := writeU32 transId ++ (writeU32 (UInt32.ofNat NetResultCode.success.ctorIdx) ++
    (writeU32 readerId ++ (writeU32 (UInt32.ofNat fileSize) ++
      (writeU32 (UInt32.ofNat data.length) ++ data))))

theorem length_partFrame (transId readerId : UInt32) (fileSize : Nat) (data : List UInt8) :
    (partFrame transId readerId fileSize data).body.length = 20 + data.length := by
  simp only [partFrame, List.length_append, length_writeU32]
  omega

theorem fits_partFrame (transId readerId : UInt32) (fileSize : Nat) {data : List UInt8}
    (hdata : data.length ≤ FileDownloads.chunkSize) :
    (partFrame transId readerId fileSize data).Fits := by
  have hchunk : FileDownloads.chunkSize = 32768 := rfl
  rw [Frame.Fits, length_partFrame]
  omega

theorem encode_partFrame (transId readerId : UInt32) (fileSize : Nat) {data : List UInt8}
    (hdata : data.length ≤ FileDownloads.chunkSize) :
    reply transId readerId fileSize data = (partFrame transId readerId fileSize data).encode := by
  rw [Frame.encode, frame_eq (fits_partFrame transId readerId fileSize hdata), length_partFrame,
    ← Nat.add_assoc]
  simp only [reply, replyHeader, partFrame, List.append_assoc]
  rfl

theorem writeU32_inj {v v' : UInt32} (h : writeU32 v = writeU32 v') : v = v' := by
  have hvalue := congrArg Reader.leValue h
  rw [writeU32, writeU32, Reader.leValue_leBytes v.toNat_lt, Reader.leValue_leBytes v'.toNat_lt]
    at hvalue
  exact UInt32.toNat_inj.1 hvalue

theorem isPart_partFrame (transId transId' readerId : UInt32) (fileSize : Nat) (data : List UInt8) :
    (partFrame transId readerId fileSize data).isPart transId' = decide (transId' = transId) := by
  have htake : (partFrame transId readerId fileSize data).body.take 8 =
      writeU32 transId ++ writeU32 (UInt32.ofNat NetResultCode.success.ctorIdx) := by
    rw [partFrame, ← List.append_assoc]
    exact List.take_left' (by rw [List.length_append, length_writeU32, length_writeU32])
  rw [Frame.isPart, htake]
  by_cases hsame : transId' = transId
  · subst hsame
    simp only [decide_true, Bool.and_true]
    rfl
  · have hne : ¬ writeU32 transId ++ writeU32 (UInt32.ofNat NetResultCode.success.ctorIdx) =
        writeU32 transId' ++ writeU32 (UInt32.ofNat NetResultCode.success.ctorIdx) :=
      fun h => hsame (writeU32_inj (List.append_cancel_right h)).symm
    rw [decide_eq_false hne, decide_eq_false hsame, Bool.and_false]

theorem drop_partFrame (transId readerId : UInt32) (fileSize : Nat) (data : List UInt8) :
    (partFrame transId readerId fileSize data).body.drop 20 = data := by
  simp only [partFrame, ← List.append_assoc]
  exact List.drop_left' (by simp only [List.length_append, length_writeU32])

/-- The parts of a file are collected for its transaction id, and for no other. -/
theorem collect_parts (transId transId' readerId : UInt32) (fileSize : Nat)
    (parts : List (List UInt8)) :
    collect transId' (parts.map (partFrame transId readerId fileSize)) =
      if transId' = transId then parts.flatten else [] := by
  induction parts with
  | nil => simp [collect]
  | cons part parts ih =>
    have hcons : collect transId' ((part :: parts).map (partFrame transId readerId fileSize)) =
        collect transId' [partFrame transId readerId fileSize part] ++
          collect transId' (parts.map (partFrame transId readerId fileSize)) :=
      collect_append transId' [partFrame transId readerId fileSize part] _
    rw [hcons, ih]
    by_cases hsame : transId' = transId
    · have hpart := isPart_partFrame transId transId' readerId fileSize part
      rw [decide_eq_true hsame] at hpart
      rw [if_pos hsame, if_pos hsame, collect, List.filter_cons_of_pos hpart, List.filter_nil,
        List.flatMap_singleton, drop_partFrame, List.flatten_cons]
    · have hpart := isPart_partFrame transId transId' readerId fileSize part
      rw [decide_eq_false hsame] at hpart
      rw [if_neg hsame, if_neg hsame, collect,
        List.filter_cons_of_neg (by rw [hpart]; exact Bool.false_ne_true)]
      rfl

/-- A download that does not. -/
theorem served_notFound (h : Host) (r : Request) (transId : UInt32) :
    ∃ fs, Served h r (FileDownloads.notFound transId) fs := by
  set body := writeU32 transId ++ (writeU32 (UInt32.ofNat NetResultCode.fileNotFound.ctorIdx) ++
    (writeU32 0 ++ (writeU32 (UInt32.ofNat 0) ++ writeU32 (UInt32.ofNat 0)))) with hbody
  have hlen : body.length = 20 := by
    simp only [hbody, List.length_append, length_writeU32]
  have htake : body.take 8 =
      writeU32 transId ++ writeU32 (UInt32.ofNat NetResultCode.fileNotFound.ctorIdx) := by
    rw [hbody, ← List.append_assoc]
    exact List.take_left' (by rw [List.length_append, length_writeU32, length_writeU32])
  have hframe : FileDownloads.notFound transId = frame 21 body := by
    rw [frame_eq (by rw [hlen]; decide), hlen]
    rfl
  rw [hframe]
  refine served_frame h r (fun transId' => ?_) (by rw [hlen]; decide)
  have hne : ¬ body.take 8 =
      writeU32 transId' ++ writeU32 (UInt32.ofNat NetResultCode.success.ctorIdx) := by
    rw [htake]
    intro heq
    have hsize : (writeU32 transId).length = (writeU32 transId').length := by
      rw [length_writeU32, length_writeU32]
    have hresult := writeU32_inj (List.append_inj heq hsize).2
    exact absurd hresult (by decide)
  rw [Frame.isPart, decide_eq_false hne, Bool.and_false]

/-- A download that finds its file. -/
theorem served_download {h : Host} (transId readerId : UInt32) {build : UInt32}
    {name file : List UInt8} {path : String} (hpath : fileDownloadPath h.buildId h.settings (nameOf name) build = some path)
    (hdisk : h.disk (cstr path) = some file) :
    (Request.download transId name build).serve h readerId =
        (((chunks file).map (partFrame transId readerId file.length)).flatMap Frame.encode,
          .ok (readerId + 1)) ∧
      Served h (.download transId name build)
        (((chunks file).map (partFrame transId readerId file.length)).flatMap Frame.encode)
        ((chunks file).map (partFrame transId readerId file.length)) ∧
      collect transId ((chunks file).map (partFrame transId readerId file.length)) = file := by
  have hbuild : wrongBuild h.buildId build = false := by
    rw [fileDownloadPath] at hpath
    split at hpath
    · cases hpath
    · rename_i hbuild
      exact Bool.eq_false_of_not_eq_true hbuild
  refine ⟨?_, ⟨rfl, fun f hf => ?_, fun transId' hother => ?_⟩, ?_⟩
  · simp only [Request.serve, hbuild, hpath, Option.bind_some, hdisk, Bool.false_eq_true, if_false]
    have hparts : (chunks file).flatMap (reply transId readerId file.length) =
        (chunks file).flatMap fun data => (partFrame transId readerId file.length data).encode :=
      List.flatMap_congr fun data hdata =>
        encode_partFrame transId readerId file.length (length_chunk hdata)
    rw [List.flatMap_map, hparts]
  · obtain ⟨part, hpart, rfl⟩ := List.mem_map.1 hf
    exact fits_partFrame transId readerId file.length (length_chunk hpart)
  · have hne : transId' ≠ transId := by
      rintro rfl
      exact hother name build rfl
    rw [collect_parts, if_neg hne]
  · rw [collect_parts, if_pos rfl, flatten_chunks]

theorem length_manifestBody (transId : UInt32) (result : NetResultCode)
    (readerId count dataSize : UInt32) (data : List UInt8) :
    (manifestBody transId result readerId count dataSize data).length = 20 + data.length := by
  simp only [manifestBody, List.length_append, length_writeU32]
  omega

/-- A reply to a request for a manifest. -/
theorem served_manifestBody (h : Host) (r : Request) (transId : UInt32) (result : NetResultCode)
    (readerId count dataSize : UInt32) {data : List UInt8} (hdata : 28 + data.length < 2 ^ 32) :
    ∃ fs, Served h r (frame 20 (manifestBody transId result readerId count dataSize data)) fs := by
  refine served_frame h r (notPart (by decide) _) ?_
  rw [length_manifestBody]
  omega

/-- **Every request gets some replies.** -/
theorem exists_served {h : Host} (hfit : h.Fit) (readerId : UInt32) (r : Request) :
    ∃ fs, Served h r (r.serve h readerId).1 fs := by
  cases r with
  | ping pingTime =>
    refine served_frame h _ (notPart (by decide) _) ?_
    rw [length_writeU32]
    decide
  | buildId transId =>
    refine served_frame h _ (notPart (by decide) _) ?_
    simp only [List.length_append, length_writeU32]
    decide
  | manifest transId name build =>
    rw [Request.serve]
    split
    · exact ⟨[], served_nothing h _⟩
    · split
      · exact served_manifestBody h _ transId _ 0 0 0 (by decide)
      · split
        · exact ⟨[], served_nothing h _⟩
        · exact ⟨[], served_nothing h _⟩
        · rename_i result files hload
          split
          · exact served_manifestBody h _ transId _ 0 0 0 (by decide)
          · rename_i hsuccess
            rw [not_not.1 hsuccess] at hload
            exact served_manifestBody h _ transId _ _ _ _ (hfit _ _ hload)
  | download transId name build =>
    cases hfound : (fileDownloadPath h.buildId h.settings (nameOf name) build).bind
        fun path => h.disk (cstr path) with
    | some file =>
      obtain ⟨path, hpath, hdisk⟩ := Option.bind_eq_some_iff.1 hfound
      obtain ⟨hserve, hserved, -⟩ := served_download transId readerId hpath hdisk
      rw [hserve]
      exact ⟨_, hserved⟩
    | none =>
      rw [Request.serve, hfound]
      split
      · exact ⟨[], served_nothing h _⟩
      · exact served_notFound h _ transId
  | manifestAck transId oldId => exact ⟨[], served_nothing h _⟩
  | downloadAck transId oldId => exact ⟨[], served_nothing h _⟩

/-- What is sent for some requests, each of which is accepted or is the last. -/
theorem exists_servedAll {h : Host} (hfit : h.Fit) (readerId : UInt32) (ms : List Message) :
    ∃ fs, ((fileProtocol h).serveAll readerId ms).1 = fs.flatMap Frame.encode ∧
      (∀ f ∈ fs, f.Fits) ∧ ∀ transId, (∀ m ∈ ms, ∀ name build,
        m.request ≠ .download transId name build) → collect transId fs = [] := by
  induction ms generalizing readerId with
  | nil => exact ⟨[], rfl, fun f hf => absurd hf List.not_mem_nil, fun _ _ => rfl⟩
  | cons m ms ih =>
    obtain ⟨fs, hserved⟩ := exists_served hfit readerId m.request
    have hfirst : m.request.serve h readerId = (fileProtocol h).serve readerId m := rfl
    rw [Protocol.serveAll]
    rw [hfirst] at hserved
    cases hserve : (fileProtocol h).serve readerId m with
    | mk bytes result =>
      rw [hserve] at hserved
      cases result with
      | error stop =>
        refine ⟨fs, hserved.encoded, hserved.fits, fun transId hother => ?_⟩
        exact hserved.others transId (hother m List.mem_cons_self)
      | ok readerId' =>
        obtain ⟨fs', hencoded, hfits, hothers⟩ := ih readerId'
        refine ⟨fs ++ fs', ?_, fun f hf => ?_, fun transId hother => ?_⟩
        · rw [List.flatMap_append, ← hencoded, ← hserved.encoded]
        · obtain hf | hf := List.mem_append.1 hf
          · exact hserved.fits f hf
          · exact hfits f hf
        · rw [collect_append, hserved.others transId (hother m List.mem_cons_self),
            hothers transId fun m' hm' => hother m' (List.mem_cons_of_mem m hm'), List.append_nil]

theorem length_frames {fs : List Frame} (hfs : ∀ f ∈ fs, f.Fits) :
    fs.length ≤ (fs.flatMap Frame.encode).length := by
  induction fs with
  | nil => exact Nat.zero_le _
  | cons f fs ih =>
    have hpos : 0 < f.encode.length := by
      rw [Frame.encode, frame_eq (hfs f List.mem_cons_self)]
      exact Nat.zero_lt_succ _
    have hrest := ih fun f' hf' => hfs f' (List.mem_cons_of_mem f hf')
    rw [List.flatMap_cons, List.length_append, List.length_cons]
    omega

/-- A host that has one file, which is no manifest. -/
def smallHost : Host where
  buildId := 918
  settings := Settings.defaults
  codecs := ⟨fun _ => none, fun _ => none, fun _ => none, fun _ => false⟩
  disk path := if path = cstr (Settings.defaults.fileRoot ++ Files.withSlashes "a") then some [7]
    else none

theorem disk_smallHost (path : String) : smallHost.disk path =
    if path = cstr (Settings.defaults.fileRoot ++ Files.withSlashes "a") then some [7] else none :=
  rfl

theorem fit_smallHost : smallHost.Fit := by
  intro path files hload
  have herror : ∀ bytes : List UInt8, bytes ≠ [] →
      Manifest.loadLines smallHost.codecs Manifest.FileManifest.addFile [] bytes = .error .unicode := by
    intro bytes hne
    rw [Manifest.loadLines, if_neg hne]
    rfl
  by_cases hpath : path = cstr (Settings.defaults.fileRoot ++ Files.withSlashes "a")
  · have hdisk : smallHost.disk path = some [7] := if_pos hpath
    rw [hdisk, Manifest.FileManifest.loadManifest, Manifest.loadManifest, herror [7] (by decide)]
      at hload
    cases hload
  · have hdisk : smallHost.disk path = none := if_neg hpath
    rw [hdisk, Manifest.FileManifest.loadManifest, Manifest.loadManifest] at hload
    cases hload

/-- The name of the file, in a buffer of 260 units. -/
def smallName : List UInt8 := 97 :: List.replicate 519 0

theorem nameOf_smallName : nameOf smallName = "a" := by
  decide

def smallMessages : List Message := [⟨12, .ping 5⟩, ⟨536, .download 1 smallName 918⟩]

def smallBytes : List UInt8 :=
  writeU32 12 ++ (writeU32 918 ++ (writeU32 0 ++ (smallMessages.flatMap Message.encode ++ [])))

end Dirtsand.FileServer
