import Dirtsand.PlasMOUL.Fields

/-!
# What messages have in them

`AgeInfoStruct`, `SpawnPointInfo` and `AgeLinkStruct` (AgeLinkStruct.cpp),
`GenericValue` and `GenericType` (GenericValue.cpp, NetMsgSharedState.cpp),
`EventData` (EventData.cpp) and `ClientGuid` (NetMsgMembersList.cpp).

Most of them begin with flags that say which members follow.  A member that does not
keeps what the constructor gave it.
-/

namespace Dirtsand.MOUL

open Lib (Codec)
open Lib.Codec (when)
open Lib.Reader (Yields)
open Streams
open Strings

/-! ## Ages -/

section

variable (D : Decoders)

structure AgeInfoStruct where
  flags : UInt8 := 0
  ageFilename : String := ""
  ageInstanceName : String := ""
  ageInstanceUuid : Uuid := Uuid.null
  ageUserDefinedName : String := ""
  ageSequenceNumber : Int32 := 0
  ageDescription : String := ""
  ageLanguage : Int32 := -1

abbrev ageInfoStruct : Field AgeInfoStruct :=
  (u8.dep fun flags =>
    (when (flags &&& 1 ≠ 0) "" (pstring D)).seq <|
    (when (flags &&& 2 ≠ 0) "" (pstring D)).seq <|
    (when (flags &&& 4 ≠ 0) Uuid.null uuid).seq <|
    (when (flags &&& 8 ≠ 0) "" (pstring D)).seq <|
    (when (flags &&& 16 ≠ 0) 0 i32).seq <|
    (when (flags &&& 32 ≠ 0) "" (pstring D)).seq
    (when (flags &&& 64 ≠ 0) (-1) i32)).iso
  ⟨fun (flags, filename, instanceName, uuid, userDefined, number, description, language) =>
      ⟨flags, filename, instanceName, uuid, userDefined, number, description, language⟩,
    fun a => (a.flags, a.ageFilename, a.ageInstanceName, a.ageInstanceUuid, a.ageUserDefinedName,
      a.ageSequenceNumber, a.ageDescription, a.ageLanguage),
    fun _ => rfl, fun _ => rfl⟩

/-- Flags that are asked for their first bits: the process ends where there is no word. -/
def flagBits : Field BitVector where
  read m := do
    let b ← readBits m
    if (b.get 0).isSome then pure b else Lib.Reader.fail .crash
  write m b := if (b.get 0).isSome then bits.write m b else .error .crash
  Kept b := bits.Kept b ∧ (b.get 0).isSome
  Came b := bits.Kept b ∧ (b.get 0).isSome
  back m b h := by
    obtain ⟨bytes, hwrite, hreads⟩ := bits.back m b h.1
    rw [if_pos h.2]
    refine ⟨bytes, hwrite, fun m' => (hreads m').andThen ?_⟩
    rw [if_pos h.2]
    exact .pure b
  came m := by
    refine (bits.came m).bind fun b hb => ?_
    split
    · rename_i hget
      exact .pure ⟨hb, hget⟩
    · exact .fail

instance : Codec.Plain flagBits := ⟨fun _ h => h⟩

structure SpawnPointInfo where
  flags : BitVector := {}
  title : String := ""
  spawnPt : String := ""
  cameraStack : String := ""

abbrev spawnPointInfo : Field SpawnPointInfo :=
  (flagBits.dep fun flags =>
    (when (flags.get 0 = some true) "" (pstring D)).seq <|
    (when (flags.get 1 = some true) "" (pstring D)).seq
    (when (flags.get 2 = some true) "" (pstring D))).iso
  ⟨fun (flags, title, name, stack) => ⟨flags, title, name, stack⟩,
    fun s => (s.flags, s.title, s.spawnPt, s.cameraStack), fun _ => rfl, fun _ => rfl⟩

/-- `e_HasSpawnPtInline | e_HasSpawnPtLegacy`. -/
def deadFlags : UInt16 := 12

/-- The flags of an `AgeLinkStruct`: two of them are refused, and not written. -/
def linkFlags : Field UInt16 where
  read _ := do
    let flags ← readU16
    if flags &&& deadFlags ≠ 0 then Lib.Reader.fail .malformedData else pure flags
  write _ flags := .ok (writeU16 (flags &&& ~~~deadFlags))
  Kept flags := flags &&& deadFlags = 0
  Came flags := flags &&& deadFlags = 0
  back _ flags h := by
    have hsame : flags &&& ~~~deadFlags = flags := by
      rw [← UInt16.toBitVec_inj]
      ext i hi
      have hbit := congrArg (fun v : UInt16 => v.toBitVec[i]) h
      simp only [UInt16.toBitVec_and, BitVec.getElem_and] at hbit
      simp only [UInt16.toBitVec_and, UInt16.toBitVec_not, BitVec.getElem_and, BitVec.getElem_not]
      cases hdead : deadFlags.toBitVec[i] <;> simp_all
    refine ⟨_, rfl, fun _ => (reads_u16 _).andThen ?_⟩
    rw [hsame, if_neg (not_not.2 h)]
    exact .pure flags
  came _ := by
    refine (Yields.any _).bind fun flags _ => ?_
    split
    · exact .fail
    · rename_i h
      exact .pure (not_not.1 h)

instance : Codec.Plain linkFlags := ⟨fun _ h => h⟩

structure AgeLinkStruct where
  flags : UInt16
  ageInfo : AgeInfoStruct
  linkingRules : UInt8
  spawnPt : SpawnPointInfo
  amCcr : Bool
  parentAgeFilename : String

abbrev ageLinkStruct : Field AgeLinkStruct :=
  (linkFlags.dep fun flags =>
    (when (flags &&& 1 ≠ 0) {} (ageInfoStruct D)).seq <|
    (when (flags &&& 2 ≠ 0) 0 u8).seq <|
    (when (flags &&& 32 ≠ 0) {} (spawnPointInfo D)).seq <|
    (when (flags &&& 16 ≠ 0) false bool).seq
    (when (flags &&& 64 ≠ 0) "" (pstring D))).iso
  ⟨fun (flags, info, rules, spawnPt, ccr, parent) => ⟨flags, info, rules, spawnPt, ccr, parent⟩,
    fun a => (a.flags, a.ageInfo, a.linkingRules, a.spawnPt, a.amCcr, a.parentAgeFilename),
    fun _ => rfl, fun _ => rfl⟩

end

/-! ## Values of any type -/

/-- What a type of `GenericValue` and `GenericType` has. -/
inductive Shape where
  | int
  | string
  | float
  | bool
  | byte
  | double
  | none

namespace Shape

@[reducible] def Val : Shape → Type
  | int => UInt32
  | string => String
  | float => FloatBits
  | bool => Bool
  | byte => UInt8
  | double => DoubleBits
  | none => Unit

/-- The cases of the switch; other types have nothing. -/
def of (type : UInt8) : Shape :=
  if type = 0 ∨ type = 6 then .int
  else if type = 3 ∨ type = 5 then .string
  else if type = 1 then .float
  else if type = 2 then .bool
  else if type = 4 then .byte
  else if type = 7 then .double
  else .none

def codec (string : Field String) : (s : Shape) → Field s.Val
  | .int => u32
  | .string => string
  | .float => MOUL.float
  | .bool => MOUL.bool
  | .byte => u8
  | .double => MOUL.double
  | .none => .empty

instance (string : Field String) [Codec.Plain string] : (s : Shape) → Codec.Plain (codec string s)
  | .int => inferInstanceAs (Codec.Plain u32)
  | .string => inferInstanceAs (Codec.Plain string)
  | .float => inferInstanceAs (Codec.Plain MOUL.float)
  | .bool => inferInstanceAs (Codec.Plain MOUL.bool)
  | .byte => inferInstanceAs (Codec.Plain u8)
  | .double => inferInstanceAs (Codec.Plain MOUL.double)
  | .none => inferInstanceAs (Codec.Plain (Codec.empty : Field Unit))

end Shape

abbrev Generic := (type : UInt8) × (Shape.of type).Val

/-- Type and value; the two classes differ in their strings. -/
abbrev generic (string : Field String) : Field Generic :=
  u8.tagged fun type => (Shape.of type).codec string

abbrev genericValue : Field Generic := generic text

abbrev genericType (D : Decoders) : Field Generic := generic (utf8 D)

/-! ## Events -/

inductive EventType where
  | evtCollision
  | evtPicked
  | evtControlKey
  | evtVariable
  | evtFacing
  | evtContained
  | evtActivate
  | evtCallback
  | evtResponderState
  | evtMultiStage
  | evtSpawned
  | evtClickDrag
  | evtCoop
  | evtOfferLinkBook
  | evtBook
  | evtClimbingBlockerHit
deriving DecidableEq, Repr

namespace EventType

def id : EventType → UInt32
  | evtCollision => 1
  | evtPicked => 2
  | evtControlKey => 3
  | evtVariable => 4
  | evtFacing => 5
  | evtContained => 6
  | evtActivate => 7
  | evtCallback => 8
  | evtResponderState => 9
  | evtMultiStage => 10
  | evtSpawned => 11
  | evtClickDrag => 12
  | evtCoop => 13
  | evtOfferLinkBook => 14
  | evtBook => 15
  | evtClimbingBlockerHit => 16

def all : List EventType :=
  [evtCollision, evtPicked, evtControlKey, evtVariable, evtFacing, evtContained, evtActivate,
    evtCallback, evtResponderState, evtMultiStage, evtSpawned, evtClickDrag, evtCoop,
    evtOfferLinkBook, evtBook, evtClimbingBlockerHit]

def ofId (id : UInt32) : Option EventType := all.find? fun t => t.id = id

theorem ofId_id (t : EventType) : ofId t.id = some t := by
  cases t <;> rfl

/-- What the class of `EventData` has, in the order it is read. -/
@[reducible] def Val : EventType → Type
  | evtCollision => Bool × Key × Key
  | evtPicked => Key × Key × Bool × Vector3
  | evtControlKey => Int32 × Bool
  | evtVariable => String × (UInt32 × UInt32) × Key
  | evtFacing => Key × Key × FloatBits × Bool
  | evtContained => Key × Key × Bool
  | evtActivate => Bool × Bool
  | evtCallback => Int32
  | evtResponderState => Int32
  | evtMultiStage => Int32 × Int32 × Key
  | evtSpawned => Key × Key
  | evtClickDrag => Unit
  | evtCoop => UInt32 × UInt16
  | evtOfferLinkBook => Key × UInt32 × UInt32
  | evtBook => UInt32 × UInt32
  | evtClimbingBlockerHit => Key

end EventType

/-- A number that is read and forgotten. -/
def blank : Field UInt32 where
  read _ := do
    let _ ← readU32
    pure 0
  write _ _ := .ok (writeU32 0)
  Kept v := v = 0
  Came v := v = 0
  back _ v h := by
    subst h
    exact ⟨_, rfl, fun _ => (reads_u32 0).andThen (.pure 0)⟩
  came _ := (Yields.any _).bind fun _ _ => .pure rfl

instance : Codec.Plain blank := ⟨fun _ h => h⟩

/-- The union of a `VariableEventData`, for its `m_dataType`. -/
def number (dataType : UInt32) : Field UInt32 :=
  if dataType = 1 ∨ dataType = 3 then u32 else blank

instance (dataType : UInt32) : Codec.Plain (number dataType) := by
  rw [number]
  split
  · exact inferInstanceAs (Codec.Plain u32)
  · exact inferInstanceAs (Codec.Plain blank)

section

variable (D : Decoders)

def EventType.codec : (t : EventType) → Field t.Val
  | .evtCollision => bool.seq <| key.seq key
  | .evtPicked => key.seq <| key.seq <| bool.seq vector3
  | .evtControlKey => i32.seq bool
  | .evtVariable => (utf8 D).seq <| (u32.dep number).seq key
  | .evtFacing => key.seq <| key.seq <| float.seq bool
  | .evtContained => key.seq <| key.seq bool
  | .evtActivate => bool.seq bool
  | .evtCallback => i32
  | .evtResponderState => i32
  | .evtMultiStage => i32.seq <| i32.seq key
  | .evtSpawned => key.seq key
  | .evtClickDrag => .empty
  | .evtCoop => u32.seq u16
  | .evtOfferLinkBook => key.seq <| u32.seq u32
  | .evtBook => u32.seq u32
  | .evtClimbingBlockerHit => key

abbrev eventType : Field EventType :=
  u32.enum EventType.ofId EventType.id EventType.ofId_id .malformedData

abbrev EventData := (t : EventType) × t.Val

/-- `EventData::Read` and `EventData::Write`. -/
abbrev eventData : Field EventData := eventType.tagged (EventType.codec D)

/-- The name of a variable is not too long to be written again. -/
def EventData.Short : EventData → Prop
  | ⟨.evtVariable, v⟩ => Strings.size .utf8 v.1 < 4096
  | _ => True

theorem eventData_kept {e : EventData} (h : (eventData D).Came e) (hshort : e.Short) :
    (eventData D).Kept e := by
  obtain ⟨t, v⟩ := e
  refine ⟨trivial, ?_⟩
  have hv : (t.codec D).Came v := h.2
  cases t with
  | evtVariable => exact ⟨⟨hshort, hv.1⟩, Codec.Plain.kept (c := (u32.dep number).seq key) _ hv.2⟩
  | evtCollision => exact Codec.Plain.kept (c := bool.seq <| key.seq key) v hv
  | evtPicked => exact Codec.Plain.kept (c := key.seq <| key.seq <| bool.seq vector3) v hv
  | evtControlKey => exact Codec.Plain.kept (c := i32.seq bool) v hv
  | evtFacing => exact Codec.Plain.kept (c := key.seq <| key.seq <| float.seq bool) v hv
  | evtContained => exact Codec.Plain.kept (c := key.seq <| key.seq bool) v hv
  | evtActivate => exact Codec.Plain.kept (c := bool.seq bool) v hv
  | evtCallback => exact Codec.Plain.kept (c := i32) v hv
  | evtResponderState => exact Codec.Plain.kept (c := i32) v hv
  | evtMultiStage => exact Codec.Plain.kept (c := i32.seq <| i32.seq key) v hv
  | evtSpawned => exact Codec.Plain.kept (c := key.seq key) v hv
  | evtClickDrag => exact Codec.Plain.kept (c := (Codec.empty : Field Unit)) v hv
  | evtCoop => exact Codec.Plain.kept (c := u32.seq u16) v hv
  | evtOfferLinkBook => exact Codec.Plain.kept (c := key.seq <| u32.seq u32) v hv
  | evtBook => exact Codec.Plain.kept (c := u32.seq u32) v hv
  | evtClimbingBlockerHit => exact Codec.Plain.kept (c := key) v hv

end

/-! ## Clients -/

structure ClientGuid where
  flags : UInt16 := 0
  acctUuid : Uuid := Uuid.null
  playerId : UInt32 := 0
  playerName : String := ""
  ccrLevel : UInt8 := 0
  protectedLogin : Bool := false
  buildType : UInt8 := 0
  srcAddr : UInt32 := 0
  srcPort : UInt16 := 0
  reserved : UInt16 := 0
  clientKey : String := ""

abbrev clientGuid (D : Decoders) : Field ClientGuid :=
  (u16.dep fun flags =>
    (when (flags &&& 1 ≠ 0) Uuid.null uuid).seq <|
    (when (flags &&& 2 ≠ 0 ∨ flags &&& 4 ≠ 0) 0 u32).seq <|
    (when (flags &&& 64 ≠ 0) "" (pstring D)).seq <|
    (when (flags &&& 8 ≠ 0) 0 u8).seq <|
    (when (flags &&& 16 ≠ 0) false bool).seq <|
    (when (flags &&& 32 ≠ 0) 0 u8).seq <|
    (when (flags &&& 128 ≠ 0) 0 u32).seq <|
    (when (flags &&& 256 ≠ 0) 0 u16).seq <|
    (when (flags &&& 512 ≠ 0) 0 u16).seq
    (when (flags &&& 1024 ≠ 0) "" (pstring D))).iso
  ⟨fun (flags, uuid, player, name, level, login, build, addr, port, reserved, key) =>
      ⟨flags, uuid, player, name, level, login, build, addr, port, reserved, key⟩,
    fun c => (c.flags, c.acctUuid, c.playerId, c.playerName, c.ccrLevel, c.protectedLogin,
      c.buildType, c.srcAddr, c.srcPort, c.reserved, c.clientKey),
    fun _ => rfl, fun _ => rfl⟩

end Dirtsand.MOUL
