import Dirtsand.PlasMOUL.Creatable

/-!
# Messages

The classes derived from `MOUL::Message` (PlasMOUL/Messages), which all read and write
`message` first.  What follows it is given here: for most classes the members in
their order, for those with other objects in them a structure over a level.
-/

namespace Dirtsand.MOUL

open Lib (Codec)
open Lib.Codec (behind except when)
open Strings

/-- `Message`. -/
abbrev Kind.message : Kind := .base .message

abbrev Kind.avTask : Kind := .base .avTask

abbrev Kind.armatureBrain : Kind := .base .armatureBrain

structure Message where
  sender : Key
  receivers : List Key
  timestamp : DoubleBits
  bcastFlags : UInt32

abbrev message : Field Message :=
  (key.seq <| (Codec.list (length 4) key).seq <| double.seq u32).iso
  ⟨fun (sender, receivers, timestamp, flags) => ⟨sender, receivers, timestamp, flags⟩,
    fun m => (m.sender, m.receivers, m.timestamp, m.bcastFlags), fun _ => rfl, fun _ => rfl⟩

/-! ## Messages without objects in them -/

/-- `m_event`. -/
abbrev InputEventMsg := Int32

abbrev inputEventMsg : Field InputEventMsg := i32

/-- Behind `InputEventMsg`: `m_controlCode`, `m_activated`, `m_controlPercent`, `m_turnToPoint`,
`m_cmd`. -/
abbrev ControlEventMsg := InputEventMsg × Int32 × Bool × FloatBits × Vector3 × String

abbrev controlEventMsg (D : Decoders) : Field ControlEventMsg :=
  inputEventMsg.seq <| i32.seq <| bool32.seq <| float.seq <| vector3.seq (pstring D)

/-- `m_cmd`, `m_types`. -/
abbrev EnableMsg := BitVector × BitVector

abbrev enableMsg : Field EnableMsg := bits.seq bits

/-- `m_transform`, `m_warpFlags`. -/
abbrev WarpMsg := Matrix44 × UInt32

abbrev warpMsg : Field WarpMsg := matrix44.seq u32

/-- `m_reply`. -/
abbrev ServerReplyMsg := Int32

abbrev serverReplyMsg : Field ServerReplyMsg := i32

/-- `m_aborted`. -/
abbrev AvTaskSeekDoneMsg := Bool

abbrev avTaskSeekDoneMsg : Field AvTaskSeekDoneMsg := bool

/-- `m_flags`, `m_ageLink`, `m_linkInAnim`. -/
abbrev LinkToAgeMsg := UInt8 × AgeLinkStruct × String

abbrev linkToAgeMsg (D : Decoders) : Field LinkToAgeMsg := u8.seq <| (ageLinkStruct D).seq text

/-- `m_type`, `m_state`, `m_id`, `m_events`. -/
abbrev NotifyMsg := UInt32 × FloatBits × Int32 × List EventData

abbrev notifyMsg (D : Decoders) : Field NotifyMsg :=
  u32.seq <| float.seq <| i32.seq <| Codec.list (length 4) (eventData D)

/-- `m_invisLevel`, `m_leaving`, `m_linkKey`, `m_effects`, `m_animKey`. -/
abbrev LinkEffectsTriggerMsg := UInt32 × Bool × Key × UInt32 × Key

abbrev linkEffectsTriggerMsg : Field LinkEffectsTriggerMsg :=
  u32.seq <| bool.seq <| key.seq <| u32.seq key

/-- `m_sysKey`, `m_transferCount`. -/
abbrev ParticleTransferMsg := Key × UInt16

abbrev particleTransferMsg : Field ParticleTransferMsg := key.seq u16

/-- `m_numToKill`, `m_timeLeft`, `m_flags`. -/
abbrev ParticleKillMsg := FloatBits × FloatBits × UInt8

abbrev particleKillMsg : Field ParticleKillMsg := float.seq <| float.seq u8

/-- `m_state`. -/
abbrev AvatarInputStateMsg := UInt16

abbrev avatarInputStateMsg : Field AvatarInputStateMsg := u16

/-- `m_commands`, `m_item`, `m_color`, `m_layer`, `m_delta`, `m_weight`. -/
abbrev ClothingMsg := UInt32 × Key × ColorRgba × UInt8 × UInt8 × FloatBits

/-- A key that has another flag before it. -/
abbrev keyBehind : Field Key :=
  except bool none Option.isNone (fun _ => Option.isNone_iff_eq_none) key

abbrev clothingMsg : Field ClothingMsg :=
  u32.seq <| keyBehind.seq <| color.seq <| u8.seq <| u8.seq float

/-- `m_command`, `m_pageId`, `m_ageName`, `m_ageFilename`, `m_spawnPoint`, `m_avatar`. -/
abbrev InputIfaceMgrMsg := UInt8 × UInt32 × String × String × String × Key

abbrev inputIfaceMgrMsg : Field InputIfaceMgrMsg :=
  u8.seq <| u32.seq <| text.seq <| text.seq <| text.seq key

structure KIMessage where
  command : UInt8
  user : String
  playerId : UInt32
  string : String
  flags : UInt32
  delay : FloatBits
  value : Int32

/-- `e_ChatMessage`. -/
def KIMessage.chatMessage : UInt8 := 0

/-- `e_AdminMsg`. -/
def KIMessage.adminMsg : UInt32 := 2

abbrev kiMessage (D : Decoders) : Field KIMessage :=
  (u8.seq <| (utf8 D).seq <| u32.seq <| (utf16 D).seq <| u32.seq <| float.seq i32).iso
  ⟨fun (command, user, playerId, string, flags, delay, value) =>
      ⟨command, user, playerId, string, flags, delay, value⟩,
    fun m => (m.command, m.user, m.playerId, m.string, m.flags, m.delay, m.value),
    fun _ => rfl, fun _ => rfl⟩

/-- `m_type`, `m_stage`, `m_setTime`, `m_newTime`, `m_setDirection`, `m_newDirection`,
`m_transitionTime`. -/
abbrev AvBrainGenericMsg := UInt32 × Int32 × Bool × FloatBits × Bool × Bool × FloatBits

abbrev avBrainGenericMsg : Field AvBrainGenericMsg :=
  u32.seq <| i32.seq <| bool.seq <| float.seq <| bool.seq <| bool.seq float

/-- `m_cmds`, `m_stage`, `m_numLoops`. -/
abbrev MultistageModMsg := BitVector × UInt8 × UInt8

abbrev multistageModMsg : Field MultistageModMsg := bits.seq <| u8.seq u8

/-- `m_cmd`, `m_from`, `m_direction`, `m_range`, `m_radius`, `m_partyTime`. -/
abbrev BulletMsg := UInt8 × Vector3 × Vector3 × FloatBits × FloatBits × FloatBits

abbrev bulletMsg : Field BulletMsg :=
  u8.seq <| vector3.seq <| vector3.seq <| float.seq <| float.seq float

/-- `m_world`. -/
abbrev SubWorldMsg := Key

abbrev subWorldMsg : Field SubWorldMsg := key

/-- `m_cmd`, `m_direction`, `m_status`, `m_target`. -/
abbrev ClimbMsg := UInt32 × UInt32 × Bool × Key

abbrev climbMsg : Field ClimbMsg := u32.seq <| u32.seq <| bool.seq key

/-- The location and the flags of `m_group`. -/
abbrev SetNetGroupIdMsg := Location × UInt8

abbrev setNetGroupIdMsg : Field SetNetGroupIdMsg := location.seq u8

/-- `m_target`, `m_string`. -/
abbrev BackdoorMsg := String × String

abbrev backdoorMsg : Field BackdoorMsg := text.seq text

/-- `m_linkObj`, `m_avatar`. -/
abbrev PseudoLinkEffectMsg := Key × Key

abbrev pseudoLinkEffectMsg : Field PseudoLinkEffectMsg := key.seq key

/-! ## Messages with objects in them -/

section

variable (L : Level)

/-- `m_callbacks`.  They are read up to the capacity of the vector, which a new one has of its
size. -/
abbrev MessageWithCallbacks := List (Option (L.Of .message))

abbrev messageWithCallbacks : Field (MessageWithCallbacks L) :=
  Codec.list (length 4) (L.pointer .message)

/-- `m_cmd`, `m_begin`, `m_end`, `m_loopEnd`, `m_loopBegin`, `m_speed`, `m_speedChangeRate`,
`m_time`, `m_animName`, `m_loopName`. -/
abbrev AnimCmd := BitVector × FloatBits × FloatBits × FloatBits × FloatBits × FloatBits ×
  FloatBits × FloatBits × String × String

abbrev animCmd : Field AnimCmd :=
  bits.seq <| float.seq <| float.seq <| float.seq <| float.seq <| float.seq <| float.seq <|
    float.seq <| text.seq text

abbrev AnimCmdMsg := MessageWithCallbacks L × AnimCmd

abbrev animCmdMsg : Field (AnimCmdMsg L) := (messageWithCallbacks L).seq animCmd

structure LoadCloneMsg where
  cloneKey : Key
  requestorKey : Key
  originPlayerId : UInt32
  userData : UInt32
  validMsg : Bool
  isLoading : Bool
  triggerMsg : Option (L.Of .message)

abbrev loadCloneMsg : Field (LoadCloneMsg L) :=
  (key.seq <| key.seq <| u32.seq <| u32.seq <| bool.seq <| bool.seq (L.pointer .message)).iso
  ⟨fun (clone, requestor, origin, data, valid, loading, trigger) =>
      ⟨clone, requestor, origin, data, valid, loading, trigger⟩,
    fun m => (m.cloneKey, m.requestorKey, m.originPlayerId, m.userData, m.validMsg, m.isLoading,
      m.triggerMsg), fun _ => rfl, fun _ => rfl⟩

structure LoadAvatarMsg extends LoadCloneMsg L where
  isPlayer : Bool
  spawnPoint : Key
  initTask : Option (L.Of .avTask)
  userString : String

abbrev loadAvatarMsg : Field (LoadAvatarMsg L) :=
  ((loadCloneMsg L).seq <| bool.seq <| key.seq <| (behind bool (L.pointer .avTask)).seq text).iso
  ⟨fun (clone, player, spawnPoint, task, user) => ⟨clone, player, spawnPoint, task, user⟩,
    fun m => (m.toLoadCloneMsg, m.isPlayer, m.spawnPoint, m.initTask, m.userString),
    fun _ => rfl, fun _ => rfl⟩

/-- `m_task`. -/
abbrev AvTaskMsg := Option (L.Of .avTask)

abbrev avTaskMsg : Field (AvTaskMsg L) := behind bool (L.pointer .avTask)

/-- Behind `AvTaskMsg`: `m_seekPoint` with `m_targetPos` and `m_targetLook`, which are there where
it is null. -/
abbrev SeekPoint := Key × Vector3 × Vector3

abbrev seekPoint : Field SeekPoint :=
  key.dep fun point => when (point.isNone = true) ({}, {}) (vector3.seq vector3)

/-- `m_duration`, `m_smartSeek`, `m_animName`, `m_alignType`, `m_noSeek`, `m_flags`,
`m_finishKey`. -/
abbrev Seek := FloatBits × Bool × String × UInt16 × Bool × UInt8 × Key

abbrev seek : Field Seek :=
  float.seq <| bool.seq <| text.seq <| u16.seq <| bool.seq <| u8.seq key

abbrev AvSeekMsg := AvTaskMsg L × SeekPoint × Seek

abbrev avSeekMsg : Field (AvSeekMsg L) := (avTaskMsg L).seq <| seekPoint.seq seek

/-- `m_oneShotAnimName`, `m_drivable`, `m_reversible`. -/
abbrev OneShot := String × Bool × Bool

abbrev oneShot : Field OneShot := text.seq <| bool.seq bool

abbrev AvOneShotMsg := AvSeekMsg L × OneShot

abbrev avOneShotMsg : Field (AvOneShotMsg L) := (avSeekMsg L).seq oneShot

structure AvPushBrainMsg where
  task : Option (L.Of .avTask)
  brain : Option (L.Of .armatureBrain)

abbrev avPushBrainMsg : Field (AvPushBrainMsg L) :=
  ((avTaskMsg L).seq (L.pointer .armatureBrain)).iso
  ⟨fun (task, brain) => ⟨task, brain⟩, fun m => (m.task, m.brain), fun _ => rfl, fun _ => rfl⟩

structure AvCoopMsg where
  coordinator : Option (L.Of (.exactly .coopCoordinator))
  initiatorId : UInt32
  initiatorSerial : UInt16
  command : UInt16

abbrev avCoopMsg : Field (AvCoopMsg L) :=
  ((behind bool (L.pointer (.exactly .coopCoordinator))).seq <| u32.seq <| u16.seq u16).iso
  ⟨fun (coordinator, id, serial, command) => ⟨coordinator, id, serial, command⟩,
    fun m => (m.coordinator, m.initiatorId, m.initiatorSerial, m.command),
    fun _ => rfl, fun _ => rfl⟩

end

end Dirtsand.MOUL
