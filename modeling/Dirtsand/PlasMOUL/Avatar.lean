import Dirtsand.PlasMOUL.Messages

/-!
# Tasks and brains of avatars

The classes of PlasMOUL/Avatar.  An `ArmatureBrain` reads members that it forgets, and
writes zeros for them.

`AvBrainGeneric::read` asks for a flag before each of the two messages of a brain, and
`write` puts none.  A brain comes back if it has no messages: the two null pointers are
read as a flag, another flag, and one null pointer.
-/

namespace Dirtsand.MOUL

open Lib (Codec)
open Lib.Codec (behind required)
open Lib.Reader (Reads Yields)
open Streams

/-! ## Tasks -/

/-- `m_animName`, `m_initialBlend`, `m_targetBlend`, `m_fadeSpeed`, `m_setTime`, `m_start`,
`m_loop`, `m_attach`. -/
abbrev AvAnimTask := String × FloatBits × FloatBits × FloatBits × FloatBits × Bool × Bool × Bool

abbrev avAnimTask : Field AvAnimTask :=
  text.seq <| float.seq <| float.seq <| float.seq <| float.seq <| bool.seq <| bool.seq bool

/-- `m_animName`, `m_markerName`. -/
abbrev AvOneShotLinkTask := String × String

abbrev avOneShotLinkTask : Field AvOneShotLinkTask := text.seq text

/-- `m_brain`. -/
abbrev AvTaskBrain (L : Level) := Option (L.Of .armatureBrain)

abbrev avTaskBrain (L : Level) : Field (AvTaskBrain L) := L.pointer .armatureBrain

/-! ## Brains -/

/-- `ArmatureBrain::read`: nothing of it is kept. -/
def readArmatureBrain (m : Memory) : Read Unit := do
  let _ ← readU32
  if ← readBool then
    let _ ← key.read m
  let _ ← readU32
  let _ ← readU32
  let _ ← readU64
  pure ()

def writeArmatureBrain : List UInt8 :=
  writeU32 0 ++ (writeBool false ++ (writeU32 0 ++ (writeU32 0 ++ writeU64 0)))

def armatureBrain : Field Unit where
  read := readArmatureBrain
  write _ _ := .ok writeArmatureBrain
  Kept _ := True
  Came _ := True
  back _ _ _ := ⟨_, rfl, fun _ => (reads_u32 0).bind ((reads_bool false).bind
    ((reads_u32 0).bind ((reads_u32 0).bind ((reads_u64 0).andThen (.pure ())))))⟩
  came _ := .any _

instance : Codec.Sure armatureBrain := ⟨fun _ => trivial⟩

/-- `m_isCustomAvatar`. -/
abbrev AvBrainHuman := Bool

abbrev avBrainHuman : Field AvBrainHuman := bool

/-- `m_animName`, `m_notify`, `m_forwardType`, `m_backType`, `m_advanceType`, `m_regressType`,
`m_loops`, `m_doAdvance`, `m_advanceTo`, `m_doRegress`, `m_regressTo`. -/
abbrev AnimStage := String × UInt8 × UInt32 × UInt32 × UInt32 × UInt32 × UInt32 × Bool × UInt32 ×
  Bool × UInt32

abbrev animStage : Field AnimStage :=
  text.seq <| u8.seq <| u32.seq <| u32.seq <| u32.seq <| u32.seq <| u32.seq <| bool.seq <|
    u32.seq <| bool.seq u32

/-- The members of an `AnimStage` that `readAux` and `writeAux` are for: `m_localTime`, `m_length`,
`m_curLoop`, `m_attached`. -/
abbrev StageAux := FloatBits × FloatBits × Int32 × Bool

abbrev stageAux : Field StageAux := float.seq <| float.seq <| i32.seq bool

section

variable (L : Level)

/-- A stage of a brain: `readAux` is called without asking whether it is null. -/
abbrev Stage := L.Of (.exactly .animStage) × StageAux

abbrev stage : Field (Stage L) := (required (L.pointer (.exactly .animStage)) .crash).seq stageAux

/-- `m_startMessage` and `m_endMessage`. -/
abbrev BrainMessages := Option (L.Of .message) × Option (L.Of .message)

def readBrainMessages (m : Memory) : Read (BrainMessages L) := do
  let startMessage ← (behind bool (L.pointer .message)).read m
  let endMessage ← (behind bool (L.pointer .message)).read m
  pure (startMessage, endMessage)

/-- Without the flags. -/
def writeBrainMessages (m : Memory) (x : BrainMessages L) : Except StreamError (List UInt8) := do
  let bytes ← (L.pointer .message).write m x.1
  let bytes' ← (L.pointer .message).write m x.2
  pure (bytes ++ bytes')

/-- The first null pointer is two flags, and the second one is read as it is. -/
theorem null_pointers :
    writeU16 0x8000 ++ writeU16 0x8000 = writeBool false ++ (writeU8 0x80 ++ writeU16 0x8000) := rfl

theorem reads_noMessages (m : Memory) :
    Reads (readBrainMessages L m) (writeU16 0x8000 ++ writeU16 0x8000) (none, none) := by
  have hnull : Reads ((L.pointer .message).read m) (writeU16 0x8000) none := by
    obtain ⟨bytes, hwrite, hreads⟩ := (L.pointer .message).back m none nofun
    rw [← Except.ok.inj hwrite] at hreads
    exact hreads m
  have hstart : Reads ((behind bool (L.pointer .message)).read m) (writeBool false) none :=
    (reads_bool false).andThen (.pure none)
  have hflag : Reads readBool (writeU8 0x80) true := (reads_u8 0x80).andThen (.pure true)
  have hend : Reads ((behind bool (L.pointer .message)).read m) (writeU8 0x80 ++ writeU16 0x8000)
      none := hflag.bind hnull
  rw [null_pointers]
  exact hstart.bind (hend.andThen (.pure (none, none)))

def brainMessages : Field (BrainMessages L) where
  read := readBrainMessages L
  write := writeBrainMessages L
  Kept x := x.1 = none ∧ x.2 = none
  Came x := (L.pointer .message).Came x.1 ∧ (L.pointer .message).Came x.2
  back m x h := by
    obtain ⟨_, _⟩ := x
    obtain ⟨rfl, rfl⟩ := h
    exact ⟨_, rfl, reads_noMessages L⟩
  came m := by
    have hmessage : Yields ((behind bool (L.pointer .message)).read m) (L.pointer .message).Came := by
      refine ((behind bool (L.pointer .message)).came m).mono fun p hp => ?_
      cases p with
      | none => exact nofun
      | some x => exact hp rfl
    exact hmessage.bind fun _ hs => hmessage.bind fun _ he => .pure ⟨hs, he⟩

structure AvBrainGeneric where
  stages : List (Stage L)
  curStage : Int32
  type : UInt32
  exitFlags : UInt32
  mode : UInt8
  forward : Bool
  messages : BrainMessages L
  fadeIn : FloatBits
  fadeOut : FloatBits
  moveMode : UInt8
  bodyUsage : UInt8
  recipient : Key

abbrev avBrainGeneric : Field (AvBrainGeneric L) :=
  ((Codec.list (length 4) (stage L)).seq <| i32.seq <| u32.seq <| u32.seq <| u8.seq <| bool.seq <|
    (brainMessages L).seq <| float.seq <| float.seq <| u8.seq <| u8.seq key).iso
  ⟨fun (stages, cur, type, exit, mode, forward, messages, fadeIn, fadeOut, move, body, recipient) =>
      ⟨stages, cur, type, exit, mode, forward, messages, fadeIn, fadeOut, move, body, recipient⟩,
    fun b => (b.stages, b.curStage, b.type, b.exitFlags, b.mode, b.forward, b.messages, b.fadeIn,
      b.fadeOut, b.moveMode, b.bodyUsage, b.recipient), fun _ => rfl, fun _ => rfl⟩

/-- `m_initiatorId`, `m_initiatorSerial`, `m_host`, `m_guest`, `m_waitingForClick`,
`m_recipients`. -/
abbrev Coop := UInt32 × UInt16 × Key × Key × Bool × List Key

abbrev coop : Field Coop :=
  u32.seq <| u16.seq <| keyBehind.seq <| keyBehind.seq <| bool.seq <| Codec.list (length 2) key

abbrev AvBrainCoop := AvBrainGeneric L × Coop

abbrev avBrainCoop : Field (AvBrainCoop L) := (avBrainGeneric L).seq coop

structure CoopCoordinator where
  hostKey : Key
  guestKey : Key
  hostBrain : Option (L.Of (.exactly .avBrainCoop))
  guestBrain : Option (L.Of (.exactly .avBrainCoop))
  hostOfferStage : UInt8
  guestAcceptStage : Bool
  acceptMsg : Option (L.Of .message)
  synchBone : String
  autoStartGuest : Bool

abbrev coopCoordinator : Field (CoopCoordinator L) :=
  (key.seq <| key.seq <| (L.pointer (.exactly .avBrainCoop)).seq <|
    (L.pointer (.exactly .avBrainCoop)).seq <| u8.seq <| bool.seq <|
    (behind bool (L.pointer .message)).seq <| text.seq bool).iso
  ⟨fun (host, guest, hostBrain, guestBrain, offer, accept, msg, bone, auto) =>
      ⟨host, guest, hostBrain, guestBrain, offer, accept, msg, bone, auto⟩,
    fun c => (c.hostKey, c.guestKey, c.hostBrain, c.guestBrain, c.hostOfferStage,
      c.guestAcceptStage, c.acceptMsg, c.synchBone, c.autoStartGuest), fun _ => rfl, fun _ => rfl⟩

end

end Dirtsand.MOUL
