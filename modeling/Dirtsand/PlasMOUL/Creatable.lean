import Dirtsand.PlasMOUL.Structs

/-!
# Creatables

The classes of creatable_types.inl, and `MOUL::Factory` (factory.cpp, factory.h),
which reads and writes an object behind the identifier of its class.

Objects have pointers to others, and reading one is a call inside of a call.  A
`Level` has the objects below those that are read, with what their classes do; the
classes are defined over any level, and `Factory` puts the levels on each other.

* `Level.creatable` — a pointer to any object, `ReadCreatable` and `WriteCreatable`.
* `Level.pointer` — a pointer to a class, `Factory::Read<T>`: null where the object is
  of another class.
-/

namespace Dirtsand.MOUL

open Lib (Codec)
open Lib.Reader (Reads Yields)
open Streams

/-! ## Classes -/

inductive Class where
  | coopCoordinator
  | animCmdMsg
  | inputEventMsg
  | controlEventMsg
  | netMsgPagingRoom
  | loadCloneMsg
  | enableMsg
  | warpMsg
  | netMsgGroupOwner
  | netMsgGameStateRequest
  | netMsgGameMessage
  | serverReplyMsg
  | netMsgVoice
  | netMsgTestAndSet
  | messageWithCallbacks
  | avTaskMsg
  | avSeekMsg
  | avOneShotMsg
  | netMsgMembersListReq
  | netMsgMembersList
  | netMsgMemberUpdate
  | netMsgInitialAgeStateSent
  | avTaskSeekDoneMsg
  | ageLinkStruct
  | netMsgSDLState
  | linkToAgeMsg
  | notifyMsg
  | linkEffectsTriggerMsg
  | netMsgSDLStateBCast
  | netMsgGameMessageDirected
  | particleTransferMsg
  | particleKillMsg
  | avatarInputStateMsg
  | ageInfoStruct
  | linkingMgrMsg
  | clothingMsg
  | avBrainHuman
  | avBrainCritter
  | avBrainDrive
  | avBrainGeneric
  | inputIfaceMgrMsg
  | kiMessage
  | avPushBrainMsg
  | avPopBrainMsg
  | avAnimTask
  | avSeekTask
  | avOneShotTask
  | avTaskBrain
  | animStage
  | genericValue
  | avBrainGenericMsg
  | avTaskSeek
  | multistageModMsg
  | bulletMsg
  | netMsgRelevanceRegions
  | loadAvatarMsg
  | netMsgLoadClone
  | netMsgPlayerPage
  | subWorldMsg
  | avBrainSwim
  | climbMsg
  | avBrainClimb
  | avCoopMsg
  | avBrainCoop
  | setNetGroupIdMsg
  | backdoorMsg
  | avOneShotLinkTask
  | pseudoLinkEffectMsg
  | avBrainRideAnimatedPhysical
deriving DecidableEq, Repr

namespace Class

/-- The identifiers of creatable_types.inl. -/
def id : Class → UInt16
  | coopCoordinator => 0x011B
  | animCmdMsg => 0x0206
  | inputEventMsg => 0x020B
  | controlEventMsg => 0x0210
  | netMsgPagingRoom => 0x0218
  | loadCloneMsg => 0x0253
  | enableMsg => 0x0254
  | warpMsg => 0x0255
  | netMsgGroupOwner => 0x0264
  | netMsgGameStateRequest => 0x0265
  | netMsgGameMessage => 0x026B
  | serverReplyMsg => 0x026F
  | netMsgVoice => 0x0279
  | netMsgTestAndSet => 0x027D
  | messageWithCallbacks => 0x0283
  | avTaskMsg => 0x0298
  | avSeekMsg => 0x0299
  | avOneShotMsg => 0x029A
  | netMsgMembersListReq => 0x02AD
  | netMsgMembersList => 0x02AE
  | netMsgMemberUpdate => 0x02B1
  | netMsgInitialAgeStateSent => 0x02B8
  | avTaskSeekDoneMsg => 0x02C0
  | ageLinkStruct => 0x02C4
  | netMsgSDLState => 0x02CD
  | linkToAgeMsg => 0x02E6
  | notifyMsg => 0x02ED
  | linkEffectsTriggerMsg => 0x0300
  | netMsgSDLStateBCast => 0x0329
  | netMsgGameMessageDirected => 0x032E
  | particleTransferMsg => 0x0333
  | particleKillMsg => 0x0334
  | avatarInputStateMsg => 0x0347
  | ageInfoStruct => 0x0348
  | linkingMgrMsg => 0x034B
  | clothingMsg => 0x0357
  | avBrainHuman => 0x035C
  | avBrainCritter => 0x035D
  | avBrainDrive => 0x035E
  | avBrainGeneric => 0x0360
  | inputIfaceMgrMsg => 0x0363
  | kiMessage => 0x0364
  | avPushBrainMsg => 0x0367
  | avPopBrainMsg => 0x0368
  | avAnimTask => 0x036B
  | avSeekTask => 0x036C
  | avOneShotTask => 0x036E
  | avTaskBrain => 0x0370
  | animStage => 0x0371
  | genericValue => 0x038C
  | avBrainGenericMsg => 0x038F
  | avTaskSeek => 0x0390
  | multistageModMsg => 0x03A3
  | bulletMsg => 0x03A6
  | netMsgRelevanceRegions => 0x03AC
  | loadAvatarMsg => 0x03B1
  | netMsgLoadClone => 0x03B3
  | netMsgPlayerPage => 0x03B4
  | subWorldMsg => 0x03BF
  | avBrainSwim => 0x042D
  | climbMsg => 0x0451
  | avBrainClimb => 0x0453
  | avCoopMsg => 0x045E
  | avBrainCoop => 0x045F
  | setNetGroupIdMsg => 0x0464
  | backdoorMsg => 0x0465
  | avOneShotLinkTask => 0x0488
  | pseudoLinkEffectMsg => 0x0494
  | avBrainRideAnimatedPhysical => 0x049E

def all : List Class :=
  [coopCoordinator, animCmdMsg, inputEventMsg, controlEventMsg, netMsgPagingRoom, loadCloneMsg,
    enableMsg, warpMsg, netMsgGroupOwner, netMsgGameStateRequest, netMsgGameMessage,
    serverReplyMsg, netMsgVoice, netMsgTestAndSet, messageWithCallbacks, avTaskMsg, avSeekMsg,
    avOneShotMsg, netMsgMembersListReq, netMsgMembersList, netMsgMemberUpdate,
    netMsgInitialAgeStateSent, avTaskSeekDoneMsg, ageLinkStruct, netMsgSDLState, linkToAgeMsg,
    notifyMsg, linkEffectsTriggerMsg, netMsgSDLStateBCast, netMsgGameMessageDirected,
    particleTransferMsg, particleKillMsg, avatarInputStateMsg, ageInfoStruct, linkingMgrMsg,
    clothingMsg, avBrainHuman, avBrainCritter, avBrainDrive, avBrainGeneric, inputIfaceMgrMsg,
    kiMessage, avPushBrainMsg, avPopBrainMsg, avAnimTask, avSeekTask, avOneShotTask, avTaskBrain,
    animStage, genericValue, avBrainGenericMsg, avTaskSeek, multistageModMsg, bulletMsg,
    netMsgRelevanceRegions, loadAvatarMsg, netMsgLoadClone, netMsgPlayerPage, subWorldMsg,
    avBrainSwim, climbMsg, avBrainClimb, avCoopMsg, avBrainCoop, setNetGroupIdMsg, backdoorMsg,
    avOneShotLinkTask, pseudoLinkEffectMsg, avBrainRideAnimatedPhysical]

/-- The class that `Factory::Create` makes an object of. -/
def ofId (id : UInt16) : Option Class := all.find? fun c => c.id = id

theorem ofId_id (c : Class) : ofId c.id = some c := by
  cases c <;> rfl

theorem id_ne_null (c : Class) : c.id ≠ 0x8000 := by
  cases c <;> decide

end Class

/-- The classes that the others are derived from, if there is such a one. -/
inductive Base where
  | message
  | netMessage
  | avTask
  | armatureBrain
  | creatable
deriving DecidableEq, Repr

def Class.base : Class → Base
  | animCmdMsg | inputEventMsg | controlEventMsg | loadCloneMsg | enableMsg | warpMsg
  | serverReplyMsg | messageWithCallbacks | avTaskMsg | avSeekMsg | avOneShotMsg
  | avTaskSeekDoneMsg | linkToAgeMsg | notifyMsg | linkEffectsTriggerMsg | particleTransferMsg
  | particleKillMsg | avatarInputStateMsg | linkingMgrMsg | clothingMsg | inputIfaceMgrMsg
  | kiMessage | avPushBrainMsg | avPopBrainMsg | avBrainGenericMsg | multistageModMsg | bulletMsg
  | loadAvatarMsg | subWorldMsg | climbMsg | avCoopMsg | setNetGroupIdMsg | backdoorMsg
  | pseudoLinkEffectMsg => .message
  | netMsgPagingRoom | netMsgGroupOwner | netMsgGameStateRequest | netMsgGameMessage | netMsgVoice
  | netMsgTestAndSet | netMsgMembersListReq | netMsgMembersList | netMsgMemberUpdate
  | netMsgInitialAgeStateSent | netMsgSDLState | netMsgSDLStateBCast | netMsgGameMessageDirected
  | netMsgRelevanceRegions | netMsgLoadClone | netMsgPlayerPage => .netMessage
  | avAnimTask | avSeekTask | avOneShotTask | avTaskBrain | avTaskSeek | avOneShotLinkTask =>
    .avTask
  | avBrainHuman | avBrainCritter | avBrainDrive | avBrainGeneric | avBrainSwim | avBrainClimb
  | avBrainCoop | avBrainRideAnimatedPhysical => .armatureBrain
  | coopCoordinator | ageLinkStruct | ageInfoStruct | animStage | genericValue => .creatable

/-- The classes that pointers are cast to. -/
inductive Kind where
  | base (b : Base)
  | exactly (c : Class)
deriving DecidableEq, Repr

/-- `dynamic_cast` to such a class finds it.  No class is derived from those that are cast to
exactly. -/
def Kind.has : Kind → Class → Bool
  | .base b, c => c.base = b
  | .exactly c, c' => c' = c

/-! ## Objects -/

/-- Why `makeSafeForNet` does not return `true`: it returns `false`, or calls a null pointer. -/
inductive Refusal where
  | notSafe
  | crash
deriving DecidableEq, Repr

/-- Objects of each class, with `read` and `write`, and with `makeSafeForNet`, which may
change the object. -/
structure Level where
  Obj : Class → Type
  codec : (c : Class) → Field (Obj c)
  makeSafeForNet : (c : Class) → Obj c → Except Refusal (Obj c)

namespace Level

variable (L : Level)

/-- An object with its class. -/
abbrev Creatable := (c : Class) × L.Obj c

/-- An object of a class that a pointer is cast to. -/
abbrev Of (k : Kind) := (c : {c : Class // k.has c = true}) × L.Obj c.1

variable {L} in
def Of.creatable {k : Kind} (x : L.Of k) : L.Creatable := ⟨x.1.1, x.2⟩

variable {L} in
/-- `Creatable::Cast`. -/
def cast (k : Kind) (x : L.Creatable) : Option (L.Of k) :=
  if h : k.has x.1 = true then some ⟨⟨x.1, h⟩, x.2⟩ else none

theorem cast_creatable {k : Kind} (x : L.Of k) : cast k x.creatable = some x := dif_pos x.1.2

variable {L} in
theorem creatable_cast {k : Kind} {x : L.Creatable} {y : L.Of k} (h : cast k x = some y) :
    y.creatable = x := by
  rw [cast] at h
  split at h
  · rw [← Option.some.inj h]
    rfl
  · cases h

/-- `Factory::ReadCreatable`. -/
def readCreatable (m : Memory) : Read (Option L.Creatable) := do
  let type ← readU16
  if type = 0x8000 then pure none
  else match Class.ofId type with
    | none => Lib.Reader.fail .factory
    | some c => do
      let obj ← (L.codec c).read m
      pure (some ⟨c, obj⟩)

/-- `Factory::WriteCreatable`. -/
def writeCreatable (m : Memory) : Option L.Creatable → Except StreamError (List UInt8)
  | none => .ok (writeU16 0x8000)
  | some ⟨c, obj⟩ => do
    let bytes ← (L.codec c).write m obj
    pure (writeU16 c.id ++ bytes)

/-- The object is kept by its class. -/
def Kept (x : L.Creatable) : Prop := (L.codec x.1).Kept x.2

def Came (x : L.Creatable) : Prop := (L.codec x.1).Came x.2

def creatable : Field (Option L.Creatable) where
  read := L.readCreatable
  write := L.writeCreatable
  Kept p := ∀ x ∈ p, L.Kept x
  Came p := ∀ x ∈ p, L.Came x
  back m p h := by
    cases p with
    | none => exact ⟨_, rfl, fun _ => (reads_u16 _).andThen (.pure none)⟩
    | some x =>
      obtain ⟨c, obj⟩ := x
      obtain ⟨bytes, hwrite, hreads⟩ := (L.codec c).back m obj (h _ rfl)
      refine ⟨writeU16 c.id ++ bytes, ?_, fun m' => (reads_u16 _).bind ?_⟩
      · rw [writeCreatable, hwrite]
        rfl
      · rw [if_neg c.id_ne_null, Class.ofId_id]
        exact (hreads m').andThen (.pure _)
  came m := by
    refine (Yields.any _).bind fun type _ => ?_
    split
    · exact .pure nofun
    · cases Class.ofId type with
      | none => exact .fail
      | some c =>
        refine ((L.codec c).came m).bind fun obj hobj => .pure fun x hx => ?_
        rw [← Option.some.inj hx]
        exact hobj

/-- A pointer to a class: `Factory::Read<T>`, and `WriteCreatable`. -/
def pointer (k : Kind) : Field (Option (L.Of k)) where
  read m := do
    let obj ← L.readCreatable m
    pure (obj.bind (cast k))
  write m p := L.writeCreatable m (p.map Of.creatable)
  Kept p := ∀ x ∈ p, L.Kept x.creatable
  Came p := ∀ x ∈ p, L.Came x.creatable
  back m p h := by
    have hkept : L.creatable.Kept (p.map Of.creatable) := by
      intro x hx
      obtain ⟨y, hy, rfl⟩ := Option.mem_map.1 hx
      exact h y hy
    obtain ⟨bytes, hwrite, hreads⟩ := L.creatable.back m _ hkept
    refine ⟨bytes, hwrite, fun m' => (hreads m').andThen ?_⟩
    have hcast : (p.map Of.creatable).bind (cast k) = p := by
      cases p with
      | none => rfl
      | some x => exact cast_creatable L x
    rw [hcast]
    exact .pure p
  came m := by
    refine (L.creatable.came m).bind fun obj hobj => .pure fun x hx => ?_
    obtain ⟨y, hy, hcast⟩ := Option.bind_eq_some_iff.1 hx
    rw [creatable_cast hcast]
    exact hobj y hy

end Level

end Dirtsand.MOUL
