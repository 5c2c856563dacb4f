import Dirtsand.PlasMOUL.NetMessages

/-!
# All classes

What every class reads and writes, over the level below, and `makeSafeForNet`.  `level n`
has the objects that are read with room for `n` calls of `read` on the stack; with more
inside of each other the process ends.

* `Class.codec` — what a class is derived from, and then its own members.
* `Class.makeSafe` — `makeSafeForNet`, which asks the objects that a message has pointers
  to.
* `regions_undetermined` — a list of these classes that is not read in one way.
-/

namespace Dirtsand.MOUL

open Lib (Codec Determined Outcome SortedMap)
open Strings

/-! ## What a class is derived from -/

@[reducible] def Base.Val : Base → Type
  | message => Message
  | netMessage => NetMessage
  | avTask | armatureBrain | creatable => Unit

def Base.codec : (b : Base) → Field b.Val
  | message => MOUL.message
  | netMessage => MOUL.netMessage
  | armatureBrain => MOUL.armatureBrain
  | avTask | creatable => .empty

namespace Class

/-! ## Members -/

/-- The members of a class, behind those of its base. -/
@[reducible] def Own (L : Level) : Class → Type
  | coopCoordinator => CoopCoordinator L
  | animCmdMsg => AnimCmdMsg L
  | inputEventMsg => InputEventMsg
  | controlEventMsg => ControlEventMsg
  | netMsgPagingRoom => NetMsgPagingRoom
  | loadCloneMsg => LoadCloneMsg L
  | enableMsg => EnableMsg
  | warpMsg => WarpMsg
  | netMsgGroupOwner => NetMsgGroupOwner
  | netMsgGameStateRequest => NetMsgRoomsList
  | netMsgGameMessage => NetMsgGameMessage L
  | serverReplyMsg => ServerReplyMsg
  | netMsgVoice => NetMsgVoice
  | netMsgTestAndSet => NetMsgSharedState
  | messageWithCallbacks => MessageWithCallbacks L
  | avTaskMsg => AvTaskMsg L
  | avSeekMsg => AvSeekMsg L
  | avOneShotMsg => AvOneShotMsg L
  | netMsgMembersList => NetMsgMembersList
  | netMsgMemberUpdate => NetMsgMemberUpdate
  | netMsgInitialAgeStateSent => NetMsgInitialAgeStateSent
  | avTaskSeekDoneMsg => AvTaskSeekDoneMsg
  | ageLinkStruct => AgeLinkStruct
  | netMsgSDLState => NetMsgSDLState
  | linkToAgeMsg => LinkToAgeMsg
  | notifyMsg => NotifyMsg
  | linkEffectsTriggerMsg => LinkEffectsTriggerMsg
  | netMsgSDLStateBCast => NetMsgSDLState
  | netMsgGameMessageDirected => NetMsgGameMessageDirected L
  | particleTransferMsg => ParticleTransferMsg
  | particleKillMsg => ParticleKillMsg
  | avatarInputStateMsg => AvatarInputStateMsg
  | ageInfoStruct => AgeInfoStruct
  | linkingMgrMsg => LinkingMgrMsg L
  | clothingMsg => ClothingMsg
  | avBrainHuman => AvBrainHuman
  | avBrainGeneric => AvBrainGeneric L
  | inputIfaceMgrMsg => InputIfaceMgrMsg
  | kiMessage => KIMessage
  | avPushBrainMsg => AvPushBrainMsg L
  | avPopBrainMsg => AvTaskMsg L
  | avAnimTask => AvAnimTask
  | avTaskBrain => AvTaskBrain L
  | animStage => AnimStage
  | genericValue => Generic
  | avBrainGenericMsg => AvBrainGenericMsg
  | multistageModMsg => MultistageModMsg
  | bulletMsg => BulletMsg
  | netMsgRelevanceRegions => NetMsgRelevanceRegions
  | loadAvatarMsg => LoadAvatarMsg L
  | netMsgLoadClone => NetMsgLoadClone L
  | netMsgPlayerPage => NetMsgPlayerPage
  | subWorldMsg => SubWorldMsg
  | climbMsg => ClimbMsg
  | avCoopMsg => AvCoopMsg L
  | avBrainCoop => AvBrainCoop L
  | setNetGroupIdMsg => SetNetGroupIdMsg
  | backdoorMsg => BackdoorMsg
  | avOneShotLinkTask => AvOneShotLinkTask
  | pseudoLinkEffectMsg => PseudoLinkEffectMsg
  -- these have no members and nothing to read
  | netMsgMembersListReq | avBrainCritter | avBrainDrive | avSeekTask | avOneShotTask
  | avTaskSeek | avBrainSwim | avBrainClimb | avBrainRideAnimatedPhysical => Unit

variable (D : Decoders) (Z : Zlib) (L : Level)

def own : (c : Class) → Field (c.Own L)
  | coopCoordinator => MOUL.coopCoordinator L
  | animCmdMsg => MOUL.animCmdMsg L
  | inputEventMsg => MOUL.inputEventMsg
  | controlEventMsg => MOUL.controlEventMsg D
  | netMsgPagingRoom => MOUL.netMsgPagingRoom D
  | loadCloneMsg => MOUL.loadCloneMsg L
  | enableMsg => MOUL.enableMsg
  | warpMsg => MOUL.warpMsg
  | netMsgGroupOwner => MOUL.netMsgGroupOwner
  | netMsgGameStateRequest => netMsgRoomsList D
  | netMsgGameMessage => MOUL.netMsgGameMessage Z L
  | serverReplyMsg => MOUL.serverReplyMsg
  | netMsgVoice => MOUL.netMsgVoice
  | netMsgTestAndSet => netMsgSharedState D Z
  | messageWithCallbacks => MOUL.messageWithCallbacks L
  | avTaskMsg => MOUL.avTaskMsg L
  | avSeekMsg => MOUL.avSeekMsg L
  | avOneShotMsg => MOUL.avOneShotMsg L
  | netMsgMembersList => MOUL.netMsgMembersList D
  | netMsgMemberUpdate => MOUL.netMsgMemberUpdate D
  | netMsgInitialAgeStateSent => MOUL.netMsgInitialAgeStateSent
  | avTaskSeekDoneMsg => MOUL.avTaskSeekDoneMsg
  | ageLinkStruct => MOUL.ageLinkStruct D
  | netMsgSDLState => MOUL.netMsgSDLState Z
  | linkToAgeMsg => MOUL.linkToAgeMsg D
  | notifyMsg => MOUL.notifyMsg D
  | linkEffectsTriggerMsg => MOUL.linkEffectsTriggerMsg
  | netMsgSDLStateBCast => MOUL.netMsgSDLState Z
  | netMsgGameMessageDirected => MOUL.netMsgGameMessageDirected Z L
  | particleTransferMsg => MOUL.particleTransferMsg
  | particleKillMsg => MOUL.particleKillMsg
  | avatarInputStateMsg => MOUL.avatarInputStateMsg
  | ageInfoStruct => MOUL.ageInfoStruct D
  | linkingMgrMsg => MOUL.linkingMgrMsg Z L
  | clothingMsg => MOUL.clothingMsg
  | avBrainHuman => MOUL.avBrainHuman
  | avBrainGeneric => MOUL.avBrainGeneric L
  | inputIfaceMgrMsg => MOUL.inputIfaceMgrMsg
  | kiMessage => MOUL.kiMessage D
  | avPushBrainMsg => MOUL.avPushBrainMsg L
  | avPopBrainMsg => MOUL.avTaskMsg L
  | avAnimTask => MOUL.avAnimTask
  | avTaskBrain => MOUL.avTaskBrain L
  | animStage => MOUL.animStage
  | genericValue => MOUL.genericValue
  | avBrainGenericMsg => MOUL.avBrainGenericMsg
  | multistageModMsg => MOUL.multistageModMsg
  | bulletMsg => MOUL.bulletMsg
  | netMsgRelevanceRegions => MOUL.netMsgRelevanceRegions
  | loadAvatarMsg => MOUL.loadAvatarMsg L
  | netMsgLoadClone => MOUL.netMsgLoadClone Z L
  | netMsgPlayerPage => MOUL.netMsgPlayerPage
  | subWorldMsg => MOUL.subWorldMsg
  | climbMsg => MOUL.climbMsg
  | avCoopMsg => MOUL.avCoopMsg L
  | avBrainCoop => MOUL.avBrainCoop L
  | setNetGroupIdMsg => MOUL.setNetGroupIdMsg
  | backdoorMsg => MOUL.backdoorMsg
  | avOneShotLinkTask => MOUL.avOneShotLinkTask
  | pseudoLinkEffectMsg => MOUL.pseudoLinkEffectMsg
  | netMsgMembersListReq | avBrainCritter | avBrainDrive | avSeekTask | avOneShotTask
  | avTaskSeek | avBrainSwim | avBrainClimb | avBrainRideAnimatedPhysical => .empty

/-- An object of the class. -/
abbrev Val (c : Class) := c.base.Val × c.Own L

def codec (c : Class) : Field (c.Val L) := c.base.codec.seq (c.own D Z L)

end Class

/-! ## makeSafeForNet -/

section

variable (L : Level)

/-- `p == nullptr || p->makeSafeForNet()`. -/
def Level.safePointer {k : Kind} : Option (L.Of k) → Except Refusal (Option (L.Of k))
  | none => .ok none
  | some x => do
    let obj ← L.makeSafeForNet x.1.1 x.2
    pure (some ⟨x.1, obj⟩)

/-- `MessageWithCallbacks::makeSafeForNet`: the callbacks are asked one after the other, also those
that are null. -/
def MessageWithCallbacks.makeSafe : MessageWithCallbacks L →
    Except Refusal (MessageWithCallbacks L)
  | [] => .ok []
  | none :: _ => .error .crash
  | some x :: callbacks => do
    let obj ← L.makeSafeForNet x.1.1 x.2
    let callbacks ← MessageWithCallbacks.makeSafe callbacks
    pure (some ⟨x.1, obj⟩ :: callbacks)

variable {L}

def KIMessage.makeSafe (m : KIMessage) : Except Refusal KIMessage :=
  if m.command ≠ KIMessage.chatMessage then .error .notSafe
  else .ok { m with flags := m.flags &&& ~~~KIMessage.adminMsg }

def LoadCloneMsg.makeSafe (m : LoadCloneMsg L) : Except Refusal (LoadCloneMsg L) := do
  let triggerMsg ← L.safePointer m.triggerMsg
  pure { m with triggerMsg }

def LoadAvatarMsg.makeSafe (m : LoadAvatarMsg L) : Except Refusal (LoadAvatarMsg L) := do
  let clone ← m.toLoadCloneMsg.makeSafe
  let initTask ← L.safePointer m.initTask
  pure { m with toLoadCloneMsg := clone, initTask }

def AvPushBrainMsg.makeSafe (m : AvPushBrainMsg L) : Except Refusal (AvPushBrainMsg L) := do
  let task ← L.safePointer m.task
  let brain ← L.safePointer m.brain
  pure ⟨task, brain⟩

def AvCoopMsg.makeSafe (m : AvCoopMsg L) : Except Refusal (AvCoopMsg L) := do
  let coordinator ← L.safePointer m.coordinator
  pure { m with coordinator }

def AvBrainGeneric.makeSafe (b : AvBrainGeneric L) : Except Refusal (AvBrainGeneric L) :=
  if b.messages.1.isNone = true ∧ b.messages.2.isNone = true then .ok b else .error .notSafe

def CoopCoordinator.makeSafe (c : CoopCoordinator L) : Except Refusal (CoopCoordinator L) := do
  let hostBrain ← L.safePointer c.hostBrain
  let guestBrain ← L.safePointer c.guestBrain
  let acceptMsg ← L.safePointer c.acceptMsg
  pure { c with hostBrain, guestBrain, acceptMsg }

/-- `makeSafeForNet` of each class, or of the class that it has it of. -/
def Class.makeSafe : (c : Class) → c.Own L → Except Refusal (c.Own L)
  | backdoorMsg, _ | inputEventMsg, _ | controlEventMsg, _ | linkingMgrMsg, _ | warpMsg, _ =>
    .error .notSafe
  | kiMessage, m => KIMessage.makeSafe m
  | messageWithCallbacks, callbacks => MessageWithCallbacks.makeSafe L callbacks
  | animCmdMsg, (callbacks, cmd) => do
    let callbacks ← MessageWithCallbacks.makeSafe L callbacks
    pure (callbacks, cmd)
  | loadCloneMsg, m => LoadCloneMsg.makeSafe m
  | loadAvatarMsg, m => LoadAvatarMsg.makeSafe m
  | avTaskMsg, task => L.safePointer task
  | avPopBrainMsg, task => L.safePointer task
  | avSeekMsg, (task, seek) => do
    let task ← L.safePointer task
    pure (task, seek)
  | avOneShotMsg, ((task, seek), oneShot) => do
    let task ← L.safePointer task
    pure ((task, seek), oneShot)
  | avPushBrainMsg, m => AvPushBrainMsg.makeSafe m
  | avCoopMsg, m => AvCoopMsg.makeSafe m
  | coopCoordinator, c => CoopCoordinator.makeSafe c
  | avTaskBrain, brain => L.safePointer brain
  | avBrainGeneric, b => AvBrainGeneric.makeSafe b
  | avBrainCoop, (b, coop) => do
    let b ← b.makeSafe
    pure (b, coop)
  | _, own => .ok own

end

/-! ## Levels -/

namespace Level

/-- No object is read: there is no room for the call. -/
def zero : Level where
  Obj _ := Empty
  codec _ :=
    { read := fun _ => Lib.Reader.fail .crash
      write := fun _ => Empty.elim
      Kept := fun _ => True
      Came := fun _ => True
      back := fun _ => Empty.rec
      came := fun _ => .fail }
  makeSafeForNet _ := Empty.elim

def next (D : Decoders) (Z : Zlib) (L : Level) : Level where
  Obj c := c.Val L
  codec c := c.codec D Z L
  makeSafeForNet c obj := do
    let own ← c.makeSafe obj.2
    pure (obj.1, own)

end Level

def level (D : Decoders) (Z : Zlib) : Nat → Level
  | 0 => .zero
  | n + 1 => .next D Z (level D Z n)

/-! ## Lists of the factory -/

/-- A list with a `NetMsgRelevanceRegions`, the last word of which is not there. -/
def regionsBytes : List UInt8 :=
  [0, 18, 0, 0, 0, 1, 0, 0, 0, 0xAC, 3, 0, 0, 0, 0, 0, 0, 0, 0, 1, 0, 0, 0]

/-- `m_regionsIAmIn` of the items. -/
def regionsIAmIn {D : Decoders} {Z : Zlib}
    (items : SortedMap UInt16.toNat (level D Z 1).Creatable) : List BitVector :=
  items.entries.filterMap fun p => match p.2 with
    | ⟨.netMsgRelevanceRegions, obj⟩ => some obj.2.2
    | _ => none

/-- **What a list of the factory is read as may depend on the memory**, although all bytes of it are
there: `BitVector::read` does not ask whether it gets the words. -/
theorem regions_undetermined (D : Decoders) (Z : Zlib) :
    ¬Determined fun p : Memory × CreatableList.Memory =>
      Streams.outcome (CreatableList.read (creatablesIn (level D Z 1) p.1) Z p.2) regionsBytes := by
  have hheader : CreatableList.readHeader regionsBytes = .ok ((0, 18), regionsBytes.drop 5) := rfl
  rw [CreatableList.determined_iff, CreatableList.settled_of_plain hheader rfl (by decide)]
  intro h
  have hsame := h.same default { (default : Memory) with words := fun _ _ => 1 }
  have hwords := congrArg (Outcome.map regionsIAmIn) hsame
  have hread (m : Memory) : (Streams.ended (CreatableList.listIn (creatablesIn (level D Z 1) m)
      ((regionsBytes.drop 5).take (18 : UInt32).toNat))).map regionsIAmIn =
      .value [⟨[BitVector.mixWord 0 0 (m.words [1, 0, 0, 0] 0)], 1⟩] := rfl
  rw [hread, hread] at hwords
  cases hwords

end Dirtsand.MOUL
