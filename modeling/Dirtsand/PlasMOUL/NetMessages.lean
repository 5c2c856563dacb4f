import Dirtsand.PlasMOUL.Avatar

/-!
# Net messages

The classes derived from `MOUL::NetMessage` (PlasMOUL/NetMessages), which all read and
write `netMessage` first, and `LinkingMgrMsg`, which has a `CreatableList`.

A `NetMsgGameMessage` has a message in a stream of its own.  What is left in that
stream behind the message is not looked at.
-/

namespace Dirtsand.MOUL

open Lib (Codec)
open Lib.Codec (except listAfter when within)
open Lib.Reader (Reads Yields)
open Streams
open Strings

structure NetMessage where
  contentFlags : UInt32
  /-- `m_protocolVerMaj` and `m_protocolVerMin`. -/
  protocolVer : UInt8 × UInt8
  timestamp : UnifiedTime
  context : UInt32
  transId : UInt32
  playerId : UInt32
  acctId : Uuid

/-- `NETMSG_PROTOCOL_MAJ` and `NETMSG_PROTOCOL_MIN`. -/
def NetMessage.version : UInt8 × UInt8 := (12, 6)

abbrev netMessage : Field NetMessage :=
  (u32.dep fun flags =>
    (when (flags &&& 0x10000 ≠ 0) NetMessage.version
      ((u8.seq u8).check (fun v => v = NetMessage.version) .malformedData)).seq <|
    (when (flags &&& 0x1 ≠ 0) {} time).seq <|
    (when (flags &&& 0x80 ≠ 0) 0 u32).seq <|
    (when (flags &&& 0x200 ≠ 0) 0 u32).seq <|
    (when (flags &&& 0x1000 ≠ 0) 0 u32).seq
    (when (flags &&& 0x4000 ≠ 0) Uuid.null uuid)).iso
  ⟨fun (flags, version, timestamp, context, transId, playerId, acctId) =>
      ⟨flags, version, timestamp, context, transId, playerId, acctId⟩,
    fun m => (m.contentFlags, m.protocolVer, m.timestamp, m.context, m.transId, m.playerId,
      m.acctId), fun _ => rfl, fun _ => rfl⟩

/-! ## Messages about rooms, members and groups -/

/-- `m_rooms`: locations and names. -/
abbrev NetMsgRoomsList := List (Location × String)

abbrev netMsgRoomsList (D : Decoders) : Field NetMsgRoomsList :=
  Codec.list (length 4) (location.seq (pstring D))

/-- Behind `NetMsgRoomsList`: `m_pagingFlags`. -/
abbrev NetMsgPagingRoom := NetMsgRoomsList × UInt8

abbrev netMsgPagingRoom (D : Decoders) : Field NetMsgPagingRoom := (netMsgRoomsList D).seq u8

/-- `m_groups`: the location and the flags of `m_group`, and `m_own`. -/
abbrev NetMsgGroupOwner := List (Location × UInt8 × Bool)

abbrev netMsgGroupOwner : Field NetMsgGroupOwner :=
  Codec.list (length 4) (location.seq <| u8.seq bool)

/-- `m_numStates`. -/
abbrev NetMsgInitialAgeStateSent := UInt32

abbrev netMsgInitialAgeStateSent : Field NetMsgInitialAgeStateSent := u32

/-- `m_flags`, `m_client`, `m_avatarKey`. -/
abbrev NetMsgMemberInfo := UInt32 × ClientGuid × Uoid

abbrev netMsgMemberInfo (D : Decoders) : Field NetMsgMemberInfo :=
  u32.seq <| (clientGuid D).seq uoid

/-- `m_members`. -/
abbrev NetMsgMembersList := List NetMsgMemberInfo

abbrev netMsgMembersList (D : Decoders) : Field NetMsgMembersList :=
  Codec.list (length 2) (netMsgMemberInfo D)

/-- `m_member`, `m_addMember`. -/
abbrev NetMsgMemberUpdate := NetMsgMemberInfo × Bool

abbrev netMsgMemberUpdate (D : Decoders) : Field NetMsgMemberUpdate :=
  (netMsgMemberInfo D).seq bool

/-- `m_unload`, `m_uoid`. -/
abbrev NetMsgPlayerPage := Bool × Uoid

abbrev netMsgPlayerPage : Field NetMsgPlayerPage := bool.seq uoid

/-- `m_regionsICareAbout`, `m_regionsIAmIn`. -/
abbrev NetMsgRelevanceRegions := BitVector × BitVector

abbrev netMsgRelevanceRegions : Field NetMsgRelevanceRegions := bits.seq bits

/-- `m_flags`, `m_frames`, `m_data`, `m_receivers`. -/
abbrev NetMsgVoice := UInt8 × UInt8 × List UInt8 × List UInt32

abbrev netMsgVoice : Field NetMsgVoice :=
  u8.seq <| u8.seq <| data.seq <| Codec.list (length 1) u32

/-! ## Messages about objects -/

section

variable (D : Decoders) (Z : Zlib)

/-- `m_stateName`, `m_serverMayDelete`, `m_vars`. -/
abbrev SharedState := String × Bool × List (String × Generic)

abbrev sharedState : Field SharedState :=
  (pstringUtf8 D).seq <| listAfter (length 4) bool <| (utf8 D).seq (genericType D)

/-- `m_object`, `m_compression`, the state, and `m_lockRequest`. -/
abbrev NetMsgSharedState := Uoid × (UInt8 × SharedState) × UInt8

abbrev netMsgSharedState : Field NetMsgSharedState :=
  uoid.seq <| (within (stream Z) (sharedState D)).seq u8

/-- `m_object`, `m_compression` and `m_sdlBlob`, `m_isInitial`, `m_persistOnServer`,
`m_isAvatar`. -/
abbrev NetMsgSDLState := Uoid × (UInt8 × List UInt8) × Bool × Bool × Bool

abbrev netMsgSDLState : Field NetMsgSDLState :=
  uoid.seq <| (stream Z).seq <| bool.seq <| bool.seq bool

/-! ## Messages with game messages in them -/

variable (L : Level)

structure NetMsgGameMessage where
  /-- `m_compression` and `m_message`. -/
  packed : UInt8 × Option (L.Of .message)
  deliveryTime : UnifiedTime

variable {L} in
def NetMsgGameMessage.message (m : NetMsgGameMessage L) : Option (L.Of .message) := m.packed.2

/-- A time that is not written where it is null. -/
abbrev timeBehind : Field UnifiedTime :=
  except bool {} (fun t => decide (t = {})) (fun _ => decide_eq_true_iff) time

abbrev netMsgGameMessage : Field (NetMsgGameMessage L) :=
  ((within (stream Z) (L.pointer .message)).seq timeBehind).iso
  ⟨fun (packed, time) => ⟨packed, time⟩, fun m => (m.packed, m.deliveryTime),
    fun _ => rfl, fun _ => rfl⟩

structure NetMsgGameMessageDirected extends NetMsgGameMessage L where
  receivers : List UInt32

abbrev netMsgGameMessageDirected : Field (NetMsgGameMessageDirected L) :=
  ((netMsgGameMessage Z L).seq <| Codec.list (length 1) u32).iso
  ⟨fun (message, receivers) => ⟨message, receivers⟩,
    fun m => (m.toNetMsgGameMessage, m.receivers), fun _ => rfl, fun _ => rfl⟩

structure NetMsgLoadClone extends NetMsgGameMessage L where
  object : Uoid
  isPlayer : Bool
  isLoading : Bool
  isInitialState : Bool

abbrev netMsgLoadClone : Field (NetMsgLoadClone L) :=
  ((netMsgGameMessage Z L).seq <| uoid.seq <| bool.seq <| bool.seq bool).iso
  ⟨fun (message, object, player, loading, initial) => ⟨message, object, player, loading, initial⟩,
    fun m => (m.toNetMsgGameMessage, m.object, m.isPlayer, m.isLoading, m.isInitialState),
    fun _ => rfl, fun _ => rfl⟩

/-! ## Lists of creatables -/

/-- What a `CreatableList` calls: `Factory::Create` and `read` of the objects that are read with one
memory, and `write` of those that are written with another. -/
def creatables (m m' : Memory) : SDL.Creatables L.Creatable where
  type x := x.1.id
  create type := match Class.ofId type with
    | none => .error .factory
    | some c => .ok do
      let obj ← (L.codec c).read m
      pure ⟨c, obj⟩
  write x := ((L.codec x.1).write m' x.2).toOption.getD []

variable {L} in
/-- What is read of a class is what the class says. -/
theorem yields_create {m m' : Memory} {type : UInt16} {r : Read L.Creatable}
    (h : (creatables L m m').create type = .ok r) : Yields r L.Came := by
  change (match Class.ofId type with
    | none => Except.error StreamError.factory
    | some c => .ok do
      let obj ← (L.codec c).read m
      pure (⟨c, obj⟩ : L.Creatable)) = .ok r at h
  cases hclass : Class.ofId type with
  | none =>
    rw [hclass] at h
    cases h
  | some c =>
    rw [hclass] at h
    rw [← Except.ok.inj h]
    exact ((L.codec c).came m).bind fun obj hobj => .pure hobj

/-- Those that one memory is enough for. -/
abbrev creatablesIn (m : Memory) : SDL.Creatables L.Creatable := creatables L m m

variable {L} in
theorem creatables_kept {x : L.Creatable} (h : L.Kept x) :
    CreatableList.Kept (creatablesIn L) x := by
  intro m m'
  obtain ⟨bytes, hwrite, hreads⟩ := (L.codec x.1).back m x.2 h
  refine ⟨x.1.id_ne_null, do let obj ← (L.codec x.1).read m'; pure ⟨x.1, obj⟩, ?_, ?_⟩
  · show (match Class.ofId x.1.id with | none => _ | some c => _) = _
    rw [Class.ofId_id]
  · show Reads _ (((L.codec x.1).write m x.2).toOption.getD []) x
    rw [hwrite]
    exact (hreads m').andThen (.pure x)

/-- `CreatableList::read`. -/
def readList (m : Memory) : Read (CreatableList L.Creatable) := fun bytes => (do
  match ← CreatableList.read (creatables L m m) Z (m.list bytes) with
  | some l => pure l
  | none => Lib.Reader.fail .crash) bytes

/-- `CreatableList::write`, which first writes all items. -/
def writeList (m : Memory) (l : CreatableList L.Creatable) : Except StreamError (List UInt8) :=
  match Codec.writeAll (fun p => (L.codec p.2.1).write m p.2.2) l.items.entries with
  | .error e => .error e
  | .ok _ => match CreatableList.write (creatables L m m) Z m.zBufSz l with
    | some bytes => .ok bytes
    | none => .error .crash

/-- A list that comes back: one that is not compressed. -/
structure Loose (l : CreatableList L.Creatable) : Prop where
  items : ∀ p ∈ l.items.entries, L.Kept p.2
  plain : ∀ m, ¬ CreatableList.Compresses (creatables L m m) l
  count : l.items.entries.length < 2 ^ 16
  short : ∀ m, (CreatableList.writeRam (creatables L m m) l.items).length < 2 ^ 32
  flags : l.flags &&& ~~~CreatableList.compressed = l.flags

/-- What is so of every list that is read. -/
structure CameList (l : CreatableList L.Creatable) : Prop where
  items : ∀ p ∈ l.items.entries, L.Came p.2
  count : l.items.entries.length < 2 ^ 16
  flags : l.flags &&& ~~~CreatableList.compressed = l.flags

variable {L}

theorem mem_set {ν : Type} {m : Lib.SortedMap UInt16.toNat ν} {k : UInt16} {v : ν} {q : UInt16 × ν}
    (h : q ∈ (m.set k v).entries) : q.2 = v ∨ ∃ p ∈ m.entries, q.2 = p.2 := by
  change q ∈ Lib.SortedMap.setIn UInt16.toNat k v m.entries at h
  generalize m.entries = entries at h
  induction entries with
  | nil => exact .inl (congrArg Prod.snd (List.mem_singleton.1 h))
  | cons p entries ih =>
    rw [Lib.SortedMap.setIn] at h
    split at h
    · obtain rfl | hmem := List.mem_cons.1 h
      · exact .inl rfl
      · exact .inr ⟨q, hmem, rfl⟩
    · split at h
      · obtain rfl | hmem := List.mem_cons.1 h
        · exact .inl rfl
        · exact .inr ⟨q, List.mem_cons_of_mem p hmem, rfl⟩
      · obtain rfl | hmem := List.mem_cons.1 h
        · exact .inr ⟨q, List.mem_cons_self, rfl⟩
        · obtain hv | ⟨p', hp', heq⟩ := ih hmem
          · exact .inl hv
          · exact .inr ⟨p', List.mem_cons_of_mem p hp', heq⟩

theorem yields_items (m : Memory) (n : Nat) (items : Lib.SortedMap UInt16.toNat L.Creatable)
    (h : ∀ p ∈ items.entries, L.Came p.2) :
    Yields (CreatableList.readItems (creatables L m m) n items) fun all =>
      ∀ p ∈ all.entries, L.Came p.2 := by
  induction n generalizing items with
  | zero => exact .pure h
  | succ n ih =>
    have hcreatable : ∀ type, Yields (CreatableList.readCreatable (creatables L m m) type) L.Came := by
      intro type
      rw [CreatableList.readCreatable]
      split
      · exact .fail
      · exact (Yields.ofExcept fun r hr => yields_create hr).bind fun r hr => hr
    refine (Yields.any _).bind fun id _ => (Yields.any _).bind fun type _ =>
      (hcreatable type).bind fun cre hcre => ih _ fun p hp => ?_
    obtain hv | ⟨q, hq, hv⟩ := mem_set hp
    · rw [hv]
      exact hcre
    · rw [hv]
      exact h q hq

theorem came_listIn (m : Memory) {buf : List UInt8}
    {items : Lib.SortedMap UInt16.toNat L.Creatable}
    (h : CreatableList.listIn (creatables L m m) buf = .ok items) :
    ∀ p ∈ items.entries, L.Came p.2 := by
  have hyields : Yields (CreatableList.readRam (creatables L m m)) fun items =>
      ∀ p ∈ items.entries, L.Came p.2 :=
    (Yields.any _).bind fun numItems _ => yields_items m _ _ nofun
  cases hram : CreatableList.readRam (creatables L m m) buf with
  | error e =>
    rw [CreatableList.listIn, hram] at h
    cases h
  | ok r =>
    rw [CreatableList.listIn, hram] at h
    obtain rfl : r.1 = items := Except.ok.inj h
    exact hyields buf r.1 r.2 hram

theorem clear_clear (flags : UInt8) :
    flags &&& ~~~CreatableList.compressed &&& ~~~CreatableList.compressed =
      flags &&& ~~~CreatableList.compressed := by
  rw [UInt8.and_assoc, UInt8.and_self]

theorem clear_of_not : ∀ flags : UInt8, ¬ flags &&& CreatableList.compressed ≠ 0 →
    flags &&& ~~~CreatableList.compressed = flags := by
  refine Streams.forall_byte ?_
  decide +kernel

theorem yields_list (m : Memory) (memory : CreatableList.Memory) :
    Yields (CreatableList.read (creatables L m m) Z memory) fun r => ∀ l, r = some l →
      CameList L l := by
  have hparse : ∀ flags buf, flags &&& ~~~CreatableList.compressed = flags →
      Yields (CreatableList.parse (creatables L m m) flags buf) fun r => ∀ l, r = some l →
        CameList L l := by
    intro flags buf hflags
    have hlist : Yields (Lib.Reader.ofExcept (CreatableList.listIn (creatables L m m) buf))
        fun items => (∀ p ∈ items.entries, L.Came p.2) ∧ items.entries.length < 2 ^ 16 :=
      .ofExcept fun items h => ⟨came_listIn m h, CreatableList.length_listIn h⟩
    refine hlist.bind fun items hitems => .pure fun l hl => ?_
    obtain rfl := Option.some.inj hl
    exact ⟨hitems.1, hitems.2, hflags⟩
  refine (Yields.any CreatableList.readHeader).bind fun header _ => ?_
  obtain ⟨flags, bufSz⟩ := header
  show Yields (CreatableList.readBody (creatables L m m) Z memory flags bufSz) _
  rw [CreatableList.readBody]
  split
  · refine (Yields.any _).bind fun zBufSz _ => (Yields.any _).bind fun zBuf _ => ?_
    split
    · refine .pure fun l hl => ?_
      cases hl
    · cases Z.uncompress memory.zLen.toNat zBuf with
      | none => exact .fail
      | some buf =>
        show Yields (if buf.length ≠ bufSz.toNat then _ else _) _
        split
        · exact .fail
        · exact hparse _ _ (clear_clear flags)
  · rename_i hplain
    exact (Yields.any _).bind fun buf _ => hparse _ _ (clear_of_not flags hplain)

variable (L)

theorem writeAll_ok {ν : Type} {w : ν → Except StreamError (List UInt8)} {vs : List ν}
    (h : ∀ v ∈ vs, ∃ bytes, w v = .ok bytes) : ∃ bytes, Codec.writeAll w vs = .ok bytes := by
  induction vs with
  | nil => exact ⟨[], rfl⟩
  | cons v vs ih =>
    obtain ⟨bytes, hv⟩ := h v List.mem_cons_self
    obtain ⟨bytes', hvs⟩ := ih fun u hu => h u (List.mem_cons_of_mem v hu)
    refine ⟨bytes ++ bytes', ?_⟩
    rw [Codec.writeAll, hv, hvs]
    rfl

def creatableList : Field (CreatableList L.Creatable) where
  read := readList Z L
  write := writeList Z L
  Kept := Loose L
  Came := CameList L
  back m l h := by
    obtain ⟨_, hitems⟩ : ∃ bytes, Codec.writeAll (fun p : UInt16 × L.Creatable =>
        (L.codec p.2.1).write m p.2.2) l.items.entries = .ok bytes := by
      refine writeAll_ok fun p hp => ?_
      obtain ⟨bytes, hwrite, -⟩ := (L.codec p.2.1).back m p.2.2 (h.items p hp)
      exact ⟨bytes, hwrite⟩
    have htrip : CreatableList.RoundTrips (creatablesIn L) Z l :=
      CreatableList.roundTrips (fun p hp => creatables_kept (h.items p hp)) h.plain h.count h.short
    obtain ⟨out, hout, hreads⟩ := htrip m m.zBufSz
    refine ⟨out, ?_, fun m' rest => ?_⟩
    · rw [writeList, hitems, hout]
    · have hread := hreads m' (m'.list (out ++ rest)) rest
      rw [h.flags] at hread
      exact Lib.Reader.bind_eq_ok.2 ⟨_, _, hread, rfl⟩
  came m := by
    intro bytes l rest h
    obtain ⟨r, mid, hr, hx⟩ := Lib.Reader.bind_eq_ok.1 h
    cases r with
    | none => cases hx
    | some l' =>
      cases hx
      exact yields_list Z m _ bytes _ _ hr l rfl

/-- `m_contentFlags`, `m_cmd`, `m_args`. -/
abbrev LinkingMgrMsg := BitVector × UInt8 × CreatableList L.Creatable

abbrev linkingMgrMsg : Field (LinkingMgrMsg L) :=
  flagBits.dep fun flags =>
    (when (flags.get 0 = some true) 0 u8).seq
    (when (flags.get 1 = some true) ⟨CreatableList.wantCompression, .empty⟩ (creatableList Z L))

end

end Dirtsand.MOUL
