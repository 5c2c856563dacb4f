import Dirtsand.GameServ.System
import Dirtsand.PlasMOUL.Key
import Dirtsand.Types.Values
import Mathlib.Data.List.Perm.Subperm

/-!
# Who is told of whom

`sendMembers` is `dm_send_members` (GameServ/GameHost.cpp): a client that asks
for the members of its host gets a `NetMsgMembersList` with the other clients,
the clones that the host has stored, and a `NetMsgLoadClone` for the avatar of
each other client.

Both loops mean to leave out the clients without an avatar.  They test the key of
the client that asks, not of the client they are at.

* `membersExact_iff` — the client is told of the other clients with an avatar, and of
  no others, exactly where these are the clients with another player id, or where
  there are none of these and it has no avatar itself.
* `sendMembers_clones` — the stored clones are sent one time each.
-/

namespace Dirtsand.MembersList

open GameServ (ConnId)
open MOUL (Uoid)

/-! ## Messages -/

/-- `MOUL::ClientGuid`, as far as the game server fills it. -/
structure ClientGuid where
  flags : UInt16 := 0
  playerId : UInt32 := 0
  playerName : String := ""
  ccrLevel : UInt8 := 0
deriving DecidableEq

structure NetMsgMemberInfo where
  flags : UInt32 := 0
  client : ClientGuid
  avatarKey : Uoid
deriving DecidableEq

structure NetMsgMembersList where
  contentFlags : UInt32
  timestamp : UnifiedTime
  playerId : UInt32
  members : List NetMsgMemberInfo
deriving DecidableEq

/-- The members that are read from the message: their number is written in 16 bits. -/
def NetMsgMembersList.received (m : NetMsgMembersList) : List NetMsgMemberInfo :=
  m.members.take (m.members.length % 2 ^ 16)

structure LoadAvatarMsg where
  bcastFlags : UInt32
  receivers : List Uoid
  requestorKey : Uoid
  userData : UInt32
  validMsg : Bool
  isLoading : Bool
  isPlayer : Bool
  cloneKey : Uoid
  originPlayerId : UInt32
deriving DecidableEq

/-- `NetMsgLoadClone`, over the kinds of messages in it. -/
structure NetMsgLoadClone (μ : Type) where
  contentFlags : UInt32
  timestamp : UnifiedTime
  message : μ
  object : Uoid := {}
  isPlayer : Bool := false
  isLoading : Bool := false
  isInitialState : Bool := false
deriving DecidableEq

/-- What is put on `m_broadcast`. -/
inductive Sent (μ : Type) where
  | members (m : NetMsgMembersList)
  | clone (m : NetMsgLoadClone μ)
  | avatar (m : NetMsgLoadClone LoadAvatarMsg)
deriving DecidableEq

/-- `NetMessage::e_HasTimeSent`. -/
def hasTimeSent : UInt32 := (1 : UInt32) <<< 0

/-- `NetMessage::e_HasPlayerID`. -/
def hasPlayerID : UInt32 := (1 : UInt32) <<< 12

/-- `NetMessage::e_IsSystemMessage`. -/
def isSystemMessage : UInt32 := (1 : UInt32) <<< 17

/-- `NetMessage::e_NeedsReliableSend`. -/
def needsReliableSend : UInt32 := (1 : UInt32) <<< 18

/-- `Message::e_NetPropagate`. -/
def netPropagate : UInt32 := (1 : UInt32) <<< 6

/-- `Message::e_LocalPropagate`. -/
def localPropagate : UInt32 := (1 : UInt32) <<< 11

/-- `Location::Virtual`. -/
def virtual : MOUL.Location := ⟨0, 0⟩

/-- `Key::AvatarMgrKey`. -/
def avatarMgrKey : Uoid := { location := virtual, type := 0x00F4, name := "kAvatarMgr_KEY" }

/-- `Key::NetClientMgrKey`. -/
def netClientMgrKey : Uoid := { location := virtual, type := 0x0052, name := "kNetClientMgr_KEY" }

/-! ## The host -/

/-- The fields of `GameClient_Private` that others are told. -/
structure GameClient where
  clientInfo : ClientGuid
  clientKey : Uoid := {}
deriving DecidableEq

/-- `m_clients` with what it points to, and the messages of `m_clones`, each in the order of
its map. -/
structure Host (μ : Type) where
  clients : List (UInt32 × ConnId)
  client : ConnId → GameClient
  clones : List (NetMsgLoadClone μ) := []
  keys_distinct : (clients.map Prod.fst).Nodup
  clients_distinct : (clients.map Prod.snd).Nodup

/-- `size() - 1` of a `size_t`. -/
def sizeMinusOne (n : Nat) : Nat := (n + (2 ^ 64 - 1)) % 2 ^ 64

/-- `vector::reserve` throws `std::length_error` above `max_size()`.  That depends on the
elements, and lies between the numbers of clients that there can be and this one. -/
def maxSize : Nat := 2 ^ 63 - 1

def memberInfo (c : GameClient) : NetMsgMemberInfo where
  client := c.clientInfo
  avatarKey := c.clientKey

/-- The `NetMsgLoadClone` that loads the avatar of a client. -/
def avatarClone (now : UnifiedTime) (c : GameClient) : NetMsgLoadClone LoadAvatarMsg where
  contentFlags := hasTimeSent ||| needsReliableSend
  timestamp := now
  isPlayer := true
  isLoading := true
  isInitialState := true
  message :=
    { bcastFlags := netPropagate ||| localPropagate
      receivers := [netClientMgrKey]
      requestorKey := avatarMgrKey
      userData := 0
      validMsg := true
      isLoading := true
      isPlayer := true
      cloneKey := c.clientKey
      originPlayerId := c.clientInfo.playerId }

section Host

variable {μ : Type} (host : Host μ)

def Host.members : List ConnId := host.clients.map Prod.snd

/-- The condition of both loops, at the client `c` of the map. -/
def Host.listed (client c : ConnId) : Bool :=
  (host.client c).clientInfo.playerId ≠ (host.client client).clientInfo.playerId &&
    !(host.client client).clientKey.isNull

/-- `dm_send_members` for `client`: what it is sent, or `none` where `reserve` throws.  The two
times are of the two messages that are made. -/
def sendMembers (now later : UnifiedTime) (client : ConnId) : Option (List (Sent μ)) :=
  if maxSize < sizeMinusOne host.clients.length then none else
  let listed := host.members.filter (host.listed client)
  some (
    .members
      { contentFlags := hasTimeSent ||| hasPlayerID ||| isSystemMessage ||| needsReliableSend
        timestamp := now
        playerId := (host.client client).clientInfo.playerId
        members := listed.map fun c => memberInfo (host.client c) } ::
    (host.clones.map .clone ++ listed.map fun c => .avatar (avatarClone later (host.client c))))

end Host

def Sent.entries {μ : Type} : Sent μ → List NetMsgMemberInfo
  | .members m => m.received
  | _ => []

/-- The entries of the member lists that were sent. -/
def toldMembers {μ : Type} (sent : List (Sent μ)) : List NetMsgMemberInfo :=
  sent.flatMap Sent.entries

def toldAvatars {μ : Type} (sent : List (Sent μ)) : List (NetMsgLoadClone LoadAvatarMsg) :=
  sent.filterMap fun
    | .avatar m => some m
    | _ => none

def toldClones {μ : Type} (sent : List (Sent μ)) : List (NetMsgLoadClone μ) :=
  sent.filterMap fun
    | .clone m => some m
    | _ => none

/-! ## What is sent -/

theorem length_le_of_distinct {keys : List UInt32} (h : keys.Nodup) : keys.length ≤ 2 ^ 32 := by
  have hnodup : (keys.map UInt32.toNat).Nodup := h.map fun a b hab => UInt32.toNat.inj hab
  have hsub : keys.map UInt32.toNat ⊆ List.range (2 ^ 32) := by
    intro n hn
    obtain ⟨k, -, rfl⟩ := List.mem_map.1 hn
    exact List.mem_range.2 k.toNat_lt
  have hle := (List.subperm_of_subset hnodup hsub).length_le
  rwa [List.length_map, List.length_range] at hle

section Host

variable {μ : Type} (host : Host μ)

/-- The size wraps for no clients, and for no other number of them. -/
theorem reserve_throws : maxSize < sizeMinusOne host.clients.length ↔ host.clients = [] := by
  have hle := length_le_of_distinct host.keys_distinct
  rw [List.length_map] at hle
  rw [← List.length_eq_zero_iff, maxSize, sizeMinusOne]
  omega

variable {host} {now later : UnifiedTime} {client : ConnId} {sent : List (Sent μ)}

theorem clients_of_sent (h : sendMembers host now later client = some sent) :
    host.clients ≠ [] := by
  intro hnil
  rw [sendMembers, if_pos ((reserve_throws host).2 hnil)] at h
  cases h

variable (host now later client) in
theorem exists_sent (h : host.clients ≠ []) :
    ∃ sent, sendMembers host now later client = some sent := by
  rw [sendMembers, if_neg fun hthrow => h ((reserve_throws host).1 hthrow)]
  exact ⟨_, rfl⟩

theorem filterMap_clone_avatar (clones : List (NetMsgLoadClone μ))
    (avatars : List (NetMsgLoadClone LoadAvatarMsg)) :
    toldAvatars (clones.map .clone ++ avatars.map .avatar : List (Sent μ)) = avatars ∧
      toldClones (clones.map .clone ++ avatars.map .avatar : List (Sent μ)) = clones ∧
      toldMembers (clones.map .clone ++ avatars.map .avatar : List (Sent μ)) = [] := by
  refine ⟨?_, ?_, ?_⟩
  · simp [toldAvatars, List.filterMap_append, List.filterMap_map]
  · simp [toldClones, List.filterMap_append, List.filterMap_map]
  · simp [toldMembers, Sent.entries, List.flatMap_append, List.flatMap_map]

/-- **What is in the messages.** -/
theorem sendMembers_told (h : sendMembers host now later client = some sent) :
    toldMembers sent = ((host.members.filter (host.listed client)).map
        fun c => memberInfo (host.client c)).take
          ((host.members.filter (host.listed client)).length % 2 ^ 16) ∧
      toldAvatars sent = (host.members.filter (host.listed client)).map
        (fun c => avatarClone later (host.client c)) ∧
      toldClones sent = host.clones := by
  rw [sendMembers, if_neg fun hthrow => clients_of_sent h ((reserve_throws host).1 hthrow)] at h
  obtain rfl := Option.some_inj.1 h
  obtain ⟨havatars, hclones, hmembers⟩ := filterMap_clone_avatar host.clones
    ((host.members.filter (host.listed client)).map fun c => avatarClone later (host.client c))
  rw [List.map_map] at havatars hclones hmembers
  refine ⟨?_, havatars, hclones⟩
  rw [toldMembers] at hmembers ⊢
  rw [List.flatMap_cons]
  refine (congrArg _ hmembers).trans ?_
  rw [List.append_nil, Sent.entries, NetMsgMembersList.received, List.length_map]

/-- **Every stored clone is sent one time.** -/
theorem sendMembers_clones (h : sendMembers host now later client = some sent) :
    toldClones sent = host.clones :=
  (sendMembers_told h).2.2

/-! ## Who is told of -/

variable (host) in
/-- The other clients in `m_clients` that have an avatar. -/
def Host.others (client : ConnId) : List ConnId :=
  host.members.filter fun c => c ≠ client && !(host.client c).clientKey.isNull

variable (host now later client) in
/-- The client is told of each of these one time, in the list and with an avatar, and of nobody
else. -/
def MembersExact : Prop :=
  ∃ sent, sendMembers host now later client = some sent ∧
    toldMembers sent = (host.others client).map (fun c => memberInfo (host.client c)) ∧
    toldAvatars sent = (host.others client).map fun c => avatarClone later (host.client c)

variable (host client) in
/-- Another client has an avatar if and only if the client has one and they have different player
ids. -/
def SameState : Prop :=
  ∀ c ∈ host.members, c ≠ client → ((host.client c).clientKey.isNull = false ↔
    (host.client client).clientKey.isNull = false ∧
      (host.client c).clientInfo.playerId ≠ (host.client client).clientInfo.playerId)

theorem filter_eq_filter {α : Type} {p q : α → Bool} {l : List α} :
    l.filter p = l.filter q ↔ ∀ x ∈ l, p x = q x := by
  refine ⟨fun h x hx => ?_, List.filter_congr⟩
  have hmem : x ∈ l.filter p ↔ x ∈ l.filter q := by rw [h]
  rw [List.mem_filter, List.mem_filter, and_iff_right hx, and_iff_right hx] at hmem
  exact Bool.eq_iff_iff.2 hmem

/-- The loops are at the right clients in this state, and in no other. -/
theorem sameState_iff (host : Host μ) (client : ConnId) :
    SameState host client ↔ host.members.filter (host.listed client) = host.others client := by
  rw [Host.others, filter_eq_filter]
  refine forall₂_congr fun c _ => ?_
  by_cases hc : c = client
  · subst hc
    simp [Host.listed]
  · refine Iff.trans ?_ Bool.eq_iff_iff.symm
    simp only [Host.listed, ne_eq, hc, not_false_eq_true, forall_const, decide_true, Bool.true_and,
      Bool.and_eq_true, decide_eq_true_eq, Bool.not_eq_true']
    rw [and_comm]
    exact iff_comm

/-- The keys of the avatars show that no client without one was told of. -/
theorem listed_eq_others
    (heq : (host.members.filter (host.listed client)).map
        (fun c => avatarClone later (host.client c)) =
      (host.others client).map fun c => avatarClone later (host.client c)) :
    host.members.filter (host.listed client) = host.others client := by
  have hkeys : ∀ c ∈ host.members.filter (host.listed client),
      (host.client c).clientKey.isNull = false := by
    intro c hc
    have hmem := List.mem_map_of_mem (f := fun c => avatarClone later (host.client c)) hc
    rw [heq] at hmem
    obtain ⟨d, hd, hdc⟩ := List.mem_map.1 hmem
    have hkey : (host.client d).clientKey = (host.client c).clientKey :=
      congrArg (fun m => m.message.cloneKey) hdc
    have hloaded := (List.mem_filter.1 hd).2
    rw [← hkey]
    simpa using (Bool.and_eq_true_iff.1 hloaded).2
  -- so what was told is a part of the others, and there are as many of them
  have hsub : host.members.filter (host.listed client) =
      (host.others client).filter (host.listed client) := by
    rw [Host.others, List.filter_filter]
    refine List.filter_congr fun c hc => ?_
    by_cases hl : host.listed client c = true
    · have hkey := hkeys c (List.mem_filter.2 ⟨hc, hl⟩)
      have hne : c ≠ client := by
        rintro rfl
        simp [Host.listed] at hl
      simp [hl, hkey, hne]
    · simp [hl]
  have hlen := congrArg List.length heq
  rw [List.length_map, List.length_map, hsub] at hlen
  rw [hsub]
  exact List.filter_sublist.eq_of_length hlen

/-- **Member lists are exact** where there is a client at all, the other clients are as the client
is, and their number can be sent. -/
theorem membersExact_iff (host : Host μ) (now later : UnifiedTime) (client : ConnId) :
    MembersExact host now later client ↔
      host.clients ≠ [] ∧ SameState host client ∧ (host.others client).length < 2 ^ 16 := by
  constructor
  · rintro ⟨sent, hsent, hmembers, havatars⟩
    obtain ⟨hm, ha, -⟩ := sendMembers_told hsent
    have heq := listed_eq_others (ha.symm.trans havatars)
    refine ⟨clients_of_sent hsent, (sameState_iff host client).2 heq, ?_⟩
    rw [heq] at hm
    have hlen := congrArg List.length (hm.symm.trans hmembers)
    rw [List.length_take, List.length_map] at hlen
    omega
  · rintro ⟨hclients, hsame, hlen⟩
    obtain ⟨sent, hsent⟩ := exists_sent host now later client hclients
    obtain ⟨hm, ha, -⟩ := sendMembers_told hsent
    rw [(sameState_iff host client).1 hsame] at hm ha
    refine ⟨sent, hsent, ?_, ha⟩
    rw [hm, Nat.mod_eq_of_lt hlen]
    exact List.take_of_length_le (by rw [List.length_map])

end Host

/-- A client with an avatar, and another one that has not loaded its own. -/
def halfLoaded : Host Unit where
  clients := [(7, 0), (8, 1)]
  client c :=
    if c = 0 then { clientInfo := { playerId := 7 }, clientKey := avatarMgrKey }
    else { clientInfo := { playerId := 8 } }
  keys_distinct := by decide
  clients_distinct := by decide

/-- The first client is told of the second, which has no avatar. -/
theorem halfLoaded_not_exact :
    ¬ ∀ (host : Host Unit) (now later : UnifiedTime) (client : ConnId),
      MembersExact host now later client := by
  intro h
  have hsame := ((membersExact_iff halfLoaded {} {} 0).1 (h _ _ _ _)).2.1
  have hone := hsame 1 (by decide) (by decide)
  exact absurd (hone.2 ⟨by decide, by decide⟩) (by decide)

end Dirtsand.MembersList
