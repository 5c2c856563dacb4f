import Dirtsand.Lib.Dict
import Dirtsand.PlasMOUL.Key
import Dirtsand.Types.Values

/-!
# Locks of a game host

A client asks for the lock of an object, or releases it, with a
`NetMsgTestAndSet` (`dm_test_and_set`, GameServ/GameHost.cpp).  `m_locks` has
the player id of each lock's holder under the key of its object.  When a client
leaves, `dm_game_disconnect` releases what is held under its player id.  Only
these two touch the locks, and the host's thread does one after the other.

* `heldBy_step` — who holds a lock holds it after a step, except a release of
  his or his disconnect.
* `lock_safe` — between an affirmed request for an object and the release of it
  or the disconnect of its holder no other request for it is affirmed; a release
  by somebody else changes nothing; a disconnect releases the locks of who
  leaves and no others.
-/

namespace Dirtsand.Locks

open MOUL (Uoid)

/-! ## Messages -/

structure NetMsgTestAndSet where
  object : Uoid
  lockRequest : UInt8
deriving DecidableEq

/-- `ServerReplyMsg::Type`. -/
inductive ReplyType where
  | invalid
  | deny
  | affirm
deriving DecidableEq

structure ServerReplyMsg where
  receivers : List Uoid := []
  bcastFlags : UInt32 := 0
  reply : ReplyType := .invalid
deriving DecidableEq

/-- The `NetMsgGameMessage` around a reply. -/
structure NetReply where
  contentFlags : UInt32
  timestamp : UnifiedTime
  message : ServerReplyMsg
deriving DecidableEq

/-- `Message::e_LocalPropagate`. -/
def localPropagate : UInt32 := (1 : UInt32) <<< 11

/-- `NetMessage::e_HasTimeSent`. -/
def hasTimeSent : UInt32 := (1 : UInt32) <<< 0

/-- `NetMessage::e_NeedsReliableSend`. -/
def needsReliableSend : UInt32 := (1 : UInt32) <<< 18

/-! ## The host -/

/-- `lockmap_t`. -/
abbrev LockMap := Lib.Dict Uoid.keyEq UInt32

def netReply (reply : ServerReplyMsg) (now : UnifiedTime) : NetReply where
  contentFlags := hasTimeSent ||| needsReliableSend
  timestamp := now
  message := reply

/-- `dm_test_and_set`, for a client with this player id: the locks after it, and what is sent to
the client. -/
def testAndSet (locks : LockMap) (playerId : UInt32) (msg : NetMsgTestAndSet) (now : UnifiedTime) :
    LockMap × Option NetReply :=
  let reply : ServerReplyMsg := { receivers := [msg.object], bcastFlags := localPropagate }
  if msg.lockRequest ≠ 0 then
    match locks.find msg.object with
    | none =>
      (locks.set msg.object playerId, some (netReply { reply with reply := .affirm } now))
    | some _ => (locks, some (netReply { reply with reply := .deny } now))
  else if locks.find msg.object = some playerId then (locks.erase msg.object, none)
  else (locks, none)

/-- The end of `dm_game_disconnect`: release any stale locks. -/
def releaseStale (locks : LockMap) (playerId : UInt32) : LockMap :=
  locks.removeIf (· = playerId)

/-- What the host does with the locks, for which client. -/
inductive Event (κ : Type) where
  | testAndSet (c : κ) (msg : NetMsgTestAndSet) (now : UnifiedTime)
  | disconnect (c : κ)

def Event.client {κ : Type} : Event κ → κ
  | .testAndSet c _ _ => c
  | .disconnect c => c

section

variable {κ : Type} (playerId : κ → UInt32)

def step (locks : LockMap) : Event κ → LockMap × Option NetReply
  | .testAndSet c msg now => testAndSet locks (playerId c) msg now
  | .disconnect c => (releaseStale locks (playerId c), none)

/-- The locks after a list of events. -/
def after (es : List (Event κ)) : LockMap :=
  es.foldl (fun locks e => (step playerId locks e).1) .empty

/-- What is sent in answer to the last of some events. -/
def replyTo (before : List (Event κ)) (e : Event κ) : Option NetReply :=
  (step playerId (after playerId before) e).2

/-- A request of `c` for the object is affirmed. -/
def Affirmed (before : List (Event κ)) (e : Event κ) (c : κ) (o : Uoid) : Prop :=
  ∃ msg now sent, e = .testAndSet c msg now ∧ msg.object.same o = true ∧
    replyTo playerId before e = some sent ∧ sent.message.reply = .affirm

end

/-- A release of the object by `c`. -/
def Event.Releases {κ : Type} (e : Event κ) (c : κ) (o : Uoid) : Prop :=
  ∃ msg now, e = .testAndSet c msg now ∧ msg.lockRequest = 0 ∧ msg.object.same o = true

/-- No two clients of these events have the same player id. -/
def DistinctIds {κ : Type} (playerId : κ → UInt32) (es : List (Event κ)) : Prop :=
  ∀ e ∈ es, ∀ e' ∈ es, playerId e.client = playerId e'.client → e.client = e'.client

/-! ## One event -/

variable {κ : Type} {playerId : κ → UInt32} {locks : LockMap} {id : UInt32}
  {msg : NetMsgTestAndSet} {now : UnifiedTime} {o : Uoid}

theorem testAndSet_affirm {sent : NetReply} (h : (testAndSet locks id msg now).2 = some sent)
    (haffirm : sent.message.reply = .affirm) :
    locks.find msg.object = none ∧
      (testAndSet locks id msg now).1 = locks.set msg.object id := by
  rw [testAndSet] at h ⊢
  split at h
  · rename_i hrequest
    rw [if_pos hrequest]
    cases hfind : locks.find msg.object with
    | none => exact ⟨rfl, rfl⟩
    | some holder =>
      rw [hfind] at h
      cases h
      cases haffirm
  · split at h <;> cases h

/-- Somebody else's lock is not touched by a request, nor by a release. -/
theorem testAndSet_held {holder : UInt32} (hheld : locks.find o = some holder)
    (hother : msg.lockRequest = 0 → msg.object.same o = true → holder ≠ id) :
    (testAndSet locks id msg now).1.find o = some holder := by
  rw [testAndSet]
  split
  · cases hfind : locks.find msg.object with
    | none =>
      have hne : Uoid.keyEq.same o msg.object = false := by
        rw [← Bool.not_eq_true]
        intro hsame
        rw [Lib.Dict.find_congr hsame, hfind] at hheld
        cases hheld
      exact (Lib.Dict.find_set_other _ hne _).trans hheld
    | some _ => exact hheld
  · rename_i hrelease
    split
    · rename_i hmine
      have hne : Uoid.keyEq.same o msg.object = false := by
        rw [← Bool.not_eq_true]
        intro hsame
        rw [Lib.Dict.find_congr hsame, hmine] at hheld
        exact hother (not_not.1 hrelease) (Uoid.same_symm hsame) (Option.some.inj hheld).symm
      exact (Lib.Dict.find_erase_other _ hne).trans hheld
    · exact hheld

/-- **A release by who does not hold the lock changes nothing**, and nothing is sent. -/
theorem testAndSet_release_other (hrelease : msg.lockRequest = 0)
    (hother : locks.find msg.object ≠ some id) : testAndSet locks id msg now = (locks, none) := by
  rw [testAndSet, if_neg (not_not.2 hrelease), if_neg hother]

theorem releaseStale_find {holder : UInt32} :
    (releaseStale locks id).find o = some holder ↔ locks.find o = some holder ∧ holder ≠ id := by
  rw [releaseStale, Lib.Dict.find_removeIf, decide_eq_false_iff_not]

/-- Who holds a lock holds it after an event that is not his release of it, nor his disconnect. -/
theorem heldBy_step {c : κ} {e : Event κ} (hheld : locks.find o = some (playerId c))
    (hids : playerId e.client = playerId c → e.client = c) (hrelease : ¬ e.Releases c o)
    (hleave : e ≠ .disconnect c) : (step playerId locks e).1.find o = some (playerId c) := by
  cases e with
  | testAndSet d msg now =>
    apply testAndSet_held hheld
    intro hzero hsame hid
    obtain rfl := hids hid.symm
    exact hrelease ⟨msg, now, rfl, hzero, hsame⟩
  | disconnect d =>
    refine releaseStale_find.2 ⟨hheld, fun hid => ?_⟩
    obtain rfl := hids hid.symm
    exact hleave rfl

/-! ## Any number of events -/

theorem after_append (es fs : List (Event κ)) :
    after playerId (es ++ fs) =
      fs.foldl (fun locks e => (step playerId locks e).1) (after playerId es) := by
  rw [after, List.foldl_append]
  rfl

/-- A lock is held until it is released or its holder leaves. -/
theorem heldBy_run {c : κ} {es : List (Event κ)} (hheld : locks.find o = some (playerId c))
    (hids : ∀ e ∈ es, playerId e.client = playerId c → e.client = c)
    (hrelease : ∀ e ∈ es, ¬ e.Releases c o) (hleave : ∀ e ∈ es, e ≠ .disconnect c) :
    (es.foldl (fun locks e => (step playerId locks e).1) locks).find o = some (playerId c) := by
  induction es generalizing locks with
  | nil => exact hheld
  | cons e es ih =>
    apply ih
    · exact heldBy_step hheld (hids e List.mem_cons_self) (hrelease e List.mem_cons_self)
        (hleave e List.mem_cons_self)
    · exact fun f hf => hids f (List.mem_cons_of_mem e hf)
    · exact fun f hf => hrelease f (List.mem_cons_of_mem e hf)
    · exact fun f hf => hleave f (List.mem_cons_of_mem e hf)

theorem Affirmed.held {before : List (Event κ)} {e : Event κ} {c : κ}
    (h : Affirmed playerId before e c o) :
    (after playerId (before ++ [e])).find o = some (playerId c) := by
  obtain ⟨msg, now, sent, rfl, hsame, hreply, haffirm⟩ := h
  obtain ⟨-, hset⟩ := testAndSet_affirm hreply haffirm
  rw [after_append]
  refine (congrArg (·.find o) hset).trans ?_
  exact Lib.Dict.find_set_same _ (Uoid.same_symm hsame) _

theorem Affirmed.free {before : List (Event κ)} {e : Event κ} {c : κ}
    (h : Affirmed playerId before e c o) : (after playerId before).find o = none := by
  obtain ⟨msg, now, sent, rfl, hsame, hreply, haffirm⟩ := h
  obtain ⟨hfree, -⟩ := testAndSet_affirm hreply haffirm
  exact (Lib.Dict.find_congr (Uoid.same_symm hsame)).trans hfree

/-- **The lock protocol is safe.**  For events of any number of clients with
different player ids, in any order: after a request of `c` for an object was
affirmed, no request for it is affirmed, to anybody, before `c` releases it or
leaves; a release by another player than the holder changes no lock and sends
nothing; after a disconnect no lock is held under the player id of who left,
and the locks under other ids are as they were. -/
theorem lock_safe (es : List (Event κ)) (hids : DistinctIds playerId es) :
    (∀ before e between e' rest c c' o, es = before ++ e :: (between ++ e' :: rest) →
      Affirmed playerId before e c o → Affirmed playerId (before ++ e :: between) e' c' o →
      ∃ f ∈ between, f.Releases c o ∨ f = .disconnect c) ∧
    (∀ before c msg now rest, es = before ++ .testAndSet c msg now :: rest →
      msg.lockRequest = 0 → (after playerId before).find msg.object ≠ some (playerId c) →
      after playerId (before ++ [.testAndSet c msg now]) = after playerId before ∧
      replyTo playerId before (.testAndSet c msg now) = none) ∧
    ∀ before c rest, es = before ++ .disconnect c :: rest →
      (∀ o, (after playerId (before ++ [.disconnect c])).find o ≠ some (playerId c)) ∧
      ∀ id, id ≠ playerId c → ∀ o,
        (after playerId (before ++ [.disconnect c])).find o = some id ↔
          (after playerId before).find o = some id := by
  refine ⟨?_, ?_, ?_⟩
  · intro before e between e' rest c c' o hes haffirm haffirm'
    by_contra hcon
    push Not at hcon
    have hclient : e.client = c := by
      obtain ⟨msg, now, sent, rfl, -⟩ := haffirm
      rfl
    -- the lock is held all the time, and the second request found it free
    have hheld : (after playerId (before ++ e :: between)).find o = some (playerId c) := by
      rw [List.append_cons, after_append]
      apply heldBy_run haffirm.held
      · intro f hf hid
        rw [← hclient] at hid ⊢
        refine hids f ?_ e ?_ hid <;> rw [hes]
        · exact List.mem_append_right _ (List.mem_cons_of_mem e (List.mem_append_left _ hf))
        · exact List.mem_append_right _ List.mem_cons_self
      · exact fun f hf => (hcon f hf).1
      · exact fun f hf => (hcon f hf).2
    rw [haffirm'.free] at hheld
    cases hheld
  · intro before c msg now rest _ hrelease hother
    have hstep : step playerId (after playerId before) (.testAndSet c msg now) =
        (after playerId before, none) := testAndSet_release_other hrelease hother
    refine ⟨?_, congrArg Prod.snd hstep⟩
    rw [after_append]
    exact congrArg Prod.fst hstep
  · intro before c rest _
    have hafter : after playerId (before ++ [.disconnect c]) =
        releaseStale (after playerId before) (playerId c) := after_append _ _
    rw [hafter]
    refine ⟨fun o hheld => (releaseStale_find.1 hheld).2 rfl, fun id hid o => ?_⟩
    rw [releaseStale_find]
    exact and_iff_left hid

/-- Two clients ask for the lock of one object, whose key the second one has with
other location flags, and the first one leaves. -/
def twoClients : List (Event Bool) :=
  [.testAndSet true ⟨{ name := "door" }, 1⟩ ⟨0, 0⟩,
    .testAndSet false ⟨{ name := "door", location := ⟨0xFFFFFFFF, 8⟩ }, 1⟩ ⟨1, 0⟩,
    .disconnect true,
    .testAndSet false ⟨{ name := "door" }, 1⟩ ⟨2, 0⟩]

theorem lock_safe_two_clients :
    (∃ f ∈ (twoClients.drop 1).take 2, f.Releases true { name := "door" } ∨ f = .disconnect true) ∧
    (after (fun c => if c then 7 else 9) (twoClients.take 3)).find { name := "door" } ≠ some 7 := by
  have hids : DistinctIds (fun c => if c then 7 else 9) twoClients := by
    intro e _ e' _ hid
    cases hc : e.client <;> cases hc' : e'.client <;> rw [hc, hc'] at hid <;> first
      | rfl
      | exact absurd hid (by decide)
  obtain ⟨hexclusive, -, hleave⟩ := lock_safe twoClients hids
  constructor
  · refine hexclusive [] _ _ _ [] true false { name := "door" } rfl ?_ ?_
    · exact ⟨_, _, _, rfl, by decide, rfl, rfl⟩
    · exact ⟨_, _, _, rfl, by decide, rfl, rfl⟩
  · exact (hleave (twoClients.take 2) true _ rfl).1 { name := "door" }

end Dirtsand.Locks
