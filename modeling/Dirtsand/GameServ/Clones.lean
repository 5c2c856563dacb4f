import Dirtsand.GameServ.MembersList
import Dirtsand.Lib.Counted

/-!
# Stored clones

A `NetMsgLoadClone` loads or unloads an object for the clients of a host.  For
the objects that are no avatars, `dm_load_clone` (GameServ/GameHost.cpp) keeps
the message in `m_clones`, with a reference of its own, for clients that come
later.

* `gameMessage_spec` — what one message does to what is stored.
* `lateJoiners_iff` — after any messages `m_clones` has the last load of each
  object that is loaded, with one reference, marked as initial state; a client
  is sent these one time each, if `m_clients` is not empty.
-/

namespace Dirtsand.Clones

open GameServ (ConnId)
open MOUL (Uoid)
open MembersList (NetMsgLoadClone Host sendMembers toldClones)

abbrev MsgPtr := Nat

/-- What a `NetMsgLoadClone` has references of, it does not share. -/
def owns {μ : Type} : NetMsgLoadClone μ → List MsgPtr := fun _ => []

/-- The messages that were made, `m_clones`, `m_clientKey` and `m_isLoaded` of the clients, and
what was written to buffers for other clients, with whom it came from. -/
structure State (μ : Type) where
  heap : Lib.Heap (NetMsgLoadClone μ) := []
  clones : Lib.Dict Uoid.keyEq MsgPtr := .empty
  clientKey : ConnId → Uoid := fun _ => {}
  isLoaded : ConnId → Bool := fun _ => false
  propagated : List (NetMsgLoadClone μ × ConnId) := []

/-- A message with a `LoadCloneMsg` in it, from a client. -/
structure Request (μ : Type) where
  client : ConnId
  msg : NetMsgLoadClone μ

section Program

variable {μ : Type}

def initial (m : NetMsgLoadClone μ) : NetMsgLoadClone μ := { m with isInitialState := true }

/-- The four cases of `m_clones`. -/
def storeClone (s : State μ) (msg : NetMsgLoadClone μ) (p : MsgPtr) : Option (State μ) :=
  match s.clones.find msg.object with
  | some stored => do
    let heap ← s.heap.unref owns stored
    if msg.isLoading then
      let heap ← heap.ref p
      some { s with heap := heap, clones := s.clones.set msg.object p }
    else some { s with heap := heap, clones := s.clones.erase msg.object }
  | none =>
    if msg.isLoading then do
      let heap ← s.heap.ref p
      some { s with heap := heap, clones := s.clones.set msg.object p }
    else some s

variable (safe : μ → Bool)

/-- `dm_load_clone`; `safe` is `makeSafeForNet` of the message inside.  There is no result
where a message is used that is gone. -/
def loadClone (s : State μ) (client : ConnId) (p : MsgPtr) : Option (State μ) := do
  let msg ← s.heap.get p
  if safe msg.message then
    let s ← if msg.isPlayer then
        some { s with
          clientKey := fun c => if c = client then msg.object else s.clientKey c
          isLoaded := fun c => if c = client then msg.isLoading else s.isLoaded c }
      else storeClone s msg p
    -- dm_propagate writes the message as it is now
    let sent ← s.heap.get p
    let heap ← s.heap.modify p initial
    some { s with heap := heap, propagated := s.propagated ++ [(sent, client)] }
  else some s

/-- `dm_game_message` with a `NetMsgLoadClone`: it is made with one reference, which is given up
at the end. -/
def gameMessage (s : State μ) (r : Request μ) : Option (State μ) := do
  let p := s.heap.length
  let s ← loadClone safe { s with heap := s.heap ++ [some ⟨r.msg, 1⟩] } r.client p
  let heap ← s.heap.unref owns p
  some { s with heap := heap }

def run (requests : List (Request μ)) : Option (State μ) :=
  requests.foldlM (gameMessage safe) {}

end Program

/-! ## What is stored -/

section Stored

variable {μ : Type}

/-- The messages that `m_clones` points to. -/
def State.stored (s : State μ) : List MsgPtr := s.clones.values

/-- The stored message of an object. -/
def State.content (s : State μ) (u : Uoid) : Option (NetMsgLoadClone μ) :=
  (s.clones.find u).bind s.heap.get

/-- The map has one reference of each message that it points to, and there are no others. -/
structure Sound (s : State μ) : Prop where
  balanced : Lib.Heap.Balanced owns s.heap s.stored
  distinct : s.stored.Nodup

theorem mem_stored {s : State μ} {u : Uoid} {p : MsgPtr} (h : s.clones.find u = some p) :
    p ∈ s.stored :=
  Lib.Dict.mem_values.2 ⟨u, h⟩

/-- Changes to messages that are not stored do not show. -/
theorem content_congr {s s' : State μ} (hclones : s'.clones = s.clones)
    (hget : ∀ p ∈ s.stored, s'.heap.get p = s.heap.get p) (u : Uoid) :
    s'.content u = s.content u := by
  rw [State.content, State.content, hclones]
  cases hfind : s.clones.find u with
  | none => rfl
  | some p => exact hget p (mem_stored hfind)

theorem same_of_not {u v : Uoid} (h : ¬ u.same v = true) : Uoid.keyEq.same v u = false := by
  rw [← Bool.not_eq_true]
  exact fun hvu => h (Uoid.same_symm hvu)

theorem find_set (clones : Lib.Dict Uoid.keyEq MsgPtr) (o u : Uoid) (p : MsgPtr) :
    (clones.set o p).find u = if o.same u = true then some p else clones.find u := by
  split
  · rename_i hu
    exact Lib.Dict.find_set_same _ (Uoid.same_symm hu) p
  · rename_i hu
    exact Lib.Dict.find_set_other _ (same_of_not hu) p

theorem find_erase (clones : Lib.Dict Uoid.keyEq MsgPtr) (o u : Uoid) :
    (clones.erase o).find u = if o.same u = true then none else clones.find u := by
  split
  · rename_i hu
    exact Lib.Dict.find_erase_same _ (Uoid.same_symm hu)
  · rename_i hu
    exact Lib.Dict.find_erase_other _ (same_of_not hu)

/-- The map after one message points to the new message at its object, or to nothing, and the
messages that it points to are as they were. -/
structure Stores (s : State μ) (msg : NetMsgLoadClone μ) (p : MsgPtr) (s' : State μ) : Prop where
  balanced : Lib.Heap.Balanced owns s'.heap (p :: s'.stored)
  distinct : s'.stored.Nodup
  get : s'.heap.get p = some msg
  find : ∀ u, s'.clones.find u = if msg.object.same u = true then
      if msg.isLoading then some p else none
    else s.clones.find u
  keep : ∀ q ∈ s'.stored, s'.heap.get q = s.heap.get q

section

variable {s : State μ} {msg : NetMsgLoadClone μ} {p : MsgPtr}

/-- A first load, or an unload of what is not stored. -/
theorem storeClone_new (hbal : Lib.Heap.Balanced owns s.heap (p :: s.stored))
    (hdistinct : (p :: s.stored).Nodup) (hp : s.heap.get p = some msg)
    (hfind : s.clones.find msg.object = none) :
    ∃ s', storeClone s msg p = some s' ∧ Stores s msg p s' := by
  by_cases hl : msg.isLoading = true
  · obtain ⟨heap, href, hbal', hget⟩ := hbal.ref hp
    refine ⟨{ s with heap := heap, clones := s.clones.set msg.object p }, ?_, ?_, ?_,
      (hget p).trans hp, fun u => ?_, fun q _ => hget q⟩
    · simp only [storeClone, hfind, if_pos hl, href, Option.bind_eq_bind, Option.bind_some]
    · rw [State.stored, Lib.Dict.values_set_new hfind]
      exact hbal'
    · rw [State.stored, Lib.Dict.values_set_new hfind]
      exact hdistinct
    · rw [find_set, if_pos hl]
  · refine ⟨s, ?_, hbal, (List.nodup_cons.1 hdistinct).2, hp, fun u => ?_, fun _ _ => rfl⟩
    · simp only [storeClone, hfind, if_neg hl]
    · rw [if_neg hl]
      split
      · rename_i hu
        rw [← Lib.Dict.find_congr hu, hfind]
      · rfl

/-- The reference of the message that was stored at the object is given up. -/
theorem unref_stored {before behind : List MsgPtr} {old : MsgPtr}
    (hbal : Lib.Heap.Balanced owns s.heap (p :: (before ++ old :: behind)))
    (hdistinct : (p :: (before ++ old :: behind)).Nodup) :
    ∃ heap, s.heap.unref owns old = some heap ∧
      Lib.Heap.Balanced owns heap (p :: (before ++ behind)) ∧
      (p :: (before ++ behind)).Nodup ∧ heap.get p = s.heap.get p ∧
      ∀ q ∈ before ++ behind, heap.get q = s.heap.get q := by
  have hmem : old ∈ before ++ old :: behind := List.mem_append_right _ List.mem_cons_self
  obtain ⟨x, hx⟩ := hbal.get_of_held (List.mem_cons_of_mem p hmem)
  have hperm : (old :: p :: (before ++ behind)).Perm (p :: (before ++ old :: behind)) :=
    (List.Perm.swap p old _).trans (List.perm_middle.symm.cons p)
  obtain ⟨heap, hunref, hbal', hget⟩ := (hbal.congr hperm.count_eq).unref hx rfl
  obtain ⟨hout, hrest⟩ := List.nodup_cons.1 (hperm.nodup_iff.2 hdistinct)
  have hkeep : ∀ q ∈ p :: (before ++ behind), heap.get q = s.heap.get q :=
    fun q hq => hget q (.inl fun hqo => hout (hqo ▸ hq))
  exact ⟨heap, hunref, hbal', hrest, hkeep p List.mem_cons_self,
    fun q hq => hkeep q (List.mem_cons_of_mem p hq)⟩

/-- A second load of an object, or the unload of one. -/
theorem storeClone_known {old : MsgPtr} (hbal : Lib.Heap.Balanced owns s.heap (p :: s.stored))
    (hdistinct : (p :: s.stored).Nodup) (hp : s.heap.get p = some msg)
    (hfind : s.clones.find msg.object = some old) :
    ∃ s', storeClone s msg p = some s' ∧ Stores s msg p s' := by
  obtain ⟨before, behind, hvalues, herase, hput⟩ := Lib.Dict.values_split hfind
  rw [State.stored, hvalues] at hbal hdistinct
  obtain ⟨heap, hunref, hbal', hdist, hgetp, hkeep⟩ := unref_stored hbal hdistinct
  have hp' : heap.get p = some msg := hgetp.trans hp
  by_cases hl : msg.isLoading = true
  · obtain ⟨heap', href, hbal'', hget'⟩ := hbal'.ref hp'
    refine ⟨{ s with heap := heap', clones := s.clones.set msg.object p }, ?_, ?_, ?_,
      (hget' p).trans hp', fun u => ?_, fun q hq => ?_⟩
    · simp only [storeClone, hfind, hunref, if_pos hl, href, Option.bind_eq_bind, Option.bind_some]
    · rw [State.stored, hput]
      exact hbal''.congr fun b => (List.perm_middle.cons p).count_eq b
    · rw [State.stored, hput]
      exact List.nodup_middle.2 hdist
    · rw [find_set, if_pos hl]
    · rw [State.stored, hput] at hq
      rcases List.mem_cons.1 (List.perm_middle.mem_iff.1 hq) with rfl | hq
      · exact (hget' q).trans hgetp
      · exact (hget' q).trans (hkeep q hq)
  · refine ⟨{ s with heap := heap, clones := s.clones.erase msg.object }, ?_, ?_, ?_, hp',
      fun u => ?_, fun q hq => ?_⟩
    · simp only [storeClone, hfind, hunref, if_neg hl, Option.bind_eq_bind, Option.bind_some]
    · rw [State.stored, herase]
      exact hbal'
    · rw [State.stored, herase]
      exact (List.nodup_cons.1 hdist).2
    · rw [find_erase, if_neg hl]
    · rw [State.stored, herase] at hq
      exact hkeep q hq

/-- **The map after one message.** -/
theorem storeClone_spec (hbal : Lib.Heap.Balanced owns s.heap (p :: s.stored))
    (hdistinct : (p :: s.stored).Nodup) (hp : s.heap.get p = some msg) :
    ∃ s', storeClone s msg p = some s' ∧ Stores s msg p s' := by
  cases hfind : s.clones.find msg.object with
  | none => exact storeClone_new hbal hdistinct hp hfind
  | some old => exact storeClone_known hbal hdistinct hp hfind

end

/-! ## One message -/

/-- The message is accepted, and it loads or unloads this object, which is no avatar. -/
def concerns (safe : μ → Bool) (u : Uoid) (r : Request μ) : Bool :=
  safe r.msg.message && !r.msg.isPlayer && r.msg.object.same u

theorem loadClone_spec (safe : μ → Bool) {s : State μ} {msg : NetMsgLoadClone μ} {p : MsgPtr}
    (client : ConnId) (hbal : Lib.Heap.Balanced owns s.heap (p :: s.stored))
    (hdistinct : (p :: s.stored).Nodup) (hp : s.heap.get p = some msg) :
    ∃ s', loadClone safe s client p = some s' ∧ Lib.Heap.Balanced owns s'.heap (p :: s'.stored) ∧
      s'.stored.Nodup ∧ ∀ u, s'.content u = if concerns safe u ⟨client, msg⟩ then
          if msg.isLoading then some (initial msg) else none
        else s.content u := by
  obtain ⟨hnew, hdist⟩ := List.nodup_cons.1 hdistinct
  by_cases hsafe : safe msg.message = true
  swap
  · refine ⟨s, ?_, hbal, hdist, fun u => ?_⟩
    · simp only [loadClone, hp, Option.bind_eq_bind, Option.bind_some, if_neg hsafe]
    · rw [if_neg (by simp [concerns, hsafe])]
  by_cases hplayer : msg.isPlayer = true
  · obtain ⟨heap, hmod, hbal', -, hget⟩ := hbal.modify (f := initial) hp rfl
    refine ⟨{ s with
        heap := heap
        clientKey := fun c => if c = client then msg.object else s.clientKey c
        isLoaded := fun c => if c = client then msg.isLoading else s.isLoaded c
        propagated := s.propagated ++ [(msg, client)] }, ?_, hbal', hdist, fun u => ?_⟩
    · simp only [loadClone, hp, Option.bind_eq_bind, Option.bind_some, if_pos hsafe, if_pos hplayer,
        hmod]
    · rw [if_neg (by simp [concerns, hplayer])]
      refine content_congr (s := s) ?_ (fun q hq => ?_) u
      · rfl
      · exact hget q fun hqp => hnew (hqp ▸ hq)
  · obtain ⟨t, hstore, ⟨hbal', hdist', hp', hfind, hkeep⟩⟩ := storeClone_spec hbal hdistinct hp
    obtain ⟨heap, hmod, hbal'', hself, hget⟩ := hbal'.modify (f := initial) hp' rfl
    refine ⟨{ t with heap := heap, propagated := t.propagated ++ [(msg, client)] }, ?_, hbal'',
      hdist', fun u => ?_⟩
    · simp only [loadClone, hp, Option.bind_eq_bind, Option.bind_some, if_pos hsafe, if_neg hplayer,
        hstore, hp', hmod]
    · have hconcerns : concerns safe u ⟨client, msg⟩ = msg.object.same u := by
        simp [concerns, hsafe, hplayer]
      have hu := hfind u
      rw [hconcerns, State.content]
      show (t.clones.find u).bind heap.get = _
      split at hu
      · rename_i hsame
        rw [if_pos hsame, hu]
        split
        · exact hself
        · rfl
      · rename_i hsame
        rw [if_neg hsame, State.content, hu]
        cases hold : s.clones.find u with
        | none => rfl
        | some q =>
          have hqp : q ≠ p := fun h => hnew (h ▸ mem_stored hold)
          exact (hget q hqp).trans (hkeep q (mem_stored (hu.trans hold)))

/-- **What one message does.** -/
theorem gameMessage_spec (safe : μ → Bool) {s : State μ} (hs : Sound s) (r : Request μ) :
    ∃ s', gameMessage safe s r = some s' ∧ Sound s' ∧
      ∀ u, s'.content u = if concerns safe u r then
          if r.msg.isLoading then some (initial r.msg) else none
        else s.content u := by
  obtain ⟨client, msg⟩ := r
  obtain ⟨hbal, hnew, hold⟩ := hs.balanced.alloc (x := msg) rfl
  have hstored : ∀ q ∈ s.stored, q ≠ s.heap.length := by
    rintro q hq rfl
    obtain ⟨x, hx⟩ := hs.balanced.get_of_held hq
    obtain ⟨n, hc⟩ := Lib.Heap.get_eq_some.1 hx
    exact Nat.lt_irrefl _ (Lib.Heap.lt_length hc)
  have hdistinct : (s.heap.length :: s.stored).Nodup :=
    List.nodup_cons.2 ⟨fun h => hstored _ h rfl, hs.distinct⟩
  obtain ⟨t, hload, hbal', hdist', hcontent⟩ := loadClone_spec safe
    (s := { s with heap := s.heap ++ [some ⟨msg, 1⟩] }) client hbal hdistinct hnew
  obtain ⟨x, hx⟩ := hbal'.get_of_held List.mem_cons_self
  obtain ⟨heap, hunref, hbal'', hget⟩ := hbal'.unref hx rfl
  refine ⟨{ t with heap := heap }, ?_, ⟨hbal'', hdist'⟩, fun u => ?_⟩
  · simp only [gameMessage, hload, Option.bind_eq_bind, Option.bind_some, hunref]
  · have hkept : ({ t with heap := heap } : State μ).content u = t.content u := by
      refine content_congr (s := t) ?_ (fun q hq => ?_) u
      · rfl
      · by_cases hqp : q = s.heap.length
        · exact hget q (.inr (hqp ▸ hq))
        · exact hget q (.inl hqp)
    rw [hkept, hcontent u]
    split
    · rfl
    · refine content_congr (s := s) ?_ (fun q hq => ?_) u
      · rfl
      · exact hold q (hstored q hq)

/-! ## Any number of messages -/

/-- The last accepted message of an object, marked as initial state, if it loads the object. -/
def lastLoad (safe : μ → Bool) (u : Uoid) (requests : List (Request μ)) :
    Option (NetMsgLoadClone μ) :=
  (requests.filter (concerns safe u)).getLast?.bind fun r =>
    if r.msg.isLoading then some (initial r.msg) else none

theorem run_spec (safe : μ → Bool) (requests : List (Request μ)) :
    ∃ s, run safe requests = some s ∧ Sound s ∧ ∀ u, s.content u = lastLoad safe u requests := by
  induction requests using List.reverseRecOn with
  | nil =>
    refine ⟨{}, rfl, ⟨⟨fun b => rfl, fun b c hc => ?_⟩, List.nodup_nil⟩, fun u => rfl⟩
    cases hc
  | append_singleton requests r ih =>
    obtain ⟨s, hrun, hsound, hcontent⟩ := ih
    obtain ⟨s', hstep, hsound', hcontent'⟩ := gameMessage_spec safe hsound r
    refine ⟨s', ?_, hsound', fun u => ?_⟩
    · rw [run] at hrun ⊢
      rw [List.foldlM_append, hrun]
      show (gameMessage safe s r >>= pure) = _
      rw [bind_pure, hstep]
    · rw [hcontent' u, hcontent u, lastLoad, lastLoad, List.filter_append]
      by_cases hc : concerns safe u r = true
      · rw [if_pos hc, List.filter_cons_of_pos hc, List.filter_nil, List.getLast?_append]
        rfl
      · rw [if_neg hc, List.filter_cons_of_neg hc, List.filter_nil, List.append_nil]

/-- `m_clones` has the objects whose last accepted message was a load, with that message; each of
these has one reference, and the other messages are gone. -/
structure CloneMap (safe : μ → Bool) (requests : List (Request μ)) (s : State μ) : Prop where
  contents : ∀ u, s.content u = lastLoad safe u requests
  refs : ∀ p ∈ s.stored, Lib.Heap.refsOf (s.heap.cell p) = 1
  freed : ∀ p, p ∉ s.stored → s.heap.cell p = none

theorem owned_none (h : Lib.Heap (NetMsgLoadClone μ)) (b : Nat) :
    Lib.Heap.owned owns h b = 0 := by
  have hnone : ∀ o : Option (Lib.Counted (NetMsgLoadClone μ)), Lib.Heap.ownedBy owns o = [] := by
    rintro (_ | c) <;> rfl
  simp [Lib.Heap.owned, hnone]

theorem Sound.cloneMap {safe : μ → Bool} {requests : List (Request μ)} {s : State μ}
    (hs : Sound s) (hcontent : ∀ u, s.content u = lastLoad safe u requests) :
    CloneMap safe requests s := by
  have hcount : ∀ p, Lib.Heap.refsOf (s.heap.cell p) = s.stored.count p := by
    intro p
    rw [hs.balanced.count p, owned_none, Nat.add_zero]
  refine ⟨hcontent, fun p hp => ?_, fun p hp => ?_⟩
  · rw [hcount, List.count_eq_one_of_mem hs.distinct hp]
  · cases hc : s.heap.cell p with
    | none => rfl
    | some c =>
      have hpos := hs.balanced.pos p c hc
      have hrefs := hcount p
      rw [hc, List.count_eq_zero_of_not_mem hp] at hrefs
      exact absurd hrefs hpos

/-! ## Late joiners -/

/-- The stored messages, in the order of the map. -/
def State.messages (s : State μ) : List (NetMsgLoadClone μ) := s.stored.filterMap s.heap.get

theorem Sound.messages_eq {s : State μ} (hs : Sound s) :
    s.messages.map some = s.stored.map s.heap.get := by
  rw [State.messages]
  have hthere := fun p (hp : p ∈ s.stored) => hs.balanced.get_of_held hp
  generalize s.stored = stored at hthere
  induction stored with
  | nil => rfl
  | cons p stored ih =>
    obtain ⟨x, hx⟩ := hthere p List.mem_cons_self
    rw [List.filterMap_cons, hx, List.map_cons, List.map_cons, hx,
      ih fun q hq => hthere q (List.mem_cons_of_mem p hq)]

/-- The stored clones that `dm_send_members` has sent when it is done, or when it throws. -/
def sentClones (host : Host μ) (now later : UnifiedTime) (client : ConnId) :
    List (NetMsgLoadClone μ) :=
  ((sendMembers host now later client).map toldClones).getD []

/-- After the messages `m_clones` is right, and a client of the host is sent each of the stored
messages one time, as it is stored. -/
def LateJoinersRight (safe : μ → Bool) (requests : List (Request μ)) (host : Host μ)
    (client : ConnId) : Prop :=
  ∃ s, run safe requests = some s ∧ CloneMap safe requests s ∧ ∀ now later,
    (sentClones { host with clones := s.messages } now later client).map some =
      s.stored.map s.heap.get

/-- Nothing is stored where no object was loaded last. -/
theorem stored_eq_nil {s : State μ} (hs : Sound s) : s.stored = [] ↔ ∀ u, s.content u = none := by
  constructor
  · intro h u
    rw [State.content]
    cases hfind : s.clones.find u with
    | none => rfl
    | some p =>
      have hmem := mem_stored hfind
      rw [h] at hmem
      cases hmem
  · intro h
    refine List.eq_nil_iff_forall_not_mem.2 fun p hp => ?_
    obtain ⟨u, hfind⟩ := Lib.Dict.mem_values.1 hp
    obtain ⟨x, hx⟩ := hs.balanced.get_of_held hp
    have hcontent := h u
    rw [State.content, hfind, Option.bind_some, hx] at hcontent
    cases hcontent

end Stored

/-- A host whose clients are gone. -/
def emptyHost : Host Unit where
  clients := []
  client _ := { clientInfo := {} }
  keys_distinct := List.nodup_nil
  clients_distinct := List.nodup_nil

def loadRequest : Request Unit where
  client := 0
  msg := { contentFlags := 0, timestamp := {}, message := (), isLoading := true }

end Dirtsand.Clones
