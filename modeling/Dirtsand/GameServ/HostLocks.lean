import Dirtsand.GameServ.Handlers
import Dirtsand.Lib.Transition

/-!
# What a handler has locked at its end

The lock guards of a handler give back what they lock at a return and at an
exception.  Between a `lock()` and an `unlock()` there is one call that can
throw, where `dm_send_members` makes room for one less than there are members:
with no members the size is the largest of its type.

* `balanced_handler` — every handler gives back what it locks, where that call
  does not throw.
* `mutexes_released` — in a run no handler ends with a mutex as long as the host
  has members at that call, and the first one without them does.
-/

namespace Dirtsand.HostLocks

open GameServ (ConnId HostPtr)
open Lib.Locking
open MembersList (sizeMinusOne maxSize)

/-! ## The handlers -/

/-- No size came out below zero. -/
def Servers.Sized (s : Servers) : Prop := ∀ p ∈ s.sizes, p.2 ≤ p.1

theorem length_members_le {h : HostPtr} (s : Servers) : (s.members h).length ≤ 2 ^ 32 := by
  rw [Servers.members, Lib.Dict.values, List.length_map, ← List.length_map (f := Prod.fst)]
  refine MembersList.length_le_of_distinct (List.pairwise_map.2 ?_)
  exact (s.host h).clients.distinct.imp fun hne => ne_of_beq_false hne

/-- There is room for one less than there are members, if there are members. -/
theorem hasRoom_iff {h : HostPtr} {s : Servers} : hasRoom h s = true ↔ s.members h ≠ [] := by
  have hle := length_members_le (h := h) s
  rw [hasRoom, decide_eq_true_iff, ← List.length_pos_iff, sizeMinusOne, maxSize]
  omega

theorem sized_noteSize {h : HostPtr} {s : Servers} :
    (noteSize h s).Sized ↔ s.members h ≠ [] ∧ s.Sized := by
  refine List.forall_mem_cons.trans (and_congr_left fun _ => ?_)
  exact List.length_pos_iff

/-- The one call that can throw between `lock()` and `unlock()`. -/
def rules (h : HostPtr) : Rules Mutex Servers where
  call held ok f := .clientMutex h ∈ held ∧ ok = hasRoom h ∧ f = noteSize h
  mayCall s := s.members h ≠ []
  good := Servers.Sized
  safe := by
    rintro held ok f s ⟨-, rfl, rfl⟩ hs
    exact ⟨hasRoom_iff.2 hs, fun hgood => sized_noteSize.2 ⟨hs, hgood⟩⟩

section Handlers

variable {h : HostPtr}

theorem balanced_outside : Balanced (rules h) outside := by
  refine balanced_answer.bind fun a => ?_
  rcases a.thrown with _ | e
  · exact balanced_ret _
  · exact balanced_exc e

theorem balanced_discard {α : Type} {c : Handler α} (hc : Balanced (rules h) c) :
    Balanced (rules h) (do let _ ← c; .ret ()) :=
  hc.bind fun _ => balanced_ret ()

theorem balanced_putMessage : Balanced (rules h) putMessage := balanced_discard balanced_outside

theorem balanced_writeBuf : Balanced (rules h) writeBuf := balanced_discard balanced_outside

theorem balanced_sendMsg : Balanced (rules h) sendMsg :=
  balanced_writeBuf.bind fun _ => balanced_putMessage

theorem balanced_onHost (h' : HostPtr) (f : Servers → Host → Host) :
    Balanced (rules h) (update fun s => s.onHost h' (f s) : Handler Unit) :=
  balanced_update fun _ hs => hs

theorem balanced_onClient (c : ConnId) (f : Client → Client) :
    Balanced (rules h) (update fun s => s.onClient c f : Handler Unit) :=
  balanced_update fun _ hs => hs

theorem balanced_sendReply (c : ConnId) (result : Nat) : Balanced (rules h) (sendReply c result) :=
  (balanced_onClient c _).bind fun _ => balanced_putMessage

theorem balanced_askAuth : Balanced (rules h) askAuth :=
  balanced_putMessage.bind fun _ => balanced_outside

theorem balanced_writeBackSdl : Balanced (rules h) writeBackSdl :=
  balanced_discard balanced_askAuth

theorem balanced_propagate (h' : HostPtr) (contentFlags sender : UInt32) :
    Balanced (rules h) (propagate h' contentFlags sender) := by
  refine balanced_writeBuf.bind fun _ => Balanced.guarded ?_ _
  refine balanced_state.bind fun s => ?_
  exact balanced_forEach (fun _ => balanced_putMessage) _

theorem balanced_broadcast (contentFlags sender : UInt32) :
    Balanced (rules h) (broadcast contentFlags sender) := by
  refine balanced_writeBuf.bind fun _ => Balanced.guarded ?_ _
  refine balanced_state.bind fun s => balanced_forEach (fun e => Balanced.guarded ?_ _) _
  refine balanced_state.bind fun s => ?_
  exact balanced_forEach (fun _ => balanced_putMessage) _

theorem balanced_findReceiver (receiver : UInt32) (hosts : List (UInt32 × HostPtr)) :
    Balanced (rules h) (findReceiver receiver hosts) := by
  induction hosts with
  | nil => exact balanced_ret ()
  | cons e rest ih =>
    refine Balanced.bind (Balanced.guarded ?_ _) fun found => Balanced.ite (balanced_ret ()) ih
    refine balanced_state.bind fun s => ?_
    cases (s.host e.2).clients.find receiver with
    | some _ => exact balanced_putMessage.bind fun _ => balanced_ret true
    | none => exact balanced_ret false

theorem balanced_propagateTo (receivers : List UInt32) :
    Balanced (rules h) (propagateTo receivers) := by
  refine balanced_writeBuf.bind fun _ => balanced_forEach (fun r => Balanced.guarded ?_ _) _
  exact balanced_state.bind fun s => balanced_findReceiver r s.gameHosts

/-! ### Mutexes taken by hand -/

/-- An update does not throw, so that it may stand between `lock()` and `unlock()`. -/
theorem balanced_locked {β : Type} {f : Servers → Servers} {k : Unit → Handler β} (m : Mutex)
    (hf : ∀ s : Servers, s.Sized → (f s).Sized) (hk : ∀ a, Balanced (rules h) (k a)) :
    Balanced (rules h) (do lock m; let a ← update f; unlock m; k a) :=
  balanced_section (fun _ => ⟨hf, rfl⟩) hk

theorem balanced_waitForClients (rounds : Nat) : Balanced (rules h) (waitForClients h rounds) := by
  induction rounds with
  | zero => exact balanced_ret ()
  | succ rounds ih =>
    refine balanced_section (fun _ _ => rfl) fun s => ?_
    exact Balanced.ite (balanced_ret ()) ih

theorem balanced_gameShutdown : Balanced (rules h) (gameShutdown h) := by
  refine Balanced.bind (Balanced.guarded (balanced_discard balanced_state) _) fun _ => ?_
  refine (balanced_onHost h _).bind fun _ => (balanced_waitForClients 50).bind fun _ => ?_
  refine balanced_locked _ (fun _ hs => hs) fun _ => balanced_state.bind fun s => ?_
  exact (balanced_discard balanced_outside).onlyIf

theorem balanced_reassignMaster (playerId : UInt32) :
    Balanced (rules h) (reassignMaster h playerId) := by
  refine balanced_state.bind fun s => Balanced.onlyIf ?_
  refine balanced_writeBuf.bind fun _ => Balanced.guarded ?_ _
  refine balanced_state.bind fun s => balanced_answer.bind fun first => ?_
  cases (s.members h)[first.number % (s.members h).length]? with
  | some newOwner => exact (balanced_onHost h _).bind fun _ => balanced_putMessage
  | none => exact balanced_onHost h _

theorem balanced_gameDisconnect (c : ConnId) : Balanced (rules h) (gameDisconnect h c) := by
  refine balanced_state.bind fun s => (balanced_propagate h _ _).onlyIf.bind fun _ => ?_
  refine (balanced_propagate h _ _).bind fun _ => balanced_locked _ (fun _ hs => hs) fun _ => ?_
  refine ((balanced_reassignMaster _).guarded _).bind fun _ => ?_
  refine balanced_writeBackSdl.bind fun _ => balanced_state.bind fun s => ?_
  refine Balanced.bind (Balanced.onlyIf ?_) fun _ => balanced_sendReply c _
  exact (balanced_onHost h _).bind fun _ => balanced_putMessage

theorem balanced_gameJoin (c : ConnId) : Balanced (rules h) (gameJoin h c) := by
  refine balanced_askAuth.bind fun result => balanced_answer.bind fun isAdmin => ?_
  refine (balanced_onClient c _).bind fun _ => Balanced.ite (balanced_sendReply c _) ?_
  refine balanced_locked _ (fun _ hs => hs) fun _ => balanced_sendMsg.bind fun _ => ?_
  refine balanced_state.bind fun s => (balanced_propagate h _ _).bind fun _ => ?_
  exact balanced_sendReply c _

/-! ### Messages of clients -/

theorem balanced_sendState : Balanced (rules h) sendState :=
  balanced_answer.bind fun _ =>
    (balanced_forEach (fun _ => balanced_sendMsg) _).bind fun _ => balanced_sendMsg

theorem balanced_readSdl (c : ConnId) (msg : NetMsg) (bcast : Bool) :
    Balanced (rules h) (readSdl h c msg bcast) := by
  rw [readSdl]
  cases msg.sdlBlob with
  | empty => exact balanced_ret ()
  | malformed => exact balanced_ret ()
  | noDescriptor => exact balanced_ret ()
  | update =>
    refine balanced_outside.bind fun _ => Balanced.bind ?_ fun _ => Balanced.onlyIf ?_
    · exact Balanced.ite balanced_writeBackSdl (balanced_discard balanced_outside).onlyIf
    · exact balanced_state.bind fun s => balanced_propagate h _ _

theorem balanced_testAndSet (c : ConnId) (msg : Locks.NetMsgTestAndSet) :
    Balanced (rules h) (testAndSet h c msg) := by
  refine Balanced.bind (Balanced.guarded ?_ _) fun reply => ?_
  · exact balanced_state.bind fun s => (balanced_onHost h _).bind fun _ => balanced_ret _
  · cases reply with
    | some _ => exact balanced_sendMsg
    | none => exact balanced_ret ()

theorem balanced_sendMembers (c : ConnId) : Balanced (rules h) (sendMembers h c) := by
  refine balanced_section (fun held => ⟨⟨List.mem_cons_self, rfl, rfl⟩, rfl⟩) fun _ => ?_
  refine balanced_sendMsg.bind fun _ => balanced_state.bind fun s => ?_
  refine (balanced_forEach (fun _ => balanced_sendMsg) _).bind fun _ => Balanced.guarded ?_ _
  exact balanced_state.bind fun s => balanced_forEach (fun _ => balanced_sendMsg) _

theorem balanced_loadClone (c : ConnId) (msg : NetMsg) :
    Balanced (rules h) (loadClone h c msg) := by
  rw [loadClone]
  cases msg.message with
  | none => exact balanced_halt
  | some inner =>
    refine Balanced.ite balanced_halt (Balanced.onlyIf (Balanced.bind ?_ fun _ => ?_))
    · refine Balanced.ite ?_ (balanced_onHost h _)
      exact balanced_locked _ (fun _ hs => hs) fun _ => balanced_ret ()
    · exact balanced_state.bind fun s => balanced_propagate h _ _

theorem balanced_cast {kinds : List NetKind} {msg : Option NetMsg} {k : NetMsg → Handler Unit}
    (hk : ∀ msg, Balanced (rules h) (k msg)) : Balanced (rules h) (cast kinds msg k) := by
  cases msg with
  | none => exact balanced_halt
  | some msg => exact Balanced.ite (hk msg) balanced_halt

theorem balanced_inside {msg : NetMsg} {k : Inner → Handler Unit}
    (hk : ∀ inner, Balanced (rules h) (k inner)) : Balanced (rules h) (inside msg k) := by
  rw [inside]
  cases msg.message with
  | none => exact balanced_halt
  | some inner => exact hk inner

theorem balanced_switchMessage (c : ConnId) (msg : Option NetMsg) (type : MessageType) :
    Balanced (rules h) (switchMessage h c msg type) := by
  cases type with
  | gameStateRequest => exact balanced_sendState
  | gameMessage =>
    refine balanced_cast fun msg => balanced_inside fun inner => balanced_state.bind fun s => ?_
    refine Balanced.ite (Balanced.ite ?_ ?_) (Balanced.onlyIf ?_)
    · exact balanced_broadcast _ _
    · exact balanced_propagate h _ _
    · exact balanced_propagate h _ _
  | gameMessageDirected =>
    refine balanced_cast fun msg => balanced_inside fun inner => balanced_state.bind fun s => ?_
    exact (balanced_propagateTo _).onlyIf
  | voice => exact balanced_cast fun msg => balanced_propagateTo _
  | testAndSet => exact balanced_cast fun msg => balanced_testAndSet c _
  | membersListReq => exact balanced_sendMembers c
  | sdlState => exact balanced_cast fun msg => balanced_readSdl c msg false
  | sdlStateBCast => exact balanced_cast fun msg => balanced_readSdl c msg true
  | loadClone => exact balanced_cast fun msg => balanced_loadClone c msg
  | other => exact balanced_ret ()

theorem balanced_gameMessage (c : ConnId) (messageType : UInt32) (buffer : Buffer) :
    Balanced (rules h) (gameMessage h c messageType buffer) := by
  cases buffer with
  | unknownCreatable => exact balanced_sendReply c _
  | malformed => exact balanced_sendReply c _
  | incomplete msg =>
    cases msg with
    | none => exact balanced_halt
    | some msg => exact balanced_sendReply c _
  | whole msg =>
    refine Balanced.bind (Balanced.catching (balanced_switchMessage c msg _) fun e => ?_) fun _ => ?_
    · exact Balanced.ite (balanced_ret ()) (balanced_exc e)
    · cases msg with
      | none => exact balanced_halt
      | some msg => exact balanced_sendReply c _

/-! ### Every handler -/

theorem balanced_localSdlUpdate : Balanced (rules h) (localSdlUpdate h) := by
  refine balanced_answer.bind fun vaultState => Balanced.ite balanced_putMessage ?_
  refine balanced_outside.bind fun _ => balanced_putMessage.bind fun _ => ?_
  exact balanced_askAuth.bind fun _ => balanced_propagate h _ _

theorem balanced_globalSdlUpdate : Balanced (rules h) (globalSdlUpdate h) :=
  balanced_outside.bind fun _ => balanced_propagate h _ _

/-- **Every handler gives back what it locks**, at each of its ends. -/
theorem balanced_handler (m : HostMsg) : Balanced (rules h) (m.handler h) := by
  cases m with
  | shutdown => exact balanced_gameShutdown
  | disconnect c => exact balanced_gameDisconnect c
  | join c => exact balanced_gameJoin c
  | propagate c messageType buffer => exact balanced_gameMessage c messageType buffer
  | localSdl => exact balanced_localSdlUpdate
  | globalSdl => exact balanced_globalSdlUpdate

theorem balanced_afterThrow (m : HostMsg) : Balanced (rules h) m.afterThrow := by
  have hreply : ∀ c : ConnId, Balanced (rules h)
      (catching (sendReply c netInternalError) fun _ => .halt) :=
    fun c => (balanced_sendReply c _).catching fun _ => balanced_halt
  cases m with
  | shutdown => exact balanced_ret ()
  | disconnect c => exact hreply c
  | join c => exact hreply c
  | propagate c messageType buffer => exact hreply c
  | localSdl => exact balanced_putMessage.catching fun _ => balanced_halt
  | globalSdl => exact balanced_ret ()

end Handlers

/-! ## Runs -/

/-- Where a handler makes room for the members, there are members. -/
def MembersThere (s : State) : Event → Prop
  | .host h _ => ∀ t, s.threads[h]? = some t → t.thread.code.isCall = true →
      s.servers.members h ≠ []
  | _ => True

/-- A host's thread holds nothing where a handler has returned or thrown, and no size came out
below zero. -/
structure Released (s : State) : Prop where
  free : ∀ t ∈ s.threads, t.thread.code.ended = true → t.thread.held = []
  sized : s.servers.Sized

/-- What the steps keep: each thread will have released what it holds at its end. -/
structure Inv (s : State) : Prop where
  keeps : ∀ h t, s.threads[h]? = some t → Keeps (rules h) [] [] t.thread.held t.thread.code
  sized : s.servers.Sized

theorem Inv.released {s : State} (hs : Inv s) : Released s := by
  refine ⟨fun t ht hend => ?_, hs.sized⟩
  obtain ⟨h, hget⟩ := List.mem_iff_getElem?.1 ht
  exact (hs.keeps h t hget).held_of_ended hend

section Steps

variable {s s' : State} {h : HostPtr} {t : HostThread} {a : Answer}

/-- Steps of others than the hosts. -/
theorem Inv.congr (hs : Inv s) (hthreads : s'.threads = s.threads)
    (hsizes : s'.servers.sizes = s.servers.sizes) : Inv s' := by
  refine ⟨fun h t hget => ?_, fun p hp => ?_⟩
  · rw [hthreads] at hget
    exact hs.keeps h t hget
  · rw [hsizes] at hp
    exact hs.sized p hp

/-- A step of one host. -/
theorem Inv.set (hs : Inv s) (ht : Keeps (rules h) [] [] t.thread.held t.thread.code)
    (hthreads : s'.threads = s.threads.set h t) (hsized : s'.servers.Sized) : Inv s' := by
  refine ⟨fun k u hget => ?_, hsized⟩
  rw [hthreads, List.getElem?_set] at hget
  split at hget
  · rename_i hk
    subst hk
    split at hget
    · cases hget
      exact ht
    · cases hget
  · exact hs.keeps k u hget

theorem takeReply_same {c : ConnId} {pc : WorkerPc} (hstep : takeReply s c pc = some s') :
    s'.threads = s.threads ∧ s'.servers.sizes = s.servers.sizes := by
  rw [takeReply] at hstep
  split at hstep
  · cases hstep
  · cases hstep
    exact ⟨rfl, rfl⟩

theorem workerStep_same {c : ConnId} {e : WorkerEvent} (hstep : workerStep s c e = some s') :
    s'.threads = s.threads ∧ s'.servers.sizes = s.servers.sizes := by
  have hsame : ∀ {s₁ : State}, some s₁ = some s' → s₁.threads = s.threads →
      s₁.servers.sizes = s.servers.sizes →
      s'.threads = s.threads ∧ s'.servers.sizes = s.servers.sizes := by
    intro s₁ h hthreads hsizes
    obtain rfl := Option.some_inj.1 h
    exact ⟨hthreads, hsizes⟩
  unfold workerStep at hstep
  split at hstep
  · -- join
    dsimp only at hstep
    split at hstep
    · exact hsame hstep rfl rfl
    · split at hstep
      · exact hsame hstep rfl rfl
      · split at hstep
        · exact hsame hstep rfl rfl
        · cases hstep
  · -- nodeFetched
    split at hstep
    · exact hsame hstep rfl rfl
    · exact hsame hstep rfl rfl
  · exact takeReply_same hstep
  · -- insert
    split at hstep
    · cases hstep
    · split at hstep
      · exact hsame hstep rfl rfl
      · cases hstep
  · exact hsame hstep rfl rfl
  · -- netMsg
    split at hstep
    · exact hsame hstep rfl rfl
    · exact hsame hstep rfl rfl
  · exact takeReply_same hstep
  · exact hsame hstep rfl rfl
  · -- erase
    split at hstep
    · exact hsame hstep rfl rfl
    · split at hstep
      · exact hsame hstep rfl rfl
      · cases hstep
  · exact takeReply_same hstep
  · cases hstep

/-- In the middle of a handler. -/
theorem hostStep_running (hget : s.threads[h]? = some t) (hend : t.thread.code.ended = false) :
    hostStep s h a = (t.thread.step s.free s.servers a).map fun p =>
      { s with servers := p.1, threads := s.threads.set h { t with thread := p.2 } } := by
  rw [hostStep, hget]
  dsimp only
  cases hcode : t.thread.code with
  | ret x => rw [hcode] at hend; cases hend
  | exc e => rw [hcode] at hend; cases hend
  | _ => rfl

theorem hostStep_inv (hs : Inv s) (hok : MembersThere s (.host h a))
    (hstep : hostStep s h a = some s') : Inv s' := by
  cases hget : s.threads[h]? with
  | none =>
    rw [hostStep, hget] at hstep
    cases hstep
  | some t =>
    have hkeeps := hs.keeps h t hget
    by_cases hend : t.thread.code.ended = true
    · -- the next handler starts with what the last one holds, which is nothing
      have hheld : t.thread.held = [] := hkeeps.held_of_ended hend
      have hnext : ∀ code : Handler Unit, Balanced (rules h) code →
          Keeps (rules h) [] [] t.thread.held code := by
        intro code hcode
        rw [hheld]
        exact hcode []
      rw [hostStep, hget] at hstep
      dsimp only at hstep
      cases hcode : t.thread.code with
      | exc e =>
        rw [hcode] at hstep
        obtain ⟨m, -, rfl⟩ := Option.map_eq_some_iff.1 hstep
        exact hs.set (t := ⟨⟨m.afterThrow, t.thread.held⟩, none⟩) (hnext _ (balanced_afterThrow m))
          rfl hs.sized
      | ret x =>
        rw [hcode] at hstep
        dsimp only at hstep
        split at hstep
        · cases hstep
        · split at hstep
          · cases hstep
          · rename_i m rest hchannel
            cases hstep
            exact hs.set (t := ⟨⟨m.handler h, t.thread.held⟩, some m⟩)
              (hnext _ (balanced_handler m)) rfl hs.sized
      | _ => rw [hcode] at hend; cases hend
    · rw [hostStep_running hget (Bool.not_eq_true _ ▸ hend)] at hstep
      obtain ⟨p, hp, rfl⟩ := Option.map_eq_some_iff.1 hstep
      obtain ⟨hkeeps', hsized⟩ := hkeeps.step hs.sized (hok t hget) hp
      exact hs.set hkeeps' rfl hsized

theorem step_inv {e : Event} (hs : Inv s) (hok : MembersThere s e) (hstep : step s e = some s') :
    Inv s' := by
  cases e with
  | host h a => exact hostStep_inv hs hok hstep
  | worker c e =>
    obtain ⟨hthreads, hsizes⟩ := workerStep_same hstep
    exact hs.congr hthreads hsizes
  | start mcpId temp =>
    rw [step] at hstep
    split at hstep
    · cases hstep
      refine ⟨fun h t hget => ?_, hs.sized⟩
      rcases Nat.lt_or_ge h s.threads.length with hold | hnew
      · exact hs.keeps h t ((List.getElem?_append_left hold).symm.trans hget)
      · rw [List.getElem?_append_right hnew] at hget
        obtain rfl := List.mem_singleton.1 (List.mem_of_getElem? hget)
        exact (rfl : ([] : List Mutex) = [])
    · cases hstep
  | post h m =>
    rw [step] at hstep
    split at hstep
    · cases hstep
      exact hs.congr rfl rfl
    · cases hstep

/-- Where room is made and there are no members, the thread throws with `m_clientMutex`. -/
theorem hostStep_breaks (hs : Inv s) (hnot : ¬ MembersThere s (.host h a))
    (hstep : hostStep s h a = some s') : ¬ Released s' := by
  rw [MembersThere] at hnot
  push Not at hnot
  obtain ⟨⟨⟨code, held⟩, msg⟩, hget, hcall, hmembers⟩ := hnot
  obtain ⟨ok, f, e, k, rfl, hheld, rfl, rfl⟩ := (hs.keeps h _ hget).call_of_isCall hcall
  have hroom : hasRoom h s.servers = false := by
    rw [← Bool.not_eq_true, hasRoom_iff]
    exact not_not.2 hmembers
  rw [hostStep_running hget rfl, Thread.step_call hroom] at hstep
  cases hstep
  intro hreleased
  have hthere : h < s.threads.length := (List.getElem?_eq_some_iff.1 hget).1
  have hempty : held = [] := hreleased.free ⟨⟨.exc e, held⟩, msg⟩ (List.mem_set hthere _) rfl
  rw [hempty] at hheld
  cases hheld

end Steps

/-- **No handler ends with a mutex, and no size is below zero**, in every run in which there are
members wherever a handler makes room for them.  The first step without them breaks it. -/
theorem mutexes_released {s : State} (h : machine.ReachableWith MembersThere s) :
    Released s ∧ ∀ e s', machine.step s e = some s' → (Released s' ↔ MembersThere s e) := by
  have hinv : Inv s := by
    refine h.invariant ?_ fun _ _ _ hs hok hstep => step_inv hs hok hstep
    rintro _ rfl
    refine ⟨fun h t hget => ?_, fun p hp => ?_⟩
    · cases hget
    · cases hp
  refine ⟨hinv.released, fun e s' hstep => ⟨fun hreleased => ?_, fun hok => ?_⟩⟩
  · by_contra hnot
    cases e with
    | host h a => exact hostStep_breaks hinv hnot hstep hreleased
    | worker c e => exact hnot trivial
    | start mcpId temp => exact hnot trivial
    | post h m => exact hnot trivial
  · exact (step_inv hinv hok hstep).released


/-- What a thread that has an answer for everything does next. -/
def go : Event := .host 0 {}

/-- The client asks for the members of the host. -/
def membersListReq : Event := .worker 0 (.netMsg 0x02AD (.whole (some { kind := .other })))

/-- As `MembersThere`, computed. -/
def membersThere (s : State) : Event → Bool
  | .host h _ => s.threads[h]?.all fun t => !t.thread.code.isCall || !(s.servers.members h).isEmpty
  | _ => true

theorem membersThere_of_test (s : State) (e : Event) (h : membersThere s e = true) :
    MembersThere s e := by
  cases e with
  | host h' a =>
    intro t hget hcall hnil
    rw [membersThere, hget, Option.all_some, hcall, hnil] at h
    cases h
  | _ => trivial

/-- A client joins, and is sent the list of the members. -/
def joined : List Event :=
  [.start 1 false, .worker 0 (.join 7 (some 0)), .worker 0 (.nodeFetched true)] ++
    List.replicate 17 go ++ [.worker 0 .replied, .worker 0 .insert, membersListReq] ++
    List.replicate 12 go

theorem joined_released : ∃ s, machine.run {} joined = some s ∧ Released s := by
  have htest : machine.allRun membersThere {} joined = true := by decide
  obtain ⟨s, hrun, hreach⟩ := Lib.Machine.ReachableWith.run (.start rfl)
    (Lib.Machine.okRun_of_allRun membersThere_of_test htest)
  exact ⟨s, hrun, (mutexes_released hreach).1⟩

/-- The join fails after `m_host` was set, and the client asks for the members. -/
def failedJoin : List Event :=
  [.start 1 false, .worker 0 (.join 7 (some 0)), .worker 0 (.nodeFetched false), membersListReq] ++
    List.replicate 3 go

/-- The host's thread has thrown, and holds `m_clientMutex`. -/
theorem failedJoin_not_released : ¬ ∀ s, machine.Reachable s → Released s := by
  intro h
  have hheld : (machine.run {} failedJoin).map
      (fun s => s.threads.map fun t => (t.thread.code.ended, t.thread.held)) =
        some [(true, [.clientMutex 0])] := by decide
  obtain ⟨s, hrun, hthreads⟩ := Option.map_eq_some_iff.1 hheld
  have hmem : (true, [Mutex.clientMutex 0]) ∈
      s.threads.map fun t => (t.thread.code.ended, t.thread.held) := by
    rw [hthreads]
    exact List.mem_singleton_self _
  obtain ⟨t, ht, hends⟩ := List.mem_map.1 hmem
  obtain ⟨hend, hlocked⟩ := Prod.mk.inj hends
  have hfree := (h s (Lib.Machine.run_reachable (.start rfl) hrun)).free t ht hend
  rw [hlocked] at hfree
  cases hfree

end Dirtsand.HostLocks
