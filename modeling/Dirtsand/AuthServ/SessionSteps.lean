import Dirtsand.AuthServ.Session
import Dirtsand.Lib.PartialMap

/-!
# The steps of the auth connections

`authStep`, inverted once, and what holds of the workers and the channel in any
run: who waits has its request on the channel or its answer, and `s_authClients`
has the connections whose worker has not returned.

* `SessionStep` — the steps, each with what must hold before it.
* `ConnInv` — the invariant of the workers and the channel.
-/

namespace Dirtsand.AuthServ

/-- The id that `cb_setPlayer` stores. -/
def Worker.pick (w : Worker) (playerId : UInt32) : Worker :=
  { w with client := { w.client with player := { w.client.player with playerId := playerId } } }

inductive SessionStep (cred : Credentials) (s : AuthState) : AuthEvent → AuthState → Prop where
  | connect {c serverChallenge} (hnone : s.conn c = none) :
      SessionStep cred s (.connect c serverChallenge)
        { s.setConn c { client := { serverChallenge := serverChallenge } } with
          authClients := s.authClients ++ [c] }
  | recvLogin {c info w} (hw : s.conn c = some w) (hidle : w.waiting = none)
      (hlive : w.ended = false) :
      SessionStep cred s (.recvLogin c info)
        { s.setConn c { w with waiting := some .login, reply := none } with
          channel := s.channel ++ [.clientLogin c info] }
  | noPlayer {c w} (hw : s.conn c = some w) (hidle : w.waiting = none) (hlive : w.ended = false) :
      SessionStep cred s (.recvSetPlayer c 0) (s.setConn c (w.pick 0))
  | recvSetPlayer {c playerId w} (hw : s.conn c = some w) (hidle : w.waiting = none)
      (hlive : w.ended = false) (hp : playerId ≠ 0) :
      SessionStep cred s (.recvSetPlayer c playerId)
        (s.setConn c
          { w.pick playerId with waiting := some .setPlayer, putting := true, reply := none })
  | putSetPlayer {c w} (hw : s.conn c = some w) (hputting : w.putting = true) :
      SessionStep cred s (.putSetPlayer c)
        { s.setConn c { w with putting := false } with channel := s.channel ++ [.setPlayer c] }
  | hangup {c w} (hw : s.conn c = some w) (hidle : w.waiting = none) (hlive : w.ended = false) :
      SessionStep cred s (.hangup c)
        { s.setConn c { w with waiting := some .disconnect, reply := none } with
          channel := s.channel ++ [.disconnect c] }
  | taken {c w} (hw : s.conn c = some w) (hreply : w.reply ≠ none)
      (hwait : w.waiting ≠ some .disconnect) :
      SessionStep cred s (.recvReply c) (s.setConn c { w with waiting := none, reply := none })
  | left {c w} (hw : s.conn c = some w) (hreply : w.reply ≠ none)
      (hwait : w.waiting = some .disconnect) :
      SessionStep cred s (.recvReply c)
        { s.setConn c { w with waiting := none, reply := none, ended := true } with
          authClients := s.authClients.filter (· ≠ c) }
  | join {h playerId ageNodeId isAdmin} (hp : playerId ≠ 0) :
      SessionStep cred s (.join h playerId ageNodeId isAdmin)
        { s with channel := s.channel ++ [.updateAgeSrv h playerId ageNodeId isAdmin] }
  | toggleRestrict :
      SessionStep cred s .toggleRestrict { s with channel := s.channel ++ [.restrictLogins] }
  | admin {db} (hk : s.db.KeepsPlayers db) : SessionStep cred s (.admin db) { s with db := db }
  | login {c info rest w fates setPlayer disconnect client info' result}
      (hchan : s.channel = .clientLogin c info :: rest) (hw : s.conn c = some w)
      (hrun : dmAuthLogin cred s.db s.restrictLogins fates info w.client =
        (client, info', result)) :
      SessionStep cred s (.handle fates setPlayer disconnect) ({ s with
        channel := rest
        log := .login c ⟨acceptedAccount cred s.db fates info w.client, s.restrictLogins, result⟩ ::
          s.log }.setConn c { w with client := client, reply := some result })
  | setPlayer {c rest w login fates disconnect client db result}
      (hchan : s.channel = .setPlayer c :: rest) (hw : s.conn c = some w)
      (hrun : dmAuthSetPlayer s.db (s.elsewhere c) fates w.client = (client, db, result)) :
      SessionStep cred s (.handle login fates disconnect) ({ s with
        channel := rest
        db := db
        log := .setPlayer c w.client.player.playerId result :: s.log }.setConn c
          { w with client := client, reply := some result })
  | disconnect {c rest w login setPlayer fate} (hchan : s.channel = .disconnect c :: rest)
      (hw : s.conn c = some w) :
      SessionStep cred s (.handle login setPlayer fate) ({ s with
        channel := rest
        db := (dmAuthDisconnect s.db fate w.client).1 }.setConn c
          { w with reply := some (dmAuthDisconnect s.db fate w.client).2 })
  | refuseJoin {h playerId ageNodeId isAdmin rest login setPlayer disconnect}
      (hchan : s.channel = .updateAgeSrv h playerId ageNodeId isAdmin :: rest)
      (hfind : s.authClients.find? (fun c => s.playerIdOf c = playerId) = none) :
      SessionStep cred s (.handle login setPlayer disconnect) { s with
        channel := rest
        joinReply := Function.update s.joinReply h (some ⟨.playerNotFound, isAdmin⟩) }
  | acceptJoin {h playerId ageNodeId isAdmin rest c w login setPlayer disconnect}
      (hchan : s.channel = .updateAgeSrv h playerId ageNodeId isAdmin :: rest)
      (hfind : s.authClients.find? (fun c => s.playerIdOf c = playerId) = some c)
      (hw : s.conn c = some w) :
      SessionStep cred s (.handle login setPlayer disconnect) ({ s with
        channel := rest
        joinReply := Function.update s.joinReply h
          (some ⟨.success, decide (w.client.acctFlags &&& acctAdmin ≠ 0)⟩) }.setConn c
          { w with client := { w.client with ageNodeId := ageNodeId } })
  | restrict {rest login setPlayer disconnect} (hchan : s.channel = .restrictLogins :: rest) :
      SessionStep cred s (.handle login setPlayer disconnect)
        { s with channel := rest, restrictLogins := !s.restrictLogins }

theorem dmAuthDaemon_inv {cred : Credentials} {s s' : AuthState} {login : LoginFates}
    {setPlayer : SetPlayerFates} {disconnect : QueryFate}
    (hs : dmAuthDaemon cred s login setPlayer disconnect = some s') :
    SessionStep cred s (.handle login setPlayer disconnect) s' := by
  unfold dmAuthDaemon at hs
  split at hs
  · cases hs
  · rename_i c info rest hchan
    obtain ⟨w, hw, hs⟩ := Option.bind_eq_some_iff.1 hs
    cases hs
    exact .login hchan hw rfl
  · rename_i c rest hchan
    obtain ⟨w, hw, hs⟩ := Option.bind_eq_some_iff.1 hs
    cases hs
    exact .setPlayer hchan hw rfl
  · rename_i c rest hchan
    obtain ⟨w, hw, hs⟩ := Option.bind_eq_some_iff.1 hs
    cases hs
    exact .disconnect hchan hw
  · rename_i h playerId ageNodeId isAdmin rest hchan
    split at hs
    · rename_i hfind
      cases hs
      exact .refuseJoin hchan hfind
    · rename_i c hfind
      obtain ⟨w, hw, hs⟩ := Option.bind_eq_some_iff.1 hs
      cases hs
      exact .acceptJoin hchan hfind hw
  · rename_i rest hchan
    cases hs
    exact .restrict hchan

/-- A worker that reads its socket waits for nothing, and has not returned. -/
theorem idle_of_not {w : Worker} (h : ¬ (w.waiting ≠ none ∨ w.ended = true)) :
    w.waiting = none ∧ w.ended = false := by
  obtain ⟨hwait, hend⟩ := not_or.1 h
  exact ⟨not_not.1 hwait, by simpa using hend⟩

theorem authStep_inv {cred : Credentials} {s s' : AuthState} {e : AuthEvent}
    (hs : authStep cred s e = some s') : SessionStep cred s e s' := by
  cases e with
  | connect c serverChallenge =>
    simp only [authStep] at hs
    split at hs
    · cases hs
    · rename_i hnone
      cases hs
      exact .connect (by simpa using hnone)
  | recvLogin c info =>
    obtain ⟨w, hw, hs⟩ := Option.bind_eq_some_iff.1 hs
    split at hs
    · cases hs
    · rename_i hidle
      cases hs
      exact .recvLogin hw (idle_of_not hidle).1 (idle_of_not hidle).2
  | recvSetPlayer c playerId =>
    obtain ⟨w, hw, hs⟩ := Option.bind_eq_some_iff.1 hs
    split at hs
    · cases hs
    · rename_i hidle
      obtain ⟨hwait, hlive⟩ := idle_of_not hidle
      split at hs
      · rename_i hzero
        cases hs
        subst hzero
        exact .noPlayer hw hwait hlive
      · rename_i hp
        cases hs
        exact .recvSetPlayer hw hwait hlive hp
  | putSetPlayer c =>
    obtain ⟨w, hw, hs⟩ := Option.bind_eq_some_iff.1 hs
    split at hs
    · cases hs
    · rename_i hputting
      cases hs
      exact .putSetPlayer hw (eq_true_of_ne_false hputting)
  | hangup c =>
    obtain ⟨w, hw, hs⟩ := Option.bind_eq_some_iff.1 hs
    split at hs
    · cases hs
    · rename_i hidle
      cases hs
      exact .hangup hw (idle_of_not hidle).1 (idle_of_not hidle).2
  | recvReply c =>
    obtain ⟨w, hw, hs⟩ := Option.bind_eq_some_iff.1 hs
    split at hs
    · cases hs
    · rename_i hreply
      split at hs
      · rename_i hwait
        cases hs
        exact .left hw hreply hwait
      · rename_i hwait
        cases hs
        exact .taken hw hreply hwait
  | join h playerId ageNodeId isAdmin =>
    simp only [authStep, Option.ite_none_left_eq_some] at hs
    obtain ⟨hp, hs⟩ := hs
    cases hs
    exact .join hp
  | toggleRestrict =>
    cases hs
    exact .toggleRestrict
  | admin db =>
    simp only [authStep, Option.ite_none_right_eq_some] at hs
    obtain ⟨hk, hs⟩ := hs
    cases hs
    exact .admin hk
  | handle login setPlayer disconnect => exact dmAuthDaemon_inv hs

/-- What is known of the workers after one of them changed. -/
theorem AuthState.setConn_cases {s : AuthState} {c c' : ConnId} {w v : Worker}
    (h : (s.setConn c w).conn c' = some v) : (c' = c ∧ v = w) ∨ (c' ≠ c ∧ s.conn c' = some v) :=
  Lib.update_eq_some h

theorem AuthState.setConn_none {s : AuthState} {c c' : ConnId} {w : Worker}
    (h : (s.setConn c w).conn c' = none) : c' ≠ c ∧ s.conn c' = none :=
  Lib.update_eq_none h

/-! ## Requests and the workers that wait for them -/

theorem AuthRequest.pending_ne_none {r : AuthRequest} {c : ConnId} (h : r.conn = some c) :
    r.pending ≠ none := by
  cases r <;> simp_all [AuthRequest.conn, AuthRequest.pending]

/-- A request of a connection is in the channel once, while its worker waits for
the answer and has none yet.  A SetPlayer that is still to be put is not. -/
structure Plumbed (conn : ConnId → Option Worker) (channel : List AuthRequest) : Prop where
  waits : ∀ r ∈ channel, ∀ c, r.conn = some c →
    ∃ w, conn c = some w ∧ w.waiting = r.pending ∧ w.reply = none
  nodup : (channel.filterMap AuthRequest.conn).Nodup
  putting : ∀ c w, conn c = some w → w.putting = true →
    w.waiting = some .setPlayer ∧ w.reply = none ∧ ∀ r ∈ channel, r.conn ≠ some c

namespace Plumbed

variable {conn : ConnId → Option Worker} {channel rest : List AuthRequest} {c : ConnId}
  {r : AuthRequest} {w w' : Worker}

/-- Who has put its request, or waits for no SetPlayer, has none to put. -/
theorem not_putting (h : Plumbed conn channel) (hw : conn c = some w)
    (hnot : w.waiting ≠ some .setPlayer ∨ w.reply ≠ none ∨ ∃ r ∈ channel, r.conn = some c) :
    w.putting = false := by
  by_contra hputting
  obtain ⟨hwait, hreply, hnone⟩ := h.putting c w hw (eq_true_of_ne_false hputting)
  obtain hother | hother | ⟨r, hr, hc⟩ := hnot
  · exact hother hwait
  · exact hother hreply
  · exact hnone r hr hc

/-- A worker none of whose requests is in the channel is free to change. -/
theorem update (h : Plumbed conn channel) (hc : ∀ r ∈ channel, r.conn ≠ some c)
    (hput : w'.putting = true → w'.waiting = some .setPlayer ∧ w'.reply = none) :
    Plumbed (Function.update conn c (some w')) channel := by
  refine ⟨fun r hr c' hc' => ?_, h.nodup, fun c' v hv hputting => ?_⟩
  · have hne : c' ≠ c := by
      rintro rfl
      exact hc r hr hc'
    rw [Function.update_of_ne hne]
    exact h.waits r hr c' hc'
  · obtain ⟨rfl, rfl⟩ | ⟨-, hv⟩ := Lib.update_eq_some hv
    · obtain ⟨hwait, hreply⟩ := hput hputting
      exact ⟨hwait, hreply, hc⟩
    · exact h.putting c' v hv hputting

theorem idle (h : Plumbed conn channel)
    (hw : ∀ w, conn c = some w → w.waiting = none ∨ w.reply ≠ none) :
    ∀ r ∈ channel, r.conn ≠ some c := by
  intro r hr hc
  obtain ⟨w, hw₁, hw₂, hw₃⟩ := h.waits r hr c hc
  rcases hw w hw₁ with hnone | hreply
  · exact AuthRequest.pending_ne_none hc (hw₂ ▸ hnone)
  · exact hreply hw₃

/-- A worker that waits for nothing has nothing on the channel. -/
theorem unasked (h : Plumbed conn channel) (hw : conn c = some w)
    (hidle : w.waiting = none ∨ w.reply ≠ none) : ∀ r ∈ channel, r.conn ≠ some c :=
  h.idle fun v hv => by
    obtain rfl := Option.some.inj (hw.symm.trans hv)
    exact hidle

theorem put (h : Plumbed conn channel) (hc : ∀ r ∈ channel, r.conn ≠ some c)
    (hr : r.conn = some c) (hw : w'.waiting = r.pending) (hreply : w'.reply = none)
    (hput : w'.putting = false) :
    Plumbed (Function.update conn c (some w')) (channel ++ [r]) := by
  have hnone : w'.putting ≠ true := by simp [hput]
  refine ⟨fun r' hr' c' hc' => ?_, ?_, fun c' v hv hputting => ?_⟩
  · rcases List.mem_append.1 hr' with hold | hnew
    · exact (h.update hc (absurd · hnone)).waits r' hold c' hc'
    · obtain rfl := List.mem_singleton.1 hnew
      obtain rfl : c = c' := Option.some.inj (hr ▸ hc')
      exact ⟨w', Function.update_self .., hw, hreply⟩
  · rw [List.filterMap_append, List.nodup_append]
    refine ⟨h.nodup, ?_, ?_⟩
    · simp [hr]
    · intro a ha b hb
      rw [List.filterMap_cons, hr, List.filterMap_nil, List.mem_singleton] at hb
      obtain ⟨r', hr', hra⟩ := List.mem_filterMap.1 ha
      rintro rfl
      exact hc r' hr' (hb ▸ hra)
  · obtain ⟨rfl, rfl⟩ | ⟨hne, hv⟩ := Lib.update_eq_some hv
    · exact absurd hputting hnone
    · obtain ⟨hwait, hreply, hfree⟩ := h.putting c' v hv hputting
      refine ⟨hwait, hreply, List.forall_mem_append.2 ⟨hfree, List.forall_mem_singleton.2 ?_⟩⟩
      rw [hr]
      exact fun heq => hne (Option.some.inj heq).symm

/-- A worker may change in what the channel does not depend on. -/
theorem same (h : Plumbed conn channel) (hw : conn c = some w) (hwait : w'.waiting = w.waiting)
    (hreply : w'.reply = w.reply) (hput : w'.putting = w.putting) :
    Plumbed (Function.update conn c (some w')) channel := by
  refine ⟨fun r hr c' hc' => ?_, h.nodup, fun c' v hv hputting => ?_⟩
  · obtain ⟨v, hv, hv₁, hv₂⟩ := h.waits r hr c' hc'
    by_cases hc : c' = c
    · subst hc
      obtain rfl : w = v := Option.some.inj (hw ▸ hv)
      exact ⟨w', Function.update_self .., hwait.trans hv₁, hreply.trans hv₂⟩
    · exact ⟨v, (Function.update_of_ne hc ..).trans hv, hv₁, hv₂⟩
  · obtain ⟨rfl, rfl⟩ | ⟨-, hv⟩ := Lib.update_eq_some hv
    · rw [hwait, hreply]
      exact h.putting c' w hw (hput ▸ hputting)
    · exact h.putting c' v hv hputting

theorem putFree (h : Plumbed conn channel) (hr : r.conn = none) : Plumbed conn (channel ++ [r]) := by
  refine ⟨fun r' hr' c' hc' => ?_, ?_, fun c' v hv hputting => ?_⟩
  · rcases List.mem_append.1 hr' with hold | hnew
    · exact h.waits r' hold c' hc'
    · obtain rfl := List.mem_singleton.1 hnew
      rw [hr] at hc'
      cases hc'
  · rw [List.filterMap_append, List.filterMap_cons, hr, List.filterMap_nil, List.append_nil]
    exact h.nodup
  · obtain ⟨hwait, hreply, hfree⟩ := h.putting c' v hv hputting
    refine ⟨hwait, hreply, List.forall_mem_append.2 ⟨hfree, List.forall_mem_singleton.2 ?_⟩⟩
    rw [hr]
    exact (Option.some_ne_none c').symm

theorem tail (h : Plumbed conn (r :: rest)) : Plumbed conn rest := by
  refine ⟨fun r' hr' => h.waits r' (List.mem_cons_of_mem _ hr'), ?_, fun c w hw hputting => ?_⟩
  · have hnd := h.nodup
    rw [List.filterMap_cons] at hnd
    cases hc : r.conn with
    | none => simpa [hc] using hnd
    | some c => exact (List.nodup_cons.1 (by simpa [hc] using hnd)).2
  · obtain ⟨hwait, hreply, hfree⟩ := h.putting c w hw hputting
    exact ⟨hwait, hreply, (List.forall_mem_cons.1 hfree).2⟩

theorem not_again (h : Plumbed conn (r :: rest)) (hr : r.conn = some c) :
    ∀ r' ∈ rest, r'.conn ≠ some c := by
  intro r' hr' hc
  have hnd := h.nodup
  rw [List.filterMap_cons, hr] at hnd
  exact (List.nodup_cons.1 hnd).1 (List.mem_filterMap.2 ⟨r', hr', hc⟩)

/-- The answer to the next request takes it off the channel. -/
theorem answer (h : Plumbed conn (r :: rest)) (hr : r.conn = some c) (hw : conn c = some w)
    (hput : w'.putting = w.putting) : Plumbed (Function.update conn c (some w')) rest := by
  have hnot := h.not_putting hw (.inr (.inr ⟨r, List.mem_cons_self, hr⟩))
  refine h.tail.update (h.not_again hr) fun hputting => ?_
  rw [hput, hnot] at hputting
  cases hputting

end Plumbed

/-! ## The invariant -/

structure ConnInv (s : AuthState) : Prop where
  plumbed : Plumbed s.conn s.channel
  queued : ∀ c w, s.conn c = some w → w.waiting ≠ none → w.reply = none → w.putting = false →
    ∃ r ∈ s.channel, r.conn = some c
  listed : ∀ c, c ∈ s.authClients ↔ ∃ w, s.conn c = some w ∧ w.ended = false
  ended : ∀ c w, s.conn c = some w → w.ended = true → w.waiting = none

namespace ConnInv

variable {s s' : AuthState} {c : ConnId} {w w' : Worker}

theorem initial (db : Database) : ConnInv (AuthState.initial db) := by
  refine ⟨⟨fun r hr => ?_, List.nodup_nil, fun c w hw => ?_⟩, fun c w hw => ?_,
    fun c => ⟨fun hc => ?_, fun hc => ?_⟩, fun c w hw => ?_⟩
  · cases hr
  · cases hw
  · cases hw
  · cases hc
  · obtain ⟨w, hw, -⟩ := hc
    cases hw
  · cases hw

/-- A worker that has not returned goes on as one. -/
theorem worker (h : ConnInv s) (hw : s.conn c = some w)
    (hconn : s'.conn = Function.update s.conn c (some w')) (hlist : s'.authClients = s.authClients)
    (hplumbed : Plumbed s'.conn s'.channel)
    (hqueued : w'.waiting ≠ none → w'.reply = none → w'.putting = false →
      ∃ r ∈ s'.channel, r.conn = some c)
    (hothers : ∀ r ∈ s.channel, ∀ c', r.conn = some c' → c' ≠ c → r ∈ s'.channel)
    (hlive : w.ended = w'.ended) (hwait : w'.ended = true → w'.waiting = none) : ConnInv s' := by
  refine ⟨hplumbed, fun c' v hv hne hreply hput => ?_, fun c' => ?_, fun c' v hv hend => ?_⟩
  · rw [hconn] at hv
    obtain ⟨rfl, rfl⟩ | ⟨hc, hv⟩ := Lib.update_eq_some hv
    · exact hqueued hne hreply hput
    · obtain ⟨r, hr, hrc⟩ := h.queued c' v hv hne hreply hput
      exact ⟨r, hothers r hr c' hrc hc, hrc⟩
  · rw [hlist, h.listed, hconn]
    by_cases hc : c' = c
    · subst hc
      rw [Function.update_self, hw]
      simp [hlive]
    · rw [Function.update_of_ne hc]
  · rw [hconn] at hv
    obtain ⟨rfl, rfl⟩ | ⟨-, hv⟩ := Lib.update_eq_some hv
    · exact hwait hend
    · exact h.ended c' v hv hend

/-- A worker puts its request on the channel. -/
theorem put {r : AuthRequest} (h : ConnInv s) (hw : s.conn c = some w)
    (hfree : ∀ r ∈ s.channel, r.conn ≠ some c) (hlive : w.ended = false)
    (hconn : s'.conn = Function.update s.conn c (some w'))
    (hlist : s'.authClients = s.authClients) (hchan : s'.channel = s.channel ++ [r])
    (hr : r.conn = some c) (hwait : w'.waiting = r.pending) (hreply : w'.reply = none)
    (hput : w'.putting = false) (hend : w'.ended = w.ended) : ConnInv s' := by
  refine h.worker hw hconn hlist ?_ (fun _ _ _ => ⟨r, ?_, hr⟩) (fun r' hr' _ _ _ => ?_) hend.symm
    fun hdone => ?_
  · rw [hconn, hchan]
    exact h.plumbed.put hfree hr hwait hreply hput
  · rw [hchan]
    exact List.mem_append_right _ List.mem_cons_self
  · rw [hchan]
    exact List.mem_append_left _ hr'
  · rw [hend, hlive] at hdone
    cases hdone

/-- A worker that waits for nothing goes on. -/
theorem free (h : ConnInv s) (hw : s.conn c = some w) (hidle : w.waiting = none ∨ w.reply ≠ none)
    (hconn : s'.conn = Function.update s.conn c (some w')) (hlist : s'.authClients = s.authClients)
    (hchan : s'.channel = s.channel) (hwait : w'.waiting = none) (hput : w'.putting = w.putting)
    (hend : w'.ended = w.ended) : ConnInv s' := by
  have hnot := h.plumbed.not_putting hw (hidle.imp (by simp +contextual) .inl)
  refine h.worker hw hconn hlist ?_ (fun hne => absurd hwait hne) (fun r hr _ _ _ => hchan ▸ hr)
    hend.symm fun _ => hwait
  rw [hconn, hchan]
  refine h.plumbed.update (h.plumbed.unasked hw hidle) fun hputting => ?_
  rw [hput, hnot] at hputting
  cases hputting

/-- The daemon answers a worker. -/
theorem answer {r : AuthRequest} {rest : List AuthRequest} (h : ConnInv s) (hw : s.conn c = some w)
    (hold : s.channel = r :: rest) (hr : r.conn = some c)
    (hconn : s'.conn = Function.update s.conn c (some w')) (hlist : s'.authClients = s.authClients)
    (hchan : s'.channel = rest) (hreply : w'.reply ≠ none) (hwait : w'.waiting = w.waiting)
    (hput : w'.putting = w.putting) (hend : w'.ended = w.ended) : ConnInv s' := by
  refine h.worker hw hconn hlist ?_ (fun _ hnone => absurd hnone hreply) (fun r' hr' c' hc' hne => ?_)
    hend.symm fun hdone => ?_
  · rw [hconn, hchan]
    exact (hold ▸ h.plumbed).answer hr hw hput
  · rw [hold] at hr'
    rw [hchan]
    obtain rfl | hr' := List.mem_cons.1 hr'
    · rw [hr] at hc'
      exact absurd (Option.some.inj hc').symm hne
    · exact hr'
  · rw [hwait]
    exact h.ended c w hw (hend ▸ hdone)

/-- A step that leaves the workers alone. -/
theorem still (h : ConnInv s) (hconn : s'.conn = s.conn) (hlist : s'.authClients = s.authClients)
    (hplumbed : Plumbed s.conn s'.channel)
    (hchan : ∀ r ∈ s.channel, r.conn ≠ none → r ∈ s'.channel) : ConnInv s' := by
  refine ⟨hconn ▸ hplumbed, fun c v hv hne hreply hput => ?_, fun c => ?_, fun c v hv => ?_⟩
  · obtain ⟨r, hr, hrc⟩ := h.queued c v (hconn ▸ hv) hne hreply hput
    exact ⟨r, hchan r hr (by simp [hrc]), hrc⟩
  · rw [hlist, hconn]
    exact h.listed c
  · exact h.ended c v (hconn ▸ hv)

/-- Where the head of the channel is nobody's, the rest has all the requests. -/
theorem mem_rest {r r' : AuthRequest} {rest : List AuthRequest} (hold : s.channel = r :: rest)
    (hr : r.conn = none) (hmem : r' ∈ s.channel) (hr' : r'.conn ≠ none) : r' ∈ rest := by
  rw [hold] at hmem
  obtain rfl | hmem := List.mem_cons.1 hmem
  · exact absurd hr hr'
  · exact hmem

theorem step {cred : Credentials} {e : AuthEvent} (h : ConnInv s)
    (hs : authStep cred s e = some s') : ConnInv s' := by
  cases authStep_inv hs with
  | @connect c serverChallenge hnone =>
    have hfree : ∀ r ∈ s.channel, r.conn ≠ some c :=
      h.plumbed.idle fun v hv => by rw [hnone] at hv; cases hv
    refine ⟨h.plumbed.update hfree fun hputting => ?_, fun c' v hv hne hreply hput => ?_,
      fun c' => ?_, fun c' v hv hend => ?_⟩
    · cases hputting
    · obtain ⟨rfl, rfl⟩ | ⟨-, hv⟩ := AuthState.setConn_cases hv
      · exact absurd rfl hne
      · exact h.queued c' v hv hne hreply hput
    · rw [List.mem_append, h.listed, List.mem_singleton]
      by_cases hc : c' = c
      · subst hc
        simp [AuthState.setConn, Function.update_self]
      · simp [AuthState.setConn, hc]
    · obtain ⟨rfl, rfl⟩ | ⟨-, hv⟩ := AuthState.setConn_cases hv
      · cases hend
      · exact h.ended c' v hv hend
  | recvLogin hw hidle hlive | hangup hw hidle hlive =>
    have hnot := h.plumbed.not_putting hw (.inl (by simp [hidle]))
    exact h.put hw (h.plumbed.unasked hw (.inl hidle)) hlive rfl rfl rfl rfl rfl rfl hnot rfl
  | noPlayer hw hidle => exact h.free hw (.inl hidle) rfl rfl rfl hidle rfl rfl
  | recvSetPlayer hw hidle hlive =>
    have hunasked := h.plumbed.unasked hw (.inl hidle)
    refine h.worker hw rfl rfl (h.plumbed.update hunasked fun _ => ⟨rfl, rfl⟩)
      (fun _ _ hput => ?_) (fun r hr _ _ _ => hr) rfl fun hend => ?_
    · cases hput
    · cases hlive.symm.trans hend
  | @putSetPlayer c w hw hputting =>
    obtain ⟨hwait, hreply, hfree⟩ := h.plumbed.putting c w hw hputting
    have hlive : w.ended = false := by
      by_contra hend
      rw [h.ended c w hw (eq_true_of_ne_false hend)] at hwait
      cases hwait
    exact h.put hw hfree hlive rfl rfl rfl rfl hwait hreply rfl rfl
  | taken hw hreply => exact h.free hw (.inr hreply) rfl rfl rfl rfl rfl rfl
  | @left c w hw hreply hwait =>
    have hnot := h.plumbed.not_putting hw (.inr (.inl hreply))
    refine ⟨h.plumbed.update (h.plumbed.unasked hw (.inr hreply)) fun hputting => ?_,
      fun c' v hv hne hreply hput => ?_, fun c' => ?_, fun c' v hv hend => ?_⟩
    · cases hnot.symm.trans hputting
    · obtain ⟨rfl, rfl⟩ | ⟨-, hv⟩ := AuthState.setConn_cases hv
      · exact absurd rfl hne
      · exact h.queued c' v hv hne hreply hput
    · rw [List.mem_filter, h.listed]
      by_cases hc : c' = c
      · subst hc
        simp [AuthState.setConn, Function.update_self]
      · simp [AuthState.setConn, hc]
    · obtain ⟨rfl, rfl⟩ | ⟨-, hv⟩ := AuthState.setConn_cases hv
      · rfl
      · exact h.ended c' v hv hend
  | join | toggleRestrict =>
    exact h.still rfl rfl (h.plumbed.putFree rfl) fun r hr _ => List.mem_append_left _ hr
  | admin => exact h.still rfl rfl h.plumbed fun r hr _ => hr
  | login hchan hw | setPlayer hchan hw | disconnect hchan hw =>
    exact h.answer hw hchan rfl rfl rfl rfl (by simp) rfl rfl rfl
  | refuseJoin hchan | restrict hchan =>
    exact h.still rfl rfl (hchan ▸ h.plumbed).tail fun r hr hne => mem_rest hchan rfl hr hne
  | @acceptJoin _ _ _ _ _ c w _ _ _ hchan hfind hw =>
    refine h.worker hw rfl rfl ((hchan ▸ h.plumbed).tail.same hw rfl rfl rfl)
      (fun hne hreply hput => ?_) (fun r hr c' hc' _ => mem_rest hchan rfl hr (by simp [hc'])) rfl
      (h.ended c w hw)
    obtain ⟨r, hr, hrc⟩ := h.queued c w hw hne hreply hput
    exact ⟨r, mem_rest hchan rfl hr (by simp [hrc]), hrc⟩

end ConnInv

end Dirtsand.AuthServ
