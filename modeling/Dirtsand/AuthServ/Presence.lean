import Dirtsand.AuthServ.JoinAuth

/-!
# Who is online

The daemon marks all PlayerInfo nodes offline when it starts, those of a player
online when it answers a SetPlayer with success, and those of the player in the
record offline when the client is gone.

* `presence_exact` — in a run that meets `PresenceStepOk`, once the channel is
  empty, the nodes that are marked online are those of the current players of the
  connected clients.
* `left_player_online` — a client that goes on to no player leaves its nodes
  marked.
-/

namespace Dirtsand.AuthServ

/-- `dm_authDaemon`, before its loop. -/
def Database.markAllOffline (db : Database) : Database :=
  { db with infoNodes := db.infoNodes.map fun node => { node with int32_1 := 0 } }

/-- The auth server with its daemon started on some database. -/
def startedMachine (cred : Credentials) : Lib.Machine AuthState AuthEvent where
  start s := ∃ db : Database, s = AuthState.initial db.markAllOffline
  step := authStep cred

/-- The nodes marked online are those of current players, where the daemon has
nothing left to do; a player that a worker is just about to ask for is still to
be settled. -/
def PresenceExact (s : AuthState) (past : AuthPast) : Prop :=
  s.channel = [] → ∀ node ∈ s.db.infoNodes, (∀ c, ¬ s.Asks c node.uint32_1) →
    (node.int32_1 = 1 ↔ ∃ c, s.Connected c ∧ CurrentPlayer s past c node.uint32_1)

/-- The daemon's latest answer to the connection gave it the player, and the
daemon has not heard that it is gone. -/
structure AuthState.Shows (s : AuthState) (c : ConnId) (playerId : UInt32) : Prop where
  live : ∃ w, s.conn c = some w ∧ w.ended = false ∧ (w.waiting = some .disconnect → w.reply = none)
  answer : latestAnswer c s.log = some (playerId, .success)

/-- **The condition on a step.**  A client that has a player asks for no other
one, nor for none; the updates of the database succeed, and the broadcast after
one; a client that asks again for the player that it has is given it again; a
client that is gone has in its record no player of another one; and who else
writes PlayerInfo nodes adds only nodes of players that nobody has, marked
offline. -/
def PresenceStepOk (s : AuthState) : AuthEvent → Prop
  | .recvSetPlayer c playerId => ∀ p, s.Shows c p → playerId = p
  | .admin db => ∀ node ∈ db.infoNodes, node ∈ s.db.infoNodes ∨
      (node.int32_1 ≠ 1 ∧ ∀ c, ¬ s.Shows c node.uint32_1)
  | .handle _ setPlayer disconnect =>
    match s.channel with
    | .setPlayer c :: _ => setPlayer.update = .runs ∧ setPlayer.bcastThrows = false ∧
        (s.Shows c (s.playerIdOf c) → setPlayer.select = .runs ∧ s.elsewhere c = false ∧
          ∀ w, s.conn c = some w →
            (s.db.selectPlayer w.client.acctUuid w.client.player.playerId).length = 1)
    | .disconnect c :: _ => disconnect = .runs ∧ ∀ c', c' ≠ c → ¬ s.Shows c' (s.playerIdOf c)
    | _ => True
  | _ => True

/-! ## What the handlers do to the marks -/

theorem Database.mem_markPlayer {db : Database} {playerId : UInt32} {online : Int}
    {location : String} {node : PlayerInfoNode}
    (h : node ∈ (db.markPlayer playerId online location).infoNodes) :
    (node.uint32_1 = playerId ∧ node.int32_1 = online) ∨
      (node.uint32_1 ≠ playerId ∧ node ∈ db.infoNodes) := by
  obtain ⟨old, hold, rfl⟩ := List.mem_map.1 h
  split
  · rename_i hid
    exact .inl ⟨hid, rfl⟩
  · rename_i hid
    exact .inr ⟨hid, hold⟩

/-- Where the update runs and the broadcast raises no exception, the nodes are
marked just where the answer is success. -/
theorem dmAuthSetPlayer_marks {db db' : Database} {elsewhere : Bool} {fates : SetPlayerFates}
    {client client' : AuthClient} {result : NetResultCode} (hupd : fates.update = .runs)
    (hbcast : fates.bcastThrows = false)
    (h : dmAuthSetPlayer db elsewhere fates client = (client', db', result)) :
    (result = .success ∧ elsewhere = false ∧
      client'.player.playerId = client.player.playerId ∧
      db' = db.markPlayer client.player.playerId 1 "Lobby") ∨
    (result ≠ .success ∧ db' = db ∧ ¬ (fates.select = .runs ∧ elsewhere = false ∧
      (db.selectPlayer client.acctUuid client.player.playerId).length = 1)) := by
  unfold dmAuthSetPlayer at h
  rw [hupd, hbcast] at h
  dsimp only at h
  split at h
  · rename_i hsel
    cases h
    exact .inr ⟨by simp, rfl, by simp [hsel]⟩
  · rename_i hsel
    cases h
    exact .inr ⟨by simp, rfl, by simp [hsel]⟩
  · split at h
    · rename_i hrows
      cases h
      exact .inr ⟨by simp, rfl, by simp [hrows]⟩
    · rename_i hrows
      cases h
      exact .inr ⟨by simp, rfl, by simp [hrows]⟩
    · split at h
      · rename_i helse
        cases h
        exact .inr ⟨by simp, rfl, by simp [helse]⟩
      · rename_i helse
        cases h
        exact .inl ⟨rfl, by simpa using helse, rfl, rfl⟩

theorem dmAuthDisconnect_marks (db : Database) (client : AuthClient) :
    ∀ node ∈ (dmAuthDisconnect db .runs client).1.infoNodes,
      (node.uint32_1 = client.player.playerId ∧ node.uint32_1 ≠ 0 ∧ node.int32_1 ≠ 1) ∨
      ((client.player.playerId = 0 ∨ node.uint32_1 ≠ client.player.playerId) ∧
        node ∈ db.infoNodes) := by
  intro node hnode
  unfold dmAuthDisconnect at hnode
  split at hnode
  · rename_i hzero
    exact .inr ⟨.inl hzero, hnode⟩
  · rename_i hp
    obtain ⟨hid, hoff⟩ | ⟨hid, hold⟩ := Database.mem_markPlayer hnode
    · exact .inl ⟨hid, hid ▸ hp, by simp [hoff]⟩
    · exact .inr ⟨.inr hid, hold⟩

/-! ## The invariant -/

structure PresenceInv (s : AuthState) (past : AuthPast) : Prop where
  sessions : OneSessionInv s past
  asked : AskedInv s past
  record : ∀ c playerId, s.Shows c playerId →
    playerId ≠ 0 ∧ s.playerIdOf c = playerId ∧ latestRequest c past = some playerId
  marks : ∀ node ∈ s.db.infoNodes, node.int32_1 = 1 ↔ ∃ c, s.Shows c node.uint32_1

section Shows

variable {s s' : AuthState} {c c₀ : ConnId} {playerId : UInt32} {w w' : Worker}

/-- A step of `c₀` leaves what the others show. -/
theorem AuthState.shows_of_ne (hconn : s'.conn = Function.update s.conn c₀ (some w'))
    (hans : latestAnswer c s'.log = latestAnswer c s.log) (hne : c ≠ c₀) :
    s'.Shows c playerId ↔ s.Shows c playerId := by
  have heq : s'.conn c = s.conn c := by rw [hconn, Function.update_of_ne hne]
  constructor
  · rintro ⟨hlive, hshown⟩
    exact ⟨heq ▸ hlive, hans ▸ hshown⟩
  · rintro ⟨hlive, hshown⟩
    exact ⟨heq.symm ▸ hlive, hans.symm ▸ hshown⟩

/-- A worker that goes on without its disconnect being answered. -/
theorem AuthState.shows_of_worker (hw : s.conn c₀ = some w)
    (hconn : s'.conn = Function.update s.conn c₀ (some w'))
    (hans : latestAnswer c s'.log = latestAnswer c s.log) (hend : w'.ended = w.ended)
    (hgone : (w'.waiting = some .disconnect → w'.reply = none) ↔
      (w.waiting = some .disconnect → w.reply = none)) :
    s'.Shows c playerId ↔ s.Shows c playerId := by
  by_cases hc : c = c₀
  · subst hc
    have hself : s'.conn c = some w' := by rw [hconn, Function.update_self]
    constructor
    · rintro ⟨⟨v, hv, hlive, hstay⟩, hshown⟩
      obtain rfl := Option.some.inj (hself.symm.trans hv)
      exact ⟨⟨w, hw, hend ▸ hlive, hgone.1 hstay⟩, hans ▸ hshown⟩
    · rintro ⟨⟨v, hv, hlive, hstay⟩, hshown⟩
      obtain rfl := Option.some.inj (hw.symm.trans hv)
      exact ⟨⟨w', hself, hend.trans hlive, hgone.2 hstay⟩, hans.symm ▸ hshown⟩
  · exact shows_of_ne hconn hans hc

theorem AuthState.shows_congr (hconn : s'.conn = s.conn) (hlog : s'.log = s.log) :
    s'.Shows c playerId ↔ s.Shows c playerId := by
  constructor
  · rintro ⟨hlive, hshown⟩
    exact ⟨hconn ▸ hlive, hlog ▸ hshown⟩
  · rintro ⟨hlive, hshown⟩
    exact ⟨hconn.symm ▸ hlive, hlog.symm ▸ hshown⟩

end Shows

namespace PresenceInv

variable {cred : Credentials} {s s' : AuthState} {past past' : AuthPast} {e : AuthEvent}

theorem initial (db : Database) : PresenceInv (AuthState.initial db.markAllOffline) [] := by
  have hnobody : ∀ c playerId, ¬ (AuthState.initial db.markAllOffline).Shows c playerId := by
    rintro c playerId ⟨-, hshown⟩
    cases hshown
  refine ⟨.initial _, .initial _, fun c playerId hshows => absurd hshows (hnobody c playerId),
    fun node hnode => ?_⟩
  obtain ⟨old, -, rfl⟩ := List.mem_map.1 hnode
  constructor
  · intro hon
    cases hon
  · rintro ⟨c, hshows⟩
    exact absurd hshows (hnobody c _)

/-- A step that changes neither the marks nor who shows a player. -/
theorem keep (h : PresenceInv s past) (hsess : OneSessionInv s' past') (hasked : AskedInv s' past')
    (hdb : s'.db = s.db) (hshows : ∀ c playerId, s'.Shows c playerId ↔ s.Shows c playerId)
    (hrecord : ∀ c playerId, s.Shows c playerId →
      s'.playerIdOf c = s.playerIdOf c ∧ latestRequest c past' = latestRequest c past) :
    PresenceInv s' past' := by
  refine ⟨hsess, hasked, fun c playerId hshown => ?_, fun node hnode => ?_⟩
  · have hold := (hshows c playerId).1 hshown
    obtain ⟨hid, hreq⟩ := hrecord c playerId hold
    rw [hid, hreq]
    exact h.record c playerId hold
  · rw [hdb] at hnode
    simp only [hshows]
    exact h.marks node hnode

/-- The worker whose request is handled. -/
theorem waiting_for (h : PresenceInv s past) {r : AuthRequest} {rest : List AuthRequest} {c : ConnId}
    {w : Worker} (hchan : s.channel = r :: rest) (hr : r.conn = some c) (hw : s.conn c = some w) :
    w.waiting = r.pending ∧ w.reply = none ∧ w.ended = false := by
  obtain ⟨v, hv, hwait, hreply⟩ :=
    h.sessions.conns.plumbed.waits r (hchan ▸ List.mem_cons_self) c hr
  obtain rfl : w = v := Option.some.inj (hw ▸ hv)
  refine ⟨hwait, hreply, ?_⟩
  cases hend : w.ended with
  | false => rfl
  | true =>
    rw [h.sessions.conns.ended c w hw hend] at hwait
    exact absurd hwait.symm (AuthRequest.pending_ne_none hr)

theorem setPlayer {c₀ : ConnId} {rest : List AuthRequest} {w : Worker} {login : LoginFates}
    {fates : SetPlayerFates} {disconnect : QueryFate} {client : AuthClient} {db : Database}
    {result : NetResultCode} (h : PresenceInv s past)
    (hok : PresenceStepOk s (.handle login fates disconnect))
    (hsess : OneSessionInv s' past') (hasked : AskedInv s' past')
    (hreq : ∀ c, latestRequest c past' = latestRequest c past)
    (hchan : s.channel = .setPlayer c₀ :: rest) (hw : s.conn c₀ = some w)
    (hrun : dmAuthSetPlayer s.db (s.elsewhere c₀) fates w.client = (client, db, result))
    (hconn : s'.conn = Function.update s.conn c₀
      (some { w with client := client, reply := some result }))
    (hdb : s'.db = db)
    (hlog : s'.log = .setPlayer c₀ w.client.player.playerId result :: s.log) :
    PresenceInv s' past' := by
  obtain ⟨hwait, hreply, hlive⟩ := h.waiting_for hchan rfl hw
  have hstay : ¬ w.waiting = some .disconnect := by simp [hwait, AuthRequest.pending]
  have hid : s.playerIdOf c₀ = w.client.player.playerId := by simp only [AuthState.playerIdOf, hw]
  simp only [PresenceStepOk, hchan] at hok
  obtain ⟨hupd, hbcast, hagain⟩ := hok
  have hself : latestAnswer c₀ s'.log = some (w.client.player.playerId, result) := by
    rw [hlog, latestAnswer, if_pos rfl]
  have hother : ∀ c, c ≠ c₀ → latestAnswer c s'.log = latestAnswer c s.log := by
    intro c hne
    rw [hlog, latestAnswer, if_neg (Ne.symm hne)]
  have hrecord : ∀ c playerId, c ≠ c₀ → s.Shows c playerId →
      playerId ≠ 0 ∧ s'.playerIdOf c = playerId ∧ latestRequest c past' = some playerId := by
    intro c playerId hne hshows
    rw [hreq, AuthState.playerIdOf, hconn, Function.update_of_ne hne]
    exact h.record c playerId hshows
  obtain ⟨rfl, -, hkept, rfl⟩ | ⟨hfail, rfl, hnot⟩ := dmAuthSetPlayer_marks hupd hbcast hrun
  · have hnew : s'.Shows c₀ w.client.player.playerId := by
      refine ⟨⟨_, (congrFun hconn c₀).trans (Function.update_self ..), hlive, fun hgone => ?_⟩, hself⟩
      exact absurd hgone hstay
    refine ⟨hsess, hasked, fun c playerId hshows => ?_, fun node hnode => ?_⟩
    · by_cases hc : c = c₀
      · subst hc
        have hans := hshows.answer
        rw [hself, Option.some.injEq, Prod.mk.injEq] at hans
        obtain ⟨rfl, -⟩ := hans
        obtain ⟨hp, hlast⟩ := h.asked c w hw hwait hreply
        refine ⟨hp, ?_, (hreq c).trans hlast⟩
        rw [AuthState.playerIdOf, hconn, Function.update_self]
        exact hkept
      · exact hrecord c playerId hc ((AuthState.shows_of_ne hconn (hother c hc) hc).1 hshows)
    · rw [hdb] at hnode
      obtain ⟨hnid, hon⟩ | ⟨hnid, hold⟩ := Database.mem_markPlayer hnode
      · exact ⟨fun _ => ⟨c₀, hnid ▸ hnew⟩, fun _ => hon⟩
      · rw [h.marks node hold]
        constructor
        · rintro ⟨c, hshows⟩
          by_cases hc : c = c₀
          · subst hc
            obtain ⟨-, hrec, -⟩ := h.record c _ hshows
            exact absurd (hrec.symm.trans hid) hnid
          · exact ⟨c, (AuthState.shows_of_ne hconn (hother c hc) hc).2 hshows⟩
        · rintro ⟨c, hshows⟩
          by_cases hc : c = c₀
          · subst hc
            have hans := hshows.answer
            rw [hself, Option.some.injEq, Prod.mk.injEq] at hans
            exact absurd hans.1.symm hnid
          · exact ⟨c, (AuthState.shows_of_ne hconn (hother c hc) hc).1 hshows⟩
  · -- A client that had the player would have been given it again.
    have hbefore : ∀ playerId, ¬ s.Shows c₀ playerId := by
      intro playerId hshows
      obtain ⟨-, hrec, -⟩ := h.record c₀ playerId hshows
      obtain ⟨hsel, helse, hone⟩ := hagain (hrec.symm ▸ hshows)
      exact hnot ⟨hsel, helse, hone w hw⟩
    have hafter : ∀ playerId, ¬ s'.Shows c₀ playerId := by
      intro playerId hshows
      have hans := hshows.answer
      rw [hself, Option.some.injEq, Prod.mk.injEq] at hans
      exact hfail hans.2
    refine h.keep hsess hasked hdb (fun c playerId => ?_) fun c playerId hshows => ?_
    · by_cases hc : c = c₀
      · subst hc
        exact ⟨fun hshows => absurd hshows (hafter playerId),
          fun hshows => absurd hshows (hbefore playerId)⟩
      · exact AuthState.shows_of_ne hconn (hother c hc) hc
    · have hne : c ≠ c₀ := by
        rintro rfl
        exact hbefore playerId hshows
      refine ⟨?_, hreq c⟩
      simp only [AuthState.playerIdOf, hconn, Function.update_of_ne hne]

theorem disconnect {c₀ : ConnId} {rest : List AuthRequest} {w : Worker} {login : LoginFates}
    {setPlayer : SetPlayerFates} {fate : QueryFate} (h : PresenceInv s past)
    (hok : PresenceStepOk s (.handle login setPlayer fate))
    (hsess : OneSessionInv s' past') (hasked : AskedInv s' past')
    (hreq : ∀ c, latestRequest c past' = latestRequest c past)
    (hchan : s.channel = .disconnect c₀ :: rest) (hw : s.conn c₀ = some w)
    (hconn : s'.conn = Function.update s.conn c₀
      (some { w with reply := some (dmAuthDisconnect s.db fate w.client).2 }))
    (hdb : s'.db = (dmAuthDisconnect s.db fate w.client).1) (hlog : s'.log = s.log) :
    PresenceInv s' past' := by
  obtain ⟨hwait, -, -⟩ := h.waiting_for hchan rfl hw
  have hid : s.playerIdOf c₀ = w.client.player.playerId := by simp only [AuthState.playerIdOf, hw]
  simp only [PresenceStepOk, hchan] at hok
  obtain ⟨rfl, hothers⟩ := hok
  rw [hid] at hothers
  have hafter : ∀ playerId, ¬ s'.Shows c₀ playerId := by
    rintro playerId ⟨⟨v, hv, -, hstay⟩, -⟩
    rw [hconn, Function.update_self] at hv
    obtain rfl := Option.some.inj hv
    cases hstay hwait
  have hother : ∀ c playerId, c ≠ c₀ → (s'.Shows c playerId ↔ s.Shows c playerId) :=
    fun c playerId hne => AuthState.shows_of_ne hconn (by rw [hlog]) hne
  refine ⟨hsess, hasked, fun c playerId hshows => ?_, fun node hnode => ?_⟩
  · have hne : c ≠ c₀ := by
      rintro rfl
      exact hafter playerId hshows
    rw [hreq, AuthState.playerIdOf, hconn, Function.update_of_ne hne]
    exact h.record c playerId ((hother c playerId hne).1 hshows)
  · rw [hdb] at hnode
    obtain ⟨hnid, -, hoff⟩ | ⟨hnid, hold⟩ := dmAuthDisconnect_marks s.db w.client node hnode
    · refine ⟨fun hon => absurd hon hoff, ?_⟩
      rintro ⟨c, hshows⟩
      by_cases hc : c = c₀
      · subst hc
        exact absurd hshows (hafter _)
      · exact absurd ((hother c _ hc).1 hshows) (hnid ▸ hothers c hc)
    · rw [h.marks node hold]
      constructor
      · rintro ⟨c, hshows⟩
        by_cases hc : c = c₀
        · subst hc
          obtain ⟨hp, hrec, -⟩ := h.record c _ hshows
          have heq := hrec.symm.trans hid
          obtain hzero | hne := hnid
          · exact absurd (heq.trans hzero) hp
          · exact absurd heq hne
        · exact ⟨c, (hother c _ hc).2 hshows⟩
      · rintro ⟨c, hshows⟩
        by_cases hc : c = c₀
        · subst hc
          exact absurd hshows (hafter _)
        · exact ⟨c, (hother c _ hc).1 hshows⟩

/-- A worker step with the player that the record has. -/
theorem keep_worker {c₀ : ConnId} {w w' : Worker} (h : PresenceInv s past)
    (hsess : OneSessionInv s' past') (hasked : AskedInv s' past') (hw : s.conn c₀ = some w)
    (hconn : s'.conn = Function.update s.conn c₀ (some w')) (hdb : s'.db = s.db)
    (hans : ∀ c, latestAnswer c s'.log = latestAnswer c s.log)
    (hid : w'.client.player.playerId = w.client.player.playerId) (hend : w'.ended = w.ended)
    (hgone : (w'.waiting = some .disconnect → w'.reply = none) ↔
      (w.waiting = some .disconnect → w.reply = none))
    (hreq : ∀ c, latestRequest c past' = latestRequest c past) : PresenceInv s' past' := by
  refine h.keep hsess hasked hdb (fun c playerId => ?_) fun c playerId _ => ⟨?_, hreq c⟩
  · exact AuthState.shows_of_worker hw hconn (hans c) hend hgone
  · exact playerIdOf_update hw hconn hid c

theorem step (h : PresenceInv s past) (hok : PresenceStepOk s e)
    (hs : authStep cred s e = some s') : PresenceInv s' ((s, e) :: past) := by
  have hsess := h.sessions.step hs
  have hasked := h.asked.step hs
  cases authStep_inv hs with
  | @connect c₀ serverChallenge hnone =>
    have hfresh := h.sessions.fresh c₀ hnone
    refine h.keep hsess hasked rfl (fun c playerId => ?_) fun c playerId hshows => ⟨?_, rfl⟩
    · by_cases hc : c = c₀
      · subst hc
        constructor
        · rintro ⟨-, hshown⟩
          cases hfresh.symm.trans hshown
        · rintro ⟨-, hshown⟩
          cases hfresh.symm.trans hshown
      · exact AuthState.shows_of_ne rfl rfl hc
    · have hne : c ≠ c₀ := by
        rintro rfl
        cases hfresh.symm.trans hshows.answer
      simp only [AuthState.playerIdOf, AuthState.setConn, Function.update_of_ne hne]
  | recvLogin hw hidle hlive =>
    exact h.keep_worker hsess hasked hw rfl rfl (fun _ => rfl) rfl rfl (by simp [hidle]) fun _ => rfl
  | @noPlayer c₀ w hw hidle hlive =>
    refine h.keep hsess hasked rfl (fun c playerId => ?_) fun c playerId hshows => ?_
    · exact AuthState.shows_of_worker hw rfl rfl rfl Iff.rfl
    · have hne : c ≠ c₀ := by
        rintro rfl
        obtain ⟨hp, -⟩ := h.record c playerId hshows
        exact hp (hok playerId hshows).symm
      refine ⟨?_, if_neg (Ne.symm hne)⟩
      simp only [AuthState.playerIdOf, AuthState.setConn, Function.update_of_ne hne]
  | @recvSetPlayer c₀ p w hw hidle hlive hp =>
    refine h.keep hsess hasked rfl (fun c playerId => ?_) fun c playerId hshows => ?_
    · exact AuthState.shows_of_worker hw rfl rfl rfl (by simp [hidle])
    · by_cases hc : c = c₀
      · subst hc
        obtain ⟨-, hid, hreq⟩ := h.record c playerId hshows
        obtain rfl := hok playerId hshows
        rw [hid, hreq]
        refine ⟨?_, if_pos rfl⟩
        simp only [AuthState.playerIdOf, AuthState.setConn, Function.update_self]
        rfl
      · refine ⟨?_, if_neg (Ne.symm hc)⟩
        simp only [AuthState.playerIdOf, AuthState.setConn, Function.update_of_ne hc]
  | putSetPlayer hw =>
    exact h.keep_worker hsess hasked hw rfl rfl (fun _ => rfl) rfl rfl Iff.rfl fun _ => rfl
  | hangup hw hidle hlive =>
    exact h.keep_worker hsess hasked hw rfl rfl (fun _ => rfl) rfl rfl (by simp [hidle]) fun _ => rfl
  | taken hw hreply hwait =>
    exact h.keep_worker hsess hasked hw rfl rfl (fun _ => rfl) rfl rfl (by simp [hwait]) fun _ => rfl
  | @left c₀ w hw hreply hwait =>
    have hgone : ∀ playerId, ¬ s.Shows c₀ playerId := by
      rintro playerId ⟨⟨v, hv, -, hstay⟩, -⟩
      obtain rfl := Option.some.inj (hw.symm.trans hv)
      exact hreply (hstay hwait)
    refine h.keep hsess hasked rfl (fun c playerId => ?_) fun c playerId _ => ⟨?_, rfl⟩
    · by_cases hc : c = c₀
      · subst hc
        refine ⟨?_, fun hshows => absurd hshows (hgone playerId)⟩
        rintro ⟨⟨v, hv, hlive, -⟩, -⟩
        obtain ⟨-, rfl⟩ | ⟨hne, -⟩ := AuthState.setConn_cases hv
        · cases hlive
        · exact absurd rfl hne
      · exact AuthState.shows_of_ne rfl rfl hc
    · refine playerIdOf_update hw rfl ?_ c
      rfl
  | join | toggleRestrict | refuseJoin | restrict =>
    exact h.keep hsess hasked rfl (fun c playerId => AuthState.shows_congr rfl rfl)
      fun c playerId _ => ⟨rfl, rfl⟩
  | @admin db hk =>
    have hshows : ∀ c playerId, AuthState.Shows { s with db := db } c playerId ↔ s.Shows c playerId :=
      fun c playerId => AuthState.shows_congr rfl rfl
    refine ⟨hsess, hasked, fun c playerId hshown => h.record c playerId ((hshows c playerId).1 hshown),
      fun node hnode => ?_⟩
    simp only [hshows]
    obtain hold | ⟨hoff, hnobody⟩ := hok node hnode
    · exact h.marks node hold
    · refine ⟨fun hon => absurd hon hoff, ?_⟩
      rintro ⟨c, hshown⟩
      exact absurd hshown (hnobody c)
  | login hchan hw hrun =>
    obtain ⟨hwait, -⟩ := h.waiting_for hchan rfl hw
    refine h.keep_worker hsess hasked hw rfl rfl (fun _ => rfl) ?_ rfl
      (by simp [hwait, AuthRequest.pending]) fun _ => rfl
    exact congrArg PlayerInfo.playerId (dmAuthLogin_player hrun)
  | setPlayer hchan hw hrun =>
    exact h.setPlayer hok hsess hasked (fun _ => rfl) hchan hw hrun rfl rfl rfl
  | disconnect hchan hw =>
    exact h.disconnect hok hsess hasked (fun _ => rfl) hchan hw rfl rfl rfl
  | acceptJoin hchan hfind hw =>
    exact h.keep_worker hsess hasked hw rfl rfl (fun _ => rfl) rfl rfl Iff.rfl fun _ => rfl

/-- Where the daemon has nothing left to do, a client shows the player that it has. -/
theorem exact (h : PresenceInv s past) : PresenceExact s past := by
  intro hempty node hnode hnobody
  rw [h.marks node hnode]
  constructor
  · rintro ⟨c, hshows⟩
    obtain ⟨w, hw, hlive, hstay⟩ := hshows.live
    obtain ⟨-, hid, hreq⟩ := h.record c _ hshows
    have hanswered : w.waiting ≠ none → w.reply ≠ none := by
      intro hwait hreply
      have hput : w.putting = false := by
        by_contra hputting
        exact hnobody c ⟨.inr ⟨w, hw, eq_true_of_ne_false hputting⟩, hid⟩
      obtain ⟨r, hr, -⟩ := h.sessions.conns.queued c w hw hwait hreply hput
      rw [hempty] at hr
      cases hr
    refine ⟨c, ⟨w, hw, hlive, fun hgone => ?_⟩, ?_, fun v hv hwait => ?_, hreq, hshows.answer⟩
    · exact hanswered (by simp [hgone]) (hstay hgone)
    · exact (h.sessions.conns.listed c).2 ⟨w, hw, hlive⟩
    · obtain rfl := Option.some.inj (hw.symm.trans hv)
      exact hanswered (by simp [hwait])
  · rintro ⟨c, ⟨w, hw, hlive, hstay⟩, hcur⟩
    exact ⟨c, ⟨w, hw, hlive, fun hgone => absurd hgone hstay⟩, hcur.answer⟩

end PresenceInv

/-- A worker that is about to put a request is one of `s_authClients`. -/
theorem ConnInv.listed_of_putting {s : AuthState} {c : ConnId} (h : ConnInv s)
    (hputting : s.Putting c) : c ∈ s.authClients := by
  obtain ⟨w, hw, hput⟩ := hputting
  refine (h.listed c).2 ⟨w, hw, ?_⟩
  by_contra hend
  have hwait := (h.plumbed.putting c w hw hput).1
  rw [h.ended c w hw (eq_true_of_ne_false hend)] at hwait
  cases hwait

/-- One client that is not about to put a request is all there is. -/
theorem ConnInv.not_asks {s : AuthState} {c : ConnId} (h : ConnInv s) (hempty : s.channel = [])
    (hlist : s.authClients = [c]) (hput : (s.conn c).map Worker.putting = some false)
    (c' : ConnId) (playerId : UInt32) : ¬ s.Asks c' playerId := by
  rintro ⟨hmem | hputting, -⟩
  · rw [hempty] at hmem
    cases hmem
  have hmem := h.listed_of_putting hputting
  rw [hlist, List.mem_singleton] at hmem
  subst hmem
  obtain ⟨w, hw, hput'⟩ := hputting
  rw [hw, Option.map_some, Option.some.injEq] at hput
  cases hput.symm.trans hput'

/-- **The nodes marked online are those of current players**, in every run whose
steps meet `PresenceStepOk`. -/
theorem presence_exact (cred : Credentials) {p : AuthState × AuthPast}
    (h : (startedMachine cred).withHistory.ReachableWith (fun p e => PresenceStepOk p.1 e) p) :
    PresenceExact p.1 p.2 := by
  have hinv : PresenceInv p.1 p.2 := by
    refine Lib.Machine.withHistory_invariant (I := PresenceInv) ?_ ?_ h
    · rintro s ⟨db, rfl⟩
      exact .initial db
    · exact fun s past e s' hinv hok hs => hinv.step hok hs
  exact hinv.exact

theorem connInv_of_started {cred : Credentials} {p : AuthState × AuthPast}
    (h : (startedMachine cred).withHistory.Reachable p) : ConnInv p.1 := by
  refine Lib.Machine.withHistory_invariant (I := fun s _ => ConnInv s) ?_ ?_ h
  · rintro s ⟨db, rfl⟩
    exact .initial _
  · exact fun s _ e s' hinv _ hs => hinv.step hs

/-- The account of player 7, and the PlayerInfo node of the player. -/
def onePlayerNode : Database :=
  { oneAccount 0 with infoNodes := [⟨100, 7, 1, "Lobby", .null⟩] }

/-- The account picks the player, and its node is marked. -/
theorem presence_exact_pick : ∃ p, (startedMachine plainCredentials).withHistory.run
      (.initial onePlayerNode.markAllOffline, []) loginAndPick = some p ∧
    p.1.db.infoNodes = [⟨100, 7, 1, "Lobby", .null⟩] ∧
    ∃ c, p.1.Connected c ∧ CurrentPlayer p.1 p.2 c 7 := by
  have hok : (startedMachine plainCredentials).OkRun PresenceStepOk
      (.initial onePlayerNode.markAllOffline) loginAndPick := by
    have hnobody : ∀ (s : AuthState) (c : ConnId) (playerId : UInt32),
        latestAnswer c s.log = none → ¬ s.Shows c playerId := by
      intro s c playerId hnone hshows
      cases hnone.symm.trans hshows.answer
    refine And.intro trivial (And.intro trivial (And.intro trivial (And.intro trivial
      (And.intro ?_ (And.intro trivial (And.intro ?_ trivial))))))
    · exact fun playerId hshows => absurd hshows (hnobody _ _ _ rfl)
    · exact ⟨rfl, rfl, fun hshows => absurd hshows (hnobody _ _ _ rfl)⟩
  have hstart : (startedMachine plainCredentials).withHistory.start
      (.initial onePlayerNode.markAllOffline, []) := ⟨⟨_, rfl⟩, rfl⟩
  have hend : ((startedMachine plainCredentials).withHistory.run
      (.initial onePlayerNode.markAllOffline, []) loginAndPick).map
      (fun p => (p.1.db.infoNodes, p.1.channel, p.1.authClients,
        (p.1.conn 0).map Worker.putting)) =
      some ([⟨100, 7, 1, "Lobby", .null⟩], [], [0], some false) := by decide
  obtain ⟨p, hrun, hp⟩ := (Lib.Machine.ReachableWith.start hstart).run (hok.withHistory [])
  rw [hrun, Option.map_some, Option.some.injEq] at hend
  simp only [Prod.mk.injEq] at hend
  obtain ⟨hnodes, hempty, hlist, hput⟩ := hend
  refine ⟨p, hrun, hnodes, ?_⟩
  have hnobody := (connInv_of_started hp.reachable).not_asks hempty hlist hput
  have hexact := presence_exact plainCredentials hp hempty ⟨100, 7, 1, "Lobby", .null⟩
    (by rw [hnodes]; exact List.mem_singleton_self _) fun c => hnobody c 7
  exact hexact.1 rfl

/-- A run of logins, SetPlayers and disconnects, with the updates of the database
successful. -/
def UpdatesRun (_ : AuthState) : AuthEvent → Prop
  | .handle _ setPlayer disconnect => setPlayer.update = .runs ∧ disconnect = .runs
  | .admin _ => False
  | _ => True

set_option synthInstance.maxSize 2000 in
/-- **Who goes on to no player stays online.** -/
theorem left_player_online :
    ¬ ∀ p, (startedMachine plainCredentials).withHistory.ReachableWith
      (fun p e => UpdatesRun p.1 e) p → PresenceExact p.1 p.2 := by
  intro hall
  have hok : (startedMachine plainCredentials).OkRun UpdatesRun
      (.initial onePlayerNode.markAllOffline)
      (loginAndPick ++ [.recvReply 0, .recvSetPlayer 0 0]) :=
    And.intro trivial (And.intro trivial (And.intro ⟨rfl, rfl⟩ (And.intro trivial
      (And.intro trivial (And.intro trivial (And.intro ⟨rfl, rfl⟩ (And.intro trivial
        (And.intro trivial trivial))))))))
  have hstart : (startedMachine plainCredentials).withHistory.start
      (.initial onePlayerNode.markAllOffline, []) := ⟨⟨_, rfl⟩, rfl⟩
  have hend : ((startedMachine plainCredentials).withHistory.run
      (.initial onePlayerNode.markAllOffline, [])
      (loginAndPick ++ [.recvReply 0, .recvSetPlayer 0 0])).map
      (fun p => (p.1.db.infoNodes, p.1.channel, p.1.authClients, (p.1.conn 0).map Worker.putting,
        latestRequest 0 p.2)) =
      some ([⟨100, 7, 1, "Lobby", .null⟩], [], [0], some false, some 0) := by decide
  obtain ⟨p, hrun, hp⟩ := (Lib.Machine.ReachableWith.start hstart).run (hok.withHistory [])
  rw [hrun, Option.map_some, Option.some.injEq] at hend
  simp only [Prod.mk.injEq] at hend
  obtain ⟨hnodes, hempty, hlist, hput, hreq⟩ := hend
  have hnobody := (connInv_of_started hp.reachable).not_asks hempty hlist hput
  have hexact := hall p hp hempty ⟨100, 7, 1, "Lobby", .null⟩
    (by rw [hnodes]; exact List.mem_singleton_self _) fun c => hnobody c 7
  obtain ⟨c, -, hcur⟩ := hexact.1 rfl
  have hlisted := hcur.listed
  rw [hlist, List.mem_singleton] at hlisted
  subst hlisted
  cases hreq.symm.trans hcur.request

end Dirtsand.AuthServ
