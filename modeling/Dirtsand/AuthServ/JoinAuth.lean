import Dirtsand.AuthServ.OneSession

/-!
# Who may join

A game host asks the auth daemon whether a player may join, and
`dm_auth_updateAgeSrv` says yes if a client of `s_authClients` has the player in
its record.  The record has the player from the moment the client asked for it.

* `joins_authorised` — in a run that meets `JoinStepOk`, every join that is
  accepted is for the current player of a connected client, with the admin flag
  of the account that owns the player, and no other one has the flag.
* `unvalidated_join` — a run in which a join is accepted for a player that
  somebody has just asked for, without a login.
-/

namespace Dirtsand.AuthServ

/-- The worker has not left its loop. -/
def AuthState.Connected (s : AuthState) (c : ConnId) : Prop :=
  ∃ w, s.conn c = some w ∧ w.ended = false ∧ w.waiting ≠ some .disconnect

/-- The account that owns the player, with these flags. -/
def Database.OwnerFlags (db : Database) (playerId acctFlags : UInt32) : Prop :=
  ∃ row ∈ db.accounts, db.Owns row.acctUuid playerId ∧ row.acctFlags = acctFlags

/-- What a reply to a join has to say, in the state in which it is decided. -/
structure JoinAuthorised (s : AuthState) (past : AuthPast) (playerId : UInt32)
    (reply : JoinReply) : Prop where
  player : reply.result = .success → ∃ c, s.Connected c ∧ CurrentPlayer s past c playerId
  admin : reply.result = .success → ∃ acctFlags, s.db.OwnerFlags playerId acctFlags ∧
    (reply.isAdmin = true ↔ acctFlags &&& acctAdmin ≠ 0)
  refused : reply.result ≠ .success → reply.isAdmin = false

/-- If the last step was the handling of a join, then its reply is right. -/
def LastJoinAuthorised (s' : AuthState) : AuthPast → Prop
  | (s, .handle ..) :: past => ∀ h playerId ageNodeId isAdmin rest,
      s.channel = .updateAgeSrv h playerId ageNodeId isAdmin :: rest →
      ∃ reply, s'.joinReply h = some reply ∧ JoinAuthorised s past playerId reply
  | _ => True

/-- **The condition on a step.**  A login with the right password does not change
the account under a player that the client has in its record; a SetPlayer is
handled without an exception, and its player is not one of the null account;
when a join is handled, no client that has the player in its record has its
SetPlayer still to be answered or has hung up, and if no client has the player
then `m_isAdmin` happens to be false; and an account changes only while nobody is
logged in to it or has one of its players. -/
def JoinStepOk (cred : Credentials) (s : AuthState) : AuthEvent → Prop
  | .handle login setPlayer _ =>
    match s.channel with
    | .clientLogin c info :: _ => ∀ w row, s.conn c = some w →
        acceptedAccount cred s.db login info w.client = some row →
        w.client.player.playerId ≠ 0 → s.db.Owns row.acctUuid w.client.player.playerId
    | .setPlayer c :: _ => ¬ setPlayer.Throws ∧ ¬ s.db.Owns .null (s.playerIdOf c)
    | .updateAgeSrv _ playerId _ isAdmin :: _ =>
        (∀ c w, c ∈ s.authClients → s.conn c = some w → w.client.player.playerId = playerId →
          w.Settled ∧ w.waiting ≠ some .disconnect) ∧
        ((∀ c ∈ s.authClients, s.playerIdOf c ≠ playerId) → isAdmin = false)
    | _ => True
  | .admin db => ∀ row ∈ s.db.accounts, (∃ c w, s.conn c = some w ∧
      (w.client.acctUuid = row.acctUuid ∨ (w.client.player.playerId ≠ 0 ∧
        s.db.Owns row.acctUuid w.client.player.playerId))) → row ∈ db.accounts
  | _ => True

/-! ## What the handlers do to the account -/

theorem dmAuthSetPlayer_account {db db' : Database} {elsewhere : Bool} {fates : SetPlayerFates}
    {client client' : AuthClient} {result : NetResultCode}
    (h : dmAuthSetPlayer db elsewhere fates client = (client', db', result)) :
    client'.acctUuid = client.acctUuid ∧ client'.acctFlags = client.acctFlags ∧
      db'.accounts = db.accounts ∧ db'.players = db.players := by
  unfold dmAuthSetPlayer at h
  dsimp only at h
  split at h
  · cases h
    exact ⟨rfl, rfl, rfl, rfl⟩
  · cases h
    exact ⟨rfl, rfl, rfl, rfl⟩
  · split at h
    · cases h
      exact ⟨rfl, rfl, rfl, rfl⟩
    · cases h
      exact ⟨rfl, rfl, rfl, rfl⟩
    · split at h
      · cases h
        exact ⟨rfl, rfl, rfl, rfl⟩
      · split at h <;> cases h <;> exact ⟨rfl, rfl, rfl, rfl⟩

/-- Without an exception, the player id that stays is one that was found. -/
theorem dmAuthSetPlayer_calm {db db' : Database} {elsewhere : Bool} {fates : SetPlayerFates}
    {client client' : AuthClient} {result : NetResultCode} (hcalm : ¬ fates.Throws)
    (h : dmAuthSetPlayer db elsewhere fates client = (client', db', result)) :
    client'.player.playerId = 0 ∨ (result = .success ∧
      client'.player.playerId = client.player.playerId ∧
      db.Owns client.acctUuid client.player.playerId) := by
  obtain ⟨hsel, hcalm⟩ := not_or.1 hcalm
  obtain ⟨hupd, hbcast⟩ := not_or.1 hcalm
  unfold dmAuthSetPlayer at h
  dsimp only at h
  split at h
  · rename_i hf
    exact absurd hf hsel
  · cases h
    exact .inl rfl
  · split at h
    · cases h
      exact .inl rfl
    · cases h
      exact .inl rfl
    · rename_i row hrows
      have howns : db.Owns client.acctUuid client.player.playerId := by
        rw [Database.Owns, hrows]
        exact List.cons_ne_nil _ _
      split at h
      · cases h
        exact .inl rfl
      · split at h
        · rename_i hf
          exact absurd hf hupd
        · cases h
          exact .inr ⟨rfl, rfl, howns⟩
        · cases h
          exact .inr ⟨rfl, rfl, howns⟩

theorem dmAuthDisconnect_accounts (db : Database) (fate : QueryFate) (client : AuthClient) :
    (dmAuthDisconnect db fate client).1.accounts = db.accounts := by
  unfold dmAuthDisconnect
  split
  · rfl
  · cases fate <;> rfl

/-- A login leaves the account whose password it has in the record, or none. -/
theorem dmAuthLogin_account {cred : Credentials} {db : Database} {restrictLogins : Bool}
    {fates : LoginFates} {info info' : LoginInfo} {client client' : AuthClient}
    {result : NetResultCode}
    (hrun : dmAuthLogin cred db restrictLogins fates info client = (client', info', result)) :
    (client'.acctUuid = .null ∧ client'.acctFlags = client.acctFlags) ∨
      ∃ row, acceptedAccount cred db fates info client = some row ∧
        client'.acctUuid = row.acctUuid ∧ client'.acctFlags = row.acctFlags := by
  cases hacc : acceptedAccount cred db fates info client with
  | none =>
    obtain ⟨r, hr, -⟩ := dmAuthLogin_none cred db restrictLogins fates info client hacc
    rw [hr] at hrun
    cases hrun
    exact .inl ⟨rfl, rfl⟩
  | some row =>
    obtain ⟨i, r, hr, -⟩ := dmAuthLogin_some cred db restrictLogins fates info client hacc
    rw [hr] at hrun
    cases hrun
    exact .inr ⟨row, rfl, rfl, rfl⟩

theorem acceptedAccount_mem {cred : Credentials} {db : Database} {fates : LoginFates}
    {info : LoginInfo} {client : AuthClient} {row : AccountRow}
    (h : acceptedAccount cred db fates info client = some row) : row ∈ db.accounts := by
  unfold acceptedAccount at h
  split at h
  · rename_i row' _ hrows
    split at h
    · cases h
      have hmem : row ∈ db.selectAccounts cred info.acctName := by
        rw [hrows]
        exact List.mem_singleton_self _
      exact (List.mem_filter.1 hmem).1
    · cases h
  · cases h

/-! ## The invariant -/

/-- The connection has its player from a SetPlayer that succeeded. -/
structure Picked (db : Database) (past : AuthPast) (log : List SessionEvent) (c : ConnId)
    (client : AuthClient) : Prop where
  request : latestRequest c past = some client.player.playerId
  answer : latestAnswer c log = some (client.player.playerId, .success)
  owner : db.OwnerFlags client.player.playerId client.acctFlags

structure AccountInv (s : AuthState) (past : AuthPast) : Prop where
  sessions : OneSessionInv s past
  account : ∀ c w, s.conn c = some w → w.client.acctUuid ≠ .null →
    ∃ row ∈ s.db.accounts, row.acctUuid = w.client.acctUuid ∧ row.acctFlags = w.client.acctFlags
  asked : AskedInv s past
  picked : ∀ c w, s.conn c = some w → w.Settled → w.client.player.playerId ≠ 0 →
    Picked s.db past s.log c w.client
  joins : ∀ h playerId ageNodeId isAdmin,
    .updateAgeSrv h playerId ageNodeId isAdmin ∈ s.channel → playerId ≠ 0

namespace AccountInv

variable {cred : Credentials} {s s' : AuthState} {past past' : AuthPast} {e : AuthEvent}

theorem initial (db : Database) : AccountInv (AuthState.initial db) [] := by
  refine ⟨.initial db, fun c w hw => ?_, .initial db, fun c w hw => ?_, fun h p a i hmem => ?_⟩
  · cases hw
  · cases hw
  · cases hmem

/-- A step after which the accounts and the history of the other connections are
what they were. -/
theorem keep (h : AccountInv s past) (hsess : OneSessionInv s' past') (hasked : AskedInv s' past')
    (hown : ∀ c w playerId, s.conn c = some w → w.client.player.playerId = playerId →
      playerId ≠ 0 → ∀ row ∈ s.db.accounts, s.db.Owns row.acctUuid playerId →
      row ∈ s'.db.accounts ∧ s'.db.Owns row.acctUuid playerId)
    (hrows : ∀ c w, s.conn c = some w → ∀ row ∈ s.db.accounts,
      row.acctUuid = w.client.acctUuid → row ∈ s'.db.accounts)
    (hconn : ∀ c w', s'.conn c = some w' → ((∃ w, s.conn c = some w ∧ w'.client.acctUuid =
        w.client.acctUuid ∧ w'.client.acctFlags = w.client.acctFlags ∧
        w'.client.player.playerId = w.client.player.playerId ∧ (w'.Settled → w.Settled)) ∧
        latestRequest c past' = latestRequest c past ∧
        latestAnswer c s'.log = latestAnswer c s.log) ∨
      ((w'.client.acctUuid ≠ .null → ∃ row ∈ s'.db.accounts,
          row.acctUuid = w'.client.acctUuid ∧ row.acctFlags = w'.client.acctFlags) ∧
        (w'.Settled → w'.client.player.playerId ≠ 0 → Picked s'.db past' s'.log c w'.client)))
    (hjoins : ∀ h playerId ageNodeId isAdmin,
      .updateAgeSrv h playerId ageNodeId isAdmin ∈ s'.channel → playerId ≠ 0) :
    AccountInv s' past' := by
  refine ⟨hsess, fun c w' hw' hne => ?_, hasked, fun c w' hw' hset hp => ?_, hjoins⟩
  · obtain ⟨⟨w, hw, huuid, hflags, -⟩, -⟩ | ⟨hacct, -⟩ := hconn c w' hw'
    · rw [huuid] at hne
      obtain ⟨row, hrow, heq, hf⟩ := h.account c w hw hne
      exact ⟨row, hrows c w hw row hrow heq, heq.trans huuid.symm, hf.trans hflags.symm⟩
    · exact hacct hne
  · obtain ⟨⟨w, hw, -, hflags, hid, hback⟩, hreq, hans⟩ | ⟨-, hpicked⟩ := hconn c w' hw'
    · rw [hid] at hp
      obtain ⟨hrequest, hanswer, row, hrow, howns, hf⟩ := h.picked c w hw (hback hset) hp
      obtain ⟨hrow', howns'⟩ := hown c w _ hw rfl hp row hrow howns
      refine ⟨?_, ?_, row, hrow', ?_, hf.trans hflags.symm⟩
      · rw [hreq, hid]
        exact hrequest
      · rw [hans, hid]
        exact hanswer
      · rw [hid]
        exact howns'
    · exact hpicked hset hp

/-- A step of the worker `c₀`, which leaves the others what they were. -/
theorem keep_worker {c₀ : ConnId} {w' : Worker} (h : AccountInv s past)
    (hsess : OneSessionInv s' past') (hasked : AskedInv s' past')
    (haccounts : s'.db.accounts = s.db.accounts) (hplayers : s'.db.players = s.db.players)
    (hconn : s'.conn = Function.update s.conn c₀ (some w'))
    (hreq : ∀ c, c ≠ c₀ → latestRequest c past' = latestRequest c past)
    (hans : ∀ c, c ≠ c₀ → latestAnswer c s'.log = latestAnswer c s.log)
    (hworker : (∃ w, s.conn c₀ = some w ∧ w'.client.acctUuid = w.client.acctUuid ∧
          w'.client.acctFlags = w.client.acctFlags ∧
          w'.client.player.playerId = w.client.player.playerId ∧ (w'.Settled → w.Settled)) ∧
        latestRequest c₀ past' = latestRequest c₀ past ∧
        latestAnswer c₀ s'.log = latestAnswer c₀ s.log ∨
      (w'.client.acctUuid ≠ .null → ∃ row ∈ s.db.accounts,
          row.acctUuid = w'.client.acctUuid ∧ row.acctFlags = w'.client.acctFlags) ∧
        (w'.Settled → w'.client.player.playerId ≠ 0 → Picked s'.db past' s'.log c₀ w'.client))
    (hjoins : ∀ h playerId ageNodeId isAdmin,
      .updateAgeSrv h playerId ageNodeId isAdmin ∈ s'.channel → playerId ≠ 0) :
    AccountInv s' past' := by
  refine h.keep hsess hasked (fun c w playerId _ _ _ row hrow howns => ⟨haccounts ▸ hrow, ?_⟩)
    (fun c w _ row hrow _ => haccounts ▸ hrow) (fun c v hv => ?_) hjoins
  · exact howns.of_keeps (.of_eq hplayers)
  · rw [hconn] at hv
    obtain ⟨rfl, rfl⟩ | ⟨hne, hv⟩ := Lib.update_eq_some hv
    · rw [haccounts]
      exact hworker
    · exact .inl ⟨⟨v, hv, rfl, rfl, rfl, id⟩, hreq c hne,
        hans c hne⟩

/-- A step that leaves all workers what they were. -/
theorem keep_conn (h : AccountInv s past) (hsess : OneSessionInv s' past')
    (hasked : AskedInv s' past') (hdb : s'.db = s.db)
    (hconn : s'.conn = s.conn) (hreq : ∀ c, latestRequest c past' = latestRequest c past)
    (hlog : s'.log = s.log)
    (hjoins : ∀ h playerId ageNodeId isAdmin,
      .updateAgeSrv h playerId ageNodeId isAdmin ∈ s'.channel → playerId ≠ 0) :
    AccountInv s' past' := by
  refine h.keep hsess hasked (fun c w playerId _ _ _ row hrow howns => ?_)
    (fun c w _ row hrow _ => hdb ▸ hrow) (fun c v hv => .inl ?_) hjoins
  · rw [hdb]
    exact ⟨hrow, howns⟩
  · rw [hconn] at hv
    exact ⟨⟨v, hv, rfl, rfl, rfl, id⟩, hreq c, by rw [hlog]⟩

theorem joins_put {r : AuthRequest} (h : AccountInv s past)
    (hr : ∀ h playerId ageNodeId isAdmin,
      r = .updateAgeSrv h playerId ageNodeId isAdmin → playerId ≠ 0) :
    ∀ h playerId ageNodeId isAdmin,
      .updateAgeSrv h playerId ageNodeId isAdmin ∈ s.channel ++ [r] → playerId ≠ 0 := by
  intro i playerId ageNodeId isAdmin hmem
  obtain hmem | hmem := List.mem_append.1 hmem
  · exact h.joins i playerId ageNodeId isAdmin hmem
  · exact hr i playerId ageNodeId isAdmin (List.mem_singleton.1 hmem).symm

theorem joins_rest {r : AuthRequest} {rest : List AuthRequest} (h : AccountInv s past)
    (hchan : s.channel = r :: rest) :
    ∀ h playerId ageNodeId isAdmin,
      .updateAgeSrv h playerId ageNodeId isAdmin ∈ rest → playerId ≠ 0 := by
  intro i playerId ageNodeId isAdmin hmem
  exact h.joins i playerId ageNodeId isAdmin (hchan ▸ List.mem_cons_of_mem _ hmem)

/-- The daemon handles a login. -/
theorem login {c₀ : ConnId} {info : LoginInfo} {rest : List AuthRequest} {w : Worker}
    {fates : LoginFates} {setPlayer : SetPlayerFates} {disconnect : QueryFate}
    {client : AuthClient} {info' : LoginInfo} {result : NetResultCode} (h : AccountInv s past)
    (hok : JoinStepOk cred s (.handle fates setPlayer disconnect))
    (hsess : OneSessionInv s' past') (hasked : AskedInv s' past')
    (hreq : ∀ c, latestRequest c past' = latestRequest c past)
    (hchan : s.channel = .clientLogin c₀ info :: rest) (hw : s.conn c₀ = some w)
    (hrun : dmAuthLogin cred s.db s.restrictLogins fates info w.client = (client, info', result))
    (hconn : s'.conn = Function.update s.conn c₀
      (some { w with client := client, reply := some result }))
    (hdb : s'.db = s.db) (hans : ∀ c, latestAnswer c s'.log = latestAnswer c s.log)
    (hrest : s'.channel = rest) : AccountInv s' past' := by
  obtain ⟨v, hv, hwait, -⟩ :=
    h.sessions.conns.plumbed.waits _ (hchan ▸ List.mem_cons_self) c₀ rfl
  obtain rfl : w = v := Option.some.inj (hw ▸ hv)
  have hplayer := dmAuthLogin_player hrun
  have hacct := dmAuthLogin_account hrun
  refine h.keep_worker hsess hasked (congrArg _ hdb) (congrArg _ hdb) hconn (fun c _ => hreq c)
    (fun c _ => hans c) (.inr ⟨fun hne => ?_, fun _ hp => ?_⟩) (hrest ▸ h.joins_rest hchan)
  · obtain ⟨hnull, -⟩ | ⟨row, hrow, huuid, hflags⟩ := hacct
    · exact absurd hnull hne
    · exact ⟨row, acceptedAccount_mem hrow, huuid.symm, hflags.symm⟩
  · replace hp : client.player.playerId ≠ 0 := hp
    rw [hplayer] at hp
    obtain ⟨hrequest, hanswer, howner⟩ :=
      h.picked c₀ w hw (Worker.settled_of_waiting (by simp [hwait, AuthRequest.pending])) hp
    have hid : client.player.playerId = w.client.player.playerId :=
      congrArg PlayerInfo.playerId hplayer
    refine ⟨?_, ?_, ?_⟩
    · rw [hreq, hid]
      exact hrequest
    · rw [hans, hid]
      exact hanswer
    · rw [hdb, hid]
      obtain ⟨-, hflags⟩ | ⟨row, hrow, -, hflags⟩ := hacct
      · rw [hflags]
        exact howner
      · simp only [JoinStepOk, hchan] at hok
        exact ⟨row, acceptedAccount_mem hrow, hok w row hw hrow hp, hflags.symm⟩

/-- The daemon handles a SetPlayer. -/
theorem setPlayer {c₀ : ConnId} {rest : List AuthRequest} {w : Worker} {elsewhere : Bool}
    {login : LoginFates} {fates : SetPlayerFates} {disconnect : QueryFate} {client : AuthClient}
    {db : Database} {result : NetResultCode} (h : AccountInv s past)
    (hok : JoinStepOk cred s (.handle login fates disconnect))
    (hsess : OneSessionInv s' past') (hasked : AskedInv s' past')
    (hreq : ∀ c, latestRequest c past' = latestRequest c past)
    (hchan : s.channel = .setPlayer c₀ :: rest) (hw : s.conn c₀ = some w)
    (hrun : dmAuthSetPlayer s.db elsewhere fates w.client = (client, db, result))
    (hconn : s'.conn = Function.update s.conn c₀
      (some { w with client := client, reply := some result }))
    (hdb : s'.db = db) (hlog : s'.log = .setPlayer c₀ w.client.player.playerId result :: s.log)
    (hrest : s'.channel = rest) : AccountInv s' past' := by
  obtain ⟨v, hv, hwait, hreply⟩ :=
    h.sessions.conns.plumbed.waits _ (hchan ▸ List.mem_cons_self) c₀ rfl
  obtain rfl : w = v := Option.some.inj (hw ▸ hv)
  obtain ⟨huuid, hflags, haccounts, hplayers⟩ := dmAuthSetPlayer_account hrun
  rw [← hdb] at haccounts hplayers
  simp only [JoinStepOk, hchan] at hok
  obtain ⟨hcalm, hnull⟩ := hok
  refine h.keep_worker hsess hasked haccounts hplayers hconn (fun c _ => hreq c)
    (fun c hne => ?_) (.inr ⟨fun hne => ?_, fun _ hp => ?_⟩) (hrest ▸ h.joins_rest hchan)
  · rw [hlog]
    exact if_neg (Ne.symm hne)
  · replace hne : client.acctUuid ≠ .null := hne
    rw [huuid] at hne
    obtain ⟨row, hrow, heq, hf⟩ := h.account c₀ w hw hne
    exact ⟨row, hrow, heq.trans huuid.symm, hf.trans hflags.symm⟩
  · obtain hzero | ⟨rfl, hid, howns⟩ := dmAuthSetPlayer_calm hcalm hrun
    · exact absurd hzero hp
    have hne : w.client.acctUuid ≠ .null := by
      intro hnone
      rw [hnone] at howns
      refine hnull ?_
      rw [AuthState.playerIdOf, hw]
      exact howns
    obtain ⟨row, hrow, heq, hf⟩ := h.account c₀ w hw hne
    obtain ⟨-, hrequest⟩ := h.asked c₀ w hw hwait hreply
    refine ⟨?_, ?_, row, haccounts ▸ hrow, ?_, hf.trans hflags.symm⟩
    · rw [hreq, hid]
      exact hrequest
    · rw [hlog, hid]
      exact if_pos rfl
    · rw [heq, hid]
      exact howns.of_keeps (.of_eq hplayers)

theorem step (h : AccountInv s past) (hok : JoinStepOk cred s e)
    (hs : authStep cred s e = some s') : AccountInv s' ((s, e) :: past) := by
  have hsess := h.sessions.step hs
  have hasked := h.asked.step hs
  have hidle : ∀ {w : Worker}, w.waiting = none → w.Settled :=
    fun hwait => Worker.settled_of_waiting (by simp [hwait])
  cases authStep_inv hs with
  | @connect c₀ serverChallenge hnone =>
    refine h.keep_worker hsess hasked rfl rfl rfl (fun _ _ => rfl) (fun _ _ => rfl) (.inr ?_) h.joins
    exact ⟨fun hne => absurd rfl hne, fun _ hp => absurd rfl hp⟩
  | @recvLogin c₀ info w hw hwait =>
    refine h.keep_worker hsess hasked rfl rfl rfl (fun _ _ => rfl) (fun _ _ => rfl) (.inl ?_)
      (h.joins_put (by simp))
    exact ⟨⟨w, hw, rfl, rfl, rfl, fun _ => hidle hwait⟩, rfl, rfl⟩
  | @noPlayer c₀ w hw hwait =>
    refine h.keep_worker hsess hasked rfl rfl rfl (fun c hne => if_neg (Ne.symm hne)) (fun _ _ => rfl)
      (.inr ⟨h.account c₀ w hw, fun _ hp => absurd rfl hp⟩) h.joins
  | @recvSetPlayer c₀ p w hw hwait =>
    refine h.keep_worker hsess hasked rfl rfl rfl (fun c hne => if_neg (Ne.symm hne)) (fun _ _ => rfl)
      (.inr ⟨h.account c₀ w hw, fun hset _ => ?_⟩) h.joins
    exact absurd rfl (hset rfl)
  | @putSetPlayer c₀ w hw =>
    refine h.keep_worker hsess hasked rfl rfl rfl (fun _ _ => rfl) (fun _ _ => rfl) (.inl ?_)
      (h.joins_put (by simp))
    exact ⟨⟨w, hw, rfl, rfl, rfl, id⟩, rfl, rfl⟩
  | @hangup c₀ w hw hwait =>
    refine h.keep_worker hsess hasked rfl rfl rfl (fun _ _ => rfl) (fun _ _ => rfl) (.inl ?_)
      (h.joins_put (by simp))
    exact ⟨⟨w, hw, rfl, rfl, rfl, fun _ => hidle hwait⟩, rfl, rfl⟩
  | @taken c₀ w hw hreply | @left c₀ w hw hreply =>
    refine h.keep_worker hsess hasked rfl rfl rfl (fun _ _ => rfl) (fun _ _ => rfl) (.inl ?_) h.joins
    exact ⟨⟨w, hw, rfl, rfl, rfl, fun _ => Worker.settled_of_reply hreply⟩, rfl, rfl⟩
  | @join i playerId ageNodeId isAdmin hp =>
    refine h.keep_conn hsess hasked rfl rfl (fun _ => rfl) rfl (h.joins_put ?_)
    rintro _ _ _ _ heq
    cases heq
    exact hp
  | toggleRestrict => exact h.keep_conn hsess hasked rfl rfl (fun _ => rfl) rfl (h.joins_put (by simp))
  | @admin db hk =>
    refine h.keep hsess hasked (fun c w playerId hw hid hp row hrow howns => ⟨?_, howns.of_keeps hk⟩)
      (fun c w hw row hrow heq => ?_) (fun c v hv => .inl ?_) h.joins
    · subst hid
      exact hok row hrow ⟨c, w, hw, .inr ⟨hp, howns⟩⟩
    · exact hok row hrow ⟨c, w, hw, .inl heq.symm⟩
    · exact ⟨⟨v, hv, rfl, rfl, rfl, id⟩, rfl, rfl⟩
  | login hchan hw hrun =>
    exact h.login hok hsess hasked (fun _ => rfl) hchan hw hrun rfl rfl (fun _ => rfl) rfl
  | setPlayer hchan hw hrun =>
    exact h.setPlayer hok hsess hasked (fun _ => rfl) hchan hw hrun rfl rfl rfl rfl
  | @disconnect c₀ rest w _ _ fate hchan hw =>
    obtain ⟨v, hv, hwait, -⟩ :=
      h.sessions.conns.plumbed.waits _ (hchan ▸ List.mem_cons_self) c₀ rfl
    obtain rfl : w = v := Option.some.inj (hw ▸ hv)
    refine h.keep_worker hsess hasked (dmAuthDisconnect_accounts ..) (dmAuthDisconnect_players ..) rfl
      (fun _ _ => rfl) (fun _ _ => rfl) (.inl ⟨⟨w, hw, rfl, rfl, rfl, fun _ => ?_⟩, rfl, rfl⟩)
      (h.joins_rest hchan)
    exact Worker.settled_of_waiting (by simp [hwait, AuthRequest.pending])
  | refuseJoin hchan | restrict hchan =>
    exact h.keep_conn hsess hasked rfl rfl (fun _ => rfl) rfl (h.joins_rest hchan)
  | @acceptJoin _ _ _ _ _ c₀ w _ _ _ hchan hfind hw =>
    refine h.keep_worker hsess hasked rfl rfl rfl (fun _ _ => rfl) (fun _ _ => rfl) (.inl ?_)
      (h.joins_rest hchan)
    exact ⟨⟨w, hw, rfl, rfl, rfl, id⟩, rfl, rfl⟩

/-- The client found for a player has it as its current player. -/
theorem joined {h₀ : HostId} {playerId ageNodeId : UInt32} {isAdmin : Bool}
    {rest : List AuthRequest} {login : LoginFates} {setPlayer : SetPlayerFates}
    {disconnect : QueryFate} {c : ConnId} {w : Worker} (h : AccountInv s past)
    (hok : JoinStepOk cred s (.handle login setPlayer disconnect))
    (hchan : s.channel = .updateAgeSrv h₀ playerId ageNodeId isAdmin :: rest)
    (hfind : s.authClients.find? (fun c => s.playerIdOf c = playerId) = some c)
    (hw : s.conn c = some w) :
    JoinAuthorised s past playerId ⟨.success, decide (w.client.acctFlags &&& acctAdmin ≠ 0)⟩ := by
  simp only [JoinStepOk, hchan] at hok
  obtain ⟨hclients, -⟩ := hok
  have hlist : c ∈ s.authClients := List.mem_of_find?_eq_some hfind
  have hid : w.client.player.playerId = playerId := by
    have hfound := List.find?_some hfind
    simpa [AuthState.playerIdOf, hw] using hfound
  have hp : playerId ≠ 0 := h.joins h₀ playerId ageNodeId isAdmin (hchan ▸ List.mem_cons_self)
  obtain ⟨hset, hstay⟩ := hclients c w hlist hw hid
  subst hid
  obtain ⟨hreq, hans, howner⟩ := h.picked c w hw hset hp
  refine ⟨fun _ => ⟨c, ?_, hlist, fun v hv => ?_, hreq, hans⟩, fun _ => ⟨_, howner, ?_⟩,
    fun hne => absurd rfl hne⟩
  · obtain ⟨v, hv, hlive⟩ := (h.sessions.conns.listed c).1 hlist
    obtain rfl : w = v := Option.some.inj (hw ▸ hv)
    exact ⟨w, hw, hlive, hstay⟩
  · obtain rfl : w = v := Option.some.inj (hw ▸ hv)
    exact hset
  · exact decide_eq_true_iff

/-- **What a handled join is told.** -/
theorem last (h : AccountInv s past) (hok : JoinStepOk cred s e)
    (hs : authStep cred s e = some s') : LastJoinAuthorised s' ((s, e) :: past) := by
  cases e with
  | handle login setPlayer disconnect =>
    intro i playerId ageNodeId isAdmin rest hchan
    cases authStep_inv hs with
    | refuseJoin hold hfind =>
      rw [hchan] at hold
      cases hold
      simp only [JoinStepOk, hchan] at hok
      refine ⟨⟨.playerNotFound, isAdmin⟩, Function.update_self .., ?_⟩
      refine ⟨fun hsucc => (by cases hsucc), fun hsucc => (by cases hsucc), fun _ => ?_⟩
      refine hok.2 fun c hc => ?_
      simpa using List.find?_eq_none.1 hfind c hc
    | acceptJoin hold hfind hw =>
      rw [hchan] at hold
      cases hold
      exact ⟨_, Function.update_self .., h.joined hok hchan hfind hw⟩
    | login hold | setPlayer hold | disconnect hold | restrict hold =>
      rw [hchan] at hold
      cases hold
  | _ => trivial

end AccountInv

/-- **A join is for the current player of a client that is there**, and carries
the admin flag of the account that owns the player, in every run whose steps meet
`JoinStepOk`. -/
theorem joins_authorised (cred : Credentials) {p : AuthState × AuthPast}
    (h : (authMachine cred).withHistory.ReachableWith (fun p e => JoinStepOk cred p.1 e) p) :
    LastJoinAuthorised p.1 p.2 := by
  have hinv : AccountInv p.1 p.2 ∧ LastJoinAuthorised p.1 p.2 := by
    refine Lib.Machine.withHistory_invariant
      (I := fun s past => AccountInv s past ∧ LastJoinAuthorised s past) ?_ ?_ h
    · rintro s ⟨db, rfl⟩
      exact ⟨.initial db, trivial⟩
    · exact fun s past e s' hinv hok hs => ⟨hinv.1.step hok hs, hinv.1.last hok hs⟩
  exact hinv.2

/-- A host asks to let player 7 in after its account has picked it, and is told
yes, without the admin flag. -/
theorem joins_authorised_pick : ∃ p, (authMachine plainCredentials).withHistory.run
      (.initial (oneAccount 0), []) (loginAndPick ++ [.join 0 7 100 false, .handle {} {} .runs]) =
        some p ∧
    p.1.joinReply 0 = some ⟨.success, false⟩ ∧ LastJoinAuthorised p.1 p.2 := by
  have hok : (authMachine plainCredentials).OkRun (JoinStepOk plainCredentials)
      (.initial (oneAccount 0)) (loginAndPick ++ [.join 0 7 100 false, .handle {} {} .runs]) := by
    refine And.intro trivial (And.intro trivial (And.intro ?_ (And.intro trivial
      (And.intro trivial (And.intro trivial (And.intro ?_ (And.intro trivial
        (And.intro ?_ trivial))))))))
    · intro w row hw _ hp
      cases hw
      exact absurd rfl hp
    · exact ⟨by simp [SetPlayerFates.Throws], by decide⟩
    · refine ⟨fun c w hc hw _ => ?_, fun _ => rfl⟩
      obtain rfl := List.mem_singleton.1 hc
      cases hw
      exact ⟨Worker.settled_of_reply (by decide), by decide⟩
  have hstart : (authMachine plainCredentials).withHistory.start (.initial (oneAccount 0), []) :=
    ⟨⟨_, rfl⟩, rfl⟩
  obtain ⟨p, hrun, hp⟩ := (Lib.Machine.ReachableWith.start hstart).run (hok.withHistory [])
  have hreply : ((authMachine plainCredentials).withHistory.run (.initial (oneAccount 0), [])
      (loginAndPick ++ [.join 0 7 100 false, .handle {} {} .runs])).map (fun p => p.1.joinReply 0) =
      some (some ⟨.success, false⟩) := by decide
  rw [hrun] at hreply
  exact ⟨p, hrun, Option.some.inj hreply, joins_authorised plainCredentials hp⟩

/-- **A join for a player that was only asked for.**  The client has sent no
login, and its SetPlayer is not on the channel yet. -/
theorem unvalidated_join : ¬ ∀ p, (authMachine plainCredentials).withHistory.Reachable p →
    LastJoinAuthorised p.1 p.2 := by
  intro hall
  have hasked : ((authMachine plainCredentials).withHistory.run (.initial (oneAccount 0), [])
      [.connect 0 0, .join 0 7 100 false, .recvSetPlayer 0 7]).map
      (fun p => (p.1.channel, p.1.log, ((authMachine plainCredentials).step p.1
        (.handle {} {} .runs)).map fun s' => s'.joinReply 0)) =
      some ([.updateAgeSrv 0 7 100 false], [], some (some ⟨.success, false⟩)) := by decide
  obtain ⟨p, hrun, hp⟩ := Option.map_eq_some_iff.1 hasked
  simp only [Prod.mk.injEq] at hp
  obtain ⟨hchan, hlog, hnext⟩ := hp
  obtain ⟨s', hs', hreply⟩ := Option.map_eq_some_iff.1 hnext
  have hstart : (authMachine plainCredentials).withHistory.start (.initial (oneAccount 0), []) :=
    ⟨⟨_, rfl⟩, rfl⟩
  have hreach : (authMachine plainCredentials).withHistory.Reachable
      (s', (p.1, .handle {} {} .runs) :: p.2) :=
    (Lib.Machine.run_reachable (.start hstart) hrun).step trivial
      (Option.map_eq_some_iff.2 ⟨s', hs', rfl⟩)
  obtain ⟨reply, hr, hright⟩ := hall _ hreach 0 7 100 false [] hchan
  rw [hreply] at hr
  obtain rfl := Option.some.inj hr
  obtain ⟨c, -, hcur⟩ := hright.player rfl
  have hans := hcur.answer
  rw [hlog] at hans
  cases hans

end Dirtsand.AuthServ