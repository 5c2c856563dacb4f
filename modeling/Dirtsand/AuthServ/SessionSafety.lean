import Dirtsand.AuthServ.SessionSteps

/-!
# Only the logged-in account can pick its player

`SessionSafe` says it of a state: every SetPlayer that succeeded came after a
latest login attempt that was accepted, for an account that owns the player, and
a connection that has a current player has one of the account of its latest
successful login.

The daemon does not keep it.  A login that is refused after its password was
accepted (a banned account, a restricted server, a failing query for the list
of players) leaves the account in `m_acctUuid`, and `dm_auth_setPlayer` looks at
nothing else; a new login does not put down the player of the old one; and an
exception out of `dm_auth_setPlayer` leaves the player id that was asked for.

* `session_safe` — in a run none of whose steps is one of these three
  (`StepOk`), every state is safe.
* `banned_account_picks_player` — a run in which a banned account gets its
  player.
-/

namespace Dirtsand.AuthServ

/-! ## The history of a connection -/

/-- The latest login attempt on a connection. -/
def latestLogin (c : ConnId) : List SessionEvent → Option LoginAttempt
  | [] => none
  | .login c' attempt :: log => if c' = c then some attempt else latestLogin c log
  | .setPlayer .. :: log => latestLogin c log

/-- The account of the latest successful login on a connection. -/
def latestAccount (c : ConnId) : List SessionEvent → Option AccountRow
  | [] => none
  | .login c' attempt :: log =>
    if c' = c ∧ attempt.result = .success then attempt.account else latestAccount c log
  | .setPlayer .. :: log => latestAccount c log

/-- A login that went through for an account that was neither banned nor shut
out. -/
structure LoginAttempt.Granted (attempt : LoginAttempt) (row : AccountRow) : Prop where
  account : attempt.account = some row
  result : attempt.result = .success
  not_banned : ¬ Banned row.acctFlags
  not_shutOut : ¬ ShutOut attempt.restricted row.acctFlags

/-- Every successful SetPlayer in the history is for a player that the account
of the latest login attempt before it owns. -/
def PicksJustified (db : Database) : List SessionEvent → Prop
  | [] => True
  | .login .. :: log => PicksJustified db log
  | .setPlayer c playerId result :: log =>
    (result = .success → playerId ≠ 0 → ∃ attempt row, latestLogin c log = some attempt ∧
      attempt.Granted row ∧ db.Owns row.acctUuid playerId) ∧ PicksJustified db log

/-- No SetPlayer of the connection is still to be answered, so that its player
id is that of its current player. -/
def Worker.Settled (w : Worker) : Prop :=
  w.waiting = some .setPlayer → w.reply ≠ none

/-- The account of the latest successful login on `c` owns the player. -/
def PlayerOfLogin (s : AuthState) (c : ConnId) (playerId : UInt32) : Prop :=
  ∃ row, latestAccount c s.log = some row ∧ s.db.Owns row.acctUuid playerId

structure SessionSafe (s : AuthState) : Prop where
  picks : PicksJustified s.db s.log
  current : ∀ c w, s.conn c = some w → w.Settled → w.client.player.playerId ≠ 0 →
    PlayerOfLogin s c w.client.player.playerId

/-- What must not happen in a step.  A login that goes through must not change
the account under a current player; a SetPlayer must not find a player of an
account whose latest login attempt was refused; and its query must not raise an
exception when the player is not of the logged-in account. -/
def StepOk (cred : Credentials) (s : AuthState) : AuthEvent → Prop
  | .handle login setPlayer _ =>
    match s.channel with
    | .clientLogin c info :: _ => ∀ w row, s.conn c = some w →
        acceptedAccount cred s.db login info w.client = some row →
        ¬ Banned row.acctFlags → ¬ ShutOut s.restrictLogins row.acctFlags →
        login.players = .runs →
        w.client.player.playerId = 0 ∨ s.db.Owns row.acctUuid w.client.player.playerId
    | .setPlayer c :: _ => ∀ w, s.conn c = some w →
        (s.db.Owns w.client.acctUuid w.client.player.playerId →
          ∃ attempt, latestLogin c s.log = some attempt ∧ attempt.result = .success) ∧
        (setPlayer.select = .throws → PlayerOfLogin s c w.client.player.playerId)
    | _ => True
  | _ => True

/-! ## What the handlers do -/

namespace Database

theorem Owns.of_keeps {db db' : Database} (hk : db.KeepsPlayers db') {u : Uuid} {p : UInt32}
    (h : db.Owns u p) : db'.Owns u p := by
  obtain ⟨row, hrow⟩ := List.exists_mem_of_ne_nil _ h
  simp only [selectPlayer, List.mem_filter, decide_eq_true_eq] at hrow
  obtain ⟨hmem, rfl, rfl⟩ := hrow
  exact hk row hmem

theorem KeepsPlayers.of_eq {db db' : Database} (h : db'.players = db.players) :
    db.KeepsPlayers db' := by
  intro row hrow
  have hmem : row ∈ db'.selectPlayer row.acctUuid row.playerIdx := by
    simp only [selectPlayer, List.mem_filter, h, hrow, decide_eq_true_eq, and_self]
  exact List.ne_nil_of_mem hmem

theorem KeepsPlayers.refl (db : Database) : db.KeepsPlayers db :=
  .of_eq rfl

end Database

/-- The account a login attempt leaves in `m_acctUuid`. -/
def attemptUuid : Option LoginAttempt → Uuid
  | some ⟨some row, _, _⟩ => row.acctUuid
  | _ => .null

section Login

variable (cred : Credentials) (db : Database) (restrictLogins : Bool) (fates : LoginFates)
  (info : LoginInfo) (client : AuthClient)

/-- The reset of the UUID does not change what the password check sees. -/
theorem passwordMatches_reset (u : Uuid) (row : AccountRow) :
    passwordMatches cred { client with acctUuid := u } info row =
      passwordMatches cred client info row := rfl

theorem dmAuthLogin_none (h : acceptedAccount cred db fates info client = none) :
    ∃ result, dmAuthLogin cred db restrictLogins fates info client =
      ({ client with acctUuid := .null }, info, result) ∧ result ≠ .success := by
  unfold acceptedAccount at h
  unfold dmAuthLogin
  cases hf : fates.accounts with
  | throws => exact ⟨_, rfl, by decide⟩
  | fails => exact ⟨_, rfl, by decide⟩
  | runs =>
    rw [hf] at h
    match hrows : db.selectAccounts cred info.acctName with
    | [] =>
      simp only
      exact ⟨_, rfl, by decide⟩
    | _ :: _ :: _ =>
      simp only
      exact ⟨_, rfl, by decide⟩
    | [row] =>
      rw [hrows] at h
      by_cases hp : passwordMatches cred client info row = true
      · simp [hp] at h
      · simp only [passwordMatches_reset, hp, if_true]
        exact ⟨_, rfl, by decide⟩

theorem dmAuthLogin_some {row : AccountRow}
    (h : acceptedAccount cred db fates info client = some row) :
    ∃ info' result, dmAuthLogin cred db restrictLogins fates info client =
      ({ client with acctUuid := row.acctUuid, acctFlags := row.acctFlags }, info', result) ∧
      (result = .success ↔ ¬ Banned row.acctFlags ∧ ¬ ShutOut restrictLogins row.acctFlags ∧
        fates.players = .runs) := by
  unfold acceptedAccount at h
  split at h
  · rename_i row' hf hrows
    split at h
    · rename_i hp
      obtain rfl : row' = row := Option.some.inj h
      unfold dmAuthLogin
      simp only [hf, hrows, passwordMatches_reset, hp, Bool.true_eq_false, if_false]
      by_cases hb : Banned row'.acctFlags
      · exact ⟨_, _, if_pos hb, by simp [hb]⟩
      rw [if_neg hb]
      by_cases hs : ShutOut restrictLogins row'.acctFlags
      · exact ⟨_, _, if_pos hs, by simp [hs]⟩
      rw [if_neg hs]
      cases hq : fates.players with
      | throws => exact ⟨_, _, rfl, by simp⟩
      | fails => exact ⟨_, _, rfl, by simp⟩
      | runs => exact ⟨_, _, rfl, by simp [hb, hs]⟩
    · cases h
  · cases h

end Login

section SetPlayer

variable (db : Database) (elsewhere : Bool) (fates : SetPlayerFates) (client : AuthClient)

/-- `dm_auth_setPlayer` settles the player id: it keeps the one that was asked
for only where the account owns it, or where the query raised an exception. -/
theorem dmAuthSetPlayer_spec :
    ∃ client' db' result, dmAuthSetPlayer db elsewhere fates client = (client', db', result) ∧
      client'.acctUuid = client.acctUuid ∧ db'.players = db.players ∧
      ((client'.player.playerId = 0 ∧ result ≠ .success) ∨
        (client'.player.playerId = client.player.playerId ∧
          (db.Owns client.acctUuid client.player.playerId ∨
            fates.select = .throws ∧ result ≠ .success))) := by
  unfold dmAuthSetPlayer
  cases hf : fates.select with
  | throws => exact ⟨_, _, _, rfl, rfl, rfl, .inr ⟨rfl, .inr ⟨rfl, by decide⟩⟩⟩
  | fails => exact ⟨_, _, _, rfl, rfl, rfl, .inl ⟨rfl, by decide⟩⟩
  | runs =>
    match hrows : db.selectPlayer client.acctUuid client.player.playerId with
    | [] =>
      simp only
      exact ⟨_, _, _, rfl, rfl, rfl, .inl ⟨rfl, by decide⟩⟩
    | _ :: _ :: _ =>
      simp only
      exact ⟨_, _, _, rfl, rfl, rfl, .inl ⟨rfl, by decide⟩⟩
    | [row] =>
      have howns : db.Owns client.acctUuid client.player.playerId := by
        rw [Database.Owns, hrows]
        exact List.cons_ne_nil _ _
      simp only
      cases elsewhere with
      | true => exact ⟨_, _, _, rfl, rfl, rfl, .inl ⟨rfl, by decide⟩⟩
      | false =>
        cases fates.update with
        | throws => exact ⟨_, _, _, rfl, rfl, rfl, .inr ⟨rfl, .inl howns⟩⟩
        | fails => exact ⟨_, _, _, rfl, rfl, rfl, .inr ⟨rfl, .inl howns⟩⟩
        | runs => exact ⟨_, _, _, rfl, rfl, rfl, .inr ⟨rfl, .inl howns⟩⟩

end SetPlayer

theorem dmAuthDisconnect_players (db : Database) (fate : QueryFate) (client : AuthClient) :
    (dmAuthDisconnect db fate client).1.players = db.players := by
  unfold dmAuthDisconnect
  split
  · rfl
  · cases fate <;> rfl

/-! ## The invariant -/

theorem latestLogin_self (c : ConnId) (attempt : LoginAttempt) (log : List SessionEvent) :
    latestLogin c (.login c attempt :: log) = some attempt :=
  if_pos rfl

theorem latestLogin_ne {c c' : ConnId} {attempt : LoginAttempt} {log : List SessionEvent}
    (h : c' ≠ c) : latestLogin c' (.login c attempt :: log) = latestLogin c' log :=
  if_neg (Ne.symm h)

theorem latestLogin_mem {c : ConnId} {attempt : LoginAttempt} {log : List SessionEvent}
    (h : latestLogin c log = some attempt) : .login c attempt ∈ log := by
  induction log with
  | nil => cases h
  | cons e log ih =>
    cases e with
    | login c' a =>
      rw [latestLogin] at h
      split at h
      · rename_i hc
        obtain rfl := Option.some.inj h
        exact hc ▸ List.mem_cons_self
      · exact List.mem_cons_of_mem _ (ih h)
    | setPlayer c' p result => exact List.mem_cons_of_mem _ (ih h)

/-- Where the latest attempt succeeded, its account is that of the latest
successful login. -/
theorem latestAccount_of_granted {c : ConnId} {attempt : LoginAttempt} {row : AccountRow}
    {log : List SessionEvent} (h : latestLogin c log = some attempt) (hg : attempt.Granted row) :
    latestAccount c log = some row := by
  induction log with
  | nil => cases h
  | cons e log ih =>
    cases e with
    | login c' a =>
      rw [latestLogin] at h
      split at h
      · rename_i hc
        obtain rfl := Option.some.inj h
        rw [latestAccount, if_pos ⟨hc, hg.result⟩, hg.account]
      · rename_i hc
        rw [latestAccount, if_neg (fun hand => hc hand.1), ih h]
    | setPlayer c' p result => exact ih h

theorem PicksJustified.of_keeps {db db' : Database} (hk : db.KeepsPlayers db')
    {log : List SessionEvent} (h : PicksJustified db log) : PicksJustified db' log := by
  induction log with
  | nil => trivial
  | cons e log ih =>
    cases e with
    | login c a => exact ih h
    | setPlayer c p result =>
      refine ⟨fun hs hp => ?_, ih h.2⟩
      obtain ⟨attempt, row, h₁, h₂, h₃⟩ := h.1 hs hp
      exact ⟨attempt, row, h₁, h₂, h₃.of_keeps hk⟩

/-- What ties the session fields to the history. -/
structure SessionInv (s : AuthState) : Prop where
  plumbed : Plumbed s.conn s.channel
  uuid : ∀ c w, s.conn c = some w → w.client.acctUuid = attemptUuid (latestLogin c s.log)
  fresh : ∀ c, s.conn c = none → latestLogin c s.log = none
  granted : ∀ c attempt, .login c attempt ∈ s.log → attempt.result = .success →
    ∃ row, attempt.Granted row
  safe : SessionSafe s

theorem SessionInv.initial (db : Database) : SessionInv (AuthState.initial db) := by
  refine ⟨⟨fun r hr => ?_, List.nodup_nil, fun c w hw => ?_⟩, fun c w hw => ?_, fun c _ => rfl,
    fun c a ha => ?_, ⟨trivial, fun c w hw => ?_⟩⟩
  · cases hr
  · cases hw
  · cases hw
  · cases ha
  · cases hw

namespace SessionInv

variable {s : AuthState} {c : ConnId} {w w' : Worker}

/-- A step that changes one worker and the channel only, and leaves the account
of the worker and its current player alone. -/
theorem worker {channel : List AuthRequest} (authClients : List ConnId) (h : SessionInv s)
    (hw : s.conn c = some w)
    (hplumbed : Plumbed (Function.update s.conn c (some w')) channel)
    (huuid : w'.client.acctUuid = w.client.acctUuid)
    (hcur : w'.Settled → w'.client.player.playerId ≠ 0 →
      w.Settled ∧ w'.client.player.playerId = w.client.player.playerId) :
    SessionInv { s.setConn c w' with channel := channel, authClients := authClients } := by
  refine ⟨hplumbed, fun c' v hv => ?_, fun c' hv => ?_, h.granted, ⟨h.safe.picks, ?_⟩⟩
  · rcases AuthState.setConn_cases hv with ⟨rfl, rfl⟩ | ⟨-, hv⟩
    · exact huuid.trans (h.uuid c' w hw)
    · exact h.uuid c' v hv
  · exact h.fresh c' (AuthState.setConn_none hv).2
  · intro c' v hv hset hpid
    rcases AuthState.setConn_cases hv with ⟨rfl, rfl⟩ | ⟨-, hv⟩
    · obtain ⟨hset', heq⟩ := hcur hset hpid
      rw [heq] at hpid ⊢
      exact h.safe.current c' w hw hset' hpid
    · exact h.safe.current c' v hv hset hpid

/-- A worker puts a request on the channel and starts to wait. -/
theorem put {r : AuthRequest} (h : SessionInv s) (hw : s.conn c = some w)
    (hfree : ∀ r ∈ s.channel, r.conn ≠ some c) (hr : r.conn = some c)
    (hwait : w'.waiting = r.pending) (hreply : w'.reply = none) (hput : w'.putting = false)
    (huuid : w'.client.acctUuid = w.client.acctUuid)
    (hpid : w'.waiting = some .setPlayer ∨
      (w.waiting = none ∧ w'.client.player.playerId = w.client.player.playerId)) :
    SessionInv { s.setConn c w' with channel := s.channel ++ [r] } := by
  refine h.worker s.authClients hw (h.plumbed.put hfree hr hwait hreply hput) huuid fun hset _ => ?_
  rcases hpid with hsp | ⟨hidle, heq⟩
  · exact absurd hreply (hset hsp)
  · refine ⟨fun hsp => ?_, heq⟩
    rw [hidle] at hsp
    cases hsp

/-- A step that changes neither the workers nor the history. -/
theorem frame {s' : AuthState} (h : SessionInv s) (hconn : s'.conn = s.conn) (hlog : s'.log = s.log)
    (hplumbed : Plumbed s.conn s'.channel) (hdb : s.db.KeepsPlayers s'.db) : SessionInv s' := by
  refine ⟨hconn ▸ hplumbed, fun c w hw => ?_, fun c hw => ?_, hlog ▸ h.granted, ⟨?_, ?_⟩⟩
  · rw [hlog]
    exact h.uuid c w (hconn ▸ hw)
  · rw [hlog]
    exact h.fresh c (hconn ▸ hw)
  · rw [hlog]
    exact h.safe.picks.of_keeps hdb
  · intro c w hw hset hpid
    obtain ⟨row, hrow, howns⟩ := h.safe.current c w (hconn ▸ hw) hset hpid
    exact ⟨row, by rw [hlog, hrow], howns.of_keeps hdb⟩

theorem connect (h : SessionInv s) (hc : s.conn c = none) (serverChallenge : UInt32) :
    SessionInv { s.setConn c { client := { serverChallenge := serverChallenge } } with
      authClients := s.authClients ++ [c] } := by
  have hfree : ∀ r ∈ s.channel, r.conn ≠ some c :=
    h.plumbed.idle fun v hv => by rw [hc] at hv; cases hv
  refine ⟨h.plumbed.update hfree fun hputting => ?_, fun c' v hv => ?_, fun c' hv => ?_, h.granted,
    ⟨h.safe.picks, fun c' v hv hset hpid => ?_⟩⟩
  · cases hputting
  · rcases AuthState.setConn_cases hv with ⟨rfl, rfl⟩ | ⟨-, hv⟩
    · have hnone : latestLogin c' s.log = none := h.fresh c' hc
      exact (congrArg attemptUuid hnone).symm
    · exact h.uuid c' v hv
  · exact h.fresh c' (AuthState.setConn_none hv).2
  · rcases AuthState.setConn_cases hv with ⟨rfl, rfl⟩ | ⟨-, hv⟩
    · exact absurd rfl hpid
    · exact h.safe.current c' v hv hset hpid

/-- The daemon handles a login. -/
theorem login {cred : Credentials} {info : LoginInfo} {rest : List AuthRequest}
    {fates : LoginFates} {setPlayer : SetPlayerFates} {disconnect : QueryFate}
    (h : SessionInv s) (hchan : s.channel = .clientLogin c info :: rest)
    (hok : StepOk cred s (.handle fates setPlayer disconnect)) (hw : s.conn c = some w)
    {client : AuthClient} {info' : LoginInfo} {result : NetResultCode}
    (hrun : dmAuthLogin cred s.db s.restrictLogins fates info w.client = (client, info', result)) :
    SessionInv ({ s with
      channel := rest
      log := .login c ⟨acceptedAccount cred s.db fates info w.client, s.restrictLogins, result⟩ ::
        s.log }.setConn c { w with client := client, reply := some result }) := by
  obtain ⟨v, hv, hwait, -⟩ := h.plumbed.waits _ (hchan ▸ List.mem_cons_self) c rfl
  obtain rfl : w = v := Option.some.inj (hw ▸ hv)
  -- What the handler did, whether or not the password was right.
  have hspec : client.player = w.client.player ∧
      client.acctUuid = attemptUuid
        (some ⟨acceptedAccount cred s.db fates info w.client, s.restrictLogins, result⟩) ∧
      (result = .success → ∃ row, acceptedAccount cred s.db fates info w.client = some row ∧
        ¬ Banned row.acctFlags ∧ ¬ ShutOut s.restrictLogins row.acctFlags ∧
        fates.players = .runs) := by
    cases hacc : acceptedAccount cred s.db fates info w.client with
    | none =>
      obtain ⟨r, hr, hne⟩ := dmAuthLogin_none cred s.db s.restrictLogins fates info w.client hacc
      rw [hr] at hrun
      cases hrun
      exact ⟨rfl, rfl, fun hs => absurd hs hne⟩
    | some row =>
      obtain ⟨i, r, hr, hiff⟩ :=
        dmAuthLogin_some cred s.db s.restrictLogins fates info w.client hacc
      rw [hr] at hrun
      cases hrun
      exact ⟨rfl, rfl, fun hs => ⟨row, rfl, hiff.1 hs⟩⟩
  obtain ⟨hplayer, huuid, hsucc⟩ := hspec
  refine ⟨(hchan ▸ h.plumbed).answer rfl hw rfl, fun c' v hv => ?_, fun c' hv => ?_,
    fun c' attempt hmem hs => ?_, ⟨h.safe.picks, fun c' v hv hset hpid => ?_⟩⟩
  · rcases AuthState.setConn_cases hv with ⟨rfl, rfl⟩ | ⟨hne, hv⟩
    · exact huuid.trans (congrArg attemptUuid (latestLogin_self ..).symm)
    · exact (h.uuid c' v hv).trans (congrArg attemptUuid (latestLogin_ne hne).symm)
  · obtain ⟨hne, hv⟩ := AuthState.setConn_none hv
    exact (latestLogin_ne hne).trans (h.fresh c' hv)
  · rcases List.mem_cons.1 hmem with heq | hold
    · cases heq
      obtain ⟨row, hrow, hnb, hns, -⟩ := hsucc hs
      exact ⟨row, hrow, hs, hnb, hns⟩
    · exact h.granted c' attempt hold hs
  · rcases AuthState.setConn_cases hv with ⟨rfl, rfl⟩ | ⟨hne, hv⟩
    · replace hpid : client.player.playerId ≠ 0 := hpid
      show PlayerOfLogin _ c' client.player.playerId
      rw [hplayer] at hpid ⊢
      by_cases hs : result = .success
      · obtain ⟨row, hrow, hnb, hns, hf⟩ := hsucc hs
        simp only [StepOk, hchan] at hok
        rcases hok w row hw hrow hnb hns hf with h0 | howns
        · exact absurd h0 hpid
        · exact ⟨row, (if_pos ⟨rfl, hs⟩).trans hrow, howns⟩
      · obtain ⟨row, hrow, howns⟩ := h.safe.current c' w hw
          (fun hsp => by rw [hwait] at hsp; cases hsp) hpid
        exact ⟨row, (if_neg fun hand => hs hand.2).trans hrow, howns⟩
    · obtain ⟨row, hrow, howns⟩ := h.safe.current c' v hv hset hpid
      exact ⟨row, (if_neg fun hand => hne hand.1.symm).trans hrow, howns⟩

/-- The daemon handles a SetPlayer. -/
theorem setPlayer {cred : Credentials} {rest : List AuthRequest} {elsewhere : Bool}
    {login : LoginFates} {fates : SetPlayerFates} {disconnect : QueryFate}
    (h : SessionInv s) (hchan : s.channel = .setPlayer c :: rest)
    (hok : StepOk cred s (.handle login fates disconnect)) (hw : s.conn c = some w)
    {client : AuthClient} {db : Database} {result : NetResultCode}
    (hrun : dmAuthSetPlayer s.db elsewhere fates w.client = (client, db, result)) :
    SessionInv ({ s with
      channel := rest
      db := db
      log := .setPlayer c w.client.player.playerId result :: s.log }.setConn c
        { w with client := client, reply := some result }) := by
  obtain ⟨client', db', result', hr, huuid, hplayers, hcase⟩ :=
    dmAuthSetPlayer_spec s.db elsewhere fates w.client
  rw [hr] at hrun
  cases hrun
  have hk : s.db.KeepsPlayers db := .of_eq hplayers
  simp only [StepOk, hchan] at hok
  obtain ⟨hlast, hthrow⟩ := hok w hw
  -- A player of the account in `m_acctUuid` is one of a granted login.
  have howner : s.db.Owns w.client.acctUuid w.client.player.playerId →
      ∃ attempt row, latestLogin c s.log = some attempt ∧ attempt.Granted row ∧
        s.db.Owns row.acctUuid w.client.player.playerId := by
    intro howns
    obtain ⟨attempt, hlatest, hs⟩ := hlast howns
    obtain ⟨row, hg⟩ := h.granted c attempt (latestLogin_mem hlatest) hs
    have hu := h.uuid c w hw
    obtain ⟨account, restricted, res⟩ := attempt
    obtain rfl : account = some row := hg.account
    rw [hlatest] at hu
    exact ⟨_, row, hlatest, hg, (show row.acctUuid = w.client.acctUuid from hu.symm) ▸ howns⟩
  refine ⟨(hchan ▸ h.plumbed).answer rfl hw rfl, fun c' v hv => ?_, fun c' hv => ?_,
    fun c' attempt hmem hs => ?_, ⟨⟨fun hs hpid => ?_, h.safe.picks.of_keeps hk⟩,
      fun c' v hv hset hpid => ?_⟩⟩
  · rcases AuthState.setConn_cases hv with ⟨rfl, rfl⟩ | ⟨-, hv⟩
    · exact huuid.trans (h.uuid c' w hw)
    · exact h.uuid c' v hv
  · exact h.fresh c' (AuthState.setConn_none hv).2
  · rcases List.mem_cons.1 hmem with heq | hold
    · cases heq
    · exact h.granted c' attempt hold hs
  · rcases hcase with ⟨-, hne⟩ | ⟨-, howns | ⟨-, hne⟩⟩
    · exact absurd hs hne
    · obtain ⟨attempt, row, hlatest, hg, ho⟩ := howner howns
      exact ⟨attempt, row, hlatest, hg, ho.of_keeps hk⟩
    · exact absurd hs hne
  · rcases AuthState.setConn_cases hv with ⟨rfl, rfl⟩ | ⟨-, hv⟩
    · replace hpid : client.player.playerId ≠ 0 := hpid
      show PlayerOfLogin _ c' client.player.playerId
      rcases hcase with ⟨h0, -⟩ | ⟨heq, hown⟩
      · exact absurd h0 hpid
      rw [heq]
      have hof : PlayerOfLogin s c' w.client.player.playerId := by
        rcases hown with howns | ⟨ht, -⟩
        · obtain ⟨attempt, row, hlatest, hg, ho⟩ := howner howns
          exact ⟨row, latestAccount_of_granted hlatest hg, ho⟩
        · exact hthrow ht
      obtain ⟨row, hrow, ho⟩ := hof
      exact ⟨row, hrow, ho.of_keeps hk⟩
    · obtain ⟨row, hrow, howns⟩ := h.safe.current c' v hv hset hpid
      exact ⟨row, hrow, howns.of_keeps hk⟩

end SessionInv

/-! ## Every step -/

/-- The messages of the channel that leave the workers' identity alone. -/
theorem SessionInv.disconnect {s : AuthState} {c : ConnId} {w : Worker} {rest : List AuthRequest}
    (h : SessionInv s) (hchan : s.channel = .disconnect c :: rest) (hw : s.conn c = some w)
    (fate : QueryFate) :
    SessionInv ({ s with
      channel := rest
      db := (dmAuthDisconnect s.db fate w.client).1 }.setConn c
        { w with reply := some (dmAuthDisconnect s.db fate w.client).2 }) := by
  have hk : s.db.KeepsPlayers (dmAuthDisconnect s.db fate w.client).1 :=
    .of_eq (dmAuthDisconnect_players ..)
  obtain ⟨v, hv, hwait, -⟩ := h.plumbed.waits _ (hchan ▸ List.mem_cons_self) c rfl
  obtain rfl : w = v := Option.some.inj (hw ▸ hv)
  have hdb : SessionInv { s with db := (dmAuthDisconnect s.db fate w.client).1 } :=
    h.frame rfl rfl h.plumbed hk
  refine hdb.worker s.authClients hw ((hchan ▸ h.plumbed).answer rfl hw rfl) rfl
    fun _ _ => ⟨fun hsp => ?_, rfl⟩
  rw [hwait] at hsp
  cases hsp

theorem SessionInv.updateAgeSrv {s : AuthState} {c : ConnId} {w : Worker}
    {rest : List AuthRequest} {r : AuthRequest} (h : SessionInv s) (hchan : s.channel = r :: rest)
    (hw : s.conn c = some w) (ageNodeId : UInt32) (joinReply : HostId → Option JoinReply) :
    SessionInv ({ s with channel := rest, joinReply := joinReply }.setConn c
      { w with client := { w.client with ageNodeId := ageNodeId } }) := by
  have hrest : Plumbed s.conn rest := (hchan ▸ h.plumbed).tail
  have hplumbed : Plumbed (Function.update s.conn c
      (some { w with client := { w.client with ageNodeId := ageNodeId } })) rest :=
    hrest.same hw rfl rfl rfl
  have hworker := h.worker s.authClients hw hplumbed rfl fun hset _ => ⟨hset, rfl⟩
  exact hworker.frame rfl rfl hworker.plumbed (.refl _)

theorem SessionInv.step {cred : Credentials} {s s' : AuthState} {e : AuthEvent}
    (h : SessionInv s) (hok : StepOk cred s e) (hstep : authStep cred s e = some s') :
    SessionInv s' := by
  cases authStep_inv hstep with
  | connect hnone => exact h.connect hnone _
  | recvLogin hw hidle | hangup hw hidle =>
    have hnot := h.plumbed.not_putting hw (.inl (by simp [hidle]))
    exact h.put hw (h.plumbed.unasked hw (.inl hidle)) rfl rfl rfl hnot rfl (.inr ⟨hidle, rfl⟩)
  | noPlayer hw hidle =>
    have hnot := h.plumbed.not_putting hw (.inl (by simp [hidle]))
    have hunasked := h.plumbed.unasked hw (.inl hidle)
    refine h.worker s.authClients hw (h.plumbed.update hunasked fun hputting => ?_)
      rfl fun _ hpid => absurd rfl hpid
    cases hnot.symm.trans hputting
  | recvSetPlayer hw hidle =>
    have hunasked := h.plumbed.unasked hw (.inl hidle)
    exact h.worker s.authClients hw (h.plumbed.update hunasked fun _ => ⟨rfl, rfl⟩)
      rfl fun hset _ => absurd rfl (hset rfl)
  | putSetPlayer hw hputting =>
    obtain ⟨hwait, hreply, hfree⟩ := h.plumbed.putting _ _ hw hputting
    exact h.put hw hfree rfl hwait hreply rfl rfl (.inl hwait)
  | taken hw hreply | left hw hreply =>
    have hnot := h.plumbed.not_putting hw (.inr (.inl hreply))
    have hunasked := h.plumbed.unasked hw (.inr hreply)
    refine h.worker _ hw (h.plumbed.update hunasked fun hputting => ?_) rfl
      fun _ _ => ⟨fun _ => hreply, rfl⟩
    cases hnot.symm.trans hputting
  | join | toggleRestrict => exact h.frame rfl rfl (h.plumbed.putFree rfl) (.refl _)
  | admin hk => exact h.frame rfl rfl h.plumbed hk
  | login hchan hw hrun => exact h.login hchan hok hw hrun
  | setPlayer hchan hw hrun => exact h.setPlayer hchan hok hw hrun
  | disconnect hchan hw => exact h.disconnect hchan hw _
  | refuseJoin hchan | restrict hchan =>
    exact h.frame rfl rfl (hchan ▸ h.plumbed).tail (.refl _)
  | acceptJoin hchan _ hw => exact h.updateAgeSrv hchan hw _ _

/-- **Only the logged-in account picks its player**, in every state of a run
whose steps all meet `StepOk`. -/
theorem session_safe (cred : Credentials) {s : AuthState}
    (h : (authMachine cred).ReachableWith (StepOk cred) s) : SessionSafe s := by
  have hinv : SessionInv s := by
    refine h.invariant ?_ fun s e s' hi hok hstep => hi.step hok hstep
    rintro s ⟨db, rfl⟩
    exact SessionInv.initial db
  exact hinv.safe

/-! ## Two runs -/

section Runs

/-- Hashes are compared as they are. -/
def plainCredentials : Credentials where
  lower := id
  useEmailAuth _ := true
  buggyHashLogin h _ _ := h

def noHash : ShaHash := ⟨Vector.replicate 5 0⟩

/-- One account, with the flags given, and its player 7. -/
def oneAccount (acctFlags : UInt32) : Database where
  accounts := [⟨"", noHash, ⟨1, 0, 0, Vector.replicate 8 0⟩, acctFlags, 1⟩]
  players := [⟨⟨1, 0, 0, Vector.replicate 8 0⟩, 7, "", "male", 1⟩]
  infoNodes := []

/-- Log in, and ask for player 7. -/
def loginAndPick : List AuthEvent :=
  [.connect 0 0, .recvLogin 0 ⟨0, "", noHash, 0, []⟩, .handle {} {} .runs, .recvReply 0,
    .recvSetPlayer 0 7, .putSetPlayer 0, .handle {} {} .runs]

/-- An account in good standing logs in and picks its player, in a safe run. -/
theorem session_safe_pick : ∃ s, (authMachine plainCredentials).run (.initial (oneAccount 0))
    loginAndPick = some s ∧ SessionSafe s := by
  have hok : (authMachine plainCredentials).OkRun (StepOk plainCredentials)
      (.initial (oneAccount 0)) loginAndPick := by
    refine And.intro trivial (And.intro trivial (And.intro ?_ (And.intro trivial
      (And.intro trivial (And.intro trivial (And.intro ?_ trivial))))))
    · rintro w row hw - - - -
      cases hw
      exact .inl rfl
    · rintro w hw
      cases hw
      exact ⟨fun _ => ⟨_, rfl, rfl⟩, fun ht => by cases ht⟩
  have hstart : (authMachine plainCredentials).start (.initial (oneAccount 0)) := ⟨_, rfl⟩
  obtain ⟨s, hrun, hs⟩ := (Lib.Machine.ReachableWith.start hstart).run hok
  exact ⟨s, hrun, session_safe plainCredentials hs⟩

/-- **A banned account picks its player.**  The login is answered with
`e_NetAccountBanned`, the SetPlayer after it with success. -/
theorem banned_account_picks_player :
    ¬ ∀ s, (authMachine plainCredentials).Reachable s → SessionSafe s := by
  intro hall
  have hlog : ((authMachine plainCredentials).run (.initial (oneAccount acctBanned))
      loginAndPick).map AuthState.log = some
        [.setPlayer 0 7 .success,
          .login 0 ⟨(oneAccount acctBanned).accounts.head?, false, .accountBanned⟩] := by
    decide
  obtain ⟨s, hrun, hs⟩ := Option.map_eq_some_iff.1 hlog
  have hstart : (authMachine plainCredentials).start (.initial (oneAccount acctBanned)) := ⟨_, rfl⟩
  have hreach := Lib.Machine.run_reachable (.start hstart) hrun
  have hpicks := (hall s hreach).picks
  rw [hs] at hpicks
  obtain ⟨attempt, row, hlatest, hg, -⟩ := hpicks.1 rfl (by decide)
  cases hlatest
  cases hg.result

end Runs

end Dirtsand.AuthServ
