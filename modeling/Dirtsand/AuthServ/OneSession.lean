import Dirtsand.AuthServ.SessionSafety

/-!
# One session for each player

The current player of a connection is the one of its latest SetPlayer, where the
daemon has answered that with success.  `dm_auth_setPlayer` refuses a player that
another client of `s_authClients` has in its record, asked for or current.

* `one_session` — no two connections have the same current player, and of two
  requests for one player that the daemon has both still to answer only one can
  succeed.
-/

namespace Dirtsand.AuthServ

/-- The steps so far, latest first. -/
abbrev AuthPast := List (AuthState × AuthEvent)

/-- The player of the latest SetPlayer of a connection. -/
def latestRequest (c : ConnId) : AuthPast → Option UInt32
  | [] => none
  | (_, .recvSetPlayer c' playerId) :: past =>
    if c' = c then some playerId else latestRequest c past
  | _ :: past => latestRequest c past

/-- The daemon's latest answer to a SetPlayer of a connection. -/
def latestAnswer (c : ConnId) : List SessionEvent → Option (UInt32 × NetResultCode)
  | [] => none
  | .login .. :: log => latestAnswer c log
  | .setPlayer c' playerId result :: log =>
    if c' = c then some (playerId, result) else latestAnswer c log

/-- The latest SetPlayer of a connection in `s_authClients` was for the player,
and was answered with success. -/
structure CurrentPlayer (s : AuthState) (past : AuthPast) (c : ConnId) (playerId : UInt32) : Prop where
  listed : c ∈ s.authClients
  settled : ∀ w, s.conn c = some w → w.Settled
  request : latestRequest c past = some playerId
  answer : latestAnswer c s.log = some (playerId, .success)

/-- A SetPlayer of the connection, for the player, is still to be answered, or
even to be put on the channel. -/
def AuthState.Asks (s : AuthState) (c : ConnId) (playerId : UInt32) : Prop :=
  (.setPlayer c ∈ s.channel ∨ s.Putting c) ∧ s.playerIdOf c = playerId

/-- What the daemon answers to a SetPlayer of the connection in a step. -/
def answerOf (c : ConnId) (s : AuthState) (e : AuthEvent) : Option NetResultCode :=
  match e, s.channel with
  | .handle _ fates _, .setPlayer c' :: _ =>
    if c' = c then
      (s.conn c).map fun w => (dmAuthSetPlayer s.db (s.elsewhere c) fates w.client).2.2
    else none
  | _, _ => none

/-- The first such answer in a run. -/
def firstAnswer (cred : Credentials) (c : ConnId) : AuthState → List AuthEvent → Option NetResultCode
  | _, [] => none
  | s, e :: es => (answerOf c s e).or ((authStep cred s e).bind fun s' => firstAnswer cred c s' es)

/-! ## What a worker has asked for -/

/-- The player that a worker waits to be given is the one of its latest
SetPlayer. -/
def AskedInv (s : AuthState) (past : AuthPast) : Prop :=
  ∀ c w, s.conn c = some w → w.waiting = some .setPlayer → w.reply = none →
    w.client.player.playerId ≠ 0 ∧ latestRequest c past = some w.client.player.playerId

namespace AskedInv

variable {cred : Credentials} {s s' : AuthState} {past past' : AuthPast} {e : AuthEvent}
  {c₀ : ConnId} {w w' : Worker}

theorem initial (db : Database) : AskedInv (AuthState.initial db) [] := by
  intro c w hw
  cases hw

/-- A worker that does not wait for a SetPlayer afterwards. -/
theorem other (h : AskedInv s past) (hconn : s'.conn = Function.update s.conn c₀ (some w'))
    (hother : ¬ (w'.waiting = some .setPlayer ∧ w'.reply = none))
    (hreq : ∀ c, c ≠ c₀ → latestRequest c past' = latestRequest c past) : AskedInv s' past' := by
  intro c v hv hwait hreply
  rw [hconn] at hv
  obtain ⟨rfl, rfl⟩ | ⟨hne, hv⟩ := Lib.update_eq_some hv
  · exact absurd ⟨hwait, hreply⟩ hother
  · rw [hreq c hne]
    exact h c v hv hwait hreply

theorem step (h : AskedInv s past) (hs : authStep cred s e = some s') :
    AskedInv s' ((s, e) :: past) := by
  cases authStep_inv hs with
  | connect | taken | left => exact h.other rfl (by simp) fun _ _ => rfl
  | recvLogin | hangup => exact h.other rfl (by simp) fun _ _ => rfl
  | noPlayer _ hidle =>
    exact h.other rfl (by simp [Worker.pick, hidle]) fun _ hne => if_neg (Ne.symm hne)
  | @recvSetPlayer c₀ p w hw hidle hlive hp =>
    intro c v hv hwait hreply
    obtain ⟨rfl, rfl⟩ | ⟨hne, hv⟩ := AuthState.setConn_cases hv
    · exact ⟨hp, if_pos rfl⟩
    · rw [latestRequest, if_neg (Ne.symm hne)]
      exact h c v hv hwait hreply
  | login | setPlayer | disconnect => exact h.other rfl (by simp) fun _ _ => rfl
  | join | toggleRestrict | admin | refuseJoin | restrict => exact h
  | @putSetPlayer c₀ w hw | @acceptJoin _ _ _ _ _ c₀ w _ _ _ _ _ hw =>
    intro c v hv hwait hreply
    obtain ⟨rfl, rfl⟩ | ⟨-, hv⟩ := AuthState.setConn_cases hv
    · exact h c w hw hwait hreply
    · exact h c v hv hwait hreply

end AskedInv

/-! ## SetPlayer -/

theorem dmAuthSetPlayer_success {db db' : Database} {elsewhere : Bool} {fates : SetPlayerFates}
    {client client' : AuthClient}
    (h : dmAuthSetPlayer db elsewhere fates client = (client', db', .success)) :
    elsewhere = false ∧ client'.player.playerId = client.player.playerId := by
  unfold dmAuthSetPlayer at h
  cases hf : fates.select with
  | throws => simp [hf] at h
  | fails => simp [hf] at h
  | runs =>
    rw [hf] at h
    match hrows : db.selectPlayer client.acctUuid client.player.playerId with
    | [] => simp [hrows] at h
    | _ :: _ :: _ => simp [hrows] at h
    | [row] =>
      simp only [hrows] at h
      cases elsewhere with
      | true => simp at h
      | false =>
        refine ⟨rfl, ?_⟩
        cases hu : fates.update <;> simp [hu] at h
        · rw [← h.1]
        · rw [← h.1]

theorem Worker.settled_of_waiting {w : Worker} (h : w.waiting ≠ some .setPlayer) : w.Settled :=
  fun hwait => absurd hwait h

theorem Worker.settled_of_reply {w : Worker} (h : w.reply ≠ none) : w.Settled :=
  fun _ => h

/-! ## What steps do to a current player -/

section Back

variable {s s' : AuthState} {past past' : AuthPast} {c : ConnId} {playerId : UInt32}

/-- A current player after a step that the connection had before. -/
theorem CurrentPlayer.back (h : CurrentPlayer s' past' c playerId)
    (hlist : c ∈ s'.authClients → c ∈ s.authClients)
    (hset : (∀ w', s'.conn c = some w' → w'.Settled) → ∀ w, s.conn c = some w → w.Settled)
    (hreq : latestRequest c past' = latestRequest c past)
    (hans : latestAnswer c s'.log = latestAnswer c s.log) : CurrentPlayer s past c playerId :=
  ⟨hlist h.listed, hset h.settled, hreq ▸ h.request, hans ▸ h.answer⟩

theorem settled_back {c₀ : ConnId} {w w' : Worker} (hw : s.conn c₀ = some w)
    (hconn : s'.conn = Function.update s.conn c₀ (some w')) (hback : w'.Settled → w.Settled)
    (hset : ∀ v, s'.conn c = some v → v.Settled) : ∀ v, s.conn c = some v → v.Settled := by
  intro v hv
  rw [hconn] at hset
  by_cases hc : c = c₀
  · subst hc
    rw [hw] at hv
    cases hv
    exact hback (hset w' (Function.update_self ..))
  · exact hset v ((Function.update_of_ne hc ..).trans hv)

end Back

/-! ## The invariant -/

structure OneSessionInv (s : AuthState) (past : AuthPast) : Prop where
  conns : ConnInv s
  fresh : ∀ c, s.conn c = none → latestAnswer c s.log = none
  /-- The record has the current player. -/
  current : ∀ c playerId, playerId ≠ 0 → CurrentPlayer s past c playerId → s.playerIdOf c = playerId
  one : ∀ c c' playerId, playerId ≠ 0 → CurrentPlayer s past c playerId →
    CurrentPlayer s past c' playerId → c = c'

theorem AuthState.elsewhere_of {s : AuthState} {c c' : ConnId} (hc : c' ∈ s.authClients)
    (hne : c' ≠ c) (hid : s.playerIdOf c' = s.playerIdOf c) : s.elsewhere c = true := by
  rw [elsewhere, List.any_eq_true]
  exact ⟨c', hc, by simp [hne, hid]⟩

theorem playerIdOf_update {s s' : AuthState} {c₀ : ConnId} {w w' : Worker}
    (hw : s.conn c₀ = some w) (hconn : s'.conn = Function.update s.conn c₀ (some w'))
    (hid : w'.client.player.playerId = w.client.player.playerId) (c : ConnId) :
    s'.playerIdOf c = s.playerIdOf c := by
  unfold AuthState.playerIdOf
  rw [hconn]
  by_cases hc : c = c₀
  · subst hc
    rw [Function.update_self, hw]
    exact hid
  · rw [Function.update_of_ne hc]

theorem dmAuthLogin_player {cred : Credentials} {db : Database} {restrictLogins : Bool}
    {fates : LoginFates} {info info' : LoginInfo} {client client' : AuthClient}
    {result : NetResultCode}
    (hrun : dmAuthLogin cred db restrictLogins fates info client = (client', info', result)) :
    client'.player = client.player := by
  cases hacc : acceptedAccount cred db fates info client with
  | none =>
    obtain ⟨r, hr, -⟩ := dmAuthLogin_none cred db restrictLogins fates info client hacc
    rw [hr] at hrun
    cases hrun
    rfl
  | some row =>
    obtain ⟨i, r, hr, -⟩ := dmAuthLogin_some cred db restrictLogins fates info client hacc
    rw [hr] at hrun
    cases hrun
    rfl

/-- The daemon has just answered the SetPlayer of `c` with success. -/
structure JustPicked (s s' : AuthState) (c : ConnId) (playerId : UInt32) : Prop where
  head : ∃ rest, s.channel = .setPlayer c :: rest
  before : s.playerIdOf c = playerId
  after : s'.playerIdOf c = playerId
  nobody : s.elsewhere c = false

namespace OneSessionInv

variable {cred : Credentials} {s s' : AuthState} {past : AuthPast} {e : AuthEvent}

theorem initial (db : Database) : OneSessionInv (AuthState.initial db) [] :=
  ⟨.initial db, fun _ _ => rfl, fun _ _ _ hcur => (by cases hcur.answer),
    fun _ _ _ _ hcur => (by cases hcur.answer)⟩

/-- **A connection has its current player from before, or was just answered.** -/
theorem current_cases (h : OneSessionInv s past) (hs : authStep cred s e = some s') {c : ConnId}
    {playerId : UInt32} (hp : playerId ≠ 0) (hcur : CurrentPlayer s' ((s, e) :: past) c playerId) :
    (CurrentPlayer s past c playerId ∧ s'.playerIdOf c = s.playerIdOf c) ∨
      JustPicked s s' c playerId := by
  -- A worker that goes on with the player id that it had.
  have hkeep : ∀ {c₀ : ConnId} {w w' : Worker}, s.conn c₀ = some w →
      s'.conn = Function.update s.conn c₀ (some w') →
      w'.client.player.playerId = w.client.player.playerId → (w'.Settled → w.Settled) →
      (c ∈ s'.authClients → c ∈ s.authClients) →
      latestRequest c ((s, e) :: past) = latestRequest c past →
      latestAnswer c s'.log = latestAnswer c s.log →
      (CurrentPlayer s past c playerId ∧ s'.playerIdOf c = s.playerIdOf c) ∨
        JustPicked s s' c playerId := by
    intro c₀ w w' hw hconn hid hback hlist hreq hans
    exact .inl ⟨hcur.back hlist (settled_back hw hconn hback) hreq hans,
      playerIdOf_update hw hconn hid c⟩
  have hidle : ∀ {w : Worker}, w.waiting = none → w.Settled :=
    fun hwait => Worker.settled_of_waiting (by simp [hwait])
  cases authStep_inv hs with
  | @connect c₀ serverChallenge hnone =>
    have hne : c ≠ c₀ := by
      rintro rfl
      have hans : latestAnswer c s.log = some (playerId, .success) := hcur.answer
      rw [h.fresh c hnone] at hans
      cases hans
    left
    refine ⟨hcur.back (fun hc => ?_) (fun hset w hw => ?_) rfl rfl, ?_⟩
    · obtain hc | hc := List.mem_append.1 hc
      · exact hc
      · exact absurd (List.mem_singleton.1 hc) hne
    · exact hset w ((Function.update_of_ne hne ..).trans hw)
    · simp only [AuthState.playerIdOf, AuthState.setConn, Function.update_of_ne hne]
  | recvLogin hw hwait | hangup hw hwait =>
    exact hkeep hw rfl rfl (fun _ => hidle hwait) id rfl rfl
  | putSetPlayer hw => exact hkeep hw rfl rfl id id rfl rfl
  | @noPlayer c₀ w hw hwait =>
    by_cases hc : c₀ = c
    · have hreq := hcur.request
      rw [latestRequest, if_pos hc, Option.some.injEq] at hreq
      exact absurd hreq.symm hp
    · left
      refine ⟨hcur.back id (settled_back hw rfl fun _ => hidle hwait) (if_neg hc) rfl, ?_⟩
      simp only [AuthState.playerIdOf, AuthState.setConn, Function.update_of_ne (Ne.symm hc)]
  | @recvSetPlayer c₀ p w hw hwait =>
    by_cases hc : c₀ = c
    · subst hc
      have hset := hcur.settled _ (Function.update_self ..)
      exact absurd rfl (hset rfl)
    · left
      refine ⟨hcur.back id (settled_back hw rfl fun _ => hidle hwait) (if_neg hc) rfl, ?_⟩
      simp only [AuthState.playerIdOf, AuthState.setConn, Function.update_of_ne (Ne.symm hc)]
  | taken hw hreply =>
    exact hkeep hw rfl rfl (fun _ => Worker.settled_of_reply hreply) id rfl rfl
  | left hw hreply =>
    exact hkeep hw rfl rfl (fun _ => Worker.settled_of_reply hreply)
      (fun hc => (List.mem_filter.1 hc).1) rfl rfl
  | join | toggleRestrict | admin => exact .inl ⟨hcur.back id id rfl rfl, rfl⟩
  | @login c₀ info rest w _ _ _ client info' result hchan hw hrun =>
    obtain ⟨v, hv, hwait, -⟩ := h.conns.plumbed.waits _ (hchan ▸ List.mem_cons_self) c₀ rfl
    obtain rfl : w = v := Option.some.inj (hw ▸ hv)
    exact hkeep hw rfl (congrArg PlayerInfo.playerId (dmAuthLogin_player hrun))
      (fun _ => Worker.settled_of_waiting (by simp [hwait, AuthRequest.pending])) id rfl rfl
  | @setPlayer c₀ rest w _ fates _ client db result hchan hw hrun =>
    by_cases hc : c₀ = c
    · subst hc
      right
      have hans : (if c₀ = c₀ then some (w.client.player.playerId, result) else
        latestAnswer c₀ s.log) = some (playerId, .success) := hcur.answer
      rw [if_pos rfl, Option.some.injEq, Prod.mk.injEq] at hans
      obtain ⟨rfl, rfl⟩ := hans
      obtain ⟨hno, hid⟩ := dmAuthSetPlayer_success hrun
      refine ⟨⟨rest, hchan⟩, by simp only [AuthState.playerIdOf, hw], ?_, hno⟩
      simp only [AuthState.playerIdOf, AuthState.setConn, Function.update_self]
      exact hid
    · left
      refine ⟨hcur.back id (fun hset v hv => ?_) rfl (if_neg hc), ?_⟩
      · exact hset v ((Function.update_of_ne (Ne.symm hc) ..).trans hv)
      · simp only [AuthState.playerIdOf, AuthState.setConn, Function.update_of_ne (Ne.symm hc)]
  | @disconnect c₀ rest w _ _ fate hchan hw =>
    obtain ⟨v, hv, hwait, -⟩ := h.conns.plumbed.waits _ (hchan ▸ List.mem_cons_self) c₀ rfl
    obtain rfl : w = v := Option.some.inj (hw ▸ hv)
    exact hkeep hw rfl rfl
      (fun _ => Worker.settled_of_waiting (by simp [hwait, AuthRequest.pending])) id rfl rfl
  | refuseJoin | restrict => exact .inl ⟨hcur.back id id rfl rfl, rfl⟩
  | acceptJoin hchan hfind hw => exact hkeep hw rfl rfl id id rfl rfl

/-- A connection that is not there has no history. -/
theorem conn_none (hs : authStep cred s e = some s') {c : ConnId} (hnone : s'.conn c = none) :
    s.conn c = none ∧ latestAnswer c s'.log = latestAnswer c s.log := by
  cases authStep_inv hs with
  | setPlayer =>
    obtain ⟨hne, hold⟩ := AuthState.setConn_none hnone
    exact ⟨hold, if_neg (Ne.symm hne)⟩
  | join | toggleRestrict | admin | refuseJoin | restrict => exact ⟨hnone, rfl⟩
  | _ => exact ⟨(AuthState.setConn_none hnone).2, rfl⟩

theorem step (h : OneSessionInv s past) (hs : authStep cred s e = some s') :
    OneSessionInv s' ((s, e) :: past) := by
  refine ⟨h.conns.step hs, fun c hnone => ?_, fun c playerId hp hcur => ?_,
    fun c c' playerId hp hcur hcur' => ?_⟩
  · obtain ⟨hold, heq⟩ := conn_none hs hnone
    exact heq.trans (h.fresh c hold)
  · obtain ⟨hold, heq⟩ | hpick := h.current_cases hs hp hcur
    · exact heq.trans (h.current c playerId hp hold)
    · exact hpick.after
  · -- Who has just picked the player had no other one beside it that has it.
    have hapart : ∀ {c c' : ConnId}, JustPicked s s' c playerId →
        CurrentPlayer s past c' playerId → c = c' := by
      intro c c' hpick hold
      by_contra hne
      have hid := (h.current c' playerId hp hold).trans hpick.before.symm
      have helse := AuthState.elsewhere_of hold.listed (Ne.symm hne) hid
      rw [hpick.nobody] at helse
      cases helse
    obtain ⟨hold, -⟩ | hpick := h.current_cases hs hp hcur
    · obtain ⟨hold', -⟩ | hpick' := h.current_cases hs hp hcur'
      · exact h.one c c' playerId hp hold hold'
      · exact (hapart hpick' hold).symm
    · obtain ⟨hold', -⟩ | hpick' := h.current_cases hs hp hcur'
      · exact hapart hpick hold'
      · obtain ⟨rest, hrest⟩ := hpick.head
        obtain ⟨rest', hrest'⟩ := hpick'.head
        rw [hrest] at hrest'
        cases hrest'
        rfl

end OneSessionInv

/-! ## Two requests for one player -/

section Asks

variable {cred : Credentials} {s s' : AuthState} {e : AuthEvent} {c c' : ConnId} {playerId : UInt32}

theorem ConnInv.asking (h : ConnInv s) (hask : s.Asks c playerId) :
    ∃ w, s.conn c = some w ∧ w.waiting = some .setPlayer ∧ w.reply = none ∧ c ∈ s.authClients := by
  obtain ⟨w, hw, hwait, hreply⟩ : ∃ w, s.conn c = some w ∧ w.waiting = some .setPlayer ∧
      w.reply = none := by
    obtain hmem | ⟨w, hw, hputting⟩ := hask.1
    · exact h.plumbed.waits _ hmem c rfl
    · obtain ⟨hwait, hreply, -⟩ := h.plumbed.putting c w hw hputting
      exact ⟨w, hw, hwait, hreply⟩
  refine ⟨w, hw, hwait, hreply, (h.listed c).2 ⟨w, hw, ?_⟩⟩
  cases hend : w.ended with
  | false => rfl
  | true =>
    rw [h.ended c w hw hend] at hwait
    cases hwait

/-- The daemon refuses the first one it comes to. -/
theorem ConnInv.answerOf_ne (h : ConnInv s) (hne : c ≠ c') (hask : s.Asks c playerId)
    (hask' : s.Asks c' playerId) : answerOf c s e ≠ some .success := by
  obtain ⟨-, -, -, -, hlisted⟩ := h.asking hask'
  have helse : s.elsewhere c = true :=
    AuthState.elsewhere_of hlisted (Ne.symm hne) (hask'.2.trans hask.2.symm)
  intro hans
  unfold answerOf at hans
  split at hans
  · split at hans
    · obtain ⟨w, -, hresult⟩ := Option.map_eq_some_iff.1 hans
      have hrun : dmAuthSetPlayer s.db (s.elsewhere c) _ w.client = (_, _, .success) :=
        Prod.ext rfl (Prod.ext rfl hresult)
      rw [(dmAuthSetPlayer_success hrun).1] at helse
      cases helse
    · cases hans
  · cases hans

/-- Who is not answered asks still. -/
theorem ConnInv.asks_step (h : ConnInv s) (hask : s.Asks c playerId)
    (hs : authStep cred s e = some s') (hno : answerOf c s e = none) : s'.Asks c playerId := by
  obtain ⟨w₀, hw₀, hwait₀, hreply₀, -⟩ := h.asking hask
  obtain ⟨hmem, hid⟩ := hask
  -- The workers that go on are others.
  have hidle : ∀ {c₀ : ConnId} {w : Worker}, s.conn c₀ = some w →
      w.waiting = none ∨ w.reply ≠ none ∨ w.waiting = some .login ∨ w.waiting = some .disconnect →
      c ≠ c₀ := by
    rintro c₀ w hw hother rfl
    rw [hw₀] at hw
    cases hw
    simp [hwait₀, hreply₀] at hother
  have hsame : ∀ {c₀ : ConnId} {w : Worker}, c ≠ c₀ → ∀ s₁ : AuthState,
      s₁.conn = Function.update s.conn c₀ (some w) →
      (.setPlayer c ∈ s.channel → .setPlayer c ∈ s₁.channel) → s₁.Asks c playerId := by
    intro c₀ w hne s₁ hconn hchan
    have heq : s₁.conn c = s.conn c := by rw [hconn, Function.update_of_ne hne]
    rw [AuthState.Asks, AuthState.Putting, AuthState.playerIdOf, heq]
    exact ⟨hmem.imp hchan id, hid⟩
  have hrest : ∀ {r : AuthRequest} {rest : List AuthRequest}, s.channel = r :: rest →
      r ≠ .setPlayer c → .setPlayer c ∈ s.channel → .setPlayer c ∈ rest := by
    intro r rest hchan hr hmem
    rw [hchan] at hmem
    obtain heq | hmem := List.mem_cons.1 hmem
    · exact absurd heq.symm hr
    · exact hmem
  cases authStep_inv hs with
  | @connect c₀ serverChallenge hnone =>
    have hne : c ≠ c₀ := by
      rintro rfl
      cases hnone.symm.trans hw₀
    exact hsame hne _ rfl id
  | recvLogin hw hwait | hangup hw hwait =>
    exact hsame (hidle hw (.inl hwait)) _ rfl (List.mem_append_left _)
  | noPlayer hw hwait | recvSetPlayer hw hwait => exact hsame (hidle hw (.inl hwait)) _ rfl id
  | @putSetPlayer c₀ w hw hputting =>
    by_cases hc : c = c₀
    · subst hc
      refine ⟨.inl (List.mem_append_right _ List.mem_cons_self), Eq.trans ?_ hid⟩
      refine playerIdOf_update hw rfl ?_ c
      rfl
    · exact hsame hc _ rfl (List.mem_append_left _)
  | taken hw hreply | left hw hreply => exact hsame (hidle hw (.inr (.inl hreply))) _ rfl id
  | join | toggleRestrict => exact ⟨hmem.imp_left (List.mem_append_left _), hid⟩
  | admin => exact ⟨hmem, hid⟩
  | @login c₀ info rest w _ _ _ client info' result hchan hw hrun =>
    obtain ⟨v, hv, hwait, -⟩ := h.plumbed.waits _ (hchan ▸ List.mem_cons_self) c₀ rfl
    obtain rfl : w = v := Option.some.inj (hw ▸ hv)
    exact hsame (hidle hw (.inr (.inr (.inl hwait)))) _ rfl (hrest hchan (by simp))
  | @setPlayer c₀ rest w _ fates _ client db result hchan hw hrun =>
    have hne : c ≠ c₀ := by
      rintro rfl
      simp [answerOf, hchan, hw] at hno
    exact hsame hne _ rfl (hrest hchan (by simpa using Ne.symm hne))
  | @disconnect c₀ rest w _ _ fate hchan hw =>
    obtain ⟨v, hv, hwait, -⟩ := h.plumbed.waits _ (hchan ▸ List.mem_cons_self) c₀ rfl
    obtain rfl : w = v := Option.some.inj (hw ▸ hv)
    exact hsame (hidle hw (.inr (.inr (.inr hwait)))) _ rfl (hrest hchan (by simp))
  | refuseJoin hchan | restrict hchan => exact ⟨hmem.imp_left (hrest hchan (by simp)), hid⟩
  | @acceptJoin _ _ _ _ _ c₀ w _ _ _ hchan hfind hw =>
    by_cases hc : c = c₀
    · subst hc
      refine ⟨hmem.imp (hrest hchan (by simp)) fun hputting => ?_, Eq.trans ?_ hid⟩
      · obtain ⟨v, hv, hputting⟩ := hputting
        obtain rfl := Option.some.inj (hw.symm.trans hv)
        exact ⟨_, Function.update_self .., hputting⟩
      · refine playerIdOf_update hw rfl ?_ c
        rfl
    · exact hsame hc _ rfl (hrest hchan (by simp))

theorem ConnInv.one_success (h : ConnInv s) (hne : c ≠ c') (hask : s.Asks c playerId)
    (hask' : s.Asks c' playerId) (es : List AuthEvent) :
    ¬ (firstAnswer cred c s es = some .success ∧ firstAnswer cred c' s es = some .success) := by
  induction es generalizing s with
  | nil =>
    rintro ⟨hans, -⟩
    cases hans
  | cons e es ih =>
    rintro ⟨hans, hans'⟩
    rw [firstAnswer] at hans hans'
    cases hnow : answerOf c s e with
    | some result =>
      rw [hnow, Option.some_or] at hans
      exact h.answerOf_ne hne hask hask' (hnow.trans hans)
    | none =>
      cases hnow' : answerOf c' s e with
      | some result =>
        rw [hnow', Option.some_or] at hans'
        exact h.answerOf_ne (Ne.symm hne) hask' hask (hnow'.trans hans')
      | none =>
        rw [hnow, Option.none_or] at hans
        rw [hnow', Option.none_or] at hans'
        obtain ⟨s₁, hs, hans⟩ := Option.bind_eq_some_iff.1 hans
        rw [hs, Option.bind_some] at hans'
        exact ih (h.step hs) (h.asks_step hask hs hnow) (h.asks_step hask' hs hnow') ⟨hans, hans'⟩

end Asks

theorem oneSessionInv_of_reachable {cred : Credentials} {p : AuthState × AuthPast}
    (h : (authMachine cred).withHistory.Reachable p) : OneSessionInv p.1 p.2 := by
  refine Lib.Machine.withHistory_invariant (I := OneSessionInv) ?_ ?_ h
  · rintro s ⟨db, rfl⟩
    exact .initial db
  · exact fun s past e s' hinv _ hs => hinv.step hs

/-- **A player has one session**, and of two requests for it that the daemon has
still to answer one is refused. -/
theorem one_session (cred : Credentials) {p : AuthState × AuthPast}
    (h : (authMachine cred).withHistory.Reachable p) :
    (∀ playerId c c', playerId ≠ 0 → CurrentPlayer p.1 p.2 c playerId →
      CurrentPlayer p.1 p.2 c' playerId → c = c') ∧
    ∀ playerId c c' es, c ≠ c' → p.1.Asks c playerId → p.1.Asks c' playerId →
      ¬ (firstAnswer cred c p.1 es = some .success ∧
        firstAnswer cred c' p.1 es = some .success) := by
  have hinv := oneSessionInv_of_reachable h
  exact ⟨fun playerId c c' hp hcur hcur' => hinv.one c c' playerId hp hcur hcur',
    fun playerId c c' es hne hask hask' => hinv.conns.one_success hne hask hask' es⟩

/-- Two connections log in, and both ask for player 7 before the daemon has answered either.  The
one that is first to store it is last to put its message. -/
def bothAsk : List AuthEvent :=
  [.connect 0 0, .connect 1 0, .recvLogin 0 ⟨0, "", noHash, 0, []⟩,
    .recvLogin 1 ⟨0, "", noHash, 0, []⟩, .handle {} {} .runs, .handle {} {} .runs, .recvReply 0,
    .recvReply 1, .recvSetPlayer 0 7, .recvSetPlayer 1 7, .putSetPlayer 1]

set_option synthInstance.maxSize 2000 in
/-- The request that is on the channel is refused, and the other one gets the player. -/
theorem one_session_pick : ∃ p p', (authMachine plainCredentials).withHistory.run
      (.initial (oneAccount 0), []) bothAsk = some p ∧
    (authMachine plainCredentials).withHistory.run p
      [.handle {} {} .runs, .putSetPlayer 0, .handle {} {} .runs, .recvReply 0, .recvReply 1] =
        some p' ∧
    p.1.Asks 0 7 ∧ p.1.Asks 1 7 ∧
    (∀ es, ¬ (firstAnswer plainCredentials 0 p.1 es = some .success ∧
      firstAnswer plainCredentials 1 p.1 es = some .success)) ∧
    latestAnswer 1 p'.1.log = some (7, .loggedInElsewhere) ∧
    CurrentPlayer p'.1 p'.2 0 7 ∧ ∀ c, CurrentPlayer p'.1 p'.2 c 7 → c = 0 := by
  have hstart : (authMachine plainCredentials).withHistory.start (.initial (oneAccount 0), []) :=
    ⟨⟨_, rfl⟩, rfl⟩
  have hasks : ((authMachine plainCredentials).withHistory.run (.initial (oneAccount 0), [])
      bothAsk).map (fun p => (p.1.channel, (p.1.conn 0).map Worker.putting, p.1.playerIdOf 0,
        p.1.playerIdOf 1)) = some ([.setPlayer 1], some true, 7, 7) := by decide
  have hend : ((authMachine plainCredentials).withHistory.run (.initial (oneAccount 0), [])
      (bothAsk ++ [.handle {} {} .runs, .putSetPlayer 0, .handle {} {} .runs, .recvReply 0,
        .recvReply 1])).map
      (fun p => (p.1.authClients, (p.1.conn 0).map Worker.waiting, latestRequest 0 p.2,
        latestAnswer 0 p.1.log, latestAnswer 1 p.1.log)) =
      some ([0, 1], some none, some 7, some (7, .success), some (7, .loggedInElsewhere)) := by
    decide
  obtain ⟨p, hrun, hp⟩ := Option.map_eq_some_iff.1 hasks
  rw [Lib.Machine.run_append, hrun, Option.bind_some] at hend
  obtain ⟨p', hrun', hp'⟩ := Option.map_eq_some_iff.1 hend
  simp only [Prod.mk.injEq] at hp hp'
  obtain ⟨hchan, hputting, hid₀, hid₁⟩ := hp
  obtain ⟨hlist, hwaits, hreq, hans, hrefused⟩ := hp'
  have hreach := Lib.Machine.run_reachable (.start hstart) hrun
  have hask₀ : p.1.Asks 0 7 := ⟨.inr (Option.map_eq_some_iff.1 hputting), hid₀⟩
  have hask₁ : p.1.Asks 1 7 := ⟨.inl (by simp [hchan]), hid₁⟩
  have hcur : CurrentPlayer p'.1 p'.2 0 7 := by
    refine ⟨by simp [hlist], fun w hw => ?_, hreq, hans⟩
    rw [hw, Option.map_some, Option.some.injEq] at hwaits
    exact Worker.settled_of_waiting (by simp [hwaits])
  have hone := (one_session plainCredentials (Lib.Machine.run_reachable hreach hrun')).1
  exact ⟨p, p', hrun, hrun', hask₀, hask₁,
    fun es => (one_session plainCredentials hreach).2 7 0 1 es (by decide) hask₀ hask₁, hrefused,
    hcur, fun c hc => hone 7 c 0 (by decide) hc hcur⟩

end Dirtsand.AuthServ
