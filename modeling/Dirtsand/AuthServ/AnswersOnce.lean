import Dirtsand.AuthServ.Conversation

/-!
# One reply to each request

The handlers of the auth daemon one by one, by the rules of `Lib.Dialogue`.  Most
of them reply once if the database answers well and end the process if it does
not; `dm_auth_findAge` may lose its reply, and `dm_auth_createPlayer` replies twice
where the player could not be created.

* `dmAuthHandle_repliedOnce` — **a message is answered once exactly if the answers
  of the database are `Good` and the daemon does not write through a null
  pointer** (`WritesNull`).
-/

namespace Dirtsand.AuthServ.Daemon

open Lib.Prog

section Handlers

variable {ext : External} {L : Prop}

theorem getClient_sound (c : ConnId) : Sound (judge ext) (fun _ => True) (getClient c) :=
  sound_get.bind fun _ _ => sound_pure trivial

/-! ## Broadcasts -/

theorem bcastTo_sound (nodeIdx : UInt32) : Sound (judge ext) (fun _ => True) (bcastTo nodeIdx) := by
  refine sound_get.bind fun s _ => ?_
  refine Sound.discard (P := fun _ => True) (Sound.collect (T := fun _ => True) fun c _ => ?_)
  refine (vHasNode_sound _ _).bind fun found _ => ?_
  split
  · exact sound_pure trivial
  · exact vHasNode_sound _ _

theorem refAndBcast_sound (ref : Vault.NodeRef) :
    Sound (judge ext) (fun _ => True) (refAndBcast ref) := by
  refine (vRefNode_sound _ _ _).bind fun ok _ => ?_
  split
  · exact bcastTo_sound _
  · exact sound_pure trivial

theorem bcastSent_sound (ref : Vault.NodeRef) :
    Sound (judge ext) (fun _ => True) (bcastSent ref) := by
  unfold bcastSent
  split
  · exact bcastTo_sound _
  · exact sound_pure trivial

/-- An update that failed has no rows to tell of. -/
theorem bcastRows_sound {s : Statement} {o : QueryOutcome} {r : PGresult}
    (hr : o.result s = some r) (hs : 0 < s.columns) : Sound (judge ext) (fun _ => True) (bcastRows r) := by
  refine Sound.discard (sound_forRows (P := fun _ => True) fun i hi => ?_)
  have hf : 0 < r.nfields := by
    cases o with
    | tuples rows =>
      cases hr
      exact hs
    | command | error =>
      cases hr
      cases hi
    | throws => cases hr
  refine (sound_numAt hi hf).bind fun nodeid _ => ?_
  exact genUuid_sound.bind fun _ _ => bcastTo_sound _

/-! ## Accounts and players -/

theorem dmAuthAddacct_answers (acctName : String) :
    Answers (judge ext) L (dmAuthAddacct acctName) := by
  refine answers_exec_free rfl fun r hr => ?_
  split
  · exact answers_reply _
  split
  · refine genUuid_sound.answers fun acctUuid _ => ?_
    refine answers_exec_free rfl fun r _ => ?_
    split
    · exact answers_reply _
    · exact answers_reply _
  · exact answers_reply _

theorem dmAuthLoginPlayers_answers (c : ConnId) (billingType : UInt32) :
    Answers (judge ext) L (dmAuthLoginPlayers ext c billingType) := by
  refine (getClient_sound c).answers fun client _ => ?_
  refine answers_exec_free rfl fun r hr => ?_
  split
  · exact answers_reply _
  rename_i hok
  have hf : r.nfields = 4 := hr (by simpa using hok)
  refine Sound.answers (sound_forRows (P := fun _ => True) fun i hi => ?_) fun _ _ => answers_reply _
  refine (sound_numAt hi (by omega)).bind fun _ _ => ?_
  refine (sound_textAt hi (by omega)).bind fun _ _ => ?_
  refine (sound_textAt hi (by omega)).bind fun _ _ => ?_
  exact (sound_numAt hi (by omega)).bind fun _ _ => sound_pure trivial

theorem sound_hashAt {r : PGresult} {i j : Nat} (hi : i < r.ntuples) (hj : j < r.nfields) :
    Sound (judge ext) (fun _ => True) (hashAt r i j) := by
  obtain ⟨text, h⟩ := PGresult.getvalue_isSome hi hj
  rw [hashAt, h]
  exact sound_pure trivial

theorem dmAuthLogin_answers (c : ConnId) (info : LoginInfo) :
    Answers (judge ext) L (dmAuthLogin ext c info) := by
  refine (sound_modify _).answers fun _ _ => ?_
  refine answers_exec_free rfl fun r hr => ?_
  split
  · exact answers_reply _
  rename_i hok
  have hf : r.nfields = 4 := hr (by simpa using hok)
  split
  · exact answers_reply _
  split
  · exact answers_reply _
  have hi : 0 < r.ntuples := by omega
  refine (sound_hashAt hi (by omega)).answers fun passhash _ => ?_
  refine (getClient_sound c).answers fun client _ => ?_
  split
  · exact answers_reply _
  refine (sound_uuidAt hi (by omega)).answers fun acctUuid _ => ?_
  refine (sound_modify _).answers fun _ _ => ?_
  refine (sound_numAt hi (by omega)).answers fun acctFlags _ => ?_
  refine (sound_modify _).answers fun _ _ => ?_
  refine (sound_numAt hi (by omega)).answers fun billingType _ => ?_
  split
  · exact answers_reply _
  refine answers_get fun s => ?_
  split
  · exact answers_reply _
  · exact dmAuthLoginPlayers_answers c billingType

theorem dmAuthDisconnect_answers (c : ConnId) :
    Answers (judge ext) L (dmAuthDisconnect c) := by
  refine (getClient_sound c).answers fun client _ => ?_
  dsimp only
  split
  · refine answers_exec_result rfl fun o r hr => ?_
    exact (bcastRows_sound hr Nat.zero_lt_one).answers fun _ _ => answers_reply _
  · exact answers_reply _

theorem clearPlayer_sound (c : ConnId) : Sound (judge ext) (fun _ => True) (clearPlayer c) :=
  sound_modify _

theorem dmAuthSetPlayer_answers (c : ConnId) :
    Answers (judge ext) L (dmAuthSetPlayer ext c) := by
  refine (getClient_sound c).answers fun client _ => ?_
  refine answers_exec_free rfl fun r hr => ?_
  split
  · exact (clearPlayer_sound c).answers fun _ _ => answers_reply _
  rename_i hok
  have hf : r.nfields = 3 := hr (by simpa using hok)
  split
  · exact (clearPlayer_sound c).answers fun _ _ => answers_reply _
  split
  · exact (clearPlayer_sound c).answers fun _ _ => answers_reply _
  have hi : 0 < r.ntuples := by omega
  refine answers_get fun s => ?_
  split
  · exact (clearPlayer_sound c).answers fun _ _ => answers_reply _
  refine (sound_textAt hi (by omega)).answers fun playerName _ => ?_
  refine (sound_textAt hi (by omega)).answers fun avatarModel _ => ?_
  refine (sound_numAt hi (by omega)).answers fun explorer _ => ?_
  refine (sound_modify _).answers fun _ _ => ?_
  refine answers_exec_result rfl fun o r hr => ?_
  exact (bcastRows_sound hr Nat.zero_lt_one).answers fun _ _ => answers_reply _

theorem dmAuthEnterPlayer_answers (c : ConnId) (msgPlayer : PlayerInfo)
    (player : UInt32 × UInt32 × UInt32) :
    Answers (judge ext) L (dmAuthEnterPlayer c msgPlayer player) := by
  refine (refAndBcast_sound _).answers fun _ _ => ?_
  refine answers_get fun s => ?_
  refine (refAndBcast_sound _).answers fun _ _ => ?_
  refine (getClient_sound c).answers fun client _ => ?_
  refine answers_exec_free rfl fun r _ => ?_
  split
  · exact answers_reply _
  · exact answers_reply _

theorem dmAuthDeletePlayer_answers (c : ConnId) (playerId : UInt32) :
    Answers (judge ext) L (dmAuthDeletePlayer c playerId) := by
  refine (getClient_sound c).answers fun client _ => ?_
  refine answers_exec_free rfl fun r _ => ?_
  split
  · exact answers_reply _
  split
  · exact answers_reply _
  refine answers_exec_free rfl fun r _ => ?_
  split
  · exact answers_reply _
  refine answers_exec_free rfl fun r hr => ?_
  split
  · exact answers_reply _
  rename_i hok
  have hf : r.nfields = 1 := hr (by simpa using hok)
  split
  · exact answers_reply _
  refine (sound_numAt (by omega) (by omega)).answers fun playerInfo _ => ?_
  refine answers_exec_free rfl fun r _ => ?_
  split
  · exact answers_reply _
  · exact answers_reply _

/-! ## Ages -/

theorem replyAgeNodes_answers (ageNodes : UInt32 × UInt32) :
    Answers (judge ext) L (replyAgeNodes ageNodes) := by
  unfold replyAgeNodes
  split
  · exact answers_reply _
  · exact answers_reply _

theorem dmAuthCreateAge_answers (age : AgeInfo) :
    Answers (judge ext) L (dmAuthCreateAge ext age) := by
  refine answers_exec_free rfl fun r hr => ?_
  split
  · exact answers_reply _
  rename_i hok
  have hf : r.nfields = 1 := hr (by simpa using hok)
  split
  · refine (sound_numAt (by omega) (by omega)).answers fun ageNode _ => ?_
    refine answers_exec_free rfl fun r hr => ?_
    split
    · exact answers_reply _
    rename_i hok
    have hf : r.nfields = 1 := hr (by simpa using hok)
    split
    · exact (sound_numAt (by omega) (by omega)).answers fun _ _ => replyAgeNodes_answers _
    · exact answers_reply _
  · exact (vCreateAge_sound _ _).answers fun _ _ => replyAgeNodes_answers _

theorem dmAuthFoundAge_answers (c : ConnId) (instanceId : Uuid) {r : PGresult}
    (hi : 0 < r.ntuples) (hf : r.nfields = 3) :
    Answers (judge ext) L (dmAuthFoundAge ext c instanceId r) := by
  refine (sound_numAt hi (by omega)).answers fun ageNodeIdx _ => ?_
  refine (sound_numAt hi (by omega)).answers fun mcpId _ => ?_
  refine (sound_textAt hi (by omega)).answers fun ageDesc _ => ?_
  refine (getClient_sound c).answers fun client _ => ?_
  refine answers_exec_result rfl fun o r hr => ?_
  exact (bcastRows_sound hr Nat.zero_lt_one).answers fun _ _ => answers_reply _

/-- Here a reply can be lost: the daemon only prints an error where it cannot
enter a new server. -/
theorem dmAuthFindAge_answers (c : ConnId) (name : String) (instanceId : Uuid) :
    Answers (judge ext) True (dmAuthFindAge ext c name instanceId) := by
  refine answers_exec_free rfl fun r hr => ?_
  split
  · exact answers_reply _
  rename_i hok
  have hf : r.nfields = 3 := hr (by simpa using hok)
  split
  · refine answers_exec (fun o r hr ho => ?_) fun o r hr ho => ?_
    · cases o with
      | tuples rows =>
        cases hr
        exact dmAuthFoundAge_answers c instanceId (List.length_pos_iff.2 ho) rfl
      | command | error => exact absurd rfl (ho instanceId name)
      | throws => cases hr
    · cases o with
      | tuples rows =>
        obtain rfl : rows = [] := not_not.1 ho
        cases hr
        exact Fails.bind fails_crash
      | command | error =>
        cases hr
        exact fails_pure trivial ()
      | throws => cases hr
  · exact dmAuthFoundAge_answers c instanceId (by omega) hf

theorem dmAuthGetPublic_answers (agename : String) :
    Answers (judge ext) L (dmAuthGetPublic ext agename) := by
  refine (vFindPublicAges_sound _).answers fun ages _ => ?_
  cases ages with
  | some ages => exact answers_reply _
  | none => exact answers_reply _

theorem dmAuthSetVisible_sound {s : Statement} (hs : s.free = true) (nodeid : UInt32) :
    Sound (judge ext) (fun _ => True) (dmAuthSetVisible s nodeid) := by
  refine sound_exec_free hs fun r _ => ?_
  split
  · exact sound_pure trivial
  refine genUuid_sound.bind fun _ _ => ?_
  exact (bcastTo_sound _).bind fun _ _ => sound_pure trivial

theorem dmAuthSetPubPriv_answers (node : UInt32) (isPublic : Bool) :
    Answers (judge ext) L (dmAuthSetPubPriv node isPublic) := by
  refine Sound.answers (P := fun _ => True) ?_ fun result _ => answers_reply _
  split
  · exact dmAuthSetVisible_sound rfl node
  · exact dmAuthSetVisible_sound rfl node

/-! ## Scores -/

/-- A statement whose first row is read unchecked. -/
theorem answers_firstRow {s : Statement} {read : PGresult → DM Unit} {k : UInt32 → DM Unit}
    (hs : ∀ rows, RowsOk s rows ↔ rows ≠ []) (hi : ∀ i n, s ≠ .insertTempServer i n)
    (hc : 0 < s.columns) (hread : ∀ r, read r = numAt r 0 0 >>= k)
    (hk : ∀ n, Answers (judge ext) L (k n)) :
    Answers (judge ext) L (do
      let r ← exec .handler s
      if r.status ≠ .tuplesOk then sendReply .internalError else read r) := by
  refine answers_exec (fun o r hr ho => ?_) fun o r hr ho => ?_
  · split
    · exact answers_reply _
    · cases o with
      | tuples rows =>
        cases hr
        rw [hread]
        refine (sound_numAt ?_ hc).answers fun n _ => hk n
        exact List.length_pos_iff.2 ((hs rows).1 ho)
      | command | error | throws =>
        cases hr
        all_goals simp_all
  · cases o with
    | tuples rows =>
      obtain rfl : rows = [] := not_not.1 fun h => ho ((hs rows).2 h)
      cases hr
      rw [if_neg (by simp), hread]
      refine Fails.bind fun w => ?_
      simp only [numAt, PGresult.getvalue, List.getElem?_nil, Option.map_none, ite_self]
      exact fails_crash w
    | command | error => exact absurd hi ho
    | throws => cases hr

theorem dmAuthCreateScore_answers (owner type : UInt32) (name : String) (points : Int32) :
    Answers (judge ext) L (dmAuthCreateScore owner type name points) := by
  refine answers_firstRow (fun _ => Iff.rfl) nofun Nat.zero_lt_one (fun r => rfl) fun scoreId => ?_
  split
  · exact answers_reply _
  · exact answers_reply _

theorem dmAuthGetScores_answers (owner : UInt32) (name : String) :
    Answers (judge ext) L (dmAuthGetScores owner name) := by
  refine answers_exec_free rfl fun r hr => ?_
  split
  · exact answers_reply _
  rename_i hok
  have hf : r.nfields = 4 := hr (by simpa using hok)
  refine Sound.answers (sound_forRows (P := fun _ => True) fun i hi => ?_) fun _ _ => answers_reply _
  refine (sound_numAt hi (by omega)).bind fun _ _ => ?_
  refine (sound_numAt hi (by omega)).bind fun _ _ => ?_
  refine (sound_numAt hi (by omega)).bind fun _ _ => ?_
  exact (sound_numAt hi (by omega)).bind fun _ _ => sound_pure trivial

theorem dmAuthAddScorePoints_answers (scoreId : UInt32) (points : Int32) :
    Answers (judge ext) L (dmAuthAddScorePoints scoreId points) := by
  refine answers_exec_free rfl fun r hr => ?_
  split
  · exact answers_reply _
  rename_i hok
  have hf : r.nfields = 1 := hr (by simpa using hok)
  split
  · exact answers_reply _
  refine (sound_numAt (by omega) (by omega)).answers fun scoreType _ => ?_
  split
  · exact answers_reply _
  refine answers_exec_free rfl fun r _ => ?_
  split
  · exact answers_reply _
  · exact answers_reply _

theorem dmAuthTransferScorePoints_answers (srcScoreId dstScoreId points : UInt32) :
    Answers (judge ext) L (dmAuthTransferScorePoints srcScoreId dstScoreId points) := by
  refine answers_exec_free rfl fun r hr => ?_
  split
  · exact answers_reply _
  rename_i hok
  have hf : r.nfields = 1 := hr (by simpa using hok)
  split
  · exact answers_reply _
  refine (sound_numAt (by omega) (by omega)).answers fun srcType _ => ?_
  refine (sound_numAt (by omega) (by omega)).answers fun dstType _ => ?_
  split
  · exact answers_reply _
  exact answers_firstRow (fun _ => Iff.rfl) nofun Nat.zero_lt_one (fun r => rfl)
    fun status => answers_reply _

theorem dmAuthSetScorePoints_answers (scoreId : UInt32) (points : Int32) :
    Answers (judge ext) L (dmAuthSetScorePoints scoreId points) := by
  refine answers_exec_free rfl fun r hr => ?_
  split
  · exact answers_reply _
  rename_i hok
  have hf : r.nfields = 1 := hr (by simpa using hok)
  split
  · exact answers_reply _
  refine (sound_numAt (by omega) (by omega)).answers fun scoreType _ => ?_
  split
  · exact answers_reply _
  refine answers_exec_free rfl fun r _ => ?_
  split
  · exact answers_reply _
  · exact answers_reply _

theorem replyHighScores_answers {r : PGresult}
    (hr : r.status = .tuplesOk → r.nfields = 5 ∨ r.ntuples = 0) :
    Answers (judge ext) L (replyHighScores r) := by
  unfold replyHighScores
  split
  · exact answers_reply _
  rename_i hok
  have hf : r.nfields = 5 ∨ r.ntuples = 0 := hr (by simpa using hok)
  refine Sound.answers (sound_forRows (P := fun _ => True) fun i hi => ?_) fun _ _ => answers_reply _
  refine (sound_numAt hi (by omega)).bind fun _ _ => ?_
  refine (sound_numAt hi (by omega)).bind fun _ _ => ?_
  refine (sound_numAt hi (by omega)).bind fun _ _ => ?_
  refine (sound_numAt hi (by omega)).bind fun _ _ => ?_
  exact (sound_numAt hi (by omega)).bind fun _ _ => sound_pure trivial

/-- The fifth column of a row that has four is a null pointer. -/
theorem replyHighScores_fails (row : Row) (rest : List Row) :
    Fails L (replyHighScores { status := .tuplesOk, nfields := 4, rows := row :: rest }) := by
  unfold replyHighScores
  rw [if_neg (by simp)]
  refine Fails.bind ?_
  rw [forRows, PGresult.ntuples, List.length_cons, List.range_succ_eq_map]
  exact Fails.bind fun w => ⟨rfl, rfl, .inl rfl⟩

theorem dmAuthGetHighScores_answers (owner : UInt32) (name : String) (maxScores : UInt32) :
    Answers (judge ext) L (dmAuthGetHighScores owner name maxScores) := by
  unfold dmAuthGetHighScores
  split
  · refine answers_exec (fun o r hr ho => replyHighScores_answers fun hok => .inr ?_)
      fun o r hr ho => ?_
    · cases o with
      | tuples rows =>
        obtain rfl : rows = [] := ho
        cases hr
        rfl
      | command | error =>
        cases hr
        cases hok
      | throws => cases hr
    · cases o with
      | tuples rows =>
        obtain ⟨row, rest, rfl⟩ := List.exists_cons_of_ne_nil ho
        cases hr
        exact replyHighScores_fails row rest
      | command | error => exact absurd nofun ho
      | throws => cases hr
  · refine answers_exec_free rfl fun r hr => ?_
    split
    · exact answers_reply _
    rename_i hok
    have hf : r.nfields = 1 := hr (by simpa using hok)
    split
    · exact answers_reply _
    refine (sound_numAt (by omega) (by omega)).answers fun ageOwnersFolder _ => ?_
    exact answers_exec_free rfl fun r hr => replyHighScores_answers fun h => .inl (hr h)

/-! ## Requests of the game server and the console -/

theorem dmAuthUpdateAgeSrv_answers (playerId ageNodeId : UInt32) :
    Answers (judge ext) L (dmAuthUpdateAgeSrv playerId ageNodeId) := by
  refine answers_get fun s => ?_
  split
  · exact (sound_modify _).answers fun _ _ => answers_reply _
  · exact answers_reply _

theorem dmAuthAcctFlags_answers (acctName : String) (flags : UInt32) :
    Answers (judge ext) L (dmAuthAcctFlags acctName flags) := by
  refine answers_exec_free rfl fun r hr => ?_
  split
  · exact answers_reply _
  rename_i hok
  have hf : r.nfields = 1 := hr (by simpa using hok)
  split
  · exact answers_reply _
  refine (sound_numAt (by omega) (by omega)).answers fun acctFlags _ => ?_
  dsimp only
  split
  · refine answers_exec_free rfl fun r _ => ?_
    split
    · exact answers_reply _
    · exact answers_reply _
  · exact answers_reply _

theorem dmAuthAddAllPlayers_answers (playerId : UInt32) :
    Answers (judge ext) L (dmAuthAddAllPlayers playerId) := by
  refine answers_get fun s => ?_
  refine (vHasNode_sound _ _).answers fun found _ => ?_
  split
  · refine (vUnrefNode_sound _ _).answers fun ok _ => ?_
    split
    · exact answers_reply _
    · exact (bcastTo_sound _).answers fun _ _ => answers_reply _
  · refine (vRefNode_sound _ _ _).answers fun ok _ => ?_
    split
    · exact answers_reply _
    · exact (bcastTo_sound _).answers fun _ _ => answers_reply _

theorem dmAuthFetchSDL_answers (ageFilename : String) (sdlNodeId : UInt32) :
    Answers (judge ext) L (dmAuthFetchSDL ext ageFilename sdlNodeId) := by
  refine answers_get fun s => ?_
  dsimp only
  split
  · exact answers_reply _
  · exact (vFetchNode_sound _).answers fun _ _ => answers_reply _

theorem setGlobalVar_answers {value : String} {var : GlobalVar} (ageFilename : String)
    (vars : List GlobalVar) (h : value = "" ∨ takesValue var.type = false ∨ var.size ≠ 0) :
    Answers (judge ext) L (setGlobalVar ext ageFilename value vars var) := by
  unfold setGlobalVar
  split
  · exact answers_reply _
  rename_i htype
  split
  · rename_i hsize
    simp_all
  split
  · exact answers_throw
  · exact answers_exec_free rfl fun _ _ => answers_reply _

/-! ## The vault -/

theorem dmVaultSaveNode_answers (node : Vault.Node) (revision : Uuid) :
    Answers (judge ext) L (dmVaultSaveNode node revision) := by
  refine (uuidOrNew_sound _).answers fun revision _ => ?_
  refine (vUpdateNode_sound _).answers fun ok _ => ?_
  split
  · exact (bcastTo_sound _).answers fun _ _ => answers_reply _
  · exact answers_reply _

theorem dmVaultUpdateNode_answers (node : Vault.Node) (revision : Uuid) (internal : Bool) :
    Answers (judge ext) L (dmVaultUpdateNode ext node revision internal) := by
  unfold dmVaultUpdateNode
  split
  · refine answers_exec_free rfl fun r hr => ?_
    split
    · exact answers_reply _
    rename_i hok
    have hf : r.nfields = 1 := hr (by simpa using hok)
    split
    · refine (sound_numAt (by omega) (by omega)).answers fun ageMcpId _ => ?_
      dsimp only
      split
      · exact answers_reply _
      · exact dmVaultSaveNode_answers _ _
    · exact dmVaultSaveNode_answers _ _
  · exact dmVaultSaveNode_answers _ _

end Handlers

/-! ## Every message -/

/-- The daemon goes through a null pointer: the global state has no data, or the
variable takes the value and has no element. -/
def NullIn (varName value : String) : Option (Option (List GlobalVar)) → Prop
  | none => False
  | some none => True
  | some (some vars) => ∃ var, vars.find? (fun var => var.name = varName) = some var ∧
      value ≠ "" ∧ takesValue var.type = true ∧ var.size = 0

/-- As `NullIn`, for the message and the state that the daemon meets. -/
def WritesNull (ext : External) (s : DaemonState) : AuthMessage → Prop
  | .updateGlobalSDL ageFilename varName value =>
    NullIn varName value (findGlobal ext s ageFilename)
  | _ => False

/-- The answers that the daemon got while it handled a message let it reply
once: all of them are good, or one to `v_create_player` was an exception. -/
def Good (ext : External) (asked : List ((CallSite × Statement) × QueryOutcome)) : Prop :=
  (∃ e ∈ asked, (judge ext).excused e) ∨ ∀ e ∈ asked, (judge ext).good e

section Messages

variable {ext : External}

theorem dmAuthCreatePlayer_fair (c : ConnId) (msgPlayer : PlayerInfo) :
    Fair (judge ext) (dmAuthCreatePlayer ext c msgPlayer) := by
  refine (sound_exec_self rfl).fair fun r _ => ?_
  split
  · exact (answers_reply (L := False) _).fair
  split
  · exact (answers_reply (L := False) _).fair
  refine (getClient_sound c).fair fun client _ => ?_
  refine (vCreatePlayer_exact _ _).fair (L := False) (fun player h => ?_) fun player h => ?_
  · rw [if_neg h]
    exact dmAuthEnterPlayer_answers c _ player
  · rw [if_pos h]
    exact (dmAuthEnterPlayer_answers c _ player).neverOnce _

theorem updateGlobalState_answers {ageFilename varName value : String}
    {state : Option (Option (List GlobalVar))} (h : ¬NullIn varName value state) :
    Answers (judge ext) False (updateGlobalState ext ageFilename varName value state) := by
  cases state with
  | none => exact answers_reply _
  | some state =>
    cases state with
    | none => exact absurd trivial h
    | some vars =>
      cases hvar : vars.find? fun var => var.name = varName with
      | none =>
        simp only [updateGlobalState, hvar]
        exact answers_reply _
      | some var =>
        simp only [updateGlobalState, hvar]
        refine setGlobalVar_answers ageFilename vars ?_
        by_contra hno
        simp only [not_or, Bool.not_eq_false, not_not] at hno
        exact h ⟨var, hvar, hno⟩

theorem updateGlobalState_crashes {ageFilename varName value : String}
    {state : Option (Option (List GlobalVar))} (h : NullIn varName value state) :
    updateGlobalState ext ageFilename varName value state = crash := by
  cases state with
  | none => exact h.elim
  | some state =>
    cases state with
    | none => rfl
    | some vars =>
      obtain ⟨var, hvar, hvalue, htype, hsize⟩ := h
      simp only [updateGlobalState, hvar, setGlobalVar, htype, hsize]
      rw [if_neg (by simp), if_pos (by simpa using hvalue)]

theorem dmAuthHandle_fair (c : ConnId) {msg : AuthMessage}
    (hmsg : ∀ ageFilename varName value, msg ≠ .updateGlobalSDL ageFilename varName value) :
    Fair (judge ext) (dmAuthHandle ext c msg) := by
  cases msg with
  | createPlayer player => exact dmAuthCreatePlayer_fair c player
  | updateGlobalSDL ageFilename varName value => exact absurd rfl (hmsg ageFilename varName value)
  | clientLogin info => exact (dmAuthLogin_answers (L := False) c info).fair
  | setPlayer => exact (dmAuthSetPlayer_answers (L := False) c).fair
  | deletePlayer playerId => exact (dmAuthDeletePlayer_answers (L := False) c playerId).fair
  | createNode node =>
    refine Answers.fair (L := False) ((vCreateNode_sound node).answers fun nodeIdx _ => ?_)
    split
    · exact answers_reply _
    · exact answers_reply _
  | fetchNode node =>
    refine Answers.fair (L := False) ((vFetchNode_sound _).answers fun node _ => ?_)
    split
    · exact answers_reply _
    · exact answers_reply _
  | updateNode node revision internal =>
    exact (dmVaultUpdateNode_answers (L := False) node revision internal).fair
  | refNode ref =>
    refine Answers.fair (L := False) ((vRefNode_sound _ _ _).answers fun ok _ => ?_)
    split
    · exact (bcastTo_sound _).answers fun _ _ => answers_reply _
    · exact answers_reply _
  | unrefNode ref =>
    refine Answers.fair (L := False) ((vUnrefNode_sound _ _).answers fun ok _ => ?_)
    split
    · exact (bcastTo_sound _).answers fun _ _ => answers_reply _
    · exact answers_reply _
  | fetchNodeTree nodeId =>
    refine Answers.fair (L := False) ((vFetchTree_sound nodeId).answers fun refs _ => ?_)
    cases refs with
    | none => exact answers_reply _
    | some refs => exact answers_reply _
  | findNode template =>
    refine Answers.fair (L := False) ((vFindNodes_sound template).answers fun nodes _ => ?_)
    cases nodes with
    | none => exact answers_reply _
    | some nodes => exact answers_reply _
  | sendNode nodeIdx playerIdx senderIdx =>
    refine Answers.fair (L := False) ((vSendNode_sound _ _ _).answers fun ref _ => ?_)
    exact (bcastSent_sound ref).answers fun _ _ => answers_reply _
  | initAge age => exact (dmAuthCreateAge_answers (L := False) age).fair
  | findGameServer name instanceId => exact (dmAuthFindAge_answers c name instanceId).fair
  | disconnect => exact (dmAuthDisconnect_answers (L := False) c).fair
  | addAcct acctName => exact (dmAuthAddacct_answers (L := False) acctName).fair
  | getPublic agename => exact (dmAuthGetPublic_answers (L := False) agename).fair
  | setPublic node isPublic => exact (dmAuthSetPubPriv_answers (L := False) node isPublic).fair
  | createScore owner type name points =>
    exact (dmAuthCreateScore_answers (L := False) owner type name points).fair
  | getScores owner name => exact (dmAuthGetScores_answers (L := False) owner name).fair
  | addScorePoints scoreId points =>
    exact (dmAuthAddScorePoints_answers (L := False) scoreId points).fair
  | transferScorePoints srcScoreId dstScoreId points =>
    exact (dmAuthTransferScorePoints_answers (L := False) srcScoreId dstScoreId points).fair
  | setScorePoints scoreId points =>
    exact (dmAuthSetScorePoints_answers (L := False) scoreId points).fair
  | getHighScores owner name maxScores =>
    exact (dmAuthGetHighScores_answers (L := False) owner name maxScores).fair
  | updateAgeSrv playerId ageNodeId =>
    exact (dmAuthUpdateAgeSrv_answers (L := False) playerId ageNodeId).fair
  | acctFlags acctName flags => exact (dmAuthAcctFlags_answers (L := False) acctName flags).fair
  | restrictLogins =>
    refine Answers.fair (L := False) ((sound_modify _).answers fun _ _ => ?_)
    exact answers_get fun s => answers_reply _
  | addAllPlayers playerId => exact (dmAuthAddAllPlayers_answers (L := False) playerId).fair
  | fetchSDL ageFilename sdlNodeId =>
    exact (dmAuthFetchSDL_answers (L := False) ageFilename sdlNodeId).fair

/-- **A request is answered once exactly if the database answers well** and the
daemon does not write to a variable that is not there. -/
theorem dmAuthHandle_repliedOnce (c : ConnId) (msg : AuthMessage)
    (w : Lib.Dialogue DaemonState (CallSite × Statement) QueryOutcome Reply) :
    ∃ new, (dmAuthHandle ext c msg w).2.asked = w.asked ++ new ∧
      (Good ext new ∧ ¬WritesNull ext w.state msg ↔ RepliedOnce w (dmAuthHandle ext c msg w)) := by
  cases msg with
  | updateGlobalSDL ageFilename varName value =>
    have hrun : dmAuthHandle ext c (.updateGlobalSDL ageFilename varName value) w =
        updateGlobalState ext ageFilename varName value (findGlobal ext w.state ageFilename) w := rfl
    rw [hrun]
    by_cases hnull : NullIn varName value (findGlobal ext w.state ageFilename)
    · rw [updateGlobalState_crashes hnull]
      exact ⟨[], (List.append_nil _).symm, iff_of_false (fun h => h.2 hnull) id⟩
    · obtain ⟨new, hasked, honce⟩ := (updateGlobalState_answers hnull).fair w
      exact ⟨new, hasked, (and_iff_left hnull).trans honce⟩
  | _ =>
    refine (@dmAuthHandle_fair ext c _ ?_ w).imp fun new h => ⟨h.1, (and_iff_left id).trans h.2⟩
    exact fun _ _ _ h => by cases h

end Messages

end Dirtsand.AuthServ.Daemon
