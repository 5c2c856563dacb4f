import Dirtsand.AuthServ.PlayerRuns
import Dirtsand.AuthServ.Broadcasts

/-!
# Requests for a player

`dm_auth_createPlayer` does not stop where `v_create_player` has made no player: it replies, and
goes on with the numbers 0, so that node 0 gets a reference to itself.

* `dmAuthEnterPlayer_ensures` — the three statements that come after the creation.
* `Requested` — how a request is handled where no statement fails.
* `dmAuthCreatePlayer_sound_iff` — that it is handled so, and that the vault is sound after it
  exactly if there was no reply that no player was made; and a player is made where the vault
  offers it.
* `dmAuthCreatePlayer_cycle` — where statements fail, a request can make a cycle in any vault.
-/

namespace Dirtsand.AuthServ

open Lib.Prog Daemon
open Db (Tables RefRow Acyclic Reaches)

variable {hoodUserName : String} {d d' : Tables} {s : DaemonState}

/-! ## After the creation -/

instance {ref : Vault.NodeRef} : Steady (refAndBcast ref) := by
  unfold refAndBcast
  infer_instance

instance {c : ConnId} {msgPlayer : PlayerInfo} {player : UInt32 × UInt32 × UInt32} :
    Steady (dmAuthEnterPlayer c msgPlayer player) := by
  unfold dmAuthEnterPlayer
  infer_instance

theorem refAndBcast_ensures (ref : Vault.NodeRef) :
    Ensures (Succeeds hoodUserName) d s (refAndBcast ref) fun x d' s' out => s' = s ∧ out = [] ∧
      x = .ret () ∧ ∃ a, carryOut d (.refNode ref.parent ref.child ref.owner) = some (a, d') := by
  unfold refAndBcast
  refine ensures_bind ((vRefNode_follows not_failing).mono fun x d₁ s₁ out hpost => ?_)
  obtain ⟨rfl, rfl, ⟨ok, rfl, rfl, heffects⟩ | ⟨hstops, -⟩⟩ := hpost
  · obtain ⟨a, d₂, hq, hrest⟩ := effects_cons_eq_some.1 heffects
    cases hrest
    refine (bcastTo_ensures ref.parent).mono fun x d₂ s₂ out hpost => ?_
    obtain ⟨rfl, rfl, rfl, _, rfl, -⟩ := hpost
    exact ⟨rfl, rfl, rfl, a, hq⟩
  · exact hstops.elim

theorem carryOut_insertPlayer {a : QueryOutcome} {acctUuid : Uuid} {player : PlayerInfo}
    (h : carryOut d (.insertPlayer acctUuid player) = some (a, d')) : a = .command ∧ ∃ row,
      row.acctUuid = acctUuid ∧ row.playerIdx = player.playerId.toInt32 ∧
      Db.varchar 40 (cstr player.playerName) = some row.playerName ∧
      d' = { d with players := d.players ++ [row] } := by
  obtain ⟨idx, hidx, h⟩ := Option.bind_eq_some_iff.1 h
  obtain ⟨name, hname, h⟩ := Option.bind_eq_some_iff.1 h
  iterate 2 obtain ⟨_, -, h⟩ := Option.bind_eq_some_iff.1 h
  cases h
  refine ⟨rfl, _, rfl, ?_, hname, rfl⟩
  rw [(Db.integer_eq_some.1 hidx).2]
  rfl

/-- The statements of `dm_auth_createPlayer` for the player that `v_create_player` returned. -/
def enterInserts (allPlayers : UInt32) (acctUuid : Uuid) (msgPlayer : PlayerInfo)
    (player : UInt32 × UInt32 × UInt32) : List Statement :=
  [.refNode player.2.2 player.2.1 player.1, .refNode allPlayers player.2.1 0,
    .insertPlayer acctUuid { msgPlayer with playerId := player.1 }]

/-- The player is entered: in its neighborhood, among all players, and with a row of its own. -/
def Entered (allPlayers : UInt32) (acctUuid : Uuid) (msgPlayer : PlayerInfo)
    (player : UInt32 × UInt32 × UInt32) (d d' : Tables) : Prop :=
  ∃ row, row.acctUuid = acctUuid ∧ row.playerIdx = player.1.toInt32 ∧
    Db.varchar 40 (cstr msgPlayer.playerName) = some row.playerName ∧
    d' = { d with
      refs := d.refs ++ [⟨player.2.2.toInt32, player.2.1.toInt32, player.1.toInt32⟩,
        ⟨allPlayers.toInt32, player.2.1.toInt32, 0⟩]
      players := d.players ++ [row] }

theorem entered_of_effects {allPlayers : UInt32} {acctUuid : Uuid} {msgPlayer : PlayerInfo}
    {player : UInt32 × UInt32 × UInt32}
    (h : effects d (enterInserts allPlayers acctUuid msgPlayer player) = some d') :
    Entered allPlayers acctUuid msgPlayer player d d' := by
  obtain ⟨a₁, d₁, hhood, h⟩ := effects_cons_eq_some.1 h
  obtain ⟨a₂, d₂, hlist, h⟩ := effects_cons_eq_some.1 h
  obtain ⟨a₃, d₃, hrow, h⟩ := effects_cons_eq_some.1 h
  cases h
  obtain ⟨-, -, -, -, rfl⟩ := carryOut_refNode hhood
  obtain ⟨-, -, -, -, rfl⟩ := carryOut_refNode hlist
  obtain ⟨-, row, hacct, hidx, hname, rfl⟩ := carryOut_insertPlayer hrow
  exact ⟨row, hacct, hidx, hname, congrArg (fun refs =>
    ({ d with refs, players := d.players ++ [row] } : Tables)) (List.append_assoc d.refs [_] [_])⟩

theorem dmAuthEnterPlayer_ensures (c : ConnId) (msgPlayer : PlayerInfo)
    (player : UInt32 × UInt32 × UInt32) :
    Ensures (Succeeds hoodUserName) d s (dmAuthEnterPlayer c msgPlayer player) fun x d' s' out =>
      x = .ret () ∧ s' = s ∧ out = [{ code := .success, out := .playerId player.1 }] ∧
      effects d (enterInserts s.allPlayers (s.clients c).acctUuid msgPlayer player) = some d' := by
  unfold dmAuthEnterPlayer
  refine ensures_bind ((refAndBcast_ensures _).mono fun x d₁ s₁ out hpost => ?_)
  obtain ⟨rfl, rfl, rfl, a₁, hhood⟩ := hpost
  refine ensures_bind (ensures_get ?_)
  refine ensures_bind ((refAndBcast_ensures _).mono fun x d₂ s₂ out hpost => ?_)
  obtain ⟨rfl, rfl, rfl, a₂, hall⟩ := hpost
  refine ensures_bind (ensures_bind (ensures_get (ensures_pure ?_)))
  refine ensures_bind (ensures_carried (fun rows d₃ hdone => ?_) fun d₃ hdone => ?_)
  · cases (carryOut_insertPlayer (hdone.changed rfl)).1
  · refine ensures_ite (fun hne => absurd rfl hne) fun _ => ensures_reply ⟨rfl, rfl, rfl, ?_⟩
    rw [enterInserts, effects_cons_of_carryOut hhood, effects_cons_of_carryOut hall,
      effects_cons_of_carryOut (hdone.changed rfl)]
    rfl

/-! ## A player that was made -/

theorem toInt32_injective {m n : UInt32} (h : m.toInt32 = n.toInt32) : m = n := by
  have hback := congrArg Int32.toUInt32 h
  rwa [UInt32.toUInt32_toInt32, UInt32.toUInt32_toInt32] at hback

/-- The child of a reference that was made has a number that was given out. -/
theorem Progress.known_child {done : List Statement} {parentIdx childIdx ownerIdx : UInt32}
    (h : Progress d done d') (hmem : .refNode parentIdx childIdx ownerIdx ∈ done) :
    childIdx.toNat < d'.nextNode := by
  have href := mem_newRefs hmem
  obtain ⟨_, child, _, -, -, hchild, heq⟩ := h.inserts.mem_newRefs href
  obtain rfl : childIdx = child := toInt32_injective (congrArg RefRow.childIdx heq)
  have hknown := (h.numbered.known _ (h.extended.refs ▸ List.mem_append_right _ href)).2
  rw [toInt_toInt32 hchild] at hknown
  omega

/-- A node without children can be the child of any other. -/
theorem harmless_of_childless {parentIdx childIdx : UInt32} (hparent : parentIdx.toNat < d.nextNode)
    (hchild : childIdx.toNat < d.nextNode) (hne : childIdx ≠ parentIdx)
    (hchildless : ∀ ref ∈ d.refs, ref.parentIdx ≠ childIdx.toInt32) :
    Harmless d parentIdx childIdx := by
  refine ⟨hparent, hchild, fun hreaches => ?_⟩
  obtain heq | ⟨ref, href, hfirst, -⟩ := Db.reaches_iff.1 hreaches
  · exact hne (toInt32_injective heq)
  · exact hchildless ref href hfirst

section Made

variable {ext : External} {systemNode allPlayers : UInt32} {acctId acctUuid : Uuid}
  {player msgPlayer : PlayerInfo} {shape : PlayerShape} {d₁ : Tables}

/-- The info node of a new player has no children. -/
theorem info_childless (hd : SoundVault d) (hsystem : systemNode.toNat < d.nextNode)
    (hvalid : shape.Valid d.nextNode)
    (hprog : Progress d (playerInserts ext systemNode acctId player d.nextNode shape) d') :
    ∀ ref ∈ d'.refs, ref.parentIdx ≠ (nodeId (d.nextNode + 1)).toInt32 := by
  obtain ⟨hrelto, hreltoLt⟩ := hvalid.relto
  have hinfo : (nodeId (d.nextNode + 1)).toInt32.toInt = (d.nextNode + 1 : Nat) :=
    toInt_nodeId (by omega)
  intro ref href heq
  rw [hprog.extended.refs] at href
  obtain href | href := List.mem_append.1 href
  · have hold := (hd.known ref href).1
    rw [heq, hinfo] at hold
    omega
  · obtain ⟨p, c, o, hmem, hp, -, rfl⟩ := hprog.inserts.mem_newRefs href
    have hne := (descends_playerInserts hsystem hvalid hmem).1
    have hparent := toInt_toInt32 hp
    dsimp only at heq
    rw [heq, hinfo] at hparent
    omega

theorem owners_known (hvalid : shape.Valid d.nextNode)
    (hprog : Progress d (playerInserts ext systemNode acctId player d.nextNode shape) d') :
    shape.hood.owners.toNat < d'.nextNode ∧ shape.hood.owners.toNat ≠ d.nextNode + 1 := by
  have hnext := hprog.extended.nextNode
  obtain ⟨hrelto, hreltoLt⟩ := hvalid.relto
  have hhood := hvalid.hood
  cases hcase : shape.hood with
  | found info owners =>
    rw [hcase] at hhood
    obtain ⟨-, howners⟩ := hhood
    exact ⟨howners.trans_le hnext, (howners.trans (Nat.lt_succ_self _)).ne⟩
  | made ageId seqNumber first =>
    rw [hcase] at hhood
    obtain ⟨hbehind, hlt⟩ := hhood
    have hmem : .refNode (nodeId (first + 4)) (nodeId (first + 8)) 0 ∈
        playerInserts ext systemNode acctId player d.nextNode shape := by
      rw [playerInserts, hcase]
      refine List.mem_append_right _ (List.mem_append_right _ (List.mem_cons_of_mem _
        (List.mem_append_left _ (List.mem_append_right _ (List.mem_append_left _ ?_)))))
      simp [refInserts]
    refine ⟨hprog.known_child hmem, ?_⟩
    show (nodeId (first + 8)).toNat ≠ _
    rw [toNat_nodeId (by omega)]
    omega

/-- The references to a new player close no cycle. -/
theorem sound_of_entered (hd : SoundVault d) (hsystem : systemNode.toNat < d.nextNode)
    (hall : allPlayers.toNat < d.nextNode) (hvalid : shape.Valid d.nextNode)
    (hprog : Progress d (playerInserts ext systemNode acctId player d.nextNode shape) d₁)
    (hsound : SoundVault d₁)
    (h : effects d₁ (enterInserts allPlayers acctUuid msgPlayer
      (nodeId d.nextNode, nodeId (d.nextNode + 1), shape.hood.owners)) = some d') :
    SoundVault d' := by
  obtain ⟨hrelto, hreltoLt⟩ := hvalid.relto
  obtain ⟨howners, hne⟩ := owners_known hvalid hprog
  have hnext := hprog.extended.nextNode
  have hinfo : (nodeId (d.nextNode + 1)).toNat = d.nextNode + 1 := toNat_nodeId (by omega)
  have hmem : .refNode (nodeId d.nextNode) (nodeId (d.nextNode + 1)) 0 ∈
      playerInserts ext systemNode acctId player d.nextNode shape := by
    rw [playerInserts_eq]
    refine List.mem_append_right _ ?_
    simp [refInserts, playerLinks]
  have hknown := hprog.known_child hmem
  have hchildless := info_childless hd hsystem hvalid hprog
  obtain ⟨a₁, d₂, hhood, h⟩ := effects_cons_eq_some.1 h
  obtain ⟨a₂, d₃, hlist, h⟩ := effects_cons_eq_some.1 h
  obtain ⟨a₃, d₄, hrow, h⟩ := effects_cons_eq_some.1 h
  cases h
  have hneOwners : nodeId (d.nextNode + 1) ≠ shape.hood.owners := fun heq =>
    hne (by rw [← heq, hinfo])
  have hsound₂ := hsound.refNode (harmless_of_childless howners hknown hneOwners hchildless) hhood
  obtain ⟨-, -, -, -, rfl⟩ := carryOut_refNode hhood
  have hneAll : nodeId (d.nextNode + 1) ≠ allPlayers := fun heq => by
    rw [heq] at hinfo
    omega
  refine (hsound₂.refNode (harmless_of_childless (by dsimp only; omega) hknown hneAll
    fun ref href => ?_) hlist).carryOut hrow fun _ _ _ heq => by cases heq
  obtain href | href := List.mem_append.1 href
  · exact hchildless ref href
  · rw [List.mem_singleton.1 href]
    exact fun heq => hneOwners (toInt32_injective heq).symm

end Made

/-! ## No player -/

/-- With the numbers 0, node 0 becomes its own child. -/
theorem Entered.self {allPlayers : UInt32} {acctUuid : Uuid} {msgPlayer : PlayerInfo}
    (h : Entered allPlayers acctUuid msgPlayer (0, 0, 0) d d') : ⟨0, 0, 0⟩ ∈ d'.refs := by
  obtain ⟨row, -, -, -, rfl⟩ := h
  exact List.mem_append_right _ List.mem_cons_self

theorem cyclic_of_self (h : ⟨0, 0, 0⟩ ∈ d.refs) : ¬Acyclic d.refs := fun hacyclic =>
  hacyclic 0 (.single ⟨_, h, rfl, rfl⟩)

/-! ## The request -/

set_option synthInstance.maxSize 2000 in
instance {ext : External} {acctId : Uuid} {player : PlayerInfo} :
    Steady (vCreatePlayer ext acctId player) := by
  unfold vCreatePlayer
  infer_instance

/-- Other avatars than the two become one of them. -/
def checkAvatar (msgPlayer : PlayerInfo) : PlayerInfo :=
  if msgPlayer.avatarModel ≠ "male" ∧ msgPlayer.avatarModel ≠ "female" then
    { msgPlayer with avatarModel := "male" }
  else msgPlayer

theorem checkAvatar_playerName (msgPlayer : PlayerInfo) :
    (checkAvatar msgPlayer).playerName = msgPlayer.playerName := by
  unfold checkAvatar
  split <;> rfl

/-- How a request for a player is handled where no statement fails. -/
inductive Requested (ext : External) (s : DaemonState) (acctUuid : Uuid) (player : PlayerInfo)
    (d : Tables) : Lib.Exit Unit → Tables → List Reply → Prop where
  /-- There is a player of that name. -/
  | taken {row : Db.PlayerRow} (hrow : row ∈ d.players)
      (hname : row.playerName = cstr player.playerName) :
      Requested ext s acctUuid player d (.ret ()) d [{ code := .playerAlreadyExists }]
  /-- The player is made, and entered. -/
  | made {shape : PlayerShape} {d₁ d' : Tables} (hvalid : shape.Valid d.nextNode)
      (hmade : Extended d d₁
        (playerInserts ext s.systemNode acctUuid player d.nextNode shape))
      (hentered : Entered s.allPlayers acctUuid player
        (nodeId d.nextNode, nodeId (d.nextNode + 1), shape.hood.owners) d₁ d') :
      Requested ext s acctUuid player d (.ret ()) d'
        [{ code := .success, out := .playerId (nodeId d.nextNode) }]
  /-- A part of the player is made, and one with the numbers 0 is entered. -/
  | notMade {shape : PlayerShape} {done : List Statement} {d₁ d' : Tables}
      (hpart : done <+: playerInserts ext s.systemNode acctUuid player d.nextNode shape)
      (hmade : Extended d d₁ done) (hentered : Entered s.allPlayers acctUuid player (0, 0, 0) d₁ d')
      (hself : ⟨0, 0, 0⟩ ∈ d'.refs) :
      Requested ext s acctUuid player d (.ret ()) d'
        [{ code := .internalError, out := .playerId 0 }, { code := .success, out := .playerId 0 }]
  /-- A part of the player is made before the handler stops. -/
  | stopped {x : Lib.Exit Unit} {shape : PlayerShape} {done : List Statement} {d' : Tables}
      (hx : x = .throw ∨ x = .crash)
      (hpart : done <+: playerInserts ext s.systemNode acctUuid player d.nextNode shape)
      (hmade : Extended d d' done) : Requested ext s acctUuid player d x d' []

/-- `dm_auth_createPlayer` where the name is free. -/
def createFree (ext : External) (c : ConnId) (player : PlayerInfo) (client : AuthClient) :
    DM Unit := do
  let made ← vCreatePlayer ext client.acctUuid player
  if made.1 = 0 then
    sendReplyWith .internalError (.playerId 0)
    dmAuthEnterPlayer c player made
  else dmAuthEnterPlayer c player made

instance {ext : External} {c : ConnId} {player : PlayerInfo} {client : AuthClient} :
    Steady (createFree ext c player client) := by
  unfold createFree
  infer_instance

theorem dmAuthCreatePlayer_eq (ext : External) (c : ConnId) (msgPlayer : PlayerInfo) :
    dmAuthCreatePlayer ext c msgPlayer =
      exec .handler (.selectPlayerName (checkAvatar msgPlayer).playerName) >>= fun result =>
        if result.status ≠ .tuplesOk then sendReply .internalError
        else if result.ntuples ≠ 0 then sendReply .playerAlreadyExists
        else getClient c >>= createFree ext c (checkAvatar msgPlayer) := rfl

theorem createFree_ensures (ext : External) (c : ConnId) (player : PlayerInfo)
    (hd : SoundVault d) (hsystem : s.systemNode.toNat < d.nextNode)
    (hall : s.allPlayers.toNat < d.nextNode) :
    Ensures (Succeeds hoodUserName) d s (createFree ext c player (s.clients c)) fun x d' s' out =>
      s' = s ∧ Requested ext s (s.clients c).acctUuid player d x d' out ∧
      (SoundVault d' ↔ { code := .internalError, out := .playerId 0 } ∉ out) := by
  unfold createFree
  refine ensures_bind ((vCreatePlayer_ensures ext _ _ hd.toNumbered hsystem).mono
    fun x d₁ s₁ out hpost => ?_)
  have hsound := hpost.sound hd hsystem
  obtain ⟨rfl, rfl, shape, done, hpre, hprog, hvalid, hend⟩ := hpost
  have hquiet : SoundVault d₁ ↔ ({ code := .internalError, out := .playerId 0 } : Reply) ∉ [] :=
    iff_of_true hsound List.not_mem_nil
  cases x with
  | ret made =>
    obtain ⟨rfl, hplayer⟩ | hnone := hend
    · cases hplayer
      have hshape := hvalid.resolve_left newRefs_playerInserts_ne
      have hlt := hshape.relto
      refine ensures_ite (fun hzero => absurd hzero (nodeId_ne_zero hd.pos (by omega))) fun _ => ?_
      refine (dmAuthEnterPlayer_ensures c _ _).mono fun x d' s' out hpost => ?_
      obtain ⟨rfl, rfl, rfl, heffects⟩ := hpost
      exact ⟨rfl, .made hshape hprog.extended (entered_of_effects heffects),
        iff_of_true (sound_of_entered hd hsystem hall hshape hprog hsound heffects) (by simp)⟩
    · obtain rfl := hnone made rfl
      refine ensures_ite (fun _ => ?_) fun hne => absurd rfl hne
      refine ensures_bind (ensures_reply ?_)
      refine (dmAuthEnterPlayer_ensures c _ _).mono fun x d' s' out hpost => ?_
      obtain ⟨rfl, rfl, rfl, heffects⟩ := hpost
      have hentered := entered_of_effects heffects
      exact ⟨rfl, .notMade hpre hprog.extended hentered hentered.self,
        iff_of_false (fun h => cyclic_of_self hentered.self h.acyclic) (by simp)⟩
  | throw => exact ⟨rfl, .stopped (.inl rfl) hpre hprog.extended, hquiet⟩
  | crash => exact ⟨rfl, .stopped (.inr rfl) hpre hprog.extended, hquiet⟩

/-! ### Requests that are handled -/

theorem yields_getClient {serves : Tables → CallSite × Statement → QueryOutcome → Tables → Prop}
    (c : ConnId) : Yields serves d s (getClient c) (.ret (s.clients c)) d s [] :=
  yields_get.bind (yields_pure _)

/-- No player has the name. -/
theorem selectRows_free {name : String} (h : ∀ row ∈ d.players, row.playerName ≠ cstr name) :
    selectRows hoodUserName d (.selectPlayerName name) = some [] := by
  show some _ = _
  rw [List.filter_eq_nil_iff.2 fun row hrow => by simpa using h row hrow]
  rfl

/-- The ages and players of the clients have numbers that a row can have. -/
def Known (s : DaemonState) : Prop :=
  ∀ c ∈ s.authClients, (s.clients c).ageNodeId.toNat < 2 ^ 31 ∧
    (s.clients c).player.playerId.toNat < 2 ^ 31

theorem refAndBcast_yields {ref : Vault.NodeRef} {a : QueryOutcome} (hknown : Known s)
    (hq : carryOut d (.refNode ref.parent ref.child ref.owner) = some (a, d'))
    (hacyclic : Acyclic d'.refs) :
    Yields (Succeeds hoodUserName) d s (refAndBcast ref) (.ret ()) d' s [] := by
  have hparent := (carryOut_refNode hq).2.1
  unfold refAndBcast
  refine (vRefNode_yields hq).bind (bcastTo_yields fun c hc parentId hmem => ?_)
  obtain ⟨hage, hplayer⟩ := hknown c hc
  refine vHasNode_yields hacyclic (.inr (.inr ⟨?_, hparent⟩))
  obtain rfl | hmem := List.mem_cons.1 hmem
  · exact hage
  · rw [List.mem_singleton.1 hmem]
    exact hplayer

theorem dmAuthEnterPlayer_yields {c : ConnId} {msgPlayer : PlayerInfo}
    {player : UInt32 × UInt32 × UInt32} (hknown : Known s)
    (h : effects d (enterInserts s.allPlayers (s.clients c).acctUuid msgPlayer player) = some d')
    (hacyclic : Acyclic d'.refs) :
    Yields (Succeeds hoodUserName) d s (dmAuthEnterPlayer c msgPlayer player) (.ret ()) d' s
      [{ code := .success, out := .playerId player.1 }] := by
  obtain ⟨a₁, d₁, hhood, h⟩ := effects_cons_eq_some.1 h
  obtain ⟨a₂, d₂, hlist, h⟩ := effects_cons_eq_some.1 h
  obtain ⟨a₃, d₃, hrow, h⟩ := effects_cons_eq_some.1 h
  cases h
  obtain ⟨rfl, row, -, -, -, hd'⟩ := carryOut_insertPlayer hrow
  have hrefs₂ : d'.refs = d₂.refs := by rw [hd']
  rw [hrefs₂] at hacyclic
  have hrefs₁ : d₁.refs ⊆ d₂.refs := by
    obtain ⟨-, -, -, -, rfl⟩ := carryOut_refNode hlist
    exact List.subset_append_left _ _
  unfold dmAuthEnterPlayer
  refine (refAndBcast_yields hknown hhood (hacyclic.mono hrefs₁)).bind (yields_get.bind ?_)
  refine (refAndBcast_yields hknown hlist hacyclic).bind ?_
  refine (yields_getClient c).bind ((yields_command (.change hrow)).bind ?_)
  exact yields_reply _

theorem exists_of_taken {name : String} {rows rows' : List Row}
    (hrows : selectRows hoodUserName d (.selectPlayerName name) = some rows')
    (horder : rows.Perm rows') (htaken : (rowsOf (.selectPlayerName name) rows).ntuples ≠ 0) :
    ∃ row, row ∈ d.players.filter fun row => row.playerName = cstr name := by
  cases hrows
  refine List.exists_mem_of_ne_nil _ fun hnil => htaken ?_
  rw [hnil] at horder
  exact horder.length_eq

/-- A player that is made has a number. -/
theorem player_ne_zero {ext : External} {systemNode : UInt32} {acctId : Uuid} {player : PlayerInfo}
    {shape : PlayerShape} (hpos : 0 < d.nextNode)
    (hmade : effects d (playerInserts ext systemNode acctId player d.nextNode shape) = some d') :
    nodeId d.nextNode ≠ 0 := by
  obtain ⟨a, d₁, hq, -⟩ := effects_cons_eq_some.1 hmade
  obtain ⟨_, _, hidx, -⟩ := carryOut_createNode hq
  exact nodeId_ne_zero hpos (toUInt32_of_inRange hidx).2

/-- A player that was made can be entered. -/
theorem sound_of_made {ext : External} {acctId : Uuid} {player : PlayerInfo} {shape : PlayerShape}
    {d₁ : Tables} (hd : SoundVault d) (hsystem : s.systemNode.toNat < d.nextNode)
    (hall : s.allPlayers.toNat < d.nextNode)
    (hmade : effects d (playerInserts ext s.systemNode acctId player d.nextNode shape) = some d₁)
    (hrun : Runs (Succeeds hoodUserName) d s (vCreatePlayer ext acctId player)
      (.ret (nodeId d.nextNode, nodeId (d.nextNode + 1), shape.hood.owners)) d₁ s [])
    (hentered : effects d₁ (enterInserts s.allPlayers acctId player
      (nodeId d.nextNode, nodeId (d.nextNode + 1), shape.hood.owners)) = some d') :
    SoundVault d' := by
  have hcreates := hrun.post (vCreatePlayer_ensures ext acctId player hd.toNumbered hsystem)
  have hsound := hcreates.sound hd hsystem
  obtain ⟨-, -, shape', done, -, hprog, hvalid, ⟨rfl, hx⟩ | hnone⟩ := hcreates
  · have howners : shape.hood.owners = shape'.hood.owners :=
      congrArg (fun player => player.2.2) (Lib.Exit.ret.inj hx)
    rw [howners] at hentered
    exact sound_of_entered hd hsystem hall (hvalid.resolve_left newRefs_playerInserts_ne) hprog
      hsound hentered
  · exact absurd (congrArg Prod.fst (hnone _ rfl)) (player_ne_zero hd.pos hmade)

/-- A client in the hood. -/
def hoodVisitor : DaemonState :=
  { noClients with clients := fun _ => { ageNodeId := 10005 }, authClients := [0] }

section Refused

variable {site : CallSite} {q : Statement}

/-- A statement may fail, whatever it is. -/
theorem yields_refused : Yields (Answers hoodUserName) d s (exec site q)
    (.ret { status := .fatalError }) d s [] := by
  rw [exec_eq]
  exact (yields_ask (.inr ⟨.inl rfl, .refl d⟩)).bind (yields_pure _)

theorem yields_vCreateNode_refused (node : Vault.Node) :
    Yields (Answers hoodUserName) d s (vCreateNode site node) (.ret 0) d s [] := by
  unfold vCreateNode
  exact yields_refused.bind (yields_pure 0)

theorem yields_refAndBcast_refused (ref : Vault.NodeRef) :
    Yields (Answers hoodUserName) d s (refAndBcast ref) (.ret ()) d s [] := by
  have href : Yields (Answers hoodUserName) d s
      (vRefNode .handler ref.parent ref.child ref.owner) (.ret false) d s [] := by
    unfold vRefNode
    exact yields_refused.bind (yields_pure false)
  exact href.bind (yields_pure ())

theorem yields_vHasNode_refused (parentId childId : UInt32) : ∃ found,
    Yields (Answers hoodUserName) d s (vHasNode parentId childId) (.ret found) d s [] := by
  rw [vHasNode_eq]
  split
  · exact ⟨false, yields_pure false⟩
  · split
    · exact ⟨true, yields_pure true⟩
    · exact ⟨false, yields_refused.bind (yields_pure false)⟩

theorem yields_bcastTo_refused (nodeIdx : UInt32) :
    Yields (Answers hoodUserName) d s (bcastTo nodeIdx) (.ret ()) d s [] :=
  bcastTo_yields fun _ _ parentId _ => yields_vHasNode_refused parentId nodeIdx

end Refused

/-- The vault with node 0 as its own child. -/
def withSelf (d : Tables) : Tables := { d with refs := d.refs ++ [⟨0, 0, 0⟩] }

theorem yields_self : Yields (Answers hoodUserName) d s (refAndBcast ⟨0, 0, 0⟩) (.ret ())
    (withSelf d) s [] := by
  have hself : carryOut d (.refNode 0 0 0) = some (.command, withSelf d) := rfl
  have hserved : Answers hoodUserName d (.handler, .refNode 0 0 0) .command (withSelf d) :=
    .inl (.change hself)
  have hexec : Yields (Answers hoodUserName) d s (exec .handler (.refNode 0 0 0))
      (.ret { status := .commandOk }) (withSelf d) s [] := by
    rw [exec_eq]
    exact (yields_ask hserved).bind (yields_pure _)
  have href : Yields (Answers hoodUserName) d s (vRefNode .handler 0 0 0) (.ret true)
      (withSelf d) s [] := by
    unfold vRefNode
    exact hexec.bind (yields_pure true)
  exact href.bind (yields_bcastTo_refused 0)

/-- **A request that fails** can make a cycle in any vault: after the first statement of
`v_create_player` has failed, the request is handled to its end. -/
theorem dmAuthCreatePlayer_cycle (hoodUserName : String) (ext : External) (c : ConnId)
    (msgPlayer : PlayerInfo) (d : Tables) (s : DaemonState)
    (hname : ∀ row ∈ d.players, row.playerName ≠ cstr msgPlayer.playerName) :
    ∃ d' out, Runs (Answers hoodUserName) d s (dmAuthCreatePlayer ext c msgPlayer) (.ret ()) d' s
      out ∧ { code := .internalError, out := .playerId 0 } ∈ out ∧ ¬Acyclic d'.refs := by
  have hselect (name : String) (h : name = msgPlayer.playerName) :
      Yields (Answers hoodUserName) d s (exec .handler (.selectPlayerName name))
        (.ret (rowsOf (.selectPlayerName name) [])) d s [] := by
    subst h
    exact yields_exec (.inl (.select (selectRows_free hname) (.refl _)))
  have hplayer (acctId : Uuid) (player : PlayerInfo) : Yields (Answers hoodUserName) d s
      (vCreatePlayer ext acctId player) (.ret (0, 0, 0)) d s [] := by
    unfold vCreatePlayer
    exact (yields_vCreateNode_refused _).bind (yields_pure (0, 0, 0))
  have henter (player : PlayerInfo) : Yields (Answers hoodUserName) d s
      (dmAuthEnterPlayer c player (0, 0, 0)) (.ret ()) (withSelf d) s
      [{ code := .internalError, out := .playerId 0 }] := by
    unfold dmAuthEnterPlayer
    refine yields_self.bind (yields_get.bind ((yields_refAndBcast_refused _).bind ?_))
    refine (yields_getClient c).bind (yields_refused.bind ?_)
    exact yields_reply _
  refine ⟨withSelf d, [⟨.internalError, .playerId 0⟩, ⟨.internalError, .playerId 0⟩], Yields.runs ?_,
    List.mem_cons_self, fun hacyclic => ?_⟩
  · unfold dmAuthCreatePlayer
    refine (hselect _ (by split <;> rfl)).bind ?_
    have hnone (q : Statement) : ¬(rowsOf q []).ntuples ≠ 0 := not_not_intro rfl
    rw [if_neg (not_not_intro rfl), if_neg (hnone _)]
    refine (yields_getClient c).bind ((hplayer _ _).bind ?_)
    rw [if_pos rfl]
    exact (yields_reply _).bind (henter _)
  · exact hacyclic 0 (.single ⟨_, List.mem_append_right _ List.mem_cons_self, rfl, rfl⟩)

theorem dmAuthCreatePlayer_cycle_startVault :
    ∃ d' out, Runs (Answers "") startVault noClients
      (dmAuthCreatePlayer plainExternal 0 { playerName := "Yeesha", avatarModel := "female" })
      (.ret ()) d' noClients out ∧
      { code := .internalError, out := .playerId 0 } ∈ out ∧ ¬Acyclic d'.refs :=
  dmAuthCreatePlayer_cycle "" plainExternal 0 _ startVault noClients nofun

end Dirtsand.AuthServ
