import Dirtsand.AuthServ.Broadcasts
import Dirtsand.AuthServ.Creation
import Dirtsand.Lib.Transition

/-!
# The servers of the ages

`dm_auth_createAge` and `dm_auth_findAge` both insert into `game."Servers"`, the one where
the vault has no such age, the other where the table has no such row.

* `createAge_serving`, `findAge_serving` — what the two handlers do and answer.
* `one_server` — **there is one server for an age in every run in which no age is made after
  its server was asked for.**
-/

namespace Dirtsand.AuthServ

open Lib.Prog Daemon
open Db (Tables NodeRow ServerRow)

variable {hoodUserName : String} {d d' : Tables} {s : DaemonState}

/-! ## Ages and their servers -/

/-- The node is the one of the age. -/
def IsAge (ageId : Uuid) (row : NodeRow) : Prop :=
  row.node.uuid_1 = some ageId ∧ row.node.nodeType = some Vault.NodeType.age.toInt

instance {ageId : Uuid} {row : NodeRow} : Decidable (IsAge ageId row) :=
  inferInstanceAs (Decidable (_ ∧ _))

/-- There is one server for an age, and the one of an age in the vault knows its node. -/
structure Kept (d : Tables) : Prop where
  once : (d.servers.map (·.ageUuid)).Nodup
  known : ∀ row ∈ d.nodes, ∀ ageId, IsAge ageId row →
    ∃ server ∈ d.servers, server.ageUuid = ageId ∧ server.ageIdx = row.idx
  numbered : 0 < d.nextNode

theorem Kept.eq_of_ageUuid (h : Kept d) {server server' : ServerRow} (hserver : server ∈ d.servers)
    (hserver' : server' ∈ d.servers) (hsame : server.ageUuid = server'.ageUuid) :
    server = server' :=
  List.inj_on_of_nodup_map h.once hserver hserver' hsame

/-! ## Requests -/

inductive ServerRequest where
  | initAge (age : AgeInfo)
  | ageRequest (name : String) (instanceId : Uuid)

def ServerRequest.message : ServerRequest → AuthMessage
  | initAge age => .initAge age
  | ageRequest name instanceId => .findGameServer name instanceId

/-- `InitAge` for an age that the vault does not have comes before the first request for its
server. -/
def ServerRequest.Fair (d : Tables) : ServerRequest → Prop
  | initAge age => age.ageId.isNull = false → (∀ row ∈ d.nodes, ¬IsAge age.ageId row) →
      ∀ server ∈ d.servers, server.ageUuid ≠ age.ageId
  | ageRequest .. => True

/-- What a request does to the tables, and its answer. -/
inductive Serving (ext : External) (d : Tables) : ServerRequest → Reply → Tables → Prop where
  /-- The vault has the age. -/
  | known {age : AgeInfo} {reply : Reply} {row : NodeRow} (hrow : row ∈ d.nodes)
      (hage : IsAge age.ageId row) (hreply : ∀ ageNode infoNode,
        reply = { code := .success, out := .ageNodes ageNode infoNode } →
        ageNode = row.idx.toUInt32) : Serving ext d (.initAge age) reply d
  | created {age : AgeInfo} {ageId : Uuid} {seqNumber : Int} {systemNode : UInt32} {d' : Tables}
      (hnone : ∀ row ∈ d.nodes, ¬IsAge age.ageId row)
      (hageId : AgeIdOf (Succeeds ext.hoodUserName) d age.ageId ageId)
      (hinserts : effects d (ageInserts ext systemNode { age with ageId } seqNumber 0 d.nextNode) =
        some d') : Serving ext d (.initAge age)
      { code := .success, out := .ageNodes (nodeId d.nextNode) (nodeId (d.nextNode + 4)) } d'
  | found {name : String} {instanceId : Uuid} {server : ServerRow} {d' : Tables}
      (hserver : server ∈ d.servers) (hid : server.ageUuid = instanceId)
      (hmark : ∃ ageDesc playerId rows, carryOut d (.markInAge ageDesc instanceId playerId) =
        some (.tuples rows, d')) : Serving ext d (.ageRequest name instanceId)
      { code := .success, out := .gameAge server.idx.toUInt32 server.ageIdx.toUInt32 } d'
  | temporary {name : String} {instanceId : Uuid} {server : ServerRow} {d₁ d' : Tables}
      (hnone : ∀ server ∈ d.servers, server.ageUuid ≠ instanceId)
      (hserver : insertServerRow d instanceId name name 0 0 true = some (server, d₁))
      (hmark : ∃ ageDesc playerId rows, carryOut d₁ (.markInAge ageDesc instanceId playerId) =
        some (.tuples rows, d')) : Serving ext d (.ageRequest name instanceId)
      { code := .success, out := .gameAge server.idx.toUInt32 server.ageIdx.toUInt32 } d'

/-! ## What a request does -/

/-- The handler gives one answer. -/
def Serves (P : Reply → Tables → Prop) :
    Lib.Exit Unit → Tables → DaemonState → List Reply → Prop :=
  fun x d' _ out => x = .ret () ∧ ∃ reply, out = [reply] ∧ P reply d'

instance {ageNodes : UInt32 × UInt32} : Steady (replyAgeNodes ageNodes) := by
  unfold replyAgeNodes
  infer_instance

instance {ext : External} {age : AgeInfo} : Steady (dmAuthCreateAge ext age) := by
  unfold dmAuthCreateAge
  infer_instance

theorem createAge_serving (ext : External) (age : AgeInfo) (hpos : 0 < d.nextNode) :
    Ensures (Succeeds ext.hoodUserName) d s (dmAuthCreateAge ext age)
      (Serves (Serving ext d (.initAge age))) := by
  unfold dmAuthCreateAge
  refine ensures_bind (ensures_select rfl fun rows rows' hrows horder => ?_)
  cases hrows
  show Ensures _ _ _ (if (rowsOf _ _).ntuples ≠ 0 then _ else _) _
  rw [nodeRows, idxRows, List.map_map] at horder
  refine ensures_ite (fun hne => ?_) fun hempty => ?_
  · obtain ⟨row, hrow, hfirst⟩ := exists_first horder hne
    rw [List.mem_filter, decide_eq_true_eq] at hrow
    rw [numAt_rowsOf (v := row.idx) hfirst Nat.zero_lt_one rfl, Lib.Prog.pure_bind]
    have hserving (reply : Reply) (hreply : ∀ ageNode infoNode,
        reply = { code := .success, out := .ageNodes ageNode infoNode } →
          ageNode = row.idx.toUInt32) : Serving ext d (.initAge age) reply d :=
      .known hrow.1 hrow.2 hreply
    have herror : Serving ext d (.initAge age) { code := .internalError } d :=
      hserving _ fun ageNode infoNode h => by cases h
    refine ensures_bind (ensures_select rfl fun rows rows' hrows horder => ?_)
    cases hrows
    rw [nodeRows, idxRows, List.map_map] at horder
    show Ensures _ _ _ (if (rowsOf _ _).ntuples ≠ 0 then _ else _) _
    refine ensures_ite (fun hne => ?_) fun hempty => ?_
    · obtain ⟨info, hinfo, hfirst⟩ := exists_first horder hne
      rw [numAt_rowsOf (v := info.idx) hfirst Nat.zero_lt_one rfl, Lib.Prog.pure_bind]
      refine ensures_ite (fun _ => ?_) fun _ => ?_
      · exact ensures_reply ⟨rfl, _, rfl, herror⟩
      · refine ensures_reply ⟨rfl, _, rfl, hserving _ ?_⟩
        rintro ageNode infoNode ⟨⟩
        rfl
    · exact ensures_reply ⟨rfl, _, rfl, herror⟩
  · have hnone : ∀ row ∈ d.nodes, ¬IsAge age.ageId row := fun row hrow hage =>
      none_of_empty horder (not_not.1 hempty) row hrow (decide_eq_true hage)
    refine ensures_bind ((vCreateAge_ensures ext .handler age 0 hpos).mono fun x d' s' out hpost => ?_)
    obtain ⟨d₁, ageId, seqNumber, -, hd, hageId, rfl, rfl, hpost⟩ := hpost
    obtain rfl := hd.resolve_right not_failing
    obtain ⟨nodes, rfl, ⟨rfl, hlt⟩, hinserts⟩ | ⟨hfails, -⟩ := hpost
    · have hne : ¬(nodeId d₁.nextNode = 0 ∨ nodeId (d₁.nextNode + 4) = 0) :=
        not_or.2 ⟨nodeId_ne_zero hpos (by omega), nodeId_ne_zero (Nat.succ_pos _) (by omega)⟩
      show Ensures _ _ _ (if nodeId d₁.nextNode = 0 ∨ nodeId (d₁.nextNode + 4) = 0 then _ else _) _
      rw [if_neg hne]
      exact ensures_reply ⟨rfl, _, rfl, .created hnone hageId hinserts⟩
    · exact absurd hfails not_failing

instance {ext : External} {c : ConnId} {instanceId : Uuid} {result : PGresult} :
    Steady (dmAuthFoundAge ext c instanceId result) := by
  unfold dmAuthFoundAge
  infer_instance

instance {ext : External} {c : ConnId} {name : String} {instanceId : Uuid} :
    Steady (dmAuthFindAge ext c name instanceId) := by
  unfold dmAuthFindAge
  infer_instance

/-- A player who is shown up in an age. -/
theorem carryOut_markInAge {ageDesc : String} {instanceId : Uuid} {playerId : UInt32}
    {a : QueryOutcome} (h : carryOut d (.markInAge ageDesc instanceId playerId) = some (a, d')) :
    ∃ ids p f, a = .tuples (idxRows ids) ∧ d' = updateNodes d p f ∧
      (∀ row, p row = true → row.node.nodeType = some Vault.NodeType.playerInfo.toInt) ∧
      ∀ node, (f node).nodeType = node.nodeType := by
  rw [carryOut] at h
  obtain ⟨desc, -, h⟩ := Option.bind_eq_some_iff.1 h
  rw [markPlayer] at h
  obtain ⟨player, -, h⟩ := Option.bind_eq_some_iff.1 h
  cases h
  refine ⟨_, _, _, rfl, rfl, fun row hrow => ?_, fun node => rfl⟩
  exact (of_decide_eq_true hrow).1

/-- The answer to a request for the server in the first row. -/
theorem foundAge_serving {ext : External} {c : ConnId} {instanceId : Uuid} {q : Statement}
    {rows : List Row} {server : ServerRow} (hq : q.columns = 3)
    (hfirst : rows[0]? =
      some (cells [intCell server.idx, intCell server.ageIdx, server.displayName]))
    {P : Reply → Tables → Prop} (hP : ∀ ageDesc playerId rows d',
      carryOut d (.markInAge ageDesc instanceId playerId) = some (.tuples rows, d') →
      P { code := .success, out := .gameAge server.idx.toUInt32 server.ageIdx.toUInt32 } d') :
    Ensures (Succeeds hoodUserName) d s (dmAuthFoundAge ext c instanceId (rowsOf q rows))
      (Serves P) := by
  unfold dmAuthFoundAge
  rw [numAt_rowsOf (v := server.ageIdx) hfirst (by rw [hq]; decide) rfl, Lib.Prog.pure_bind,
    numAt_rowsOf (v := server.idx) hfirst (by rw [hq]; decide) rfl, Lib.Prog.pure_bind,
    textAt_rowsOf hfirst (by rw [hq]; decide) rfl, Lib.Prog.pure_bind]
  refine ensures_bind (ensures_bind (ensures_get (ensures_pure ?_)))
  refine ensures_bind (ensures_carried (fun rows d' h => ?_) fun d' h => ?_)
  · obtain ⟨ids, p, f, ha, -⟩ := carryOut_markInAge (h.changed rfl)
    cases ha
    refine ensures_bind ((bcastRows_ensures rfl ids).mono fun x d₁ s₁ out hpost => ?_)
    obtain ⟨rfl, rfl, rfl, -, rfl, -⟩ := hpost
    exact ensures_reply ⟨rfl, _, rfl, hP _ _ _ _ (h.changed rfl)⟩
  · obtain ⟨ids, p, f, ha, -⟩ := carryOut_markInAge (h.changed rfl)
    cases ha

theorem findAge_serving (ext : External) (c : ConnId) (name : String) (instanceId : Uuid) :
    Ensures (Succeeds ext.hoodUserName) d s (dmAuthFindAge ext c name instanceId)
      (Serves (Serving ext d (.ageRequest name instanceId))) := by
  unfold dmAuthFindAge
  refine ensures_bind (ensures_select rfl fun rows rows' hrows horder => ?_)
  cases hrows
  show Ensures _ _ _ (if (rowsOf _ _).ntuples = 0 then _ else _) _
  refine ensures_ite (fun hempty => ?_) fun hne => ?_
  · have hnone : ∀ server ∈ d.servers, server.ageUuid ≠ instanceId := fun server hserver hid =>
      none_of_empty horder hempty server hserver (decide_eq_true hid)
    refine ensures_bind (ensures_carried (fun rows d' h => ?_) fun d' h => ?_)
    · obtain ⟨server, hserver, ha⟩ := carryOut_insertTempServer (h.changed rfl)
      cases ha
      exact foundAge_serving rfl rfl fun ageDesc playerId rows d' hmark =>
        .temporary hnone hserver ⟨ageDesc, playerId, rows, hmark⟩
    · obtain ⟨server, -, ha⟩ := carryOut_insertTempServer (h.changed rfl)
      cases ha
  · obtain ⟨server, hserver, hfirst⟩ := exists_first horder hne
    rw [List.mem_filter, decide_eq_true_eq] at hserver
    exact foundAge_serving rfl hfirst fun ageDesc playerId rows d' hmark =>
      .found hserver.1 hserver.2 ⟨ageDesc, playerId, rows, hmark⟩

/-! ## What requests keep -/

/-- Marking a player touches no age. -/
theorem Kept.mark {ageDesc : String} {instanceId : Uuid} {playerId : UInt32} {a : QueryOutcome}
    (h : Kept d) (hmark : carryOut d (.markInAge ageDesc instanceId playerId) = some (a, d')) :
    Kept d' ∧ d'.servers = d.servers := by
  obtain ⟨ids, p, f, -, rfl, hp, hf⟩ := carryOut_markInAge hmark
  refine ⟨⟨h.once, fun row hrow ageId hage => ?_, h.numbered⟩, rfl⟩
  obtain ⟨row₀, hrow₀, rfl⟩ := List.mem_map.1 hrow
  by_cases hplayer : p row₀ = true
  · rw [if_pos hplayer] at hage
    have htype := (hf row₀.node).symm.trans hage.2
    rw [hp row₀ hplayer] at htype
    exact absurd htype (by decide)
  · rw [if_neg hplayer] at hage ⊢
    exact h.known row₀ hrow₀ ageId hage

/-- One more server. -/
theorem nodup_append_server {servers : List ServerRow} {server : ServerRow}
    (h : (servers.map (·.ageUuid)).Nodup) (hnew : ∀ row ∈ servers, row.ageUuid ≠ server.ageUuid) :
    ((servers ++ [server]).map (·.ageUuid)).Nodup := by
  rw [List.map_append, List.map_singleton, List.nodup_append]
  refine ⟨h, List.nodup_singleton _, ?_⟩
  rintro uuid hold uuid' hsingle rfl
  obtain ⟨row, hrow, rfl⟩ := List.mem_map.1 hold
  exact hnew row hrow (List.mem_singleton.1 hsingle)

theorem Kept.create {ext : External} {systemNode : UInt32} {age : AgeInfo} {seqNumber : Int}
    (h : Kept d) (hnew : ∀ server ∈ d.servers, server.ageUuid ≠ age.ageId)
    (hinserts : effects d (ageInserts ext systemNode age seqNumber 0 d.nextNode) = some d') :
    Kept d' ∧ ∃ server, d'.servers = d.servers ++ [server] ∧ server.ageUuid = age.ageId ∧
      server.ageIdx.toUInt32 = nodeId d.nextNode := by
  obtain ⟨hnodes, -, hservers, -, hnext⟩ := grown_of_effects ageInserts_isInsert hinserts
  obtain ⟨server, hserver, huuid, hidx⟩ : ∃ server,
      newServers d.nextServer (ageInserts ext systemNode age seqNumber 0 d.nextNode) = [server] ∧
        server.ageUuid = age.ageId ∧ server.ageIdx = Int32.ofNat d.nextNode := ⟨_, rfl, rfl, rfl⟩
  rw [hserver] at hservers
  refine ⟨⟨?_, fun row hrow ageId hage => ?_, ?_⟩, server, hservers, huuid, ?_⟩
  · rw [hservers]
    refine nodup_append_server h.once fun row hrow => ?_
    rw [huuid]
    exact hnew row hrow
  · rw [hservers]
    rw [hnodes] at hrow
    obtain hrow | hrow := List.mem_append.1 hrow
    · obtain ⟨server', hserver', hids⟩ := h.known row hrow ageId hage
      exact ⟨server', List.mem_append_left _ hserver', hids⟩
    · obtain ⟨hrowIdx, hageId⟩ := mem_newNodes_ageInserts hrow hage.2
      refine ⟨server, List.mem_append_right _ (List.mem_singleton_self _), ?_, ?_⟩
      · rw [huuid, hageId ageId hage.1]
      · rw [hidx, hrowIdx]
  · rw [hnext]
    exact Nat.lt_of_lt_of_le h.numbered (Nat.le_add_right _ _)
  · rw [hidx]
    rfl

section

variable {ext : External} {r : ServerRequest} {reply : Reply}

/-- A fair request keeps the servers as they should be, and every row. -/
theorem Serving.kept (hs : Serving ext d r reply d') (h : Kept d) (hfair : r.Fair d) :
    Kept d' ∧ ∀ server ∈ d.servers, server ∈ d'.servers := by
  cases hs with
  | known => exact ⟨h, fun _ hserver => hserver⟩
  | @created age ageId seqNumber systemNode _ hnone hageId hinserts =>
    have hnew : ∀ server ∈ d.servers, server.ageUuid ≠ ageId := by
      unfold AgeIdOf at hageId
      split at hageId
      · obtain hfresh | ⟨hfails, -⟩ := hageId
        · exact hfresh.servers
        · exact absurd hfails not_failing
      · rename_i hnull
        rw [hageId]
        exact hfair (Bool.eq_false_iff.2 hnull) hnone
    obtain ⟨hkept, server, hservers, -⟩ := h.create hnew hinserts
    refine ⟨hkept, fun row hrow => ?_⟩
    rw [hservers]
    exact List.mem_append_left _ hrow
  | found hserver hid hmark =>
    obtain ⟨ageDesc, playerId, rows, hmark⟩ := hmark
    obtain ⟨hkept, hservers⟩ := h.mark hmark
    exact ⟨hkept, fun row hrow => hservers ▸ hrow⟩
  | @temporary name instanceId server d₁ _ hnone hserver hmark =>
    obtain ⟨ageDesc, playerId, rows, hmark⟩ := hmark
    obtain ⟨hrow, rfl⟩ := insertServerRow_eq_some hserver
    have huuid : server.ageUuid = instanceId := by rw [hrow]
    have hkept : Kept { d with servers := d.servers ++ [server], nextServer := d.nextServer + 1 } := by
      refine ⟨nodup_append_server h.once (huuid ▸ hnone), fun row hrow ageId hage => ?_, h.numbered⟩
      obtain ⟨server', hserver', hids⟩ := h.known row hrow ageId hage
      exact ⟨server', List.mem_append_left _ hserver', hids⟩
    obtain ⟨hkept, hservers⟩ := hkept.mark hmark
    refine ⟨hkept, fun row hrow => ?_⟩
    rw [hservers]
    exact List.mem_append_left _ hrow

/-- After `InitAge` has succeeded, the server of the age knows the age. -/
theorem Serving.initAge {age : AgeInfo} {ageNode infoNode : UInt32}
    (hs : Serving ext d (.initAge age)
      { code := .success, out := .ageNodes ageNode infoNode } d') (h : Kept d)
    (hfair : (ServerRequest.initAge age).Fair d) (hnull : age.ageId.isNull = false) :
    ∃ server ∈ d'.servers, server.ageUuid = age.ageId ∧ server.ageIdx.toUInt32 = ageNode := by
  cases hs with
  | known hrow hage hreply =>
    obtain ⟨server, hserver, huuid, hidx⟩ := h.known _ hrow _ hage
    refine ⟨server, hserver, huuid, ?_⟩
    rw [hreply _ _ rfl, hidx]
  | created hnone hageId hinserts =>
    rw [AgeIdOf, if_neg (Bool.eq_false_iff.1 hnull)] at hageId
    subst hageId
    obtain ⟨-, server, hservers, huuid, hidx⟩ := h.create (hfair hnull hnone) hinserts
    refine ⟨server, ?_, huuid, hidx⟩
    rw [hservers]
    exact List.mem_append_right _ (List.mem_singleton_self _)

/-- A request for a server that there is finds it. -/
theorem Serving.ageRequest {name : String} {instanceId : Uuid}
    (hs : Serving ext d (.ageRequest name instanceId) reply d') (h : Kept d) {server : ServerRow}
    (hserver : server ∈ d.servers) (huuid : server.ageUuid = instanceId) :
    reply = { code := .success, out := .gameAge server.idx.toUInt32 server.ageIdx.toUInt32 } := by
  cases hs with
  | found hserver' huuid' _ =>
    rw [h.eq_of_ageUuid hserver' hserver (huuid'.trans huuid.symm)]
  | temporary hnone _ _ => exact absurd huuid (hnone server hserver)

instance steady_serverRequest {ext : External} {c : ConnId} :
    Steady (dmAuthHandle ext c r.message) := by
  cases r with
  | initAge age => exact inferInstanceAs (Steady (dmAuthCreateAge ext age))
  | ageRequest name instanceId => exact inferInstanceAs (Steady (dmAuthFindAge ext c name instanceId))

/-- Every request is answered once. -/
theorem handled_serving (hpos : 0 < d.nextNode) {out : List Reply}
    (hr : Handles (Succeeds ext.hoodUserName) ext d r.message out d') :
    ∃ reply, out = [reply] ∧ Serving ext d r reply d' := by
  obtain ⟨c, s, x, s', hrun⟩ := hr
  have hhandle : Ensures (Succeeds ext.hoodUserName) d s (dmAuthHandle ext c r.message)
      (Serves (Serving ext d r)) := by
    cases r with
    | initAge age => exact createAge_serving ext age hpos
    | ageRequest name instanceId => exact findAge_serving ext c name instanceId
  suffices hm : Ensures (Succeeds ext.hoodUserName) d s (Daemon.dmAuthDaemon ext c r.message)
      fun _ d' _ out => ∃ reply, out = [reply] ∧ Serving ext d r reply d' from hrun.post hm
  refine ensures_catchReply (hhandle.mono fun x d' s' out hpost => ?_)
  obtain ⟨rfl, hserving⟩ := hpost
  exact hserving

end

/-- A fair request, with its answer. -/
def FairStep (ext : External) (d : Tables) (e : ServerRequest × List Reply) (d' : Tables) : Prop :=
  e.1.Fair d ∧ Handles (Succeeds ext.hoodUserName) ext d e.1.message e.2 d'

/-- **One server for an age.**  In a run in which no age is made after its server was asked for,
there is at most one server for an age; and once `InitAge` for an age has succeeded, every
request for its server returns the node of the age and the same server. -/
theorem one_server (ext : External) {d₀ : Tables} {events : List (ServerRequest × List Reply)}
    (h : Kept d₀) (hrun : Lib.RunOf (FairStep ext) d₀ events d) :
    (d.servers.map (·.ageUuid)).Nodup ∧
    ∀ before age ageNode infoNode after, events = before ++
        (.initAge age, [{ code := .success, out := .ageNodes ageNode infoNode }]) :: after →
      age.ageId.isNull = false → ∃ mcpId, ∀ name out, (.ageRequest name age.ageId, out) ∈ after →
        out = [{ code := .success, out := .gameAge mcpId ageNode }] := by
  have hkept {d : Tables} {e : ServerRequest × List Reply} {d' : Tables} (h : Kept d)
      (hstep : FairStep ext d e d') : Kept d' ∧ ∀ server ∈ d.servers, server ∈ d'.servers := by
    obtain ⟨reply, -, hserving⟩ := handled_serving h.numbered hstep.2
    exact hserving.kept h hstep.1
  have hall : Kept d := hrun.invariant (fun _ _ _ h hstep => (hkept h hstep).1) h
  refine ⟨hall.once, ?_⟩
  rintro before age ageNode infoNode after rfl hnull
  obtain ⟨d₁, hbefore, hrest⟩ := hrun.append
  have hd₁ : Kept d₁ := hbefore.invariant (fun _ _ _ h hstep => (hkept h hstep).1) h
  cases hrest with
  | cons hinit hafter =>
    obtain ⟨reply, hreply, hserving⟩ := handled_serving hd₁.numbered hinit.2
    cases hreply
    obtain ⟨server, hserver, huuid, hidx⟩ := hserving.initAge hd₁ hinit.1 hnull
    refine ⟨server.idx.toUInt32, fun name out hmem => ?_⟩
    have hd₂ := (hkept hd₁ hinit).1
    obtain ⟨d₃, d₄, ⟨hd₃, hserver⟩, hstep⟩ := hafter.mem_step
      (I := fun d => Kept d ∧ server ∈ d.servers) (fun d e d' hI hstep => by
        obtain ⟨hd', hservers⟩ := hkept hI.1 hstep
        exact ⟨hd', hservers server hI.2⟩) ⟨hd₂, hserver⟩ hmem
    obtain ⟨reply, rfl, hserving⟩ := handled_serving hd₃.numbered hstep.2
    rw [hserving.ageRequest hd₃ hserver huuid, hidx]

/-! ## Two runs -/

section Runs

/-- An age that the vault does not have is made. -/
theorem handles_initAge {ext : External} {age : AgeInfo} (hnull : age.ageId.isNull = false)
    (hseq : ¬age.seqNumber < 0) (hpos : 0 < d.nextNode)
    (hne : ¬(nodeId d.nextNode = 0 ∨ nodeId (d.nextNode + 4) = 0))
    (hnone : nodeRows d (fun node => node.uuid_1 = some age.ageId ∧
      node.nodeType = some Vault.NodeType.age.toInt) = [])
    (hall : effects d (ageInserts ext 10001 age age.seqNumber 0 d.nextNode) = some d') :
    Handles (Succeeds ext.hoodUserName) ext d (.initAge age)
      [⟨.success, .ageNodes (nodeId d.nextNode) (nodeId (d.nextNode + 4))⟩] d' := by
  refine ⟨0, noClients, .ret (), noClients, Yields.runs (Yields.catchReply ?_)⟩
  show Yields _ _ _ (dmAuthCreateAge ext age) _ _ _ _
  unfold dmAuthCreateAge
  have hrows : selectRows ext.hoodUserName d (.selectAgeNode age.ageId) = some [] := by
    exact congrArg some hnone
  refine (yields_exec (.select hrows (.refl _))).bind ?_
  have hcreate : Yields (Succeeds ext.hoodUserName) d noClients (vCreateAge ext .handler age 0)
      (.ret (nodeId d.nextNode, nodeId (d.nextNode + 4))) d' noClients [] :=
    vCreateAge_yields hnull hseq hpos hall
  refine hcreate.bind ?_
  show Yields _ _ _ (if nodeId d.nextNode = 0 ∨ nodeId (d.nextNode + 4) = 0 then _ else _) _ _ _ _
  rw [if_neg hne]
  exact yields_reply _

/-- A player without a node in the vault asks for a server that there is, or is not. -/
theorem handles_ageRequest {ext : External} {name : String} {instanceId : Uuid}
    {server : ServerRow} {d₁ : Tables}
    (hrow : (∃ others, d.servers.filter (fun row => row.ageUuid = instanceId) = server :: others) ∧
        d₁ = d ∨ d.servers.filter (fun row => row.ageUuid = instanceId) = [] ∧
          insertServerRow d instanceId name name 0 0 true = some (server, d₁))
    (hmark : carryOut d₁ (.markInAge server.displayName instanceId 0) = some (.tuples [], d')) :
    Handles (Succeeds ext.hoodUserName) ext d (.findGameServer name instanceId)
      [{ code := .success, out := .gameAge server.idx.toUInt32 server.ageIdx.toUInt32 }] d' := by
  have hfound (q : Statement) (rows : List Row) (hq : q.columns = 3) (hfirst : rows[0]? =
      some (cells [intCell server.idx, intCell server.ageIdx, server.displayName])) :
      Yields (Succeeds ext.hoodUserName) d₁ noClients
        (dmAuthFoundAge ext 0 instanceId (rowsOf q rows)) (.ret ()) d' noClients
        [{ code := .success, out := .gameAge server.idx.toUInt32 server.ageIdx.toUInt32 }] := by
    unfold dmAuthFoundAge
    rw [numAt_rowsOf (v := server.ageIdx) hfirst (by rw [hq]; decide) rfl, Lib.Prog.pure_bind,
      numAt_rowsOf (v := server.idx) hfirst (by rw [hq]; decide) rfl, Lib.Prog.pure_bind,
      textAt_rowsOf hfirst (by rw [hq]; decide) rfl, Lib.Prog.pure_bind]
    have hclient : Yields (Succeeds ext.hoodUserName) d₁ noClients (getClient 0)
        (.ret (noClients.clients 0)) d₁ noClients [] := yields_get.bind (yields_pure _)
    refine hclient.bind ((yields_exec (.change hmark)).bind ?_)
    exact yields_reply _
  refine ⟨0, noClients, .ret (), noClients, Yields.runs (Yields.catchReply ?_)⟩
  show Yields _ _ _ (dmAuthFindAge ext 0 name instanceId) _ _ _ _
  unfold dmAuthFindAge
  obtain ⟨⟨others, hfilter⟩, rfl⟩ | ⟨hfilter, hserver⟩ := hrow
  · refine (yields_exec (.select rfl (.refl _))).bind ?_
    rw [hfilter]
    exact hfound _ _ rfl rfl
  · refine (yields_exec (.select rfl (.refl _))).bind ?_
    rw [hfilter]
    have hinsert : carryOut d (.insertTempServer instanceId name) = some
        (.tuples [cells [intCell server.idx, intCell server.ageIdx, server.displayName]], d₁) := by
      rw [carryOut, hserver]
      rfl
    exact (yields_exec (.change hinsert)).bind (hfound _ _ rfl rfl)

def cityAge : AgeInfo := { ageId := { Uuid.null with data1 := 1 }, filename := "city" }

/-- A player whose node is not in the vault is not marked. -/
theorem exists_mark {ageDesc desc : String} {instanceId : Uuid}
    (hdesc : Db.varchar 64 (cstr ageDesc) = some desc)
    (hnone : d.nodes.filter (fun row => row.node.nodeType = some Vault.NodeType.playerInfo.toInt ∧
      row.node.uint32_1 = some 0) = []) :
    ∃ d', carryOut d (.markInAge ageDesc instanceId 0) = some (.tuples [], d') := by
  rw [carryOut, hdesc]
  show ∃ d', some (QueryOutcome.tuples (idxRows ((d.nodes.filter _).map (·.idx))), _) = some (_, d')
  exact ⟨_, congrArg (fun rows => some (QueryOutcome.tuples (idxRows (rows.map (·.idx))), _)) hnone⟩

theorem varchar_city : Db.varchar 64 (cstr "city") = some "city" := by
  decide

/-- The tables with one age. -/
def cityTables : Tables :=
  (effects {} (ageInserts plainExternal 10001 cityAge cityAge.seqNumber 0
    ({} : Tables).nextNode)).getD {}

theorem effects_city : effects {} (ageInserts plainExternal 10001 cityAge cityAge.seqNumber 0
    ({} : Tables).nextNode) = some cityTables := by
  decide

/-- An age, and a request for its server. -/
theorem one_server_city : ∃ d out, Lib.RunOf (FairStep plainExternal) {}
      [(.initAge cityAge, [⟨.success, .ageNodes 10001 10005⟩]),
        (.ageRequest "city" cityAge.ageId, out)] d ∧
      (d.servers.map (·.ageUuid)).Nodup ∧ ∃ mcpId, out = [⟨.success, .gameAge mcpId 10001⟩] := by
  have hkept : Kept {} := ⟨List.nodup_nil, fun _ h => absurd h List.not_mem_nil, by decide⟩
  have hinit : Handles (Succeeds "") plainExternal {} (.initAge cityAge) _ cityTables :=
    handles_initAge (by decide) (by decide) (by decide) (by decide) rfl effects_city
  obtain ⟨d, hmark⟩ : ∃ d, carryOut cityTables (.markInAge "city" cityAge.ageId 0) =
      some (.tuples [], d) := exists_mark varchar_city (by decide)
  have hserver : cityTables.servers.filter (fun row => row.ageUuid = cityAge.ageId) =
      [⟨1, cityAge.ageId, "city", "city", 10001, 10008, false⟩] := by decide
  have hfind : Handles (Succeeds "") plainExternal cityTables
      (.findGameServer "city" cityAge.ageId) [⟨.success, .gameAge 1 10001⟩] d :=
    handles_ageRequest (.inl ⟨⟨[], hserver⟩, rfl⟩) hmark
  have hrun : Lib.RunOf (FairStep plainExternal) {} [(.initAge cityAge, _), (.ageRequest "city"
      cityAge.ageId, _)] d :=
    .cons ⟨fun _ _ _ h => absurd h List.not_mem_nil, hinit⟩ (.cons ⟨trivial, hfind⟩ (.nil d))
  obtain ⟨honce, hall⟩ := one_server plainExternal hkept hrun
  obtain ⟨mcpId, hsame⟩ := hall [] cityAge 10001 10005 _ rfl (by decide)
  exact ⟨d, _, hrun, honce, mcpId, hsame "city" _ (List.mem_singleton_self _)⟩

/-- The tables with a server for an age that is not there yet, and then with the age. -/
def earlyServer : ServerRow := ⟨1, cityAge.ageId, "city", "city", 0, 0, true⟩

def earlyTables : Tables := { servers := [earlyServer], nextServer := 2 }

def lateTables : Tables :=
  (effects earlyTables (ageInserts plainExternal 10001 cityAge cityAge.seqNumber 0
    earlyTables.nextNode)).getD {}

/-- The server of an age is asked for before the age is made: the age has two servers then, and a
request for its server does not return its node. -/
theorem two_servers : ∃ out out' d,
    Handles (Succeeds "") plainExternal {} (.findGameServer "city" cityAge.ageId) out earlyTables ∧
    Handles (Succeeds "") plainExternal earlyTables (.initAge cityAge) out' lateTables ∧
    ¬(lateTables.servers.map (·.ageUuid)).Nodup ∧
    Handles (Succeeds "") plainExternal lateTables (.findGameServer "city" cityAge.ageId)
      [⟨.success, .gameAge 1 0⟩] d := by
  have hrow : insertServerRow {} cityAge.ageId "city" "city" 0 0 true =
      some (earlyServer, earlyTables) := by decide
  have hearly : carryOut earlyTables (.markInAge "city" cityAge.ageId 0) =
      some (.tuples [], earlyTables) := by
    rw [carryOut, varchar_city]
    rfl
  have hinserts : effects earlyTables (ageInserts plainExternal 10001 cityAge cityAge.seqNumber 0
      earlyTables.nextNode) = some lateTables := by decide
  obtain ⟨d, hlate⟩ : ∃ d, carryOut lateTables (.markInAge "city" cityAge.ageId 0) =
      some (.tuples [], d) := exists_mark varchar_city (by decide)
  have hservers : lateTables.servers.filter (fun row => row.ageUuid = cityAge.ageId) =
      [earlyServer, ⟨2, cityAge.ageId, "city", "city", 10001, 10008, false⟩] := by decide
  refine ⟨_, _, d, handles_ageRequest (.inr ⟨rfl, hrow⟩) hearly,
    handles_initAge (by decide) (by decide) (by decide) (by decide) rfl hinserts, ?_,
    handles_ageRequest (.inl ⟨⟨_, hservers⟩, rfl⟩) hlate⟩
  decide

end Runs

end Dirtsand.AuthServ
