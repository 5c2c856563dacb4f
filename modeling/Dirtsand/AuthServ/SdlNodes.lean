import Dirtsand.Config
import Dirtsand.AuthServ.NodeRequests
import Dirtsand.Db.Tables
import Dirtsand.GameServ.NullStates

/-!
# SDL nodes that clients save

A `VaultNodeSave` on its way: `cb_nodeUpdate` (AuthServ/AuthServer.cpp), the daemon's
`e_VaultUpdateNode` (AuthServ/AuthDaemon.cpp), `GameServer_UpdateVaultSDL`
(GameServ/GameServer.cpp) and `dm_local_sdl_update` (GameServ/GameHost.cpp), which sends
a node of its own to the daemon.

* `updateNode_stores` — what the statement of `v_update_node` stores, and where.
* `vaultUpdateNode_unreached`, `vaultUpdateNode_reached` — the two ways of a message.
* `saves_iff` — which requests reach the host and the row they are for.
-/

namespace Dirtsand.SdlNodes

open SDL
open Vault (NodeData NodesTable Texts Memory Field Kind UpdateSql hasIn typeIn e_NodeSDL cbNodeUpdate
  receiveNode updateSql updateNode updatePairs nodesTable fetchNode Updated)
open AgeSdl (Host parse mergeVault HookSafe)

variable {κ σ : Type}

/-! ## The servers -/

/-- The rows of `vault."Nodes"`, those of `game."Servers"` in the order in which the database
returns them, and `s_gameHosts`. -/
structure World (κ σ : Type) where
  nodes : NodesTable
  servers : List Db.ServerRow
  hosts : UInt32 → Option (Host κ σ)
  /-- The nodes that the hosts have sent to the daemon. -/
  channel : List NodeData := []

/-- The first row of `SELECT "idx" FROM game."Servers" WHERE "SdlIdx"=$1`; nothing where the
query fails. -/
def World.serverOf (w : World κ σ) (nodeIdx : UInt32) : Option (Option UInt32) :=
  (Db.integer nodeIdx).map fun nodeIdx =>
    (w.servers.find? (·.sdlIdx = nodeIdx)).map (·.idx.toUInt32)

section

variable (C : Creatables κ) (S : Children σ) (db : DescriptorDb) (clock : List UInt8 → Clock)
  (texts : Texts)

/-- `dm_local_sdl_update`, to the answer: the host and the node that it sends to the daemon, or
nothing where it answers with an error.  Where it does not answer at all it is `none`. -/
def dmLocalSdlUpdate (host : Host κ σ) (node : NodeData) : Option (Option (Host κ σ × NodeData)) :=
  match parse C S db clock (node.value .blob_1) with
  | .error .crash => none
  | .error _ => some none
  | .ok none => some none
  | .ok (some vaultState) =>
    match mergeVault host vaultState with
    | .error _ => none
    | .ok host => some (some (host, node.assign .blob_1 (State.toBlob C S host.localState)))

/-- `GameServer_UpdateVaultSDL`; `dup` is the new node in `Node::copy`. -/
def updateVaultSDL (w : World κ σ) (dup node : NodeData) (ageMcpId : UInt32) :
    Option (World κ σ × NetResultCode) :=
  match w.hosts ageMcpId with
  | none => some (w, .ageNotFound)
  | some host =>
    match dmLocalSdlUpdate C S db clock host (node.copy dup) with
    | none => none
    | some none => some (w, .internalError)
    | some (some (host, sdlNode)) =>
      some ({ w with
        hosts := Function.update w.hosts ageMcpId (some host)
        channel := w.channel ++ [sdlNode] }, .success)

/-- `v_update_node`, with the answer. -/
def saveNode (time : Int32) (w : World κ σ) (node : NodeData) : World κ σ × NetResultCode :=
  ({ w with nodes := (updateNode texts time node w.nodes).2 },
    if (updateNode texts time node w.nodes).1 then .success else .internalError)

/-- The daemon's `e_VaultUpdateNode`. -/
def vaultUpdateNode (time : Int32) (w : World κ σ) (dup node : NodeData) (internal : Bool) :
    Option (World κ σ × NetResultCode) :=
  if !internal ∧ node.nodeType = e_NodeSDL then
    match w.serverOf node.nodeIdx with
    | none => some (w, .internalError)
    | some none => some (saveNode texts time w node)
    | some (some ageMcpId) =>
      match updateVaultSDL C S db clock w dup node ageMcpId with
      | none => none
      | some (w', result) =>
        if result ≠ .ageNotFound then some (w', result) else some (saveNode texts time w node)
  else some (saveNode texts time w node)

end

/-! ## What is right -/

/-- A text up to its first NUL, as `PostgresStrings` passes it on. -/
def cutValue : (k : Kind) → k.Value → k.Value
  | .string, v => cstr v
  | _, v => v

def cut (node : NodeData) : NodeData := { node with value := fun f => cutValue f.kind (node.value f) }

/-- All rows but that of a node are as they were. -/
def OtherRows (nodeIdx : UInt32) (t t' : NodesTable) : Prop :=
  List.Forall₂ (fun row row' : Lib.Table.Row => row "idx" ≠ some (fromUint nodeIdx.toNat) → row' = row)
    t.rows t'.rows

/-- The database takes the fields of a node. -/
def Accepted (texts : Texts) (time : Int32) (node : NodeData) : Prop :=
  node.nodeIdx.toNat < 2 ^ 31 ∧
    (Lib.Table.keepAll texts.input nodesTable (updatePairs texts time node)).isSome = true

/-- The row of a node gets its fields, if the database takes them, and no other row is changed. -/
structure Stores (texts : Texts) (time : Int32) (node : NodeData) (t : NodesTable)
    (result : Bool × NodesTable) : Prop where
  taken : result.1 = true ↔ Accepted texts time node
  refused : result.1 = false → result.2 = t
  others : OtherRows node.nodeIdx t result.2
  stored : result.1 = true → t.Has node.nodeIdx → ∀ before,
    fetchNode texts node.nodeIdx t = some before → ∃ back,
      fetchNode texts node.nodeIdx result.2 = some back ∧ Updated (cut node) time before.get back.get

/-- A node is saved, and the answer says whether. -/
def Saves (texts : Texts) (time : Int32) (w : World κ σ) (node : NodeData)
    (result : Option (World κ σ × NetResultCode)) : Prop :=
  ∃ updated : Bool × NodesTable, result = some ({ w with nodes := updated.2 },
    if updated.1 then .success else .internalError) ∧ Stores texts time node w.nodes updated

/-- A running age host has the SDL node. -/
def World.Runs (w : World κ σ) (nodeIdx mcpId : UInt32) (host : Host κ σ) : Prop :=
  (∃ row ∈ w.servers, row.sdlIdx.toUInt32 = nodeIdx ∧ row.idx.toUInt32 = mcpId) ∧
    w.hosts mcpId = some host

section

variable (C : Creatables κ) (S : Children σ) (db : DescriptorDb) (clock : List UInt8 → Clock)
  (texts : Texts)

/-- A node of a host that the daemon takes for the row and with the fields of another one. -/
structure Writes (node sdlNode : NodeData) : Prop where
  statement : ∀ time, updateSql texts time sdlNode = updateSql texts time node
  saves : ∀ time w dup,
    Saves texts time w node (vaultUpdateNode C S db clock texts time w dup sdlNode true)

/-- What comes of a request to save a node. -/
structure Right (time : Int32) (w : World κ σ) (node : NodeData)
    (result : Option (World κ σ × NetResultCode)) : Prop where
  /-- The host merges the blob, and what it sends to the daemon is for the node, with its local
  state. -/
  merged : ∀ vaultState, parse C S db clock (node.value .blob_1) = .ok (some vaultState) →
    (∃ mcpId host, w.Runs node.nodeIdx mcpId host) →
      ∃ mcpId host host' sdlNode, w.Runs node.nodeIdx mcpId host ∧
        mergeVault host vaultState = .ok host' ∧
        result = some ({ w with
          hosts := Function.update w.hosts mcpId (some host')
          channel := w.channel ++ [sdlNode] }, .success) ∧
        sdlNode.has .blob_1 = true ∧
        Writes C S db clock texts (node.assign .blob_1 (State.toBlob C S host'.localState)) sdlNode
  /-- A blob that has no state is merged by nobody: the request is refused, and nothing is
  written past the host. -/
  unmerged : (∀ vaultState, parse C S db clock (node.value .blob_1) ≠ .ok (some vaultState)) →
    (∃ mcpId host, w.Runs node.nodeIdx mcpId host) → result = some (w, .internalError)
  /-- Where no host has the node its row is updated. -/
  saved : (¬∃ mcpId host, w.Runs node.nodeIdx mcpId host) → Saves texts time w node result

/-- The host whose server the query returns first. -/
def World.Reached (w : World κ σ) (nodeIdx : UInt32) (host : Host κ σ) : Prop :=
  ∃ mcpId, w.serverOf nodeIdx = some (some mcpId) ∧ w.hosts mcpId = some host

/-- The node data say that it is a SDL node; without a type the stack says it. -/
def SaidSdl (memory : Memory) (bytes : List UInt8) : Prop :=
  if hasIn bytes .nodeType then typeIn bytes = e_NodeSDL
  else memory.stack .nodeType = e_NodeSDL.toUInt32

/-- The node data have an index, or the stack of the copy has that of the node. -/
def SaidIdx (dup : Memory) (nodeIdx : UInt32) (bytes : List UInt8) : Prop :=
  hasIn bytes .nodeIdx = true ∨ dup.stack .nodeIdx = nodeIdx

/-- The request reaches a host. -/
def Forwarded (w : World κ σ) (memory : Memory) (bytes : List UInt8) (nodeIdx : UInt32) : Prop :=
  SaidSdl memory bytes ∧ ∃ host, w.Reached nodeIdx host

/-- **When a request is handled right.**  With a state come the type of the node and an index, and
the host that is reached can merge it.  A blob without one reaches a host, unless the database
takes the fields from nobody; and what ends the process reaches none. -/
def Meets (time : Int32) (w : World κ σ) (memory dup : Memory) (bytes : List UInt8)
    (node : NodeData) : Prop :=
  (∃ mcpId host, w.Runs node.nodeIdx mcpId host) →
    match parse C S db clock (node.value .blob_1) with
    | .ok (some _) => SaidSdl memory bytes ∧ SaidIdx dup node.nodeIdx bytes ∧
        ∃ host, w.Reached node.nodeIdx host ∧ HookSafe host
    | .error .crash => ¬Forwarded w memory bytes node.nodeIdx ∧ ¬Accepted texts time node
    | _ => Forwarded w memory bytes node.nodeIdx ∨ ¬Accepted texts time node

end

/-! ## The statement -/

theorem cstr_cstr (text : String) : cstr (cstr text) = cstr text := by
  rw [cstr, cstr, String.toList_ofList, List.takeWhile_idem]

theorem text_cutValue (texts : Texts) (k : Kind) (v : k.Value) :
    cstr (k.text texts (cutValue k v)) = cstr (k.text texts v) := by
  cases k with
  | string => exact cstr_cstr v
  | _ => rfl

theorem noNul_cutValue (k : Kind) (v : k.Value) : k.NoNul (cutValue k v) := by
  cases k with
  | string =>
    show '\x00' ∉ (cstr v).toList
    rw [cstr, String.toList_ofList]
    intro hmem
    have hne := List.mem_takeWhile_imp hmem
    simp at hne
  | _ => trivial

theorem cut_alike (texts : Texts) (node : NodeData) : Vault.StoredAlike texts node (cut node) :=
  ⟨rfl, fun f _ _ => (text_cutValue texts f.kind (node.value f)).symm⟩

theorem cut_noNul (node : NodeData) : (cut node).NoNul := fun f _ => noNul_cutValue f.kind (node.value f)

section

variable {texts : Texts} (htexts : texts.Faithful)

theorem updateNode_congr {n m : NodeData} {time : Int32}
    (h : updateSql texts time n = updateSql texts time m) (t : NodesTable) :
    updateNode texts time n t = updateNode texts time m t := by
  rw [updateNode, updateNode, h]

include htexts

/-- The database takes what it accepts. -/
theorem updateNode_fst (time : Int32) (node : NodeData) (t : NodesTable) :
    (updateNode texts time node t).1 = true ↔ Accepted texts time node := by
  constructor
  · intro h
    obtain ⟨values, hkeep, hsmall, -⟩ := Vault.updateNode_eq htexts (Prod.ext h rfl)
    exact ⟨hsmall, Option.isSome_iff_exists.2 ⟨values, hkeep⟩⟩
  · rintro ⟨hsmall, hkeep⟩
    obtain ⟨values, hkeep⟩ := Option.isSome_iff_exists.1 hkeep
    obtain ⟨hparms, hsets⟩ := Vault.updateSql_assigns texts time node
    have hassign := Lib.Table.assignments_numbered texts.input nodesTable
      [cstr (fromUint (node.value .nodeIdx).toNat)] (Vault.nodup_updatePairs texts time node)
    rw [List.length_singleton] at hassign
    have hidx : texts.input .integer (cstr (fromUint (node.value .nodeIdx).toNat)) = _ :=
      Vault.input_idx htexts hsmall
    have hrows : ∃ t', Vault.updateRows texts (updateSql texts time node) t = some t' := by
      rw [Vault.updateRows, hparms, hsets, hassign, hkeep]
      show ∃ t', (texts.input .integer _).bind _ = some t'
      rw [List.singleton_append, List.headD_cons, hidx]
      exact ⟨_, rfl⟩
    obtain ⟨t', hrows⟩ := hrows
    rw [updateNode, hrows]

/-- **What the statement of a node stores.** -/
theorem updateNode_stores (time : Int32) (node : NodeData) (t : NodesTable) :
    Stores texts time node t (updateNode texts time node t) where
  taken := updateNode_fst htexts time node t
  refused h := by
    rw [updateNode] at h ⊢
    split at h
    · cases h
    · rfl
  others := by
    cases h : updateNode texts time node t with
    | mk ok t' =>
      cases ok with
      | false =>
        rw [updateNode] at h
        split at h
        · cases h
        · cases h
          exact List.forall₂_same.2 fun row _ _ => rfl
      | true =>
        obtain ⟨values, -, -, hrows⟩ := Vault.updateNode_eq htexts h
        rw [OtherRows, hrows, List.forall₂_map_right_iff]
        exact List.forall₂_same.2 fun row _ hne => if_neg hne
  stored h hhas before hbefore := by
    have hcut : updateSql texts time node = updateSql texts time (cut node) :=
      Vault.updateSql_congr (cut_alike texts node) rfl
    have hupdate : updateNode texts time (cut node) t = (true, (updateNode texts time node t).2) := by
      rw [← updateNode_congr hcut t]
      exact Prod.ext h rfl
    exact Vault.updateNode_fetch htexts (cut_noNul node) hupdate hhas hbefore

theorem saveNode_saves (time : Int32) (w : World κ σ) (node : NodeData) :
    Saves texts time w node (some (saveNode texts time w node)) :=
  ⟨_, rfl, updateNode_stores htexts time node w.nodes⟩

/-- A node that the database does not take changes nothing, and one that it takes is answered with
success. -/
theorem saveNode_refused_iff (time : Int32) (w : World κ σ) (node : NodeData) :
    saveNode texts time w node = (w, .internalError) ↔ ¬Accepted texts time node := by
  have hstores := updateNode_stores htexts time node w.nodes
  rw [saveNode, ← hstores.taken]
  cases hdone : (updateNode texts time node w.nodes).1 with
  | true => exact iff_of_false (fun h => by cases (Prod.mk.inj h).2) (fun h => h rfl)
  | false =>
    rw [hstores.refused hdone]
    exact iff_of_true rfl Bool.false_ne_true

end

/-! ## The two ways of a message -/

section

variable {C : Creatables κ} {S : Children σ} {db : DescriptorDb} {clock : List UInt8 → Clock}
  {texts : Texts} {time : Int32} {w : World κ σ} {dup node : NodeData} {nodeIdx mcpId : UInt32}
  {host : Host κ σ}

theorem runs_of_reached (hserver : w.serverOf nodeIdx = some (some mcpId))
    (hhost : w.hosts mcpId = some host) : w.Runs nodeIdx mcpId host := by
  obtain ⟨idx, hidx, hfind⟩ := Option.map_eq_some_iff.1 hserver
  obtain ⟨row, hrow, rfl⟩ := Option.map_eq_some_iff.1 hfind
  refine ⟨⟨row, List.mem_of_find?_eq_some hrow, ?_, rfl⟩, hhost⟩
  have hsome := List.find?_some hrow
  have hsdl : row.sdlIdx = idx := of_decide_eq_true hsome
  rw [hsdl, ← (Db.integer_eq_some.1 hidx).2]

theorem vaultUpdateNode_untyped (h : node.nodeType ≠ e_NodeSDL) :
    vaultUpdateNode C S db clock texts time w dup node false = some (saveNode texts time w node) :=
  if_neg fun hboth => h hboth.2

/-- What a host sends is saved. -/
theorem vaultUpdateNode_internal (time : Int32) (w : World κ σ) (dup node : NodeData) :
    vaultUpdateNode C S db clock texts time w dup node true = some (saveNode texts time w node) :=
  if_neg (by simp)

theorem writes_of_statement (htexts : texts.Faithful) {node sdlNode : NodeData}
    (h : ∀ time, updateSql texts time sdlNode = updateSql texts time node) :
    Writes C S db clock texts node sdlNode where
  statement := h
  saves time w dup := by
    rw [vaultUpdateNode_internal, saveNode, updateNode_congr (h time)]
    exact saveNode_saves htexts time w node

/-- A node that no host has. -/
theorem vaultUpdateNode_unreached (htexts : texts.Faithful)
    (h : ¬∃ host, w.Reached node.nodeIdx host) :
    vaultUpdateNode C S db clock texts time w dup node false = some (saveNode texts time w node) := by
  by_cases htype : node.nodeType = e_NodeSDL
  · rw [vaultUpdateNode, if_pos ⟨rfl, htype⟩]
    cases hserver : w.serverOf node.nodeIdx with
    | none =>
      -- The query fails for the same reason as the update.
      have hlarge : ¬node.nodeIdx.toNat < 2 ^ 31 := by
        intro hsmall
        rw [World.serverOf, Db.integer, if_pos hsmall] at hserver
        cases hserver
      have hstores := updateNode_stores htexts time node w.nodes
      have hfails : (updateNode texts time node w.nodes).1 = false :=
        Bool.eq_false_iff.2 fun hdone => hlarge (hstores.taken.1 hdone).1
      rw [saveNode, hstores.refused hfails, hfails]
      rfl
    | some server =>
      obtain _ | ageMcpId := server
      · rfl
      · have hnone : w.hosts ageMcpId = none := by
          cases hhost : w.hosts ageMcpId with
          | none => rfl
          | some host => exact absurd ⟨host, ageMcpId, hserver, hhost⟩ h
        dsimp only
        rw [updateVaultSDL, hnone]
        rfl
  · exact vaultUpdateNode_untyped htype

/-- A SDL node that a host has. -/
theorem vaultUpdateNode_reached (htype : node.nodeType = e_NodeSDL)
    (hserver : w.serverOf node.nodeIdx = some (some mcpId)) (hhost : w.hosts mcpId = some host) :
    vaultUpdateNode C S db clock texts time w dup node false =
      match dmLocalSdlUpdate C S db clock host (node.copy dup) with
      | none => none
      | some none => some (w, .internalError)
      | some (some (host, sdlNode)) =>
        some ({ w with
          hosts := Function.update w.hosts mcpId (some host)
          channel := w.channel ++ [sdlNode] }, .success) := by
  rw [vaultUpdateNode, if_pos ⟨rfl, htype⟩, hserver]
  dsimp only
  rw [updateVaultSDL, hhost]
  dsimp only
  cases dmLocalSdlUpdate C S db clock host (node.copy dup) with
  | none => rfl
  | some answer =>
    obtain _ | ⟨host', sdlNode⟩ := answer
    · exact if_pos (by decide)
    · exact if_pos (by decide)

/-! ## What is received -/

variable {fromUtf16 : List UInt16 → String} {memory dupMemory : Memory} {bytes : List UInt8}

theorem cbNodeUpdate_eq_some (h : cbNodeUpdate fromUtf16 memory nodeIdx bytes = some node) :
    ∃ received, receiveNode fromUtf16 memory bytes = some received ∧
      received.assignIdx nodeIdx = node :=
  Option.map_eq_some_iff.1 h

theorem cbNodeUpdate_has (h : cbNodeUpdate fromUtf16 memory nodeIdx bytes = some node) :
    node.has = hasIn bytes := by
  obtain ⟨received, hreceived, rfl⟩ := cbNodeUpdate_eq_some h
  exact (Vault.receiveNode_eq_some hreceived).1

theorem cbNodeUpdate_idx (h : cbNodeUpdate fromUtf16 memory nodeIdx bytes = some node) :
    node.nodeIdx = nodeIdx := by
  obtain ⟨received, -, rfl⟩ := cbNodeUpdate_eq_some h
  exact received.nodeIdx_assignIdx nodeIdx

/-- The type of a node is in its data, or on the stack. -/
theorem saidSdl_iff (h : cbNodeUpdate fromUtf16 memory nodeIdx bytes = some node) :
    node.nodeType = e_NodeSDL ↔ SaidSdl memory bytes := by
  obtain ⟨received, hreceived, rfl⟩ := cbNodeUpdate_eq_some h
  rw [received.nodeType_assignIdx, SaidSdl]
  cases htype : hasIn bytes .nodeType with
  | true => rw [if_pos rfl, Vault.receiveNode_type hreceived htype]
  | false =>
    rw [if_neg (by decide), Vault.receiveNode_untyped hreceived htype]
    constructor
    · intro hsdl
      rw [← hsdl, UInt32.toUInt32_toInt32]
    · intro hsdl
      rw [hsdl, Int32.toInt32_toUInt32]

/-- A request that reaches no host is saved. -/
theorem vaultUpdateNode_saved (htexts : texts.Faithful)
    (h : cbNodeUpdate fromUtf16 memory nodeIdx bytes = some node)
    (hnot : ¬Forwarded w memory bytes node.nodeIdx) :
    vaultUpdateNode C S db clock texts time w dup node false = some (saveNode texts time w node) := by
  by_cases hsdl : node.nodeType = e_NodeSDL
  · exact vaultUpdateNode_unreached htexts fun hreached => hnot ⟨(saidSdl_iff h).1 hsdl, hreached⟩
  · exact vaultUpdateNode_untyped hsdl

/-- The host gets the blob. -/
theorem blob_copy (h : cbNodeUpdate fromUtf16 memory nodeIdx bytes = some node) :
    (node.copy dupMemory.node).value .blob_1 = node.value .blob_1 := by
  cases hhas : node.has .blob_1 with
  | true => exact NodeData.value_copy hhas
  | false =>
    obtain ⟨received, hreceived, rfl⟩ := cbNodeUpdate_eq_some h
    have hlacks : hasIn bytes .blob_1 = false := by
      rw [← (Vault.receiveNode_eq_some hreceived).1]
      exact hhas
    rw [NodeData.value_copy_of_not hhas, received.value_assignIdx_of_ne nodeIdx (by decide),
      ((Vault.receiveNode_eq_some hreceived).2 .blob_1).2 hlacks]
    rfl

/-- A node without a blob has no state. -/
theorem has_blob (h : cbNodeUpdate fromUtf16 memory nodeIdx bytes = some node)
    {vaultState : State κ σ} (hparse : parse C S db clock (node.value .blob_1) = .ok (some vaultState)) :
    node.has .blob_1 = true := by
  by_contra hhas
  obtain ⟨received, hreceived, rfl⟩ := cbNodeUpdate_eq_some h
  have hlacks : hasIn bytes .blob_1 = false := by
    rw [← (Vault.receiveNode_eq_some hreceived).1]
    exact Bool.eq_false_iff.2 hhas
  have hblob : (received.assignIdx nodeIdx).value .blob_1 = [] := by
    rw [received.value_assignIdx_of_ne nodeIdx (by decide),
      ((Vault.receiveNode_eq_some hreceived).2 .blob_1).2 hlacks]
    rfl
  rw [hblob] at hparse
  cases hparse

/-- The index of the copy is that of the node, or what the stack held. -/
theorem saidIdx_iff (h : cbNodeUpdate fromUtf16 memory nodeIdx bytes = some node) :
    (node.copy dupMemory.node).nodeIdx = node.nodeIdx ↔ SaidIdx dupMemory node.nodeIdx bytes := by
  have hhas := cbNodeUpdate_has h
  rw [SaidIdx, ← hhas]
  cases hidx : node.has .nodeIdx with
  | true =>
    have hcopy : (node.copy dupMemory.node).nodeIdx = node.nodeIdx := NodeData.value_copy hidx
    rw [hcopy]
    simp
  | false =>
    have hcopy : (node.copy dupMemory.node).nodeIdx = dupMemory.stack .nodeIdx :=
      NodeData.value_copy_of_not hidx
    rw [hcopy]
    simp

/-! ## The statement of the node that the host sends -/

theorem cstr_fromUint_inj {m n : Nat} (h : cstr (fromUint m) = cstr (fromUint n)) : m = n := by
  rw [cstr_of_not_mem (Vault.nul_not_mem_fromUint m),
    cstr_of_not_mem (Vault.nul_not_mem_fromUint n)] at h
  have hparse := parseNumber_fromUint m
  rw [h, parseNumber_fromUint] at hparse
  exact (Prod.mk.inj hparse).2.symm

theorem nodeIdx_assign_blob (node : NodeData) (blob : Field.blob_1.Value) :
    (node.assign .blob_1 blob).nodeIdx = node.nodeIdx :=
  node.value_assign_of_ne (g := .nodeIdx) (by decide) blob

/-- It is for the row of the node, and no other. -/
theorem saidIdx_of_statement {blob blob' : Field.blob_1.Value}
    (h : cbNodeUpdate fromUtf16 memory nodeIdx bytes = some node)
    (hstatement : updateSql texts time ((node.copy dupMemory.node).assign .blob_1 blob) =
      updateSql texts time (node.assign .blob_1 blob')) : SaidIdx dupMemory node.nodeIdx bytes := by
  have hhas : ((node.copy dupMemory.node).assign .blob_1 blob).has =
      (node.assign .blob_1 blob').has := by
    rw [NodeData.has_assign, NodeData.has_assign, NodeData.has_copy]
  have hidx := UInt32.toNat_inj.1 (cstr_fromUint_inj (Vault.updateSql_inj hhas hstatement).2)
  rw [nodeIdx_assign_blob, nodeIdx_assign_blob] at hidx
  exact (saidIdx_iff h).1 hidx

theorem statement_of_saidIdx {blob : Field.blob_1.Value}
    (h : cbNodeUpdate fromUtf16 memory nodeIdx bytes = some node)
    (hidx : SaidIdx dupMemory node.nodeIdx bytes) (time : Int32) :
    updateSql texts time ((node.copy dupMemory.node).assign .blob_1 blob) =
      updateSql texts time (node.assign .blob_1 blob) := by
  have halike : Vault.StoredAlike texts (node.copy dupMemory.node) node := by
    refine ⟨node.has_copy _, fun f hf _ => ?_⟩
    have hcopy : (node.copy dupMemory.node).value f = node.value f :=
      NodeData.value_copy ((congrFun (node.has_copy _) f).symm.trans hf)
    rw [hcopy]
  refine Vault.updateSql_congr (halike.assign_same .blob_1 blob) ?_
  rw [nodeIdx_assign_blob, nodeIdx_assign_blob]
  exact (saidIdx_iff h).2 hidx

/-! ## Where it goes -/

/-- A hook that merges has a global state to merge. -/
theorem safe_of_mergeVault {host' : Host κ σ} {vaultState : State κ σ}
    (h : mergeVault host vaultState = .ok host') : HookSafe host := by
  obtain ⟨hook, hhook, h⟩ := Lib.bind_eq_ok.1 h
  obtain ⟨hook', hglobal, -⟩ := Lib.bind_eq_ok.1 h
  by_contra hunsafe
  rw [HookSafe, not_or, not_ne_iff] at hunsafe
  obtain ⟨hstate, hnone⟩ := hunsafe
  obtain ⟨hook₁, hmerge, hiff⟩ :=
    AgeSdl.Hook.merge_of_total host.ageSdlHook (.inr (Option.some_ne_none vaultState))
  obtain rfl := Except.ok.inj (hhook.symm.trans hmerge)
  obtain ⟨state, hsome⟩ := Option.ne_none_iff_exists'.1 (mt hiff.1 hstate)
  rw [AgeSdl.Hook.mergeGlobal, hnone, hsome] at hglobal
  cases hglobal

/-- A node that is saved is sent to nobody. -/
theorem saveNode_ne {w' : World κ σ} {sdlNode : NodeData} {code : NetResultCode}
    (hchannel : w'.channel = w.channel ++ [sdlNode]) :
    some (saveNode texts time w node) ≠ some (w', code) := by
  intro h
  have hsame : w.channel = w'.channel := congrArg (fun r => r.1.channel) (Option.some.inj h)
  rw [hchannel] at hsame
  have hlen := congrArg List.length hsame
  rw [List.length_append, List.length_singleton] at hlen
  omega

theorem dmLocalSdlUpdate_eq {vaultState : State κ σ}
    (hparse : parse C S db clock (node.value .blob_1) = .ok (some vaultState)) :
    dmLocalSdlUpdate C S db clock host node =
      match mergeVault host vaultState with
      | .error _ => none
      | .ok host => some (some (host, node.assign .blob_1 (State.toBlob C S host.localState))) := by
  rw [dmLocalSdlUpdate, hparse]

theorem dmLocalSdlUpdate_refused
    (hcrash : parse C S db clock (node.value .blob_1) ≠ .error .crash)
    (hparse : ∀ vaultState, parse C S db clock (node.value .blob_1) ≠ .ok (some vaultState)) :
    dmLocalSdlUpdate C S db clock host node = some none := by
  rw [dmLocalSdlUpdate]
  split
  · exact absurd ‹_› hcrash
  · rfl
  · rfl
  · exact absurd ‹_› (hparse _)

section

variable (htexts : texts.Faithful) (h : cbNodeUpdate fromUtf16 memory nodeIdx bytes = some node)

include htexts h

/-- What comes of a blob without a state that the process survives. -/
theorem unmerged_iff
    (hcrash : parse C S db clock (node.value .blob_1) ≠ .error .crash)
    (hparse : ∀ vaultState, parse C S db clock (node.value .blob_1) ≠ .ok (some vaultState)) :
    vaultUpdateNode C S db clock texts time w dupMemory.node node false = some (w, .internalError) ↔
      Forwarded w memory bytes node.nodeIdx ∨ ¬Accepted texts time node := by
  have hblob : (node.copy dupMemory.node).value .blob_1 = node.value .blob_1 := blob_copy h
  by_cases hforwarded : Forwarded w memory bytes node.nodeIdx
  · obtain ⟨hsdl, host, mcpId, hserver, hhost⟩ := id hforwarded
    rw [vaultUpdateNode_reached ((saidSdl_iff h).2 hsdl) hserver hhost,
      dmLocalSdlUpdate_refused (hblob ▸ hcrash) (hblob ▸ hparse)]
    exact iff_of_true rfl (.inl hforwarded)
  · rw [vaultUpdateNode_saved htexts h hforwarded, Option.some.injEq, saveNode_refused_iff htexts,
      or_iff_right hforwarded]

/-- What comes of a blob that ends the process of a host. -/
theorem crashing_iff (hcrash : parse C S db clock (node.value .blob_1) = .error .crash) :
    vaultUpdateNode C S db clock texts time w dupMemory.node node false = some (w, .internalError) ↔
      ¬Forwarded w memory bytes node.nodeIdx ∧ ¬Accepted texts time node := by
  have hblob : (node.copy dupMemory.node).value .blob_1 = node.value .blob_1 := blob_copy h
  by_cases hforwarded : Forwarded w memory bytes node.nodeIdx
  · obtain ⟨hsdl, host, mcpId, hserver, hhost⟩ := id hforwarded
    have hnone : dmLocalSdlUpdate C S db clock host (node.copy dupMemory.node) = none := by
      rw [dmLocalSdlUpdate, hblob, hcrash]
    rw [vaultUpdateNode_reached ((saidSdl_iff h).2 hsdl) hserver hhost, hnone]
    exact iff_of_false (fun hsome => by cases hsome) fun hboth => hboth.1 hforwarded
  · rw [vaultUpdateNode_saved htexts h hforwarded, Option.some.injEq, saveNode_refused_iff htexts,
      and_iff_right hforwarded]

theorem meets_of_right
    (hright : Right C S db clock texts time w node
      (vaultUpdateNode C S db clock texts time w dupMemory.node node false)) :
    Meets C S db clock texts time w memory dupMemory bytes node := by
  intro hruns
  have hblob : (node.copy dupMemory.node).value .blob_1 = node.value .blob_1 := blob_copy h
  cases hparse : parse C S db clock (node.value .blob_1) with
  | error e =>
    have hrefused := hright.unmerged (by simp [hparse]) hruns
    cases e with
    | crash => exact (crashing_iff htexts h hparse).1 hrefused
    | _ => exact (unmerged_iff htexts h (by simp [hparse]) (by simp [hparse])).1 hrefused
  | ok state =>
    obtain _ | vaultState := state
    · have hrefused := hright.unmerged (by simp [hparse]) hruns
      exact (unmerged_iff htexts h (by simp [hparse]) (by simp [hparse])).1 hrefused
    · obtain ⟨mcpId', host', merged', sdlNode, -, -, hresult, -, hwrites⟩ :=
        hright.merged vaultState hparse hruns
      have hforwarded : Forwarded w memory bytes node.nodeIdx := by
        by_contra hnot
        rw [vaultUpdateNode_saved htexts h hnot] at hresult
        exact saveNode_ne rfl hresult
      obtain ⟨hsdl, host, mcpId, hserver, hhost⟩ := hforwarded
      rw [vaultUpdateNode_reached ((saidSdl_iff h).2 hsdl) hserver hhost,
        dmLocalSdlUpdate_eq (hblob ▸ hparse)] at hresult
      cases hmerge : mergeVault host vaultState with
      | error e =>
        rw [hmerge] at hresult
        cases hresult
      | ok merged =>
        rw [hmerge] at hresult
        have hsame : w.channel ++ [_] = w.channel ++ [sdlNode] :=
          congrArg (fun r : World κ σ × NetResultCode => r.1.channel) (Option.some.inj hresult)
        obtain rfl := List.singleton_inj.1 (List.append_cancel_left hsame)
        exact ⟨hsdl, saidIdx_of_statement h (hwrites.statement 0), host,
          ⟨mcpId, hserver, hhost⟩, safe_of_mergeVault hmerge⟩

theorem right_of_meets (hmeets : Meets C S db clock texts time w memory dupMemory bytes node) :
    Right C S db clock texts time w node
      (vaultUpdateNode C S db clock texts time w dupMemory.node node false) := by
  have hblob : (node.copy dupMemory.node).value .blob_1 = node.value .blob_1 := blob_copy h
  refine ⟨fun vaultState hparse hruns => ?_, fun hparse hruns => ?_, fun hruns => ?_⟩
  · have hmeets := hmeets hruns
    rw [hparse] at hmeets
    obtain ⟨hsdl, hidx, host, ⟨mcpId, hserver, hhost⟩, hsafe⟩ := hmeets
    obtain ⟨merged, hmerge, -⟩ := AgeSdl.mergeVault_of_safe hsafe vaultState
    refine ⟨mcpId, host, merged,
      (node.copy dupMemory.node).assign .blob_1 (State.toBlob C S merged.localState),
      runs_of_reached hserver hhost, hmerge, ?_, ?_, ?_⟩
    · rw [vaultUpdateNode_reached ((saidSdl_iff h).2 hsdl) hserver hhost,
        dmLocalSdlUpdate_eq (hblob ▸ hparse), hmerge]
    · have hhas : node.has .blob_1 = true := has_blob h hparse
      exact hhas
    · exact writes_of_statement htexts (statement_of_saidIdx h hidx)
  · have hmeets := hmeets hruns
    by_cases hcrash : parse C S db clock (node.value .blob_1) = .error .crash
    · rw [hcrash] at hmeets
      exact (crashing_iff htexts h hcrash).2 hmeets
    · refine (unmerged_iff htexts h hcrash hparse).2 ?_
      split at hmeets
      · exact absurd ‹_› (hparse _)
      · exact absurd ‹_› hcrash
      · exact hmeets
  · have hforwarded : ¬Forwarded w memory bytes node.nodeIdx := by
      rintro ⟨-, host, mcpId, hserver, hhost⟩
      exact hruns ⟨mcpId, host, runs_of_reached hserver hhost⟩
    rw [vaultUpdateNode_saved htexts h hforwarded]
    exact saveNode_saves htexts time w node

/-- **What comes of a request to save a node is right, exactly if** a blob with a state that is for
the node of a running host comes with the type of the node and with an index, or the stack had
them, and the host that the query returns first is one that can merge it; and if a blob without a
state reaches a host that refuses it, or the database refuses its fields. -/
theorem saves_iff : Right C S db clock texts time w node
      (vaultUpdateNode C S db clock texts time w dupMemory.node node false) ↔
    Meets C S db clock texts time w memory dupMemory bytes node :=
  ⟨meets_of_right htexts h, right_of_meets htexts h⟩

end

end

/-! ## The door -/

section

open AgeSdl (Door doorDb doorBlob globalDoor start)
open Vault (plainTexts faithful_plainTexts decodeUtf16 createNode)

/-- The host of an age with a door. -/
def doorHost : Option (Host Empty (Child Empty 0)) :=
  (start State.noCreatables (children State.noCreatables doorDb 0) doorDb (fun _ _ => {}) "Door"
    (doorBlob 2 5) (globalDoor 7)).toOption

/-- What a client saves of it. -/
def doorNode : NodeData :=
  ((NodeData.blank.set .nodeIdx (10001 : UInt32)).set .nodeType e_NodeSDL).set .blob_1 (doorBlob 2 9)

/-- The same without an index. -/
def doorNodeUnindexed : NodeData :=
  (NodeData.blank.set .nodeType e_NodeSDL).set .blob_1 (doorBlob 2 9)

/-- The same without a type. -/
def doorNodeUntyped : NodeData :=
  (NodeData.blank.set .nodeIdx (10001 : UInt32)).set .blob_1 (doorBlob 2 9)

/-- Of the SDL node, with a blob that nothing is read from. -/
def doorNodeGarbled : NodeData :=
  ((NodeData.blank.set .nodeIdx (10001 : UInt32)).set .nodeType e_NodeSDL).set .blob_1 [1, 2, 3]

/-- The same without a type. -/
def doorNodeGarbledUntyped : NodeData :=
  (NodeData.blank.set .nodeIdx (10001 : UInt32)).set .blob_1 [1, 2, 3]

def doorWorld : World Empty (Child Empty 0) where
  nodes := (createNode plainTexts 1000 doorNode ⟨[], 10001⟩).2
  servers := [⟨1, .null, "Door", "Door", 10000, 10001, false⟩]
  hosts := Function.update (fun _ => none) 1 doorHost

/-- What is received of a node. -/
def doorReceived (node : NodeData) : Option NodeData :=
  cbNodeUpdate decodeUtf16 (.full 0) 10001 node.write

/-- What comes of it. -/
def DoorRight (node : NodeData) : Prop :=
  Right State.noCreatables (children State.noCreatables doorDb 0) doorDb (fun _ _ => {}) plainTexts
    2000 doorWorld node (vaultUpdateNode State.noCreatables (children State.noCreatables doorDb 0)
      doorDb (fun _ _ => {}) plainTexts 2000 doorWorld (Memory.full 0).node node false)

theorem doorHost_safe : ∃ host, doorHost = some host ∧ HookSafe host := by
  have hglobal : doorHost.map (fun host => host.globalState.isSome) = some true := by decide +kernel
  obtain ⟨host, hhost, hsome⟩ := Option.map_eq_some_iff.1 hglobal
  exact ⟨host, hhost, .inr (Option.isSome_iff_ne_none.1 hsome)⟩

theorem doorBlob_parses : ∃ vaultState, parse State.noCreatables (children State.noCreatables doorDb 0)
    doorDb (fun _ _ => {}) (doorBlob 2 9) = .ok (some vaultState) := by
  have hparses : (globalDoor 9).isSome = true := by decide +kernel
  unfold globalDoor at hparses
  split at hparses
  · obtain ⟨vaultState, rfl⟩ := Option.isSome_iff_exists.1 hparses
    exact ⟨vaultState, ‹_›⟩
  · cases hparses

theorem garbled_unparsed : ∃ e, parse State.noCreatables (children State.noCreatables doorDb 0)
    doorDb (fun _ _ => {}) [1, 2, 3] = .error e ∧ e ≠ .crash := by
  have hfails : (match parse State.noCreatables (children State.noCreatables doorDb 0) doorDb
      (fun _ _ => {}) [1, 2, 3] with
    | .error e => decide (e ≠ .crash)
    | .ok _ => false) = true := by decide
  split at hfails
  · exact ⟨_, ‹_›, of_decide_eq_true hfails⟩
  · cases hfails

theorem doorWorld_hosts : doorWorld.hosts 1 = doorHost := by
  unfold doorWorld
  dsimp only
  rw [Function.update_self]

/-- A node with the index of the door is received as it is. -/
theorem doorReceived_spec {bytes : NodeData} {blob : List UInt8}
    (h : (doorReceived bytes).map (fun node => (node.nodeIdx, (node.value .blob_1 : List UInt8))) =
      some (10001, blob)) :
    ∃ node, doorReceived bytes = some node ∧ node.value .blob_1 = blob ∧
      ∃ mcpId host, doorWorld.serverOf node.nodeIdx = some (some mcpId) ∧
        doorWorld.hosts mcpId = some host ∧ HookSafe host := by
  obtain ⟨node, hnode, hpair⟩ := Option.map_eq_some_iff.1 h
  obtain ⟨hidx, hblob⟩ := Prod.mk.inj hpair
  obtain ⟨host, hhost, hsafe⟩ := doorHost_safe
  have hserver : doorWorld.serverOf 10001 = some (some 1) := by decide
  refine ⟨node, hnode, hblob, 1, host, ?_, ?_, hsafe⟩
  · rw [hidx]
    exact hserver
  · rw [doorWorld_hosts, hhost]

/-- The host gets the state of a node that says what it is, and refuses what is no state. -/
theorem saves_iff_door : (∃ node, doorReceived doorNode = some node ∧ DoorRight node) ∧
    ∃ node, doorReceived doorNodeGarbled = some node ∧ DoorRight node := by
  constructor
  · obtain ⟨node, hnode, hblob, mcpId, host, hserver, hhost, hsafe⟩ := doorReceived_spec
      (show (doorReceived doorNode).map _ = some (10001, doorBlob 2 9) by decide)
    obtain ⟨vaultState, hparse⟩ := doorBlob_parses
    refine ⟨node, hnode, (saves_iff faithful_plainTexts hnode).2 fun _ => ?_⟩
    rw [hblob, hparse]
    refine ⟨?_, .inl (by decide), host, ⟨mcpId, hserver, hhost⟩, hsafe⟩
    unfold SaidSdl
    decide
  · obtain ⟨node, hnode, hblob, mcpId, host, hserver, hhost, -⟩ := doorReceived_spec
      (show (doorReceived doorNodeGarbled).map _ = some (10001, [1, 2, 3]) by decide)
    obtain ⟨e, hparse, hcrash⟩ := garbled_unparsed
    have hforwarded : Forwarded doorWorld (.full 0) doorNodeGarbled.write node.nodeIdx := by
      refine ⟨?_, host, mcpId, hserver, hhost⟩
      unfold SaidSdl
      decide
    refine ⟨node, hnode, (saves_iff faithful_plainTexts hnode).2 fun _ => ?_⟩
    rw [hblob, hparse]
    cases e with
    | crash => exact absurd rfl hcrash
    | _ => exact .inl hforwarded

/-- **A node that does not say which it is, or of what type.**  The state of the first goes into the
row that the stack says, that of the second past the host, and so does what is no state. -/
theorem saves_unsaid :
    (∃ node, doorReceived doorNodeUnindexed = some node ∧ ¬DoorRight node) ∧
      (∃ node, doorReceived doorNodeUntyped = some node ∧ ¬DoorRight node) ∧
      ∃ node, doorReceived doorNodeGarbledUntyped = some node ∧ ¬DoorRight node := by
  obtain ⟨vaultState, hparse⟩ := doorBlob_parses
  refine ⟨?_, ?_, ?_⟩
  · obtain ⟨node, hnode, hblob, mcpId, host, hserver, hhost, -⟩ := doorReceived_spec
      (show (doorReceived doorNodeUnindexed).map _ = some (10001, doorBlob 2 9) by decide)
    refine ⟨node, hnode, fun hright => ?_⟩
    have hmeets := meets_of_right faithful_plainTexts hnode hright
      ⟨mcpId, host, runs_of_reached hserver hhost⟩
    rw [hblob, hparse] at hmeets
    obtain ⟨-, hidx, -⟩ := hmeets
    obtain hhas | hstack := hidx
    · revert hhas
      decide
    · rw [cbNodeUpdate_idx hnode] at hstack
      exact absurd hstack (by decide)
  · obtain ⟨node, hnode, hblob, mcpId, host, hserver, hhost, -⟩ := doorReceived_spec
      (show (doorReceived doorNodeUntyped).map _ = some (10001, doorBlob 2 9) by decide)
    refine ⟨node, hnode, fun hright => ?_⟩
    have hmeets := meets_of_right faithful_plainTexts hnode hright
      ⟨mcpId, host, runs_of_reached hserver hhost⟩
    rw [hblob, hparse] at hmeets
    obtain ⟨hsdl, -⟩ := hmeets
    unfold SaidSdl at hsdl
    revert hsdl
    decide
  · obtain ⟨node, hnode, hblob, mcpId, host, hserver, hhost, -⟩ := doorReceived_spec
      (show (doorReceived doorNodeGarbledUntyped).map _ = some (10001, [1, 2, 3]) by decide)
    obtain ⟨e, hunparsed, -⟩ := garbled_unparsed
    refine ⟨node, hnode, fun hright => ?_⟩
    have hnot : ¬Forwarded doorWorld (.full 0) doorNodeGarbledUntyped.write node.nodeIdx := by
      rintro ⟨hsdl, -⟩
      unfold SaidSdl at hsdl
      revert hsdl
      decide
    have hrefused := hright.unmerged
      (fun vaultState hstate => by rw [hblob, hunparsed] at hstate; cases hstate)
      ⟨mcpId, host, runs_of_reached hserver hhost⟩
    rw [vaultUpdateNode_saved faithful_plainTexts hnode hnot, Option.some.injEq,
      saveNode_refused_iff faithful_plainTexts] at hrefused
    have htaken : (doorReceived doorNodeGarbledUntyped).map (fun node => decide
        (node.nodeIdx.toNat < 2 ^ 31 ∧ (Lib.Table.keepAll plainTexts.input nodesTable
          (updatePairs plainTexts 2000 node)).isSome = true)) = some true := by decide
    rw [hnode, Option.map_some, Option.some.injEq, decide_eq_true_iff] at htaken
    exact hrefused htaken

end

end Dirtsand.SdlNodes
