import Dirtsand.AuthServ.Creation
import Dirtsand.AuthServ.Numbers

/-!
# The script of a player

What `v_create_player` inserts: the nodes of the player, a Relto, a hood where no other takes
the player, and the references between them.

* `Inserts` — statements that are carried out one after the other.
* `playerInserts` — the inserts of a player, of whom `PlayerShape` says what is found or made on
  the way.
* `acyclic_player` — they close no cycle, and neither does a part of them.
-/

namespace Dirtsand.AuthServ

open Db (Tables RefRow NodeRow Acyclic storedFields)

variable {d d' d₁ : Tables} {q : Statement} {qs qs' : List Statement} {a : QueryOutcome}

/-! ## Inserts -/

/-- The inserts are carried out one after the other.  What fails in between may use up numbers. -/
inductive Inserts : Tables → List Statement → Tables → Prop where
  | done {d d' : Tables} (h : d.SameRows d') : Inserts d [] d'
  | step {d d₁ d₂ d' : Tables} {q : Statement} {a : QueryOutcome} {qs : List Statement}
      (hsame : d.SameRows d₁) (hq : carryOut d₁ q = some (a, d₂)) (hrest : Inserts d₂ qs d') :
      Inserts d (q :: qs) d'

namespace Inserts

theorem sameRows (hsame : d.SameRows d₁) (h : Inserts d₁ qs d') : Inserts d qs d' := by
  cases h with
  | done h => exact .done (hsame.trans h)
  | step h hq hrest => exact .step (hsame.trans h) hq hrest

theorem append (h : Inserts d qs d₁) (h' : Inserts d₁ qs' d') : Inserts d (qs ++ qs') d' := by
  induction h with
  | done hsame => exact h'.sameRows hsame
  | step hsame hq _ ih => exact .step hsame hq (ih h')

theorem single (hq : carryOut d q = some (a, d')) : Inserts d [q] d' :=
  .step (.refl d) hq (.done (.refl d'))

theorem of_effects (h : effects d qs = some d') : Inserts d qs d' := by
  induction qs generalizing d with
  | nil =>
    cases h
    exact .done (.refl _)
  | cons q qs ih =>
    obtain ⟨a, d₁, hq, hrest⟩ := effects_cons_eq_some.1 h
    exact .step (.refl _) hq (ih hrest)

end Inserts

/-- What inserts do to the tables: all rows stay, and the new nodes have new numbers. -/
structure Extended (d d' : Tables) (qs : List Statement) : Prop where
  nodes : ∃ rows, d'.nodes = d.nodes ++ rows ∧ ∀ row ∈ rows, d.nextNode ≤ row.idx.toInt ∧
    ∃ node, .createNode node ∈ qs ∧ storedFields node = some row.node
  refs : d'.refs = d.refs ++ newRefs qs
  servers : d.servers <+: d'.servers
  players : d'.players = d.players
  scores : d'.scores = d.scores
  nextNode : d.nextNode ≤ d'.nextNode

theorem newRefs_append (qs qs' : List Statement) :
    newRefs (qs ++ qs') = newRefs qs ++ newRefs qs' := by
  induction qs with
  | nil => rfl
  | cons q qs ih =>
    cases q with
    | refNode parentIdx childIdx ownerIdx => exact congrArg (List.cons _) ih
    | _ => exact ih

theorem extended_sameRows (h : d.SameRows d') : Extended d d' [] := by
  refine ⟨⟨[], ?_, fun _ hrow => absurd hrow List.not_mem_nil⟩, ?_, ?_, h.players, h.scores,
    h.nextNode⟩
  · rw [h.nodes, List.append_nil]
  · rw [h.refs, newRefs, List.append_nil]
  · rw [h.servers]

theorem extended_single (hinsert : q.IsInsert) (hq : carryOut d q = some (a, d')) :
    Extended d d' [q] := by
  have hsame : ∃ rows, d.nodes = d.nodes ++ rows ∧ ∀ row ∈ rows,
      (d.nextNode : Int) ≤ row.idx.toInt ∧
      ∃ node, .createNode node ∈ [q] ∧ storedFields node = some row.node :=
    ⟨[], (List.append_nil _).symm, fun _ hrow => absurd hrow List.not_mem_nil⟩
  cases q with
  | createNode node =>
    obtain ⟨idx, stored, hidx, hstored, -, rfl⟩ := carryOut_createNode hq
    have hnew : idx.toInt = d.nextNode := Db.inRange_eq_some.1 hidx
    refine ⟨⟨[⟨idx, stored⟩], rfl, fun row hrow => ?_⟩, (List.append_nil _).symm,
      List.prefix_refl _, rfl, rfl, Nat.le_succ _⟩
    rw [List.mem_singleton.1 hrow]
    exact ⟨hnew.ge, node, List.mem_singleton_self _, hstored⟩
  | refNode parentIdx childIdx ownerIdx =>
    obtain ⟨-, -, -, -, rfl⟩ := carryOut_refNode hq
    exact ⟨hsame, rfl, List.prefix_refl _, rfl, rfl, Nat.le_refl _⟩
  | insertServer ageId filename agedesc ageNode ageSdlNode =>
    obtain ⟨-, row, hinserted⟩ := carryOut_insertServer hq
    obtain ⟨-, rfl⟩ := insertServerRow_eq_some hinserted
    exact ⟨hsame, (List.append_nil _).symm, List.prefix_append _ _, rfl, rfl, Nat.le_refl _⟩
  | _ => exact hinsert.elim

theorem Extended.trans (h : Extended d d₁ qs) (h' : Extended d₁ d' qs') :
    Extended d d' (qs ++ qs') := by
  obtain ⟨rows, hnodes, hrows⟩ := h.nodes
  obtain ⟨rows', hnodes', hrows'⟩ := h'.nodes
  have hnext := h.nextNode
  refine ⟨⟨rows ++ rows', ?_, fun row hrow => ?_⟩, ?_, h.servers.trans h'.servers,
    h'.players.trans h.players, h'.scores.trans h.scores, h.nextNode.trans h'.nextNode⟩
  · rw [hnodes', hnodes, List.append_assoc]
  · obtain hrow | hrow := List.mem_append.1 hrow
    · obtain ⟨hidx, node, hnode, hstored⟩ := hrows row hrow
      exact ⟨hidx, node, List.mem_append_left _ hnode, hstored⟩
    · obtain ⟨hidx, node, hnode, hstored⟩ := hrows' row hrow
      exact ⟨by omega, node, List.mem_append_right _ hnode, hstored⟩
  · rw [h'.refs, h.refs, newRefs_append, List.append_assoc]

theorem Inserts.extended (hall : ∀ q ∈ qs, q.IsInsert) (h : Inserts d qs d') :
    Extended d d' qs := by
  induction h with
  | done h => exact extended_sameRows h
  | @step d d₁ d₂ d' q a qs hsame hq _ ih =>
    have hfirst := (extended_sameRows hsame).trans (extended_single (hall q List.mem_cons_self) hq)
    exact hfirst.trans (ih fun q hq => hall q (List.mem_cons_of_mem _ hq))

/-! ## Numbers -/

/-- Every reference of the script is between numbers that are given out when it is made, where
the next number is `n`. -/
def Scoped : Nat → List Statement → Prop
  | _, [] => True
  | n, .createNode _ :: qs => Scoped (n + 1) qs
  | n, .refNode parentIdx childIdx _ :: qs => parentIdx.toNat < n ∧ childIdx.toNat < n ∧ Scoped n qs
  | n, _ :: qs => Scoped n qs

theorem scoped_part {n : Nat} (hpre : qs <+: qs') (h : Scoped n qs') : Scoped n qs := by
  induction qs generalizing n qs' with
  | nil => trivial
  | cons q qs ih =>
    obtain ⟨rest, rfl⟩ := hpre
    have hrest : qs <+: qs ++ rest := List.prefix_append _ _
    cases q with
    | refNode => exact ⟨h.1, h.2.1, ih hrest h.2.2⟩
    | _ => exact ih hrest h

theorem numbered_of_effects (hall : ∀ q ∈ qs, q.IsInsert) (hd : Numbered d)
    (hscoped : Scoped d.nextNode qs) (h : effects d qs = some d') : Numbered d' := by
  induction qs generalizing d with
  | nil =>
    cases h
    exact hd
  | cons q qs ih =>
    obtain ⟨a, d₁, hq, hrest⟩ := effects_cons_eq_some.1 h
    have hall' : ∀ q ∈ qs, q.IsInsert := fun q hq => hall q (List.mem_cons_of_mem _ hq)
    have hinsert := hall q List.mem_cons_self
    cases q with
    | createNode node =>
      refine ih hall' (hd.createNode hq) ?_ hrest
      obtain ⟨_, _, -, -, -, rfl⟩ := carryOut_createNode hq
      exact hscoped
    | refNode =>
      refine ih hall' (hd.refNode hscoped.1 hscoped.2.1 hq) ?_ hrest
      obtain ⟨-, -, -, -, rfl⟩ := carryOut_refNode hq
      exact hscoped.2.2
    | insertServer =>
      have hthin := carryOut_thinned rfl hq
      refine ih hall' (hd.thinned hthin) ?_ hrest
      obtain ⟨-, row, hinserted⟩ := carryOut_insertServer hq
      obtain ⟨-, rfl⟩ := insertServerRow_eq_some hinserted
      exact hscoped
    | _ => exact hinsert.elim

theorem toNat_nodeId_le (n : Nat) : (nodeId n).toNat ≤ n := by
  rw [UInt32.toNat_ofNat']
  exact Nat.mod_le _ _

theorem scoped_ageInserts {ext : External} {systemNode : UInt32} {age : AgeInfo} {seqNumber : Int}
    {flags : UInt32} {n : Nat} (hsystem : systemNode.toNat < n) :
    Scoped n (ageInserts ext systemNode age seqNumber flags n) := by
  have hle (k : Nat) (hk : k < 10) : (nodeId (n + k)).toNat < n + 10 := by
    have := toNat_nodeId_le (n + k)
    omega
  have h₀ : (nodeId n).toNat < n + 10 := hle 0 (by decide)
  have h₄ := hle 4 (by decide)
  refine ⟨h₀, by omega, h₀, hle 1 (by decide), h₀, hle 2 (by decide), h₀, hle 3 (by decide), h₀, h₄,
    h₀, hle 5 (by decide), h₄, hle 6 (by decide), h₄, hle 7 (by decide), h₄, hle 8 (by decide), h₄,
    hle 9 (by decide), trivial⟩

/-! ## Players -/

/-- The Relto of a new player. -/
def reltoAge (player : PlayerInfo) (ageId : Uuid) : AgeInfo :=
  { ageId, filename := "Personal", instName := "Relto", userName := player.playerName ++ "'s"
    description := player.playerName ++ "'s" ++ " " ++ "Relto" }

/-- A hood for visitors. -/
def hoodAge (ext : External) (ageId : Uuid) : AgeInfo :=
  { ageId, filename := "Neighborhood", instName := ext.hoodInstanceName
    userName := ext.hoodUserName
    description := ext.hoodUserName ++ " " ++ ext.hoodInstanceName, seqNumber := -1 }

/-- The nodes of a player, which get the numbers from `n` on. -/
def playerNodes (acctId : Uuid) (player : PlayerInfo) (n : Nat) : List Vault.Node :=
  let folder (type : Vault.NodeType) (folder : Vault.StandardNode) : Vault.Node :=
    { nodeType := some type.toInt, creatorUuid := some acctId, creatorIdx := some (nodeId n)
      int32_1 := some folder.toInt }
  let link (spawnPoint : String) : Vault.Node :=
    { nodeType := some Vault.NodeType.ageLink.toInt, creatorUuid := some acctId
      creatorIdx := some (nodeId n), blob_1 := some spawnPoint.toUTF8.toList }
  [{ nodeType := some Vault.NodeType.player.toInt, creatorUuid := some acctId
     int32_2 := some (toInt32 player.explorer.toNat), uuid_1 := some acctId
     string64_1 := some player.avatarModel, iString64_1 := some player.playerName },
    { nodeType := some Vault.NodeType.playerInfo.toInt, creatorUuid := some acctId
      creatorIdx := some (nodeId n), uint32_1 := some (nodeId n)
      iString64_1 := some player.playerName },
    folder .playerInfoList .buddyListFolder, folder .playerInfoList .ignoreListFolder,
    folder .folder .playerInviteFolder, folder .ageInfoList .agesIOwnFolder,
    folder .folder .ageJournalsFolder, folder .folder .chronicleFolder,
    folder .ageInfoList .agesICanVisitFolder, folder .folder .avatarOutfitFolder,
    folder .folder .avatarClosetFolder, folder .folder .inboxFolder,
    folder .playerInfoList .peopleIKnowAboutFolder, link "Default:LinkInPointDefault:;",
    link "Default:LinkInPointDefault:;", link "Ferry Terminal:LinkInPointFerry:;"]

/-- The hood that takes a new player. -/
inductive Hood where
  /-- One that there is, with the folder of its owners. -/
  | found (info owners : UInt32)
  /-- A new one, whose nodes get the numbers from `first` on. -/
  | made (ageId : Uuid) (seqNumber : Int) (first : Nat)

namespace Hood

def info : Hood → UInt32
  | found info _ => info
  | made _ _ first => nodeId (first + 4)

def owners : Hood → UInt32
  | found _ owners => owners
  | made _ _ first => nodeId (first + 8)

def inserts (ext : External) (systemNode : UInt32) : Hood → List Statement
  | found .. => []
  | made ageId seqNumber first =>
    ageInserts ext systemNode (hoodAge ext ageId) seqNumber agePublic first

/-- What is found was there before the player, who has number `n`; a new hood is behind the
Relto. -/
def Valid (n relto : Nat) : Hood → Prop
  | found info owners => info.toNat < n ∧ owners.toNat < n
  | made _ _ first => relto + 10 ≤ first ∧ first < 2 ^ 31

end Hood

/-- What is found or made while a player is. -/
structure PlayerShape where
  reltoId : Uuid
  reltoSeq : Int
  /-- The number of the first node of the Relto. -/
  relto : Nat
  hood : Hood
  city : UInt32

/-- The references between the nodes of a player, the Relto, the hood and the city. -/
def playerLinks (systemNode : UInt32) (n : Nat) (shape : PlayerShape) : List (UInt32 × UInt32) :=
  [(nodeId n, systemNode), (nodeId n, nodeId (n + 1)), (nodeId n, nodeId (n + 2)),
    (nodeId n, nodeId (n + 3)), (nodeId n, nodeId (n + 4)), (nodeId n, nodeId (n + 5)),
    (nodeId n, nodeId (n + 6)), (nodeId n, nodeId (n + 7)), (nodeId n, nodeId (n + 8)),
    (nodeId n, nodeId (n + 9)), (nodeId n, nodeId (n + 10)), (nodeId n, nodeId (n + 11)),
    (nodeId n, nodeId (n + 12)), (nodeId (n + 5), nodeId (n + 13)),
    (nodeId (n + 5), nodeId (n + 14)), (nodeId (n + 5), nodeId (n + 15)),
    (nodeId (n + 13), nodeId (shape.relto + 4)), (nodeId (n + 14), shape.hood.info),
    (nodeId (n + 15), shape.city), (nodeId shape.relto, nodeId (n + 5))]

/-- The inserts of `v_create_player`. -/
def playerInserts (ext : External) (systemNode : UInt32) (acctId : Uuid) (player : PlayerInfo)
    (n : Nat) (shape : PlayerShape) : List Statement :=
  (playerNodes acctId player n).map .createNode ++
  (ageInserts ext systemNode (reltoAge player shape.reltoId) shape.reltoSeq 0 shape.relto ++
  (.refNode (nodeId (shape.relto + 8)) (nodeId (n + 1)) 0 ::
  (shape.hood.inserts ext systemNode ++ refInserts (playerLinks systemNode n shape))))

/-- The Relto is behind the player, and what is found was there before. -/
structure PlayerShape.Valid (shape : PlayerShape) (n : Nat) : Prop where
  relto : n + 16 ≤ shape.relto ∧ shape.relto < 2 ^ 31
  hood : shape.hood.Valid n shape.relto
  city : shape.city.toNat < n

/-! ## The graph of a player -/

/-- The number of the first node of a new hood, or none that a node has. -/
def Hood.first : Hood → Int
  | .found .. => -10
  | .made _ _ first => first

/-- How far the node is above the ends of its references, where it is new. -/
def playerLevel (n : Nat) (shape : PlayerShape) (k : Int) : Nat :=
  if k = n ∨ k = shape.relto then 4
  else if k = n + 5 then 3
  else if k = n + 13 ∨ k = n + 14 ∨ k = n + 15 ∨ k = shape.hood.first then 2
  else if k = shape.relto + 4 ∨ k = shape.hood.first + 4 then 1
  else 0

/-- The reference goes to the info node of the player, or from a new node to an old one or to one
that is further down. -/
def Descends (n : Nat) (shape : PlayerShape) (parentIdx childIdx : UInt32) : Prop :=
  parentIdx.toNat ≠ n + 1 ∧ (childIdx.toNat = n + 1 ∨ n ≤ parentIdx.toNat ∧ (childIdx.toNat < n ∨
    playerLevel n shape childIdx.toNat < playerLevel n shape parentIdx.toNat))

theorem toNat_nodeId {n : Nat} (h : n < 2 ^ 32) : (nodeId n).toNat = n := by
  rw [UInt32.toNat_ofNat', Nat.mod_eq_of_lt h]

section Graph

variable {n : Nat} {shape : PlayerShape} {systemNode parentIdx childIdx : UInt32}

theorem PlayerShape.Valid.first (h : shape.Valid n) :
    shape.hood.first = -10 ∨ shape.relto + 10 ≤ shape.hood.first := by
  have hhood := h.hood
  cases hcase : shape.hood with
  | found => exact .inl rfl
  | made ageId seqNumber first =>
    rw [hcase] at hhood
    exact .inr (Int.ofNat_le.2 hhood.1)

theorem level_player (h : shape.Valid n) {k : Nat} (hk : k < 16) :
    playerLevel n shape ((n + k : Nat) : Int) =
      if k = 0 then 4 else if k = 5 then 3 else if 13 ≤ k then 2 else 0 := by
  have hrelto := h.relto
  have hfirst := h.first
  unfold playerLevel
  split_ifs <;> omega

theorem level_relto (h : shape.Valid n) {k : Nat} (hk : k < 10) :
    playerLevel n shape ((shape.relto + k : Nat) : Int) =
      if k = 0 then 4 else if k = 4 then 1 else 0 := by
  have hrelto := h.relto
  have hfirst := h.first
  unfold playerLevel
  split_ifs <;> omega

theorem level_hood (h : shape.Valid n) {ageId : Uuid} {seqNumber : Int} {first : Nat}
    (hmade : shape.hood = .made ageId seqNumber first) {k : Nat} (hk : k < 10) :
    playerLevel n shape ((first + k : Nat) : Int) =
      if k = 0 then 2 else if k = 4 then 1 else 0 := by
  have hrelto := h.relto
  have hhood := h.hood
  have hfirst : shape.hood.first = first := by rw [hmade]; rfl
  rw [hmade] at hhood
  obtain ⟨hbehind, -⟩ := hhood
  unfold playerLevel
  rw [hfirst]
  split_ifs <;> omega

/-- A reference that goes down. -/
theorem descends_of_level {p c : Nat} (hp : n ≤ p ∧ p ≠ n + 1) (hpnode : parentIdx.toNat = p)
    (hcnode : childIdx.toNat = c) (hlevel : playerLevel n shape c < playerLevel n shape p) :
    Descends n shape parentIdx childIdx := by
  subst hpnode hcnode
  exact ⟨hp.2, .inr ⟨hp.1, .inr hlevel⟩⟩

/-- A reference to a node that was there before. -/
theorem descends_of_old {p : Nat} (hp : n ≤ p ∧ p ≠ n + 1) (hpnode : parentIdx.toNat = p)
    (hold : childIdx.toNat < n) : Descends n shape parentIdx childIdx := by
  subst hpnode
  exact ⟨hp.2, .inr ⟨hp.1, .inl hold⟩⟩

theorem descends_playerLinks (hsystem : systemNode.toNat < n) (hvalid : shape.Valid n) :
    ∀ ref ∈ playerLinks systemNode n shape, Descends n shape ref.1 ref.2 := by
  obtain ⟨hrelto, hreltoLt⟩ := hvalid.relto
  have hnode (k : Nat) (hk : k < 16) : (nodeId (n + k)).toNat = n + k := toNat_nodeId (by omega)
  have hown (i j : Nat) (h : (i < 16 ∧ i ≠ 1) ∧ j < 16 ∧
      (if j = 0 then 4 else if j = 5 then 3 else if 13 ≤ j then 2 else 0) <
        if i = 0 then 4 else if i = 5 then 3 else if 13 ≤ i then 2 else 0) :
      Descends n shape (nodeId (n + i)) (nodeId (n + j)) := by
    obtain ⟨hi, hj, hlevel⟩ := h
    refine descends_of_level ⟨by omega, by omega⟩ (hnode i hi.1) (hnode j hj) ?_
    rw [level_player hvalid hi.1, level_player hvalid hj]
    exact hlevel
  have hself : Descends n shape (nodeId n) (nodeId (n + 1)) := by
    refine ⟨?_, .inl (hnode 1 (by decide))⟩
    rw [← Nat.add_zero n, hnode 0 (by decide)]
    omega
  have hreltoInfo : Descends n shape (nodeId (n + 13)) (nodeId (shape.relto + 4)) := by
    refine descends_of_level ⟨by omega, by omega⟩ (hnode 13 (by decide))
      (toNat_nodeId (by omega)) ?_
    rw [level_player hvalid (by decide), level_relto hvalid (by decide)]
    decide
  have hhoodInfo : Descends n shape (nodeId (n + 14)) shape.hood.info := by
    have hhood := hvalid.hood
    cases hcase : shape.hood with
    | found info owners =>
      rw [hcase] at hhood
      exact descends_of_old ⟨by omega, by omega⟩ (hnode 14 (by decide)) hhood.1
    | made ageId seqNumber first =>
      rw [hcase] at hhood
      obtain ⟨hbehind, hlt⟩ := hhood
      refine descends_of_level (p := n + 14) (c := first + 4) ⟨by omega, by omega⟩
        (hnode 14 (by decide)) (toNat_nodeId (by omega)) ?_
      rw [level_player hvalid (by decide), level_hood hvalid hcase (by decide)]
      decide
  have hages : Descends n shape (nodeId shape.relto) (nodeId (n + 5)) := by
    refine descends_of_level ⟨by omega, by omega⟩ (toNat_nodeId (by omega)) (hnode 5 (by decide)) ?_
    rw [level_player hvalid (by decide), ← Nat.add_zero shape.relto, level_relto hvalid (by decide)]
    decide
  unfold playerLinks
  simp only [List.forall_mem_cons]
  refine ⟨descends_of_old ⟨by omega, by omega⟩ (hnode 0 (by decide)) hsystem, hself,
    hown 0 2 (by decide), hown 0 3 (by decide), hown 0 4 (by decide), hown 0 5 (by decide),
    hown 0 6 (by decide), hown 0 7 (by decide), hown 0 8 (by decide), hown 0 9 (by decide),
    hown 0 10 (by decide), hown 0 11 (by decide), hown 0 12 (by decide), hown 5 13 (by decide),
    hown 5 14 (by decide), hown 5 15 (by decide), hreltoInfo, hhoodInfo, ?_, hages,
    List.forall_mem_nil _⟩
  exact descends_of_old ⟨by omega, by omega⟩ (hnode 15 (by decide)) hvalid.city

/-- The references of an age whose first node is number `first`. -/
def ageLinks (systemNode : UInt32) (first : Nat) : List (UInt32 × UInt32) :=
  [(nodeId first, systemNode), (nodeId first, nodeId (first + 1)),
    (nodeId first, nodeId (first + 2)), (nodeId first, nodeId (first + 3)),
    (nodeId first, nodeId (first + 4)), (nodeId first, nodeId (first + 5)),
    (nodeId (first + 4), nodeId (first + 6)), (nodeId (first + 4), nodeId (first + 7)),
    (nodeId (first + 4), nodeId (first + 8)), (nodeId (first + 4), nodeId (first + 9))]

theorem mem_refInserts {refs : List (UInt32 × UInt32)} {ownerIdx : UInt32}
    (h : .refNode parentIdx childIdx ownerIdx ∈ refInserts refs) :
    (parentIdx, childIdx) ∈ refs := by
  obtain ⟨ref, href, heq⟩ := List.mem_map.1 h
  cases heq
  exact href

theorem refNode_mem_ageInserts {ext : External} {age : AgeInfo} {seqNumber : Int} {flags : UInt32}
    {first : Nat} {ownerIdx : UInt32} (h : .refNode parentIdx childIdx ownerIdx ∈
      ageInserts ext systemNode age seqNumber flags first) :
    (parentIdx, childIdx) ∈ ageLinks systemNode first := by
  rw [ageInserts, List.mem_append, List.mem_append] at h
  obtain h | h | h := h
  · simp at h
  · exact mem_refInserts h
  · cases List.mem_singleton.1 h

/-- An age goes down where its levels do. -/
theorem descends_ageLinks {first : Nat} {level : Nat → Nat} (hsystem : systemNode.toNat < n)
    (hfirst : n + 2 ≤ first ∧ first < 2 ^ 31)
    (hlevel : ∀ k < 10, playerLevel n shape ((first + k : Nat) : Int) = level k)
    (htop : level 4 < level 0) (hbottom : ∀ k < 10, k ≠ 0 → k ≠ 4 → level k < level 4) :
    ∀ ref ∈ ageLinks systemNode first, Descends n shape ref.1 ref.2 := by
  have hnode (k : Nat) (hk : k < 10) : (nodeId (first + k)).toNat = first + k :=
    toNat_nodeId (by omega)
  have hlink (i j : Nat) (h : i < 10 ∧ j < 10) (hij : level j < level i) :
      Descends n shape (nodeId (first + i)) (nodeId (first + j)) := by
    refine descends_of_level ⟨by omega, by omega⟩ (hnode i h.1) (hnode j h.2) ?_
    rw [hlevel i h.1, hlevel j h.2]
    exact hij
  have htop' (j : Nat) (h : j < 10 ∧ j ≠ 0 ∧ j ≠ 4) :
      Descends n shape (nodeId (first + 0)) (nodeId (first + j)) :=
    hlink 0 j ⟨by decide, h.1⟩ ((hbottom j h.1 h.2.1 h.2.2).trans htop)
  have hinfo (j : Nat) (h : j < 10 ∧ j ≠ 0 ∧ j ≠ 4) :
      Descends n shape (nodeId (first + 4)) (nodeId (first + j)) :=
    hlink 4 j ⟨by decide, h.1⟩ (hbottom j h.1 h.2.1 h.2.2)
  unfold ageLinks
  simp only [List.forall_mem_cons]
  exact ⟨descends_of_old ⟨by omega, by omega⟩ (hnode 0 (by decide)) hsystem, htop' 1 (by decide),
    htop' 2 (by decide), htop' 3 (by decide), hlink 0 4 (by decide) htop, htop' 5 (by decide),
    hinfo 6 (by decide), hinfo 7 (by decide), hinfo 8 (by decide), hinfo 9 (by decide),
    List.forall_mem_nil _⟩

theorem descends_playerInserts {ext : External} {acctId : Uuid} {player : PlayerInfo}
    (hsystem : systemNode.toNat < n) (hvalid : shape.Valid n) {ownerIdx : UInt32}
    (h : .refNode parentIdx childIdx ownerIdx ∈
      playerInserts ext systemNode acctId player n shape) :
    Descends n shape parentIdx childIdx := by
  obtain ⟨hrelto, hreltoLt⟩ := hvalid.relto
  rw [playerInserts, List.mem_append, List.mem_append, List.mem_cons, List.mem_append] at h
  obtain h | h | h | h | h := h
  · obtain ⟨node, -, heq⟩ := List.mem_map.1 h
    cases heq
  · exact descends_ageLinks hsystem ⟨by omega, hreltoLt⟩ (fun k hk => level_relto hvalid hk)
      (by decide) (by decide) _ (refNode_mem_ageInserts h)
  · cases h
    refine ⟨?_, .inl (toNat_nodeId (by omega))⟩
    rw [toNat_nodeId (by omega)]
    omega
  · have hhood := hvalid.hood
    cases hcase : shape.hood with
    | found info owners =>
      rw [hcase] at h
      cases h
    | made ageId seqNumber first =>
      rw [hcase] at h hhood
      obtain ⟨hbehind, hlt⟩ := hhood
      exact descends_ageLinks hsystem ⟨by omega, hlt⟩ (fun k hk => level_hood hvalid hcase hk)
        (by decide) (by decide) _ (refNode_mem_ageInserts h)
  · exact descends_playerLinks hsystem hvalid _ (mem_refInserts h)

end Graph

/-! ## No cycle -/

/-- A reference that was made is between numbers that a row can have. -/
theorem Inserts.mem_newRefs {ref : RefRow} (h : Inserts d qs d') (href : ref ∈ newRefs qs) :
    ∃ parentIdx childIdx ownerIdx, .refNode parentIdx childIdx ownerIdx ∈ qs ∧
      parentIdx.toNat < 2 ^ 31 ∧ childIdx.toNat < 2 ^ 31 ∧
      ref = ⟨parentIdx.toInt32, childIdx.toInt32, ownerIdx.toInt32⟩ := by
  induction h with
  | done => cases href
  | @step d d₁ d₂ d' q a qs _ hq _ ih =>
    have hrest (href : ref ∈ newRefs qs) : ∃ parentIdx childIdx ownerIdx,
        .refNode parentIdx childIdx ownerIdx ∈ q :: qs ∧ parentIdx.toNat < 2 ^ 31 ∧
        childIdx.toNat < 2 ^ 31 ∧
        ref = ⟨parentIdx.toInt32, childIdx.toInt32, ownerIdx.toInt32⟩ := by
      obtain ⟨p, c, o, hmem, hends⟩ := ih href
      exact ⟨p, c, o, List.mem_cons_of_mem _ hmem, hends⟩
    cases q with
    | refNode parentIdx childIdx ownerIdx =>
      obtain rfl | href := List.mem_cons.1 href
      · obtain ⟨-, hp, hc, -, -⟩ := carryOut_refNode hq
        exact ⟨_, _, _, List.mem_cons_self, hp, hc, rfl⟩
      · exact hrest href
    | _ => exact hrest href

/-- **A player closes no cycle**, and neither does a part of one. -/
theorem acyclic_player {ext : External} {systemNode : UInt32} {acctId : Uuid} {player : PlayerInfo}
    {shape : PlayerShape} {done : List Statement} (hd : SoundVault d)
    (hsystem : systemNode.toNat < d.nextNode) (hvalid : shape.Valid d.nextNode)
    (hdone : done <+: playerInserts ext systemNode acctId player d.nextNode shape)
    (h : Inserts d done d') : Acyclic (d.refs ++ newRefs done) := by
  refine Lib.Graph.Acyclic.extend hd.acyclic (fun k => k.toInt < d.nextNode)
    (fun k => k.toInt = d.nextNode + 1) (fun k => playerLevel d.nextNode shape k.toInt) hd.known
    (fun k hk hold => ?_) fun ref href => ?_
  · omega
  · obtain ⟨p, c, o, hmem, hp, hc, rfl⟩ := h.mem_newRefs href
    obtain ⟨hsrc, hdst⟩ := descends_playerInserts hsystem hvalid (hdone.subset hmem)
    simp only [toInt_toInt32 hp, toInt_toInt32 hc]
    refine ⟨by omega, hdst.imp (fun h => by omega) fun ⟨hnew, hend⟩ => ⟨by omega, ?_⟩⟩
    exact hend.imp (fun h => by omega) id

end Dirtsand.AuthServ
