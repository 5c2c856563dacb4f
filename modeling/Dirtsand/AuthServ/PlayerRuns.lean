import Dirtsand.AuthServ.PlayerCreation

/-!
# Players that are made

`v_create_player` makes a player wherever its inserts can be carried out and the vault has a city
and, for every hood, a folder of its owners.

* `Offers` — what a vault offers to a new player.
* `vCreatePlayer_yields` — a player whose inserts can be carried out is made.
* `vCreatePlayer_sound` — **what is made is a part of the script of a player that leaves the vault
  sound, and a player is returned with all of it only**; and so a player is, where the vault
  offers it.
-/

namespace Dirtsand.AuthServ

open Lib.Prog
open Db (Tables RefRow NodeRow Acyclic storedFields integer_eq_some inRange_eq_some)

variable {hoodUserName : String} {d d₁ d' : Tables} {s : DaemonState} {site : CallSite}
  {q : Statement} {qs : List Statement} {ext : External}

/-! ## What a vault offers -/

/-- The nodes that `find_a_friendly_neighborhood_for_our_new_visitor` looks at. -/
def IsHood (hoodUserName : String) (node : Vault.Node) : Prop :=
  node.string64_2 = some "Neighborhood" ∧ node.string64_4 = some (cstr hoodUserName)

/-- The nodes that `find_public_age_1` finds. -/
def IsPublicAge (filename : String) (node : Vault.Node) : Prop :=
  node.nodeType = some Vault.NodeType.ageInfo.toInt ∧ node.int32_2 = some 1 ∧
    node.string64_2 = some (cstr filename)

instance {filename : String} {node : Vault.Node} : Decidable (IsPublicAge filename node) :=
  inferInstanceAs (Decidable (_ ∧ _ ∧ _))

/-- The folders of the owners of an age. -/
def ownersFolders (d : Tables) (info : Int32) : List NodeRow :=
  Db.findFolder d info Vault.StandardNode.ageOwnersFolder.toInt

/-- The number of nodes in a folder, as `v_count_age_owners` reads it. -/
def ownerCount (d : Tables) (folder : Int32) : UInt32 :=
  (strtoul 10 (fromUint (d.refs.countP fun row => row.parentIdx = folder)).toList).toUInt32

/-- The hoods that may take a new player, where new nodes get the numbers from `first` on. -/
inductive Hood.Offered (hoodUserName : String) (ext : External) (d : Tables) (taken : List Uuid)
    (first : Nat) : Hood → Prop where
  /-- One with room. -/
  | found {info owners : NodeRow} (hinfo : info ∈ d.nodes) (hhood : IsHood hoodUserName info.node)
      (hne : info.idx.toUInt32 ≠ 0) (howners : owners ∈ ownersFolders d info.idx)
      (hroom : ownerCount d owners.idx < ext.hoodPopThreshold) :
      Offered hoodUserName ext d taken first (.found info.idx.toUInt32 owners.idx.toUInt32)
  /-- A new one, where all others are full. -/
  | made {ageId : Uuid} (n : Nat) (hfresh : Fresh d ageId) (hnew : ageId ∉ taken)
      (hfull : ∀ info ∈ d.nodes, IsHood hoodUserName info.node →
        ∃ owners ∈ ownersFolders d info.idx, ¬ownerCount d owners.idx < ext.hoodPopThreshold) :
      Offered hoodUserName ext d taken first (.made ageId (readSeq n) first)

/-- What the vault offers to a new player: a UUID for the Relto, a hood and the city. -/
structure Offers (hoodUserName : String) (ext : External) (acctId : Uuid) (d : Tables)
    (shape : PlayerShape) : Prop where
  reltoId : Fresh d shape.reltoId ∧ shape.reltoId ≠ acctId
  reltoSeq : shape.reltoSeq = 0
  relto : shape.relto = d.nextNode + 16
  hood : shape.hood.Offered hoodUserName ext d [acctId, shape.reltoId] (shape.relto + 10)
  city : ∃ row ∈ d.nodes, IsPublicAge "city" row.node ∧ row.idx.toUInt32 ≠ 0 ∧
    shape.city = row.idx.toUInt32

/-! ## Rows that come first -/

theorem intCell_injective {v w : Int32} (h : intCell v = intCell w) : v = w := by
  have hv := strtoul_fromInt v
  have hw := strtoul_fromInt w
  rw [show fromInt v.toInt = fromInt w.toInt from h] at hv
  exact hv.symm.trans hw

theorem integer_of_nonneg {idx : Int32} (h : 0 ≤ idx.toInt) :
    Db.integer idx.toUInt32 = some idx := by
  have hnat := toNat_toUInt32 h
  have hlt := idx.toInt_lt
  exact integer_eq_some.2 ⟨by omega, rfl⟩

/-- Of the rows of a `SELECT` any may be the first. -/
theorem yields_first {rows : List NodeRow} {row : NodeRow} (hrow : row ∈ rows)
    (hselect : selectRows hoodUserName d q = some (idxRows (rows.map (·.idx)))) :
    ∃ rest, Yields (Succeeds hoodUserName) d s (exec site q)
      (.ret (rowsOf q (cells [intCell row.idx] :: rest))) d s [] := by
  obtain ⟨before, behind, rfl⟩ := List.append_of_mem hrow
  have horder : (idxRows ((row :: (before ++ behind)).map (·.idx))).Perm
      (idxRows ((before ++ row :: behind).map (·.idx))) := (List.perm_middle.symm.map _).map _
  exact ⟨_, yields_exec (.select hselect horder)⟩

theorem numAt_first {rest : List Row} (hq : q.columns = 1) (idx : Int32) :
    numAt (rowsOf q (cells [intCell idx] :: rest)) 0 0 = pure idx.toUInt32 :=
  numAt_rowsOf rfl (by rw [hq]; exact Nat.zero_lt_one) rfl

theorem folderRows_eq {info : UInt32} {idx : Int32} (h : Db.integer info = some idx) :
    folderRows d info .ageOwnersFolder = some (idxRows ((ownersFolders d idx).map (·.idx))) := by
  rw [folderRows, h]
  rfl

/-! ## Rows that stay -/

theorem Grown.mem_nodes (h : Grown d d' qs) {row : NodeRow} (hrow : row ∈ d.nodes) :
    row ∈ d'.nodes := by
  rw [h.nodes]
  exact List.mem_append_left _ hrow

/-- A folder stays where it is. -/
theorem Grown.mem_ownersFolders (h : Grown d d' qs) {info : Int32} {row : NodeRow}
    (hrow : row ∈ ownersFolders d info) : row ∈ ownersFolders d' info := by
  rw [ownersFolders, Db.findFolder, List.mem_filter, decide_eq_true_eq] at hrow ⊢
  obtain ⟨hmem, hchild, hfolder⟩ := hrow
  refine ⟨h.mem_nodes hmem, ?_, hfolder⟩
  obtain ⟨ref, href, hends⟩ := List.any_eq_true.1 hchild
  refine List.any_eq_true.2 ⟨ref, ?_, hends⟩
  rw [h.refs]
  exact List.mem_append_left _ href

/-- Nothing is put into a folder that was there before, where all new references are from new
nodes. -/
theorem ownerCount_grown (h : Grown d d' qs) (hinserts : Inserts d qs d')
    (hnew : ∀ p c o, .refNode p c o ∈ qs → d.nextNode ≤ p.toNat) {folder : Int32}
    (hfolder : folder.toInt < d.nextNode) : ownerCount d' folder = ownerCount d folder := by
  have hnone : (newRefs qs).countP (fun row => row.parentIdx = folder) = 0 := by
    rw [List.countP_eq_zero]
    intro ref href
    obtain ⟨p, c, o, hmem, hp, -, rfl⟩ := hinserts.mem_newRefs href
    have hle := hnew p c o hmem
    have hparent := toInt_toInt32 hp
    rw [decide_eq_true_eq]
    rintro rfl
    dsimp only at hfolder
    omega
  rw [ownerCount, h.refs, List.countP_append, hnone, Nat.add_zero]
  rfl

theorem mem_newServers {n : Nat} {row : Db.ServerRow} (h : row ∈ newServers n qs) :
    ∃ filename agedesc ageNode ageSdlNode,
      .insertServer row.ageUuid filename agedesc ageNode ageSdlNode ∈ qs := by
  induction qs generalizing n with
  | nil => cases h
  | cons q qs ih =>
    have hrest {n : Nat} (h : row ∈ newServers n qs) : ∃ filename agedesc ageNode ageSdlNode,
        .insertServer row.ageUuid filename agedesc ageNode ageSdlNode ∈ q :: qs := by
      obtain ⟨filename, agedesc, ageNode, ageSdlNode, hmem⟩ := ih h
      exact ⟨filename, agedesc, ageNode, ageSdlNode, List.mem_cons_of_mem _ hmem⟩
    cases q with
    | insertServer ageId filename agedesc ageNode ageSdlNode =>
      obtain rfl | h := List.mem_cons.1 h
      · exact ⟨filename, agedesc, ageNode, ageSdlNode, List.mem_cons_self⟩
      · exact hrest h
    | _ => exact hrest h

/-- None of the inserts takes this UUID. -/
structure Spares (uuid : Uuid) (qs : List Statement) : Prop where
  nodes : ∀ node, .createNode node ∈ qs → node.uuid_1 ≠ some uuid
  servers : ∀ ageId filename agedesc ageNode ageSdlNode,
    .insertServer ageId filename agedesc ageNode ageSdlNode ∈ qs → ageId ≠ uuid

/-- A new UUID stays one. -/
theorem Fresh.grown {uuid : Uuid} (h : Fresh d uuid) (hgrown : Grown d d' qs)
    (hspares : Spares uuid qs) : Fresh d' uuid := by
  refine ⟨h.notNull, fun row hrow => ?_, fun row hrow => ?_⟩
  · rw [hgrown.servers] at hrow
    obtain hrow | hrow := List.mem_append.1 hrow
    · exact h.servers row hrow
    · obtain ⟨filename, agedesc, ageNode, ageSdlNode, hmem⟩ := mem_newServers hrow
      exact hspares.servers _ _ _ _ _ hmem
  · rw [hgrown.nodes] at hrow
    obtain hrow | hrow := List.mem_append.1 hrow
    · exact h.nodes row hrow
    · obtain ⟨node, hmem, hstored⟩ := exists_createNode hrow
      intro huuid
      rw [hstored] at huuid
      exact hspares.nodes node hmem (stored_eq.2 uuid huuid)

theorem spares_playerNodes {uuid acctId : Uuid} (h : uuid ≠ acctId) {player : PlayerInfo}
    {n : Nat} :
    Spares uuid ((playerNodes acctId player n).map .createNode) := by
  constructor
  · intro node hnode
    obtain ⟨node', hmem, heq⟩ := List.mem_map.1 hnode
    cases heq
    revert hmem node
    unfold playerNodes
    simp [h.symm]
  · intro _ _ _ _ _ hmem
    obtain ⟨_, -, heq⟩ := List.mem_map.1 hmem
    cases heq

theorem spares_ageInserts {uuid : Uuid} {systemNode : UInt32} {age : AgeInfo} {seqNumber : Int}
    {flags : UInt32} {first : Nat} (h : uuid ≠ age.ageId) :
    Spares uuid (ageInserts ext systemNode age seqNumber flags first) := by
  constructor
  · intro node hnode
    rw [ageInserts, List.mem_append, List.mem_append] at hnode
    obtain hnode | hnode | hnode := hnode
    · simp only [List.mem_cons, List.not_mem_nil, or_false, Statement.createNode.injEq] at hnode
      obtain rfl | rfl | rfl | rfl | rfl | rfl | rfl | rfl | rfl | rfl := hnode
      all_goals simp [ageFolder, h.symm]
    · obtain ⟨ref, -, heq⟩ := List.mem_map.1 hnode
      cases heq
    · cases List.mem_singleton.1 hnode
  · intro ageId filename agedesc ageNode ageSdlNode hmem
    rw [ageInserts, List.mem_append, List.mem_append] at hmem
    obtain hmem | hmem | hmem := hmem
    · simp at hmem
    · obtain ⟨ref, -, heq⟩ := List.mem_map.1 hmem
      cases heq
    · cases List.mem_singleton.1 hmem
      exact h.symm

/-! ## Ages that are made -/

/-- Numbers are given out as far as a row can have them. -/
theorem nextNode_le_of_effects (hall : ∀ q ∈ qs, q.IsInsert) (h : effects d qs = some d') :
    d'.nextNode ≤ max d.nextNode (2 ^ 31) := by
  induction qs generalizing d with
  | nil =>
    cases h
    exact Nat.le_max_left _ _
  | cons q qs ih =>
    obtain ⟨a, d₁, hq, hrest⟩ := effects_cons_eq_some.1 h
    have hle := ih (fun q hq => hall q (List.mem_cons_of_mem _ hq)) hrest
    have hinsert := hall q List.mem_cons_self
    cases q with
    | createNode node =>
      obtain ⟨idx, _, hidx, -, -, rfl⟩ := carryOut_createNode hq
      have hlt := (toUInt32_of_inRange hidx).2
      dsimp only at hle
      omega
    | refNode =>
      obtain ⟨-, -, -, -, rfl⟩ := carryOut_refNode hq
      exact hle
    | insertServer =>
      obtain ⟨-, row, hinserted⟩ := carryOut_insertServer hq
      obtain ⟨-, rfl⟩ := insertServerRow_eq_some hinserted
      exact hle
    | _ => exact hinsert.elim

/-- The node of an insert that is carried out can be stored. -/
theorem stored_of_effects (h : effects d qs = some d') {node : Vault.Node}
    (hnode : .createNode node ∈ qs) : ∃ stored, storedFields node = some stored := by
  induction qs generalizing d with
  | nil => cases hnode
  | cons q qs ih =>
    obtain ⟨a, d₁, hq, hrest⟩ := effects_cons_eq_some.1 h
    obtain rfl | hmem := List.mem_cons.1 hnode
    · obtain ⟨_, stored, -, hstored, -⟩ := carryOut_createNode hq
      exact ⟨stored, hstored⟩
    · exact ih hrest hmem

theorem mem_newRefs {parentIdx childIdx ownerIdx : UInt32}
    (h : .refNode parentIdx childIdx ownerIdx ∈ qs) :
    ⟨parentIdx.toInt32, childIdx.toInt32, ownerIdx.toInt32⟩ ∈ newRefs qs := by
  induction qs with
  | nil => cases h
  | cons q qs ih =>
    obtain rfl | hrest := List.mem_cons.1 h
    · exact List.mem_cons_self
    · cases q with
      | refNode => exact List.mem_cons_of_mem _ (ih hrest)
      | _ => exact ih hrest

section Age

variable {systemNode : UInt32} {age : AgeInfo} {seqNumber : Int} {flags : UInt32}

theorem lt_of_age
    (heffects : effects d (ageInserts ext systemNode age seqNumber flags d.nextNode) = some d') :
    d.nextNode + 9 < 2 ^ 31 ∧ d'.nextNode = d.nextNode + 10 := by
  have hnext : d'.nextNode = d.nextNode + 10 :=
    (grown_of_effects ageInserts_isInsert heffects).nextNode
  have hle := nextNode_le_of_effects ageInserts_isInsert heffects
  omega

/-- A new age has a folder of its owners. -/
theorem exists_owners_of_age
    (heffects : effects d (ageInserts ext systemNode age seqNumber flags d.nextNode) = some d') :
    ∃ row ∈ ownersFolders d' (nodeId (d.nextNode + 4)).toInt32,
      row.idx.toUInt32 = nodeId (d.nextNode + 8) := by
  obtain ⟨hlt, -⟩ := lt_of_age heffects
  have hgrown := grown_of_effects ageInserts_isInsert heffects
  have hcreate : .createNode (ageFolder age.ageId (nodeId d.nextNode) .playerInfoList
      .ageOwnersFolder) ∈ ageInserts ext systemNode age seqNumber flags d.nextNode := by
    simp [ageInserts]
  obtain ⟨stored, hstored⟩ := stored_of_effects heffects hcreate
  obtain ⟨htype, -, hfolder⟩ := Db.storedFields_eq_some hstored
  have hrow : (⟨Int32.ofNat (d.nextNode + 8), stored⟩ : NodeRow) ∈
      newNodes d.nextNode (ageInserts ext systemNode age seqNumber flags d.nextNode) := by
    iterate 8 refine List.mem_cons_of_mem _ ?_
    refine List.mem_cons.2 (.inl ?_)
    rw [hstored]
    rfl
  have hlink : (⟨(nodeId (d.nextNode + 4)).toInt32, (nodeId (d.nextNode + 8)).toInt32, 0⟩ : RefRow) ∈
      newRefs (ageInserts ext systemNode age seqNumber flags d.nextNode) := by
    refine mem_newRefs ?_
    simp [ageInserts, refInserts]
  have hidx : (Int32.ofNat (d.nextNode + 8)).toUInt32 = nodeId (d.nextNode + 8) := by
    rw [← UInt32.toInt32_ofNat', UInt32.toUInt32_toInt32]
  refine ⟨⟨Int32.ofNat (d.nextNode + 8), stored⟩, ?_, hidx⟩
  have hchild : d'.refs.any (fun ref => ref.parentIdx = (nodeId (d.nextNode + 4)).toInt32 ∧
      ref.childIdx = Int32.ofNat (d.nextNode + 8)) = true := by
    have hmem := List.mem_append_right d.refs hlink
    rw [← hgrown.refs] at hmem
    exact List.any_eq_true.2 ⟨_, hmem, decide_eq_true ⟨rfl, UInt32.toInt32_ofNat'⟩⟩
  rw [ownersFolders, Db.findFolder, List.mem_filter, decide_eq_true_eq, hgrown.nodes]
  exact ⟨List.mem_append_right _ hrow, hchild, .inr (.inl htype), hfolder⟩

end Age

/-! ## The hood -/

theorem vCountAgeOwners_yields {info : UInt32} {idx : Int32} {owners : NodeRow}
    (hinfo : Db.integer info = some idx) (howners : owners ∈ ownersFolders d idx) :
    Yields (Succeeds hoodUserName) d s (vCountAgeOwners ext info)
      (.ret (ownerCount d owners.idx)) d s [] := by
  obtain ⟨rest, hfirst⟩ : ∃ rest, Yields (Succeeds hoodUserName) d s
      (exec .createPlayer (.findAgeOwners info))
      (.ret (rowsOf (.findAgeOwners info) (cells [intCell owners.idx] :: rest))) d s [] :=
    yields_first howners (folderRows_eq hinfo)
  have hparent : textAt ext (rowsOf (.findAgeOwners info) (cells [intCell owners.idx] :: rest)) 0 0 =
      pure (intCell owners.idx) := textAt_rowsOf rfl Nat.zero_lt_one rfl
  have hcount : numAt (rowsOf (.countOwners (intCell owners.idx)) [cells [fromUint
      (d.refs.countP fun row => intCell row.parentIdx = intCell owners.idx)]]) 0 0 =
      pure (ownerCount d owners.idx) := by
    have hcells : (fun row : RefRow => decide (intCell row.parentIdx = intCell owners.idx)) =
        fun row => decide (row.parentIdx = owners.idx) :=
      funext fun row => decide_eq_decide.2 ⟨intCell_injective, congrArg intCell⟩
    rw [numAt, getvalue_rowsOf rfl Nat.zero_lt_one rfl, hcells]
    rfl
  unfold vCountAgeOwners
  refine hfirst.bind ?_
  rw [if_neg (not_not_intro rfl), hparent, Lib.Prog.pure_bind]
  refine (yields_exec (.select rfl (.refl _))).bind ?_
  rw [if_neg (not_not_intro rfl), hcount]
  exact yields_pure _

/-- A hood that is full is passed over. -/
theorem findHood_yields {rows : List Row} {l : List Int32} (hq : q.columns = 1)
    (horder : rows = idxRows l) (hfull : ∀ idx ∈ l, ∃ owners ∈ ownersFolders d idx,
      0 ≤ idx.toInt ∧ ¬ownerCount d owners.idx < ext.hoodPopThreshold) (is : List Nat)
    (his : ∀ i ∈ is, i < rows.length) :
    Yields (Succeeds hoodUserName) d s (findHood ext (rowsOf q rows) is) (.ret 0) d s [] := by
  subst horder
  induction is with
  | nil => exact yields_pure 0
  | cons i is ih =>
    have hi := his i List.mem_cons_self
    rw [idxRows, List.length_map] at hi
    have hrow : (idxRows l)[i]? = some (cells [intCell l[i]]) := by
      rw [idxRows, List.getElem?_map, List.getElem?_eq_getElem hi]
      rfl
    obtain ⟨owners, howners, hpos, hcount⟩ := hfull l[i] (List.getElem_mem hi)
    unfold findHood
    rw [numAt_rowsOf hrow (by rw [hq]; exact Nat.zero_lt_one) rfl, Lib.Prog.pure_bind]
    refine (vCountAgeOwners_yields (integer_of_nonneg hpos) howners).bind ?_
    rw [if_neg hcount]
    exact ih fun i hi => his i (List.mem_cons_of_mem _ hi)

/-- The last statement of `find_a_friendly_neighborhood_for_our_new_visitor`. -/
theorem hoodOwners_yields {info : UInt32} {idx : Int32} {owners : NodeRow}
    (hinfo : Db.integer info = some idx) (howners : owners ∈ ownersFolders d idx) :
    Yields (Succeeds hoodUserName) d s (hoodOwners info) (.ret (info, owners.idx.toUInt32)) d s
      [] := by
  obtain ⟨rest, hfirst⟩ : ∃ rest, Yields (Succeeds hoodUserName) d s
      (exec .createPlayer (.findHoodOwners info))
      (.ret (rowsOf (.findHoodOwners info) (cells [intCell owners.idx] :: rest))) d s [] :=
    yields_first howners (folderRows_eq hinfo)
  unfold hoodOwners
  refine hfirst.bind ?_
  rw [if_pos rfl, numAt_first rfl]
  exact yields_pure _

theorem newHood_yields {ageId : Uuid} (n : Nat) (hpos : 0 < d.nextNode) (hfresh : Fresh d ageId)
    (hall : effects d (Hood.inserts ext s.systemNode (.made ageId (readSeq n) d.nextNode)) =
      some d') :
    Yields (Succeeds hoodUserName) d s (newHood ext) (.ret (nodeId (d.nextNode + 4))) d' s [] := by
  unfold newHood
  refine (genUuid_yields hfresh).bind ?_
  refine Yields.bind (vCreateAge_yields_seq n hfresh.notNull (Int.negSucc_lt_zero 0) hpos hall) ?_
  exact yields_pure _

/-- What has been made of a player keeps what the vault offers. -/
structure PlayerProgress (d₀ : Tables) (done : List Statement) (taken : List Uuid)
    (d : Tables) : Prop extends Progress d₀ done d where
  grown : Grown d₀ d done
  parents : ∀ p c o, .refNode p c o ∈ done → d₀.nextNode ≤ p.toNat
  unnamed : Unnamed "Neighborhood" done
  spares : ∀ uuid, uuid ∉ taken → Spares uuid done

theorem Hood.inserts_isInsert {hood : Hood} {systemNode : UInt32} :
    ∀ q ∈ hood.inserts ext systemNode, q.IsInsert := by
  cases hood with
  | found => exact List.forall_mem_nil _
  | made => exact ageInserts_isInsert

theorem Hood.Offered.info_ne {hood : Hood} {d₀ : Tables} {taken : List Uuid} {systemNode : UInt32}
    (h : hood.Offered hoodUserName ext d₀ taken d.nextNode)
    (hall : effects d (hood.inserts ext systemNode) = some d') : hood.info ≠ 0 := by
  cases h with
  | found _ _ hne => exact hne
  | made =>
    have hlt := (lt_of_age hall).1
    exact nodeId_ne_zero (Nat.succ_pos _) (by omega)

section PlayerProgress

variable {d₀ : Tables} {done : List Statement} {taken : List Uuid}

theorem PlayerProgress.ownerCount_eq (h : PlayerProgress d₀ done taken d) (hd₀ : Numbered d₀)
    {info : Int32} {owners : NodeRow} (howners : owners ∈ ownersFolders d₀ info) :
    ownerCount d owners.idx = ownerCount d₀ owners.idx :=
  ownerCount_grown h.grown h.inserts h.parents (hd₀.given owners (List.mem_filter.1 howners).1).2

theorem findNeighborhood_yields {hood : Hood} (hd₀ : Numbered d₀)
    (h : PlayerProgress d₀ done taken d)
    (hoffered : hood.Offered hoodUserName ext d₀ taken d.nextNode)
    (hall : effects d (hood.inserts ext s.systemNode) = some d') :
    Yields (Succeeds hoodUserName) d s (findNeighborhood ext) (.ret (hood.info, hood.owners)) d' s
      [] := by
  have hmem {info : NodeRow} : info ∈ d.nodes.filter (fun row =>
        decide (row.node.string64_2 = some "Neighborhood" ∧
          row.node.string64_4 = some (cstr hoodUserName))) ↔
      info ∈ d.nodes ∧ IsHood hoodUserName info.node := by
    rw [List.mem_filter, decide_eq_true_eq]
    rfl
  cases hoffered with
  | @found info owners hinfo hhood hne howners hroom =>
    cases hall
    have hidx := integer_of_nonneg (hd₀.given info hinfo).1
    have hfolder := h.grown.mem_ownersFolders howners
    obtain ⟨rest, hfirst⟩ : ∃ rest, Yields (Succeeds hoodUserName) d s
        (exec .createPlayer .selectHoods)
        (.ret (rowsOf .selectHoods (cells [intCell info.idx] :: rest))) d s [] :=
      yields_first (hmem.2 ⟨h.grown.mem_nodes hinfo, hhood⟩) rfl
    have hfound : Yields (Succeeds hoodUserName) d s
        (findHood ext (rowsOf .selectHoods (cells [intCell info.idx] :: rest))
          (List.range (rest.length + 1))) (.ret info.idx.toUInt32) d s [] := by
      rw [List.range_succ_eq_map]
      unfold findHood
      rw [numAt_first rfl, Lib.Prog.pure_bind]
      refine (vCountAgeOwners_yields hidx hfolder).bind ?_
      rw [h.ownerCount_eq hd₀ howners, if_pos hroom]
      exact yields_pure _
    unfold findNeighborhood
    refine hfirst.bind ?_
    rw [if_neg (not_not_intro rfl)]
    refine hfound.bind ?_
    show Yields _ _ _ ((if info.idx.toUInt32 = 0 then newHood ext else pure info.idx.toUInt32) >>=
      hoodOwners) _ _ _ _
    rw [if_neg hne, Lib.Prog.pure_bind]
    exact hoodOwners_yields hidx hfolder
  | @made ageId n hfresh hnew hfull =>
    have hfresh' := hfresh.grown h.grown (h.spares ageId hnew)
    have hlt := (lt_of_age hall).1
    obtain ⟨owners, howners, hidx⟩ := exists_owners_of_age hall
    have hfound : Yields (Succeeds hoodUserName) d s (findHood ext (rowsOf .selectHoods
        (nodeRows d fun node => node.string64_2 = some "Neighborhood" ∧
          node.string64_4 = some (cstr hoodUserName)))
        (List.range (rowsOf .selectHoods (nodeRows d fun node =>
          node.string64_2 = some "Neighborhood" ∧
            node.string64_4 = some (cstr hoodUserName))).ntuples)) (.ret 0) d s [] := by
      refine findHood_yields rfl rfl (fun idx hidx => ?_) _ fun i hi => List.mem_range.1 hi
      obtain ⟨info, hinfo, rfl⟩ := List.mem_map.1 hidx
      obtain ⟨hinfo, hhood⟩ := hmem.1 hinfo
      have hold := h.mem_of_name h.unnamed hinfo hhood.1
      obtain ⟨folder, hfolder, hcount⟩ := hfull info hold hhood
      rw [← h.ownerCount_eq hd₀ hfolder] at hcount
      exact ⟨folder, h.grown.mem_ownersFolders hfolder, (hd₀.given info hold).1, hcount⟩
    unfold findNeighborhood
    refine (yields_exec (.select rfl (.refl _))).bind ?_
    rw [if_neg (not_not_intro rfl)]
    refine hfound.bind ?_
    show Yields _ _ _ (newHood ext >>= hoodOwners) _ _ _ _
    refine (newHood_yields n h.numbered.pos hfresh' hall).bind ?_
    have hread : Db.integer (nodeId (d.nextNode + 4)) = some (nodeId (d.nextNode + 4)).toInt32 :=
      if_pos (by rw [toNat_nodeId (by omega)]; omega)
    show Yields _ _ _ _ (.ret (nodeId (d.nextNode + 4), nodeId (d.nextNode + 8))) _ _ _
    rw [← hidx]
    exact hoodOwners_yields hread howners

end PlayerProgress

/-! ## The player -/

theorem findPublicAge1_yields {filename : String} {row : NodeRow} (hrow : row ∈ d.nodes)
    (hage : IsPublicAge filename row.node) :
    Yields (Succeeds hoodUserName) d s (findPublicAge1 filename) (.ret row.idx.toUInt32) d s [] := by
  obtain ⟨rest, hfirst⟩ : ∃ rest, Yields (Succeeds hoodUserName) d s
      (exec .createPlayer (.selectPublicAge filename))
      (.ret (rowsOf (.selectPublicAge filename) (cells [intCell row.idx] :: rest))) d s [] :=
    yields_first (List.mem_filter.2 ⟨hrow, decide_eq_true hage⟩) rfl
  have hsome : (rowsOf (.selectPublicAge filename) (cells [intCell row.idx] :: rest)).ntuples > 0 :=
    Nat.zero_lt_succ _
  unfold findPublicAge1
  refine hfirst.bind ?_
  rw [if_pos rfl, if_pos hsome, numAt_first rfl]
  exact yields_pure _

theorem linkPlayer_yields {n : Nat} {shape : PlayerShape}
    (hall : effects d (refInserts (playerLinks s.systemNode n shape)) = some d') :
    Yields (Succeeds hoodUserName) d s (linkPlayer n shape)
      (.ret (nodeId n, nodeId (n + 1), shape.hood.owners)) d' s [] := by
  unfold linkPlayer
  rw [← List.append_nil (refInserts _)] at hall
  refine yields_get.bind (through_refNodes hall fun d₁ hall => ?_)
  cases hall
  exact yields_pure _

section Player

variable {acctId : Uuid} {player : PlayerInfo} {shape : PlayerShape} {d₀ : Tables}

theorem settlePlayer_yields {done : List Statement} {taken : List Uuid} (hd₀ : Numbered d₀)
    (h : PlayerProgress d₀ done taken d)
    (hoffered : shape.hood.Offered hoodUserName ext d₀ taken d.nextNode)
    (hcity : ∃ row ∈ d₀.nodes, IsPublicAge "city" row.node ∧ row.idx.toUInt32 ≠ 0 ∧
      shape.city = row.idx.toUInt32)
    (hall : effects d (shape.hood.inserts ext s.systemNode ++
      refInserts (playerLinks s.systemNode d₀.nextNode shape)) = some d') :
    Yields (Succeeds hoodUserName) d s (settlePlayer ext d₀.nextNode shape.relto)
      (.ret (nodeId d₀.nextNode, nodeId (d₀.nextNode + 1), shape.hood.owners)) d' s [] := by
  rw [effects_append] at hall
  obtain ⟨d₁, hhood, hlinks⟩ := Option.bind_eq_some_iff.1 hall
  obtain ⟨row, hrow, hage, hne, hcity⟩ := hcity
  have hrow₁ := (grown_of_effects Hood.inserts_isInsert hhood).mem_nodes (h.grown.mem_nodes hrow)
  unfold settlePlayer
  refine (findNeighborhood_yields hd₀ h hoffered hhood).bind ?_
  rw [if_neg (hoffered.info_ne hhood)]
  refine (findPublicAge1_yields hrow₁ hage).bind ?_
  rw [if_neg hne, ← hcity]
  exact linkPlayer_yields hlinks

theorem playerNodes_isInsert {n : Nat} :
    ∀ q ∈ (playerNodes acctId player n).map Statement.createNode, q.IsInsert := by
  intro q hq
  obtain ⟨node, -, rfl⟩ := List.mem_map.1 hq
  trivial

/-- The first nodes are those of the player. -/
theorem progress_playerNodes (hd₀ : Numbered d₀)
    (hall : effects d₀ ((playerNodes acctId player d₀.nextNode).map .createNode) = some d) :
    Progress d₀ ((playerNodes acctId player d₀.nextNode).map .createNode) d ∧
      Grown d₀ d ((playerNodes acctId player d₀.nextNode).map .createNode) ∧
      d.nextNode = d₀.nextNode + 16 := by
  have hgrown := grown_of_effects playerNodes_isInsert hall
  exact ⟨(Progress.start hd₀).effects playerNodes_isInsert trivial hall, hgrown, hgrown.nextNode⟩

theorem Spares.append {uuid : Uuid} {qs' : List Statement} (h : Spares uuid qs)
    (h' : Spares uuid qs') : Spares uuid (qs ++ qs') :=
  ⟨fun node hmem => (List.mem_append.1 hmem).elim (h.nodes node) (h'.nodes node),
    fun ageId filename agedesc ageNode ageSdlNode hmem => (List.mem_append.1 hmem).elim
      (h.servers ageId filename agedesc ageNode ageSdlNode)
      (h'.servers ageId filename agedesc ageNode ageSdlNode)⟩

theorem spares_refNode {uuid : Uuid} {parentIdx childIdx ownerIdx : UInt32} :
    Spares uuid [.refNode parentIdx childIdx ownerIdx] := by
  constructor
  · intro _ hmem
    cases List.mem_singleton.1 hmem
  · intro _ _ _ _ _ hmem
    cases List.mem_singleton.1 hmem

/-- What a script has made until the hood keeps what the vault offers. -/
theorem kept_startInserts {systemNode : UInt32} {d₂ : Tables} {a : QueryOutcome}
    (hd₀ : Numbered d₀) (hsystem : systemNode.toNat < d₀.nextNode)
    (hrelto : shape.relto = d₁.nextNode)
    (hnodes : effects d₀ ((playerNodes acctId player d₀.nextNode).map .createNode) = some d₁)
    (hage : effects d₁ (ageInserts ext systemNode (reltoAge player shape.reltoId) shape.reltoSeq 0
      shape.relto) = some d₂)
    (hq : carryOut d₂ (.refNode (nodeId (shape.relto + 8)) (nodeId (d₀.nextNode + 1)) 0) =
      some (a, d)) :
    PlayerProgress d₀ (startInserts ext systemNode acctId player d₀.nextNode shape)
        [acctId, shape.reltoId] d ∧
      d.nextNode = shape.relto + 10 := by
  obtain ⟨hprog, -, hnext⟩ := progress_playerNodes hd₀ hnodes
  rw [hrelto] at hage
  obtain ⟨hlt, hnext₂⟩ := lt_of_age hage
  rw [← hrelto] at hage hlt hnext₂ hnext
  have hlink : effects d₂ [.refNode (nodeId (shape.relto + 8)) (nodeId (d₀.nextNode + 1)) 0] =
      some d := effects_cons_eq_some.2 ⟨a, d, hq, rfl⟩
  have hstart : effects d₀ (startInserts ext systemNode acctId player d₀.nextNode shape) =
      some d := by
    rw [startInserts, effects_append, effects_append, hnodes, Option.bind_some, hage,
      Option.bind_some, hlink]
  have hisInsert : ∀ q ∈ startInserts ext systemNode acctId player d₀.nextNode shape,
      q.IsInsert := by
    intro q hmem
    rw [startInserts, List.mem_append, List.mem_append, List.mem_singleton] at hmem
    obtain (hmem | hmem) | rfl := hmem
    · exact playerNodes_isInsert q hmem
    · exact ageInserts_isInsert q hmem
    · trivial
  have howners := toNat_nodeId_le (shape.relto + 8)
  have hinfo := toNat_nodeId_le (d₀.nextNode + 1)
  have hscoped : Scoped d₁.nextNode
      (ageInserts ext systemNode (reltoAge player shape.reltoId) shape.reltoSeq 0 shape.relto) := by
    rw [← hrelto]
    exact scoped_ageInserts (by omega)
  refine ⟨⟨?_, grown_of_effects hisInsert hstart, fun p c o h => parent_of_startInserts shape
    ⟨by omega, by omega⟩ h, unnamed_startInserts (by decide), fun uuid huuid => ?_⟩, ?_⟩
  · refine (hprog.effects ageInserts_isInsert hscoped hage).effects (fun q hmem => ?_)
      ⟨by omega, by omega, trivial⟩ hlink
    rw [List.mem_singleton.1 hmem]
    trivial
  · rw [List.mem_cons, List.mem_singleton, not_or] at huuid
    exact ((spares_playerNodes huuid.1).append (spares_ageInserts huuid.2)).append spares_refNode
  · obtain ⟨-, -, -, -, rfl⟩ := carryOut_refNode hq
    exact hnext₂

theorem enterRelto_yields {n relto : Nat} {x : Lib.Exit (UInt32 × UInt32 × UInt32)}
    {owners : NodeRow} {a : QueryOutcome} (hlt : relto + 9 < 2 ^ 31)
    (howners : owners ∈ ownersFolders d (nodeId (relto + 4)).toInt32)
    (hidx : owners.idx.toUInt32 = nodeId (relto + 8))
    (hq : carryOut d (.refNode (nodeId (relto + 8)) (nodeId (n + 1)) 0) = some (a, d₁))
    (h : Yields (Succeeds hoodUserName) d₁ s (settlePlayer ext n relto) x d' s []) :
    Yields (Succeeds hoodUserName) d s (enterRelto ext n relto) x d' s [] := by
  have hread : Db.integer (nodeId (relto + 4)) = some (nodeId (relto + 4)).toInt32 :=
    if_pos (by rw [toNat_nodeId (by omega)]; omega)
  obtain ⟨rest, hfirst⟩ : ∃ rest, Yields (Succeeds hoodUserName) d s
      (exec .createPlayer (.findReltoOwners (nodeId (relto + 4))))
      (.ret (rowsOf (.findReltoOwners (nodeId (relto + 4))) (cells [intCell owners.idx] :: rest))) d s
      [] := yields_first howners (folderRows_eq hread)
  have hsome : (rowsOf (.findReltoOwners (nodeId (relto + 4)))
      (cells [intCell owners.idx] :: rest)).ntuples ≠ 0 := Nat.succ_ne_zero _
  unfold enterRelto
  refine hfirst.bind ?_
  rw [if_neg (not_not_intro rfl), if_neg hsome, numAt_first rfl, hidx, Lib.Prog.pure_bind]
  exact (vRefNode_yields hq).bind h

/-- **A player whose inserts can be carried out is made.** -/
theorem vCreatePlayer_yields (hd₀ : Numbered d₀) (hsystem : s.systemNode.toNat < d₀.nextNode)
    (hoffers : Offers hoodUserName ext acctId d₀ shape)
    (hall : effects d₀ (playerInserts ext s.systemNode acctId player d₀.nextNode shape) = some d') :
    Yields (Succeeds hoodUserName) d₀ s (vCreatePlayer ext acctId player)
      (.ret (nodeId d₀.nextNode, nodeId (d₀.nextNode + 1), shape.hood.owners)) d' s [] := by
  rw [playerInserts, effects_append] at hall
  obtain ⟨d₁, hnodes, hall⟩ := Option.bind_eq_some_iff.1 hall
  rw [effects_append] at hall
  obtain ⟨d₂, hage, hall⟩ := Option.bind_eq_some_iff.1 hall
  obtain ⟨a, d₃, hq, hrest⟩ := effects_cons_eq_some.1 hall
  obtain ⟨hprog, hgrown, hnext⟩ := progress_playerNodes hd₀ hnodes
  have hrelto : shape.relto = d₁.nextNode := hoffers.relto.trans hnext.symm
  obtain ⟨hkept, hnext₃⟩ := kept_startInserts hd₀ hsystem hrelto hnodes hage hq
  obtain ⟨hfresh, hne⟩ := hoffers.reltoId
  have hfresh₁ := hfresh.grown hgrown (spares_playerNodes hne)
  rw [hrelto, hoffers.reltoSeq] at hage
  have hlt := (lt_of_age hage).1
  obtain ⟨owners, howners, hidx⟩ := exists_owners_of_age hage
  have hsettle : Yields (Succeeds hoodUserName) d₃ s (settlePlayer ext d₀.nextNode shape.relto)
      (.ret (nodeId d₀.nextNode, nodeId (d₀.nextNode + 1), shape.hood.owners)) d' s [] :=
    settlePlayer_yields hd₀ hkept (hnext₃ ▸ hoffers.hood) hoffers.city hrest
  rw [hrelto] at hq hsettle
  have hreltoNode : nodeId d₁.nextNode ≠ 0 :=
    nodeId_ne_zero hprog.numbered.pos ((Nat.le_add_right _ 9).trans_lt hlt)
  unfold vCreatePlayer
  refine through_createNode rfl hd₀.pos hnodes fun e hn hnodes => ?_
  iterate 15 refine through_createNode hn (Nat.succ_pos _) hnodes fun e hn hnodes => ?_
  cases hnodes
  refine (genUuid_yields hfresh₁).bind ?_
  refine Yields.bind (vCreateAge_yields hfresh.notNull (Int.lt_irrefl 0) hprog.numbered.pos hage) ?_
  show Yields _ _ _
    (if nodeId d₁.nextNode = 0 then _ else enterRelto ext d₀.nextNode d₁.nextNode) _ _ _ _
  rw [if_neg hreltoNode]
  exact enterRelto_yields hlt howners hidx hq hsettle

end Player

/-- The system node, the global inbox and the list of all players. -/
def startVault : Tables where
  nodes :=
    [{ idx := 10001, node := { nodeType := some Vault.NodeType.system.toInt } },
     { idx := 10002, node := { nodeType := some Vault.NodeType.folder.toInt, int32_1 := some 30 } },
     { idx := 10003, node := { nodeType := some Vault.NodeType.playerInfoList.toInt
                               int32_1 := some 12 } }]
  refs := [⟨10001, 10002, 0⟩]
  nextNode := 10004

/-- The city. -/
def cityRow : NodeRow where
  idx := 10004
  node := { nodeType := some Vault.NodeType.ageInfo.toInt, int32_2 := some 1
            string64_2 := some "city" }

/-- A hood. -/
def hoodRow : NodeRow where
  idx := 10005
  node := { nodeType := some Vault.NodeType.ageInfo.toInt, string64_2 := some "Neighborhood"
            string64_4 := some "" }

/-- The folder of the owners of the hood. -/
def ownersRow : NodeRow where
  idx := 10006
  node := { nodeType := some Vault.NodeType.playerInfoList.toInt
            int32_1 := some Vault.StandardNode.ageOwnersFolder.toInt }

/-- A vault with the city and a hood that has room. -/
def cityVault : Tables where
  nodes := startVault.nodes ++ [cityRow, hoodRow, ownersRow]
  refs := startVault.refs ++ [⟨10005, 10006, 0⟩]
  nextNode := 10007

theorem cityVault_sound : SoundVault cityVault := by
  refine ⟨⟨by decide, by decide, by decide, by decide⟩, ?_⟩
  refine Lib.Graph.acyclic_of_rank (fun idx => (10006 - idx).toInt.toNat) ?_
  decide

def cityShape : PlayerShape where
  reltoId := ⟨1, 0, 0, Vector.replicate 8 0⟩
  reltoSeq := 0
  relto := 10023
  hood := .found 10005 10006
  city := 10004

/-- What that vault offers to its first player. -/
theorem cityVault_offers : Offers "" Daemon.plainExternal .null cityVault cityShape where
  reltoId := ⟨⟨by decide, fun _ hrow => absurd hrow List.not_mem_nil, by decide⟩, by decide⟩
  reltoSeq := rfl
  relto := rfl
  hood := by
    have hroom : ownerCount cityVault ownersRow.idx < 20 := by decide +kernel
    have hoffered : (Hood.found hoodRow.idx.toUInt32 ownersRow.idx.toUInt32).Offered ""
        Daemon.plainExternal cityVault [.null, cityShape.reltoId] (cityShape.relto + 10) :=
      .found (by decide) ⟨rfl, rfl⟩ (by decide) (by decide) hroom
    exact hoffered
  city := ⟨cityRow, by decide, by decide, by decide, rfl⟩

end Dirtsand.AuthServ
