import Dirtsand.AuthServ.Script

/-!
# The creation of ages

* `ageInserts` — the inserts of `v_create_age`, which `vCreateAge_ensures` says it makes.
* `vCreateAge_yields` — an age whose inserts can be carried out is made.
-/

namespace Dirtsand.AuthServ

open Lib.Prog
open Db (Tables)

/-! ## Ages -/

/-- The folders of an age. -/
def ageFolder (ageId : Uuid) (ageNode : UInt32) (type : Vault.NodeType)
    (folder : Vault.StandardNode) : Vault.Node :=
  { nodeType := some type.toInt, creatorUuid := some ageId, creatorIdx := some ageNode
    int32_1 := some folder.toInt }

/-- The inserts of `v_create_age`, whose nodes get the numbers from `n` on. -/
def ageInserts (ext : External) (systemNode : UInt32) (age : AgeInfo) (seqNumber : Int)
    (flags : UInt32) (n : Nat) : List Statement :=
  let parentId := if age.parentId.isNull then none else some age.parentId
  let folder := ageFolder age.ageId (nodeId n)
  let agedesc :=
    if !age.description.isEmpty then age.description
    else if !age.instName.isEmpty then age.instName
    else age.filename
  [.createNode
      { nodeType := some Vault.NodeType.age.toInt, creatorUuid := some age.ageId
        uuid_1 := some age.ageId, uuid_2 := parentId, string64_1 := some age.filename },
    .createNode (folder .folder .chronicleFolder),
    .createNode (folder .playerInfoList .peopleIKnowAboutFolder),
    .createNode (folder .ageInfoList .subAgesFolder),
    .createNode
      { nodeType := some Vault.NodeType.ageInfo.toInt, creatorUuid := some age.ageId
        creatorIdx := some (nodeId n), int32_1 := some seqNumber
        int32_2 := some (if flags &&& agePublic ≠ 0 then 1 else 0), int32_3 := some age.language
        uint32_1 := some (nodeId n), uint32_2 := some 0, uint32_3 := some 0
        uuid_1 := some age.ageId, uuid_2 := parentId, string64_2 := some age.filename
        string64_3 := someUnlessEmpty age.instName, string64_4 := someUnlessEmpty age.userName
        text_1 := someUnlessEmpty age.description },
    .createNode (folder .folder .ageDevicesFolder),
    .createNode (folder .playerInfoList .canVisitFolder),
    .createNode
      { nodeType := some Vault.NodeType.sdl.toInt, creatorUuid := some age.ageId
        creatorIdx := some (nodeId n), int32_1 := some 0, string64_1 := some age.filename
        blob_1 := some (ext.genDefaultSdl age.filename) },
    .createNode (folder .playerInfoList .ageOwnersFolder),
    .createNode (folder .ageInfoList .childAgesFolder)] ++
  (refInserts [(nodeId n, systemNode), (nodeId n, nodeId (n + 1)), (nodeId n, nodeId (n + 2)),
    (nodeId n, nodeId (n + 3)), (nodeId n, nodeId (n + 4)), (nodeId n, nodeId (n + 5)),
    (nodeId (n + 4), nodeId (n + 6)), (nodeId (n + 4), nodeId (n + 7)),
    (nodeId (n + 4), nodeId (n + 8)), (nodeId (n + 4), nodeId (n + 9))] ++
  [.insertServer age.ageId age.filename agedesc (nodeId n) (nodeId (n + 7))])

theorem isInsert_of_mem_refInserts {refs : List (UInt32 × UInt32)} {q : Statement}
    (h : q ∈ refInserts refs) : q.IsInsert := by
  obtain ⟨ref, -, rfl⟩ := List.mem_map.1 h
  trivial

theorem ageInserts_isInsert {ext : External} {systemNode : UInt32} {age : AgeInfo} {seqNumber : Int}
    {flags : UInt32} {n : Nat} :
    ∀ q ∈ ageInserts ext systemNode age seqNumber flags n, q.IsInsert := by
  intro q hq
  rw [ageInserts, List.mem_append, List.mem_append] at hq
  obtain hq | hq | hq := hq
  · revert q
    simp only [List.forall_mem_cons, Statement.IsInsert, true_and]
    exact List.forall_mem_nil _
  · exact isInsert_of_mem_refInserts hq
  · rw [List.mem_singleton.1 hq]
    trivial

/-- The age itself is the only node of its type. -/
theorem mem_newNodes_ageInserts {ext : External} {systemNode : UInt32} {age : AgeInfo}
    {seqNumber : Int} {flags : UInt32} {n : Nat} {row : Db.NodeRow}
    (hrow : row ∈ newNodes n (ageInserts ext systemNode age seqNumber flags n))
    (htype : row.node.nodeType = some Vault.NodeType.age.toInt) :
    row.idx = Int32.ofNat n ∧ ∀ ageId, row.node.uuid_1 = some ageId → ageId = age.ageId := by
  obtain rfl | hrow := List.mem_cons.1 hrow
  · refine ⟨rfl, fun ageId huuid => ?_⟩
    exact (Option.some.inj (stored_eq.2 ageId huuid)).symm
  · obtain ⟨node, hnode, hstored⟩ := exists_createNode hrow
    rw [hstored] at htype
    have htype := stored_eq.1 _ htype
    refine absurd htype ?_
    clear hstored hrow htype
    obtain hnode | hnode := List.mem_append.1 hnode
    · simp only [List.mem_cons, List.not_mem_nil, or_false, Statement.createNode.injEq] at hnode
      obtain rfl | rfl | rfl | rfl | rfl | rfl | rfl | rfl | rfl := hnode
      all_goals
        simp only [ageFolder]
        decide
    · obtain hnode | hnode := List.mem_append.1 hnode
      · obtain ⟨ref, -, href⟩ := List.mem_map.1 hnode
        cases href
      · cases List.mem_singleton.1 hnode

section

variable {hoodUserName : String}
  {serves : Tables → CallSite × Statement → QueryOutcome → Tables → Prop}
  {d d' : Tables} {s : DaemonState} {site : CallSite}

instance {ext : External} {age : AgeInfo} {seqNumber : Int} {flags : UInt32} :
    Steady (vCreateAgeNodes ext site age seqNumber flags) := by
  unfold vCreateAgeNodes
  infer_instance

instance {ext : External} {age : AgeInfo} {flags : UInt32} :
    Steady (vCreateAge ext site age flags) := by
  unfold vCreateAge
  infer_instance

theorem vCreateAgeNodes_follows [IsDatabase hoodUserName serves] {ext : External} {age : AgeInfo}
    {seqNumber : Int} {flags : UInt32} {n : Nat} (hn : d.nextNode = n) (hpos : 0 < n) :
    Ensures serves d s (vCreateAgeNodes ext site age seqNumber flags)
      (Follows d s (ageInserts ext s.systemNode age seqNumber flags n) (Failing serves)
        (fun nodes => nodes = (nodeId n, nodeId (n + 4)) ∧ n + 9 < 2 ^ 31)
        (fun nodes => nodes = (0, 0))) := by
  unfold vCreateAgeNodes ageInserts
  refine follows_createNode hn hpos id rfl fun d₁ hn _ => ?_
  iterate 8 refine follows_createNode hn (Nat.succ_pos _) id rfl fun d₁ hn _ => ?_
  refine follows_createNode hn (Nat.succ_pos _) id rfl fun d₁ hn hlt => ?_
  refine follows_get (follows_refNodes id rfl fun d₁ _ => ?_)
  exact follows_insertServer id rfl ⟨rfl, hlt⟩

/-- The UUID of a new age. -/
def AgeIdOf (serves : Tables → CallSite × Statement → QueryOutcome → Tables → Prop) (d : Tables)
    (asked ageId : Uuid) : Prop :=
  if asked.isNull then NewUuid serves d ageId else ageId = asked

theorem uuidOrNew_ensures [IsDatabase hoodUserName serves] (id : Uuid) :
    Ensures serves d s (uuidOrNew site id)
      fun x d' s' out => s' = s ∧ out = [] ∧ d.SameRows d' ∧ (d' = d ∨ Failing serves) ∧
        ((∃ uuid, x = .ret uuid ∧ AgeIdOf serves d id uuid) ∨ x = .throw ∧ Failing serves) := by
  unfold uuidOrNew
  refine ensures_ite (fun hnull => ?_) fun hnull => ?_
  · simp only [AgeIdOf, if_pos hnull]
    exact genUuid_ensures
  · simp only [AgeIdOf, if_neg hnull]
    exact ensures_pure ⟨rfl, rfl, .refl _, .inl rfl, .inl ⟨_, rfl, rfl⟩⟩

/-- What `v_create_age` does: it makes the inserts of an age.  Before them, `gen_uuid` and the
sequence of the ages may use up a number. -/
def CreatesAge (serves : Tables → CallSite × Statement → QueryOutcome → Tables → Prop)
    (ext : External) (age : AgeInfo) (flags : UInt32) (d : Tables) (s : DaemonState)
    (x : Lib.Exit (UInt32 × UInt32)) (d' : Tables) (s' : DaemonState) (out : List Reply) : Prop :=
  ∃ d₁ ageId seqNumber, d.SameRows d₁ ∧ (d₁ = d ∨ Failing serves) ∧
    AgeIdOf serves d age.ageId ageId ∧
    Follows d₁ s (ageInserts ext s.systemNode { age with ageId } seqNumber flags d₁.nextNode)
      (Failing serves) (fun nodes => nodes = (nodeId d₁.nextNode, nodeId (d₁.nextNode + 4)) ∧
        d₁.nextNode + 9 < 2 ^ 31) (fun nodes => nodes = (0, 0)) x d' s' out

theorem Succeeds.nextAgeSeq_eq {a : QueryOutcome}
    (h : Succeeds hoodUserName d (site, .nextAgeSeq) a d') :
    d' = d ∧ ∃ n : Nat, a = .tuples [cells [fromUint n]] := by
  cases h with
  | nextAgeSeq n => exact ⟨rfl, n, rfl⟩
  | select h _ => cases h
  | change h => cases h
  | read _ h | write h => cases h

/-- Some UUID is the UUID of a new age where statements fail. -/
theorem exists_ageIdOf (hfails : Failing serves) (asked : Uuid) :
    ∃ ageId, AgeIdOf serves d asked ageId := by
  unfold AgeIdOf
  split
  · exact ⟨.null, .inr ⟨hfails, rfl⟩⟩
  · exact ⟨asked, rfl⟩

/-- The next of the numbers of the ages, as the daemon reads it. -/
def readSeq (n : Nat) : Int := toInt32 (strtol 10 (fromUint n).toList)

theorem intAt_readSeq (n : Nat) :
    intAt (rowsOf .nextAgeSeq [cells [fromUint n]]) 0 0 = pure (readSeq n) := by
  have hvalue : (rowsOf .nextAgeSeq [cells [fromUint n]]).getvalue 0 0 = some (fromUint n) :=
    getvalue_rowsOf rfl Nat.zero_lt_one rfl
  simp only [intAt, hvalue, readSeq]

theorem vCreateAge_ensures [IsDatabase hoodUserName serves] (ext : External) (site : CallSite)
    (age : AgeInfo) (flags : UInt32) (hpos : 0 < d.nextNode) :
    Ensures serves d s (vCreateAge ext site age flags) (CreatesAge serves ext age flags d s) := by
  unfold vCreateAge
  refine ensures_bind ((uuidOrNew_ensures age.ageId).mono fun x d₁ s₁ out hpost => ?_)
  obtain ⟨rfl, rfl, hsame, hd, ⟨ageId, rfl, hageId⟩ | ⟨rfl, hfails⟩⟩ := hpost
  · refine ensures_ite (fun _ => ?_) fun _ => ?_
    · refine ensures_bind (ensures_answered (fun rows d' h => ?_) (fun d' h => ?_)
        (fun d' hfails hsame' => ?_) fun d' hfails hsame' => ?_)
      · obtain ⟨rfl, n, ha⟩ := h.nextAgeSeq_eq
        cases ha
        show Ensures _ _ _ (dsAssert _ >>= fun _ => intAt (rowsOf _ _) 0 0 >>= fun seqNumber => _) _
        rw [intAt_readSeq]
        refine (vCreateAgeNodes_follows rfl (Nat.lt_of_lt_of_le hpos hsame.nextNode)).mono
          fun x d' s' out hfollows => ?_
        exact ⟨_, ageId, _, hsame, hd, hageId, hfollows⟩
      · obtain ⟨-, _, ha⟩ := h.nextAgeSeq_eq
        cases ha
      · have hstopped : CreatesAge serves ext age flags d s₁ (.ret (0, 0)) d' s₁ [] :=
          ⟨d', ageId, 0, hsame.trans hsame', .inr hfails, hageId, .stopped hfails
            (fun nodes hnodes => (Lib.Exit.ret.inj hnodes).symm) (.refl _)⟩
        exact ensures_pure hstopped
      · exact ⟨d', ageId, 0, hsame.trans hsame', .inr hfails, hageId, .stopped hfails nofun (.refl _)⟩
    · refine (vCreateAgeNodes_follows rfl (Nat.lt_of_lt_of_le hpos hsame.nextNode)).mono
        fun x d' s' out hfollows => ?_
      exact ⟨d₁, ageId, age.seqNumber, hsame, hd, hageId, hfollows⟩
  · obtain ⟨ageId, hageId⟩ := exists_ageIdOf (d := d) hfails age.ageId
    exact ⟨d₁, ageId, 0, hsame, hd, hageId, .stopped hfails nofun (.refl _)⟩

theorem vCreateAgeNodes_yields {ext : External} {age : AgeInfo} {seqNumber : Int} {flags : UInt32}
    (hpos : 0 < d.nextNode)
    (hall : effects d (ageInserts ext s.systemNode age seqNumber flags d.nextNode) = some d') :
    Yields (Succeeds hoodUserName) d s (vCreateAgeNodes ext site age seqNumber flags)
      (.ret (nodeId d.nextNode, nodeId (d.nextNode + 4))) d' s [] := by
  unfold vCreateAgeNodes
  refine through_createNode rfl hpos hall fun d₁ hn hall => ?_
  iterate 9 refine through_createNode hn (Nat.succ_pos _) hall fun d₁ hn hall => ?_
  refine yields_get.bind (through_refNodes hall fun d₁ hall => ?_)
  obtain ⟨a, d₂, hq, hrest⟩ := effects_cons_eq_some.1 hall
  cases hrest
  obtain ⟨rfl, -⟩ := carryOut_insertServer hq
  exact (yields_command (.change hq)).bind (yields_pure _)

/-- An age whose inserts can be carried out is made. -/
theorem vCreateAge_yields {ext : External} {age : AgeInfo} {flags : UInt32}
    (hnull : age.ageId.isNull = false) (hseq : ¬age.seqNumber < 0) (hpos : 0 < d.nextNode)
    (hall : effects d (ageInserts ext s.systemNode age age.seqNumber flags d.nextNode) = some d') :
    Yields (Succeeds hoodUserName) d s (vCreateAge ext site age flags)
      (.ret (nodeId d.nextNode, nodeId (d.nextNode + 4))) d' s [] := by
  have hid : uuidOrNew site age.ageId = pure age.ageId := if_neg (Bool.eq_false_iff.1 hnull)
  rw [vCreateAge, hid, Lib.Prog.pure_bind, if_neg hseq]
  exact vCreateAgeNodes_yields hpos hall

/-- An age that asks for a number of its own takes any that is next. -/
theorem vCreateAge_yields_seq {ext : External} {age : AgeInfo} {flags : UInt32} (n : Nat)
    (hnull : age.ageId.isNull = false) (hseq : age.seqNumber < 0) (hpos : 0 < d.nextNode)
    (hall : effects d (ageInserts ext s.systemNode age (readSeq n) flags d.nextNode) = some d') :
    Yields (Succeeds hoodUserName) d s (vCreateAge ext site age flags)
      (.ret (nodeId d.nextNode, nodeId (d.nextNode + 4))) d' s [] := by
  have hid : uuidOrNew site age.ageId = pure age.ageId := if_neg (Bool.eq_false_iff.1 hnull)
  rw [vCreateAge, hid, Lib.Prog.pure_bind, if_pos hseq]
  refine (yields_exec (.nextAgeSeq n)).bind ?_
  show Yields _ _ _ (dsAssert _ >>= fun _ =>
    intAt (rowsOf _ _) 0 0 >>= fun seqNumber => vCreateAgeNodes ext site age seqNumber flags) _ _ _ _
  rw [intAt_readSeq]
  exact vCreateAgeNodes_yields hpos hall

end

end Dirtsand.AuthServ
