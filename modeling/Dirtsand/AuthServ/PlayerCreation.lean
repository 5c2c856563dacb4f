import Dirtsand.AuthServ.PlayerScript

/-!
# The creation of players

`v_create_player` follows the script of a player, and whatever fails on the way, what it has
inserted until then is a part of one.

* `Progress` — how far a script has got.
* `ensures_newNode`, `ensures_refNodes`, `ensures_age` — what one step of a script makes, or
  leaves when it fails.
* `vCreatePlayer_ensures`, `CreatesPlayer.sound` — a player is returned only with all of the
  script, and no part of it spoils the vault.
-/

namespace Dirtsand.AuthServ

open Lib.Prog
open Db (Tables RefRow NodeRow Acyclic storedFields integer_eq_some)

variable {hoodUserName : String}
  {serves : Tables → CallSite × Statement → QueryOutcome → Tables → Prop}
  {d₀ d d' d₁ : Tables} {s : DaemonState} {site : CallSite} {q : Statement}
  {done qs : List Statement} {a : QueryOutcome} {α β : Type}

/-! ## Progress -/

/-- The inserts `done` have been made, and the vault is numbered. -/
structure Progress (d₀ : Tables) (done : List Statement) (d : Tables) : Prop where
  inserts : Inserts d₀ done d
  isInsert : ∀ q ∈ done, q.IsInsert
  numbered : Numbered d

theorem Progress.start (h : Numbered d) : Progress d [] d :=
  ⟨.done (.refl d), fun _ hq => absurd hq List.not_mem_nil, h⟩

theorem Progress.sameRows (h : Progress d₀ done d) (hsame : d.SameRows d') :
    Progress d₀ done d' := by
  refine ⟨?_, h.isInsert, h.numbered.thinned (thinned_of_sameRows hsame)⟩
  rw [← List.append_nil done]
  exact h.inserts.append (.done hsame)

theorem Progress.effects (h : Progress d₀ done d) (hall : ∀ q ∈ qs, q.IsInsert)
    (hscoped : Scoped d.nextNode qs) (heffects : AuthServ.effects d qs = some d') :
    Progress d₀ (done ++ qs) d' := by
  refine ⟨h.inserts.append (.of_effects heffects), fun q hq => ?_,
    numbered_of_effects hall h.numbered hscoped heffects⟩
  exact (List.mem_append.1 hq).elim (h.isInsert q) (hall q)

theorem Progress.extended (h : Progress d₀ done d) : Extended d₀ d done :=
  h.inserts.extended h.isInsert

/-! ## Statements -/

section Rules

/-- **The rule for a `SELECT` that may fail.** -/
theorem ensures_selected [IsDatabase hoodUserName serves]
    {post : Lib.Exit PGresult → Tables → DaemonState → List Reply → Prop} (hq : q.kind = .select)
    (h : ∀ rows rows', selectRows hoodUserName d q = some rows' → rows.Perm rows' →
      post (.ret (rowsOf q rows)) d s [])
    (herror : ∀ d', d.SameRows d' → post (.ret { status := .fatalError }) d' s [])
    (hthrows : ∀ d', d.SameRows d' → post .throw d' s []) :
    Ensures serves d s (exec site q) post := by
  refine ensures_answered (fun rows d' hdone => ?_) (fun d' hdone => ?_)
    (fun d' _ => herror d') fun d' _ => hthrows d'
  · obtain ⟨rows', _, hrows, ha, horder, rfl⟩ := hdone.selected hq
    cases ha
    exact h rows rows' hrows horder
  · obtain ⟨_, _, -, ha, -⟩ := hdone.selected hq
    cases ha

/-- What a program that follows a script has made. -/
theorem Progress.follows {stops : Prop} {P N : α → Prop} {x : Lib.Exit α} {s' : DaemonState}
    {out : List Reply} (hprog : Progress d₀ done d) (hall : ∀ q ∈ qs, q.IsInsert)
    (hscoped : Scoped d.nextNode qs) (h : Follows d s qs stops P N x d' s' out) :
    s' = s ∧ out = [] ∧ ((∃ a, x = .ret a ∧ P a ∧ AuthServ.effects d qs = some d' ∧
        Progress d₀ (done ++ qs) d') ∨
      (∀ a, x = .ret a → N a) ∧ ∃ part, part <+: qs ∧
        (∃ d₁, AuthServ.effects d part = some d₁) ∧ Progress d₀ (done ++ part) d') := by
  obtain ⟨hs, hout, ⟨a, hx, hP, heffects⟩ | ⟨-, hN, part, d₁, hpart, heffects, hsame⟩⟩ := h
  · exact ⟨hs, hout, .inl ⟨a, hx, hP, heffects, hprog.effects hall hscoped heffects⟩⟩
  · refine ⟨hs, hout, .inr ⟨hN, part, hpart, ⟨d₁, heffects⟩, ?_⟩⟩
    exact (hprog.effects (fun q hq => hall q (hpart.subset hq)) (scoped_part hpart hscoped)
      heffects).sameRows hsame

/-- After a program that has stopped comes nothing but its answer `a₀`. -/
theorem ensures_stopped {f : β → DM α} {x : Lib.Exit β} {a₀ : α}
    {post : Lib.Exit α → Tables → DaemonState → List Reply → Prop}
    (h : ∀ x' : Lib.Exit α, (∀ a, x' = .ret a → a = a₀) → post x' d s []) :
    (∀ b, x = .ret b → f b = pure a₀) → match x with
    | .ret b => Ensures serves d s (f b) fun x' d' s' out => post x' d' s' ([] ++ out)
    | .throw => post .throw d s []
    | .crash => post .crash d s [] := by
  intro hf
  cases x with
  | ret b =>
    dsimp only
    rw [hf b rfl]
    refine ensures_pure (h _ fun a ha => ?_)
    cases ha
    rfl
  | throw => exact h _ nofun
  | crash => exact h _ nofun

/-- **The rule for a script and what comes after it**, where a part of it is all that is made
before the program stops. -/
theorem ensures_script {m : DM β} {f : β → DM α} [Steady m] [∀ b, Steady (f b)] {stops : Prop}
    {P N : β → Prop} {post : Lib.Exit α → Tables → DaemonState → List Reply → Prop} {a₀ : α}
    (hprog : Progress d₀ done d) (hall : ∀ q ∈ qs, q.IsInsert) (hscoped : Scoped d.nextNode qs)
    (hm : Ensures serves d s m (Follows d s qs stops P N)) (hN : ∀ b, N b → f b = pure a₀)
    (hstop : ∀ x d' part, part <+: qs → Progress d₀ (done ++ part) d' →
      (∀ a, x = .ret a → a = a₀) → post x d' s [])
    (h : ∀ b d₁, P b → AuthServ.effects d qs = some d₁ → Progress d₀ (done ++ qs) d₁ →
      Ensures serves d₁ s (f b) post) : Ensures serves d s (m >>= f) post := by
  refine ensures_bind (hm.mono fun x d₁ s₁ out hpost => ?_)
  obtain ⟨rfl, rfl, ⟨b, rfl, hP, heffects, hprog'⟩ | ⟨hN', part, hpart, -, hprog'⟩⟩ :=
    hprog.follows hall hscoped hpost
  · exact h b d₁ hP heffects hprog'
  · exact ensures_stopped (fun x' hx' => hstop x' d₁ part hpart hprog' hx')
      fun b hb => hN b (hN' b hb)

/-- **The rule for a new node.** -/
theorem ensures_newNode [IsDatabase hoodUserName serves] {f : UInt32 → DM α}
    [∀ idx, Steady (f idx)] {node : Vault.Node} {n : Nat}
    {post : Lib.Exit α → Tables → DaemonState → List Reply → Prop} {a₀ : α}
    (hprog : Progress d₀ done d) (hn : d.nextNode = n)
    (hstop : ∀ x d' done', done' <+: done ++ [.createNode node] → Progress d₀ done' d' →
      (∀ a, x = .ret a → a = a₀) → post x d' s [])
    (h : ∀ d₁, Progress d₀ (done ++ [.createNode node]) d₁ → d₁.nextNode = n + 1 → n < 2 ^ 31 →
      Ensures serves d₁ s (f (nodeId n)) post) :
    Ensures serves d s (vCreateNode site node >>= fun idx => if idx = 0 then pure a₀ else f idx)
      post := by
  have hall : ∀ q ∈ [Statement.createNode node], q.IsInsert := fun q hq => by
    rw [List.mem_singleton.1 hq]
    trivial
  refine ensures_script hprog hall trivial
    (vCreateNode_follows id) (fun idx hidx => if_pos hidx) (fun x d' part hpart hprog' hx => ?_)
    fun idx d₁ hidx heffects hprog' => ?_
  · exact hstop x d' _ ((List.prefix_append_right_inj done).2 hpart) hprog' hx
  · obtain ⟨a, d₂, hq, hrest⟩ := effects_cons_eq_some.1 heffects
    cases hrest
    obtain ⟨idx', _, hidx', -, -, rfl⟩ := carryOut_createNode hq
    obtain ⟨-, hlt⟩ := toUInt32_of_inRange hidx'
    subst hn hidx
    show Ensures _ _ _ (if nodeId d.nextNode = 0 then _ else _) _
    rw [if_neg (nodeId_ne_zero hprog.numbered.pos hlt)]
    exact h _ hprog' rfl hlt

/-- **The rule for the next** of some new nodes. -/
theorem ensures_nextNode [IsDatabase hoodUserName serves] {f : UInt32 → DM α}
    [∀ idx, Steady (f idx)] {nodes : List Vault.Node} {node : Vault.Node} {k : Nat}
    {post : Lib.Exit α → Tables → DaemonState → List Reply → Prop} {a₀ : α}
    (hprog : Progress d₀ ((nodes.take k).map .createNode) d) (hn : d.nextNode = d₀.nextNode + k)
    (hnode : nodes[k]? = some node)
    (hstop : ∀ x d' done', done' <+: nodes.map .createNode → Progress d₀ done' d' →
      (∀ a, x = .ret a → a = a₀) → post x d' s [])
    (h : ∀ d₁, Progress d₀ ((nodes.take (k + 1)).map .createNode) d₁ →
      d₁.nextNode = d₀.nextNode + (k + 1) →
      Ensures serves d₁ s (f (nodeId (d₀.nextNode + k))) post) :
    Ensures serves d s (vCreateNode site node >>= fun idx => if idx = 0 then pure a₀ else f idx)
      post := by
  have hnext : (nodes.take k).map Statement.createNode ++ [.createNode node] =
      (nodes.take (k + 1)).map .createNode := by
    rw [List.take_add_one, hnode, List.map_append]
    rfl
  refine ensures_newNode hprog hn (fun x d' done' hpre => hstop x d' done' ?_)
    fun d₁ hprog' hn' _ => ?_
  · rw [hnext] at hpre
    exact hpre.trans ((List.take_prefix (k + 1) nodes).map _)
  · rw [hnext] at hprog'
    exact h d₁ hprog' hn'

/-- **The rule for references**, and for what comes after them. -/
theorem ensures_refNodes [IsDatabase hoodUserName serves] {refs : List (UInt32 × UInt32)}
    {m : DM α} [Steady m] {post : Lib.Exit α → Tables → DaemonState → List Reply → Prop} {a₀ : α}
    (hprog : Progress d₀ done d) (hscoped : Scoped d.nextNode (refInserts refs))
    (hstop : ∀ x d' part, part <+: refInserts refs → Progress d₀ (done ++ part) d' →
      (∀ a, x = .ret a → a = a₀) → post x d' s [])
    (h : ∀ d₁, Progress d₀ (done ++ refInserts refs) d₁ → Ensures serves d₁ s m post) :
    Ensures serves d s (vRefNodes site refs >>= fun ok => if !ok then pure a₀ else m) post := by
  refine ensures_script hprog (fun q => isInsert_of_mem_refInserts) hscoped (vRefNodes_follows id)
    (fun ok hok => ?_) hstop fun ok d₁ hok _ hprog' => ?_
  · subst hok
    rfl
  · subst hok
    exact h d₁ hprog'

/-- **The rule for a new age**, and for what comes after it. -/
theorem ensures_age [IsDatabase hoodUserName serves] {ext : External} {age : AgeInfo}
    {flags : UInt32} {f : UInt32 × UInt32 → DM α} [∀ nodes, Steady (f nodes)]
    {post : Lib.Exit α → Tables → DaemonState → List Reply → Prop} {a₀ : α}
    (hprog : Progress d₀ done d) (hsystem : s.systemNode.toNat < d.nextNode)
    (hf : f (0, 0) = pure a₀)
    (hstop : ∀ x d' ageId seqNumber first part, d.nextNode ≤ first →
      (part ≠ [] → first < 2 ^ 31) →
      part <+: ageInserts ext s.systemNode { age with ageId } seqNumber flags first →
      Progress d₀ (done ++ part) d' → (∀ a, x = .ret a → a = a₀) → post x d' s [])
    (h : ∀ ageId seqNumber d₁ d₂, d.nextNode ≤ d₁.nextNode → d₁.nextNode + 9 < 2 ^ 31 →
      Numbered d₁ →
      AuthServ.effects d₁
        (ageInserts ext s.systemNode { age with ageId } seqNumber flags d₁.nextNode) = some d₂ →
      Progress d₀
        (done ++ ageInserts ext s.systemNode { age with ageId } seqNumber flags d₁.nextNode) d₂ →
      d₂.nextNode = d₁.nextNode + 10 →
      Ensures serves d₂ s (f (nodeId d₁.nextNode, nodeId (d₁.nextNode + 4))) post) :
    Ensures serves d s (vCreateAge ext site age flags >>= f) post := by
  refine ensures_bind ((vCreateAge_ensures ext site age flags hprog.numbered.pos).mono
    fun x d' s' out hpost => ?_)
  obtain ⟨d₁, ageId, seqNumber, hsame, -, -, hfollows⟩ := hpost
  have hprog₁ := hprog.sameRows hsame
  have hscoped : Scoped d₁.nextNode
      (ageInserts ext s.systemNode { age with ageId } seqNumber flags d₁.nextNode) :=
    scoped_ageInserts (Nat.lt_of_lt_of_le hsystem hsame.nextNode)
  obtain ⟨rfl, rfl, ⟨nodes, rfl, ⟨rfl, hlt⟩, heffects, hprog'⟩ |
      ⟨hN, part, hpart, heffects, hprog'⟩⟩ :=
    hprog₁.follows ageInserts_isInsert hscoped hfollows
  · exact h ageId seqNumber d₁ d' hsame.nextNode hlt hprog₁.numbered heffects hprog'
      (grown_of_effects ageInserts_isInsert heffects).nextNode
  · refine ensures_stopped (fun x' hx' => hstop x' d' ageId seqNumber _ part hsame.nextNode
      (fun hne => ?_) hpart hprog' hx') fun nodes hnodes => ?_
    · -- The first of the inserts is a node.
      obtain ⟨d₂, heffects⟩ := heffects
      obtain ⟨rest, hrest⟩ := hpart
      cases part with
      | nil => exact absurd rfl hne
      | cons q part =>
        obtain ⟨rfl, -⟩ := List.cons.inj hrest
        obtain ⟨a, d₃, hq, -⟩ := effects_cons_eq_some.1 heffects
        obtain ⟨idx, _, hidx, -⟩ := carryOut_createNode hq
        exact (toUInt32_of_inRange hidx).2
    · rw [hN nodes hnodes, hf]

end Rules

/-! ## Rows -/

theorem stored_string64_2 {node stored : Vault.Node} (h : storedFields node = some stored) :
    Db.kept (fun text => Db.varchar 64 (cstr text)) node.string64_2 = some stored.string64_2 := by
  unfold storedFields at h
  iterate 6 obtain ⟨_, -, h⟩ := Option.bind_eq_some_iff.1 h
  obtain ⟨_, -, h⟩ := Option.bind_eq_some_iff.1 h
  obtain ⟨_, hname, h⟩ := Option.bind_eq_some_iff.1 h
  iterate 8 obtain ⟨_, -, h⟩ := Option.bind_eq_some_iff.1 h
  cases h
  exact hname

theorem stored_int32_1 {node : Vault.Node} {v : Int}
    (h : ((storedFields node).getD {}).int32_1 = some v) : node.int32_1 = some v := by
  cases hstored : storedFields node with
  | none =>
    rw [hstored] at h
    cases h
  | some stored =>
    rw [hstored] at h
    exact (Db.storedFields_eq_some hstored).2.2.symm.trans h

/-- The folder of the owners of a new age. -/
theorem owners_of_age {ext : External} {systemNode : UInt32} {age : AgeInfo} {seqNumber : Int}
    {flags : UInt32} (hd : Numbered d) (hlt : d.nextNode + 9 < 2 ^ 31)
    (heffects : effects d (ageInserts ext systemNode age seqNumber flags d.nextNode) = some d')
    {row : NodeRow} (hrow : row ∈ Db.findFolder d' (nodeId (d.nextNode + 4)).toInt32
      Vault.StandardNode.ageOwnersFolder.toInt) : row.idx.toUInt32 = nodeId (d.nextNode + 8) := by
  have hgrown := grown_of_effects ageInserts_isInsert heffects
  rw [Db.findFolder, List.mem_filter, decide_eq_true_eq] at hrow
  obtain ⟨hmem, hchild, htype, hfolder⟩ := hrow
  rw [hgrown.nodes] at hmem
  obtain hold | hnew := List.mem_append.1 hmem
  · -- A node that was there before is no child of the new age.
    obtain ⟨ref, href, hends⟩ := List.any_eq_true.1 hchild
    rw [decide_eq_true_eq] at hends
    obtain ⟨hparent, hidx⟩ := hends
    have hgiven := (hd.given row hold).2
    have htop : (nodeId (d.nextNode + 4)).toInt32.toInt = ((d.nextNode + 4 : Nat) : Int) :=
      toInt_nodeId (by omega)
    rw [hgrown.refs] at href
    obtain href | href := List.mem_append.1 href
    · have hknown := (hd.known ref href).1
      rw [hparent, htop] at hknown
      omega
    · obtain ⟨p, c, o, hq, hp, hc, rfl⟩ := (Inserts.of_effects heffects).mem_newRefs href
      have hlink := refNode_mem_ageInserts hq
      rw [← hidx, toInt_toInt32 hc] at hgiven
      dsimp only at hparent
      have hpnode : (p.toNat : Int) = ((d.nextNode + 4 : Nat) : Int) := by
        rw [← toInt_toInt32 hp, hparent, htop]
      have hnode (k : Nat) (hk : k < 10) : (nodeId (d.nextNode + k)).toNat = d.nextNode + k :=
        toNat_nodeId (by omega)
      have hnode₀ : (nodeId d.nextNode).toNat = d.nextNode := hnode 0 (by decide)
      unfold ageLinks at hlink
      simp only [List.mem_cons, List.not_mem_nil, or_false, Prod.mk.injEq] at hlink
      obtain ⟨rfl, rfl⟩ | ⟨rfl, rfl⟩ | ⟨rfl, rfl⟩ | ⟨rfl, rfl⟩ | ⟨rfl, rfl⟩ | ⟨rfl, rfl⟩ |
        ⟨rfl, rfl⟩ | ⟨rfl, rfl⟩ | ⟨rfl, rfl⟩ | ⟨rfl, rfl⟩ := hlink
      all_goals
        simp only [hnode, hnode₀, Nat.reduceLT] at hpnode hgiven
        omega
  · -- Of the nodes of the age, only this one is such a folder.
    have hkind (node : Vault.Node) (hnode : row.node = (storedFields node).getD {}) :
        (node.nodeType = some 22 ∨ node.nodeType = some 30 ∨ node.nodeType = some 34) ∧
          node.int32_1 = some Vault.StandardNode.ageOwnersFolder.toInt := by
      rw [hnode] at htype hfolder
      exact ⟨htype.imp (stored_eq.1 _) (Or.imp (stored_eq.1 _) (stored_eq.1 _)),
        stored_int32_1 hfolder⟩
    have hother {node : Vault.Node} (hnode : row.node = (storedFields node).getD {})
        (hne : ¬((node.nodeType = some 22 ∨ node.nodeType = some 30 ∨ node.nodeType = some 34) ∧
          node.int32_1 = some Vault.StandardNode.ageOwnersFolder.toInt)) :
        row.idx.toUInt32 = nodeId (d.nextNode + 8) := absurd (hkind node hnode) hne
    obtain rfl | hnew := List.mem_cons.1 hnew
    · exact hother rfl (fun h => by cases h.2)
    obtain rfl | hnew := List.mem_cons.1 hnew
    · exact hother rfl (fun h => by cases h.2)
    obtain rfl | hnew := List.mem_cons.1 hnew
    · exact hother rfl (fun h => by cases h.2)
    obtain rfl | hnew := List.mem_cons.1 hnew
    · exact hother rfl (fun h => by cases h.2)
    obtain rfl | hnew := List.mem_cons.1 hnew
    · refine hother rfl fun h => ?_
      obtain h | h | h := h.1
      all_goals cases h
    obtain rfl | hnew := List.mem_cons.1 hnew
    · exact hother rfl (fun h => by cases h.2)
    obtain rfl | hnew := List.mem_cons.1 hnew
    · exact hother rfl (fun h => by cases h.2)
    obtain rfl | hnew := List.mem_cons.1 hnew
    · exact hother rfl (fun h => by cases h.2)
    obtain rfl | hnew := List.mem_cons.1 hnew
    · rfl
    obtain rfl | hnew := List.mem_cons.1 hnew
    · exact hother rfl (fun h => by cases h.2)
    cases hnew

/-- No node of the script has this name. -/
def Unnamed (name : String) (qs : List Statement) : Prop :=
  ∀ node, .createNode node ∈ qs → ∀ text, node.string64_2 = some text →
    Db.varchar 64 (cstr text) ≠ some name

theorem Unnamed.append {name : String} (h : Unnamed name done) (h' : Unnamed name qs) :
    Unnamed name (done ++ qs) := fun node hnode =>
  (List.mem_append.1 hnode).elim (h node) (h' node)

/-- A row with another name than those of the script was there before. -/
theorem Progress.mem_of_name (h : Progress d₀ done d) {name : String} (hnames : Unnamed name done)
    {row : NodeRow} (hrow : row ∈ d.nodes) (hname : row.node.string64_2 = some name) :
    row ∈ d₀.nodes := by
  obtain ⟨rows, hnodes, hrows⟩ := h.extended.nodes
  rw [hnodes] at hrow
  refine (List.mem_append.1 hrow).resolve_right fun hnew => ?_
  obtain ⟨-, node, hnode, hstored⟩ := hrows row hnew
  have hkept := stored_string64_2 hstored
  rw [hname] at hkept
  cases hcase : node.string64_2 with
  | none =>
    rw [hcase] at hkept
    cases hkept
  | some text =>
    rw [hcase] at hkept
    obtain ⟨text', htext', heq⟩ := Option.map_eq_some_iff.1 hkept
    cases heq
    exact hnames node hnode text hcase htext'

theorem unnamed_playerNodes {name : String} {acctId : Uuid} {player : PlayerInfo} {n : Nat} :
    Unnamed name ((playerNodes acctId player n).map .createNode) := by
  intro node hnode
  obtain ⟨node', hmem, heq⟩ := List.mem_map.1 hnode
  cases heq
  revert hmem node
  unfold playerNodes
  simp

theorem unnamed_ageInserts {name : String} {ext : External} {systemNode : UInt32} {age : AgeInfo}
    {seqNumber : Int} {flags : UInt32} {first : Nat}
    (hname : Db.varchar 64 (cstr age.filename) ≠ some name) :
    Unnamed name (ageInserts ext systemNode age seqNumber flags first) := by
  intro node hnode text htext
  rw [ageInserts, List.mem_append, List.mem_append] at hnode
  obtain hnode | hnode | hnode := hnode
  · simp only [List.mem_cons, List.not_mem_nil, or_false, Statement.createNode.injEq] at hnode
    obtain rfl | rfl | rfl | rfl | rfl | rfl | rfl | rfl | rfl | rfl := hnode
    all_goals cases htext
    exact hname
  · obtain ⟨ref, -, heq⟩ := List.mem_map.1 hnode
    cases heq
  · cases List.mem_singleton.1 hnode

/-- What a node that was there before has below it was there before, where all new references
are from new nodes. -/
theorem Progress.child_lt (h : Progress d₀ done d) (hd₀ : Numbered d₀)
    (hnew : ∀ p c o, .refNode p c o ∈ done → d₀.nextNode ≤ p.toNat) {ref : RefRow}
    (href : ref ∈ d.refs) (hparent : ref.parentIdx.toInt < d₀.nextNode) :
    ref.childIdx.toInt < d₀.nextNode := by
  rw [h.extended.refs] at href
  obtain href | href := List.mem_append.1 href
  · exact (hd₀.known ref href).2
  · obtain ⟨p, c, o, hmem, hp, -, rfl⟩ := h.inserts.mem_newRefs href
    have hle := hnew p c o hmem
    rw [toInt_toInt32 hp] at hparent
    omega

/-! ## The hood -/

instance {ext : External} {ageInfoId : UInt32} : Steady (vCountAgeOwners ext ageInfoId) := by
  unfold vCountAgeOwners
  infer_instance

instance {ext : External} {result : PGresult} {l : List Nat} : Steady (findHood ext result l) := by
  induction l with
  | nil => exact inferInstanceAs (Steady (pure 0))
  | cons i l ih =>
    unfold findHood
    infer_instance

instance {ext : External} : Steady (newHood ext) := by
  unfold newHood
  infer_instance

instance {ext : External} : Steady (findNeighborhood ext) := by
  unfold findNeighborhood
  infer_instance

instance {filename : String} : Steady (findPublicAge1 filename) := by
  unfold findPublicAge1
  infer_instance

/-- No row is touched, and nothing is replied. -/
def Still (d : Tables) (s : DaemonState) (P : α → Prop) (x : Lib.Exit α) (d' : Tables)
    (s' : DaemonState) (out : List Reply) : Prop :=
  s' = s ∧ out = [] ∧ d.SameRows d' ∧ ∀ a, x = .ret a → P a

section Still

variable {P : α → Prop} {Q : β → Prop}

theorem still_pure {a : α} (h : P a) : Ensures serves d s (pure a : DM α) (Still d s P) := by
  refine ensures_pure ⟨rfl, rfl, .refl d, fun a' ha' => ?_⟩
  cases ha'
  exact h

theorem still_crash : Ensures serves d s (crash : DM α) (Still d s P) :=
  ensures_crash ⟨rfl, rfl, .refl d, nofun⟩

theorem still_bind {m : DM α} {f : α → DM β} [Steady m] [∀ a, Steady (f a)]
    (hm : Ensures serves d s m (Still d s P))
    (hf : ∀ a d₁, P a → d.SameRows d₁ → Ensures serves d₁ s (f a) (Still d₁ s Q)) :
    Ensures serves d s (m >>= f) (Still d s Q) := by
  refine ensures_bind (hm.mono fun x d₁ s₁ out hpost => ?_)
  obtain ⟨rfl, rfl, hsame, hP⟩ := hpost
  cases x with
  | ret a =>
    refine (hf a d₁ (hP a rfl) hsame).mono fun x d' s' out hpost => ?_
    obtain ⟨rfl, rfl, hsame', hQ⟩ := hpost
    exact ⟨rfl, rfl, hsame.trans hsame', hQ⟩
  | throw => exact ⟨rfl, rfl, hsame, nofun⟩
  | crash => exact ⟨rfl, rfl, hsame, nofun⟩

theorem exec_still [IsDatabase hoodUserName serves] (hq : q.kind = .select) :
    Ensures serves d s (exec site q) (Still d s fun _ => True) :=
  ensures_selected hq (fun _ _ _ _ => ⟨rfl, rfl, .refl d, fun _ _ => trivial⟩)
    (fun _ hsame => ⟨rfl, rfl, hsame, fun _ _ => trivial⟩) fun _ hsame => ⟨rfl, rfl, hsame, nofun⟩

theorem textAt_still {ext : External} {r : PGresult} {i j : Nat} :
    Ensures serves d s (textAt ext r i j) (Still d s fun _ => True) := by
  unfold textAt
  split
  · exact still_pure trivial
  · exact ensures_ite (fun _ => still_pure trivial) fun _ => still_crash

theorem numAt_still {r : PGresult} {i j : Nat} :
    Ensures serves d s (numAt r i j) (Still d s fun _ => True) := by
  unfold numAt
  split
  · exact still_pure trivial
  · exact still_crash

/-- A number that is read from the first column is that of a row. -/
theorem numAt_idxRows (q : Statement) {rows : List Row} {l : List Int32} {i : Nat}
    (hq : q.columns = 1) (horder : rows.Perm (idxRows l)) :
    Ensures serves d s (numAt (rowsOf q rows) i 0)
      (Still d s fun n => ∃ idx ∈ l, n = idx.toUInt32) := by
  cases hrow : rows[i]? with
  | none =>
    have hnone : (rowsOf q rows).getvalue i 0 = none := by
      rw [PGresult.getvalue]
      show (if 0 < q.columns then (rows[i]?).map _ else none) = none
      rw [hrow]
      split <;> rfl
    rw [numAt, hnone]
    exact still_crash
  | some row =>
    obtain ⟨idx, hidx, rfl⟩ := List.mem_map.1 (horder.subset (List.mem_of_getElem? hrow))
    rw [numAt_rowsOf (v := idx) hrow (by rw [hq]; exact Nat.zero_lt_one) rfl]
    exact still_pure ⟨idx, hidx, rfl⟩

theorem vCountAgeOwners_still [IsDatabase hoodUserName serves] (ext : External)
    (ageInfoId : UInt32) :
    Ensures serves d s (vCountAgeOwners ext ageInfoId) (Still d s fun _ => True) := by
  unfold vCountAgeOwners
  refine still_bind (exec_still rfl) fun result d₁ _ _ => ?_
  refine ensures_ite (fun _ => still_pure trivial) fun _ => ?_
  refine still_bind textAt_still fun parentIdx d₁ _ _ => ?_
  refine still_bind (exec_still rfl) fun result d₁ _ _ => ?_
  exact ensures_ite (fun _ => still_pure trivial) fun _ => numAt_still

theorem findHood_still [IsDatabase hoodUserName serves] {ext : External} {rows : List Row}
    {l : List Int32} (hq : q.columns = 1) (horder : rows.Perm (idxRows l)) (is : List Nat) :
    Ensures serves d s (findHood ext (rowsOf q rows) is)
      (Still d s fun info => info = 0 ∨ ∃ idx ∈ l, info = idx.toUInt32) := by
  induction is generalizing d with
  | nil => exact still_pure (.inl rfl)
  | cons i is ih =>
    unfold findHood
    refine still_bind (numAt_idxRows q hq horder) fun info d₁ hinfo _ => ?_
    refine still_bind (vCountAgeOwners_still ext info) fun owners d₂ _ _ => ?_
    exact ensures_ite (fun _ => still_pure (.inr hinfo)) fun _ => ih

/-- The end of `find_a_friendly_neighborhood_for_our_new_visitor`. -/
def hoodOwners (theHoodInfo : UInt32) : DM (UInt32 × UInt32) := do
  let result ← exec .createPlayer (.findHoodOwners theHoodInfo)
  if result.status = .tuplesOk then
    let ownersFolder ← numAt result 0 0
    return (theHoodInfo, ownersFolder)
  return (0, 0)

instance {theHoodInfo : UInt32} : Steady (hoodOwners theHoodInfo) := by
  unfold hoodOwners
  infer_instance

theorem hoodOwners_still [IsDatabase hoodUserName serves] (theHoodInfo : UInt32) :
    Ensures serves d s (hoodOwners theHoodInfo) (Still d s fun hood => hood = (0, 0) ∨
      hood.1 = theHoodInfo ∧ ∃ row ∈ Db.findFolder d theHoodInfo.toInt32
        Vault.StandardNode.ageOwnersFolder.toInt, hood.2 = row.idx.toUInt32) := by
  unfold hoodOwners
  refine ensures_bind (ensures_selected rfl (fun rows rows' hrows horder => ?_) (fun d' hsame => ?_)
    fun d' hsame => ⟨rfl, rfl, hsame, nofun⟩)
  · obtain ⟨info, hinfo, hrows⟩ := Option.bind_eq_some_iff.1 hrows
    have hinfo : info = theHoodInfo.toInt32 := by
      rw [(integer_eq_some.1 hinfo).2]
      rfl
    subst hinfo
    cases hrows
    refine still_bind (numAt_idxRows (.findHoodOwners theHoodInfo) rfl horder)
      fun owners d₁ howners _ => ?_
    obtain ⟨idx, hidx, rfl⟩ := howners
    obtain ⟨row, hrow, rfl⟩ := List.mem_map.1 hidx
    exact still_pure (.inr ⟨rfl, row, hrow, rfl⟩)
  · exact ensures_pure ⟨rfl, rfl, hsame, fun hood hhood => by cases hhood; exact .inl rfl⟩

theorem findPublicAge1_still [IsDatabase hoodUserName serves] (filename : String) :
    Ensures serves d s (findPublicAge1 filename) (Still d s fun city => city = 0 ∨
      ∃ row ∈ d.nodes, row.node.string64_2 = some (cstr filename) ∧ city = row.idx.toUInt32) := by
  unfold findPublicAge1
  refine ensures_bind (ensures_selected rfl (fun rows rows' hrows horder => ?_) (fun d' hsame => ?_)
    fun d' hsame => ⟨rfl, rfl, hsame, nofun⟩)
  · cases hrows
    refine ensures_ite (fun _ => ?_) fun hne => absurd rfl hne
    refine ensures_ite (fun _ => ?_) fun _ => still_pure (.inl rfl)
    refine (numAt_idxRows (.selectPublicAge filename) rfl horder).mono fun x d' s' out hpost => ?_
    obtain ⟨rfl, rfl, hsame, hcity⟩ := hpost
    refine ⟨rfl, rfl, hsame, fun city hx => .inr ?_⟩
    obtain ⟨idx, hidx, rfl⟩ := hcity city hx
    obtain ⟨row, hrow, rfl⟩ := List.mem_map.1 hidx
    rw [List.mem_filter, decide_eq_true_eq] at hrow
    exact ⟨row, hrow.1, hrow.2.2.2, rfl⟩
  · exact ensures_pure ⟨rfl, rfl, hsame, fun city hcity => by cases hcity; exact .inl rfl⟩

end Still

theorem newHood_ensures [IsDatabase hoodUserName serves] (ext : External)
    (hprog : Progress d₀ done d) (hsystem : s.systemNode.toNat < d.nextNode) :
    Ensures serves d s (newHood ext) fun x d' s' out => s' = s ∧ out = [] ∧
      ∃ ageId seqNumber first, d.nextNode ≤ first ∧
        ((∃ d₁, d₁.nextNode = first ∧ first + 9 < 2 ^ 31 ∧ Numbered d₁ ∧
          AuthServ.effects d₁ (Hood.inserts ext s.systemNode (.made ageId seqNumber first)) =
            some d' ∧
          Progress d₀ (done ++ Hood.inserts ext s.systemNode (.made ageId seqNumber first)) d' ∧
          d'.nextNode = first + 10 ∧ x = .ret (nodeId (first + 4))) ∨
        ∃ part, part <+: Hood.inserts ext s.systemNode (.made ageId seqNumber first) ∧
          (part ≠ [] → first < 2 ^ 31) ∧ Progress d₀ (done ++ part) d' ∧
          ∀ info, x = .ret info → info = 0) := by
  unfold newHood
  refine ensures_bind (genUuid_ensures.mono fun x d₁ s₁ out hpost => ?_)
  obtain ⟨rfl, rfl, hsame, -, ⟨ageId, rfl, -⟩ | ⟨rfl, -⟩⟩ := hpost
  · have hprog₁ := hprog.sameRows hsame
    refine ensures_age hprog₁ (Nat.lt_of_lt_of_le hsystem hsame.nextNode) rfl
      (fun x d' ageId seqNumber first part hfirst hlt hpart hprog' hx => ?_)
      fun ageId seqNumber d₂ d₃ hfirst hlt hnumbered heffects hprog' hnext => ?_
    · exact ⟨rfl, rfl, ageId, seqNumber, first, hsame.nextNode.trans hfirst,
        .inr ⟨part, hpart, hlt, hprog', hx⟩⟩
    · refine ensures_pure ⟨rfl, rfl, ageId, seqNumber, d₂.nextNode, hsame.nextNode.trans hfirst,
        .inl ⟨d₂, rfl, hlt, hnumbered, heffects, hprog', hnext, rfl⟩⟩
  · refine ⟨rfl, rfl, .null, 0, d.nextNode, Nat.le_refl _,
      .inr ⟨[], List.nil_prefix, nofun, ?_, nofun⟩⟩
    rw [List.append_nil]
    exact hprog.sameRows hsame

/-- What `find_a_friendly_neighborhood_for_our_new_visitor` does: it finds a hood or makes one,
or makes a part of one and returns none. -/
def FindsHood (ext : External) (d₀ : Tables) (done : List Statement) (s : DaemonState)
    (relto : Nat) (x : Lib.Exit (UInt32 × UInt32)) (d' : Tables) (s' : DaemonState)
    (out : List Reply) : Prop :=
  s' = s ∧ out = [] ∧ ∃ hood part, part <+: Hood.inserts ext s.systemNode hood ∧
    Progress d₀ (done ++ part) d' ∧ (hood.Valid d₀.nextNode relto ∨ part = []) ∧
    ((part = Hood.inserts ext s.systemNode hood ∧ hood.Valid d₀.nextNode relto ∧
      hood.info.toNat < d'.nextNode ∧ relto + 10 ≤ d'.nextNode ∧
      x = .ret (hood.info, hood.owners)) ∨
    ∀ r, x = .ret r → r.1 = 0)

/-- No hood is found. -/
theorem FindsHood.stopped {ext : External} {relto : Nat} {x : Lib.Exit (UInt32 × UInt32)}
    (hprog : Progress d₀ done d') (hx : ∀ r, x = .ret r → r.1 = 0) :
    FindsHood ext d₀ done s relto x d' s [] := by
  refine ⟨rfl, rfl, .found 0 0, [], List.nil_prefix, ?_, .inr rfl, .inr hx⟩
  rwa [List.append_nil]

theorem toNat_toUInt32 {idx : Int32} (h : 0 ≤ idx.toInt) :
    (idx.toUInt32.toNat : Int) = idx.toInt := by
  have hcases := BitVec.toInt_eq_toNat_cond idx.toBitVec
  have hint : idx.toInt = idx.toBitVec.toInt := rfl
  have hnat : idx.toUInt32.toNat = idx.toBitVec.toNat := rfl
  rw [hint] at h ⊢
  rw [hnat]
  split at hcases
  · exact hcases.symm
  · have hlt := idx.toBitVec.isLt
    omega

/-- The number of a row, as the daemon reads it. -/
theorem Numbered.toNat_idx {row : NodeRow} (h : Numbered d) (hrow : row ∈ d.nodes) :
    row.idx.toUInt32.toNat < d.nextNode ∧ row.idx.toUInt32.toNat < 2 ^ 31 := by
  obtain ⟨hpos, hlt⟩ := h.given row hrow
  have hidx := toNat_toUInt32 hpos
  have hbound := row.idx.toInt_lt
  omega

/-- The folder of a node that was there before was there before. -/
theorem Progress.folder_lt (h : Progress d₀ done d) (hd₀ : Numbered d₀)
    (hnew : ∀ p c o, .refNode p c o ∈ done → d₀.nextNode ≤ p.toNat) {info : UInt32}
    {folderType : Int} {row : NodeRow} (hinfo : info.toNat < d₀.nextNode ∧ info.toNat < 2 ^ 31)
    (hrow : row ∈ Db.findFolder d info.toInt32 folderType) :
    row.idx.toUInt32.toNat < d₀.nextNode := by
  rw [Db.findFolder, List.mem_filter, decide_eq_true_eq] at hrow
  obtain ⟨hmem, hchild, -⟩ := hrow
  obtain ⟨ref, href, hends⟩ := List.any_eq_true.1 hchild
  rw [decide_eq_true_eq] at hends
  have hlt := h.child_lt hd₀ hnew href (by rw [hends.1, toInt_toInt32 hinfo.2]; omega)
  rw [hends.2] at hlt
  have hidx := toNat_toUInt32 (h.numbered.given row hmem).1
  omega

/-- The owners of a hood that was there before. -/
theorem foundHood_ensures [IsDatabase hoodUserName serves] {ext : External} {relto : Nat}
    {info : UInt32} (hd₀ : Numbered d₀) (hprog : Progress d₀ done d)
    (hnew : ∀ p c o, .refNode p c o ∈ done → d₀.nextNode ≤ p.toNat)
    (hrelto : relto + 10 ≤ d.nextNode) (hinfo : info.toNat < d₀.nextNode ∧ info.toNat < 2 ^ 31) :
    Ensures serves d s (hoodOwners info) (FindsHood ext d₀ done s relto) := by
  have hnext := hprog.extended.nextNode
  refine (hoodOwners_still _).mono fun x d' s' out hpost => ?_
  obtain ⟨rfl, rfl, hsame, howners⟩ := hpost
  have hprog' := hprog.sameRows hsame
  cases x with
  | ret r =>
    obtain rfl | ⟨hr, folder, hfolder, howners⟩ := howners r rfl
    · refine .stopped hprog' fun r hr => ?_
      cases hr
      rfl
    · have hvalid : (Hood.found info folder.idx.toUInt32).Valid d₀.nextNode relto :=
        ⟨hinfo.1, hprog.folder_lt hd₀ hnew hinfo hfolder⟩
      have hnext' := hsame.nextNode
      refine ⟨rfl, rfl, .found info folder.idx.toUInt32, [], List.nil_prefix, ?_, .inl hvalid,
        .inl ⟨rfl, hvalid, ?_, by omega, congrArg Lib.Exit.ret (Prod.ext hr howners)⟩⟩
      · rwa [List.append_nil]
      · show info.toNat < d'.nextNode
        omega
  | throw => exact .stopped hprog' nofun
  | crash => exact .stopped hprog' nofun

/-- The owners of a hood that is made. -/
theorem madeHood_ensures [IsDatabase hoodUserName serves] {ext : External} {relto : Nat}
    (hprog : Progress d₀ done d) (hsystem : s.systemNode.toNat < d.nextNode)
    (hrelto : relto + 10 ≤ d.nextNode) :
    Ensures serves d s (newHood ext >>= hoodOwners) (FindsHood ext d₀ done s relto) := by
  have hnext := hprog.extended.nextNode
  refine ensures_bind ((newHood_ensures ext hprog hsystem).mono fun x d₂ s₂ out hpost => ?_)
  obtain ⟨rfl, rfl, ageId, seqNumber, first, hfirst,
    ⟨d₃, rfl, hlt, hnumbered, heffects, hprog₂, hnext₂, rfl⟩ |
    ⟨part, hpart, hlt, hprog₂, hx⟩⟩ := hpost
  · have hvalid : (Hood.made ageId seqNumber d₃.nextNode).Valid d₀.nextNode relto :=
      ⟨by omega, by omega⟩
    refine (hoodOwners_still _).mono fun x d' s' out hpost => ?_
    obtain ⟨rfl, rfl, hsame, howners⟩ := hpost
    refine ⟨rfl, rfl, .made ageId seqNumber d₃.nextNode, _, List.prefix_refl _,
      hprog₂.sameRows hsame, .inl hvalid, ?_⟩
    cases x with
    | ret r =>
      obtain rfl | ⟨hinfo, row, hrow, howners⟩ := howners r rfl
      · refine .inr fun r hr => ?_
        cases hr
        rfl
      · have hnext' := hsame.nextNode
        refine .inl ⟨rfl, hvalid, ?_, by omega, ?_⟩
        · have hle := toNat_nodeId_le (d₃.nextNode + 4)
          show (nodeId (d₃.nextNode + 4)).toNat < d'.nextNode
          omega
        · rw [owners_of_age hnumbered hlt heffects hrow] at howners
          exact congrArg Lib.Exit.ret (Prod.ext hinfo howners)
    | throw => exact .inr nofun
    | crash => exact .inr nofun
  · have hvalid : (Hood.made ageId seqNumber first).Valid d₀.nextNode relto ∨ part = [] := by
      by_cases hnil : part = []
      · exact .inr hnil
      · exact .inl ⟨by omega, hlt hnil⟩
    cases x with
    | ret info =>
      obtain rfl := hx info rfl
      refine (hoodOwners_still _).mono fun x d' s' out hpost => ?_
      obtain ⟨rfl, rfl, hsame, hr⟩ := hpost
      refine ⟨rfl, rfl, .made ageId seqNumber first, part, hpart, hprog₂.sameRows hsame,
        hvalid, .inr fun r hx => ?_⟩
      obtain rfl | ⟨hinfo, -⟩ := hr r hx
      · rfl
      · exact hinfo
    | throw => exact ⟨rfl, rfl, _, part, hpart, hprog₂, hvalid, .inr nofun⟩
    | crash => exact ⟨rfl, rfl, _, part, hpart, hprog₂, hvalid, .inr nofun⟩

theorem findNeighborhood_ensures [IsDatabase hoodUserName serves] {ext : External} {relto : Nat}
    (hd₀ : Numbered d₀) (hprog : Progress d₀ done d) (hsystem : s.systemNode.toNat < d₀.nextNode)
    (hnames : Unnamed "Neighborhood" done)
    (hnew : ∀ p c o, .refNode p c o ∈ done → d₀.nextNode ≤ p.toNat)
    (hrelto : relto + 10 ≤ d.nextNode) :
    Ensures serves d s (findNeighborhood ext) (FindsHood ext d₀ done s relto) := by
  have hnext := hprog.extended.nextNode
  unfold findNeighborhood
  refine ensures_bind (ensures_selected rfl (fun rows rows' hrows horder => ?_) (fun d' hsame => ?_)
    fun d' hsame => .stopped (hprog.sameRows hsame) nofun)
  · cases hrows
    refine ensures_bind ((findHood_still rfl horder _).mono fun x d₁ s₁ out hpost => ?_)
    obtain ⟨rfl, rfl, hsame, hfound⟩ := hpost
    have hprog₁ := hprog.sameRows hsame
    have hnext₁ := hsame.nextNode
    cases x with
    | ret found =>
      by_cases hzero : found = 0
      · subst hzero
        exact madeHood_ensures hprog₁ (Nat.lt_of_lt_of_le hsystem (hnext.trans hnext₁))
          (hrelto.trans hnext₁)
      · obtain ⟨idx, hidx, rfl⟩ := (hfound found rfl).resolve_left hzero
        obtain ⟨row, hrow, rfl⟩ := List.mem_map.1 hidx
        rw [List.mem_filter, decide_eq_true_eq] at hrow
        have hinfo := hd₀.toNat_idx (hprog.mem_of_name hnames hrow.1 hrow.2.1)
        show Ensures _ _ _
          ((if row.idx.toUInt32 = 0 then newHood ext else pure row.idx.toUInt32) >>= hoodOwners) _
        rw [if_neg hzero, Lib.Prog.pure_bind]
        exact foundHood_ensures hd₀ hprog₁ hnew (hrelto.trans hnext₁) hinfo
    | throw => exact .stopped hprog₁ nofun
    | crash => exact .stopped hprog₁ nofun
  · refine ensures_pure (.stopped (hprog.sameRows hsame) fun r hr => ?_)
    cases hr
    rfl

/-! ## The player -/

/-- What `v_create_player` does: it makes the inserts of a player, or a part of them from the
start and returns none. -/
def CreatesPlayer (ext : External) (acctId : Uuid) (player : PlayerInfo) (d₀ : Tables)
    (s : DaemonState) (x : Lib.Exit (UInt32 × UInt32 × UInt32)) (d' : Tables) (s' : DaemonState)
    (out : List Reply) : Prop :=
  s' = s ∧ out = [] ∧ ∃ shape done,
    done <+: playerInserts ext s.systemNode acctId player d₀.nextNode shape ∧
    Progress d₀ done d' ∧ (newRefs done = [] ∨ shape.Valid d₀.nextNode) ∧
    ((done = playerInserts ext s.systemNode acctId player d₀.nextNode shape ∧
      x = .ret (nodeId d₀.nextNode, nodeId (d₀.nextNode + 1), shape.hood.owners)) ∨
    ∀ r, x = .ret r → r = (0, 0, 0))

/-- The last statements of `v_create_player`. -/
def linkPlayer (n : Nat) (shape : PlayerShape) : DM (UInt32 × UInt32 × UInt32) := do
  let systemNode := (← get).systemNode
  if !(← vRefNodes .createPlayer (playerLinks systemNode n shape)) then return (0, 0, 0)
  return (nodeId n, nodeId (n + 1), shape.hood.owners)

/-- `v_create_player` from the hood on. -/
def settlePlayer (ext : External) (n relto : Nat) : DM (UInt32 × UInt32 × UInt32) := do
  let hoodAge ← findNeighborhood ext
  if hoodAge.1 = 0 then return (0, 0, 0)
  let cityAge ← findPublicAge1 "city"
  if cityAge = 0 then return (0, 0, 0)
  linkPlayer n { reltoId := .null, reltoSeq := 0, relto, hood := .found hoodAge.1 hoodAge.2,
                 city := cityAge }

/-- `v_create_player` once there is a Relto. -/
def enterRelto (ext : External) (n relto : Nat) : DM (UInt32 × UInt32 × UInt32) := do
  let result ← exec .createPlayer (.findReltoOwners (nodeId (relto + 4)))
  if result.status ≠ .tuplesOk then return (0, 0, 0)
  if result.ntuples = 0 then return (0, 0, 0)
  let ownerFolder ← numAt result 0 0
  if !(← vRefNode .createPlayer ownerFolder (nodeId (n + 1)) 0) then return (0, 0, 0)
  settlePlayer ext n relto

instance {n : Nat} {shape : PlayerShape} : Steady (linkPlayer n shape) := by
  unfold linkPlayer
  infer_instance

instance {ext : External} {n relto : Nat} : Steady (settlePlayer ext n relto) := by
  unfold settlePlayer
  infer_instance

instance {ext : External} {n relto : Nat} : Steady (enterRelto ext n relto) := by
  unfold enterRelto
  infer_instance

/-- The inserts before the hood. -/
def startInserts (ext : External) (systemNode : UInt32) (acctId : Uuid) (player : PlayerInfo)
    (n : Nat) (shape : PlayerShape) : List Statement :=
  (playerNodes acctId player n).map .createNode ++
  ageInserts ext systemNode (reltoAge player shape.reltoId) shape.reltoSeq 0 shape.relto ++
  [.refNode (nodeId (shape.relto + 8)) (nodeId (n + 1)) 0]

section Player

variable {ext : External} {acctId : Uuid} {player : PlayerInfo} {shape : PlayerShape}
  {systemNode : UInt32} {n : Nat}

theorem playerInserts_eq : playerInserts ext systemNode acctId player n shape =
    startInserts ext systemNode acctId player n shape ++ shape.hood.inserts ext systemNode ++
      refInserts (playerLinks systemNode n shape) := by
  simp only [playerInserts, startInserts, List.append_assoc, List.cons_append, List.nil_append]

theorem unnamed_startInserts {name : String} (hname : name ≠ "Personal") :
    Unnamed name (startInserts ext systemNode acctId player n shape) := by
  refine (unnamed_playerNodes.append (unnamed_ageInserts ?_)).append fun node hnode => ?_
  · have hpersonal : Db.varchar 64 (cstr "Personal") = some "Personal" := by decide
    show Db.varchar 64 (cstr "Personal") ≠ some name
    rw [hpersonal]
    exact fun h => hname (Option.some.inj h).symm
  · cases List.mem_singleton.1 hnode

theorem unnamed_hood {name : String} {hood : Hood} (hname : name ≠ "Neighborhood") :
    Unnamed name (hood.inserts ext systemNode) := by
  cases hood with
  | found => exact fun node hnode => absurd hnode List.not_mem_nil
  | made =>
    refine unnamed_ageInserts ?_
    have hhood : Db.varchar 64 (cstr "Neighborhood") = some "Neighborhood" := by decide
    show Db.varchar 64 (cstr "Neighborhood") ≠ some name
    rw [hhood]
    exact fun h => hname (Option.some.inj h).symm

/-- The references before the hood are from new nodes. -/
theorem parent_of_startInserts (shape : PlayerShape)
    (hrelto : n ≤ shape.relto ∧ shape.relto + 8 < 2 ^ 32) {p c o : UInt32}
    (h : .refNode p c o ∈ startInserts ext systemNode acctId player n shape) : n ≤ p.toNat := by
  have hnode (k : Nat) (hk : k ≤ 8) : (nodeId (shape.relto + k)).toNat = shape.relto + k :=
    toNat_nodeId (by omega)
  rw [startInserts, List.mem_append, List.mem_append, List.mem_singleton] at h
  obtain (h | h) | h := h
  · obtain ⟨node, -, heq⟩ := List.mem_map.1 h
    cases heq
  · have hlink := refNode_mem_ageInserts h
    have htop := hnode 0 (by decide)
    have hinfo := hnode 4 (by decide)
    rw [Nat.add_zero] at htop
    unfold ageLinks at hlink
    simp only [List.mem_cons, List.not_mem_nil, or_false, Prod.mk.injEq] at hlink
    obtain ⟨rfl, -⟩ | ⟨rfl, -⟩ | ⟨rfl, -⟩ | ⟨rfl, -⟩ | ⟨rfl, -⟩ | ⟨rfl, -⟩ | ⟨rfl, -⟩ | ⟨rfl, -⟩ |
      ⟨rfl, -⟩ | ⟨rfl, -⟩ := hlink
    all_goals omega
  · cases h
    rw [hnode 8 (by decide)]
    omega

theorem scoped_refInserts {refs : List (UInt32 × UInt32)}
    (h : ∀ ref ∈ refs, ref.1.toNat < n ∧ ref.2.toNat < n) : Scoped n (refInserts refs) := by
  induction refs with
  | nil => trivial
  | cons ref refs ih =>
    obtain ⟨hparent, hchild⟩ := h ref List.mem_cons_self
    exact ⟨hparent, hchild, ih fun ref href => h ref (List.mem_cons_of_mem _ href)⟩

theorem scoped_playerLinks {m : Nat} (hsystem : systemNode.toNat < m) (hplayer : n + 16 ≤ m)
    (hrelto : shape.relto + 10 ≤ m) (hhood : shape.hood.info.toNat < m)
    (hcity : shape.city.toNat < m) : Scoped m (refInserts (playerLinks systemNode n shape)) := by
  have hnode (k : Nat) (hk : k < 16) : (nodeId (n + k)).toNat < m := by
    have hle := toNat_nodeId_le (n + k)
    omega
  have h₀ : (nodeId n).toNat < m := hnode 0 (by decide)
  have hreltoNode (k : Nat) (hk : k < 10) : (nodeId (shape.relto + k)).toNat < m := by
    have hle := toNat_nodeId_le (shape.relto + k)
    omega
  have hr₀ : (nodeId shape.relto).toNat < m := hreltoNode 0 (by decide)
  refine scoped_refInserts ?_
  unfold playerLinks
  simp only [List.forall_mem_cons]
  exact ⟨⟨h₀, hsystem⟩, ⟨h₀, hnode 1 (by decide)⟩, ⟨h₀, hnode 2 (by decide)⟩,
    ⟨h₀, hnode 3 (by decide)⟩, ⟨h₀, hnode 4 (by decide)⟩, ⟨h₀, hnode 5 (by decide)⟩,
    ⟨h₀, hnode 6 (by decide)⟩, ⟨h₀, hnode 7 (by decide)⟩, ⟨h₀, hnode 8 (by decide)⟩,
    ⟨h₀, hnode 9 (by decide)⟩, ⟨h₀, hnode 10 (by decide)⟩, ⟨h₀, hnode 11 (by decide)⟩,
    ⟨h₀, hnode 12 (by decide)⟩, ⟨hnode 5 (by decide), hnode 13 (by decide)⟩,
    ⟨hnode 5 (by decide), hnode 14 (by decide)⟩, ⟨hnode 5 (by decide), hnode 15 (by decide)⟩,
    ⟨hnode 13 (by decide), hreltoNode 4 (by decide)⟩, ⟨hnode 14 (by decide), hhood⟩,
    ⟨hnode 15 (by decide), hcity⟩, ⟨hr₀, hnode 5 (by decide)⟩, List.forall_mem_nil _⟩

/-- A player that is given up. -/
theorem CreatesPlayer.stopped {x : Lib.Exit (UInt32 × UInt32 × UInt32)}
    (hpart : done <+: playerInserts ext s.systemNode acctId player d₀.nextNode shape)
    (hprog : Progress d₀ done d') (hvalid : newRefs done = [] ∨ shape.Valid d₀.nextNode)
    (hx : ∀ r, x = .ret r → r = (0, 0, 0)) : CreatesPlayer ext acctId player d₀ s x d' s [] :=
  ⟨rfl, rfl, shape, done, hpart, hprog, hvalid, .inr hx⟩

theorem linkPlayer_ensures [IsDatabase hoodUserName serves] (shape : PlayerShape)
    (hsystem : s.systemNode.toNat < d₀.nextNode) (hvalid : shape.Valid d₀.nextNode)
    (hprog : Progress d₀ (startInserts ext s.systemNode acctId player d₀.nextNode shape ++
      shape.hood.inserts ext s.systemNode) d)
    (hrelto : shape.relto + 10 ≤ d.nextNode) (hhood : shape.hood.info.toNat < d.nextNode) :
    Ensures serves d s (linkPlayer d₀.nextNode shape) (CreatesPlayer ext acctId player d₀ s) := by
  have hreltoFirst := hvalid.relto
  have hcity := hvalid.city
  unfold linkPlayer
  refine ensures_bind (ensures_get ?_)
  refine ensures_refNodes hprog (scoped_playerLinks (by omega) (by omega) hrelto hhood (by omega))
    (fun x d' part hpart hprog' hx => ?_) fun d₁ hprog' => ?_
  · refine .stopped ?_ hprog' (.inr hvalid) hx
    rw [playerInserts_eq]
    exact (List.prefix_append_right_inj _).2 hpart
  · refine ensures_pure ⟨rfl, rfl, shape, _, ?_, hprog', .inr hvalid, .inl ⟨?_, rfl⟩⟩
    · rw [playerInserts_eq]
    · rw [playerInserts_eq]

theorem settlePlayer_ensures [IsDatabase hoodUserName serves] (hd₀ : Numbered d₀)
    (hsystem : s.systemNode.toNat < d₀.nextNode) {reltoId : Uuid} {reltoSeq : Int} {relto : Nat}
    (hbounds : d₀.nextNode + 16 ≤ relto ∧ relto + 9 < 2 ^ 31)
    (hprog : Progress d₀ (startInserts ext s.systemNode acctId player d₀.nextNode
      ⟨reltoId, reltoSeq, relto, .found 0 0, 0⟩) d) (hrelto : relto + 10 ≤ d.nextNode) :
    Ensures serves d s (settlePlayer ext d₀.nextNode relto)
      (CreatesPlayer ext acctId player d₀ s) := by
  have hpos := hd₀.pos
  have hparents : ∀ p c o, .refNode p c o ∈ startInserts ext s.systemNode acctId player d₀.nextNode
      ⟨reltoId, reltoSeq, relto, .found 0 0, 0⟩ → d₀.nextNode ≤ p.toNat := fun p c o h =>
    parent_of_startInserts ⟨reltoId, reltoSeq, relto, .found 0 0, 0⟩
      ⟨by dsimp only; omega, by dsimp only; omega⟩ h
  have hvalid {hood : Hood} {city : UInt32} (hhood : hood.Valid d₀.nextNode relto)
      (hcity : city.toNat < d₀.nextNode) :
      PlayerShape.Valid ⟨reltoId, reltoSeq, relto, hood, city⟩ d₀.nextNode :=
    ⟨⟨hbounds.1, by dsimp only; omega⟩, hhood, hcity⟩
  have hpre (hood : Hood) (city : UInt32) {part : List Statement}
      (hpart : part <+: hood.inserts ext s.systemNode) :
      startInserts ext s.systemNode acctId player d₀.nextNode
        ⟨reltoId, reltoSeq, relto, .found 0 0, 0⟩ ++ part <+:
      playerInserts ext s.systemNode acctId player d₀.nextNode
        ⟨reltoId, reltoSeq, relto, hood, city⟩ := by
    rw [playerInserts_eq]
    exact ((List.prefix_append_right_inj _).2 hpart).trans (List.prefix_append _ _)
  unfold settlePlayer
  refine ensures_bind ((findNeighborhood_ensures hd₀ hprog hsystem
    (unnamed_startInserts (by decide)) hparents hrelto).mono fun x d₁ s₁ out hpost => ?_)
  obtain ⟨rfl, rfl, hood, part, hpart, hprog₁, hhood,
    ⟨rfl, hhood', hinfo, hrelto', rfl⟩ | hx⟩ := hpost
  · refine ensures_ite (fun _ => ?_) fun _ => ?_
    · refine ensures_pure (.stopped (hpre hood 0 (List.prefix_refl _)) hprog₁
        (.inr (hvalid hhood' hpos)) fun r hr => ?_)
      cases hr
      rfl
    · refine ensures_bind ((findPublicAge1_still "city").mono fun x d₂ s₂ out hpost => ?_)
      obtain ⟨rfl, rfl, hsame, hcity⟩ := hpost
      have hprog₂ := hprog₁.sameRows hsame
      have hnext := hprog₁.extended.nextNode
      cases x with
      | ret city =>
        refine ensures_ite (fun _ => ?_) fun hzero => ?_
        · refine ensures_pure (.stopped (hpre hood 0 (List.prefix_refl _)) hprog₂
            (.inr (hvalid hhood' hpos)) fun r hr => ?_)
          cases hr
          rfl
        · obtain ⟨row, hrow, hname, rfl⟩ := (hcity city rfl).resolve_left hzero
          have hcityName : cstr "city" = "city" := by decide
          have hold := hprog₁.mem_of_name ((unnamed_startInserts (by decide)).append
            (unnamed_hood (by decide))) hrow (hname.trans (congrArg some hcityName))
          have hnext₂ := hsame.nextNode
          exact linkPlayer_ensures ⟨reltoId, reltoSeq, relto, hood, row.idx.toUInt32⟩ hsystem
            (hvalid hhood' (hd₀.toNat_idx hold).1) hprog₂ (by dsimp only; omega)
            (by dsimp only; omega)
      | throw =>
        exact .stopped (hpre hood 0 (List.prefix_refl _)) hprog₂ (.inr (hvalid hhood' hpos)) nofun
      | crash =>
        exact .stopped (hpre hood 0 (List.prefix_refl _)) hprog₂ (.inr (hvalid hhood' hpos)) nofun
  · refine ensures_stopped (fun x' hx' => ?_) fun r hr => if_pos (hx r hr)
    obtain hhood | rfl := hhood
    · exact .stopped (hpre hood 0 hpart) hprog₁ (.inr (hvalid hhood hpos)) hx'
    · exact .stopped (hpre (.found 0 0) 0 (List.prefix_refl [])) hprog₁
        (.inr (hvalid ⟨hpos, hpos⟩ hpos)) hx'

theorem enterRelto_ensures [IsDatabase hoodUserName serves] (hd₀ : Numbered d₀)
    (hsystem : s.systemNode.toNat < d₀.nextNode) {reltoId : Uuid} {reltoSeq : Int}
    (hbounds : d₀.nextNode + 16 ≤ d₁.nextNode ∧ d₁.nextNode + 9 < 2 ^ 31) (hnumbered : Numbered d₁)
    (heffects : AuthServ.effects d₁
      (ageInserts ext s.systemNode (reltoAge player reltoId) reltoSeq 0 d₁.nextNode) = some d)
    (hprog : Progress d₀ ((playerNodes acctId player d₀.nextNode).map .createNode ++
      ageInserts ext s.systemNode (reltoAge player reltoId) reltoSeq 0 d₁.nextNode) d)
    (hnext : d.nextNode = d₁.nextNode + 10) :
    Ensures serves d s (enterRelto ext d₀.nextNode d₁.nextNode)
      (CreatesPlayer ext acctId player d₀ s) := by
  have hpos := hd₀.pos
  have hvalid : PlayerShape.Valid ⟨reltoId, reltoSeq, d₁.nextNode, .found 0 0, 0⟩ d₀.nextNode :=
    ⟨⟨hbounds.1, by dsimp only; omega⟩, ⟨hpos, hpos⟩, hpos⟩
  have hpre {part : List Statement}
      (hpart : part <+: [.refNode (nodeId (d₁.nextNode + 8)) (nodeId (d₀.nextNode + 1)) 0]) :
      (playerNodes acctId player d₀.nextNode).map .createNode ++
        ageInserts ext s.systemNode (reltoAge player reltoId) reltoSeq 0 d₁.nextNode ++ part <+:
      playerInserts ext s.systemNode acctId player d₀.nextNode
        ⟨reltoId, reltoSeq, d₁.nextNode, .found 0 0, 0⟩ := by
    rw [playerInserts_eq, List.append_assoc (startInserts ..)]
    exact ((List.prefix_append_right_inj _).2 hpart).trans (List.prefix_append _ _)
  have hfailed {x : Lib.Exit (UInt32 × UInt32 × UInt32)} {d' : Tables} (hsame : d.SameRows d')
      (hx : ∀ r, x = .ret r → r = (0, 0, 0)) : CreatesPlayer ext acctId player d₀ s x d' s [] := by
    have hnone := hpre List.nil_prefix
    rw [List.append_nil] at hnone
    exact .stopped hnone (hprog.sameRows hsame) (.inr hvalid) hx
  have hzero {r : UInt32 × UInt32 × UInt32} (h : Lib.Exit.ret (0, 0, 0) = .ret r) : r = (0, 0, 0) :=
    (Lib.Exit.ret.inj h).symm
  unfold enterRelto
  refine ensures_bind (ensures_selected rfl (fun rows rows' hrows horder => ?_)
    (fun d' hsame => ensures_pure (hfailed hsame fun _ => hzero))
    fun d' hsame => hfailed hsame nofun)
  obtain ⟨info, hinfo, hrows⟩ := Option.bind_eq_some_iff.1 hrows
  have hinfo : info = (nodeId (d₁.nextNode + 4)).toInt32 := by
    rw [(integer_eq_some.1 hinfo).2]
    rfl
  subst hinfo
  cases hrows
  refine ensures_ite (fun hne => absurd rfl hne) fun _ => ?_
  refine ensures_ite (fun _ => ensures_pure (hfailed (.refl d) fun _ => hzero)) fun _ => ?_
  refine ensures_bind ((numAt_idxRows (.findReltoOwners _) rfl horder).mono
    fun x d₂ s₂ out hpost => ?_)
  obtain ⟨rfl, rfl, hsame, howner⟩ := hpost
  cases x with
  | ret owner =>
    obtain ⟨idx, hidx, rfl⟩ := howner owner rfl
    obtain ⟨row, hrow, rfl⟩ := List.mem_map.1 hidx
    have howner := owners_of_age hnumbered hbounds.2 heffects hrow
    have hnext₂ := hsame.nextNode
    have howners := toNat_nodeId_le (d₁.nextNode + 8)
    have hinfoNode := toNat_nodeId_le (d₀.nextNode + 1)
    dsimp only
    rw [howner]
    have hscoped : Scoped d₂.nextNode
        [.refNode (nodeId (d₁.nextNode + 8)) (nodeId (d₀.nextNode + 1)) 0] :=
      ⟨by omega, by omega, trivial⟩
    have hall : ∀ q ∈ [.refNode (nodeId (d₁.nextNode + 8)) (nodeId (d₀.nextNode + 1)) 0],
        Statement.IsInsert q := fun q hq => by
      rw [List.mem_singleton.1 hq]
      trivial
    have hnone (ok : Bool) (hok : ok = false) : (if !ok then pure (0, 0, 0)
        else settlePlayer ext d₀.nextNode d₁.nextNode : DM _) = pure (0, 0, 0) := by
      subst hok
      rfl
    refine ensures_script (hprog.sameRows hsame) hall hscoped (vRefNode_follows id) hnone
      (fun x d' part hpart hprog' => .stopped (hpre hpart) hprog' (.inr hvalid))
      fun ok d₃ hok heffects' hprog' => ?_
    subst hok
    obtain ⟨a, d₄, hq, hrest⟩ := effects_cons_eq_some.1 heffects'
    cases hrest
    obtain ⟨-, -, -, -, rfl⟩ := carryOut_refNode hq
    exact settlePlayer_ensures hd₀ hsystem hbounds hprog' (by dsimp only; omega)
  | throw => exact hfailed hsame nofun
  | crash => exact hfailed hsame nofun

/-- The nodes alone have no reference. -/
theorem newRefs_of_prefix_nodes {nodes : List Vault.Node} (h : done <+: nodes.map .createNode) :
    newRefs done = [] := by
  have hall : newRefs (nodes.map .createNode) = [] := by
    clear h
    induction nodes with
    | nil => rfl
    | cons node nodes ih => exact ih
  obtain ⟨rest, hrest⟩ := h
  rw [← hrest, newRefs_append] at hall
  exact (List.append_eq_nil_iff.1 hall).1

set_option synthInstance.maxSize 2000 in
theorem vCreatePlayer_ensures [IsDatabase hoodUserName serves] (ext : External) (acctId : Uuid)
    (player : PlayerInfo) (hd : Numbered d) (hsystem : s.systemNode.toNat < d.nextNode) :
    Ensures serves d s (vCreatePlayer ext acctId player) (CreatesPlayer ext acctId player d s) := by
  have hstop (x : Lib.Exit (UInt32 × UInt32 × UInt32)) (d' : Tables) (done' : List Statement)
      (hpre : done' <+: (playerNodes acctId player d.nextNode).map .createNode)
      (hprog : Progress d done' d') (hx : ∀ r, x = .ret r → r = (0, 0, 0)) :
      CreatesPlayer ext acctId player d s x d' s [] :=
    ⟨rfl, rfl, ⟨.null, 0, 0, .found 0 0, 0⟩, done', hpre.trans (List.prefix_append _ _), hprog,
      .inl (newRefs_of_prefix_nodes hpre), .inr hx⟩
  have hstart : Progress d (((playerNodes acctId player d.nextNode).take 0).map .createNode) d :=
    .start hd
  unfold vCreatePlayer
  refine ensures_nextNode hstart rfl rfl hstop fun d₁ hprog hn => ?_
  iterate 15 refine ensures_nextNode hprog hn rfl hstop fun d₁ hprog hn => ?_
  have hnodes : Progress d ((playerNodes acctId player d.nextNode).map .createNode) d₁ := hprog
  have hpos := hd.pos
  refine ensures_bind (genUuid_ensures.mono fun x d₂ s₂ out hpost => ?_)
  obtain ⟨rfl, rfl, hsame, -, ⟨ageId, rfl, -⟩ | ⟨rfl, -⟩⟩ := hpost
  · have hnext : d.nextNode + 16 ≤ d₂.nextNode := hn ▸ hsame.nextNode
    have hsystem₂ := hsystem.trans_le ((Nat.le_add_right _ 16).trans hnext)
    refine ensures_age (hnodes.sameRows hsame) hsystem₂ rfl
      (fun x d' ageId seqNumber first part hfirst hlt hpart hprog' hx => ?_)
      fun ageId seqNumber d₃ d₄ hfirst hlt hnumbered heffects hprog' hnext' => ?_
    · by_cases hnil : part = []
      · subst hnil
        rw [List.append_nil] at hprog'
        exact hstop x d' _ (List.prefix_refl _) hprog' hx
      · refine ⟨rfl, rfl, ⟨ageId, seqNumber, first, .found 0 0, 0⟩, _, ?_, hprog',
          .inr ⟨⟨hnext.trans hfirst, hlt hnil⟩, ⟨hpos, hpos⟩, hpos⟩, .inr hx⟩
        exact (List.prefix_append_right_inj _).2 (hpart.trans (List.prefix_append _ _))
    · have hlt' : d₃.nextNode < 2 ^ 31 := (Nat.le_add_right _ 9).trans_lt hlt
      show Ensures _ _ _
        (if nodeId d₃.nextNode = 0 then _ else enterRelto ext d.nextNode d₃.nextNode) _
      rw [if_neg (nodeId_ne_zero hnumbered.pos hlt')]
      exact enterRelto_ensures hd hsystem ⟨hnext.trans hfirst, hlt⟩ hnumbered heffects hprog' hnext'
  · exact hstop _ _ _ (List.prefix_refl _) (hnodes.sameRows hsame) nofun

/-- The links of a player are among its references. -/
theorem newRefs_playerInserts_ne :
    newRefs (playerInserts ext systemNode acctId player n shape) ≠ [] := by
  intro hnone
  rw [playerInserts_eq, newRefs_append, List.append_eq_nil_iff] at hnone
  cases hnone.2

/-- No part of the script spoils the vault. -/
theorem CreatesPlayer.sound {x : Lib.Exit (UInt32 × UInt32 × UInt32)} {s' : DaemonState}
    {out : List Reply} (hd : SoundVault d) (hsystem : s.systemNode.toNat < d.nextNode)
    (h : CreatesPlayer ext acctId player d s x d' s' out) : SoundVault d' := by
  obtain ⟨rfl, rfl, shape, done, hpre, hprog, hvalid, -⟩ := h
  refine ⟨hprog.numbered, ?_⟩
  rw [hprog.extended.refs]
  obtain hnone | hvalid := hvalid
  · rw [hnone, List.append_nil]
    exact hd.acyclic
  · exact acyclic_player hd hsystem hvalid hpre hprog.inserts

end Player

end Dirtsand.AuthServ
