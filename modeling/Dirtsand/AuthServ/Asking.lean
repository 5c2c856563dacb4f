import Dirtsand.AuthServ.Database

/-!
# Asking the database

How the daemon reads the rows of the tables, and the rule for a statement
(`ensures_exec`).  The programs of the daemon are steady, so that they can be taken
apart by the rules of `Lib.Served`.
-/

namespace Dirtsand.AuthServ

open Lib.Prog
open Db (Tables)

/-! ## Steady programs -/

section Steady

/-- What `exec` makes of an answer. -/
def readAnswer (q : Statement) : QueryOutcome → DM PGresult
  | .tuples rows => pure { status := .tuplesOk, nfields := q.columns, rows }
  | .command => pure { status := .commandOk }
  | .error => pure { status := .fatalError }
  | .throws => Lib.Prog.throw

theorem exec_eq (site : CallSite) (q : Statement) :
    exec site q = ask (site, q) >>= readAnswer q := rfl

instance {q : Statement} {a : QueryOutcome} : Steady (readAnswer q a) := by
  unfold readAnswer
  split <;> infer_instance

instance {site : CallSite} {q : Statement} : Steady (exec site q) := by
  rw [exec_eq]
  infer_instance

instance {code : NetResultCode} : Steady (sendReply code) :=
  inferInstanceAs (Steady (reply _))

instance {code : NetResultCode} {out : Output} : Steady (sendReplyWith code out) :=
  inferInstanceAs (Steady (reply _))

instance {c : Bool} : Steady (dsAssert c) := by
  unfold dsAssert
  infer_instance

instance {r : PGresult} {i j : Nat} : Steady (numAt r i j) := by
  unfold numAt
  split <;> infer_instance

instance {r : PGresult} {i j : Nat} : Steady (intAt r i j) := by
  unfold intAt
  split <;> infer_instance

instance {r : PGresult} {i j : Nat} : Steady (uuidAt r i j) := by
  unfold uuidAt
  split
  · split <;> infer_instance
  · infer_instance

instance {ext : External} {r : PGresult} {i j : Nat} : Steady (textAt ext r i j) := by
  unfold textAt
  split <;> infer_instance

instance {β : Type} {r : PGresult} {f : Nat → DM β} [∀ i, Steady (f i)] : Steady (forRows r f) := by
  unfold forRows
  infer_instance

instance {site : CallSite} : Steady (genUuid site) := by
  unfold genUuid
  infer_instance

instance {site : CallSite} {id : Uuid} : Steady (uuidOrNew site id) := by
  unfold uuidOrNew
  infer_instance

instance {site : CallSite} {node : Vault.Node} : Steady (vCreateNode site node) := by
  unfold vCreateNode
  infer_instance

/-- What `v_has_node` makes of the result. -/
def readFound (result : PGresult) : DM Bool := do
  if result.status ≠ .tuplesOk then return false
  dsAssert (result.ntuples = 1)
  match result.getvalue 0 0 with
  | some text => return text.toList.head? = some 't'
  | none => crash

theorem vHasNode_eq (parentId childId : UInt32) : vHasNode parentId childId =
    if parentId = 0 then pure false
    else if parentId = childId then pure true
    else exec .handler (.hasNode parentId childId) >>= readFound := rfl

instance {result : PGresult} : Steady (readFound result) := by
  have hread (text : Option String) : Steady (match text with
      | some text => (pure (decide (text.toList.head? = some 't')) : DM Bool)
      | none => Lib.Prog.crash) := by
    cases text <;> infer_instance
  unfold readFound
  infer_instance

instance {parentId childId : UInt32} : Steady (vHasNode parentId childId) := by
  rw [vHasNode_eq]
  infer_instance

instance {site : CallSite} {parentIdx childIdx ownerIdx : UInt32} :
    Steady (vRefNode site parentIdx childIdx ownerIdx) := by
  unfold vRefNode
  infer_instance

instance {site : CallSite} {refs : List (UInt32 × UInt32)} : Steady (vRefNodes site refs) := by
  induction refs with
  | nil => exact inferInstanceAs (Steady (pure true))
  | cons ref refs ih =>
    unfold vRefNodes
    infer_instance

instance {parentIdx childIdx : UInt32} : Steady (vUnrefNode parentIdx childIdx) := by
  unfold vUnrefNode
  infer_instance

instance {nodeId : UInt32} : Steady (vFetchTree nodeId) := by
  unfold vFetchTree
  infer_instance

instance {nodeId playerId senderId : UInt32} : Steady (vSendNode nodeId playerId senderId) := by
  unfold vSendNode
  infer_instance

end Steady

/-! ## Statements -/

section Rules

variable {serves : Tables → CallSite × Statement → QueryOutcome → Tables → Prop}
  {d : Tables} {s : DaemonState} {site : CallSite} {q : Statement}

/-- The result that has these rows. -/
abbrev rowsOf (q : Statement) (rows : List Row) : PGresult :=
  { status := .tuplesOk, nfields := q.columns, rows }

/-- **The rule for a statement.** -/
theorem ensures_exec {post : Lib.Exit PGresult → Tables → DaemonState → List Reply → Prop}
    (htuples : ∀ rows d', serves d (site, q) (.tuples rows) d' → post (.ret (rowsOf q rows)) d' s [])
    (hcommand : ∀ d', serves d (site, q) .command d' → post (.ret { status := .commandOk }) d' s [])
    (herror : ∀ d', serves d (site, q) .error d' → post (.ret { status := .fatalError }) d' s [])
    (hthrows : ∀ d', serves d (site, q) .throws d' → post .throw d' s []) :
    Ensures serves d s (exec site q) post := by
  rw [exec_eq]
  refine ensures_bind (ensures_ask fun a d' h => ?_)
  cases a with
  | tuples rows => exact ensures_pure (htuples rows d' h)
  | command => exact ensures_pure (hcommand d' h)
  | error => exact ensures_pure (herror d' h)
  | throws => exact ensures_throw (hthrows d' h)

instance : Inhabited QueryOutcome := ⟨.throws⟩

theorem yields_exec {rows : List Row} {d' : Tables} (h : serves d (site, q) (.tuples rows) d') :
    Yields serves d s (exec site q) (.ret (rowsOf q rows)) d' s [] := by
  rw [exec_eq]
  exact (yields_ask h).bind (yields_pure _)

/-! ## What is read -/

theorem getvalue_rowsOf {rows : List Row} {i j : Nat} {row : Row} {text : String}
    (hrow : rows[i]? = some row) (hj : j < q.columns) (htext : row j = some text) :
    (rowsOf q rows).getvalue i j = some text := by
  rw [PGresult.getvalue, if_pos hj]
  show rows[i]?.map _ = _
  rw [hrow, Option.map_some, htext]
  rfl

theorem strtoul_intCell (v : Int32) : (strtoul 10 (intCell v).toList).toUInt32 = v.toUInt32 := by
  have h := congrArg Int32.toUInt32 (strtoul_fromInt v)
  rwa [UInt32.toUInt32_toInt32] at h

/-- A number of a table is read as it is. -/
theorem numAt_rowsOf {rows : List Row} {i j : Nat} {row : Row} {v : Int32}
    (hrow : rows[i]? = some row) (hj : j < q.columns) (hcell : row j = some (intCell v)) :
    numAt (rowsOf q rows) i j = pure v.toUInt32 := by
  rw [numAt, getvalue_rowsOf hrow hj hcell]
  show pure _ = _
  rw [strtoul_intCell]

theorem textAt_rowsOf {ext : External} {rows : List Row} {i j : Nat} {row : Row} {text : String}
    (hrow : rows[i]? = some row) (hj : j < q.columns) (htext : row j = some text) :
    textAt ext (rowsOf q rows) i j = pure text := by
  rw [textAt, getvalue_rowsOf hrow hj htext]

/-- The rows are read one by one. -/
theorem forRows_rowsOf {β γ : Type} {values : List γ} {row : γ → Row} {f : Nat → DM β} {g : γ → β}
    (h : ∀ i value, (values.map row)[i]? = some (row value) → values[i]? = some value →
      f i = pure (g value)) :
    forRows (rowsOf q (values.map row)) f = pure (values.map g) := by
  have hall : ∀ rest done : List γ, values = done ++ rest →
      collect f (List.range' done.length rest.length) = pure (rest.map g) := by
    intro rest
    induction rest with
    | nil => exact fun _ _ => rfl
    | cons value rest ih =>
      intro done hvalues
      have hvalue : values[done.length]? = some value := by
        rw [hvalues, List.getElem?_append_right (Nat.le_refl _), Nat.sub_self]
        rfl
      have hrow : (values.map row)[done.length]? = some (row value) := by
        rw [List.getElem?_map, hvalue, Option.map_some]
      have hrest := ih (done ++ [value]) (by rw [hvalues, List.append_assoc, List.singleton_append])
      rw [List.length_append, List.length_singleton] at hrest
      rw [List.length_cons, List.range'_succ, collect, h _ _ hrow hvalue, hrest]
      rfl
  rw [forRows, PGresult.ntuples, List.length_map, List.range_eq_range']
  exact hall values [] rfl

end Rules

/-! ## Statements that are carried out -/

section Carried

variable {hoodUserName : String} {d d' : Tables} {site : CallSite} {q : Statement}
  {a : QueryOutcome}

/-- A statement that reads the tables. -/
theorem Succeeds.selected (h : Succeeds hoodUserName d (site, q) a d') (hq : q.kind = .select) :
    ∃ rows rows', selectRows hoodUserName d q = some rows ∧ a = .tuples rows' ∧
      rows'.Perm rows ∧ d' = d := by
  cases h with
  | select h horder => exact ⟨_, _, h, rfl, horder, rfl⟩
  | change h =>
    rw [Statement.kind_of_change (Option.isSome_iff_exists.2 ⟨_, h⟩)] at hq
    cases hq
  | hasNode | fetchTree | genUuid | nextAgeSeq => cases hq
  | read _ h | write h =>
    rw [h] at hq
    cases hq

/-- A statement that changes the tables. -/
theorem Succeeds.changed (h : Succeeds hoodUserName d (site, q) a d') (hq : q.kind = .change) :
    carryOut d q = some (a, d') := by
  cases h with
  | change h => exact h
  | select h _ =>
    rw [Statement.kind_of_selectRows (Option.isSome_iff_exists.2 ⟨_, h⟩)] at hq
    cases hq
  | hasNode | fetchTree | genUuid | nextAgeSeq => cases hq
  | read _ h | write h =>
    rw [h] at hq
    cases hq

theorem not_failed_of_change (h : carryOut d q = some (a, d')) : a ≠ .error ∧ a ≠ .throws := by
  suffices ha : (∃ rows, a = .tuples rows) ∨ a = .command by
    obtain ⟨rows, rfl⟩ | rfl := ha
    · exact ⟨nofun, nofun⟩
    · exact ⟨nofun, nofun⟩
  revert h
  cases q <;> simp only [carryOut, markPlayer, setVisible, bind, pure, Option.bind_eq_some_iff,
    Option.some.injEq, Prod.mk.injEq, reduceCtorEq, false_implies]
  all_goals grind

/-- A statement that is carried out does not fail. -/
theorem Succeeds.not_failed (h : Succeeds hoodUserName d (site, q) a d') :
    a ≠ .error ∧ a ≠ .throws := by
  cases h with
  | change h => exact not_failed_of_change h
  | _ => exact ⟨nofun, nofun⟩

/-- **The rule for a statement that is carried out.** -/
theorem ensures_carried {s : DaemonState}
    {post : Lib.Exit PGresult → Tables → DaemonState → List Reply → Prop}
    (htuples : ∀ rows d', Succeeds hoodUserName d (site, q) (.tuples rows) d' →
      post (.ret (rowsOf q rows)) d' s [])
    (hcommand : ∀ d', Succeeds hoodUserName d (site, q) .command d' →
      post (.ret { status := .commandOk }) d' s []) :
    Ensures (Succeeds hoodUserName) d s (exec site q) post :=
  ensures_exec htuples hcommand (fun _ h => absurd rfl h.not_failed.1)
    fun _ h => absurd rfl h.not_failed.2

/-- **The rule for a `SELECT` that is carried out.** -/
theorem ensures_select {s : DaemonState}
    {post : Lib.Exit PGresult → Tables → DaemonState → List Reply → Prop} (hq : q.kind = .select)
    (h : ∀ rows rows', selectRows hoodUserName d q = some rows' → rows.Perm rows' →
      post (.ret (rowsOf q rows)) d s []) :
    Ensures (Succeeds hoodUserName) d s (exec site q) post := by
  refine ensures_carried (fun rows d' hdone => ?_) fun d' hdone => ?_
  · obtain ⟨rows', _, hrows, ha, horder, rfl⟩ := hdone.selected hq
    cases ha
    exact h rows rows' hrows horder
  · obtain ⟨_, _, -, ha, -⟩ := hdone.selected hq
    cases ha

end Carried

/-- The first of the rows, which come in any order. -/
theorem exists_first {γ : Type} {rows : List Row} {l : List γ} {row : γ → Row}
    (horder : rows.Perm (l.map row)) (hne : rows.length ≠ 0) :
    ∃ value ∈ l, rows[0]? = some (row value) := by
  cases rows with
  | nil => exact absurd rfl hne
  | cons first rest =>
    obtain ⟨value, hvalue, rfl⟩ := List.mem_map.1 (horder.subset List.mem_cons_self)
    exact ⟨value, hvalue, rfl⟩

/-- No row comes back of a `SELECT` that nothing matches. -/
theorem none_of_empty {γ : Type} {rows : List Row} {l : List γ} {p : γ → Bool} {row : γ → Row}
    (horder : rows.Perm ((l.filter p).map row)) (hempty : rows.length = 0) :
    ∀ value ∈ l, ¬p value = true := by
  have hlength := horder.length_eq
  rw [List.length_map, hempty] at hlength
  exact List.filter_eq_nil_iff.1 (List.eq_nil_of_length_eq_zero hlength.symm)

/-! ## Requests -/

instance {c : ConnId} : Steady (Daemon.getClient c) := by
  unfold Daemon.getClient
  infer_instance

/-- The daemon can handle the message with these replies, and leave the tables as `d'`. -/
def Handles (serves : Tables → CallSite × Statement → QueryOutcome → Tables → Prop)
    (ext : External) (d : Tables) (msg : Daemon.AuthMessage) (out : List Reply) (d' : Tables) : Prop :=
  ∃ c s x s', Runs serves d s (Daemon.dmAuthDaemon ext c msg) x d' s' out

/-- A daemon without clients. -/
def noClients : DaemonState where
  clients _ := {}
  authClients := []
  restrictLogins := false
  systemNode := 10001
  allPlayers := 10003
  globalStates := []

end Dirtsand.AuthServ
