import Dirtsand.AuthServ.VaultStore

/-!
# Searches in the vault

`v_find_nodes` (AuthServ/AuthVault.cpp) with the statement that it builds, on the
table `vault."Nodes"` (db/dbinit.sql).

* `findSql_fits` — the buffer of the conditions and the array of the parameters are
  never overrun.
* `findNodes_eq` — what a search returns.
* `findsExactly_iff` — the templates whose search is exact in every vault.
* `isVault_of_reachable` — every table that the daemon makes is one.
-/

namespace Dirtsand.Vault

open Lib.Table (Column Row)

/-! ## The statement -/

/-- How a column is compared with its parameter: by `SET_FIELD`, or by `SET_FIELD_I`. -/
inductive Comparison where
  | equal
  | lower
deriving DecidableEq, Repr

/-- The macro that `v_find_nodes` uses for a field. -/
def Field.comparison (f : Field) : Comparison :=
  if f = .iString64_1 || f = .iString64_2 then .lower else .equal

/-- The `if (nodeTemplate.has_...())` of `v_find_nodes`. -/
def findOrder : List Field :=
  [.createTime, .modifyTime, .createAgeName, .createAgeUuid, .creatorUuid, .creatorIdx, .nodeType,
    .int32_1, .int32_2, .int32_3, .int32_4, .uint32_1, .uint32_2, .uint32_3, .uint32_4, .uuid_1,
    .uuid_2, .uuid_3, .uuid_4, .string64_1, .string64_2, .string64_3, .string64_4, .string64_5,
    .string64_6, .iString64_1, .iString64_2, .text_1, .text_2, .blob_1, .blob_2]

/-- What `v_find_nodes` builds: the values of the parameters, the columns with their comparisons
and the numbers of their parameters, and how much of `fieldbuf` is written with them. -/
structure SelectSql where
  parms : List String := []
  terms : List (Comparison × String × Nat) := []
  written : Nat := 0

/-- `SET_FIELD` and `SET_FIELD_I` in `v_find_nodes`. -/
def SelectSql.setField (sql : SelectSql) (comparison : Comparison) (name value : String) :
    SelectSql where
  parms := sql.parms ++ [cstr value]
  terms := sql.terms ++ [(comparison, name, sql.parms.length + 1)]
  written := sql.written + (name.length + (fromUint (sql.parms.length + 1)).length +
    match comparison with
    | .equal => 9
    | .lower => 23)

section

variable (texts : Texts) (lower : String → String)

/-- The statement of `v_find_nodes`. -/
def findSql (node : NodeData) : SelectSql :=
  findOrder.foldl (fun sql f =>
    if node.has f then sql.setField f.comparison f.column (f.kind.text texts (node.value f))
    else sql) {}

/-- The type that a parameter takes on beside a column.  The length of a varchar is no part
of it. -/
def SqlType.compared : SqlType → SqlType
  | .varchar _ => .text
  | type => type

/-- The columns with the types of what they are compared with. -/
def comparedTable : List (Column SqlType) :=
  nodesTable.map fun column => { column with type := column.type.compared }

/-- NULL is not equal to anything.  `lower` is the function `LOWER` of the database. -/
def Comparison.holds : Comparison → Option String → String → Bool
  | _, none, _ => false
  | .equal, some cell, parm => cell = parm
  | .lower, some cell, parm => lower cell = lower parm

/-- `SELECT idx ... WHERE ...`, `none` where the database refuses a parameter. -/
def selectRows (sql : SelectSql) (t : NodesTable) : Option (List Row) := do
  let parms ← Lib.Table.resolve sql.parms (sql.terms.map Prod.snd)
  let parms ← Lib.Table.keepAll texts.input comparedTable parms
  some (t.rows.filter fun row =>
    ((sql.terms.map Prod.fst).zip parms).all fun term =>
      term.1.holds lower (row term.2.1) term.2.2)

/-- The id of a row. -/
def rowId (row : Row) : UInt32 := (strtoul 10 ((row "idx").getD "").toList).toUInt32

/-- `v_find_nodes`, `none` where it does not succeed. -/
def findNodes (node : NodeData) (t : NodesTable) : Option (List UInt32) :=
  if node.fields = 0 then none
  else if (findSql texts node).parms.length = 0 then none
  else (selectRows texts lower (findSql texts node) t).map fun rows => rows.map rowId

end

/-! ## What the statement compares -/

section

variable (texts : Texts) (lower : String → String)

theorem foldl_select (node : NodeData) (order : List Field) (sql : SelectSql)
    (hfew : sql.parms.length + order.length < 100) :
    let sql' := order.foldl (fun sql f =>
      if node.has f then sql.setField f.comparison f.column (f.kind.text texts (node.value f))
      else sql) sql
    sql'.terms.map Prod.fst =
        sql.terms.map Prod.fst ++ (order.filter node.has).map Field.comparison ∧
      sql'.terms.map Prod.snd = sql.terms.map Prod.snd ++
        Lib.Table.numbered sql.parms.length (supplied texts node order) ∧
      sql'.parms = sql.parms ++ (supplied texts node order).map Prod.snd ∧
      sql'.written ≤ sql.written + (order.map fun f => f.column.length + 2 +
        match f.comparison with
        | .equal => 9
        | .lower => 23).sum := by
  induction order generalizing sql with
  | nil =>
    exact ⟨(List.append_nil _).symm, (List.append_nil _).symm, (List.append_nil _).symm, Nat.le_refl _⟩
  | cons f order ih =>
    rw [List.length_cons] at hfew
    rw [supplied_cons, List.foldl_cons, List.filter_cons]
    split
    · have hdigits : (fromUint (sql.parms.length + 1)).length ≤ 2 := by
        rw [fromUint, Nat.toString_eq_repr, Nat.length_repr_le_iff (by decide)]
        omega
      set sql1 := sql.setField f.comparison f.column (f.kind.text texts (node.value f)) with hsql1
      have hlength : sql1.parms.length = sql.parms.length + 1 := List.length_append
      have hfst : sql1.terms.map Prod.fst = sql.terms.map Prod.fst ++ [f.comparison] := List.map_append
      have hsnd : sql1.terms.map Prod.snd =
          sql.terms.map Prod.snd ++ [(f.column, sql.parms.length + 1)] := List.map_append
      obtain ⟨hcomparisons, hterms, hparms, hwritten⟩ := ih sql1 (by rw [hlength]; omega)
      rw [hlength, hsnd, List.append_assoc] at hterms
      rw [hfst, List.append_assoc] at hcomparisons
      refine ⟨hcomparisons, hterms, hparms.trans (List.append_assoc ..), hwritten.trans ?_⟩
      show sql.written + (f.column.length + (fromUint (sql.parms.length + 1)).length + _) + _ ≤ _
      rw [List.map_cons, List.sum_cons]
      omega
    · obtain ⟨hcomparisons, hterms, hparms, hwritten⟩ := ih sql (by omega)
      refine ⟨hcomparisons, hterms, hparms, hwritten.trans ?_⟩
      rw [List.map_cons, List.sum_cons]
      omega

theorem parms_findSql (node : NodeData) :
    (findSql texts node).parms = (supplied texts node findOrder).map Prod.snd :=
  (foldl_select texts node findOrder {} (show 0 + 31 < 100 by decide)).2.2.1

/-- **The buffer and the array of `v_find_nodes` hold every search.** -/
theorem findSql_fits (node : NodeData) :
    (findSql texts node).written < 1024 ∧ (findSql texts node).parms.length ≤ 31 := by
  constructor
  · refine lt_of_le_of_lt
      (foldl_select texts node findOrder {} (show 0 + 31 < 100 by decide)).2.2.2 ?_
    decide
  · rw [parms_findSql, List.length_map, supplied, List.length_map]
    exact List.length_filter_le _ _

/-- The parameter of a field. -/
def parm (node : NodeData) (f : Field) : String := cstr (f.kind.text texts (node.value f))

end

/-- The type of the column of a field. -/
def Field.sqlType (f : Field) : SqlType :=
  ((nodesTable.find? (·.name = f.column)).map Column.type).getD .integer

theorem sqlType_holds (f : Field) : f.sqlType.Holds f.kind = true := by
  cases f <;> rfl

theorem find_comparedTable (f : Field) : ∃ column : Column SqlType,
    comparedTable.find? (·.name = f.column) = some column ∧ column.type = f.sqlType.compared := by
  cases f <;> exact ⟨_, rfl, rfl⟩

section

variable {texts : Texts}

/-- The database takes every value of the template that is searched for. -/
def Taken (texts : Texts) (node : NodeData) : Prop :=
  ∀ f, f ≠ .nodeIdx → node.has f = true → texts.input f.sqlType.compared (parm texts node f) ≠ none

/-- A row has what is searched for. -/
def selected (texts : Texts) (lower : String → String) (node : NodeData) (row : Row) : Bool :=
  (findOrder.filter node.has).all fun f =>
    f.comparison.holds lower (row f.column) (parm texts node f)

/-- Every field is searched for, but for the node id. -/
theorem mem_findOrder {f : Field} : f ∈ findOrder ↔ f ≠ .nodeIdx := by
  cases f <;> decide

theorem selected_iff {lower : String → String} {node : NodeData} {row : Row} :
    selected texts lower node row = true ↔ ∀ f, f ≠ .nodeIdx → node.has f = true →
      f.comparison.holds lower (row f.column) (parm texts node f) = true := by
  rw [selected, List.all_eq_true]
  constructor
  · exact fun h f hf hhas => h f (List.mem_filter.2 ⟨mem_findOrder.2 hf, hhas⟩)
  · intro h f hf
    obtain ⟨hf, hhas⟩ := List.mem_filter.1 hf
    exact h f (mem_findOrder.1 hf) hhas

theorem keep_compared (f : Field) (text : String) :
    Lib.Table.keep texts.input comparedTable f.column text = texts.input f.sqlType.compared text := by
  obtain ⟨column, hfind, htype⟩ := find_comparedTable f
  rw [Lib.Table.keep, hfind, ← htype]
  rfl

/-- The statement with its parameters in the place of their numbers. -/
theorem selectRows_findSql (lower : String → String) (node : NodeData) (t : NodesTable) :
    selectRows texts lower (findSql texts node) t =
      (Lib.Table.keepAll texts.input comparedTable (supplied texts node findOrder)).map fun parms =>
        t.rows.filter fun row => (((findOrder.filter node.has).map Field.comparison).zip parms).all
          fun term => term.1.holds lower (row term.2.1) term.2.2 := by
  obtain ⟨hfst, hsnd, -, -⟩ :=
    foldl_select texts node findOrder {} (show 0 + 31 < 100 by decide)
  have hcomparisons : (findSql texts node).terms.map Prod.fst =
      (findOrder.filter node.has).map Field.comparison := hfst
  have hterms : (findSql texts node).terms.map Prod.snd =
      Lib.Table.numbered 0 (supplied texts node findOrder) := hsnd
  have hresolve : Lib.Table.resolve ((supplied texts node findOrder).map Prod.snd)
      (Lib.Table.numbered 0 (supplied texts node findOrder)) = some (supplied texts node findOrder) :=
    Lib.Table.resolve_numbered [] _
  rw [selectRows, hcomparisons, hterms, parms_findSql, hresolve, Option.map_eq_bind]
  rfl

theorem selectRows_refused (lower : String → String) {node : NodeData} {f : Field}
    (hf : f ≠ .nodeIdx) (hhas : node.has f = true)
    (h : texts.input f.sqlType.compared (parm texts node f) = none) (t : NodesTable) :
    selectRows texts lower (findSql texts node) t = none := by
  have hmem : (f.column, parm texts node f) ∈ supplied texts node findOrder :=
    List.mem_map.2 ⟨f, List.mem_filter.2 ⟨mem_findOrder.2 hf, hhas⟩, rfl⟩
  rw [selectRows_findSql, Lib.Table.keepAll_none hmem ((keep_compared f _).trans h)]
  rfl

/-- What a search returns that has something to search for. -/
theorem findNodes_some {lower : String → String} {node : NodeData} {f : Field} (hf : f ≠ .nodeIdx)
    (hhas : node.has f = true) (t : NodesTable) : findNodes texts lower node t =
      (selectRows texts lower (findSql texts node) t).map fun rows => rows.map rowId := by
  have hfields : node.fields ≠ 0 := by
    intro hzero
    rw [NodeData.has, hzero, UInt64.zero_and] at hhas
    exact absurd hhas (by decide)
  have hparms : (findSql texts node).parms.length ≠ 0 := by
    have hmem : f ∈ findOrder.filter node.has := List.mem_filter.2 ⟨mem_findOrder.2 hf, hhas⟩
    rw [parms_findSql, List.length_map, supplied, List.length_map]
    exact (List.length_pos_of_mem hmem).ne'
  rw [findNodes, if_neg hfields, if_neg hparms]

/-- Nothing is found without anything to search for. -/
theorem findNodes_none {lower : String → String} {node : NodeData}
    (h : ∀ f, f ≠ .nodeIdx → node.has f = false) (t : NodesTable) :
    findNodes texts lower node t = none := by
  have hnil : findOrder.filter node.has = [] := by
    rw [List.filter_eq_nil_iff]
    intro f hf
    rw [h f (mem_findOrder.1 hf)]
    exact Bool.false_ne_true
  have hparms : (findSql texts node).parms.length = 0 := by
    rw [parms_findSql, List.length_map, supplied, List.length_map, hnil, List.length_nil]
  rw [findNodes, if_pos hparms, ite_self]

end

section

variable {texts : Texts} (htexts : texts.Faithful)

include htexts

/-- A parameter is compared as it is. -/
theorem kept_parm {node : NodeData} {f : Field} {kept : String}
    (h : texts.input f.sqlType.compared (parm texts node f) = some kept) :
    kept = parm texts node f := by
  have hholds := sqlType_holds f
  cases htype : f.sqlType with
  | varchar n =>
    rw [htype] at h
    exact htexts.text _ _ h
  | _ =>
    have hnul : f.kind.NoNul (node.value f) := by
      rw [htype] at hholds
      cases f <;> first | exact trivial | cases hholds
    have hparm : parm texts node f = f.kind.text texts (node.value f) := Kind.cstr_text htexts hnul
    rw [hparm] at h ⊢
    rw [htype] at h hholds
    exact input_text htexts hholds _ h

/-- **What a search selects.** -/
theorem selectRows_taken (lower : String → String) {node : NodeData} (h : Taken texts node)
    (t : NodesTable) : selectRows texts lower (findSql texts node) t =
      some (t.rows.filter (selected texts lower node)) := by
  have hkeep : Lib.Table.keepAll texts.input comparedTable (supplied texts node findOrder) =
      some (supplied texts node findOrder) := by
    refine Lib.Table.keepAll_same fun pair hpair => ?_
    obtain ⟨f, hf, rfl⟩ := List.mem_map.1 hpair
    obtain ⟨hf, hhas⟩ := List.mem_filter.1 hf
    obtain ⟨kept, hkept⟩ := Option.ne_none_iff_exists'.1 (h f (mem_findOrder.1 hf) hhas)
    show Lib.Table.keep texts.input comparedTable f.column (parm texts node f) =
      some (parm texts node f)
    rw [keep_compared, hkept, kept_parm htexts hkept]
  have hall : ∀ row : Row, (((findOrder.filter node.has).map Field.comparison).zip
      (supplied texts node findOrder)).all (fun term => term.1.holds lower (row term.2.1) term.2.2) =
        selected texts lower node row := by
    intro row
    rw [supplied, List.zip_map', List.all_map]
    rfl
  rw [selectRows_findSql, hkeep, Option.map_some]
  simp only [hall]

end

/-! ## Vaults -/

/-- What a column of a vault holds: what a member is printed as, or what an integer of the
database is. -/
def SqlType.Cell (texts : Texts) : SqlType → String → Prop
  | .integer, cell => ∃ v : Int32, cell = fromInt v.toInt
  | .uuid, cell => ∃ uuid : Uuid, cell = String.ofList uuid.toText
  | .varchar n, cell => texts.input (.varchar n) cell = some cell ∧ '\x00' ∉ cell.toList
  | .text, cell => ∃ blob, cell = texts.base64Encode blob

/-- A row of a vault.  Its id comes from a sequence. -/
structure IsNode (texts : Texts) (row : Row) : Prop where
  idx : ∃ n < 2 ^ 31, row "idx" = some (fromUint n)
  cell : ∀ (f : Field) cell, row f.column = some cell → f.sqlType.Cell texts cell
  allowed : row.allowed nodesTable = true

/-- The columns that are read without a look at `PQgetisnull` are not NULL. -/
theorem IsNode.not_always {texts : Texts} {row : Row} (h : IsNode texts row) {f : Field}
    (hnull : row f.column = none) : f.always = false := by
  have hset : ∀ column ∈ nodesTable, column.notNull = true → row column.name ≠ none := by
    intro column hmem hnotNull hnone
    have hall := List.all_eq_true.1 h.allowed column hmem
    rw [hnotNull, hnone] at hall
    cases hall
  have hrequired : ∀ name : String, (nodesTable.find? (·.name = name)).any Column.notNull = true →
      row name ≠ none := by
    intro name hany
    obtain ⟨column, hfind, hnotNull⟩ := (Option.any_eq_true _ _).1 hany
    have hsome := List.find?_some hfind
    have hname : column.name = name := of_decide_eq_true hsome
    rw [← hname]
    exact hset column (List.mem_of_find?_eq_some hfind) hnotNull
  cases f with
  | nodeIdx => exact absurd hnull (hrequired "idx" rfl)
  | createTime => exact absurd hnull (hrequired "CreateTime" rfl)
  | modifyTime => exact absurd hnull (hrequired "ModifyTime" rfl)
  | nodeType => exact absurd hnull (hrequired "NodeType" rfl)
  | _ => rfl

/-- A table of nodes whose ids are a key. -/
structure NodesTable.IsVault (texts : Texts) (t : NodesTable) : Prop where
  node : ∀ row ∈ t.rows, IsNode texts row
  key : (t.rows.map fun row => row "idx").Nodup

/-- Two values of a field that are the same, but for letter case where the field is one of the
two. -/
def Field.Same (lower : String → String) : (f : Field) → f.Value → f.Value → Prop
  | .iString64_1, v, w => lower v = lower w
  | .iString64_2, v, w => lower v = lower w
  | _, v, w => v = w

/-- A string without the NUL at its end, with which clients send it. -/
def Kind.content : (k : Kind) → k.Value → k.Value
  | .string, v =>
    if v.toList.getLast? = some '\x00' then String.ofList v.toList.dropLast else v
  | _, v => v

/-- A row, as `v_fetch_node` reads it, agrees with a template on every field of it. -/
def Agrees (texts : Texts) (lower : String → String) (node : NodeData) (row : Row) : Prop :=
  ∀ f, node.has f = true →
    ∃ v, fetched texts row f = some (some v) ∧ f.Same lower v (f.kind.content (node.value f))

/-- The ids of all nodes that agree with a template, each one once. -/
structure Exact (texts : Texts) (lower : String → String) (node : NodeData) (t : NodesTable)
    (nodes : List UInt32) : Prop where
  mem : ∀ id, id ∈ nodes ↔ ∃ row ∈ t.rows, Agrees texts lower node row ∧
    fetched texts row .nodeIdx = some (some id)
  nodup : nodes.Nodup

/-- No string of the template holds a NUL, but for one at its end. -/
def NodeData.Plain (node : NodeData) : Prop :=
  ∀ f, node.has f = true → f.kind.NoNul (f.kind.content (node.value f))

/-- A template that consists only of a node id. -/
def OnlyIdx (node : NodeData) : Prop :=
  node.has .nodeIdx = true ∧ ∀ f, f ≠ .nodeIdx → node.has f = false

/-- What is wanted of the search for a template: in every vault it is exact if it succeeds, and a
template that consists only of a node id finds that node. -/
def FindsExactly (texts : Texts) (lower : String → String) (node : NodeData) : Prop :=
  (∀ t : NodesTable, t.IsVault texts → ∀ nodes, findNodes texts lower node t = some nodes →
    Exact texts lower node t nodes) ∧
  (OnlyIdx node → ∀ t : NodesTable, t.IsVault texts →
    (∃ row ∈ t.rows, fetched texts row .nodeIdx = some (some (node.value .nodeIdx))) →
    ∃ nodes, findNodes texts lower node t = some nodes ∧ node.value .nodeIdx ∈ nodes)

/-! ## Cells and values -/

/-- A negative number is not printed as an unsigned one. -/
theorem fromInt_ne_fromUint {v : Int32} (hv : v.toInt < 0) (n : UInt32) :
    fromInt v.toInt ≠ fromUint n.toNat := by
  intro h
  have hlow := v.le_toInt
  have hhigh := n.toNat_lt
  have hback := strtol_fromInt (v := v.toInt) (by omega) (by omega)
  rw [h, show fromUint n.toNat = fromInt n.toNat from rfl,
    strtol_fromInt (by omega) (by omega)] at hback
  omega

/-- A string ends at the NUL at its end. -/
theorem cstr_content {s : String} (h : '\x00' ∉ (Kind.string.content s).toList) :
    cstr s = Kind.string.content s := by
  rw [Kind.content] at h ⊢
  split
  · rename_i hlast
    rw [if_pos hlast, String.toList_ofList] at h
    have hsplit : s.toList = s.toList.dropLast ++ ['\x00'] :=
      (List.dropLast_append_getLast? _ hlast).symm
    have hkeep : ∀ c ∈ s.toList.dropLast, decide (c ≠ '\x00') = true := by
      intro c hc
      exact decide_eq_true fun heq => h (heq ▸ hc)
    have hend : ['\x00'].takeWhile (fun c => decide (c ≠ '\x00')) = [] := rfl
    rw [cstr, hsplit, List.takeWhile_append_of_pos hkeep, List.dropLast_concat, hend, List.append_nil]
  · rename_i hlast
    rw [if_neg hlast] at h
    exact cstr_of_not_mem h

/-- A cell is what a member is printed as, or a negative number under an unsigned field. -/
theorem cell_text {texts : Texts} {type : SqlType} {k : Kind} (h : type.Holds k = true) {cell : String}
    (hcell : type.Cell texts cell) :
    (∃ v : k.Value, cell = k.text texts v ∧ k.NoNul v) ∨
      k = .uint32 ∧ ∃ v : Int32, v.toInt < 0 ∧ cell = fromInt v.toInt := by
  cases type with
  | integer =>
    obtain ⟨v, rfl⟩ := hcell
    cases k with
    | uint32 =>
      by_cases hv : v.toInt < 0
      · exact .inr ⟨rfl, v, hv, rfl⟩
      · refine .inl ⟨v.toUInt32, ?_, trivial⟩
        have hsame : v.toInt = v.toUInt32.toNat := by
          have hv' := toInt_eq v
          have hsmall := v.toUInt32.toNat_lt
          split at hv'
          · exact hv'
          · omega
        rw [hsame]
        rfl
    | int32 => exact .inl ⟨v, rfl, trivial⟩
    | uuid => cases h
    | string => cases h
    | blob => cases h
  | uuid =>
    obtain ⟨uuid, rfl⟩ := hcell
    cases k with
    | uuid => exact .inl ⟨uuid, rfl, trivial⟩
    | uint32 => cases h
    | int32 => cases h
    | string => cases h
    | blob => cases h
  | varchar n =>
    cases k with
    | string => exact .inl ⟨cell, rfl, hcell.2⟩
    | uint32 => cases h
    | int32 => cases h
    | uuid => cases h
    | blob => cases h
  | text =>
    obtain ⟨blob, rfl⟩ := hcell
    cases k with
    | blob => exact .inl ⟨blob, rfl, trivial⟩
    | uint32 => cases h
    | int32 => cases h
    | uuid => cases h
    | string => cases h

/-- A field with an unsigned number. -/
theorem uint32_field {texts : Texts} {lower : String → String} {f : Field} (h : f.kind = .uint32) :
    f.sqlType.compared = .integer ∧ f.comparison = .equal ∧ (∀ v w : f.Value, f.Same lower v w → v = w) ∧
      ∀ v : f.Value, ∃ n : UInt32, f.kind.text texts v = fromUint n.toNat := by
  cases f <;> first | exact ⟨rfl, rfl, fun v w hsame => hsame, fun v => ⟨v, rfl⟩⟩ | cases h

section

variable {texts : Texts} (htexts : texts.Faithful)

include htexts

theorem Kind.cstr_content {k : Kind} {v : k.Value} (h : k.NoNul (k.content v)) :
    cstr (k.text texts v) = k.text texts (k.content v) := by
  cases k with
  | string => exact Vault.cstr_content h
  | uint32 => exact Kind.cstr_text htexts h
  | int32 => exact Kind.cstr_text htexts h
  | uuid => exact Kind.cstr_text htexts h
  | blob => exact Kind.cstr_text htexts h

theorem Kind.text_inj {k : Kind} {v w : k.Value} (h : k.text texts v = k.text texts w) : v = w := by
  have hback := Kind.parse_text htexts k v
  rw [h, Kind.parse_text htexts k w] at hback
  exact (Option.some.inj hback).symm

/-- The database compares texts, and the texts of two values are the same if the values are. -/
theorem same_iff {lower : String → String} (f : Field) (v w : f.Value) :
    f.Same lower v w ↔
      f.comparison.holds lower (some (f.kind.text texts v)) (f.kind.text texts w) = true := by
  cases f with
  | iString64_1 =>
    show lower v = lower w ↔ decide (lower v = lower w) = true
    rw [decide_eq_true_iff]
  | iString64_2 =>
    show lower v = lower w ↔ decide (lower v = lower w) = true
    rw [decide_eq_true_iff]
  | _ => exact (decide_eq_true_iff.trans ⟨Kind.text_inj htexts, fun h => congrArg _ h⟩).symm

/-- What is read off a negative number is no parameter. -/
theorem refused_of_negative {row : Row} {f : Field} (hkind : f.kind = .uint32) {v : Int32}
    (hv : v.toInt < 0) (hrow : row f.column = some (fromInt v.toInt)) {w : f.Value}
    (h : fetched texts row f = some (some w)) :
    texts.input .integer (f.kind.text texts w) = none := by
  have hbig : ∀ n : UInt32, (strtoul 10 (fromInt v.toInt).toList).toUInt32 = n →
      texts.input .integer (fromUint n.toNat) = none := by
    rintro _ rfl
    rw [parse_time, show fromUint v.toUInt32.toNat = fromInt v.toUInt32.toNat from rfl,
      htexts.integer, if_neg]
    have hv' := toInt_eq v
    split at hv'
    · omega
    · omega
  rw [fetched, hrow, Option.isSome_some, Bool.or_true, if_pos rfl, Option.getD_some] at h
  obtain ⟨w', hw, h⟩ := Option.map_eq_some_iff.1 h
  obtain rfl := Option.some.inj h
  cases f <;> first | exact hbig _ (Option.some.inj hw) | cases hkind

variable {lower : String → String} {node : NodeData} {row : Row}

/-- The parameter of a member without a NUL but at its end. -/
theorem parm_content {f : Field} (hnul : f.kind.NoNul (f.kind.content (node.value f))) :
    parm texts node f = f.kind.text texts (f.kind.content (node.value f)) :=
  Kind.cstr_content htexts hnul

/-- **A row agrees with a template on a field that the database takes** if the database finds the
two equal. -/
theorem agrees_field (hrow : IsNode texts row) {f : Field}
    (hnul : f.kind.NoNul (f.kind.content (node.value f)))
    (htaken : texts.input f.sqlType.compared (parm texts node f) ≠ none) :
    (∃ v, fetched texts row f = some (some v) ∧ f.Same lower v (f.kind.content (node.value f))) ↔
      f.comparison.holds lower (row f.column) (parm texts node f) = true := by
  rw [parm_content htexts hnul] at htaken ⊢
  generalize f.kind.content (node.value f) = w at htaken ⊢
  cases hcell : row f.column with
  | none =>
    have hnever : f.comparison.holds lower none (f.kind.text texts w) = false := by
      cases f.comparison <;> rfl
    have hnull := hrow.not_always hcell
    rw [hnever, fetched, hcell, hnull]
    constructor
    · rintro ⟨v, hv, -⟩
      cases hv
    · exact fun h => absurd h Bool.false_ne_true
  | some cell =>
    obtain ⟨v, rfl, -⟩ | ⟨hkind, v, hv, rfl⟩ :=
      cell_text (sqlType_holds f) (hrow.cell f cell hcell)
    · rw [fetched_some hcell (Field.parse_text htexts f v), ← same_iff htexts]
      constructor
      · rintro ⟨v', hv', hsame⟩
        obtain rfl := Option.some.inj (Option.some.inj hv')
        exact hsame
      · exact fun hsame => ⟨v, rfl, hsame⟩
    · obtain ⟨hcompared, hequal, hsame, htext⟩ := @uint32_field texts lower f hkind
      constructor
      · rintro ⟨v', hv', h⟩
        rw [hsame v' w h] at hv'
        rw [hcompared] at htaken
        exact absurd (refused_of_negative htexts hkind hv hcell hv') htaken
      · intro h
        obtain ⟨n, hn⟩ := htext w
        rw [hequal, hn] at h
        exact absurd (of_decide_eq_true h) (fromInt_ne_fromUint hv n)

/-! ## Strings with a NUL -/

omit htexts in
/-- No cell is the same as a string with a NUL. -/
theorem same_noNul (hlower : ∀ s, '\x00' ∈ (lower s).toList ↔ '\x00' ∈ s.toList) {f : Field}
    {v w : f.Value} (h : f.Same lower v w) (hv : f.kind.NoNul v) : f.kind.NoNul w := by
  have hcase : ∀ s s' : String, lower s = lower s' → '\x00' ∉ s.toList → '\x00' ∉ s'.toList := by
    intro s s' hs hnul
    rwa [← hlower s', ← hs, hlower s]
  cases f with
  | iString64_1 => exact hcase v w h hv
  | iString64_2 => exact hcase v w h hv
  | _ => exact (show v = w from h) ▸ hv

/-- No row agrees with a template on a string that holds a NUL. -/
theorem not_agrees_nul (hlower : ∀ s, '\x00' ∈ (lower s).toList ↔ '\x00' ∈ s.toList)
    (hrow : IsNode texts row) {f : Field} (hnul : ¬ f.kind.NoNul (f.kind.content (node.value f))) :
    ¬ ∃ v, fetched texts row f = some (some v) ∧ f.Same lower v (f.kind.content (node.value f)) := by
  rintro ⟨v, hv, hsame⟩
  cases hcell : row f.column with
  | none =>
    rw [fetched, hcell, hrow.not_always hcell] at hv
    cases hv
  | some cell =>
    obtain ⟨w, rfl, hw⟩ | ⟨hkind, -⟩ := cell_text (sqlType_holds f) (hrow.cell f cell hcell)
    · rw [fetched_some hcell (Field.parse_text htexts f w)] at hv
      obtain rfl := Option.some.inj (Option.some.inj hv)
      exact hnul (same_noNul hlower hsame hw)
    · refine hnul ?_
      cases f <;> first | exact trivial | cases hkind

/-! ## Ids -/

/-- The id of a node. -/
theorem rowId_eq (hrow : IsNode texts row) :
    (rowId row).toNat < 2 ^ 31 ∧ row "idx" = some (fromUint (rowId row).toNat) ∧
      fetched texts row .nodeIdx = some (some (rowId row)) := by
  obtain ⟨n, hn, hidx⟩ := hrow.idx
  have hid : (rowId row).toNat = n := by
    rw [rowId, hidx]
    exact toNat_strtoul_seq hn
  refine ⟨hid ▸ hn, hid ▸ hidx, ?_⟩
  have hcolumn : row Field.nodeIdx.column = some (fromUint (rowId row).toNat) := hid ▸ hidx
  exact fetched_some hcolumn (Kind.parse_text htexts .uint32 (rowId row))

/-! ## Exact searches -/

/-- **What a search returns.** -/
theorem findNodes_eq {f : Field} (hf : f ≠ .nodeIdx) (hhas : node.has f = true) {t : NodesTable}
    {nodes : List UInt32} (h : findNodes texts lower node t = some nodes) :
    Taken texts node ∧ nodes = (t.rows.filter (selected texts lower node)).map rowId := by
  have htaken : Taken texts node := by
    intro g hg hhas' hrefused
    rw [findNodes_some hg hhas', selectRows_refused lower hg hhas' hrefused] at h
    cases h
  rw [findNodes_some hf hhas, selectRows_taken htexts lower htaken] at h
  exact ⟨htaken, (Option.some.inj h).symm⟩

omit htexts in
theorem exists_field {t : NodesTable} {nodes : List UInt32}
    (h : findNodes texts lower node t = some nodes) : ∃ f, f ≠ .nodeIdx ∧ node.has f = true := by
  by_contra hnone
  rw [findNodes_none fun f hf => Bool.eq_false_of_not_eq_true fun hhas => hnone ⟨f, hf, hhas⟩] at h
  cases h

/-- A template without a node id and without a NUL. -/
theorem selected_iff_agrees (hrow : IsNode texts row) (hidx : node.has .nodeIdx = false)
    (hnul : node.Plain) (htaken : Taken texts node) :
    selected texts lower node row = true ↔ Agrees texts lower node row := by
  rw [selected_iff]
  constructor
  · intro h f hhas
    have hf : f ≠ .nodeIdx := by
      rintro rfl
      rw [hidx] at hhas
      cases hhas
    exact (agrees_field htexts hrow (hnul f hhas) (htaken f hf hhas)).2 (h f hf hhas)
  · exact fun h f hf hhas =>
      (agrees_field htexts hrow (hnul f hhas) (htaken f hf hhas)).1 (h f hhas)

/-- A search that selects the rows that agree is exact. -/
theorem exact_of_selected {t : NodesTable} (ht : t.IsVault texts)
    (h : ∀ row ∈ t.rows, selected texts lower node row = true ↔ Agrees texts lower node row) :
    Exact texts lower node t ((t.rows.filter (selected texts lower node)).map rowId) where
  mem id := by
    rw [List.mem_map]
    constructor
    · rintro ⟨row, hrow, rfl⟩
      obtain ⟨hrow, hselected⟩ := List.mem_filter.1 hrow
      exact ⟨row, hrow, (h row hrow).1 hselected, (rowId_eq htexts (ht.node row hrow)).2.2⟩
    · rintro ⟨row, hrow, hagrees, hid⟩
      rw [(rowId_eq htexts (ht.node row hrow)).2.2] at hid
      exact ⟨row, List.mem_filter.2 ⟨hrow, (h row hrow).2 hagrees⟩,
        Option.some.inj (Option.some.inj hid)⟩
  nodup := by
    have hkey : (t.rows.map rowId).Nodup := by
      have hidx : t.rows.map (fun row => row "idx") =
          (t.rows.map rowId).map fun id => some (fromUint id.toNat) := by
        rw [List.map_map]
        exact List.map_congr_left fun row hrow => (rowId_eq htexts (ht.node row hrow)).2.1
      exact List.Nodup.of_map _ (hidx ▸ ht.key)
    exact hkey.sublist (List.filter_sublist.map rowId)

/-- The value of a field that no row is found by: the database refuses it, or no cell of its column
is equal to it. -/
def Unmatched (texts : Texts) (lower : String → String) (node : NodeData) (f : Field) : Prop :=
  texts.input f.sqlType.compared (parm texts node f) = none ∨
    ∀ cell, f.sqlType.Cell texts cell →
      f.comparison.holds lower (some cell) (parm texts node f) = false

omit htexts in
theorem not_holds_unmatched (hrow : IsNode texts row) {f : Field}
    (htaken : texts.input f.sqlType.compared (parm texts node f) ≠ none)
    (h : Unmatched texts lower node f) :
    f.comparison.holds lower (row f.column) (parm texts node f) = false := by
  cases hcell : row f.column with
  | none => cases f.comparison <;> rfl
  | some cell => exact h.resolve_left htaken cell (hrow.cell f cell hcell)

/-- Nothing agrees with such a value. -/
theorem not_agrees_unmatched (hlower : ∀ s, '\x00' ∈ (lower s).toList ↔ '\x00' ∈ s.toList)
    (hrow : IsNode texts row) {f : Field} (hhas : node.has f = true)
    (htaken : texts.input f.sqlType.compared (parm texts node f) ≠ none)
    (h : Unmatched texts lower node f) : ¬ Agrees texts lower node row := by
  intro hagrees
  by_cases hnul : f.kind.NoNul (f.kind.content (node.value f))
  · have hholds := (agrees_field htexts hrow hnul htaken).1 (hagrees f hhas)
    rw [not_holds_unmatched hrow htaken h] at hholds
    cases hholds
  · exact not_agrees_nul htexts hlower hrow hnul (hagrees f hhas)

/-- Where there is something in the template that no row has, nothing is found, and rightly. -/
theorem findsExactly_of_unmatched (hlower : ∀ s, '\x00' ∈ (lower s).toList ↔ '\x00' ∈ s.toList)
    {f : Field} (hf : f ≠ .nodeIdx) (hhas : node.has f = true) (h : Unmatched texts lower node f) :
    FindsExactly texts lower node := by
  refine ⟨fun t ht nodes hnodes => ?_, fun honly => absurd hhas ?_⟩
  · obtain ⟨htaken, rfl⟩ := findNodes_eq htexts hf hhas hnodes
    refine exact_of_selected htexts ht fun row hrow => ?_
    have hnot := not_agrees_unmatched htexts hlower (ht.node row hrow) hhas (htaken f hf hhas) h
    refine ⟨fun hselected => ?_, fun hagrees => absurd hagrees hnot⟩
    have hholds := selected_iff.1 hselected f hf hhas
    rw [not_holds_unmatched (ht.node row hrow) (htaken f hf hhas) h] at hholds
    cases hholds
  · rw [honly.2 f hf]
    exact Bool.false_ne_true

theorem findsExactly_of_noIdx (hidx : node.has .nodeIdx = false) (hnul : node.Plain) :
    FindsExactly texts lower node := by
  refine ⟨fun t ht nodes hnodes => ?_, fun honly => absurd honly.1 ?_⟩
  · obtain ⟨f, hf, hhas⟩ := exists_field hnodes
    obtain ⟨htaken, rfl⟩ := findNodes_eq htexts hf hhas hnodes
    exact exact_of_selected htexts ht fun row hrow =>
      selected_iff_agrees htexts (ht.node row hrow) hidx hnul htaken
  · rw [hidx]
    exact Bool.false_ne_true

/-- No vault has a node with such an id. -/
theorem findsExactly_of_bigIdx (honly : OnlyIdx node) (hbig : 2 ^ 31 ≤ (node.value .nodeIdx).toNat) :
    FindsExactly texts lower node := by
  refine ⟨fun t ht nodes hnodes => ?_, fun _ t ht hthere => ?_⟩
  · rw [findNodes_none honly.2] at hnodes
    cases hnodes
  · obtain ⟨row, hrow, hid⟩ := hthere
    obtain ⟨hsmall, -, hfetched⟩ := rowId_eq htexts (ht.node row hrow)
    rw [hfetched] at hid
    rw [Option.some.inj (Option.some.inj hid)] at hsmall
    exact absurd hbig (not_le.2 hsmall)

/-! ## A vault of one node -/

/-- The column of a field that must not be NULL. -/
def Field.required : Field → Option String
  | .createTime | .modifyTime | .creatorIdx | .nodeType => some "0"
  | .creatorUuid => some "00000000-0000-0000-0000-000000000000"
  | _ => none

/-- A row with these cells. -/
def rowOf (cells : Field → Option String) : Row := fun name =>
  (tableFields.find? (·.column = name)).bind cells

omit htexts in
theorem rowOf_column (cells : Field → Option String) (f : Field) :
    rowOf cells f.column = cells f := by
  have hfind : tableFields.find? (·.column = f.column) = some f := by
    cases f <;> rfl
  rw [rowOf, hfind, Option.bind_some]

omit htexts in
/-- **There is a row with the cells that are wanted**, and any id. -/
theorem exists_isNode (texts : Texts) {n : Nat} (hn : n < 2 ^ 31) (wanted : Field → Option String)
    (hwanted : ∀ f cell, wanted f = some cell → f.sqlType.Cell texts cell) :
    ∃ row, IsNode texts row ∧ row "idx" = some (fromUint n) ∧
      ∀ f, f ≠ .nodeIdx → ∀ cell, wanted f = some cell → row f.column = some cell := by
  set cells : Field → Option String := fun f =>
    if f = .nodeIdx then some (fromUint n) else (wanted f).or f.required with hcells
  have hidx : cells .nodeIdx = some (fromUint n) := rfl
  have hother : ∀ f, f ≠ .nodeIdx → cells f = (wanted f).or f.required := fun f hf => if_neg hf
  have hset : ∀ f, f.required.isSome = true → (cells f).isSome = true := by
    intro f hf
    by_cases hzero : f = .nodeIdx
    · rw [hzero, hidx]
      rfl
    · rw [hother f hzero, Option.isSome_or, hf, Bool.or_true]
  refine ⟨rowOf cells, ⟨⟨n, hn, ?_⟩, ?_, ?_⟩, ?_, ?_⟩
  · exact rowOf_column cells .nodeIdx
  · intro f cell hcell
    rw [rowOf_column] at hcell
    by_cases hzero : f = .nodeIdx
    · subst hzero
      obtain rfl := Option.some.inj (hidx.symm.trans hcell)
      have hv : (Int32.ofNat n).toInt = n := Int32.toInt_ofNat_of_lt (by omega)
      refine ⟨Int32.ofNat n, ?_⟩
      rw [hv]
      rfl
    · rw [hother f hzero, Option.or_eq_some_iff] at hcell
      obtain hcell | ⟨-, hcell⟩ := hcell
      · exact hwanted f cell hcell
      · revert hcell
        cases f with
        | creatorUuid =>
          rintro ⟨⟩
          exact ⟨Uuid.null, by decide⟩
        | createTime =>
          rintro ⟨⟩
          exact ⟨0, by decide⟩
        | modifyTime =>
          rintro ⟨⟩
          exact ⟨0, by decide⟩
        | creatorIdx =>
          rintro ⟨⟩
          exact ⟨0, by decide⟩
        | nodeType =>
          rintro ⟨⟩
          exact ⟨0, by decide⟩
        | _ => exact fun h => nomatch h
  · have hcolumns : ∀ column ∈ nodesTable, column.notNull = true → column.name = "idx" ∨
        ∃ f ∈ tableFields, f.column = column.name ∧ f.required.isSome = true := by
      decide
    rw [Row.allowed, List.all_eq_true]
    intro column hcolumn
    cases hnotNull : column.notNull with
    | false => rfl
    | true =>
      obtain hname | ⟨f, -, hname, hrequired⟩ := hcolumns column hcolumn hnotNull
      · rw [hname, show rowOf cells "idx" = some (fromUint n) from rowOf_column cells .nodeIdx]
        rfl
      · rw [← hname, rowOf_column, hset f hrequired]
        rfl
  · exact rowOf_column cells .nodeIdx
  · intro f hf cell hcell
    rw [rowOf_column, hother f hf, hcell, Option.some_or]

/-- A vault of one node. -/
def oneNode (row : Row) : NodesTable := ⟨[row], 0⟩

omit htexts in
theorem isVault_oneNode (hrow : IsNode texts row) : (oneNode row).IsVault texts where
  node _ h := List.mem_singleton.1 h ▸ hrow
  key := List.nodup_singleton _

/-- Where every value of a template is in some row, there is a node that is found. -/
theorem exists_found (h : ∀ f, f ≠ .nodeIdx → node.has f = true → ¬ Unmatched texts lower node f)
    {f : Field} (hf : f ≠ .nodeIdx) (hhas : node.has f = true) {n : Nat} (hn : n < 2 ^ 31) :
    ∃ row, IsNode texts row ∧ (rowId row).toNat = n ∧
      findNodes texts lower node (oneNode row) = some [rowId row] := by
  have hcells : ∀ f, ∃ cell, f ≠ .nodeIdx → node.has f = true → f.sqlType.Cell texts cell ∧
      f.comparison.holds lower (some cell) (parm texts node f) = true := by
    intro f
    by_cases hwanted : f ≠ .nodeIdx ∧ node.has f = true
    · obtain ⟨hf, hhas⟩ := hwanted
      have hmatched := h f hf hhas
      rw [Unmatched, not_or, not_forall] at hmatched
      obtain ⟨-, cell, hcell⟩ := hmatched
      rw [Classical.not_imp, Bool.not_eq_false] at hcell
      exact ⟨cell, fun _ _ => hcell⟩
    · exact ⟨"", fun hf hhas => absurd ⟨hf, hhas⟩ hwanted⟩
  choose cell hcell using hcells
  obtain ⟨row, hrow, hidx, hwanted⟩ := exists_isNode texts hn
    (fun f => if f ≠ .nodeIdx ∧ node.has f = true then some (cell f) else none) (by
      intro f c hc
      split at hc
      · rename_i hf
        exact Option.some.inj hc ▸ (hcell f hf.1 hf.2).1
      · cases hc)
  have htaken : Taken texts node := fun f hf hhas hrefused => h f hf hhas (.inl hrefused)
  have hselected : selected texts lower node row = true := by
    rw [selected_iff]
    intro f hf hhas
    rw [hwanted f hf (cell f) (if_pos ⟨hf, hhas⟩)]
    exact (hcell f hf hhas).2
  refine ⟨row, hrow, ?_, ?_⟩
  · rw [rowId, hidx]
    exact toNat_strtoul_seq hn
  · rw [findNodes_some hf hhas, selectRows_taken htexts lower htaken, oneNode,
      List.filter_cons_of_pos hselected]
    rfl

omit htexts in
/-- A node that is found has to agree. -/
theorem agrees_of_found (hrow : IsNode texts row) (h : FindsExactly texts lower node)
    (hfound : findNodes texts lower node (oneNode row) = some [rowId row]) :
    Agrees texts lower node row := by
  obtain ⟨row', hrow', hagrees, -⟩ :=
    ((h.1 _ (isVault_oneNode hrow) _ hfound).mem (rowId row)).1 List.mem_cons_self
  rwa [List.mem_singleton.1 hrow'] at hagrees

/-- **A template with the id of a node** does not find it if there is nothing else in it. -/
theorem not_findsExactly_onlyIdx (honly : OnlyIdx node)
    (hsmall : (node.value .nodeIdx).toNat < 2 ^ 31) : ¬ FindsExactly texts lower node := by
  intro h
  obtain ⟨row, hrow, hidx, -⟩ := exists_isNode texts hsmall (fun _ => none)
    fun f cell hcell => nomatch hcell
  obtain ⟨-, -, hfetched⟩ := rowId_eq htexts hrow
  have hid : rowId row = node.value .nodeIdx := by
    refine UInt32.toNat_inj.1 ?_
    rw [rowId, hidx]
    exact toNat_strtoul_seq hsmall
  rw [hid] at hfetched
  obtain ⟨nodes, hnodes, -⟩ :=
    h.2 honly _ (isVault_oneNode hrow) ⟨row, List.mem_cons_self, hfetched⟩
  rw [findNodes_none honly.2] at hnodes
  cases hnodes

/-- **A node id among other fields is not looked at.** -/
theorem not_findsExactly_idx (hidx : node.has .nodeIdx = true) {f : Field} (hf : f ≠ .nodeIdx)
    (hhas : node.has f = true)
    (h : ∀ f, f ≠ .nodeIdx → node.has f = true → ¬ Unmatched texts lower node f) :
    ¬ FindsExactly texts lower node := by
  intro hfinds
  obtain ⟨n, hn, hne⟩ : ∃ n < 2 ^ 31, n ≠ (node.value .nodeIdx).toNat := by
    by_cases hzero : (node.value .nodeIdx).toNat = 0
    · exact ⟨1, by decide, by omega⟩
    · exact ⟨0, by decide, by omega⟩
  obtain ⟨row, hrow, hid, hfound⟩ := exists_found htexts h hf hhas hn
  obtain ⟨v, hv, hsame⟩ := agrees_of_found hrow hfinds hfound .nodeIdx hidx
  rw [(rowId_eq htexts hrow).2.2] at hv
  have hsame : v = node.value .nodeIdx := hsame
  rw [Option.some.inj (Option.some.inj hv), hsame] at hid
  exact hne hid.symm

/-- A string is cut at its first NUL, and what is before it is looked for. -/
theorem not_findsExactly_nul (hlower : ∀ s, '\x00' ∈ (lower s).toList ↔ '\x00' ∈ s.toList)
    {f : Field} (hhas : node.has f = true) (hnul : ¬ f.kind.NoNul (f.kind.content (node.value f)))
    (h : ∀ f, f ≠ .nodeIdx → node.has f = true → ¬ Unmatched texts lower node f) :
    ¬ FindsExactly texts lower node := by
  intro hfinds
  have hf : f ≠ .nodeIdx := by
    rintro rfl
    exact hnul trivial
  obtain ⟨row, hrow, -, hfound⟩ := exists_found htexts h hf hhas (show 1 < 2 ^ 31 by decide)
  exact not_agrees_nul htexts hlower hrow hnul (agrees_of_found hrow hfinds hfound f hhas)

/-- **The search for a template is exact** in every vault if and only if there is no node id in it
and no NUL within its strings, or there is something in it that no node has. -/
theorem findsExactly_iff (hlower : ∀ s, '\x00' ∈ (lower s).toList ↔ '\x00' ∈ s.toList)
    (node : NodeData) : FindsExactly texts lower node ↔
      (node.has .nodeIdx = false ∧ node.Plain) ∨
      (∃ f, f ≠ .nodeIdx ∧ node.has f = true ∧ Unmatched texts lower node f) ∨
      OnlyIdx node ∧ 2 ^ 31 ≤ (node.value .nodeIdx).toNat := by
  constructor
  · intro hfinds
    by_contra hcases
    rw [not_or, not_or] at hcases
    obtain ⟨hplain, hmatched, hbig⟩ := hcases
    have h : ∀ f, f ≠ .nodeIdx → node.has f = true → ¬ Unmatched texts lower node f :=
      fun f hf hhas hunmatched => hmatched ⟨f, hf, hhas, hunmatched⟩
    by_cases hidx : node.has .nodeIdx = true
    · by_cases hmore : ∃ f, f ≠ .nodeIdx ∧ node.has f = true
      · obtain ⟨f, hf, hhas⟩ := hmore
        exact not_findsExactly_idx htexts hidx hf hhas h hfinds
      · have honly : OnlyIdx node :=
          ⟨hidx, fun f hf => Bool.eq_false_of_not_eq_true fun hhas => hmore ⟨f, hf, hhas⟩⟩
        refine not_findsExactly_onlyIdx htexts honly ?_ hfinds
        exact not_le.1 fun hle => hbig ⟨honly, hle⟩
    · have hnul : ¬ node.Plain :=
        fun hnul => hplain ⟨Bool.eq_false_of_not_eq_true hidx, hnul⟩
      rw [NodeData.Plain, not_forall] at hnul
      obtain ⟨f, hf⟩ := hnul
      rw [Classical.not_imp] at hf
      exact not_findsExactly_nul htexts hlower hf.1 hf.2 h hfinds
  · rintro (⟨hidx, hnul⟩ | ⟨f, hf, hhas, hunmatched⟩ | ⟨honly, hbig⟩)
    · exact findsExactly_of_noIdx htexts hidx hnul
    · exact findsExactly_of_unmatched htexts hlower hf hhas hunmatched
    · exact findsExactly_of_bigIdx htexts honly hbig

/-! ## Runs -/

/-- What a column keeps of a member is a cell. -/
theorem cell_kept {type : SqlType} {k : Kind} (h : type.Holds k = true) {v : k.Value} {kept : String}
    (hkept : texts.input type (cstr (k.text texts v)) = some kept) : type.Cell texts kept := by
  have hplain : k.NoNul v → texts.input type (k.text texts v) = some kept ∧ kept = k.text texts v := by
    intro hnul
    rw [Kind.cstr_text htexts hnul] at hkept
    exact ⟨hkept, input_text htexts h v hkept⟩
  cases type with
  | integer =>
    cases k with
    | uint32 =>
      obtain ⟨hinput, rfl⟩ := hplain trivial
      have hrange := htexts.integer v.toNat
      rw [show fromInt v.toNat = Kind.uint32.text texts v from rfl, hinput] at hrange
      split at hrange
      · rename_i hv
        refine ⟨Int32.ofNat v.toNat, ?_⟩
        rw [Int32.toInt_ofNat_of_lt (by omega)]
        rfl
      · cases hrange
    | int32 => exact ⟨v, (hplain trivial).2⟩
    | uuid => cases h
    | string => cases h
    | blob => cases h
  | uuid =>
    cases k with
    | uuid => exact ⟨v, (hplain trivial).2⟩
    | uint32 => cases h
    | int32 => cases h
    | string => cases h
    | blob => cases h
  | varchar n =>
    cases k with
    | string =>
      obtain rfl := htexts.varchar n _ kept hkept
      exact ⟨hkept, nul_not_mem_cstr v⟩
    | uint32 => cases h
    | int32 => cases h
    | uuid => cases h
    | blob => cases h
  | text =>
    cases k with
    | blob => exact ⟨v, (hplain trivial).2⟩
    | uint32 => cases h
    | int32 => cases h
    | uuid => cases h
    | string => cases h

omit htexts in
/-- A row after cells were assigned to it. -/
theorem cell_assign {pairs values : List (String × String)} (hnodup : (pairs.map Prod.fst).Nodup)
    (hkeep : Lib.Table.keepAll texts.input nodesTable pairs = some values)
    (hpairs : ∀ (f : Field) text kept, (f.column, text) ∈ pairs →
      texts.input f.sqlType text = some kept → f.sqlType.Cell texts kept)
    (hrow : ∀ (f : Field) cell, row f.column = some cell → f.sqlType.Cell texts cell) (f : Field)
    {cell : String} (hcell : row.assign values f.column = some cell) : f.sqlType.Cell texts cell := by
  by_cases hin : f.column ∈ pairs.map Prod.fst
  · obtain ⟨⟨name, text⟩, hmem, hname⟩ := List.mem_map.1 hin
    obtain rfl : name = f.column := hname
    obtain ⟨kept, hkept, hassign⟩ := row.assign_of_mem hkeep hnodup hmem
    obtain ⟨column, hfind, -⟩ := column_type f
    have hinput : texts.input f.sqlType text = some kept := by
      rw [Lib.Table.keep, hfind] at hkept
      rw [Field.sqlType, hfind]
      exact hkept
    rw [hassign] at hcell
    exact Option.some.inj hcell ▸ hpairs f text kept hmem hinput
  · rw [row.assign_of_not_mem hkeep hin] at hcell
    exact hrow f cell hcell

theorem cell_createPairs (now : Int32) (node : NodeData) (f : Field) (text kept : String)
    (hmem : (f.column, text) ∈ createPairs texts now node)
    (hkept : texts.input f.sqlType text = some kept) : f.sqlType.Cell texts kept := by
  have htime : ∀ g : Field, g.sqlType = .integer → g = f → text = cstr (fromInt now.toInt) →
      f.sqlType.Cell texts kept := by
    rintro g hg rfl rfl
    rw [hg, cstr_of_not_mem (nul_not_mem_fromInt _)] at hkept
    rw [hg]
    exact ⟨now, input_text htexts (show SqlType.integer.Holds .int32 = true from rfl) now hkept⟩
  obtain heq | hmem := List.mem_cons.1 hmem
  · obtain ⟨hname, htext⟩ := Prod.mk.inj heq
    exact htime .createTime rfl (column_inj hname.symm) htext
  · obtain heq | hmem := List.mem_cons.1 hmem
    · obtain ⟨hname, htext⟩ := Prod.mk.inj heq
      exact htime .modifyTime rfl (column_inj hname.symm) htext
    · obtain ⟨g, -, heq⟩ := List.mem_map.1 hmem
      obtain ⟨hname, rfl⟩ := Prod.mk.inj heq
      obtain rfl := column_inj hname
      exact cell_kept htexts (sqlType_holds _) hkept

omit htexts in
theorem allowed_assign (hrow : row.allowed nodesTable = true) (values : List (String × String)) :
    (row.assign values).allowed nodesTable = true := by
  rw [Row.allowed, List.all_eq_true] at hrow ⊢
  intro column hcolumn
  have hset := hrow column hcolumn
  rw [Bool.or_eq_true] at hset ⊢
  refine hset.imp_right fun h => ?_
  rw [Row.assign, Option.isSome_or, h, Bool.or_true]

omit htexts in
/-- A row before anything but its id is assigned. -/
theorem cell_defaults {n : Nat} (hn : n < 2 ^ 31) (f : Field) {cell : String}
    (hcell : (Lib.Table.defaults nodesTable).assign [("idx", fromUint n)] f.column = some cell) :
    f.sqlType.Cell texts cell := by
  cases f with
  | nodeIdx =>
    obtain rfl : fromUint n = cell := Option.some.inj hcell
    refine ⟨Int32.ofNat n, ?_⟩
    rw [Int32.toInt_ofNat_of_lt (by omega)]
    rfl
  | createTime =>
    obtain rfl : "0" = cell := Option.some.inj hcell
    exact ⟨0, by decide⟩
  | modifyTime =>
    obtain rfl : "0" = cell := Option.some.inj hcell
    exact ⟨0, by decide⟩
  | creatorIdx =>
    obtain rfl : "0" = cell := Option.some.inj hcell
    exact ⟨0, by decide⟩
  | creatorUuid =>
    obtain rfl : "00000000-0000-0000-0000-000000000000" = cell := Option.some.inj hcell
    exact ⟨Uuid.null, by decide⟩
  | _ => exact nomatch hcell

theorem isNode_create {now : Int32} {node : NodeData} {n : Nat} {values : List (String × String)}
    (hkeep : Lib.Table.keepAll texts.input nodesTable (createPairs texts now node) = some values)
    (hn : n < 2 ^ 31) (hrow : row =
      ((Lib.Table.defaults nodesTable).assign [("idx", fromUint n)]).assign values)
    (hallowed : row.allowed nodesTable = true) :
    row "idx" = some (fromUint n) ∧ IsNode texts row := by
  have hidx : row "idx" = some (fromUint n) := by
    rw [hrow]
    exact Row.assign_of_not_mem _ hkeep (idx_not_mem_createPairs texts now node)
  refine ⟨hidx, ⟨n, hn, hidx⟩, fun f cell hcell => ?_, hallowed⟩
  rw [hrow] at hcell
  exact cell_assign (nodup_createPairs texts now node) hkeep (cell_createPairs htexts now node)
    (fun f cell hcell => cell_defaults hn f hcell) f hcell

theorem isNode_update {now : Int32} {node : NodeData} {values : List (String × String)}
    (hkeep : Lib.Table.keepAll texts.input nodesTable (updatePairs texts now node) = some values)
    (hrow : IsNode texts row) : IsNode texts (row.assign values) where
  idx := by
    rw [assign_idx hkeep]
    exact hrow.idx
  cell f cell hcell := cell_assign (nodup_updatePairs texts now node) hkeep
    (fun f text kept hmem hkept =>
      cell_createPairs htexts now node f text kept (List.mem_cons_of_mem _ hmem) hkept)
    hrow.cell f hcell
  allowed := allowed_assign hrow.allowed values

theorem isVault_create {t : NodesTable} (ht : t.IsVault texts) (now : Int32) (node : NodeData) :
    (createNode texts now node t).2.IsVault texts := by
  obtain ⟨id, t', hcreate⟩ : ∃ id t', createNode texts now node t = (id, t') := ⟨_, _, rfl⟩
  rw [hcreate]
  obtain ⟨-, hrows⟩ | ⟨-, row, values, hkeep, hrow, hsmall, hallowed, hfresh, hrows⟩ :=
    createNode_eq hcreate
  · exact ⟨hrows ▸ ht.node, hrows ▸ ht.key⟩
  · obtain ⟨hidx, hnode⟩ := isNode_create htexts hkeep hsmall hrow hallowed
    refine ⟨?_, ?_⟩
    · rw [hrows]
      intro r hr
      obtain hr | hr := List.mem_append.1 hr
      · exact ht.node r hr
      · exact List.mem_singleton.1 hr ▸ hnode
    · rw [hrows, List.map_append, List.map_singleton, ← List.concat_eq_append, List.nodup_concat]
      refine ⟨?_, ht.key⟩
      rw [List.mem_map]
      rintro ⟨r, hr, hsame⟩
      exact hfresh r hr (hsame.trans hidx)

theorem isVault_update {t : NodesTable} (ht : t.IsVault texts) (now : Int32) (node : NodeData) :
    (updateNode texts now node t).2.IsVault texts := by
  cases hupdate : updateNode texts now node t with
  | mk ok t' =>
    cases ok with
    | false =>
      rw [updateNode] at hupdate
      split at hupdate
      · cases hupdate
      · cases hupdate
        exact ht
    | true =>
      obtain ⟨values, hkeep, -, hrows⟩ := updateNode_eq htexts hupdate
      refine ⟨?_, ?_⟩
      · rw [hrows]
        intro r hr
        obtain ⟨row, hrow, rfl⟩ := List.mem_map.1 hr
        split
        · exact isNode_update htexts hkeep (ht.node row hrow)
        · exact ht.node row hrow
      · have hsame : t'.rows.map (fun row => row "idx") = t.rows.map fun row => row "idx" := by
          rw [hrows, List.map_map]
          refine List.map_congr_left fun row _ => ?_
          show (if _ then _ else _ : Row) "idx" = _
          split
          · exact assign_idx hkeep row
          · rfl
        rw [hsame]
        exact ht.key

/-- **Every table that the daemon makes of an empty one is a vault.** -/
theorem isVault_of_reachable {t : NodesTable} (h : (storeMachine texts).Reachable t) :
    t.IsVault texts := by
  refine h.invariant (I := NodesTable.IsVault texts) (fun s hs => ?_) ?_
  · have hnil : s.rows = [] := hs
    refine ⟨?_, ?_⟩
    · rw [hnil]
      exact fun row hrow => absurd hrow List.not_mem_nil
    · rw [hnil]
      exact List.nodup_nil
  · intro s call s' hs _ hstep
    cases call with
    | create now node =>
      cases hstep
      exact isVault_create htexts hs now node
    | update now node =>
      cases hstep
      exact isVault_update htexts hs now node

end

/-! ## A database -/

/-- `LOWER` in the C locale. -/
def asciiLower (s : String) : String := String.ofList (s.toList.map Char.toLower)

theorem nul_mem_asciiLower (s : String) :
    '\x00' ∈ (asciiLower s).toList ↔ '\x00' ∈ s.toList := by
  have hnul : ∀ c : Char, c.toLower = '\x00' → c = '\x00' := by
    intro c hc
    unfold Char.toLower at hc
    split at hc
    · rename_i hupper
      have hval := congrArg (fun c : Char => c.val.toNat) hc
      have hlow := UInt32.le_iff_toNat_le.1 hupper.1
      have hhigh := UInt32.le_iff_toNat_le.1 hupper.2
      simp at hval hlow hhigh
      omega
    · exact hc
  rw [asciiLower, String.toList_ofList, List.mem_map]
  constructor
  · rintro ⟨c, hc, heq⟩
    exact hnul c heq ▸ hc
  · exact fun h => ⟨'\x00', h, rfl⟩

theorem findsExactly_folders :
    FindsExactly plainTexts asciiLower (NodeData.blank.set .nodeType (22 : Int32)) :=
  (findsExactly_iff faithful_plainTexts nul_mem_asciiLower _).2 (.inl ⟨by decide, by
    intro f
    cases f <;> first | exact fun _ => trivial | exact fun h => absurd h (by decide)⟩)

/-- The id alone, and the id with the type, of which there are more. -/
theorem findsExactly_fail :
    ¬ FindsExactly plainTexts asciiLower (NodeData.blank.set .nodeIdx (10001 : UInt32)) ∧
      findNodes plainTexts asciiLower ((NodeData.blank.set .nodeIdx (10002 : UInt32)).set .nodeType
        (22 : Int32)) journalsTable = some [10001] := by
  constructor
  · refine not_findsExactly_onlyIdx faithful_plainTexts ⟨by decide, fun f hf => ?_⟩ (by decide)
    cases f <;> first | exact absurd rfl hf | decide
  · decide

end Dirtsand.Vault
