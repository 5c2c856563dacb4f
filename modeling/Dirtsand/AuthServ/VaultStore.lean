import Dirtsand.AuthServ.VaultFields
import Dirtsand.Lib.Table
import Dirtsand.Lib.Transition
import Dirtsand.Types.Text
import Dirtsand.Streams
import Mathlib.Data.List.TakeWhile

/-!
# Vault nodes in the database

`v_create_node`, `v_update_node` and `v_fetch_node` (AuthServ/AuthVault.cpp) with
the statements that they build, on the table `vault."Nodes"` (db/dbinit.sql).

* `createSql_fits`, `updateSql_fits` — the buffer of the column names is never
  overrun.
* `store_agrees` — a node is fetched as it was created, and after an update as it
  was before but for what was supplied.
-/

namespace Dirtsand.Vault

open Lib.Table (Column Row)

/-! ## The table -/

/-- The types of the columns. -/
inductive SqlType where
  | integer
  | uuid
  | varchar (n : Nat)
  | text
deriving DecidableEq, Repr

/-- `CREATE TABLE "Nodes"`. -/
def nodesTable : List (Column SqlType) :=
  [{ name := "idx", type := .integer, notNull := true },
    { name := "CreateTime", type := .integer, default := some "0", notNull := true },
    { name := "ModifyTime", type := .integer, default := some "0", notNull := true },
    { name := "CreateAgeName", type := .varchar 64 },
    { name := "CreateAgeUuid", type := .uuid },
    { name := "CreatorUuid", type := .uuid
      default := some "00000000-0000-0000-0000-000000000000", notNull := true },
    { name := "CreatorIdx", type := .integer, default := some "0", notNull := true },
    { name := "NodeType", type := .integer, notNull := true },
    { name := "Int32_1", type := .integer },
    { name := "Int32_2", type := .integer },
    { name := "Int32_3", type := .integer },
    { name := "Int32_4", type := .integer },
    { name := "Uint32_1", type := .integer },
    { name := "Uint32_2", type := .integer },
    { name := "Uint32_3", type := .integer },
    { name := "Uint32_4", type := .integer },
    { name := "Uuid_1", type := .uuid },
    { name := "Uuid_2", type := .uuid },
    { name := "Uuid_3", type := .uuid },
    { name := "Uuid_4", type := .uuid },
    { name := "String64_1", type := .varchar 64 },
    { name := "String64_2", type := .varchar 64 },
    { name := "String64_3", type := .varchar 64 },
    { name := "String64_4", type := .varchar 64 },
    { name := "String64_5", type := .varchar 64 },
    { name := "String64_6", type := .varchar 64 },
    { name := "IString64_1", type := .varchar 64 },
    { name := "IString64_2", type := .varchar 64 },
    { name := "Text_1", type := .varchar 1024 },
    { name := "Text_2", type := .varchar 1024 },
    { name := "Blob_1", type := .text },
    { name := "Blob_2", type := .text }]

/-- The rows of the table, and what `Nodes_idx_seq` gives next. -/
structure NodesTable where
  rows : List Row
  seq : Nat

/-- What the daemon and its database do with texts: the text that a column keeps,
as the column is read again, and the codec of string_theory. -/
structure Texts where
  input : SqlType → String → Option String
  base64Encode : Blob → String
  /-- `none` where the text is malformed. -/
  base64Decode : String → Option Blob

/-! ## Statements -/

/-- The first argument of `SET_FIELD`. -/
def Field.column : Field → String
  | .nodeIdx => "idx"
  | .createTime => "CreateTime"
  | .modifyTime => "ModifyTime"
  | .createAgeName => "CreateAgeName"
  | .createAgeUuid => "CreateAgeUuid"
  | .creatorUuid => "CreatorUuid"
  | .creatorIdx => "CreatorIdx"
  | .nodeType => "NodeType"
  | .int32_1 => "Int32_1"
  | .int32_2 => "Int32_2"
  | .int32_3 => "Int32_3"
  | .int32_4 => "Int32_4"
  | .uint32_1 => "Uint32_1"
  | .uint32_2 => "Uint32_2"
  | .uint32_3 => "Uint32_3"
  | .uint32_4 => "Uint32_4"
  | .uuid_1 => "Uuid_1"
  | .uuid_2 => "Uuid_2"
  | .uuid_3 => "Uuid_3"
  | .uuid_4 => "Uuid_4"
  | .string64_1 => "String64_1"
  | .string64_2 => "String64_2"
  | .string64_3 => "String64_3"
  | .string64_4 => "String64_4"
  | .string64_5 => "String64_5"
  | .string64_6 => "String64_6"
  | .iString64_1 => "IString64_1"
  | .iString64_2 => "IString64_2"
  | .text_1 => "Text_1"
  | .text_2 => "Text_2"
  | .blob_1 => "Blob_1"
  | .blob_2 => "Blob_2"

/-- What `SET_FIELD` hands to `PostgresStrings::set` for a member. -/
def Kind.text (texts : Texts) : (k : Kind) → k.Value → String
  | .uint32, v => fromUint v.toNat
  | .int32, v => fromInt v.toInt
  | .uuid, v => String.ofList v.toText
  | .string, v => v
  | .blob, v => texts.base64Encode v

/-- The `if (node.has_...())` of `v_create_node`. -/
def createOrder : List Field :=
  [.createAgeName, .createAgeUuid, .creatorUuid, .creatorIdx, .nodeType, .int32_1, .int32_2,
    .int32_3, .int32_4, .uint32_1, .uint32_2, .uint32_3, .uint32_4, .uuid_1, .uuid_2, .uuid_3,
    .uuid_4, .string64_1, .string64_2, .string64_3, .string64_4, .string64_5, .string64_6,
    .iString64_1, .iString64_2, .text_1, .text_2, .blob_1, .blob_2]

/-- The `if (node.has_...())` of `v_update_node`. -/
def updateOrder : List Field :=
  [.createAgeName, .createAgeUuid, .creatorUuid, .creatorIdx, .nodeType, .int32_1, .int32_2,
    .int32_3, .int32_4, .uint32_1, .uint32_2, .uint32_3, .uint32_4, .uuid_1, .uuid_2, .uuid_3,
    .uuid_4, .string64_1, .string64_2, .string64_3, .string64_4, .string64_5, .string64_6,
    .iString64_1, .iString64_2, .text_1, .text_2, .blob_1, .blob_2]

/-- What `v_create_node` builds: the values of the parameters, the columns, and how
much of `fieldbuf` is written with them. -/
structure InsertSql where
  parms : List String := []
  columns : List String := []
  written : Nat := 0

/-- `SET_FIELD` in `v_create_node`. -/
def InsertSql.setField (sql : InsertSql) (name value : String) : InsertSql where
  parms := sql.parms ++ [cstr value]
  columns := sql.columns ++ [name]
  written := sql.written + (name.length + 3)

/-- The numbers of the parameters, `$1` and on. -/
def InsertSql.placeholders (sql : InsertSql) : List Nat :=
  (List.range sql.parms.length).map (· + 1)

/-- What `v_update_node` builds: the values of the parameters, the columns with the
numbers of their parameters, and how much of `fieldbuf` is written with them. -/
structure UpdateSql where
  parms : List String
  sets : List (String × Nat) := []
  written : Nat := 0

/-- `SET_FIELD` in `v_update_node`. -/
def UpdateSql.setField (sql : UpdateSql) (name value : String) : UpdateSql where
  parms := sql.parms ++ [cstr value]
  sets := sql.sets ++ [(name, sql.parms.length + 1)]
  written := sql.written + (name.length + (fromUint (sql.parms.length + 1)).length + 5)

section

variable (texts : Texts)

/-- The statement of `v_create_node`. -/
def createSql (now : Int32) (node : NodeData) : InsertSql :=
  let sql : InsertSql := {}
  let sql := sql.setField "CreateTime" (fromInt now.toInt)
  let sql := sql.setField "ModifyTime" (fromInt now.toInt)
  createOrder.foldl (fun sql f =>
    if node.has f then sql.setField f.column (f.kind.text texts (node.value f)) else sql) sql

/-- The statement of `v_update_node`.  The first parameter is set last. -/
def updateSql (now : Int32) (node : NodeData) : UpdateSql :=
  let sql : UpdateSql := { parms := [""] }
  let sql := sql.setField "ModifyTime" (fromInt now.toInt)
  let sql := updateOrder.foldl (fun sql f =>
    if node.has f then sql.setField f.column (f.kind.text texts (node.value f)) else sql) sql
  { sql with parms := sql.parms.set 0 (cstr (fromUint (node.value .nodeIdx).toNat)) }

/-- `INSERT ... RETURNING idx`: the index comes from the sequence, and has to fit
its column and to be new. -/
def insertNode (sql : InsertSql) (t : NodesTable) : Option String × NodesTable :=
  match Lib.Table.assignments texts.input nodesTable sql.parms
      (sql.columns.zip sql.placeholders) with
  | none => (none, t)
  | some values =>
    let idx := fromUint t.seq
    let row := ((Lib.Table.defaults nodesTable).assign [("idx", idx)]).assign values
    if t.seq < 2 ^ 31 ∧ row.allowed nodesTable ∧ ∀ r ∈ t.rows, r "idx" ≠ some idx then
      (some idx, { rows := t.rows ++ [row], seq := t.seq + 1 })
    else (none, { t with seq := t.seq + 1 })

/-- `UPDATE ... WHERE idx=$1`. -/
def updateRows (sql : UpdateSql) (t : NodesTable) : Option NodesTable := do
  let idx ← texts.input .integer (sql.parms.headD "")
  let values ← Lib.Table.assignments texts.input nodesTable sql.parms sql.sets
  some { t with rows := t.rows.map fun row => if row "idx" = some idx then row.assign values else row }

/-! ## The functions -/

/-- `v_create_node`. -/
def createNode (now : Int32) (node : NodeData) (t : NodesTable) : UInt32 × NodesTable :=
  match insertNode texts (createSql texts now node) t with
  | (some idx, t) => ((strtoul 10 idx.toList).toUInt32, t)
  | (none, t) => (0, t)

/-- `v_update_node`. -/
def updateNode (now : Int32) (node : NodeData) (t : NodesTable) : Bool × NodesTable :=
  match updateRows texts (updateSql texts now node) t with
  | some t => (true, t)
  | none => (false, t)

/-- The columns that `v_fetch_node` selects. -/
def selectColumns : List String :=
  ["idx", "CreateTime", "ModifyTime", "CreateAgeName", "CreateAgeUuid", "CreatorUuid", "CreatorIdx",
    "NodeType", "Int32_1", "Int32_2", "Int32_3", "Int32_4", "Uint32_1", "Uint32_2", "Uint32_3",
    "Uint32_4", "Uuid_1", "Uuid_2", "Uuid_3", "Uuid_4", "String64_1", "String64_2", "String64_3",
    "String64_4", "String64_5", "String64_6", "IString64_1", "IString64_2", "Text_1", "Text_2",
    "Blob_1", "Blob_2"]

/-- The fields that `v_fetch_node` sets, with the columns of the result that it
takes them from. -/
def fetchOrder : List (Nat × Field) :=
  [(0, .nodeIdx), (1, .createTime), (2, .modifyTime), (3, .createAgeName), (4, .createAgeUuid),
    (5, .creatorUuid), (6, .creatorIdx), (7, .nodeType), (8, .int32_1), (9, .int32_2),
    (10, .int32_3), (11, .int32_4), (12, .uint32_1), (13, .uint32_2), (14, .uint32_3),
    (15, .uint32_4), (16, .uuid_1), (17, .uuid_2), (18, .uuid_3), (19, .uuid_4), (20, .string64_1),
    (21, .string64_2), (22, .string64_3), (23, .string64_4), (24, .string64_5), (25, .string64_6),
    (26, .iString64_1), (27, .iString64_2), (28, .text_1), (29, .text_2), (30, .blob_1),
    (31, .blob_2)]

/-- The fields that are set without a look at `PQgetisnull`. -/
def Field.always (f : Field) : Bool :=
  f = .nodeIdx || f = .createTime || f = .modifyTime || f = .nodeType

/-- What a text is taken for, `none` where that throws. -/
def Kind.parse : (k : Kind) → String → Option k.Value
  | .uint32, text => some (strtoul 10 text.toList).toUInt32
  | .int32, text => some (Int32.ofInt (strtol 10 text.toList))
  | .uuid, text => Uuid.ofText text.toList
  | .string, text => some text
  | .blob, text => texts.base64Decode text

/-- The type of a node is read as an unsigned number. -/
def Field.parse (f : Field) (text : String) : Option f.Value :=
  match f with
  | .nodeType => some (strtoul 10 text.toList).toUInt32.toInt32
  | f => f.kind.parse texts text

/-- `node.set_...(...)` with a column of the result. -/
def fetchField (row : Row) (n : NodeData) (j : Nat) (f : Field) : Option NodeData :=
  let value := selectColumns[j]?.bind row
  if f.always || value.isSome then
    (f.parse texts (value.getD "")).map fun v => n.set f v
  else some n

def fetchFields (row : Row) : List (Nat × Field) → NodeData → Option NodeData
  | [], n => some n
  | (j, f) :: rest, n => do
    let n ← fetchField texts row n j f
    fetchFields row rest n

/-- `v_fetch_node`, `none` where it throws. -/
def fetchNode (nodeIdx : UInt32) (t : NodesTable) : Option NodeData :=
  match texts.input .integer (cstr (fromUint nodeIdx.toNat)) with
  | none => some NodeData.blank
  | some idx =>
    match t.rows.find? (fun row => row "idx" = some idx) with
    | none => some NodeData.blank
    | some row => fetchFields texts row fetchOrder NodeData.blank

end

/-! ## What the statements assign -/

section

variable (texts : Texts)

/-- The columns of the fields that a node has, with the values of their parameters. -/
def supplied (node : NodeData) (order : List Field) : List (String × String) :=
  (order.filter node.has).map fun f => (f.column, cstr (f.kind.text texts (node.value f)))

theorem supplied_cons (node : NodeData) (f : Field) (order : List Field) :
    supplied texts node (f :: order) =
      (if node.has f then [(f.column, cstr (f.kind.text texts (node.value f)))] else []) ++
        supplied texts node order := by
  rw [supplied, List.filter_cons]
  split
  · rfl
  · rfl

theorem foldl_insert (node : NodeData) (order : List Field) (sql : InsertSql) :
    let sql' := order.foldl (fun sql f =>
      if node.has f then sql.setField f.column (f.kind.text texts (node.value f)) else sql) sql
    sql'.columns = sql.columns ++ (supplied texts node order).map Prod.fst ∧
      sql'.parms = sql.parms ++ (supplied texts node order).map Prod.snd ∧
      sql'.written ≤ sql.written + (order.map fun f => f.column.length + 3).sum := by
  induction order generalizing sql with
  | nil => exact ⟨(List.append_nil _).symm, (List.append_nil _).symm, Nat.le_refl _⟩
  | cons f order ih =>
    rw [supplied_cons, List.foldl_cons]
    split
    · obtain ⟨hcolumns, hparms, hwritten⟩ :=
        ih (sql.setField f.column (f.kind.text texts (node.value f)))
      refine ⟨hcolumns.trans ?_, hparms.trans ?_, hwritten.trans ?_⟩
      · exact List.append_assoc ..
      · exact List.append_assoc ..
      · show sql.written + (f.column.length + 3) + _ ≤ _
        rw [List.map_cons, List.sum_cons, Nat.add_assoc]
    · obtain ⟨hcolumns, hparms, hwritten⟩ := ih sql
      refine ⟨hcolumns, hparms, hwritten.trans ?_⟩
      rw [List.map_cons, List.sum_cons]
      omega

theorem foldl_update (node : NodeData) (order : List Field) (sql : UpdateSql)
    (hfew : sql.parms.length + order.length < 100) :
    let sql' := order.foldl (fun sql f =>
      if node.has f then sql.setField f.column (f.kind.text texts (node.value f)) else sql) sql
    sql'.sets = sql.sets ++ Lib.Table.numbered sql.parms.length (supplied texts node order) ∧
      sql'.parms = sql.parms ++ (supplied texts node order).map Prod.snd ∧
      sql'.written ≤ sql.written + (order.map fun f => f.column.length + 7).sum := by
  induction order generalizing sql with
  | nil => exact ⟨(List.append_nil _).symm, (List.append_nil _).symm, Nat.le_refl _⟩
  | cons f order ih =>
    rw [List.length_cons] at hfew
    rw [supplied_cons, List.foldl_cons]
    split
    · have hdigits : (fromUint (sql.parms.length + 1)).length ≤ 2 := by
        rw [fromUint, Nat.toString_eq_repr, Nat.length_repr_le_iff (by decide)]
        omega
      have hlength : (sql.setField f.column (f.kind.text texts (node.value f))).parms.length =
          sql.parms.length + 1 := List.length_append
      obtain ⟨hsets, hparms, hwritten⟩ :=
        ih (sql.setField f.column (f.kind.text texts (node.value f))) (by rw [hlength]; omega)
      rw [hlength] at hsets
      refine ⟨hsets.trans ?_, hparms.trans ?_, hwritten.trans ?_⟩
      · exact List.append_assoc ..
      · exact List.append_assoc ..
      · show sql.written + (f.column.length + (fromUint (sql.parms.length + 1)).length + 5) + _ ≤ _
        rw [List.map_cons, List.sum_cons]
        omega
    · obtain ⟨hsets, hparms, hwritten⟩ := ih sql (by omega)
      refine ⟨hsets, hparms, hwritten.trans ?_⟩
      rw [List.map_cons, List.sum_cons]
      omega

/-- What the statement of `v_create_node` assigns. -/
def createPairs (now : Int32) (node : NodeData) : List (String × String) :=
  ("CreateTime", cstr (fromInt now.toInt)) :: ("ModifyTime", cstr (fromInt now.toInt)) ::
    supplied texts node createOrder

/-- What the statement of `v_update_node` assigns. -/
def updatePairs (now : Int32) (node : NodeData) : List (String × String) :=
  ("ModifyTime", cstr (fromInt now.toInt)) :: supplied texts node updateOrder

/-- **The buffer of `v_create_node` holds every list of columns.** -/
theorem createSql_fits (now : Int32) (node : NodeData) :
    (createSql texts now node).written < 1024 := by
  have h := (foldl_insert texts node createOrder (((({} : InsertSql).setField "CreateTime"
    (fromInt now.toInt)).setField "ModifyTime" (fromInt now.toInt)))).2.2
  refine lt_of_le_of_lt h ?_
  show 0 + ("CreateTime".length + 3) + ("ModifyTime".length + 3) + _ < 1024
  decide

/-- **The buffer of `v_update_node` holds every list of assignments.** -/
theorem updateSql_fits (now : Int32) (node : NodeData) :
    (updateSql texts now node).written < 1024 := by
  have h := (foldl_update texts node updateOrder ((({ parms := [""] } : UpdateSql).setField
    "ModifyTime" (fromInt now.toInt))) (show 2 + 29 < 100 by decide)).2.2
  refine lt_of_le_of_lt h ?_
  show 0 + ("ModifyTime".length + (fromUint 2).length + 5) + _ < 1024
  decide

theorem zip_placeholders (k : Nat) (pairs : List (String × String)) :
    (pairs.map Prod.fst).zip (List.range' (k + 1) pairs.length) = Lib.Table.numbered k pairs := by
  induction pairs generalizing k with
  | nil => rfl
  | cons pair pairs ih =>
    rw [List.map_cons, List.length_cons, List.range'_succ, List.zip_cons_cons, ih]
    rfl

theorem createSql_assigns (now : Int32) (node : NodeData) :
    (createSql texts now node).parms = (createPairs texts now node).map Prod.snd ∧
      (createSql texts now node).columns.zip (createSql texts now node).placeholders =
        Lib.Table.numbered 0 (createPairs texts now node) := by
  obtain ⟨hcolumns, hparms, -⟩ := foldl_insert texts node createOrder
    (((({} : InsertSql).setField "CreateTime" (fromInt now.toInt)).setField "ModifyTime"
      (fromInt now.toInt)))
  have hparms' : (createSql texts now node).parms = (createPairs texts now node).map Prod.snd :=
    hparms
  have hcolumns' : (createSql texts now node).columns = (createPairs texts now node).map Prod.fst :=
    hcolumns
  refine ⟨hparms', ?_⟩
  have hplaceholders : (createSql texts now node).placeholders =
      List.range' (0 + 1) (createPairs texts now node).length := by
    rw [InsertSql.placeholders, hparms', List.length_map, List.range'_eq_map_range]
    exact List.map_congr_left fun i _ => by omega
  rw [hplaceholders, hcolumns', zip_placeholders]

theorem updateSql_assigns (now : Int32) (node : NodeData) :
    (updateSql texts now node).parms = [cstr (fromUint (node.value .nodeIdx).toNat)] ++
        (updatePairs texts now node).map Prod.snd ∧
      (updateSql texts now node).sets = Lib.Table.numbered 1 (updatePairs texts now node) := by
  obtain ⟨hsets, hparms, -⟩ := foldl_update texts node updateOrder
    ((({ parms := [""] } : UpdateSql).setField "ModifyTime" (fromInt now.toInt)))
    (show 2 + 29 < 100 by decide)
  refine ⟨?_, hsets⟩
  show List.set _ 0 _ = _
  rw [hparms]
  rfl

/-! ## Columns -/

/-- All fields, those first that `v_create_node` and `v_update_node` leave out. -/
def tableFields : List Field := .nodeIdx :: .createTime :: .modifyTime :: createOrder

theorem nodup_columns : (tableFields.map Field.column).Nodup := by
  decide

theorem mem_tableFields (f : Field) : f ∈ tableFields := by
  cases f <;> decide

theorem updateOrder_eq : updateOrder = createOrder := rfl

/-- The node id and the times. -/
def Field.replaced (f : Field) : Bool := f = .nodeIdx || f = .createTime || f = .modifyTime

theorem eq_of_replaced {f : Field} (h : f.replaced = true) :
    f = .nodeIdx ∨ f = .createTime ∨ f = .modifyTime := by
  rw [Field.replaced, Bool.or_eq_true, Bool.or_eq_true, decide_eq_true_iff, decide_eq_true_iff,
    decide_eq_true_iff, or_assoc] at h
  exact h

theorem ne_of_not_replaced {f : Field} (h : f.replaced = false) :
    f ≠ .nodeIdx ∧ f ≠ .createTime ∧ f ≠ .modifyTime := by
  refine ⟨?_, ?_, ?_⟩
  · rintro rfl
    cases h
  · rintro rfl
    cases h
  · rintro rfl
    cases h

theorem mem_createOrder {f : Field} (h : f.replaced = false) : f ∈ createOrder := by
  revert h
  cases f <;> decide

theorem not_mem_createOrder {f : Field} (h : f.replaced = true) : f ∉ createOrder := by
  revert h
  cases f <;> decide

theorem column_inj {f g : Field} (h : f.column = g.column) : f = g :=
  List.inj_on_of_nodup_map nodup_columns (mem_tableFields f) (mem_tableFields g) h

theorem fst_supplied (node : NodeData) (order : List Field) :
    (supplied texts node order).map Prod.fst = (order.filter node.has).map Field.column := by
  rw [supplied, List.map_map]
  rfl

theorem mem_fst_supplied {node : NodeData} {f : Field} :
    f.column ∈ (supplied texts node createOrder).map Prod.fst ↔
      f.replaced = false ∧ node.has f = true := by
  rw [fst_supplied, List.mem_map]
  constructor
  · rintro ⟨g, hg, heq⟩
    obtain rfl := column_inj heq
    obtain ⟨hmem, hhas⟩ := List.mem_filter.1 hg
    refine ⟨?_, hhas⟩
    by_contra hreplaced
    exact not_mem_createOrder (Bool.eq_true_of_not_eq_false hreplaced) hmem
  · rintro ⟨hreplaced, hhas⟩
    exact ⟨f, List.mem_filter.2 ⟨mem_createOrder hreplaced, hhas⟩, rfl⟩

theorem mem_fst_createPairs {now : Int32} {node : NodeData} {f : Field} :
    f.column ∈ (createPairs texts now node).map Prod.fst ↔
      f = .createTime ∨ f = .modifyTime ∨ f.replaced = false ∧ node.has f = true := by
  have hcreate : f.column = "CreateTime" ↔ f = .createTime :=
    ⟨fun h => column_inj (g := .createTime) h, fun h => congrArg Field.column h⟩
  have hmodify : f.column = "ModifyTime" ↔ f = .modifyTime :=
    ⟨fun h => column_inj (g := .modifyTime) h, fun h => congrArg Field.column h⟩
  rw [createPairs, List.map_cons, List.map_cons, List.mem_cons, List.mem_cons, mem_fst_supplied,
    hcreate, hmodify]

theorem mem_fst_updatePairs {now : Int32} {node : NodeData} {f : Field} :
    f.column ∈ (updatePairs texts now node).map Prod.fst ↔
      f = .modifyTime ∨ f.replaced = false ∧ node.has f = true := by
  have hmodify : f.column = "ModifyTime" ↔ f = .modifyTime :=
    ⟨fun h => column_inj (g := .modifyTime) h, fun h => congrArg Field.column h⟩
  rw [updatePairs, updateOrder_eq, List.map_cons, List.mem_cons, mem_fst_supplied, hmodify]

theorem idx_not_mem_createPairs (now : Int32) (node : NodeData) :
    Field.nodeIdx.column ∉ (createPairs texts now node).map Prod.fst := by
  rw [mem_fst_createPairs]
  rintro (h | h | h)
  · cases h
  · cases h
  · cases h.1

theorem mem_supplied {node : NodeData} {f : Field} (hf : f.replaced = false)
    (hhas : node.has f = true) :
    (f.column, cstr (f.kind.text texts (node.value f))) ∈ supplied texts node createOrder :=
  List.mem_map.2 ⟨f, List.mem_filter.2 ⟨mem_createOrder hf, hhas⟩, rfl⟩

theorem nodup_createPairs (now : Int32) (node : NodeData) :
    ((createPairs texts now node).map Prod.fst).Nodup := by
  have hsub : ((createPairs texts now node).map Prod.fst).Sublist
      (tableFields.map Field.column) := by
    show ("CreateTime" :: "ModifyTime" :: (supplied texts node createOrder).map Prod.fst).Sublist _
    rw [fst_supplied]
    exact .cons _ (.cons_cons _ (.cons_cons _ (List.filter_sublist.map _)))
  exact nodup_columns.sublist hsub

theorem nodup_updatePairs (now : Int32) (node : NodeData) :
    ((updatePairs texts now node).map Prod.fst).Nodup :=
  (List.nodup_cons.1 (nodup_createPairs texts now node)).2

end

/-! ## Texts that come back -/

/-- What the daemon relies on.  An integer in the range of its column comes back as
it was printed, and no other is taken; a UUID comes back as it was printed; and a
text that is taken is returned unchanged. -/
structure Texts.Faithful (texts : Texts) : Prop where
  integer : ∀ v : Int, texts.input .integer (fromInt v) =
    if -2 ^ 31 ≤ v ∧ v < 2 ^ 31 then some (fromInt v) else none
  uuid : ∀ (uuid : Uuid) kept, texts.input .uuid (String.ofList uuid.toText) = some kept →
    kept = String.ofList uuid.toText
  varchar : ∀ n text kept, texts.input (.varchar n) text = some kept → kept = text
  text : ∀ text kept, texts.input .text text = some kept → kept = text
  base64 : ∀ blob, texts.base64Decode (texts.base64Encode blob) = some blob
  base64_nul : ∀ blob, '\x00' ∉ (texts.base64Encode blob).toList

/-- A string without a NUL. -/
def Kind.NoNul : (k : Kind) → k.Value → Prop
  | .string, v => '\x00' ∉ v.toList
  | _, _ => True

/-- No string of the node holds a NUL. -/
def NodeData.NoNul (node : NodeData) : Prop :=
  ∀ f, node.has f = true → f.kind.NoNul (node.value f)

theorem nul_not_mem_digits {base : Nat} {cs : List Char} (h : AllDigits base cs) : '\x00' ∉ cs :=
  fun hc => absurd (le_of_digit (h _ hc)) (by decide)

theorem nul_not_mem_fromUint (n : Nat) : '\x00' ∉ (fromUint n).toList := by
  rw [toList_fromUint]
  exact nul_not_mem_digits (decimal n).1

theorem nul_not_mem_fromInt (v : Int) : '\x00' ∉ (fromInt v).toList := by
  cases v with
  | ofNat n => exact nul_not_mem_fromUint n
  | negSucc n =>
    rw [toList_fromInt_negSucc, List.mem_cons, not_or]
    exact ⟨by decide, nul_not_mem_fromUint _⟩

theorem nul_not_mem_toText (u : Uuid) : '\x00' ∉ u.toText := by
  have hhex : ∀ w n, n < 16 ^ w → '\x00' ∉ hexText w n :=
    fun w n h => nul_not_mem_digits (hexText_spec w h).1
  have h1 := hhex 8 _ u.data1.toNat_lt
  have h2 := hhex 4 _ u.data2.toNat_lt
  have h3 := hhex 4 _ u.data3.toNat_lt
  have hbyte : ∀ i, '\x00' ∉ u.hexByte i := fun i => hhex 2 _ (u.data4.get i).toNat_lt
  simp [Uuid.toText, h1, h2, h3, hbyte]

section

variable {texts : Texts} (htexts : texts.Faithful)

include htexts

theorem Kind.cstr_text {k : Kind} {v : k.Value} (h : k.NoNul v) :
    cstr (k.text texts v) = k.text texts v := by
  refine cstr_of_not_mem ?_
  cases k with
  | uint32 => exact nul_not_mem_fromUint _
  | int32 => exact nul_not_mem_fromInt _
  | uuid =>
    show '\x00' ∉ (String.ofList v.toText).toList
    rw [String.toList_ofList]
    exact nul_not_mem_toText v
  | string => exact h
  | blob => exact htexts.base64_nul v

/-- **What a member is printed as is taken for it again.** -/
theorem Kind.parse_text (k : Kind) (v : k.Value) : k.parse texts (k.text texts v) = some v := by
  cases k with
  | uint32 =>
    have hsmall : v.toNat < UInt64.size := lt_trans v.toNat_lt (by decide)
    show some (strtoul 10 (fromUint v.toNat).toList).toUInt32 = some v
    rw [strtoul_fromUint hsmall, toUInt32_ofNat]
  | int32 =>
    have hlow := v.le_toInt
    have hhigh := v.toInt_lt
    show some (Int32.ofInt (strtol 10 (fromInt v.toInt).toList)) = some v
    rw [strtol_fromInt (by omega) (by omega), Int32.ofInt_toInt]
  | uuid =>
    show Uuid.ofText (String.ofList v.toText).toList = some v
    rw [String.toList_ofList, Uuid.ofText_toText]
  | string => rfl
  | blob => exact htexts.base64 v

theorem Field.parse_text (f : Field) (v : f.Value) :
    f.parse texts (f.kind.text texts v) = some v := by
  by_cases hf : f = .nodeType
  · subst hf
    exact congrArg some (strtoul_fromInt v)
  · have hparse : f.parse texts = f.kind.parse texts := by
      cases f with
      | nodeType => exact absurd rfl hf
      | _ => rfl
    rw [hparse]
    exact Kind.parse_text htexts f.kind v

end

/-- The type of a column keeps what a member is printed as. -/
def SqlType.Holds : SqlType → Kind → Bool
  | .integer, .uint32 => true
  | .integer, .int32 => true
  | .uuid, .uuid => true
  | .varchar _, .string => true
  | .text, .blob => true
  | _, _ => false

/-- **Every field has a column of its own, of a type for it.** -/
theorem column_type (f : Field) : ∃ column, nodesTable.find? (·.name = f.column) = some column ∧
    column.type.Holds f.kind = true := by
  cases f <;> exact ⟨_, rfl, rfl⟩

section

variable {texts : Texts} (htexts : texts.Faithful)

include htexts

/-- A column that keeps what a member is printed as returns it unchanged. -/
theorem input_text {type : SqlType} {k : Kind} (h : type.Holds k = true) (v : k.Value)
    {kept : String} (hkept : texts.input type (k.text texts v) = some kept) :
    kept = k.text texts v := by
  have hint : ∀ v : Int, texts.input .integer (fromInt v) = some kept → kept = fromInt v := by
    intro v hv
    rw [htexts.integer] at hv
    split at hv
    · exact (Option.some.inj hv).symm
    · cases hv
  cases type with
  | integer =>
    cases k with
    | uint32 => exact hint v.toNat hkept
    | int32 => exact hint v.toInt hkept
    | uuid => cases h
    | string => cases h
    | blob => cases h
  | uuid =>
    cases k with
    | uuid => exact htexts.uuid v kept hkept
    | uint32 => cases h
    | int32 => cases h
    | string => cases h
    | blob => cases h
  | varchar n =>
    cases k with
    | string => exact htexts.varchar n v kept hkept
    | uint32 => cases h
    | int32 => cases h
    | uuid => cases h
    | blob => cases h
  | text =>
    cases k with
    | blob => exact htexts.text _ kept hkept
    | uint32 => cases h
    | int32 => cases h
    | uuid => cases h
    | string => cases h

/-- **What a column keeps of a member is taken for the member.** -/
theorem parse_kept (f : Field) {v : f.Value} (hnul : f.kind.NoNul v) {kept : String}
    (h : Lib.Table.keep texts.input nodesTable f.column (cstr (f.kind.text texts v)) = some kept) :
    f.parse texts kept = some v := by
  obtain ⟨column, hfind, hholds⟩ := column_type f
  rw [Kind.cstr_text htexts hnul, Lib.Table.keep, hfind] at h
  rw [input_text htexts hholds v h]
  exact Field.parse_text htexts f v

end

/-! ## Fetching a row -/

section

variable {texts : Texts}

/-- What is fetched of a field: `none` where its text throws, `some none` where it
is not set. -/
def fetched (texts : Texts) (row : Row) (f : Field) : Option (Option f.Value) :=
  if f.always || (row f.column).isSome then
    (f.parse texts ((row f.column).getD "")).map some
  else some none

/-- **Every field is set from its own column.** -/
theorem fetchOrder_aligned : ∀ p ∈ fetchOrder, selectColumns[p.1]? = some p.2.column := by
  decide

theorem mem_fetchOrder (f : Field) : f ∈ fetchOrder.map Prod.snd := by
  cases f <;> decide

theorem nodup_fetchOrder : (fetchOrder.map Prod.snd).Nodup := by
  decide

theorem fetchField_eq {row : Row} {n back : NodeData} {j : Nat} {f : Field}
    (hcolumn : selectColumns[j]? = some f.column) (hnew : n.get f = none)
    (h : fetchField texts row n j f = some back) :
    fetched texts row f = some (back.get f) ∧ ∀ g, g ≠ f → back.get g = n.get g := by
  rw [fetchField, hcolumn, Option.bind_some] at h
  rw [fetched]
  split
  · rename_i hset
    rw [if_pos hset] at h
    obtain ⟨v, hv, rfl⟩ := Option.map_eq_some_iff.1 h
    rw [hv, n.get_set_self f v]
    exact ⟨rfl, fun g hg => n.get_set_of_ne hg v⟩
  · rename_i hset
    rw [if_neg hset] at h
    cases h
    rw [hnew]
    exact ⟨rfl, fun g _ => rfl⟩

theorem fetchField_isSome {row : Row} {n : NodeData} {j : Nat} {f : Field}
    (hcolumn : selectColumns[j]? = some f.column) (h : (fetched texts row f).isSome = true) :
    ∃ back, fetchField texts row n j f = some back := by
  rw [fetched] at h
  rw [fetchField, hcolumn, Option.bind_some]
  split
  · rename_i hset
    rw [if_pos hset, Option.isSome_map] at h
    obtain ⟨v, hv⟩ := Option.isSome_iff_exists.1 h
    rw [hv]
    exact ⟨_, rfl⟩
  · exact ⟨n, rfl⟩

theorem fetchFields_eq {row : Row} {order : List (Nat × Field)} {n back : NodeData}
    (hcolumns : ∀ p ∈ order, selectColumns[p.1]? = some p.2.column)
    (hnodup : (order.map Prod.snd).Nodup) (hnew : ∀ f ∈ order.map Prod.snd, n.get f = none)
    (h : fetchFields texts row order n = some back) :
    (∀ f ∈ order.map Prod.snd, fetched texts row f = some (back.get f)) ∧
      ∀ f, f ∉ order.map Prod.snd → back.get f = n.get f := by
  induction order generalizing n with
  | nil =>
    cases h
    exact ⟨fun f hf => absurd hf List.not_mem_nil, fun f _ => rfl⟩
  | cons p order ih =>
    obtain ⟨j, f⟩ := p
    rw [List.map_cons, List.nodup_cons] at hnodup
    obtain ⟨mid, hmid, hback⟩ := Option.bind_eq_some_iff.1 h
    obtain ⟨hf, hframe⟩ := fetchField_eq (hcolumns (j, f) List.mem_cons_self)
      (hnew f List.mem_cons_self) hmid
    have hnew' : ∀ g ∈ order.map Prod.snd, mid.get g = none := by
      intro g hg
      have hne : g ≠ f := by
        rintro rfl
        exact hnodup.1 hg
      rw [hframe g hne]
      exact hnew g (List.mem_cons_of_mem f hg)
    obtain ⟨hin, hout⟩ := ih (fun p hp => hcolumns p (List.mem_cons_of_mem _ hp)) hnodup.2 hnew' hback
    refine ⟨fun g hg => ?_, fun g hg => ?_⟩
    · obtain rfl | hg := List.mem_cons.1 hg
      · rw [hf, hout _ hnodup.1]
      · exact hin g hg
    · rw [List.map_cons, List.mem_cons, not_or] at hg
      rw [hout g hg.2, hframe g hg.1]

theorem fetchFields_isSome {row : Row} {order : List (Nat × Field)} (n : NodeData)
    (hcolumns : ∀ p ∈ order, selectColumns[p.1]? = some p.2.column)
    (h : ∀ f ∈ order.map Prod.snd, (fetched texts row f).isSome = true) :
    ∃ back, fetchFields texts row order n = some back := by
  induction order generalizing n with
  | nil => exact ⟨n, rfl⟩
  | cons p order ih =>
    obtain ⟨j, f⟩ := p
    obtain ⟨mid, hmid⟩ := fetchField_isSome (n := n) (hcolumns (j, f) List.mem_cons_self)
      (h f List.mem_cons_self)
    obtain ⟨back, hback⟩ := ih mid (fun p hp => hcolumns p (List.mem_cons_of_mem _ hp))
      fun g hg => h g (List.mem_cons_of_mem f hg)
    refine ⟨back, ?_⟩
    rw [fetchFields, hmid]
    exact hback

/-- **A row is fetched field by field.** -/
theorem fetchRow_eq {row : Row} {back : NodeData}
    (h : fetchFields texts row fetchOrder NodeData.blank = some back) (f : Field) :
    fetched texts row f = some (back.get f) :=
  (fetchFields_eq fetchOrder_aligned nodup_fetchOrder (fun f _ => by cases f <;> rfl) h).1 f
    (mem_fetchOrder f)

end

/-! ## Creating -/

/-- The default of the column of a field. -/
def Field.default : (f : Field) → Option f.Value
  | .creatorUuid => some Uuid.null
  | .creatorIdx => some (0 : UInt32)
  | _ => none

/-- What a node has that was created as `node`. -/
structure Created (node : NodeData) (now : Int32) (id : UInt32)
    (get : (f : Field) → Option f.Value) : Prop where
  supplied : ∀ f, f.replaced = false → node.has f = true → get f = some (node.value f)
  absent : ∀ f, f.replaced = false → node.has f = false → get f = f.default
  nodeIdx : get .nodeIdx = some id
  createTime : get .createTime = some now.toUInt32
  modifyTime : get .modifyTime = some now.toUInt32

/-- What a node has that had `before` and was updated with `node`. -/
structure Updated (node : NodeData) (now : Int32) (before get : (f : Field) → Option f.Value) :
    Prop where
  supplied : ∀ f, f.replaced = false → node.has f = true → get f = some (node.value f)
  others : ∀ f, f ≠ .modifyTime → (f.replaced = true ∨ node.has f = false) → get f = before f
  modifyTime : get .modifyTime = some now.toUInt32

section

variable {texts : Texts}

theorem fetched_default {row : Row} {f : Field} (hf : f.replaced = false) (htype : f ≠ .nodeType)
    (hrow : row f.column = Lib.Table.defaults nodesTable f.column) :
    fetched texts row f = some f.default := by
  rw [fetched, hrow]
  cases f with
  | nodeIdx => cases hf
  | createTime => cases hf
  | modifyTime => cases hf
  | nodeType => exact absurd rfl htype
  | creatorUuid =>
    show (Uuid.ofText "00000000-0000-0000-0000-000000000000".toList).map some = some (some Uuid.null)
    decide
  | creatorIdx => rfl
  | _ => rfl

theorem fetched_some {row : Row} {f : Field} {kept : String} {v : f.Value}
    (hrow : row f.column = some kept) (hparse : f.parse texts kept = some v) :
    fetched texts row f = some (some v) := by
  rw [fetched, hrow, Option.isSome_some, Bool.or_true, if_pos rfl]
  show (f.parse texts kept).map some = _
  rw [hparse]
  rfl

theorem fetched_congr {row row' : Row} {f : Field} (h : row f.column = row' f.column) :
    fetched texts row f = fetched texts row' f := by
  rw [fetched, fetched, h]

theorem parse_time (now : Int32) :
    (strtoul 10 (fromInt now.toInt).toList).toUInt32 = now.toUInt32 := by
  have h := congrArg Int32.toUInt32 (strtoul_fromInt now)
  rwa [UInt32.toUInt32_toInt32] at h

/-- The id that `v_create_node` returns. -/
theorem toNat_strtoul_seq {n : Nat} (h : n < 2 ^ 31) :
    (strtoul 10 (fromUint n).toList).toUInt32.toNat = n := by
  rw [strtoul_fromUint (lt_trans h (by decide)), UInt64.toNat_toUInt32,
    UInt64.toNat_ofNat_of_lt' (lt_trans h (by decide))]
  exact Nat.mod_eq_of_lt (lt_trans h (by decide))

/-- **What `v_create_node` leaves behind:** the rows as they were, or one more. -/
theorem createNode_eq {now : Int32} {node : NodeData} {t t' : NodesTable} {id : UInt32}
    (h : createNode texts now node t = (id, t')) :
    (id = 0 ∧ t'.rows = t.rows) ∨ (id.toNat = t.seq ∧ ∃ row values,
      Lib.Table.keepAll texts.input nodesTable (createPairs texts now node) = some values ∧
      row = ((Lib.Table.defaults nodesTable).assign [("idx", fromUint t.seq)]).assign values ∧
      t.seq < 2 ^ 31 ∧ row.allowed nodesTable = true ∧
      (∀ r ∈ t.rows, r "idx" ≠ some (fromUint t.seq)) ∧ t'.rows = t.rows ++ [row]) := by
  obtain ⟨hparms, hsets⟩ := createSql_assigns texts now node
  have hassign := Lib.Table.assignments_numbered texts.input nodesTable []
    (nodup_createPairs texts now node)
  rw [List.nil_append, List.length_nil] at hassign
  rw [createNode, insertNode, hparms, hsets, hassign] at h
  cases hvalues : Lib.Table.keepAll texts.input nodesTable (createPairs texts now node) with
  | none =>
    rw [hvalues] at h
    cases h
    exact .inl ⟨rfl, rfl⟩
  | some values =>
    rw [hvalues] at h
    dsimp only at h
    split at h
    · rename_i idx t1 hinsert
      split at hinsert
      · rename_i hok
        cases hinsert
        cases h
        exact .inr ⟨toNat_strtoul_seq hok.1, _, values, rfl, rfl, hok.1, hok.2.1, hok.2.2, rfl⟩
      · cases hinsert
    · rename_i t1 hinsert
      split at hinsert
      · cases hinsert
      · cases hinsert
        cases h
        exact .inl ⟨rfl, rfl⟩

/-- The index of a row is not assigned. -/
theorem assign_idx {now : Int32} {node : NodeData} {values : List (String × String)}
    (hkeep : Lib.Table.keepAll texts.input nodesTable (updatePairs texts now node) = some values)
    (row : Row) : row.assign values "idx" = row "idx" := by
  have hout : Field.nodeIdx.column ∉ (updatePairs texts now node).map Prod.fst := by
    rw [mem_fst_updatePairs]
    rintro (h | h)
    · cases h
    · cases h.1
  exact Row.assign_of_not_mem _ hkeep hout

variable (htexts : texts.Faithful)

include htexts

/-- What a statement keeps of a member is fetched as the member. -/
theorem fetched_supplied {row : Row} {pairs values : List (String × String)} {node : NodeData}
    (hnul : node.NoNul) (hkeep : Lib.Table.keepAll texts.input nodesTable pairs = some values)
    (hnodup : (pairs.map Prod.fst).Nodup)
    (hsub : ∀ p ∈ supplied texts node createOrder, p ∈ pairs) {f : Field}
    (hf : f.replaced = false) (hhas : node.has f = true) :
    fetched texts (row.assign values) f = some (some (node.value f)) := by
  obtain ⟨kept, hkept, hrow⟩ := row.assign_of_mem hkeep hnodup (hsub _ (mem_supplied texts hf hhas))
  exact fetched_some hrow (parse_kept htexts f (hnul f hhas) hkept)

/-- The index of a node as a parameter. -/
theorem input_idx {n : Nat} (h : n < 2 ^ 31) :
    texts.input .integer (cstr (fromUint n)) = some (fromUint n) := by
  rw [cstr_of_not_mem (nul_not_mem_fromUint n)]
  have hinput := htexts.integer n
  rw [if_pos (by omega)] at hinput
  exact hinput

/-- What a statement keeps of the time. -/
theorem kept_time {row : Row} {pairs values : List (String × String)} {now : Int32}
    (hkeep : Lib.Table.keepAll texts.input nodesTable pairs = some values)
    (hnodup : (pairs.map Prod.fst).Nodup) (name : String)
    (hname : nodesTable.find? (·.name = name) =
      some { name, type := .integer, default := some "0", notNull := true })
    (hmem : (name, cstr (fromInt now.toInt)) ∈ pairs) :
    row.assign values name = some (fromInt now.toInt) := by
  obtain ⟨kept, hkept, hrow⟩ := row.assign_of_mem hkeep hnodup hmem
  rw [Lib.Table.keep, hname, cstr_of_not_mem (nul_not_mem_fromInt _)] at hkept
  have hkind : SqlType.integer.Holds .int32 = true := rfl
  rw [hrow, input_text htexts hkind now hkept]
  rfl

/-- **The row of a node that was created.** -/
theorem createNode_row {now : Int32} {node : NodeData} (hnul : node.NoNul) {t : NodesTable}
    {id : UInt32} {row : Row} {values : List (String × String)}
    (hkeep : Lib.Table.keepAll texts.input nodesTable (createPairs texts now node) = some values)
    (hrow : row = ((Lib.Table.defaults nodesTable).assign [("idx", fromUint t.seq)]).assign values)
    (hseq : id.toNat = t.seq) (hallowed : row.allowed nodesTable = true) :
    row "idx" = some (fromUint t.seq) ∧
      ∃ get, (∀ f, fetched texts row f = some (get f)) ∧ Created node now id get := by
  have hnodup := nodup_createPairs texts now node
  have hin : ∀ p ∈ supplied texts node createOrder, p ∈ createPairs texts now node :=
    fun p hp => List.mem_cons_of_mem _ (List.mem_cons_of_mem _ hp)
  have hdefault : ∀ f : Field, f ≠ .nodeIdx → f ≠ .createTime → f ≠ .modifyTime →
      node.has f = false → row f.column = Lib.Table.defaults nodesTable f.column := by
    intro f hidx hcreate hmodify hhas
    have hout : f.column ∉ (createPairs texts now node).map Prod.fst := by
      rw [mem_fst_createPairs, hhas]
      rintro (h | h | h)
      · exact hcreate h
      · exact hmodify h
      · cases h.2
    have hname : (f.column == "idx") = false := by
      rw [beq_eq_false_iff_ne]
      exact fun h => hidx (column_inj (g := .nodeIdx) h)
    rw [hrow, Row.assign_of_not_mem _ hkeep hout, Row.assign, List.lookup_cons, hname]
    rfl
  have hidx : row "idx" = some (fromUint t.seq) := by
    rw [hrow]
    exact Row.assign_of_not_mem _ hkeep (idx_not_mem_createPairs texts now node)
  have htype : node.has .nodeType = true := by
    by_contra hhas
    have hnull : row "NodeType" = none := hdefault .nodeType (by decide) (by decide) (by decide)
      (Bool.eq_false_of_not_eq_true hhas)
    have hcolumn : nodesTable.find? (·.name = "NodeType") =
        some { name := "NodeType", type := .integer, notNull := true } := rfl
    have hset := List.all_eq_true.1 hallowed _ (List.mem_of_find?_eq_some hcolumn)
    rw [hnull] at hset
    cases hset
  have hsupplied : ∀ f : Field, f.replaced = false → node.has f = true →
      fetched texts row f = some (some (node.value f)) := by
    intro f hf hhas
    rw [hrow]
    exact fetched_supplied htexts hnul hkeep hnodup hin hf hhas
  have habsent : ∀ f : Field, f.replaced = false → node.has f = false →
      fetched texts row f = some f.default := by
    intro f hf hhas
    obtain ⟨hne1, hne2, hne3⟩ := ne_of_not_replaced hf
    refine fetched_default hf ?_ (hdefault f hne1 hne2 hne3 hhas)
    rintro rfl
    rw [htype] at hhas
    cases hhas
  have hcreate : fetched texts row .createTime = some (some now.toUInt32) := by
    rw [hrow]
    exact fetched_some (f := .createTime)
      (kept_time htexts hkeep hnodup "CreateTime" rfl List.mem_cons_self)
      (congrArg some (parse_time now))
  have hmodify : fetched texts row .modifyTime = some (some now.toUInt32) := by
    rw [hrow]
    exact fetched_some (f := .modifyTime)
      (kept_time htexts hkeep hnodup "ModifyTime" rfl
        (List.mem_cons_of_mem _ List.mem_cons_self))
      (congrArg some (parse_time now))
  have hnodeIdx : fetched texts row .nodeIdx = some (some id) := by
    have hidx' := hidx
    rw [← hseq] at hidx'
    exact fetched_some (f := .nodeIdx) hidx' (Kind.parse_text htexts .uint32 id)
  have hall : ∀ f, ∃ v, fetched texts row f = some v := by
    intro f
    by_cases hf : f.replaced = false
    · by_cases hhas : node.has f = true
      · exact ⟨_, hsupplied f hf hhas⟩
      · exact ⟨_, habsent f hf (Bool.eq_false_of_not_eq_true hhas)⟩
    · obtain rfl | rfl | rfl := eq_of_replaced (Bool.eq_true_of_not_eq_false hf)
      · exact ⟨_, hnodeIdx⟩
      · exact ⟨_, hcreate⟩
      · exact ⟨_, hmodify⟩
  choose get hget using hall
  have heq : ∀ {f v}, fetched texts row f = some v → get f = v := by
    intro f v h
    exact Option.some.inj ((hget f).symm.trans h)
  exact ⟨hidx, get, hget, fun f hf hhas => heq (hsupplied f hf hhas),
    fun f hf hhas => heq (habsent f hf hhas), heq hnodeIdx, heq hcreate, heq hmodify⟩

theorem fetchNode_eq {nodeIdx : UInt32} {t : NodesTable} {row : Row}
    (hsmall : nodeIdx.toNat < 2 ^ 31)
    (hfind : t.rows.find? (fun r => r "idx" = some (fromUint nodeIdx.toNat)) = some row) :
    fetchNode texts nodeIdx t = fetchFields texts row fetchOrder NodeData.blank := by
  rw [fetchNode, input_idx htexts hsmall]
  show (match t.rows.find? (fun r => r "idx" = some (fromUint nodeIdx.toNat)) with
    | none => some NodeData.blank
    | some row => fetchFields texts row fetchOrder NodeData.blank) = _
  rw [hfind]

/-- What is fetched of a row that is there. -/
theorem fetchNode_row {nodeIdx : UInt32} {t : NodesTable} {row : Row}
    {get : (f : Field) → Option f.Value} (hsmall : nodeIdx.toNat < 2 ^ 31)
    (hfind : t.rows.find? (fun r => r "idx" = some (fromUint nodeIdx.toNat)) = some row)
    (hget : ∀ f, fetched texts row f = some (get f)) :
    ∃ back, fetchNode texts nodeIdx t = some back ∧ back.get = get := by
  have hsome : ∀ f ∈ fetchOrder.map Prod.snd, (fetched texts row f).isSome = true := by
    intro f _
    rw [hget f]
    rfl
  obtain ⟨back, hback⟩ := fetchFields_isSome NodeData.blank fetchOrder_aligned hsome
  refine ⟨back, (fetchNode_eq htexts hsmall hfind).trans hback, ?_⟩
  funext f
  exact Option.some.inj ((fetchRow_eq hback f).symm.trans (hget f))

/-- **A node is fetched as it was created.** -/
theorem createNode_fetch {now : Int32} {node : NodeData} (hnul : node.NoNul) {t t' : NodesTable}
    {id : UInt32} (h : createNode texts now node t = (id, t')) (hid : id ≠ 0) :
    ∃ back, fetchNode texts id t' = some back ∧ Created node now id back.get := by
  obtain ⟨hzero, -⟩ | ⟨hseq, row, values, hkeep, hrow, hsmall, hallowed, hfresh, hrows⟩ :=
    createNode_eq h
  · exact absurd hzero hid
  obtain ⟨hidx, get, hget, hcreated⟩ := createNode_row htexts hnul hkeep hrow hseq hallowed
  have hfind : t'.rows.find? (fun r => r "idx" = some (fromUint id.toNat)) = some row := by
    have hold : t.rows.find? (fun r => r "idx" = some (fromUint t.seq)) = none := by
      rw [List.find?_eq_none]
      intro r hr hsame
      exact hfresh r hr (of_decide_eq_true hsame)
    rw [hseq, hrows, List.find?_append, hold, Option.none_or]
    exact List.find?_cons_of_pos (decide_eq_true hidx)
  obtain ⟨back, hback, rfl⟩ := fetchNode_row htexts (hseq ▸ hsmall) hfind hget
  exact ⟨back, hback, hcreated⟩

/-! ## Updating -/

/-- Only an index in the range of its column is taken. -/
theorem input_idx_eq {n : Nat} {idx : String}
    (h : texts.input .integer (cstr (fromUint n)) = some idx) : idx = fromUint n ∧ n < 2 ^ 31 := by
  rw [cstr_of_not_mem (nul_not_mem_fromUint n)] at h
  have hinput := htexts.integer n
  rw [show fromInt n = fromUint n from rfl, h] at hinput
  split at hinput
  · rename_i hrange
    exact ⟨Option.some.inj hinput, by omega⟩
  · cases hinput

/-- **What `v_update_node` leaves behind when it succeeds.** -/
theorem updateNode_eq {now : Int32} {node : NodeData} {t t' : NodesTable}
    (h : updateNode texts now node t = (true, t')) :
    ∃ values, Lib.Table.keepAll texts.input nodesTable (updatePairs texts now node) = some values ∧
      (node.value .nodeIdx).toNat < 2 ^ 31 ∧
      t'.rows = t.rows.map fun row =>
        if row "idx" = some (fromUint (node.value .nodeIdx).toNat) then row.assign values else row := by
  obtain ⟨hparms, hsets⟩ := updateSql_assigns texts now node
  have hassign := Lib.Table.assignments_numbered texts.input nodesTable
    [cstr (fromUint (node.value .nodeIdx).toNat)] (nodup_updatePairs texts now node)
  rw [List.length_singleton] at hassign
  rw [updateNode] at h
  split at h
  · rename_i t1 hupdate
    cases h
    rw [updateRows, hparms, hsets, hassign] at hupdate
    obtain ⟨idx, hidx, hupdate⟩ := Option.bind_eq_some_iff.1 hupdate
    obtain ⟨values, hvalues, hupdate⟩ := Option.bind_eq_some_iff.1 hupdate
    obtain ⟨rfl, hsmall⟩ := input_idx_eq htexts hidx
    cases hupdate
    exact ⟨values, hvalues, hsmall, rfl⟩
  · cases h

/-- **The row of a node that was updated.** -/
theorem updateNode_row (now : Int32) {node : NodeData} (hnul : node.NoNul) {row : Row}
    {values : List (String × String)}
    (hkeep : Lib.Table.keepAll texts.input nodesTable (updatePairs texts now node) = some values)
    {before : (f : Field) → Option f.Value} (hbefore : ∀ f, fetched texts row f = some (before f)) :
    ∃ get, (∀ f, fetched texts (row.assign values) f = some (get f)) ∧
      Updated node now before get := by
  have hnodup := nodup_updatePairs texts now node
  have hin : ∀ p ∈ supplied texts node createOrder, p ∈ updatePairs texts now node :=
    fun p hp => List.mem_cons_of_mem _ hp
  have hsupplied : ∀ f : Field, f.replaced = false → node.has f = true →
      fetched texts (row.assign values) f = some (some (node.value f)) :=
    fun f hf hhas => fetched_supplied htexts hnul hkeep hnodup hin hf hhas
  have hmodify : fetched texts (row.assign values) .modifyTime = some (some now.toUInt32) :=
    fetched_some (f := .modifyTime)
      (kept_time htexts hkeep hnodup "ModifyTime" rfl List.mem_cons_self)
      (congrArg some (parse_time now))
  have hothers : ∀ f : Field, f ≠ .modifyTime → (f.replaced = true ∨ node.has f = false) →
      fetched texts (row.assign values) f = some (before f) := by
    intro f hne hout
    have hmem : f.column ∉ (updatePairs texts now node).map Prod.fst := by
      rw [mem_fst_updatePairs]
      rintro (h | ⟨hf, hhas⟩)
      · exact hne h
      · obtain h | h := hout
        · rw [hf] at h
          cases h
        · rw [hhas] at h
          cases h
    rw [← hbefore f]
    exact fetched_congr (Row.assign_of_not_mem _ hkeep hmem)
  have hall : ∀ f, ∃ v, fetched texts (row.assign values) f = some v := by
    intro f
    by_cases hne : f = .modifyTime
    · subst hne
      exact ⟨_, hmodify⟩
    · by_cases hin : f.replaced = false ∧ node.has f = true
      · exact ⟨_, hsupplied f hin.1 hin.2⟩
      · refine ⟨_, hothers f hne ?_⟩
        rw [not_and_or, Bool.not_eq_false, Bool.not_eq_true] at hin
        exact hin
  choose get hget using hall
  have heq : ∀ {f v}, fetched texts (row.assign values) f = some v → get f = v := by
    intro f v h
    exact Option.some.inj ((hget f).symm.trans h)
  exact ⟨get, hget, fun f hf hhas => heq (hsupplied f hf hhas),
    fun f hne hout => heq (hothers f hne hout), heq hmodify⟩

/-- There is a row with an index. -/
def NodesTable.Has (t : NodesTable) (nodeIdx : UInt32) : Prop :=
  ∃ row ∈ t.rows, row "idx" = some (fromUint nodeIdx.toNat)

/-- **A node is fetched as it was, but for what was supplied.** -/
theorem updateNode_fetch {now : Int32} {node : NodeData} (hnul : node.NoNul) {t t' : NodesTable}
    (h : updateNode texts now node t = (true, t')) (hrow : t.Has (node.value .nodeIdx))
    {before : NodeData} (hbefore : fetchNode texts (node.value .nodeIdx) t = some before) :
    ∃ back, fetchNode texts (node.value .nodeIdx) t' = some back ∧
      Updated node now before.get back.get := by
  obtain ⟨values, hkeep, hsmall, hrows⟩ := updateNode_eq htexts h
  obtain ⟨row, hfind⟩ : ∃ row, t.rows.find?
      (fun r => r "idx" = some (fromUint (node.value .nodeIdx).toNat)) = some row := by
    rw [← Option.isSome_iff_exists, List.find?_isSome]
    obtain ⟨row, hmem, hidx⟩ := hrow
    exact ⟨row, hmem, decide_eq_true hidx⟩
  have hsome := List.find?_some hfind
  have hidx : row "idx" = some (fromUint (node.value .nodeIdx).toNat) := of_decide_eq_true hsome
  have hfetched : fetchFields texts row fetchOrder NodeData.blank = some before :=
    (fetchNode_eq htexts hsmall hfind).symm.trans hbefore
  obtain ⟨get, hget, hupdated⟩ := updateNode_row htexts now hnul hkeep (fetchRow_eq hfetched)
  have hfind' : t'.rows.find? (fun r => r "idx" = some (fromUint (node.value .nodeIdx).toNat)) =
      some (row.assign values) := by
    have hsame : ((fun r : Row => decide (r "idx" = some (fromUint (node.value .nodeIdx).toNat))) ∘
        fun row => if row "idx" = some (fromUint (node.value .nodeIdx).toNat) then
          row.assign values else row) =
        fun r => decide (r "idx" = some (fromUint (node.value .nodeIdx).toNat)) := by
      funext r
      show decide ((if _ then _ else _ : Row) "idx" = _) = _
      split
      · rw [assign_idx hkeep]
      · rfl
    rw [hrows, List.find?_map, hsame, hfind, Option.map_some, if_pos hidx]
  obtain ⟨back, hback, rfl⟩ := fetchNode_row htexts hsmall hfind' hget
  exact ⟨back, hback, hupdated⟩

/-- **The vault store agrees with itself.**  A node that was created is fetched with
every field that was supplied and with the columns' defaults for the others, and a
node that was updated with every field that was supplied and as it was otherwise. -/
theorem store_agrees (now : Int32) {node : NodeData} (hnul : node.NoNul) (t : NodesTable) :
    (∀ id t', createNode texts now node t = (id, t') → id ≠ 0 →
      ∃ back, fetchNode texts id t' = some back ∧ Created node now id back.get) ∧
    ∀ t' before, updateNode texts now node t = (true, t') → t.Has (node.value .nodeIdx) →
      fetchNode texts (node.value .nodeIdx) t = some before →
      ∃ back, fetchNode texts (node.value .nodeIdx) t' = some back ∧
        Updated node now before.get back.get :=
  ⟨fun _ _ h hid => createNode_fetch htexts hnul h hid,
    fun _ _ h hrow hbefore => updateNode_fetch htexts hnul h hrow hbefore⟩

/-! ## Runs -/

/-- A call of `v_create_node` or `v_update_node`. -/
inductive StoreCall where
  | create (now : Int32) (node : NodeData)
  | update (now : Int32) (node : NodeData)

def StoreCall.node : StoreCall → NodeData
  | create _ node => node
  | update _ node => node

/-- The table from an empty one on. -/
def storeMachine (texts : Texts) : Lib.Machine NodesTable StoreCall where
  start t := t.rows = []
  step t
    | .create now node => some (createNode texts now node t).2
    | .update now node => some (updateNode texts now node t).2

/-- No row has a text that throws. -/
def NodesTable.Fetchable (texts : Texts) (t : NodesTable) : Prop :=
  ∀ row ∈ t.rows, ∃ get : (f : Field) → Option f.Value, ∀ f, fetched texts row f = some (get f)

theorem fetchable_create {now : Int32} {node : NodeData} (hnul : node.NoNul) {t : NodesTable}
    (h : t.Fetchable texts) : (createNode texts now node t).2.Fetchable texts := by
  obtain ⟨id, t', hcreate⟩ : ∃ id t', createNode texts now node t = (id, t') := ⟨_, _, rfl⟩
  rw [hcreate]
  obtain ⟨-, hrows⟩ | ⟨hseq, row, values, hkeep, hrow, -, hallowed, -, hrows⟩ :=
    createNode_eq hcreate
  · rw [NodesTable.Fetchable, hrows]
    exact h
  · obtain ⟨-, get, hget, -⟩ := createNode_row htexts hnul hkeep hrow hseq hallowed
    intro r hr
    rw [hrows, List.mem_append, List.mem_singleton] at hr
    obtain hr | rfl := hr
    · exact h r hr
    · exact ⟨get, hget⟩

theorem fetchable_update {now : Int32} {node : NodeData} (hnul : node.NoNul) {t : NodesTable}
    (h : t.Fetchable texts) : (updateNode texts now node t).2.Fetchable texts := by
  cases hupdate : updateNode texts now node t with
  | mk ok t' =>
    cases ok with
    | false =>
      rw [updateNode] at hupdate
      split at hupdate
      · cases hupdate
      · cases hupdate
        exact h
    | true =>
      obtain ⟨values, hkeep, -, hrows⟩ := updateNode_eq htexts hupdate
      intro r hr
      rw [hrows] at hr
      obtain ⟨row, hrow, rfl⟩ := List.mem_map.1 hr
      obtain ⟨before, hbefore⟩ := h row hrow
      split
      · obtain ⟨get, hget, -⟩ := updateNode_row htexts now hnul hkeep hbefore
        exact ⟨get, hget⟩
      · exact ⟨before, hbefore⟩

/-- **Nothing that was stored throws when it is fetched.** -/
theorem fetchNode_isSome {t : NodesTable}
    (h : (storeMachine texts).ReachableWith (fun _ call => call.node.NoNul) t)
    (nodeIdx : UInt32) : (fetchNode texts nodeIdx t).isSome = true := by
  have hfetchable : t.Fetchable texts := by
    refine h.invariant (I := NodesTable.Fetchable texts) (fun s hs row hrow => ?_) ?_
    · rw [hs] at hrow
      exact absurd hrow List.not_mem_nil
    · intro s call s' hs hnul hstep
      cases call with
      | create now node =>
        cases hstep
        exact fetchable_create htexts hnul hs
      | update now node =>
        cases hstep
        exact fetchable_update htexts hnul hs
  rw [fetchNode]
  split
  · rfl
  · split
    · rfl
    · rename_i row hfind
      obtain ⟨get, hget⟩ := hfetchable row (List.mem_of_find?_eq_some hfind)
      have hsome : ∀ f ∈ fetchOrder.map Prod.snd, (fetched texts row f).isSome = true := by
        intro f _
        rw [hget f]
        rfl
      obtain ⟨back, hback⟩ := fetchFields_isSome NodeData.blank fetchOrder_aligned hsome
      rw [hback]
      rfl

end

/-! ## A database -/

/-- Texts as `Faithful` has them, with a code of one character a byte in the place
of base64. -/
def plainTexts : Texts where
  input
    | .integer, text =>
      if -2 ^ 31 ≤ strtol 10 text.toList ∧ strtol 10 text.toList < 2 ^ 31 then
        some (fromInt (strtol 10 text.toList))
      else none
    | .uuid, text => (Uuid.ofText text.toList).map fun uuid => String.ofList uuid.toText
    | .varchar n, text => if text.length ≤ n then some text else none
    | .text, text => some text
  base64Encode blob := String.ofList (blob.map fun b => Char.ofNat (0x100 + b.toNat))
  base64Decode text := some (text.toList.map fun c => UInt8.ofNat (c.toNat - 0x100))

theorem toNat_code (b : UInt8) : (Char.ofNat (0x100 + b.toNat)).toNat = 0x100 + b.toNat := by
  revert b
  refine Streams.forall_byte ?_
  decide +kernel

theorem plainTexts_uuid (text : String) : plainTexts.input .uuid text =
    (Uuid.ofText text.toList).map fun uuid => String.ofList uuid.toText := rfl

theorem faithful_plainTexts : plainTexts.Faithful where
  integer v := by
    have hclamp := strtol_fromInt_clamped v
    show (if -2 ^ 31 ≤ strtol 10 (fromInt v).toList ∧ strtol 10 (fromInt v).toList < 2 ^ 31 then
      some (fromInt (strtol 10 (fromInt v).toList)) else none) = _
    generalize strtol 10 (fromInt v).toList = w at hclamp
    by_cases h : -2 ^ 31 ≤ v ∧ v < 2 ^ 31
    · have hw : w = v := by omega
      rw [hw]
    · have hw : ¬ (-2 ^ 31 ≤ w ∧ w < 2 ^ 31) := by omega
      rw [if_neg h, if_neg hw]
  uuid uuid kept h := by
    rw [plainTexts_uuid, String.toList_ofList, Uuid.ofText_toText, Option.map_some] at h
    exact (Option.some.inj h).symm
  varchar n text kept h := by
    have hinput : (if text.length ≤ n then some text else none) = some kept := h
    split at hinput
    · exact (Option.some.inj hinput).symm
    · cases hinput
  text text kept h := (Option.some.inj h).symm
  base64 blob := by
    show some ((String.ofList _).toList.map _) = _
    rw [String.toList_ofList, List.map_map]
    congr 1
    refine List.map_id'' (fun b => ?_) blob
    show UInt8.ofNat ((Char.ofNat (0x100 + b.toNat)).toNat - 0x100) = b
    rw [toNat_code, Nat.add_sub_cancel_left, UInt8.ofNat_toNat]
  base64_nul blob := by
    show _ ∉ (String.ofList _).toList
    rw [String.toList_ofList, List.mem_map]
    rintro ⟨b, -, hb⟩
    have hnat := congrArg Char.toNat hb
    rw [toNat_code] at hnat
    have hzero : '\x00'.toNat = 0 := rfl
    omega

/-- A folder for journals. -/
def journals : NodeData :=
  (((NodeData.blank.set .nodeIdx (10001 : UInt32)).set .nodeType (22 : Int32)).set .creatorIdx
    (10050 : UInt32)).set .int32_1 (-14 : Int32)

/-- The table after this folder was created. -/
def journalsTable : NodesTable := (createNode plainTexts 1000 journals ⟨[], 10001⟩).2

theorem store_agrees_journals :
    ∃ before back, fetchNode plainTexts 10001 journalsTable = some before ∧
      Created journals 1000 10001 before.get ∧
      fetchNode plainTexts 10001 (updateNode plainTexts 2000 journals journalsTable).2 = some back ∧
      Updated journals 2000 before.get back.get := by
  have hnul : journals.NoNul := by
    intro f
    cases f <;> first | exact fun _ => trivial | exact fun h => absurd h (by decide)
  have hcreate : createNode plainTexts 1000 journals ⟨[], 10001⟩ = (10001, journalsTable) :=
    Prod.ext (by decide) rfl
  have hupdate : updateNode plainTexts 2000 journals journalsTable =
      (true, (updateNode plainTexts 2000 journals journalsTable).2) :=
    Prod.ext (by decide) rfl
  have hrow : journalsTable.Has 10001 := by
    have hany : journalsTable.rows.any (fun r => r "idx" = some (fromUint 10001)) = true := by
      decide
    obtain ⟨row, hmem, hidx⟩ := List.any_eq_true.1 hany
    exact ⟨row, hmem, of_decide_eq_true hidx⟩
  obtain ⟨before, hbefore, hcreated⟩ :=
    (store_agrees faithful_plainTexts 1000 hnul ⟨[], 10001⟩).1 10001 _ hcreate (by decide)
  obtain ⟨back, hback, hupdated⟩ :=
    (store_agrees faithful_plainTexts 2000 hnul journalsTable).2 _ before hupdate hrow hbefore
  exact ⟨before, back, hbefore, hcreated, hback, hupdated⟩

end Dirtsand.Vault
