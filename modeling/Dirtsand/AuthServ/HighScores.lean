import Dirtsand.AuthServ.AnswersOnce
import Dirtsand.AuthServ.Scores
import Dirtsand.Types.Utf16

/-!
# High scores

What `dm_auth_getHighScores` (AuthServ/AuthDaemon.cpp) replies, on the rows of
`auth."Scores"` with the times at which they were made, and how
`write_scoreBuffer` (AuthServ/AuthServer.cpp) writes it.

No statement says in which order the rows come, and `LIMIT` takes the first of
them.  Of the statement for all owners the handler reads a column too many.

* `highScores_hold_iff` — when what is replied is true and highest.
* `length_writeScoreBuffer` — the size that is written before the scores.
-/

namespace Dirtsand.AuthServ

open Lib.Prog Daemon
open Db (Tables ScoreRow integer integer_eq_some)

variable {hoodUserName : String} {createTime : ScoreRow → Int32} {d d' : Tables} {s : DaemonState}
  {owner maxScores : UInt32} {name : String}

/-! ## The statements -/

/-- `"Name"=$1`. -/
def named (d : Tables) (name : String) : List ScoreRow :=
  d.scores.filter fun row => row.name = cstr name

/-- `"OwnerIdx" IN (SELECT "ChildIdx" FROM vault."NodeRefs" WHERE "ParentIdx"=$2)`. -/
def isOwner (d : Tables) (folder : Int32) (row : ScoreRow) : Bool :=
  d.refs.any fun ref => ref.parentIdx = folder ∧ ref.childIdx = row.ownerIdx

/-- The rows that are selected for one folder of owners. -/
def namedIn (d : Tables) (name : String) (folder : Int32) : List ScoreRow :=
  (named d name).filter (isOwner d folder)

/-- `SELECT idx, "CreateTime", "Type", "Points"`. -/
def allScoresRow (createTime : ScoreRow → Int32) (row : ScoreRow) : Row :=
  cells [intCell row.idx, intCell (createTime row), intCell row.type, intCell row.points]

/-- `SELECT idx, "OwnerIdx", "CreateTime", "Type", "Points"`. -/
def ownerScoresRow (createTime : ScoreRow → Int32) (row : ScoreRow) : Row :=
  cells [intCell row.idx, intCell row.ownerIdx, intCell (createTime row), intCell row.type,
    intCell row.points]

/-- How the database answers.  The rows come in any order, and `LIMIT` takes the first of them. -/
inductive AnswersScores (hoodUserName : String) (createTime : ScoreRow → Int32) :
    Tables → CallSite × Statement → QueryOutcome → Tables → Prop where
  | allScores {d : Tables} {site : CallSite} {name : String} {maxScores : UInt32}
      {rows : List ScoreRow} (horder : rows.Perm (named d name)) :
      AnswersScores hoodUserName createTime d (site, .selectAllScores name maxScores)
        (.tuples ((rows.take maxScores.toNat).map (allScoresRow createTime))) d
  | ownerScores {d : Tables} {site : CallSite} {name : String} {ageOwnersFolder maxScores : UInt32}
      {folder : Int32} {rows : List ScoreRow} (hfolder : integer ageOwnersFolder = some folder)
      (horder : rows.Perm (namedIn d name folder)) :
      AnswersScores hoodUserName createTime d
        (site, .selectOwnerScores name ageOwnersFolder maxScores)
        (.tuples ((rows.take maxScores.toNat).map (ownerScoresRow createTime))) d
  | select {d : Tables} {site : CallSite} {q : Statement} {rows rows' : List Row}
      (h : selectRows hoodUserName d q = some rows') (horder : rows.Perm rows') :
      AnswersScores hoodUserName createTime d (site, q) (.tuples rows) d
  | failed {d : Tables} {q : CallSite × Statement} {a : QueryOutcome} (h : a = .error ∨ a = .throws) :
      AnswersScores hoodUserName createTime d q a d

/-- They are answers of the database. -/
theorem AnswersScores.answers {q : CallSite × Statement} {a : QueryOutcome}
    (h : AnswersScores hoodUserName createTime d q a d') : Answers hoodUserName d q a d' := by
  cases h with
  | allScores horder => exact .inl (.read _ rfl)
  | ownerScores hfolder horder => exact .inl (.read _ rfl)
  | select h horder => exact .inl (.select h horder)
  | failed h => exact .inr ⟨h, .refl d⟩

/-! ## What is wanted -/

/-- What a reply says of a score. -/
def recordOf (createTime : ScoreRow → Int32) (row : ScoreRow) : GameScore where
  scoreId := row.idx.toUInt32
  owner := row.ownerIdx.toUInt32
  createTime := (createTime row).toUInt32
  type := row.type.toUInt32
  points := row.points

/-- A folder with the owners of an age. -/
def IsOwnersFolder (d : Tables) (owner : UInt32) (folder : Int32) : Prop :=
  ∃ nodeId, integer owner = some nodeId ∧
    ∃ row ∈ Db.findFolder d nodeId Vault.StandardNode.ageOwnersFolder.toInt, row.idx = folder

/-- A score with the name, and where an owner is given, with an owner of the age. -/
structure Wanted (d : Tables) (owner : UInt32) (name : String) (row : ScoreRow) : Prop where
  stored : row ∈ d.scores
  name : row.name = name
  owned : owner ≠ 0 → ∃ folder, IsOwnersFolder d owner folder ∧ isOwner d folder row = true

/-- The records are those of scores that are wanted, each at most once, and where there are as many
as were asked for, no other score has more points than one of them. -/
def TrueAndHighest (createTime : ScoreRow → Int32) (d : Tables) (owner : UInt32) (name : String)
    (maxScores : UInt32) (records : List GameScore) : Prop :=
  ∃ rows : List ScoreRow, records = rows.map (recordOf createTime) ∧
    (∀ row ∈ rows, Wanted d owner name row) ∧ rows.Nodup ∧
    (rows.length = maxScores.toNat → ∀ row, Wanted d owner name row → row ∉ rows →
      ∀ row' ∈ rows, row.points.toInt ≤ row'.points.toInt)

/-- Whatever the database answers, a successful reply is true and highest. -/
def HighScoresHold (hoodUserName : String) (createTime : ScoreRow → Int32) (d : Tables)
    (owner : UInt32) (name : String) (maxScores : UInt32) : Prop :=
  ∀ s x d' s' out, Runs (AnswersScores hoodUserName createTime) d s
    (dmAuthGetHighScores owner name maxScores) x d' s' out →
    ∀ records, { code := .success, out := .scores records } ∈ out →
      TrueAndHighest createTime d owner name maxScores records

/-- What has to be true of the scores of one folder of owners, if any of them is returned: the name
holds no NUL, and no other score of the age has more points than one of them, if it can be left
out. -/
def FolderHolds (d : Tables) (owner : UInt32) (name : String) (maxScores : UInt32) (folder : Int32) :
    Prop :=
  0 ≤ folder.toInt → 0 < maxScores.toNat → namedIn d name folder ≠ [] →
    '\x00' ∉ name.toList ∧
    (maxScores.toNat ≤ (namedIn d name folder).length → ∀ row ∈ namedIn d name folder,
      ∀ row', Wanted d owner name row' → row' ≠ row →
        (row' ∈ namedIn d name folder → maxScores.toNat < (namedIn d name folder).length) →
        row'.points.toInt ≤ row.points.toInt)

/-! ## Replies -/

/-- What the loop reads of a row. -/
def readScore (result : PGresult) (i : Nat) : DM GameScore := do
  return {
    scoreId := ← numAt result i 0
    owner := ← numAt result i 1
    createTime := ← numAt result i 2
    type := ← numAt result i 3
    points := (← numAt result i 4).toInt32 }

theorem replyHighScores_eq (result : PGresult) : replyHighScores result =
    if result.status ≠ .tuplesOk then sendReply .internalError
    else forRows result (readScore result) >>= fun scores => sendReplyWith .success (.scores scores) :=
  rfl

instance {result : PGresult} {i : Nat} : Steady (readScore result i) := by
  unfold readScore
  infer_instance

instance {result : PGresult} : Steady (replyHighScores result) := by
  rw [replyHighScores_eq]
  infer_instance

/-- The rows of five columns are read as they are. -/
theorem replyHighScores_rows (name : String) (ageOwnersFolder maxScores : UInt32)
    (rows : List ScoreRow) :
    replyHighScores (rowsOf (.selectOwnerScores name ageOwnersFolder maxScores)
      (rows.map (ownerScoresRow createTime))) =
      sendReplyWith .success (.scores (rows.map (recordOf createTime))) := by
  have hrows : forRows (rowsOf (.selectOwnerScores name ageOwnersFolder maxScores)
      (rows.map (ownerScoresRow createTime)))
      (readScore (rowsOf (.selectOwnerScores name ageOwnersFolder maxScores)
        (rows.map (ownerScoresRow createTime)))) = pure (rows.map (recordOf createTime)) := by
    refine forRows_rowsOf fun i row hrow _ => ?_
    have hcolumns :
        (Statement.selectOwnerScores name ageOwnersFolder maxScores).columns = 5 := rfl
    rw [readScore, numAt_rowsOf (v := row.idx) hrow (by rw [hcolumns]; decide) rfl,
      numAt_rowsOf (v := row.ownerIdx) hrow (by rw [hcolumns]; decide) rfl,
      numAt_rowsOf (v := createTime row) hrow (by rw [hcolumns]; decide) rfl,
      numAt_rowsOf (v := row.type) hrow (by rw [hcolumns]; decide) rfl,
      numAt_rowsOf (v := row.points) hrow (by rw [hcolumns]; decide) rfl]
    rfl
  rw [replyHighScores_eq, if_neg (not_not.2 rfl), hrows, pure_bind]

/-- The records of a reply, where it is a successful one. -/
def RecordsAre (P : List GameScore → Prop) :
    Lib.Exit Unit → Tables → DaemonState → List Reply → Prop :=
  fun _ _ _ out => ∀ records, { code := .success, out := .scores records } ∈ out → P records

section

variable {P : List GameScore → Prop} {serves : Tables → CallSite × Statement → QueryOutcome →
  Tables → Prop}

theorem recordsAre_code {code : NetResultCode} (h : code ≠ .success) :
    Ensures serves d s (sendReply code) (RecordsAre P) := by
  refine ensures_reply fun records hmem => ?_
  rw [List.mem_singleton] at hmem
  exact absurd (congrArg Reply.code hmem).symm h

theorem recordsAre_scores {records : List GameScore} (h : P records) :
    Ensures serves d s (sendReplyWith .success (.scores records)) (RecordsAre P) := by
  refine ensures_reply fun records' hmem => ?_
  rw [List.mem_singleton] at hmem
  cases hmem
  exact h

/-- A result of four columns: the process ends at the first row. -/
theorem recordsAre_four (name : String) (maxScores : UInt32) (rows : List Row) (h : P []) :
    Ensures serves d s (replyHighScores (rowsOf (.selectAllScores name maxScores) rows))
      (RecordsAre P) := by
  cases rows with
  | nil => exact recordsAre_scores h
  | cons row rest =>
    intro w new out d' _ _ hreplies _ records hmem
    have hsame := (replyHighScores_fails (L := False) row rest w).2.1
    rw [show rowsOf (.selectAllScores name maxScores) (row :: rest) =
      { status := .tuplesOk, nfields := 4, rows := row :: rest } from rfl] at hreplies
    rw [hsame, List.self_eq_append_right] at hreplies
    rw [hreplies] at hmem
    exact absurd hmem List.not_mem_nil

/-- No owner: a successful reply has no record. -/
theorem recordsAre_all (name : String) (maxScores : UInt32) (h : P []) :
    Ensures (AnswersScores hoodUserName createTime) d s (dmAuthGetHighScores 0 name maxScores)
      (RecordsAre P) := by
  unfold dmAuthGetHighScores
  rw [if_pos rfl]
  refine ensures_bind (ensures_exec (fun rows d' _ => ?_) (fun d' _ => ?_) (fun d' _ => ?_)
    fun d' _ records hmem => ?_)
  · exact recordsAre_four name maxScores rows h
  · exact recordsAre_code (by decide)
  · exact recordsAre_code (by decide)
  · exact absurd hmem List.not_mem_nil

/-- The folders of owners come in any order. -/
theorem foldersAre {rows : List Row} {site : CallSite}
    (h : AnswersScores hoodUserName createTime d (site, .findScoreOwners owner) (.tuples rows) d') :
    d' = d ∧ ∃ nodeId, integer owner = some nodeId ∧ rows.Perm ((Db.findFolder d nodeId
      Vault.StandardNode.ageOwnersFolder.toInt).map fun row => cells [intCell row.idx]) := by
  cases h with
  | select h horder =>
    obtain ⟨nodeId, hnode, hrows⟩ := Option.bind_eq_some_iff.1 h
    refine ⟨rfl, nodeId, hnode, ?_⟩
    obtain rfl := Option.some.inj hrows
    rw [idxRows, List.map_map] at horder
    exact horder
  | failed h => exact absurd h (by rintro (h | h) <;> cases h)

theorem integer_toUInt32 {v w : Int32} : integer v.toUInt32 = some w ↔ w = v ∧ 0 ≤ v.toInt := by
  have hv := toInt_eq v
  have hlt := v.toUInt32.toNat_lt
  rw [integer_eq_some]
  constructor
  · rintro ⟨hsmall, hsame⟩
    refine ⟨(congrArg UInt32.toInt32 hsame).symm, ?_⟩
    rw [hv, if_pos (by omega)]
    exact Int.natCast_nonneg _
  · rintro ⟨rfl, hnonneg⟩
    refine ⟨?_, rfl⟩
    split at hv
    · omega
    · omega

theorem ownerScoresAre {rows : List Row} {site : CallSite} {ageOwnersFolder : Int32}
    (h : AnswersScores hoodUserName createTime d
      (site, .selectOwnerScores name ageOwnersFolder.toUInt32 maxScores) (.tuples rows) d') :
    0 ≤ ageOwnersFolder.toInt ∧ ∃ scores : List ScoreRow,
      scores.Perm (namedIn d name ageOwnersFolder) ∧
      rows = (scores.take maxScores.toNat).map (ownerScoresRow createTime) := by
  cases h with
  | ownerScores hfolder horder =>
    obtain ⟨rfl, hnonneg⟩ := integer_toUInt32.1 hfolder
    exact ⟨hnonneg, _, horder, rfl⟩
  | select h => exact nomatch h
  | failed h => exact absurd h (by rintro (h | h) <;> cases h)

/-- **What is replied for an owner:** the first of the scores of one folder, in any order. -/
theorem recordsAre_owner (howner : owner ≠ 0) (name : String) (maxScores : UInt32)
    (h : ∀ folder (scores : List ScoreRow), IsOwnersFolder d owner folder → 0 ≤ folder.toInt →
      scores.Perm (namedIn d name folder) →
      P ((scores.take maxScores.toNat).map (recordOf createTime))) :
    Ensures (AnswersScores hoodUserName createTime) d s (dmAuthGetHighScores owner name maxScores)
      (RecordsAre P) := by
  unfold dmAuthGetHighScores
  rw [if_neg howner]
  refine ensures_bind (ensures_exec (fun rows d' hfolders => ?_) (fun d' _ => ?_) (fun d' _ => ?_)
    fun d' _ records hmem => absurd hmem List.not_mem_nil)
  · obtain ⟨rfl, nodeId, hnode, horder⟩ := foldersAre hfolders
    refine ensures_ite (fun _ => recordsAre_code (by decide)) fun _ => ?_
    refine ensures_ite (fun _ => recordsAre_code (by decide)) fun hsome => ?_
    obtain ⟨folder, hfolder, hfirst⟩ := exists_first horder hsome
    rw [numAt_rowsOf (v := folder.idx) hfirst Nat.zero_lt_one rfl, Lib.Prog.pure_bind]
    refine ensures_bind (ensures_exec (fun rows d' hscores => ?_) (fun d' _ => ?_) (fun d' _ => ?_)
      fun d' _ records hmem => absurd hmem List.not_mem_nil)
    · obtain ⟨hnonneg, scores, hperm, rfl⟩ := ownerScoresAre hscores
      show Ensures _ _ _ (replyHighScores (rowsOf _ _)) (RecordsAre P)
      rw [replyHighScores_rows]
      exact recordsAre_scores (h folder.idx scores ⟨nodeId, hnode, folder, hfolder, rfl⟩ hnonneg hperm)
    · exact recordsAre_code (by decide)
    · exact recordsAre_code (by decide)
  · exact recordsAre_code (by decide)
  · exact recordsAre_code (by decide)

end

/-! ## True and highest scores -/

theorem mem_namedIn {folder : Int32} {row : ScoreRow} : row ∈ namedIn d name folder ↔
    row ∈ d.scores ∧ row.name = cstr name ∧ isOwner d folder row = true := by
  rw [namedIn, named, List.mem_filter, List.mem_filter, decide_eq_true_iff, and_assoc]

theorem nodup_namedIn (hkey : (d.scores.map (·.idx)).Nodup) (name : String) (folder : Int32) :
    (namedIn d name folder).Nodup :=
  ((List.Nodup.of_map _ hkey).filter _).filter _

/-- What is taken of the scores of one folder. -/
theorem trueAndHighest_of_holds (hkey : (d.scores.map (·.idx)).Nodup) {folder : Int32}
    (hfolder : IsOwnersFolder d owner folder) (hnonneg : 0 ≤ folder.toInt) {scores : List ScoreRow}
    (horder : scores.Perm (namedIn d name folder)) (h : FolderHolds d owner name maxScores folder) :
    TrueAndHighest createTime d owner name maxScores
      ((scores.take maxScores.toNat).map (recordOf createTime)) := by
  have hmem : ∀ row ∈ scores.take maxScores.toNat, row ∈ namedIn d name folder :=
    fun row hrow => horder.subset (List.mem_of_mem_take hrow)
  have hnodup : (scores.take maxScores.toNat).Nodup :=
    ((horder.nodup_iff).2 (nodup_namedIn hkey name folder)).sublist (List.take_sublist _ _)
  by_cases hnil : scores.take maxScores.toNat = []
  · rw [hnil]
    exact ⟨[], rfl, fun row hrow => absurd hrow List.not_mem_nil, List.nodup_nil,
      fun _ row _ _ row' hrow' => absurd hrow' List.not_mem_nil⟩
  have hpos : 0 < maxScores.toNat := by
    by_contra hzero
    rw [Nat.eq_zero_of_not_pos hzero, List.take_zero] at hnil
    exact hnil rfl
  have hsome : namedIn d name folder ≠ [] := by
    intro hempty
    rw [hempty, List.perm_nil] at horder
    rw [horder, List.take_nil] at hnil
    exact hnil rfl
  obtain ⟨hnul, hhighest⟩ := h hnonneg hpos hsome
  refine ⟨_, rfl, fun row hrow => ?_, hnodup, fun hfull row hwanted hout row' hrow' => ?_⟩
  · obtain ⟨hstored, hname, howner⟩ := mem_namedIn.1 (hmem row hrow)
    rw [cstr_of_not_mem hnul] at hname
    exact ⟨hstored, hname, fun _ => ⟨folder, hfolder, howner⟩⟩
  · have hlength := horder.length_eq
    rw [List.length_take] at hfull
    refine hhighest (by omega) row' (hmem row' hrow') row hwanted ?_ fun hin => ?_
    · rintro rfl
      exact hout hrow'
    · by_contra hall
      rw [List.take_of_length_le (by omega)] at hout
      exact hout (horder.symm.subset hin)

/-- **A row that comes first and one that comes last.** -/
theorem exists_perm_take {l : List ScoreRow} {x y : ScoreRow} (hx : x ∈ l) (hne : y ≠ x) {n : Nat}
    (hpos : 0 < n) (hl : l.Nodup) (hy : y ∈ l → n < l.length) :
    ∃ p : List ScoreRow, p.Perm l ∧ x ∈ p.take n ∧ y ∉ p.take n := by
  obtain ⟨k, rfl⟩ := Nat.exists_eq_succ_of_ne_zero hpos.ne'
  by_cases hin : y ∈ l
  · have hin' : y ∈ l.erase x := (List.mem_erase_of_ne hne).2 hin
    have hperm : l.Perm (x :: ((l.erase x).erase y ++ [y])) :=
      (List.perm_cons_erase hx).trans
        (.cons x ((List.perm_cons_erase hin').trans (List.perm_append_singleton _ _).symm))
    have hlength := hperm.length_eq
    rw [List.length_cons, List.length_append, List.length_singleton] at hlength
    refine ⟨_, hperm.symm, List.mem_cons_self, fun hmem => ?_⟩
    rw [List.take_succ_cons, List.mem_cons, or_iff_right hne,
      List.take_append_of_le_length (by have := hy hin; omega)] at hmem
    exact ((hl.erase x).not_mem_erase) (List.mem_of_mem_take hmem)
  · exact ⟨_, (List.perm_cons_erase hx).symm, List.mem_cons_self,
      fun hmem => hin ((List.perm_cons_erase hx).symm.subset (List.mem_of_mem_take hmem))⟩

/-- Every order of the scores of a folder can come. -/
theorem runs_owner (howner : owner ≠ 0) {folder : Int32} (hfolder : IsOwnersFolder d owner folder)
    (hnonneg : 0 ≤ folder.toInt) {scores : List ScoreRow}
    (horder : scores.Perm (namedIn d name folder)) (s : DaemonState) :
    Runs (AnswersScores hoodUserName createTime) d s (dmAuthGetHighScores owner name maxScores)
      (.ret ()) d s [⟨.success, .scores ((scores.take maxScores.toNat).map (recordOf createTime))⟩] := by
  obtain ⟨nodeId, hnode, row, hrow, rfl⟩ := hfolder
  set rows := (Db.findFolder d nodeId Vault.StandardNode.ageOwnersFolder.toInt).map (·.idx) with hrows
  have hfolders : selectRows hoodUserName d (.findScoreOwners owner) = some (idxRows rows) := by
    show folderRows d owner .ageOwnersFolder = _
    rw [folderRows, hnode]
    rfl
  have hfirst : (idxRows (row.idx :: rows.erase row.idx)).Perm (idxRows rows) :=
    (List.perm_cons_erase (List.mem_map_of_mem hrow)).symm.map _
  refine Yields.runs ?_
  unfold dmAuthGetHighScores
  rw [if_neg howner]
  refine (yields_exec (.select hfolders hfirst)).bind ?_
  show Yields _ _ _ (numAt (rowsOf _ _) 0 0 >>= fun ageOwnersFolder => _) _ _ _ _
  rw [numAt_rowsOf (v := row.idx) rfl Nat.zero_lt_one rfl, Lib.Prog.pure_bind]
  refine (yields_exec (.ownerScores (integer_toUInt32.2 ⟨rfl, hnonneg⟩) horder)).bind ?_
  rw [replyHighScores_rows]
  exact yields_reply _

theorem recordOf_inj (hkey : (d.scores.map (·.idx)).Nodup) {row row' : ScoreRow}
    (hrow : row ∈ d.scores) (hrow' : row' ∈ d.scores)
    (h : recordOf createTime row = recordOf createTime row') : row = row' := by
  have hid : row.idx.toUInt32 = row'.idx.toUInt32 := congrArg GameScore.scoreId h
  exact List.inj_on_of_nodup_map hkey hrow hrow' (congrArg UInt32.toInt32 hid)

/-- What can be returned has to be true and highest. -/
theorem folderHolds_of_highScores (hkey : (d.scores.map (·.idx)).Nodup) (howner : owner ≠ 0)
    (h : HighScoresHold hoodUserName createTime d owner name maxScores) {folder : Int32}
    (hfolder : IsOwnersFolder d owner folder) : FolderHolds d owner name maxScores folder := by
  intro hnonneg hpos hsome
  -- What is returned are scores that are wanted, in whatever order the rows come.
  have hreturned : ∀ scores : List ScoreRow, scores.Perm (namedIn d name folder) →
      ∃ rows : List ScoreRow, (∀ row, row ∈ rows ↔ row ∈ scores.take maxScores.toNat) ∧
        rows.length = (scores.take maxScores.toNat).length ∧
        (∀ row ∈ rows, Wanted d owner name row) ∧
        (rows.length = maxScores.toNat → ∀ row, Wanted d owner name row → row ∉ rows →
          ∀ row' ∈ rows, row.points.toInt ≤ row'.points.toInt) := by
    intro scores horder
    obtain ⟨rows, hrows, hwanted, -, hhighest⟩ := h noClients _ _ _ _
      (runs_owner howner hfolder hnonneg horder noClients) _ List.mem_cons_self
    have hstored : ∀ row ∈ scores.take maxScores.toNat, row ∈ d.scores :=
      fun row hrow => (mem_namedIn.1 (horder.subset (List.mem_of_mem_take hrow))).1
    refine ⟨rows, fun row => ⟨fun hrow => ?_, fun hrow => ?_⟩, ?_, hwanted, hhighest⟩
    · have hmem : recordOf createTime row ∈ rows.map (recordOf createTime) := List.mem_map_of_mem hrow
      rw [← hrows] at hmem
      obtain ⟨row', hrow', hsame⟩ := List.mem_map.1 hmem
      rwa [← recordOf_inj hkey (hstored row' hrow') (hwanted row hrow).stored hsame]
    · have hmem : recordOf createTime row ∈
          (scores.take maxScores.toNat).map (recordOf createTime) := List.mem_map_of_mem hrow
      rw [hrows] at hmem
      obtain ⟨row', hrow', hsame⟩ := List.mem_map.1 hmem
      rwa [← recordOf_inj hkey (hwanted row' hrow').stored (hstored row hrow) hsame]
    · have hlength := congrArg List.length hrows
      rw [List.length_map, List.length_map] at hlength
      exact hlength.symm
  refine ⟨?_, fun hle row hrow row' hwanted hne hlast => ?_⟩
  · obtain ⟨rows, hmem, -, hwanted, -⟩ := hreturned _ (List.Perm.refl _)
    obtain ⟨row, rest, hcons⟩ := List.exists_cons_of_ne_nil hsome
    obtain ⟨k, hk⟩ := Nat.exists_eq_succ_of_ne_zero hpos.ne'
    have hrow : row ∈ (namedIn d name folder).take maxScores.toNat := by
      rw [hcons, hk, List.take_succ_cons]
      exact List.mem_cons_self
    have hname := (hwanted row ((hmem row).2 hrow)).name
    rw [(mem_namedIn.1 (List.mem_of_mem_take hrow)).2.1] at hname
    exact hname ▸ nul_not_mem_cstr name
  · obtain ⟨scores, horder, hin, hout⟩ :=
      exists_perm_take hrow hne hpos (nodup_namedIn hkey name folder) hlast
    obtain ⟨rows, hmem, hlength, -, hhighest⟩ := hreturned scores horder
    refine hhighest ?_ row' hwanted (mt (hmem row').1 hout) row ((hmem row).2 hin)
    rw [hlength, List.length_take, horder.length_eq]
    exact min_eq_left hle

/-- **High scores are true and highest** if and only if no owner is given, or of each folder with
owners of the age what can be returned is: there is no order in what the statement selects. -/
theorem highScores_hold_iff (hkey : (d.scores.map (·.idx)).Nodup) (owner : UInt32) (name : String)
    (maxScores : UInt32) : HighScoresHold hoodUserName createTime d owner name maxScores ↔
      owner = 0 ∨ ∀ folder, IsOwnersFolder d owner folder → FolderHolds d owner name maxScores folder := by
  constructor
  · intro h
    by_cases howner : owner = 0
    · exact .inl howner
    · exact .inr fun folder hfolder => folderHolds_of_highScores hkey howner h hfolder
  · intro h s x d' s' out hrun
    by_cases howner : owner = 0
    · subst howner
      refine hrun.post (recordsAre_all name maxScores ?_)
      exact ⟨[], rfl, fun row hrow => absurd hrow List.not_mem_nil, List.nodup_nil,
        fun _ row _ _ row' hrow' => absurd hrow' List.not_mem_nil⟩
    · refine hrun.post (recordsAre_owner howner name maxScores fun folder scores hfolder hnonneg horder => ?_)
      exact trueAndHighest_of_holds hkey hfolder hnonneg horder
        (h.resolve_left howner folder hfolder)

/-- An age with two owners, and a score of each of them. -/
def footballTables : Tables where
  nodes := [{ idx := 20, node := { nodeType := some 30, int32_1 := some 19 } }]
  refs := [⟨10, 20, 0⟩, ⟨20, 31, 0⟩, ⟨20, 32, 0⟩]
  scores := [⟨1, 31, 1, "football", 10⟩, ⟨2, 32, 1, "football", 25⟩]

theorem highScores_hold_three : HighScoresHold "" (fun _ => 0) footballTables 10 "football" 3 := by
  refine (highScores_hold_iff (by decide) 10 "football" 3).2 (.inr fun folder _ _ _ _ => ?_)
  have hfew : (namedIn footballTables "football" folder).length ≤ 2 :=
    (List.length_filter_le _ _).trans (List.length_filter_le _ _)
  have hthree : (3 : UInt32).toNat = 3 := rfl
  exact ⟨by decide, fun hle => absurd hle (by omega)⟩

/-- The best score alone is asked for, and the other one can be returned. -/
theorem highScores_fail : ¬ HighScoresHold "" (fun _ => 0) footballTables 10 "football" 1 := by
  intro h
  have hfolder : IsOwnersFolder footballTables 10 20 := ⟨10, by decide, _, List.mem_cons_self, rfl⟩
  have hholds := folderHolds_of_highScores (by decide) (by decide) h hfolder
  have hwanted : Wanted footballTables 10 "football" ⟨2, 32, 1, "football", 25⟩ :=
    ⟨by decide, rfl, fun _ => ⟨20, hfolder, by decide⟩⟩
  have hless := (hholds (by decide) (by decide) (by decide)).2 (by decide)
    ⟨1, 31, 1, "football", 10⟩ (by decide) _ hwanted (by decide) (by decide)
  exact absurd hless (by decide)

/-! ## The reply on the wire -/

section

open Streams (writeU16 writeU32)
open Vault (bytesOfUnits toUtf16)

/-- `GameScore::BaseStride`. -/
def baseStride : Nat := 0x18

/-- What `write_scoreBuffer` writes for a score. -/
def writeScore (name : List UInt16) (score : GameScore) : List UInt8 :=
  writeU32 score.scoreId ++ (writeU32 score.owner ++ (writeU32 score.createTime ++
    (writeU32 score.type ++ (writeU32 score.points.toUInt32 ++
      (writeU32 (UInt32.ofNat ((name.length + 1) * 2)) ++ (bytesOfUnits name ++ writeU16 0))))))

/-- `write_scoreBuffer`. -/
def writeScoreBuffer (msgName : String) (scores : List GameScore) (reply : NetResultCode) :
    List UInt8 :=
  if reply ≠ .success then
    writeU32 (UInt32.ofNat reply.ctorIdx) ++ (writeU32 0 ++ writeU32 0)
  else
    let name := toUtf16 msgName
    let bufsz := scores.length * (baseStride + (name.length + 1) * 2)
    writeU32 (UInt32.ofNat reply.ctorIdx) ++ (writeU32 (UInt32.ofNat scores.length) ++
      (writeU32 (UInt32.ofNat bufsz) ++ scores.flatMap (writeScore name)))

theorem length_writeScore (name : List UInt16) (score : GameScore) :
    (writeScore name score).length = baseStride + (name.length + 1) * 2 := by
  have hword : ∀ w : UInt32, (writeU32 w).length = 4 := fun w => Lib.Reader.length_leBytes 4 _
  have hunit : (writeU16 0).length = 2 := Lib.Reader.length_leBytes 2 _
  simp only [writeScore, List.length_append, hword, hunit, Vault.length_bytesOfUnits, baseStride]
  omega

/-- **The size that is written before the scores is theirs.** -/
theorem length_writeScoreBuffer (msgName : String) (scores : List GameScore) :
    ∃ bytes, writeScoreBuffer msgName scores .success =
        writeU32 (UInt32.ofNat NetResultCode.success.ctorIdx) ++
          (writeU32 (UInt32.ofNat scores.length) ++ (writeU32 (UInt32.ofNat bytes.length) ++ bytes)) ∧
      bytes = scores.flatMap (writeScore (toUtf16 msgName)) := by
  refine ⟨_, ?_, rfl⟩
  have hlength : (scores.flatMap (writeScore (toUtf16 msgName))).length =
      scores.length * (baseStride + ((toUtf16 msgName).length + 1) * 2) := by
    rw [List.length_flatMap]
    simp only [length_writeScore, List.map_const', List.sum_replicate, smul_eq_mul]
  rw [hlength]
  rfl

end

end Dirtsand.AuthServ
