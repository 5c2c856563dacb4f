import Dirtsand.AuthServ.Asking
import Dirtsand.Db.Scores
import Dirtsand.Lib.Transition

/-!
# Scores

What the score requests do to the ledger of the database and what they answer.

* `createScore_ensures`, `addScorePoints_ensures`, `transferScorePoints_ensures`,
  `setScorePoints_ensures` — each handler changes the ledger and says so, or leaves it as
  it is.  `dm_auth_transferScorePoints` reads the answer `t` as a number, and says that the
  points were not enough when it has moved them.
* `scores_kept` — **the ledger stays in order, and an error leaves it alone, exactly if no
  score is made with points that its type must not have or under a name that its owner has,
  and no transfer moves points.**
-/

namespace Dirtsand.AuthServ

open Lib.Prog Daemon
open Db (Tables ScoreRow integer integer_eq_some varchar typeFixed typeGolf MayBeNegative InOrder
  WellKept Ledger Creates CanMove)

variable {hoodUserName : String} {d d' : Tables} {s : DaemonState} {site : CallSite}
  {q : Statement} {P : NetResultCode → Tables → Prop}

/-! ## Requests -/

/-- The requests that change scores. -/
inductive ScoreRequest where
  | create (owner type : UInt32) (name : String) (points : Int32)
  | add (scoreId : UInt32) (points : Int32)
  | transfer (srcScoreId dstScoreId points : UInt32)
  | set (scoreId : UInt32) (points : Int32)

def ScoreRequest.message : ScoreRequest → AuthMessage
  | create owner type name points => .createScore owner type name points
  | add scoreId points => .addScorePoints scoreId points
  | transfer srcScoreId dstScoreId points => .transferScorePoints srcScoreId dstScoreId points
  | set scoreId points => .setScorePoints scoreId points

/-- The row that `dm_auth_createScore` adds. -/
def Makes (d : Tables) (owner type : UInt32) (name : String) (points : Int32) (row : ScoreRow) :
    Prop :=
  integer owner = some row.ownerIdx ∧ integer type = some row.type ∧
    Creates d row.ownerIdx row.type (cstr name) points row

/-- The points that a transfer moves, from one row to another. -/
structure MovesFrom (d : Tables) (srcScoreId dstScoreId points : UInt32) (src dst : ScoreRow)
    (numPoints : Int32) : Prop where
  hsrc : src ∈ d.scores
  hdst : dst ∈ d.scores
  ne : src.idx ≠ dst.idx
  srcIdx : integer srcScoreId = some src.idx
  dstIdx : integer dstScoreId = some dst.idx
  points : integer points = some numPoints
  srcType : src.type ≠ typeFixed
  dstType : dst.type ≠ typeFixed
  can : CanMove src dst numPoints (decide (src.type = typeGolf ∧ dst.type = typeGolf))

/-- What a request does to the tables, and the code that answers it. -/
inductive Effect (d : Tables) : ScoreRequest → NetResultCode → Tables → Prop where
  | refused {r : ScoreRequest} {code : NetResultCode} {d' : Tables} (hcode : code ≠ .success)
      (h : d.SameRows d') : Effect d r code d'
  | created {owner type : UInt32} {name : String} {points : Int32} {row : ScoreRow}
      (h : Makes d owner type name points row) :
      Effect d (.create owner type name points) .success (d.withScore row)
  | added {scoreId : UInt32} {points new : Int32} {row : ScoreRow} (hrow : row ∈ d.scores)
      (hidx : integer scoreId = some row.idx) (htype : row.type ≠ typeFixed)
      (hnew : new = 0 ∨ new.toInt = row.points.toInt + points.toInt ∧
        (0 ≤ new.toInt ∨ row.type = typeGolf)) :
      Effect d (.add scoreId points) .success (d.withPoints row.idx new)
  /-- The answer says that the points were not enough. -/
  | moved {srcScoreId dstScoreId points : UInt32} {src dst : ScoreRow} {numPoints : Int32}
      (h : MovesFrom d srcScoreId dstScoreId points src dst numPoints) :
      Effect d (.transfer srcScoreId dstScoreId points) .scoreNotEnoughPoints
        (d.moved src dst numPoints)
  | set {scoreId : UInt32} {points : Int32} {row : ScoreRow} (hrow : row ∈ d.scores)
      (hidx : integer scoreId = some row.idx) (htype : row.type = typeFixed) :
      Effect d (.set scoreId points) .success (d.withPoints row.idx points)

/-! ## Conclusions -/

/-- The handler gives one answer, and `P` is true of its code and the tables.  An exception
leaves the answer to `dm_authDaemon`. -/
def Concludes (P : NetResultCode → Tables → Prop) :
    Lib.Exit Unit → Tables → DaemonState → List Reply → Prop :=
  fun x d' _ out => match x with
  | .ret () => ∃ reply, out = [reply] ∧ P reply.code d'
  | .throw => out = [] ∧ P .internalError d'
  | .crash => False

theorem concludes_reply {code : NetResultCode} {out : Output} (h : P code d) :
    Ensures (Answers hoodUserName) d s (sendReplyWith code out) (Concludes P) :=
  ensures_reply ⟨_, rfl, h⟩

/-- A statement whose failure is an internal error. -/
theorem concludes_exec {f : PGresult → DM Unit} [∀ result, Steady (f result)]
    (hfailed : f { status := .fatalError } = sendReply .internalError)
    (hsame : ∀ d', d.SameRows d' → P .internalError d')
    (htuples : ∀ rows d', Succeeds hoodUserName d (site, q) (.tuples rows) d' →
      Ensures (Answers hoodUserName) d' s (f (rowsOf q rows)) (Concludes P))
    (hcommand : ∀ d', Succeeds hoodUserName d (site, q) .command d' →
      Ensures (Answers hoodUserName) d' s (f { status := .commandOk }) (Concludes P)) :
    Ensures (Answers hoodUserName) d s (exec site q >>= f) (Concludes P) := by
  refine ensures_bind (ensures_exec ?_ ?_ ?_ ?_)
  · rintro rows d' (h | ⟨h | h, -⟩)
    · exact htuples rows d' h
    · cases h
    · cases h
  · rintro d' (h | ⟨h | h, -⟩)
    · exact hcommand d' h
    · cases h
    · cases h
  · rintro d' (h | ⟨-, h⟩)
    · exact absurd rfl h.not_failed.1
    · show Ensures _ _ _ (f { status := .fatalError }) (Concludes P)
      rw [hfailed]
      exact concludes_reply (hsame d' h)
  · rintro d' (h | ⟨-, h⟩)
    · exact absurd rfl h.not_failed.2
    · exact ⟨rfl, hsame d' h⟩

/-- A statement of which rows come back. -/
theorem concludes_rows {f : PGresult → DM Unit} [∀ result, Steady (f result)]
    (hsame : ∀ d', d.SameRows d' → P .internalError d')
    (hcommand : ∀ d', ¬Succeeds hoodUserName d (site, q) .command d')
    (htuples : ∀ rows d', Succeeds hoodUserName d (site, q) (.tuples rows) d' →
      Ensures (Answers hoodUserName) d' s (f (rowsOf q rows)) (Concludes P)) :
    Ensures (Answers hoodUserName) d s (do
      let result ← exec site q
      if result.status ≠ .tuplesOk then sendReply .internalError else f result) (Concludes P) :=
  concludes_exec rfl hsame htuples fun d' h => absurd h (hcommand d')

/-- The rows of a `SELECT`. -/
theorem concludes_select {f : PGresult → DM Unit} [∀ result, Steady (f result)]
    (hq : q.kind = .select) (hsame : ∀ d', d.SameRows d' → P .internalError d')
    (htuples : ∀ rows rows', selectRows hoodUserName d q = some rows' → rows.Perm rows' →
      Ensures (Answers hoodUserName) d s (f (rowsOf q rows)) (Concludes P)) :
    Ensures (Answers hoodUserName) d s (do
      let result ← exec site q
      if result.status ≠ .tuplesOk then sendReply .internalError else f result) (Concludes P) := by
  refine concludes_rows hsame (fun d' h => ?_) fun rows d' h => ?_
  · obtain ⟨_, _, -, ha, -⟩ := h.selected hq
    cases ha
  · obtain ⟨rows', _, hrows, ha, horder, rfl⟩ := h.selected hq
    cases ha
    exact htuples rows rows' hrows horder

/-! ## New scores -/

section

variable {owner type : UInt32} {name : String} {points : Int32}

theorem Makes.carryOut {row : ScoreRow} (h : Makes d owner type name points row) :
    carryOut d (.createScore owner type name points) =
      some (.tuples [cells [intCell row.idx]], d.withScore row) := by
  obtain ⟨howner, htype, hrow⟩ := h
  rw [AuthServ.carryOut, howner, htype]
  show (Db.createScore row.ownerIdx row.type (cstr name) points d).bind _ = _
  rw [Db.createScore_of_creates hrow]
  rfl

theorem createScore_answers {a : QueryOutcome}
    (h : Succeeds hoodUserName d (site, .createScore owner type name points) a d') :
    ∃ scoreId, a = .tuples [cells [intCell scoreId]] ∧ (scoreId = -1 ∧ d' = d ∨
      ∃ row, Makes d owner type name points row ∧ scoreId = row.idx ∧ d' = d.withScore row) := by
  have hchange := h.changed rfl
  rw [AuthServ.carryOut] at hchange
  obtain ⟨ownerId, howner, hchange⟩ := Option.bind_eq_some_iff.1 hchange
  obtain ⟨scoreType, htype, hchange⟩ := Option.bind_eq_some_iff.1 hchange
  obtain ⟨⟨scoreId, d₁⟩, hcreate, hchange⟩ := Option.bind_eq_some_iff.1 hchange
  cases hchange
  refine ⟨scoreId, rfl, ?_⟩
  obtain ⟨hexists, hd⟩ | ⟨row, hrow, hidx, hd⟩ := Db.createScore_eq_some hcreate
  · exact .inl ⟨hexists, hd⟩
  · refine .inr ⟨row, ?_, hidx, hd⟩
    obtain ⟨-, -, rfl, rfl, -, -⟩ := id hrow
    exact ⟨howner, htype, hrow⟩

/-- The number of a new score is not the one that says there is none. -/
theorem Makes.idx_ne {row : ScoreRow} (h : Makes d owner type name points row) :
    row.idx.toUInt32 ≠ -1 := by
  intro hidx
  have hidx : row.idx = -1 := congrArg UInt32.toInt32 hidx
  have hgiven := h.2.2.2.1
  rw [hidx] at hgiven
  have hneg : (-1 : Int32).toInt = -1 := by decide
  omega

theorem createScore_ensures : Ensures (Answers hoodUserName) d s
    (dmAuthCreateScore owner type name points)
    (Concludes (Effect d (.create owner type name points))) := by
  unfold dmAuthCreateScore
  refine concludes_rows (fun d' h => .refused nofun h) (fun d' h => ?_) fun rows d' hdone => ?_
  · obtain ⟨_, ha, -⟩ := createScore_answers h
    cases ha
  obtain ⟨scoreId, ha, h⟩ := createScore_answers hdone
  cases ha
  rw [numAt_rowsOf (v := scoreId) rfl Nat.zero_lt_one rfl, Lib.Prog.pure_bind]
  obtain ⟨rfl, rfl⟩ | ⟨row, hrow, rfl, rfl⟩ := h
  · exact concludes_reply (.refused nofun (.refl _))
  · rw [if_neg hrow.idx_ne]
    exact concludes_reply (.created hrow)

end

/-! ## The points of a score -/

theorem toUInt32_eq_fixed {type : Int32} : type.toUInt32 = scoreFixed ↔ type = typeFixed :=
  ⟨fun h => congrArg UInt32.toInt32 h, fun h => congrArg Int32.toUInt32 h⟩

theorem toUInt32_eq_golf {type : Int32} : type.toUInt32 = scoreGolf ↔ type = typeGolf :=
  ⟨fun h => congrArg UInt32.toInt32 h, fun h => congrArg Int32.toUInt32 h⟩

theorem flag_ne_zero {c : Prop} [Decidable c] : (if c then (1 : UInt32) else 0) ≠ 0 ↔ c := by
  split
  · exact iff_of_true (by decide) ‹c›
  · exact iff_of_false (fun h => h rfl) ‹¬c›

/-- The score with a number, where the request found it. -/
theorem scoreType_found {scoreId : UInt32} {rows rows' : List Row}
    (hrows : selectRows hoodUserName d (.selectScoreType scoreId) = some rows')
    (horder : rows.Perm rows') (hone : rows.length = 1) :
    ∃ row ∈ d.scores, integer scoreId = some row.idx ∧ rows = [cells [intCell row.type]] := by
  obtain ⟨idx, hidx, hrows⟩ := Option.bind_eq_some_iff.1 hrows
  cases hrows
  have hlength := horder.length_eq
  rw [hone, idxRows, List.length_map, List.length_map] at hlength
  obtain ⟨row, hfilter⟩ := List.length_eq_one_iff.1 hlength.symm
  have hmem : row ∈ d.scores.filter fun r => decide (r.idx = idx) := by
    rw [hfilter]
    exact List.mem_singleton_self row
  rw [List.mem_filter, decide_eq_true_eq] at hmem
  obtain ⟨hrow, rfl⟩ := hmem
  rw [hfilter] at horder
  exact ⟨row, hrow, hidx, List.perm_singleton.1 horder⟩

section

variable {scoreId : UInt32} {points : Int32}

theorem addScorePoints_answers {row : ScoreRow} {allowNegative : UInt32} {a : QueryOutcome}
    (h : WellKept d) (hrow : row ∈ d.scores) (hidx : integer scoreId = some row.idx)
    (hdone : Succeeds hoodUserName d (site, .addScorePoints scoreId points allowNegative) a d') :
    (∃ rows, a = .tuples rows) ∧ ∃ new : Int32, d' = d.withPoints row.idx new ∧
      (new = 0 ∨ new.toInt = row.points.toInt + points.toInt ∧
        (0 ≤ new.toInt ∨ allowNegative ≠ 0)) := by
  have hchange := hdone.changed rfl
  rw [AuthServ.carryOut, hidx] at hchange
  obtain ⟨_, hid, hchange⟩ := Option.bind_eq_some_iff.1 hchange
  cases hid
  obtain ⟨⟨done, d₁⟩, hadd, hchange⟩ := Option.bind_eq_some_iff.1 hchange
  cases hchange
  obtain ⟨new, hd, hnew⟩ := h.addScorePoints_eq_some hrow hadd
  refine ⟨⟨_, rfl⟩, new, hd, hnew.imp_right ?_⟩
  rintro ⟨hsum, hnew⟩
  exact ⟨hsum, hnew.imp_right fun h => of_decide_eq_true h⟩

theorem addScorePoints_ensures (h : WellKept d) : Ensures (Answers hoodUserName) d s
    (dmAuthAddScorePoints scoreId points) (Concludes (Effect d (.add scoreId points))) := by
  unfold dmAuthAddScorePoints
  refine concludes_select rfl (fun d' h => .refused nofun h) fun rows rows' hrows horder => ?_
  refine ensures_ite (fun _ => concludes_reply (.refused nofun (.refl _))) fun hone => ?_
  obtain ⟨row, hrow, hidx, rfl⟩ := scoreType_found hrows horder (not_not.1 hone)
  rw [numAt_rowsOf (v := row.type) rfl Nat.zero_lt_one rfl, Lib.Prog.pure_bind]
  refine ensures_ite (fun _ => concludes_reply (.refused nofun (.refl _))) fun hfixed => ?_
  refine concludes_rows (fun d' h => .refused nofun h) (fun d' hdone => ?_) fun rows d' hdone => ?_
  · obtain ⟨⟨_, ha⟩, -⟩ := addScorePoints_answers h hrow hidx hdone
    cases ha
  · obtain ⟨-, new, rfl, hnew⟩ := addScorePoints_answers h hrow hidx hdone
    refine concludes_reply (.added hrow hidx (mt toUInt32_eq_fixed.2 hfixed) (hnew.imp_right ?_))
    rintro ⟨hsum, hnew⟩
    exact ⟨hsum, hnew.imp_right fun hallow => toUInt32_eq_golf.1 (flag_ne_zero.1 hallow)⟩

theorem setScorePoints_answers {row : ScoreRow} {a : QueryOutcome} (h : WellKept d)
    (hrow : row ∈ d.scores) (hidx : integer scoreId = some row.idx)
    (hdone : Succeeds hoodUserName d (site, .setScorePoints scoreId points) a d') :
    a = .command ∧ d' = d.withPoints row.idx points := by
  have hchange := hdone.changed rfl
  rw [AuthServ.carryOut, hidx] at hchange
  obtain ⟨_, hid, hchange⟩ := Option.bind_eq_some_iff.1 hchange
  cases hid
  obtain ⟨d₁, hset, hchange⟩ := Option.bind_eq_some_iff.1 hchange
  cases hchange
  rw [h.updatePoints_eq hrow] at hset
  cases hset
  exact ⟨rfl, rfl⟩

theorem setScorePoints_ensures (h : WellKept d) : Ensures (Answers hoodUserName) d s
    (dmAuthSetScorePoints scoreId points) (Concludes (Effect d (.set scoreId points))) := by
  unfold dmAuthSetScorePoints
  refine concludes_select rfl (fun d' h => .refused nofun h) fun rows rows' hrows horder => ?_
  refine ensures_ite (fun _ => concludes_reply (.refused nofun (.refl _))) fun hone => ?_
  obtain ⟨row, hrow, hidx, rfl⟩ := scoreType_found hrows horder (not_not.1 hone)
  rw [numAt_rowsOf (v := row.type) rfl Nat.zero_lt_one rfl, Lib.Prog.pure_bind]
  refine ensures_ite (fun _ => concludes_reply (.refused nofun (.refl _))) fun hfixed => ?_
  refine concludes_exec rfl (fun d' h => .refused nofun h) (fun rows d' hdone => ?_)
    fun d' hdone => ?_
  · obtain ⟨ha, -⟩ := setScorePoints_answers h hrow hidx hdone
    cases ha
  · obtain ⟨-, rfl⟩ := setScorePoints_answers h hrow hidx hdone
    exact concludes_reply (.set hrow hidx (toUInt32_eq_fixed.1 (not_not.1 hfixed)))

end

/-! ## Transfers -/

section

variable {srcScoreId dstScoreId points : UInt32}

/-- The two scores, where the request found them. -/
theorem scoreTypes_found {rows rows' : List Row} (h : WellKept d)
    (hrows : selectRows hoodUserName d (.selectScoreTypes srcScoreId dstScoreId) = some rows')
    (horder : rows.Perm rows') (htwo : rows.length = 2) :
    ∃ src ∈ d.scores, ∃ dst ∈ d.scores, src.idx ≠ dst.idx ∧ integer srcScoreId = some src.idx ∧
      integer dstScoreId = some dst.idx ∧
      ∃ type type', rows = [cells [intCell type], cells [intCell type']] ∧
        (type = src.type ∧ type' = dst.type ∨ type = dst.type ∧ type' = src.type) := by
  obtain ⟨srcId, hsrcId, hrows⟩ := Option.bind_eq_some_iff.1 hrows
  obtain ⟨dstId, hdstId, hrows⟩ := Option.bind_eq_some_iff.1 hrows
  cases hrows
  have hlength := horder.length_eq
  rw [htwo, idxRows, List.length_map, List.length_map] at hlength
  obtain ⟨src, hsrc, dst, hdst, rfl, rfl, hne⟩ := h.of_filter_two hlength.symm
  refine ⟨src, hsrc, dst, hdst, hne, hsrcId, hdstId, ?_⟩
  have hperm := horder.trans (((h.filter_two hsrc hdst hne).map ScoreRow.type).map
    fun type => cells [intCell type])
  obtain hrows | hrows := List.perm_pair.1 hperm
  · exact ⟨src.type, dst.type, hrows, .inl ⟨rfl, rfl⟩⟩
  · exact ⟨dst.type, src.type, hrows, .inr ⟨rfl, rfl⟩⟩

theorem transferScorePoints_answers {src dst : ScoreRow} {allowNegative : UInt32}
    {a : QueryOutcome} (h : WellKept d) (hsrc : src ∈ d.scores) (hdst : dst ∈ d.scores)
    (hne : src.idx ≠ dst.idx) (hsrcId : integer srcScoreId = some src.idx)
    (hdstId : integer dstScoreId = some dst.idx)
    (hdone : Succeeds hoodUserName d
      (site, .transferScorePoints srcScoreId dstScoreId points allowNegative) a d') :
    (∃ done, a = .tuples [cells [boolCell done]]) ∧ (d' = d ∨
      ∃ numPoints, integer points = some numPoints ∧
        CanMove src dst numPoints (decide (allowNegative ≠ 0)) ∧ d' = d.moved src dst numPoints) := by
  have hchange := hdone.changed rfl
  rw [AuthServ.carryOut, hsrcId, hdstId] at hchange
  obtain ⟨_, hid, hchange⟩ := Option.bind_eq_some_iff.1 hchange
  cases hid
  obtain ⟨_, hid, hchange⟩ := Option.bind_eq_some_iff.1 hchange
  cases hid
  obtain ⟨numPoints, hpoints, hchange⟩ := Option.bind_eq_some_iff.1 hchange
  obtain ⟨⟨done, d₁⟩, htransfer, hchange⟩ := Option.bind_eq_some_iff.1 hchange
  cases hchange
  refine ⟨⟨done, rfl⟩, ?_⟩
  obtain hd | ⟨hcan, hd⟩ := h.transferScorePoints_eq_some hsrc hdst hne htransfer
  · exact .inl hd
  · exact .inr ⟨numPoints, hpoints, hcan, hd⟩

/-- `t` and `f` are both read as zero. -/
theorem numAt_boolCell {allowNegative : UInt32} (done : Bool) :
    numAt (rowsOf (.transferScorePoints srcScoreId dstScoreId points allowNegative)
      [cells [boolCell done]]) 0 0 = pure 0 := by
  cases done <;> rfl

/-- The tests of the two types do not depend on their order. -/
theorem types_iff {src dst : ScoreRow} {type type' : Int32}
    (h : type = src.type ∧ type' = dst.type ∨ type = dst.type ∧ type' = src.type) :
    ((type.toUInt32 = scoreFixed ∨ type'.toUInt32 = scoreFixed) ↔
        src.type = typeFixed ∨ dst.type = typeFixed) ∧
      ((type.toUInt32 = scoreGolf ∧ type'.toUInt32 = scoreGolf) ↔
        src.type = typeGolf ∧ dst.type = typeGolf) := by
  rw [toUInt32_eq_fixed, toUInt32_eq_fixed, toUInt32_eq_golf, toUInt32_eq_golf]
  obtain ⟨rfl, rfl⟩ | ⟨rfl, rfl⟩ := h
  · exact ⟨.rfl, .rfl⟩
  · exact ⟨or_comm, and_comm⟩

theorem transferScorePoints_ensures (h : WellKept d) : Ensures (Answers hoodUserName) d s
    (dmAuthTransferScorePoints srcScoreId dstScoreId points)
    (Concludes (Effect d (.transfer srcScoreId dstScoreId points))) := by
  unfold dmAuthTransferScorePoints
  refine concludes_select rfl (fun d' h => .refused nofun h) fun rows rows' hrows horder => ?_
  refine ensures_ite (fun _ => concludes_reply (.refused nofun (.refl _))) fun htwo => ?_
  obtain ⟨src, hsrc, dst, hdst, hne, hsrcId, hdstId, type, type', rfl, htypes⟩ :=
    scoreTypes_found h hrows horder (not_not.1 htwo)
  rw [numAt_rowsOf (v := type) rfl Nat.zero_lt_one rfl, Lib.Prog.pure_bind,
    numAt_rowsOf (v := type') rfl Nat.zero_lt_one rfl, Lib.Prog.pure_bind]
  refine ensures_ite (fun _ => concludes_reply (.refused nofun (.refl _))) fun hfixed => ?_
  refine concludes_rows (fun d' h => .refused nofun h) (fun d' hdone => ?_) fun rows d' hdone => ?_
  · obtain ⟨⟨_, ha⟩, -⟩ := transferScorePoints_answers h hsrc hdst hne hsrcId hdstId hdone
    cases ha
  obtain ⟨⟨done, ha⟩, hd⟩ := transferScorePoints_answers h hsrc hdst hne hsrcId hdstId hdone
  cases ha
  rw [numAt_boolCell, Lib.Prog.pure_bind]
  obtain rfl | ⟨numPoints, hpoints, hcan, rfl⟩ := hd
  · exact concludes_reply (.refused nofun (.refl _))
  · obtain ⟨hfix, hgolf⟩ := types_iff htypes
    obtain ⟨hsrcType, hdstType⟩ := not_or.1 (mt hfix.2 hfixed)
    rw [decide_eq_decide.2 (flag_ne_zero.trans hgolf)] at hcan
    exact concludes_reply
      (.moved ⟨hsrc, hdst, hne, hsrcId, hdstId, hpoints, hsrcType, hdstType, hcan⟩)

end

/-! ## What a request does -/

instance {owner type : UInt32} {name : String} {points : Int32} :
    Steady (dmAuthCreateScore owner type name points) := by
  unfold dmAuthCreateScore
  infer_instance

instance {scoreId : UInt32} {points : Int32} : Steady (dmAuthAddScorePoints scoreId points) := by
  unfold dmAuthAddScorePoints
  infer_instance

instance {srcScoreId dstScoreId points : UInt32} :
    Steady (dmAuthTransferScorePoints srcScoreId dstScoreId points) := by
  unfold dmAuthTransferScorePoints
  infer_instance

instance {scoreId : UInt32} {points : Int32} : Steady (dmAuthSetScorePoints scoreId points) := by
  unfold dmAuthSetScorePoints
  infer_instance

instance steady_scoreRequest {ext : External} {c : ConnId} {r : ScoreRequest} :
    Steady (dmAuthHandle ext c r.message) := by
  cases r with
  | create owner type name points =>
    exact inferInstanceAs (Steady (dmAuthCreateScore owner type name points))
  | add scoreId points => exact inferInstanceAs (Steady (dmAuthAddScorePoints scoreId points))
  | transfer srcScoreId dstScoreId points =>
    exact inferInstanceAs (Steady (dmAuthTransferScorePoints srcScoreId dstScoreId points))
  | set scoreId points => exact inferInstanceAs (Steady (dmAuthSetScorePoints scoreId points))

section

variable {ext : External} {r : ScoreRequest} {out : List Reply}

theorem handle_ensures (ext : External) (c : ConnId) (h : WellKept d) (r : ScoreRequest) :
    Ensures (Answers hoodUserName) d s (dmAuthHandle ext c r.message) (Concludes (Effect d r)) := by
  cases r with
  | create owner type name points => exact createScore_ensures
  | add scoreId points => exact addScorePoints_ensures h
  | transfer srcScoreId dstScoreId points => exact transferScorePoints_ensures h
  | set scoreId points => exact setScorePoints_ensures h

/-- Every request is answered once, an exception with an internal error. -/
theorem handled_effect (h : WellKept d)
    (hr : Handles (Answers ext.hoodUserName) ext d r.message out d') :
    ∃ reply, out = [reply] ∧ Effect d r reply.code d' := by
  obtain ⟨c, s, x, s', hrun⟩ := hr
  suffices hm : Ensures (Answers ext.hoodUserName) d s (Daemon.dmAuthDaemon ext c r.message)
      fun _ d' _ out => ∃ reply, out = [reply] ∧ Effect d r reply.code d' from hrun.post hm
  refine ensures_catchReply ((handle_ensures ext c h r).mono fun x d' s' out hpost => ?_)
  cases x with
  | ret _ => exact hpost
  | throw =>
    obtain ⟨rfl, heffect⟩ := hpost
    exact ⟨_, rfl, heffect⟩
  | crash => exact hpost.elim

theorem Effect.wellKept {code : NetResultCode} (he : Effect d r code d') (h : WellKept d) :
    WellKept d' := by
  cases he with
  | refused _ hsame => exact h.of_sameRows hsame
  | created hrow => exact h.create hrow.2.2
  | added | set => exact h.withPoints
  | moved => exact h.withPoints.withPoints

/-! ## What can happen -/

theorem handles_create (ext : External) {owner type : UInt32} {name : String} {points : Int32}
    {row : ScoreRow} (hrow : Makes d owner type name points row) : ∃ reply,
      Handles (Answers ext.hoodUserName) ext d (.createScore owner type name points) [reply]
        (d.withScore row) := by
  refine ⟨{ code := .success, out := .scoreId row.idx.toUInt32 }, 0, noClients, .ret (), noClients,
    Yields.runs (Yields.catchReply ?_)⟩
  show Yields _ _ _ (dmAuthCreateScore owner type name points) _ _ _ _
  unfold dmAuthCreateScore
  refine (yields_exec (.inl (.change hrow.carryOut))).bind ?_
  show Yields _ _ _ (numAt (rowsOf _ _) 0 0 >>= fun scoreId => _) _ _ _ _
  rw [numAt_rowsOf (v := row.idx) rfl Nat.zero_lt_one rfl, Lib.Prog.pure_bind, if_neg hrow.idx_ne]
  exact yields_reply _

theorem handles_transfer (ext : External) {srcScoreId dstScoreId points : UInt32}
    {src dst : ScoreRow} {numPoints : Int32} (h : WellKept d)
    (hmoves : MovesFrom d srcScoreId dstScoreId points src dst numPoints) :
    Handles (Answers ext.hoodUserName) ext d (.transferScorePoints srcScoreId dstScoreId points)
      [{ code := .scoreNotEnoughPoints }] (d.moved src dst numPoints) := by
  obtain ⟨hsrc, hdst, hne, hsrcId, hdstId, hpoints, hsrcType, hdstType, hcan⟩ := hmoves
  refine ⟨0, noClients, .ret (), noClients, Yields.runs (Yields.catchReply ?_)⟩
  show Yields _ _ _ (dmAuthTransferScorePoints srcScoreId dstScoreId points) _ _ _ _
  unfold dmAuthTransferScorePoints
  have hselect : Succeeds ext.hoodUserName d (.handler, .selectScoreTypes srcScoreId dstScoreId)
      (.tuples [cells [intCell src.type], cells [intCell dst.type]]) d := by
    have hrows : selectRows ext.hoodUserName d (.selectScoreTypes srcScoreId dstScoreId) =
        some (idxRows ((d.scores.filter fun r =>
          decide (r.idx = src.idx ∨ r.idx = dst.idx)).map (·.type))) := by
      show ((integer srcScoreId).bind fun srcScoreId => (integer dstScoreId).bind fun dstScoreId =>
        some (idxRows ((d.scores.filter fun r =>
          decide (r.idx = srcScoreId ∨ r.idx = dstScoreId)).map (·.type)))) = _
      rw [hsrcId, hdstId]
      rfl
    refine .select hrows ?_
    exact (((h.filter_two hsrc hdst hne).map ScoreRow.type).map fun type =>
      cells [intCell type]).symm
  have hfixed : ¬(src.type.toUInt32 = scoreFixed ∨ dst.type.toUInt32 = scoreFixed) := by
    rw [toUInt32_eq_fixed, toUInt32_eq_fixed]
    exact not_or.2 ⟨hsrcType, hdstType⟩
  have hallow (n : UInt32) (hn : decide (n ≠ 0) = decide (src.type = typeGolf ∧ dst.type = typeGolf)) :
      carryOut d (.transferScorePoints srcScoreId dstScoreId points n) =
        some (.tuples [cells [boolCell true]], d.moved src dst numPoints) := by
    rw [AuthServ.carryOut, hsrcId, hdstId, hpoints, hn]
    show (Db.transferScorePoints src.idx dst.idx numPoints _ d).bind _ = _
    rw [h.transferScorePoints_of_canMove hsrc hdst hne hcan]
    rfl
  refine (yields_exec (.inl hselect)).bind ?_
  show Yields _ _ _ (numAt (rowsOf _ _) 0 0 >>= fun srcType =>
    numAt (rowsOf _ _) 1 0 >>= fun dstType => _) _ _ _ _
  rw [numAt_rowsOf (v := src.type) rfl Nat.zero_lt_one rfl, Lib.Prog.pure_bind,
    numAt_rowsOf (v := dst.type) rfl Nat.zero_lt_one rfl, Lib.Prog.pure_bind, if_neg hfixed]
  have hflag : decide ((if src.type.toUInt32 = scoreGolf ∧ dst.type.toUInt32 = scoreGolf then
      (1 : UInt32) else 0) ≠ 0) = decide (src.type = typeGolf ∧ dst.type = typeGolf) := by
    rw [decide_eq_decide, flag_ne_zero, toUInt32_eq_golf, toUInt32_eq_golf]
  refine (yields_exec (.inl (.change (hallow _ hflag)))).bind ?_
  show Yields _ _ _ (numAt (rowsOf _ _) 0 0 >>= fun status => _) _ _ _ _
  rw [numAt_boolCell, Lib.Prog.pure_bind]
  exact yields_reply _

/-! ## The ledger -/

/-- What is asked of a request that is handled. -/
structure Keeps (d : Tables) (r : ScoreRequest) (out : List Reply) (d' : Tables) : Prop where
  /-- No score has points that its type must not have, and its name is its owner's only one. -/
  inOrder : InOrder d'.scores
  /-- A transfer that succeeded has moved the points, and changed nothing else. -/
  moved : ∀ srcScoreId dstScoreId points, r = .transfer srcScoreId dstScoreId points →
    (∃ reply ∈ out, reply.code = .success) → ∃ src dst numPoints,
      MovesFrom d srcScoreId dstScoreId points src dst numPoints ∧ d' = d.moved src dst numPoints
  /-- A request that is answered with an error changes no score. -/
  unchanged : (∃ reply ∈ out, reply.code ≠ .success) → d'.scores = d.scores

/-- What a request must not do: make a score with points that its type must not have, or
under a name that its owner has once it is cut to the length of its column; and move
points. -/
def ScoreRequest.Fair (d : Tables) : ScoreRequest → Prop
  | create owner type name points => ∀ row, Makes d owner type name points row →
      (MayBeNegative row.type ∨ 0 ≤ row.points.toInt) ∧
        ∀ r ∈ d.scores, ¬(r.ownerIdx = row.ownerIdx ∧ r.name = row.name)
  | transfer srcScoreId dstScoreId points => ∀ src dst numPoints,
      MovesFrom d srcScoreId dstScoreId points src dst numPoints → numPoints = 0
  | add .. | set .. => True

theorem Effect.keeps {reply : Reply} (he : Effect d r reply.code d') (h : Ledger d)
    (hfair : r.Fair d) : Keeps d r [reply] d' := by
  generalize hcode : reply.code = code at he
  have hsuccess (hsome : ∃ reply' ∈ [reply], reply'.code = .success) : code = .success := by
    obtain ⟨reply', hmem, hreply⟩ := hsome
    rw [← hcode, ← List.mem_singleton.1 hmem, hreply]
  have herror (hsome : ∃ reply' ∈ [reply], reply'.code ≠ .success) : code ≠ .success := by
    obtain ⟨reply', hmem, hreply⟩ := hsome
    rwa [← hcode, ← List.mem_singleton.1 hmem]
  cases he with
  | refused hrefused hsame =>
    refine ⟨?_, fun _ _ _ _ hsome => absurd (hsuccess hsome) hrefused, fun _ => hsame.scores⟩
    rw [hsame.scores]
    exact h.toInOrder
  | created hrow =>
    exact ⟨(Db.inOrder_create h.toInOrder _).2 (hfair _ hrow), nofun, fun hsome => absurd rfl (herror hsome)⟩
  | added hrow hidx htype hnew =>
    refine ⟨h.toInOrder.withPoints fun r hr hridx => ?_, nofun, fun hsome => absurd rfl (herror hsome)⟩
    rw [h.eq_of_idx hr hrow hridx]
    obtain rfl | ⟨-, hnew | hgolf⟩ := hnew
    · exact .inr (Int.le_refl 0)
    · exact .inr hnew
    · exact .inl (.inr hgolf)
  | moved hmoves =>
    have hzero := hfair _ _ _ hmoves
    subst hzero
    rw [h.moved_zero hmoves.hsrc hmoves.hdst]
    exact ⟨h.toInOrder, fun _ _ _ _ hsome => absurd (hsuccess hsome) nofun, fun _ => rfl⟩
  | set hrow hidx htype =>
    refine ⟨h.toInOrder.withPoints fun r hr hridx => ?_, nofun, fun hsome => absurd rfl (herror hsome)⟩
    rw [h.eq_of_idx hr hrow hridx]
    exact .inl (.inl htype)

/-- A request that is not fair can be handled so that it keeps less than it should. -/
theorem not_keeps_of_unfair (ext : External) (h : Ledger d) (hunfair : ¬r.Fair d) :
    ∃ out d', Handles (Answers ext.hoodUserName) ext d r.message out d' ∧ ¬Keeps d r out d' := by
  cases r with
  | create owner type name points =>
    obtain ⟨row, hbad⟩ := not_forall.1 hunfair
    obtain ⟨hrow, hbad⟩ := Classical.not_imp.1 hbad
    obtain ⟨reply, hhandles⟩ := handles_create ext hrow
    exact ⟨_, _, hhandles, fun hkeeps => hbad ((Db.inOrder_create h.toInOrder row).1 hkeeps.inOrder)⟩
  | transfer srcScoreId dstScoreId points =>
    simp only [ScoreRequest.Fair, not_forall] at hunfair
    obtain ⟨src, dst, numPoints, hmoves, hpoints⟩ := hunfair
    refine ⟨_, _, handles_transfer ext h.toWellKept hmoves, fun hkeeps => ?_⟩
    exact Db.scores_moved_ne hmoves.hsrc hmoves.ne hpoints hmoves.can
      (hkeeps.unchanged ⟨_, List.mem_singleton_self _, nofun⟩)
  | add | set => exact absurd trivial hunfair

/-- **The ledger is kept exactly by fair requests.**  After any run of them it is in order, and
of any request that comes then, a handling cannot go wrong if and only if it is fair. -/
theorem scores_kept (ext : External) {d₀ : Tables} {requests : List ScoreRequest} (h : Ledger d₀)
    (hrun : Lib.RunOf (fun d r d' => r.Fair d ∧
      ∃ out, Handles (Answers ext.hoodUserName) ext d r.message out d') d₀ requests d) :
    Ledger d ∧ ∀ r, (∀ out d', Handles (Answers ext.hoodUserName) ext d r.message out d' →
      Keeps d r out d') ↔ r.Fair d := by
  have hkeeps {d : Tables} {r : ScoreRequest} {out : List Reply} {d' : Tables} (h : Ledger d)
      (hfair : r.Fair d) (hhandles : Handles (Answers ext.hoodUserName) ext d r.message out d') :
      WellKept d' ∧ Keeps d r out d' := by
    obtain ⟨reply, rfl, heffect⟩ := handled_effect h.toWellKept hhandles
    exact ⟨heffect.wellKept h.toWellKept, heffect.keeps h hfair⟩
  have hledger : Ledger d := by
    refine hrun.invariant (fun d r d' h hstep => ?_) h
    obtain ⟨hfair, out, hhandles⟩ := hstep
    obtain ⟨hkept, hkeeps⟩ := hkeeps h hfair hhandles
    exact ⟨hkept, hkeeps.inOrder⟩
  refine ⟨hledger, fun r => ⟨fun hall => ?_, fun hfair out d' hhandles => ?_⟩⟩
  · by_contra hunfair
    obtain ⟨out, d', hhandles, hbad⟩ := not_keeps_of_unfair ext hledger hunfair
    exact hbad (hall out d' hhandles)
  · exact (hkeeps hledger hfair hhandles).2

end

/-! ## Three ledgers -/

section Runs

theorem ledger_empty : Ledger {} :=
  ⟨⟨List.nodup_nil, nofun, nofun⟩, ⟨nofun, .nil⟩⟩

theorem scores_kept_created : ∃ d, Ledger d ∧
    d.scores = [{ idx := 1, ownerIdx := 7, type := 1, name := "marbles", points := 5 }] := by
  let row : ScoreRow := { idx := 1, ownerIdx := 7, type := 1, name := "marbles", points := 5 }
  have hrow : Makes {} 7 1 "marbles" 5 row := by
    refine ⟨rfl, rfl, nofun, rfl, rfl, rfl, ?_, rfl⟩
    decide
  have hfair : (ScoreRequest.create 7 1 "marbles" 5).Fair {} := by
    intro row' hrow'
    refine ⟨.inr ?_, nofun⟩
    obtain ⟨-, -, -, -, -, -, -, hpoints⟩ := hrow'
    rw [hpoints]
    decide
  obtain ⟨reply, hhandles⟩ := handles_create plainExternal hrow
  obtain ⟨hledger, -⟩ := scores_kept plainExternal ledger_empty
    (.cons ⟨hfair, _, hhandles⟩ (.nil (Tables.withScore {} row)))
  exact ⟨_, hledger, rfl⟩

/-- A Football score that is made with negative points, a name that an owner has twice, and a
transfer that is answered with an error and has moved the points. -/
theorem ledger_broken :
    (∃ reply d, Handles (Answers "") plainExternal {} (.createScore 7 1 "marbles" (-5)) [reply] d ∧
      ¬InOrder d.scores) ∧
    (∃ reply reply' d d', Handles (Answers "") plainExternal {}
        (.createScore 7 0 (String.ofList (.replicate 64 'a')) 0) [reply] d ∧
      Handles (Answers "") plainExternal d
        (.createScore 7 0 (String.ofList (.replicate 64 'a' ++ [' '])) 0) [reply'] d' ∧
      ¬InOrder d'.scores) ∧
    ∃ reply reply' d d' d'',
      Handles (Answers "") plainExternal {} (.createScore 7 1 "marbles" 5) [reply] d ∧
      Handles (Answers "") plainExternal d (.createScore 8 1 "marbles" 0) [reply'] d' ∧
      Handles (Answers "") plainExternal d' (.transferScorePoints 1 2 5)
        [{ code := .scoreNotEnoughPoints }] d'' ∧
      d''.scores ≠ d'.scores := by
  refine ⟨?_, ?_, ?_⟩
  · let row : ScoreRow := { idx := 1, ownerIdx := 7, type := 1, name := "marbles", points := -5 }
    have hrow : Makes {} 7 1 "marbles" (-5) row := by
      refine ⟨rfl, rfl, nofun, rfl, rfl, rfl, ?_, rfl⟩
      decide
    obtain ⟨reply, hhandles⟩ := handles_create plainExternal hrow
    refine ⟨reply, _, hhandles, fun h => ?_⟩
    obtain hneg | hneg := h.nonneg row (List.mem_singleton_self row)
    · exact absurd hneg (by decide)
    · exact absurd hneg (by decide)
  · let name := String.ofList (.replicate 64 'a')
    let row : ScoreRow := { idx := 1, ownerIdx := 7, type := 0, name, points := 0 }
    have hrow : Makes {} 7 0 name 0 row := by
      refine ⟨rfl, rfl, nofun, rfl, rfl, rfl, ?_, rfl⟩
      decide
    let row' : ScoreRow := { row with idx := 2 }
    have hrow' : Makes (Tables.withScore {} row) 7 0 (String.ofList (.replicate 64 'a' ++ [' '])) 0
        row' := by
      refine ⟨rfl, rfl, fun r hr hsame => ?_, rfl, rfl, rfl, ?_, rfl⟩
      · have hname : name ≠ cstr (String.ofList (.replicate 64 'a' ++ [' '])) := by decide
        rw [List.mem_singleton.1 hr] at hsame
        exact hname hsame.2
      · decide
    obtain ⟨reply, hhandles⟩ := handles_create plainExternal hrow
    obtain ⟨reply', hhandles'⟩ := handles_create plainExternal hrow'
    refine ⟨reply, reply', _, _, hhandles, hhandles', fun h => ?_⟩
    have honce := (List.pairwise_cons.1 h.once).1 row' (List.mem_singleton_self row')
    exact honce ⟨rfl, rfl⟩
  · let src : ScoreRow := { idx := 1, ownerIdx := 7, type := 1, name := "marbles", points := 5 }
    let dst : ScoreRow := { idx := 2, ownerIdx := 8, type := 1, name := "marbles", points := 0 }
    have hsrc : Makes {} 7 1 "marbles" 5 src := by
      refine ⟨rfl, rfl, nofun, rfl, rfl, rfl, ?_, rfl⟩
      decide
    have hdst : Makes (Tables.withScore {} src) 8 1 "marbles" 0 dst := by
      refine ⟨rfl, rfl, fun r hr hsame => ?_, rfl, rfl, rfl, ?_, rfl⟩
      · rw [List.mem_singleton.1 hr] at hsame
        exact absurd hsame.1 (by decide)
      · decide
    have hmoves : MovesFrom ((Tables.withScore {} src).withScore dst) 1 2 5 src dst 5 :=
      { hsrc := List.mem_cons_self
        hdst := List.mem_cons_of_mem _ List.mem_cons_self
        ne := by decide
        srcIdx := rfl
        dstIdx := rfl
        points := rfl
        srcType := by decide
        dstType := by decide
        can := ⟨by decide, by decide, by decide⟩ }
    have hkept := (ledger_empty.create hsrc.2.2).create hdst.2.2
    obtain ⟨reply, hhandles⟩ := handles_create plainExternal hsrc
    obtain ⟨reply', hhandles'⟩ := handles_create plainExternal hdst
    refine ⟨reply, reply', _, _, _, hhandles, hhandles', handles_transfer _ hkept hmoves, ?_⟩
    exact Db.scores_moved_ne hmoves.hsrc hmoves.ne (by decide) hmoves.can

end Runs

end Dirtsand.AuthServ
