import Dirtsand.Db.Functions

/-!
# The ledger of scores

What `auth.create_score`, `auth.add_score_points` and `auth.transfer_score_points` do to
the scores, and what they keep of a ledger that is in order.

* `Ledger` — **the invariant**: no score has negative points but those of the types that may,
  and there is one score for an owner and a name.
-/

namespace Dirtsand.Db

/-- `Auth_UpdateScore::e_Fixed`. -/
def typeFixed : Int32 := 0

/-- `Auth_UpdateScore::e_Golf`. -/
def typeGolf : Int32 := 2

/-- The types whose points may be negative. -/
def MayBeNegative (type : Int32) : Prop := type = typeFixed ∨ type = typeGolf

instance {type : Int32} : Decidable (MayBeNegative type) :=
  inferInstanceAs (Decidable (_ ∨ _))

/-- No score has negative points that may not, and there is one for an owner and a name. -/
structure InOrder (scores : List ScoreRow) : Prop where
  nonneg : ∀ row ∈ scores, MayBeNegative row.type ∨ 0 ≤ row.points.toInt
  once : scores.Pairwise fun row row' => ¬(row.ownerIdx = row'.ownerIdx ∧ row.name = row'.name)

/-- What PostgreSQL keeps of the table: the numbers are those that the sequence gave, each
once, and no name is longer than its column. -/
structure WellKept (d : Tables) : Prop where
  nodup : (d.scores.map (·.idx)).Nodup
  given : ∀ row ∈ d.scores, row.idx.toInt < d.nextScore
  name : ∀ row ∈ d.scores, row.name.length ≤ 64

structure Ledger (d : Tables) : Prop extends WellKept d, InOrder d.scores

variable {d d' : Tables}

theorem WellKept.eq_of_idx (h : WellKept d) {row row' : ScoreRow} (hrow : row ∈ d.scores)
    (hrow' : row' ∈ d.scores) (hidx : row.idx = row'.idx) : row = row' :=
  List.inj_on_of_nodup_map h.nodup hrow hrow' hidx

/-! ## New scores -/

/-- The table with one more score. -/
def Tables.withScore (d : Tables) (row : ScoreRow) : Tables :=
  { d with scores := d.scores ++ [row], nextScore := d.nextScore + 1 }

/-- The row that `auth.create_score` adds. -/
def Creates (d : Tables) (ownerId scoreType : Int32) (scoreName : String) (points : Int32)
    (row : ScoreRow) : Prop :=
  (∀ row ∈ d.scores, ¬(row.ownerIdx = ownerId ∧ row.name = scoreName)) ∧
    row.idx.toInt = d.nextScore ∧ row.ownerIdx = ownerId ∧ row.type = scoreType ∧
    varchar 64 scoreName = some row.name ∧ row.points = points

theorem createScore_eq_some {ownerId scoreType : Int32} {scoreName : String} {points scoreId : Int32}
    (h : createScore ownerId scoreType scoreName points d = some (scoreId, d')) :
    scoreId = -1 ∧ d' = d ∨ ∃ row, Creates d ownerId scoreType scoreName points row ∧
      scoreId = row.idx ∧ d' = d.withScore row := by
  rw [createScore] at h
  split at h
  · cases h
    exact .inl ⟨rfl, rfl⟩
  · rename_i hnone
    obtain ⟨name, hname, h⟩ := Option.bind_eq_some_iff.1 h
    obtain ⟨idx, hidx, h⟩ := Option.bind_eq_some_iff.1 h
    cases h
    refine .inr ⟨_, ⟨fun row hrow hsame => hnone ?_, inRange_eq_some.1 hidx, rfl, rfl, hname, rfl⟩,
      rfl, rfl⟩
    exact List.any_eq_true.2 ⟨row, hrow, decide_eq_true hsame⟩

theorem createScore_of_creates {ownerId scoreType : Int32} {scoreName : String} {points : Int32}
    {row : ScoreRow} (h : Creates d ownerId scoreType scoreName points row) :
    createScore ownerId scoreType scoreName points d = some (row.idx, d.withScore row) := by
  obtain ⟨hnone, hidx, rfl, rfl, hname, rfl⟩ := h
  have hany : ¬(d.scores.any fun r => r.ownerIdx = row.ownerIdx ∧ r.name = scoreName) = true := by
    intro h
    obtain ⟨r, hr, hsame⟩ := List.any_eq_true.1 h
    exact hnone r hr (of_decide_eq_true hsame)
  rw [createScore, if_neg hany, hname, inRange_eq_some.2 hidx]
  rfl

theorem WellKept.create {ownerId scoreType : Int32} {scoreName : String} {points : Int32}
    {row : ScoreRow} (h : WellKept d) (hrow : Creates d ownerId scoreType scoreName points row) :
    WellKept (d.withScore row) := by
  obtain ⟨-, hidx, -, -, hname, -⟩ := hrow
  refine ⟨?_, fun r hr => ?_, fun r hr => ?_⟩
  · show ((d.scores ++ [row]).map (·.idx)).Nodup
    rw [List.map_append, List.nodup_append]
    refine ⟨h.nodup, List.nodup_singleton _, ?_⟩
    rintro idx hold idx' hnew rfl
    obtain ⟨r, hr, rfl⟩ := List.mem_map.1 hold
    have hlt := h.given r hr
    rw [List.map_singleton, List.mem_singleton] at hnew
    rw [hnew, hidx] at hlt
    exact absurd hlt (Int.lt_irrefl _)
  · obtain hr | hr := List.mem_append.1 hr
    · have hlt := h.given r hr
      show r.idx.toInt < ((d.nextScore + 1 : Nat) : Int)
      omega
    · rw [List.mem_singleton.1 hr, hidx]
      show (d.nextScore : Int) < ((d.nextScore + 1 : Nat) : Int)
      omega
  · obtain hr | hr := List.mem_append.1 hr
    · exact h.name r hr
    · rw [List.mem_singleton.1 hr]
      exact length_of_varchar hname

/-- A new score leaves a ledger in order exactly if its points may be what they are, and no
other score of its owner has its name as it is kept. -/
theorem inOrder_create (h : InOrder d.scores) (row : ScoreRow) :
    InOrder (d.scores ++ [row]) ↔ (MayBeNegative row.type ∨ 0 ≤ row.points.toInt) ∧
      ∀ r ∈ d.scores, ¬(r.ownerIdx = row.ownerIdx ∧ r.name = row.name) := by
  constructor
  · intro hnew
    refine ⟨hnew.nonneg row (List.mem_append_right _ (List.mem_singleton_self _)), fun r hr => ?_⟩
    exact (List.pairwise_append.1 hnew.once).2.2 r hr row (List.mem_singleton_self _)
  · rintro ⟨hpoints, hname⟩
    refine ⟨fun r hr => ?_, List.pairwise_append.2 ⟨h.once, List.pairwise_singleton _ _, ?_⟩⟩
    · obtain hr | hr := List.mem_append.1 hr
      · exact h.nonneg r hr
      · rwa [List.mem_singleton.1 hr]
    · intro r hr r' hr'
      rw [List.mem_singleton.1 hr']
      exact hname r hr

/-! ## Points -/

/-- The row with other points, if it is the one. -/
def setPoints (scoreId points : Int32) (row : ScoreRow) : ScoreRow :=
  if row.idx = scoreId then { row with points } else row

/-- The table with other points for a score. -/
def Tables.withPoints (d : Tables) (scoreId points : Int32) : Tables :=
  { d with scores := d.scores.map (setPoints scoreId points) }

section

variable {scoreId points : Int32} {row : ScoreRow}

@[simp] theorem setPoints_idx : (setPoints scoreId points row).idx = row.idx := by
  rw [setPoints]
  split <;> rfl

@[simp] theorem setPoints_ownerIdx : (setPoints scoreId points row).ownerIdx = row.ownerIdx := by
  rw [setPoints]
  split <;> rfl

@[simp] theorem setPoints_type : (setPoints scoreId points row).type = row.type := by
  rw [setPoints]
  split <;> rfl

@[simp] theorem setPoints_name : (setPoints scoreId points row).name = row.name := by
  rw [setPoints]
  split <;> rfl

theorem WellKept.withPoints (h : WellKept d) : WellKept (d.withPoints scoreId points) := by
  refine ⟨?_, fun r hr => ?_, fun r hr => ?_⟩
  · show ((d.scores.map _).map _).Nodup
    rw [List.map_map, show (·.idx) ∘ setPoints scoreId points = (·.idx) from
      funext fun _ => setPoints_idx]
    exact h.nodup
  · obtain ⟨r₀, hr₀, rfl⟩ := List.mem_map.1 hr
    rw [setPoints_idx]
    exact h.given r₀ hr₀
  · obtain ⟨r₀, hr₀, rfl⟩ := List.mem_map.1 hr
    rw [setPoints_name]
    exact h.name r₀ hr₀

theorem InOrder.withPoints (h : InOrder d.scores)
    (hpoints : ∀ row ∈ d.scores, row.idx = scoreId → MayBeNegative row.type ∨ 0 ≤ points.toInt) :
    InOrder (d.withPoints scoreId points).scores := by
  refine ⟨fun r hr => ?_, ?_⟩
  · obtain ⟨r₀, hr₀, rfl⟩ := List.mem_map.1 hr
    rw [setPoints_type]
    by_cases hidx : r₀.idx = scoreId
    · rw [setPoints, if_pos hidx]
      exact hpoints r₀ hr₀ hidx
    · rw [setPoints, if_neg hidx]
      exact h.nonneg r₀ hr₀
  · show (d.scores.map _).Pairwise _
    rw [List.pairwise_map]
    refine h.once.imp fun {r r'} hne => ?_
    rw [setPoints_ownerIdx, setPoints_ownerIdx, setPoints_name, setPoints_name]
    exact hne

theorem Ledger.withPoints (h : Ledger d)
    (hpoints : ∀ row ∈ d.scores, row.idx = scoreId → MayBeNegative row.type ∨ 0 ≤ points.toInt) :
    Ledger (d.withPoints scoreId points) :=
  ⟨h.toWellKept.withPoints, h.toInOrder.withPoints hpoints⟩

theorem WellKept.withPoints_self (h : WellKept d) (hrow : row ∈ d.scores) :
    d.withPoints row.idx row.points = d := by
  have hmap : d.scores.map (setPoints row.idx row.points) = d.scores := by
    refine (List.map_congr_left fun r hr => ?_).trans (List.map_id d.scores)
    rw [setPoints]
    split
    · rename_i hidx
      rw [h.eq_of_idx hr hrow hidx]
      rfl
    · rfl
  rw [Tables.withPoints, hmap]

theorem WellKept.selectPoints_eq (h : WellKept d) (hrow : row ∈ d.scores) :
    selectPoints row.idx d = some row.points := by
  have hfound : (d.scores.find? fun r => decide (r.idx = row.idx)).isSome = true :=
    List.find?_isSome.2 ⟨row, hrow, decide_eq_true rfl⟩
  obtain ⟨r, hr⟩ := Option.isSome_iff_exists.1 hfound
  have hidx : r.idx = row.idx := by simpa using List.find?_some hr
  rw [selectPoints, hr, h.eq_of_idx (List.mem_of_find?_eq_some hr) hrow hidx]
  rfl

/-- With the row of the score known, the update is one of this row. -/
theorem WellKept.updatePoints_eq (h : WellKept d) (hrow : row ∈ d.scores)
    (f : Int32 → Option Int32) :
    updatePoints row.idx f d = (f row.points).map fun points => d.withPoints row.idx points := by
  have hall : (d.scores.all fun r => r.idx ≠ row.idx || (f r.points).isSome) =
      (f row.points).isSome := by
    rw [Bool.eq_iff_iff, List.all_eq_true]
    constructor
    · intro hall
      simpa using hall row hrow
    · intro hsome r hr
      by_cases hidx : r.idx = row.idx
      · rw [h.eq_of_idx hr hrow hidx, hsome, Bool.or_true]
      · rw [decide_eq_true hidx, Bool.true_or]
  rw [updatePoints, hall]
  cases hpoints : f row.points with
  | none => rfl
  | some points =>
    have hsome : (some points).isSome = true := rfl
    rw [if_pos hsome, Option.map_some, Option.some_inj, Tables.withPoints]
    congr 1
    refine List.map_congr_left fun r hr => ?_
    rw [setPoints]
    by_cases hidx : r.idx = row.idx
    · rw [if_pos hidx, if_pos hidx, h.eq_of_idx hr hrow hidx, hpoints]
      rfl
    · rw [if_neg hidx, if_neg hidx]

theorem enough_eq_some {dbPoints : Int32} {v : Int} {allowNegative b : Bool} :
    enough (some dbPoints) v allowNegative = some b ↔
      (inRange (dbPoints.toInt + v)).isSome = true ∧
        b = (decide (0 ≤ dbPoints.toInt + v) || allowNegative) := by
  rw [enough]
  cases hsum : inRange (dbPoints.toInt + v) with
  | none => simp
  | some sum =>
    rw [Option.map_some, Option.some_inj, inRange_eq_some.1 hsum]
    exact ⟨fun hb => ⟨rfl, hb.symm⟩, fun hb => hb.2.symm⟩

/-- `auth.add_score_points` adds the points, or leaves none. -/
theorem WellKept.addScorePoints_eq_some (h : WellKept d) (hrow : row ∈ d.scores)
    {allowNegative done : Bool}
    (hadd : addScorePoints row.idx points allowNegative d = some (done, d')) :
    ∃ new : Int32, d' = d.withPoints row.idx new ∧ (new = 0 ∨
      new.toInt = row.points.toInt + points.toInt ∧ (0 ≤ new.toInt ∨ allowNegative = true)) := by
  rw [addScorePoints, h.selectPoints_eq hrow] at hadd
  obtain ⟨b, hb, hadd⟩ := Option.bind_eq_some_iff.1 hadd
  obtain ⟨-, rfl⟩ := enough_eq_some.1 hb
  split at hadd
  · rename_i henough
    obtain ⟨d₁, hd₁, hadd⟩ := Option.bind_eq_some_iff.1 hadd
    cases hadd
    rw [h.updatePoints_eq hrow] at hd₁
    obtain ⟨new, hnew, rfl⟩ := Option.map_eq_some_iff.1 hd₁
    have hsum := inRange_eq_some.1 hnew
    refine ⟨new, rfl, .inr ⟨hsum, ?_⟩⟩
    rw [hsum]
    simpa using henough
  · obtain ⟨d₁, hd₁, hadd⟩ := Option.bind_eq_some_iff.1 hadd
    cases hadd
    rw [h.updatePoints_eq hrow] at hd₁
    obtain ⟨new, hnew, rfl⟩ := Option.map_eq_some_iff.1 hd₁
    cases hnew
    exact ⟨0, rfl, .inl rfl⟩

/-! ## Transfers -/

/-- The points can go from one score to the other. -/
structure CanMove (src dst : ScoreRow) (numPoints : Int32) (allowNegative : Bool) : Prop where
  enough : 0 ≤ src.points.toInt - numPoints.toInt ∨ allowNegative = true
  lowers : -2 ^ 31 ≤ src.points.toInt - numPoints.toInt ∧ src.points.toInt - numPoints.toInt < 2 ^ 31
  raises : -2 ^ 31 ≤ dst.points.toInt + numPoints.toInt ∧ dst.points.toInt + numPoints.toInt < 2 ^ 31

/-- The table after the points went. -/
def Tables.moved (d : Tables) (src dst : ScoreRow) (numPoints : Int32) : Tables :=
  (d.withPoints src.idx (Int32.ofInt (src.points.toInt - numPoints.toInt))).withPoints dst.idx
    (Int32.ofInt (dst.points.toInt + numPoints.toInt))

variable {src dst : ScoreRow} {numPoints : Int32} {allowNegative : Bool}

theorem mem_withPoints {row' : ScoreRow} (hrow : row ∈ d.scores) (hne : row'.idx ≠ row.idx) :
    row ∈ (d.withPoints row'.idx points).scores :=
  List.mem_map.2 ⟨row, hrow, if_neg hne.symm⟩

theorem inRange_ofInt {v : Int} (h : -2 ^ 31 ≤ v ∧ v < 2 ^ 31) : inRange v = some (Int32.ofInt v) :=
  if_pos h

/-- `auth.transfer_score_points` between two scores moves the points, where they can go. -/
theorem WellKept.transferScorePoints_eq_some (h : WellKept d) (hsrc : src ∈ d.scores)
    (hdst : dst ∈ d.scores) (hne : src.idx ≠ dst.idx) {done : Bool}
    (htransfer : transferScorePoints src.idx dst.idx numPoints allowNegative d = some (done, d')) :
    d' = d ∨ CanMove src dst numPoints allowNegative ∧ d' = d.moved src dst numPoints := by
  rw [transferScorePoints, h.selectPoints_eq hsrc] at htransfer
  obtain ⟨b, hb, htransfer⟩ := Option.bind_eq_some_iff.1 htransfer
  obtain ⟨-, rfl⟩ := enough_eq_some.1 hb
  split at htransfer
  · rename_i henough
    obtain ⟨d₁, hd₁, htransfer⟩ := Option.bind_eq_some_iff.1 htransfer
    obtain ⟨d₂, hd₂, htransfer⟩ := Option.bind_eq_some_iff.1 htransfer
    cases htransfer
    rw [h.updatePoints_eq hsrc] at hd₁
    obtain ⟨a, ha, rfl⟩ := Option.map_eq_some_iff.1 hd₁
    rw [h.withPoints.updatePoints_eq (mem_withPoints hdst hne)] at hd₂
    obtain ⟨b, hb, rfl⟩ := Option.map_eq_some_iff.1 hd₂
    have ha' := inRange_eq_some.1 ha
    have hb' := inRange_eq_some.1 hb
    refine .inr ⟨⟨by simpa using henough, ?_, ?_⟩, ?_⟩
    · rw [← ha']
      exact ⟨a.le_toInt, a.toInt_lt⟩
    · rw [← hb']
      exact ⟨b.le_toInt, b.toInt_lt⟩
    · rw [Tables.moved, ← ha', ← hb', Int32.ofInt_toInt, Int32.ofInt_toInt]
  · cases htransfer
    exact .inl rfl

theorem WellKept.transferScorePoints_of_canMove (h : WellKept d) (hsrc : src ∈ d.scores)
    (hdst : dst ∈ d.scores) (hne : src.idx ≠ dst.idx)
    (hmove : CanMove src dst numPoints allowNegative) :
    transferScorePoints src.idx dst.idx numPoints allowNegative d =
      some (true, d.moved src dst numPoints) := by
  have henough : enough (some src.points) (-numPoints.toInt) allowNegative = some true := by
    refine enough_eq_some.2 ⟨?_, ?_⟩
    · rw [← Int.sub_eq_add_neg, inRange_ofInt hmove.lowers]
      rfl
    · rw [← Int.sub_eq_add_neg]
      simpa using hmove.enough
  rw [transferScorePoints, h.selectPoints_eq hsrc, henough, h.updatePoints_eq hsrc,
    inRange_ofInt hmove.lowers]
  show (updatePoints dst.idx _ (d.withPoints src.idx _)).bind _ = _
  rw [h.withPoints.updatePoints_eq (mem_withPoints hdst hne), inRange_ofInt hmove.raises]
  rfl

/-- Points that went have left their score. -/
theorem scores_moved_ne (hsrc : src ∈ d.scores) (hne : src.idx ≠ dst.idx) (hpoints : numPoints ≠ 0)
    (hmove : CanMove src dst numPoints allowNegative) :
    (d.moved src dst numPoints).scores ≠ d.scores := by
  intro heq
  change (d.scores.map _).map _ = d.scores at heq
  rw [List.map_map] at heq
  have hsame := List.map_inj_left.1 (heq.trans (List.map_id d.scores).symm) src hsrc
  rw [Function.comp_apply, setPoints, if_neg (by rwa [setPoints_idx]), setPoints, if_pos rfl] at hsame
  have hleft := congrArg (Int32.toInt ∘ ScoreRow.points) hsame
  have hof : (Int32.ofInt (src.points.toInt - numPoints.toInt)).toInt =
      src.points.toInt - numPoints.toInt := inRange_eq_some.1 (inRange_ofInt hmove.lowers)
  change (Int32.ofInt (src.points.toInt - numPoints.toInt)).toInt = src.points.toInt at hleft
  refine hpoints (Int32.toInt_inj.1 ?_)
  show numPoints.toInt = 0
  omega

/-- No points are moved nowhere. -/
theorem WellKept.moved_zero (h : WellKept d) (hsrc : src ∈ d.scores) (hdst : dst ∈ d.scores) :
    d.moved src dst 0 = d := by
  have hzero : (0 : Int32).toInt = 0 := rfl
  rw [Tables.moved, hzero, Int.sub_zero, Int.add_zero, Int32.ofInt_toInt, Int32.ofInt_toInt,
    h.withPoints_self hsrc, h.withPoints_self hdst]

theorem WellKept.of_sameRows (h : WellKept d) (hsame : d.SameRows d') : WellKept d' := by
  refine ⟨?_, fun row hrow => ?_, fun row hrow => ?_⟩
  · rw [hsame.scores]
    exact h.nodup
  · rw [hsame.scores] at hrow
    have hgiven := h.given row hrow
    have hnext := hsame.nextScore
    omega
  · rw [hsame.scores] at hrow
    exact h.name row hrow

/-! ## Rows by their numbers -/

theorem WellKept.filter_two (h : WellKept d) (hsrc : src ∈ d.scores) (hdst : dst ∈ d.scores)
    (hne : src.idx ≠ dst.idx) :
    (d.scores.filter fun r => decide (r.idx = src.idx ∨ r.idx = dst.idx)).Perm [src, dst] := by
  have hnodup : [src, dst].Nodup := by
    refine List.nodup_cons.2 ⟨fun hmem => ?_, List.nodup_singleton _⟩
    rw [List.mem_singleton.1 hmem] at hne
    exact hne rfl
  refine (List.perm_ext_iff_of_nodup (h.nodup.of_map.filter _) hnodup).2 ?_
  intro r
  rw [List.mem_filter, List.mem_cons, List.mem_singleton, decide_eq_true_eq]
  constructor
  · rintro ⟨hr, hidx | hidx⟩
    · exact .inl (h.eq_of_idx hr hsrc hidx)
    · exact .inr (h.eq_of_idx hr hdst hidx)
  · rintro (rfl | rfl)
    · exact ⟨hsrc, .inl rfl⟩
    · exact ⟨hdst, .inr rfl⟩

/-- Two rows with one of two numbers are one with each. -/
theorem WellKept.of_filter_two (h : WellKept d) {srcId dstId : Int32}
    (hlength : (d.scores.filter fun r => decide (r.idx = srcId ∨ r.idx = dstId)).length = 2) :
    ∃ src ∈ d.scores, ∃ dst ∈ d.scores, src.idx = srcId ∧ dst.idx = dstId ∧ src.idx ≠ dst.idx := by
  obtain ⟨a, b, hab⟩ := List.length_eq_two.1 hlength
  have hmem : ∀ r ∈ [a, b], r ∈ d.scores ∧ (r.idx = srcId ∨ r.idx = dstId) := by
    intro r hr
    rw [← hab, List.mem_filter, decide_eq_true_eq] at hr
    exact hr
  obtain ⟨ha, haidx⟩ := hmem a (List.mem_cons_self)
  obtain ⟨hb, hbidx⟩ := hmem b (List.mem_cons_of_mem _ (List.mem_singleton_self _))
  have hne : a.idx ≠ b.idx := by
    intro hidx
    have hnodup := h.nodup.of_map.filter fun r => decide (r.idx = srcId ∨ r.idx = dstId)
    rw [hab, h.eq_of_idx ha hb hidx] at hnodup
    exact (List.nodup_cons.1 hnodup).1 (List.mem_singleton_self _)
  obtain haidx | haidx := haidx
  · refine ⟨a, ha, b, hb, haidx, hbidx.resolve_left fun hb => ?_, hne⟩
    exact hne (haidx.trans hb.symm)
  · refine ⟨b, hb, a, ha, hbidx.resolve_right fun hb => ?_, haidx, hne.symm⟩
    exact hne (haidx.trans hb.symm)

end

end Dirtsand.Db
