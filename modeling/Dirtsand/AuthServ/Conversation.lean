import Dirtsand.AuthServ.Daemon

/-!
# Good and bad answers of the database

What the daemon takes for granted about the answers of its database, and what
its vault functions make of them.

`judge` says of each answer whether it is good.  For a handler, an answer is bad
where an assertion or an unchecked read ends the process, and where the handler
returns without a reply.  Inside `v_create_player` it is bad where that function
fails.  There, an exception is excused: nothing has been replied yet.

* `vCreateAge_sound`, `vFetchNode_sound`, `bcastTo_sound` — what a handler calls
  ends the process exactly at a bad answer.
* `vCreatePlayer_exact` — **`v_create_player` makes a player exactly if all
  answers to it are good.**
-/

namespace Dirtsand.AuthServ

open Lib.Prog

/-! ## The judge -/

/-- `strtoul` of the first column. -/
def Row.index (row : Row) : UInt32 := (strtoul 10 ((row 0).getD "").toList).toUInt32

/-- The rows that a handler takes without a check. -/
def RowsOk : Statement → List Row → Prop
  | .genUuid, rows => rows.length = 1
  | .nextAgeSeq, rows => rows.length = 1
  | .createNode _, rows => rows.length = 1
  | .hasNode .., rows => rows.length = 1
  | .insertTempServer .., rows => rows ≠ []
  | .createScore .., rows => rows ≠ []
  | .transferScorePoints .., rows => rows ≠ []
  -- Five columns are read, and there are four.
  | .selectAllScores .., rows => rows = []
  | _, _ => True

/-- An answer that a handler copes with. -/
def HandlerGood (s : Statement) : QueryOutcome → Prop
  | .tuples rows => RowsOk s rows
  | .throws => True
  | .command => ∀ instanceId name, s ≠ .insertTempServer instanceId name
  | .error => ∀ instanceId name, s ≠ .insertTempServer instanceId name

/-- An answer that keeps `v_create_player` going. -/
def PlayerGood (ext : External) : Statement → QueryOutcome → Prop
  | _, .throws => True
  | .createNode _, .tuples rows => ∃ row, rows = [row] ∧ Row.index row ≠ 0
  | .createNode _, _ => False
  | .refNode .., outcome => outcome = .command
  | .insertServer .., outcome => outcome = .command
  | .genUuid, .tuples rows => rows.length = 1
  | .nextAgeSeq, .tuples rows => rows.length = 1
  | .nextAgeSeq, _ => False
  | .findReltoOwners _, .tuples rows => rows ≠ []
  | .findReltoOwners _, _ => False
  | .selectHoods, .tuples _ => True
  | .selectHoods, _ => False
  | .findAgeOwners _, .tuples rows => ext.nullString = true ∨ rows ≠ []
  | .countOwners _, .tuples rows => rows ≠ []
  | .findHoodOwners _, .tuples rows => rows ≠ []
  | .findHoodOwners _, _ => False
  | .selectPublicAge _, .tuples rows => ∃ row rest, rows = row :: rest ∧ Row.index row ≠ 0
  | .selectPublicAge _, _ => False
  | _, _ => True

/-- An answer that `v_create_player` leaves with an exception. -/
def PlayerThrows : Statement → QueryOutcome → Prop
  | _, .throws => True
  | .genUuid, .tuples rows => ∃ row, rows = [row] ∧ Uuid.ofText ((row 0).getD "").toList = none
  | _, _ => False

def judge (ext : External) : Judge (CallSite × Statement) QueryOutcome where
  good e := match e.1.1 with
    | .handler => HandlerGood e.1.2 e.2
    | .createPlayer => PlayerGood ext e.1.2 e.2
  excused e := e.1.1 = .createPlayer ∧ PlayerThrows e.1.2 e.2

/-- The result of a statement, unless it throws. -/
def QueryOutcome.result (s : Statement) : QueryOutcome → Option PGresult
  | .tuples rows => some { status := .tuplesOk, nfields := s.columns, rows }
  | .command => some { status := .commandOk }
  | .error => some { status := .fatalError }
  | .throws => none

/-- A statement all whose answers a handler copes with. -/
def Statement.free : Statement → Bool
  | .genUuid => false
  | .nextAgeSeq => false
  | .createNode _ => false
  | .hasNode .. => false
  | .insertTempServer .. => false
  | .createScore .. => false
  | .transferScorePoints .. => false
  | .selectAllScores .. => false
  | _ => true

theorem Statement.free_good {s : Statement} (hs : s.free = true) (o : QueryOutcome) :
    HandlerGood s o := by
  cases s with
  | genUuid | nextAgeSeq | createNode _ | hasNode _ _ | insertTempServer _ _ | createScore _ _ _ _
  | transferScorePoints _ _ _ _ | selectAllScores _ _ => cases hs
  | _ => cases o <;> simp [HandlerGood, RowsOk]

section Judged

variable {ext : External} {L : Prop} {β : Type}

/-! ## Statements -/

theorem exec_bind (site : CallSite) (s : Statement) (k : PGresult → DM β) :
    exec site s >>= k = ask (site, s) >>= fun o => match o.result s with
      | some r => k r
      | none => throw := by
  unfold exec
  rw [bind_bind]
  congr 1
  funext o
  cases o <;> rfl

theorem result_none {s : Statement} {o : QueryOutcome} (h : o.result s = none) : o = .throws := by
  cases o with
  | throws => rfl
  | _ => cases h

theorem playerThrows_of_none {s : Statement} {o : QueryOutcome} (h : o.result s = none) :
    PlayerThrows s o := by
  rw [result_none h]
  cases s <;> trivial

theorem result_nfields {s : Statement} {o : QueryOutcome} {r : PGresult}
    (h : o.result s = some r) (hr : r.status = .tuplesOk) : r.nfields = s.columns := by
  cases o with
  | tuples rows =>
    cases h
    rfl
  | command | error =>
    cases h
    cases hr
  | throws => cases h

theorem answers_exec {s : Statement} {k : PGresult → DM β}
    (hgood : ∀ o r, o.result s = some r → HandlerGood s o → Answers (judge ext) L (k r))
    (hbad : ∀ o r, o.result s = some r → ¬HandlerGood s o → Fails L (k r)) :
    Answers (judge ext) L (exec .handler s >>= k) := by
  rw [exec_bind]
  refine answers_ask (fun o h => by cases h.1) (fun o ho => ?_) fun o ho => ?_
  · cases hr : o.result s with
    | some r => exact hgood o r hr ho
    | none => exact answers_throw
  · cases hr : o.result s with
    | some r => exact hbad o r hr ho
    | none => exact absurd (result_none hr ▸ trivial) ho

theorem sound_exec {P : β → Prop} {s : Statement} {k : PGresult → DM β}
    (hgood : ∀ o r, o.result s = some r → HandlerGood s o → Sound (judge ext) P (k r))
    (hbad : ∀ o r, o.result s = some r → ¬HandlerGood s o → Fails False (k r)) :
    Sound (judge ext) P (exec .handler s >>= k) := by
  rw [exec_bind]
  refine sound_ask (fun o h => by cases h.1) (fun o ho => ?_) fun o ho => ?_
  · cases hr : o.result s with
    | some r => exact hgood o r hr ho
    | none => exact sound_throw
  · cases hr : o.result s with
    | some r => exact hbad o r hr ho
    | none => exact absurd (result_none hr ▸ trivial) ho

theorem answers_exec_free {s : Statement} {k : PGresult → DM β} (hs : s.free = true)
    (hk : ∀ r, (r.status = .tuplesOk → r.nfields = s.columns) → Answers (judge ext) L (k r)) :
    Answers (judge ext) L (exec .handler s >>= k) :=
  answers_exec (fun _ r hr _ => hk r (result_nfields hr))
    fun o _ _ hbad => absurd (Statement.free_good hs o) hbad

/-- As `answers_exec_free`, for a result that is read whatever its status is. -/
theorem answers_exec_result {s : Statement} {k : PGresult → DM β} (hs : s.free = true)
    (hk : ∀ (o : QueryOutcome) r, o.result s = some r → Answers (judge ext) L (k r)) :
    Answers (judge ext) L (exec .handler s >>= k) :=
  answers_exec (fun o r hr _ => hk o r hr)
    fun o _ _ hbad => absurd (Statement.free_good hs o) hbad

theorem sound_exec_free {P : β → Prop} {s : Statement} {k : PGresult → DM β} (hs : s.free = true)
    (hk : ∀ r, (r.status = .tuplesOk → r.nfields = s.columns) → Sound (judge ext) P (k r)) :
    Sound (judge ext) P (exec .handler s >>= k) :=
  sound_exec (fun _ r hr _ => hk r (result_nfields hr))
    fun o _ _ hbad => absurd (Statement.free_good hs o) hbad

theorem sound_exec_self {s : Statement} (hs : s.free = true) :
    Sound (judge ext) (fun _ => True) (exec .handler s) := by
  refine sound_ask (fun o h => by cases h.1) (fun o _ => ?_) fun o ho => ?_
  · cases o with
    | throws => exact sound_throw
    | tuples rows | command | error => exact sound_pure trivial
  · exact absurd (Statement.free_good hs o) ho

theorem exact_exec {P N : β → Prop} {s : Statement} {k : PGresult → DM β}
    (hthrows : ∀ o r, o.result s = some r → PlayerThrows s o → Raises (k r))
    (hgood : ∀ o r, o.result s = some r → ¬PlayerThrows s o → PlayerGood ext s o →
      Exact (judge ext) P N (k r))
    (hbad : ∀ o r, o.result s = some r → ¬PlayerThrows s o → ¬PlayerGood ext s o →
      Spoilt (judge ext) N (k r)) : Exact (judge ext) P N (exec .createPlayer s >>= k) := by
  rw [exec_bind]
  refine exact_ask (fun o h => ?_) (fun o hx ho => ?_) fun o hx ho => ?_
  · cases hr : o.result s with
    | some r => exact hthrows o r hr h.2
    | none => exact raises_throw
  · cases hr : o.result s with
    | some r => exact hgood o r hr (fun h => hx ⟨rfl, h⟩) ho
    | none => exact absurd ⟨rfl, playerThrows_of_none hr⟩ hx
  · cases hr : o.result s with
    | some r => exact hbad o r hr (fun h => hx ⟨rfl, h⟩) ho
    | none => exact absurd ⟨rfl, playerThrows_of_none hr⟩ hx

/-! ## Reading a result -/

theorem sound_numAt {r : PGresult} {i j : Nat} (hi : i < r.ntuples) (hj : j < r.nfields) :
    Sound (judge ext) (fun _ => True) (numAt r i j) := by
  obtain ⟨text, h⟩ := PGresult.getvalue_isSome hi hj
  rw [numAt, h]
  exact sound_pure trivial

theorem sound_intAt {r : PGresult} {i j : Nat} (hi : i < r.ntuples) (hj : j < r.nfields) :
    Sound (judge ext) (fun _ => True) (intAt r i j) := by
  obtain ⟨text, h⟩ := PGresult.getvalue_isSome hi hj
  rw [intAt, h]
  exact sound_pure trivial

theorem sound_uuidAt {r : PGresult} {i j : Nat} (hi : i < r.ntuples) (hj : j < r.nfields) :
    Sound (judge ext) (fun _ => True) (uuidAt r i j) := by
  obtain ⟨text, h⟩ := PGresult.getvalue_isSome hi hj
  simp only [uuidAt, h]
  split
  · exact sound_pure trivial
  · exact sound_throw

theorem sound_textAt {r : PGresult} {i j : Nat} (hi : i < r.ntuples) (hj : j < r.nfields) :
    Sound (judge ext) (fun _ => True) (textAt ext r i j) := by
  obtain ⟨text, h⟩ := PGresult.getvalue_isSome hi hj
  rw [textAt, h]
  exact sound_pure trivial

theorem sound_blobAt {r : PGresult} {i j : Nat} (hi : i < r.ntuples) (hj : j < r.nfields) :
    Sound (judge ext) (fun _ => True) (blobAt ext r i j) := by
  refine (sound_textAt hi hj).bind fun text _ => ?_
  split
  · exact sound_pure trivial
  · exact sound_throw

theorem sound_forRows {r : PGresult} {f : Nat → DM β} {P : β → Prop}
    (h : ∀ i, i < r.ntuples → Sound (judge ext) P (f i)) :
    Sound (judge ext) (fun _ => True) (forRows r f) :=
  Sound.collect fun i hi => h i (List.mem_range.1 hi)

/-! ## The vault functions in a handler -/

theorem fails_dsAssert {cond : Bool} {k : Unit → DM β} (h : cond = false) :
    Fails L (dsAssert cond >>= k) := by
  rw [h]
  exact fails_crash.bind

theorem dsAssert_true {cond : Bool} {k : Unit → DM β} (h : cond = true) :
    (dsAssert cond >>= k) = k () := by
  rw [h]
  rfl

/-- A statement that must give one row, and whose failure is no harm. -/
theorem sound_oneRow {P : β → Prop} {s : Statement} {a : β} {read : PGresult → DM β}
    (hs : ∀ rows, RowsOk s rows ↔ rows.length = 1) (hi : ∀ i n, s ≠ .insertTempServer i n)
    (ha : P a) (hread : ∀ r, r.ntuples = 1 → r.nfields = s.columns → Sound (judge ext) P (read r)) :
    Sound (judge ext) P (do
      let r ← exec .handler s
      if r.status ≠ .tuplesOk then return a
      dsAssert (r.ntuples = 1)
      read r) := by
  refine sound_exec (fun o r hr ho => ?_) fun o r hr ho => ?_
  · split
    · exact sound_pure ha
    · cases o with
      | tuples rows =>
        cases hr
        have hrows := (hs rows).1 ho
        show Sound _ P (dsAssert (decide (rows.length = 1)) >>= fun _ => read _)
        rw [dsAssert_true (decide_eq_true hrows)]
        exact hread _ hrows rfl
      | command | error | throws =>
        cases hr
        all_goals simp_all
  · cases o with
    | tuples rows =>
      cases hr
      rw [if_neg (by simp)]
      exact fails_dsAssert (decide_eq_false fun h => ho ((hs rows).2 h))
    | command | error => exact absurd hi ho
    | throws => cases hr

theorem genUuid_sound : Sound (judge ext) (fun _ => True) (genUuid .handler) :=
  sound_oneRow (fun _ => Iff.rfl) nofun trivial fun r h1 hf =>
    sound_uuidAt (by omega) (by rw [hf]; decide)

theorem uuidOrNew_sound (id : Uuid) :
    Sound (judge ext) (fun _ => True) (uuidOrNew .handler id) := by
  unfold uuidOrNew
  split
  · exact genUuid_sound
  · exact sound_pure trivial

theorem vCreateNode_sound (node : Vault.Node) :
    Sound (judge ext) (fun _ => True) (vCreateNode .handler node) :=
  sound_oneRow (fun _ => Iff.rfl) nofun trivial fun r h1 hf =>
    sound_numAt (by omega) (by rw [hf]; exact Nat.zero_lt_one)

theorem vHasNode_sound (parentId childId : UInt32) :
    Sound (judge ext) (fun _ => True) (vHasNode parentId childId) := by
  unfold vHasNode
  split
  · exact sound_pure trivial
  split
  · exact sound_pure trivial
  refine sound_oneRow (fun _ => Iff.rfl) nofun trivial fun r h1 hf => ?_
  obtain ⟨text, h⟩ := PGresult.getvalue_isSome (r := r) (i := 0) (j := 0) (by omega)
    (by rw [hf]; exact Nat.zero_lt_one)
  rw [h]
  exact sound_pure trivial

theorem vRefNode_sound (parentIdx childIdx ownerIdx : UInt32) :
    Sound (judge ext) (fun _ => True) (vRefNode .handler parentIdx childIdx ownerIdx) :=
  sound_exec_free rfl fun _ _ => sound_pure trivial

theorem vUnrefNode_sound (parentIdx childIdx : UInt32) :
    Sound (judge ext) (fun _ => True) (vUnrefNode parentIdx childIdx) :=
  sound_exec_free rfl fun _ _ => sound_pure trivial

theorem vUpdateNode_sound (node : Vault.Node) :
    Sound (judge ext) (fun _ => True) (vUpdateNode node) :=
  sound_exec_free rfl fun _ _ => sound_pure trivial

theorem sound_unlessNull {r : PGresult} {j : Nat} {read : DM β}
    (h : Sound (judge ext) (fun _ => True) read) :
    Sound (judge ext) (fun _ => True) (unlessNull r j read) := by
  unfold unlessNull
  split
  · exact sound_pure trivial
  · exact h.bind fun _ _ => sound_pure trivial

theorem vFetchNode_sound (nodeIdx : UInt32) :
    Sound (judge ext) (fun _ => True) (vFetchNode ext nodeIdx) := by
  refine sound_exec_free rfl fun r hr => ?_
  split
  · exact sound_pure trivial
  rename_i hok
  split
  · exact sound_pure trivial
  rename_i hrows
  have hi : 0 < r.ntuples := by omega
  have hf : r.nfields = 32 := hr (by simpa using hok)
  have hnum (j : Nat) (hj : j < 32) : Sound (judge ext) (fun _ => True) (numAt r 0 j) :=
    sound_numAt hi (by omega)
  have hint (j : Nat) (hj : j < 32) : Sound (judge ext) (fun _ => True) (intAt r 0 j) :=
    sound_intAt hi (by omega)
  have huuid (j : Nat) (hj : j < 32) : Sound (judge ext) (fun _ => True) (uuidAt r 0 j) :=
    sound_uuidAt hi (by omega)
  have htext (j : Nat) (hj : j < 32) : Sound (judge ext) (fun _ => True) (textAt ext r 0 j) :=
    sound_textAt hi (by omega)
  have hblob (j : Nat) (hj : j < 32) : Sound (judge ext) (fun _ => True) (blobAt ext r 0 j) :=
    sound_blobAt hi (by omega)
  dsimp only
  repeat
    refine Sound.bind (P := fun _ => True) ?_ fun _ _ => ?_
    · first
        | exact hnum _ (by decide)
        | exact sound_unlessNull (hnum _ (by decide))
        | exact sound_unlessNull (hint _ (by decide))
        | exact sound_unlessNull (huuid _ (by decide))
        | exact sound_unlessNull (htext _ (by decide))
        | exact sound_unlessNull (hblob _ (by decide))
  exact sound_pure trivial

theorem vRefNodes_sound (refs : List (UInt32 × UInt32)) :
    Sound (judge ext) (fun _ => True) (vRefNodes .handler refs) := by
  induction refs with
  | nil => exact sound_pure trivial
  | cons ref refs ih =>
    refine (vRefNode_sound _ _ _).bind fun ok _ => ?_
    split
    · exact sound_pure trivial
    · exact ih

theorem vFetchTree_sound (nodeId : UInt32) :
    Sound (judge ext) (fun _ => True) (vFetchTree nodeId) := by
  refine sound_exec_free rfl fun r hr => ?_
  split
  · exact sound_pure trivial
  rename_i hok
  have hf : r.nfields = 3 := hr (by simpa using hok)
  refine Sound.bind (sound_forRows (P := fun _ => True) fun i hi => ?_) fun _ _ => sound_pure trivial
  refine (sound_numAt hi (by omega)).bind fun _ _ => ?_
  refine (sound_numAt hi (by omega)).bind fun _ _ => ?_
  exact (sound_numAt hi (by omega)).bind fun _ _ => sound_pure trivial

theorem vFindNodes_sound (nodeTemplate : Vault.Node) :
    Sound (judge ext) (fun _ => True) (vFindNodes nodeTemplate) := by
  unfold vFindNodes
  split
  · exact sound_pure trivial
  split
  · exact sound_pure trivial
  refine sound_exec_free rfl fun r hr => ?_
  split
  · exact sound_pure trivial
  rename_i hok
  have hf : r.nfields = 1 := hr (by simpa using hok)
  refine Sound.bind (sound_forRows (P := fun _ => True) fun i hi => ?_) fun _ _ => sound_pure trivial
  exact sound_numAt hi (by omega)

theorem vSendNode_sound (nodeId playerId senderId : UInt32) :
    Sound (judge ext) (fun _ => True) (vSendNode nodeId playerId senderId) := by
  refine sound_exec_free rfl fun r hr => ?_
  split
  · exact sound_pure trivial
  rename_i hok
  split
  · exact sound_pure trivial
  rename_i hrows
  have hf : r.nfields = 1 := hr (by simpa using hok)
  refine (sound_numAt (by omega) (by omega)).bind fun inbox _ => ?_
  refine (vRefNode_sound _ _ _).bind fun ok _ => ?_
  split
  · exact sound_pure trivial
  · exact sound_pure trivial

theorem vFindPublicAges_sound (ageFilename : String) :
    Sound (judge ext) (fun _ => True) (vFindPublicAges ext ageFilename) := by
  refine sound_exec_free rfl fun r hr => ?_
  split
  · exact sound_pure trivial
  rename_i hok
  have hf : r.nfields = 8 := hr (by simpa using hok)
  refine Sound.bind (sound_forRows (P := fun _ => True) fun i hi => ?_) fun _ _ => sound_pure trivial
  refine (sound_uuidAt hi (by omega)).bind fun _ _ => ?_
  refine (sound_textAt hi (by omega)).bind fun _ _ => ?_
  refine (sound_textAt hi (by omega)).bind fun _ _ => ?_
  refine (sound_textAt hi (by omega)).bind fun _ _ => ?_
  refine (sound_numAt hi (by omega)).bind fun _ _ => ?_
  refine (sound_numAt hi (by omega)).bind fun _ _ => ?_
  refine (sound_numAt hi (by omega)).bind fun _ _ => ?_
  exact (sound_numAt hi (by omega)).bind fun _ _ => sound_pure trivial

/-- One step of a chain of nodes. -/
theorem sound_nodeOr {P : β → Prop} {node : Vault.Node} {fail : β} {f : UInt32 → DM β} (hfail : P fail)
    (hf : ∀ idx, Sound (judge ext) P (f idx)) :
    Sound (judge ext) P (do
      let idx ← vCreateNode .handler node
      if idx = 0 then pure fail else f idx) := by
  refine (vCreateNode_sound node).bind fun idx _ => ?_
  split
  · exact sound_pure hfail
  · exact hf idx

theorem vCreateAgeNodes_sound (age : AgeInfo) (seqNumber : Int) (flags : UInt32) :
    Sound (judge ext) (fun _ => True) (vCreateAgeNodes ext .handler age seqNumber flags) := by
  refine sound_nodeOr trivial fun ageNode => ?_
  iterate 9 refine sound_nodeOr trivial fun _ => ?_
  refine sound_get.bind fun s _ => ?_
  refine (vRefNodes_sound _).bind fun ok _ => ?_
  split
  · exact sound_pure trivial
  refine sound_exec_free rfl fun r _ => ?_
  split
  · exact sound_pure trivial
  · exact sound_pure trivial

theorem vCreateAge_sound (age : AgeInfo) (flags : UInt32) :
    Sound (judge ext) (fun _ => True) (vCreateAge ext .handler age flags) := by
  refine (uuidOrNew_sound age.ageId).bind fun ageId _ => ?_
  dsimp only
  split
  · refine sound_oneRow (fun _ => Iff.rfl) nofun trivial fun r h1 hf => ?_
    refine (sound_intAt (by omega) (by rw [hf]; exact Nat.zero_lt_one)).bind fun seqNumber _ => ?_
    exact vCreateAgeNodes_sound _ _ _
  · exact vCreateAgeNodes_sound _ _ _

/-! ## The functions of `v_create_player` -/

theorem spoilt_dsAssert {N : β → Prop} {cond : Bool} {k : Unit → DM β} (h : cond = false) :
    Spoilt (judge ext) N (dsAssert cond >>= k) := by
  rw [h]
  exact spoilt_crash

/-- Only `gen_uuid` throws by what it reads. -/
theorem not_playerThrows {s : Statement} {o : QueryOutcome} {r : PGresult}
    (hr : o.result s = some r) (hs : s ≠ .genUuid) : ¬PlayerThrows s o := by
  cases o with
  | throws => cases hr
  | tuples rows => cases s <;> first | exact absurd rfl hs | exact id
  | command | error => cases s <;> exact id

theorem spoilt_exec {N : β → Prop} {s : Statement} {k : PGresult → DM β} (hs : s ≠ .genUuid)
    (hk : ∀ (o : QueryOutcome) r, o.result s = some r → Spoilt (judge ext) N (k r)) :
    Spoilt (judge ext) N (exec .createPlayer s >>= k) := by
  rw [exec_bind]
  refine spoilt_ask (fun o h => ?_) fun o hx => ?_
  · cases hr : o.result s with
    | some r => exact absurd h.2 (not_playerThrows hr hs)
    | none => exact raises_throw
  · cases hr : o.result s with
    | some r => exact hk o r hr
    | none => exact absurd ⟨rfl, playerThrows_of_none hr⟩ hx

/-- A statement of `v_create_player` other than that of `gen_uuid`. -/
theorem exact_exec_plain {P N : β → Prop} {s : Statement} {k : PGresult → DM β} (hs : s ≠ .genUuid)
    (hgood : ∀ o r, o.result s = some r → PlayerGood ext s o → Exact (judge ext) P N (k r))
    (hbad : ∀ o r, o.result s = some r → ¬PlayerGood ext s o → Spoilt (judge ext) N (k r)) :
    Exact (judge ext) P N (exec .createPlayer s >>= k) :=
  exact_exec (fun _ _ hr hx => absurd hx (not_playerThrows hr hs))
    (fun o r hr _ ho => hgood o r hr ho) fun o r hr _ ho => hbad o r hr ho

theorem uuidAt_row (row : Row) :
    uuidAt { status := .tuplesOk, nfields := 1, rows := [row] } 0 0 =
      match Uuid.ofText ((row 0).getD "").toList with
      | some uuid => pure uuid
      | none => throw :=
  rfl

theorem genUuid_exact :
    Exact (judge ext) (fun _ => True) (fun _ => False) (genUuid .createPlayer) := by
  refine exact_exec (fun o r hr hx => ?_) (fun o r hr hx ho => ?_) fun o r hr hx ho => ?_
  · cases o with
    | tuples rows =>
      obtain ⟨row, rfl, hrow⟩ := hx
      cases hr
      show Raises (uuidAt { status := .tuplesOk, nfields := 1, rows := [row] } 0 0)
      rw [uuidAt_row, hrow]
      exact raises_throw
    | throws => cases hr
    | command | error => cases hx
  · cases o with
    | tuples rows =>
      obtain ⟨row, rfl⟩ := List.length_eq_one_iff.1 ho
      cases hr
      show Exact _ _ _ (uuidAt { status := .tuplesOk, nfields := 1, rows := [row] } 0 0)
      rw [uuidAt_row]
      cases hrow : Uuid.ofText ((row 0).getD "").toList with
      | some uuid => exact exact_pure trivial
      | none => exact absurd ⟨row, rfl, hrow⟩ hx
    | command | error =>
      cases hr
      exact exact_pure trivial
    | throws => cases hr
  · cases o with
    | tuples rows =>
      cases hr
      exact spoilt_dsAssert (decide_eq_false ho)
    | command | error => exact absurd trivial ho
    | throws => cases hr

theorem uuidOrNew_exact (id : Uuid) :
    Exact (judge ext) (fun _ => True) (fun _ => False) (uuidOrNew .createPlayer id) := by
  unfold uuidOrNew
  split
  · exact genUuid_exact
  · exact exact_pure trivial

theorem vCreateNode_exact (node : Vault.Node) :
    Exact (judge ext) (· ≠ 0) (· = 0) (vCreateNode .createPlayer node) := by
  refine exact_exec_plain nofun (fun o r hr ho => ?_) fun o r hr ho => ?_
  · cases o with
    | tuples rows =>
      obtain ⟨row, rfl, hrow⟩ := ho
      cases hr
      exact exact_pure hrow
    | command | error => cases ho
    | throws => cases hr
  · cases o with
    | tuples rows =>
      cases hr
      by_cases h1 : rows.length = 1
      · obtain ⟨row, rfl⟩ := List.length_eq_one_iff.1 h1
        refine spoilt_pure ?_
        by_contra hrow
        exact ho ⟨row, rfl, hrow⟩
      · exact spoilt_dsAssert (decide_eq_false h1)
    | command | error =>
      cases hr
      exact spoilt_pure rfl
    | throws => cases hr

theorem vRefNode_exact (parentIdx childIdx ownerIdx : UInt32) :
    Exact (judge ext) (· = true) (· = false)
      (vRefNode .createPlayer parentIdx childIdx ownerIdx) := by
  refine exact_exec_plain nofun (fun o r hr ho => ?_) fun o r hr ho => ?_
  · cases o with
    | command =>
      cases hr
      exact exact_pure rfl
    | throws => cases hr
    | tuples _ | error => cases ho
  · cases o with
    | command => exact absurd rfl ho
    | throws => cases hr
    | tuples _ | error =>
      cases hr
      exact spoilt_pure rfl

theorem vRefNodes_exact (refs : List (UInt32 × UInt32)) :
    Exact (judge ext) (· = true) (· = false) (vRefNodes .createPlayer refs) := by
  induction refs with
  | nil => exact exact_pure rfl
  | cons ref refs ih =>
    refine (vRefNode_exact _ _ _).bind (fun ok hok => ?_) fun ok hok => ?_
    · rw [hok]
      exact ih
    · rw [hok]
      exact spoilt_pure rfl

/-- One step of a chain of nodes. -/
theorem exact_nodeOr {P N : β → Prop} {node : Vault.Node} {fail : β} {f : UInt32 → DM β}
    (hfail : N fail) (hf : ∀ idx, idx ≠ 0 → Exact (judge ext) P N (f idx)) :
    Exact (judge ext) P N (do
      let idx ← vCreateNode .createPlayer node
      if idx = 0 then pure fail else f idx) := by
  refine (vCreateNode_exact node).bind (fun idx hidx => ?_) fun idx hidx => ?_
  · rw [if_neg hidx]
    exact hf idx hidx
  · rw [if_pos hidx]
    exact spoilt_pure hfail

/-- Both nodes of an age are there. -/
def AgeMade (nodes : UInt32 × UInt32) : Prop := nodes.1 ≠ 0 ∧ nodes.2 ≠ 0

theorem vCreateAgeNodes_exact (age : AgeInfo) (seqNumber : Int) (flags : UInt32) :
    Exact (judge ext) AgeMade (· = (0, 0)) (vCreateAgeNodes ext .createPlayer age seqNumber flags) := by
  refine exact_nodeOr rfl fun ageNode hage => ?_
  iterate 3 refine exact_nodeOr rfl fun _ _ => ?_
  refine exact_nodeOr rfl fun ageInfoNode hinfo => ?_
  iterate 5 refine exact_nodeOr rfl fun _ _ => ?_
  refine exact_get fun s => ?_
  refine (vRefNodes_exact _).bind (fun ok hok => ?_) fun ok hok => ?_
  · rw [hok]
    refine exact_exec_plain nofun (fun o r hr ho => ?_) fun o r hr ho => ?_
    · cases o with
      | command =>
        cases hr
        exact exact_pure ⟨hage, hinfo⟩
      | throws => cases hr
      | tuples _ | error => cases ho
    · cases o with
      | command => exact absurd rfl ho
      | throws => cases hr
      | tuples _ | error =>
        cases hr
        exact spoilt_pure rfl
  · rw [hok]
    exact spoilt_pure rfl

theorem vCreateAge_exact (age : AgeInfo) (flags : UInt32) :
    Exact (judge ext) AgeMade (· = (0, 0)) (vCreateAge ext .createPlayer age flags) := by
  refine (uuidOrNew_exact age.ageId).bind (fun ageId _ => ?_) fun _ h => h.elim
  dsimp only
  split
  · refine exact_exec_plain nofun (fun o r hr ho => ?_) fun o r hr ho => ?_
    · cases o with
      | tuples rows =>
        obtain ⟨row, rfl⟩ := List.length_eq_one_iff.1 ho
        cases hr
        exact vCreateAgeNodes_exact _ _ _
      | command | error => cases ho
      | throws => cases hr
    · cases o with
      | tuples rows =>
        cases hr
        exact spoilt_dsAssert (decide_eq_false ho)
      | command | error =>
        cases hr
        exact spoilt_pure rfl
      | throws => cases hr
  · exact vCreateAgeNodes_exact _ _ _

theorem vCountAgeOwners_exact (ageInfoId : UInt32) :
    Exact (judge ext) (fun _ => True) (fun _ => False) (vCountAgeOwners ext ageInfoId) := by
  refine exact_exec_plain nofun (fun o r hr ho => ?_) fun o r hr ho => ?_
  · have hcount (parentIdx : String) : Exact (judge ext) (fun _ => True) (fun _ => False) (do
        let result ← exec .createPlayer (.countOwners parentIdx)
        if result.status ≠ .tuplesOk then return 0
        numAt result 0 0) := by
      refine exact_exec_plain nofun (fun o r hr ho => ?_) fun o r hr ho => ?_
      · cases o with
        | tuples rows =>
          obtain ⟨row, rest, rfl⟩ := List.exists_cons_of_ne_nil ho
          cases hr
          exact exact_pure trivial
        | command | error =>
          cases hr
          exact exact_pure trivial
        | throws => cases hr
      · cases o with
        | tuples rows =>
          obtain rfl : rows = [] := not_not.1 ho
          cases hr
          exact spoilt_crash
        | command | error => exact absurd trivial ho
        | throws => cases hr
    cases o with
    | tuples rows =>
      cases hr
      cases rows with
      | cons row rest => exact hcount _
      | nil =>
        have hnull : ext.nullString = true := ho.resolve_right fun h => h rfl
        show Exact _ _ _ ((if ext.nullString then pure "" else crash) >>= _)
        rw [if_pos hnull]
        exact hcount _
    | command | error =>
      cases hr
      exact exact_pure trivial
    | throws => cases hr
  · cases o with
    | tuples rows =>
      obtain ⟨hnull, hrows⟩ := not_or.1 ho
      obtain rfl : rows = [] := not_not.1 hrows
      cases hr
      show Spoilt _ _ ((if ext.nullString then pure "" else crash) >>= _)
      rw [if_neg hnull]
      exact spoilt_crash
    | command | error => exact absurd trivial ho
    | throws => cases hr

theorem findHood_exact (s : Statement) (hs : 0 < s.columns) (rows : List Row) (is : List Nat)
    (his : ∀ i ∈ is, i < rows.length) :
    Exact (judge ext) (fun _ => True) (fun _ => False)
      (findHood ext { status := .tuplesOk, nfields := s.columns, rows } is) := by
  induction is with
  | nil => exact exact_pure trivial
  | cons i is ih =>
    obtain ⟨text, h⟩ := PGresult.getvalue_isSome
      (r := { status := .tuplesOk, nfields := s.columns, rows }) (his i (List.mem_cons_self ..)) hs
    rw [findHood, numAt, h]
    refine (vCountAgeOwners_exact _).bind (fun owners _ => ?_) fun _ h => h.elim
    split
    · exact exact_pure trivial
    · exact ih fun j hj => his j (List.mem_cons_of_mem _ hj)

theorem newHood_exact : Exact (judge ext) (· ≠ 0) (· = 0) (newHood ext) := by
  refine genUuid_exact.bind (fun ageId _ => ?_) fun _ h => h.elim
  refine (vCreateAge_exact _ _).bind (fun hood hhood => ?_) fun hood hhood => ?_
  · exact exact_pure hhood.2
  · rw [hhood]
    exact spoilt_pure rfl

theorem findNeighborhood_exact :
    Exact (judge ext) (fun hood => hood.1 ≠ 0) (fun hood => hood.1 = 0) (findNeighborhood ext) := by
  refine exact_exec_plain nofun (fun o r hr ho => ?_) fun o r hr ho => ?_
  · cases o with
    | tuples rows =>
      cases hr
      refine (findHood_exact .selectHoods Nat.zero_lt_one rows _ fun i hi => List.mem_range.1 hi).bind
        (fun found _ => ?_) fun _ h => h.elim
      have hhood : Exact (judge ext) (· ≠ 0) (· = 0)
          (if found = 0 then newHood ext else pure found) := by
        split
        · exact newHood_exact
        · rename_i h
          exact exact_pure h
      refine hhood.bind (fun theHoodInfo hinfo => ?_) fun theHoodInfo hinfo => ?_
      · refine exact_exec_plain nofun (fun o r hr ho => ?_) fun o r hr ho => ?_
        · cases o with
          | tuples rows =>
            obtain ⟨row, rest, rfl⟩ := List.exists_cons_of_ne_nil ho
            cases hr
            exact exact_pure hinfo
          | command | error => cases ho
          | throws => cases hr
        · cases o with
          | tuples rows =>
            obtain rfl : rows = [] := not_not.1 ho
            cases hr
            exact spoilt_crash
          | command | error =>
            cases hr
            exact spoilt_pure rfl
          | throws => cases hr
      · -- The hood was not made, and its folder is looked for all the same.
        refine spoilt_exec nofun fun o r hr => ?_
        cases o with
        | tuples rows =>
          cases hr
          cases rows with
          | nil => exact spoilt_crash
          | cons row rest => exact spoilt_pure hinfo
        | command | error =>
          cases hr
          exact spoilt_pure rfl
        | throws => cases hr
    | command | error => cases ho
    | throws => cases hr
  · cases o with
    | tuples rows => exact absurd trivial ho
    | command | error =>
      cases hr
      exact spoilt_pure rfl
    | throws => cases hr

theorem findPublicAge1_exact (filename : String) :
    Exact (judge ext) (· ≠ 0) (· = 0) (findPublicAge1 filename) := by
  refine exact_exec_plain nofun (fun o r hr ho => ?_) fun o r hr ho => ?_
  · cases o with
    | tuples rows =>
      obtain ⟨row, rest, rfl, hrow⟩ := ho
      cases hr
      exact exact_pure hrow
    | command | error => cases ho
    | throws => cases hr
  · cases o with
    | tuples rows =>
      cases hr
      cases rows with
      | nil => exact spoilt_pure rfl
      | cons row rest =>
        refine spoilt_pure ?_
        by_contra hrow
        exact ho ⟨row, rest, rfl, hrow⟩
    | command | error =>
      cases hr
      exact spoilt_pure rfl
    | throws => cases hr

/-- **`v_create_player` makes a player exactly if all answers to it are good.** -/
theorem vCreatePlayer_exact (acctId : Uuid) (player : PlayerInfo) :
    Exact (judge ext) (fun p => p.1 ≠ 0) (fun p => p.1 = 0) (vCreatePlayer ext acctId player) := by
  refine exact_nodeOr rfl fun playerIdx hplayer => ?_
  iterate 15 refine exact_nodeOr rfl fun _ _ => ?_
  refine genUuid_exact.bind (fun ageId _ => ?_) fun _ h => h.elim
  refine (vCreateAge_exact _ _).bind (fun reltoAge hrelto => ?_) fun reltoAge hrelto => ?_
  · rw [if_neg hrelto.1]
    refine exact_exec_plain nofun (fun o r hr ho => ?_) fun o r hr ho => ?_
    · cases o with
      | tuples rows =>
        obtain ⟨row, rest, rfl⟩ := List.exists_cons_of_ne_nil ho
        cases hr
        refine Exact.bind (P := fun _ => True) (N := fun _ => False) (exact_pure trivial)
          (fun ownerFolder _ => ?_) fun _ h => h.elim
        refine Exact.bind (vRefNode_exact _ _ _) (fun ok hok => ?_) fun ok hok => ?_
        · rw [hok]
          refine findNeighborhood_exact.bind (fun hoodAge hhood => ?_) fun hoodAge hhood => ?_
          · rw [if_neg hhood]
            refine (findPublicAge1_exact _).bind (fun cityAge hcity => ?_) fun cityAge hcity => ?_
            · rw [if_neg hcity]
              refine exact_get fun s => ?_
              refine (vRefNodes_exact _).bind (fun ok hok => ?_) fun ok hok => ?_
              · rw [hok]
                exact exact_pure hplayer
              · rw [hok]
                exact spoilt_pure rfl
            · rw [if_pos hcity]
              exact spoilt_pure rfl
          · rw [if_pos hhood]
            exact spoilt_pure rfl
        · rw [hok]
          exact spoilt_pure rfl
      | command | error => cases ho
      | throws => cases hr
    · cases o with
      | tuples rows =>
        obtain rfl : rows = [] := not_not.1 ho
        cases hr
        exact spoilt_pure rfl
      | command | error =>
        cases hr
        exact spoilt_pure rfl
      | throws => cases hr
  · rw [hrelto]
    exact spoilt_pure rfl

end Judged

end Dirtsand.AuthServ
