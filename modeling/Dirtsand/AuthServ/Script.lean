import Dirtsand.AuthServ.Asking

/-!
# Scripts

The functions that build ages and players make one insert after another, and give up at
the first statement that does not do what they want.

* `Follows` — a program follows a script: it makes the inserts of a list, or those of a part
  of it from the start.
* `follows_createNode`, `follows_refNodes`, `follows_exec`, `follows_bind` — the rules by
  which a program is seen to follow one.
-/

namespace Dirtsand.AuthServ

open Lib.Prog
open Db (Tables integer inRange inRange_eq_some storedFields)

/-! ## Databases -/

/-- A server that answers as the database does. -/
class IsDatabase (hoodUserName : outParam String)
    (serves : Tables → CallSite × Statement → QueryOutcome → Tables → Prop) : Prop where
  answers : ∀ {d q a d'}, serves d q a d' → Answers hoodUserName d q a d'

instance {hoodUserName : String} : IsDatabase hoodUserName (Succeeds hoodUserName) := ⟨.inl⟩

instance {hoodUserName : String} : IsDatabase hoodUserName (Answers hoodUserName) := ⟨id⟩

/-- Some statement fails. -/
def Failing (serves : Tables → CallSite × Statement → QueryOutcome → Tables → Prop) : Prop :=
  ∃ d q a d', serves d q a d' ∧ (a = .error ∨ a = .throws)

theorem not_failing {hoodUserName : String} : ¬Failing (Succeeds hoodUserName) := by
  rintro ⟨d, q, a, d', h, ha | ha⟩
  · exact h.not_failed.1 ha
  · exact h.not_failed.2 ha

/-- **The rule for a statement that is carried out or fails.** -/
theorem ensures_answered {hoodUserName : String}
    {serves : Tables → CallSite × Statement → QueryOutcome → Tables → Prop}
    [IsDatabase hoodUserName serves] {d : Tables} {s : DaemonState} {site : CallSite} {q : Statement}
    {post : Lib.Exit PGresult → Tables → DaemonState → List Reply → Prop}
    (htuples : ∀ rows d', Succeeds hoodUserName d (site, q) (.tuples rows) d' →
      post (.ret (rowsOf q rows)) d' s [])
    (hcommand : ∀ d', Succeeds hoodUserName d (site, q) .command d' →
      post (.ret { status := .commandOk }) d' s [])
    (herror : ∀ d', Failing serves → d.SameRows d' → post (.ret { status := .fatalError }) d' s [])
    (hthrows : ∀ d', Failing serves → d.SameRows d' → post .throw d' s []) :
    Ensures serves d s (exec site q) post := by
  refine ensures_exec ?_ ?_ ?_ ?_
  · intro rows d' h
    obtain h | ⟨h | h, -⟩ := IsDatabase.answers h
    · exact htuples rows d' h
    · cases h
    · cases h
  · intro d' h
    obtain h | ⟨h | h, -⟩ := IsDatabase.answers h
    · exact hcommand d' h
    · cases h
    · cases h
  · intro d' h
    obtain hdone | ⟨-, hsame⟩ := IsDatabase.answers h
    · exact absurd rfl hdone.not_failed.1
    · exact herror d' ⟨_, _, _, _, h, .inl rfl⟩ hsame
  · intro d' h
    obtain hdone | ⟨-, hsame⟩ := IsDatabase.answers h
    · exact absurd rfl hdone.not_failed.2
    · exact hthrows d' ⟨_, _, _, _, h, .inr rfl⟩ hsame

/-! ## Inserts -/

/-- The tables after these statements, where each is carried out. -/
def effects (d : Tables) (qs : List Statement) : Option Tables :=
  qs.foldlM (fun d q => (carryOut d q).map (·.2)) d

theorem effects_cons {d : Tables} {q : Statement} {qs : List Statement} :
    effects d (q :: qs) = ((carryOut d q).map (·.2)).bind fun d => effects d qs := rfl

theorem effects_cons_eq_some {d d' : Tables} {q : Statement} {qs : List Statement} :
    effects d (q :: qs) = some d' ↔ ∃ a d₁, carryOut d q = some (a, d₁) ∧ effects d₁ qs = some d' := by
  rw [effects_cons, Option.bind_eq_some_iff]
  constructor
  · rintro ⟨d₁, hmap, hrest⟩
    obtain ⟨⟨a, _⟩, hstep, rfl⟩ := Option.map_eq_some_iff.1 hmap
    exact ⟨a, _, hstep, hrest⟩
  · rintro ⟨a, d₁, hstep, hrest⟩
    exact ⟨d₁, Option.map_eq_some_iff.2 ⟨_, hstep, rfl⟩, hrest⟩

theorem effects_append {d : Tables} {qs qs' : List Statement} :
    effects d (qs ++ qs') = (effects d qs).bind fun d => effects d qs' :=
  List.foldlM_append

theorem effects_cons_of_carryOut {d d₁ : Tables} {q : Statement} {a : QueryOutcome}
    (h : carryOut d q = some (a, d₁)) (qs : List Statement) :
    effects d (q :: qs) = effects d₁ qs := by
  rw [effects_cons, h]
  rfl

/-- The number of a node as the daemon gets it. -/
abbrev nodeId (n : Nat) : UInt32 := UInt32.ofNat n

theorem toUInt32_of_inRange {n : Nat} {idx : Int32} (h : inRange n = some idx) :
    idx.toUInt32 = nodeId n ∧ n < 2 ^ 31 := by
  have hidx := inRange_eq_some.1 h
  have hlt := idx.toInt_lt
  refine ⟨?_, by omega⟩
  rw [← Int32.ofInt_toInt (x := idx), hidx, Int32.ofInt_eq_ofNat]
  rfl

theorem eq_ofNat_of_inRange {n : Nat} {idx : Int32} (h : inRange n = some idx) :
    idx = Int32.ofNat n := by
  rw [← Int32.ofInt_eq_ofNat, ← inRange_eq_some.1 h, Int32.ofInt_toInt]

theorem nodeId_ne_zero {n : Nat} (hpos : 0 < n) (hlt : n < 2 ^ 31) : nodeId n ≠ 0 := by
  intro h
  have hnat := congrArg UInt32.toNat h
  rw [UInt32.toNat_ofNat_of_lt' (Nat.lt_trans hlt (by decide))] at hnat
  exact absurd hnat (Nat.ne_of_gt hpos)

/-- A new node takes the next number. -/
theorem carryOut_createNode {d d' : Tables} {node : Vault.Node} {a : QueryOutcome}
    (h : carryOut d (.createNode node) = some (a, d')) : ∃ idx stored,
      inRange d.nextNode = some idx ∧ storedFields node = some stored ∧
      a = .tuples [cells [intCell idx]] ∧
      d' = { d with nodes := d.nodes ++ [{ idx, node := stored }], nextNode := d.nextNode + 1 } := by
  rw [carryOut] at h
  obtain ⟨idx, hidx, h⟩ := Option.bind_eq_some_iff.1 h
  obtain ⟨stored, hstored, h⟩ := Option.bind_eq_some_iff.1 h
  obtain ⟨_, -, h⟩ := Option.bind_eq_some_iff.1 h
  cases h
  exact ⟨idx, stored, hidx, hstored, rfl, rfl⟩

theorem carryOut_refNode {d d' : Tables} {parentIdx childIdx ownerIdx : UInt32} {a : QueryOutcome}
    (h : carryOut d (.refNode parentIdx childIdx ownerIdx) = some (a, d')) : a = .command ∧
      parentIdx.toNat < 2 ^ 31 ∧ childIdx.toNat < 2 ^ 31 ∧ ownerIdx.toNat < 2 ^ 31 ∧
      d' = { d with refs := d.refs ++ [⟨parentIdx.toInt32, childIdx.toInt32, ownerIdx.toInt32⟩] } := by
  rw [carryOut] at h
  obtain ⟨parent, hparent, h⟩ := Option.bind_eq_some_iff.1 h
  obtain ⟨child, hchild, h⟩ := Option.bind_eq_some_iff.1 h
  obtain ⟨owner, howner, h⟩ := Option.bind_eq_some_iff.1 h
  cases h
  obtain ⟨hp, rfl⟩ := Db.integer_eq_some.1 hparent
  obtain ⟨hc, rfl⟩ := Db.integer_eq_some.1 hchild
  obtain ⟨ho, rfl⟩ := Db.integer_eq_some.1 howner
  exact ⟨rfl, hp, hc, ho, rfl⟩

theorem carryOut_insertServer {d d' : Tables} {ageId : Uuid} {filename agedesc : String}
    {ageNode ageSdlNode : UInt32} {a : QueryOutcome}
    (h : carryOut d (.insertServer ageId filename agedesc ageNode ageSdlNode) = some (a, d')) :
    a = .command ∧ ∃ row, insertServerRow d ageId filename agedesc ageNode ageSdlNode false =
      some (row, d') := by
  rw [carryOut] at h
  obtain ⟨⟨row, _⟩, hrow, h⟩ := Option.bind_eq_some_iff.1 h
  cases h
  exact ⟨rfl, row, hrow⟩

theorem carryOut_insertTempServer {d d' : Tables} {instanceId : Uuid} {name : String}
    {a : QueryOutcome} (h : carryOut d (.insertTempServer instanceId name) = some (a, d')) :
    ∃ row, insertServerRow d instanceId name name 0 0 true = some (row, d') ∧
      a = .tuples [cells [intCell row.idx, intCell row.ageIdx, row.displayName]] := by
  rw [carryOut] at h
  obtain ⟨⟨row, _⟩, hrow, h⟩ := Option.bind_eq_some_iff.1 h
  cases h
  exact ⟨row, hrow, rfl⟩

theorem insertServerRow_eq_some {d d' : Tables} {ageUuid : Uuid} {ageFilename displayName : String}
    {ageIdx sdlIdx : UInt32} {temporary : Bool} {row : Db.ServerRow}
    (h : insertServerRow d ageUuid ageFilename displayName ageIdx sdlIdx temporary = some (row, d')) :
    row = { idx := Int32.ofNat d.nextServer, ageUuid
            ageFilename := (Db.varchar 64 (cstr ageFilename)).getD ""
            displayName := (Db.varchar 1024 (cstr displayName)).getD ""
            ageIdx := ageIdx.toInt32, sdlIdx := sdlIdx.toInt32, temporary } ∧
      d' = { d with servers := d.servers ++ [row], nextServer := d.nextServer + 1 } := by
  rw [insertServerRow] at h
  obtain ⟨idx, hidx, h⟩ := Option.bind_eq_some_iff.1 h
  obtain ⟨filename, hfilename, h⟩ := Option.bind_eq_some_iff.1 h
  obtain ⟨name, hname, h⟩ := Option.bind_eq_some_iff.1 h
  obtain ⟨age, hage, h⟩ := Option.bind_eq_some_iff.1 h
  obtain ⟨sdl, hsdl, h⟩ := Option.bind_eq_some_iff.1 h
  cases h
  rw [hfilename, hname, (Db.integer_eq_some.1 hage).2, (Db.integer_eq_some.1 hsdl).2,
    eq_ofNat_of_inRange hidx]
  exact ⟨rfl, rfl⟩

/-! ### What inserts add -/

def Statement.IsInsert : Statement → Prop
  | .createNode _ | .refNode .. | .insertServer .. => True
  | _ => False

/-- The rows that the inserts of a list add to `vault."Nodes"`, where the next number is `n`. -/
def newNodes : Nat → List Statement → List Db.NodeRow
  | _, [] => []
  | n, .createNode node :: qs =>
    { idx := Int32.ofNat n, node := (storedFields node).getD {} } :: newNodes (n + 1) qs
  | n, _ :: qs => newNodes n qs

theorem exists_createNode {n : Nat} {qs : List Statement} {row : Db.NodeRow}
    (h : row ∈ newNodes n qs) :
    ∃ node, .createNode node ∈ qs ∧ row.node = (storedFields node).getD {} := by
  induction qs generalizing n with
  | nil => cases h
  | cons q qs ih =>
    have hrest {n : Nat} (h : row ∈ newNodes n qs) : ∃ node, .createNode node ∈ q :: qs ∧
        row.node = (storedFields node).getD {} := by
      obtain ⟨node, hnode, hrow⟩ := ih h
      exact ⟨node, List.mem_cons_of_mem _ hnode, hrow⟩
    cases q with
    | createNode node =>
      obtain rfl | h := List.mem_cons.1 h
      · exact ⟨node, List.mem_cons_self, rfl⟩
      · exact hrest h
    | _ => exact hrest h

/-- What is kept of a node has its type and its UUID. -/
theorem stored_eq {node : Vault.Node} :
    (∀ type, ((storedFields node).getD {}).nodeType = some type → node.nodeType = some type) ∧
      ∀ uuid, ((storedFields node).getD {}).uuid_1 = some uuid → node.uuid_1 = some uuid := by
  cases h : storedFields node with
  | none => exact ⟨nofun, nofun⟩
  | some stored =>
    obtain ⟨htype, huuid, -⟩ := Db.storedFields_eq_some h
    exact ⟨fun _ h => htype.symm.trans h, fun _ h => huuid.symm.trans h⟩

/-- Those that they add to `vault."NodeRefs"`. -/
def newRefs : List Statement → List Db.RefRow
  | [] => []
  | .refNode parentIdx childIdx ownerIdx :: qs =>
    ⟨parentIdx.toInt32, childIdx.toInt32, ownerIdx.toInt32⟩ :: newRefs qs
  | _ :: qs => newRefs qs

/-- Those that they add to `game."Servers"`, where the next number is `n`. -/
def newServers : Nat → List Statement → List Db.ServerRow
  | _, [] => []
  | n, .insertServer ageId filename agedesc ageNode ageSdlNode :: qs =>
    { idx := Int32.ofNat n, ageUuid := ageId
      ageFilename := (Db.varchar 64 (cstr filename)).getD ""
      displayName := (Db.varchar 1024 (cstr agedesc)).getD ""
      ageIdx := ageNode.toInt32, sdlIdx := ageSdlNode.toInt32, temporary := false } ::
      newServers (n + 1) qs
  | n, _ :: qs => newServers n qs

/-- `d'` is `d` with the rows that the inserts add. -/
structure Grown (d d' : Tables) (qs : List Statement) : Prop where
  nodes : d'.nodes = d.nodes ++ newNodes d.nextNode qs
  refs : d'.refs = d.refs ++ newRefs qs
  servers : d'.servers = d.servers ++ newServers d.nextServer qs
  players : d'.players = d.players
  nextNode : d'.nextNode = d.nextNode + (newNodes d.nextNode qs).length

theorem grown_of_effects {d d' : Tables} {qs : List Statement} (hall : ∀ q ∈ qs, q.IsInsert)
    (h : effects d qs = some d') : Grown d d' qs := by
  induction qs generalizing d with
  | nil =>
    cases h
    exact ⟨(List.append_nil _).symm, (List.append_nil _).symm, (List.append_nil _).symm, rfl, rfl⟩
  | cons q qs ih =>
    obtain ⟨a, d₁, hq, hrest⟩ := effects_cons_eq_some.1 h
    obtain ⟨hnodes, hrefs, hservers, hplayers, hnext⟩ :=
      ih (fun q hq => hall q (List.mem_cons_of_mem _ hq)) hrest
    have hinsert := hall q List.mem_cons_self
    cases q with
    | createNode node =>
      obtain ⟨idx, stored, hidx, hstored, -, rfl⟩ := carryOut_createNode hq
      have hnew : newNodes d.nextNode (.createNode node :: qs) =
          { idx, node := stored } :: newNodes (d.nextNode + 1) qs := by
        rw [newNodes, hstored, eq_ofNat_of_inRange hidx]
        rfl
      refine ⟨?_, hrefs, hservers, hplayers, ?_⟩
      · rw [hnodes, hnew, List.append_assoc, List.singleton_append]
      · rw [hnext, hnew, List.length_cons, Nat.add_assoc, Nat.add_comm 1]
    | refNode parentIdx childIdx ownerIdx =>
      obtain ⟨-, -, -, -, rfl⟩ := carryOut_refNode hq
      refine ⟨hnodes, ?_, hservers, hplayers, hnext⟩
      rw [hrefs, newRefs, List.append_assoc, List.singleton_append]
    | insertServer ageId filename agedesc ageNode ageSdlNode =>
      obtain ⟨-, row, hinserted⟩ := carryOut_insertServer hq
      obtain ⟨hrow, rfl⟩ := insertServerRow_eq_some hinserted
      refine ⟨hnodes, hrefs, ?_, hplayers, hnext⟩
      rw [hservers, newServers, List.append_assoc, List.singleton_append, ← hrow]
    | _ => exact hinsert.elim

/-! ## Scripts -/

variable {hoodUserName : String}
  {serves : Tables → CallSite × Statement → QueryOutcome → Tables → Prop}
  {d d' : Tables} {s : DaemonState} {site : CallSite} {q : Statement} {α β : Type}

/-- The program makes the inserts `qs` and then returns what `P` says; or, where `stops` is so,
it makes those of a part of `qs` from the start, and if it returns then what `N` says. -/
def Follows (d : Tables) (s : DaemonState) (qs : List Statement) (stops : Prop) (P N : α → Prop)
    (x : Lib.Exit α) (d' : Tables) (s' : DaemonState) (out : List Reply) : Prop :=
  s' = s ∧ out = [] ∧ ((∃ a, x = .ret a ∧ P a ∧ effects d qs = some d') ∨
    stops ∧ (∀ a, x = .ret a → N a) ∧
      ∃ done d₁, done <+: qs ∧ effects d done = some d₁ ∧ d₁.SameRows d')

section Rules

variable {qs qs' : List Statement} {stops : Prop} {P N : α → Prop}

theorem follows_pure {a : α} (h : P a) :
    Ensures serves d s (pure a : DM α) (Follows d s [] stops P N) :=
  ensures_pure ⟨rfl, rfl, .inl ⟨a, rfl, h, rfl⟩⟩

/-- A program that stops at once. -/
theorem Follows.stopped {x : Lib.Exit α} (hstops : stops) (hN : ∀ a, x = .ret a → N a)
    (hsame : d.SameRows d') : Follows d s qs stops P N x d' s [] :=
  ⟨rfl, rfl, .inr ⟨hstops, hN, [], d, List.nil_prefix, rfl, hsame⟩⟩

/-- One more insert before the others. -/
theorem Follows.cons {a : QueryOutcome} {d₁ : Tables} {x : Lib.Exit α} {s' : DaemonState}
    {out : List Reply} (hq : carryOut d q = some (a, d₁))
    (h : Follows d₁ s qs stops P N x d' s' out) : Follows d s (q :: qs) stops P N x d' s' out := by
  obtain ⟨rfl, rfl, ⟨a, hx, hP, hall⟩ | ⟨hstops, hN, done, d₂, hdone, hpart, hsame⟩⟩ := h
  · exact ⟨rfl, rfl, .inl ⟨a, hx, hP, (effects_cons_of_carryOut hq qs).trans hall⟩⟩
  · refine ⟨rfl, rfl, .inr ⟨hstops, hN, q :: done, d₂, ?_, ?_, hsame⟩⟩
    · exact (List.prefix_cons_inj q).2 hdone
    · exact (effects_cons_of_carryOut hq done).trans hpart

theorem follows_cons {m : DM α} {a : QueryOutcome} {d₁ : Tables} (hq : carryOut d q = some (a, d₁))
    (h : Ensures serves d₁ s m (Follows d₁ s qs stops P N)) :
    Ensures serves d₁ s m (Follows d s (q :: qs) stops P N) :=
  h.mono fun _ _ _ _ => Follows.cons hq

/-- **The rule for a part of a script.** -/
theorem follows_bind {m : DM β} {f : β → DM α} [Steady m] [∀ b, Steady (f b)]
    {P₁ N₁ : β → Prop} (hm : Ensures serves d s m (Follows d s qs stops P₁ N₁))
    (hf : ∀ b d₁, P₁ b → effects d qs = some d₁ →
      Ensures serves d₁ s (f b) (Follows d₁ s qs' stops P N))
    (hstop : ∀ b, N₁ b → ∃ a, f b = pure a ∧ N a) :
    Ensures serves d s (m >>= f) (Follows d s (qs ++ qs') stops P N) := by
  refine ensures_bind (hm.mono fun x d₁ s₁ out hpost => ?_)
  obtain ⟨rfl, rfl, ⟨b, rfl, hP, hall⟩ | ⟨hstops, hN, done, d₂, hdone, hpart, hsame⟩⟩ := hpost
  · refine (hf b d₁ hP hall).mono fun x d' s' out hpost => ?_
    obtain ⟨rfl, rfl, ⟨a, hx, hP, hrest⟩ | ⟨hstops, hN, done, d₂, hdone, hpart, hsame⟩⟩ := hpost
    · refine ⟨rfl, rfl, .inl ⟨a, hx, hP, ?_⟩⟩
      rw [effects_append, hall]
      exact hrest
    · refine ⟨rfl, rfl, .inr ⟨hstops, hN, qs ++ done, d₂, ?_, ?_, hsame⟩⟩
      · exact (List.prefix_append_right_inj qs).2 hdone
      · rw [effects_append, hall]
        exact hpart
  · have hpre := hdone.trans (List.prefix_append qs qs')
    cases x with
    | ret b =>
      obtain ⟨a, hfb, hNa⟩ := hstop b (hN b rfl)
      show Ensures _ _ _ (f b) _
      rw [hfb]
      refine ensures_pure ⟨rfl, rfl, .inr ⟨hstops, fun a' ha' => ?_, done, d₂, hpre, hpart, hsame⟩⟩
      cases ha'
      exact hNa
    | throw => exact ⟨rfl, rfl, .inr ⟨hstops, nofun, done, d₂, hpre, hpart, hsame⟩⟩
    | crash => exact ⟨rfl, rfl, .inr ⟨hstops, nofun, done, d₂, hpre, hpart, hsame⟩⟩

/-- The rule for one insert. -/
theorem follows_bind_cons {m : DM β} {f : β → DM α} [Steady m] [∀ b, Steady (f b)]
    {P₁ N₁ : β → Prop} (hm : Ensures serves d s m (Follows d s [q] stops P₁ N₁))
    (hf : ∀ b a d₁, P₁ b → carryOut d q = some (a, d₁) →
      Ensures serves d₁ s (f b) (Follows d₁ s qs stops P N))
    (hstop : ∀ b, N₁ b → ∃ a, f b = pure a ∧ N a) :
    Ensures serves d s (m >>= f) (Follows d s (q :: qs) stops P N) := by
  rw [← List.singleton_append]
  refine follows_bind hm (fun b d₁ hb heffects => ?_) hstop
  obtain ⟨a, d₂, hq, hrest⟩ := effects_cons_eq_some.1 heffects
  cases hrest
  exact hf b a _ hb hq

/-- **The rule for a statement.** -/
theorem follows_exec [IsDatabase hoodUserName serves] {f : PGresult → DM α}
    [∀ result, Steady (f result)] {a₀ : α}
    (hstops : Failing serves → stops) (hfailed : f { status := .fatalError } = pure a₀) (hN : N a₀)
    (htuples : ∀ rows d', Succeeds hoodUserName d (site, q) (.tuples rows) d' →
      Ensures serves d' s (f (rowsOf q rows)) (Follows d s qs stops P N))
    (hcommand : ∀ d', Succeeds hoodUserName d (site, q) .command d' →
      Ensures serves d' s (f { status := .commandOk }) (Follows d s qs stops P N)) :
    Ensures serves d s (exec site q >>= f) (Follows d s qs stops P N) := by
  refine ensures_bind (ensures_answered htuples hcommand (fun d' hfails hsame => ?_)
    fun d' hfails hsame => .stopped (hstops hfails) nofun hsame)
  show Ensures _ _ _ (f { status := .fatalError }) _
  rw [hfailed]
  refine ensures_pure (.stopped (hstops hfails) (fun a ha => ?_) hsame)
  cases ha
  exact hN

theorem follows_get {f : DaemonState → DM α} [∀ s, Steady (f s)]
    (h : Ensures serves d s (f s) (Follows d s qs stops P N)) :
    Ensures serves d s (get >>= f) (Follows d s qs stops P N) :=
  ensures_bind (ensures_get h)

/-! ### Nodes and references -/

theorem vCreateNode_follows [IsDatabase hoodUserName serves] {node : Vault.Node}
    (hstops : Failing serves → stops) :
    Ensures serves d s (vCreateNode site node) (Follows d s [.createNode node] stops
      (fun idx => idx = nodeId d.nextNode) (fun idx => idx = 0)) := by
  unfold vCreateNode
  refine follows_exec hstops rfl rfl (fun rows d' h => ?_) fun d' h => ?_
  · have hq := h.changed rfl
    obtain ⟨idx, stored, hidx, -, hrows, -⟩ := carryOut_createNode hq
    cases hrows
    show Ensures _ _ _ (dsAssert _ >>= fun _ => numAt (rowsOf _ _) 0 0) _
    rw [numAt_rowsOf (v := idx) rfl Nat.zero_lt_one rfl]
    exact follows_cons hq (follows_pure (toUInt32_of_inRange hidx).1)
  · obtain ⟨_, _, -, -, ha, -⟩ := carryOut_createNode (h.changed rfl)
    cases ha

/-- **The rule for a new node.** -/
theorem follows_createNode [IsDatabase hoodUserName serves] {f : UInt32 → DM α}
    [∀ idx, Steady (f idx)] {node : Vault.Node} {n : Nat} {a₀ : α} (hn : d.nextNode = n)
    (hpos : 0 < n) (hstops : Failing serves → stops)
    (hN : N a₀) (h : ∀ d₁, d₁.nextNode = n + 1 → n < 2 ^ 31 →
      Ensures serves d₁ s (f (nodeId n)) (Follows d₁ s qs stops P N)) :
    Ensures serves d s (vCreateNode site node >>= fun idx => if idx = 0 then pure a₀ else f idx)
      (Follows d s (.createNode node :: qs) stops P N) := by
  refine follows_bind_cons (vCreateNode_follows hstops) (fun idx a d₁ hidx hq => ?_) fun idx hidx => ?_
  · obtain ⟨idx', stored, hidx', -, -, rfl⟩ := carryOut_createNode hq
    rw [hn] at hidx hidx'
    subst hidx
    obtain ⟨-, hlt⟩ := toUInt32_of_inRange hidx'
    rw [if_neg (nodeId_ne_zero hpos hlt)]
    exact h _ (congrArg (· + 1) hn) hlt
  · exact ⟨a₀, if_pos hidx, hN⟩

theorem vRefNode_follows [IsDatabase hoodUserName serves] {parentIdx childIdx ownerIdx : UInt32}
    (hstops : Failing serves → stops) :
    Ensures serves d s (vRefNode site parentIdx childIdx ownerIdx)
      (Follows d s [.refNode parentIdx childIdx ownerIdx] stops (fun ok => ok = true)
        (fun ok => ok = false)) := by
  unfold vRefNode
  refine follows_exec hstops rfl rfl (fun rows d' h => ?_) fun d' h => ?_
  · obtain ⟨ha, -⟩ := carryOut_refNode (h.changed rfl)
    cases ha
  · exact follows_cons (h.changed rfl) (follows_pure rfl)

/-- The statements of `v_ref_node` for these references, which have no owner. -/
def refInserts (refs : List (UInt32 × UInt32)) : List Statement :=
  refs.map fun (parentIdx, childIdx) => .refNode parentIdx childIdx 0

theorem vRefNodes_follows [IsDatabase hoodUserName serves] {refs : List (UInt32 × UInt32)}
    (hstops : Failing serves → stops) :
    Ensures serves d s (vRefNodes site refs) (Follows d s (refInserts refs) stops
      (fun ok => ok = true) (fun ok => ok = false)) := by
  induction refs generalizing d with
  | nil => exact follows_pure rfl
  | cons ref refs ih =>
    unfold vRefNodes
    rw [refInserts, List.map_cons]
    refine follows_bind_cons (vRefNode_follows hstops) (fun ok a d₁ hok _ => ?_) fun ok hok => ?_
    · subst hok
      exact ih
    · subst hok
      exact ⟨false, rfl, rfl⟩

/-- **The rule for references**, and for what comes after them. -/
theorem follows_refNodes [IsDatabase hoodUserName serves] {refs : List (UInt32 × UInt32)}
    {m : DM α} [Steady m] {a₀ : α} (hstops : Failing serves → stops) (hN : N a₀)
    (h : ∀ d₁, effects d (refInserts refs) = some d₁ →
      Ensures serves d₁ s m (Follows d₁ s qs stops P N)) :
    Ensures serves d s (vRefNodes site refs >>= fun ok => if !ok then pure a₀ else m)
      (Follows d s (refInserts refs ++ qs) stops P N) := by
  refine follows_bind (vRefNodes_follows hstops) (fun ok d₁ hok heffects => ?_) fun ok hok => ?_
  · subst hok
    exact h d₁ heffects
  · subst hok
    exact ⟨a₀, rfl, hN⟩

theorem follows_insertServer [IsDatabase hoodUserName serves] {ageId : Uuid}
    {filename agedesc : String} {ageNode ageSdlNode : UInt32} {a a₀ : α}
    (hstops : Failing serves → stops) (hN : N a₀) (hP : P a) :
    Ensures serves d s (do
      let result ← exec site (.insertServer ageId filename agedesc ageNode ageSdlNode)
      if result.status ≠ .commandOk then pure a₀ else pure a)
      (Follows d s [.insertServer ageId filename agedesc ageNode ageSdlNode] stops P N) := by
  refine follows_exec hstops rfl hN (fun rows d' h => ?_) fun d' h => ?_
  · obtain ⟨ha, -⟩ := carryOut_insertServer (h.changed rfl)
    cases ha
  · exact follows_cons (h.changed rfl) (follows_pure hP)

end Rules

/-! ### Scripts that go through -/

section Through

variable {qs : List Statement} {x : Lib.Exit α} {s' : DaemonState} {out : List Reply} {d₂ : Tables}

theorem through_createNode {f : UInt32 → DM α} {node : Vault.Node} {n : Nat} {a₀ : α}
    (hn : d.nextNode = n) (hpos : 0 < n) (hall : effects d (.createNode node :: qs) = some d₂)
    (h : ∀ d₁, d₁.nextNode = n + 1 → effects d₁ qs = some d₂ →
      Yields (Succeeds hoodUserName) d₁ s (f (nodeId n)) x d' s' out) :
    Yields (Succeeds hoodUserName) d s
      (vCreateNode site node >>= fun idx => if idx = 0 then pure a₀ else f idx) x d' s' out := by
  obtain ⟨a, d₁, hq, hrest⟩ := effects_cons_eq_some.1 hall
  obtain ⟨idx, stored, hidx, -, rfl, hd₁⟩ := carryOut_createNode hq
  obtain ⟨hid, hlt⟩ := toUInt32_of_inRange hidx
  rw [hn] at hid hlt
  have hcreate : Yields (Succeeds hoodUserName) d s (vCreateNode site node) (.ret (nodeId n)) d₁ s
      [] := by
    unfold vCreateNode
    refine (yields_exec (.change hq)).bind ?_
    show Yields _ _ _ (dsAssert _ >>= fun _ => numAt (rowsOf _ _) 0 0) _ _ _ _
    rw [numAt_rowsOf (v := idx) rfl Nat.zero_lt_one rfl, hid]
    exact yields_pure _
  refine hcreate.bind ?_
  show Yields _ _ _ (if nodeId n = 0 then _ else _) _ _ _ _
  rw [if_neg (nodeId_ne_zero hpos hlt)]
  refine h d₁ ?_ hrest
  rw [hd₁, ← hn]

theorem yields_command (h : Succeeds hoodUserName d (site, q) .command d') :
    Yields (Succeeds hoodUserName) d s (exec site q) (.ret { status := .commandOk }) d' s [] := by
  rw [exec_eq]
  exact (yields_ask h).bind (yields_pure _)

theorem vRefNode_yields {parentIdx childIdx ownerIdx : UInt32} {a : QueryOutcome}
    (hq : carryOut d (.refNode parentIdx childIdx ownerIdx) = some (a, d')) :
    Yields (Succeeds hoodUserName) d s (vRefNode site parentIdx childIdx ownerIdx) (.ret true) d' s
      [] := by
  obtain ⟨rfl, -⟩ := carryOut_refNode hq
  unfold vRefNode
  exact (yields_command (.change hq)).bind (yields_pure true)

theorem through_refNodes {refs : List (UInt32 × UInt32)} {m : DM α} {a₀ : α}
    (hall : effects d (refInserts refs ++ qs) = some d₂)
    (h : ∀ d₁, effects d₁ qs = some d₂ → Yields (Succeeds hoodUserName) d₁ s m x d' s' out) :
    Yields (Succeeds hoodUserName) d s
      (vRefNodes site refs >>= fun ok => if !ok then pure a₀ else m) x d' s' out := by
  rw [effects_append] at hall
  obtain ⟨d₁, hrefs, hrest⟩ := Option.bind_eq_some_iff.1 hall
  suffices hrefs : Yields (Succeeds hoodUserName) d s (vRefNodes site refs) (.ret true) d₁ s [] from
    hrefs.bind (h d₁ hrest)
  clear hall hrest h
  induction refs generalizing d with
  | nil =>
    cases hrefs
    exact yields_pure true
  | cons ref refs ih =>
    obtain ⟨a, d₃, hq, hrest⟩ := effects_cons_eq_some.1 hrefs
    unfold vRefNodes
    exact (vRefNode_yields hq).bind (ih hrest)

end Through

/-! ## New UUIDs -/

/-- A UUID that nothing in the tables has. -/
structure Fresh (d : Tables) (uuid : Uuid) : Prop where
  notNull : uuid.isNull = false
  servers : ∀ row ∈ d.servers, row.ageUuid ≠ uuid
  nodes : ∀ row ∈ d.nodes, row.node.uuid_1 ≠ some uuid

/-- What `gen_uuid` returns: a new UUID, or none where the statement fails. -/
def NewUuid (serves : Tables → CallSite × Statement → QueryOutcome → Tables → Prop) (d : Tables)
    (uuid : Uuid) : Prop :=
  Fresh d uuid ∨ Failing serves ∧ uuid = .null

theorem Succeeds.genUuid_eq {a : QueryOutcome} (h : Succeeds hoodUserName d (site, .genUuid) a d') :
    d' = d ∧ ∃ uuid, Fresh d uuid ∧ a = .tuples [cells [uuidCell uuid]] := by
  cases h with
  | genUuid hnull hservers hnodes => exact ⟨rfl, _, ⟨hnull, hservers, hnodes⟩, rfl⟩
  | select h _ => cases h
  | change h => cases h
  | read _ h | write h => cases h

theorem uuidAt_uuidCell (uuid : Uuid) :
    uuidAt (rowsOf .genUuid [cells [uuidCell uuid]]) 0 0 = pure uuid := by
  have hvalue : (rowsOf .genUuid [cells [uuidCell uuid]]).getvalue 0 0 = some (uuidCell uuid) :=
    getvalue_rowsOf rfl Nat.zero_lt_one rfl
  have htext : Uuid.ofText (uuidCell uuid).toList = some uuid := by
    rw [uuidCell, String.toList_ofList, Uuid.ofText_toText]
  simp only [uuidAt, hvalue, htext]

/-- Any new UUID may be returned. -/
theorem genUuid_yields {uuid : Uuid} (h : Fresh d uuid) :
    Yields (Succeeds hoodUserName) d s (genUuid site) (.ret uuid) d s [] := by
  unfold genUuid
  refine (yields_exec (.genUuid h.notNull h.servers h.nodes)).bind ?_
  show Yields _ _ _ (dsAssert _ >>= fun _ => uuidAt (rowsOf _ _) 0 0) _ _ _ _
  rw [uuidAt_uuidCell]
  exact yields_pure uuid

theorem genUuid_ensures [IsDatabase hoodUserName serves] : Ensures serves d s (genUuid site)
    fun x d' s' out => s' = s ∧ out = [] ∧ d.SameRows d' ∧ (d' = d ∨ Failing serves) ∧
      ((∃ uuid, x = .ret uuid ∧ NewUuid serves d uuid) ∨ x = .throw ∧ Failing serves) := by
  unfold genUuid
  refine ensures_bind (ensures_answered (fun rows d' h => ?_) (fun d' h => ?_)
    (fun d' hfails hsame => ?_) fun d' hfails hsame => ?_)
  · obtain ⟨rfl, uuid, hfresh, ha⟩ := h.genUuid_eq
    rw [QueryOutcome.tuples.inj ha]
    show Ensures _ _ _ (dsAssert _ >>= fun _ => uuidAt (rowsOf _ _) 0 0) _
    rw [uuidAt_uuidCell]
    exact ensures_pure ⟨rfl, rfl, .refl _, .inl rfl, .inl ⟨uuid, rfl, .inl hfresh⟩⟩
  · obtain ⟨-, _, -, ha⟩ := h.genUuid_eq
    cases ha
  · exact ensures_pure ⟨rfl, rfl, hsame, .inr hfails, .inl ⟨_, rfl, .inr ⟨hfails, rfl⟩⟩⟩
  · exact ⟨rfl, rfl, hsame, .inr hfails, .inr ⟨rfl, hfails⟩⟩

end Dirtsand.AuthServ
