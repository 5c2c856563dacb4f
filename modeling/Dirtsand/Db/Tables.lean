import Dirtsand.AuthServ.VaultTypes
import Dirtsand.Types.Text

/-!
# The tables

The tables of db/dbinit.sql that the daemon writes, with the sequences that number
their rows, and what PostgreSQL makes of the texts that it is given for a column.

The rows of `vault."Nodes"` are kept as the fields of the node; their times are left
out, and so are the numbers of the rows of `vault."NodeRefs"` and `auth."Players"`,
which no statement reads.
-/

namespace Dirtsand.Db

/-! ## Values -/

/-- The text of a number, as an `integer`; PostgreSQL refuses what is out of its range. -/
def integer (n : UInt32) : Option Int32 :=
  if n.toNat < 2 ^ 31 then some n.toInt32 else none

/-- The value of an arithmetic expression of type `integer`. -/
def inRange (v : Int) : Option Int32 :=
  if -2 ^ 31 ≤ v ∧ v < 2 ^ 31 then some (Int32.ofInt v) else none

/-- What a column of type `character varying(n)` keeps of a text: one that is too long
is refused, unless all that is too much of it is spaces. -/
def varchar (n : Nat) (text : String) : Option String :=
  if text.length ≤ n then some text
  else if (text.toList.drop n).all (· = ' ') then some (String.ofList (text.toList.take n))
  else none

theorem integer_eq_some {n : UInt32} {v : Int32} :
    integer n = some v ↔ n.toNat < 2 ^ 31 ∧ n = v.toUInt32 := by
  rw [integer]
  split
  · rename_i h
    rw [Option.some_inj, and_iff_right h]
    constructor
    · rintro rfl
      rfl
    · rintro rfl
      rfl
  · rename_i h
    exact iff_of_false (fun h => nomatch h) fun h' => h h'.1

theorem inRange_eq_some {v : Int} {w : Int32} : inRange v = some w ↔ w.toInt = v := by
  rw [inRange]
  constructor
  · intro h
    split at h
    · rename_i hv
      rw [← Option.some.inj h]
      exact Int32.toInt_ofInt_of_le hv.1 hv.2
    · cases h
  · rintro rfl
    rw [if_pos ⟨w.le_toInt, w.toInt_lt⟩, Int32.ofInt_toInt]

theorem length_of_varchar {n : Nat} {text kept : String} (h : varchar n text = some kept) :
    kept.length ≤ n := by
  rw [varchar] at h
  split at h
  · rename_i hle
    rwa [← Option.some.inj h]
  · split at h
    · rw [← Option.some.inj h, String.length_ofList, List.length_take]
      exact Nat.min_le_left _ _
    · cases h

/-! ## Rows -/

/-- `vault."Nodes"`. -/
structure NodeRow where
  idx : Int32
  node : Vault.Node
deriving DecidableEq

/-- `vault."NodeRefs"`. -/
structure RefRow where
  parentIdx : Int32
  childIdx : Int32
  ownerIdx : Int32
deriving DecidableEq

/-- `game."Servers"`. -/
structure ServerRow where
  idx : Int32
  ageUuid : Uuid
  ageFilename : String
  displayName : String
  ageIdx : Int32
  sdlIdx : Int32
  temporary : Bool
deriving DecidableEq

/-- `auth."Players"`. -/
structure PlayerRow where
  acctUuid : Uuid
  playerIdx : Int32
  playerName : String
  avatarShape : String
  explorer : Int32
deriving DecidableEq

/-- `auth."Scores"`. -/
structure ScoreRow where
  idx : Int32
  ownerIdx : Int32
  type : Int32
  name : String
  points : Int32
deriving DecidableEq

/-- The tables, and what their sequences give next. -/
structure Tables where
  nodes : List NodeRow := []
  refs : List RefRow := []
  servers : List ServerRow := []
  players : List PlayerRow := []
  scores : List ScoreRow := []
  nextNode : Nat := 10001
  nextServer : Nat := 1
  nextScore : Nat := 1
deriving DecidableEq

/-- The tables hold the same rows.  A statement that failed may have used up numbers of
the sequences. -/
structure Tables.SameRows (d d' : Tables) : Prop where
  nodes : d'.nodes = d.nodes
  refs : d'.refs = d.refs
  servers : d'.servers = d.servers
  players : d'.players = d.players
  scores : d'.scores = d.scores
  nextNode : d.nextNode ≤ d'.nextNode
  nextServer : d.nextServer ≤ d'.nextServer
  nextScore : d.nextScore ≤ d'.nextScore

theorem Tables.SameRows.refl (d : Tables) : d.SameRows d :=
  ⟨rfl, rfl, rfl, rfl, rfl, Nat.le_refl _, Nat.le_refl _, Nat.le_refl _⟩

theorem Tables.SameRows.trans {d d₁ d' : Tables} (h : d.SameRows d₁) (h' : d₁.SameRows d') :
    d.SameRows d' :=
  ⟨h'.nodes.trans h.nodes, h'.refs.trans h.refs, h'.servers.trans h.servers,
    h'.players.trans h.players, h'.scores.trans h.scores, h.nextNode.trans h'.nextNode,
    h.nextServer.trans h'.nextServer, h.nextScore.trans h'.nextScore⟩

/-! ## What is kept of a node -/

/-- What a column that may be null keeps. -/
def kept {α β : Type} (keep : α → Option β) : Option α → Option (Option β)
  | none => some none
  | some value => (keep value).map some

/-- The fields that a row keeps of a node, where all columns take theirs.  The index and
the times come from elsewhere. -/
def storedFields (node : Vault.Node) : Option Vault.Node := do
  let name := kept fun text => varchar 64 (cstr text)
  let text := kept fun text => varchar 1024 (cstr text)
  let number := kept fun n => (integer n).map Int32.toUInt32
  return {
    createAgeName := ← name node.createAgeName
    createAgeUuid := node.createAgeUuid
    creatorUuid := node.creatorUuid
    creatorIdx := ← number node.creatorIdx
    nodeType := node.nodeType
    int32_1 := node.int32_1
    int32_2 := node.int32_2
    int32_3 := node.int32_3
    int32_4 := node.int32_4
    uint32_1 := ← number node.uint32_1
    uint32_2 := ← number node.uint32_2
    uint32_3 := ← number node.uint32_3
    uint32_4 := ← number node.uint32_4
    uuid_1 := node.uuid_1
    uuid_2 := node.uuid_2
    uuid_3 := node.uuid_3
    uuid_4 := node.uuid_4
    string64_1 := ← name node.string64_1
    string64_2 := ← name node.string64_2
    string64_3 := ← name node.string64_3
    string64_4 := ← name node.string64_4
    string64_5 := ← name node.string64_5
    string64_6 := ← name node.string64_6
    iString64_1 := ← name node.iString64_1
    iString64_2 := ← name node.iString64_2
    text_1 := ← text node.text_1
    text_2 := ← text node.text_2
    blob_1 := node.blob_1
    blob_2 := node.blob_2 }

theorem storedFields_eq_some {node stored : Vault.Node} (h : storedFields node = some stored) :
    stored.nodeType = node.nodeType ∧ stored.uuid_1 = node.uuid_1 ∧ stored.int32_1 = node.int32_1 := by
  unfold storedFields at h
  -- One bind for each column that may refuse its value.
  iterate 16 obtain ⟨_, -, h⟩ := Option.bind_eq_some_iff.1 h
  cases h
  exact ⟨rfl, rfl, rfl⟩

/-- `UPDATE vault."Nodes" SET ...` with the fields that `node` has. -/
def assignFields (old node : Vault.Node) : Vault.Node :=
  { createAgeName := node.createAgeName <|> old.createAgeName
    createAgeUuid := node.createAgeUuid <|> old.createAgeUuid
    creatorUuid := node.creatorUuid <|> old.creatorUuid
    creatorIdx := node.creatorIdx <|> old.creatorIdx
    nodeType := node.nodeType <|> old.nodeType
    int32_1 := node.int32_1 <|> old.int32_1
    int32_2 := node.int32_2 <|> old.int32_2
    int32_3 := node.int32_3 <|> old.int32_3
    int32_4 := node.int32_4 <|> old.int32_4
    uint32_1 := node.uint32_1 <|> old.uint32_1
    uint32_2 := node.uint32_2 <|> old.uint32_2
    uint32_3 := node.uint32_3 <|> old.uint32_3
    uint32_4 := node.uint32_4 <|> old.uint32_4
    uuid_1 := node.uuid_1 <|> old.uuid_1
    uuid_2 := node.uuid_2 <|> old.uuid_2
    uuid_3 := node.uuid_3 <|> old.uuid_3
    uuid_4 := node.uuid_4 <|> old.uuid_4
    string64_1 := node.string64_1 <|> old.string64_1
    string64_2 := node.string64_2 <|> old.string64_2
    string64_3 := node.string64_3 <|> old.string64_3
    string64_4 := node.string64_4 <|> old.string64_4
    string64_5 := node.string64_5 <|> old.string64_5
    string64_6 := node.string64_6 <|> old.string64_6
    iString64_1 := node.iString64_1 <|> old.iString64_1
    iString64_2 := node.iString64_2 <|> old.iString64_2
    text_1 := node.text_1 <|> old.text_1
    text_2 := node.text_2 <|> old.text_2
    blob_1 := node.blob_1 <|> old.blob_1
    blob_2 := node.blob_2 <|> old.blob_2 }

end Dirtsand.Db
