import Dirtsand.SDL.VarType
import Dirtsand.Types.Values

/-!
# SDL descriptors

`SDL::VarDescriptor`, `SDL::StateDescriptor` and `SDL::DescriptorDb`
(SDL/DescriptorDb.h, SDL/DescriptorDb.cpp).  The database is the list of its
entries, and a pointer into it is the entry that it points to.

Left out: the options of a variable, which only the client reads.

* `DescriptorDb.Loaded` — what holds of the database once the descriptor files
  are loaded.
-/

namespace Dirtsand.SDL

/-! ## Descriptors -/

/-- The member of `VarDefault` that a type uses. -/
@[reducible] def VarType.Default : VarType → Type
  | .int | .byte | .short => UInt32
  | .float => FloatBits
  | .bool => Bool
  | .string => String
  | .double => DoubleBits
  | .time => UnifiedTime
  | .vector3 | .point3 => Vector3
  | .rgb | .rgba => ColorRgba
  | .quaternion => Quaternion
  | .rgb8 | .rgba8 => ColorRgba8
  | .key | .stateDesc | .creatable | .ageTimeOfDay | .invalid => Unit

instance (t : VarType) : DecidableEq t.Default := by
  cases t <;> infer_instance

/-- `VarDescriptor`.  The default is there where `m_valid` is set. -/
structure VarDescriptor where
  type : VarType
  typeName : String := ""
  name : String
  size : Int
  default : Option type.Default := none
  defaultOption : String := ""
  displayOption : String := ""
deriving DecidableEq

/-- `StateDescriptor`.  `m_varmap` holds the place of each variable as an `int`. -/
structure StateDescriptor where
  name : String
  version : Int
  vars : List VarDescriptor
  few : vars.length < 2 ^ 31
deriving DecidableEq

namespace StateDescriptor

/-- `m_varmap.find`: of two variables of one name it has the later. -/
def find (d : StateDescriptor) (name : String) : Option (Fin d.vars.length) :=
  (List.finRange d.vars.length).reverse.find? fun i => (d.vars.get i).name = name

/-- The variables of `m_simpleVars`. -/
def simpleVars (d : StateDescriptor) : List (Fin d.vars.length) :=
  (List.finRange d.vars.length).filter fun i => (d.vars.get i).type ≠ .stateDesc

/-- The variables of `m_sdVars`. -/
def sdVars (d : StateDescriptor) : List (Fin d.vars.length) :=
  (List.finRange d.vars.length).filter fun i => (d.vars.get i).type = .stateDesc

end StateDescriptor

/-! ## The database -/

/-- An entry of `s_descriptors`: the name and the version under which it stands,
and the descriptor. -/
structure DescriptorPtr where
  bucket : String
  version : Int
  desc : StateDescriptor
deriving DecidableEq

abbrev DescriptorDb := List DescriptorPtr

namespace DescriptorDb

/-- `ST::hash_i` and `ST::equal_i`, which do not look at the case of ASCII
letters. -/
def bucket (name : String) : String := String.ofList (name.toList.map Char.toLower)

/-- `s_descriptors[name][version] = desc`. -/
def insert (db : DescriptorDb) (name : String) (version : Int) (desc : StateDescriptor) :
    DescriptorDb :=
  ⟨bucket name, version, desc⟩ ::
    db.filter fun p => ¬ (p.bucket = bucket name ∧ p.version = version)

def findDescriptor (db : DescriptorDb) (name : String) (version : Int) : Option DescriptorPtr :=
  db.find? fun p => p.bucket = bucket name ∧ p.version = version

/-- The loop of `FindLatestDescriptor`. -/
def latest (newi : DescriptorPtr) : List DescriptorPtr → DescriptorPtr
  | [] => newi
  | veri :: rest => latest (if newi.version < veri.version then veri else newi) rest

def findLatestDescriptor (db : DescriptorDb) (name : String) : Option DescriptorPtr :=
  match db.filter fun p => p.bucket = bucket name with
  | [] => none
  | veri :: rest => some (latest veri rest)

/-- The loop body of `LoadDescriptorsFromFile`. -/
def loadDescriptor (db : DescriptorDb) (desc : StateDescriptor) : DescriptorDb :=
  let db := db.insert desc.name desc.version desc
  -- Keep the highest version in -1
  match db.findDescriptor desc.name (-1) with
  | some p => if p.desc.version < desc.version then db.insert desc.name (-1) desc else db
  | none => if -1 < desc.version then db.insert desc.name (-1) desc else db

/-- `LoadDescriptors`, with what the parser finds in the files: a descriptor
without a version is ignored. -/
def load (descs : List StateDescriptor) : DescriptorDb :=
  (descs.filter fun desc => 0 ≤ desc.version).foldl loadDescriptor []

/-! ## What is in the database -/

structure Loaded (db : DescriptorDb) : Prop where
  bucket : ∀ p ∈ db, p.bucket = bucket p.desc.name
  version : ∀ p ∈ db, 0 ≤ p.desc.version
  key : ∀ p ∈ db, p.version = p.desc.version ∨ p.version = -1
  unique : ∀ p ∈ db, ∀ q ∈ db, p.bucket = q.bucket → p.version = q.version → p = q
  /-- Beside the entry under -1 there is one under its version. -/
  own : ∀ p ∈ db, ∃ q ∈ db, q.bucket = p.bucket ∧ q.version = p.desc.version

variable {db : DescriptorDb} {name : String} {version : Int} {desc : StateDescriptor}
  {p q : DescriptorPtr}

theorem mem_insert (h : p ∈ db.insert name version desc) :
    p = ⟨bucket name, version, desc⟩ ∨ p ∈ db := by
  obtain rfl | h := List.mem_cons.1 h
  · exact .inl rfl
  · exact .inr (List.mem_filter.1 h).1

theorem kept_insert (name : String) (version : Int) (desc : StateDescriptor) (h : p ∈ db) :
    ∃ q ∈ db.insert name version desc, q.bucket = p.bucket ∧ q.version = p.version := by
  by_cases hp : p.bucket = bucket name ∧ p.version = version
  · exact ⟨_, List.mem_cons_self, hp.1.symm, hp.2.symm⟩
  · exact ⟨p, List.mem_cons_of_mem _ (List.mem_filter.2 ⟨h, decide_eq_true hp⟩), rfl, rfl⟩

theorem Loaded.insert (h : Loaded db) (hversion : 0 ≤ desc.version)
    (hkey : version = desc.version ∨
      version = -1 ∧ ∃ q ∈ db, q.bucket = DescriptorDb.bucket desc.name ∧ q.version = desc.version) :
    Loaded (db.insert desc.name version desc) := by
  refine ⟨fun p hp => ?_, fun p hp => ?_, fun p hp => ?_, fun p hp q hq hb hv => ?_, fun p hp => ?_⟩
  · obtain rfl | hp := mem_insert hp
    · rfl
    · exact h.bucket p hp
  · obtain rfl | hp := mem_insert hp
    · exact hversion
    · exact h.version p hp
  · obtain rfl | hp := mem_insert hp
    · exact hkey.imp id And.left
    · exact h.key p hp
  · obtain rfl | hp := List.mem_cons.1 hp
    · obtain rfl | hq := List.mem_cons.1 hq
      · rfl
      · exact absurd ⟨hb.symm, hv.symm⟩ (of_decide_eq_true (List.mem_filter.1 hq).2)
    · obtain rfl | hq := List.mem_cons.1 hq
      · exact absurd ⟨hb, hv⟩ (of_decide_eq_true (List.mem_filter.1 hp).2)
      · exact h.unique p (List.mem_filter.1 hp).1 q (List.mem_filter.1 hq).1 hb hv
  · obtain rfl | hp := mem_insert hp
    · obtain rfl | ⟨-, q, hq, hb, hv⟩ := hkey
      · exact ⟨_, List.mem_cons_self, rfl, rfl⟩
      · obtain ⟨r, hr, hrb, hrv⟩ := kept_insert desc.name version desc hq
        exact ⟨r, hr, hrb.trans hb, hrv.trans hv⟩
    · obtain ⟨q, hq, hb, hv⟩ := h.own p hp
      obtain ⟨r, hr, hrb, hrv⟩ := kept_insert desc.name version desc hq
      exact ⟨r, hr, hrb.trans hb, hrv.trans hv⟩

theorem Loaded.loadDescriptor (h : Loaded db) (hversion : 0 ≤ desc.version) :
    Loaded (db.loadDescriptor desc) := by
  have hfirst : Loaded (db.insert desc.name desc.version desc) := h.insert hversion (.inl rfl)
  have hsecond : Loaded ((db.insert desc.name desc.version desc).insert desc.name (-1) desc) :=
    hfirst.insert hversion (.inr ⟨rfl, _, List.mem_cons_self, rfl, rfl⟩)
  unfold DescriptorDb.loadDescriptor
  dsimp only
  split
  · split
    · exact hsecond
    · exact hfirst
  · split
    · exact hsecond
    · exact hfirst

theorem loaded_load (descs : List StateDescriptor) : Loaded (load descs) := by
  have hall : ∀ (ds : List StateDescriptor) (db : DescriptorDb), Loaded db →
      (∀ d ∈ ds, 0 ≤ d.version) → Loaded (ds.foldl loadDescriptor db) := by
    intro ds
    induction ds with
    | nil => exact fun db h _ => h
    | cons d ds ih =>
      intro db h hds
      exact ih _ (h.loadDescriptor (hds d List.mem_cons_self))
        fun d' hd' => hds d' (List.mem_cons_of_mem d hd')
  have hempty : Loaded [] := by
    refine ⟨fun p hp => ?_, fun p hp => ?_, fun p hp => ?_, fun p hp => ?_, fun p hp => ?_⟩
    · cases hp
    · cases hp
    · cases hp
    · cases hp
    · cases hp
  refine hall _ _ hempty fun d hd => ?_
  exact of_decide_eq_true (List.mem_filter.1 hd).2

theorem findDescriptor_mem (h : db.findDescriptor name version = some p) :
    p ∈ db ∧ p.bucket = bucket name ∧ p.version = version := by
  refine ⟨List.mem_of_find?_eq_some h, ?_⟩
  simpa using List.find?_some h

/-- An entry is found under its name and its number. -/
theorem Loaded.find (h : Loaded db) (hp : p ∈ db) :
    db.findDescriptor p.desc.name p.version = some p := by
  unfold findDescriptor
  cases hfind : db.find? fun q =>
      q.bucket = DescriptorDb.bucket p.desc.name ∧ q.version = p.version with
  | none => exact absurd (decide_eq_true ⟨h.bucket p hp, rfl⟩) (List.find?_eq_none.1 hfind p hp)
  | some q =>
    have hq : q.bucket = DescriptorDb.bucket p.desc.name ∧ q.version = p.version := by
      simpa using List.find?_some hfind
    have hmem := List.mem_of_find?_eq_some hfind
    rw [h.unique q hmem p hp (hq.1.trans (h.bucket p hp).symm) hq.2]

theorem latest_spec (p : DescriptorPtr) (ps : List DescriptorPtr) :
    latest p ps ∈ p :: ps ∧ ∀ q ∈ p :: ps, q.version ≤ (latest p ps).version := by
  induction ps generalizing p with
  | nil =>
    refine ⟨List.mem_cons_self, fun q hq => ?_⟩
    obtain rfl := List.mem_singleton.1 hq
    exact le_refl _
  | cons r ps ih =>
    rw [latest]
    split
    · rename_i hlt
      obtain ⟨hmem, hmax⟩ := ih r
      refine ⟨List.mem_cons_of_mem p hmem, fun q hq => ?_⟩
      obtain rfl | hq := List.mem_cons.1 hq
      · exact le_trans (le_of_lt hlt) (hmax r List.mem_cons_self)
      · exact hmax q hq
    · rename_i hge
      obtain ⟨hmem, hmax⟩ := ih p
      refine ⟨?_, fun q hq => ?_⟩
      · obtain heq | hmem := List.mem_cons.1 hmem
        · rw [heq]
          exact List.mem_cons_self
        · exact List.mem_cons_of_mem p (List.mem_cons_of_mem r hmem)
      · obtain rfl | hq := List.mem_cons.1 hq
        · exact hmax q List.mem_cons_self
        · obtain rfl | hq := List.mem_cons.1 hq
          · exact le_trans (not_lt.1 hge) (hmax p List.mem_cons_self)
          · exact hmax q (List.mem_cons_of_mem p hq)

theorem findLatestDescriptor_mem (h : db.findLatestDescriptor name = some p) :
    p ∈ db ∧ p.bucket = bucket name ∧
      ∀ q ∈ db, q.bucket = bucket name → q.version ≤ p.version := by
  unfold findLatestDescriptor at h
  split at h
  · cases h
  · rename_i veri rest hfilter
    obtain rfl := Option.some.inj h
    obtain ⟨hmem, hmax⟩ := latest_spec veri rest
    rw [← hfilter] at hmem hmax
    obtain ⟨hdb, hb⟩ := List.mem_filter.1 hmem
    refine ⟨hdb, by simpa using hb, fun q hq hqb => hmax q (List.mem_filter.2 ⟨hq, by simpa using hqb⟩)⟩

/-- The latest version stands under its own number. -/
theorem Loaded.latest_version (h : Loaded db) (hp : db.findLatestDescriptor name = some p) :
    p.version = p.desc.version := by
  obtain ⟨hmem, hb, hmax⟩ := findLatestDescriptor_mem hp
  obtain hkey | hkey := h.key p hmem
  · exact hkey
  · obtain ⟨q, hq, hqb, hqv⟩ := h.own p hmem
    have hle := hmax q hq (hqb.trans hb)
    have hpos := h.version p hmem
    omega

end DescriptorDb

end Dirtsand.SDL
