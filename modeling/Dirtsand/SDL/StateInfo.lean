import Dirtsand.Lib.Pointwise
import Dirtsand.SDL.Element

/-!
# SDL variables and states

`SDL::Variable` and `SDL::State` (SDL/StateInfo.h, SDL/StateInfo.cpp).  A state
whose `m_data` is null is `none`.  Handles are shared in the source; here each
state has its own copy, which is the same thing as long as nothing writes to a
shared variable.

* `State.read`, `State.write` — the format of a state.
* `State.add`, `State.merge`, `State.update` — how states are combined.
* `State.fromBlob`, `State.toBlob` — blobs.
-/

namespace Dirtsand.SDL

open Lib.Reader (given left ofExcept each)
open Streams (readU8 readU16 readU32 writeU8 writeU16 writeU32)

def stupidLengthRead (max : Nat) : Read Nat :=
  if max < 0x100 then Lib.Reader.nat .eof 1
  else if max < 0x10000 then Lib.Reader.nat .eof 2
  else Lib.Reader.nat .eof 4

def stupidLengthWrite (max value : Nat) : List UInt8 :=
  if max < 0x100 then Lib.Reader.leBytes 1 value
  else if max < 0x10000 then Lib.Reader.leBytes 2 value
  else Lib.Reader.leBytes 4 value

/-- The loops of `State::read` and `Variable::read` over what a blob names, `k`
things from the `i`-th on, with the places that it names. -/
def readNamed {α : Type} {bound : Nat} (max : Nat) (useIndices : Bool)
    (body : Fin bound → α → Read α) : Nat → Nat → α → Read (α × List (Fin bound))
  | 0, _, a => pure (a, [])
  | k + 1, i, a => do
    let idx ← given (useIndices = true) (stupidLengthRead max) i
    if h : idx < bound then
      let a ← body ⟨idx, h⟩ a
      let (a, named) ← readNamed max useIndices body k (i + 1) a
      pure (a, ⟨idx, h⟩ :: named)
    else Lib.Reader.fail .malformedData

/-! ## Variables -/

def hasNotificationInfo : UInt8 := 0x02
def hasTimeStamp : UInt8 := 0x04
def sameAsDefault : UInt8 := 0x08
def hasDirtyFlag : UInt8 := 0x10
def wantTimeStamp : UInt8 := 0x20

/-- `Variable::_ref`.  `dirty` is `e_XIsDirty`, the one flag that is not saved. -/
structure Variable (κ σ : Type) (v : VarDescriptor) where
  elems : List (v.type.Elem κ σ)
  timestamp : UnifiedTime := {}
  notificationHint : String := ""
  flags : UInt8 := 0
  dirty : Bool := false

namespace Variable

variable {κ σ : Type} (C : Creatables κ) (S : Children σ) {v : VarDescriptor}

/-- The constructor. -/
def new (v : VarDescriptor) : Except StreamError (Variable κ σ v) :=
  match Elem.resize S v.typeName v.type v.size.toNat with
  | .ok elems => .ok { elems }
  | .error e => .error e

def setDefault (var : Variable κ σ v) : Variable κ σ v :=
  { var with
    elems := var.elems.map (Elem.setDefault S v.type v.default)
    flags := var.flags ||| sameAsDefault }

def isDefault (var : Variable κ σ v) : Bool :=
  v.size ≠ -1 && v.default.any fun d => var.elems.all (Elem.isDefault S v.type d)

/-! ### Reading -/

/-- The count of a variable of any length, with the array that it asks for. -/
def readCount (v : VarDescriptor) : Read (List (v.type.Elem κ σ)) := do
  let count ← readU32
  if 10000 ≤ count then Lib.Reader.fail .malformedData
  else ofExcept (Elem.resize S v.typeName v.type count.toNat)

/-- The elements, if they are not the default. -/
def readElems (elems : List (v.type.Elem κ σ)) : Read (List (v.type.Elem κ σ)) := do
  let elems ← given (v.size = -1) (readCount S v) elems
  each (Elem.read C v.type) elems

/-- `Variable::read` of a simple variable, after its flags. -/
def readSimple (now : Clock) (var : Variable κ σ v) : Read (Variable κ σ v) := do
  let timestamp ← given (var.flags &&& hasTimeStamp ≠ 0) UnifiedTime.read var.timestamp
  let rest ← left
  let wanted := var.flags &&& hasDirtyFlag ≠ 0 ∧ var.flags &&& wantTimeStamp ≠ 0
  let timestamp := if wanted then now rest.length else timestamp
  let flags := if wanted then (var.flags &&& ~~~wantTimeStamp) ||| hasTimeStamp else var.flags
  let elems ← given (flags &&& sameAsDefault = 0) (readElems C S var.elems) var.elems
  pure { var with elems, timestamp, flags }

/-- The loop over the nested states that a blob names. -/
def readChildren (now : Clock) (size : Int) (children : List σ) : Read (List σ) := do
  let stupid := if size = -1 then 0 else children.length
  let count ← stupidLengthRead stupid
  let (f, _) ← readNamed stupid (count ≠ children.length)
    (fun i f => do
      let child ← S.read now (f i)
      pure (Function.update f i child)) count 0 children.get
  pure (List.ofFn f)

/-- The elements of `e_VarStateDesc`. -/
def readNested (now : Clock) (typeName : String) (size : Int) :
    (t : VarType) → List (t.Elem κ σ) → Option (Read (List (t.Elem κ σ)))
  | .stateDesc, children => some do
    let children ← given (size = -1) (do
      let count ← readU32
      if 10000 ≤ count then Lib.Reader.fail .malformedData
      else ofExcept (Elem.resize (κ := κ) S typeName .stateDesc count.toNat)) children
    readChildren S now size children
  | _, _ => none

def readHint : Read String := do
  let _ ← readU8
  Streams.readSafeString

/-- `Variable::read`. -/
def read (now : Clock) (var : Variable κ σ v) : Read (Variable κ σ v) := do
  let contents ← readU8
  let notificationHint ← given (contents &&& hasNotificationInfo ≠ 0) readHint
    var.notificationHint
  let flags ← readU8
  let var := { var with notificationHint, flags }
  match readNested S now v.typeName v.size v.type var.elems with
  | some nested => do
    let elems ← nested
    pure { var with elems, dirty := true }
  | none => do
    let var ← readSimple C S now var
    pure { var with dirty := true }

/-! ### Writing -/

/-- What `Variable::write` leaves: it sets `e_SameAsDefault` where that is so. -/
def written (var : Variable κ σ v) : Variable κ σ v :=
  { var with flags := if var.isDefault S then var.flags ||| sameAsDefault else var.flags }

def contents (var : Variable κ σ v) : UInt8 :=
  if var.notificationHint = "" then 0 else hasNotificationInfo

/-- The nested states: all are counted, and the dirty ones are written. -/
def writeNested (size : Int) : (t : VarType) → List (t.Elem κ σ) → Option (List UInt8)
  | .stateDesc, children =>
    let stupid := if size = -1 then 0 else children.length
    some ((if size = -1 then writeU32 (UInt32.ofNat children.length) else []) ++
      (stupidLengthWrite stupid children.length ++ (children.filter S.isDirty).flatMap S.write))
  | _, _ => none

def writeElems (elems : List (v.type.Elem κ σ)) : List UInt8 :=
  (if v.size = -1 then writeU32 (UInt32.ofNat elems.length) else []) ++
    elems.flatMap (Elem.write C v.type)

def writeSimple (var : Variable κ σ v) : List UInt8 :=
  (if var.flags &&& hasTimeStamp ≠ 0 then var.timestamp.write else []) ++
    (if var.flags &&& sameAsDefault = 0 then writeElems C var.elems else [])

def writeHint (hint : String) : List UInt8 :=
  writeU8 0 ++ Streams.writeSafeString hint

/-- `Variable::write`. -/
def write (var : Variable κ σ v) : List UInt8 :=
  let var := var.written S
  writeU8 var.contents ++
  ((if var.contents &&& hasNotificationInfo ≠ 0 then writeHint var.notificationHint else []) ++
  (writeU8 var.flags ++ (writeNested S v.size v.type var.elems).getD (writeSimple C var)))

/-! ### Copying -/

/-- The elements that `Variable::copy` takes over. -/
def copied : (t : VarType) → List (t.Elem κ σ) → Except StreamError (List (t.Elem κ σ))
  | .stateDesc, children => children.mapM S.update
  | .invalid, _ => .error .crash
  | _, elems => .ok elems

/-- The array that `Variable::copy` fills, for so many elements. -/
def resized (var : Variable κ σ v) (n : Nat) : Except StreamError (List (v.type.Elem κ σ)) :=
  if v.size = -1 then Elem.resize S v.typeName v.type n else .ok var.elems

/-- `Variable::copy`. -/
def copy (var : Variable κ σ v) {w : VarDescriptor} (rhs : Variable κ σ w) :
    Except StreamError (Variable κ σ v) :=
  if h : w.type = v.type then do
    let from_ : List (v.type.Elem κ σ) := h ▸ rhs.elems
    let dest ← resized S var from_.length
    let new ← copied S v.type (from_.take dest.length)
    let dirty := if v.size = -1 then false else var.dirty
    .ok { var with elems := new ++ dest.drop new.length, dirty }
  else .error .malformedData

end Variable

/-! ## States -/

/-- `m_vars`. -/
abbrev Vars (κ σ : Type) (d : StateDescriptor) : Type :=
  (i : Fin d.vars.length) → Variable κ σ (d.vars.get i)

/-- What `State::_ref` has beside its descriptor. -/
structure StateData (κ σ : Type) (d : StateDescriptor) where
  vars : Vars κ σ d
  object : MOUL.Uoid := {}
  flags : UInt16 := 0

namespace StateData

variable {κ σ : Type} (C : Creatables κ) (S : Children σ) {d : StateDescriptor}

/-- The constructor. -/
def new (d : StateDescriptor) : Except StreamError (StateData κ σ d) :=
  match Lib.pointwise fun i => Variable.new S (d.vars.get i) with
  | .ok vars => .ok { vars := fun i => (vars i).setDefault S }
  | .error e => .error e

def setDefault (s : StateData κ σ d) : StateData κ σ d :=
  { s with vars := fun i => (s.vars i).setDefault S }

def isDefault (s : StateData κ σ d) : Bool :=
  decide (∀ i, (s.vars i).isDefault S = true)

def isDirty (s : StateData κ σ d) : Bool :=
  decide (∃ i, (s.vars i).dirty = true)

/-- `SDL_IOVERSION`. -/
def ioVersion : UInt8 := 6

/-- The body of the loops of `State::read`. -/
def readVar (now : Clock) (list : List (Fin d.vars.length)) (i : Fin list.length)
    (vars : Vars κ σ d) : Read (Vars κ σ d) := do
  let var ← (vars (list.get i)).read C S now
  pure (Function.update vars (list.get i) var)

/-- A loop of `State::read`, over the simple variables or over the others, with the
variables that the blob names. -/
def readVars (now : Clock) (list : List (Fin d.vars.length)) (vars : Vars κ σ d) :
    Read (Vars κ σ d × List Nat) := do
  let count ← stupidLengthRead d.vars.length
  let (vars, named) ←
    readNamed d.vars.length (count ≠ list.length) (readVar C S now list) count 0 vars
  pure (vars, named.map fun i => (list.get i).val)

/-- `State::read`, with the variables that the blob names. -/
def read (now : Clock) (s : StateData κ σ d) : Read (StateData κ σ d × List Nat) := do
  let flags ← readU16
  let version ← readU8
  if version ≠ ioVersion then Lib.Reader.fail .malformedData
  else
    let (vars, simple) ← readVars C S now d.simpleVars s.vars
    let (vars, nested) ← readVars C S now d.sdVars vars
    pure ({ s with vars, flags }, simple ++ nested)

/-- A loop of `State::write`.  The loop over the variables that are not simple stops
at the number of the dirty ones. -/
def writeVars (s : StateData κ σ d) (list : List (Fin d.vars.length)) (whole : Bool) :
    List UInt8 :=
  let dirty := fun i : Fin list.length => (s.vars (list.get i)).dirty
  let count := (List.finRange list.length).countP dirty
  let places := (List.finRange list.length).take (if whole then list.length else count)
  stupidLengthWrite d.vars.length count ++ (places.filter dirty).flatMap fun i : Fin list.length =>
    (if count ≠ list.length then stupidLengthWrite d.vars.length i.val else []) ++
      (s.vars (list.get i)).write C S

/-- `State::write`. -/
def write (s : StateData κ σ d) : List UInt8 :=
  writeU16 s.flags ++ (writeU8 ioVersion ++
    (writeVars C S s d.simpleVars true ++ writeVars C S s d.sdVars false))

/-- What `State::write` leaves. -/
def written (s : StateData κ σ d) : StateData κ σ d :=
  { s with vars := fun i =>
      if (s.vars i).dirty then (s.vars i).written S else s.vars i }

/-- The loop of `State::add`. -/
def add (s state : StateData κ σ d) : StateData κ σ d :=
  { s with vars := fun i => if (state.vars i).dirty then state.vars i else s.vars i }

/-- The loop of `State::merge`. -/
def merge (s state : StateData κ σ d) : StateData κ σ d :=
  { s with vars := fun i =>
      if (state.vars i).timestamp.later (s.vars i).timestamp then state.vars i else s.vars i }

/-- The loop of `State::update`, which fills the new state. -/
def carry {d' : StateDescriptor} (s : StateData κ σ d) (new : StateData κ σ d') :
    Except StreamError (StateData κ σ d') :=
  match Lib.pointwise fun i =>
      match d.find (d'.vars.get i).name with
      | none => .ok (new.vars i)
      | some vari => (new.vars i).copy S (s.vars vari) with
  | .ok vars => .ok { new with vars }
  | .error e => .error e

end StateData

/-- `SDL::State`, where `m_data` is not null. -/
structure State (κ σ : Type) where
  desc : DescriptorPtr
  data : StateData κ σ desc.desc

namespace State

variable {κ σ : Type} (C : Creatables κ) (S : Children σ) (db : DescriptorDb)

/-- The constructor. -/
def new : Option DescriptorPtr → Except StreamError (Option (State κ σ))
  | none => .ok none
  | some desc =>
    match StateData.new S desc.desc with
    | .ok data => .ok (some { desc, data })
    | .error e => .error e

/-- `add`, which throws if the descriptors are not the same one. -/
def add : Option (State κ σ) → Option (State κ σ) → Except StreamError (Option (State κ σ))
  | none, _ => .ok none
  | some _, none => .error .crash
  | some s, some state =>
    if h : state.desc = s.desc then .ok (some { s with data := s.data.add (h ▸ state.data) })
    else .error .malformedData

/-- `merge`, which refuses if the descriptors are not the same one. -/
def merge : Option (State κ σ) → Option (State κ σ) → Except StreamError (Option (State κ σ))
  | none, _ => .ok none
  | some _, none => .error .crash
  | some s, some state =>
    if h : state.desc = s.desc then .ok (some { s with data := s.data.merge (h ▸ state.data) })
    else .ok (some s)

/-- `update`, with what it returns. -/
def update (s : State κ σ) : Except StreamError (State κ σ × Bool) :=
  match db.findLatestDescriptor s.desc.desc.name with
  | none => .error .crash
  | some newdesc =>
    if newdesc = s.desc then .ok (s, false)
    else
      match StateData.new S newdesc.desc with
      | .error e => .error e
      | .ok newstate =>
        match s.data.carry S newstate with
        | .error e => .error e
        | .ok data => .ok ({ desc := newdesc, data }, true)

/-- `e_HFlagVolatile`. -/
def volatile : UInt16 := 1

/-- The end of `Create`, once the descriptor is looked up. -/
def createFor (flags : UInt16) (desc : Option DescriptorPtr) : Read (Option (State κ σ)) := do
  let state ← ofExcept (new S desc)
  match state with
  | none => pure none
  | some s =>
    let object ← given (flags &&& volatile ≠ 0) MOUL.Uoid.read s.data.object
    pure (some { s with data := { s.data with object } })

/-- `Create`. -/
def create : Read (Option (State κ σ)) := do
  let flags ← readU16
  if flags &&& 0x8000 = 0 then Lib.Reader.fail .malformedData
  else
    let name ← Streams.readSafeString
    let version ← Streams.readInt16
    createFor S flags (db.findDescriptor name version)

/-- What `FromBlob` does with a blob that is not empty, with the variables that the
blob names. -/
def parse (now : Clock) : Read (Option (State κ σ) × List Nat) := do
  let state ← create S db
  match state with
  | none => pure (none, [])
  | some s =>
    let (data, named) ← s.data.read C S now
    pure (some { s with data }, named)

/-- `FromBlob`, with what is left of the blob. -/
def fromBlob (now : Clock) (blob : List UInt8) :
    Except StreamError (Option (State κ σ) × List UInt8) :=
  if blob = [] then .ok (none, [])
  else
    match parse C S db now blob with
    | .ok ((state, _), rest) => .ok (state, rest)
    | .error e => .error e

/-- The variables that a blob names. -/
def names (now : Clock) (blob : List UInt8) : List Nat :=
  match parse C S db now blob with
  | .ok ((_, named), _) => named
  | .error _ => []

/-- `toBlob`. -/
def toBlob : Option (State κ σ) → List UInt8
  | none => []
  | some s =>
    writeU16 (if s.data.object.isNull then 0x8000 else 0x8000 ||| volatile) ++
    (Streams.writeSafeString s.desc.desc.name ++
    (Streams.writeInt16 s.desc.desc.version ++
    ((if s.data.object.isNull then [] else s.data.object.write) ++ s.data.write C S)))

end State

end Dirtsand.SDL
