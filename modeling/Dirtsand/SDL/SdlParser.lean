import Dirtsand.SDL.Element
import Dirtsand.SDL.Lexer

/-!
# The SDL parser

`parse_default` and `SDL::Parser::parse` (SDL/SdlParser.cpp), over the tokens that
`next` returns, with the end of the file behind them.  What is put back stands in
front again, and the C library's conversions of numbers are a parameter.

Left out: the messages.

* `parseDefault_spec` — what `parse_default` makes of the values of a `DEFAULT`.
* `default_law_iff` — for which it reads none that is not there, and lets no others
  pass.
-/

namespace Dirtsand.SDL

/-! ## Variables and descriptors -/

/-- `VarDescriptor::clear`. -/
def VarDescriptor.clear : VarDescriptor := { type := .invalid, name := "", size := 0 }

/-- `StateDescriptor`, with its `m_varmap`. -/
structure DescBuffer where
  name : String := ""
  version : Int := -1
  vars : List VarDescriptor := []
  varmap : String → Option Int := fun _ => none

/-- `strtol`, `strtoul`, `strtof` and `strtod`. -/
structure Conversions where
  strtol : String → Int64
  strtoul : String → UInt64
  strtof : String → FloatBits
  strtod : String → DoubleBits

inductive ParseState where
  | file
  | statedescId | statedescBr | statedesc
  | versionN
  | varTp | varId | varSz | var
  | defaultEq | default
  | defaultOptionEq | defaultOption
  | displayOptionEq | displayOption
  | szN | szX
  | lsI | lsX
deriving DecidableEq

/-- The tokens that are no mark of an end. -/
def Token.counts (tok : Token) : Bool := tok ≠ .eof && tok ≠ .error

def weight (toks : List Token) : Nat := toks.countP Token.counts

theorem weight_lt {tok : Token} (h : tok.counts = true) (rest : List Token) :
    weight rest < weight (tok :: rest) := by
  simp [weight, h]

theorem weight_error (rest : List Token) : weight (.error :: rest) = weight rest := by
  simp [weight, Token.counts]

/-! ## Defaults -/

/-- The switch of `parse_default` over lists and parens: the next state, and whether the token is
a value. -/
def listState : ParseState → Token → Option (ParseState × Bool)
  | .default, .punct '(' => some (.lsI, false)
  | .lsX, .punct ')' => some (.var, false)
  | .lsX, .punct ',' => some (.lsI, false)
  | .lsI, .numeric _ => some (.lsX, true)
  | .default, .numeric _ => some (.var, true)
  | .default, .ident _ => some (.var, true)
  | .default, .quoted _ => some (.var, true)
  | _, _ => none

/-- The loop of `parse_default`: its state, the values and the tokens that are left. -/
def collect (state : ParseState) (values toks : List Token) :
    ParseState × List Token × List Token :=
  if state = .var then (state, values, toks)
  else
    match toks with
    | [] => (state, values, [.eof])
    | tok :: rest =>
      if tok.counts then
        match listState state tok with
        | some (state, isValue) => collect state (if isValue then values ++ [tok] else values) rest
        | none => collect state values (.error :: rest)
      else (state, values, tok :: rest)
termination_by weight toks
decreasing_by
  · exact weight_lt (by assumption) rest
  · rw [weight_error]
    exact weight_lt (by assumption) rest

/-- `CHECK_PARAMS`: what it pushes. -/
def checkParams (count : Nat) (values : List Token) : List Token :=
  if values.length ≠ count then [.error] else []

/-- The types with one value: what is pushed, and the default if one is set. -/
def param {α : Type} (accept : Token → Option α) (values : List Token) :
    Option (List Token × Option α) :=
  match values with
  | [] => none
  | v :: _ =>
    match accept v with
    | some d => some (checkParams 1 values, some d)
    | none => some (.error :: checkParams 1 values, none)

/-- The texts of so many values, as long as they are numbers. -/
def numbers : Nat → List Token → Option (Option (List String))
  | 0, _ => some (some [])
  | _ + 1, [] => none
  | n + 1, .numeric value :: values => (numbers n values).map (Option.map (value :: ·))
  | _ + 1, _ :: _ => some none

/-- The types with several values. -/
def params {α : Type} (count : Nat) (f : List String → Option α) (values : List Token) :
    Option (List Token × Option α) :=
  match numbers count values with
  | none => none
  | some none => some (.error :: checkParams count values, none)
  | some (some texts) => some (checkParams count values, f texts)

section

variable (C : Conversions)

def acceptBool : Token → Option Bool
  | .numeric value => some (C.strtol value ≠ 0)
  | .ident value => if value = "true" then some true else if value = "false" then some false else none
  | _ => none

def acceptNumber {α : Type} (f : String → α) : Token → Option α
  | .numeric value => some (f value)
  | _ => none

def acceptString : Token → Option String
  | .ident value => some value
  | .quoted value => some value
  | _ => none

def acceptKey : Token → Option Unit
  | .ident value => if value = "nil" then some () else none
  | _ => none

def acceptInt (value : String) : UInt32 := (C.strtol value).toInt32.toUInt32

def vectorOf : List String → Option Vector3
  | [x, y, z] => some ⟨C.strtof x, C.strtof y, C.strtof z⟩
  | _ => none

def quatOf : List String → Option Quaternion
  | [x, y, z, w] => some ⟨C.strtof x, C.strtof y, C.strtof z, C.strtof w⟩
  | _ => none

def rgbOf : List String → Option ColorRgba
  | [r, g, b] => some ⟨C.strtof r, C.strtof g, C.strtof b, Elem.oneBits⟩
  | _ => none

def rgbaOf : List String → Option ColorRgba
  | [r, g, b, a] => some ⟨C.strtof r, C.strtof g, C.strtof b, C.strtof a⟩
  | _ => none

def rgb8Of : List String → Option ColorRgba8
  | [r, g, b] => some ⟨(C.strtoul r).toUInt8, (C.strtoul g).toUInt8, (C.strtoul b).toUInt8, 255⟩
  | _ => none

def rgba8Of : List String → Option ColorRgba8
  | [r, g, b, a] =>
    some ⟨(C.strtoul r).toUInt8, (C.strtoul g).toUInt8, (C.strtoul b).toUInt8, (C.strtoul a).toUInt8⟩
  | _ => none

/-- The switch of `parse_default` over the type: what is pushed, and the default if one is set.
It fails where a value is read that is not there. -/
def switchType : (t : VarType) → List Token → Option (List Token × Option t.Default)
  | .bool, values => param (acceptBool C) values
  | .int, values | .byte, values | .short, values => param (acceptNumber (acceptInt C)) values
  | .float, values => param (acceptNumber C.strtof) values
  | .double, values => param (acceptNumber C.strtod) values
  | .string, values => param acceptString values
  | .time, values =>
    param (acceptNumber fun value => (⟨(C.strtoul value).toUInt32, 0⟩ : UnifiedTime)) values
  | .vector3, values | .point3, values => params 3 (vectorOf C) values
  | .quaternion, values => params 4 (quatOf C) values
  | .rgb, values => params 3 (rgbOf C) values
  | .rgba, values => params 4 (rgbaOf C) values
  | .rgb8, values => params 3 (rgb8Of C) values
  | .rgba8, values => params 4 (rgba8Of C) values
  | .key, values => param acceptKey values
  -- "Unexpected variable type"
  | .stateDesc, _ | .creatable, _ | .ageTimeOfDay, _ | .invalid, _ => some ([], some ())

/-- `parse_default`: its state, the variable and the tokens that are left.  (Where nothing is set
the default that is valid now is thrown away with the variable.) -/
def parseDefault (v : VarDescriptor) (toks : List Token) :
    Option (ParseState × VarDescriptor × List Token) :=
  match collect .default [] toks with
  | (.var, values, rest) =>
    match switchType C v.type values with
    | none => none
    | some (pushed, d) => some (.var, { v with default := d.or v.default }, pushed ++ rest)
  | (state, _, rest) => some (state, v, rest)

end

/-! ## The parser -/

/-- The variables of `parse`. -/
structure Parsing where
  descriptors : List DescBuffer := []
  descBuffer : DescBuffer := {}
  varBuffer : VarDescriptor := .clear
  state : ParseState := .file

namespace Parsing

/-- `m_vars.push_back(varBuffer)`, for the variable that is being read. -/
def flush (s : Parsing) : Parsing :=
  { s with descBuffer := { s.descBuffer with vars := s.descBuffer.vars ++ [s.varBuffer] } }

/-- The loop that fills `m_varmap`. -/
def mapVars (vars : List VarDescriptor) (varmap : String → Option Int) : String → Option Int :=
  vars.zipIdx.foldl (fun m (v, i) => Function.update m v.name (some i)) varmap

/-- The end of a descriptor. -/
def done (s : Parsing) : Parsing :=
  let desc := { s.descBuffer with varmap := mapVars s.descBuffer.vars s.descBuffer.varmap }
  { s with descBuffer := desc, descriptors := s.descriptors ++ [desc], state := .file }

end Parsing

section

variable (C : Conversions)

/-- A turn of `parse` that reads the token only. -/
def turnState (s : Parsing) : Token → Option Parsing
  | .punct c =>
    if c = ';' then some s
    else if c = '=' then
      match s.state with
      | .defaultEq => some { s with state := .default }
      | .defaultOptionEq => some { s with state := .defaultOption }
      | .displayOptionEq => some { s with state := .displayOption }
      | _ => none
    else if c = '[' then
      match s.state with
      | .varSz => some { s with state := .szN }
      | _ => none
    else if c = ']' then
      match s.state with
      | .szN => some { s with varBuffer := { s.varBuffer with size := -1 }, state := .var }
      | .szX => some { s with state := .var }
      | _ => none
    else if c = '{' then
      match s.state with
      | .statedescBr => some { s with state := .statedesc }
      | _ => none
    else if c = '}' then
      match s.state with
      | .var => some s.flush.done
      | .statedesc => some s.done
      | _ => none
    else none
  | .statedesc =>
    match s.state with
    | .file => some { s with descBuffer := {}, state := .statedescId }
    | _ => none
  | .version =>
    match s.state with
    | .var => some { s.flush with state := .versionN }
    | .statedesc => some { s with state := .versionN }
    | _ => none
  | .var =>
    match s.state with
    | .var => some { s.flush with varBuffer := .clear, state := .varTp }
    | .statedesc => some { s with varBuffer := .clear, state := .varTp }
    | _ => none
  -- `VAR` has cleared the default.
  | .type t =>
    match s.state with
    | .varTp => some { s with varBuffer := { s.varBuffer with type := t, default := none }, state := .varId }
    | _ => none
  | .default =>
    match s.state with
    | .var => some { s with state := .defaultEq }
    | _ => none
  | .defaultOption =>
    match s.state with
    | .var => some { s with state := .defaultOptionEq }
    | _ => none
  | .displayOption =>
    match s.state with
    | .var => some { s with state := .displayOptionEq }
    | _ => none
  | .ident value =>
    match s.state with
    | .statedescId =>
      some { s with descBuffer := { s.descBuffer with name := value }, state := .statedescBr }
    | .varId => some { s with varBuffer := { s.varBuffer with name := value }, state := .varSz }
    | .defaultOption =>
      some { s with varBuffer := { s.varBuffer with defaultOption := value }, state := .var }
    | .displayOption =>
      some { s with varBuffer := { s.varBuffer with displayOption := value }, state := .var }
    | _ => none
  | .numeric value =>
    match s.state with
    | .versionN =>
      some { s with
        descBuffer := { s.descBuffer with version := (C.strtol value).toInt32.toInt }
        state := .statedesc }
    | .szN =>
      some { s with
        varBuffer := { s.varBuffer with size := (C.strtol value).toInt32.toInt }
        state := .szX }
    | _ => none
  | .typename value =>
    match s.state with
    | .varTp =>
      some { s with
        varBuffer := { s.varBuffer with type := .stateDesc, typeName := value, default := none }
        state := .varId }
    | _ => none
  | _ => none

/-- The tokens with which a default begins. -/
def startsDefault : Token → Bool
  | .punct '(' => true
  | .ident _ => true
  | .numeric _ => true
  | .quoted _ => true
  | _ => false

/-- A turn of `parse`: the tokens that are left, without those that it put back. -/
def onToken (s : Parsing) (tok : Token) (rest : List Token) : Option (Parsing × List Token) :=
  if s.state = .default ∧ startsDefault tok then
    match parseDefault C s.varBuffer (tok :: rest) with
    | none => none
    | some (state, varBuffer, rest) => some ({ s with state, varBuffer }, rest)
  else
    match turnState C s tok with
    | some s => some (s, rest)
    | none => some (s, .error :: rest)

theorem collect_var (values toks : List Token) : collect .var values toks = (.var, values, toks) := by
  rw [collect.eq_def, if_pos rfl]

theorem collect_nil {state : ParseState} (h : state ≠ .var) (values : List Token) :
    collect state values [] = (state, values, [.eof]) := by
  rw [collect, if_neg h]

theorem collect_stopped {state : ParseState} (h : state ≠ .var) (values : List Token)
    {tok : Token} (htok : tok.counts = false) (rest : List Token) :
    collect state values (tok :: rest) = (state, values, tok :: rest) := by
  rw [collect, if_neg h]
  simp [htok]

theorem collect_bad {state : ParseState} (h : state ≠ .var) (values : List Token) {tok : Token}
    (htok : tok.counts = true) (hbad : listState state tok = none) (rest : List Token) :
    collect state values (tok :: rest) = (state, values, .error :: rest) := by
  rw [collect, if_neg h]
  simp only [htok, if_true, hbad]
  exact collect_stopped h values rfl rest

theorem collect_step {state : ParseState} (h : state ≠ .var) (state' : ParseState)
    (isValue : Bool) (values : List Token) {tok : Token} (htok : tok.counts = true)
    (hstep : listState state tok = some (state', isValue)) (rest : List Token) :
    collect state values (tok :: rest) =
      collect state' (if isValue then values ++ [tok] else values) rest := by
  rw [collect, if_neg h]
  simp only [htok, if_true, hstep]

theorem collect_weight (state : ParseState) (values toks : List Token) :
    weight (collect state values toks).2.2 ≤ weight toks := by
  induction toks generalizing state values with
  | nil =>
    by_cases h : state = .var
    · rw [h, collect_var]
    · rw [collect_nil h]
      exact le_refl _
  | cons tok rest ih =>
    by_cases h : state = .var
    · rw [h, collect_var]
    · by_cases htok : tok.counts = true
      · have hlt := weight_lt htok rest
        cases hstep : listState state tok with
        | none =>
          rw [collect_bad h values htok hstep, weight_error]
          exact hlt.le
        | some next =>
          obtain ⟨state', isValue⟩ := next
          rw [collect_step h state' isValue values htok hstep]
          exact (ih _ _).trans hlt.le
      · rw [Bool.not_eq_true] at htok
        rw [collect_stopped h values htok]

theorem startsDefault_counts {tok : Token} (h : startsDefault tok = true) : tok.counts = true := by
  cases tok with
  | eof => cases h
  | error => cases h
  | _ => rfl

theorem startsDefault_step {tok : Token} (h : startsDefault tok = true) :
    ∃ next, listState .default tok = some next := by
  unfold startsDefault at h
  split at h
  · exact ⟨_, rfl⟩
  · exact ⟨_, rfl⟩
  · exact ⟨_, rfl⟩
  · exact ⟨_, rfl⟩
  · cases h

/-! ## Values -/

/-- The number of values of a default. -/
def arity : VarType → Nat
  | .vector3 | .point3 | .rgb | .rgb8 => 3
  | .quaternion | .rgba | .rgba8 => 4
  | _ => 1

def hasDefault : VarType → Bool
  | .stateDesc | .creatable | .ageTimeOfDay | .invalid => false
  | _ => true

def isNumeric : Token → Bool
  | .numeric _ => true
  | _ => false

/-- The kind of value that a type takes. -/
def kindFits : VarType → Token → Bool
  | .bool, .ident value => value = "true" || value = "false"
  | .string, .ident _ => true
  | .string, .quoted _ => true
  | .string, _ => false
  | .key, .ident value => value = "nil"
  | .key, _ => false
  | t, .numeric _ => hasDefault t
  | _, _ => false

/-- The values that a type takes. -/
def ValuesFit (t : VarType) (values : List Token) : Prop :=
  values.length = arity t ∧ ∀ v ∈ values, kindFits t v = true

/-- Numbers, and fewer than the type takes. -/
def TooFew (t : VarType) (values : List Token) : Prop :=
  values.length < arity t ∧ ∀ v ∈ values, isNumeric v = true

/-- Errors are pushed unless the values fit. -/
def Pushes {α : Type} (t : VarType) (values : List Token)
    (r : Option (List Token × Option α)) : Prop :=
  ∃ pushed d, r = some (pushed, d) ∧ (∀ tok ∈ pushed, tok = .error) ∧
    (pushed = [] ↔ ValuesFit t values)

theorem checkParams_spec (count : Nat) (values : List Token) :
    (∀ tok ∈ checkParams count values, tok = .error) ∧
      (checkParams count values = [] ↔ values.length = count) := by
  unfold checkParams
  by_cases h : values.length = count
  · simp [h]
  · simp [h]

/-- The types with one value. -/
theorem param_spec {α : Type} {accept : Token → Option α} {values : List Token} {t : VarType}
    (hone : arity t = 1) (hkind : ∀ v, (accept v).isSome = kindFits t v) (hne : values ≠ []) :
    Pushes t values (param accept values) := by
  obtain ⟨herror, hcheck⟩ := checkParams_spec 1 values
  cases values with
  | nil => exact absurd rfl hne
  | cons v rest =>
    have hv := hkind v
    rw [param]
    cases haccept : accept v with
    | none =>
      rw [haccept] at hv
      refine ⟨_, _, rfl, by simpa using herror, iff_of_false (by simp) ?_⟩
      rintro ⟨-, hall⟩
      rw [← hkind v, haccept] at hv
      have hkv := hall v List.mem_cons_self
      rw [← hkind v, haccept] at hkv
      cases hkv
    | some d =>
      rw [haccept] at hv
      refine ⟨_, _, rfl, herror, ?_⟩
      rw [hcheck]
      constructor
      · intro hlen
        obtain rfl : rest = [] := by simpa using hlen
        refine ⟨by rw [hone, hlen], fun w hw => ?_⟩
        obtain rfl := List.mem_singleton.1 hw
        exact hv.symm
      · rintro ⟨hlen, -⟩
        rw [hlen, hone]

theorem numbers_none (count : Nat) (values : List Token) :
    numbers count values = none ↔ values.length < count ∧ ∀ v ∈ values, isNumeric v = true := by
  induction count generalizing values with
  | zero => simp [numbers]
  | succ count ih =>
    cases values with
    | nil => simp [numbers]
    | cons v rest =>
      cases v with
      | numeric value => simp [numbers, ih, isNumeric]
      | _ => simp [numbers, isNumeric]

theorem numbers_some {count : Nat} {values : List Token} (hlen : values.length = count) :
    (∃ texts, numbers count values = some (some texts)) ↔ ∀ v ∈ values, isNumeric v = true := by
  induction count generalizing values with
  | zero =>
    obtain rfl := List.eq_nil_of_length_eq_zero hlen
    simp [numbers]
  | succ count ih =>
    cases values with
    | nil => cases hlen
    | cons v rest =>
      have hrest : rest.length = count := by simpa using hlen
      cases v with
      | numeric value =>
        rw [List.forall_mem_cons, ← ih hrest, numbers]
        cases numbers count rest with
        | none => simp [isNumeric]
        | some texts =>
          cases texts with
          | none => simp [isNumeric]
          | some texts => simp [isNumeric]
      | _ => simp [numbers, isNumeric]

/-- The types with several values. -/
theorem params_spec {α : Type} {f : List String → Option α} {values : List Token} {t : VarType}
    (hkind : ∀ v, kindFits t v = isNumeric v) (hfew : ¬ TooFew t values) :
    Pushes t values (params (arity t) f values) := by
  obtain ⟨herror, hcheck⟩ := checkParams_spec (arity t) values
  have hfit : ValuesFit t values ↔
      values.length = arity t ∧ ∃ texts, numbers (arity t) values = some (some texts) := by
    unfold ValuesFit
    refine and_congr_right fun hlen => ?_
    rw [numbers_some hlen]
    simp only [hkind]
  unfold Pushes
  rw [params, hfit]
  cases hnumbers : numbers (arity t) values with
  | none => exact absurd ((numbers_none _ _).1 hnumbers) hfew
  | some texts =>
    cases texts with
    | none => exact ⟨_, _, rfl, by simpa using herror, by simp⟩
    | some texts => exact ⟨_, _, rfl, herror, by rw [hcheck]; simp⟩

theorem params_tooFew {α : Type} {f : List String → Option α} {values : List Token} {t : VarType}
    (hfew : TooFew t values) : params (arity t) f values = none := by
  rw [params, (numbers_none _ _).2 hfew]

theorem not_tooFew {t : VarType} (hone : arity t = 1) {values : List Token} (hne : values ≠ []) :
    ¬ TooFew t values := by
  rintro ⟨hlen, -⟩
  rw [hone] at hlen
  exact hne (List.eq_nil_of_length_eq_zero (by omega))

theorem acceptNumber_isSome {α : Type} (f : String → α) (tok : Token) :
    (acceptNumber f tok).isSome = isNumeric tok := by
  cases tok with
  | _ => rfl

theorem kindFits_numeric {t : VarType} (h : hasDefault t = true) (hbool : t ≠ .bool)
    (hstring : t ≠ .string) (hkey : t ≠ .key) (tok : Token) : kindFits t tok = isNumeric tok := by
  cases t with
  | bool => exact absurd rfl hbool
  | string => exact absurd rfl hstring
  | key => exact absurd rfl hkey
  | _ => cases tok <;> first | exact h | rfl

theorem acceptBool_isSome (tok : Token) : (acceptBool C tok).isSome = kindFits .bool tok := by
  cases tok with
  | ident value =>
    rw [acceptBool, kindFits]
    split
    · rename_i h
      simp [h]
    split
    · rename_i h
      simp [h]
    · rename_i htrue hfalse
      simp [htrue, hfalse]
  | _ => rfl

theorem acceptString_isSome (tok : Token) : (acceptString tok).isSome = kindFits .string tok := by
  cases tok with
  | _ => rfl

theorem acceptKey_isSome (tok : Token) : (acceptKey tok).isSome = kindFits .key tok := by
  cases tok with
  | ident value =>
    rw [acceptKey, kindFits]
    split
    · rename_i h
      simp [h]
    · rename_i h
      simp [h]
  | _ => rfl

/-- **What the switch pushes** for the types that have a default. -/
theorem switchType_pushes {t : VarType} (h : hasDefault t = true) {values : List Token}
    (hne : values ≠ []) (hfew : ¬ TooFew t values) : Pushes t values (switchType C t values) := by
  have hnumeric : t ≠ .bool → t ≠ .string → t ≠ .key → ∀ tok, kindFits t tok = isNumeric tok :=
    kindFits_numeric h
  have hone : ∀ (α : Type) (f : String → α), arity t = 1 → t ≠ .bool → t ≠ .string → t ≠ .key →
      Pushes t values (param (acceptNumber f) values) := by
    intro α f harity hbool hstring hkey
    refine param_spec harity (fun tok => ?_) hne
    rw [acceptNumber_isSome, hnumeric hbool hstring hkey]
  have hmany : ∀ (α : Type) (f : List String → Option α), t ≠ .bool → t ≠ .string → t ≠ .key →
      Pushes t values (params (arity t) f values) :=
    fun α f hbool hstring hkey => params_spec (hnumeric hbool hstring hkey) hfew
  cases t with
  | bool => exact param_spec rfl (acceptBool_isSome C) hne
  | string => exact param_spec rfl acceptString_isSome hne
  | key => exact param_spec rfl acceptKey_isSome hne
  | stateDesc => cases h
  | creatable => cases h
  | ageTimeOfDay => cases h
  | invalid => cases h
  | vector3 => exact hmany _ _ (by decide) (by decide) (by decide)
  | point3 => exact hmany _ _ (by decide) (by decide) (by decide)
  | quaternion => exact hmany _ _ (by decide) (by decide) (by decide)
  | rgb => exact hmany _ _ (by decide) (by decide) (by decide)
  | rgba => exact hmany _ _ (by decide) (by decide) (by decide)
  | rgb8 => exact hmany _ _ (by decide) (by decide) (by decide)
  | rgba8 => exact hmany _ _ (by decide) (by decide) (by decide)
  | _ => exact hone _ _ rfl (by decide) (by decide) (by decide)

/-- The other types take anything. -/
theorem switchType_others {t : VarType} (h : hasDefault t = false) (values : List Token) :
    ∃ d, switchType C t values = some ([], d) := by
  cases t with
  | stateDesc => exact ⟨_, rfl⟩
  | creatable => exact ⟨_, rfl⟩
  | ageTimeOfDay => exact ⟨_, rfl⟩
  | invalid => exact ⟨_, rfl⟩
  | _ => cases h

theorem switchType_tooFew {t : VarType} {values : List Token} (hne : values ≠ [])
    (h : TooFew t values) : switchType C t values = none := by
  have hmany : arity t ≠ 1 := fun hone => not_tooFew hone hne h
  cases t with
  | vector3 => exact params_tooFew h
  | point3 => exact params_tooFew h
  | quaternion => exact params_tooFew h
  | rgb => exact params_tooFew h
  | rgba => exact params_tooFew h
  | rgb8 => exact params_tooFew h
  | rgba8 => exact params_tooFew h
  | _ => exact absurd rfl hmany

/-! ## Lists of values -/

/-- The tokens with which values are written. -/
inductive Written : List Token → List Token → Prop
  | one {v : Token} (h : startsDefault v = true) (hparen : v ≠ .punct '(') : Written [v] [v]
  | list (v : String) (values : List String) : Written (.numeric v :: values.map .numeric)
      (.punct '(' :: .numeric v ::
        ((values.flatMap fun w => [.punct ',', .numeric w]) ++ [.punct ')']))

theorem Written.ne_nil {values toks : List Token} (h : Written values toks) : values ≠ [] := by
  cases h with
  | one => simp
  | list => simp

/-- No token is left that `parse` could take. -/
def Stopped : List Token → Prop
  | [] => True
  | tok :: _ => tok.counts = false

theorem collect_list (values : List Token) (texts : List String) (rest : List Token) :
    collect .lsX values ((texts.flatMap fun w => [.punct ',', .numeric w]) ++ .punct ')' :: rest) =
      (.var, values ++ texts.map .numeric, rest) := by
  induction texts generalizing values with
  | nil =>
    rw [List.flatMap_nil, List.nil_append,
      collect_step (by decide) .var false values rfl rfl, collect_var]
    simp
  | cons text texts ih =>
    rw [List.flatMap_cons, List.append_assoc]
    show collect .lsX values (.punct ',' :: .numeric text :: _) = _
    rw [collect_step (by decide) .lsI false values rfl rfl,
      collect_step (by decide) .lsX true _ rfl rfl]
    refine (ih (values ++ [.numeric text])).trans ?_
    simp

/-- Values are collected as they are written. -/
theorem collect_written {values toks : List Token} (h : Written values toks) (rest : List Token) :
    collect .default [] (toks ++ rest) = (.var, values, rest) := by
  cases h with
  | one hstarts hparen =>
    rename_i v
    have hstep : listState .default v = some (.var, true) := by
      unfold startsDefault at hstarts
      split at hstarts
      · exact absurd rfl hparen
      · rfl
      · rfl
      · rfl
      · cases hstarts
    rw [List.singleton_append,
      collect_step (by decide) .var true [] (startsDefault_counts hstarts) hstep, collect_var]
    rfl
  | list v texts =>
    rw [List.cons_append, List.cons_append, List.append_assoc,
      collect_step (by decide) .lsI false [] rfl rfl,
      collect_step (by decide) .lsX true _ rfl rfl]
    exact collect_list _ texts rest

/-- Where no values are collected, `parse` can take nothing of what is left. -/
theorem collect_stops (state : ParseState) (values toks : List Token)
    (h : (collect state values toks).1 ≠ .var) : Stopped (collect state values toks).2.2 := by
  induction toks generalizing state values with
  | nil =>
    by_cases hvar : state = .var
    · rw [hvar, collect_var] at h
      exact absurd rfl h
    · rw [collect_nil hvar]
      rfl
  | cons tok rest ih =>
    by_cases hvar : state = .var
    · rw [hvar, collect_var] at h
      exact absurd rfl h
    · by_cases htok : tok.counts = true
      · cases hstep : listState state tok with
        | none =>
          rw [collect_bad hvar values htok hstep]
          rfl
        | some next =>
          obtain ⟨state', isValue⟩ := next
          rw [collect_step hvar state' isValue values htok hstep] at h ⊢
          exact ih _ _ h
      · rw [Bool.not_eq_true] at htok
        rw [collect_stopped hvar values htok]
        exact htok

/-- The tokens behind the first number of a list. -/
def listTail (texts : List String) (rest : List Token) : List Token :=
  (texts.flatMap fun w => [.punct ',', .numeric w]) ++ .punct ')' :: rest

theorem listState_lsX {tok : Token} {next : ParseState × Bool}
    (h : listState .lsX tok = some next) :
    (tok = .punct ')' ∧ next = (.var, false)) ∨ (tok = .punct ',' ∧ next = (.lsI, false)) := by
  unfold listState at h
  split at h
  all_goals simp_all

theorem listState_lsI {tok : Token} {next : ParseState × Bool}
    (h : listState .lsI tok = some next) : ∃ text, tok = .numeric text ∧ next = (.lsX, true) := by
  unfold listState at h
  split at h
  all_goals simp_all

theorem listState_default {tok : Token} {next : ParseState × Bool}
    (h : listState .default tok = some next) :
    (tok = .punct '(' ∧ next = (.lsI, false)) ∨
      (startsDefault tok = true ∧ tok ≠ .punct '(' ∧ next = (.var, true)) := by
  unfold listState at h
  split at h
  all_goals simp_all [startsDefault]

/-- A list that is collected is one. -/
theorem collect_list_inv (toks : List Token) :
    (∀ values vs rest, collect .lsX values toks = (.var, vs, rest) →
      ∃ texts, toks = listTail texts rest ∧ vs = values ++ texts.map .numeric) ∧
    (∀ values vs rest, collect .lsI values toks = (.var, vs, rest) →
      ∃ text texts, toks = .numeric text :: listTail texts rest ∧
        vs = values ++ .numeric text :: texts.map .numeric) := by
  induction toks with
  | nil =>
    constructor
    · intro values vs rest h
      rw [collect_nil (by decide)] at h
      cases h
    · intro values vs rest h
      rw [collect_nil (by decide)] at h
      cases h
  | cons tok toks ih =>
    constructor
    · intro values vs rest h
      by_cases htok : tok.counts = true
      · cases hstep : listState .lsX tok with
        | none =>
          rw [collect_bad (by decide) values htok hstep] at h
          cases h
        | some next =>
          rw [collect_step (by decide) next.1 next.2 values htok hstep] at h
          rcases listState_lsX hstep with ⟨rfl, rfl⟩ | ⟨rfl, rfl⟩
          · rw [collect_var] at h
            cases h
            exact ⟨[], rfl, by simp⟩
          · obtain ⟨text, texts, rfl, rfl⟩ := ih.2 _ _ _ h
            exact ⟨text :: texts, rfl, by simp⟩
      · rw [Bool.not_eq_true] at htok
        rw [collect_stopped (by decide) values htok] at h
        cases h
    · intro values vs rest h
      by_cases htok : tok.counts = true
      · cases hstep : listState .lsI tok with
        | none =>
          rw [collect_bad (by decide) values htok hstep] at h
          cases h
        | some next =>
          rw [collect_step (by decide) next.1 next.2 values htok hstep] at h
          obtain ⟨text, rfl, rfl⟩ := listState_lsI hstep
          obtain ⟨texts, rfl, rfl⟩ := ih.1 _ _ _ h
          exact ⟨text, texts, rfl, by simp⟩
      · rw [Bool.not_eq_true] at htok
        rw [collect_stopped (by decide) values htok] at h
        cases h

/-- **What is collected was written.** -/
theorem collect_inv {toks values rest : List Token}
    (h : collect .default [] toks = (.var, values, rest)) :
    ∃ chunk, Written values chunk ∧ toks = chunk ++ rest := by
  cases toks with
  | nil =>
    rw [collect_nil (by decide)] at h
    cases h
  | cons tok toks =>
    by_cases htok : tok.counts = true
    · cases hstep : listState .default tok with
      | none =>
        rw [collect_bad (by decide) [] htok hstep] at h
        cases h
      | some next =>
        rw [collect_step (by decide) next.1 next.2 [] htok hstep] at h
        rcases listState_default hstep with ⟨rfl, rfl⟩ | ⟨hstarts, hparen, rfl⟩
        · obtain ⟨text, texts, rfl, rfl⟩ := (collect_list_inv toks).2 _ _ _ h
          refine ⟨_, .list text texts, ?_⟩
          simp [listTail]
        · rw [collect_var] at h
          cases h
          exact ⟨_, .one hstarts hparen, rfl⟩
    · rw [Bool.not_eq_true] at htok
      rw [collect_stopped (by decide) [] htok] at h
      cases h

/-- Tokens that begin with values. -/
def Begins (toks values rest : List Token) : Prop :=
  ∃ chunk, Written values chunk ∧ toks = chunk ++ rest

theorem begins_iff {toks values rest : List Token} :
    Begins toks values rest ↔ collect .default [] toks = (.var, values, rest) := by
  constructor
  · rintro ⟨chunk, hwritten, rfl⟩
    exact collect_written hwritten rest
  · exact collect_inv

theorem Begins.ne_nil {toks values rest : List Token} (h : Begins toks values rest) :
    values ≠ [] := by
  obtain ⟨chunk, hwritten, -⟩ := h
  exact hwritten.ne_nil

theorem Begins.unique {toks values values' rest rest' : List Token} (h : Begins toks values rest)
    (h' : Begins toks values' rest') : values = values' ∧ rest = rest' := by
  rw [begins_iff] at h h'
  rw [h] at h'
  obtain ⟨-, h'⟩ := Prod.mk.inj h'
  exact Prod.mk.inj h'

/-- What `parse_default` does with values. -/
theorem parseDefault_values (v : VarDescriptor) {toks values rest : List Token}
    (h : Begins toks values rest) : parseDefault C v toks =
      (switchType C v.type values).map fun (pushed, d) =>
        (.var, { v with default := d.or v.default }, pushed ++ rest) := by
  rw [parseDefault, begins_iff.1 h]
  dsimp only
  cases switchType C v.type values with
  | none => rfl
  | some r => rfl

/-- Where there are no values, it leaves nothing that `parse` could take. -/
theorem parseDefault_stops (v : VarDescriptor) {toks : List Token}
    (h : ∀ values rest, ¬ Begins toks values rest) :
    ∃ state rest, parseDefault C v toks = some (state, v, rest) ∧ Stopped rest := by
  have hstops := collect_stops .default [] toks
  cases hcollect : collect .default [] toks with
  | mk state vr =>
    obtain ⟨values, rest⟩ := vr
    rw [hcollect] at hstops
    have hstate : state ≠ .var := by
      rintro rfl
      exact h values rest (begins_iff.2 hcollect)
    refine ⟨state, rest, ?_, hstops hstate⟩
    rw [parseDefault, hcollect]
    cases state with
    | var => exact absurd rfl hstate
    | _ => rfl

theorem weight_pushed {pushed : List Token} (h : ∀ tok ∈ pushed, tok = .error)
    (rest : List Token) : weight (pushed ++ rest) = weight rest := by
  induction pushed with
  | nil => rfl
  | cons tok pushed ih =>
    rw [List.forall_mem_cons] at h
    rw [h.1, List.cons_append, weight_error, ih h.2]

/-- Whatever `parse_default` puts back, it has taken more. -/
theorem parseDefault_weight {s : Parsing} {tok : Token} (htok : startsDefault tok = true)
    {rest toks' : List Token} {state : ParseState} {v' : VarDescriptor}
    (h : parseDefault C s.varBuffer (tok :: rest) = some (state, v', toks')) :
    weight toks' < weight (tok :: rest) := by
  have hlt := weight_lt (startsDefault_counts htok) rest
  obtain ⟨⟨state₁, isValue⟩, hstep⟩ := startsDefault_step htok
  have hle := collect_weight state₁ (if isValue then [tok] else []) rest
  have hdefault : ParseState.default ≠ .var := by decide
  have hcollect := collect_step hdefault state₁ isValue [] (startsDefault_counts htok) hstep rest
  rw [List.nil_append] at hcollect
  rw [← hcollect] at hle
  by_cases hbegins : ∃ values left, Begins (tok :: rest) values left
  · obtain ⟨values, left, hbegins⟩ := hbegins
    rw [begins_iff.1 hbegins] at hle
    rw [parseDefault_values C _ hbegins, Option.map_eq_some_iff] at h
    obtain ⟨⟨pushed, d⟩, hswitch, heq⟩ := h
    cases heq
    have hpushed : ∀ tok ∈ pushed, tok = .error := by
      cases hdefault : hasDefault s.varBuffer.type with
      | true =>
        by_cases hfew : TooFew s.varBuffer.type values
        · rw [switchType_tooFew C hbegins.ne_nil hfew] at hswitch
          cases hswitch
        · obtain ⟨pushed', d', hswitch', herror, -⟩ :=
            switchType_pushes C hdefault hbegins.ne_nil hfew
          rw [hswitch] at hswitch'
          cases hswitch'
          exact herror
      | false =>
        obtain ⟨d', hswitch'⟩ := switchType_others C hdefault values
        rw [hswitch] at hswitch'
        cases hswitch'
        simp
    rw [weight_pushed hpushed]
    exact lt_of_le_of_lt hle hlt
  · cases hc : collect .default [] (tok :: rest) with
    | mk state₂ vr =>
      obtain ⟨values, left⟩ := vr
      have hstate : state₂ ≠ .var := by
        rintro rfl
        exact hbegins ⟨values, left, begins_iff.2 hc⟩
      rw [hc] at hle
      rw [parseDefault, hc] at h
      cases state₂ with
      | var => exact absurd rfl hstate
      | _ =>
        cases h
        exact lt_of_le_of_lt hle hlt

theorem onToken_weight {s s' : Parsing} {tok : Token} {rest rest' : List Token}
    (htok : tok.counts = true) (h : onToken C s tok rest = some (s', rest')) :
    weight rest' < weight (tok :: rest) := by
  unfold onToken at h
  split at h
  · rename_i hstarts
    split at h
    · cases h
    · rename_i hdefault
      cases h
      exact parseDefault_weight C hstarts.2 hdefault
  · split at h
    · cases h
      exact weight_lt htok rest
    · cases h
      rw [weight_error]
      exact weight_lt htok rest

/-- The loop of `parse`. -/
def parseLoop (s : Parsing) (toks : List Token) : Option (List DescBuffer) :=
  match toks with
  | [] => some s.descriptors
  | tok :: rest =>
    if _htok : tok.counts then
      match _h : onToken C s tok rest with
      | none => none
      | some (s, rest) => parseLoop s rest
    else some s.descriptors
termination_by weight toks
decreasing_by exact onToken_weight C _htok _h

/-- `SDL::Parser::parse`: a descriptor without a version is left out. -/
def parse (toks : List Token) : Option (List DescBuffer) :=
  (parseLoop C {} toks).map fun descriptors => descriptors.filter fun d => 0 ≤ d.version

theorem parseLoop_stopped (s : Parsing) {toks : List Token} (h : Stopped toks) :
    parseLoop C s toks = some s.descriptors := by
  cases toks with
  | nil => rw [parseLoop]
  | cons tok rest =>
    have htok : tok.counts = false := h
    rw [parseLoop]
    simp [htok]

/-! ## The law of defaults -/

/-- The tokens begin with values that the type takes. -/
def Fits (t : VarType) (toks : List Token) : Prop :=
  ∃ values rest, Begins toks values rest ∧ ValuesFit t values

/-- `parse_default` reads no value that is not there, and where there are none that the type takes
`parse` ends with it, without the descriptor that it is in. -/
structure DefaultLaw (v : VarDescriptor) (toks : List Token) : Prop where
  reads : parseDefault C v toks ≠ none
  stops : ¬ Fits v.type toks → ∀ state v' rest, parseDefault C v toks = some (state, v', rest) →
    Stopped rest ∧ ∀ s : Parsing,
      parseLoop C { s with state, varBuffer := v' } rest = some s.descriptors

/-- Where it goes wrong: of fewer numbers than the type takes more are read, and a type without a
default takes what values there are. -/
def Slips (t : VarType) (toks : List Token) : Prop :=
  ∃ values rest, Begins toks values rest ∧
    (TooFew t values ∨ (hasDefault t = false ∧ ¬ Stopped rest))

theorem not_valuesFit {t : VarType} (h : hasDefault t = false) {values : List Token}
    (hne : values ≠ []) : ¬ ValuesFit t values := by
  rintro ⟨-, hall⟩
  obtain ⟨v, hv⟩ := List.exists_mem_of_ne_nil values hne
  have hfits := hall v hv
  cases t with
  | stateDesc => cases v <;> cases hfits
  | creatable => cases v <;> cases hfits
  | ageTimeOfDay => cases v <;> cases hfits
  | invalid => cases v <;> cases hfits
  | _ => cases h

theorem stopped_of_error {pushed : List Token} (h : ∀ tok ∈ pushed, tok = .error)
    (hne : pushed ≠ []) (rest : List Token) : Stopped (pushed ++ rest) := by
  cases pushed with
  | nil => exact absurd rfl hne
  | cons tok pushed =>
    rw [List.forall_mem_cons] at h
    show tok.counts = false
    rw [h.1]
    rfl

variable {C} in
theorem DefaultLaw.not_slips {v : VarDescriptor} {toks : List Token} (h : DefaultLaw C v toks) :
    ¬ Slips v.type toks := by
  rintro ⟨values, rest, hbegins, hfew | ⟨hnone, hmore⟩⟩
  · refine h.reads ?_
    rw [parseDefault_values C v hbegins, switchType_tooFew C hbegins.ne_nil hfew]
    rfl
  · obtain ⟨d, hswitch⟩ := switchType_others C hnone values
    have hnofit : ¬ Fits v.type toks := by
      rintro ⟨values', rest', hbegins', hfit⟩
      obtain ⟨rfl, rfl⟩ := hbegins.unique hbegins'
      exact not_valuesFit hnone hbegins.ne_nil hfit
    have hdefault := parseDefault_values C v hbegins
    rw [hswitch] at hdefault
    exact hmore (h.stops hnofit _ _ _ hdefault).1

/-- **`parse_default` keeps its law** exactly if there are not fewer numbers than the type takes,
nor any values where the type takes none. -/
theorem default_law_iff (v : VarDescriptor) (toks : List Token) :
    DefaultLaw C v toks ↔ ¬ Slips v.type toks := by
  constructor
  · exact DefaultLaw.not_slips
  · intro hslips
    by_cases hbegins : ∃ values rest, Begins toks values rest
    · obtain ⟨values, rest, hbegins⟩ := hbegins
      have hfew : ¬ TooFew v.type values := fun hfew => hslips ⟨values, rest, hbegins, .inl hfew⟩
      have hdefault := parseDefault_values C v hbegins
      cases hhas : hasDefault v.type with
      | true =>
        obtain ⟨pushed, d, hswitch, herror, hpushed⟩ :=
          switchType_pushes C hhas hbegins.ne_nil hfew
        rw [hswitch] at hdefault
        refine ⟨by simp [hdefault], fun hnofit state v' rest' hresult => ?_⟩
        rw [hdefault] at hresult
        cases hresult
        have hne : pushed ≠ [] := fun hnil => hnofit ⟨values, rest, hbegins, hpushed.1 hnil⟩
        have hstopped := stopped_of_error herror hne rest
        exact ⟨hstopped, fun s => parseLoop_stopped C _ hstopped⟩
      | false =>
        obtain ⟨d, hswitch⟩ := switchType_others C hhas values
        rw [hswitch] at hdefault
        refine ⟨by simp [hdefault], fun _ state v' rest' hresult => ?_⟩
        rw [hdefault] at hresult
        cases hresult
        have hstopped : Stopped rest := by
          by_contra hmore
          exact hslips ⟨values, rest, hbegins, .inr ⟨hhas, hmore⟩⟩
        exact ⟨hstopped, fun s => parseLoop_stopped C _ hstopped⟩
    · have hnone : ∀ values rest, ¬ Begins toks values rest :=
        fun values rest h => hbegins ⟨values, rest, h⟩
      obtain ⟨state, rest, hdefault, hstopped⟩ := parseDefault_stops C v hnone
      refine ⟨by simp [hdefault], fun _ state' v' rest' hresult => ?_⟩
      rw [hdefault] at hresult
      cases hresult
      exact ⟨hstopped, fun s => parseLoop_stopped C _ hstopped⟩

end

def digits (cs : List Char) : Nat :=
  (cs.takeWhile Char.isDigit).foldl (fun n c => 10 * n + (c.toNat - 48)) 0

/-- Conversions of decimal numbers, and of 0 and 1 to floating point. -/
def decimals : Conversions where
  strtol value :=
    match value.toList with
    | '-' :: cs => -Int64.ofNat (digits cs)
    | cs => Int64.ofNat (digits cs)
  strtoul value := UInt64.ofNat (digits value.toList)
  strtof value := if value = "1" then Elem.oneBits else 0
  strtod value := if value = "1" then 0x3FF0000000000000 else 0

/-- `VAR VECTOR3 v[1] DEFAULT=1` and `VAR CREATABLE c[1] DEFAULT=1`, before a brace. -/
theorem default_slips :
    ¬ DefaultLaw decimals { type := .vector3, name := "v", size := 1 } [.numeric "1", .punct '}'] ∧
    ¬ DefaultLaw decimals { type := .creatable, name := "c", size := 1 }
        [.numeric "1", .punct '}'] := by
  have hbegins : Begins [.numeric "1", .punct '}'] [.numeric "1"] [.punct '}'] :=
    ⟨_, .one rfl (by decide), rfl⟩
  constructor
  · intro h
    refine h.not_slips ⟨_, _, hbegins, .inl ⟨by decide, ?_⟩⟩
    simp [isNumeric]
  · intro h
    exact h.not_slips ⟨_, _, hbegins, .inr ⟨rfl, by simp [Stopped, Token.counts]⟩⟩

end Dirtsand.SDL
