import Dirtsand.SDL.Rendering
import Dirtsand.SDL.SdlParser

/-!
# Printed descriptors

The grammar of SDL files, from the side of who writes one: what tokens a descriptor
is printed as.  Its attributes may stand in any order, a semicolon may end a variable,
and the version stands somewhere among the variables, or nowhere.

* `parse_inverts_print` — the parser returns the descriptors that were printed.
-/

namespace Dirtsand.SDL

/-! ## The grammar -/

section

variable (C : Conversions)

/-- The values that denote a default. -/
def Denotes : (t : VarType) → List Token → t.Default → Prop
  | .bool, values, d => (∃ n, values = [.numeric n] ∧ d = decide (C.strtol n ≠ 0)) ∨
      (values = [.ident "true"] ∧ d = true) ∨ (values = [.ident "false"] ∧ d = false)
  | .int, values, d | .byte, values, d | .short, values, d =>
    ∃ n, values = [.numeric n] ∧ d = (C.strtol n).toInt32.toUInt32
  | .float, values, d => ∃ n, values = [.numeric n] ∧ d = C.strtof n
  | .double, values, d => ∃ n, values = [.numeric n] ∧ d = C.strtod n
  | .string, values, d => values = [.ident d] ∨ values = [.quoted d]
  | .time, values, d => ∃ n, values = [.numeric n] ∧ d = ⟨(C.strtoul n).toUInt32, 0⟩
  | .vector3, values, d | .point3, values, d => ∃ x y z,
      values = [.numeric x, .numeric y, .numeric z] ∧ d = ⟨C.strtof x, C.strtof y, C.strtof z⟩
  | .quaternion, values, d => ∃ x y z w,
      values = [.numeric x, .numeric y, .numeric z, .numeric w] ∧
      d = ⟨C.strtof x, C.strtof y, C.strtof z, C.strtof w⟩
  | .rgb, values, d => ∃ r g b, values = [.numeric r, .numeric g, .numeric b] ∧
      d = ⟨C.strtof r, C.strtof g, C.strtof b, Elem.oneBits⟩
  | .rgba, values, d => ∃ r g b a,
      values = [.numeric r, .numeric g, .numeric b, .numeric a] ∧
      d = ⟨C.strtof r, C.strtof g, C.strtof b, C.strtof a⟩
  | .rgb8, values, d => ∃ r g b, values = [.numeric r, .numeric g, .numeric b] ∧
      d = ⟨(C.strtoul r).toUInt8, (C.strtoul g).toUInt8, (C.strtoul b).toUInt8, 255⟩
  | .rgba8, values, d => ∃ r g b a,
      values = [.numeric r, .numeric g, .numeric b, .numeric a] ∧
      d = ⟨(C.strtoul r).toUInt8, (C.strtoul g).toUInt8, (C.strtoul b).toUInt8,
        (C.strtoul a).toUInt8⟩
  | .key, values, _ => values = [.ident "nil"]
  | .stateDesc, _, _ | .creatable, _, _ | .ageTimeOfDay, _, _ | .invalid, _, _ => False

/-- An attribute of a variable. -/
inductive Attr (t : VarType) where
  | default (d : t.Default)
  | defaultOption (value : String)
  | displayOption (value : String)

/-- A variable with other attributes. -/
def VarDescriptor.withAttrs (v : VarDescriptor) (default : Option v.type.Default)
    (defaultOption displayOption : String) : VarDescriptor :=
  { v with default, defaultOption, displayOption }

/-- What the attributes add up to: the default and both options. -/
def addAttr {t : VarType} (a : Option t.Default × String × String) :
    Attr t → Option t.Default × String × String
  | .default d => (some d, a.2)
  | .defaultOption value => (a.1, value, a.2.2)
  | .displayOption value => (a.1, a.2.1, value)

/-- The tokens of an attribute. -/
inductive PrintedAttr (t : VarType) : Attr t → List Token → Prop
  | default {d : t.Default} {values toks : List Token} (hdenotes : Denotes C t values d)
      (hwritten : Written values toks) : PrintedAttr t (.default d) (.default :: .punct '=' :: toks)
  | defaultOption (value : String) :
      PrintedAttr t (.defaultOption value) [.defaultOption, .punct '=', .ident value]
  | displayOption (value : String) :
      PrintedAttr t (.displayOption value) [.displayOption, .punct '=', .ident value]

/-- The tokens of attributes, in any order. -/
inductive PrintedAttrs (t : VarType) : List (Attr t) → List Token → Prop
  | nil : PrintedAttrs t [] []
  | cons {attr : Attr t} {attrs : List (Attr t)} {toks toks' : List Token}
      (h : PrintedAttr C t attr toks) (hattrs : PrintedAttrs t attrs toks') :
      PrintedAttrs t (attr :: attrs) (toks ++ toks')

/-- The token of a type: the keyword, or the name of a descriptor. -/
inductive PrintedType : VarType → String → Token → Prop
  | keyword {t : VarType} (h : t ≠ .stateDesc) : PrintedType t "" (.type t)
  | typename (typeName : String) : PrintedType .stateDesc typeName (.typename typeName)

/-- The tokens between the brackets. -/
inductive PrintedSize : Int → List Token → Prop
  | fixed {n : String} {size : Int} (hsize : (C.strtol n).toInt32.toInt = size) (hpos : 0 ≤ size) :
      PrintedSize size [.numeric n]
  | any : PrintedSize (-1) []

/-- The tokens of a variable. -/
structure PrintedVar (v : VarDescriptor) (toks : List Token) : Prop where
  exists_parts : ∃ typeTok sizeToks attrs attrToks semicolons,
    PrintedType v.type v.typeName typeTok ∧ PrintedSize C v.size sizeToks ∧
    PrintedAttrs C v.type attrs attrToks ∧
    attrs.foldl addAttr (none, "", "") = (v.default, v.defaultOption, v.displayOption) ∧
    toks = .var :: typeTok :: .ident v.name :: .punct '[' :: (sizeToks ++ .punct ']' ::
      (attrToks ++ List.replicate semicolons (.punct ';')))

/-- The tokens of variables, one after the other. -/
inductive PrintedVars : List VarDescriptor → List Token → Prop
  | nil : PrintedVars [] []
  | cons {v : VarDescriptor} {vars : List VarDescriptor} {toks toks' : List Token}
      (h : PrintedVar C v toks) (hvars : PrintedVars vars toks') :
      PrintedVars (v :: vars) (toks ++ toks')

/-- The tokens of a version. -/
inductive PrintedVersion (version : Int) : List Token → Prop
  | version {n : String} (hversion : (C.strtol n).toInt32.toInt = version) (semicolons : Nat) :
      PrintedVersion version (.version :: .numeric n :: List.replicate semicolons (.punct ';'))

/-- A descriptor, as it is printed: without a version if that is not set. -/
structure Desc where
  name : String
  version : Option Int
  vars : List VarDescriptor

/-- The tokens inside the braces: the version stands anywhere among the variables. -/
inductive PrintedBody : Option Int → List VarDescriptor → List Token → Prop
  | versioned {version : Int} {vars vars' : List VarDescriptor} {toks toks' toks'' : List Token}
      (hversion : PrintedVersion C version toks') (hpos : 0 ≤ version)
      (hvars : PrintedVars C vars toks) (hvars' : PrintedVars C vars' toks'') :
      PrintedBody (some version) (vars ++ vars') (toks ++ (toks' ++ toks''))
  | unversioned {vars : List VarDescriptor} {toks : List Token} (hvars : PrintedVars C vars toks) :
      PrintedBody none vars toks

/-- The tokens of descriptors. -/
inductive PrintedDescs : List Desc → List Token → Prop
  | nil : PrintedDescs [] []
  | cons {d : Desc} {ds : List Desc} {body toks : List Token}
      (hbody : PrintedBody C d.version d.vars body) (hdescs : PrintedDescs ds toks) :
      PrintedDescs (d :: ds)
        (.statedesc :: .ident d.name :: .punct '{' :: (body ++ .punct '}' :: toks))

/-- A file in which descriptors are printed. -/
def PrintedFile (ds : List Desc) (file : List Char) : Prop :=
  ∃ toks, PrintedDescs C ds toks ∧ RenderedFile toks file

/-- The place of the last variable of a name. -/
def indexOf (vars : List VarDescriptor) (name : String) : Option Int :=
  (vars.zipIdx.reverse.find? fun (v, _) => v.name = name).map fun (_, i) => i

/-- What is parsed of a descriptor: nothing without a version. -/
def Desc.parsed (d : Desc) : Option DescBuffer :=
  d.version.map fun version =>
    { name := d.name, version, vars := d.vars, varmap := indexOf d.vars }

/-- `Parser::parse`, over the tokens that `next` returns. -/
def parseFile (lnbuf : Nat → List Char → List Char) (file : List Char) : Option (List DescBuffer) :=
  (Parser.tokensFrom lnbuf 0 (lines file)).bind (parse C)

/-! ## Turns of the parser -/

theorem parseLoop_step {s s' : Parsing} {tok : Token} {rest rest' : List Token}
    (htok : tok.counts = true) (h : onToken C s tok rest = some (s', rest')) :
    parseLoop C s (tok :: rest) = parseLoop C s' rest' := by
  rw [parseLoop, dif_pos htok]
  split
  · rename_i hnone
    rw [h] at hnone
    cases hnone
  · rename_i hsome
    rw [h] at hsome
    cases hsome
    rfl

theorem parseLoop_turn {s : Parsing} (s' : Parsing) {tok : Token} (htok : tok.counts = true)
    (hstate : s.state ≠ .default) (h : turnState C s tok = some s') (rest : List Token) :
    parseLoop C s (tok :: rest) = parseLoop C s' rest := by
  refine parseLoop_step C htok ?_
  rw [onToken, if_neg fun hstarts => hstate hstarts.1, h]

theorem parseLoop_semicolons {s : Parsing} (hstate : s.state ≠ .default) (n : Nat)
    (rest : List Token) :
    parseLoop C s (List.replicate n (.punct ';') ++ rest) = parseLoop C s rest := by
  induction n with
  | zero => rfl
  | succ n ih =>
    rw [List.replicate_succ, List.cons_append, parseLoop_turn C _ rfl hstate rfl, ih]

variable {C}

/-- Values that denote a default are taken for it. -/
theorem Denotes.switchType {t : VarType} {values : List Token} {d : t.Default}
    (h : Denotes C t values d) : switchType C t values = some ([], some d) := by
  cases t with
  | bool =>
    rcases h with ⟨n, rfl, rfl⟩ | ⟨rfl, rfl⟩ | ⟨rfl, rfl⟩
    · rfl
    · rfl
    · rfl
  | string =>
    rcases h with rfl | rfl
    · rfl
    · rfl
  | key =>
    obtain rfl := h
    rfl
  | vector3 =>
    obtain ⟨x, y, z, rfl, rfl⟩ := h
    rfl
  | point3 =>
    obtain ⟨x, y, z, rfl, rfl⟩ := h
    rfl
  | quaternion =>
    obtain ⟨x, y, z, w, rfl, rfl⟩ := h
    rfl
  | rgb =>
    obtain ⟨r, g, b, rfl, rfl⟩ := h
    rfl
  | rgba =>
    obtain ⟨r, g, b, a, rfl, rfl⟩ := h
    rfl
  | rgb8 =>
    obtain ⟨r, g, b, rfl, rfl⟩ := h
    rfl
  | rgba8 =>
    obtain ⟨r, g, b, a, rfl, rfl⟩ := h
    rfl
  | stateDesc => exact absurd h id
  | creatable => exact absurd h id
  | ageTimeOfDay => exact absurd h id
  | invalid => exact absurd h id
  | _ =>
    obtain ⟨n, rfl, rfl⟩ := h
    rfl

theorem parseDefault_denotes {b : VarDescriptor} {values toks : List Token} {d : b.type.Default}
    (hdenotes : Denotes C b.type values d) (hwritten : Written values toks) (rest : List Token) :
    parseDefault C b (toks ++ rest) = some (.var, { b with default := some d }, rest) := by
  rw [parseDefault_values C b ⟨_, hwritten, rfl⟩, hdenotes.switchType]
  rfl

/-- The first token of values. -/
theorem Written.head {values toks : List Token} (h : Written values toks) :
    ∃ tok toks', toks = tok :: toks' ∧ startsDefault tok = true := by
  cases h with
  | one hstarts => exact ⟨_, _, rfl, hstarts⟩
  | list => exact ⟨_, _, rfl, rfl⟩

/-- **An attribute is added to the variable that is being read.** -/
theorem parseLoop_attr {v : VarDescriptor} {attr : Attr v.type} {toks : List Token}
    (h : PrintedAttr C v.type attr toks) (ds : List DescBuffer) (desc : DescBuffer)
    (a : Option v.type.Default × String × String) (rest : List Token) :
    parseLoop C ⟨ds, desc, v.withAttrs a.1 a.2.1 a.2.2, .var⟩ (toks ++ rest) =
      parseLoop C ⟨ds, desc, v.withAttrs (addAttr a attr).1 (addAttr a attr).2.1
        (addAttr a attr).2.2, .var⟩ rest := by
  cases h with
  | default hdenotes hwritten =>
    rename_i d values toks
    obtain ⟨tok, toks', rfl, hstarts⟩ := hwritten.head
    have hdefault := parseDefault_denotes (b := v.withAttrs a.1 a.2.1 a.2.2) hdenotes hwritten rest
    rw [List.cons_append] at hdefault
    rw [List.cons_append, List.cons_append, List.cons_append,
      parseLoop_turn C ⟨ds, desc, v.withAttrs a.1 a.2.1 a.2.2, .defaultEq⟩ rfl (by simp) rfl,
      parseLoop_turn C ⟨ds, desc, v.withAttrs a.1 a.2.1 a.2.2, .default⟩ rfl (by simp) rfl]
    refine parseLoop_step C (startsDefault_counts hstarts) ?_
    rw [onToken, if_pos ⟨rfl, hstarts⟩]
    dsimp only
    rw [hdefault]
    rfl
  | defaultOption value =>
    rw [List.cons_append, List.cons_append, List.cons_append,
      parseLoop_turn C ⟨ds, desc, v.withAttrs a.1 a.2.1 a.2.2, .defaultOptionEq⟩ rfl
        (by simp) rfl,
      parseLoop_turn C ⟨ds, desc, v.withAttrs a.1 a.2.1 a.2.2, .defaultOption⟩ rfl
        (by simp) rfl]
    exact parseLoop_turn C _ rfl (by simp) rfl rest
  | displayOption value =>
    rw [List.cons_append, List.cons_append, List.cons_append,
      parseLoop_turn C ⟨ds, desc, v.withAttrs a.1 a.2.1 a.2.2, .displayOptionEq⟩ rfl
        (by simp) rfl,
      parseLoop_turn C ⟨ds, desc, v.withAttrs a.1 a.2.1 a.2.2, .displayOption⟩ rfl
        (by simp) rfl]
    exact parseLoop_turn C _ rfl (by simp) rfl rest

theorem parseLoop_attrs {v : VarDescriptor} {attrs : List (Attr v.type)} {toks : List Token}
    (h : PrintedAttrs C v.type attrs toks) (ds : List DescBuffer) (desc : DescBuffer)
    (a : Option v.type.Default × String × String) (rest : List Token) :
    parseLoop C ⟨ds, desc, v.withAttrs a.1 a.2.1 a.2.2, .var⟩ (toks ++ rest) =
      parseLoop C ⟨ds, desc, v.withAttrs (attrs.foldl addAttr a).1 (attrs.foldl addAttr a).2.1
        (attrs.foldl addAttr a).2.2, .var⟩ rest := by
  induction h generalizing a with
  | nil => rfl
  | cons hattr _ ih => rw [List.append_assoc, parseLoop_attr hattr, ih, List.foldl_cons]

/-! ## Descriptors -/

namespace Parsing

/-- A place between variables. -/
def Between (s : Parsing) : Prop := s.state = .var ∨ s.state = .statedesc

/-- The descriptor so far, with the variable that is not added yet. -/
def content (s : Parsing) : DescBuffer :=
  if s.state = .var then s.flush.descBuffer else s.descBuffer

end Parsing

/-- What is parsed of tokens between variables: nothing is lost of the descriptor so far. -/
def Parses (C : Conversions) (toks : List Token) (f : DescBuffer → DescBuffer) : Prop :=
  ∀ (s : Parsing) (rest : List Token), s.Between → ∃ s' : Parsing, s'.Between ∧
    s'.descriptors = s.descriptors ∧ s'.content = f s.content ∧
    parseLoop C s (toks ++ rest) = parseLoop C s' rest

theorem Parses.append {toks toks' : List Token} {f g : DescBuffer → DescBuffer}
    (h : Parses C toks f) (h' : Parses C toks' g) : Parses C (toks ++ toks') fun d => g (f d) := by
  intro s rest hs
  obtain ⟨s₁, hs₁, hds₁, hcontent₁, hloop₁⟩ := h s (toks' ++ rest) hs
  obtain ⟨s₂, hs₂, hds₂, hcontent₂, hloop₂⟩ := h' s₁ rest hs₁
  refine ⟨s₂, hs₂, hds₂.trans hds₁, ?_, ?_⟩
  · rw [hcontent₂, hcontent₁]
  · rw [List.append_assoc, hloop₁, hloop₂]

theorem turnState_var {s : Parsing} (hs : s.Between) :
    turnState C s .var = some ⟨s.descriptors, s.content, .clear, .varTp⟩ := by
  obtain ⟨ds, desc, v, state⟩ := s
  rcases hs with rfl | rfl
  · rfl
  · rfl

theorem turnState_version {s : Parsing} (hs : s.Between) :
    turnState C s .version = some ⟨s.descriptors, s.content, s.varBuffer, .versionN⟩ := by
  obtain ⟨ds, desc, v, state⟩ := s
  rcases hs with rfl | rfl
  · rfl
  · rfl

theorem turnState_versionN (ds : List DescBuffer) (desc : DescBuffer) (v : VarDescriptor)
    (value : String) :
    turnState C ⟨ds, desc, v, .versionN⟩ (.numeric value) =
      some ⟨ds, { desc with version := (C.strtol value).toInt32.toInt }, v, .statedesc⟩ :=
  rfl

theorem turnState_szN (ds : List DescBuffer) (desc : DescBuffer) (v : VarDescriptor) (value : String) :
    turnState C ⟨ds, desc, v, .szN⟩ (.numeric value) =
      some ⟨ds, desc, { v with size := (C.strtol value).toInt32.toInt }, .szX⟩ :=
  rfl

/-- The brace that ends a descriptor. -/
theorem turnState_close {s : Parsing} (hs : s.Between) : ∃ s' : Parsing, s'.state = .file ∧
    s'.descriptors = s.descriptors ++ [{ s.content with
      varmap := Parsing.mapVars s.content.vars s.content.varmap }] ∧
    turnState C s (.punct '}') = some s' := by
  obtain ⟨ds, desc, v, state⟩ := s
  rcases hs with rfl | rfl
  · exact ⟨_, rfl, rfl, rfl⟩
  · exact ⟨_, rfl, rfl, rfl⟩

theorem Parsing.Between.ne_default {s : Parsing} (hs : s.Between) : s.state ≠ .default := by
  rcases hs with h | h
  · rw [h]
    simp
  · rw [h]
    simp

/-- The size between its brackets. -/
theorem parseLoop_size {size : Int} {sizeToks : List Token} (h : PrintedSize C size sizeToks)
    (ds : List DescBuffer) (desc : DescBuffer) (v : VarDescriptor) (rest : List Token) :
    parseLoop C ⟨ds, desc, v, .szN⟩ (sizeToks ++ .punct ']' :: rest) =
      parseLoop C ⟨ds, desc, { v with size }, .var⟩ rest := by
  cases h with
  | fixed hsize hpos =>
    rw [List.singleton_append,
      parseLoop_turn C ⟨ds, desc, { v with size }, .szX⟩ rfl (by simp)]
    · exact parseLoop_turn C _ rfl (by simp) rfl rest
    · rw [turnState_szN, hsize]
  | any => exact parseLoop_turn C _ rfl (by simp) rfl rest

/-- The type and the name of a variable. -/
theorem parseLoop_declaration {v : VarDescriptor} {typeTok : Token} {sizeToks : List Token}
    (htype : PrintedType v.type v.typeName typeTok) (hsize : PrintedSize C v.size sizeToks)
    (ds : List DescBuffer) (desc : DescBuffer) (rest : List Token) :
    parseLoop C ⟨ds, desc, .clear, .varTp⟩
        (typeTok :: .ident v.name :: .punct '[' :: (sizeToks ++ .punct ']' :: rest)) =
      parseLoop C ⟨ds, desc, v.withAttrs none "" "", .var⟩ rest := by
  obtain ⟨type, typeName, name, size, default, defaultOption, displayOption⟩ := v
  dsimp only at htype hsize ⊢
  have hname : ∀ v : VarDescriptor, parseLoop C ⟨ds, desc, v, .varId⟩
      (.ident name :: .punct '[' :: (sizeToks ++ .punct ']' :: rest)) =
        parseLoop C ⟨ds, desc, { v with name, size }, .var⟩ rest := by
    intro v
    rw [parseLoop_turn C ⟨ds, desc, { v with name }, .varSz⟩ rfl (by simp) rfl,
      parseLoop_turn C ⟨ds, desc, { v with name }, .szN⟩ rfl (by simp) rfl,
      parseLoop_size hsize]
  cases htype with
  | keyword htype =>
    rw [parseLoop_turn C ⟨ds, desc, { VarDescriptor.clear with type, default := none }, .varId⟩
      rfl (by simp) rfl, hname]
    rfl
  | typename =>
    rw [parseLoop_turn C
      (⟨ds, desc, { VarDescriptor.clear with type := .stateDesc, typeName, default := none },
        .varId⟩)
      rfl (by simp) rfl, hname]
    rfl

/-- **A variable is added once**, as it was printed. -/
theorem parses_var {v : VarDescriptor} {toks : List Token} (h : PrintedVar C v toks) :
    Parses C toks fun d => { d with vars := d.vars ++ [v] } := by
  obtain ⟨typeTok, sizeToks, attrs, attrToks, semicolons, htype, hsize, hattrs, hfold, rfl⟩ :=
    h.exists_parts
  intro s rest hs
  refine ⟨⟨s.descriptors, s.content, v, .var⟩, .inl rfl, rfl, rfl, ?_⟩
  have hattrs' := parseLoop_attrs hattrs s.descriptors s.content (none, "", "")
    (List.replicate semicolons (.punct ';') ++ rest)
  rw [hfold] at hattrs'
  rw [List.cons_append, parseLoop_turn C _ rfl hs.ne_default (turnState_var hs), List.cons_append,
    List.cons_append, List.cons_append, List.append_assoc, List.cons_append, List.append_assoc,
    parseLoop_declaration htype hsize, hattrs', parseLoop_semicolons C (by simp)]
  rfl

theorem parses_vars {vars : List VarDescriptor} {toks : List Token} (h : PrintedVars C vars toks) :
    Parses C toks fun d => { d with vars := d.vars ++ vars } := by
  induction h with
  | nil =>
    intro s rest hs
    exact ⟨s, hs, rfl, by simp, rfl⟩
  | cons hvar _ ih =>
    have happend := (parses_var hvar).append ih
    simpa using happend

theorem parses_version {version : Int} {toks : List Token} (h : PrintedVersion C version toks) :
    Parses C toks fun d => { d with version } := by
  obtain ⟨hversion, semicolons⟩ := h
  rename_i n
  intro s rest hs
  refine ⟨⟨s.descriptors, { s.content with version }, s.varBuffer, .statedesc⟩, .inr rfl, rfl, rfl, ?_⟩
  rw [List.cons_append, List.cons_append, parseLoop_turn C _ rfl hs.ne_default (turnState_version hs),
    parseLoop_turn C ⟨s.descriptors, { s.content with version }, s.varBuffer, .statedesc⟩
      rfl (by simp), parseLoop_semicolons C (by simp)]
  rw [turnState_versionN, hversion]

/-- What a descriptor has of what is printed inside its braces. -/
theorem parses_body {version : Option Int} {vars : List VarDescriptor} {toks : List Token}
    (h : PrintedBody C version vars toks) :
    Parses C toks fun d => { d with version := version.getD d.version, vars := d.vars ++ vars } := by
  cases h with
  | versioned hversion hpos hvars hvars' =>
    have happend := (parses_vars hvars).append ((parses_version hversion).append (parses_vars hvars'))
    simpa using happend
  | unversioned hvars => simpa using parses_vars hvars

theorem mapVars_eq (vars : List VarDescriptor) :
    Parsing.mapVars vars (fun _ => none) = indexOf vars := by
  have hfold : ∀ (l : List (VarDescriptor × Nat)) (m : String → Option Int) (name : String),
      l.foldl (fun m (v, i) => Function.update m v.name (some (i : Int))) m name =
        ((l.reverse.find? fun (v, _) => v.name = name).map fun (_, i) => (i : Int)).or (m name) := by
    intro l
    induction l with
    | nil => simp
    | cons p l ih =>
      intro m name
      obtain ⟨v, i⟩ := p
      rw [List.foldl_cons, ih, List.reverse_cons, List.find?_append]
      cases hfind : l.reverse.find? fun (v, _) => v.name = name with
      | some q => simp
      | none =>
        by_cases hname : v.name = name
        · subst hname
          simp
        · simp [hname, Function.update_of_ne (Ne.symm hname)]
  funext name
  rw [Parsing.mapVars, hfold]
  simp [indexOf]

/-- A descriptor, as `parse` keeps it before the versions are looked at. -/
def Desc.kept (d : Desc) : DescBuffer where
  name := d.name
  version := d.version.getD (-1)
  vars := d.vars
  varmap := indexOf d.vars

theorem parseLoop_descs {ds : List Desc} {toks : List Token} (h : PrintedDescs C ds toks)
    (s : Parsing) (hs : s.state = .file) :
    parseLoop C s toks = some (s.descriptors ++ ds.map Desc.kept) := by
  induction h generalizing s with
  | nil => rw [parseLoop, List.map_nil, List.append_nil]
  | cons hbody hdescs ih =>
    rename_i d ds body toks
    obtain ⟨descriptors, desc, v, state⟩ := s
    obtain rfl : state = .file := hs
    -- The braces are empty of what was parsed before.
    obtain ⟨s₁, hbetween, hdescriptors, hcontent, hloop⟩ :=
      parses_body hbody ⟨descriptors, { name := d.name }, v, .statedesc⟩ (.punct '}' :: toks) (.inr rfl)
    obtain ⟨s₂, hfile, hdescriptors', hturn⟩ := turnState_close (C := C) hbetween
    rw [parseLoop_turn C ⟨descriptors, {}, v, .statedescId⟩ rfl (by simp) rfl,
      parseLoop_turn C ⟨descriptors, { name := d.name }, v, .statedescBr⟩ rfl (by simp) rfl,
      parseLoop_turn C ⟨descriptors, { name := d.name }, v, .statedesc⟩ rfl (by simp) rfl,
      hloop, parseLoop_turn C _ rfl hbetween.ne_default hturn, ih s₂ hfile, hdescriptors',
      hdescriptors, hcontent]
    show some (descriptors ++ [_] ++ _) = _
    rw [List.append_assoc, List.map_cons, List.singleton_append]
    congr 3
    rw [Desc.kept, ← mapVars_eq]
    rfl

theorem kept_filter {ds : List Desc} {toks : List Token} (h : PrintedDescs C ds toks) :
    (ds.map Desc.kept).filter (fun d => 0 ≤ d.version) = ds.filterMap Desc.parsed := by
  induction h with
  | nil => rfl
  | cons hbody hdescs ih =>
    rename_i d ds body toks
    obtain ⟨name, version, vars⟩ := d
    rw [List.map_cons, List.filter_cons, List.filterMap_cons, ih]
    cases hbody with
    | versioned hversion hpos hvars hvars' =>
      exact if_pos (decide_eq_true hpos)
    | unversioned hvars =>
      rw [if_neg (by simp [Desc.kept])]
      rfl

end

/-- **The parser inverts the printer**: whatever a file looks like in which descriptors are printed,
those with a version are parsed, and no other. -/
theorem parse_inverts_print {C : Conversions} {lnbuf : Nat → List Char → List Char}
    (hbuf : Holds .written lnbuf) {ds : List Desc} {file : List Char} (h : PrintedFile C ds file) :
    parseFile C lnbuf file = some (ds.filterMap Desc.parsed) := by
  obtain ⟨toks, hdescs, hfile⟩ := h
  have hloop := parseLoop_descs hdescs {} rfl
  rw [parseFile, tokensFrom_renders hbuf hfile, Option.bind_some, parse, hloop, Option.map_some,
    ← kept_filter hdescs]
  rfl

/-- `VAR BOOL b[1] DEFAULT=0 DEFAULTOPTION=VAULT`. -/
def boolVar : VarDescriptor :=
  { type := .bool, name := "b", size := 1, default := some false, defaultOption := "VAULT" }

def boolTokens : List Token :=
  [.var, .type .bool, .ident "b", .punct '[', .numeric "1", .punct ']', .default, .punct '=',
    .numeric "0", .defaultOption, .punct '=', .ident "VAULT"]

theorem printed_bool : PrintedVar decimals boolVar boolTokens := by
  have hdenotes : Denotes decimals .bool [.numeric "0"] false := by
    refine .inl ⟨"0", rfl, ?_⟩
    decide
  have hattrs := PrintedAttrs.cons (.default hdenotes (.one rfl (by decide)))
    (.cons (.defaultOption "VAULT") .nil)
  exact ⟨.type .bool, [.numeric "1"], _, _, 0, .keyword (by decide), .fixed (by decide) (by decide),
    hattrs, rfl, rfl⟩

/-- A door of version 1 behind one without a version. -/
def doorTokens : List Token :=
  .statedesc :: .ident "Door" :: .punct '{' :: (boolTokens ++ Token.punct '}' ::
    .statedesc :: .ident "Door" :: .punct '{' ::
      ((boolTokens ++ ([Token.version, Token.numeric "1"] ++ [])) ++ Token.punct '}' :: []))

theorem parse_inverts_print_door :
    parseFile decimals (filled .written nul) (spaced doorTokens) =
      some ([⟨"Door", none, [boolVar]⟩, ⟨"Door", some 1, [boolVar]⟩].filterMap Desc.parsed) := by
  refine parse_inverts_print (holds_filled .written nul) ⟨doorTokens, ?_, .last ⟨?_, ?_, ?_⟩⟩
  · have hvars : PrintedVars decimals [boolVar] (boolTokens ++ []) := .cons printed_bool .nil
    rw [List.append_nil] at hvars
    refine .cons (.unversioned hvars) (.cons ?_ .nil)
    have hversion : PrintedVersion decimals 1 [.version, .numeric "1"] :=
      .version (by decide) 0
    have hbody := PrintedBody.versioned hversion (by decide) hvars .nil
    exact hbody
  · exact renders_spaced (by decide)
  · decide
  · decide +kernel

end Dirtsand.SDL
