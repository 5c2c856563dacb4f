import Dirtsand.Types.Text
import Dirtsand.Streams.Ciphers
import Dirtsand.Lib.Path

/-!
# Settings

`Settings::LoadFrom` and `Settings::UseDefaults` (settings.cpp), with the functions
of string_theory that they use.

* `loadFrom_rooted` — after a settings file was accepted, a data root is the one
  that is built in, or ends with a slash.
-/

namespace Dirtsand

/-! ## Parts of strings -/

/-- The characters that `ST::string::trim` takes off. -/
def isTrimmed (c : Char) : Bool := c = ' ' || c = '\t' || c = '\r' || c = '\n'

def trim (s : String) : String :=
  String.ofList ((s.toList.dropWhile isTrimmed).reverse.dropWhile isTrimmed).reverse

def beforeFirst (sep : Char) (s : String) : String := String.ofList (s.toList.takeWhile (· ≠ sep))

/-- `split(sep, 1)`, where it makes two. -/
def splitFirst (sep : Char) (s : String) : Option (String × String) :=
  match s.toList.dropWhile (· ≠ sep) with
  | [] => none
  | _ :: rest => some (beforeFirst sep s, String.ofList rest)

/-- `left(find_last(sep))`, where there is one. -/
def beforeLast (sep : Char) (s : String) : Option String :=
  match s.toList.reverse.dropWhile (· ≠ sep) with
  | [] => none
  | _ :: rest => some (String.ofList rest.reverse)

/-- `after_last(sep)`: all of it, where there is none. -/
def afterLast (sep : Char) (s : String) : String :=
  String.ofList (s.toList.reverse.takeWhile (· ≠ sep)).reverse

/-! ## The settings -/

/-- `KeyType`. -/
inductive KeyType where
  | gateN | gateK | authN | authK | gameN | gameK
deriving DecidableEq

structure Settings where
  cryptKeys : KeyType → List UInt8
  droidKey : EncryptedStream.Key
  fileServ : String
  authServ : String
  gameServ : String
  lobbyAddr : String := ""
  lobbyPort : String
  statusAddr : String := ""
  statusPort : String
  fileRoot : String
  authRoot : String
  sdlPath : String
  agePath : String
  settingsPath : String := ""
  dbHostname : String
  dbPort : String
  dbUsername : String
  dbPassword : String
  dbDbase : String
  statusEnabled : Bool
  welcome : String := ""

namespace Settings

/-- `UseDefaults`, on settings that nobody set before. -/
def defaults : Settings where
  cryptKeys _ := List.replicate 64 0
  droidKey := Vector.replicate 4 0
  authServ := "localhost"
  fileServ := "localhost"
  gameServ := "localhost"
  lobbyPort := "14617"
  statusPort := "8080"
  statusEnabled := true
  fileRoot := "./data"
  authRoot := "./authdata"
  sdlPath := "./SDL"
  agePath := "./ages"
  dbHostname := "localhost"
  dbPort := "5432"
  dbUsername := "dirtsand"
  dbPassword := ""
  dbDbase := "dirtsand"

/-- What string_theory makes of texts, `none` where it throws. -/
structure Codecs where
  ofBytes : List UInt8 → Option String
  base64Decode : String → Option (List UInt8)
  hexDecode : String → Option (List UInt8)
  toBool : String → Bool

/-- A string that is made of a `const char*` has no NUL in it. -/
def Codecs.Plain (codecs : Codecs) : Prop :=
  ∀ bytes text, 0 ∉ bytes → codecs.ofBytes bytes = some text → '\x00' ∉ text.toList

/-- `BUF_TO_UINT`. -/
def bufToUint (bytes : List UInt8) : UInt32 :=
  UInt32.ofNat (bytes.foldl (fun n b => n * 256 + b.toNat) 0)

/-- `DS_LOADBLOB`. -/
def loadBlob (codecs : Codecs) (fixedsize : Nat) (value : String) : Option (List UInt8) := do
  let data ← codecs.base64Decode value
  if data.length ≠ fixedsize then none else some data

def setCryptKey (codecs : Codecs) (s : Settings) (key : KeyType) (value : String) :
    Option Settings := do
  let data ← loadBlob codecs 64 value
  some { s with cryptKeys := fun k => if k = key then data else s.cryptKeys k }

def setDroidKey (codecs : Codecs) (s : Settings) (value : String) : Option Settings := do
  let data ← codecs.hexDecode value
  if data.length ≠ 16 then none
  else
    some { s with droidKey := Vector.ofFn fun i => bufToUint ((data.drop (4 * i.val)).take 4) }

/-- A root, with a slash at its end. -/
def withSlash (root : String) : String :=
  if root.toList.getLast? ≠ some '/' then root ++ "/" else root

/-- The settings that are keys. -/
def keyParams : List (String × KeyType) :=
  [("Key.Auth.N", .authN), ("Key.Auth.K", .authK), ("Key.Game.N", .gameN), ("Key.Game.K", .gameK),
    ("Key.Gate.N", .gateN), ("Key.Gate.K", .gateK)]

/-- The settings that are texts. -/
def textParams (codecs : Codecs) : List (String × (Settings → String → Settings)) :=
  [("File.Host", fun s value => { s with fileServ := value }),
    ("Auth.Host", fun s value => { s with authServ := value }),
    ("Game.Host", fun s value => { s with gameServ := value }),
    ("Lobby.Addr", fun s value => { s with lobbyAddr := value }),
    ("Lobby.Port", fun s value => { s with lobbyPort := value }),
    ("Status.Addr", fun s value => { s with statusAddr := value }),
    ("Status.Port", fun s value => { s with statusPort := value }),
    ("Status.Enabled", fun s value => { s with statusEnabled := codecs.toBool value }),
    ("File.Root", fun s value => { s with fileRoot := withSlash value }),
    ("Auth.Root", fun s value => { s with authRoot := withSlash value }),
    ("Sdl.Path", fun s value => { s with sdlPath := value }),
    ("Age.Path", fun s value => { s with agePath := value }),
    ("Db.Host", fun s value => { s with dbHostname := value }),
    ("Db.Port", fun s value => { s with dbPort := value }),
    ("Db.Username", fun s value => { s with dbUsername := value }),
    ("Db.Password", fun s value => { s with dbPassword := value }),
    ("Db.Database", fun s value => { s with dbDbase := value }),
    ("Welcome.Msg", fun s value => { s with welcome := value })]

/-- What a line with this key and this value does, `none` where the file is not accepted.  A key
that is not known is ignored. -/
def setParam (codecs : Codecs) (s : Settings) (key value : String) : Option Settings :=
  match keyParams.lookup key with
  | some type => setCryptKey codecs s type value
  | none =>
    if key = "Key.Droid" then setDroidKey codecs s value
    else match (textParams codecs).lookup key with
    | some set => some (set s value)
    | none => some s

/-- What is in the buffer after `fgets`, and what is left of the file. -/
def fgets : Nat → List UInt8 → List UInt8 × List UInt8
  | 0, bytes => ([], bytes)
  | _ + 1, [] => ([], [])
  | n + 1, b :: bytes =>
    if b = 10 then ([b], bytes)
    else
      let (line, rest) := fgets n bytes
      (b :: line, rest)

theorem length_fgets (n : Nat) (bytes : List UInt8) : (fgets n bytes).2.length ≤ bytes.length := by
  induction n generalizing bytes with
  | zero => exact Nat.le_refl _
  | succ n ih =>
    cases bytes with
    | nil => exact Nat.le_refl _
    | cons b bytes =>
      rw [fgets]
      split
      · exact Nat.le_succ _
      · exact Nat.le_succ_of_le (ih bytes)

theorem length_fgets_lt {n : Nat} {bytes : List UInt8} (h : bytes ≠ []) :
    (fgets (n + 1) bytes).2.length < bytes.length := by
  obtain ⟨b, bytes, rfl⟩ := List.exists_cons_of_ne_nil h
  rw [fgets]
  split
  · exact Nat.lt_succ_self _
  · exact Nat.lt_succ_of_le (length_fgets n bytes)

/-- The body of the loop over the lines. -/
def loadLine (codecs : Codecs) (s : Settings) (buffer : List UInt8) : Option Settings := do
  let text ← codecs.ofBytes (buffer.takeWhile (· ≠ 0))
  let line := trim (beforeFirst '#' text)
  if line = "" then some s
  else match splitFirst '=' line with
  | none => some s
  | some (key, value) => setParam codecs s (trim key) (trim value)

def loadLines (codecs : Codecs) (s : Settings) (bytes : List UInt8) : Option Settings :=
  if bytes = [] then some s
  else
    match loadLine codecs s (fgets 4095 bytes).1 with
    | none => none
    | some s => loadLines codecs s (fgets 4095 bytes).2
termination_by bytes.length
decreasing_by exact length_fgets_lt ‹_›

theorem loadLines_nil (codecs : Codecs) (s : Settings) : loadLines codecs s [] = some s := by
  rw [loadLines, if_pos rfl]

theorem loadLines_of_line {codecs : Codecs} {s : Settings} {bytes : List UInt8} (h : bytes ≠ [])
    (hlast : (fgets 4095 bytes).2 = []) :
    loadLines codecs s bytes = loadLine codecs s (fgets 4095 bytes).1 := by
  rw [loadLines, if_neg h, hlast]
  cases loadLine codecs s (fgets 4095 bytes).1 with
  | none => rfl
  | some s => exact loadLines_nil codecs s

/-- `LoadFrom`, with the bytes of the file if it can be opened; `none` where it is not accepted. -/
def loadFrom (codecs : Codecs) (filename : String) (file : Option (List UInt8)) :
    Option Settings := do
  let settingsPath := (beforeLast '/' filename).getD "."
  let bytes ← file
  loadLines codecs { defaults with settingsPath } bytes

/-! ## What was accepted -/

/-- A text with no NUL, as a `const char*` has one. -/
def NoNul (s : String) : Prop := '\x00' ∉ s.toList

instance (s : String) : Decidable (NoNul s) := inferInstanceAs (Decidable (_ ∉ _))

/-- The settings that some functions for paths rely on. -/
structure Rooted (s : Settings) : Prop where
  fileRoot : s.fileRoot = "./data" ∨ s.fileRoot.toList.getLast? = some '/'
  authRoot : s.authRoot = "./authdata" ∨ s.authRoot.toList.getLast? = some '/'
  fileNul : NoNul s.fileRoot
  authNul : NoNul s.authRoot
  sdlNul : NoNul s.sdlPath

theorem getLast_withSlash (root : String) : (withSlash root).toList.getLast? = some '/' := by
  rw [withSlash]
  split
  · rw [String.toList_append]
    exact List.getLast?_concat
  · rename_i h
    exact not_not.1 h

theorem NoNul.withSlash {root : String} (h : NoNul root) : NoNul (withSlash root) := by
  rw [Settings.withSlash]
  split
  · rw [NoNul, String.toList_append, List.mem_append, not_or]
    exact ⟨h, by decide⟩
  · exact h

theorem NoNul.of_subset {s t : String} (h : NoNul s) (hsub : t.toList ⊆ s.toList) : NoNul t :=
  fun hmem => h (hsub hmem)

theorem trim_subset (s : String) : (trim s).toList ⊆ s.toList := by
  intro c hc
  rw [trim, String.toList_ofList, List.mem_reverse] at hc
  have hback := (List.dropWhile_suffix isTrimmed).subset hc
  rw [List.mem_reverse] at hback
  exact (List.dropWhile_suffix isTrimmed).subset hback

theorem beforeFirst_subset (sep : Char) (s : String) : (beforeFirst sep s).toList ⊆ s.toList := by
  rw [beforeFirst, String.toList_ofList]
  exact (List.takeWhile_prefix _).subset

theorem splitFirst_subset {sep : Char} {s key value : String}
    (h : splitFirst sep s = some (key, value)) : value.toList ⊆ s.toList := by
  rw [splitFirst] at h
  split at h
  · cases h
  · rename_i c rest hrest
    cases h
    intro d hd
    rw [String.toList_ofList] at hd
    apply (List.dropWhile_suffix (· ≠ sep)).subset
    rw [hrest]
    exact List.mem_cons_of_mem c hd

theorem defaults_rooted (settingsPath : String) : Rooted { defaults with settingsPath } where
  fileRoot := .inl rfl
  authRoot := .inl rfl
  fileNul := show NoNul defaults.fileRoot by decide
  authNul := show NoNul defaults.authRoot by decide
  sdlNul := show NoNul defaults.sdlPath by decide

section

variable {codecs : Codecs}

theorem Rooted.setCryptKey {s s' : Settings} (hs : Rooted s) {key : KeyType} {value : String}
    (h : setCryptKey codecs s key value = some s') : Rooted s' := by
  obtain ⟨data, -, hdata⟩ := Option.bind_eq_some_iff.1 h
  cases hdata
  exact ⟨hs.fileRoot, hs.authRoot, hs.fileNul, hs.authNul, hs.sdlNul⟩

theorem Rooted.setDroidKey {s s' : Settings} (hs : Rooted s) {value : String}
    (h : setDroidKey codecs s value = some s') : Rooted s' := by
  obtain ⟨data, -, hdata⟩ := Option.bind_eq_some_iff.1 h
  split at hdata
  · cases hdata
  · cases hdata
    exact ⟨hs.fileRoot, hs.authRoot, hs.fileNul, hs.authNul, hs.sdlNul⟩

theorem Rooted.textParam {s : Settings} (hs : Rooted s) {value : String} (hvalue : NoNul value) :
    ∀ p ∈ textParams codecs, Rooted (p.2 s value) := by
  obtain ⟨hfile, hauth, hfileNul, hauthNul, hsdlNul⟩ := hs
  have hsame : ∀ s' : Settings, s'.fileRoot = s.fileRoot → s'.authRoot = s.authRoot →
      s'.sdlPath = s.sdlPath → Rooted s' := by
    intro s' hf ha hsdl
    exact ⟨hf ▸ hfile, ha ▸ hauth, hf ▸ hfileNul, ha ▸ hauthNul, hsdl ▸ hsdlNul⟩
  simp only [textParams, List.forall_mem_cons]
  refine ⟨?_, ?_, ?_, ?_, ?_, ?_, ?_, ?_, ?fileRoot, ?authRoot, ?sdlPath, ?_, ?_, ?_, ?_, ?_, ?_, ?_,
    fun p hp => absurd hp List.not_mem_nil⟩
  case fileRoot => exact ⟨.inr (getLast_withSlash value), hauth, hvalue.withSlash, hauthNul, hsdlNul⟩
  case authRoot => exact ⟨hfile, .inr (getLast_withSlash value), hfileNul, hvalue.withSlash, hsdlNul⟩
  case sdlPath => exact ⟨hfile, hauth, hfileNul, hauthNul, hvalue⟩
  all_goals exact hsame _ rfl rfl rfl

/-- **A line keeps the roots well formed.** -/
theorem Rooted.setParam {s s' : Settings} (hs : Rooted s) {key value : String}
    (hvalue : NoNul value) (h : setParam codecs s key value = some s') : Rooted s' := by
  rw [Settings.setParam] at h
  split at h
  · exact hs.setCryptKey h
  · split at h
    · exact hs.setDroidKey h
    · split at h
      · rename_i set hset
        obtain rfl := Option.some.inj h
        obtain ⟨before, after, hlist, -⟩ := List.lookup_eq_some_iff.1 hset
        have hmem : (key, set) ∈ textParams codecs := by
          rw [hlist]
          exact List.mem_append_right _ List.mem_cons_self
        exact hs.textParam hvalue _ hmem
      · cases h
        exact hs

theorem Rooted.loadLine (hplain : codecs.Plain) {s s' : Settings} (hs : Rooted s)
    {buffer : List UInt8} (h : loadLine codecs s buffer = some s') : Rooted s' := by
  obtain ⟨text, htext, h⟩ := Option.bind_eq_some_iff.1 h
  have hzero : 0 ∉ buffer.takeWhile (· ≠ 0) := by
    intro hmem
    have hne := List.mem_takeWhile_imp hmem
    rw [decide_eq_true_iff] at hne
    exact hne rfl
  have hnul : NoNul text := hplain _ text hzero htext
  have hline : NoNul (trim (beforeFirst '#' text)) :=
    (hnul.of_subset (beforeFirst_subset '#' text)).of_subset (trim_subset _)
  dsimp only at h
  split at h
  · cases h
    exact hs
  · split at h
    · cases h
      exact hs
    · rename_i key value hsplit
      exact hs.setParam ((hline.of_subset (splitFirst_subset hsplit)).of_subset (trim_subset value)) h

theorem Rooted.loadLines (hplain : codecs.Plain) {s s' : Settings} (hs : Rooted s)
    {bytes : List UInt8} (h : loadLines codecs s bytes = some s') : Rooted s' := by
  induction s, bytes using Settings.loadLines.induct codecs with
  | case1 s =>
    rw [Settings.loadLines, if_pos rfl] at h
    cases h
    exact hs
  | case2 s bytes hne hnone =>
    rw [Settings.loadLines, if_neg hne, hnone] at h
    cases h
  | case3 s bytes hne s₁ hsome ih =>
    rw [Settings.loadLines, if_neg hne, hsome] at h
    exact ih (hs.loadLine hplain hsome) h

/-- **In settings that were accepted, a data root is the one that is built in, or ends with a
slash.** -/
theorem loadFrom_rooted (hplain : codecs.Plain) {filename : String} {file : Option (List UInt8)}
    {s : Settings} (h : loadFrom codecs filename file = some s) : Rooted s := by
  obtain ⟨bytes, -, hlines⟩ := Option.bind_eq_some_iff.1 h
  exact (defaults_rooted _).loadLines hplain hlines

end

end Settings

end Dirtsand
