import Dirtsand.Settings
import Dirtsand.Lib.Path

/-!
# Files that a client names to the auth server

`cb_fileList` and `cb_downloadStart` (AuthServ/AuthServer.cpp), to the path that
they open.  They put the name of the client behind a root, as one text.

* `opened_inside` — what is opened lies inside of the root if there is a slash
  between the two, and the name, up to its first NUL, leads somewhere.
* `auth_manifest_inside`, `auth_download_inside` — so for the two handlers.
-/

namespace Dirtsand.Files

open Lib.Path (Inside Joined parts parent leads)

/-! ## Names -/

/-- `find(text) != -1`. -/
def finds (s text : String) : Bool := text.toList <:+: s.toList

def hasPathCharacters (name : String) : Bool :=
  finds name "." || finds name "/" || finds name "\\" || finds name ":"

/-- `replace("\\", "/")`. -/
def withSlashes (name : String) : String :=
  String.ofList (name.toList.map fun c => if c = '\\' then '/' else c)

/-- `compare_i(...) == 0`. -/
def equalsI (s t : String) : Bool := s.toList.map Char.toLower = t.toList.map Char.toLower

/-- `cb_fileList`: the manifest that is opened.  For the SDL files it is made up from the names in
the SDL directory. -/
def authManifestPath (s : Settings) (directory fileext : String) : Option String :=
  if hasPathCharacters directory || hasPathCharacters fileext then none
  else if equalsI directory "SDL" && equalsI fileext "sdl" then none
  else some (s.authRoot ++ (directory ++ "_" ++ fileext ++ ".list"))

/-- A file in the server's SDL directory. -/
def isSdlFile (filename : String) : Bool :=
  match beforeLast '/' filename with
  | none => false
  | some directory => equalsI directory "SDL" && equalsI (afterLast '.' filename) "sdl"

/-- What is put behind the SDL path: `substr(find_last('/'))`. -/
def sdlName (filename : String) : String := "/" ++ afterLast '/' filename

/-- `cb_downloadStart`: the file that is opened. -/
def authDownloadPath (s : Settings) (filename : String) : Option String :=
  let filename := withSlashes filename
  if finds filename ".." then none
  else if isSdlFile filename then some (s.sdlPath ++ sdlName filename)
  else some (s.authRoot ++ filename)

/-- A name, as far as a `const char*` has it, leads into the directory that it is put behind. -/
def Leads (root name : String) : Prop :=
  Joined root.toList (cstr name).toList ∧ parts (cstr name).toList ≠ []

instance (root name : String) : Decidable (Leads root name) :=
  inferInstanceAs (Decidable (_ ∧ _))

/-! ## What is opened -/

theorem cstr_append {root : String} (h : Settings.NoNul root) (name : String) :
    (cstr (root ++ name)).toList = root.toList ++ (cstr name).toList := by
  have hall : ∀ c ∈ root.toList, decide (c ≠ '\x00') = true := by
    intro c hc
    refine decide_eq_true ?_
    rintro rfl
    exact h hc
  rw [cstr, cstr, String.toList_ofList, String.toList_ofList, String.toList_append,
    List.takeWhile_append_of_pos hall]

theorem cstr_takes (name : String) : (cstr name).toList <+: name.toList := by
  rw [cstr, String.toList_ofList]
  exact List.takeWhile_prefix _

/-- The roots of settings that were accepted: the last part of one that is built in has no slash. -/
def IsRoot (root : String) : Prop :=
  root = "./data" ∨ root = "./authdata" ∨ root.toList.getLast? = some '/'

/-- **What is opened lies inside of the root exactly if the name leads into it.** -/
theorem opened_inside {root name : String} (hroot : IsRoot root) (hnul : Settings.NoNul root)
    (hparent : ¬ parent <:+: name.toList) :
    Inside root.toList (cstr (root ++ name)).toList ↔ Leads root name := by
  have hparent' : ¬ parent <:+: (cstr name).toList :=
    fun h => hparent (h.trans (cstr_takes name).isInfix)
  rw [cstr_append hnul, Leads]
  by_cases hjoined : Joined root.toList (cstr name).toList
  · have hne : root.toList ≠ [] := by
      obtain rfl | rfl | hlast := hroot
      · decide
      · decide
      · intro hnil
        rw [hnil] at hlast
        cases hlast
    rw [Lib.Path.inside_append hne hjoined hparent']
    exact ⟨fun h => ⟨hjoined, h⟩, And.right⟩
  · have hhead : (cstr name).toList.head? ≠ some '/' := fun h => hjoined (.inr h)
    refine ⟨fun h => ?_, fun h => absurd h.1 hjoined⟩
    obtain rfl | rfl | hlast := hroot
    · exact absurd h (@Lib.Path.not_inside_append ['.', '/'] "data".toList _ rfl (by decide)
        (by decide) hhead)
    · exact absurd h (@Lib.Path.not_inside_append ['.', '/'] "authdata".toList _ rfl (by decide)
        (by decide) hhead)
    · exact absurd (.inl hlast) hjoined

theorem not_finds {s text : String} (h : finds s text = false) : ¬ text.toList <:+: s.toList :=
  of_decide_eq_false h

theorem not_mem_of_plain {name : String} (h : hasPathCharacters name = false) :
    '.' ∉ name.toList := by
  rw [hasPathCharacters, Bool.or_eq_false_iff, Bool.or_eq_false_iff, Bool.or_eq_false_iff] at h
  intro hmem
  obtain ⟨before, after, heq⟩ := List.append_of_mem hmem
  exact not_finds h.1.1.1 ⟨before, after, by rw [heq, List.append_assoc]; rfl⟩

/-- A name with one dot has no two of them in a row. -/
theorem parent_not_within {name : List Char} (h : name.count '.' ≤ 1) : ¬ parent <:+: name := by
  intro hwithin
  have hcount := hwithin.sublist.count_le '.'
  have htwo : parent.count '.' = 2 := rfl
  omega

theorem sdlName_parent {filename : String} (h : ¬ parent <:+: filename.toList) :
    ¬ parent <:+: (sdlName filename).toList := by
  intro hwithin
  rw [sdlName, String.toList_append] at hwithin
  have hslash : "/".toList ++ (afterLast '/' filename).toList =
      '/' :: (afterLast '/' filename).toList := rfl
  rw [hslash, List.infix_cons_iff] at hwithin
  obtain hbegin | hwithin := hwithin
  · have hhead := (List.cons_prefix_cons.1 hbegin).1
    cases hhead
  · refine h (hwithin.trans ?_)
    rw [afterLast, String.toList_ofList]
    have hbegin := List.takeWhile_prefix (· ≠ '/') (l := filename.toList.reverse)
    rw [← List.reverse_suffix, List.reverse_reverse] at hbegin
    exact hbegin.isInfix

/-- **A SDL file is opened inside of the SDL directory exactly if its name leads into it**, and the
directory has a name. -/
theorem sdl_inside {sdlPath : String} (hnul : Settings.NoNul sdlPath) {filename : String}
    (hparent : ¬ parent <:+: filename.toList) :
    Inside sdlPath.toList (cstr (sdlPath ++ sdlName filename)).toList ↔
      sdlPath ≠ "" ∧ Leads sdlPath (sdlName filename) := by
  have hslash : (cstr (sdlName filename)).toList.head? = some '/' := by
    rw [cstr, String.toList_ofList, sdlName, String.toList_append]
    rfl
  rw [cstr_append hnul]
  by_cases hempty : sdlPath = ""
  · subst hempty
    have hroot : "".toList = [] := rfl
    rw [hroot, List.nil_append]
    exact ⟨fun h => absurd h (Lib.Path.not_inside_nil hslash), fun h => absurd rfl h.1⟩
  · have hne : sdlPath.toList ≠ [] := fun hnil => hempty (String.toList_eq_nil_iff.1 hnil)
    have hparent' : ¬ parent <:+: (cstr (sdlName filename)).toList :=
      fun h => sdlName_parent hparent (h.trans (cstr_takes _).isInfix)
    rw [Lib.Path.inside_append hne (.inr hslash) hparent', Leads]
    exact ⟨fun h => ⟨hempty, .inr hslash, h⟩, fun h => h.2.2⟩

theorem auth_manifest_inside {s : Settings} (hs : s.Rooted) {directory fileext path : String}
    (h : authManifestPath s directory fileext = some path) :
    Inside s.authRoot.toList (cstr path).toList ↔
      Leads s.authRoot (directory ++ "_" ++ fileext ++ ".list") := by
  rw [authManifestPath] at h
  split at h
  · cases h
  · rename_i hplain
    split at h
    · cases h
    · obtain rfl := Option.some.inj h
      rw [Bool.not_eq_true, Bool.or_eq_false_iff] at hplain
      refine opened_inside (.inr hs.authRoot) hs.authNul (parent_not_within ?_)
      have hdirectory := List.count_eq_zero.2 (not_mem_of_plain hplain.1)
      have hfileext := List.count_eq_zero.2 (not_mem_of_plain hplain.2)
      have hunderscore : "_".toList.count '.' = 0 := rfl
      have hlist : ".list".toList.count '.' = 1 := rfl
      simp only [String.toList_append, List.count_append]
      omega

theorem auth_download_inside {s : Settings} (hs : s.Rooted) {filename path : String}
    (h : authDownloadPath s filename = some path) :
    (isSdlFile (withSlashes filename) = true →
      (Inside s.sdlPath.toList (cstr path).toList ↔
        s.sdlPath ≠ "" ∧ Leads s.sdlPath (sdlName (withSlashes filename)))) ∧
    (isSdlFile (withSlashes filename) = false →
      (Inside s.authRoot.toList (cstr path).toList ↔ Leads s.authRoot (withSlashes filename))) := by
  rw [authDownloadPath] at h
  split at h
  · cases h
  · rename_i hdots
    have hparent : ¬ parent <:+: (withSlashes filename).toList :=
      not_finds (Bool.eq_false_of_not_eq_true hdots)
    split at h
    · rename_i hsdl
      obtain rfl := Option.some.inj h
      refine ⟨fun _ => sdl_inside hs.sdlNul hparent, fun hnot => ?_⟩
      rw [hsdl] at hnot
      cases hnot
    · rename_i hnot
      obtain rfl := Option.some.inj h
      exact ⟨fun hsdl => absurd hsdl hnot,
        fun _ => opened_inside (.inr hs.authRoot) hs.authNul hparent⟩

end Dirtsand.Files
