import Dirtsand.AuthServ.FilePaths

/-!
# Files that a client names to the file server

`cb_manifest` and `cb_downloadStart` (FileServ/FileServer.cpp), to the path that
they open, and what holds of all four handlers that open a file by its name.

* `requests_jailed` — with any settings that were accepted, what is opened lies
  inside of the configured directory exactly if there is a slash between the two,
  and the name, up to its first NUL, leads somewhere.  The roots that are built in
  have no slash at their end.
-/

namespace Dirtsand.Files

open Lib.Path (Inside parts parent)

/-- A client of another build is disconnected. -/
def wrongBuild (productBuildId buildId : UInt32) : Bool := buildId ≠ 0 && buildId ≠ productBuildId

/-- `cb_manifest`: the manifest that is opened. -/
def fileManifestPath (productBuildId : UInt32) (s : Settings) (mfsname : String)
    (buildId : UInt32) : Option String :=
  if wrongBuild productBuildId buildId then none
  else if hasPathCharacters mfsname then none
  else some (s.fileRoot ++ (mfsname ++ ".mfs"))

/-- `cb_downloadStart`: the file that is opened. -/
def fileDownloadPath (productBuildId : UInt32) (s : Settings) (filename : String)
    (buildId : UInt32) : Option String :=
  if wrongBuild productBuildId buildId then none
  else if finds filename ".." then none
  else some (s.fileRoot ++ withSlashes filename)

theorem file_manifest_inside {productBuildId buildId : UInt32} {s : Settings} (hs : s.Rooted)
    {mfsname path : String} (h : fileManifestPath productBuildId s mfsname buildId = some path) :
    Inside s.fileRoot.toList (cstr path).toList ↔ Leads s.fileRoot (mfsname ++ ".mfs") := by
  rw [fileManifestPath] at h
  split at h
  · cases h
  · split at h
    · cases h
    · rename_i hplain
      obtain rfl := Option.some.inj h
      refine opened_inside (hs.fileRoot.elim .inl fun h => .inr (.inr h)) hs.fileNul
        (parent_not_within ?_)
      have hname := List.count_eq_zero.2 (not_mem_of_plain (Bool.eq_false_of_not_eq_true hplain))
      have hmfs : ".mfs".toList.count '.' = 1 := rfl
      rw [String.toList_append, List.count_append, hname, hmfs]

/-- Slashes for backslashes make no two dots in a row. -/
theorem withSlashes_parent {name : String} (h : ¬ parent <:+: name.toList) :
    ¬ parent <:+: (withSlashes name).toList := by
  rw [withSlashes, String.toList_ofList]
  rintro ⟨before, after, heq⟩
  rw [eq_comm, List.map_eq_append_iff] at heq
  obtain ⟨front, after', hname, hfront, -⟩ := heq
  obtain ⟨before', dots, rfl, -, hdots⟩ := List.map_eq_append_iff.1 hfront
  refine h ⟨before', after', ?_⟩
  have hback : dots = parent := by
    have hkeep : ∀ c : Char, (if c = '\\' then '/' else c) = '.' → c = '.' := by
      intro c hc
      split at hc
      · cases hc
      · exact hc
    obtain ⟨c, rest, rfl, hc, hrest⟩ := List.map_eq_cons_iff.1 hdots
    obtain ⟨d, rest', rfl, hd, hnil⟩ := List.map_eq_cons_iff.1 hrest
    rw [List.map_eq_nil_iff.1 hnil, hkeep c hc, hkeep d hd]
    rfl
  rw [hname, hback]

theorem file_download_inside {productBuildId buildId : UInt32} {s : Settings} (hs : s.Rooted)
    {filename path : String} (h : fileDownloadPath productBuildId s filename buildId = some path) :
    Inside s.fileRoot.toList (cstr path).toList ↔ Leads s.fileRoot (withSlashes filename) := by
  rw [fileDownloadPath] at h
  split at h
  · cases h
  · split at h
    · cases h
    · rename_i hdots
      obtain rfl := Option.some.inj h
      have hparent : ¬ parent <:+: filename.toList :=
        not_finds (Bool.eq_false_of_not_eq_true hdots)
      exact opened_inside (hs.fileRoot.elim .inl fun h => .inr (.inr h)) hs.fileNul
        (withSlashes_parent hparent)

/-- **File requests are jailed where the name leads into its root.**  With any settings that were
accepted, and any name, what a handler opens lies strictly inside of its directory exactly if
there is a slash between the directory and the name and the name, up to its first NUL, leads
somewhere; and, of a SDL file, if the SDL directory has a name. -/
theorem requests_jailed {codecs : Settings.Codecs} (hplain : codecs.Plain) {config : String}
    {file : Option (List UInt8)} {s : Settings}
    (h : Settings.loadFrom codecs config file = some s) :
    (∀ directory fileext path, authManifestPath s directory fileext = some path →
      (Inside s.authRoot.toList (cstr path).toList ↔
        Leads s.authRoot (directory ++ "_" ++ fileext ++ ".list"))) ∧
    (∀ filename path, authDownloadPath s filename = some path →
      (isSdlFile (withSlashes filename) = true →
        (Inside s.sdlPath.toList (cstr path).toList ↔
          s.sdlPath ≠ "" ∧ Leads s.sdlPath (sdlName (withSlashes filename)))) ∧
      (isSdlFile (withSlashes filename) = false →
        (Inside s.authRoot.toList (cstr path).toList ↔
          Leads s.authRoot (withSlashes filename)))) ∧
    (∀ productBuildId buildId mfsname path,
      fileManifestPath productBuildId s mfsname buildId = some path →
        (Inside s.fileRoot.toList (cstr path).toList ↔ Leads s.fileRoot (mfsname ++ ".mfs"))) ∧
    ∀ productBuildId buildId filename path,
      fileDownloadPath productBuildId s filename buildId = some path →
        (Inside s.fileRoot.toList (cstr path).toList ↔ Leads s.fileRoot (withSlashes filename)) := by
  have hs := Settings.loadFrom_rooted hplain h
  refine ⟨fun directory fileext path => auth_manifest_inside hs,
    fun filename path => auth_download_inside hs, ?_, ?_⟩
  · intro productBuildId buildId mfsname path
    exact file_manifest_inside hs
  · intro productBuildId buildId filename path
    exact file_download_inside hs

/-- Texts in ASCII, and no keys. -/
def asciiCodecs : Settings.Codecs where
  ofBytes bytes := some (String.ofList (bytes.map fun b => Char.ofNat b.toNat))
  base64Decode _ := none
  hexDecode _ := none
  toBool text := text = "true"

theorem plain_asciiCodecs : asciiCodecs.Plain := by
  intro bytes text hzero htext hmem
  obtain rfl := Option.some.inj htext
  rw [String.toList_ofList, List.mem_map] at hmem
  obtain ⟨b, hb, heq⟩ := hmem
  have hnat := Streams.toNat_latin1 b
  rw [heq] at hnat
  have hbyte : b = 0 := UInt8.toNat_inj.1 hnat.symm
  rw [hbyte] at hb
  exact hzero hb

theorem requests_jailed_python :
    ∃ s, Settings.loadFrom asciiCodecs "dirtsand.ini"
        (some (Streams.toLatin1 "Auth.Root = /srv/auth\n")) = some s ∧
      s.authRoot = "/srv/auth/" ∧
      Inside s.authRoot.toList (cstr (s.authRoot ++ "Python/python.pak")).toList := by
  have hload : (Settings.loadFrom asciiCodecs "dirtsand.ini"
      (some (Streams.toLatin1 "Auth.Root = /srv/auth\n"))).map Settings.authRoot =
      some "/srv/auth/" := by
    show (Settings.loadLines asciiCodecs { Settings.defaults with settingsPath := _ } _).map _ = _
    rw [Settings.loadLines_of_line (by decide) (by decide)]
    decide
  obtain ⟨s, hs, hroot⟩ := Option.map_eq_some_iff.1 hload
  have hpath : authDownloadPath s "Python\\python.pak" =
      some (s.authRoot ++ "Python/python.pak") := by
    have hname : withSlashes "Python\\python.pak" = "Python/python.pak" := by decide
    have hdots : finds "Python/python.pak" ".." = false := by decide
    have hsdl : isSdlFile "Python/python.pak" = false := by decide
    rw [authDownloadPath, hname, hdots, hsdl]
    rfl
  obtain ⟨-, hdownload, -, -⟩ := requests_jailed plain_asciiCodecs hs
  have hsdl : isSdlFile (withSlashes "Python\\python.pak") = false := by decide
  have hleads : Leads "/srv/auth/" (withSlashes "Python\\python.pak") := by decide
  rw [← hroot] at hleads
  have hinside := (hdownload "Python\\python.pak" _ hpath).2 hsdl
  exact ⟨s, hs, hroot, hinside.2 hleads⟩

/-- **With an empty settings file, a file in the working directory is opened**, whose name begins
with the name of the root. -/
theorem default_root_left :
    ¬ (∀ (codecs : Settings.Codecs), codecs.Plain → ∀ (config : String)
      (file : Option (List UInt8)) (s : Settings), Settings.loadFrom codecs config file = some s →
      ∀ filename path, authDownloadPath s filename = some path →
        isSdlFile (withSlashes filename) = false →
          Inside s.authRoot.toList (cstr path).toList) := by
  intro h
  have hload : Settings.loadFrom asciiCodecs "dirtsand.ini" (some []) =
      some { Settings.defaults with settingsPath := (beforeLast '/' "dirtsand.ini").getD "." } :=
    Settings.loadLines_nil asciiCodecs _
  have hpath : authDownloadPath { Settings.defaults with
      settingsPath := (beforeLast '/' "dirtsand.ini").getD "." } "-old/keys" =
        some "./authdata-old/keys" := by
    decide
  obtain ⟨-, below, -, -, hparts⟩ := h asciiCodecs plain_asciiCodecs _ _ _ hload _ _ hpath
    (by decide)
  have hroot : parts "./authdata".toList = ["authdata".toList] := by decide
  have hopened : parts (cstr "./authdata-old/keys").toList =
      ["authdata-old".toList, "keys".toList] := by decide
  have hstart := congrArg List.head? hparts
  rw [hopened] at hstart
  have hfirst : (parts "./authdata".toList ++ below).head? = some "authdata".toList := by
    rw [hroot]
    rfl
  have heq := hstart.trans hfirst
  revert heq
  decide

end Dirtsand.Files
