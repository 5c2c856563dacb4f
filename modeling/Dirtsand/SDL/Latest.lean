import Dirtsand.SDL.DescriptorDb
import Mathlib.Data.List.Perm.Basic

/-!
# The latest descriptor

A version that is loaded again replaces the one under its number, but the one under
-1 is replaced by higher versions only.

* `findDescriptor_load` — under its number stands the last of a version.
* `findDescriptor_load_latest` — under -1 stands the first of the highest version.
* `one_latest` — when the two are the same descriptor.
-/

namespace Dirtsand.SDL

namespace DescriptorDb

/-- The descriptors of a name, in the order in which they are loaded. -/
def named (descs : List StateDescriptor) (name : String) : List StateDescriptor :=
  descs.filter fun d => 0 ≤ d.version ∧ bucket d.name = bucket name

def highest (descs : List StateDescriptor) : Int :=
  (descs.map StateDescriptor.version).foldl max (-1)

def firstOf (descs : List StateDescriptor) (version : Int) : Option StateDescriptor :=
  descs.find? fun d => d.version = version

def lastOf (descs : List StateDescriptor) (version : Int) : Option StateDescriptor :=
  descs.reverse.find? fun d => d.version = version

/-- The latest descriptor of a name is one thing: the last one of the highest version. -/
structure OneLatest (db : DescriptorDb) (descs : List StateDescriptor) (name : String) : Prop where
  present : (lastOf descs (highest descs)).isSome
  latest : (db.findDescriptor name (-1)).map DescriptorPtr.desc = lastOf descs (highest descs)
  scanned : (db.findLatestDescriptor name).map DescriptorPtr.desc = lastOf descs (highest descs)
  numbered : ∀ version, 0 ≤ version →
    (db.findDescriptor name version).map DescriptorPtr.desc = lastOf descs version

variable {db db' : DescriptorDb} {descs : List StateDescriptor} {name : String} {version : Int}
  {desc : StateDescriptor} {p : DescriptorPtr}

/-! ## The highest version -/

theorem named_append_of_eq (hversion : 0 ≤ desc.version) (h : bucket desc.name = bucket name) :
    named (descs ++ [desc]) name = named descs name ++ [desc] := by
  simp [named, List.filter_append, hversion, h]

theorem named_append_of_ne (h : bucket desc.name ≠ bucket name) :
    named (descs ++ [desc]) name = named descs name := by
  simp [named, List.filter_append, h]

theorem highest_append (descs : List StateDescriptor) (desc : StateDescriptor) :
    highest (descs ++ [desc]) = max (highest descs) desc.version := by
  simp [highest, List.foldl_append]

theorem le_highest (h : desc ∈ descs) : desc.version ≤ highest descs := by
  induction descs using List.reverseRecOn with
  | nil => cases h
  | append_singleton ds d ih =>
    rw [highest_append]
    rw [List.mem_append, List.mem_singleton] at h
    rcases h with h | rfl
    · exact (ih h).trans (le_max_left _ _)
    · exact le_max_right _ _

theorem exists_highest (hne : descs ≠ []) (hversion : ∀ d ∈ descs, 0 ≤ d.version) :
    ∃ d ∈ descs, d.version = highest descs := by
  induction descs using List.reverseRecOn with
  | nil => exact absurd rfl hne
  | append_singleton ds d ih =>
    have hd := hversion d (by simp)
    rw [highest_append]
    by_cases hds : ds = []
    · subst hds
      refine ⟨d, by simp, ?_⟩
      have hnone : highest [] = -1 := rfl
      omega
    · obtain ⟨e, he, heq⟩ := ih hds fun e he => hversion e (by simp [he])
      by_cases hle : highest ds ≤ d.version
      · exact ⟨d, by simp, by omega⟩
      · exact ⟨e, by simp [he], by omega⟩

theorem version_of_named (h : desc ∈ named descs name) : 0 ≤ desc.version := by
  have hd := List.of_mem_filter h
  simp only [Bool.decide_and, Bool.and_eq_true, decide_eq_true_eq] at hd
  exact hd.1

theorem lastOf_append (descs : List StateDescriptor) (desc : StateDescriptor) (version : Int) :
    lastOf (descs ++ [desc]) version =
      if desc.version = version then some desc else lastOf descs version := by
  rw [lastOf, List.reverse_append, List.reverse_singleton, List.singleton_append, List.find?_cons]
  by_cases h : desc.version = version
  · simp [h]
  · simp [h, lastOf]

theorem lastOf_isSome (h : desc ∈ descs) : (lastOf descs desc.version).isSome := by
  rw [lastOf, List.find?_isSome]
  exact ⟨desc, List.mem_reverse.2 h, by simp⟩

theorem lastOf_mem (h : lastOf descs version = some desc) :
    desc ∈ descs ∧ desc.version = version :=
  ⟨List.mem_reverse.1 (List.mem_of_find?_eq_some h), by simpa using List.find?_some h⟩

theorem firstOf_version (h : firstOf descs version = some desc) : desc.version = version := by
  simpa using List.find?_some h

/-! ## Lookups after loading -/

theorem findDescriptor_insert (db : DescriptorDb) (n : String) (v : Int) (desc : StateDescriptor)
    (name : String) (version : Int) :
    (db.insert n v desc).findDescriptor name version =
      if bucket n = bucket name ∧ v = version then some ⟨bucket n, v, desc⟩
      else db.findDescriptor name version := by
  unfold insert findDescriptor
  rw [List.find?_cons]
  by_cases h : bucket n = bucket name ∧ v = version
  · simp [h]
  · rw [if_neg h]
    simp only [h, decide_false]
    rw [List.find?_filter]
    congr 1
    funext p
    by_cases hp : p.bucket = bucket name ∧ p.version = version
    · have hother : ¬ (p.bucket = bucket n ∧ p.version = v) := by
        rintro ⟨hb, hv⟩
        exact h ⟨hb.symm.trans hp.1, hv.symm.trans hp.2⟩
      simp only [decide_eq_true hother, true_and, Bool.decide_eq_true]
    · simp [hp]

/-- Loading a descriptor replaces that of its version. -/
theorem findDescriptor_loadDescriptor (hversion : 0 ≤ version) :
    (db.loadDescriptor desc).findDescriptor name version =
      if bucket desc.name = bucket name ∧ desc.version = version
      then some ⟨bucket desc.name, desc.version, desc⟩
      else db.findDescriptor name version := by
  have hother : ¬ (bucket desc.name = bucket name ∧ -1 = version) := by
    rintro ⟨-, hv⟩
    omega
  unfold loadDescriptor
  dsimp only
  split
  · split
    · rw [findDescriptor_insert, if_neg hother, findDescriptor_insert]
    · rw [findDescriptor_insert]
  · split
    · rw [findDescriptor_insert, if_neg hother, findDescriptor_insert]
    · rw [findDescriptor_insert]

/-- It replaces the latest if it is higher. -/
theorem findDescriptor_loadDescriptor_latest (hversion : 0 ≤ desc.version) :
    (db.loadDescriptor desc).findDescriptor name (-1) =
      if bucket desc.name = bucket name ∧
          ∀ p ∈ db.findDescriptor name (-1), p.desc.version < desc.version
      then some ⟨bucket desc.name, -1, desc⟩
      else db.findDescriptor name (-1) := by
  have hother : ∀ n, ¬ (bucket desc.name = bucket n ∧ desc.version = -1) := by
    rintro n ⟨-, hv⟩
    omega
  unfold loadDescriptor
  dsimp only
  rw [findDescriptor_insert, if_neg (hother _)]
  by_cases hname : bucket desc.name = bucket name
  · have hsame : db.findDescriptor desc.name (-1) = db.findDescriptor name (-1) := by
      unfold findDescriptor
      rw [hname]
    rw [hsame]
    cases hfind : db.findDescriptor name (-1) with
    | none =>
      dsimp only
      rw [if_pos (by omega), findDescriptor_insert, if_pos ⟨hname, rfl⟩, if_pos]
      exact ⟨hname, fun p hp => by cases hp⟩
    | some p =>
      dsimp only
      by_cases hlt : p.desc.version < desc.version
      · rw [if_pos hlt, findDescriptor_insert, if_pos ⟨hname, rfl⟩, if_pos]
        refine ⟨hname, fun q hq => ?_⟩
        obtain rfl := Option.mem_some.1 hq
        exact hlt
      · rw [if_neg hlt, findDescriptor_insert, if_neg (hother _), hfind, if_neg]
        rintro ⟨-, hall⟩
        exact hlt (hall p rfl)
  · have hno : ¬ (bucket desc.name = bucket name ∧
        ∀ p ∈ db.findDescriptor name (-1), p.desc.version < desc.version) := fun h => hname h.1
    rw [if_neg hno]
    have hkeep : ∀ v d, ((db.insert desc.name desc.version desc).insert desc.name v d).findDescriptor
        name (-1) = db.findDescriptor name (-1) := by
      intro v d
      rw [findDescriptor_insert, if_neg fun h => hname h.1, findDescriptor_insert,
        if_neg (hother _)]
    have hkeep' : (db.insert desc.name desc.version desc).findDescriptor name (-1) =
        db.findDescriptor name (-1) := by
      rw [findDescriptor_insert, if_neg (hother _)]
    split
    · split
      · exact hkeep _ _
      · exact hkeep'
    · split
      · exact hkeep _ _
      · exact hkeep'

theorem load_append (descs : List StateDescriptor) (desc : StateDescriptor) :
    load (descs ++ [desc]) =
      if 0 ≤ desc.version then (load descs).loadDescriptor desc else load descs := by
  unfold load
  rw [List.filter_append]
  by_cases h : 0 ≤ desc.version
  · simp [h]
  · simp [h]

/-- **Under its number stands the last of a version.** -/
theorem findDescriptor_load (descs : List StateDescriptor) (name : String)
    (hversion : 0 ≤ version) :
    ((load descs).findDescriptor name version).map DescriptorPtr.desc =
      lastOf (named descs name) version := by
  induction descs using List.reverseRecOn with
  | nil => rfl
  | append_singleton ds d ih =>
    rw [load_append]
    by_cases hd : 0 ≤ d.version
    · rw [if_pos hd, findDescriptor_loadDescriptor hversion]
      by_cases hname : bucket d.name = bucket name
      · rw [named_append_of_eq hd hname, lastOf_append]
        by_cases hv : d.version = version
        · rw [if_pos ⟨hname, hv⟩, if_pos hv]
          rfl
        · rw [if_neg fun h => hv h.2, if_neg hv, ih]
      · rw [if_neg fun h => hname h.1, ih, named_append_of_ne hname]
    · rw [if_neg hd, ih]
      simp [named, List.filter_append, hd]

theorem firstOf_highest_none (h : firstOf (named descs name) (highest (named descs name)) = none) :
    named descs name = [] := by
  by_contra hne
  obtain ⟨d, hd, hv⟩ := exists_highest hne fun d hd => version_of_named hd
  rw [firstOf, List.find?_eq_none] at h
  exact h d hd (by simpa using hv)

/-- **Under -1 stands the first of the highest version.** -/
theorem findDescriptor_load_latest (descs : List StateDescriptor) (name : String) :
    ((load descs).findDescriptor name (-1)).map DescriptorPtr.desc =
      firstOf (named descs name) (highest (named descs name)) := by
  induction descs using List.reverseRecOn with
  | nil => rfl
  | append_singleton ds d ih =>
    rw [load_append]
    by_cases hd : 0 ≤ d.version
    · rw [if_pos hd, findDescriptor_loadDescriptor_latest hd]
      by_cases hname : bucket d.name = bucket name
      · rw [named_append_of_eq hd hname, highest_append]
        -- The entry under -1 has the highest version so far, if there is one.
        have hhigher : (∀ p ∈ (load ds).findDescriptor name (-1), p.desc.version < d.version) ↔
            highest (named ds name) < d.version := by
          cases hfind : (load ds).findDescriptor name (-1) with
          | none =>
            rw [hfind, Option.map_none] at ih
            rw [firstOf_highest_none ih.symm]
            have hnone : highest [] = -1 := rfl
            simp
            omega
          | some p =>
            rw [hfind, Option.map_some] at ih
            rw [← firstOf_version ih.symm]
            simp
        by_cases hlt : highest (named ds name) < d.version
        · rw [if_pos ⟨hname, hhigher.2 hlt⟩, max_eq_right hlt.le, firstOf, List.find?_append]
          have hnone : (named ds name).find? (fun e => decide (e.version = d.version)) = none := by
            rw [List.find?_eq_none]
            intro e he
            have hle := le_highest he
            simp
            omega
          rw [hnone]
          simp
        · rw [if_neg fun h => hlt (hhigher.1 h.2), ih, max_eq_left (not_lt.1 hlt), firstOf,
            firstOf, List.find?_append]
          have hne : named ds name ≠ [] := by
            intro hnil
            rw [hnil] at hlt
            have hnone : highest [] = -1 := rfl
            omega
          obtain ⟨e, he, hv⟩ := exists_highest hne fun e he => version_of_named he
          have hsome : ((named ds name).find? fun e =>
              decide (e.version = highest (named ds name))).isSome := by
            rw [List.find?_isSome]
            exact ⟨e, he, by simpa using hv⟩
          rw [Option.or_of_isSome hsome]
      · rw [if_neg fun h => hname h.1, ih, named_append_of_ne hname]
    · rw [if_neg hd, ih]
      simp [named, List.filter_append, hd]

/-! ## Both lookups -/

theorem named_perm_present (h : desc ∈ named descs name) :
    (lastOf (named descs name) (highest (named descs name))).isSome := by
  obtain ⟨d, hd, hv⟩ := exists_highest (List.ne_nil_of_mem h) fun d hd => version_of_named hd
  rw [← hv]
  exact lastOf_isSome hd

theorem Loaded.of_perm (h : Loaded db) (hperm : db'.Perm db) : Loaded db' where
  bucket p hp := h.bucket p (hperm.mem_iff.1 hp)
  version p hp := h.version p (hperm.mem_iff.1 hp)
  key p hp := h.key p (hperm.mem_iff.1 hp)
  unique p hp q hq := h.unique p (hperm.mem_iff.1 hp) q (hperm.mem_iff.1 hq)
  own p hp := by
    obtain ⟨q, hq, hb, hv⟩ := h.own p (hperm.mem_iff.1 hp)
    exact ⟨q, hperm.mem_iff.2 hq, hb, hv⟩

theorem Loaded.findDescriptor_iff (h : Loaded db) : db.findDescriptor name version = some p ↔
    p ∈ db ∧ p.bucket = DescriptorDb.bucket name ∧ p.version = version := by
  constructor
  · exact findDescriptor_mem
  · rintro ⟨hp, hb, rfl⟩
    have hfind := h.find hp
    have hname : DescriptorDb.bucket p.desc.name = DescriptorDb.bucket name := by
      rw [← h.bucket p hp, hb]
    unfold findDescriptor at hfind ⊢
    rwa [hname] at hfind

/-- The order of the map does not matter. -/
theorem Loaded.findDescriptor_perm (h : Loaded db) (hperm : db'.Perm db) (name : String)
    (version : Int) : db'.findDescriptor name version = db.findDescriptor name version := by
  refine Option.ext fun p => ?_
  rw [(h.of_perm hperm).findDescriptor_iff, h.findDescriptor_iff, hperm.mem_iff]

theorem exists_findLatestDescriptor (h : p ∈ db) (hb : p.bucket = bucket name) :
    ∃ q, db.findLatestDescriptor name = some q := by
  unfold findLatestDescriptor
  split
  · rename_i hnil
    rw [List.filter_eq_nil_iff] at hnil
    exact absurd (decide_eq_true hb) (hnil p h)
  · exact ⟨_, rfl⟩

/-- `FindLatestDescriptor` finds the last one of the highest version. -/
theorem findLatestDescriptor_load (hperm : db.Perm (load descs)) (h : desc ∈ named descs name) :
    (db.findLatestDescriptor name).map DescriptorPtr.desc =
      lastOf (named descs name) (highest (named descs name)) := by
  have hloaded := loaded_load descs
  have hdb := hloaded.of_perm hperm
  have hnumbered : ∀ version, 0 ≤ version →
      (db.findDescriptor name version).map DescriptorPtr.desc =
        lastOf (named descs name) version := by
    intro version hversion
    rw [hloaded.findDescriptor_perm hperm]
    exact findDescriptor_load descs name hversion
  obtain ⟨d, hd, hv⟩ := exists_highest (List.ne_nil_of_mem h) fun d hd => version_of_named hd
  have hpos := version_of_named hd
  -- There is an entry under the highest version, so that the scan finds none under a lower.
  have hsome := lastOf_isSome hd
  rw [← hnumbered d.version hpos, Option.isSome_map, Option.isSome_iff_exists] at hsome
  obtain ⟨p, hp⟩ := hsome
  obtain ⟨hpdb, hpb, hpv⟩ := findDescriptor_mem hp
  obtain ⟨q, hq⟩ := exists_findLatestDescriptor hpdb hpb
  obtain ⟨hqdb, hqb, hmax⟩ := findLatestDescriptor_mem hq
  have hqversion := hdb.latest_version hq
  have hqpos := hdb.version q hqdb
  have hqfind := hdb.findDescriptor_iff.2 ⟨hqdb, hqb, rfl⟩
  have hqlast := hnumbered q.version (by omega)
  rw [hqfind, Option.map_some] at hqlast
  obtain ⟨hqmem, -⟩ := lastOf_mem hqlast.symm
  have hle := le_highest hqmem
  have hge := hmax p hpdb hpb
  have hhighest : q.version = highest (named descs name) := by omega
  rw [hq, Option.map_some, hqlast, hhighest]

/-- **The latest descriptor is one thing** exactly if the first one of the highest version is also
the last one. -/
theorem one_latest (hperm : db.Perm (load descs)) (h : desc ∈ named descs name) :
    OneLatest db (named descs name) name ↔
      firstOf (named descs name) (highest (named descs name)) =
        lastOf (named descs name) (highest (named descs name)) := by
  have hloaded := loaded_load descs
  constructor
  · intro hone
    rw [← hone.latest, hloaded.findDescriptor_perm hperm, findDescriptor_load_latest]
  · intro hsame
    refine ⟨named_perm_present h, ?_, findLatestDescriptor_load hperm h, ?_⟩
    · rw [hloaded.findDescriptor_perm hperm, findDescriptor_load_latest, hsame]
    · intro version hversion
      rw [hloaded.findDescriptor_perm hperm]
      exact findDescriptor_load descs name hversion

/-- A version of a descriptor with one variable. -/
def doorVersion (name : String) (version : Nat) (type : VarType) : StateDescriptor where
  name
  version
  vars := [{ type, name := "opened", size := 1 }]
  few := by simp

/-- Version 1 of a door, of one variable. -/
abbrev door (type : VarType) : StateDescriptor := doorVersion "Door" 1 type

/-- Three versions of a door in different letters, of which the first is loaded twice, and a
lamp. -/
def doors : List StateDescriptor :=
  [doorVersion "Door" 1 .bool, doorVersion "DOOR" 3 .byte, doorVersion "door" 2 .int,
    doorVersion "Lamp" 7 .bool, doorVersion "Door" 1 .byte]

theorem one_latest_doors : OneLatest (load doors).reverse (named doors "dOOr") "dOOr" := by
  have hversion : doorVersion "DOOR" 3 .byte ∈ named doors "dOOr" := by decide
  exact (one_latest (List.reverse_perm _) hversion).2 (by decide)

/-- A version that is loaded twice. -/
theorem two_latest : ¬ OneLatest (load [door .bool, door .byte])
    (named [door .bool, door .byte] "Door") "Door" := by
  intro h
  have hlatest := h.latest
  revert hlatest
  decide

end DescriptorDb

end Dirtsand.SDL
