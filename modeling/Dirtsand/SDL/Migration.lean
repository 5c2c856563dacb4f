import Dirtsand.SDL.Upgrade

/-!
# Upgraded states that are merged

`State::update` and then `State::merge` (SDL/StateInfo.cpp), as `start_game_host` calls
them.

* `carried_timestamp` — what is carried over has the time of a new variable.
* `upgrade_merge_iff` — when a merge leaves what is later than it.
-/

namespace Dirtsand.SDL

variable {κ σ : Type}

namespace State

variable {S : Children σ} {db : DescriptorDb} {s s' : State κ σ}

/-- A variable of an upgraded state that is carried over. -/
def CarriesOver (s s' : State κ σ) (i : Fin s'.desc.desc.vars.length)
    (j : Fin s.desc.desc.vars.length) : Prop :=
  s.desc.desc.find (s'.desc.desc.vars.get i).name = some j

/-- The times of a state are lost in an upgrade. -/
theorem carried_timestamp (hupdate : s.update S db = .ok (s', true))
    {i : Fin s'.desc.desc.vars.length} {j : Fin s.desc.desc.vars.length} (hij : CarriesOver s s' i j) :
    (s'.data.vars i).timestamp = {} := by
  obtain ⟨p, -, ⟨-, -, hfalse⟩ | ⟨-, -, f, data, hf, hcarry, rfl⟩⟩ := update_eq_ok hupdate
  · cases hfalse
  · obtain ⟨-, -, hvars⟩ := StateData.carry_eq_ok hcarry
    rw [Variable.copy_timestamp ((hvars i).2 j hij)]
    exact (StateData.isNew hf i).timestamp

/-- **Older data does not win.**  Whatever a merge takes of `t` in place of what was carried
over is later than that was before the upgrade. -/
def OlderLoses (s s' : State κ σ) (t : StateData κ σ s'.desc.desc) : Prop :=
  ∀ m : StateData κ σ s'.desc.desc,
    State.merge (some s') (some ⟨s'.desc, t⟩) = .ok (some ⟨s'.desc, m⟩) →
    ∀ i j, CarriesOver s s' i j → m.vars i ≠ s'.data.vars i →
      m.vars i = t.vars i ∧ (t.vars i).timestamp.later (s.data.vars j).timestamp = true

theorem merge_same_desc (s : State κ σ) (t : StateData κ σ s.desc.desc) :
    State.merge (some s) (some ⟨s.desc, t⟩) = .ok (some ⟨s.desc, s.data.merge t⟩) := by
  rw [State.merge, dif_pos rfl]

/-- What a merge takes of a variable that is carried over. -/
theorem merge_carried (hupdate : s.update S db = .ok (s', true)) (t : StateData κ σ s'.desc.desc)
    {i : Fin s'.desc.desc.vars.length} {j : Fin s.desc.desc.vars.length} (hij : CarriesOver s s' i j) :
    (s'.data.merge t).vars i ≠ s'.data.vars i ↔ (t.vars i).timestamp ≠ {} := by
  have htime := carried_timestamp hupdate hij
  rw [← UnifiedTime.later_zero]
  show (if (t.vars i).timestamp.later (s'.data.vars i).timestamp = true then t.vars i
    else s'.data.vars i) ≠ s'.data.vars i ↔ _
  rw [htime]
  by_cases hlater : (t.vars i).timestamp.later {} = true
  · rw [if_pos hlater]
    refine iff_of_true ?_ hlater
    intro heq
    rw [heq, htime] at hlater
    cases hlater
  · rw [if_neg hlater]
    exact iff_of_false (fun h => h rfl) hlater

/-- **When older data does not win**: a variable that is merged into one that was carried
over has no time, or a later one than that had. -/
theorem upgrade_merge_iff (hupdate : s.update S db = .ok (s', true))
    (t : StateData κ σ s'.desc.desc) :
    OlderLoses s s' t ↔ ∀ i j, CarriesOver s s' i j →
      (t.vars i).timestamp = {} ∨
        (t.vars i).timestamp.later (s.data.vars j).timestamp = true := by
  constructor
  · intro holder i j hij
    by_cases htime : (t.vars i).timestamp = {}
    · exact .inl htime
    · have hchanged := (merge_carried hupdate t hij).2 htime
      exact .inr (holder _ (merge_same_desc s' t) i j hij hchanged).2
  · intro htimes m hmerge i j hij hchanged
    rw [merge_same_desc] at hmerge
    obtain rfl : s'.data.merge t = m := by simpa using hmerge
    have htime := (merge_carried hupdate t hij).1 hchanged
    refine ⟨?_, (htimes i j hij).resolve_left htime⟩
    show (if _ then _ else _) = _
    refine if_pos ?_
    rw [carried_timestamp hupdate hij, UnifiedTime.later_zero]
    exact htime

/-! ## A door that was opened before the upgrade -/

/-- An integer and the second that it was set. -/
def intAt (n secs : UInt32) : (v : VarDescriptor) → Variable Empty (Child Empty 0) v
  | { type := .int, .. } => { elems := [n], timestamp := ⟨secs, 0⟩ }
  | { type := _, .. } => { elems := [] }

/-- A door of version 1, set to 5 at 9. -/
def oldDoor : State Empty (Child Empty 0) where
  desc := ⟨"door", 1, oneVar intVar⟩
  data := { vars := fun _ => intAt 5 9 _ }

/-- The entry of version 2. -/
def newVersion : DescriptorPtr := ⟨"door", 2, { oneVar intVar with version := 2 }⟩

theorem oldDoor_run : ∃ data, oldDoor.update (children noCreatables (DescriptorDb.load twoVersions) 0)
    (DescriptorDb.load twoVersions) = .ok (⟨newVersion, data⟩, true) := by
  have hrun : ((oldDoor.update (children noCreatables (DescriptorDb.load twoVersions) 0)
      (DescriptorDb.load twoVersions)).toOption.map fun r => (r.1.desc, r.2)) =
        some (newVersion, true) := by decide
  cases hupdate : oldDoor.update (children noCreatables (DescriptorDb.load twoVersions) 0)
      (DescriptorDb.load twoVersions) with
  | error e => rw [hupdate] at hrun; cases hrun
  | ok r =>
    obtain ⟨⟨p, data⟩, b⟩ := r
    rw [hupdate] at hrun
    obtain ⟨rfl, rfl⟩ : p = newVersion ∧ b = true := by
      simpa only [Except.toOption, Option.map_some, Option.some.injEq, Prod.mk.injEq] using hrun
    exact ⟨data, rfl⟩

theorem upgrade_merge_door : ∃ data : StateData Empty (Child Empty 0) newVersion.desc,
    ∀ t : StateData Empty (Child Empty 0) newVersion.desc,
      OlderLoses oldDoor ⟨newVersion, data⟩ t ↔ ∀ i j, CarriesOver oldDoor ⟨newVersion, data⟩ i j →
        (t.vars i).timestamp = {} ∨
          (t.vars i).timestamp.later (oldDoor.data.vars j).timestamp = true := by
  obtain ⟨data, hupdate⟩ := oldDoor_run
  exact ⟨data, fun t => upgrade_merge_iff hupdate t⟩

/-- **Older data that wins.**  The door was set to 5 at 9, and is 7 of 3 once it is upgraded
and merged. -/
theorem older_data_wins : ∃ (data t : StateData Empty (Child Empty 0) newVersion.desc),
    oldDoor.update (children noCreatables (DescriptorDb.load twoVersions) 0)
      (DescriptorDb.load twoVersions) = .ok (⟨newVersion, data⟩, true) ∧
    ¬ OlderLoses oldDoor ⟨newVersion, data⟩ t := by
  obtain ⟨data, hupdate⟩ := oldDoor_run
  refine ⟨data, { vars := fun _ => intAt 7 3 _ }, hupdate, fun holder => ?_⟩
  have hpos : 0 < newVersion.desc.vars.length := by decide
  have hij : CarriesOver oldDoor ⟨newVersion, data⟩ ⟨0, hpos⟩ ⟨0, by decide⟩ := by
    show oldDoor.desc.desc.find (newVersion.desc.vars.get ⟨0, by decide⟩).name = _
    decide
  have htime : (intAt 7 3 (newVersion.desc.vars.get ⟨0, by decide⟩)).timestamp ≠ {} := by decide
  have hchanged := (merge_carried hupdate { vars := fun _ => intAt 7 3 _ } hij).2 htime
  have hlater := (holder _ (merge_same_desc _ _) _ _ hij hchanged).2
  have hearlier : (intAt 7 3 (newVersion.desc.vars.get ⟨0, by decide⟩)).timestamp.later
      (oldDoor.data.vars ⟨0, by decide⟩).timestamp = false := by decide
  exact Bool.false_ne_true (hearlier.symm.trans hlater)

end State

end Dirtsand.SDL
