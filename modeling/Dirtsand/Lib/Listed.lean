import Dirtsand.Lib.Reader

/-!
# Lists that end with a mark

A list of which the length is not written: one element after the other is read,
until the reader finds the mark at the end in place of an element.

* `reads_listed` — such a list is read as it was written.
* `listed_iff` — if some of the elements are written so that they begin like the
  mark, the list is read back exactly if it has none of them.
-/

namespace Dirtsand.Lib.Reader

variable {ε β : Type}

/-- What is read until there is no element. -/
def untilNone (e : ε) (r : Reader ε (Option β)) : Nat → Reader ε (List β)
  | 0 => fail e
  | fuel + 1 => do
    match ← r with
    | none => pure []
    | some b =>
      let bs ← untilNone e r fuel
      pure (b :: bs)

/-- With fuel for more elements than there are bytes. -/
def listed (e : ε) (r : Reader ε (Option β)) : Reader ε (List β) := do
  let bytes ← left
  untilNone e r (bytes.length + 1)

variable {e : ε} {r : Reader ε (Option β)} {w : β → List UInt8} {mark : List UInt8} {bs : List β}

theorem reads_untilNone (hread : ∀ b ∈ bs, Reads r (w b) (some b)) (hmark : Reads r mark none)
    {fuel : Nat} (hfuel : bs.length < fuel) :
    Reads (untilNone e r fuel) (bs.flatMap w ++ mark) bs := by
  induction bs generalizing fuel with
  | nil =>
    obtain ⟨fuel, rfl⟩ := Nat.exists_eq_succ_of_ne_zero (Nat.ne_of_gt hfuel)
    exact hmark.andThen (.pure [])
  | cons b bs ih =>
    obtain ⟨fuel, rfl⟩ := Nat.exists_eq_succ_of_ne_zero (Nat.ne_zero_of_lt hfuel)
    rw [List.forall_mem_cons] at hread
    have hbs := ih hread.2 (Nat.lt_of_succ_lt_succ hfuel)
    rw [List.flatMap_cons, List.append_assoc]
    exact hread.1.bind (hbs.andThen (.pure (b :: bs)))

theorem length_le_flatMap (hpos : ∀ b ∈ bs, w b ≠ []) : bs.length ≤ (bs.flatMap w).length := by
  induction bs with
  | nil => exact Nat.zero_le _
  | cons b bs ih =>
    rw [List.forall_mem_cons] at hpos
    have hb := List.length_pos_iff.2 hpos.1
    have hbs := ih hpos.2
    rw [List.flatMap_cons, List.length_append, List.length_cons]
    omega

/-- **A list is read as it was written**, up to its mark. -/
theorem reads_listed (hpos : ∀ b ∈ bs, w b ≠ []) (hread : ∀ b ∈ bs, Reads r (w b) (some b))
    (hmark : Reads r mark none) : Reads (listed e r) (bs.flatMap w ++ mark) bs := by
  intro rest
  have hle := length_le_flatMap hpos
  have hfuel : bs.length < (bs.flatMap w ++ mark ++ rest).length + 1 := by
    rw [List.length_append, List.length_append]
    omega
  exact reads_untilNone hread hmark hfuel rest

/-- The first element that is not as the others. -/
theorem exists_first {p : β → Prop} (h : ∃ b ∈ bs, ¬ p b) :
    ∃ before b after, bs = before ++ b :: after ∧ (∀ c ∈ before, p c) ∧ ¬ p b := by
  induction bs with
  | nil =>
    obtain ⟨b, hb, -⟩ := h
    exact absurd hb List.not_mem_nil
  | cons b bs ih =>
    by_cases hb : p b
    · obtain ⟨c, hc, hnot⟩ := h
      have hlater : ∃ c ∈ bs, ¬ p c := by
        obtain rfl | hc := List.mem_cons.1 hc
        · exact absurd hb hnot
        · exact ⟨c, hc, hnot⟩
      obtain ⟨before, d, after, rfl, hbefore, hd⟩ := ih hlater
      exact ⟨b :: before, d, after, rfl, List.forall_mem_cons.2 ⟨hb, hbefore⟩, hd⟩
    · exact ⟨[], b, bs, rfl, fun c hc => absurd hc List.not_mem_nil, hb⟩

/-- **When a list is read back**, if an element that is not `named` begins like the mark. -/
theorem listed_iff {named : β → Prop} (hpos : ∀ b ∈ bs, w b ≠ [])
    (hnamed : ∀ b ∈ bs, named b → Reads r (w b) (some b))
    (hunnamed : ∀ b ∈ bs, ¬ named b → mark <+: w b) (hmark : Reads r mark none) :
    listed e r (bs.flatMap w ++ mark) = .ok (bs, []) ↔ ∀ b ∈ bs, named b := by
  constructor
  · intro h
    by_contra hnot
    rw [not_forall] at hnot
    obtain ⟨b, hb⟩ := hnot
    obtain ⟨before, b, after, rfl, hbefore, hb⟩ :=
      exists_first ⟨b, (Classical.not_imp.1 hb).1, (Classical.not_imp.1 hb).2⟩
    have hin : ∀ c ∈ before, c ∈ before ++ b :: after := fun c hc => List.mem_append_left _ hc
    obtain ⟨more, hmore⟩ := hunnamed b (List.mem_append_right _ List.mem_cons_self) hb
    have hstop : Reads (listed e r) (before.flatMap w ++ mark) before :=
      reads_listed (fun c hc => hpos c (hin c hc))
        (fun c hc => hnamed c (hin c hc) (hbefore c hc)) hmark
    have hbytes : (before ++ b :: after).flatMap w ++ mark =
        (before.flatMap w ++ mark) ++ (more ++ (after.flatMap w ++ mark)) := by
      rw [List.flatMap_append, List.flatMap_cons, ← hmore]
      simp only [List.append_assoc]
    rw [hbytes, hstop] at h
    have hlength := congrArg List.length (Prod.mk.inj (Except.ok.inj h)).1
    rw [List.length_append, List.length_cons] at hlength
    omega
  · intro h
    have hread : Reads (listed e r) (bs.flatMap w ++ mark) bs :=
      reads_listed hpos (fun b hb => hnamed b hb (h b hb)) hmark
    have hall := hread []
    rwa [List.append_nil] at hall

end Dirtsand.Lib.Reader
