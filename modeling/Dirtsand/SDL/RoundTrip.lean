import Dirtsand.SDL.Format

/-!
# SDL blobs

What `State::FromBlob` makes of a blob that `State::toBlob` wrote, for states of
descriptors without nested states.

* `Built` — the states that `add` and `merge` make of states that were read.
* `built_sound` — what holds of them.
* `blob_round_trips` — when they are read as they were written.
-/

namespace Dirtsand.SDL

open Lib.Reader (Reads Yields given left ofExcept each leBytes)

/-! ## The loop over what a blob names -/

section Named

variable {α : Type} {bound max : Nat} {body : Fin bound → α → Read α}
  {Good : List (Fin bound) → α → Prop}

theorem yields_readNamed_from (useIndices : Bool)
    (hbody : ∀ done j a, Good done a → j ∉ done → Yields (body j a) fun a' => Good (done ++ [j]) a')
    (k i : Nat) {done : List (Fin bound)} {a : α} (ha : Good done a) :
    Yields (readNamed max useIndices body k i a) fun r =>
      (done ++ r.2).Nodup → Good (done ++ r.2) r.1 := by
  induction k generalizing i done a with
  | zero =>
    refine .pure fun _ => ?_
    rw [List.append_nil]
    exact ha
  | succ k ih =>
    refine (Yields.any _).bind fun idx _ => ?_
    split
    · rename_i hidx
      by_cases hj : ⟨idx, hidx⟩ ∈ done
      · refine (Yields.any _).bind fun a' _ => (Yields.any _).bind fun r _ => .pure fun hnodup => ?_
        exact absurd List.mem_cons_self (List.disjoint_of_nodup_append hnodup hj)
      · refine (hbody done _ a ha hj).bind fun a' ha' => ?_
        refine (ih (i + 1) ha').bind fun r hr => .pure fun hnodup => ?_
        dsimp only at hnodup ⊢
        rw [List.append_cons] at hnodup ⊢
        exact hr hnodup
    · exact .fail

theorem yields_readNamed (useIndices : Bool)
    (hbody : ∀ done j a, Good done a → j ∉ done → Yields (body j a) fun a' => Good (done ++ [j]) a')
    (k : Nat) {a : α} (ha : Good [] a) :
    Yields (readNamed max useIndices body k 0 a) fun r => r.2.Nodup → Good r.2 r.1 :=
  yields_readNamed_from useIndices hbody k 0 ha

theorem reads_readNamed_from {P : Fin bound → Prop} {enc : Fin bound → List UInt8} {useIndices : Bool}
    (hindex : useIndices = true → ∀ j : Fin bound,
      Reads (stupidLengthRead max) (stupidLengthWrite max j.val) j.val)
    (hbody : ∀ done j a, P j → Good done a → j ∉ done →
      ∃ a', Reads (body j a) (enc j) a' ∧ Good (done ++ [j]) a')
    {is : List (Fin bound)} (hP : ∀ j ∈ is, P j) (i : Nat) {done : List (Fin bound)} {a : α}
    (hnodup : (done ++ is).Nodup)
    (hplaces : useIndices = false → is.map Fin.val = List.range' i is.length) (ha : Good done a) :
    ∃ a', Reads (readNamed max useIndices body is.length i a)
        (is.flatMap fun j => (if useIndices = true then stupidLengthWrite max j.val else []) ++ enc j)
        (a', is) ∧ Good (done ++ is) a' := by
  induction is generalizing i done a with
  | nil =>
    refine ⟨a, Reads.pure _, ?_⟩
    rw [List.append_nil]
    exact ha
  | cons j is ih =>
    have hj : j ∉ done := fun hmem => List.disjoint_of_nodup_append hnodup hmem List.mem_cons_self
    obtain ⟨a₁, hread, ha₁⟩ := hbody done j a (hP j List.mem_cons_self) ha hj
    have hplaces' : useIndices = false → j.val = i ∧ is.map Fin.val = List.range' (i + 1) is.length := by
      intro huse
      have h := hplaces huse
      rw [List.map_cons, List.length_cons, List.range'_succ] at h
      exact List.cons.inj h
    obtain ⟨a', hreads, ha'⟩ := ih (fun j' hj' => hP j' (List.mem_cons_of_mem j hj')) (i + 1)
      (by rwa [← List.append_cons]) (fun huse => (hplaces' huse).2) ha₁
    refine ⟨a', ?_, by rwa [← List.append_cons] at ha'⟩
    rw [List.flatMap_cons, List.append_assoc]
    refine Reads.bind (a := j.val) ?_ ?_
    · refine Lib.Reader.reads_given (fun huse => ?_) fun huse => ?_
      · exact hindex huse j
      · exact (hplaces' (Bool.not_eq_true _ ▸ huse)).1
    · rw [dif_pos j.isLt]
      refine hread.bind ?_
      exact hreads.andThen (Reads.pure _)

theorem reads_readNamed {P : Fin bound → Prop} {enc : Fin bound → List UInt8} {useIndices : Bool}
    (hindex : useIndices = true → ∀ j : Fin bound,
      Reads (stupidLengthRead max) (stupidLengthWrite max j.val) j.val)
    (hbody : ∀ done j a, P j → Good done a → j ∉ done →
      ∃ a', Reads (body j a) (enc j) a' ∧ Good (done ++ [j]) a')
    {is : List (Fin bound)} (hP : ∀ j ∈ is, P j) {a : α} (hnodup : is.Nodup)
    (hplaces : useIndices = false → is.map Fin.val = List.range' 0 is.length) (ha : Good [] a) :
    ∃ a', Reads (readNamed max useIndices body is.length 0 a)
        (is.flatMap fun j => (if useIndices = true then stupidLengthWrite max j.val else []) ++ enc j)
        (a', is) ∧ Good is a' := by
  have hnil : ([] ++ is).Nodup := hnodup
  exact reads_readNamed_from hindex hbody hP 0 hnil hplaces ha

end Named

/-! ## The variables of a state -/

/-- A descriptor without nested states. -/
def StateDescriptor.Simple (d : StateDescriptor) : Prop :=
  ∀ i, (d.vars.get i).type ≠ .stateDesc

theorem StateDescriptor.Simple.lists {d : StateDescriptor} (h : d.Simple) :
    d.simpleVars = List.finRange d.vars.length ∧ d.sdVars = [] := by
  constructor
  · exact List.filter_eq_self.2 fun i _ => decide_eq_true (h i)
  · exact List.filter_eq_nil_iff.2 fun i _ => fun hi => h i (of_decide_eq_true hi)

namespace StateData

variable {κ σ : Type} {C : Creatables κ} {S : Children σ} {d : StateDescriptor}
  {f s : StateData κ σ d}

theorem isNew (h : StateData.new S d = .ok f) (i : Fin d.vars.length) :
    Variable.IsNew S (f.vars i) := by
  unfold StateData.new at h
  split at h
  · rename_i vars hvars
    obtain rfl := Except.ok.inj h
    exact ⟨vars i, Lib.pointwise_eq_ok.1 hvars i, rfl⟩
  · cases h

/-- The variables are kept, and those of `list` that are not `done` are new. -/
def KeptVars (f : StateData κ σ d) (list : List (Fin d.vars.length))
    (done : List (Fin list.length)) (vars : Vars κ σ d) : Prop :=
  (∀ i, Variable.Kept (f.vars i) (vars i)) ∧
    ∀ i ∈ list, (∀ j ∈ done, list.get j ≠ i) → vars i = f.vars i

theorem yields_readVar (now : Clock) (hf : ∀ i, Variable.IsNew S (f.vars i)) (hsimple : d.Simple)
    {list : List (Fin d.vars.length)} (hlist : list.Nodup) (done : List (Fin list.length))
    (j : Fin list.length) (vars : Vars κ σ d) (h : KeptVars f list done vars) (hj : j ∉ done) :
    Yields (readVar C S now list j vars) fun vars' => KeptVars f list (done ++ [j]) vars' := by
  obtain ⟨hvars, hrest⟩ := h
  have hother : ∀ j' ∈ done, list.get j' ≠ list.get j := fun j' hj' heq =>
    hj (hlist.injective_get heq ▸ hj')
  have hvar : Yields ((vars (list.get j)).read C S now) fun var =>
      Variable.Kept (f.vars (list.get j)) var ∧ var.dirty = true := by
    rw [hrest (list.get j) (List.get_mem list j) hother]
    exact Variable.yields_read now (hf _) (hsimple _)
  refine hvar.bind fun var hvar => .pure ⟨fun i => ?_, fun i hi hdone => ?_⟩
  · by_cases hi : i = list.get j
    · subst hi
      rw [Function.update_self]
      exact hvar.1
    · rw [Function.update_of_ne hi]
      exact hvars i
  · have hne : i ≠ list.get j := fun heq =>
      hdone j (List.mem_append_right done List.mem_cons_self) heq.symm
    rw [Function.update_of_ne hne]
    exact hrest i hi fun j' hj' => hdone j' (List.mem_append_left _ hj')

theorem yields_readVars (now : Clock) (hf : ∀ i, Variable.IsNew S (f.vars i)) (hsimple : d.Simple)
    {list : List (Fin d.vars.length)} (hlist : list.Nodup) {vars : Vars κ σ d}
    (hkept : ∀ i, Variable.Kept (f.vars i) (vars i)) (hnew : ∀ i ∈ list, vars i = f.vars i) :
    Yields (readVars C S now list vars) fun r =>
      r.2.Nodup → ∀ i, Variable.Kept (f.vars i) (r.1 i) := by
  refine (Yields.any _).bind fun count _ => ?_
  have hstart : KeptVars f list [] vars := ⟨hkept, fun i hi _ => hnew i hi⟩
  refine (yields_readNamed _ (yields_readVar now hf hsimple hlist) count hstart).bind fun r hr => ?_
  exact .pure fun hnodup => (hr (List.Nodup.of_map _ hnodup)).1

theorem yields_object (now : Clock) (s : StateData κ σ d) :
    Yields (StateData.read C S now s) fun r => r.1.object = s.object := by
  refine (Yields.any _).bind fun flags _ => ?_
  refine (Yields.any _).bind fun version _ => ?_
  split
  · exact .fail
  · refine (Yields.any _).bind fun r _ => ?_
    exact (Yields.any _).bind fun r' _ => .pure rfl

theorem yields_read (now : Clock) (hf : ∀ i, Variable.IsNew S (f.vars i)) (hsimple : d.Simple)
    (object : MOUL.Uoid) :
    Yields (StateData.read C S now { f with object }) fun r =>
      r.2.Nodup → ∀ i, Variable.Kept (f.vars i) (r.1.vars i) := by
  refine (Yields.any _).bind fun flags _ => ?_
  refine (Yields.any _).bind fun version _ => ?_
  split
  · exact .fail
  · have hkept : ∀ i, Variable.Kept (f.vars i) (f.vars i) := fun i => (hf i).kept (hsimple i)
    obtain ⟨hlist, hnone⟩ := hsimple.lists
    have hnodup : d.simpleVars.Nodup := hlist ▸ List.nodup_finRange _
    refine (yields_readVars now hf hsimple hnodup hkept fun i _ => rfl).bind fun r hr => ?_
    rw [hnone]
    -- If the first loop named a variable twice, nothing is said of the second.
    by_cases hfirst : r.2.Nodup
    · refine (yields_readVars now hf hsimple List.nodup_nil (hr hfirst) fun i hi => ?_).bind
        fun r' hr' => .pure fun h => hr' (List.Nodup.of_append_right h)
      exact absurd hi List.not_mem_nil
    · exact (Yields.any _).bind fun r' _ =>
        .pure fun h => absurd (List.Nodup.of_append_left h) hfirst

/-- What the variables are once those of `list` that are `done` are read back. -/
def BackVars (Q : (i : Fin d.vars.length) → Variable κ σ (d.vars.get i) → Prop)
    (f : StateData κ σ d) (list : List (Fin d.vars.length)) (done : List (Fin list.length))
    (vars : Vars κ σ d) : Prop :=
  ∀ i, (∀ j ∈ done, list.get j = i → Q i (vars i)) ∧
    ((∀ j ∈ done, list.get j ≠ i) → vars i = f.vars i)

variable {Q : (i : Fin d.vars.length) → Variable κ σ (d.vars.get i) → Prop}

theorem reads_readVar {now : Clock} {list : List (Fin d.vars.length)} (hlist : list.Nodup)
    (hvar : ∀ i ∈ list, (s.vars i).dirty = true →
      ∃ var, Reads ((f.vars i).read C S now) ((s.vars i).write C S) var ∧ Q i var)
    (done : List (Fin list.length)) (j : Fin list.length) (vars : Vars κ σ d)
    (hdirty : (s.vars (list.get j)).dirty = true) (h : BackVars Q f list done vars)
    (hj : j ∉ done) :
    ∃ vars', Reads (readVar C S now list j vars) ((s.vars (list.get j)).write C S) vars' ∧
      BackVars Q f list (done ++ [j]) vars' := by
  have hother : ∀ j' ∈ done, list.get j' ≠ list.get j := fun j' hj' heq =>
    hj (hlist.injective_get heq ▸ hj')
  obtain ⟨var, hread, hQ⟩ := hvar (list.get j) (List.get_mem list j) hdirty
  rw [← (h (list.get j)).2 hother] at hread
  refine ⟨_, hread.andThen (Reads.pure _), fun i => ?_⟩
  by_cases hi : i = list.get j
  · subst hi
    rw [Function.update_self]
    exact ⟨fun _ _ _ => hQ, fun hall => absurd rfl (hall j (List.mem_append_right _ List.mem_cons_self))⟩
  · rw [Function.update_of_ne hi]
    refine ⟨fun j' hj' heq => ?_, fun hall => ?_⟩
    · obtain hj' | hj' := List.mem_append.1 hj'
      · exact (h i).1 j' hj' heq
      · rw [List.mem_singleton.1 hj'] at heq
        exact absurd heq.symm hi
    · exact (h i).2 fun j' hj' => hall j' (List.mem_append_left _ hj')

/-- **A loop of `State::read` reads what the loop of `State::write` wrote.** -/
theorem reads_readVars {now : Clock} {list : List (Fin d.vars.length)} (hlist : list.Nodup)
    (hvar : ∀ i ∈ list, (s.vars i).dirty = true →
      ∃ var, Reads ((f.vars i).read C S now) ((s.vars i).write C S) var ∧ Q i var) :
    ∃ vars named, Reads (readVars C S now list f.vars) (writeVars C S s list true) (vars, named) ∧
      ∀ i, (i ∈ list → (s.vars i).dirty = true → Q i (vars i)) ∧
        ((i ∈ list → (s.vars i).dirty = false) → vars i = f.vars i) := by
  have hlen : list.length ≤ d.vars.length := by
    have hcard := hlist.length_le_card
    rwa [Fintype.card_fin] at hcard
  have hmax : d.vars.length < 2 ^ 32 := lt_trans d.few (by decide)
  let dirty : Fin list.length → Bool := fun i => (s.vars (list.get i)).dirty
  let is : List (Fin list.length) := (List.finRange list.length).filter dirty
  have hcount : (List.finRange list.length).countP dirty = is.length := List.countP_eq_length_filter
  have hmem : ∀ j, j ∈ is ↔ (s.vars (list.get j)).dirty = true := fun j => by
    rw [List.mem_filter]
    exact and_iff_right (List.mem_finRange j)
  have hle : is.length ≤ list.length := by
    rw [← hcount]
    exact (List.countP_le_length).trans_eq (List.length_finRange)
  have hplaces : decide (is.length ≠ list.length) = false → is.map Fin.val =
      List.range' 0 is.length := by
    intro hall
    have heq : is.length = list.length := not_not.1 (of_decide_eq_false hall)
    have his : is = List.finRange list.length :=
      List.filter_eq_self.2 (List.length_filter_eq_length_iff.1 (heq.trans List.length_finRange.symm))
    rw [heq, his, List.map_coe_finRange_eq_range, List.range_eq_range']
  obtain ⟨vars, hread, hback⟩ := reads_readNamed (P := fun j => (s.vars (list.get j)).dirty = true)
    (fun _ j => reads_stupidLength hmax (j.isLt.le.trans hlen)) (reads_readVar hlist hvar) (fun j hj => (hmem j).1 hj)
    ((List.nodup_finRange _).filter _) hplaces
    (show BackVars Q f list [] f.vars from fun i => ⟨fun j hj => absurd hj List.not_mem_nil, fun _ => rfl⟩)
  have hbytes : writeVars C S s list true = stupidLengthWrite d.vars.length is.length ++
      is.flatMap fun j => (if decide (is.length ≠ list.length) = true then
        stupidLengthWrite d.vars.length j.val else []) ++ (s.vars (list.get j)).write C S := by
    have hall : (List.finRange list.length).take list.length = List.finRange list.length :=
      List.take_of_length_le (List.length_finRange).le
    unfold writeVars
    dsimp only
    rw [if_pos rfl, hall, hcount]
    simp only [decide_eq_true_eq]
    rfl
  refine ⟨vars, is.map fun i => (list.get i).val, ?_, fun i =>
    ⟨fun hi hdirty => ?_, fun hclean => ?_⟩⟩
  · rw [hbytes]
    refine (reads_stupidLength hmax (hle.trans hlen)).bind ?_
    exact hread.andThen (Reads.pure _)
  · obtain ⟨j, rfl⟩ := List.get_of_mem hi
    exact (hback _).1 j ((hmem j).2 hdirty) rfl
  · refine (hback i).2 fun j hj heq => ?_
    have hi : i ∈ list := heq ▸ List.get_mem list j
    rw [hmem j, heq, hclean hi] at hj
    exact Bool.noConfusion hj

/-! ## States -/

/-- Nothing is written where nothing is dirty. -/
theorem reads_noVars (now : Clock) (vars : Vars κ σ d) {list : List (Fin d.vars.length)}
    (whole : Bool) (hclean : ∀ i ∈ list, (s.vars i).dirty = false) :
    Reads (readVars C S now list vars) (writeVars C S s list whole) (vars, []) := by
  have hnone : ∀ i : Fin list.length, ¬ (s.vars (list.get i)).dirty = true := fun i => by
    rw [hclean _ (List.get_mem list i)]
    exact Bool.false_ne_true
  have hbytes : writeVars C S s list whole = stupidLengthWrite d.vars.length 0 := by
    unfold writeVars
    dsimp only
    rw [List.countP_eq_zero.2 fun i _ => hnone i, List.filter_eq_nil_iff.2 fun i _ => hnone i,
      List.flatMap_nil, List.append_nil]
  rw [hbytes]
  refine (reads_stupidLength (lt_trans d.few (by decide)) (Nat.zero_le _)).andThen ?_
  exact .pure _

/-- **A state is read as it was written**, or left at its default. -/
theorem reads (now : Clock) (hnew : StateData.new S d = .ok f) (hsimple : d.Simple)
    (hkept : ∀ i, Variable.Kept (f.vars i) (s.vars i))
    (hassumed : ∀ i, ∀ e ∈ (s.vars i).elems, Elem.Assumed C _ e) (object : MOUL.Uoid) :
    ∃ t named, Reads (StateData.read C S now { f with object }) (s.write C S) (t, named) ∧
      ∀ i, ((s.vars i).dirty = true →
          Variable.Back S Eq (f.vars i) (s.vars i) (t.vars i)) ∧
        ((s.vars i).dirty = false → t.vars i = f.vars i) := by
  obtain ⟨hlist, hnone⟩ := hsimple.lists
  have hnodup : d.simpleVars.Nodup := hlist ▸ List.nodup_finRange _
  have hvar : ∀ i, (s.vars i).dirty = true →
      ∃ var, Reads ((f.vars i).read C S now) ((s.vars i).write C S) var ∧
        Variable.Back S Eq (f.vars i) (s.vars i) var := fun i _ =>
    Variable.reads now (isNew hnew i) (hsimple i) (hkept i) (hassumed i)
  obtain ⟨vars, named, hread, hback⟩ := reads_readVars hnodup fun i _ => hvar i
  refine ⟨{ vars, object, flags := s.flags }, named ++ [], ?_, fun i => ?_⟩
  · refine (Streams.reads_u16 _).bind ?_
    refine (Streams.reads_u8 _).bind ?_
    rw [if_neg (not_not.2 rfl), hnone]
    refine hread.bind ?_
    exact (reads_noVars now vars false fun i hi => absurd hi List.not_mem_nil).andThen (Reads.pure _)
  · have hi : i ∈ d.simpleVars := by
      rw [hlist]
      exact List.mem_finRange i
    exact ⟨(hback i).1 hi, fun hclean => (hback i).2 fun _ => hclean⟩

end StateData

namespace State

variable {κ σ : Type} (C : Creatables κ) (S : Children σ) (db : DescriptorDb)

/-! ## States that are built -/

/-- What `add` and `merge` make of states that were read off blobs that name no
variable twice. -/
inductive Built : Option (State κ σ) → Prop
  | fromBlob {now : Clock} {blob rest : List UInt8} {s : Option (State κ σ)}
      (h : State.fromBlob C S db now blob = .ok (s, rest)) (hnames : (names C S db now blob).Nodup) :
      Built s
  | add {s state t : Option (State κ σ)} (hs : Built s) (hstate : Built state)
      (h : State.add s state = .ok t) : Built t
  | merge {s state t : Option (State κ σ)} (hs : Built s) (hstate : Built state)
      (h : State.merge s state = .ok t) : Built t

/-- What holds of a state that is built. -/
structure Sound (s : State κ σ) : Prop where
  mem : s.desc ∈ db
  name : Streams.Safe s.desc.desc.name
  object : Streams.Safe s.data.object.name
  vars : s.desc.desc.Simple → ∃ f, StateData.new S s.desc.desc = .ok f ∧
    ∀ i, Variable.Kept (f.vars i) (s.data.vars i)

variable {C S db}

theorem toLower_lt {n : Nat} (hn : 128 ≤ n) (c : Char) : c.toLower.toNat < n ↔ c.toNat < n := by
  unfold Char.toLower
  split
  · rename_i hupper
    have hlow : 65 ≤ c.val.toNat := hupper.1
    have hhigh : c.val.toNat ≤ 90 := hupper.2
    have hcase : ('a'.val - 'A'.val).toNat = 32 := by decide
    have hsum : (c.val + ('a'.val - 'A'.val)).toNat = c.val.toNat + 32 := by
      rw [UInt32.toNat_add, hcase]
      omega
    show (c.val + ('a'.val - 'A'.val)).toNat < n ↔ c.val.toNat < n
    omega
  · exact Iff.rfl

/-- A name that differs in the case of letters is as safe. -/
theorem safe_of_bucket {name name' : String}
    (h : DescriptorDb.bucket name = DescriptorDb.bucket name') (hsafe : Streams.Safe name) :
    Streams.Safe name' := by
  have hlist : name.toList.map Char.toLower = name'.toList.map Char.toLower := by
    have h' := congrArg String.toList h
    rwa [DescriptorDb.bucket, DescriptorDb.bucket, String.toList_ofList, String.toList_ofList] at h'
  refine ⟨?_, fun c hc => ?_, fun c hc => ?_⟩
  · have hlen := congrArg List.length hlist
    rw [List.length_map, List.length_map] at hlen
    exact hlen ▸ hsafe.short
  · obtain ⟨c', hc', heq⟩ := List.mem_map.1 (hlist ▸ List.mem_map_of_mem hc)
    rw [← toLower_lt (by decide), ← heq, toLower_lt (by decide)]
    exact hsafe.latin c' hc'
  · have hhead := congrArg List.head? hlist
    rw [List.head?_map, List.head?_map, Option.mem_def.1 hc] at hhead
    obtain ⟨c', hc', heq⟩ := Option.map_eq_some_iff.1 hhead
    rw [← toLower_lt (le_refl _), ← heq, toLower_lt (le_refl _)]
    exact hsafe.ascii c' hc'

/-- What `Create` makes of a descriptor. -/
structure CreatedFor (S : Children σ) (p : Option DescriptorPtr) (st : Option (State κ σ)) :
    Prop where
  null : p = none → st = none
  state : ∀ q, p = some q → ∃ (f : StateData κ σ q.desc) (object : MOUL.Uoid),
    StateData.new S q.desc = .ok f ∧ Streams.Safe object.name ∧ st = some ⟨q, { f with object }⟩

theorem new_object {d : StateDescriptor} {f : StateData κ σ d} (h : StateData.new S d = .ok f) :
    f.object = {} := by
  unfold StateData.new at h
  split at h
  · rw [← Except.ok.inj h]
  · cases h

theorem yields_createFor (flags : UInt16) (p : Option DescriptorPtr) :
    Yields (createFor S flags p : Read (Option (State κ σ))) (CreatedFor S p) := by
  have hnew : Yields (ofExcept (new S p) : Read (Option (State κ σ))) fun st =>
      State.new S p = .ok st := .ofExcept fun st h => h
  refine hnew.bind fun st hst => ?_
  cases p with
  | none =>
    obtain rfl := Except.ok.inj hst
    exact .pure ⟨fun _ => rfl, fun q hq => nomatch hq⟩
  | some q =>
    rw [State.new] at hst
    split at hst
    · rename_i f hf
      obtain rfl := Except.ok.inj hst
      have hobject : Yields (given (flags &&& volatile ≠ 0) MOUL.Uoid.read f.object) fun object =>
          Streams.Safe object.name := by
        refine Lib.Reader.yields_given (fun _ => MOUL.Uoid.yields_read) fun _ => ?_
        rw [new_object hf]
        exact Variable.safe_empty
      refine hobject.bind fun object hsafe => .pure ⟨fun hq => (nomatch hq), fun q' hq => ?_⟩
      obtain rfl := Option.some.inj hq
      exact ⟨f, object, hf, hsafe, rfl⟩
    · cases hst

theorem yields_create (hdb : DescriptorDb.Loaded db) :
    Yields (create S db : Read (Option (State κ σ))) fun st => st = none ∨
      ∃ (q : DescriptorPtr) (f : StateData κ σ q.desc) (object : MOUL.Uoid),
        q ∈ db ∧ Streams.Safe q.desc.name ∧ StateData.new S q.desc = .ok f ∧
        Streams.Safe object.name ∧ st = some ⟨q, { f with object }⟩ := by
  refine (Yields.any _).bind fun flags _ => ?_
  split
  · exact .fail
  · refine Streams.yields_readSafeString.bind fun name hname => ?_
    refine (Yields.any _).bind fun version _ => ?_
    refine (yields_createFor flags _).mono fun st hst => ?_
    cases hfind : db.findDescriptor name version with
    | none => exact .inl (hst.null hfind)
    | some q =>
      obtain ⟨f, object, hf, hobject, rfl⟩ := hst.state q hfind
      obtain ⟨hmem, hbucket, -⟩ := DescriptorDb.findDescriptor_mem hfind
      refine .inr ⟨q, f, object, hmem, safe_of_bucket ?_ hname, hf, hobject, rfl⟩
      rw [← hbucket, hdb.bucket q hmem]

/-- The descriptor of a state that was read. -/
theorem parse_mem (hdb : DescriptorDb.Loaded db) (now : Clock) :
    Yields (parse C S db now) fun r =>
      ∀ s ∈ r.1, s.desc ∈ db ∧ Streams.Safe s.desc.desc.name := by
  refine (yields_create hdb).bind fun st hst => ?_
  obtain rfl | ⟨q, f, object, hmem, hname, -, -, rfl⟩ := hst
  · exact .pure fun s hs => nomatch hs
  · refine (Yields.any _).bind fun r _ => .pure fun s hs => ?_
    obtain rfl := Option.some.inj hs
    exact ⟨hmem, hname⟩

theorem fromBlob_mem (hdb : DescriptorDb.Loaded db) {now : Clock} {blob rest : List UInt8}
    {s : State κ σ} (h : State.fromBlob C S db now blob = .ok (some s, rest)) :
    s.desc ∈ db ∧ Streams.Safe s.desc.desc.name := by
  unfold State.fromBlob at h
  split at h
  · cases h
  · split at h
    · rename_i st named rest' hparse
      obtain ⟨rfl, -⟩ := Prod.mk.inj (Except.ok.inj h)
      exact parse_mem hdb now blob _ _ hparse s rfl
    · cases h

theorem sound_parse (hdb : DescriptorDb.Loaded db) (now : Clock) :
    Yields (parse C S db now) fun r => r.2.Nodup → ∀ s ∈ r.1, Sound S db s := by
  refine (yields_create hdb).bind fun st hst => ?_
  obtain rfl | ⟨q, f, object, hmem, hname, hf, hobject, rfl⟩ := hst
  · exact .pure fun _ s hs => nomatch hs
  · have hread : Yields (StateData.read C S now { f with object }) fun r =>
        r.1.object = object ∧
          (q.desc.Simple → r.2.Nodup → ∀ i, Variable.Kept (f.vars i) (r.1.vars i)) := by
      intro bytes r rest hr
      refine ⟨StateData.yields_object now _ bytes r rest hr, fun hsimple => ?_⟩
      exact StateData.yields_read now (StateData.isNew hf) hsimple object bytes r rest hr
    refine hread.bind fun r hr => .pure fun hnodup s hs => ?_
    obtain rfl := Option.some.inj hs
    refine ⟨hmem, hname, ?_, fun hsimple => ⟨f, hf, hr.2 hsimple hnodup⟩⟩
    rw [hr.1]
    exact hobject

theorem Sound.mix {p : DescriptorPtr} {x y z : StateData κ σ p.desc} (hx : Sound S db ⟨p, x⟩)
    (hy : Sound S db ⟨p, y⟩) (hobject : z.object = x.object)
    (hvars : ∀ i, z.vars i = x.vars i ∨ z.vars i = y.vars i) : Sound S db ⟨p, z⟩ := by
  refine ⟨hx.mem, hx.name, ?_, fun hsimple => ?_⟩
  · exact hobject ▸ hx.object
  · obtain ⟨f, hf, hkx⟩ := hx.vars hsimple
    obtain ⟨f', hf', hky⟩ := hy.vars hsimple
    obtain rfl : f = f' := Except.ok.inj (hf.symm.trans hf')
    refine ⟨f, hf, fun i => ?_⟩
    obtain heq | heq := hvars i
    · exact heq ▸ hkx i
    · exact heq ▸ hky i

/-- **What holds of every state that is built.** -/
theorem built_sound (hdb : DescriptorDb.Loaded db) {st : Option (State κ σ)}
    (h : Built C S db st) : ∀ s ∈ st, Sound S db s := by
  induction h with
  | @fromBlob now blob rest st h hnames =>
    intro s hs
    unfold State.fromBlob at h
    unfold names at hnames
    split at h
    · obtain ⟨rfl, -⟩ := Prod.mk.inj (Except.ok.inj h)
      exact nomatch hs
    · split at h
      · rename_i r named rest' hparse
        obtain ⟨rfl, -⟩ := Prod.mk.inj (Except.ok.inj h)
        rw [hparse] at hnames
        exact sound_parse hdb now blob _ _ hparse hnames s hs
      · cases h
  | @add s state t _ _ h ihs ihstate =>
    intro u hu
    obtain _ | ⟨p, x⟩ := s
    · obtain rfl := Except.ok.inj h
      exact nomatch hu
    · obtain _ | ⟨p', y⟩ := state
      · exact nomatch h
      · by_cases heq : p' = p
        · subst heq
          rw [State.add, dif_pos rfl] at h
          obtain rfl := Except.ok.inj h
          obtain rfl := Option.some.inj hu
          refine (ihs _ rfl).mix (ihstate _ rfl) rfl fun i => ?_
          by_cases hdirty : (y.vars i).dirty = true
          · exact .inr (if_pos hdirty)
          · exact .inl (if_neg hdirty)
        · rw [State.add, dif_neg heq] at h
          exact nomatch h
  | @merge s state t _ _ h ihs ihstate =>
    intro u hu
    obtain _ | ⟨p, x⟩ := s
    · obtain rfl := Except.ok.inj h
      exact nomatch hu
    · obtain _ | ⟨p', y⟩ := state
      · exact nomatch h
      · by_cases heq : p' = p
        · subst heq
          rw [State.merge, dif_pos rfl] at h
          obtain rfl := Except.ok.inj h
          obtain rfl := Option.some.inj hu
          refine (ihs _ rfl).mix (ihstate _ rfl) rfl fun i => ?_
          by_cases hlater : (y.vars i).timestamp.later (x.vars i).timestamp = true
          · exact .inr (if_pos hlater)
          · exact .inl (if_neg hlater)
        · rw [State.merge, dif_neg heq] at h
          obtain rfl := Except.ok.inj h
          exact ihs u hu

/-! ## Round trips -/

/-- The same dirty flag, time, hint, count and values. -/
structure SameVariable {v : VarDescriptor} (var var' : Variable κ σ v) : Prop where
  dirty : var'.dirty = var.dirty
  timestamp : var'.timestamp = var.timestamp
  notificationHint : var'.notificationHint = var.notificationHint
  elems : List.Forall₂ (Elem.Same Eq v.type) var.elems var'.elems

/-- States of descriptors with the same contents, with the same variables. -/
inductive SameState : Option (State κ σ) → Option (State κ σ) → Prop
  | null : SameState none none
  | vars {bucket bucket' : String} {version version' : Int} {d : StateDescriptor}
      {s t : StateData κ σ d} (h : ∀ i, SameVariable (s.vars i) (t.vars i)) :
      SameState (some ⟨⟨bucket, version, d⟩, s⟩) (some ⟨⟨bucket', version', d⟩, t⟩)

variable (C S db) in
/-- `FromBlob` reads the whole of what `toBlob` writes, and has the same state. -/
def RoundTrips (now : Clock) (s : Option (State κ σ)) : Prop :=
  ∃ t, State.fromBlob C S db now (State.toBlob C S s) = .ok (t, []) ∧ SameState s t

/-- The name and the 16 bits of the version find the descriptor again. -/
def Found (db : DescriptorDb) (d : StateDescriptor) : Prop :=
  ∃ q, db.findDescriptor d.name (Streams.wrap16 d.version) = some q ∧ q.desc = d

variable (S) in
/-- Where all keys of a dirty variable are null and so pass for its default, they are
the key that the default is. -/
def NullKeysBlank {d : StateDescriptor} (s : StateData κ σ d) : Prop :=
  ∀ i, (s.vars i).dirty = true → (s.vars i).isDefault S = true →
    ∀ e ∈ (s.vars i).elems, Elem.Blank _ e

instance {d : StateDescriptor} (s : StateData κ σ d) : Decidable (NullKeysBlank S s) :=
  inferInstanceAs (Decidable (∀ i, (s.vars i).dirty = true → (s.vars i).isDefault S = true →
    ∀ e ∈ (s.vars i).elems, Elem.Blank _ e))

theorem sameVariables_iff {d : StateDescriptor} {f s t : StateData κ σ d}
    (hnew : StateData.new S d = .ok f) (hsimple : d.Simple)
    (hkept : ∀ i, Variable.Kept (f.vars i) (s.vars i))
    (hback : ∀ i, ((s.vars i).dirty = true → Variable.Back S Eq (f.vars i) (s.vars i) (t.vars i)) ∧
      ((s.vars i).dirty = false → t.vars i = f.vars i)) :
    (∀ i, SameVariable (s.vars i) (t.vars i)) ↔ NullKeysBlank S s := by
  refine forall_congr' fun i => ?_
  by_cases hdirty : (s.vars i).dirty = true
  · have hb := (hback i).1 hdirty
    rw [forall_prop_of_true hdirty,
      ← Variable.same_iff (fun _ => rfl) (StateData.isNew hnew i) (hsimple i) (hkept i) hb]
    exact ⟨fun h => h.elems,
      fun h => ⟨hb.dirty.trans hdirty.symm, hb.timestamp, hb.notificationHint, h⟩⟩
  · have hclean := Bool.eq_false_iff.2 hdirty
    refine iff_of_true ?_ fun h => absurd h hdirty
    rw [(hback i).2 hclean, (hkept i).clean hclean]
    exact ⟨rfl, rfl, rfl, List.forall₂_same.2 fun e _ => Elem.Same.refl (fun _ => rfl) _ e⟩

theorem create_run {flags : UInt16} {name : String} (hflags : flags &&& 0x8000 ≠ 0)
    (hname : Streams.Safe name) (version : Int) (rest : List UInt8) :
    (create S db : Read (Option (State κ σ))) (Streams.writeU16 flags ++
        (Streams.writeSafeString name ++ (Streams.writeInt16 version ++ rest))) =
      createFor S flags (db.findDescriptor name (Streams.wrap16 version)) rest := by
  unfold create
  rw [(Streams.reads_u16 flags).run, if_neg hflags, (Streams.reads_safeString hname).run,
    (Streams.reads_int16 version).run]

theorem toBlob_ne_nil (s : State κ σ) : State.toBlob C S (some s) ≠ [] := by
  intro h
  have hlen := congrArg List.length h
  rw [State.toBlob, List.length_append, Streams.writeU16, Lib.Reader.length_leBytes,
    List.length_nil] at hlen
  omega

theorem header_flags (b : Bool) : (if b = true then 0x8000 else 0x8000 ||| volatile) &&& 0x8000 ≠ 0 := by
  cases b <;> decide

/-- What `parse` does after the header that `toBlob` wrote. -/
theorem create_toBlob {s : State κ σ} (hname : Streams.Safe s.desc.desc.name) :
    (create S db : Read (Option (State κ σ))) (State.toBlob C S (some s)) =
      createFor S (if s.data.object.isNull then 0x8000 else 0x8000 ||| volatile)
        (db.findDescriptor s.desc.desc.name (Streams.wrap16 s.desc.desc.version))
        ((if s.data.object.isNull then [] else s.data.object.write) ++ s.data.write C S) :=
  create_run (header_flags _) hname _ _

/-- A state that `FromBlob` reads back has the descriptor that is found. -/
theorem fromBlob_desc {now : Clock} {s : State κ σ} (hname : Streams.Safe s.desc.desc.name)
    {t : State κ σ} {rest : List UInt8}
    (h : State.fromBlob C S db now (State.toBlob C S (some s)) = .ok (some t, rest)) :
    db.findDescriptor s.desc.desc.name (Streams.wrap16 s.desc.desc.version) = some t.desc := by
  unfold State.fromBlob at h
  rw [if_neg (toBlob_ne_nil s)] at h
  split at h
  · rename_i t' named rest' hparse
    obtain ⟨rfl, -⟩ := Prod.mk.inj (Except.ok.inj h)
    obtain ⟨st, mid, hcreate, htail⟩ := Lib.Reader.bind_eq_ok.1 hparse
    rw [create_toBlob hname] at hcreate
    have hst := yields_createFor _ _ _ _ _ hcreate
    cases hfind : db.findDescriptor s.desc.desc.name (Streams.wrap16 s.desc.desc.version) with
    | none =>
      obtain rfl := hst.null hfind
      exact nomatch htail
    | some q =>
      obtain ⟨f, object, -, -, rfl⟩ := hst.state q hfind
      obtain ⟨⟨data, named'⟩, mid', -, hpure⟩ := Lib.Reader.bind_eq_ok.1 htail
      obtain ⟨⟨rfl, -⟩, -⟩ := Prod.mk.inj (Except.ok.inj hpure)
      rfl
  · cases h

theorem found_of_roundTrips {now : Clock} {s : State κ σ} (hname : Streams.Safe s.desc.desc.name)
    (h : RoundTrips C S db now (some s)) : Found db s.desc.desc := by
  obtain ⟨t, hfrom, hsame⟩ := h
  cases hsame with
  | vars => exact ⟨_, fromBlob_desc hname hfrom, rfl⟩

theorem reads_object {object : MOUL.Uoid} (h : Streams.Safe object.name) : ∃ object',
    Reads (given ((if object.isNull = true then (0x8000 : UInt16) else 0x8000 ||| volatile) &&&
        volatile ≠ 0) MOUL.Uoid.read {})
      (if object.isNull = true then [] else object.write) object' := by
  by_cases hnull : object.isNull = true
  · refine ⟨{}, ?_⟩
    rw [if_pos hnull, if_pos hnull]
    exact .pure _
  · refine ⟨object, ?_⟩
    rw [if_neg hnull, if_neg hnull]
    exact MOUL.Uoid.reads h

/-- What is read back where the descriptor is found, if the variables read `P`. -/
theorem fromBlob_run {now : Clock} (bucket : String) (version : Int) {bucket' : String}
    {version' : Int} {d : StateDescriptor} {f x : StateData κ σ d} {P : StateData κ σ d → Prop}
    (hname : Streams.Safe d.name) (hsafe : Streams.Safe x.object.name)
    (hnew : StateData.new S d = .ok f)
    (hread : ∀ object, ∃ t named,
      Reads (StateData.read C S now { f with object }) (x.write C S) (t, named) ∧ P t)
    (hfind : db.findDescriptor d.name (Streams.wrap16 d.version) = some ⟨bucket', version', d⟩) :
    ∃ t : StateData κ σ d,
      State.fromBlob C S db now (State.toBlob C S (some ⟨⟨bucket, version, d⟩, x⟩)) =
        .ok (some ⟨⟨bucket', version', d⟩, t⟩, []) ∧ P t := by
  obtain ⟨object, hobject⟩ := reads_object hsafe
  obtain ⟨t, named, hread, hP⟩ := hread object
  have hstate : State.new S (some ⟨bucket', version', d⟩) = .ok (some ⟨⟨bucket', version', d⟩, f⟩) := by
    rw [State.new, hnew]
  have hcreate : Reads
      (createFor S (if x.object.isNull = true then 0x8000 else 0x8000 ||| volatile)
        (some ⟨bucket', version', d⟩) : Read (Option (State κ σ)))
      (if x.object.isNull = true then [] else x.object.write)
      (some ⟨⟨bucket', version', d⟩, { f with object }⟩) := by
    refine (Reads.ofExcept hstate).after ?_
    dsimp only
    rw [new_object hnew]
    exact hobject.andThen (Reads.pure _)
  refine ⟨t, ?_, hP⟩
  have hparse : parse C S db now (State.toBlob C S (some ⟨⟨bucket, version, d⟩, x⟩)) =
      .ok ((some ⟨⟨bucket', version', d⟩, t⟩, named), []) := by
    refine Lib.Reader.bind_eq_ok.2 ⟨some ⟨⟨bucket', version', d⟩, { f with object }⟩,
      x.write C S, ?_, ?_⟩
    · have hstart : (create S db : Read (Option (State κ σ))) _ = _ :=
        create_toBlob (C := C) (s := ⟨⟨bucket, version, d⟩, x⟩) hname
      rw [hstart, hfind]
      exact hcreate _
    · refine Lib.Reader.bind_eq_ok.2 ⟨(t, named), [], ?_, rfl⟩
      have hrest := hread []
      rwa [List.append_nil] at hrest
  rw [State.fromBlob, if_neg (toBlob_ne_nil _), hparse]

/-- What is read back of a state that is built, where the descriptor is found. -/
theorem fromBlob_found (now : Clock) {bucket bucket' : String} {version version' : Int}
    {d : StateDescriptor} {f x : StateData κ σ d} (hsound : Sound S db ⟨⟨bucket, version, d⟩, x⟩)
    (hsimple : d.Simple) (hnew : StateData.new S d = .ok f)
    (hkept : ∀ i, Variable.Kept (f.vars i) (x.vars i))
    (hassumed : ∀ i, ∀ e ∈ (x.vars i).elems, Elem.Assumed C _ e)
    (hfind : db.findDescriptor d.name (Streams.wrap16 d.version) = some ⟨bucket', version', d⟩) :
    ∃ t : StateData κ σ d,
      State.fromBlob C S db now (State.toBlob C S (some ⟨⟨bucket, version, d⟩, x⟩)) =
        .ok (some ⟨⟨bucket', version', d⟩, t⟩, []) ∧
      ∀ i, ((x.vars i).dirty = true → Variable.Back S Eq (f.vars i) (x.vars i) (t.vars i)) ∧
        ((x.vars i).dirty = false → t.vars i = f.vars i) :=
  fromBlob_run bucket version hsound.name hsound.object hnew
    (StateData.reads now hnew hsimple hkept hassumed) hfind

/-- When a state that is built is read back as it was written. -/
theorem roundTrips_iff (hdb : DescriptorDb.Loaded db) (now : Clock) {s : State κ σ}
    (h : Built C S db (some s)) (hsimple : s.desc.desc.Simple)
    (hassumed : ∀ i, ∀ e ∈ (s.data.vars i).elems, Elem.Assumed C _ e) :
    RoundTrips C S db now (some s) ↔ Found db s.desc.desc ∧ NullKeysBlank S s.data := by
  have hsound := built_sound hdb h s rfl
  obtain ⟨f, hnew, hkept⟩ := hsound.vars hsimple
  obtain ⟨⟨bucket, version, d⟩, x⟩ := s
  constructor
  · intro hround
    have hfound := found_of_roundTrips hsound.name hround
    refine ⟨hfound, ?_⟩
    obtain ⟨⟨bucket', version', d'⟩, hfind, hd⟩ := hfound
    obtain rfl : d' = d := hd
    obtain ⟨t, hfrom, hback⟩ := fromBlob_found now hsound hsimple hnew hkept hassumed hfind
    obtain ⟨t', hfrom', hsame⟩ := hround
    rw [hfrom] at hfrom'
    obtain ⟨rfl, -⟩ := Prod.mk.inj (Except.ok.inj hfrom')
    cases hsame with
    | vars hvars => exact (sameVariables_iff hnew hsimple hkept hback).1 hvars
  · rintro ⟨⟨⟨bucket', version', d'⟩, hfind, hd⟩, hkeys⟩
    obtain rfl : d' = d := hd
    obtain ⟨t, hfrom, hback⟩ := fromBlob_found now hsound hsimple hnew hkept hassumed hfind
    exact ⟨_, hfrom, .vars ((sameVariables_iff hnew hsimple hkept hback).2 hkeys)⟩

/-- **When blobs round-trip.**  A state of simple variables that is built of what was
read is read back as it was written if its descriptor is found again and its null keys
are blank, and not otherwise. -/
theorem blob_round_trips (descs : List StateDescriptor) (now : Clock) {st : Option (State κ σ)}
    (h : Built C S (DescriptorDb.load descs) st) (hsimple : ∀ s ∈ st, s.desc.desc.Simple)
    (hassumed : ∀ s ∈ st, ∀ i, ∀ e ∈ (s.data.vars i).elems, Elem.Assumed C _ e) :
    RoundTrips C S (DescriptorDb.load descs) now st ↔
      ∀ s ∈ st, Found (DescriptorDb.load descs) s.desc.desc ∧ NullKeysBlank S s.data := by
  have hdb := DescriptorDb.loaded_load descs
  obtain _ | s := st
  · exact iff_of_true ⟨none, rfl, .null⟩ fun s hs => nomatch hs
  · rw [roundTrips_iff hdb now h (hsimple s rfl) (hassumed s rfl)]
    constructor
    · intro hall s' hs'
      obtain rfl := Option.some.inj hs'
      exact hall
    · exact fun hall => hall s rfl

/-! ## Two blobs -/

/-- No creatables. -/
def noCreatables : Creatables Empty where
  type := nofun
  create := fun _ => .error .factory
  write := nofun

/-- No nested states. -/
def noChildren : Children Empty where
  new := fun _ => .error .crash
  read := fun _ => nofun
  write := nofun
  isDirty := nofun
  setDefault := nofun
  isDefault := nofun
  update := nofun

/-- A descriptor with one variable. -/
def oneVar (v : VarDescriptor) : StateDescriptor := ⟨"Door", 1, [v], show 1 < 2 ^ 31 by decide⟩

/-- `VAR INT n[1] DEFAULT=0`. -/
def intVar : VarDescriptor := { type := .int, name := "n", size := 1, default := some 0 }

/-- `VAR PLKEY k[1] DEFAULT=nil`. -/
def keyVar : VarDescriptor := { type := .key, name := "k", size := 1, default := some () }

/-- The header of a blob of version 1, up to the one variable that it names. -/
def oneVarHeader : List UInt8 :=
  Streams.writeU16 0x8000 ++ Streams.writeSafeString "Door" ++ Streams.writeInt16 1 ++
    Streams.writeU16 0 ++ [StateData.ioVersion, 1]

/-- The variable is 5. -/
def intBlob : List UInt8 := oneVarHeader ++ [0, 0, 5, 0, 0, 0, 0]

/-- The variable is a key of no type with 5 for its number. -/
def nullKeyBlob : List UInt8 :=
  oneVarHeader ++ [0, 0] ++ MOUL.Uoid.write { id := 5 } ++ [0]

/-- What `FromBlob` reads of a blob, if it is a state of the descriptor with the one
variable: whether its null keys are blank. -/
def oneVarRead (v : VarDescriptor) (blob : List UInt8) : Option Bool :=
  match State.fromBlob noCreatables noChildren (DescriptorDb.load [oneVar v]) (fun _ => {}) blob with
  | .ok (some s, _) =>
    if s.desc.desc = oneVar v then some (decide (NullKeysBlank noChildren s.data)) else none
  | _ => none

theorem oneVarRead_eq {v : VarDescriptor} {blob : List UInt8} {b : Bool}
    (h : oneVarRead v blob = some b) : ∃ s rest,
      State.fromBlob noCreatables noChildren (DescriptorDb.load [oneVar v]) (fun _ => {}) blob =
        .ok (some s, rest) ∧ s.desc.desc = oneVar v ∧ (NullKeysBlank noChildren s.data ↔ b = true) := by
  unfold oneVarRead at h
  split at h
  · rename_i s rest hfrom
    split at h
    · rename_i hdesc
      obtain rfl := Option.some.inj h
      exact ⟨s, rest, hfrom, hdesc, decide_eq_true_iff.symm⟩
    · cases h
  · cases h

/-- A state of one variable has no nested states, and nothing in it that is assumed. -/
theorem oneVar_plain {v : VarDescriptor} (hv : v = intVar ∨ v = keyVar) {s : State Empty Empty}
    (hs : s.desc.desc = oneVar v) : s.desc.desc.Simple ∧
      ∀ i, ∀ e ∈ (s.data.vars i).elems, Elem.Assumed noCreatables _ e := by
  obtain ⟨⟨bucket, version, d⟩, x⟩ := s
  obtain rfl : d = oneVar v := hs
  have htype : ∀ i, ((oneVar v).vars.get i).type ≠ .stateDesc ∧
      ((oneVar v).vars.get i).type ≠ .string ∧ ((oneVar v).vars.get i).type ≠ .creatable := by
    intro i
    obtain rfl := Fin.fin_one_eq_zero i
    obtain rfl | rfl := hv
    · decide
    · decide
  exact ⟨fun i => (htype i).1,
    fun i e _ => Elem.assumed_of_ne noCreatables (htype i).2.1 (htype i).2.2 e⟩

theorem blob_round_trips_int : ∃ s rest,
    State.fromBlob noCreatables noChildren (DescriptorDb.load [oneVar intVar]) (fun _ => {}) intBlob =
      .ok (some s, rest) ∧
    RoundTrips noCreatables noChildren (DescriptorDb.load [oneVar intVar]) (fun _ => {}) (some s) := by
  have hread : oneVarRead intVar intBlob = some true := by decide
  obtain ⟨s, rest, hfrom, hdesc, hkeys⟩ := oneVarRead_eq hread
  obtain ⟨hsimple, hassumed⟩ := oneVar_plain (.inl rfl) hdesc
  have hnames : (names noCreatables noChildren (DescriptorDb.load [oneVar intVar]) (fun _ => {})
      intBlob).Nodup := by decide
  refine ⟨s, rest, hfrom, (blob_round_trips [oneVar intVar] (fun _ => {}) (.fromBlob hfrom hnames)
    ?_ ?_).2 ?_⟩
  · intro s' hs'
    obtain rfl := Option.some.inj hs'
    exact hsimple
  · intro s' hs'
    obtain rfl := Option.some.inj hs'
    exact hassumed
  · intro s' hs'
    obtain rfl := Option.some.inj hs'
    refine ⟨?_, hkeys.2 rfl⟩
    rw [hdesc]
    exact ⟨⟨"door", 1, oneVar intVar⟩, by decide, rfl⟩

/-- **A null key does not come back.**  A state that was read off a blob that names no
variable twice, and that is not read back as it was written. -/
theorem null_key_lost : ∃ s rest,
    State.fromBlob noCreatables noChildren (DescriptorDb.load [oneVar keyVar]) (fun _ => {})
      nullKeyBlob = .ok (some s, rest) ∧
    (names noCreatables noChildren (DescriptorDb.load [oneVar keyVar]) (fun _ => {})
      nullKeyBlob).Nodup ∧ s.desc.desc.Simple ∧
    (∀ i, ∀ e ∈ (s.data.vars i).elems, Elem.Assumed noCreatables _ e) ∧
    ¬ RoundTrips noCreatables noChildren (DescriptorDb.load [oneVar keyVar]) (fun _ => {})
      (some s) := by
  have hread : oneVarRead keyVar nullKeyBlob = some false := by decide
  obtain ⟨s, rest, hfrom, hdesc, hkeys⟩ := oneVarRead_eq hread
  obtain ⟨hsimple, hassumed⟩ := oneVar_plain (.inr rfl) hdesc
  have hnames : (names noCreatables noChildren (DescriptorDb.load [oneVar keyVar]) (fun _ => {})
      nullKeyBlob).Nodup := by decide
  refine ⟨s, rest, hfrom, hnames, hsimple, hassumed, fun hround => ?_⟩
  have hiff := roundTrips_iff (DescriptorDb.loaded_load [oneVar keyVar]) (fun _ => {})
    (.fromBlob hfrom hnames) hsimple hassumed
  exact Bool.noConfusion (hkeys.1 (hiff.1 hround).2)

end State

end Dirtsand.SDL
