import Dirtsand.SDL.StateTree

/-!
# Nested states in blobs

The variables that are states themselves, as `Variable::write` and `State::write` put
them into a blob.

* `StateData.section_round_trips` — the loop over these variables stops at the number
  of the dirty ones, so that it writes them all only where they come first.
* `Variable.nested_round_trips` — a variable counts all of its states and writes the
  dirty ones, so that it is read back only where all are dirty.
-/

namespace Dirtsand.SDL

open Lib.Reader (Reads given)

/-! ## Loops that are cut short -/

theorem stupidLengthRead_nil (max : Nat) (x : Nat × List UInt8) :
    stupidLengthRead max [] ≠ .ok x := by
  have hnat : ∀ n, Lib.Reader.nat StreamError.eof (n + 1) [] ≠ .ok x := by
    intro n h
    obtain ⟨bytes, mid, hbytes, -⟩ := Lib.Reader.bind_eq_ok.1 h
    have hn : ¬ n + 1 ≤ ([] : List UInt8).length := Nat.not_succ_le_zero n
    rw [Lib.Reader.take, if_neg hn] at hbytes
    cases hbytes
  unfold stupidLengthRead
  split
  · exact hnat 0
  · split
    · exact hnat 1
    · exact hnat 3

section Named

variable {α : Type} {bound max : Nat} {body : Fin bound → α → Read α}
  {Good : List (Fin bound) → α → Prop} {P : Fin bound → Prop} {enc : Fin bound → List UInt8}
  {useIndices : Bool}

/-- The loop fails where more things are counted than are there: it finds no place, or
nothing to read at the place. -/
theorem readNamed_short_from
    (hend : useIndices = true ∨ ∀ done j a x, Good done a → body j a [] ≠ .ok x)
    (hindex : useIndices = true → ∀ j : Fin bound,
      Reads (stupidLengthRead max) (stupidLengthWrite max j.val) j.val)
    (hbody : ∀ done j a, P j → Good done a → j ∉ done →
      ∃ a', Reads (body j a) (enc j) a' ∧ Good (done ++ [j]) a')
    {is : List (Fin bound)} (hP : ∀ j ∈ is, P j) (i : Nat) {done : List (Fin bound)} {a : α}
    (hnodup : (done ++ is).Nodup)
    (hplaces : useIndices = false → is.map Fin.val = List.range' i is.length) (ha : Good done a)
    {k : Nat} (hk : is.length < k) (x : (α × List (Fin bound)) × List UInt8) :
    readNamed max useIndices body k i a
      (is.flatMap fun j => (if useIndices = true then stupidLengthWrite max j.val else []) ++ enc j) ≠
        .ok x := by
  induction is generalizing i done a k x with
  | nil =>
    obtain _ | k := k
    · exact absurd hk (Nat.not_lt_zero 0)
    · intro hx
      obtain ⟨idx, mid, hidx, hx⟩ := Lib.Reader.bind_eq_ok.1 hx
      by_cases huse : useIndices = true
      · rw [given, if_pos huse] at hidx
        exact stupidLengthRead_nil max _ hidx
      · rw [given, if_neg huse] at hidx
        obtain ⟨rfl, rfl⟩ := Prod.mk.inj (Except.ok.inj hidx)
        split at hx
        · obtain ⟨a', mid, ha', -⟩ := Lib.Reader.bind_eq_ok.1 hx
          exact hend.resolve_left huse _ _ _ _ ha ha'
        · cases hx
  | cons j is ih =>
    obtain _ | k := k
    · exact absurd hk (Nat.not_lt_zero _)
    · have hj : j ∉ done := fun hmem => List.disjoint_of_nodup_append hnodup hmem List.mem_cons_self
      obtain ⟨a₁, hread, ha₁⟩ := hbody done j a (hP j List.mem_cons_self) ha hj
      have hplaces' : useIndices = false →
          j.val = i ∧ is.map Fin.val = List.range' (i + 1) is.length := by
        intro huse
        have h := hplaces huse
        rw [List.map_cons, List.length_cons, List.range'_succ] at h
        exact List.cons.inj h
      have hidx : Reads (given (useIndices = true) (stupidLengthRead max) i)
          (if useIndices = true then stupidLengthWrite max j.val else []) j.val :=
        Lib.Reader.reads_given (fun huse => hindex huse j) fun huse =>
          (hplaces' (Bool.not_eq_true _ ▸ huse)).1
      intro hx
      rw [List.flatMap_cons, List.append_assoc, readNamed, hidx.run, dif_pos j.isLt, hread.run] at hx
      obtain ⟨r, mid, hr, -⟩ := Lib.Reader.bind_eq_ok.1 hx
      exact ih (fun j' hj' => hP j' (List.mem_cons_of_mem j hj')) (i + 1)
        (by rwa [← List.append_cons]) (fun huse => (hplaces' huse).2) ha₁ (Nat.lt_of_succ_lt_succ hk)
        _ hr

variable (Good) (useIndices) in
theorem readNamed_short
    (hend : useIndices = true ∨ ∀ done j a x, Good done a → body j a [] ≠ .ok x)
    (hindex : useIndices = true → ∀ j : Fin bound,
      Reads (stupidLengthRead max) (stupidLengthWrite max j.val) j.val)
    (hbody : ∀ done j a, P j → Good done a → j ∉ done →
      ∃ a', Reads (body j a) (enc j) a' ∧ Good (done ++ [j]) a')
    {is : List (Fin bound)} (hP : ∀ j ∈ is, P j) {a : α} (hnodup : is.Nodup)
    (hplaces : useIndices = false → is.map Fin.val = List.range' 0 is.length) (ha : Good [] a)
    {k : Nat} (hk : is.length < k) (x : (α × List (Fin bound)) × List UInt8) :
    readNamed max useIndices body k 0 a
      (is.flatMap fun j => (if useIndices = true then stupidLengthWrite max j.val else []) ++ enc j) ≠
        .ok x := by
  have hnil : ([] ++ is).Nodup := hnodup
  exact readNamed_short_from hend hindex hbody hP 0 hnil hplaces ha hk x

/-- A loop over places that follow one another has no indices. -/
theorem reads_readNamed_all (max : Nat)
    (hbody : ∀ done j a, P j → Good done a → j ∉ done →
      ∃ a', Reads (body j a) (enc j) a' ∧ Good (done ++ [j]) a')
    {is : List (Fin bound)} (hP : ∀ j ∈ is, P j) {a : α} (hnodup : is.Nodup)
    (hplaces : is.map Fin.val = List.range' 0 is.length) (ha : Good [] a) :
    ∃ a', Reads (readNamed max false body is.length 0 a) (is.flatMap enc) (a', is) ∧ Good is a' := by
  have hindex : false = true → ∀ j : Fin bound,
      Reads (stupidLengthRead max) (stupidLengthWrite max j.val) j.val := fun huse => nomatch huse
  exact reads_readNamed hindex hbody hP hnodup (fun _ => hplaces) ha

theorem readNamed_all_short (max : Nat) (Good : List (Fin bound) → α → Prop)
    (hend : ∀ done j a x, Good done a → body j a [] ≠ .ok x)
    (hbody : ∀ done j a, P j → Good done a → j ∉ done →
      ∃ a', Reads (body j a) (enc j) a' ∧ Good (done ++ [j]) a')
    {is : List (Fin bound)} (hP : ∀ j ∈ is, P j) {a : α} (hnodup : is.Nodup)
    (hplaces : is.map Fin.val = List.range' 0 is.length) (ha : Good [] a)
    {k : Nat} (hk : is.length < k) (x : (α × List (Fin bound)) × List UInt8) :
    readNamed max false body k 0 a (is.flatMap enc) ≠ .ok x := by
  have hindex : false = true → ∀ j : Fin bound,
      Reads (stupidLengthRead max) (stupidLengthWrite max j.val) j.val := fun huse => nomatch huse
  exact readNamed_short Good false (.inr hend) hindex hbody hP hnodup (fun _ => hplaces) ha hk x

end Named

/-! ## The section of a state -/

namespace StateData

variable {κ σ : Type} {C : Creatables κ} {S : Children σ} {d : StateDescriptor}
  {f s : StateData κ σ d}

/-- The number of dirty variables in a list of `State::write`. -/
def dirtyCount (s : StateData κ σ d) (list : List (Fin d.vars.length)) : Nat :=
  (List.finRange list.length).countP fun i => (s.vars (list.get i)).dirty

/-- The dirty variables of a list come first. -/
def DirtyFirst (s : StateData κ σ d) (list : List (Fin d.vars.length)) : Prop :=
  ∀ j : Fin list.length, (s.vars (list.get j)).dirty = true → j.val < s.dirtyCount list

instance (s : StateData κ σ d) (list : List (Fin d.vars.length)) : Decidable (s.DirtyFirst list) :=
  inferInstanceAs (Decidable (∀ j : Fin list.length, (s.vars (list.get j)).dirty = true →
    j.val < s.dirtyCount list))

theorem mem_take_finRange {n k : Nat} (j : Fin n) : j ∈ (List.finRange n).take k ↔ j.val < k := by
  constructor
  · intro h
    obtain ⟨i, hi, heq⟩ := List.mem_take_iff_getElem.1 h
    rw [List.getElem_finRange] at heq
    rw [← heq]
    exact lt_of_lt_of_le hi (min_le_left _ _)
  · intro h
    refine List.mem_take_iff_getElem.2 ⟨j.val, ?_, ?_⟩
    · rw [List.length_finRange]
      exact lt_min h j.isLt
    · rw [List.getElem_finRange]
      rfl

/-- The places that the second loop writes, if it stops at `k`. -/
theorem filter_take_finRange {n k : Nat} {p : Fin n → Bool} (h : ∀ j, p j = true → j.val < k) :
    ((List.finRange n).take k).filter p = (List.finRange n).filter p := by
  have hrest : ((List.finRange n).drop k).filter p = [] := by
    refine List.filter_eq_nil_iff.2 fun j hj hp => ?_
    have hnodup := List.nodup_finRange n
    rw [← List.take_append_drop k (List.finRange n)] at hnodup
    exact List.disjoint_of_nodup_append hnodup ((mem_take_finRange j).2 (h j hp)) hj
  have hall := List.filter_append (p := p) ((List.finRange n).take k) ((List.finRange n).drop k)
  rw [List.take_append_drop, hrest, List.append_nil] at hall
  exact hall.symm

theorem length_filter_take {n k : Nat} {p : Fin n → Bool} {j : Fin n} (hp : p j = true)
    (hj : k ≤ j.val) : (((List.finRange n).take k).filter p).length < (List.finRange n).countP p := by
  have hall := List.filter_append (p := p) ((List.finRange n).take k) ((List.finRange n).drop k)
  have hmem : j ∈ ((List.finRange n).drop k).filter p := by
    refine List.mem_filter.2 ⟨?_, hp⟩
    have hor := List.mem_finRange j
    rw [← List.take_append_drop k (List.finRange n), List.mem_append, mem_take_finRange] at hor
    exact hor.resolve_left (not_lt.2 hj)
  have hpos := List.length_pos_of_mem hmem
  rw [List.take_append_drop] at hall
  rw [List.countP_eq_length_filter, hall, List.length_append]
  omega

/-- What the loop writes, over the places that it visits. -/
theorem writeVars_eq (list : List (Fin d.vars.length)) (whole : Bool) :
    writeVars C S s list whole = stupidLengthWrite d.vars.length (s.dirtyCount list) ++
      (((List.finRange list.length).take (if whole = true then list.length else s.dirtyCount list)).filter
        fun j => (s.vars (list.get j)).dirty).flatMap fun j =>
          (if decide (s.dirtyCount list ≠ list.length) = true then
            stupidLengthWrite d.vars.length j.val else []) ++ (s.vars (list.get j)).write C S := by
  simp only [decide_eq_true_eq]
  rfl

theorem writeVars_dirtyFirst {list : List (Fin d.vars.length)} (h : s.DirtyFirst list) :
    writeVars C S s list false = writeVars C S s list true := by
  have hall : (List.finRange list.length).take list.length = List.finRange list.length :=
    List.take_of_length_le (List.length_finRange).le
  rw [writeVars_eq, writeVars_eq, if_neg Bool.false_ne_true, if_pos rfl, hall, filter_take_finRange h]

/-- The loop that stops too early is not read at all. -/
theorem readVars_short {now : Clock} {list : List (Fin d.vars.length)} (hlist : list.Nodup)
    {w : Vars κ σ d} (hvar : ∀ i ∈ list, (s.vars i).dirty = true →
      Reads ((f.vars i).read C S now) ((s.vars i).write C S) (w i))
    (h : ¬ s.DirtyFirst list) (x : (Vars κ σ d × List Nat) × List UInt8) :
    readVars C S now list f.vars (writeVars C S s list false) ≠ .ok x := by
  have hlen : list.length ≤ d.vars.length := by
    have hcard := hlist.length_le_card
    rwa [Fintype.card_fin] at hcard
  have hmax : d.vars.length < 2 ^ 32 := lt_trans d.few (by decide)
  obtain ⟨j, hj⟩ := not_forall.1 h
  obtain ⟨hdirty, hj⟩ := Classical.not_imp.1 hj
  -- As a variable after the first ones is dirty, not all are, and each has its index.
  have hcount : decide (s.dirtyCount list ≠ list.length) = true := by
    have hlt := j.isLt
    exact decide_eq_true (by omega)
  have hle : s.dirtyCount list ≤ d.vars.length := by
    have hlt := j.isLt
    omega
  have hvar' : ∀ i ∈ list, (s.vars i).dirty = true →
      ∃ var, Reads ((f.vars i).read C S now) ((s.vars i).write C S) var ∧ var = w i :=
    fun i hi hd => ⟨w i, hvar i hi hd, rfl⟩
  have hreadVar := reads_readVar (Q := fun i var => var = w i) hlist hvar'
  intro hx
  rw [writeVars_eq, if_neg Bool.false_ne_true, readVars, (reads_stupidLength hmax hle).run] at hx
  obtain ⟨r, mid, hr, -⟩ := Lib.Reader.bind_eq_ok.1 hx
  refine readNamed_short (P := fun j => (s.vars (list.get j)).dirty = true) _ _ (.inl hcount)
    (fun _ j => reads_stupidLength hmax (j.isLt.le.trans hlen)) hreadVar
    (fun j hj => (List.mem_filter.1 hj).2)
    (((List.nodup_finRange _).sublist (List.take_sublist _ _)).filter _) (fun huse => ?_)
    (fun i => ⟨fun j hj => absurd hj List.not_mem_nil, fun _ => rfl⟩)
    (length_filter_take hdirty (not_lt.1 hj)) (r, mid) hr
  rw [hcount] at huse
  exact Bool.noConfusion huse

theorem mem_sdVars (i : Fin d.vars.length) : i ∈ d.sdVars ↔ i ∉ d.simpleVars := by
  rw [StateDescriptor.sdVars, StateDescriptor.simpleVars, List.mem_filter, List.mem_filter,
    and_iff_right (List.mem_finRange i), and_iff_right (List.mem_finRange i), decide_eq_true_iff,
    decide_eq_true_iff, not_not]

/-- What the state is once it is read: each dirty variable as it is read on its own, and
the others as they were before. -/
def delivered (f s : StateData κ σ d) (w : Vars κ σ d) : StateData κ σ d :=
  { f with flags := s.flags, vars := fun i => if (s.vars i).dirty = true then w i else f.vars i }

/-- The simple variables are read, and the nested states are still as they were. -/
theorem reads_simpleVars {now : Clock} {w : Vars κ σ d} (hvar : ∀ i, (s.vars i).dirty = true →
    Reads ((f.vars i).read C S now) ((s.vars i).write C S) (w i)) :
    ∃ vars named, Reads (readVars C S now d.simpleVars f.vars) (writeVars C S s d.simpleVars true)
        (vars, named) ∧
      (∀ i ∈ d.simpleVars, vars i = if (s.vars i).dirty = true then w i else f.vars i) ∧
      ∀ i ∈ d.sdVars, vars i = f.vars i := by
  obtain ⟨vars, named, hread, hvars⟩ := reads_readVars (Q := fun i var => var = w i)
    ((List.nodup_finRange _).filter _) fun i _ hdirty => ⟨w i, hvar i hdirty, rfl⟩
  refine ⟨vars, named, hread, fun i hi => ?_, fun i hi => ?_⟩
  · split
    · rename_i hdirty
      exact (hvars i).1 hi hdirty
    · rename_i hclean
      exact (hvars i).2 fun _ => Bool.not_eq_true _ ▸ hclean
  · exact (hvars i).2 fun hmem => absurd hmem ((mem_sdVars i).1 hi)

theorem dirtyFirst_of_reads {now : Clock} {w : Vars κ σ d} (hvar : ∀ i, (s.vars i).dirty = true →
    Reads ((f.vars i).read C S now) ((s.vars i).write C S) (w i)) {r : StateData κ σ d × List Nat}
    (h : Reads (StateData.read C S now f) (s.write C S) r) : s.DirtyFirst d.sdVars := by
  obtain ⟨vars, named, hread, -, hnew⟩ := reads_simpleVars hvar
  by_contra hfirst
  have hrun := h []
  rw [List.append_nil, StateData.write, StateData.read, (Streams.reads_u16 _).run,
    (Streams.reads_u8 _).run, if_neg (not_not.2 rfl), hread.run] at hrun
  obtain ⟨r', mid, hr, -⟩ := Lib.Reader.bind_eq_ok.1 hrun
  refine readVars_short (f := { f with vars }) (w := w) ((List.nodup_finRange _).filter _) (fun i hi hdirty => ?_)
    hfirst (r', mid) hr
  dsimp only
  rw [hnew i hi]
  exact hvar i hdirty

theorem reads_of_dirtyFirst {now : Clock} {w : Vars κ σ d} (hvar : ∀ i, (s.vars i).dirty = true →
    Reads ((f.vars i).read C S now) ((s.vars i).write C S) (w i)) (h : s.DirtyFirst d.sdVars) :
    ∃ named, Reads (StateData.read C S now f) (s.write C S) (delivered f s w, named) := by
  obtain ⟨vars, named, hread, hsimple, hnew⟩ := reads_simpleVars hvar
  obtain ⟨vars', named', hread', hvars'⟩ := reads_readVars (f := { f with vars })
    (Q := fun i var => var = w i) ((List.nodup_finRange _).filter _) fun i hi hdirty => by
      refine ⟨w i, ?_, rfl⟩
      dsimp only
      rw [hnew i hi]
      exact hvar i hdirty
  have heq : vars' = (delivered f s w).vars := by
    funext i
    by_cases hi : i ∈ d.simpleVars
    · have hkeep : vars' i = vars i := (hvars' i).2 fun hmem => absurd hi ((mem_sdVars i).1 hmem)
      rw [hkeep]
      exact hsimple i hi
    · have hmem := (mem_sdVars i).2 hi
      unfold delivered
      dsimp only
      split
      · rename_i hdirty
        exact (hvars' i).1 hmem hdirty
      · rename_i hclean
        have hkeep : vars' i = vars i := (hvars' i).2 fun _ => Bool.not_eq_true _ ▸ hclean
        rw [hkeep]
        exact hnew i hmem
  refine ⟨named ++ named', ?_⟩
  refine (Streams.reads_u16 _).bind ?_
  refine (Streams.reads_u8 _).bind ?_
  rw [if_neg (not_not.2 rfl)]
  refine hread.bind ?_
  rw [writeVars_dirtyFirst h]
  refine hread'.andThen ?_
  rw [heq]
  exact Reads.pure _

/-- **When the nested states of a state come back.**  A state is read as it was written,
each dirty variable as it is read on its own and the others as they were before, if the
dirty ones among the nested states come first, and not otherwise. -/
theorem section_round_trips (C : Creatables κ) (S : Children σ) (now : Clock) {f s : StateData κ σ d}
    {w : Vars κ σ d} (hvar : ∀ i, (s.vars i).dirty = true →
      Reads ((f.vars i).read C S now) ((s.vars i).write C S) (w i)) :
    (∃ named, Reads (StateData.read C S now f) (s.write C S) (delivered f s w, named)) ↔
      s.DirtyFirst d.sdVars := by
  constructor
  · rintro ⟨named, hreads⟩
    exact dirtyFirst_of_reads hvar hreads
  · exact reads_of_dirtyFirst hvar

end StateData

/-! ## A variable of nested states -/

/-- A variable whose elements are states. -/
abbrev nestedVar (typeName name : String) (size : Int) (default : Option Unit)
    (defaultOption displayOption : String := "") : VarDescriptor :=
  ⟨.stateDesc, typeName, name, size, default, defaultOption, displayOption⟩

namespace Variable

variable {κ σ : Type} {C : Creatables κ} {S : Children σ} {R : σ → σ → Prop} {now : Clock}
  {typeName name defaultOption displayOption : String} {size : Int} {default : Option Unit}

/-- The number that the count of an array of states is written under. -/
def stupidSize (size : Int) (n : Nat) : Nat := if size = -1 then 0 else n

theorem reads_count (size : Int) {n : Nat} (hn : n < 10000) :
    Reads (stupidLengthRead (stupidSize size n)) (stupidLengthWrite (stupidSize size n) n)
      (if size = -1 then n % 256 else n) := by
  unfold stupidSize
  split
  · have hbyte : Lib.Reader.leBytes 1 n = Lib.Reader.leBytes 1 (n % 256) := by
      have hmod : UInt8.ofNat n = UInt8.ofNat (n % 256) := UInt8.toNat_inj.1 (by simp)
      rw [Lib.Reader.leBytes, Lib.Reader.leBytes, hmod]
      rfl
    show Reads (Lib.Reader.nat .eof 1) (Lib.Reader.leBytes 1 n) _
    rw [hbyte]
    exact Lib.Reader.reads_nat _ (by omega)
  · exact reads_stupidLength (by omega) (le_refl n)

/-- The reader of an array of states. -/
def readArray (S : Children σ) (now : Clock) (typeName : String) (size : Int) (children : List σ) :
    Read (List σ) := do
  let children ← given (size = -1) (do
    let count ← Streams.readU32
    if 10000 ≤ count then Lib.Reader.fail .malformedData
    else Lib.Reader.ofExcept (Elem.resize (κ := κ) S typeName .stateDesc count.toNat)) children
  readChildren S now size children

/-- What is written of an array of states. -/
def arrayBytes (S : Children σ) (size : Int) (children : List σ) : List UInt8 :=
  (if size = -1 then Streams.writeU32 (UInt32.ofNat children.length) else []) ++
    (stupidLengthWrite (stupidSize size children.length) children.length ++
      (children.filter S.isDirty).flatMap S.write)

/-- A variable of states is read and written as its array is. -/
theorem read_nested
    {f var : Variable κ σ (nestedVar typeName name size default defaultOption displayOption)} (hf : IsNew S f)
    (hhint : Streams.Safe var.notificationHint) (rest : List UInt8) :
    read C S now f (var.write C S ++ rest) = (do
      let elems ← readArray (κ := κ) S now typeName size f.elems
      pure { f with
        elems, notificationHint := var.notificationHint, flags := (var.written S).flags, dirty := true }
        : Read (Variable κ σ (nestedVar typeName name size default defaultOption displayOption)))
      (arrayBytes S size var.elems ++ rest) := by
  have hread : Reads (given ((var.written S).contents &&& hasNotificationInfo ≠ 0) readHint
      f.notificationHint)
      (if (var.written S).contents &&& hasNotificationInfo ≠ 0 then
        writeHint (var.written S).notificationHint else []) var.notificationHint := by
    refine Lib.Reader.reads_given (fun _ => ?_) fun hcontents => ?_
    · refine (Streams.reads_u8 _).bind ?_
      exact Streams.reads_safeString hhint
    · rw [hf.notificationHint]
      by_contra hne
      refine hcontents ?_
      have hset : (var.written S).contents = hasNotificationInfo := if_neg hne
      rw [hset]
      decide
  rw [write, read, List.append_assoc, (Streams.reads_u8 _).run, List.append_assoc, hread.run,
    List.append_assoc, (Streams.reads_u8 _).run]
  rfl

/-- The array that the states are read into: so many new states. -/
theorem reads_newArray
    {f : Variable κ σ (nestedVar typeName name size default defaultOption displayOption)} (hf : IsNew S f)
    (hdefault : ∀ c, S.new typeName = .ok c → S.setDefault c = c) {n : Nat} (hn : n < 10000)
    (hfixed : size ≠ -1 → n = size.toNat) (hnew : n ≠ 0 → ∃ c, S.new typeName = .ok c) :
    ∃ es : List σ, es.length = n ∧ (∀ e ∈ es, S.new typeName = .ok e) ∧
      Reads (given (size = -1) (do
        let count ← Streams.readU32
        if 10000 ≤ count then Lib.Reader.fail .malformedData
        else Lib.Reader.ofExcept (Elem.resize (κ := κ) S typeName .stateDesc count.toNat)) f.elems)
        (if size = -1 then Streams.writeU32 (UInt32.ofNat n) else []) es := by
  have hresize : ∃ es : List σ, Elem.resize (κ := κ) S typeName .stateDesc n = .ok es ∧
      es.length = n ∧ ∀ e ∈ es, S.new typeName = .ok e := by
    obtain _ | n := n
    · exact ⟨[], rfl, rfl, fun e he => absurd he List.not_mem_nil⟩
    · obtain ⟨c, hc⟩ := hnew (Nat.succ_ne_zero n)
      refine ⟨List.replicate (n + 1) c, ?_, List.length_replicate, fun e he => ?_⟩
      · rw [Elem.resize, hc]
      · rw [List.eq_of_mem_replicate he]
        exact hc
  obtain ⟨es, hes, hlen, hall⟩ := hresize
  refine ⟨es, hlen, hall, Lib.Reader.reads_given (fun _ => ?_) fun hsize => ?_⟩
  · have hcount : (UInt32.ofNat n).toNat = n :=
      UInt32.toNat_ofNat_of_lt' (lt_trans hn (by decide))
    refine (Streams.reads_u32 _).andThen ?_
    rw [if_neg, hcount]
    · exact Reads.ofExcept hes
    · rw [UInt32.le_iff_toNat_le, hcount]
      exact not_le.2 hn
  · obtain ⟨es', hes', rfl⟩ := hf.elems
    obtain rfl := hfixed hsize
    obtain rfl := Except.ok.inj (hes.symm.trans hes')
    have hmap : es.map S.setDefault = es.map id :=
      List.map_congr_left fun e he => hdefault e (hall e he)
    show es = es.map S.setDefault
    rw [hmap, List.map_id]

/-- What is read of a dirty child, and of a clean one. -/
def ChildBack (S : Children σ) (R : σ → σ → Prop) (typeName : String) (c c' : σ) : Prop :=
  if S.isDirty c = true then R c c' else S.new typeName = .ok c'

/-- A variable of states is read as it was written: it has the same number of states,
each dirty one with its values and each clean one as it was made. -/
def NestedBack (C : Creatables κ) (S : Children σ) (now : Clock) (R : σ → σ → Prop)
    (f var : Variable κ σ (nestedVar typeName name size default defaultOption displayOption)) :
    Prop :=
  ∃ var' : Variable κ σ (nestedVar typeName name size default defaultOption displayOption),
    Reads (read C S now f) (var.write C S) var' ∧
      List.Forall₂ (ChildBack S R typeName) var.elems var'.elems

/-- Each state can be made, and is read as it was written if it is dirty. -/
def ChildrenBack (S : Children σ) (now : Clock) (R : σ → σ → Prop) (typeName : String)
    (children : List σ) : Prop :=
  ∀ c ∈ children, ∃ x, S.new typeName = .ok x ∧
    (S.isDirty c = true → ∃ c', Reads (S.read now x) (S.write c) c' ∧ R c c')

theorem forall₂_ofFn {α β : Type} {Q : α → β → Prop} {n : Nat} {g : Fin n → α} {h : Fin n → β}
    (hall : ∀ i, Q (g i) (h i)) : List.Forall₂ Q (List.ofFn g) (List.ofFn h) := by
  induction n with
  | zero => exact .nil
  | succ n ih =>
    rw [List.ofFn_succ, List.ofFn_succ]
    exact .cons (hall 0) (ih fun i => hall i.succ)

/-- A list, by the places of another of the same length. -/
theorem exists_ofFn {α β : Type} {as : List α} {bs : List β} (h : as.length = bs.length) :
    ∃ g : Fin bs.length → α, as = List.ofFn g := by
  rw [← h]
  exact ⟨as.get, (List.ofFn_get as).symm⟩

/-- All of the states are dirty, and their number can be read. -/
theorem reads_children_dirty {es : List σ} {g : Fin es.length → σ}
    (hback : ∀ i, ∃ c', Reads (S.read now (es.get i)) (S.write (g i)) c' ∧ R (g i) c')
    (hcount : Reads (stupidLengthRead (stupidSize size es.length))
      (stupidLengthWrite (stupidSize size es.length) es.length) es.length) :
    ∃ es', Reads (readChildren S now size es)
      (stupidLengthWrite (stupidSize size es.length) es.length ++ (List.ofFn g).flatMap S.write) es' ∧
      List.Forall₂ R (List.ofFn g) es' := by
  have hbody : ∀ (done : List (Fin es.length)) (j : Fin es.length) (h : Fin es.length → σ), True →
      (∀ i, (i ∈ done → R (g i) (h i)) ∧ (i ∉ done → h i = es.get i)) → j ∉ done →
      ∃ h', Reads (do
          let child ← S.read now (h j)
          pure (Function.update h j child)) (S.write (g j)) h' ∧
        ∀ i, (i ∈ done ++ [j] → R (g i) (h' i)) ∧ (i ∉ done ++ [j] → h' i = es.get i) := by
    intro done j h _ hgood hj
    obtain ⟨c', hread, hR⟩ := hback j
    rw [← (hgood j).2 hj] at hread
    refine ⟨_, hread.andThen (Reads.pure _), fun i => ?_⟩
    by_cases hi : i = j
    · subst hi
      rw [Function.update_self]
      exact ⟨fun _ => hR, fun hnot => absurd (List.mem_append_right _ List.mem_cons_self) hnot⟩
    · rw [Function.update_of_ne hi, List.mem_append, List.mem_singleton, or_iff_left hi]
      exact hgood i
  have hplaces : (List.finRange es.length).map Fin.val =
      List.range' 0 (List.finRange es.length).length := by
    rw [List.length_finRange, List.map_coe_finRange_eq_range, List.range_eq_range']
  obtain ⟨h, hread, hgood⟩ := reads_readNamed_all (stupidSize size es.length) hbody
    (fun _ _ => trivial) (List.nodup_finRange _) hplaces
    (fun i => ⟨fun hi => absurd hi List.not_mem_nil, fun _ => rfl⟩)
  refine ⟨List.ofFn h, ?_, forall₂_ofFn fun i => (hgood i).1 (List.mem_finRange i)⟩
  have hbytes : (List.ofFn g).flatMap S.write =
      (List.finRange es.length).flatMap fun j => S.write (g j) := by
    rw [List.ofFn_eq_map, List.flatMap_map]
  have hall : decide (es.length ≠ es.length) = false := decide_eq_false (not_not.2 rfl)
  rw [List.length_finRange] at hread
  rw [hbytes]
  refine hcount.bind ?_
  dsimp only
  rw [hall]
  exact hread.andThen (Reads.pure _)

/-- The dirty states of an array are read back: all of them are dirty and their number
fits its count, or none is and their number looks like none. -/
def NestedFits (size : Int) (dirty : List Bool) : Prop :=
  ((∀ b ∈ dirty, b = true) ∧ (size = -1 → dirty.length < 256)) ∨
    (size = -1 ∧ dirty.length % 256 = 0 ∧ ∀ b ∈ dirty, b = false)

theorem reads_children_clean {cs es : List σ} (hsize : size = -1) (hlen : es.length = cs.length)
    (hn : cs.length < 10000) (hcount : cs.length % 256 = 0) (hnone : ∀ c ∈ cs, S.isDirty c = false) :
    Reads (readChildren S now size es) (stupidLengthWrite (stupidSize size cs.length) cs.length ++
      (cs.filter S.isDirty).flatMap S.write) es := by
  have hfilter : cs.filter S.isDirty = [] :=
    List.filter_eq_nil_iff.2 fun c hc => by
      rw [hnone c hc]
      exact Bool.false_ne_true
  have hread := reads_count size hn
  rw [if_pos hsize, hcount] at hread
  rw [hfilter]
  refine Reads.bind (f := fun count => _) (by rwa [← hlen] at hread ⊢) ?_
  have hzero : Reads (pure (List.ofFn es.get) : Read (List σ)) [] es := by
    rw [List.ofFn_get]
    exact .pure es
  exact hzero

theorem reads_children {cs es : List σ} (hlen : es.length = cs.length) (hn : cs.length < 10000)
    (hnew : ∀ e ∈ es, S.new typeName = .ok e) (hback : ChildrenBack S now R typeName cs)
    (hfits : NestedFits size (cs.map S.isDirty)) :
    ∃ es', Reads (readChildren S now size es)
      (stupidLengthWrite (stupidSize size cs.length) cs.length ++
        (cs.filter S.isDirty).flatMap S.write) es' ∧
      List.Forall₂ (ChildBack S R typeName) cs es' := by
  rw [NestedFits, List.length_map, List.forall_mem_map, List.forall_mem_map] at hfits
  obtain ⟨hdirty, hcount⟩ | ⟨hsize, hcount, hclean⟩ := hfits
  · obtain ⟨g, rfl⟩ := exists_ofFn hlen.symm
    have hmem : ∀ i, g i ∈ List.ofFn g := fun i => List.mem_ofFn.2 ⟨i, rfl⟩
    rw [List.length_ofFn] at hn hcount ⊢
    have hread : Reads (stupidLengthRead (stupidSize size es.length))
        (stupidLengthWrite (stupidSize size es.length) es.length) es.length := by
      have hread := reads_count size hn
      have heq : (if size = -1 then es.length % 256 else es.length) = es.length := by
        split
        · rename_i hsize
          exact Nat.mod_eq_of_lt (hcount hsize)
        · rfl
      rwa [heq] at hread
    have hcodec : ∀ i, ∃ c', Reads (S.read now (es.get i)) (S.write (g i)) c' ∧
        ChildBack S R typeName (g i) c' := by
      intro i
      obtain ⟨x, hx, hcodec⟩ := hback (g i) (hmem i)
      obtain rfl := Except.ok.inj (hx.symm.trans (hnew _ (List.get_mem es i)))
      obtain ⟨c', hread, hR⟩ := hcodec (hdirty _ (hmem i))
      refine ⟨c', hread, ?_⟩
      rw [ChildBack, if_pos (hdirty _ (hmem i))]
      exact hR
    rw [List.filter_eq_self.2 hdirty]
    exact reads_children_dirty hcodec hread
  · refine ⟨es, reads_children_clean hsize hlen hn hcount hclean, ?_⟩
    refine List.forall₂_iff_zip.2 ⟨hlen.symm, fun {c c'} hmem => ?_⟩
    obtain ⟨hc, hc'⟩ := List.of_mem_zip hmem
    rw [ChildBack, hclean c hc, if_neg Bool.false_ne_true]
    exact hnew c' hc'

/-- **A variable of states is read as it was written** if its dirty states fit. -/
theorem nestedBack_of_fits
    {f var : Variable κ σ (nestedVar typeName name size default defaultOption displayOption)}
    (hf : IsNew S f) (hdefault : ∀ c, S.new typeName = .ok c → S.setDefault c = c)
    (hhint : Streams.Safe var.notificationHint) (hn : var.elems.length < 10000)
    (hfixed : size ≠ -1 → var.elems.length = size.toNat)
    (hback : ChildrenBack S now R typeName var.elems)
    (hfits : NestedFits size (List.map S.isDirty var.elems)) : NestedBack C S now R f var := by
  obtain ⟨es, hlen, hnew, hes⟩ := reads_newArray hf hdefault hn hfixed fun hne => by
    obtain ⟨c, hc⟩ := List.exists_mem_of_length_pos (Nat.pos_of_ne_zero hne)
    obtain ⟨x, hx, -⟩ := hback c hc
    exact ⟨x, hx⟩
  obtain ⟨es', hread, hsame⟩ := reads_children hlen hn hnew hback hfits
  have hall : Reads (readArray (κ := κ) S now typeName size f.elems) (arrayBytes S size var.elems) es' :=
    hes.bind hread
  refine ⟨{ f with
    elems := es', notificationHint := var.notificationHint, flags := (var.written S).flags,
    dirty := true }, fun rest => ?_, hsame⟩
  rw [read_nested hf hhint, hall.run]
  rfl

/-- What a variable of states that is read as it was written comes to. -/
theorem NestedBack.children
    {f var : Variable κ σ (nestedVar typeName name size default defaultOption displayOption)}
    (h : NestedBack C S now R f var) (hf : IsNew S f)
    (hdefault : ∀ c, S.new typeName = .ok c → S.setDefault c = c)
    (hhint : Streams.Safe var.notificationHint) (hn : var.elems.length < 10000)
    (hfixed : size ≠ -1 → var.elems.length = size.toNat)
    (hnew : var.elems.length ≠ 0 → ∃ c, S.new typeName = .ok c) :
    ∃ es es', es.length = var.elems.length ∧ (∀ e ∈ es, S.new typeName = .ok e) ∧
      readChildren S now size es (stupidLengthWrite (stupidSize size var.elems.length)
        var.elems.length ++ (List.filter S.isDirty var.elems).flatMap S.write) = .ok (es', []) := by
  obtain ⟨es, hlen, hall, hes⟩ := reads_newArray hf hdefault hn hfixed hnew
  obtain ⟨var', hread, -⟩ := h
  have hrun := hread []
  rw [read_nested hf hhint] at hrun
  obtain ⟨es', mid, hes', hpure⟩ := Lib.Reader.bind_eq_ok.1 hrun
  obtain ⟨-, rfl⟩ := Prod.mk.inj (Except.ok.inj hpure)
  rw [List.append_nil, arrayBytes, readArray, hes.run] at hes'
  exact ⟨es, es', hlen, hall, hes'⟩

end Variable

/-! ## Doors -/

/-- A new state is at its default. -/
theorem children_setDefault_new {κ : Type} (C : Creatables κ) (db : DescriptorDb) : (m : Nat) →
    ∀ typeName c, (children C db m).new typeName = .ok c → (children C db m).setDefault c = c
  | 0, _, c, _ => nomatch c
  | _ + 1, _, none, _ => rfl
  | m + 1, _, some s, h => by
    have hdata := StateData.setDefault_new (children_setDefault_idem C db m) (State.new_eq_ok h)
    show some (State.mk s.desc (s.data.setDefault _)) = some s
    rw [hdata]

section Doors

/-- The state of a door, in a variable that holds states. -/
abbrev Door := Child Empty 1

def doorStates : Children Door :=
  children State.noCreatables (DescriptorDb.load [State.oneVar State.intVar]) 1

def newDoor : Door :=
  match doorStates.new "Door" with
  | .ok door => door
  | .error _ => none

/-- A door whose variable is dirty, and is its default. -/
def dirtyDoor : Door :=
  newDoor.map fun s =>
    { s with data := { s.data with vars := fun i => { s.data.vars i with dirty := true } } }

theorem new_door : doorStates.new "Door" = .ok newDoor := by
  have hok : (doorStates.new "Door").toBool = true := rfl
  unfold newDoor
  revert hok
  cases doorStates.new "Door" with
  | error => exact fun hok => nomatch hok
  | ok => exact fun _ => rfl

theorem doors_dirty : doorStates.isDirty dirtyDoor = true ∧ doorStates.isDirty newDoor = false :=
  ⟨rfl, rfl⟩

theorem write_dirtyDoor : doorStates.write dirtyDoor = [0, 0, 6, 1, 0, 8, 0] := rfl

theorem newDoor_isSome : newDoor.isSome = true := rfl

/-- A state is never read off nothing. -/
theorem readDoor_nil (now : Clock) {door : Door} (hdoor : door ≠ none) (x : Door × List UInt8) :
    doorStates.read now door [] ≠ .ok x := by
  obtain _ | s := door
  · exact absurd rfl hdoor
  · intro h
    obtain ⟨data, mid, hdata, -⟩ := Lib.Reader.bind_eq_ok.1 h
    obtain ⟨flags, mid', hflags, -⟩ := Lib.Reader.bind_eq_ok.1 hdata
    exact nomatch hflags

/-- What follows the first byte of a door is not a door: its version is not there. -/
theorem readDoor_shifted (now : Clock) {door : Door} (hdoor : door ≠ none) (rest : List UInt8)
    (x : Door × List UInt8) : doorStates.read now door (0 :: 6 :: 1 :: rest) ≠ .ok x := by
  obtain _ | s := door
  · exact absurd rfl hdoor
  · intro h
    obtain ⟨data, mid, hdata, -⟩ := Lib.Reader.bind_eq_ok.1 h
    have hbytes : (0 :: 6 :: 1 :: rest : List UInt8) =
        Streams.writeU16 0x0600 ++ (Streams.writeU8 1 ++ rest) := rfl
    rw [hbytes, StateData.read, (Streams.reads_u16 _).run, (Streams.reads_u8 _).run,
      if_pos (by decide)] at hdata
    exact nomatch hdata

theorem newDoor_desc : newDoor.map (fun s => s.desc.desc) = some (State.oneVar State.intVar) := rfl

/-- A dirty door is read as it was written. -/
theorem reads_dirtyDoor (now : Clock) : ∃ door, Reads (doorStates.read now newDoor)
    (doorStates.write dirtyDoor) door ∧ SameValues 1 dirtyDoor door ∧ door ≠ none := by
  obtain ⟨⟨⟨bucket, version, d⟩, x⟩, hdoor, hdesc⟩ := Option.map_eq_some_iff.1 newDoor_desc
  obtain rfl : d = State.oneVar State.intVar := hdesc
  have hnew : StateData.new (children State.noCreatables
      (DescriptorDb.load [State.oneVar State.intVar]) 0) (State.oneVar State.intVar) = .ok x := by
    have h : State.new (children State.noCreatables
        (DescriptorDb.load [State.oneVar State.intVar]) 0)
        ((DescriptorDb.load [State.oneVar State.intVar]).findDescriptor "Door" (-1)) = .ok newDoor :=
      new_door
    rw [hdoor] at h
    exact State.new_eq_ok h
  have hint : ∀ i, ((State.oneVar State.intVar).vars.get i).type ≠ .stateDesc ∧
      ((State.oneVar State.intVar).vars.get i).type ≠ .string ∧
      ((State.oneVar State.intVar).vars.get i).type ≠ .creatable := by
    intro i
    obtain rfl := Fin.fin_one_eq_zero i
    decide
  let y : StateData Empty (Child Empty 0) (State.oneVar State.intVar) :=
    { x with vars := fun i => { x.vars i with dirty := true } }
  have hkept : ∀ i, Variable.Kept (x.vars i) (y.vars i) := by
    intro i
    obtain ⟨-, hwanted, hstamp, hsame, hsound, hfixed, hshort, hhint⟩ :=
      (StateData.isNew hnew i).kept (hint i).1
    exact ⟨fun hdirty => Bool.noConfusion hdirty, hwanted, hstamp, hsame, hsound, hfixed, hshort, hhint⟩
  obtain ⟨t, names, hread, hback⟩ := StateData.reads now hnew (fun i => (hint i).1) hkept
    (fun i e _ => Elem.assumed_of_ne State.noCreatables (hint i).2.1 (hint i).2.2 e) x.object
  have hdirty : dirtyDoor = some ⟨⟨bucket, version, State.oneVar State.intVar⟩, y⟩ := by
    rw [dirtyDoor, hdoor]
    rfl
  refine ⟨some ⟨⟨bucket, version, State.oneVar State.intVar⟩, t⟩, ?_, ?_, fun hnone => nomatch hnone⟩
  · rw [hdirty, hdoor]
    exact hread.andThen (Reads.pure _)
  · rw [hdirty]
    refine ⟨rfl, fun i => ?_⟩
    have hb := (hback i).1 rfl
    have hflags : (y.vars i).flags = sameAsDefault := (StateData.isNew hnew i).flags
    have helems : (t.vars i).elems = (x.vars i).elems := by
      refine hb.default fun hwritten => ?_
      have hzero := ((Variable.written_flags (y.vars i)).2.2.2 hwritten).1
      rw [hflags] at hzero
      exact absurd hzero (by decide)
    show List.Forall₂ _ (x.vars i).elems (t.vars i).elems
    rw [helems]
    exact List.forall₂_same.2 fun e _ => Elem.Same.refl (SameValues.refl 0) _ e

/-- Doors of which some are dirty. -/
def doors (dirty : List Bool) : List Door :=
  dirty.map fun b => if b = true then dirtyDoor else newDoor

theorem isDirty_doors (dirty : List Bool) : (doors dirty).map doorStates.isDirty = dirty := by
  rw [doors, List.map_map]
  refine (List.map_congr_left fun b _ => ?_).trans (List.map_id dirty)
  obtain ⟨hdirty, hclean⟩ := doors_dirty
  cases b
  · exact hclean
  · exact hdirty

/-- The bytes of one door for each that is dirty. -/
theorem doors_bytes (dirty : List Bool) :
    ((doors dirty).filter doorStates.isDirty).flatMap doorStates.write =
      (List.replicate (dirty.count true) (doorStates.write dirtyDoor)).flatten := by
  obtain ⟨hdirty, hclean⟩ := doors_dirty
  induction dirty with
  | nil => rfl
  | cons b dirty ih =>
    cases b with
    | false =>
      show (List.filter doorStates.isDirty (newDoor :: doors dirty)).flatMap doorStates.write = _
      rw [List.filter_cons_of_neg (by rw [hclean]; exact Bool.false_ne_true), ih]
      rfl
    | true =>
      show (List.filter doorStates.isDirty (dirtyDoor :: doors dirty)).flatMap doorStates.write = _
      rw [List.filter_cons_of_pos hdirty, List.flatMap_cons, ih, List.count_cons_self,
        List.replicate_succ, List.flatten_cons]

/-- Where fewer doors are dirty than there are, those that follow are not there. -/
theorem doors_short (now : Clock) {max : Nat} {es : List Door} (hnew : ∀ e ∈ es, e = newDoor) {k : Nat}
    (hk : k < es.length) (x : ((Fin es.length → Door) × List (Fin es.length)) × List UInt8) :
    readNamed max false (fun i f => do
      let child ← doorStates.read now (f i)
      pure (Function.update f i child)) es.length 0 es.get
        (List.replicate k (doorStates.write dirtyDoor)).flatten ≠ .ok x := by
  obtain ⟨door, hread, -, hdoor⟩ := reads_dirtyDoor now
  have hplaces : ((List.finRange es.length).take k).map Fin.val = List.range' 0 k := by
    rw [List.map_take, List.map_coe_finRange_eq_range, List.take_range, List.range_eq_range',
      min_eq_left hk.le]
  have hlen : ((List.finRange es.length).take k).length = k := by
    rw [List.length_take, List.length_finRange, min_eq_left hk.le]
  have hbytes : (List.replicate k (doorStates.write dirtyDoor)).flatten =
      ((List.finRange es.length).take k).flatMap fun _ => doorStates.write dirtyDoor := by
    rw [List.flatMap_def, List.map_const', hlen]
  rw [hbytes]
  refine readNamed_all_short (P := fun _ => True) max (fun done f =>
    (∀ i, f i ≠ none) ∧ ∀ i ∉ done, f i = newDoor) ?_ ?_
    (fun _ _ => trivial) ((List.nodup_finRange _).sublist (List.take_sublist _ _))
    (by rw [hlen]; exact hplaces) ?_ (by rw [hlen]; exact hk) x
  · rintro done j f y ⟨hsome, -⟩ hy
    obtain ⟨child, mid, hchild, -⟩ := Lib.Reader.bind_eq_ok.1 hy
    exact readDoor_nil now (hsome j) _ hchild
  · rintro done j f - ⟨hsome, hrest⟩ hj
    rw [← hrest j hj] at hread
    refine ⟨_, hread.andThen (Reads.pure _), fun i => ?_, fun i hi => ?_⟩
    · by_cases hij : i = j
      · subst hij
        rw [Function.update_self]
        exact hdoor
      · rw [Function.update_of_ne hij]
        exact hsome i
    · rw [List.mem_append, List.mem_singleton, not_or] at hi
      rw [Function.update_of_ne hi.2]
      exact hrest i hi.1
  · have hall : ∀ i, es.get i = newDoor := fun i => hnew _ (List.get_mem es i)
    refine ⟨fun i => ?_, fun i _ => hall i⟩
    rw [hall i]
    exact Option.ne_none_iff_isSome.2 newDoor_isSome

/-- The count of an array of doors is more than the dirty ones, or none at all, or the
first byte of a door is taken for an index. -/
theorem doors_misread (now : Clock) {size : Int} {dirty : List Bool} (hn : dirty.length < 10000)
    (hfits : ¬ Variable.NestedFits size dirty) {es : List Door} (hlen : es.length = dirty.length)
    (hnew : ∀ e ∈ es, e = newDoor) (es' : List Door) :
    Variable.readChildren doorStates now size es
      (stupidLengthWrite (Variable.stupidSize size dirty.length) dirty.length ++
        ((doors dirty).filter doorStates.isDirty).flatMap doorStates.write) ≠ .ok (es', []) := by
  intro h
  have hcount := Variable.reads_count size hn
  rw [doors_bytes] at h
  unfold Variable.readChildren at h
  rw [← hlen] at h hcount
  have hrun := hcount.run (fun count => do
    let (f, _) ← readNamed (Variable.stupidSize size es.length) (count ≠ es.length)
      (fun i f => do
        let child ← doorStates.read now (f i)
        pure (Function.update f i child)) count 0 es.get
    pure (List.ofFn f)) (List.replicate (dirty.count true) (doorStates.write dirtyDoor)).flatten
  have h' := hrun.symm.trans h
  obtain ⟨⟨f, names⟩, mid, hf, hpure⟩ := Lib.Reader.bind_eq_ok.1 h'
  obtain ⟨-, rfl⟩ := Prod.mk.inj (Except.ok.inj hpure)
  have hle : dirty.count true ≤ dirty.length := List.count_le_length
  by_cases hsame : (if size = -1 then es.length % 256 else es.length) = es.length
  · -- The count is right, and one door is clean.
    rw [hsame, decide_eq_false (not_not.2 rfl)] at hf
    refine doors_short now hnew ?_ _ hf
    rw [hlen]
    refine lt_of_le_of_ne hle fun heq => hfits (.inl ⟨?_, fun hsize => ?_⟩)
    · exact fun b hb => (List.count_eq_length.1 heq b hb).symm
    · rw [if_pos hsize, hlen] at hsame
      omega
  · have hsize : size = -1 := by
      by_contra hsize
      exact hsame (if_neg hsize)
    rw [if_pos hsize] at hf hsame
    rw [decide_eq_true hsame] at hf
    cases hk : es.length % 256 with
    | zero =>
      -- Nothing is read, so that nothing can have been written.
      rw [hk] at hf
      obtain ⟨-, hbytes⟩ := Prod.mk.inj (Except.ok.inj hf)
      refine hfits (.inr ⟨hsize, hlen ▸ hk, fun b hb => ?_⟩)
      have hzero : dirty.count true = 0 := by
        by_contra hne
        obtain ⟨c, hc⟩ := Nat.exists_eq_succ_of_ne_zero hne
        rw [hc, List.replicate_succ, List.flatten_cons, write_dirtyDoor] at hbytes
        cases hbytes
      cases b with
      | false => rfl
      | true => exact absurd hb (List.count_eq_zero.1 hzero)
    | succ k =>
      rw [hk] at hf
      obtain ⟨idx, mid, hidx, hbody⟩ := Lib.Reader.bind_eq_ok.1 hf
      rw [given, if_pos rfl] at hidx
      cases hc : dirty.count true with
      | zero =>
        rw [hc] at hidx
        exact stupidLengthRead_nil _ _ hidx
      | succ c =>
        rw [hc, List.replicate_succ, List.flatten_cons, write_dirtyDoor, Variable.stupidSize,
          if_pos hsize] at hidx
        obtain ⟨rfl, rfl⟩ := Prod.mk.inj (Except.ok.inj hidx)
        split at hbody
        · obtain ⟨a, mid, ha, -⟩ := Lib.Reader.bind_eq_ok.1 hbody
          obtain ⟨child, mid', hchild, -⟩ := Lib.Reader.bind_eq_ok.1 ha
          refine readDoor_shifted now ?_ _ _ hchild
          rw [hnew _ (List.get_mem es _)]
          exact Option.ne_none_iff_isSome.2 newDoor_isSome
        · cases hbody

theorem doors_back (now : Clock) (dirty : List Bool) :
    Variable.ChildrenBack doorStates now (SameValues 1) "Door" (doors dirty) := by
  intro c hc
  refine ⟨newDoor, new_door, fun hdirty => ?_⟩
  obtain ⟨b, -, rfl⟩ := List.mem_map.1 hc
  cases b with
  | false =>
    exact absurd hdirty (by rw [if_neg Bool.false_ne_true, doors_dirty.2]; exact Bool.false_ne_true)
  | true =>
    obtain ⟨door, hread, hsame, -⟩ := reads_dirtyDoor now
    exact ⟨door, hread, hsame⟩

theorem doors_isNew (name : String) (size : Int) :
    ∃ f : Variable Empty Door (nestedVar "Door" name size none), Variable.IsNew doorStates f := by
  obtain ⟨es, hes⟩ : ∃ es : List Door,
      Elem.resize (κ := Empty) doorStates "Door" .stateDesc size.toNat = .ok es := by
    cases size.toNat with
    | zero => exact ⟨[], rfl⟩
    | succ n => exact ⟨List.replicate (n + 1) newDoor, by rw [Elem.resize, new_door]⟩
  have hnew : Variable.new doorStates (nestedVar "Door" name size none) =
      .ok ({ elems := es } : Variable Empty Door (nestedVar "Door" name size none)) := by
    rw [Variable.new, hes]
  exact ⟨_, _, hnew, rfl⟩

/-- Doors that do not fit are not read as they were written. -/
theorem doors_not_back (now : Clock) {size : Int} {dirty : List Bool} (hn : dirty.length < 10000)
    (hfixed : size ≠ -1 → dirty.length = size.toNat) (hfits : ¬ Variable.NestedFits size dirty) :
    ∃ f var : Variable Empty Door (nestedVar "Door" "doors" size none),
      Variable.IsNew doorStates f ∧ Streams.Safe var.notificationHint ∧ var.elems = doors dirty ∧
      ¬ Variable.NestedBack State.noCreatables doorStates now (SameValues 1) f var := by
  obtain ⟨f, hf⟩ := doors_isNew "doors" size
  refine ⟨f, { elems := doors dirty }, hf, Variable.safe_empty, rfl, fun hback => ?_⟩
  have hlen : (doors dirty).length = dirty.length := List.length_map _
  obtain ⟨es, es', heslen, hes, hread⟩ := hback.children hf
    (children_setDefault_new _ _ 1 "Door") Variable.safe_empty
    (hlen ▸ hn) (fun hsize => hlen ▸ hfixed hsize) fun _ => ⟨newDoor, new_door⟩
  dsimp only at heslen hread
  rw [hlen] at heslen hread
  exact doors_misread now hn hfits heslen
    (fun e he => Except.ok.inj ((hes e he).symm.trans new_door)) es' hread

end Doors

/-! ## Which arrays of states are read as they were written -/

/-- **Arrays of so many states**, of which those at these places are dirty, are read as
they were written, whatever the states are, if each of their states is on its own. -/
def ShapeBack (size : Int) (dirty : List Bool) : Prop :=
  ∀ (κ : Type) (C : Creatables κ) (descs : List StateDescriptor) (m : Nat) (now : Clock)
    (typeName name defaultOption displayOption : String) (default : Option Unit)
    (f var : Variable κ (Child κ m)
      (nestedVar typeName name size default defaultOption displayOption)),
    Variable.IsNew (children C (DescriptorDb.load descs) m) f →
    Streams.Safe var.notificationHint →
    List.map (children C (DescriptorDb.load descs) m).isDirty var.elems = dirty →
    Variable.ChildrenBack (children C (DescriptorDb.load descs) m) now (SameValues m) typeName
      var.elems →
    Variable.NestedBack C (children C (DescriptorDb.load descs) m) now (SameValues m) f var

/-- **When nested states round-trip.**  An array of fewer than 10000 states is read as it
was written if all of its states are dirty, and fewer than 256 where its length is not
fixed, or if its length is not fixed and it has a multiple of 256 states of which none is
dirty; and not otherwise. -/
theorem nested_round_trips (size : Int) (dirty : List Bool) (hn : dirty.length < 10000)
    (hfixed : size ≠ -1 → dirty.length = size.toNat) :
    ShapeBack size dirty ↔ Variable.NestedFits size dirty := by
  constructor
  · intro h
    by_contra hfits
    obtain ⟨f, var, hf, hhint, helems, hnot⟩ := doors_not_back (fun _ => {}) hn hfixed hfits
    have hdirty := isDirty_doors dirty
    have hback := doors_back (fun _ => {}) dirty
    rw [← helems] at hdirty hback
    exact hnot (h Empty State.noCreatables [State.oneVar State.intVar] 1 (fun _ => {}) "Door" "doors"
      "" "" none f var hf hhint hdirty hback)
  · rintro hfits κ C descs m now typeName name defaultOption displayOption default f var hf hhint
      rfl hback
    rw [List.length_map] at hn hfixed
    exact Variable.nestedBack_of_fits hf (children_setDefault_new C _ m typeName) hhint hn hfixed
      hback hfits

/-- Three dirty states where any number may be, and two where two are. -/
theorem nested_round_trips_three : ShapeBack (-1) [true, true, true] ∧ ShapeBack 2 [true, true] :=
  ⟨(nested_round_trips (-1) [true, true, true] (by decide) (fun hne => absurd rfl hne)).2
      (.inl ⟨by decide, fun _ => by decide⟩),
    (nested_round_trips 2 [true, true] (by decide) (fun _ => rfl)).2
      (.inl ⟨by decide, fun hsize => absurd hsize (by decide)⟩)⟩

/-- **A clean state is lost**: of two doors one is dirty, and the two are not read at all. -/
theorem clean_door_lost : ∃ f var : Variable Empty Door (nestedVar "Door" "doors" 2 none),
    Variable.IsNew doorStates f ∧ Streams.Safe var.notificationHint ∧
    var.elems = [dirtyDoor, newDoor] ∧
    Variable.ChildrenBack doorStates (fun _ => {}) (SameValues 1) "Door" var.elems ∧
    ¬ Variable.NestedBack State.noCreatables doorStates (fun _ => {}) (SameValues 1) f var := by
  have hfits : ¬ Variable.NestedFits 2 [true, false] := by
    rintro (⟨hall, -⟩ | ⟨hsize, -⟩)
    · exact Bool.false_ne_true (hall false (by decide))
    · exact absurd hsize (by decide)
  obtain ⟨f, var, hf, hhint, helems, hnot⟩ := doors_not_back (fun _ => {}) (by decide)
    (fun _ => rfl) hfits
  refine ⟨f, var, hf, hhint, helems, ?_, hnot⟩
  rw [helems]
  exact doors_back _ [true, false]

/-! ## A hall with two arrays of doors -/

/-- `VAR $Door a[]` and `VAR $Door b[]`. -/
def hall : StateDescriptor :=
  ⟨"Hall", 1, [nestedVar "Door" "a" (-1) none, nestedVar "Door" "b" (-1) none],
    show 2 < 2 ^ 31 by decide⟩

/-- A new hall without doors. -/
def newHall : StateData Empty Door hall :=
  { vars := fun _ => { elems := [], flags := sameAsDefault } }

/-- A hall in which these arrays are dirty. -/
def dirtyHall (dirty : Nat → Bool) : StateData Empty Door hall :=
  { vars := fun i => { elems := [], dirty := dirty i.val } }

theorem reads_noDoors (now : Clock) (name : String) (dirty : Bool) :
    ∃ var' : Variable Empty Door (nestedVar "Door" name (-1) none),
      Reads (Variable.read State.noCreatables doorStates now { elems := [], flags := sameAsDefault })
        (Variable.write State.noCreatables doorStates
          ({ elems := [], dirty } : Variable Empty Door (nestedVar "Door" name (-1) none))) var' := by
  have hf : Variable.IsNew doorStates
      ({ elems := [], flags := sameAsDefault } :
        Variable Empty Door (nestedVar "Door" name (-1) none)) := by
    have hflags : (0 : UInt8) ||| sameAsDefault = sameAsDefault := by decide
    refine ⟨{ elems := [] }, rfl, ?_⟩
    rw [Variable.setDefault, hflags]
    rfl
  have hback : Variable.NestedBack State.noCreatables doorStates now (SameValues 1)
      { elems := [], flags := sameAsDefault }
      ({ elems := [], dirty } : Variable Empty Door (nestedVar "Door" name (-1) none)) :=
    Variable.nestedBack_of_fits hf (children_setDefault_new _ _ 1 "Door")
      Variable.safe_empty (show 0 < 10000 by decide) (fun hne => absurd rfl hne)
      (fun c hc => absurd hc List.not_mem_nil)
      (.inl ⟨fun b hb => absurd hb List.not_mem_nil, fun _ => show 0 < 256 by decide⟩)
  obtain ⟨var', hread, -⟩ := hback
  exact ⟨var', hread⟩

theorem reads_hallVars (now : Clock) (dirty : Nat → Bool) : ∃ w : Vars Empty Door hall,
    ∀ i, ((dirtyHall dirty).vars i).dirty = true →
      Reads ((newHall.vars i).read State.noCreatables doorStates now)
        (((dirtyHall dirty).vars i).write State.noCreatables doorStates) (w i) := by
  have hall : ∀ i : Fin hall.vars.length, ∃ var',
      Reads ((newHall.vars i).read State.noCreatables doorStates now)
        (((dirtyHall dirty).vars i).write State.noCreatables doorStates) var' := by
    refine Fin.forall_fin_two.2 ⟨?_, ?_⟩
    · exact reads_noDoors now "a" (dirty 0)
    · exact reads_noDoors now "b" (dirty 1)
  exact ⟨fun i => (hall i).choose, fun i _ => (hall i).choose_spec⟩

theorem section_round_trips_hall : ∃ w named,
    Reads (StateData.read State.noCreatables doorStates (fun _ => {}) newHall)
      ((dirtyHall fun i => i = 0).write State.noCreatables doorStates)
      (StateData.delivered newHall (dirtyHall fun i => i = 0) w, named) := by
  obtain ⟨w, hw⟩ := reads_hallVars (fun _ => {}) fun i => i = 0
  obtain ⟨named, hread⟩ := (StateData.section_round_trips State.noCreatables doorStates
    (fun _ => {}) hw).2 (by decide)
  exact ⟨w, named, hread⟩

/-- **The second array is lost**: it is dirty and the first is not, so that the loop stops
before it, and what was written is not read at all. -/
theorem second_array_lost : ∃ w : Vars Empty Door hall,
    (∀ i, ((dirtyHall fun i => i = 1).vars i).dirty = true →
      Reads ((newHall.vars i).read State.noCreatables doorStates (fun _ => {}))
        (((dirtyHall fun i => i = 1).vars i).write State.noCreatables doorStates) (w i)) ∧
    ¬ ∃ named, Reads (StateData.read State.noCreatables doorStates (fun _ => {}) newHall)
      ((dirtyHall fun i => i = 1).write State.noCreatables doorStates)
      (StateData.delivered newHall (dirtyHall fun i => i = 1) w, named) := by
  obtain ⟨w, hw⟩ := reads_hallVars (fun _ => {}) fun i => i = 1
  refine ⟨w, hw, ?_⟩
  rintro ⟨named, hread⟩
  have hfirst := StateData.dirtyFirst_of_reads hw hread
  exact absurd hfirst (by decide)

end Dirtsand.SDL
