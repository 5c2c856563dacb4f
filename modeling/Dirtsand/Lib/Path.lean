import Mathlib.Data.List.Basic
import Mathlib.Data.List.Infix

/-!
# Paths

A path is a text with slashes.  Where it leads is said by the parts between them,
other than nothing and a single dot.

* `parts_append` — a name behind a directory adds its parts, if there is a slash
  between the two.
* `inside_append` — the path then lies inside of the directory exactly if the
  name has a part.
* `not_inside_append` — without a slash it never does.
-/

namespace Dirtsand.Lib.Path

/-- What leads somewhere. -/
def leads (part : List Char) : Bool := part ≠ [] && part ≠ ['.']

def parts (path : List Char) : List (List Char) := (path.splitOn '/').filter leads

def isAbsolute (path : List Char) : Bool := path.head? = some '/'

/-- `..` -/
def parent : List Char := ['.', '.']

/-- What is written of `path` lies strictly inside of the directory `root`: the path goes on where
`root` ends, and nowhere up. -/
def Inside (root path : List Char) : Prop :=
  isAbsolute path = isAbsolute root ∧
    ∃ below, below ≠ [] ∧ parent ∉ below ∧ parts path = parts root ++ below

/-- There is a slash between a directory and a name. -/
def Joined (root name : List Char) : Prop := root.getLast? = some '/' ∨ name.head? = some '/'

instance (root name : List Char) : Decidable (Joined root name) :=
  inferInstanceAs (Decidable (_ ∨ _))

/-! ## Parts -/

theorem parts_append_slash (xs ys : List Char) : parts (xs ++ '/' :: ys) = parts xs ++ parts ys := by
  rw [parts, List.splitOn_append_cons_self, List.filter_append]
  rfl

theorem parts_nil : parts [] = [] := rfl

theorem parts_slash (xs : List Char) : parts ('/' :: xs) = parts xs := parts_append_slash [] xs

theorem parts_of_getLast {root : List Char} (h : root.getLast? = some '/') (name : List Char) :
    parts (root ++ name) = parts root ++ parts name := by
  obtain ⟨init, rfl⟩ := List.getLast?_eq_some_iff.1 h
  rw [List.append_assoc, List.singleton_append, parts_append_slash, parts_append_slash, parts_nil,
    List.append_nil]

/-- **A name adds its parts**, behind a slash. -/
theorem parts_append {root name : List Char} (h : Joined root name) :
    parts (root ++ name) = parts root ++ parts name := by
  obtain h | h := h
  · exact parts_of_getLast h name
  · obtain ⟨rest, rfl⟩ := List.head?_eq_some_iff.1 h
    rw [parts_append_slash, parts_slash]

/-- A part is somewhere in the path, and the first one at its beginning. -/
theorem splitOn_within (path : List Char) :
    (∀ part ∈ path.splitOn '/', part <:+: path) ∧
      ∀ part rest, path.splitOn '/' = part :: rest → part <+: path := by
  induction path with
  | nil =>
    refine ⟨fun part h => ?_, fun part rest h => ?_⟩
    · rw [List.splitOn_nil, List.mem_singleton] at h
      rw [h]
    · rw [List.splitOn_nil] at h
      obtain ⟨rfl, -⟩ := List.cons.inj h
      exact List.prefix_rfl
  | cons c cs ih =>
    obtain ⟨hwithin, hbegin⟩ := ih
    rw [List.splitOn_cons_eq_if_modifyHead]
    split
    · refine ⟨fun part h => ?_, fun part rest h => ?_⟩
      · obtain rfl | h := List.mem_cons.1 h
        · exact List.nil_infix
        · exact List.infix_cons (hwithin part h)
      · obtain ⟨rfl, -⟩ := List.cons.inj h
        exact List.nil_prefix
    · obtain ⟨head, tail, hsplit⟩ := List.exists_cons_of_ne_nil (List.splitOn_ne_nil '/' cs)
      have hhead : c :: head <+: c :: cs :=
        (List.prefix_cons_inj c).2 (hbegin head tail hsplit)
      rw [hsplit, List.modifyHead_cons]
      refine ⟨fun part h => ?_, fun part rest h => ?_⟩
      · obtain rfl | h := List.mem_cons.1 h
        · exact hhead.isInfix
        · refine List.infix_cons (hwithin part ?_)
          rw [hsplit]
          exact List.mem_cons_of_mem head h
      · obtain ⟨rfl, -⟩ := List.cons.inj h
        exact hhead

theorem parent_not_mem {name : List Char} (h : ¬ parent <:+: name) : parent ∉ parts name :=
  fun hmem => h ((splitOn_within name).1 parent (List.mem_of_mem_filter hmem))

/-! ## Inside of a directory -/

theorem isAbsolute_append {root : List Char} (h : root ≠ []) (name : List Char) :
    isAbsolute (root ++ name) = isAbsolute root := by
  obtain ⟨c, cs, rfl⟩ := List.exists_cons_of_ne_nil h
  rfl

/-- **A name behind a slash leads into the directory** exactly if it leads anywhere. -/
theorem inside_append {root name : List Char} (hroot : root ≠ []) (hjoined : Joined root name)
    (hparent : ¬ parent <:+: name) : Inside root (root ++ name) ↔ parts name ≠ [] := by
  rw [Inside, parts_append hjoined]
  constructor
  · rintro ⟨-, below, hbelow, -, heq⟩
    rw [List.append_cancel_left_eq] at heq
    rw [heq]
    exact hbelow
  · intro h
    exact ⟨isAbsolute_append hroot name, parts name, h, parent_not_mem hparent, rfl⟩

/-- Where the root is nothing, a path from the very top lies outside. -/
theorem not_inside_nil {path : List Char} (h : path.head? = some '/') : ¬ Inside [] path := by
  rintro ⟨habsolute, -⟩
  rw [isAbsolute, h] at habsolute
  cases habsolute

theorem splitOn_append {last : List Char} (h : '/' ∉ last) (name : List Char) :
    (last ++ name).splitOn '/' = (name.splitOn '/').modifyHead (last ++ ·) := by
  induction last with
  | nil =>
    obtain ⟨head, tail, hsplit⟩ := List.exists_cons_of_ne_nil (List.splitOn_ne_nil '/' name)
    rw [List.nil_append, hsplit]
    rfl
  | cons c cs ih =>
    rw [List.mem_cons, not_or] at h
    have hc : (c == '/') = false := beq_false_of_ne (Ne.symm h.1)
    obtain ⟨head, tail, hsplit⟩ := List.exists_cons_of_ne_nil (List.splitOn_ne_nil '/' name)
    rw [List.cons_append, List.splitOn_cons_eq_if_modifyHead, hc, if_neg Bool.false_ne_true,
      ih h.2, hsplit]
    rfl

/-- **A name with no slash between runs on with the last part** of the directory, and leads
elsewhere. -/
theorem not_inside_append {dir last name : List Char} (hdir : dir.getLast? = some '/')
    (hlast : '/' ∉ last) (hleads : leads last = true) (hname : name.head? ≠ some '/') :
    ¬ Inside (dir ++ last) (dir ++ last ++ name) := by
  rintro ⟨-, below, hbelow, -, heq⟩
  rw [leads, Bool.and_eq_true, decide_eq_true_iff, decide_eq_true_iff] at hleads
  have hlonger : ∀ head, leads (last ++ head) = true := by
    intro head
    rw [leads, Bool.and_eq_true, decide_eq_true_iff, decide_eq_true_iff]
    obtain ⟨c, cs, rfl⟩ := List.exists_cons_of_ne_nil hleads.1
    refine ⟨List.cons_ne_nil _ _, fun hdot => hleads.2 ?_⟩
    obtain ⟨rfl, hnil⟩ := List.cons.inj hdot
    rw [(List.append_eq_nil_iff.1 hnil).1]
  have hparts : ∀ name head tail, name.splitOn '/' = head :: tail →
      parts (last ++ name) = (last ++ head) :: tail.filter leads := by
    intro name head tail hsplit
    rw [parts, splitOn_append hlast, hsplit, List.modifyHead_cons,
      List.filter_cons_of_pos (hlonger head)]
  have halone : parts last = [last] := by
    have h := hparts [] [] [] rfl
    rwa [List.append_nil] at h
  rw [List.append_assoc, parts_of_getLast hdir, parts_of_getLast hdir, halone, List.append_assoc,
    List.append_cancel_left_eq] at heq
  cases name with
  | nil =>
    rw [hparts [] [] [] rfl] at heq
    exact hbelow (List.cons.inj heq).2.symm
  | cons c cs =>
    have hc : (c == '/') = false := beq_false_of_ne fun h => hname (congrArg some h)
    obtain ⟨head, tail, hsplit⟩ := List.exists_cons_of_ne_nil (List.splitOn_ne_nil '/' cs)
    have hcons : (c :: cs).splitOn '/' = (c :: head) :: tail := by
      rw [List.splitOn_cons_eq_if_modifyHead, hc, if_neg Bool.false_ne_true, hsplit]
      rfl
    rw [hparts _ _ _ hcons] at heq
    have hself := congrArg List.length (List.cons.inj heq).1
    rw [List.length_append, List.length_cons] at hself
    omega

end Dirtsand.Lib.Path
