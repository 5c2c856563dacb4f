import Dirtsand.Settings

/-!
# Lines of a file

What a loop over `fgets` with a buffer of 4096 bytes reads of a file.  It is the file's
lines, one after the other, but of a line that is longer than the buffer it is one
piece after the other.

* `pieces_flatten` — the pieces of some lines are those of each of them.
* `pieces_short` — a line that is no longer than the buffer is one piece.
-/

namespace Dirtsand.Lines

open Settings (fgets length_fgets_lt)

/-- The lines of a file, each with the newline that ends it. -/
def lines : List UInt8 → List (List UInt8)
  | [] => []
  | b :: bytes =>
    if b = 10 then [b] :: lines bytes
    else
      match lines bytes with
      | [] => [[b]]
      | line :: rest => (b :: line) :: rest

/-- What is in the buffer, from one `fgets` to the next. -/
def pieces (bytes : List UInt8) : List (List UInt8) :=
  if bytes = [] then []
  else (fgets 4095 bytes).1 :: pieces (fgets 4095 bytes).2
termination_by bytes.length
decreasing_by exact length_fgets_lt ‹_›

/-! ## Lines -/

/-- Each line but the last one ends with a newline, and there is no other. -/
inductive Lined : List (List UInt8) → Prop where
  | nil : Lined []
  | last {body : List UInt8} (hnot : 10 ∉ body) (hne : body ≠ []) : Lined [body]
  | cons {body : List UInt8} {rest : List (List UInt8)} (hnot : 10 ∉ body) (h : Lined rest) :
      Lined ((body ++ [10]) :: rest)

theorem Lined.push {b : UInt8} (hb : b ≠ 10) {line : List UInt8} {rest : List (List UInt8)}
    (h : Lined (line :: rest)) : Lined ((b :: line) :: rest) := by
  cases h with
  | last hnot _ => exact .last (List.not_mem_cons_of_ne_of_not_mem hb.symm hnot) (List.cons_ne_nil b line)
  | cons hnot h => exact .cons (List.not_mem_cons_of_ne_of_not_mem hb.symm hnot) h

theorem lines_spec (bytes : List UInt8) : Lined (lines bytes) ∧ (lines bytes).flatten = bytes := by
  induction bytes with
  | nil => exact ⟨.nil, rfl⟩
  | cons b bytes ih =>
    obtain ⟨hlined, hflat⟩ := ih
    rw [lines]
    split
    · rename_i hb
      subst hb
      exact ⟨.cons List.not_mem_nil hlined, by rw [List.flatten_cons, hflat]; rfl⟩
    · rename_i hb
      cases hlines : lines bytes with
      | nil =>
        rw [hlines] at hflat
        rw [← hflat]
        exact ⟨.last (List.not_mem_cons_of_ne_of_not_mem (Ne.symm hb) List.not_mem_nil) (List.cons_ne_nil b []), rfl⟩
      | cons line rest =>
        rw [hlines] at hlined hflat
        refine ⟨hlined.push hb, ?_⟩
        rw [← hflat]
        rfl

theorem Lined.take {ls : List (List UInt8)} (h : Lined ls) (n : Nat) : Lined (ls.take n) := by
  induction h generalizing n with
  | nil => rw [List.take_nil]; exact .nil
  | last hnot hne =>
    cases n with
    | zero => exact .nil
    | succ n => rw [List.take_succ_cons, List.take_nil]; exact .last hnot hne
  | cons hnot _ ih =>
    cases n with
    | zero => exact .nil
    | succ n => exact .cons hnot (ih n)

/-! ## Pieces -/

theorem fgets_line {body : List UInt8} (hnot : 10 ∉ body) (n : Nat) (rest : List UInt8) :
    fgets n (body ++ 10 :: rest) =
      if body.length < n then (body ++ [10], rest) else (body.take n, body.drop n ++ 10 :: rest) := by
  induction n generalizing body with
  | zero => rfl
  | succ n ih =>
    cases body with
    | nil => rfl
    | cons b body =>
      have hb := List.ne_of_not_mem_cons hnot
      have hbody := List.not_mem_of_not_mem_cons hnot
      rw [List.cons_append, fgets, if_neg (Ne.symm hb), ih hbody]
      by_cases hlen : body.length < n
      · rw [if_pos hlen, if_pos (by rw [List.length_cons]; omega)]
        rfl
      · rw [if_neg hlen, if_neg (by rw [List.length_cons]; omega)]
        rfl

theorem fgets_last {body : List UInt8} (hnot : 10 ∉ body) (n : Nat) :
    fgets n body = (body.take n, body.drop n) := by
  induction n generalizing body with
  | zero => rfl
  | succ n ih =>
    cases body with
    | nil => rfl
    | cons b body =>
      have hb := List.ne_of_not_mem_cons hnot
      have hbody := List.not_mem_of_not_mem_cons hnot
      rw [fgets, if_neg (Ne.symm hb), ih hbody]
      rfl

theorem pieces_nil : pieces [] = [] := by rw [pieces, if_pos rfl]

theorem pieces_line {body : List UInt8} (hnot : 10 ∉ body) (rest : List UInt8) :
    pieces (body ++ 10 :: rest) = pieces (body ++ [10]) ++ pieces rest := by
  have hne : ∀ tail : List UInt8, body ++ 10 :: tail ≠ [] := fun tail h => by
    simpa using congrArg List.length h
  rw [pieces, if_neg (hne rest), pieces.eq_def (body ++ [10]), if_neg (hne []),
    fgets_line hnot, fgets_line hnot]
  by_cases hlen : body.length < 4095
  · rw [if_pos hlen, if_pos hlen, pieces_nil]
    rfl
  · -- the rest of the line is shorter
    rw [if_neg hlen, if_neg hlen]
    have hdrop : 10 ∉ body.drop 4095 := fun h => hnot (List.mem_of_mem_drop h)
    show _ :: pieces (body.drop 4095 ++ 10 :: rest) = _ :: (_ ++ _)
    rw [pieces_line hdrop rest]
termination_by body.length
decreasing_by
  rw [List.length_drop]
  omega

/-- **The pieces of lines are those of one line after the other.** -/
theorem pieces_flatten {ls : List (List UInt8)} (h : Lined ls) :
    pieces ls.flatten = ls.flatMap pieces := by
  induction h with
  | nil => exact pieces_nil
  | @last body hnot hne => rw [List.flatten_singleton, List.flatMap_singleton]
  | @cons body rest hnot _ ih =>
    rw [List.flatten_cons, List.append_assoc, List.singleton_append, pieces_line hnot,
      List.flatMap_cons, ih]

/-- **A line that fits into the buffer is read at once.** -/
theorem pieces_short {ls : List (List UInt8)} (h : Lined ls) {line : List UInt8} (hmem : line ∈ ls)
    (hshort : line.length ≤ 4095) : pieces line = [line] := by
  induction h with
  | nil => exact absurd hmem List.not_mem_nil
  | last hnot hne =>
    obtain rfl := List.mem_singleton.1 hmem
    rw [pieces, if_neg hne, fgets_last hnot, List.take_of_length_le hshort,
      List.drop_of_length_le hshort, pieces_nil]
  | @cons body rest hnot _ ih =>
    obtain rfl | hmem := List.mem_cons.1 hmem
    · rw [List.length_append, List.length_singleton] at hshort
      have hne : body ++ [10] ≠ [] := List.concat_ne_nil 10 body
      rw [pieces, if_neg hne, fgets_line hnot, if_pos (by omega), pieces_nil]
    · exact ih hmem

end Dirtsand.Lines
