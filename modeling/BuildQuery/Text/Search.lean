/-!
# BuildQuery — searching in a text

Three questions about characters: what follows a beginning (`after?`), what stands before the first
occurrence of a mark (`before?`), and what stands between the occurrences of a mark (`pieces`).
-/

namespace BuildQuery.Text

/-- The characters after a beginning. -/
def after? : List Char → List Char → Option (List Char)
  | [], cs => some cs
  | _ :: _, [] => none
  | p :: ps, c :: cs => if p = c then after? ps cs else none

/-- The characters before the first occurrence of a mark. -/
def before? (mark : List Char) : List Char → Option (List Char)
  | [] => if mark.isEmpty then some [] else none
  | c :: cs =>
    if mark.isPrefixOf (c :: cs) then some []
    else (before? mark cs).map (c :: ·)

theorem after?_eq_some_iff {ps cs rest : List Char} : after? ps cs = some rest ↔ cs = ps ++ rest := by
  induction ps generalizing cs with
  | nil => simp [after?, eq_comm]
  | cons p ps ih =>
    cases cs with
    | nil => simp [after?]
    | cons c cs =>
      by_cases hpc : p = c
      · simp [after?, hpc, ih]
      · simp [after?, hpc, Ne.symm hpc]

/-- The pieces between the occurrences of a mark. -/
def pieces (mark : Char) : List Char → List (List Char)
  | [] => [[]]
  | c :: cs =>
    if c = mark then [] :: pieces mark cs
    else match pieces mark cs with
      | [] => [[c]]
      | piece :: rest => (c :: piece) :: rest

theorem mark_not_mem_piece {mark : Char} {cs piece : List Char} (h : piece ∈ pieces mark cs) :
    mark ∉ piece := by
  fun_induction pieces mark cs generalizing piece with
  | case1 =>
    cases List.mem_singleton.mp h
    exact List.not_mem_nil
  | case2 cs ih =>
    rcases List.mem_cons.mp h with rfl | h
    · exact List.not_mem_nil
    · exact ih h
  | case3 c cs hc hPieces ih =>
    cases List.mem_singleton.mp h
    exact fun hMark => hc (List.mem_singleton.mp hMark).symm
  | case4 c cs hc first rest hPieces ih =>
    rw [hPieces] at ih
    rcases List.mem_cons.mp h with rfl | h
    · exact List.not_mem_cons_of_ne_of_not_mem (Ne.symm hc) (ih List.mem_cons_self)
    · exact ih (List.mem_cons_of_mem _ h)

/-- The pieces are those of the split of a list at an element. -/
theorem pieces_eq_splitOn (mark : Char) (cs : List Char) : pieces mark cs = cs.splitOn mark := by
  induction cs with
  | nil => rfl
  | cons c cs ih =>
    rw [List.splitOn_cons_eq_if_modifyHead, pieces, ih]
    by_cases hc : c = mark
    · rw [if_pos hc, if_pos (beq_iff_eq.mpr hc)]
    · rw [if_neg hc, if_neg (mt beq_iff_eq.mp hc)]
      cases hPieces : cs.splitOn mark with
      | nil => exact absurd hPieces (List.splitOn_ne_nil mark cs)
      | cons piece rest => rfl

/-- The characters before a mark are a piece. -/
theorem pieces_append_mark {mark : Char} {cs : List Char} (h : mark ∉ cs) (rest : List Char) :
    pieces mark (cs ++ mark :: rest) = cs :: pieces mark rest := by
  rw [pieces_eq_splitOn, pieces_eq_splitOn, List.splitOn_append_cons_self_of_not_mem h]

/-- The pieces between the occurrences of a mark that are not empty. -/
def segments (mark : Char) (s : String) : List String :=
  ((pieces mark s.toList).filter fun piece => !piece.isEmpty).map String.ofList

end BuildQuery.Text
