import RpcForge.Proofs.Text.Parts

/-!
# Pieces of a joined text

Cutting a text at a character undoes joining pieces with that character, as long as none of them has
it in itself. The last piece is what stands behind the last such character.
-/

namespace RpcForge.Text

/-- Stretches between characters are what the library calls splitting. -/
private theorem piecesBy_eq_splitOnP (isCut : Char → Bool) (cs : List Char) :
    piecesBy isCut cs = cs.splitOnP isCut := by
  induction cs with
  | nil => simp [piecesBy]
  | cons c cs ih =>
    rw [piecesBy, List.splitOnP_cons_eq_if_modifyHead, ← ih]
    split
    · rfl
    · cases h : piecesBy isCut cs with
      | nil => exact absurd (ih ▸ h) (List.splitOnP_ne_nil isCut cs)
      | cons piece rest => rfl

/-- The pieces of a text are those of its characters. -/
theorem pieces_eq (separator : Char) (text : String) :
    pieces separator text = (text.toList.splitOn separator).map String.ofList := by
  rw [pieces, piecesBy_eq_splitOnP, List.splitOn_eq_splitOnP]

/-- A stretch of a list that is cut has no element at which it is cut. -/
theorem forall_mem_of_mem_splitOnP {α : Type} {isCut : α → Bool} {as piece : List α}
    (h : piece ∈ as.splitOnP isCut) : ∀ a ∈ piece, isCut a = false := by
  induction as generalizing piece with
  | nil =>
    rw [List.splitOnP_nil, List.mem_singleton] at h
    simp [h]
  | cons b as ih =>
    obtain ⟨first, rest, hs⟩ := List.exists_cons_of_ne_nil (List.splitOnP_ne_nil isCut as)
    rw [List.splitOnP_cons_eq_if_modifyHead, hs] at h
    rw [hs] at ih
    by_cases hb : isCut b = true
    · rw [if_pos hb] at h
      rcases List.mem_cons.mp h with rfl | h
      · exact List.forall_mem_nil _
      · exact ih h
    · rw [if_neg hb, List.modifyHead_cons] at h
      rcases List.mem_cons.mp h with rfl | h
      · exact List.forall_mem_cons.mpr ⟨by simpa using hb, ih (.head _)⟩
      · exact ih (.tail _ h)

/-- A stretch has no character at which the text is cut. -/
theorem forall_mem_piecesBy {isCut : Char → Bool} {cs piece : List Char}
    (h : piece ∈ piecesBy isCut cs) : ∀ c ∈ piece, isCut c = false := by
  rw [piecesBy_eq_splitOnP] at h
  exact forall_mem_of_mem_splitOnP h

/-- A stretch between characters does not have the character in it. -/
theorem not_mem_of_mem_splitOn {c : Char} {cs piece : List Char} (h : piece ∈ cs.splitOn c) :
    c ∉ piece := by
  rw [List.splitOn_eq_splitOnP, ← piecesBy_eq_splitOnP] at h
  intro hc
  simpa using forall_mem_piecesBy h c hc

/-- A piece does not have the separator in it. -/
theorem separator_not_mem {separator : Char} {text piece : String}
    (h : piece ∈ pieces separator text) : separator ∉ piece.toList := by
  rw [pieces_eq] at h
  obtain ⟨cs, hcs, rfl⟩ := List.mem_map.mp h
  rw [String.toList_ofList]
  exact not_mem_of_mem_splitOn hcs

/-- The pieces of two texts with a separator between them. -/
theorem pieces_append (separator : Char) (a b : String) :
    pieces separator (a ++ String.singleton separator ++ b) =
      pieces separator a ++ pieces separator b := by
  simp only [pieces_eq, String.toList_append, String.toList_singleton, List.append_assoc,
    List.singleton_append, List.splitOn_append_cons_self, List.map_append]

/-- Pieces that are joined come apart again. -/
theorem pieces_intercalate {separator : Char} {texts : List String} (hn : texts ≠ [])
    (hs : ∀ text ∈ texts, separator ∉ text.toList) :
    pieces separator ((String.singleton separator).intercalate texts) = texts := by
  have hs' : ∀ cs ∈ texts.map String.toList, separator ∉ cs := by
    intro cs hcs
    obtain ⟨text, ht, rfl⟩ := List.mem_map.mp hcs
    exact hs text ht
  rw [pieces_eq, String.toList_intercalate, String.toList_singleton,
    List.splitOn_intercalate separator hs' (by simpa using hn), List.map_map]
  simp [Function.comp_def]

/-- A text without the separator is one piece. -/
theorem pieces_of_not_mem {separator : Char} {text : String} (h : separator ∉ text.toList) :
    pieces separator text = [text] := by
  rw [pieces_eq, List.splitOn_eq_singleton h, List.map_singleton, String.ofList_toList]

/-- The last piece of a text is what stands behind the last separator. -/
theorem getLast?_pieces (separator : Char) (text : String) :
    (pieces separator text).getLast? = some (afterLast separator text) := by
  by_cases h : separator ∈ text.toList
  · obtain ⟨front, back, rfl, hn⟩ := exists_eq_append_of_mem h
    rw [pieces_append, pieces_of_not_mem hn, afterLast_append hn, List.getLast?_concat]
  · rw [pieces_of_not_mem h, afterLast_of_not_mem h, List.getLast?_singleton]

/-- Lines that are each ended are joined lines of which the last one is ended. -/
theorem intercalate_append_lineFeed (l : List Char) (ls : List (List Char)) (back : List Char) :
    ['\n'].intercalate (l :: ls) ++ '\n' :: back =
      l ++ '\n' :: (ls.flatMap (fun l ↦ l ++ ['\n']) ++ back) := by
  induction ls generalizing l with
  | nil => simp
  | cons l' ls ih =>
    rw [List.intercalate_cons_cons, List.append_assoc, List.append_assoc, ih]
    simp

/-- Lines that are each ended come apart again, with what stands behind the last one. -/
theorem splitOn_flatMap_lineFeed {ls : List (List Char)} (hn : ∀ l ∈ ls, '\n' ∉ l)
    {back : List Char} (hb : '\n' ∉ back) :
    (ls.flatMap (fun l ↦ l ++ ['\n']) ++ back).splitOn '\n' = ls ++ [back] := by
  induction ls with
  | nil => exact List.splitOn_eq_singleton hb
  | cons l ls ih =>
    rw [List.flatMap_cons, List.append_assoc, List.append_assoc, List.singleton_append,
      List.splitOn_append_cons_self_of_not_mem (hn l (.head _)), ih fun m hm ↦ hn m (.tail _ hm),
      List.cons_append]

end RpcForge.Text
