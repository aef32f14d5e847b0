import Mathlib.Data.List.Basic

/-! # Lines

A text that is written line by line ends each line with a line feed, and a reader may find a last
line without one. `endedBy` cuts a list that way at any separator, so the same lemmas serve for the
characters of a text and for the bytes of a source.
-/

namespace OpcodeRegistry.Text

section EndedBy

variable {α : Type} [DecidableEq α] {sep : α}

theorem length_splitOn (sep : α) (l : List α) : (l.splitOn sep).length = l.count sep + 1 := by
  induction l with
  | nil => simp
  | cons a l ih =>
      rw [List.splitOn_cons_eq_if_modifyHead, List.count_cons]
      by_cases ha : (a == sep) = true
      · rw [if_pos ha, if_pos ha, List.length_cons, ih]
      · rw [if_neg ha, if_neg ha, List.length_modifyHead, ih]

/-- A piece of a list has no separator in it, and nothing that the list has not. -/
theorem of_mem_splitOn {l piece : List α} (h : piece ∈ l.splitOn sep) :
    sep ∉ piece ∧ ∀ a ∈ piece, a ∈ l := by
  induction l generalizing piece with
  | nil =>
      obtain rfl : piece = [] := by simpa using h
      simp
  | cons a l ih =>
      rw [List.splitOn_cons_eq_if_modifyHead] at h
      split at h
      · -- a separator opens an empty piece in front of the others
        rcases List.mem_cons.mp h with rfl | h
        · simp
        · exact ⟨(ih h).1, fun b hb => List.mem_cons_of_mem a ((ih h).2 b hb)⟩
      · rename_i ha
        obtain ⟨head, tail, hpieces⟩ := List.exists_cons_of_ne_nil (List.splitOn_ne_nil sep l)
        rw [hpieces] at h ih
        rcases List.mem_cons.mp h with rfl | h
        · -- the first piece goes on to the left
          have hhead := ih List.mem_cons_self
          refine ⟨?_, ?_⟩
          · rw [List.mem_cons, not_or]
            refine ⟨?_, hhead.1⟩
            rintro rfl
            exact ha (beq_self_eq_true _)
          · intro b hb
            rcases List.mem_cons.mp hb with rfl | hb
            · exact List.mem_cons_self
            · exact List.mem_cons_of_mem a (hhead.2 b hb)
        · have htail := ih (List.mem_cons_of_mem head h)
          exact ⟨htail.1, fun b hb => List.mem_cons_of_mem a (htail.2 b hb)⟩

/-- The pieces of a list, each of which `sep` ends. The last piece may go without it, unless that
piece is empty. -/
def endedBy (sep : α) (l : List α) : List (List α) :=
  let pieces := l.splitOn sep
  if pieces.getLast? = some [] then pieces.dropLast else pieces

@[simp] theorem endedBy_nil : endedBy sep [] = [] := by
  simp [endedBy]

theorem endedBy_of_not_mem {l : List α} (hne : l ≠ []) (h : sep ∉ l) : endedBy sep l = [l] := by
  unfold endedBy
  rw [List.splitOn_eq_singleton h]
  simp [hne]

/-- Behind a separator the list is cut as if nothing stood before. -/
theorem endedBy_append_cons (front rest : List α) :
    endedBy sep (front ++ sep :: rest) = front.splitOn sep ++ endedBy sep rest := by
  have hne : rest.splitOn sep ≠ [] := List.splitOn_ne_nil sep rest
  have hlast : (front.splitOn sep ++ rest.splitOn sep).getLast? = (rest.splitOn sep).getLast? := by
    rw [List.getLast?_append_of_ne_nil _ hne]
  unfold endedBy
  simp only [List.splitOn_append_cons_self, hlast]
  split
  · rw [List.dropLast_append_of_ne_nil hne]
  · rfl

theorem endedBy_append_cons_of_not_mem {front : List α} (h : sep ∉ front) (rest : List α) :
    endedBy sep (front ++ sep :: rest) = front :: endedBy sep rest := by
  rw [endedBy_append_cons, List.splitOn_eq_singleton h]
  rfl

/-- A list is empty, or it is one piece without an end, or a piece with its end stands in front. -/
theorem endedBy_induction (sep : α) {P : List α → Prop} (nil : P [])
    (last : ∀ l, l ≠ [] → sep ∉ l → P l)
    (cons : ∀ front rest, sep ∉ front → P rest → P (front ++ sep :: rest)) (l : List α) : P l := by
  -- the rest behind a separator is shorter, but not by one, so the induction is on the length
  induction hlength : l.length using Nat.strongRecOn generalizing l with
  | ind n ih =>
      by_cases hmem : sep ∈ l
      · obtain ⟨front, rest, rfl, hfront⟩ := List.eq_append_cons_of_mem hmem
        have hlt : rest.length < n := by
          rw [← hlength]
          simp
          omega
        exact cons front rest hfront (ih rest.length hlt rest rfl)
      · by_cases hnil : l = []
        · rw [hnil]
          exact nil
        · exact last l hnil hmem

/-- Pieces that are written with their ends are found again. -/
theorem endedBy_flatMap {pieces : List (List α)} (h : ∀ piece ∈ pieces, sep ∉ piece) :
    endedBy sep (pieces.flatMap fun piece => piece ++ [sep]) = pieces := by
  induction pieces with
  | nil => simp
  | cons piece pieces ih =>
      rw [List.flatMap_cons, List.append_assoc, List.singleton_append,
        endedBy_append_cons_of_not_mem (h piece List.mem_cons_self),
        ih fun p hp => h p (List.mem_cons_of_mem _ hp)]

end EndedBy

/-- The lines of a text, without their line feeds. -/
def linesOf (text : String) : List String :=
  (endedBy '\n' text.toList).map String.ofList

/-- Lines that are written with their line feeds are found again. -/
theorem linesOf_join {lines : List String} (h : ∀ line ∈ lines, '\n' ∉ line.toList) :
    linesOf (String.join (lines.map (· ++ "\n"))) = lines := by
  have hjoin : (String.join (lines.map (· ++ "\n"))).toList =
      (lines.map String.toList).flatMap fun line => line ++ ['\n'] := by
    rw [String.toList_join, List.flatMap_map, List.flatMap_map]
    simp only [String.toList_append]
    rfl
  have hpieces : ∀ piece ∈ lines.map String.toList, '\n' ∉ piece := by
    intro piece hpiece
    rcases List.mem_map.mp hpiece with ⟨line, hline, rfl⟩
    exact h line hline
  unfold linesOf
  rw [hjoin, endedBy_flatMap hpieces, List.map_map]
  -- taking a line apart and writing it again changes nothing
  have hid : String.ofList ∘ String.toList = id := by
    funext line
    exact String.ofList_toList
  rw [hid, List.map_id]

end OpcodeRegistry.Text
