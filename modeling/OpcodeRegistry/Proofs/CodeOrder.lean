import Mathlib.Data.List.Sort
import OpcodeRegistry.Code

/-! # Sorting by code

Entries and differences are put in the order of their codes by one stable sort. Whatever is sorted,
the result is ascending, and the elements of one code keep their order, so they can be read off the
unsorted list. No other list has both properties, which says where one element more is put. Where no
code comes twice, the result is strictly ascending.
-/

namespace OpcodeRegistry

section SortByCode

variable {α : Type} (code : α → Code)

/-- The elements by ascending code; those of one code keep their order. -/
abbrev sortByCode (l : List α) : List α :=
  l.mergeSort fun a b => code a ≤ code b

theorem codeLe_trans (a b d : α) (hab : decide (code a ≤ code b) = true)
    (hbd : decide (code b ≤ code d) = true) : decide (code a ≤ code d) = true := by
  simp only [decide_eq_true_eq] at hab hbd ⊢
  exact UInt32.le_trans hab hbd

theorem codeLe_total (a b : α) : (decide (code a ≤ code b) || decide (code b ≤ code a)) = true := by
  simp only [Bool.or_eq_true, decide_eq_true_eq]
  exact UInt32.le_total (code a) (code b)

theorem sortByCode_perm (l : List α) : (sortByCode code l).Perm l :=
  List.mergeSort_perm l _

theorem pairwise_sortByCode (l : List α) :
    (sortByCode code l).Pairwise fun a b => code a ≤ code b := by
  have h := List.pairwise_mergeSort (codeLe_trans code) (codeLe_total code) l
  exact h.imp (fun hab => of_decide_eq_true hab)

/-- The sort changes nothing about a list that is ascending. -/
theorem sortByCode_eq_self {l : List α} (h : l.Pairwise fun a b => code a ≤ code b) :
    sortByCode code l = l := by
  apply List.mergeSort_of_pairwise
  exact h.imp (fun hab => decide_eq_true hab)

/-- The sort is stable: the elements of one code keep their order. -/
theorem filter_sortByCode (l : List α) (c : Code) :
    (sortByCode code l).filter (code · = c) = l.filter (code · = c) := by
  have hsame : (l.filter (code · = c)).Pairwise fun a b => decide (code a ≤ code b) = true := by
    apply List.pairwise_of_forall_mem_list
    intro a ha b hb
    have hac : code a = c := of_decide_eq_true (List.mem_filter.mp ha).2
    have hbc : code b = c := of_decide_eq_true (List.mem_filter.mp hb).2
    rw [hac, hbc]
    exact decide_eq_true (UInt32.le_refl c)
  have hsub : (l.filter (code · = c)).Sublist (sortByCode code l) :=
    List.sublist_mergeSort (codeLe_trans code) (codeLe_total code) hsame List.filter_sublist
  have hsub' : (l.filter (code · = c)).Sublist ((sortByCode code l).filter (code · = c)) := by
    have h := hsub.filter (fun a => decide (code a = c))
    rw [List.filter_filter] at h
    simpa only [Bool.and_self] using h
  -- both sides have as many elements, since sorting only permutes
  have hlength : (l.filter (code · = c)).length = ((sortByCode code l).filter (code · = c)).length :=
    ((sortByCode_perm code l).filter _).length_eq.symm
  exact (hsub'.eq_of_length hlength).symm

/-! ## Ascending lists -/

/-- The head of an ascending list has the smallest code. -/
theorem code_head_le {l : List α} {a b : α} (h : (a :: l).Pairwise fun a b => code a ≤ code b)
    (hb : b ∈ a :: l) : code a ≤ code b := by
  rcases List.mem_cons.mp hb with rfl | hb
  · exact UInt32.le_refl _
  · exact (List.pairwise_cons.mp h).1 b hb

/-- Lists with the same elements of each code have the same elements. -/
theorem mem_iff_of_filter_eq {l l' : List α}
    (h : ∀ c, l.filter (code · = c) = l'.filter (code · = c)) (a : α) : a ∈ l ↔ a ∈ l' := by
  have hiff : a ∈ l.filter (code · = code a) ↔ a ∈ l'.filter (code · = code a) := by
    rw [h]
  simpa using hiff

/-- An ascending list is determined by its elements of each code, in their order. -/
theorem eq_of_ascending_of_filter_eq {l l' : List α} (h : l.Pairwise fun a b => code a ≤ code b)
    (h' : l'.Pairwise fun a b => code a ≤ code b)
    (hfilter : ∀ c, l.filter (code · = c) = l'.filter (code · = c)) : l = l' := by
  have hmem := mem_iff_of_filter_eq code hfilter
  induction l generalizing l' with
  | nil =>
      symm
      apply List.eq_nil_iff_forall_not_mem.mpr
      intro b hb
      exact List.not_mem_nil ((hmem b).mpr hb)
  | cons a l ih =>
      cases l' with
      | nil => exact absurd ((hmem a).mp List.mem_cons_self) List.not_mem_nil
      | cons b l' =>
          -- each head stands in the other list too, so both have the smallest code
          have hcode : code a = code b := UInt32.le_antisymm
            (code_head_le code h ((hmem b).mpr List.mem_cons_self))
            (code_head_le code h' ((hmem a).mp List.mem_cons_self))
          have hheads := hfilter (code b)
          rw [List.filter_cons_of_pos (by simpa using hcode), List.filter_cons_of_pos (by simp)]
            at hheads
          obtain rfl := (List.cons.inj hheads).1
          have hfilter' : ∀ c, l.filter (code · = c) = l'.filter (code · = c) := by
            intro c
            have hboth := hfilter c
            by_cases hc : code a = c
            · rw [List.filter_cons_of_pos (by simpa using hc),
                List.filter_cons_of_pos (by simpa using hc)] at hboth
              exact (List.cons.inj hboth).2
            · rwa [List.filter_cons_of_neg (by simpa using hc),
                List.filter_cons_of_neg (by simpa using hc)] at hboth
          rw [ih h.of_cons h'.of_cons hfilter' (mem_iff_of_filter_eq code hfilter')]

/-- An ascending list is its elements of the codes up to a given one and then the rest of it. -/
theorem filter_le_append_filter_lt {l : List α} (h : l.Pairwise fun a b => code a ≤ code b)
    (c : Code) : l.filter (code · ≤ c) ++ l.filter (c < code ·) = l := by
  induction l with
  | nil => rfl
  | cons a l ih =>
      by_cases ha : code a ≤ c
      · have hnot : ¬ c < code a := UInt32.not_lt.mpr ha
        rw [List.filter_cons_of_pos (by simpa using ha), List.filter_cons_of_neg (by simpa using hnot),
          List.cons_append, ih h.of_cons]
      · -- the head is greater already, and so is all that stands behind it
        have hgreater : ∀ b ∈ a :: l, c < code b := fun b hb =>
          UInt32.lt_of_lt_of_le (UInt32.not_le.mp ha) (code_head_le code h hb)
        have hnone : (a :: l).filter (code · ≤ c) = [] := by
          apply List.filter_eq_nil_iff.mpr
          intro b hb
          simpa using hgreater b hb
        have hall : (a :: l).filter (c < code ·) = a :: l := by
          apply List.filter_eq_self.mpr
          intro b hb
          simpa using hgreater b hb
        rw [hnone, hall, List.nil_append]

/-- What comes last in a list is sorted in behind all elements of codes up to its own. -/
theorem sortByCode_concat (l : List α) (a : α) :
    sortByCode code (l ++ [a]) = (sortByCode code l).filter (code · ≤ code a) ++
      a :: (sortByCode code l).filter (code a < code ·) := by
  have hascending := pairwise_sortByCode code l
  -- a stable sort is settled by two things: the codes ascend, and each code keeps its order
  apply eq_of_ascending_of_filter_eq code (pairwise_sortByCode code _)
  · apply List.pairwise_append.mpr
    refine ⟨hascending.filter _, List.pairwise_cons.mpr ⟨?_, hascending.filter _⟩, ?_⟩
    · intro b hb
      exact UInt32.le_of_lt (of_decide_eq_true (List.mem_filter.mp hb).2)
    · intro b hb d hd
      have hba : code b ≤ code a := of_decide_eq_true (List.mem_filter.mp hb).2
      rcases List.mem_cons.mp hd with rfl | hd
      · exact hba
      · have had : code a < code d := of_decide_eq_true (List.mem_filter.mp hd).2
        exact UInt32.le_trans hba (UInt32.le_of_lt had)
  · intro c
    have hsplit := filter_sortByCode code l c
    rw [← filter_le_append_filter_lt code hascending (code a), List.filter_append] at hsplit
    rw [filter_sortByCode, List.filter_append, List.filter_append, ← hsplit]
    by_cases hc : code a = c
    · -- no greater element has the code, so the new one stands last of it
      have hnone : ((sortByCode code l).filter (code a < code ·)).filter (code · = c) = [] := by
        apply List.filter_eq_nil_iff.mpr
        intro b hb heq
        have hlt : code a < code b := of_decide_eq_true (List.mem_filter.mp hb).2
        rw [hc, of_decide_eq_true heq] at hlt
        exact UInt32.lt_irrefl c hlt
      rw [List.filter_cons_of_pos (by simpa using hc), List.filter_cons_of_pos (by simpa using hc),
        hnone]
      simp
    · -- another code's elements are where they were
      rw [List.filter_cons_of_neg (by simpa using hc), List.filter_cons_of_neg (by simpa using hc)]
      simp

/-! ## The ends of an ascending list -/

/-- A code that is no smaller than any of the list and is not its last one is nowhere in it. -/
theorem filter_eq_nil_of_getLast? {l : List α} {c : Code}
    (h : l.Pairwise fun a b => code a ≤ code b) (hle : ∀ a ∈ l, code a ≤ c)
    (hlast : ∀ a ∈ l.getLast?, code a ≠ c) : l.filter (code · = c) = [] := by
  apply List.filter_eq_nil_iff.mpr
  intro a ha heq
  have hac : code a = c := of_decide_eq_true heq
  rcases List.eq_nil_or_concat l with rfl | ⟨front, last, hl⟩
  · exact List.not_mem_nil ha
  · rw [List.concat_eq_append] at hl
    subst hl
    -- the last element lies between `a` and the code, which are equal
    have hmem : last ∈ (front ++ [last]).getLast? := by simp
    have hge : c ≤ code last := by
      rw [← hac]
      rcases List.mem_append.mp ha with ha | ha
      · exact (List.pairwise_append.mp h).2.2 a ha last (List.mem_singleton_self last)
      · rw [List.mem_singleton.mp ha]
        exact UInt32.le_refl _
    have hlast_le := hle last (List.mem_append_right _ (List.mem_singleton_self last))
    exact hlast last hmem (UInt32.le_antisymm hlast_le hge)

/-- A code that is no larger than any of the list and is not its first one is nowhere in it. -/
theorem filter_eq_nil_of_head? {l : List α} {c : Code}
    (h : l.Pairwise fun a b => code a ≤ code b) (hge : ∀ a ∈ l, c ≤ code a)
    (hhead : ∀ a ∈ l.head?, code a ≠ c) : l.filter (code · = c) = [] := by
  apply List.filter_eq_nil_iff.mpr
  intro a ha heq
  have hac : code a = c := of_decide_eq_true heq
  cases l with
  | nil => exact List.not_mem_nil ha
  | cons first rest =>
      -- between the bound and its own code there is no room for the first code of the list
      have hle : code first ≤ c := by
        rw [← hac]
        exact code_head_le code h ha
      have hfirst_ge := hge first List.mem_cons_self
      exact hhead first (by simp) (UInt32.le_antisymm hle hfirst_ge)

/-! ## Strictly ascending lists -/

/-- A strictly ascending list has at most one element of each code. -/
theorem filter_eq_toList_find? {l : List α} (h : l.Pairwise fun a b => code a < code b)
    (c : Code) : l.filter (code · = c) = (l.find? (code · = c)).toList := by
  induction l with
  | nil => rfl
  | cons a l ih =>
      rcases List.pairwise_cons.mp h with ⟨hhead, htail⟩
      by_cases ha : code a = c
      · -- what stands behind the head has a greater code, so the head is all there is
        have hrest : l.filter (code · = c) = [] := by
          apply List.filter_eq_nil_iff.mpr
          intro b hb heq
          have hlt : code a < code b := hhead b hb
          rw [ha, of_decide_eq_true heq] at hlt
          exact UInt32.lt_irrefl c hlt
        rw [List.filter_cons_of_pos (by simpa using ha), List.find?_cons_of_pos (by simpa using ha),
          hrest]
        rfl
      · rw [List.filter_cons_of_neg (by simpa using ha), List.find?_cons_of_neg (by simpa using ha)]
        exact ih htail

/-- In a strictly ascending list the element of a code is found wherever it stands. -/
theorem find?_code_eq_some_iff {l : List α} (h : l.Pairwise fun a b => code a < code b) {c : Code}
    {a : α} : l.find? (code · = c) = some a ↔ a ∈ l ∧ code a = c := by
  have hfilter := filter_eq_toList_find? code h c
  rw [← Option.mem_toList, ← hfilter, List.mem_filter, decide_eq_true_eq]

/-- In front of an element of a strictly ascending list stand the elements of smaller code. -/
theorem mem_front_iff {before after : List α} {a b : α}
    (h : (before ++ a :: after).Pairwise fun a b => code a < code b) :
    b ∈ before ↔ b ∈ before ++ a :: after ∧ code b < code a := by
  obtain ⟨-, hback, hcross⟩ := List.pairwise_append.mp h
  constructor
  · intro hb
    exact ⟨List.mem_append_left _ hb, hcross b hb a List.mem_cons_self⟩
  · intro hb
    obtain ⟨hmem, hlt⟩ := hb
    rcases List.mem_append.mp hmem with hb | hb
    · exact hb
    · have hle := code_head_le code (hback.imp fun hab => UInt32.le_of_lt hab) hb
      exact absurd hlt (UInt32.not_lt.mpr hle)

/-- A strictly ascending list is determined by its elements. -/
theorem eq_of_ascending_of_mem_iff {l l' : List α} (h : l.Pairwise fun a b => code a < code b)
    (h' : l'.Pairwise fun a b => code a < code b) (hmem : ∀ a, a ∈ l ↔ a ∈ l') : l = l' := by
  have : Std.Irrefl fun a b => code a < code b := ⟨fun a => UInt32.lt_irrefl (code a)⟩
  have : Std.Antisymm fun a b => code a < code b :=
    ⟨fun a b hab hba => absurd (UInt32.lt_trans hab hba) (UInt32.lt_irrefl _)⟩
  exact h.eq_of_mem_iff h' hmem

/-- Sorting elements of different codes puts them in strictly ascending order. -/
theorem pairwise_lt_sortByCode {l : List α} (h : l.Pairwise fun a b => code a ≠ code b) :
    (sortByCode code l).Pairwise fun a b => code a < code b := by
  have hne : (sortByCode code l).Pairwise fun a b => code a ≠ code b := by
    refine ((sortByCode_perm code l).pairwise_iff ?_).mpr h
    intro a b hab
    exact hab.symm
  refine ((pairwise_sortByCode code l).and hne).imp ?_
  rintro a b ⟨hle, hab⟩
  exact UInt32.lt_of_le_of_ne hle hab

end SortByCode

end OpcodeRegistry
