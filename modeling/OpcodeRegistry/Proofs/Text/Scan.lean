import Mathlib.Data.List.Basic
import Mathlib.Data.List.TakeWhile
import OpcodeRegistry.Text.Scan

/-! # Scanning pieces

A text that was put together from pieces is scanned piece by piece. `rounds_flatMap` reduces the
repetition of a scanner to what one round does with one piece in front of any rest.
-/

namespace OpcodeRegistry.Text

/-! ## One piece -/

theorem word?_eq_some_iff {word : String} {s rest : List Char} :
    word? word s = some rest ↔ s = word.toList ++ rest := by
  unfold word?
  rw [List.isPrefixOf?_eq_some_iff_append_eq, eq_comm]

@[simp] theorem word?_append (word : String) (rest : List Char) :
    word? word (word.toList ++ rest) = some rest :=
  word?_eq_some_iff.mpr rfl

@[simp] theorem skipOne_cons_self (c : Char) (s : List Char) : skipOne c (c :: s) = s := by
  simp [skipOne, List.isPrefixOf?]

theorem skipOne_of_head?_ne {c : Char} {s : List Char} (h : s.head? ≠ some c) :
    skipOne c s = s := by
  cases s with
  | nil => rfl
  | cons d s =>
      have hne : ¬ c = d := by
        rintro rfl
        exact h rfl
      simp [skipOne, List.isPrefixOf?, hne]

/-- A run takes what it can: what it leaves does not start with a character of its class. -/
theorem run?_eq_some_iff {p : Char → Bool} {s taken rest : List Char} :
    run? p s = some (taken, rest) ↔
      s = taken ++ rest ∧ taken ≠ [] ∧ (∀ c ∈ taken, p c = true) ∧ ∀ c ∈ rest.head?, p c = false := by
  unfold run?
  constructor
  · intro h
    by_cases hempty : (s.takeWhile p).isEmpty = true
    · simp [hempty] at h
    · simp only [hempty, Bool.false_eq_true, if_false, Option.some.injEq, Prod.mk.injEq] at h
      obtain ⟨rfl, rfl⟩ := h
      refine ⟨List.takeWhile_append_dropWhile.symm, by simpa using hempty, ?_, ?_⟩
      · intro c hc
        exact List.mem_takeWhile_imp hc
      · intro c hc
        have hhead := List.head?_dropWhile_not p s
        rw [Option.mem_def.mp hc] at hhead
        simpa using hhead
  · rintro ⟨rfl, hne, htaken, hrest⟩
    -- the run ends where the rest begins, so nothing of the rest is taken or dropped
    have htake : rest.takeWhile p = [] := by
      cases rest with
      | nil => rfl
      | cons c rest => simp [hrest c rfl]
    have hdrop : rest.dropWhile p = rest := by
      cases rest with
      | nil => rfl
      | cons c rest => simp [hrest c rfl]
    rw [List.takeWhile_append_of_pos htaken, List.dropWhile_append_of_pos htaken, htake, hdrop]
    simpa using hne

theorem run?_append {p : Char → Bool} {s : List Char} (hne : s ≠ []) (hs : ∀ c ∈ s, p c = true)
    {c : Char} (hc : p c = false) (rest : List Char) :
    run? p (s ++ c :: rest) = some (s, c :: rest) :=
  run?_eq_some_iff.mpr ⟨rfl, hne, hs, by simpa using hc⟩

/-- What a run takes and what it leaves can be told from the text. -/
theorem append_inj_of_run? {p : Char → Bool} {s s' rest rest' : List Char}
    (h : run? p (s ++ rest) = some (s, rest)) (h' : run? p (s' ++ rest') = some (s', rest'))
    (heq : s ++ rest = s' ++ rest') : s = s' ∧ rest = rest' := by
  rw [heq, h'] at h
  obtain ⟨hs, hrest⟩ := Prod.mk.inj (Option.some.inj h)
  exact ⟨hs.symm, hrest.symm⟩

/-! ## Repetition -/

section Rounds

variable {σ α : Type} {round : σ → Scanner (Round σ)}

theorem rounds_again {state next : σ} {s rest : List Char}
    (h : round state s = some (.again next, rest)) (hlt : rest.length < s.length) :
    rounds round state s = rounds round next rest := by
  rw [rounds, h]
  exact if_pos hlt

/-- The state of a round, whether another one is due or not. -/
def Round.state {σ : Type} : Round σ → σ
  | again state => state
  | done state => state

/-- A repetition that comes to an end does so with its first round, or goes on behind it. -/
theorem rounds_cases {state last : σ} {s rest : List Char}
    (h : rounds round state s = some (last, rest)) :
    round state s = some (.done last, rest) ∨
      ∃ next behind, round state s = some (.again next, behind) ∧ behind.length < s.length ∧
        rounds round next behind = some (last, rest) := by
  rw [rounds] at h
  cases hround : round state s with
  | none =>
      rw [hround] at h
      exact absurd h (by simp)
  | some result =>
      rw [hround] at h
      obtain ⟨r, behind⟩ := result
      cases r with
      | done state' =>
          obtain ⟨rfl, rfl⟩ := Prod.mk.inj (Option.some.inj h)
          exact Or.inl rfl
      | again next =>
          obtain ⟨hlt, hrest⟩ := Option.ite_none_right_eq_some.mp h
          exact Or.inr ⟨next, behind, rfl, hlt, hrest⟩

/-- What each round keeps, the repetition keeps. -/
theorem rounds_induction {P : σ → Prop}
    (hround : ∀ state s r rest, P state → round state s = some (r, rest) → P r.state)
    {state last : σ} {s rest : List Char} (h : P state)
    (hlast : rounds round state s = some (last, rest)) : P last := by
  -- each further round has a shorter text before it
  induction hlength : s.length using Nat.strongRecOn generalizing state s with
  | ind n ih =>
      subst hlength
      rcases rounds_cases hlast with hdone | ⟨next, behind, hagain, hlt, hrest⟩
      · exact hround _ _ _ _ h hdone
      · exact ih _ hlt (hround _ _ _ _ h hagain) hrest rfl

/-- If each round takes one piece and changes the state by `step`, the repetition takes all pieces
and folds `step` over them. A piece that `step` refuses ends it. -/
theorem rounds_flatMap {piece : α → List Char} {step : σ → α → Option σ} {items : List α}
    (hne : ∀ a ∈ items, piece a ≠ [])
    (hround : ∀ a ∈ items, ∀ state rest, round state (piece a ++ rest) =
      (step state a).map fun next => (.again next, rest))
    (hdone : ∀ state, round state [] = some (.done state, [])) (state : σ) :
    rounds round state (items.flatMap piece) =
      (items.foldlM step state).map fun last => (last, []) := by
  induction items generalizing state with
  | nil =>
      rw [List.flatMap_nil, rounds, hdone]
      rfl
  | cons a items ih =>
      have hfirst := hround a List.mem_cons_self state (items.flatMap piece)
      rw [List.flatMap_cons, List.foldlM_cons]
      cases hstep : step state a with
      | none =>
          rw [hstep] at hfirst
          rw [rounds, hfirst]
          rfl
      | some next =>
          rw [hstep] at hfirst
          -- the piece was not empty, so another round is allowed
          have hshorter : (items.flatMap piece).length <
              (piece a ++ items.flatMap piece).length := by
            have hpos := List.length_pos_of_ne_nil (hne a List.mem_cons_self)
            rw [List.length_append]
            omega
          rw [rounds_again hfirst hshorter]
          exact ih (fun b hb => hne b (List.mem_cons_of_mem a hb))
            (fun b hb => hround b (List.mem_cons_of_mem a hb)) next

end Rounds

end OpcodeRegistry.Text
