import Mathlib.Data.List.Basic
import OpcodeRegistry.Proofs.Listing.Reading
import OpcodeRegistry.Proofs.Table.Acceptance

/-! # What a listing lets infer

A listing does not say which of its names are aliases. `inferred` is what a reader makes of names
and codes alone: a name that adds `_0` to a name of the same code before it becomes an alias of that
name. The inference repeats an accepted list of declarations exactly where each alias adds `_0` to
its canonical mnemonic, and where it does not, the declarations it makes are not accepted:
`Accepted.accepted_inferred_iff`. So nothing else is ever read in place of a table.
-/

namespace OpcodeRegistry

namespace Listing

/-! ## The inference -/

theorem family?_eq_some_iff {mnemonic base : String} :
    family? mnemonic = some base ↔ mnemonic = base ++ familySuffix := by
  unfold family?
  rw [Option.map_eq_some_iff]
  constructor
  · rintro ⟨s, hs, rfl⟩
    have hsplit := List.append_eq_of_isSuffixOf?_eq_some hs
    apply String.toList_inj.mp
    rw [String.toList_append, String.toList_ofList, hsplit]
  · rintro rfl
    refine ⟨base.toList, ?_, String.ofList_toList⟩
    rw [List.isSuffixOf?_eq_some_iff_append_eq, String.toList_append]

/-- The declaration that a name and a code make behind those before them. -/
def inferredEntry (before : List (String × Code)) (entry : String × Code) : Entry where
  mnemonic := entry.1
  code := entry.2
  aliasOf := (family? entry.1).filter fun base => (base, entry.2) ∈ before

/-- The declarations that names and codes make behind those before them. -/
def inferredFrom (before : List (String × Code)) : List (String × Code) → List Entry
  | [] => []
  | entry :: rest => inferredEntry before entry :: inferredFrom (before ++ [entry]) rest

/-- The declarations that names and codes make. -/
def inferred (entries : List (String × Code)) : List Entry :=
  inferredFrom [] entries

theorem aliasOf_inferredEntry_eq_some_iff {before : List (String × Code)}
    {entry : String × Code} {base : String} :
    (inferredEntry before entry).aliasOf = some base ↔
      entry.1 = base ++ familySuffix ∧ (base, entry.2) ∈ before := by
  unfold inferredEntry
  rw [Option.filter_eq_some_iff, family?_eq_some_iff, decide_eq_true_eq]

theorem inferredFrom_append (before entries further : List (String × Code)) :
    inferredFrom before (entries ++ further) =
      inferredFrom before entries ++ inferredFrom (before ++ entries) further := by
  induction entries generalizing before with
  | nil => simp [inferredFrom]
  | cons first entries ih =>
      rw [List.cons_append, inferredFrom, inferredFrom, ih, List.append_assoc]
      rfl

theorem inferred_concat (entries : List (String × Code)) (entry : String × Code) :
    inferred (entries ++ [entry]) = inferred entries ++ [inferredEntry entries entry] := by
  unfold inferred
  rw [inferredFrom_append, List.nil_append]
  rfl

/-! ## The reader infers -/

theorem code?_integer (key : String) (c : Code) : code? key (.integer c.toNat) = .ok c := by
  have hsign : ¬ ((c.toNat : Int) < 0) := Int.not_lt.mpr (Int.natCast_nonneg _)
  have hcode : Code.ofNat? c.toNat = some c := Code.ofNat?_eq_some_iff.mpr rfl
  unfold code?
  simp only [hsign, if_false, Int.toNat_natCast, hcode]

theorem declarations?_cons {seen : Std.HashMap String Code} {mnemonic : String}
    {value : Toml.Value} {code : Code} {rest : List (String × Toml.Value)} {further : List Entry}
    (hcode : code? mnemonic value = .ok code)
    (hrest : declarations? (seen.insert mnemonic code) rest = .ok further) :
    declarations? seen ((mnemonic, value) :: rest) =
      .ok ({ mnemonic, code, aliasOf := (family? mnemonic).filter (seen[·]? == some code) } ::
        further) := by
  rw [declarations?, hcode]
  change (declarations? (seen.insert mnemonic code) rest).bind _ = _
  rw [hrest]
  rfl

/-- Over a map of the names before, the reader makes what names and codes let infer. -/
theorem declarations?_map_field {entries before : List (String × Code)}
    {seen : Std.HashMap String Code} (hseen : ∀ name c, seen[name]? = some c ↔ (name, c) ∈ before)
    (hnodup : ((before ++ entries).map Prod.fst).Nodup) :
    declarations? seen (entries.map field) = .ok (inferredFrom before entries) := by
  induction entries generalizing before seen with
  | nil => rfl
  | cons entry entries ih =>
      rcases entry with ⟨mnemonic, code⟩
      have hsplit : before ++ (mnemonic, code) :: entries =
          before ++ [(mnemonic, code)] ++ entries := by
        rw [List.append_assoc, List.singleton_append]
      have hnew : ∀ c, (mnemonic, c) ∉ before := by
        intro c hmem
        rw [List.map_append, List.nodup_append] at hnodup
        have hfst : mnemonic ∈ before.map Prod.fst := List.mem_map.mpr ⟨_, hmem, rfl⟩
        exact hnodup.2.2 mnemonic hfst mnemonic (by simp) rfl
      -- the map loses nothing when the name goes in, since it held no code of it
      have hseen' : ∀ name c, (seen.insert mnemonic code)[name]? = some c ↔
          (name, c) ∈ before ++ [(mnemonic, code)] := by
        intro name c
        rw [Std.HashMap.getElem?_insert, List.mem_append, List.mem_singleton]
        by_cases hname : mnemonic = name
        · subst hname
          simp [hnew c, eq_comm]
        · simp [hname, Ne.symm hname, hseen name c]
      have halias : (family? mnemonic).filter (seen[·]? == some code) =
          (family? mnemonic).filter fun base => (base, code) ∈ before := by
        congr 1
        funext base
        rw [Bool.eq_iff_iff, beq_iff_eq, decide_eq_true_eq]
        exact hseen base code
      rw [hsplit] at hnodup
      have hrest := ih hseen' hnodup
      rw [List.map_cons, inferredFrom]
      change declarations? seen ((mnemonic, .integer code.toNat) :: entries.map field) = _
      rw [declarations?_cons (code?_integer mnemonic code) hrest, halias]
      rfl

end Listing

/-! ## Inferring accepted declarations -/

/-- What a listing says of an entry. -/
def Entry.listed (e : Entry) : String × Code :=
  (e.mnemonic, e.code)

theorem Entry.mem_map_listed_iff {entries : List Entry} {name : String} {c : Code} :
    (name, c) ∈ entries.map Entry.listed ↔ ∃ d ∈ entries, d.mnemonic = name ∧ d.code = c := by
  simp only [List.mem_map, Entry.listed, Prod.mk.injEq]

namespace Accepted

open Listing

variable {width : CodeWidth} {declarations : List Entry}

/-- Behind accepted declarations, one that fits is inferred if and only if it is canonical or adds
`_0` to its canonical mnemonic. -/
theorem inferredEntry_eq_iff (h : Accepted width declarations) {e : Entry}
    (hfits : Fits width declarations e) :
    inferredEntry (declarations.map Entry.listed) e.listed = e ↔
      ∀ canonical ∈ e.aliasOf, e.mnemonic = canonical ++ familySuffix := by
  constructor
  · intro heq canonical hcanonical
    rw [← heq] at hcanonical
    exact (aliasOf_inferredEntry_eq_some_iff.mp hcanonical).1
  · intro hsuffix
    have halias : (inferredEntry (declarations.map Entry.listed) e.listed).aliasOf = e.aliasOf := by
      cases hdeclared : e.aliasOf with
      | none =>
          -- a base of the same code would have a canonical entry, and its code would be owned
          rw [Option.eq_none_iff_forall_ne_some]
          intro base hbase
          have hlisted := (aliasOf_inferredEntry_eq_some_iff.mp hbase).2
          rcases Entry.mem_map_listed_iff.mp hlisted with ⟨d, hd, -, hdc⟩
          rcases h.exists_canonical hd with ⟨owner, howner, hcanonical, hcode, -⟩
          exact hfits.new_owner hdeclared owner howner hcanonical (hcode.trans hdc)
      | some canonical =>
          rcases hfits.target canonical hdeclared with ⟨d, hd, hname, -, hcode⟩
          exact aliasOf_inferredEntry_eq_some_iff.mpr ⟨hsuffix canonical hdeclared,
            Entry.mem_map_listed_iff.mpr ⟨d, hd, hname, hcode⟩⟩
    change { e with aliasOf := (inferredEntry _ e.listed).aliasOf } = e
    rw [halias]

/-- Behind accepted declarations, what is inferred fits only where it is what was declared. -/
theorem inferredEntry_eq_of_fits (h : Accepted width declarations) {e : Entry}
    (hfits : Fits width declarations e) {width' : CodeWidth}
    (hfits' : Fits width' declarations
      (inferredEntry (declarations.map Entry.listed) e.listed)) :
    inferredEntry (declarations.map Entry.listed) e.listed = e := by
  cases hdeclared : e.aliasOf with
  | none =>
      refine (h.inferredEntry_eq_iff hfits).mpr ?_
      intro canonical hcanonical
      rw [hdeclared] at hcanonical
      exact absurd hcanonical (by simp)
  | some canonical =>
      rcases hfits.target canonical hdeclared with ⟨d, hd, hname, hcanonical, hcode⟩
      cases hinferred : (inferredEntry (declarations.map Entry.listed) e.listed).aliasOf with
      | none => exact absurd hcode (hfits'.new_owner hinferred d hd hcanonical)
      | some base =>
          rcases hfits'.target base hinferred with ⟨d', hd', hname', hcanonical', hcode'⟩
          -- the inferred base and the declared canonical mnemonic own the same code
          have howner : d' = d := h.owner_unique hd' hd hcanonical' hcanonical
            (hcode'.trans hcode.symm)
          have hbase : base = canonical := by
            rw [← hname', ← hname, howner]
          refine (h.inferredEntry_eq_iff hfits).mpr ?_
          intro canonical' hcanonical'
          rw [hdeclared] at hcanonical'
          rw [← Option.some.inj hcanonical', ← hbase]
          exact (aliasOf_inferredEntry_eq_some_iff.mp hinferred).1

/-- An accepted list is inferred if and only if each alias adds `_0` to its canonical mnemonic. -/
theorem inferred_eq_iff (h : Accepted width declarations) :
    inferred (declarations.map Entry.listed) = declarations ↔
      ∀ e ∈ declarations, ∀ canonical ∈ e.aliasOf, e.mnemonic = canonical ++ familySuffix := by
  -- an entry is inferred from those in front of it, so the list is taken apart from its end
  induction h with
  | nil =>
      constructor
      · intro _ e he
        exact absurd he List.not_mem_nil
      · intro _
        rfl
  | @snoc declarations e h hfits ih =>
      rw [List.map_append, List.map_singleton, inferred_concat]
      constructor
      · intro heq d hd
        -- both sides end in one entry, so fronts and ends can be compared
        rcases List.append_inj' heq rfl with ⟨hinit, hlast⟩
        rcases List.mem_append.mp hd with hd | hd
        · exact ih.mp hinit d hd
        · rw [List.mem_singleton.mp hd]
          exact (h.inferredEntry_eq_iff hfits).mp (List.cons.inj hlast).1
      · intro hsuffix
        have hinit := ih.mpr fun d hd => hsuffix d (List.mem_append_left _ hd)
        have hlast := (h.inferredEntry_eq_iff hfits).mpr
          (hsuffix e (List.mem_append_right _ (List.mem_singleton_self e)))
        rw [hinit, hlast]

/-- Accepted declarations stay accepted in every width that has their codes. -/
theorem of_code_mem (h : Accepted width declarations) {width' : CodeWidth}
    (hcodes : ∀ e ∈ declarations, e.code ∈ width') : Accepted width' declarations := by
  induction h with
  | nil => exact nil
  | @snoc declarations e h hfits ih =>
      have hinit := ih fun d hd => hcodes d (List.mem_append_left _ hd)
      have hcode := hcodes e (List.mem_append_right _ (List.mem_singleton_self e))
      exact snoc hinit { hfits with code_mem := hcode }

/-- What is inferred from an accepted list is accepted, in any width, only if it is that list. -/
theorem accepted_inferred_iff (h : Accepted width declarations) {width' : CodeWidth} :
    Accepted width' (inferred (declarations.map Entry.listed)) ↔
      (∀ e ∈ declarations, e.code ∈ width') ∧
        inferred (declarations.map Entry.listed) = declarations := by
  constructor
  · intro haccepted
    have heq : inferred (declarations.map Entry.listed) = declarations := by
      induction h with
      | nil => rfl
      | @snoc declarations e h hfits ih =>
          rw [List.map_append, List.map_singleton, inferred_concat] at haccepted ⊢
          rcases concat_iff.mp haccepted with ⟨hinit, hlast⟩
          -- the list so far is inferred right, so the last declaration is held against it
          have hinit' := ih hinit
          rw [hinit'] at hlast ⊢
          rw [h.inferredEntry_eq_of_fits hfits hlast]
    rw [heq] at haccepted
    exact ⟨haccepted.code_mem, heq⟩
  · rintro ⟨hcodes, heq⟩
    rw [heq]
    exact h.of_code_mem hcodes

end Accepted

end OpcodeRegistry
