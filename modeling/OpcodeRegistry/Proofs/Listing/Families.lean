import OpcodeRegistry.Proofs.Listing.Inference
import OpcodeRegistry.Proofs.Table.Offence
import OpcodeRegistry.Proofs.Table.Order

/-! # Names that share a code

When do names and codes alone make a table? `MayShare` says which names one code may have: a single
one, or a name and behind it the same name with `_0`. Where no name comes twice, the inferred
declarations are accepted if and only if names and codes are in order and every code has names that
may share it: `accepted_inferred_iff_mayShare`. Where they are refused, the inference is not to
blame: what it calls an alias always names something declared before, with the same code.
-/

namespace OpcodeRegistry

namespace Listing

/-- The names that may have one code, in order. -/
inductive MayShare : List String → Prop where
  | nobody : MayShare []
  | alone (name : String) : MayShare [name]
  | family (base : String) : MayShare [base, base ++ familySuffix]

/-- The names that have a code, in order. -/
def namesOf (entries : List (String × Code)) (c : Code) : List String :=
  (entries.filter (·.2 = c)).map Prod.fst

theorem namesOf_map_listed (declarations : List Entry) (c : Code) :
    namesOf (declarations.map Entry.listed) c =
      (declarations.filter (·.code = c)).map Entry.mnemonic := by
  unfold namesOf
  rw [List.filter_map, List.map_map]
  rfl

theorem namesOf_split (before after : List Entry) (e : Entry) :
    namesOf ((before ++ e :: after).map Entry.listed) e.code =
      (before.filter (·.code = e.code)).map Entry.mnemonic ++
        e.mnemonic :: (after.filter (·.code = e.code)).map Entry.mnemonic := by
  rw [namesOf_map_listed, List.filter_append, List.filter_cons_of_pos (by simp), List.map_append,
    List.map_cons]

/-! ## Inferred declarations -/

theorem map_listed_inferredFrom (before entries : List (String × Code)) :
    (inferredFrom before entries).map Entry.listed = entries := by
  induction entries generalizing before with
  | nil => rfl
  | cons entry entries ih =>
      rw [inferredFrom, List.map_cons, ih]
      rfl

/-- The declarations are what their names and codes let infer. -/
def IsInferred (declarations : List Entry) : Prop :=
  inferred (declarations.map Entry.listed) = declarations

theorem map_mnemonic_inferred (entries : List (String × Code)) :
    (inferred entries).map Entry.mnemonic = entries.map Prod.fst := by
  have hlisted := congrArg (List.map Prod.fst) (map_listed_inferredFrom [] entries)
  rw [List.map_map] at hlisted
  exact hlisted

theorem isInferred_inferred (entries : List (String × Code)) : IsInferred (inferred entries) := by
  unfold IsInferred inferred
  rw [map_listed_inferredFrom]

/-- An inferred declaration is an alias of a name if and only if it adds `_0` to that name and the
name stands before it with the same code. -/
theorem IsInferred.aliasOf_eq_some_iff {before after : List Entry} {e : Entry}
    (h : IsInferred (before ++ e :: after)) {base : String} :
    e.aliasOf = some base ↔
      e.mnemonic = base ++ familySuffix ∧ ∃ d ∈ before, d.mnemonic = base ∧ d.code = e.code := by
  unfold IsInferred inferred at h
  rw [List.map_append, List.map_cons, inferredFrom_append, List.nil_append, inferredFrom] at h
  -- the two lists split at the same place, so the declaration there is the inferred one
  have hlength : (inferredFrom [] (before.map Entry.listed)).length = before.length := by
    rw [← List.length_map Entry.listed, map_listed_inferredFrom, List.length_map]
  have he : inferredEntry (before.map Entry.listed) e.listed = e :=
    (List.cons.inj (List.append_inj h hlength).2).1
  rw [← Entry.mem_map_listed_iff]
  constructor
  · intro hbase
    rw [← he] at hbase
    exact aliasOf_inferredEntry_eq_some_iff.mp hbase
  · intro hbase
    rw [← he]
    exact aliasOf_inferredEntry_eq_some_iff.mpr hbase

/-! ## Two of one code -/

/-- Where something of the same code stands before a declaration, the two are a name and its `_0`,
and nothing else before it has the code. -/
theorem MayShare.of_mem_before {before after : List Entry} {d e : Entry}
    (h : MayShare (namesOf ((before ++ e :: after).map Entry.listed) e.code)) (hd : d ∈ before)
    (hcode : d.code = e.code) :
    before.filter (·.code = e.code) = [d] ∧ e.mnemonic = d.mnemonic ++ familySuffix := by
  have hmem : d ∈ before.filter (·.code = e.code) :=
    List.mem_filter.mpr ⟨hd, decide_eq_true hcode⟩
  -- two names share the code at least, so they are a family, with one name in front
  rw [namesOf_split] at h
  generalize hnames : (before.filter (·.code = e.code)).map Entry.mnemonic ++
    e.mnemonic :: (after.filter (·.code = e.code)).map Entry.mnemonic = names at h
  cases hbefore : before.filter (·.code = e.code) with
  | nil =>
      rw [hbefore] at hmem
      exact absurd hmem List.not_mem_nil
  | cons first more =>
      rw [hbefore, List.map_cons, List.cons_append] at hnames
      cases h with
      | nobody => exact absurd hnames (by simp)
      | alone name => exact absurd hnames (by simp)
      | family base =>
          cases more with
          | nil =>
              rw [hbefore] at hmem
              obtain rfl := List.mem_singleton.mp hmem
              rw [List.map_nil, List.nil_append, List.cons.injEq, List.cons.injEq] at hnames
              exact ⟨rfl, by rw [hnames.1, hnames.2.1]⟩
          | cons second more => exact absurd hnames (by simp)

/-- What stands first of its code is canonical. -/
theorem IsInferred.aliasOf_eq_none {before after : List Entry} {d : Entry}
    (h : IsInferred (before ++ d :: after)) (hfirst : before.filter (·.code = d.code) = []) :
    d.aliasOf = none := by
  rw [Option.eq_none_iff_forall_ne_some]
  intro base hbase
  rcases h.aliasOf_eq_some_iff.mp hbase with ⟨-, d', hd', -, hcode⟩
  have hmem : d' ∈ before.filter (·.code = d.code) :=
    List.mem_filter.mpr ⟨hd', decide_eq_true hcode⟩
  rw [hfirst] at hmem
  exact List.not_mem_nil hmem

/-! ## Accepted families -/

/-- The declarations of one code where every alias adds `_0`. -/
inductive IsPair : List Entry → Prop where
  | nobody : IsPair []
  | alone {owner : Entry} (howner : owner.aliasOf = none) : IsPair [owner]
  | family {owner member : Entry} (howner : owner.aliasOf = none)
      (hmember : member.aliasOf = some owner.mnemonic)
      (hname : member.mnemonic = owner.mnemonic ++ familySuffix) : IsPair [owner, member]

theorem IsPair.mayShare {declarations : List Entry} (h : IsPair declarations) :
    MayShare (declarations.map Entry.mnemonic) := by
  cases h with
  | nobody => exact .nobody
  | alone _ => exact .alone _
  | family _ _ hname =>
      rw [List.map_cons, List.map_singleton, hname]
      exact .family _

/-- In a pair the second one is the alias of the first one, and nothing else is an alias. -/
theorem IsPair.aliasOf_eq_some_iff {declarations : List Entry} (h : IsPair declarations) {e : Entry}
    (he : e ∈ declarations) {base : String} :
    e.aliasOf = some base ↔
      declarations.map Entry.mnemonic = [base, base ++ familySuffix] ∧
        e.mnemonic = base ++ familySuffix := by
  cases h with
  | nobody => exact absurd he List.not_mem_nil
  | alone howner =>
      rw [List.mem_singleton.mp he, howner]
      simp
  | @family owner member howner hmember hname =>
      -- no name is its own `_0`
      have hne : ∀ s : String, s ≠ s ++ familySuffix := by
        intro s hs
        have hlength := congrArg String.length hs
        rw [String.length_append] at hlength
        have hsuffix : familySuffix.length = 2 := by decide
        omega
      rw [List.map_cons, List.map_singleton, List.cons.injEq, List.cons.injEq]
      rcases List.mem_cons.mp he with rfl | he
      · rw [howner]
        constructor
        · intro hnone
          exact absurd hnone (by simp)
        · rintro ⟨⟨hbase, -⟩, hsuffixed⟩
          exact absurd (hbase.symm.trans hsuffixed) (hne base)
      · rw [List.mem_singleton.mp he, hmember, Option.some.injEq]
        constructor
        · rintro rfl
          exact ⟨⟨rfl, hname, rfl⟩, hname⟩
        · rintro ⟨⟨hbase, -⟩, -⟩
          exact hbase

end Listing

namespace Accepted

open Listing

variable {width : CodeWidth} {declarations : List Entry}

/-- In accepted declarations that are inferred, those of one code are a pair. Two aliases of one
canonical mnemonic would have one name. -/
theorem isPair_filter (h : Accepted width declarations) (hinferred : IsInferred declarations)
    (c : Code) : IsPair (declarations.filter (·.code = c)) := by
  have hsuffix := h.inferred_eq_iff.mp hinferred
  have hnodup : ((declarations.filter (·.code = c)).map Entry.mnemonic).Nodup :=
    h.nodup_names.sublist (List.filter_sublist.map Entry.mnemonic)
  have hmem : ∀ e ∈ declarations.filter (·.code = c), e ∈ declarations :=
    fun e he => (List.mem_filter.mp he).1
  by_cases hempty : declarations.filter (·.code = c) = []
  · rw [hempty]
    exact .nobody
  · have hfamily := h.isFamily_filter hempty
    generalize declarations.filter (·.code = c) = family at hnodup hmem hfamily
    match family, hfamily with
    | [owner], hfamily => exact .alone hfamily.1
    | [owner, member], hfamily =>
        have halias := hfamily.2 member (by simp)
        exact .family hfamily.1 halias (hsuffix member (hmem member (by simp)) _ halias)
    | owner :: member :: other :: rest, hfamily =>
        -- both aliases add `_0` to the name of the owner
        have hname : ∀ e ∈ member :: other :: rest, e.mnemonic = owner.mnemonic ++ familySuffix :=
          fun e he => hsuffix e (hmem e (List.mem_cons_of_mem _ he)) _ (hfamily.2 e he)
        have hsame : member.mnemonic = other.mnemonic :=
          (hname member (by simp)).trans (hname other (by simp)).symm
        simp [hsame] at hnodup

/-- Inferred declarations are accepted if names and codes are in order, no name comes twice, and
every code has names that may share it. -/
theorem of_mayShare (hinferred : IsInferred declarations)
    (hnodup : (declarations.map Entry.mnemonic).Nodup)
    (hnames : ∀ e ∈ declarations, IsMnemonic e.mnemonic)
    (hcodes : ∀ e ∈ declarations, e.code ∈ width)
    (hshare : ∀ c, MayShare (namesOf (declarations.map Entry.listed) c)) :
    Accepted width declarations := by
  rw [iff_forall_split]
  rintro before e after rfl
  have he : e ∈ before ++ e :: after := by simp
  have hone : ∀ d ∈ before, d.code = e.code →
      before.filter (·.code = e.code) = [d] ∧ e.mnemonic = d.mnemonic ++ familySuffix :=
    fun d hd hcode => (hshare e.code).of_mem_before hd hcode
  refine { isMnemonic := hnames e he, code_mem := hcodes e he, new_name := ?_, new_owner := ?_,
           target := ?_ }
  · intro d hd
    rw [List.map_append, List.nodup_append] at hnodup
    exact hnodup.2.2 _ (List.mem_map_of_mem hd) _ (by simp)
  · -- what shares the code with something before it is inferred to be its alias
    intro hcanonical d hd _ hcode
    have halias := hinferred.aliasOf_eq_some_iff.mpr ⟨(hone d hd hcode).2, d, hd, rfl, hcode⟩
    rw [hcanonical] at halias
    exact absurd halias (by simp)
  · intro base hbase
    rcases hinferred.aliasOf_eq_some_iff.mp hbase with ⟨-, d, hd, hname, hcode⟩
    refine ⟨d, hd, hname, ?_, hcode⟩
    -- nothing of the code stands before the named one
    have hfilter := (hone d hd hcode).1
    rcases List.append_of_mem hd with ⟨front, back, rfl⟩
    rw [List.filter_append, List.filter_cons_of_pos (by simpa using hcode)] at hfilter
    rw [List.append_assoc, List.cons_append] at hinferred
    apply hinferred.aliasOf_eq_none
    rw [hcode]
    cases hfront : front.filter (·.code = e.code) with
    | nil => rfl
    | cons first more =>
        rw [hfront] at hfilter
        exact absurd hfilter (by simp)

/-- Where no name comes twice, inferred declarations are accepted if and only if names and codes are
in order and every code has names that may share it. -/
theorem accepted_inferred_iff_mayShare {entries : List (String × Code)}
    (hnodup : (entries.map Prod.fst).Nodup) :
    Accepted width (inferred entries) ↔
      (∀ entry ∈ entries, IsMnemonic entry.1) ∧ (∀ entry ∈ entries, entry.2 ∈ width) ∧
        ∀ c, MayShare (namesOf entries c) := by
  have hlisted : (inferred entries).map Entry.listed = entries := map_listed_inferredFrom [] entries
  -- inferring changes neither names nor codes
  have hforall : ∀ P : String × Code → Prop,
      (∀ e ∈ inferred entries, P e.listed) ↔ ∀ entry ∈ entries, P entry := by
    intro P
    rw [← List.forall_mem_map, hlisted]
  constructor
  · intro h
    refine ⟨(hforall (IsMnemonic ·.1)).mp h.isMnemonic, (hforall (·.2 ∈ width)).mp h.code_mem, ?_⟩
    intro c
    -- accepted entries of one code are a canonical one and its alias at most
    have hpair := (h.isPair_filter (isInferred_inferred entries) c).mayShare
    rw [← namesOf_map_listed, hlisted] at hpair
    exact hpair
  · rintro ⟨hnames, hcodes, hshare⟩
    apply of_mayShare (isInferred_inferred entries)
    · rw [map_mnemonic_inferred]
      exact hnodup
    · exact (hforall (IsMnemonic ·.1)).mpr hnames
    · exact (hforall (·.2 ∈ width)).mpr hcodes
    · rw [hlisted]
      exact hshare

end Accepted

/-! ## Refused families -/

/-- The errors that inferred declarations of different names can run into. -/
def TableError.OfNames : TableError → Prop
  | duplicateMnemonic .. | unknownCanonical .. | aliasCodeMismatch .. => False
  | _ => True

open Listing in
/-- Inferred declarations of different names are refused for a name, a code, a second owner or an
alias of an alias, and for nothing else. -/
theorem Table.ofNames_of_build {width : CodeWidth} {declarations : List Entry} {error : TableError}
    (hinferred : IsInferred declarations) (hnodup : (declarations.map Entry.mnemonic).Nodup)
    (h : build width declarations = .error error) : error.OfNames := by
  rcases build_eq_error_iff.mp h with ⟨before, e, after, rfl, haccepted, hoffence⟩
  have hnew : ∀ d ∈ before, d.mnemonic ≠ e.mnemonic := by
    intro d hd
    rw [List.map_append, List.nodup_append] at hnodup
    exact hnodup.2.2 _ (List.mem_map_of_mem hd) _ (by simp)
  -- the three rules that are left out cannot be broken, since an alias is only inferred where its
  -- canonical mnemonic was seen with the same code
  cases hoffence.breaks with
  | duplicateMnemonic hd hname => exact hnew _ hd hname
  | unknownCanonical halias hunknown =>
      rcases hinferred.aliasOf_eq_some_iff.mp halias with ⟨-, d, hd, hname, -⟩
      exact hunknown d hd hname
  | aliasCodeMismatch halias hd hname hcode =>
      rcases hinferred.aliasOf_eq_some_iff.mp halias with ⟨-, d', hd', hname', hcode'⟩
      have hsame := haccepted.distinct_names.eq_of_mem hd hd' (congrArg some hname)
        (congrArg some hname')
      rw [hsame] at hcode
      exact hcode hcode'
  | _ => trivial

end OpcodeRegistry
