import OpcodeRegistry.Extraction.Table
import OpcodeRegistry.Proofs.Comparison
import OpcodeRegistry.Proofs.Extraction.Mnemonic
import OpcodeRegistry.Proofs.Listing.RoundTrip

/-! # Two ways from an extraction to a table

An extraction becomes a table directly, or by printing its listing and loading that. The codes of an
extraction ascend strictly, so no name of a listing shares its code and nothing is inferred to be an
alias. Both ways therefore declare the same, and they differ only where a mnemonic has two codes:
its listing is no document, and its declarations are no table.
-/

namespace OpcodeRegistry

/-- Where every code has one name, nothing is inferred to be an alias. -/
theorem Listing.inferredFrom_eq_map {before entries : List (String × Code)}
    (h : (before ++ entries).Pairwise fun p q => p.2 < q.2) :
    inferredFrom before entries = entries.map fun p => { mnemonic := p.1, code := p.2 } := by
  induction entries generalizing before with
  | nil => rfl
  | cons entry entries ih =>
      -- whatever stands before the entry has a smaller code
      have hcanonical : (inferredEntry before entry).aliasOf = none := by
        rw [Option.eq_none_iff_forall_ne_some]
        intro base hbase
        have hmem := (aliasOf_inferredEntry_eq_some_iff.mp hbase).2
        have hlt : entry.2 < entry.2 :=
          (List.pairwise_append.mp h).2.2 (base, entry.2) hmem entry List.mem_cons_self
        exact UInt32.lt_irrefl _ hlt
      have hentry : inferredEntry before entry = { mnemonic := entry.1, code := entry.2 } := by
        change Entry.mk entry.1 entry.2 (inferredEntry before entry).aliasOf = _
        rw [hcanonical]
      rw [List.append_cons] at h
      rw [inferredFrom, hentry, ih h, List.map_cons]

namespace Extraction

variable {policy : RedefinitionPolicy} {source : ByteArray} {x x' : Extraction} {width : CodeWidth}
  {t : Table}

/-! ## The declarations -/

theorem inferred_entries (hx : x.entries.Pairwise fun p q => p.2 < q.2) :
    Listing.inferred x.entries = x.declarations := by
  unfold Listing.inferred
  rw [Listing.inferredFrom_eq_map hx, declarations_eq_map_entries]

theorem map_listed_declarations (x : Extraction) :
    x.declarations.map Entry.listed = x.entries := by
  unfold declarations entries
  rw [List.map_map]
  rfl

/-! ## The table -/

/-- The declarations stand as in the table, since they ascend already. -/
theorem toList_of_toTable (hx : x.entries.Pairwise fun p q => p.2 < q.2)
    (h : x.toTable width = .ok t) : t.toList = x.declarations := by
  apply Table.toList_of_build_of_pairwise h
  rw [← map_listed_declarations, List.pairwise_map] at hx
  exact hx.imp fun hlt => UInt32.le_of_lt hlt

theorem toListing_of_toTable (hx : x.entries.Pairwise fun p q => p.2 < q.2)
    (h : x.toTable width = .ok t) (align : Bool) : t.toListing align = x.render .plain align := by
  unfold Table.toListing render
  rw [toList_of_toTable hx h, ← map_listed_declarations]
  rfl

/-- A table is compared with the entries alone. -/
theorem differences_eq_of_entries_eq (h : x'.entries = x.entries) (t : Table) :
    t.differences x' = t.differences x := by
  have hmnemonics : x'.mnemonics = x.mnemonics := by
    unfold mnemonics
    rw [h]
  unfold Table.differences
  rw [hmnemonics]

theorem differences_of_toTable (hx : x.entries.Pairwise fun p q => p.2 < q.2)
    (h : x.toTable width = .ok t) : t.differences x = [] := by
  rw [Table.differences_eq_nil_iff h hx]
  -- no entry is an alias, so none is left out of the comparison
  have hcanonical : t.canonicalEntries = x.declarations := by
    unfold Table.canonicalEntries
    rw [toList_of_toTable hx h, List.filter_eq_self]
    intro e he
    simp [Entry.isAlias, aliasOf_of_mem_declarations he]
  rw [hcanonical]
  exact map_listed_declarations x

/-- Where a table is made of an extraction, no mnemonic has two codes. -/
theorem nodup_of_toTable (h : x.toTable width = .ok t) : (x.entries.map Prod.fst).Nodup := by
  have hnames := (Table.build_eq_ok_iff.mp h).1.nodup_names
  rw [← map_listed_declarations, List.map_map]
  exact hnames

/-! ## The listing -/

/-- Where no mnemonic has two codes, loading the listing comes to the same as taking the table. -/
theorem ofListing_render (h : (ofSource policy source).value = .ok x)
    (hnodup : (x.entries.map Prod.fst).Nodup) (width : CodeWidth) (align : Bool) :
    Table.ofListing (x.render .plain align) width = (x.toTable width).mapError .table := by
  have hdocument := (Listing.ofText?_render (isBareKey_of_mem_entries h) align).mpr ⟨hnodup, rfl⟩
  unfold render toTable
  rw [Table.ofListing_of_fields hdocument, inferred_entries (pairwise_entries h)]

/-- Where some mnemonic has two codes, the listing is no document. -/
theorem ofListing_render_of_not_nodup (h : (ofSource policy source).value = .ok x)
    (hdup : ¬ (x.entries.map Prod.fst).Nodup) (width : CodeWidth) (align : Bool) :
    Table.ofListing (x.render .plain align) width = .error .malformed := by
  have hnone : Toml.Document.ofText? (x.render .plain align) = none := by
    rw [Option.eq_none_iff_forall_ne_some]
    intro fields hfields
    exact hdup ((Listing.ofText?_render (isBareKey_of_mem_entries h) align).mp hfields).1
  unfold Table.ofListing
  rw [hnone]

/-- The two ways come to the same table or not at all. -/
theorem toTable_of_ofListing (h : (ofSource policy source).value = .ok x) {align : Bool}
    (hok : Table.ofListing (x.render .plain align) width = .ok t) : x.toTable width = .ok t := by
  by_cases hnodup : (x.entries.map Prod.fst).Nodup
  · rw [ofListing_render h hnodup] at hok
    exact Table.mapError_eq_ok_iff.mp hok
  · rw [ofListing_render_of_not_nodup h hnodup] at hok
    exact absurd hok (by simp)

/-- Whether an extraction is taken as a table or its listing is loaded, the table and the error are
the same, unless a mnemonic has two codes: then both fail. A table that comes of it prints that very
listing and does not differ from the extraction. -/
theorem ofListing_render_agrees (h : (ofSource policy source).value = .ok x) (width : CodeWidth)
    (align : Bool) :
    ((x.definitions.map Definition.mnemonic).Nodup →
      (∃ t, x.toTable width = .ok t ∧ Table.ofListing (x.render .plain align) width = .ok t ∧
        ∀ e ∈ t.toList, e.aliasOf = none) ∨
      ∃ error, x.toTable width = .error error ∧
        Table.ofListing (x.render .plain align) width = .error (.table error)) ∧
    ((∃ d ∈ x.definitions, ∃ e ∈ x.definitions, d.mnemonic = e.mnemonic ∧ d.code ≠ e.code) →
      Table.ofListing (x.render .plain align) width = .error .malformed ∧
      ∃ error, x.toTable width = .error error) ∧
    ∀ t, x.toTable width = .ok t ∨ Table.ofListing (x.render .plain align) width = .ok t →
      t.toListing align = x.render .plain align ∧ t.differences x = [] := by
  have hx := pairwise_entries h
  have hnames : x.entries.map Prod.fst = x.definitions.map Definition.mnemonic := by
    unfold entries
    rw [List.map_map]
    rfl
  refine ⟨?_, ?_, ?_⟩
  · intro hnodup
    rw [← hnames] at hnodup
    rw [ofListing_render h hnodup]
    cases htable : x.toTable width with
    | ok t =>
        left
        refine ⟨t, rfl, rfl, ?_⟩
        intro e he
        rw [toList_of_toTable hx htable] at he
        exact aliasOf_of_mem_declarations he
    | error error => exact Or.inr ⟨error, rfl, rfl⟩
  · rintro ⟨d, hd, e, he, hname, hcode⟩
    -- two codes make two definitions, and these have one name
    have hdup : ¬ (x.entries.map Prod.fst).Nodup := by
      rw [hnames]
      intro hnodup
      exact hcode (congrArg Definition.code (List.inj_on_of_nodup_map hnodup hd he hname))
    refine ⟨ofListing_render_of_not_nodup h hdup width align, ?_⟩
    cases htable : x.toTable width with
    | ok t => exact absurd (nodup_of_toTable htable) hdup
    | error error => exact ⟨error, rfl⟩
  · intro t ht
    have htable : x.toTable width = .ok t := by
      rcases ht with htable | hlisting
      · exact htable
      · exact toTable_of_ofListing h hlisting
    exact ⟨toListing_of_toTable hx htable align, differences_of_toTable hx htable⟩

/-- A name and its `_0` under two codes are two canonical mnemonics either way. -/
theorem ofListing_render_agrees_two_labels :
    let source := "opname(2) -> {label_0,1};\nopname(1) -> {label,1};\n".toUTF8
    ∃ x t, (ofSource .reject source).value = .ok x ∧ x.toTable .byte = .ok t ∧
      Table.ofListing (x.render .plain true) .byte = .ok t ∧ t.toListing true = x.render .plain true ∧
      t.differences x = [] := by
  intro source
  have hx : (ofSource .reject source).value = .ok
      ⟨[⟨2, "opname(1) -> {label,1};", 1, "LABEL"⟩, ⟨1, "opname(2) -> {label_0,1};", 2, "LABEL_0"⟩],
        2, 0, []⟩ := rfl
  have haccepted : Accepted .byte [⟨"LABEL", 1, none⟩, ⟨"LABEL_0", 2, none⟩] := by decide
  rcases ofListing_render_agrees hx .byte true with ⟨hboth, -, htable⟩
  rcases hboth (by decide) with ⟨t, ht, hlisting, -⟩ | ⟨error, herror, -⟩
  · exact ⟨_, t, hx, ht, hlisting, htable t (Or.inl ht)⟩
  · -- the declarations are accepted, so there is no error
    have hok := Table.build_eq_ok_iff.mpr ⟨haccepted, rfl⟩
    exact absurd (herror.symm.trans hok) (by simp)

end Extraction

end OpcodeRegistry
