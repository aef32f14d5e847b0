import OpcodeRegistry.Proofs.Listing.Inference
import OpcodeRegistry.Proofs.Table.Contract
import OpcodeRegistry.Proofs.Toml.DistinctKeys

/-! # Reloading a table

The plain listing of a table is loaded again with any width. What the text leaves out is what
decides: `Table.ofListing_toListing` says for which tables the inference of aliases and the new
width give the table back, and that for all others the load fails.
-/

namespace OpcodeRegistry

namespace Table

variable {width : CodeWidth} {declarations : List Entry} {t : Table}

/-! ## The declarations of a listing -/

theorem mapError_eq_ok_iff {ε ε' α : Type} {f : ε → ε'} {x : Except ε α} {a : α} :
    x.mapError f = .ok a ↔ x = .ok a := by
  cases x with
  | error e => simp [Except.mapError]
  | ok b => simp [Except.mapError]

theorem mapError_eq_error_iff {ε ε' α : Type} {f : ε → ε'} {x : Except ε α} {e' : ε'} :
    x.mapError f = .error e' ↔ ∃ e, x = .error e ∧ e' = f e := by
  cases x with
  | error e => simp [Except.mapError, eq_comm]
  | ok a => simp [Except.mapError]

theorem ofListing_of_ofText? {text : String} {document : List (String × Toml.Value)}
    (h : Toml.Document.ofText? text = some document) (width : CodeWidth) :
    ofListing text width = ofDocument document width := by
  unfold ofListing
  rw [h]

/-- A table that is loaded is built of declarations. -/
theorem exists_build_of_ofListing {text : String} {width : CodeWidth}
    (h : ofListing text width = .ok t) : ∃ declarations, build width declarations = .ok t := by
  unfold ofListing at h
  cases hdocument : Toml.Document.ofText? text with
  | none =>
      rw [hdocument] at h
      exact absurd h (by simp)
  | some document =>
      simp only [hdocument] at h
      unfold ofDocument at h
      cases hdeclarations : Listing.declarations? ∅ document with
      | error error =>
          rw [hdeclarations] at h
          exact absurd h (by simp [bind, Except.bind])
      | ok declarations =>
          rw [hdeclarations] at h
          exact ⟨declarations, mapError_eq_ok_iff.mp h⟩

theorem nodup_of_fields {text : String} {entries : List (String × Code)}
    (h : Toml.Document.ofText? text = some (entries.map Listing.field)) :
    (entries.map Prod.fst).Nodup := by
  have hkeys := Toml.Document.nodup_of_ofText? h
  rw [List.map_map] at hkeys
  exact hkeys

/-- A document of names and codes declares what they let infer. -/
theorem ofListing_of_fields {text : String} {entries : List (String × Code)}
    (h : Toml.Document.ofText? text = some (entries.map Listing.field)) (width : CodeWidth) :
    ofListing text width = (build width (Listing.inferred entries)).mapError .table := by
  have hdeclarations : Listing.declarations? ∅ (entries.map Listing.field) =
      .ok (Listing.inferred entries) :=
    Listing.declarations?_map_field (fun name c => by simp) (nodup_of_fields h)
  rw [ofListing_of_ofText? h]
  unfold ofDocument
  rw [hdeclarations]
  rfl

/-- The listing of a table declares what its names and codes let infer, aligned or not. -/
theorem ofListing_toListing_eq (h : build width declarations = .ok t) (align : Bool)
    (width' : CodeWidth) :
    ofListing (t.toListing align) width' =
      (build width' (Listing.inferred (t.toList.map Entry.listed))).mapError .table := by
  have haccepted := accepted_toList h
  have hbare : ∀ e ∈ t.toList.map Entry.listed, Toml.IsBareKey e.1 := by
    intro e he
    rcases List.mem_map.mp he with ⟨d, hd, rfl⟩
    exact Listing.isBareKey_of_isMnemonic (haccepted.isMnemonic d hd)
  have hnodup : ((t.toList.map Entry.listed).map Prod.fst).Nodup := by
    rw [List.map_map]
    exact haccepted.nodup_names
  -- the text is a document of the names and codes, since no name comes twice
  exact ofListing_of_fields ((Listing.ofText?_render hbare align).mpr ⟨hnodup, rfl⟩) width'

/-! ## The table of a listing -/

/-- The entries of a table describe it in every width that has its codes. -/
theorem ofEntries_toList (h : build width declarations = .ok t) (width' : CodeWidth) :
    ofEntries width' t.toList = { t with width := width' } := by
  have hlist : t.toList = sorted declarations := toList_of_build h
  rcases build_eq_ok_iff.mp h with ⟨-, rfl⟩
  rw [hlist, ofEntries_sorted]
  rfl

/-- A table comes back with nothing but its width changed, or not at all. -/
theorem ofListing_toListing_eq_ok_iff (h : build width declarations = .ok t) {align : Bool}
    {width' : CodeWidth} {t' : Table} :
    ofListing (t.toListing align) width' = .ok t' ↔
      ((∀ e ∈ t.toList, e.code ∈ width') ∧ ∀ e ∈ t.toList, ∀ canonical ∈ e.aliasOf,
        e.mnemonic = canonical ++ "_0") ∧ t' = { t with width := width' } := by
  have haccepted := accepted_toList h
  rw [ofListing_toListing_eq h, mapError_eq_ok_iff, build_eq_ok_iff,
    haccepted.accepted_inferred_iff]
  constructor
  · rintro ⟨⟨hcodes, hinferred⟩, rfl⟩
    -- the inferred declarations are the entries, which stand in order already
    rw [hinferred, ofEntries_toList h]
    exact ⟨⟨hcodes, haccepted.inferred_eq_iff.mp hinferred⟩, rfl⟩
  · rintro ⟨⟨hcodes, hsuffix⟩, rfl⟩
    have hinferred := haccepted.inferred_eq_iff.mpr hsuffix
    rw [hinferred, ofEntries_toList h]
    exact ⟨⟨hcodes, rfl⟩, rfl⟩

/-! ## The round trip -/

/-- Two tables hold the same entries in the same order and answer all questions alike. -/
structure Agree (t t' : Table) : Prop where
  toList : t'.toList = t.toList
  get : ∀ name, t'.get? name = t.get? name
  codeOf : ∀ name, t'.codeOf? name = t.codeOf? name
  canonicalOf : ∀ name, t'.canonicalOf? name = t.canonicalOf? name
  mnemonicOf : ∀ c, t'.mnemonicOf? c = t.mnemonicOf? c
  containsCode : ∀ c, t'.containsCode c = t.containsCode c

/-- No answer depends on the width. -/
theorem agree_width (t : Table) (width' : CodeWidth) : Agree t { t with width := width' } where
  toList := rfl
  get := fun _ => rfl
  codeOf := fun _ => rfl
  canonicalOf := fun _ => rfl
  mnemonicOf := fun _ => rfl
  containsCode := fun _ => rfl

/-- A table is reloaded from its listing if and only if its codes fit the new width and each of its
aliases adds `_0` to its canonical mnemonic, and then it is the same table in the new width. -/
theorem ofListing_toListing (h : build width declarations = .ok t) (align : Bool)
    (width' : CodeWidth) :
    ((∃ t', ofListing (t.toListing align) width' = .ok t') ↔
      (∀ e ∈ t.toList, e.code ∈ width') ∧ ∀ e ∈ t.toList, ∀ canonical ∈ e.aliasOf,
        e.mnemonic = canonical ++ "_0") ∧
    ∀ t', ofListing (t.toListing align) width' = .ok t' → t'.width = width' ∧ Agree t t' := by
  constructor
  · constructor
    · rintro ⟨t', ht'⟩
      exact ((ofListing_toListing_eq_ok_iff h).mp ht').1
    · intro hdomain
      exact ⟨_, (ofListing_toListing_eq_ok_iff h).mpr ⟨hdomain, rfl⟩⟩
  · intro t' ht'
    have heq := ((ofListing_toListing_eq_ok_iff h).mp ht').2
    rw [heq]
    exact ⟨rfl, agree_width t width'⟩

/-- The listing of a family of one name and its `_0` comes back, in the width it was made for. -/
theorem ofListing_toListing_slice_family :
    ∃ t, build .byte [⟨"SLICE", 5, none⟩, ⟨"HALT", 1, none⟩, ⟨"SLICE_0", 5, some "SLICE"⟩] = .ok t ∧
      ∃ t', ofListing (t.toListing true) .byte = .ok t' ∧ t'.width = .byte ∧ Agree t t' := by
  have hbuild := build_eq_ok_iff.mpr ⟨(by decide : Accepted .byte
    [⟨"SLICE", 5, none⟩, ⟨"HALT", 1, none⟩, ⟨"SLICE_0", 5, some "SLICE"⟩]), rfl⟩
  have hdomain : ∀ e ∈ ([⟨"SLICE", 5, none⟩, ⟨"HALT", 1, none⟩, ⟨"SLICE_0", 5, some "SLICE"⟩] :
      List Entry), e.code ∈ CodeWidth.byte ∧ ∀ c ∈ e.aliasOf, e.mnemonic = c ++ "_0" := by
    decide
  have hlisted : ∀ e ∈ sorted _, _ := fun e he => hdomain e ((sortByCode_perm _ _).mem_iff.mp he)
  rcases ofListing_toListing hbuild true .byte with ⟨hok, hagree⟩
  rw [toList_of_build hbuild] at hok
  rcases hok.mpr ⟨fun e he => (hlisted e he).1, fun e he => (hlisted e he).2⟩ with ⟨t', ht'⟩
  exact ⟨_, hbuild, t', ht', hagree t' ht'⟩

end Table

end OpcodeRegistry
