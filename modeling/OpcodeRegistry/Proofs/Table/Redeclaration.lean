import OpcodeRegistry.Proofs.Architecture.Shipped
import OpcodeRegistry.Proofs.Extraction.Table

/-! # Declaring the entries of a table

A table is ordered by code and its declarations need not be. Still the entries of a table, in the
order of the table, declare it: each alias stands behind its canonical entry there, and sorting what
is in order already changes nothing. They are the only declarations in the order of the codes that
do so, whichever way the table was made.
-/

namespace OpcodeRegistry

namespace Table

/-- The entries of the table declare it, and nothing else that is in order does. -/
structure SelfDeclared (t : Table) : Prop where
  /-- Declared in their order, the entries build the same table, with all that it answers. -/
  build_toList : build t.width t.toList = .ok t
  ascending : t.toList.Pairwise fun a b => a.code ≤ b.code
  /-- No other declarations in this order build the table. -/
  unique : ∀ declarations, build t.width declarations = .ok t →
    (declarations.Pairwise fun a b => a.code ≤ b.code) → declarations = t.toList

variable {width : CodeWidth} {declarations : List Entry} {t : Table}

theorem selfDeclared_of_build (h : build width declarations = .ok t) : t.SelfDeclared := by
  have hwidth := width_of_build h
  refine { build_toList := ?_, ascending := pairwise_of_build h, unique := ?_ }
  · rw [build_eq_ok_iff, hwidth, ofEntries_toList h, ← hwidth]
    exact ⟨hwidth ▸ accepted_toList h, rfl⟩
  · intro declarations' h' hascending
    exact (toList_of_build_of_pairwise h' hascending).symm

/-! ## The ways to a table -/

/-- Every table there is declares itself: one that is built of declarations, one that is loaded, and
those of an extraction and of an opcode set. -/
theorem tables_selfDeclared :
    (∀ width declarations t, build width declarations = .ok t → t.width = width ∧ t.SelfDeclared) ∧
    (∀ text width t, ofListing text width = .ok t → t.width = width ∧ t.SelfDeclared) ∧
    (∀ (x : Extraction) width t, x.toTable width = .ok t → t.width = width ∧ t.SelfDeclared) ∧
    ∀ (α : Type) [DecidableEq α] [OpcodeSet α] (t : Table), OpcodeSet.table α = .ok t →
      t.width = .byte ∧ t.SelfDeclared := by
  have hbuild : ∀ width declarations t, build width declarations = .ok t →
      t.width = width ∧ t.SelfDeclared := fun _ _ _ h =>
    ⟨width_of_build h, selfDeclared_of_build h⟩
  refine ⟨hbuild, ?_, fun _ _ _ h => hbuild _ _ _ h, fun _ _ _ _ h => hbuild _ _ _ h⟩
  intro text width t h
  obtain ⟨declarations, hdeclared⟩ := exists_build_of_ofListing h
  exact hbuild _ _ _ hdeclared

/-- A family that is declared out of order, or listed so, stands in order in its table. -/
theorem tables_selfDeclared_slice_family :
    (∃ t, build .byte [⟨"SLICE", 5, none⟩, ⟨"HALT", 1, none⟩, ⟨"SLICE_0", 5, some "SLICE"⟩] = .ok t ∧
      t.width = .byte ∧ t.SelfDeclared) ∧
    (∃ t, ofListing "SLICE = 5\nHALT = 1\nSLICE_0 = 5\n" .byte = .ok t ∧
      t.width = .byte ∧ t.SelfDeclared) ∧
    (∃ x t, (Extraction.ofSource .overwrite
        "opname(2) -> {line,1};\nopname(1) -> {label,1};\n".toUTF8).value = .ok x ∧
      x.toTable .byte = .ok t ∧ t.width = .byte ∧ t.SelfDeclared) ∧
    ∃ t, OpcodeSet.table PyOpcode = .ok t ∧ t.width = .byte ∧ t.SelfDeclared := by
  have hbuild := build_eq_ok_iff.mpr ⟨(by decide : Accepted .byte
    [⟨"SLICE", 5, none⟩, ⟨"HALT", 1, none⟩, ⟨"SLICE_0", 5, some "SLICE"⟩]), rfl⟩
  have hread : Toml.Document.ofText? "SLICE = 5\nHALT = 1\nSLICE_0 = 5\n" =
      some (([("SLICE", 5), ("HALT", 1), ("SLICE_0", 5)] : List (String × Code)).map
        Listing.field) :=
    Listing.ofText?_of_integers [("SLICE", 5), ("HALT", 1), ("SLICE_0", 5)] (by decide +kernel)
  have hinferred : Listing.inferred [("SLICE", 5), ("HALT", 1), ("SLICE_0", 5)] =
      [⟨"SLICE", 5, none⟩, ⟨"HALT", 1, none⟩, ⟨"SLICE_0", 5, some "SLICE"⟩] := by
    decide
  have hlisting : ∃ t, ofListing "SLICE = 5\nHALT = 1\nSLICE_0 = 5\n" .byte = .ok t := by
    rw [ofListing_of_fields hread, hinferred]
    exact ⟨_, mapError_eq_ok_iff.mpr hbuild⟩
  have hsource : ∃ x, (Extraction.ofSource .overwrite
      "opname(2) -> {line,1};\nopname(1) -> {label,1};\n".toUTF8).value = .ok x ∧
      x.declarations = [⟨"LABEL", 1, none⟩, ⟨"LINE", 2, none⟩] := ⟨_, rfl, rfl⟩
  obtain ⟨x, hx, hdeclared⟩ := hsource
  have htable : ∃ t, x.toTable .byte = .ok t := by
    rw [Extraction.toTable, hdeclared]
    exact ⟨_, build_eq_ok_iff.mpr ⟨by decide, rfl⟩⟩
  obtain ⟨taken, htaken⟩ := htable
  obtain ⟨loaded, hloaded⟩ := hlisting
  obtain ⟨pyTable, hpy⟩ := PyOpcode.exists_table
  exact ⟨⟨_, hbuild, tables_selfDeclared.1 _ _ _ hbuild⟩,
    ⟨loaded, hloaded, tables_selfDeclared.2.1 _ _ _ hloaded⟩,
    ⟨x, taken, hx, htaken, tables_selfDeclared.2.2.1 _ _ _ htaken⟩,
    ⟨pyTable, hpy, tables_selfDeclared.2.2.2 _ _ hpy⟩⟩

end Table

end OpcodeRegistry
