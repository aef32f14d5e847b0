import OpcodeRegistry.Proofs.Extraction.Table
import OpcodeRegistry.Proofs.Listing.Lines

/-! # The variants that an extraction declares

Printed as an enumeration, an extraction declares a variant for each of its definitions. The
variants have different names if and only if the mnemonics have different normal forms. It is not
enough that the extraction is a table, whose mnemonics only have to be different: an underscore in
front of a digit is lost in a variant name.
-/

namespace OpcodeRegistry.Extraction

open Listing

variable {policy : RedefinitionPolicy} {source : ByteArray} {x : Extraction}

/-- An enumeration declares the variant names of the mnemonics, in the order of the definitions. -/
theorem declaredVariants_render (h : (ofSource policy source).value = .ok x) (align : Bool) :
    declaredVariants (x.render .variants align) =
      x.definitions.map fun d => variantName d.mnemonic := by
  have hentries : ∀ e ∈ x.entries, IsUpperWord e.1 := by
    intro e he
    rcases List.mem_map.mp he with ⟨d, hd, rfl⟩
    exact isUpperWord_of_mem_definitions h d hd
  unfold render
  rw [Listing.declaredVariants_render hentries, entries, List.map_map]
  rfl

/-- The variants of an enumeration have different names if and only if the mnemonics of the
extraction have different normal forms. So they have if the extraction is a table and its mnemonics
are in normal form already. -/
theorem nodup_declaredVariants_iff (h : (ofSource policy source).value = .ok x) (align : Bool) :
    (declaredVariants (x.render .variants align) =
      x.definitions.map fun d => variantName d.mnemonic) ∧
    ((declaredVariants (x.render .variants align)).Nodup ↔
      (x.definitions.map fun d => normalForm d.mnemonic).Nodup) ∧
    ∀ width t, x.toTable width = .ok t →
      (∀ d ∈ x.definitions, normalForm d.mnemonic = d.mnemonic) →
        (declaredVariants (x.render .variants align)).Nodup := by
  have hnames := declaredVariants_render h align
  have hiff : (declaredVariants (x.render .variants align)).Nodup ↔
      (x.definitions.map fun d => normalForm d.mnemonic).Nodup := by
    rw [hnames, List.nodup_iff_pairwise_ne, List.nodup_iff_pairwise_ne, List.pairwise_map,
      List.pairwise_map]
    apply List.Pairwise.iff_of_mem
    intro d e hd he
    rw [ne_eq, ne_eq, variantName_eq_iff (isUpperWord_of_mem_definitions h d hd).2
      (isUpperWord_of_mem_definitions h e he).2]
  refine ⟨hnames, hiff, ?_⟩
  -- the mnemonics of a table are different, and they are their own normal forms here
  intro width t htable hnormal
  rw [hiff, List.map_congr_left hnormal]
  have hnodup := nodup_of_toTable htable
  rwa [entries, List.map_map] at hnodup

/-- Words of letters are in normal form. A digit behind an underscore is not, but it makes no
difficulty where no other mnemonic has the digit without. -/
theorem nodup_declaredVariants_iff_slice_family :
    let source := "opname(31) -> {slice_1,1};\nopname(30) -> {slice_0,1};\n".toUTF8
    let calls := "opname(6) -> {call_only,2};\nopname(4) -> {call,2};\n".toUTF8
    (∃ x, (ofSource .reject source).value = .ok x ∧
      declaredVariants (x.render .variants true) = ["Slice0", "Slice1"] ∧
      (declaredVariants (x.render .variants true)).Nodup) ∧
    ∃ x t, (ofSource .reject calls).value = .ok x ∧ x.toTable .byte = .ok t ∧
      (∀ d ∈ x.definitions, normalForm d.mnemonic = d.mnemonic) ∧
      (declaredVariants (x.render .variants true)).Nodup := by
  intro source calls
  have hslices : (ofSource .reject source).value = .ok
      ⟨[⟨2, "opname(30) -> {slice_0,1};", 30, "SLICE_0"⟩,
        ⟨1, "opname(31) -> {slice_1,1};", 31, "SLICE_1"⟩], 2, 0, []⟩ := rfl
  have hcalls : (ofSource .reject calls).value = .ok
      ⟨[⟨2, "opname(4) -> {call,2};", 4, "CALL"⟩,
        ⟨1, "opname(6) -> {call_only,2};", 6, "CALL_ONLY"⟩], 2, 0, []⟩ := rfl
  have haccepted : Accepted .byte [⟨"CALL", 4, none⟩, ⟨"CALL_ONLY", 6, none⟩] := by decide
  have htable := Table.build_eq_ok_iff.mpr ⟨haccepted, rfl⟩
  rcases nodup_declaredVariants_iff hslices true with ⟨hnames, hiff, -⟩
  rcases nodup_declaredVariants_iff hcalls true with ⟨-, -, hnormal⟩
  refine ⟨⟨_, hslices, hnames, hiff.mpr (by decide)⟩, _, _, hcalls, htable, by decide, ?_⟩
  exact hnormal .byte _ htable (by decide)

/-- Two different mnemonics of one table declare the same variant: one has an underscore in front of
the digit and the other has none. -/
theorem not_nodup_declaredVariants_of_toTable :
    let source := "opname(1) -> {a1,1};\nopname(2) -> {a_1,1};\n".toUTF8
    ∃ x t, (ofSource .overwrite source).value = .ok x ∧ x.toTable .byte = .ok t ∧
      ¬ (declaredVariants (x.render .variants false)).Nodup := by
  intro source
  have hx : (ofSource .overwrite source).value = .ok
      ⟨[⟨1, "opname(1) -> {a1,1};", 1, "A1"⟩, ⟨2, "opname(2) -> {a_1,1};", 2, "A_1"⟩], 2, 0, []⟩ :=
    rfl
  have haccepted : Accepted .byte [⟨"A1", 1, none⟩, ⟨"A_1", 2, none⟩] := by decide
  refine ⟨_, _, hx, Table.build_eq_ok_iff.mpr ⟨haccepted, rfl⟩, ?_⟩
  rw [declaredVariants_render hx]
  decide

end OpcodeRegistry.Extraction
