import OpcodeRegistry.Extraction.Basic
import OpcodeRegistry.Listing.Render
import OpcodeRegistry.Table.Basic

/-! # What an extraction amounts to

An extraction can be printed as a listing or taken as a table. It knows no aliases: each of its
definitions declares a canonical mnemonic, by ascending code. Neither way looks at more than the
mnemonics and the codes.
-/

namespace OpcodeRegistry.Extraction

variable {x x' : Extraction}

/-- The definitions as declarations of a table. -/
def declarations (x : Extraction) : List Entry :=
  x.definitions.map fun d => { mnemonic := d.mnemonic, code := d.code }

/-- The declarations can be read off the entries. -/
theorem declarations_eq_map_entries (x : Extraction) :
    x.declarations = x.entries.map fun p => { mnemonic := p.1, code := p.2 } := by
  unfold declarations entries
  rw [List.map_map]
  rfl

theorem aliasOf_of_mem_declarations {e : Entry} (he : e ∈ x.declarations) : e.aliasOf = none := by
  rcases List.mem_map.mp he with ⟨d, -, rfl⟩
  rfl

/-- The table that the extraction amounts to, or what is wrong with its first bad definition. -/
def toTable (x : Extraction) (width : CodeWidth) : Except TableError Table :=
  Table.build width x.declarations

/-- The listing of the definitions. -/
def render (x : Extraction) (style : Listing.Style) (align : Bool) : String :=
  Listing.render x.entries style align

/-! ## What the entries settle -/

theorem render_eq_of_entries_eq (h : x'.entries = x.entries) (style : Listing.Style)
    (align : Bool) : x'.render style align = x.render style align := by
  unfold render
  rw [h]

theorem toTable_eq_of_entries_eq (h : x'.entries = x.entries) (width : CodeWidth) :
    x'.toTable width = x.toTable width := by
  unfold toTable
  rw [declarations_eq_map_entries, declarations_eq_map_entries, h]

end OpcodeRegistry.Extraction
