import OpcodeRegistry.Proofs.Listing.Families
import OpcodeRegistry.Proofs.Listing.RoundTrip

/-! # Which documents are listings of tables

A document declares a table if and only if its values are codes of the width, its keys are
upper-case identifiers, and keys share a number only as a name and its `_0`: `Loadable`. `Lists`
says what the table then holds. A value that is no code is refused before anything is asked about
names, so the first such value decides the error, and only a document of codes gets to the errors of
tables.
-/

namespace OpcodeRegistry

namespace Listing

/-- The value is the number of a code. -/
def IsCode (value : Toml.Value) : Prop :=
  ∃ n : Nat, value = .integer n ∧ n < 2 ^ 32

/-- The keys that are given an integer, in the order of the document. -/
def keysOf (document : List (String × Toml.Value)) (n : Int) : List String :=
  (document.filter (·.2.integer? = some n)).map Prod.fst

/-- What a document has to satisfy to declare a table. -/
structure Loadable (width : CodeWidth) (document : List (String × Toml.Value)) : Prop where
  codes : ∀ field ∈ document,
    ∃ n : Nat, field.2 = .integer n ∧ n < 2 ^ 32 ∧ n < 2 ^ width.bits
  names : ∀ field ∈ document, IsMnemonic field.1
  /-- A number stands for one key, or for a name and behind it the name with `_0`. -/
  shared : ∀ n, MayShare (keysOf document n)

/-- The entries are the keys of the document, stably sorted by their numbers, and an alias is just
what stands second of two keys that share a number. -/
structure Lists (document : List (String × Toml.Value)) (entries : List Entry) : Prop where
  fields : (entries.map fun e => (e.mnemonic, Toml.Value.integer e.code.toNat)).Perm document
  ascending : entries.Pairwise fun a b => a.code ≤ b.code
  stable : ∀ c : Code,
    (entries.filter (·.code = c)).map Entry.mnemonic = keysOf document c.toNat
  /-- The second one of two keys that share a number is an alias of the first one, and all else is
  canonical. -/
  aliases : ∀ e ∈ entries, ∀ base, e.aliasOf = some base ↔
    keysOf document e.code.toNat = [base, base ++ "_0"] ∧ e.mnemonic = base ++ "_0"

/-! ## Values -/

theorem isCode_iff {value : Toml.Value} : IsCode value ↔ ∃ c : Code, value = .integer c.toNat := by
  constructor
  · rintro ⟨n, rfl, hn⟩
    refine ⟨UInt32.ofNat n, ?_⟩
    rw [UInt32.toNat_ofNat_of_lt' hn]
  · rintro ⟨c, rfl⟩
    exact ⟨c.toNat, rfl, c.toNat_lt⟩

/-- A number that is negative or needs more than 32 bits is no code. -/
theorem code?_of_invalid (key : String) {n : Int} (h : n < 0 ∨ 2 ^ 32 ≤ n) :
    code? key (.integer n) = .error (.invalidCode key n) := by
  unfold code?
  by_cases hsign : n < 0
  · simp only [hsign, if_true]
  · have hlarge : Code.ofNat? n.toNat = none := by
      have hsize : UInt32.size = 2 ^ 32 := rfl
      exact Code.ofNat?_eq_none_iff.mpr (by omega)
    simp only [hsign, if_false, hlarge]

theorem code?_of_not_integer (key : String) {value : Toml.Value} (h : ∀ n, value ≠ .integer n) :
    code? key value = .error (.notAnInteger key) := by
  cases value with
  | integer n => exact absurd rfl (h n)
  | _ => rfl

/-- Where a value is no code, the reader says so. -/
theorem exists_code?_error (key : String) {value : Toml.Value} (h : ¬ IsCode value) :
    ∃ error, code? key value = .error error := by
  by_cases hinteger : ∃ n, value = .integer n
  · rcases hinteger with ⟨n, rfl⟩
    -- an integer between the bounds would be a code
    have hn : n < 0 ∨ 2 ^ 32 ≤ n := by
      by_contra hrange
      refine h ⟨n.toNat, ?_, by omega⟩
      rw [Int.toNat_of_nonneg (by omega)]
    exact ⟨_, code?_of_invalid key hn⟩
  · exact ⟨_, code?_of_not_integer key (not_exists.mp hinteger)⟩

/-! ## Documents of codes -/

/-- A document is one of names and codes, up to its first value that is no code if there is one. -/
theorem exists_map_field_or_bad (document : List (String × Toml.Value)) :
    (∃ entries : List (String × Code), document = entries.map field) ∨
      ∃ (entries : List (String × Code)) (key : String) (value : Toml.Value)
        (after : List (String × Toml.Value)),
        document = entries.map field ++ (key, value) :: after ∧ ¬ IsCode value := by
  induction document with
  | nil => exact Or.inl ⟨[], rfl⟩
  | cons first rest ih =>
      rcases first with ⟨key, value⟩
      by_cases hvalue : IsCode value
      · rcases isCode_iff.mp hvalue with ⟨c, rfl⟩
        rcases ih with ⟨entries, rfl⟩ | ⟨entries, key', value', after, rfl, hbad⟩
        · exact Or.inl ⟨(key, c) :: entries, rfl⟩
        · exact Or.inr ⟨(key, c) :: entries, key', value', after, rfl, hbad⟩
      · exact Or.inr ⟨[], key, value, rest, rfl, hvalue⟩

/-- Where all values are codes, the document is one of names and codes. -/
theorem exists_map_field {document : List (String × Toml.Value)}
    (h : ∀ field ∈ document, IsCode field.2) :
    ∃ entries : List (String × Code), document = entries.map field := by
  rcases exists_map_field_or_bad document with hcodes | ⟨entries, key, value, after, rfl, hbad⟩
  · exact hcodes
  · exact absurd (h (key, value) (by simp)) hbad

theorem integer?_field_eq_iff {entry : String × Code} {n : Int} :
    (field entry).2.integer? = some n ↔ (entry.2.toNat : Int) = n :=
  Option.some_inj

theorem keysOf_map_field (entries : List (String × Code)) (c : Code) :
    keysOf (entries.map field) c.toNat = namesOf entries c := by
  unfold keysOf namesOf
  rw [List.filter_map, List.map_map]
  have hfilter : entries.filter ((fun f => f.2.integer? = some (c.toNat : Int)) ∘ field) =
      entries.filter (·.2 = c) := by
    apply List.filter_congr
    intro entry _
    rw [Function.comp_apply, decide_eq_decide, integer?_field_eq_iff, Int.natCast_inj]
    exact UInt32.toNat_inj
  rw [hfilter]
  rfl

/-- An integer that is no code is given to no key. -/
theorem keysOf_eq_nil {entries : List (String × Code)} {n : Int}
    (h : ∀ c : Code, (c.toNat : Int) ≠ n) : keysOf (entries.map field) n = [] := by
  unfold keysOf
  rw [List.map_eq_nil_iff, List.filter_eq_nil_iff, List.forall_mem_map]
  intro entry _ hn
  exact h entry.2 (integer?_field_eq_iff.mp (of_decide_eq_true hn))

theorem loadable_map_field_iff {width : CodeWidth} {entries : List (String × Code)} :
    Loadable width (entries.map field) ↔
      (∀ entry ∈ entries, IsMnemonic entry.1) ∧ (∀ entry ∈ entries, entry.2 ∈ width) ∧
        ∀ c, MayShare (namesOf entries c) := by
  constructor
  · intro h
    refine ⟨?_, ?_, ?_⟩
    · intro entry hentry
      exact h.names (field entry) (List.mem_map_of_mem hentry)
    · intro entry hentry
      -- the integer of the entry is its code, and the bound on it the one of the width
      rcases List.forall_mem_map.mp h.codes entry hentry with ⟨n, hvalue, -, hn⟩
      have hcode : (entry.2.toNat : Int) = n := Toml.Value.integer.inj hvalue
      rw [CodeWidth.mem_iff]
      omega
    · intro c
      rw [← keysOf_map_field]
      exact h.shared c.toNat
  · rintro ⟨hnames, hcodes, hshare⟩
    refine { codes := ?_, names := ?_, shared := ?_ }
    · rw [List.forall_mem_map]
      intro entry hentry
      exact ⟨entry.2.toNat, rfl, entry.2.toNat_lt, CodeWidth.mem_iff.mp (hcodes entry hentry)⟩
    · rw [List.forall_mem_map]
      exact hnames
    · -- an integer that is no code stands for no key at all
      intro n
      by_cases hn : ∃ c : Code, (c.toNat : Int) = n
      · rcases hn with ⟨c, rfl⟩
        rw [keysOf_map_field]
        exact hshare c
      · rw [keysOf_eq_nil (not_exists.mp hn)]
        exact .nobody

/-- Sorting the inferred declarations gives the entries of the document. -/
theorem lists_sorted {width : CodeWidth} {entries : List (String × Code)}
    (h : Accepted width (inferred entries)) :
    Lists (entries.map field) (Table.sorted (inferred entries)) := by
  have hlisted : (inferred entries).map Entry.listed = entries := map_listed_inferredFrom [] entries
  have hnames : ∀ c, ((inferred entries).filter (·.code = c)).map Entry.mnemonic =
      keysOf (entries.map field) c.toNat := by
    intro c
    rw [keysOf_map_field, ← namesOf_map_listed, hlisted]
  refine { fields := ?_, ascending := pairwise_sortByCode Entry.code _, stable := ?_, aliases := ?_ }
  · have hperm := (sortByCode_perm Entry.code (inferred entries)).map (field ∘ Entry.listed)
    rw [← List.map_map (l := inferred entries), hlisted] at hperm
    exact hperm
  · -- the sort is stable, and the inference keeps the order
    intro c
    have hfilter := filter_sortByCode Entry.code (inferred entries) c
    change (sortByCode Entry.code (inferred entries)).filter _ = _ at hfilter
    rw [← hnames, ← hfilter]
    rfl
  · intro e he base
    have hmem : e ∈ (inferred entries).filter (·.code = e.code) :=
      List.mem_filter.mpr ⟨(sortByCode_perm Entry.code _).mem_iff.mp he, decide_eq_true rfl⟩
    -- an alias is known from the family of its code, in which the sort changes nothing
    have hpair := h.isPair_filter (isInferred_inferred entries) e.code
    rw [hpair.aliasOf_eq_some_iff hmem, hnames]
    rfl

theorem Loadable.isCode {width : CodeWidth} {document : List (String × Toml.Value)}
    (h : Loadable width document) : ∀ field ∈ document, IsCode field.2 := by
  intro field hfield
  rcases h.codes field hfield with ⟨n, hvalue, hn, -⟩
  exact ⟨n, hvalue, hn⟩

/-! ## Documents with a bad value -/

/-- The first value that is no code decides, whatever the names before it are. -/
theorem declarations?_of_error {key : String} {value : Toml.Value} {error : ListingError}
    (h : code? key value = .error error) (entries : List (String × Code))
    (after : List (String × Toml.Value)) (seen : Std.HashMap String Code) :
    declarations? seen (entries.map field ++ (key, value) :: after) = .error error := by
  induction entries generalizing seen with
  | nil =>
      rw [List.map_nil, List.nil_append, declarations?, h]
      rfl
  | cons entry entries ih =>
      rw [List.map_cons, List.cons_append]
      change declarations? seen ((entry.1, .integer entry.2.toNat) :: _) = _
      rw [declarations?, code?_integer]
      -- the entry is declared, and the error comes from behind it
      change (declarations? (seen.insert entry.1 entry.2) _).bind _ = _
      rw [ih]
      rfl

end Listing

namespace Table

open Listing

variable {text : String} {document : List (String × Toml.Value)}

theorem ofListing_of_code?_error {entries : List (String × Code)} {key : String}
    {value : Toml.Value} {after : List (String × Toml.Value)} {error : ListingError}
    (h : Toml.Document.ofText? text = some (entries.map field ++ (key, value) :: after))
    (hcode : code? key value = .error error) (width : CodeWidth) :
    ofListing text width = .error error := by
  rw [ofListing_of_ofText? h]
  unfold ofDocument
  rw [declarations?_of_error hcode]
  rfl

/-- A document of codes loads as the table of what its names and codes let infer. -/
theorem ofListing_map_field_eq_ok_iff {entries : List (String × Code)} {width : CodeWidth} {t : Table}
    (h : Toml.Document.ofText? text = some (entries.map field)) :
    ofListing text width = .ok t ↔
      Loadable width (entries.map field) ∧ t = ofEntries width (inferred entries) := by
  rw [ofListing_of_fields h, mapError_eq_ok_iff, build_eq_ok_iff, loadable_map_field_iff,
    Accepted.accepted_inferred_iff_mayShare (nodup_of_fields h)]

/-- A table is loaded only from a document of codes. -/
theorem exists_map_field_of_ofListing {width : CodeWidth} {t : Table}
    (h : Toml.Document.ofText? text = some document) (hok : ofListing text width = .ok t) :
    ∃ entries : List (String × Code), document = entries.map field := by
  rcases exists_map_field_or_bad document with hcodes | ⟨entries, key, value, after, rfl, hbad⟩
  · exact hcodes
  · -- the first bad value would have been refused
    rcases exists_code?_error key hbad with ⟨error, herror⟩
    rw [ofListing_of_code?_error h herror] at hok
    exact absurd hok (by simp)

theorem exists_ofListing_eq_ok_iff {width : CodeWidth}
    (h : Toml.Document.ofText? text = some document) :
    (∃ t, ofListing text width = .ok t) ↔ Loadable width document := by
  constructor
  · rintro ⟨t, ht⟩
    rcases exists_map_field_of_ofListing h ht with ⟨entries, rfl⟩
    exact ((ofListing_map_field_eq_ok_iff h).mp ht).1
  · intro hloadable
    rcases exists_map_field hloadable.isCode with ⟨entries, rfl⟩
    exact ⟨_, (ofListing_map_field_eq_ok_iff h).mpr ⟨hloadable, rfl⟩⟩

theorem lists_of_ofListing {width : CodeWidth} {t : Table}
    (h : Toml.Document.ofText? text = some document) (hok : ofListing text width = .ok t) :
    Lists document t.toList := by
  rcases exists_map_field_of_ofListing h hok with ⟨entries, rfl⟩
  rcases (ofListing_map_field_eq_ok_iff h).mp hok with ⟨hloadable, rfl⟩
  rw [toList_ofEntries]
  exact lists_sorted ((Accepted.accepted_inferred_iff_mayShare (nodup_of_fields h)).mpr
    (loadable_map_field_iff.mp hloadable))

/-- A document of codes is refused only for what is wrong with its table. -/
theorem ofNames_of_ofListing {width : CodeWidth} {error : ListingError}
    (h : Toml.Document.ofText? text = some document)
    (hcodes : ∀ field ∈ document, IsCode field.2) (herror : ofListing text width = .error error) :
    ∃ e : TableError, error = .table e ∧ e.OfNames := by
  rcases exists_map_field hcodes with ⟨entries, rfl⟩
  rw [ofListing_of_fields h] at herror
  rcases mapError_eq_error_iff.mp herror with ⟨e, hbuild, rfl⟩
  have hnodup : ((inferred entries).map Entry.mnemonic).Nodup := by
    rw [map_mnemonic_inferred]
    exact nodup_of_fields h
  exact ⟨e, rfl, ofNames_of_build (isInferred_inferred entries) hnodup hbuild⟩

/-- A document loads if and only if its values are codes of the width, its keys are upper-case
identifiers, and keys share a number only as a name and its `_0`; then the table lists it. The first
value that is no code is refused, whatever stands before it; without one, a table error is left. -/
theorem ofListing_of_document (h : Toml.Document.ofText? text = some document) (width : CodeWidth) :
    ((∃ t, ofListing text width = .ok t) ↔ Loadable width document) ∧
    (∀ t, ofListing text width = .ok t → t.width = width ∧ Lists document t.toList) ∧
    (∀ before key value after, document = before ++ (key, value) :: after →
      (∀ field ∈ before, IsCode field.2) →
      (∀ n, value = .integer n → n < 0 ∨ 2 ^ 32 ≤ n →
        ofListing text width = .error (.invalidCode key n)) ∧
      ((∀ n, value ≠ .integer n) → ofListing text width = .error (.notAnInteger key))) ∧
    ((∀ field ∈ document, IsCode field.2) → ∀ error, ofListing text width = .error error →
      ∃ e : TableError, error = .table e ∧ e.OfNames) := by
  refine ⟨exists_ofListing_eq_ok_iff h, ?_, ?_, fun hcodes _ => ofNames_of_ofListing h hcodes⟩
  · intro t ht
    refine ⟨?_, lists_of_ofListing h ht⟩
    rcases exists_map_field_of_ofListing h ht with ⟨entries, rfl⟩
    rcases (ofListing_map_field_eq_ok_iff h).mp ht with ⟨-, rfl⟩
    rfl
  · rintro before key value after rfl hbefore
    -- what stands before are codes, so the value is the first one to be refused
    rcases exists_map_field hbefore with ⟨entries, rfl⟩
    constructor
    · rintro n rfl hn
      exact ofListing_of_code?_error h (code?_of_invalid key hn) width
    · intro hvalue
      exact ofListing_of_code?_error h (code?_of_not_integer key hvalue) width

/-- A name and its `_0` load as a family, whatever stands between them, and a negative number is
refused although the name before it is no mnemonic. -/
theorem ofListing_of_document_slice_family :
    (∃ t, ofListing "SLICE = 5\nHALT = 1\nSLICE_0 = 5\n" .byte = .ok t ∧
      Lists [("SLICE", .integer 5), ("HALT", .integer 1), ("SLICE_0", .integer 5)] t.toList) ∧
    ofListing "cut = 5\nHALT = -1\n" .byte = .error (.invalidCode "HALT" (-1)) := by
  have hread : Toml.Document.ofText? "SLICE = 5\nHALT = 1\nSLICE_0 = 5\n" =
      some [("SLICE", .integer 5), ("HALT", .integer 1), ("SLICE_0", .integer 5)] :=
    Listing.ofText?_of_integers [("SLICE", 5), ("HALT", 1), ("SLICE_0", 5)] (by decide +kernel)
  have hread' : Toml.Document.ofText? "cut = 5\nHALT = -1\n" =
      some [("cut", .integer 5), ("HALT", .integer (-1))] :=
    Listing.ofText?_of_integers [("cut", 5), ("HALT", -1)] (by decide +kernel)
  have hloadable : Loadable .byte
      [("SLICE", .integer 5), ("HALT", .integer 1), ("SLICE_0", .integer 5)] := by
    refine (@loadable_map_field_iff .byte [("SLICE", 5), ("HALT", 1), ("SLICE_0", 5)]).mpr
      ⟨by decide, by decide, ?_⟩
    -- no other code than these two has a key
    intro c
    by_cases hfive : c = 5
    · have hnames : namesOf [("SLICE", 5), ("HALT", 1), ("SLICE_0", 5)] c =
          ["SLICE", "SLICE" ++ familySuffix] := by
        rw [hfive]
        decide
      rw [hnames]
      exact .family "SLICE"
    · by_cases hone : c = 1
      · rw [hone]
        exact .alone "HALT"
      · have hnames : namesOf [("SLICE", 5), ("HALT", 1), ("SLICE_0", 5)] c = [] := by
          simp [namesOf, eq_comm, hfive, hone]
        rw [hnames]
        exact .nobody
  constructor
  · rcases ofListing_of_document hread .byte with ⟨hok, hlists, -⟩
    rcases hok.mpr hloadable with ⟨t, ht⟩
    exact ⟨t, ht, (hlists t ht).2⟩
  · refine ((ofListing_of_document hread' .byte).2.2.1 [("cut", .integer 5)] "HALT" (.integer (-1)) []
      rfl ?_).1 (-1) rfl (by decide)
    intro field hfield
    exact ⟨5, by rw [List.mem_singleton.mp hfield]; rfl, by decide⟩

end Table

end OpcodeRegistry
