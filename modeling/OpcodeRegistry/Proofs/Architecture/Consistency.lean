import Mathlib.Data.List.Nodup
import OpcodeRegistry.Architecture.OpcodeSet
import OpcodeRegistry.Proofs.CodeWidth
import OpcodeRegistry.Proofs.Table.Draft

/-! # Opcode sets that make a table

An opcode set declares a table opcode by opcode. What a table asks of its declarations is said here
of the opcodes themselves: `Consistent` opcodes are told apart by their names, those that are no
aliases also by their codes, and an alias stands behind an opcode of its code that is none. An opcode
set makes a table if and only if it is consistent.
-/

namespace OpcodeRegistry.OpcodeSet

variable {α : Type} [DecidableEq α] [OpcodeSet α] {op : α}

/-! ## Declarations of opcodes -/

theorem isAlias_eq_false_iff : isAlias op = false ↔ canonical op = op := by
  simp [isAlias]

@[simp] theorem code_declaration (op : α) : (declaration op).code = (code op).toUInt32 := rfl

theorem aliasOf_declaration_eq_none_iff : (declaration op).aliasOf = none ↔ isAlias op = false := by
  simp [declaration]

theorem aliasOf_declaration_eq_some_iff {name : String} :
    (declaration op).aliasOf = some name ↔ isAlias op = true ∧ mnemonic (canonical op) = name := by
  simp [declaration]

@[simp] theorem isAlias_declaration (op : α) : (declaration op).isAlias = isAlias op := by
  cases h : isAlias op with
  | true => simp [Entry.isAlias, declaration, h]
  | false => simp [Entry.isAlias, declaration, h]

@[simp] theorem canonical_declaration (op : α) :
    (declaration op).canonical = mnemonic (canonical op) := by
  cases h : isAlias op with
  | true => simp [Entry.canonical, declaration, h]
  | false => simp [Entry.canonical, declaration, h, isAlias_eq_false_iff.mp h]

/-- Every code of an opcode can be written in one byte. -/
theorem code_declaration_mem (op : α) : (declaration op).code ∈ CodeWidth.byte := by
  rw [CodeWidth.mem_iff, code_declaration, UInt8.toNat_toUInt32]
  exact (code op).toNat_lt

/-! ## The order of declaration -/

/-- The opcodes that are declared before this one. -/
def before (op : α) : List α :=
  all.take (all.idxOf op)

variable [LawfulOpcodeSet α]

theorem mem_before_iff {op other : α} :
    other ∈ before op ↔ (all : List α).idxOf other < (all : List α).idxOf op :=
  List.mem_take_iff_idxOf_lt (LawfulOpcodeSet.mem_all other)

theorem idxOf_all_getElem {i : Nat} (h : i < (all : List α).length) :
    (all : List α).idxOf (all : List α)[i] = i :=
  LawfulOpcodeSet.nodup_all.idxOf_getElem i h

theorem ne_of_mem_before {op other : α} (h : other ∈ before op) : other ≠ op := by
  rintro rfl
  exact absurd (mem_before_iff.mp h) (Nat.lt_irrefl _)

theorem mem_before_or_of_ne {op other : α} (h : op ≠ other) :
    op ∈ before other ∨ other ∈ before op := by
  have hne := mt (List.idxOf_inj (LawfulOpcodeSet.mem_all op)).mp h
  rw [mem_before_iff, mem_before_iff]
  exact Nat.lt_or_gt_of_ne hne

/-- The declarations are accepted if each opcode fits those declared before it. -/
theorem accepted_iff :
    Accepted .byte ((all : List α).map declaration) ↔
      ∀ op : α, Fits .byte ((before op).map declaration) (declaration op) := by
  rw [Accepted.iff_forall_fits]
  constructor
  · intro h op
    have hlt := List.idxOf_lt_length_of_mem (LawfulOpcodeSet.mem_all op)
    have hfits := h ⟨(all : List α).idxOf op, by simpa using hlt⟩
    simpa [before, List.map_take] using hfits
  · rintro h ⟨i, hi⟩
    have hlt : i < (all : List α).length := by simpa using hi
    have hfits := h (all : List α)[i]
    simpa [before, List.map_take, idxOf_all_getElem hlt] using hfits

/-! ## Consistent opcode sets -/

/-- The opcodes of the set can be found by their names, and those that are no aliases by their codes;
an alias is declared behind an opcode of the same code that is none. -/
structure Consistent (α : Type) [DecidableEq α] [OpcodeSet α] : Prop where
  isMnemonic : ∀ op : α, IsMnemonic (mnemonic op)
  eq_of_mnemonic : ∀ a b : α, mnemonic a = mnemonic b → a = b
  eq_of_code : ∀ a b : α, isAlias a = false → isAlias b = false → code a = code b → a = b
  code_canonical : ∀ op : α, code (canonical op) = code op
  isAlias_canonical : ∀ op : α, isAlias (canonical op) = false
  canonical_mem_before : ∀ op : α, isAlias op = true → canonical op ∈ before op

/-- Accepted declarations come from consistent opcodes. -/
theorem consistent_of_fits
    (h : ∀ op : α, Fits .byte ((before op).map declaration) (declaration op)) : Consistent α := by
  have hmnemonic : ∀ a b : α, mnemonic a = mnemonic b → a = b := by
    intro a b hname
    by_contra hne
    rcases mem_before_or_of_ne hne with hbefore | hbefore
    · exact (h b).new_name _ (List.mem_map_of_mem hbefore) hname
    · exact (h a).new_name _ (List.mem_map_of_mem hbefore) hname.symm
  -- what an alias names can only be its canonical opcode, since no other has that name
  have htarget : ∀ op : α, isAlias op = true →
      canonical op ∈ before op ∧ isAlias (canonical op) = false ∧ code (canonical op) = code op := by
    intro op halias
    rcases (h op).target _ (aliasOf_declaration_eq_some_iff.mpr ⟨halias, rfl⟩) with
      ⟨d, hd, hname, hcanonical, hcode⟩
    rcases List.mem_map.mp hd with ⟨target, hbefore, rfl⟩
    obtain rfl : target = canonical op := hmnemonic _ _ hname
    exact ⟨hbefore, aliasOf_declaration_eq_none_iff.mp hcanonical, UInt8.toUInt32_inj.mp hcode⟩
  refine
    { isMnemonic := fun op => (h op).isMnemonic
      eq_of_mnemonic := hmnemonic
      eq_of_code := ?_
      code_canonical := ?_
      isAlias_canonical := ?_
      canonical_mem_before := fun op halias => (htarget op halias).1 }
  · intro a b ha hb hcode
    have hcode' : (code a).toUInt32 = (code b).toUInt32 := by rw [hcode]
    rw [← aliasOf_declaration_eq_none_iff] at ha hb
    by_contra hne
    rcases mem_before_or_of_ne hne with hbefore | hbefore
    · exact (h b).new_owner hb _ (List.mem_map_of_mem hbefore) ha hcode'
    · exact (h a).new_owner ha _ (List.mem_map_of_mem hbefore) hb hcode'.symm
  · intro op
    cases halias : isAlias op with
    | true => exact (htarget op halias).2.2
    | false => rw [isAlias_eq_false_iff.mp halias]
  · intro op
    cases halias : isAlias op with
    | true => exact (htarget op halias).2.1
    | false => rw [isAlias_eq_false_iff.mp halias, halias]

/-- Consistent opcodes make accepted declarations. -/
theorem Consistent.fits (h : Consistent α) (op : α) :
    Fits .byte ((before op).map declaration) (declaration op) := by
  refine ⟨h.isMnemonic op, code_declaration_mem op, ?_, ?_, ?_⟩
  · -- a name again would be the opcode itself, which does not stand before itself
    intro d hd hname
    rcases List.mem_map.mp hd with ⟨other, hbefore, rfl⟩
    exact ne_of_mem_before hbefore (h.eq_of_mnemonic _ _ hname)
  · -- an owner of the code would be the opcode itself as well, none of the two being an alias
    intro halias d hd hcanonical hcode
    rcases List.mem_map.mp hd with ⟨other, hbefore, rfl⟩
    rw [aliasOf_declaration_eq_none_iff] at halias hcanonical
    exact ne_of_mem_before hbefore
      (h.eq_of_code _ _ hcanonical halias (UInt8.toUInt32_inj.mp hcode))
  · -- the canonical opcode of an alias was declared before it
    intro name hname
    rcases aliasOf_declaration_eq_some_iff.mp hname with ⟨halias, rfl⟩
    refine ⟨declaration (canonical op), List.mem_map_of_mem (h.canonical_mem_before op halias), rfl,
      aliasOf_declaration_eq_none_iff.mpr (h.isAlias_canonical op), ?_⟩
    rw [code_declaration, code_declaration, h.code_canonical op]

/-- An opcode set makes a table if and only if its opcodes are consistent. -/
theorem exists_table_iff_consistent : (∃ t, table α = .ok t) ↔ Consistent α := by
  have hbuild : (∃ t, table α = .ok t) ↔ Accepted .byte ((all : List α).map declaration) := by
    unfold table
    simp only [Table.build_eq_ok_iff, exists_and_left, exists_eq, and_true]
  rw [hbuild, accepted_iff]
  exact ⟨consistent_of_fits, Consistent.fits⟩

/-! ## Deciding consistency -/

/-- The bytes of a text as one number. Numbers are faster to tell apart than texts. -/
def numberOf (text : String) : Nat :=
  text.toByteArray.data.toList.foldl (fun n byte => 256 * n + byte.toNat) 0

/-- What has to be looked up, opcode by opcode, to see that an opcode set is consistent. -/
theorem consistent_of_forall_mem_all
    (hmnemonic : ∀ op ∈ (all : List α), IsMnemonic (mnemonic op))
    (hnames : ((all : List α).map fun op => numberOf (mnemonic op)).Nodup)
    (hcodes : (((all : List α).filter fun op => !isAlias op).map fun op => (code op).toNat).Nodup)
    (hcanonical : ∀ op ∈ (all : List α),
      code (canonical op) = code op ∧ isAlias (canonical op) = false ∧
        (isAlias op = true → canonical op ∈ before op)) :
    Consistent α where
  isMnemonic op := hmnemonic op (LawfulOpcodeSet.mem_all op)
  eq_of_mnemonic a b hname :=
    List.inj_on_of_nodup_map hnames (LawfulOpcodeSet.mem_all a) (LawfulOpcodeSet.mem_all b)
      (congrArg numberOf hname)
  eq_of_code a b ha hb hcode :=
    List.inj_on_of_nodup_map hcodes (List.mem_filter.mpr ⟨LawfulOpcodeSet.mem_all a, by simp [ha]⟩)
      (List.mem_filter.mpr ⟨LawfulOpcodeSet.mem_all b, by simp [hb]⟩) (congrArg UInt8.toNat hcode)
  code_canonical op := (hcanonical op (LawfulOpcodeSet.mem_all op)).1
  isAlias_canonical op := (hcanonical op (LawfulOpcodeSet.mem_all op)).2.1
  canonical_mem_before op := (hcanonical op (LawfulOpcodeSet.mem_all op)).2.2

end OpcodeRegistry.OpcodeSet
