import OpcodeRegistry.Proofs.Architecture.Shipped
import OpcodeRegistry.Proofs.Table.Contract

/-! # Opcodes and their table

An opcode set answers for names and codes by going through its list, the table that it makes answers
through its indexes. For consistent opcodes each search of the list has one result at most, so both
answer alike for every name and every code, and the table lists the opcodes by ascending code.
-/

namespace OpcodeRegistry.OpcodeSet

/-! ## Searching the list -/

/-- A search for what one element at most can be finds it wherever it stands. -/
theorem find?_eq_some_iff_of_unique {α : Type} {l : List α} {p : α → Bool} {a : α} (hmem : a ∈ l)
    (hunique : ∀ b, p b = true → p a = true → b = a) : l.find? p = some a ↔ p a = true := by
  constructor
  · exact List.find?_some
  · intro ha
    cases hfind : l.find? p with
    | none => exact absurd ha (List.find?_eq_none.mp hfind a hmem)
    | some b => rw [hunique b (List.find?_some hfind) ha]

variable {α : Type} [DecidableEq α] [OpcodeSet α] [LawfulOpcodeSet α] {op : α} {t : Table}

theorem Consistent.ofMnemonic?_eq_some_iff (h : Consistent α) {name : String} :
    ofMnemonic? name = some op ↔ mnemonic op = name := by
  unfold ofMnemonic?
  rw [find?_eq_some_iff_of_unique (LawfulOpcodeSet.mem_all op), beq_iff_eq]
  intro other hother hop
  exact h.eq_of_mnemonic other op ((beq_iff_eq.mp hother).trans (beq_iff_eq.mp hop).symm)

theorem Consistent.ofCode?_eq_some_iff (h : Consistent α) {c : UInt8} :
    ofCode? c = some op ↔ code op = c ∧ isAlias op = false := by
  unfold ofCode?
  rw [find?_eq_some_iff_of_unique (LawfulOpcodeSet.mem_all op)]
  · simp
  · intro other hother hop
    simp only [Bool.and_eq_true, beq_iff_eq, Bool.not_eq_true'] at hother hop
    exact h.eq_of_code other op hother.2 hop.2 (hother.1.trans hop.1.symm)

/-- The code of an opcode leads to the one that stands for it. -/
theorem Consistent.ofCode?_code (h : Consistent α) (op : α) :
    ofCode? (code op) = some (canonical op) :=
  h.ofCode?_eq_some_iff.mpr ⟨h.code_canonical op, h.isAlias_canonical op⟩

/-! ## Asking the table -/

theorem consistent_of_table (h : table α = .ok t) : Consistent α :=
  exists_table_iff_consistent.mp ⟨t, h⟩

/-- The entries of the table are the declarations of the opcodes. -/
theorem mem_toList_iff_of_table (h : table α = .ok t) {e : Entry} :
    e ∈ t.toList ↔ ∃ op : α, declaration op = e := by
  rw [(Table.perm_of_build h).mem_iff, List.mem_map]
  simp only [LawfulOpcodeSet.mem_all, true_and]

/-- A name has the entry that declares the opcode of the name. -/
theorem get?_of_table (h : table α = .ok t) (name : String) :
    t.get? name = (ofMnemonic? name : Option α).map declaration := by
  have hconsistent := consistent_of_table h
  apply Option.ext
  intro e
  rw [Table.get?_eq_some_iff h, mem_toList_iff_of_table h, Option.map_eq_some_iff]
  simp only [hconsistent.ofMnemonic?_eq_some_iff]
  constructor
  · rintro ⟨⟨op, rfl⟩, hname⟩
    exact ⟨op, hname, rfl⟩
  · rintro ⟨op, hname, rfl⟩
    exact ⟨⟨op, rfl⟩, hname⟩

theorem mnemonicOf?_of_table_eq_some_iff (h : table α = .ok t) {c : Code} {name : String} :
    t.mnemonicOf? c = some name ↔
      ∃ op : α, isAlias op = false ∧ (code op).toUInt32 = c ∧ mnemonic op = name := by
  rw [Table.mnemonicOf?_eq_some_iff h]
  simp only [mem_toList_iff_of_table h]
  constructor
  · rintro ⟨_, ⟨op, rfl⟩, hcanonical, hcode, hname⟩
    exact ⟨op, aliasOf_declaration_eq_none_iff.mp hcanonical, hcode, hname⟩
  · rintro ⟨op, halias, hcode, hname⟩
    exact ⟨_, ⟨op, rfl⟩, aliasOf_declaration_eq_none_iff.mpr halias, hcode, hname⟩

theorem toUInt32_eq_iff_of_le {c : UInt8} {d : Code} (hd : d ≤ 255) :
    c.toUInt32 = d ↔ c = d.toUInt8 := by
  rw [← UInt32.toNat_inj, ← UInt8.toNat_inj, UInt8.toNat_toUInt32, UInt32.toNat_toUInt8]
  have hlt : d.toNat < 2 ^ 8 := Nat.lt_succ_of_le (UInt32.le_iff_toNat_le.mp hd)
  rw [Nat.mod_eq_of_lt hlt]

/-- A code of one byte has the name of the opcode that stands for it. -/
theorem mnemonicOf?_of_table (h : table α = .ok t) {c : Code} (hc : c ≤ 255) :
    t.mnemonicOf? c = (ofCode? c.toUInt8 : Option α).map mnemonic := by
  have hconsistent := consistent_of_table h
  apply Option.ext
  intro name
  rw [mnemonicOf?_of_table_eq_some_iff h, Option.map_eq_some_iff]
  simp only [hconsistent.ofCode?_eq_some_iff, toUInt32_eq_iff_of_le hc]
  constructor
  · rintro ⟨op, halias, hcode, hname⟩
    exact ⟨op, ⟨hcode, halias⟩, hname⟩
  · rintro ⟨op, ⟨hcode, halias⟩, hname⟩
    exact ⟨op, halias, hcode, hname⟩

/-- No other code has a name. -/
theorem mnemonicOf?_of_table_of_lt (h : table α = .ok t) {c : Code} (hc : 255 < c) :
    t.mnemonicOf? c = none := by
  rw [Option.eq_none_iff_forall_ne_some]
  intro name hname
  rcases (mnemonicOf?_of_table_eq_some_iff h).mp hname with ⟨op, -, rfl, -⟩
  have hlt := UInt32.lt_iff_toNat_lt.mp hc
  rw [UInt8.toNat_toUInt32] at hlt
  exact absurd (code op).toNat_lt (Nat.not_lt.mpr hlt)

omit [LawfulOpcodeSet α] in
/-- The entries of the table are the opcodes in the order of their codes. -/
theorem toList_of_table (h : table α = .ok t) :
    t.toList = (sortByCode (fun op : α => (code op).toUInt32) all).map declaration := by
  rw [Table.toList_of_build h]
  unfold Table.sorted
  symm
  apply List.map_mergeSort
  intro a _ b _
  rfl

/-! ## The agreement -/

/-- The table answers as the opcodes do. -/
structure Agrees (α : Type) [DecidableEq α] [OpcodeSet α] (t : Table) : Prop where
  isSome_iff : ∀ name, (ofMnemonic? name : Option α).isSome ↔ (t.get? name).isSome
  byName : ∀ name (op : α), ofMnemonic? name = some op →
    mnemonic op = name ∧ t.codeOf? name = some (code op).toUInt32 ∧
      (t.get? name).map Entry.isAlias = some (isAlias op) ∧
      t.canonicalOf? name = some (mnemonic (canonical op))
  byCode : ∀ c : Code, c ≤ 255 → t.mnemonicOf? c = (ofCode? c.toUInt8 : Option α).map mnemonic
  beyond : ∀ c : Code, 255 < c → t.mnemonicOf? c = none
  ofMnemonic_mnemonic : ∀ op : α, ofMnemonic? (mnemonic op) = some op
  ofCode_code : ∀ op : α, ofCode? (code op) = some (canonical op)
  /-- The entries are the opcodes by ascending code; those of one code stand as they were declared.
  -/
  entries : ∃ ops : List α, t.toList = ops.map declaration ∧ ops.Perm all ∧
    (ops.Pairwise fun a b => code a ≤ code b) ∧
    ∀ c, ops.filter (code · = c) = (all : List α).filter (code · = c)

theorem agrees_of_table (h : table α = .ok t) : Agrees α t := by
  have hconsistent := consistent_of_table h
  refine
    { isSome_iff := ?_
      byName := ?_
      byCode := fun _ hc => mnemonicOf?_of_table h hc
      beyond := fun _ hc => mnemonicOf?_of_table_of_lt h hc
      ofMnemonic_mnemonic := fun op => hconsistent.ofMnemonic?_eq_some_iff.mpr rfl
      ofCode_code := hconsistent.ofCode?_code
      entries := ⟨_, toList_of_table h, sortByCode_perm _ _, ?_, ?_⟩ }
  · intro name
    rw [get?_of_table h, Option.isSome_map]
  · intro name op hop
    have hget := get?_of_table h name
    rw [hop, Option.map_some] at hget
    refine ⟨hconsistent.ofMnemonic?_eq_some_iff.mp hop, ?_, ?_, ?_⟩
    · rw [Table.codeOf?, hget, Option.map_some, code_declaration]
    · rw [hget, Option.map_some, isAlias_declaration]
    · rw [Table.canonicalOf?, hget, Option.map_some, canonical_declaration]
  · -- codes of one byte are sorted as the 32 bits that entries keep them in
    refine (pairwise_sortByCode _ _).imp ?_
    intro a b hab
    rw [UInt32.le_iff_toNat_le, UInt8.toNat_toUInt32, UInt8.toNat_toUInt32] at hab
    exact UInt8.le_iff_toNat_le.mpr hab
  · intro c
    have hfilter := filter_sortByCode (fun op : α => (code op).toUInt32) all c.toUInt32
    -- nothing is lost by widening a code, so the runs of one code are the same
    simpa only [UInt8.toUInt32_inj] using hfilter

/-- Whatever opcode set makes a table, the table answers as the opcodes do; and the opcodes of both
virtual machines make one. -/
theorem table_agrees :
    (∀ (α : Type) [DecidableEq α] [OpcodeSet α] [LawfulOpcodeSet α] (t : Table),
      table α = .ok t → Agrees α t) ∧
    (∃ t, table BeamOpcode = .ok t ∧ Agrees BeamOpcode t) ∧
    ∃ t, table PyOpcode = .ok t ∧ Agrees PyOpcode t := by
  rcases BeamOpcode.exists_table with ⟨beamTable, hbeam⟩
  rcases PyOpcode.exists_table with ⟨pyTable, hpy⟩
  exact ⟨fun _ _ _ _ _ h => agrees_of_table h, ⟨beamTable, hbeam, agrees_of_table hbeam⟩,
    ⟨pyTable, hpy, agrees_of_table hpy⟩⟩

/-- The first member of a slice family is an alias, so its code has the name of the family. -/
theorem table_agrees_slice_family :
    ∃ t, table PyOpcode = .ok t ∧ t.codeOf? "SLICE_0" = some 0x1e ∧
      t.canonicalOf? "SLICE_0" = some "SLICE" ∧ t.mnemonicOf? 0x1e = some "SLICE" ∧
      t.mnemonicOf? 0x11e = none := by
  rcases PyOpcode.exists_table with ⟨t, ht⟩
  have hagrees := table_agrees.1 PyOpcode t ht
  have hslice := hagrees.byName "SLICE_0" .slice0 (hagrees.ofMnemonic_mnemonic .slice0)
  have hcode : ofCode? 0x1e = some PyOpcode.slice := hagrees.ofCode_code .slice
  have hmnemonic := hagrees.byCode 0x1e (by decide)
  rw [show UInt32.toUInt8 0x1e = 0x1e from rfl, hcode] at hmnemonic
  exact ⟨t, ht, hslice.2.1, hslice.2.2.2, hmnemonic, hagrees.beyond 0x11e (by decide)⟩

end OpcodeRegistry.OpcodeSet
