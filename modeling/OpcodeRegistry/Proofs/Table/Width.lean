import OpcodeRegistry.Proofs.Listing.RoundTrip
import OpcodeRegistry.Proofs.Table.Offence

/-! # Tables of another width

The width of a table only limits its codes. Declarations that build a table in one width build the
same one in every greater width, and what else is wrong with them is wrong in both. So if they build
a table in the greater width, one thing can go wrong in the smaller: the first code that is too large
for it.
-/

namespace OpcodeRegistry

/-- The error is about a code that cannot be written in the width. -/
def TableError.OutOfRange : TableError → Prop
  | codeOutOfRange .. => True
  | _ => False

variable {v w : CodeWidth} {declarations before : List Entry} {e : Entry} {error : TableError}
  {t : Table}

/-! ## One declaration -/

/-- Only one rule depends on the width. -/
theorem Breaks.of_not_outOfRange (h : Breaks v before e error) (hrange : ¬ error.OutOfRange) :
    Breaks w before e error := by
  cases h with
  | emptyMnemonic h => exact .emptyMnemonic h
  | invalidMnemonic h => exact .invalidMnemonic h
  | codeOutOfRange _ => exact absurd trivial hrange
  | duplicateMnemonic hd h => exact .duplicateMnemonic hd h
  | unknownCanonical halias h => exact .unknownCanonical halias h
  | aliasOfAlias halias hd hname h => exact .aliasOfAlias halias hd hname h
  | aliasCodeMismatch halias hd hname h => exact .aliasCodeMismatch halias hd hname h
  | codeCollision hcanonical hd howner h => exact .codeCollision hcanonical hd howner h

/-- A code that is out of range in one width is so in every smaller one. -/
theorem Breaks.outOfRange_of_bits_le (hle : v.bits ≤ w.bits) (h : Breaks w before e error)
    (hrange : error.OutOfRange) : Breaks v before e (.codeOutOfRange e.mnemonic e.code v) := by
  cases h with
  | codeOutOfRange h =>
      have hpow : 2 ^ v.bits ≤ 2 ^ w.bits := Nat.pow_le_pow_right (by decide) hle
      exact .codeOutOfRange (Nat.le_trans hpow h)
  | _ => exact absurd hrange id

/-- What is refused for any other reason is refused for the same one in a greater width. -/
theorem IsOffence.of_bits_le (hle : v.bits ≤ w.bits) (h : IsOffence v before e error)
    (hrange : ¬ error.OutOfRange) : IsOffence w before e error := by
  refine ⟨h.breaks.of_not_outOfRange hrange, ?_⟩
  intro other hother
  by_cases hother' : other.OutOfRange
  · have hrank := h.first _ (hother.outOfRange_of_bits_le hle hother')
    cases hother with
    | codeOutOfRange _ => exact hrank
    | _ => exact absurd hother' id
  · exact h.first _ (hother.of_not_outOfRange hother')

/-! ## All declarations -/

theorem Accepted.of_bits_le (hle : v.bits ≤ w.bits) (h : Accepted v declarations) :
    Accepted w declarations := by
  apply h.of_code_mem
  intro e he
  exact CodeWidth.mem_of_bits_le hle (h.code_mem e he)

namespace Table

/-- What builds a table builds the same one in a greater width. -/
theorem exists_build_of_bits_le (hle : v.bits ≤ w.bits) (h : build v declarations = .ok t) :
    ∃ t', build w declarations = .ok t' ∧ t'.width = w ∧ Agree t t' := by
  obtain ⟨haccepted, rfl⟩ := build_eq_ok_iff.mp h
  exact ⟨_, build_eq_ok_iff.mpr ⟨haccepted.of_bits_le hle, rfl⟩, rfl,
    agree_width (ofEntries v declarations) w⟩

/-- What is refused, but not for its range, is refused for the same reason in a greater width. -/
theorem build_error_of_bits_le (hle : v.bits ≤ w.bits) (h : build v declarations = .error error)
    (hrange : ¬ error.OutOfRange) : build w declarations = .error error := by
  obtain ⟨before, e, after, hsplit, haccepted, hoffence⟩ := build_eq_error_iff.mp h
  exact build_eq_error_iff.mpr
    ⟨before, e, after, hsplit, haccepted.of_bits_le hle, hoffence.of_bits_le hle hrange⟩

/-- What builds a table in some width builds one in each width that has its codes. -/
theorem exists_build_iff_of_build (h : build w declarations = .ok t) (v : CodeWidth) :
    (∃ t', build v declarations = .ok t') ↔ ∀ e ∈ declarations, e.code.toNat < 2 ^ v.bits := by
  have haccepted := (build_eq_ok_iff.mp h).1
  constructor
  · intro hbuilt
    obtain ⟨t', h'⟩ := hbuilt
    intro e he
    exact CodeWidth.mem_iff.mp ((build_eq_ok_iff.mp h').1.code_mem e he)
  · intro hcodes
    have haccepted' := haccepted.of_code_mem fun e he => CodeWidth.mem_iff.mpr (hcodes e he)
    exact ⟨_, build_eq_ok_iff.mpr ⟨haccepted', rfl⟩⟩

/-- What builds a table in a greater width is refused in a smaller one for its first code that is
too large. -/
theorem build_eq_error_iff_of_build (hle : v.bits ≤ w.bits) (h : build w declarations = .ok t) :
    build v declarations = .error error ↔ ∃ before e after, declarations = before ++ e :: after ∧
      (∀ d ∈ before, d.code.toNat < 2 ^ v.bits) ∧ 2 ^ v.bits ≤ e.code.toNat ∧
      error = .codeOutOfRange e.mnemonic e.code v := by
  have haccepted := (build_eq_ok_iff.mp h).1
  constructor
  · intro herror
    -- any other error would stand in the greater width too
    have hrange : error.OutOfRange := by
      by_contra hrange
      rw [build_error_of_bits_le hle herror hrange] at h
      exact absurd h (by simp)
    obtain ⟨before, e, after, hsplit, hbefore, hoffence⟩ := build_eq_error_iff.mp herror
    have hcodes : ∀ d ∈ before, d.code.toNat < 2 ^ v.bits := fun d hd =>
      CodeWidth.mem_iff.mp (hbefore.code_mem d hd)
    cases hoffence.breaks with
    | codeOutOfRange hlarge => exact ⟨before, e, after, hsplit, hcodes, hlarge, rfl⟩
    | _ => exact absurd hrange id
  · intro hfirst
    obtain ⟨before, e, after, rfl, hcodes, hlarge, rfl⟩ := hfirst
    have hbefore := haccepted.front.of_code_mem fun d hd => CodeWidth.mem_iff.mpr (hcodes d hd)
    have hname := haccepted.isMnemonic e (by simp)
    refine build_eq_error_iff.mpr ⟨before, e, after, rfl, hbefore, .codeOutOfRange hlarge, ?_⟩
    intro other hother
    exact hother.two_le_rank hname

/-- The width is only a limit on the codes. Where declarations build a table, a greater width gives
the same table, and where they are refused for anything but the range of a code, it gives the same
error. What builds a table in the greater width builds one in the smaller if its codes fit, and is
otherwise refused for the first that does not. There is a width of 1 to 32 bits and no other, and in
none of them the shift for the largest code leaves the word. -/
theorem build_across_widths (hle : v.bits ≤ w.bits) (declarations : List Entry) :
    (∀ t, build v declarations = .ok t →
      ∃ t', build w declarations = .ok t' ∧ t'.width = w ∧ Agree t t') ∧
    (∀ error : TableError, build v declarations = .error error → ¬ error.OutOfRange →
      build w declarations = .error error) ∧
    (∀ t, build w declarations = .ok t →
      ((∃ t', build v declarations = .ok t') ↔
        ∀ e ∈ declarations, e.code.toNat < 2 ^ v.bits) ∧
      ∀ error, build v declarations = .error error ↔
        ∃ before e after, declarations = before ++ e :: after ∧
          (∀ d ∈ before, d.code.toNat < 2 ^ v.bits) ∧ 2 ^ v.bits ≤ e.code.toNat ∧
          error = .codeOutOfRange e.mnemonic e.code v) ∧
    ∀ bits,
      ((∃ u, CodeWidth.ofBits? bits = some u) ↔ 1 ≤ bits ∧ bits ≤ 32) ∧
      ∀ u, CodeWidth.ofBits? bits = some u → u.bits = bits ∧ u.maxCode.toNat = 2 ^ bits - 1 ∧
        (bits ≠ 32 → bits < 32 ∧ u.maxCode = (1 <<< UInt32.ofNat bits) - 1 ∧
          ((1 : Code) <<< UInt32.ofNat bits).toNat = 2 ^ bits) := by
  refine ⟨fun t => exists_build_of_bits_le hle, fun error => build_error_of_bits_le hle, ?_, ?_⟩
  · intro t h
    exact ⟨exists_build_iff_of_build h v, fun error => build_eq_error_iff_of_build hle h⟩
  · intro bits
    refine ⟨CodeWidth.exists_ofBits?_iff, ?_⟩
    intro u hu
    obtain rfl := CodeWidth.ofBits?_eq_some_iff.mp hu
    refine ⟨rfl, u.toNat_maxCode, ?_⟩
    intro hbits
    -- only at 32 bits the largest code is not made by a shift
    have hlt : u.bits < 32 := Nat.lt_of_le_of_ne u.bits_le hbits
    exact ⟨hlt, if_neg hbits, CodeWidth.toNat_one_shiftLeft hlt⟩

/-- In four bits the first of two large codes is refused. A name that comes twice is refused in either
width, whatever stands behind it. -/
theorem build_across_widths_large_call :
    let nibble : CodeWidth := { bits := 4 }
    (∃ t t', build nibble [⟨"HALT", 1, none⟩, ⟨"CALL", 9, none⟩] = .ok t ∧
      build .byte [⟨"HALT", 1, none⟩, ⟨"CALL", 9, none⟩] = .ok t' ∧ t'.width = .byte ∧ Agree t t') ∧
    build nibble [⟨"HALT", 1, none⟩, ⟨"HALT", 2, none⟩, ⟨"CALL", 20, none⟩] =
      .error (.duplicateMnemonic "HALT") ∧
    build .byte [⟨"HALT", 1, none⟩, ⟨"HALT", 2, none⟩, ⟨"CALL", 20, none⟩] =
      .error (.duplicateMnemonic "HALT") ∧
    build nibble [⟨"HALT", 1, none⟩, ⟨"CALL", 20, none⟩, ⟨"JUMP", 30, none⟩] =
      .error (.codeOutOfRange "CALL" 20 nibble) := by
  intro nibble
  have hle : nibble.bits ≤ CodeWidth.byte.bits := by decide
  have hcalls := build_eq_ok_iff.mpr ⟨(by decide : Accepted nibble
    [⟨"HALT", 1, none⟩, ⟨"CALL", 9, none⟩]), rfl⟩
  have hlarge := build_eq_ok_iff.mpr ⟨(by decide : Accepted .byte
    [⟨"HALT", 1, none⟩, ⟨"CALL", 20, none⟩, ⟨"JUMP", 30, none⟩]), rfl⟩
  have htwice : build nibble [⟨"HALT", 1, none⟩, ⟨"HALT", 2, none⟩, ⟨"CALL", 20, none⟩] =
      .error (.duplicateMnemonic "HALT") := by
    refine build_eq_error_iff.mpr ⟨[⟨"HALT", 1, none⟩], ⟨"HALT", 2, none⟩, [⟨"CALL", 20, none⟩], rfl,
      by decide, .duplicateMnemonic List.mem_cons_self rfl, ?_⟩
    -- the name is an identifier and the code fits, so this is the first rule broken
    intro other hother
    exact hother.three_le_rank (by decide) (by decide)
  obtain ⟨t', h', hwidth, hagree⟩ := (build_across_widths hle _).1 _ hcalls
  refine ⟨⟨_, t', hcalls, h', hwidth, hagree⟩, htwice, ?_, ?_⟩
  · exact (build_across_widths hle _).2.1 _ htwice id
  · exact (((build_across_widths hle _).2.2.1 _ hlarge).2 _).mpr
      ⟨[⟨"HALT", 1, none⟩], ⟨"CALL", 20, none⟩, [⟨"JUMP", 30, none⟩], rfl, by decide, by decide, rfl⟩

end Table

end OpcodeRegistry
