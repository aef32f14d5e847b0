import OpcodeRegistry.Proofs.Text.Numeral
import OpcodeRegistry.Proofs.Text.Scan
import OpcodeRegistry.Toml.Reader

/-! # Reading an assignment

Of the many ways to write an assignment, one is followed here from end to end: a bare key, blanks,
and a hexadecimal integer that a blank ends. Each scanner takes exactly its part of such a text and
leaves the rest.
-/

namespace OpcodeRegistry.Toml

open Text

/-! ## Scanning up to a character -/

theorem skipBlanks_cons {c : Char} (hc : isBlank c = false) (rest : List Char) :
    skipBlanks (c :: rest) = c :: rest := by
  unfold skipBlanks
  rw [List.dropWhile_cons_of_neg (by simp [hc])]

theorem skipBlanks_spaces (k : Nat) {c : Char} (hc : isBlank c = false) (rest : List Char) :
    skipBlanks (List.replicate k ' ' ++ c :: rest) = c :: rest := by
  unfold skipBlanks
  rw [List.dropWhile_append_of_pos, List.dropWhile_cons_of_neg (by simp [hc])]
  intro b hb
  rw [List.eq_of_mem_replicate hb]
  rfl

/-- Digits are taken up to a character that is neither a digit nor an underscore. -/
theorem moreDigits_append {p : Char → Bool} {s : List Char} (hs : ∀ c ∈ s, p c = true)
    (hunderscore : '_' ∉ s) {c : Char} (hc : p c = false) (hne : c ≠ '_') (rest : List Char) :
    moreDigits p (s ++ c :: rest) = (s, c :: rest) := by
  induction s with
  | nil =>
      rw [List.nil_append]
      -- the three ways of going on: an underscore, another character, the end
      unfold moreDigits
      split
      · rename_i heq
        exact absurd (List.cons.inj heq).1 hne
      · rename_i heq
        rcases List.cons.inj heq with ⟨rfl, rfl⟩
        simp [hc]
      · rename_i heq
        exact absurd heq (by simp)
  | cons a s ih =>
      rw [List.mem_cons, not_or] at hunderscore
      rcases hunderscore with ⟨ha, hs'⟩
      have hpa : p a = true := hs a List.mem_cons_self
      have hih := ih (fun b hb => hs b (List.mem_cons_of_mem a hb)) hs'
      rw [List.cons_append]
      unfold moreDigits
      split
      · rename_i heq
        exact absurd (List.cons.inj heq).1.symm ha
      · rename_i heq
        rcases List.cons.inj heq with ⟨rfl, rfl⟩
        simp [hpa, hih]
      · rename_i heq
        exact absurd heq (by simp)

theorem digits?_append {p : Char → Bool} {s : List Char} (hempty : s ≠ [])
    (hs : ∀ c ∈ s, p c = true) (hunderscore : '_' ∉ s) {c : Char} (hc : p c = false) (hne : c ≠ '_')
    (rest : List Char) : digits? p (s ++ c :: rest) = some (s, c :: rest) := by
  cases s with
  | nil => exact absurd rfl hempty
  | cons a s =>
      rw [List.mem_cons, not_or] at hunderscore
      rcases hunderscore with ⟨-, hs'⟩
      have hpa : p a = true := hs a List.mem_cons_self
      have hmore := moreDigits_append (fun b hb => hs b (List.mem_cons_of_mem a hb)) hs' hc hne rest
      rw [List.cons_append]
      unfold digits?
      simp [hpa, hmore]

/-! ## Bare keys -/

/-- A name that can be written as a key without quotation marks. -/
def IsBareKey (name : String) : Prop :=
  name.toList ≠ [] ∧ ∀ c ∈ name.toList, isBareKeyChar c = true

/-- A character of a bare key is none of those that mean something in front of a key. -/
theorem ne_of_isBareKeyChar {c d : Char} (hc : isBareKeyChar c = true)
    (hd : isBareKeyChar d = false) : c ≠ d := by
  rintro rfl
  rw [hc] at hd
  exact absurd hd (by simp)

theorem lineFeed_not_mem_of_isBareKey {name : String} (h : IsBareKey name) :
    '\n' ∉ name.toList := by
  intro hmem
  exact ne_of_isBareKeyChar (h.2 _ hmem) rfl rfl

theorem isBlank_of_isBareKeyChar {c : Char} (hc : isBareKeyChar c = true) : isBlank c = false := by
  have hspace : c ≠ ' ' := ne_of_isBareKeyChar hc rfl
  have htab : c ≠ '\t' := ne_of_isBareKeyChar hc rfl
  simp [isBlank, hspace, htab]

theorem name?_cons {c : Char} (hc : isBareKeyChar c = true) (s : List Char) :
    name? (c :: s) =
      (run? isBareKeyChar (c :: s)).map fun (taken, rest) => (String.ofList taken, rest) := by
  unfold name?
  split
  · rename_i heq
    exact absurd (List.cons.inj heq).1 (ne_of_isBareKeyChar hc rfl)
  · rename_i heq
    exact absurd (List.cons.inj heq).1 (ne_of_isBareKeyChar hc rfl)
  · rfl

/-- A bare name ends where the blanks behind it begin. -/
theorem name?_bare {name : String} (h : IsBareKey name) (rest : List Char) :
    name? (name.toList ++ ' ' :: rest) = some (name, ' ' :: rest) := by
  have hrun := run?_append h.1 h.2 (c := ' ') rfl rest
  rcases List.exists_cons_of_ne_nil h.1 with ⟨c, s, hcons⟩
  have hc : isBareKeyChar c = true := h.2 c (by simp [hcons])
  have hname : String.ofList (c :: s) = name := by rw [← hcons, String.ofList_toList]
  rw [hcons] at hrun ⊢
  rw [List.cons_append, name?_cons hc, ← List.cons_append, hrun]
  simp [hname]

/-- A key that is one bare name is taken up to its equals sign. -/
theorem key?_bare {name : String} (h : IsBareKey name) (k : Nat) (rest : List Char) :
    key? (name.toList ++ (List.replicate (k + 1) ' ' ++ '=' :: rest)) =
      some ({ path := [], name }, '=' :: rest) := by
  have hskip : skipBlanks (name.toList ++ (List.replicate (k + 1) ' ' ++ '=' :: rest)) =
      name.toList ++ (List.replicate (k + 1) ' ' ++ '=' :: rest) := by
    rcases List.exists_cons_of_ne_nil h.1 with ⟨c, s, hcons⟩
    have hc : isBareKeyChar c = true := h.2 c (by simp [hcons])
    rw [hcons, List.cons_append]
    exact skipBlanks_cons (isBlank_of_isBareKeyChar hc) _
  -- no dot stands behind the blanks, so the first round is the last
  have hround : nameRound [] (name.toList ++ (List.replicate (k + 1) ' ' ++ '=' :: rest)) =
      some (.done [name], '=' :: rest) := by
    have hname := name?_bare h (List.replicate k ' ' ++ '=' :: rest)
    rw [← List.cons_append, ← List.replicate_succ] at hname
    have hequals : skipBlanks (List.replicate (k + 1) ' ' ++ '=' :: rest) = '=' :: rest :=
      skipBlanks_spaces (k + 1) rfl rest
    unfold nameRound
    rw [hskip, hname]
    simp [hequals]
  unfold key?
  rw [rounds, hround]
  simp [nestingLimit]

/-! ## Hexadecimal integers -/

/-- The digits of base 16, as a scanner of integers knows them. -/
theorem isHexDigit_digitChar {d : Nat} (hd : d < 16) :
    (digitOf? 16 d.digitChar).isSome = true := by
  rw [digitOf?_digitChar (Nat.le_refl 16) hd]
  rfl

theorem fitsInteger_natCast {n : Nat} (hn : n < 2 ^ 63) : fitsInteger (n : Int) = true := by
  unfold fitsInteger
  rw [Bool.and_eq_true, decide_eq_true_eq, decide_eq_true_eq]
  constructor
  · omega
  · omega

theorem basedInteger?_numeral {n : Nat} (hn : n < 2 ^ 63) (width : Nat) (rest : List Char) :
    basedInteger? 16 (numeral 16 width n ++ ' ' :: rest) = some ((n : Int), ' ' :: rest) := by
  have hdigits : ∀ c ∈ numeral 16 width n, (digitOf? 16 c).isSome = true := by
    intro c hc
    rcases exists_digitChar_of_mem_numeral (by decide) hc with ⟨d, hd, rfl⟩
    exact isHexDigit_digitChar hd
  -- the scanner lets underscores in, and a numeral has none
  have hunderscore : '_' ∉ numeral 16 width n := by
    intro hmem
    have hcontra := hdigits '_' hmem
    exact absurd hcontra (by decide)
  have htaken : digits? (fun c => (digitOf? 16 c).isSome) (numeral 16 width n ++ ' ' :: rest) =
      some (numeral 16 width n, ' ' :: rest) :=
    digits?_append (numeral_ne_nil 16 width n) hdigits hunderscore (by decide) (by decide) rest
  have hvalue : valueOf 16 (numeral 16 width n) = n := by
    unfold valueOf
    rw [valueOf?_numeral (by decide) (Nat.le_refl 16)]
    rfl
  unfold basedInteger?
  rw [htaken, Option.bind_eq_bind, Option.bind_some]
  simp only [hvalue]
  rw [if_pos (fitsInteger_natCast hn)]

/-- The mark of a hexadecimal integer holds no decimal numeral. -/
theorem valueOf?_hexMark (s : List Char) : valueOf? 10 ('0' :: 'x' :: s) = none := by
  rfl

theorem date?_hexMark (s : List Char) : date? ('0' :: 'x' :: s) = none := by
  have hyear := valueOf?_hexMark (s.take 2)
  unfold date? field?
  simp [hyear]

theorem time?_hexMark (s : List Char) : time? ('0' :: 'x' :: s) = none := by
  have hhour := valueOf?_hexMark []
  unfold time? field?
  simp [hhour]

/-- A number behind `0x` is neither a date nor a number in floating point. -/
theorem numeric?_hex (s : List Char) :
    numeric? ('0' :: 'x' :: s) = (basedInteger? 16 s).map fun (n, rest) => (.integer n, rest) := by
  -- behind the whole number 0 there is neither a fraction nor an exponent
  have hfloat : float? ('0' :: 'x' :: s) = none := by
    rfl
  unfold numeric? dateTime?
  rw [date?_hexMark, time?_hexMark, hfloat]
  rfl

theorem value?_hex {n : Nat} (hn : n < 2 ^ 63) (depth width : Nat) (rest : List Char) :
    value? depth ('0' :: 'x' :: (numeral 16 width n ++ ' ' :: rest)) =
      some (.integer n, ' ' :: rest) := by
  have hscalar : scalarValue? ('0' :: 'x' :: (numeral 16 width n ++ ' ' :: rest)) =
      some (.integer n, ' ' :: rest) := by
    change numeric? ('0' :: 'x' :: (numeral 16 width n ++ ' ' :: rest)) = _
    rw [numeric?_hex, basedInteger?_numeral hn]
    rfl
  cases depth with
  | zero => exact hscalar
  | succ depth => exact hscalar

/-! ## Assignments -/

/-- A bare key, blanks and a hexadecimal integer give the key the integer. -/
theorem assignment?_hex {name : String} (h : IsBareKey name) {n : Nat} (hn : n < 2 ^ 63)
    (depth width k : Nat) (rest : List Char) :
    assignment? (value? depth)
        (name.toList ++ (List.replicate (k + 1) ' ' ++ '=' :: ' ' :: '0' :: 'x' ::
          (numeral 16 width n ++ ' ' :: rest))) =
      some (({ path := [], name }, .integer n), ' ' :: rest) := by
  have hskip : skipBlanks (' ' :: '0' :: 'x' :: (numeral 16 width n ++ ' ' :: rest)) =
      '0' :: 'x' :: (numeral 16 width n ++ ' ' :: rest) := skipBlanks_spaces 1 rfl _
  -- the key takes the blanks before the equals sign along
  have hword : ∀ s, word? "=" ('=' :: s) = some s := by
    intro s
    rfl
  unfold assignment?
  rw [key?_bare h]
  simp [hword, hskip, value?_hex hn]

end OpcodeRegistry.Toml
