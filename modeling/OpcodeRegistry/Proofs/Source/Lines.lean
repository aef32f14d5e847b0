import OpcodeRegistry.Proofs.Text.Lines
import OpcodeRegistry.Source

/-! # The lines of a text as a source

A source is cut at its line feeds before anything is decoded. In UTF-8 the byte of a line feed stands
for that character alone, so the cut goes through no other character: a source is UTF-8 if and only
if each of its lines is, and the lines of a text are decoded to what they are in the text.
-/

namespace OpcodeRegistry.Source

open Text

/-- The lines of a text as they are read: without line feeds, and without the carriage returns at
their ends. -/
def textLines (text : String) : List String :=
  (linesOf text).map trimReturns

/-- Nothing is taken off a line that ends in no carriage return. -/
theorem trimReturns_eq_self {line : String} (h : line.toList.getLast? ≠ some '\r') :
    trimReturns line = line := by
  have hdrop : line.toList.reverse.dropWhile (· == '\r') = line.toList.reverse := by
    rw [← List.head?_reverse] at h
    cases hchars : line.toList.reverse with
    | nil => rfl
    | cons c rest =>
        rw [hchars] at h
        exact List.dropWhile_cons_of_neg (by simpa using h)
  unfold trimReturns
  rw [hdrop, List.reverse_reverse, String.ofList_toList]

/-- Lines that are written with their line feeds are read as they are, if no character of an ending
is part of them. -/
theorem textLines_join {lines : List String} (hfeed : ∀ line ∈ lines, '\n' ∉ line.toList)
    (hreturn : ∀ line ∈ lines, line.toList.getLast? ≠ some '\r') :
    textLines (String.join (lines.map (· ++ "\n"))) = lines := by
  unfold textLines
  rw [linesOf_join hfeed, List.map_congr_left fun line hline => trimReturns_eq_self (hreturn line hline),
    List.map_id']

theorem lines_eq_endedBy (source : ByteArray) :
    lines source = endedBy lineFeed source.data.toList := rfl

/-! ## Line feeds in UTF-8 -/

theorem lineFeed_eq_ofNat_iff {n : Nat} (h : n < 256) : lineFeed = UInt8.ofNat n ↔ n = 10 := by
  unfold lineFeed
  rw [← UInt8.toNat_inj, UInt8.toNat_ofNat', Nat.mod_eq_of_lt h]
  exact eq_comm

/-- No other character has the byte of a line feed in its encoding. -/
theorem lineFeed_mem_utf8EncodeChar_iff {c : Char} :
    lineFeed ∈ String.utf8EncodeChar c ↔ c = '\n' := by
  constructor
  · intro h
    unfold String.utf8EncodeChar at h
    simp only at h
    split at h
    · -- a single byte is the number of its character
      rw [List.mem_singleton, lineFeed_eq_ofNat_iff (by omega)] at h
      exact Char.ext (UInt32.toNat_inj.mp h)
    · -- all bytes of a longer encoding are at least 128
      exfalso
      split at h
      · simp only [List.mem_cons, List.not_mem_nil, or_false] at h
        rcases h with h | h <;>
          exact absurd ((lineFeed_eq_ofNat_iff (by omega)).mp h) (by omega)
      · split at h
        · simp only [List.mem_cons, List.not_mem_nil, or_false] at h
          rcases h with h | h | h <;>
            exact absurd ((lineFeed_eq_ofNat_iff (by omega)).mp h) (by omega)
        · simp only [List.mem_cons, List.not_mem_nil, or_false] at h
          rcases h with h | h | h | h <;>
            exact absurd ((lineFeed_eq_ofNat_iff (by omega)).mp h) (by omega)
  · rintro rfl
    decide

/-- The bytes of characters in UTF-8. -/
def bytesOf (cs : List Char) : List UInt8 :=
  cs.flatMap String.utf8EncodeChar

theorem lineFeed_mem_bytesOf_iff {cs : List Char} : lineFeed ∈ bytesOf cs ↔ '\n' ∈ cs := by
  unfold bytesOf
  simp only [List.mem_flatMap, lineFeed_mem_utf8EncodeChar_iff, exists_eq_right]

theorem bytesOf_ne_nil {cs : List Char} (h : cs ≠ []) : bytesOf cs ≠ [] := by
  unfold bytesOf
  rcases List.exists_cons_of_ne_nil h with ⟨c, cs, rfl⟩
  simp [String.utf8EncodeChar_ne_nil]

theorem bytesOf_append_cons (front rest : List Char) :
    bytesOf (front ++ '\n' :: rest) = bytesOf front ++ lineFeed :: bytesOf rest := by
  unfold bytesOf
  rw [List.flatMap_append, List.flatMap_cons]
  rfl

/-- Cutting characters at line feeds and cutting their bytes comes to the same. -/
theorem endedBy_bytesOf (cs : List Char) :
    endedBy lineFeed (bytesOf cs) = (endedBy '\n' cs).map bytesOf := by
  induction cs using endedBy_induction '\n' with
  | nil => rfl
  | last cs hne hmem =>
      rw [endedBy_of_not_mem hne hmem,
        endedBy_of_not_mem (bytesOf_ne_nil hne) (mt lineFeed_mem_bytesOf_iff.mp hmem)]
      rfl
  | cons front rest hfront ih =>
      rw [bytesOf_append_cons, endedBy_append_cons_of_not_mem hfront,
        endedBy_append_cons_of_not_mem (mt lineFeed_mem_bytesOf_iff.mp hfront), ih]
      rfl

/-! ## Decoding -/

theorem decodeLine?_isSome_iff {line : List UInt8} :
    (decodeLine? line).isSome ↔ line.toByteArray.IsValidUTF8 := by
  unfold decodeLine? String.fromUTF8?
  by_cases h : line.toByteArray.IsValidUTF8
  · simp [h]
  · simp [h]

theorem decodeLine?_bytesOf (cs : List Char) :
    decodeLine? (bytesOf cs) = some (trimReturns (String.ofList cs)) := by
  have hvalid : (bytesOf cs).toByteArray.IsValidUTF8 := .intro cs rfl
  unfold decodeLine? String.fromUTF8?
  rw [dif_pos hvalid]
  rfl

theorem toList_toUTF8 (text : String) : text.toUTF8.data.toList = bytesOf text.toList := by
  have hbytes : text.toUTF8 = (bytesOf text.toList).toByteArray := by
    change text.toByteArray = (String.ofList text.toList).toByteArray
    rw [String.ofList_toList]
  rw [hbytes, List.toList_data_toByteArray]

/-- The lines of a text are decoded to its lines. -/
theorem map_decodeLine?_toUTF8 (text : String) :
    (lines text.toUTF8).map decodeLine? = (textLines text).map some := by
  rw [lines_eq_endedBy, toList_toUTF8, endedBy_bytesOf]
  unfold textLines linesOf
  simp only [List.map_map]
  apply List.map_congr_left
  intro cs _
  exact decodeLine?_bytesOf cs

/-! ## Which sources are text -/

theorem exists_bytesOf_of_isValidUTF8 {source : ByteArray} (h : source.IsValidUTF8) :
    ∃ cs, source.data.toList = bytesOf cs := by
  obtain ⟨cs, rfl⟩ := h
  exact ⟨cs, List.toList_data_toByteArray⟩

/-- Lines in UTF-8 make a source in UTF-8. -/
theorem isValidUTF8_of_endedBy {bytes : List UInt8}
    (h : ∀ line ∈ endedBy lineFeed bytes, line.toByteArray.IsValidUTF8) :
    bytes.toByteArray.IsValidUTF8 := by
  -- by lines, since the bytes of one character must not be taken apart
  induction bytes using endedBy_induction lineFeed with
  | nil => exact ByteArray.isValidUTF8_empty
  | last bytes hne hmem =>
      rw [endedBy_of_not_mem hne hmem] at h
      exact h bytes (List.mem_singleton_self bytes)
  | cons front rest hfront ih =>
      rw [endedBy_append_cons_of_not_mem hfront] at h
      have hrest := ih fun line hline => h line (List.mem_cons_of_mem _ hline)
      -- the line feed between the lines is a character by itself
      have hfeed : [lineFeed].toByteArray.IsValidUTF8 := .intro ['\n'] rfl
      rw [← List.singleton_append, List.toByteArray_append, List.toByteArray_append]
      exact (h front List.mem_cons_self).append (hfeed.append hrest)

/-- A source is UTF-8 if and only if each of its lines can be decoded. -/
theorem isValidUTF8_iff {source : ByteArray} :
    source.IsValidUTF8 ↔ ∀ line ∈ lines source, (decodeLine? line).isSome := by
  rw [lines_eq_endedBy]
  constructor
  · intro h line hline
    -- text falls into the encodings of its lines, as no other character has the byte of a line feed
    rcases exists_bytesOf_of_isValidUTF8 h with ⟨cs, hcs⟩
    rw [hcs, endedBy_bytesOf] at hline
    rcases List.mem_map.mp hline with ⟨piece, -, rfl⟩
    rw [decodeLine?_bytesOf]
    rfl
  · intro h
    have hvalid := isValidUTF8_of_endedBy fun line hline => decodeLine?_isSome_iff.mp (h line hline)
    have hsource : source.data.toList.toByteArray = source := by
      apply ByteArray.ext
      rw [← Array.toList_inj, List.toList_data_toByteArray]
    rwa [hsource] at hvalid

/-- A source in UTF-8 is that of a text. -/
theorem exists_toUTF8_eq {source : ByteArray} (h : source.IsValidUTF8) :
    ∃ text : String, source = text.toUTF8 :=
  ⟨.ofByteArray source h, rfl⟩

/-! ## Readings -/

/-- What the lines of a source are read as: a text each, or nothing where the bytes are no text. -/
def readings (source : ByteArray) : List (Option String) :=
  (lines source).map decodeLine?

theorem readings_toUTF8 (text : String) : readings text.toUTF8 = (textLines text).map some :=
  map_decodeLine?_toUTF8 text

/-- A source is UTF-8 if and only if all its lines are read as texts. -/
theorem isValidUTF8_iff_readings {source : ByteArray} :
    source.IsValidUTF8 ↔ none ∉ readings source := by
  rw [isValidUTF8_iff]
  unfold readings
  simp only [List.mem_map, not_exists, not_and, Option.isSome_iff_ne_none, ne_eq]

end OpcodeRegistry.Source
