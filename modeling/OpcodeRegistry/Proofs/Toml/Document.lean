import OpcodeRegistry.Proofs.Toml.Assignment
import OpcodeRegistry.Toml.Document

/-! # Documents of one-line assignments

A document whose lines all give a bare key a hexadecimal integer, with a comment behind it, is read
to those keys and integers in the order of the lines, unless a key stands on two of them:
`Document.ofText?_hexLines`. The state of the reader between two lines is the open table, so the
document is settled by what one line does to it.
-/

namespace OpcodeRegistry.Toml

open Text

/-! ## One new key after another -/

theorem lookup_eq_none_iff {entries : Entries} {key : String} :
    entries.lookup key = none ↔ key ∉ entries.map Prod.fst := by
  rw [List.lookup_eq_none_iff]
  simp only [List.mem_map, not_exists, not_and]
  constructor
  · intro h entry hentry heq
    have hne := h entry hentry
    rw [heq] at hne
    exact absurd hne (by simp)
  · intro h entry hentry
    have hne : key ≠ entry.1 := fun heq => h entry hentry heq.symm
    simpa using hne

theorem Entries.insertNew?_eq_some_iff {entries entries' : Entries} {key : String} {node : Node} :
    entries.insertNew? key node = some entries' ↔
      key ∉ entries.map Prod.fst ∧ entries' = entries ++ [(key, node)] := by
  unfold Entries.insertNew?
  cases hlookup : entries.lookup key with
  | none =>
      have hnew := lookup_eq_none_iff.mp hlookup
      simp only [Option.some.injEq, hnew, not_false_eq_true, true_and]
      exact eq_comm
  | some node' =>
      constructor
      · intro h
        exact absurd h (by simp)
      · rintro ⟨hnew, -⟩
        rw [lookup_eq_none_iff.mpr hnew] at hlookup
        exact absurd hlookup (by simp)

/-- Adds new keys one after another. -/
def Entries.insertAll? (entries items : Entries) : Option Entries :=
  items.foldlM (fun entries item => insertNew? entries item.1 item.2) entries

theorem Entries.insertAll?_cons (entries items : Entries) (item : String × Node) :
    entries.insertAll? (item :: items) =
      (entries.insertNew? item.1 item.2).bind fun next => next.insertAll? items := by
  rfl

/-- Keys can be added one after another if and only if no two of them are equal. -/
theorem Entries.insertAll?_eq_some_iff {items entries entries' : Entries}
    (h : (entries.map Prod.fst).Nodup) :
    entries.insertAll? items = some entries' ↔
      ((entries ++ items).map Prod.fst).Nodup ∧ entries' = entries ++ items := by
  induction items generalizing entries with
  | nil =>
      rw [List.append_nil]
      unfold insertAll?
      rw [List.foldlM_nil]
      simp only [Option.pure_def, Option.some.injEq, h, true_and]
      exact eq_comm
  | cons item items ih =>
      -- the first key is new to `entries`, and the others are held against it as well
      have hsplit : entries ++ item :: items = (entries ++ [item]) ++ items := by
        rw [List.append_assoc, List.singleton_append]
      rw [insertAll?_cons, Option.bind_eq_some_iff, hsplit]
      constructor
      · rintro ⟨next, hnext, hrest⟩
        rcases insertNew?_eq_some_iff.mp hnext with ⟨hnew, rfl⟩
        have hnodup : ((entries ++ [item]).map Prod.fst).Nodup := by
          rw [List.map_append, List.map_singleton, List.nodup_append]
          refine ⟨h, List.pairwise_singleton _ item.1, ?_⟩
          intro key hkey name hname heq
          rw [heq, List.mem_singleton.mp hname] at hkey
          exact hnew hkey
        exact (ih hnodup).mp hrest
      · rintro ⟨hnodup, rfl⟩
        have hprefix : ((entries ++ [item]).map Prod.fst).Nodup := by
          rw [List.map_append] at hnodup
          exact (List.nodup_append.mp hnodup).1
        have hnew : item.1 ∉ entries.map Prod.fst := by
          rw [List.map_append, List.map_singleton] at hprefix
          intro hmem
          exact (List.nodup_append.mp hprefix).2.2 _ hmem _ (List.mem_singleton_self _) rfl
        exact ⟨entries ++ [item], insertNew?_eq_some_iff.mpr ⟨hnew, rfl⟩,
          (ih hprefix).mpr ⟨hnodup, rfl⟩⟩

/-- A key without dots goes to the open table itself. -/
theorem Entries.assign?_nil (entries : Entries) (key : String) (v : Value) :
    entries.assign? [] key v = entries.insertNew? key (.value v) := by
  unfold Entries.assign? Entries.descend
  simp [Option.map_map, Function.comp_def]

/-! ## Lines -/

/-- A line that gives a key a hexadecimal integer and ends in a comment. -/
structure HexLine where
  name : String
  /-- The number of blanks before the equals sign, one more apart. -/
  blanks : Nat
  /-- The least number of digits. -/
  digits : Nat
  value : Nat
  /-- The comment behind its mark. -/
  comment : List Char

namespace HexLine

/-- The text of the line, its end included. -/
def text (l : HexLine) : List Char :=
  l.name.toList ++ (List.replicate (l.blanks + 1) ' ' ++ '=' :: ' ' :: '0' :: 'x' ::
    (numeral 16 l.digits l.value ++ ' ' :: '#' :: (l.comment ++ ['\n'])))

/-- What a document can hold as such a line. -/
structure WellFormed (l : HexLine) : Prop where
  bare : IsBareKey l.name
  fits : l.value < 2 ^ 63
  inline : ∀ c ∈ l.comment, isCommentChar c = true

/-- What the line gives its key. -/
def entry (l : HexLine) : String × Value :=
  (l.name, .integer l.value)

/-- The same while the document is read. -/
def node (l : HexLine) : String × Node :=
  (l.name, .value (.integer l.value))

theorem text_ne_nil (l : HexLine) : l.text ≠ [] := by
  simp [text]

theorem toFields_map_node (lines : List HexLine) :
    Node.toFields (lines.map node) = lines.map entry := by
  induction lines with
  | nil => rfl
  | cons l lines ih =>
      rw [List.map_cons, List.map_cons, ← ih]
      rfl

/-- No integer stands for a date. -/
theorem fieldsWithDates?_map_entry (lines : List HexLine) :
    Value.fieldsWithDates? (lines.map entry) = some (lines.map entry) := by
  induction lines with
  | nil => rfl
  | cons l lines ih =>
      have hvalue : (Value.integer l.value).withDates? = some (.integer l.value) := by
        simp [Value.withDates?]
      rw [List.map_cons]
      unfold entry at ih ⊢
      simp [Value.fieldsWithDates?, hvalue, ih]

theorem names_map_node (lines : List HexLine) :
    (lines.map node).map Prod.fst = lines.map name := by
  rw [List.map_map]
  rfl

end HexLine

/-- A comment is left out up to the end of its line. -/
theorem finishLine?_comment {comment : List Char} (h : ∀ c ∈ comment, isCommentChar c = true)
    (rest : List Char) : finishLine? (' ' :: '#' :: (comment ++ '\n' :: rest)) = some rest := by
  have hskip : skipBlanks (' ' :: '#' :: (comment ++ '\n' :: rest)) =
      '#' :: (comment ++ '\n' :: rest) := skipBlanks_spaces 1 rfl _
  have hcomment : skipComment ('#' :: (comment ++ '\n' :: rest)) = '\n' :: rest := by
    change (comment ++ '\n' :: rest).dropWhile isCommentChar = _
    rw [List.dropWhile_append_of_pos h, List.dropWhile_cons_of_neg (by decide)]
  unfold finishLine?
  rw [hskip, hcomment]
  rfl

namespace Document

/-- Behind a bracket alone a line is a header. -/
theorem statement?_cons {c : Char} (hc : c ≠ '[') (d : Document) (s : List Char) :
    d.statement? (c :: s) = (assignment? (value? (nestingLimit - 1)) (c :: s)).bind
      fun ((key, v), rest) => (d.assign? key v).bind fun next => some (next, rest) := by
  unfold statement?
  split
  · rename_i heq
    exact absurd (List.cons.inj heq).1 hc
  · rename_i heq
    exact absurd (List.cons.inj heq).1 hc
  · rfl

/-- Gives the key of the line its integer. -/
def assignLine? (d : Document) (l : HexLine) : Option Document :=
  d.assign? { path := [], name := l.name } (.integer l.value)

theorem assignLine?_eq (d : Document) (l : HexLine) :
    d.assignLine? l = (d.current.insertNew? l.name l.node.2).map fun current =>
      { d with current } := by
  unfold assignLine? Document.assign?
  rw [Entries.assign?_nil]
  rfl

/-- The reader takes the line off and gives its key the integer. -/
theorem lineRound_hexLine {l : HexLine} (h : l.WellFormed) (d : Document) (rest : List Char) :
    d.lineRound (l.text ++ rest) = (d.assignLine? l).map fun next => (.again next, rest) := by
  rcases List.exists_cons_of_ne_nil h.bare.1 with ⟨c, s, hcons⟩
  have hc : isBareKeyChar c = true := h.bare.2 c (by simp [hcons])
  have htext : l.text ++ rest = l.name.toList ++ (List.replicate (l.blanks + 1) ' ' ++
      '=' :: ' ' :: '0' :: 'x' ::
        (numeral 16 l.digits l.value ++ ' ' :: '#' :: (l.comment ++ '\n' :: rest))) := by
    simp [HexLine.text]
  have hassign := assignment?_hex h.bare h.fits (nestingLimit - 1) l.digits l.blanks
    ('#' :: (l.comment ++ '\n' :: rest))
  have hfinish := finishLine?_comment h.inline rest
  -- the line starts with its key, so it is no comment, no empty line and no header
  have hmarks : ¬ (c = '#' ∨ c = '\n' ∨ c = '\r') := by
    rintro (hmark | hmark | hmark)
    · exact ne_of_isBareKeyChar hc rfl hmark
    · exact ne_of_isBareKeyChar hc rfl hmark
    · exact ne_of_isBareKeyChar hc rfl hmark
  have hbracket : c ≠ '[' := ne_of_isBareKeyChar hc rfl
  rw [htext, hcons, List.cons_append]
  rw [hcons, List.cons_append] at hassign
  unfold lineRound
  rw [skipBlanks_cons (isBlank_of_isBareKeyChar hc)]
  simp only [hmarks, if_false, statement?_cons hbracket, hassign]
  unfold assignLine?
  cases hnext : d.assign? { path := [], name := l.name } (.integer l.value) with
  | none => simp [hnext]
  | some next => simp [hnext, hfinish]

/-- Lines that open no table add to the table that is open. -/
theorem foldlM_assignLine? (lines : List HexLine) (d : Document) :
    lines.foldlM assignLine? d =
      (d.current.insertAll? (lines.map HexLine.node)).map fun current => { d with current } := by
  induction lines generalizing d with
  | nil => rfl
  | cons l lines ih =>
      rw [List.map_cons, List.foldlM_cons, Entries.insertAll?_cons, assignLine?_eq]
      change ((d.current.insertNew? l.name l.node.2).map _).bind _ =
        ((d.current.insertNew? l.name l.node.2).bind _).map _
      cases d.current.insertNew? l.name l.node.2 with
      | none => rfl
      | some next => exact ih { d with current := next }

/-- No byte order mark stands in front of the lines. -/
theorem skipOne_flatMap_text {lines : List HexLine} (h : ∀ l ∈ lines, l.WellFormed) :
    skipOne '\uFEFF' (lines.flatMap HexLine.text) = lines.flatMap HexLine.text := by
  cases lines with
  | nil => rfl
  | cons l lines =>
      have hbare := (h l List.mem_cons_self).bare
      rcases List.exists_cons_of_ne_nil hbare.1 with ⟨c, s, hcons⟩
      have hmark : c ≠ '\uFEFF' := ne_of_isBareKeyChar (hbare.2 c (by simp [hcons])) rfl
      refine skipOne_of_head?_ne ?_
      simp [HexLine.text, hcons, hmark]

/-- Lines with pairwise different keys are read to those keys and their integers, in order. No
document gives a key twice. -/
theorem ofText?_hexLines {lines : List HexLine} (h : ∀ l ∈ lines, l.WellFormed)
    {text : String} (htext : text.toList = lines.flatMap HexLine.text)
    {fields : List (String × Value)} :
    ofText? text = some fields ↔
      (lines.map HexLine.name).Nodup ∧ fields = lines.map HexLine.entry := by
  have hread : rounds lineRound {} (skipOne '\uFEFF' text.toList) =
      (lines.foldlM assignLine? {}).map fun d => (d, []) := by
    have hdone : ∀ d, lineRound d [] = some (.done d, []) := by
      intro d
      rfl
    rw [htext, skipOne_flatMap_text h]
    refine rounds_flatMap (fun l _ => HexLine.text_ne_nil l) ?_ hdone {}
    intro l hl d rest
    exact lineRound_hexLine (h l hl) d rest
  -- what is left is whether the keys can be added one after another
  have hinsert : ∀ nodes, Entries.insertAll? [] (lines.map HexLine.node) = some nodes ↔
      (lines.map HexLine.name).Nodup ∧ nodes = lines.map HexLine.node := by
    intro nodes
    have hempty : (([] : Entries).map Prod.fst).Nodup := List.nodup_nil
    rw [Entries.insertAll?_eq_some_iff hempty, List.nil_append, HexLine.names_map_node]
  unfold ofText?
  rw [hread, foldlM_assignLine?]
  cases hnodes : Entries.insertAll? [] (lines.map HexLine.node) with
  | none =>
      constructor
      · intro hfields
        exact absurd hfields (by simp)
      · rintro ⟨hnodup, -⟩
        rw [(hinsert _).mpr ⟨hnodup, rfl⟩] at hnodes
        exact absurd hnodes (by simp)
  | some nodes =>
      rcases (hinsert nodes).mp hnodes with ⟨hnodup, rfl⟩
      have hfields : Value.fieldsWithDates? (Node.toFields (lines.map HexLine.node)) =
          some (lines.map HexLine.entry) := by
        rw [HexLine.toFields_map_node, HexLine.fieldsWithDates?_map_entry]
      simp [hnodup, close?, hfields, eq_comm]

end Document

end OpcodeRegistry.Toml
