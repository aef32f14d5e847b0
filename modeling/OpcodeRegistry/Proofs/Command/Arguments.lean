import Mathlib.Data.List.Induction
import OpcodeRegistry.Command.Arguments

/-! # Command lines as moves

What a word of a command line asks for does not depend on the words before it; only whether it is
granted does. So the words come to a list of moves on the arguments read so far, and a command line
can be compared with one that has a switch more: `ofWords_extract_strict`.
-/

namespace OpcodeRegistry.Command

/-- What a word does to the arguments read before it. -/
inductive Move where
  | operand (word : String)
  | style (word : String)
  | switch (name : String)

/-- Makes a move, if the form of the command has room for it. -/
def Move.make (form : Form) (a : Arguments) : Move → Except Usage Arguments
  | operand word => a.addOperand form word
  | style word => a.addStyle form word
  | switch name => a.addSwitch form name

namespace Arguments

variable {form : Form} {word : String} {words rest : List String}

/-! ## One move -/

section Add

variable {a b : Arguments}

theorem addOperand_eq_ok_iff : a.addOperand form word = .ok b ↔
    a.operands.length < form.most ∧ b = { a with operands := a.operands ++ [word] } := by
  unfold addOperand
  split
  · rename_i hroom
    simp [hroom, eq_comm]
  · rename_i hfull
    simp [hfull]

theorem addSwitch_eq_ok_iff : a.addSwitch form word = .ok b ↔
    (word ∈ form.switches ∧ word ∉ a.switches) ∧ b = { a with switches := word :: a.switches } := by
  unfold addSwitch
  split
  · rename_i hnew
    simp [hnew, eq_comm]
  · rename_i hrefused
    simp [hrefused]

theorem addStyle_eq_ok_iff : a.addStyle form word = .ok b ↔
    (form.takesStyle ∧ a.style.isNone) ∧
      ∃ style, (word = "listing" ∧ style = .plain ∨ word = "rust" ∧ style = .variants) ∧
        b = { a with style := some style } := by
  unfold addStyle
  split
  · rename_i hfree
    split
    · simp [hfree, eq_comm]
    · simp [hfree, eq_comm]
    · -- the word is the name of no style
      rename_i hlisting hrust
      refine iff_of_false (by simp) ?_
      rintro ⟨-, style, ⟨hword, -⟩ | ⟨hword, -⟩, -⟩
      · exact hlisting hword
      · exact hrust hword
  · rename_i hrefused
    exact iff_of_false (by simp) fun h => hrefused h.1

end Add

/-! ## One word

All that a proof about `read` has to know of the words is here: the first one is a double dash, it
ends the reading, or it is a move, which may take the word behind it along.
-/

/-- What the first word asks for, whatever was read before it. -/
inductive Asks (form : Form) (word : String) (rest : List String) : Prop where
  | operands (hread : ∀ a : Arguments,
      a.read form (word :: rest) = rest.foldlM (addOperand form) a)
  | ending (usage : Usage) (hread : ∀ a : Arguments, a.read form (word :: rest) = .error usage)
  | move (m : Move) (behind : List String) (hlength : behind.length ≤ rest.length)
      (hread : ∀ a : Arguments,
        a.read form (word :: rest) = (m.make form a).bind fun b => b.read form behind)

theorem asks_of_long {name : String} (hword : Word.ofString word = .long name none) :
    Asks form word rest := by
  by_cases hhelp : name = "help"
  · refine .ending .help fun a => ?_
    rw [Arguments.read.eq_def]
    simp only [hword, hhelp]
  by_cases hformat : name = "format"
  · -- the style is the next word, if there is one
    cases rest with
    | nil =>
        refine .ending .refused fun a => ?_
        rw [Arguments.read.eq_def]
        simp only [hword, hformat]
    | cons value behind =>
        refine .move (.style value) behind (Nat.le_succ _) fun a => ?_
        rw [Arguments.read.eq_def]
        simp only [hword, hformat]
        rfl
  · refine .move (.switch name) rest (Nat.le_refl _) fun a => ?_
    rw [Arguments.read.eq_def]
    simp only [hword]
    rfl

theorem asks_of_long_value {name value : String}
    (hword : Word.ofString word = .long name (some value)) : Asks form word rest := by
  by_cases hformat : name = "format"
  · refine .move (.style value) rest (Nat.le_refl _) fun a => ?_
    rw [Arguments.read.eq_def]
    simp only [hword, hformat]
    rfl
  · -- nothing else takes a value, asking for help included
    refine .ending .refused fun a => ?_
    rw [Arguments.read.eq_def]
    simp [hword, hformat]

theorem asks_of_short {letter : Char} {more : String}
    (hword : Word.ofString word = .short letter more) : Asks form word rest := by
  by_cases hhelp : letter = 'h'
  · refine .ending .help fun a => ?_
    rw [Arguments.read.eq_def]
    simp only [hword, hhelp]
  by_cases hformat : letter = 'f'
  · by_cases hmore : more = ""
    · cases rest with
      | nil =>
          refine .ending .refused fun a => ?_
          rw [Arguments.read.eq_def]
          simp only [hword, hformat, hmore]
      | cons value behind =>
          refine .move (.style value) behind (Nat.le_succ _) fun a => ?_
          rw [Arguments.read.eq_def]
          simp only [hword, hformat, hmore]
          rfl
    · -- the style stands in the same word, behind an equals sign or not
      refine .move (.style (if more.startsWith "=" then (more.drop 1).copy else more)) rest
        (Nat.le_refl _) fun a => ?_
      rw [Arguments.read.eq_def]
      simp only [hword, hformat]
      rfl
  · refine .ending .refused fun a => ?_
    rw [Arguments.read.eq_def]
    simp [hword, hformat]

theorem asks (form : Form) (word : String) (rest : List String) : Asks form word rest := by
  cases hword : Word.ofString word with
  | separator =>
      refine .operands fun a => ?_
      rw [Arguments.read.eq_def]
      simp only [hword]
  | operand =>
      refine .move (.operand word) rest (Nat.le_refl _) fun a => ?_
      rw [Arguments.read.eq_def]
      simp only [hword]
      rfl
  | long name value =>
      cases value with
      | none => exact asks_of_long hword
      | some value => exact asks_of_long_value hword
  | short letter more => exact asks_of_short hword

/-! ## All words -/

/-- Whatever was read before them, the words come to the moves, and behind these the reading is
ended, or is at its end. -/
def ReadsAs (form : Form) (words : List String) (moves : List Move) (ended : Option Usage) : Prop :=
  ∀ a : Arguments, a.read form words =
    (moves.foldlM (Move.make form) a).bind fun b => ended.elim (.ok b) .error

theorem ReadsAs.of_ended {usage : Usage}
    (h : ∀ a : Arguments, a.read form words = .error usage) :
    ReadsAs form words [] (some usage) := h

theorem ReadsAs.cons {m : Move} {moves : List Move} {ended : Option Usage}
    (h : ∀ a : Arguments, a.read form words = (m.make form a).bind fun b => b.read form rest)
    (hrest : ReadsAs form rest moves ended) : ReadsAs form words (m :: moves) ended := by
  intro a
  rw [h a, List.foldlM_cons]
  cases hm : m.make form a with
  | error usage => rfl
  | ok b => exact hrest b

/-- Behind a double dash each word is an operand. -/
theorem ReadsAs.of_operands
    (h : ∀ a : Arguments, a.read form words = rest.foldlM (addOperand form) a) :
    ReadsAs form words (rest.map Move.operand) none := by
  intro a
  rw [h a, List.foldlM_map]
  change _ = (rest.foldlM (addOperand form) a).bind Except.ok
  cases rest.foldlM (addOperand form) a with
  | error usage => rfl
  | ok b => rfl

/-- The words of a command line come to moves. -/
theorem exists_readsAs (form : Form) :
    ∀ words : List String, ∃ moves ended, ReadsAs form words moves ended
  | [] => ⟨[], none, fun _ => rfl⟩
  | word :: rest => by
      cases asks form word rest with
      | operands hread => exact ⟨_, none, .of_operands hread⟩
      | ending usage hread => exact ⟨[], some usage, .of_ended hread⟩
      | move m behind hlength hread =>
          -- a style may have taken a word of `rest`, so the recursion is on the number of words
          obtain ⟨moves, ended, hbehind⟩ := exists_readsAs form behind
          exact ⟨m :: moves, ended, hbehind.cons hread⟩
termination_by words => words.length

/-! ## One switch more -/

/-- The arguments `a'` are those of `a` with the switch `name` turned on beside. -/
structure WithSwitch (name : String) (a a' : Arguments) : Prop where
  operands : a'.operands = a.operands
  style : a'.style = a.style
  switches : ∀ s, s ∈ a'.switches ↔ s = name ∨ s ∈ a.switches

variable {name : String} {a a' b : Arguments}

/-- What goes through went through up to any point of it. -/
theorem exists_of_bind_eq_ok {α β : Type} {x : Except Usage α} {f : α → Except Usage β} {y : β}
    (h : x.bind f = .ok y) : ∃ z, x = .ok z ∧ f z = .ok y := by
  cases x with
  | error usage => cases h
  | ok z => exact ⟨z, rfl, h⟩

/-- No move turns a switch off. -/
theorem switches_subset_of_make {m : Move} (hm : m.make form a = .ok b) :
    a.switches ⊆ b.switches := by
  cases m with
  | operand word =>
      obtain ⟨-, rfl⟩ := addOperand_eq_ok_iff.mp hm
      exact List.Subset.refl _
  | style word =>
      obtain ⟨-, style, -, rfl⟩ := addStyle_eq_ok_iff.mp hm
      exact List.Subset.refl _
  | switch other =>
      obtain ⟨-, rfl⟩ := addSwitch_eq_ok_iff.mp hm
      exact List.subset_cons_self other _

/-- A move that leaves the switch off does the same where it is on. -/
theorem WithSwitch.make (h : WithSwitch name a a') {m : Move} (hm : m.make form a = .ok b)
    (hoff : name ∉ b.switches) : ∃ b', m.make form a' = .ok b' ∧ WithSwitch name b b' := by
  cases m with
  | operand word =>
      -- the room for operands is the same, since the operands are
      obtain ⟨hroom, rfl⟩ := addOperand_eq_ok_iff.mp hm
      rw [← h.operands] at hroom
      refine ⟨_, addOperand_eq_ok_iff.mpr ⟨hroom, rfl⟩, ?_, h.style, h.switches⟩
      rw [h.operands]
  | style word =>
      obtain ⟨hfree, style, hstyle, rfl⟩ := addStyle_eq_ok_iff.mp hm
      rw [← h.style] at hfree
      exact ⟨_, addStyle_eq_ok_iff.mpr ⟨hfree, style, hstyle, rfl⟩, h.operands, rfl, h.switches⟩
  | switch other =>
      obtain ⟨⟨hknown, hnew⟩, rfl⟩ := addSwitch_eq_ok_iff.mp hm
      -- the move turns on another switch than the one that is on already, so it is not refused
      have hother : other ≠ name := fun heq => hoff (heq ▸ List.mem_cons_self)
      have hnew' : other ∉ a'.switches := by
        rw [h.switches other]
        rintro (heq | hmem)
        · exact hother heq
        · exact hnew hmem
      refine ⟨_, addSwitch_eq_ok_iff.mpr ⟨⟨hknown, hnew'⟩, rfl⟩, h.operands, h.style, ?_⟩
      intro s
      simp only [List.mem_cons, h.switches s]
      exact or_left_comm

/-- So does a run of moves. -/
theorem WithSwitch.foldlM_make (h : WithSwitch name a a') {moves : List Move}
    (hm : moves.foldlM (Move.make form) a = .ok b) (hoff : name ∉ b.switches) :
    ∃ b', moves.foldlM (Move.make form) a' = .ok b' ∧ WithSwitch name b b' := by
  induction moves using List.reverseRecOn generalizing b with
  | nil =>
      obtain rfl := Except.ok.inj hm
      exact ⟨a', rfl, h⟩
  | append_singleton moves m ih =>
      simp only [List.foldlM_append, List.foldlM_cons, List.foldlM_nil, bind_pure] at hm ⊢
      obtain ⟨c, hbefore, hlast⟩ := exists_of_bind_eq_ok hm
      -- the switch is off at the end, so it was off before the last move
      have hoff' : name ∉ c.switches := fun hmem => hoff (switches_subset_of_make hlast hmem)
      obtain ⟨c', hc', hsame⟩ := ih hbefore hoff'
      rw [hc']
      exact hsame.make hlast hoff

/-- Words that leave a switch off read the same where it is on from the start. -/
theorem WithSwitch.read (h : WithSwitch name a a') (hread : a.read form words = .ok b)
    (hoff : name ∉ b.switches) : ∃ b', a'.read form words = .ok b' ∧ WithSwitch name b b' := by
  -- the moves do not depend on what was read before, so both runs make the same ones
  obtain ⟨moves, ended, hmoves⟩ := exists_readsAs form words
  rw [hmoves a] at hread
  obtain ⟨c, hm, hend⟩ := exists_of_bind_eq_ok hread
  cases ended with
  | some usage => cases hend
  | none =>
      obtain rfl := Except.ok.inj hend
      obtain ⟨b', hb', hsame⟩ := h.foldlM_make hm hoff
      refine ⟨b', ?_, hsame⟩
      rw [hmoves a', hb']
      rfl

end Arguments

/-! ## The strict extraction -/

/-- What the words after `extract` may be. -/
def extractForm : Form where
  switches := ["align", "strict"]
  takesStyle := true
  least := 0
  most := 1

theorem ofWords_extract_eq_ok_iff {words : List String} {file : String} {style : Listing.Style}
    {align strict : Bool} :
    ofWords ("extract" :: words) = .ok (.extract file style align strict) ↔
      ∃ a : Arguments, ({} : Arguments).read extractForm words = .ok a ∧
        file = a.operands.headD defaultSource ∧ style = a.style.getD .plain ∧
        align = decide ("align" ∈ a.switches) ∧ strict = decide ("strict" ∈ a.switches) := by
  have hwords : ofWords ("extract" :: words) = read extractForm
      (fun a => .extract (a.operands.headD defaultSource) (a.style.getD .plain)
        ("align" ∈ a.switches) ("strict" ∈ a.switches)) words := rfl
  rw [hwords]
  unfold Command.read
  cases ({} : Arguments).read extractForm words with
  | error usage => simp [bind, Except.bind]
  | ok a =>
      have hleast : extractForm.least ≤ a.operands.length := Nat.zero_le _
      simp only [bind, Except.bind, hleast, if_true, pure, Except.pure, Except.ok.injEq,
        Command.extract.injEq, exists_eq_left', eq_comm]

/-- A strict extraction is one with a switch more. -/
theorem ofWords_extract_strict {words : List String} {file : String} {style : Listing.Style}
    {align : Bool} (h : ofWords ("extract" :: words) = .ok (.extract file style align false)) :
    ofWords ("extract" :: "--strict" :: words) = .ok (.extract file style align true) := by
  rcases ofWords_extract_eq_ok_iff.mp h with ⟨a, ha, rfl, rfl, rfl, hstrict⟩
  -- the switch was off at the end, so no word turned it on
  have hoff : "strict" ∉ a.switches := of_decide_eq_false hstrict.symm
  have hstart : Arguments.WithSwitch "strict" {} { switches := ["strict"] } :=
    ⟨rfl, rfl, fun s => by simp⟩
  rcases hstart.read ha hoff with ⟨a', ha', hsame⟩
  have hword : Word.ofString "--strict" = .long "strict" none := by decide
  -- put in front, the word does nothing but turn the switch on
  have hfirst : ({} : Arguments).read extractForm ("--strict" :: words) =
      Arguments.read extractForm { switches := ["strict"] } words := by
    rw [Arguments.read.eq_def]
    simp only [hword]
    rfl
  refine ofWords_extract_eq_ok_iff.mpr ⟨a', hfirst.trans ha', ?_, ?_, ?_, ?_⟩
  · rw [hsame.operands]
  · rw [hsame.style]
  · simp [hsame.switches]
  · simp [hsame.switches]

end OpcodeRegistry.Command
