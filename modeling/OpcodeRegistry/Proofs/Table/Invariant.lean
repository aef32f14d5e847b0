import OpcodeRegistry.Proofs.Table.Offence

/-! # While a table is being built

Declarations are taken in one by one, and each is held against the draft of those before it. What
holds of that draft whenever another declaration is due is `Draft.Invariant`: it holds of the empty
draft, a declaration that is accepted keeps it, and so it holds after any number of them. With it no
position that the draft looks up is out of bounds, and what owns a code is canonical.
-/

namespace OpcodeRegistry

namespace Draft

variable {width : CodeWidth} {declarations accepted : List Entry} {d d' : Draft} {e : Entry}

/-- What holds of the draft when the declarations `accepted` have been taken in. -/
structure Invariant (d : Draft) (accepted : List Entry) : Prop extends Describes d accepted where
  /-- What an alias names stands in front of it, is canonical and has the same code. -/
  target_before : ∀ (i : Nat) (e : Entry) (name : String),
    accepted[i]? = some e → e.aliasOf = some name →
      ∃ j < i, ∃ t, accepted[j]? = some t ∧ t.mnemonic = name ∧ t.aliasOf = none ∧ t.code = e.code

/-! ## One declaration -/

theorem Invariant.empty : Invariant {} [] where
  toDescribes := Describes.empty
  target_before i e name hi := absurd hi (by simp)

/-- The step of the invariant: a declaration that is accepted keeps it. -/
theorem Invariant.accept (h : Invariant d accepted) (haccept : accept width d e = .ok d') :
    Invariant d' (accepted ++ [e]) := by
  obtain ⟨hfits, rfl⟩ := (accept_eq_ok_iff h.toDescribes).mp haccept
  refine ⟨h.toDescribes.push hfits, ?_⟩
  intro i a name hi halias
  rcases Indexes.getElem?_concat_eq_some_iff.mp hi with hi | ⟨rfl, rfl⟩
  · -- no declaration moves when another one goes behind it
    obtain ⟨j, hlt, t, hj, ht⟩ := h.target_before i a name hi halias
    exact ⟨j, hlt, t, Indexes.getElem?_concat_eq_some_iff.mpr (Or.inl hj), ht⟩
  · -- the new declaration is an alias of one that was accepted before
    obtain ⟨t, hmem, ht⟩ := hfits.target name halias
    obtain ⟨j, hlt, hj⟩ := List.mem_iff_getElem.mp hmem
    have hj' : accepted[j]? = some t := List.getElem?_eq_some_iff.mpr ⟨hlt, hj⟩
    exact ⟨j, hlt, t, Indexes.getElem?_concat_eq_some_iff.mpr (Or.inl hj'), ht⟩

/-! ## A run of declarations -/

/-- The run of the invariant: it holds whenever another declaration is due. -/
theorem invariant_of_ofDeclarations (h : ofDeclarations width declarations = .ok d) :
    Invariant d declarations := by
  induction declarations using List.reverseRecOn generalizing d with
  | nil =>
      obtain rfl := Except.ok.inj h
      exact Invariant.empty
  | append_singleton declarations e ih =>
      obtain ⟨before, hbefore, haccept⟩ := ofDeclarations_concat_eq_ok_iff.mp h
      exact (ih hbefore).accept haccept

/-! ## Looking up positions -/

/-- The position is that of an entry, which is the only one of its kind and the one that is found. -/
structure FoundAt (d : Draft) (kind : Entry → Prop) (found : Option Entry) (i : Nat) : Prop where
  lt_size : i < d.entries.size
  holds : kind d.entries[i]
  unique : ∀ (j : Nat) (hj : j < d.entries.size), kind d.entries[j] → j = i
  found_eq : found = some d.entries[i]

/-- A position that comes from an index is that of the one entry that has the key. -/
theorem Describes.foundAt {κ : Type} [BEq κ] [Hashable κ] {index : Std.HashMap κ Nat}
    {key : Entry → Option κ} (h : Describes d accepted) (hindex : Indexes index key accepted)
    {k : κ} {i : Nat} (hi : index[k]? = some i) :
    d.FoundAt (fun e => key e = some k) (index[k]?.bind (d.entries[·]?)) i := by
  obtain ⟨a, ha, hkey⟩ := (hindex k i).mp hi
  rw [← h.getElem?_entries] at ha
  obtain ⟨hlt, rfl⟩ := Array.getElem?_eq_some_iff.mp ha
  refine ⟨hlt, hkey, ?_, ?_⟩
  · -- the index has one position under the key, so there is no second entry with it
    intro j hj hkey'
    have hj' : accepted[j]? = some d.entries[j] := by
      rw [← h.getElem?_entries, Array.getElem?_eq_getElem hj]
    exact Option.some.inj (((hindex k j).mpr ⟨_, hj', hkey'⟩).symm.trans hi)
  · rw [hi, Option.bind_some, ha]

theorem Describes.foundAt_names (h : Describes d accepted) {name : String} {i : Nat}
    (hi : d.names[name]? = some i) :
    d.FoundAt (fun e => e.mnemonic = name) (d.find? name) i := by
  unfold find?
  simpa only [Option.some.injEq] using h.foundAt h.names hi

theorem Describes.foundAt_owners (h : Describes d accepted) {c : Code} {i : Nat}
    (hi : d.owners[c]? = some i) :
    d.FoundAt (fun e => e.aliasOf = none ∧ e.code = c) (d.owner? c) i := by
  unfold owner?
  simpa only [Entry.ownedCode?_eq_some_iff] using h.foundAt h.owners hi

/-- What a declaration collides with is the canonical entry that owns the code. -/
theorem Describes.owner_of_codeCollision (h : Describes d accepted) {c : Code}
    {existing mnemonic : String}
    (hcollision : accept width d e = .error (.codeCollision c existing mnemonic)) :
    ∃ owner ∈ accepted, owner.mnemonic = existing ∧ owner.aliasOf = none ∧ owner.code = c ∧
      d.owner? c = some owner := by
  have hbreaks := (h.isOffence_of_offence? (accept_eq_error_iff.mp hcollision)).breaks
  cases hbreaks with
  | @codeCollision owner _ hmem howner hcode =>
      exact ⟨owner, hmem, rfl, howner, hcode, h.owner?_eq_some_iff.mpr ⟨hmem, howner, hcode⟩⟩

end Draft

/-- Building a table comes by a draft for each number `k` of declarations that are accepted, and goes
on from it with the others. The draft holds just those declarations, in order. Its maps lead from
the names, and from the codes of the canonical entries, to their positions, and from nothing else;
an alias stands behind what it names. So no position that is looked up is out of bounds, and a
collision is with a canonical entry. -/
theorem Table.build_invariant {width : CodeWidth} {declarations : List Entry} {d : Draft} (k : Nat)
    (h : Draft.ofDeclarations width (declarations.take k) = .ok d) :
    build width declarations = ((declarations.drop k).foldlM (Draft.accept width) d).map
      (fun draft => ofEntries width draft.entries.toList) ∧
    d.Invariant (declarations.take k) ∧
    (∀ (name : String) (i : Nat), d.names[name]? = some i →
      d.FoundAt (fun e => e.mnemonic = name) (d.find? name) i) ∧
    (∀ (c : Code) (i : Nat), d.owners[c]? = some i →
      d.FoundAt (fun e => e.aliasOf = none ∧ e.code = c) (d.owner? c) i) ∧
    ∀ e c existing mnemonic, d.accept width e = .error (.codeCollision c existing mnemonic) →
      ∃ owner ∈ declarations.take k, owner.mnemonic = existing ∧ owner.aliasOf = none ∧
        owner.code = c ∧ d.owner? c = some owner := by
  have hinvariant := Draft.invariant_of_ofDeclarations h
  refine ⟨?_, hinvariant, fun _ _ => hinvariant.foundAt_names,
    fun _ _ => hinvariant.foundAt_owners, fun _ _ _ _ => hinvariant.owner_of_codeCollision⟩
  -- all declarations are the first `k` and then the others
  have hrun := Draft.ofDeclarations_append width (declarations.take k) (declarations.drop k)
  rw [List.take_append_drop, h] at hrun
  rw [build, hrun]
  rfl

/-- Two declarations are accepted, and the third collides with the first one, not with its alias. -/
theorem Table.build_invariant_second_owner :
    let declarations : List Entry := [⟨"SLICE", 5, none⟩, ⟨"SLICE_0", 5, some "SLICE"⟩,
      ⟨"CUT", 5, none⟩, ⟨"halt", 1, none⟩]
    ∃ d, Draft.ofDeclarations .byte (declarations.take 2) = .ok d ∧
      d.Invariant (declarations.take 2) ∧
      d.FoundAt (fun e => e.aliasOf = none ∧ e.code = 5) (d.owner? 5) 0 ∧
      d.accept .byte ⟨"CUT", 5, none⟩ = .error (.codeCollision 5 "SLICE" "CUT") ∧
      ∃ owner ∈ declarations.take 2, owner.mnemonic = "SLICE" ∧ owner.aliasOf = none ∧
        owner.code = 5 ∧ d.owner? 5 = some owner := by
  intro declarations
  have haccepted : Accepted .byte (declarations.take 2) := by decide
  have hrun := Draft.ofDeclarations_eq_ok_iff.mpr ⟨haccepted, rfl⟩
  obtain ⟨-, hinvariant, -, howners, hcollision⟩ := build_invariant 2 hrun
  have hoffence : IsOffence .byte (declarations.take 2) ⟨"CUT", 5, none⟩
      (.codeCollision 5 "SLICE" "CUT") := by
    refine ⟨.codeCollision (d := ⟨"SLICE", 5, none⟩) rfl (by decide) rfl rfl, ?_⟩
    -- all rules before that of the owner are kept
    intro other hother
    exact hother.seven_le_rank rfl (hother.four_le_rank (by decide) (by decide) (by decide))
  have haccept := Draft.accept_eq_error_iff.mpr
    ((hinvariant.offence?_eq_some_iff haccepted).mpr hoffence)
  have hposition := (hinvariant.owners 5 0).mpr ⟨⟨"SLICE", 5, none⟩, rfl, rfl⟩
  exact ⟨_, hrun, hinvariant, howners 5 0 hposition, haccept, hcollision _ _ _ _ haccept⟩

end OpcodeRegistry
