import OpcodeRegistry.Proofs.Toml.Document

/-! # No key twice

However its lines, headers and dotted keys are mixed, a document that is read has pairwise different
keys in its outermost table: `Document.nodup_of_ofText?`. Whatever a line does below that table, at
the top it adds a new key, takes one out or leaves the keys as they are.
-/

namespace OpcodeRegistry.Toml

open Text

namespace Entries

variable {α : Type} {entries entries' : Entries} {key : String} {node : Node}

/-- No key comes twice. -/
def Distinct (entries : Entries) : Prop :=
  (entries.map Prod.fst).Nodup

theorem Distinct.empty : Distinct [] :=
  List.nodup_nil

theorem Distinct.concat (h : entries.Distinct) (hnew : entries.lookup key = none) :
    Distinct (entries ++ [(key, node)]) := by
  have hkey : key ∉ entries.map Prod.fst := lookup_eq_none_iff.mp hnew
  unfold Distinct
  rw [List.map_append, List.map_singleton, List.nodup_append]
  refine ⟨h, List.pairwise_singleton _ key, ?_⟩
  intro name hname name' hname' heq
  rw [heq, List.mem_singleton.mp hname'] at hname
  exact hkey hname

theorem Distinct.erase (h : entries.Distinct) (key : String) : (entries.erase key).Distinct :=
  List.Sublist.nodup (List.filter_sublist.map Prod.fst) h

/-- A new node in the place of another leaves the keys as they are. -/
theorem map_fst_set (entries : Entries) (key : String) (node : Node) :
    (entries.set key node).map Prod.fst = entries.map Prod.fst := by
  unfold set
  rw [List.map_map]
  apply List.map_congr_left
  rintro ⟨name, node'⟩ -
  by_cases hname : name = key
  · simp [hname]
  · simp [hname]

theorem Distinct.set (h : entries.Distinct) (key : String) (node : Node) :
    (entries.set key node).Distinct := by
  unfold Distinct
  rw [map_fst_set]
  exact h

theorem Distinct.insertNew? (h : entries.Distinct)
    (hinsert : entries.insertNew? key node = some entries') : entries'.Distinct := by
  rcases insertNew?_eq_some_iff.mp hinsert with ⟨hnew, rfl⟩
  exact h.concat (lookup_eq_none_iff.mpr hnew)

/-- A change below keeps the keys at the top, and so does a change at the top that keeps them
different. -/
theorem Distinct.descend {made here : Origin} {change : Origin → Entries → Option (α × Entries)}
    {path : List String} {a : α} (h : entries.Distinct)
    (hchange : ∀ {a' changed}, change here entries = some (a', changed) → changed.Distinct)
    (hdescend : descend made change here path entries = some (a, entries')) :
    entries'.Distinct := by
  cases path with
  | nil => exact hchange hdescend
  | cons key path =>
      unfold Entries.descend at hdescend
      split at hdescend
      · rename_i hlookup
        rcases Option.bind_eq_some_iff.mp hdescend with ⟨⟨a', inner⟩, -, hresult⟩
        rcases Prod.mk.inj (Option.some.inj hresult) with ⟨-, rfl⟩
        -- the table on the way is made under a new key
        exact h.concat hlookup
      · exact absurd hdescend (by simp)
      · split at hdescend
        · exact absurd hdescend (by simp)
        · rcases Option.bind_eq_some_iff.mp hdescend with ⟨⟨a', inner⟩, -, hresult⟩
          rcases Prod.mk.inj (Option.some.inj hresult) with ⟨-, rfl⟩
          -- a table, or the last one of an array, is put back under its own key
          exact h.set _ _
      · split at hdescend
        · exact absurd hdescend (by simp)
        · rcases Option.bind_eq_some_iff.mp hdescend with ⟨⟨a', inner⟩, -, hresult⟩
          rcases Prod.mk.inj (Option.some.inj hresult) with ⟨-, rfl⟩
          exact h.set _ _

theorem Distinct.assign? {path : List String} {v : Value} (h : entries.Distinct)
    (hassign : entries.assign? path key v = some entries') : entries'.Distinct := by
  rcases Option.map_eq_some_iff.mp hassign with ⟨⟨_, changed⟩, hdescend, rfl⟩
  refine h.descend ?_ hdescend
  intro _ changed hchange
  split at hchange
  · exact absurd hchange (by simp)
  · rcases Option.map_eq_some_iff.mp hchange with ⟨inserted, hinsert, hresult⟩
    rcases Prod.mk.inj hresult with ⟨-, rfl⟩
    exact h.insertNew? hinsert

end Entries

/-! ## Lines -/

namespace Document

variable {d next : Document} {key : Key}

/-- No key of the outermost table comes twice, wherever that table is kept. -/
structure Distinct (d : Document) : Prop where
  /-- While no header was read, the open table is the outermost one. -/
  current : d.place = .outermost → d.current.Distinct
  /-- Behind a header the outermost table is put aside. -/
  closed : d.place ≠ .outermost → d.closed.Distinct

theorem Distinct.close? (h : d.Distinct) {entries : Entries} (hclose : d.close? = some entries) :
    entries.Distinct := by
  unfold Document.close? at hclose
  split at hclose
  · rename_i hplace
    obtain rfl := Option.some.inj hclose
    -- no header was read, so the open table is all there is
    exact h.current hplace
  · rename_i key hplace
    have hclosed := h.closed (by simp [hplace])
    rcases Option.map_eq_some_iff.mp hclose with ⟨⟨_, changed⟩, hdescend, rfl⟩
    refine hclosed.descend ?_ hdescend
    intro _ changed hchange
    rcases Option.map_eq_some_iff.mp hchange with ⟨inserted, hinsert, hresult⟩
    rcases Prod.mk.inj hresult with ⟨-, rfl⟩
    -- the open table goes in as a whole under a new key
    exact hclosed.insertNew? hinsert
  · rename_i key hplace
    have hclosed := h.closed (by simp [hplace])
    rcases Option.map_eq_some_iff.mp hclose with ⟨⟨_, changed⟩, hdescend, rfl⟩
    refine hclosed.descend ?_ hdescend
    intro _ changed hchange
    split at hchange
    · rcases Prod.mk.inj (Option.some.inj hchange) with ⟨-, rfl⟩
      -- the array of the key gets one element more
      exact hclosed.set _ _
    · exact absurd hchange (by simp)

theorem Distinct.openTable? (h : d.Distinct) (hopen : d.openTable? key = some next) :
    next.Distinct := by
  rcases Option.bind_eq_some_iff.mp hopen with ⟨outermost, hclose, hrest⟩
  rcases Option.bind_eq_some_iff.mp hrest with ⟨⟨current, closed⟩, hdescend, hresult⟩
  obtain rfl := Option.some.inj hresult
  have houtermost := h.close? hclose
  -- with a header read, only what is put aside has to keep its keys apart
  refine ⟨fun hplace => absurd hplace (by simp), fun _ => ?_⟩
  refine houtermost.descend ?_ hdescend
  intro _ changed hchange
  split at hchange
  · rcases Prod.mk.inj (Option.some.inj hchange) with ⟨-, rfl⟩
    exact houtermost
  · rcases Prod.mk.inj (Option.some.inj hchange) with ⟨-, rfl⟩
    -- an implied table is opened again, and taken out for as long
    exact houtermost.erase _
  · exact absurd hchange (by simp)

theorem Distinct.openElement? (h : d.Distinct) (hopen : d.openElement? key = some next) :
    next.Distinct := by
  rcases Option.bind_eq_some_iff.mp hopen with ⟨outermost, hclose, hrest⟩
  rcases Option.bind_eq_some_iff.mp hrest with ⟨⟨_, closed⟩, hdescend, hresult⟩
  obtain rfl := Option.some.inj hresult
  have houtermost := h.close? hclose
  refine ⟨fun hplace => absurd hplace (by simp), fun _ => ?_⟩
  refine houtermost.descend ?_ hdescend
  intro _ changed hchange
  split at hchange
  · rename_i hlookup
    rcases Prod.mk.inj (Option.some.inj hchange) with ⟨-, rfl⟩
    -- the first element makes the array, under a new key
    exact houtermost.concat hlookup
  · rcases Prod.mk.inj (Option.some.inj hchange) with ⟨-, rfl⟩
    exact houtermost
  · exact absurd hchange (by simp)

theorem Distinct.assign? {v : Value} (h : d.Distinct) (hassign : d.assign? key v = some next) :
    next.Distinct := by
  rcases Option.map_eq_some_iff.mp hassign with ⟨current, hcurrent, rfl⟩
  exact ⟨fun hplace => (h.current hplace).assign? hcurrent, h.closed⟩

theorem Distinct.header? {opened : Document → Key → Option Document} {closing : String}
    {s rest : List Char} (hopened : ∀ {key}, opened d key = some next → next.Distinct)
    (hheader : d.header? opened closing s = some (next, rest)) : next.Distinct := by
  rcases Option.bind_eq_some_iff.mp hheader with ⟨⟨key, s'⟩, -, hheader⟩
  rcases Option.bind_eq_some_iff.mp hheader with ⟨s'', -, hheader⟩
  rcases Option.bind_eq_some_iff.mp hheader with ⟨next', hnext, hresult⟩
  rcases Prod.mk.inj (Option.some.inj hresult) with ⟨rfl, -⟩
  exact hopened hnext

/-- What a line holds keeps the keys different. -/
theorem Distinct.statement? (h : d.Distinct) {s rest : List Char}
    (hstatement : d.statement? s = some (next, rest)) : next.Distinct := by
  unfold Document.statement? at hstatement
  split at hstatement
  · exact Distinct.header? h.openElement? hstatement
  · exact Distinct.header? h.openTable? hstatement
  · rcases Option.bind_eq_some_iff.mp hstatement with ⟨⟨⟨key, v⟩, s'⟩, -, hstatement⟩
    rcases Option.bind_eq_some_iff.mp hstatement with ⟨next', hnext, hresult⟩
    rcases Prod.mk.inj (Option.some.inj hresult) with ⟨rfl, -⟩
    exact h.assign? hnext

/-- So does the whole line, the last one included. -/
theorem Distinct.lineRound (h : d.Distinct) {s rest : List Char} {round : Round Document}
    (hround : d.lineRound s = some (round, rest)) : round.state.Distinct := by
  unfold Document.lineRound at hround
  split at hround
  · rcases Prod.mk.inj (Option.some.inj hround) with ⟨rfl, -⟩
    exact h
  · split at hround
    · rcases Option.map_eq_some_iff.mp hround with ⟨s', -, hresult⟩
      rcases Prod.mk.inj hresult with ⟨rfl, -⟩
      exact h
    · rcases Option.bind_eq_some_iff.mp hround with ⟨⟨next, s'⟩, hstatement, hround⟩
      rcases Option.bind_eq_some_iff.mp hround with ⟨s'', -, hresult⟩
      rcases Prod.mk.inj (Option.some.inj hresult) with ⟨rfl, -⟩
      -- a blank line or a comment leaves the document as it is; here is a statement
      exact h.statement? hstatement

/-! ## Documents -/

theorem distinct_empty : Distinct {} :=
  ⟨fun _ => Entries.Distinct.empty, fun _ => Entries.Distinct.empty⟩

theorem map_fst_toFields (entries : Entries) :
    (Node.toFields entries).map Prod.fst = entries.map Prod.fst := by
  induction entries with
  | nil => rfl
  | cons entry entries ih =>
      rcases entry with ⟨key, node⟩
      rw [Node.toFields, List.map_cons, List.map_cons, ih]

theorem map_fst_of_fieldsWithDates? {fields fields' : List (String × Value)}
    (h : Value.fieldsWithDates? fields = some fields') :
    fields'.map Prod.fst = fields.map Prod.fst := by
  induction fields generalizing fields' with
  | nil =>
      obtain rfl := Option.some.inj h
      rfl
  | cons field fields ih =>
      rcases field with ⟨key, v⟩
      unfold Value.fieldsWithDates? at h
      rcases Option.bind_eq_some_iff.mp h with ⟨v', -, h⟩
      rcases Option.bind_eq_some_iff.mp h with ⟨rest, hrest, hresult⟩
      obtain rfl := Option.some.inj hresult
      rw [List.map_cons, List.map_cons, ih hrest]

/-- No key of a document comes twice. -/
theorem nodup_of_ofText? {text : String} {fields : List (String × Value)}
    (h : ofText? text = some fields) : (fields.map Prod.fst).Nodup := by
  rcases Option.bind_eq_some_iff.mp h with ⟨⟨d, rest⟩, hread, h⟩
  rcases Option.bind_eq_some_iff.mp h with ⟨entries, hclose, hfields⟩
  have hdistinct : d.Distinct := rounds_induction (fun _ _ _ _ h => h.lineRound) distinct_empty hread
  rw [map_fst_of_fieldsWithDates? hfields, map_fst_toFields]
  exact hdistinct.close? hclose

end Document

end OpcodeRegistry.Toml
