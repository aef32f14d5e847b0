import OpcodeRegistry.Architecture.Basic
import OpcodeRegistry.Proofs.Architecture.Consistency

/-! # The architectures that come with the library

The opcodes of both virtual machines are consistent, so each of the two makes a table and no label of
the library is answered with an error.
-/

namespace OpcodeRegistry

set_option maxRecDepth 10000 in
theorem BeamOpcode.consistent : OpcodeSet.Consistent BeamOpcode := by
  refine OpcodeSet.consistent_of_forall_mem_all ?mnemonics ?names ?codes ?canonical
  case mnemonics => decide +kernel
  case names => decide +kernel
  case codes => decide +kernel
  case canonical => decide +kernel

set_option maxRecDepth 10000 in
theorem PyOpcode.consistent : OpcodeSet.Consistent PyOpcode := by
  refine OpcodeSet.consistent_of_forall_mem_all ?mnemonics ?names ?codes ?canonical
  case mnemonics => decide +kernel
  case names => decide +kernel
  case codes => decide +kernel
  case canonical => decide +kernel

theorem BeamOpcode.exists_table : ∃ t, OpcodeSet.table BeamOpcode = .ok t :=
  OpcodeSet.exists_table_iff_consistent.mpr consistent

theorem PyOpcode.exists_table : ∃ t, OpcodeSet.table PyOpcode = .ok t :=
  OpcodeSet.exists_table_iff_consistent.mpr consistent

namespace Architecture

variable {label : String} {architecture : Architecture}

theorem table_of_ofTable {description : String} {table : Except TableError Table}
    (h : ofTable label description table = .ok architecture) : table = .ok architecture.table := by
  unfold ofTable at h
  cases table with
  | ok t =>
      obtain rfl := Except.ok.inj h
      rfl
  | error e => exact absurd h (by simp)

/-- Every label of the library gives an architecture. -/
theorem exists_ofLabel (h : label ∈ labels) : ∃ architecture, ofLabel label = .ok architecture := by
  rcases BeamOpcode.exists_table with ⟨beamTable, hbeam⟩
  rcases PyOpcode.exists_table with ⟨pyTable, hpy⟩
  simp only [labels, List.mem_cons, List.not_mem_nil, or_false] at h
  rcases h with rfl | rfl
  · exact ⟨_, congrArg (ofTable "beam" "Erlang virtual machine (BEAM)") hbeam⟩
  · exact ⟨_, congrArg (ofTable "pyvm" "Python 2.6 virtual machine") hpy⟩

end Architecture

end OpcodeRegistry
