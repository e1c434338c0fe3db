import KernelGrid.Proofs.Inst.Codec

/-!
# Items in streams

A record says one thing: it is an entry point, an instruction or the end of a function.  What is
written of that is the record in canonical form, and reading it gives the same again.
-/

namespace KernelGrid

open KernelGrid.Stream

namespace Stream.Record

/-- A record with its operands as they are written: zeros behind the end of each literal
string, and zero or one for the signedness of an integer type. -/
def canonical (r : Record) : Record where
  offset := r.offset
  opcode := r.opcode
  operands :=
    if r.opcode = Opcode.entryPoint then r.operands.take 2 ++ padString (r.operands.drop 2)
    else match Form.ofOpcode? r.opcode with
      | some form =>
        r.operands.take form.layout.width ++ form.canonical (r.operands.drop form.layout.width)
      | none => r.operands

theorem length_canonical (r : Record) : r.canonical.operands.length = r.operands.length := by
  have hsplit (count : Nat) (f : List Word → List Word)
      (hf : ∀ words, (f words).length = words.length) :
      (r.operands.take count ++ f (r.operands.drop count)).length = r.operands.length := by
    rw [List.length_append, hf, ← List.length_append, List.take_append_drop]
  rw [canonical]
  split
  · exact hsplit 2 padString length_padString
  · split
    · rename_i form _
      exact hsplit form.layout.width form.canonical form.length_canonical
    · rfl

end Stream.Record

namespace EntryPoint

/-- Whether an entry point is read again as it is written.  The size of its work group is written
elsewhere. -/
structure Readable (bound : ResultId) (e : EntryPoint ResultId) : Prop where
  function : IdBelow bound e.function
  name : '\x00' ∉ e.name.toList
  interface : ∀ id ∈ e.interface, IdBelow bound id
  localSize : e.localSize = none

theorem words_statement (e : EntryPoint ResultId) :
    (e.statement id).words =
      e.model.code :: e.function :: (literalWords e.name ++ e.interface) := by
  simp [statement, Statement.plain, Statement.words, List.flatMap_map]

theorem read_returns {s : Scope} {offset : Nat} {words : List Word} {e : EntryPoint ResultId}
    {c' : Cursor} (h : (read s).Returns ⟨offset, words⟩ e c') :
    e.Readable s.bound ∧ words.take 2 ++ padString (words.drop 2) = (e.statement id).words := by
  unfold read at h
  obtain ⟨model, _, hmodel, h⟩ := Reader.returns_bind.1 h
  obtain ⟨_, rfl, rfl⟩ := Scope.enumerant_returns.1 hmodel
  obtain ⟨function, _, hfunction, h⟩ := Reader.returns_bind.1 h
  obtain ⟨hid, rest, rfl, rfl⟩ := Scope.ref_returns.1 hfunction
  obtain ⟨name, ⟨_, _⟩, hname, h⟩ := Reader.returns_bind.1 h
  obtain ⟨hpad, hzero⟩ := readString_returns hname
  obtain ⟨interface, hinterface, rfl⟩ := Reader.returns_map.1 h
  obtain ⟨hids, rfl, -⟩ := Scope.refs_returns.1 hinterface
  refine ⟨⟨hid, hzero, hids, rfl⟩, ?_⟩
  rw [words_statement]
  simp [hpad]

theorem read_words {s : Scope} {e : EntryPoint ResultId} (he : e.Readable s.bound)
    (offset : Nat) : ∃ end_, (read s).Returns ⟨offset, (e.statement id).words⟩ e ⟨end_, []⟩ := by
  rw [words_statement]
  unfold read
  refine ⟨_, Reader.returns_bind.2 ⟨e.model, _, Scope.enumerant_returns.2 ⟨_, rfl, rfl⟩,
    Reader.returns_bind.2 ⟨e.function, _, Scope.ref_returns.2 ⟨he.function, _, rfl, rfl⟩,
    Reader.returns_bind.2 ⟨e.name, _, readString_literalWords he.name _ _,
    Reader.returns_map.2 ⟨e.interface, Scope.refs_returns.2 ⟨he.interface, rfl, rfl⟩, ?_⟩⟩⟩⟩⟩
  obtain ⟨model, function, name, interface, localSize⟩ := e
  obtain rfl : localSize = none := he.localSize
  rfl

end EntryPoint

namespace Item

def statement : Item ResultId → Statement
  | entryPoint e => e.statement id
  | functionEnd => .functionEnd
  | inst i => i.statement id

def Readable (bound : ResultId) : Item ResultId → Prop
  | entryPoint e => e.Readable bound
  | functionEnd => True
  | inst i => i.Readable bound

theorem ofRecord_eq_ok {bound : ResultId} {r : Record} {item : Item ResultId} :
    ofRecord bound r = .ok item ↔
      ∃ c', (read ⟨bound, r.opcode, r.offset⟩).Returns ⟨r.offset + 1, r.operands⟩ item c' := by
  constructor
  · intro h
    exact ⟨_, Prod.ext h rfl⟩
  · rintro ⟨c', h⟩
    exact congrArg Prod.fst h

/-- What is written of an item is its record in canonical form. -/
theorem readable_of_ofRecord {bound : ResultId} {r : Record} {item : Item ResultId}
    (h : ofRecord bound r = .ok item) :
    item.Readable bound ∧ item.statement.opcode = r.canonical.opcode ∧
      item.statement.words = r.canonical.operands := by
  obtain ⟨c', h⟩ := ofRecord_eq_ok.1 h
  simp only [Record.canonical]
  unfold read at h
  split at h
  · rename_i hop
    obtain ⟨e, he, rfl⟩ := Reader.returns_map.1 h
    obtain ⟨hread, hwords⟩ := EntryPoint.read_returns he
    exact ⟨hread, hop.symm, by rw [if_pos hop, hwords]; rfl⟩
  rename_i hentry
  rw [if_neg hentry]
  split at h
  · rename_i hop
    obtain ⟨_, _, hfinish, h⟩ := Reader.returns_bind.1 h
    obtain ⟨hrest, rfl⟩ := Scope.finish_returns.1 hfinish
    obtain ⟨rfl, rfl⟩ := Reader.returns_pure.1 h
    refine ⟨trivial, hop.symm, ?_⟩
    have hform : Form.ofOpcode? r.opcode = none :=
      (congrArg Form.ofOpcode? hop).trans (by rfl)
    rw [hform]
    exact hrest.symm
  rename_i hend
  split at h
  · rename_i form hform
    obtain ⟨i, _, hi, h⟩ := Reader.returns_bind.1 h
    obtain ⟨hread, hop, hwords⟩ := Inst.read_returns hi
    obtain ⟨_, _, hfinish, h⟩ := Reader.returns_bind.1 h
    obtain ⟨hrest, rfl⟩ := Scope.finish_returns.1 hfinish
    obtain ⟨rfl, rfl⟩ := Reader.returns_pure.1 h
    refine ⟨hread, hop.trans (Form.opcode_of_ofOpcode? hform), ?_⟩
    simp only [hform]
    rw [hwords, hrest, List.append_nil]
    rfl
  · rename_i hform
    obtain ⟨i, hi, rfl⟩ := Reader.returns_map.1 h
    obtain ⟨hread, hop, hwords, -⟩ := Inst.readRaw_returns hform hentry hend hi
    refine ⟨hread, hop, ?_⟩
    simp only [hform]
    exact hwords.symm

/-- Reading gives back what was written. -/
theorem ofRecord_statement {bound : ResultId} {item : Item ResultId}
    (hread : item.Readable bound) (offset : Nat) :
    ofRecord bound ⟨offset, item.statement.opcode, item.statement.words⟩ = .ok item := by
  rw [ofRecord_eq_ok]
  unfold read
  cases item with
  | entryPoint e =>
      split
      · obtain ⟨end_, he⟩ :=
          EntryPoint.read_words (s := ⟨bound, Opcode.entryPoint, offset⟩) hread (offset + 1)
        exact ⟨_, Reader.returns_map.2 ⟨e, he, rfl⟩⟩
      · rename_i hop
        exact absurd rfl hop
  | functionEnd =>
      split
      · rename_i hop
        cases hop
      split
      · exact ⟨_, Reader.returns_bind.2 ⟨(), _, Scope.finish_returns.2 ⟨rfl, rfl⟩,
          Reader.returns_pure.2 ⟨rfl, rfl⟩⟩⟩
      · rename_i hop
        exact absurd rfl hop
  | inst i =>
      obtain ⟨hentry, hend⟩ := hread.genuine.opcode_ne
      split
      · rename_i hop
        exact absurd hop hentry
      split
      · rename_i hop
        exact absurd hop hend
      split
      · rename_i form hform
        obtain ⟨end_, hi⟩ := Inst.read_words (s := ⟨bound, i.opcode, offset⟩) hread hform
          (offset + 1)
        exact ⟨_, Reader.returns_bind.2 ⟨i, _, hi, Reader.returns_bind.2 ⟨(), _,
          Scope.finish_returns.2 ⟨rfl, rfl⟩, Reader.returns_pure.2 ⟨rfl, rfl⟩⟩⟩⟩
      · rename_i hform
        exact ⟨_, Reader.returns_map.2
          ⟨i, Inst.readRaw_words (s := ⟨bound, i.opcode, offset⟩) hread rfl hform _, rfl⟩⟩

end Item
end KernelGrid
