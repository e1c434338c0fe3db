import KernelGrid.Proofs.Module.Acceptance
import KernelGrid.Proofs.Module.Soundness

/-!
# Resolution

A module can be resolved exactly if every id that a record of its stream refers to is defined
by some record, wherever that stands.  Then no placeholder is left, and each reference leads to
what was read from the record that defines the id; otherwise the smallest undefined id is
reported.
-/

namespace KernelGrid

open KernelGrid.Stream

namespace Item

def references : Item ResultId → List ResultId
  | entryPoint e => e.references
  | functionEnd => []
  | inst i => i.references

theorem mem_mentions {x : Item ResultId} {id : ResultId} :
    id ∈ x.mentions ↔ id ∈ x.references ∨ x.result? = some id := by
  cases x <;> simp [mentions, references, result?]

end Item

def Dangling (records : List Record) (item : Record → Item ResultId) (id : ResultId) : Prop :=
  (∃ r ∈ records, id ∈ (item r).references) ∧ ∀ r ∈ records, (item r).result? ≠ some id

namespace Module

/-- How the instructions and entry points of a module lead to the records that they were read
from. -/
structure Resolved (m : Module) (records : List Record) (item : Record → Item ResultId) :
    Prop where
  complete : ∀ h i, m.insts.get? h = some i → i.isPlaceholder = false
  decoded : ∀ h i, m.insts.get? h = some i → ∃ r ∈ records, item r = .inst (m.wire h)
  entered : ∀ e ∈ m.entryPoints, ∃ r ∈ records,
    item r = .entryPoint ((e.map m.idOf).withSize none)
  /-- A reference leads to what was read from the one record that defines its id. -/
  linked : ∀ g, (∃ h i, m.insts.get? h = some i ∧ g ∈ i.references) ∨
    (∃ e ∈ m.entryPoints, g ∈ e.references) →
      ∃ d ∈ records, item d = .inst (m.wire g) ∧
        ∀ r ∈ records, (item r).result? = some (m.idOf g) ↔ r = d

structure Named (m : Module) (records : List Record) (item : Record → Item ResultId)
    (origin : Handle → Option Record) : Prop where
  read : ∀ r ∈ records, Item.ofRecord m.header.bound r = .ok (item r)
  assembled : Assembled item (fun id => ∃ r ∈ records, id ∈ (item r).mentions) m.header records
    ⟨m, none⟩ origin
  hasId : ∀ r ∈ records, ∀ id ∈ (item r).mentions, m.HasId id
  results : (records.filterMap fun r => (item r).result?).Nodup
  numbers : m.Numbers

variable {m : Module} {records : List Record} {item : Record → Item ResultId}
  {origin : Handle → Option Record}

theorem EndOf.named {header : Header} (hm : m.EndOf header records item) :
    m.header = header ∧ ∃ origin, m.Named records item origin := by
  have hknown : ∀ r ∈ records, ∀ id ∈ (item r).mentions, ∃ r ∈ records, id ∈ (item r).mentions :=
    fun r hr id hid => ⟨r, hr, hid⟩
  obtain ⟨origin, hA⟩ := hm.assembled hknown
  obtain ⟨hids, hnodup, hnumbers⟩ := hm.ids
  obtain rfl : m.header = header := hA.header
  exact ⟨rfl, origin, hm.read, hA, hids, hnodup, hnumbers⟩

theorem exists_named {w : List Word} (hdecode : decode w = .ok m) :
    ∃ version generator bound schema body,
      w = magic :: version :: generator :: bound :: schema :: body ∧ ∃ records item origin,
      Record.split ⟨Stream.headerWords, body⟩ = (records, none) ∧
      m.header = ⟨version, generator, max bound 1⟩ ∧ m.Named records item origin := by
  obtain ⟨version, generator, bound, schema, body, hw, -, records, hsplit, item, hm⟩ :=
    exists_endOf hdecode
  obtain ⟨hheader, origin, hN⟩ := hm.named
  exact ⟨version, generator, bound, schema, body, hw, records, item, origin, hsplit, hheader, hN⟩

namespace Named

variable (hN : m.Named records item origin)

include hN

/-- What is left unresolved is referred to and not defined. -/
theorem mem_undefinedIds_iff {id : ResultId} :
    id ∈ m.undefinedIds ↔ Dangling records item id := by
  have hstores := hN.assembled.stores
  rw [mem_undefinedIds, Dangling]
  constructor
  · rintro ⟨h, hid, hplace⟩
    have hnone : ∀ r ∈ records, (item r).result? ≠ some id := by
      intro r hr hresult
      obtain ⟨g, hg, hstored⟩ := hstores.defined r hr id hresult
      have heq := (hstores.indexed id h).2 hid
      rw [(hstores.indexed id g).2 hg, Option.some.injEq] at heq
      rw [heq, hplace] at hstored
      cases hstored
    obtain ⟨r, hr, hmention⟩ := hN.assembled.named h id hid
    obtain hrefers | hresult := Item.mem_mentions.1 hmention
    · exact ⟨⟨r, hr, hrefers⟩, hnone⟩
    · exact absurd hresult (hnone r hr)
  · rintro ⟨⟨r, hr, hrefers⟩, hnone⟩
    obtain ⟨h, hid⟩ := hN.hasId r hr id (Item.mem_mentions.2 (.inl hrefers))
    refine ⟨h, hid, ?_⟩
    by_contra hplace
    obtain ⟨d, hd, -, hitem⟩ := hstores.stored h (by simpa using hplace)
    refine hnone d hd ?_
    rw [hitem]
    exact hid

/-- What has the id of a record was read from that record, if everything was defined. -/
theorem exists_definer (hall : m.undefinedIds = []) {g : Handle}
    (hg : (m.inst g).resultId.isSome) :
    ∃ d ∈ records, item d = .inst (m.wire g) ∧
      ∀ r ∈ records, (item r).result? = some (m.idOf g) ↔ r = d := by
  obtain ⟨d, hd, -, hitem⟩ :=
    hN.assembled.stores.stored g (undefinedIds_eq_nil.1 hall g hg)
  have hresult : (item d).result? = some (m.idOf g) := by
    obtain ⟨id, hid⟩ := Option.isSome_iff_exists.1 hg
    rw [hitem, idOf_eq hid]
    exact hid
  refine ⟨d, hd, hitem, fun r hr => ⟨fun hr' => ?_, fun heq => heq ▸ hresult⟩⟩
  exact eq_of_nodup_filterMap hN.results hr hd hr' hresult

theorem resolved (hall : m.undefinedIds = []) : m.Resolved records item := by
  have hinst {h : Handle} {i : Inst Handle} (hget : m.insts.get? h = some i) : m.inst h = i := by
    rw [inst, hget, Option.getD_some]
  have hcomplete : ∀ h i, m.insts.get? h = some i → i.isPlaceholder = false := by
    intro h i hget
    rw [← hinst hget]
    by_contra hplace
    have hid := hN.numbers h (by rw [hget]; rfl) (by simpa using hplace)
    exact hplace (undefinedIds_eq_nil.1 hall h hid)
  refine ⟨hcomplete, ?_, ?_, ?_⟩
  · intro h i hget
    obtain ⟨r, hr, -, hitem⟩ := hN.assembled.stores.stored h
      (by rw [hinst hget]; exact hcomplete h i hget)
    exact ⟨r, hr, hitem⟩
  · intro e he
    obtain ⟨r, hr, d, hitem, heq⟩ := hN.assembled.exists_entry he
    have hread := (Item.readable_of_ofRecord (hN.read r hr)).1
    rw [hitem] at hread
    refine ⟨r, hr, ?_⟩
    rw [hitem, ← heq, EntryPoint.withSize, ← hread.localSize]
  · rintro g (⟨h, i, hget, hg⟩ | ⟨e, he, hg⟩)
    · exact hN.exists_definer hall (hN.assembled.stores.closed h g (hinst hget ▸ hg))
    · exact hN.exists_definer hall (hN.assembled.enters.linked e he g hg)

end Named

/-- Resolving a module that was read succeeds exactly if everything that is referred to is
defined, wherever that stands; it then leads each reference to its definition, and otherwise
reports the smallest id that is not defined. -/
theorem resolve_of_decode {w : List Word} (hdecode : decode w = .ok m) :
    ∃ version generator bound schema body,
      w = magic :: version :: generator :: bound :: schema :: body ∧ ∃ records,
      Record.split ⟨Stream.headerWords, body⟩ = (records, none) ∧
      ∃ item : Record → Item ResultId,
      (∀ r ∈ records, Item.ofRecord (max bound 1) r = .ok (item r)) ∧
      ((∃ n, m.resolve = .ok n) ↔ ∀ r ∈ records, ∀ id ∈ (item r).references,
        ∃ d ∈ records, (item d).result? = some id) ∧
      (∀ e, m.resolve = .error e ↔ ∃ id, e = .unresolvedId id ∧ Dangling records item id ∧
        ∀ id', Dangling records item id' → id ≤ id') ∧
      ∀ n, m.resolve = .ok n → n.Resolved records item := by
  obtain ⟨version, generator, bound, schema, body, hw, records, item, origin, hsplit,
    hheader, hN⟩ := exists_named hdecode
  have hread := hN.read
  rw [hheader] at hread
  refine ⟨version, generator, bound, schema, body, hw, records, hsplit, item, hread, ?_, ?_, ?_⟩
  · have hok : (∃ n, m.resolve = .ok n) ↔ m.undefinedIds = [] := by
      rw [← List.min?_eq_none_iff, resolve]
      cases m.undefinedIds.min? <;> simp
    rw [hok, List.eq_nil_iff_forall_not_mem]
    simp only [hN.mem_undefinedIds_iff, Dangling, not_and, not_forall, not_not]
    constructor
    · intro hall r hr id hid
      obtain ⟨d, hd, hresult⟩ := hall id ⟨r, hr, hid⟩
      exact ⟨d, hd, hresult⟩
    · rintro hall id ⟨r, hr, hid⟩
      obtain ⟨d, hd, hresult⟩ := hall r hr id hid
      exact ⟨d, hd, hresult⟩
  · intro e
    have herror : m.resolve = .error e ↔
        ∃ id, e = .unresolvedId id ∧ m.undefinedIds.min? = some id := by
      rw [resolve]
      cases m.undefinedIds.min? <;> simp [eq_comm]
    simp only [herror, List.min?_eq_some_iff, hN.mem_undefinedIds_iff]
  · intro n hn
    obtain ⟨hall, rfl⟩ := resolve_eq_ok.1 hn
    obtain ⟨hcomplete, hdecoded, hentered, hlinked⟩ := hN.resolved hall
    exact ⟨hcomplete, hdecoded, hentered, hlinked⟩

/-- Names for three ids, of which one is defined behind its name and two are not defined. -/
def namesFirst : List Word :=
  [magic, 0x10000, 0, 9, 0, 0x30005, 8, 0x66, 0x30005, 5, 0x67, 0x30005, 7, 0x68, 0x20013, 7]

/-- Of the two ids that are not defined the smaller is reported. -/
theorem resolve_of_decode_namesFirst :
    ∃ m, decode namesFirst = .ok m ∧ m.resolve = .error (.unresolvedId 5) := by
  have hok : (decode namesFirst).toBool = true := by decide +kernel
  cases hdecode : decode namesFirst with
  | error e =>
      rw [hdecode] at hok
      cases hok
  | ok m =>
      refine ⟨m, rfl, ?_⟩
      obtain ⟨version, generator, bound, schema, body, hw, records, hsplit, item, hread,
        -, herror, -⟩ := resolve_of_decode hdecode
      simp only [namesFirst, List.cons.injEq] at hw
      obtain ⟨-, rfl, rfl, rfl, rfl, rfl⟩ := hw
      have hsplits : Record.split ⟨Stream.headerWords,
          [0x30005, 8, 0x66, 0x30005, 5, 0x67, 0x30005, 7, 0x68, 0x20013, 7]⟩ =
          ([⟨5, 5, [8, 0x66]⟩, ⟨8, 5, [5, 0x67]⟩, ⟨11, 5, [7, 0x68]⟩, ⟨14, 19, [7]⟩],
            none) := by rfl
      obtain ⟨hrecords, -⟩ := Prod.mk.inj (hsplit.symm.trans hsplits)
      have hitem : ∀ r ∈ records, item r = (Item.ofRecord 9 r).toOption.getD .functionEnd := by
        intro r hr
        rw [show Item.ofRecord 9 r = _ from hread r hr]
        rfl
      refine (herror _).2 ⟨5, rfl, ⟨⟨⟨8, 5, [5, 0x67]⟩, by simp [hrecords], ?_⟩, ?_⟩, ?_⟩
      · rw [hitem _ (by simp [hrecords])]
        decide +kernel
      · intro r hr
        rw [hitem r hr]
        rw [hrecords] at hr
        revert r
        decide +kernel
      · rintro id ⟨⟨r, hr, hid⟩, hnone⟩
        -- A list of ids is gone through, since a quantifier over words ranges over all of them.
        have hall : ∀ r ∈ records,
          ((Item.ofRecord 9 r).toOption.getD .functionEnd).references.all
            (fun id => decide (5 ≤ id) || records.any fun d =>
              ((Item.ofRecord 9 d).toOption.getD .functionEnd).result? == some id) = true := by
          rw [hrecords]
          decide +kernel
        rw [hitem r hr] at hid
        by_contra hlt
        have hdefined := List.all_eq_true.1 (hall r hr) id hid
        rw [decide_eq_false hlt, Bool.false_or, List.any_eq_true] at hdefined
        obtain ⟨d, hd, hresult⟩ := hdefined
        exact hnone d hd (hitem d hd ▸ eq_of_beq hresult)

end Module

end KernelGrid
