import KernelGrid.Grammar.Capability
import KernelGrid.Grammar.Decoration
import KernelGrid.Grammar.ExecutionModel
import KernelGrid.Grammar.MemoryModel
import KernelGrid.Grammar.Opcode
import KernelGrid.Grammar.StorageClass
import KernelGrid.Proofs.Text.Pieces
import KernelGrid.Text.Quoted

/-!
# Visible text

Names, numbers and quoted text consist of characters that show as themselves.  No such
character ends a line, so lines of visible text can be told apart when they have been put
together.
-/

namespace KernelGrid

namespace Text

def Visible (s : String) : Prop := ∀ c ∈ s.toList, isUnprintable c = false

-- The bytes of a literal text are at hand without decoding, so whole tables of names can be
-- checked.
def Plain (s : String) : Prop := ∀ b ∈ s.toByteArray.data.toList, 0x20 ≤ b.toNat ∧ b.toNat < 0x7f

instance (s : String) : Decidable (Plain s) := List.decidableBAll _ s.toByteArray.data.toList

/-! ## Plain text -/

theorem isUnprintable_of_plain {c : Char} (hlow : 0x20 ≤ c.toNat) (hhigh : c.toNat < 0x7f) :
    isUnprintable c = false := by
  have houtside : ∀ r ∈ unprintableRanges, r.2 < 0x20 ∨ 0x7f ≤ r.1 := by decide +kernel
  rw [isUnprintable, List.any_eq_false]
  intro r hr
  have hr := houtside r hr
  simp only [Bool.and_eq_true, decide_eq_true_eq]
  omega

theorem toNat_of_utf8EncodeChar {c : Char}
    (hc : ∀ b ∈ String.utf8EncodeChar c, 0x20 ≤ b.toNat ∧ b.toNat < 0x7f) :
    0x20 ≤ c.toNat ∧ c.toNat < 0x7f := by
  have hval : c.toNat = c.val.toNat := rfl
  simp only [String.utf8EncodeChar] at hc
  split at hc
  · have hbyte := hc _ List.mem_cons_self
    rw [UInt8.toNat_ofNat'] at hbyte
    omega
  · exfalso
    split at hc
    case' isFalse => split at hc
    all_goals
      have hbyte := (hc _ List.mem_cons_self).2
      rw [UInt8.toNat_ofNat'] at hbyte
      omega

theorem Plain.visible {s : String} (hs : Plain s) : Visible s := by
  intro c hc
  have hbytes : s.toByteArray.data.toList = s.toList.flatMap String.utf8EncodeChar := by
    rw [← String.utf8Encode_toList, List.utf8Encode, List.data_toByteArray]
  obtain ⟨hlow, hhigh⟩ := toNat_of_utf8EncodeChar fun b hb =>
    hs b (hbytes ▸ List.mem_flatMap.2 ⟨c, hc, hb⟩)
  exact isUnprintable_of_plain hlow hhigh

/-! ## Visible text -/

theorem visible_empty : Visible "" := nofun

namespace Visible

theorem append {s t : String} (hs : Visible s) (ht : Visible t) : Visible (s ++ t) := by
  rw [Visible, String.toList_append, List.forall_mem_append]
  exact ⟨hs, ht⟩

theorem join {ss : List String} (hss : ∀ s ∈ ss, Visible s) : Visible (String.join ss) := by
  intro c hc
  rw [String.toList_join, List.mem_flatMap] at hc
  obtain ⟨s, hs, hc⟩ := hc
  exact hss s hs c hc

theorem notMem {s : String} {c : Char} (hs : Visible s) (hc : isUnprintable c) :
    c ∉ s.toList := by
  intro hmem
  rw [hs c hmem] at hc
  cases hc

end Visible

theorem visible_toDigits {base : Nat} (hlow : 1 < base) (hhigh : base ≤ 16) (n : Nat) :
    Visible (String.ofList (Nat.toDigits base n)) := by
  rw [Visible, String.toList_ofList]
  have hplain : ∀ k < 16, 0x20 ≤ (Nat.digitChar k).toNat ∧
      (Nat.digitChar k).toNat < 0x7f := by decide
  have hdigit (k : Nat) (hk : k < 16) : isUnprintable (Nat.digitChar k) = false :=
    isUnprintable_of_plain (hplain k hk).1 (hplain k hk).2
  induction n using Nat.strongRecOn with
  | ind n ih =>
      rw [Nat.toDigits_eq_if hlow]
      split
      next hn =>
        exact List.forall_mem_singleton.2 (hdigit n (Nat.lt_of_lt_of_le hn hhigh))
      next hn =>
        have hless := Nat.div_lt_self (n := n) (by omega) hlow
        have hlast := Nat.lt_of_lt_of_le (Nat.mod_lt n (Nat.lt_trans Nat.zero_lt_one hlow)) hhigh
        exact List.forall_mem_append.2 ⟨ih _ hless, List.forall_mem_singleton.2 (hdigit _ hlast)⟩

theorem visible_hexadecimal (n : Nat) : Visible (hexadecimal n) :=
  visible_toDigits (by decide) (by decide) n

theorem visible_repr (n : Nat) : Visible n.repr := by
  rw [Nat.repr_eq_ofList_toDigits]
  exact visible_toDigits (by decide) (by decide) n

theorem visible_word (w : Word) : Visible (toString w) := visible_repr w.toNat

/-- Whatever would not show as itself is escaped. -/
theorem visible_escape (c : Char) : Visible (escape c) := by
  unfold escape
  iterate 6
    split
    · exact Plain.visible (by decide)
  split
  · exact (Plain.visible (by decide)).append (visible_hexadecimal _) |>.append
      (Plain.visible (by decide))
  next hc =>
    rw [Visible, Char.toString_eq_singleton, String.toList_singleton, List.forall_mem_singleton]
    exact Bool.eq_false_iff.2 hc

theorem visible_quote (s : String) : Visible (quote s) := by
  refine ((Plain.visible (by decide)).append (.join ?_)).append (Plain.visible (by decide))
  exact List.forall_mem_map.2 fun c _ => visible_escape c

/-! ## Lines -/

/-- Lines that have been put together fall apart into the same lines, with nothing behind the
last one. -/
theorem pieces_join {lines : List String} (hlines : ∀ line ∈ lines, Visible line) :
    pieces '\n' (String.join (lines.map (· ++ "\n"))).toList = lines.map String.toList ++
      [[]] := by
  induction lines with
  | nil => rfl
  | cons line lines ih =>
      rw [List.forall_mem_cons] at hlines
      have hend : "\n".toList = ['\n'] := rfl
      rw [List.map_cons, String.join_cons, String.toList_append, String.toList_append, hend,
        List.append_assoc, List.singleton_append,
        pieces_append (hlines.1.notMem (by decide +kernel)), ih hlines.2]
      rfl

end Text

/-! ## Names -/

open Text

theorem mem_of_lookup {α β : Type} [BEq α] [LawfulBEq α] {entries : List (α × β)} {a : α} {b : β}
    (hlookup : entries.lookup a = some b) : (a, b) ∈ entries := by
  obtain ⟨l, r, heq, -⟩ := List.lookup_eq_some_iff.1 hlookup
  rw [heq]
  exact List.mem_append_right _ List.mem_cons_self

class Vocabulary.IsPlain (v : Vocabulary) : Prop where
  plain : ∀ entry ∈ v.entries, Plain entry.2

instance : AddressingModel.vocabulary.IsPlain := ⟨by decide +kernel⟩

instance : MemoryModel.vocabulary.IsPlain := ⟨by decide +kernel⟩

instance : ExecutionModel.vocabulary.IsPlain := ⟨by decide +kernel⟩

instance : ExecutionMode.vocabulary.IsPlain := ⟨by decide +kernel⟩

instance : StorageClass.vocabulary.IsPlain := ⟨by decide +kernel⟩

instance : Decoration.vocabulary.IsPlain := ⟨by decide +kernel⟩

instance : Capability.vocabulary.IsPlain := ⟨by decide +kernel⟩

theorem Enumerant.visible_name {v : Vocabulary} [hv : v.IsPlain] (e : Enumerant v) :
    Visible e.name :=
  (hv.plain _ (mem_of_lookup (Option.some_get e.isKnown).symm)).visible

namespace Opcode

theorem plain_names : ∀ entry ∈ plainNames ++ untypedNames ++ typedNames, Plain entry.2 := by
  decide +kernel

theorem mem_of_bareName? {op : Opcode} {s : String} (hs : op.bareName? = some s) :
    (op, s) ∈ plainNames ++ untypedNames ++ typedNames := by
  rw [List.mem_append, List.mem_append]
  unfold bareName? at hs
  cases hplain : plainNames.lookup op with
  | some t =>
      rw [hplain] at hs
      exact .inl (.inl (mem_of_lookup (hplain.trans hs)))
  | none =>
      rw [hplain] at hs
      cases huntyped : untypedNames.lookup op with
      | some t =>
          rw [huntyped] at hs
          exact .inl (.inr (mem_of_lookup (huntyped.trans hs)))
      | none =>
          rw [huntyped] at hs
          exact .inr (mem_of_lookup hs)

theorem visible_name (op : Opcode) : Visible op.name := by
  unfold name
  split
  next s hs =>
    exact (Plain.visible (by decide)).append (plain_names _ (mem_of_bareName? hs)).visible
  · exact ((Plain.visible (by decide)).append (visible_repr _)).append
      (Plain.visible (by decide))

end Opcode

end KernelGrid
