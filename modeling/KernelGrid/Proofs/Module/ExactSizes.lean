import KernelGrid.Proofs.Module.ByteSizes
import KernelGrid.Proofs.Module.Intake
import KernelGrid.Proofs.Word

/-!
# Exact sizes

What a type takes in unbounded numbers, and when its size in words is found: everything that it
is made of has a static size, and no number on the way needs more than a word.  Otherwise the
error names the type where one of these fails.
-/

namespace KernelGrid

/-- The number that the words of a scalar make up, the lowest word first. -/
def Kind.number? {ρ : Type} : Kind ρ → Option Nat
  | constant [] => none
  | constant (w :: ws) => some ((w :: ws).foldr (fun w n => w.toNat + UInt32.size * n) 0)
  | _ => none

def Kind.isScalar {ρ : Type} : Kind ρ → Bool
  | typeBool | typeInt _ _ | typeFloat _ | typePointer _ _ => true
  | _ => false

namespace Module

inductive ExactSize (m : Module) : Handle → Nat → Prop
  | bool {t} (ht : m.kindOf t = .typeBool) : ExactSize m t 4
  | int {t width signed} (ht : m.kindOf t = .typeInt width signed) :
    ExactSize m t (width.toNat / 8)
  | float {t width} (ht : m.kindOf t = .typeFloat width) : ExactSize m t (width.toNat / 8)
  | pointer {t storage pointee} (ht : m.kindOf t = .typePointer storage pointee) :
    ExactSize m t 4
  | vector {t component count s} (ht : m.kindOf t = .typeVector component count)
    (hs : ExactSize m component s) : ExactSize m t (s * count.toNat)
  | array {t element length n s} (ht : m.kindOf t = .typeArray element length)
    (hn : (m.kindOf length).number? = some n)
    (hs : ExactSize m element s) : ExactSize m t (s * n)
  | struct {t members} {size : Handle → Nat} (ht : m.kindOf t = .typeStruct members)
    (hsize : ∀ u ∈ members, ExactSize m u (size u)) : ExactSize m t (members.map size).sum

/-- The numbers that come up where the exact size of a type is put together: the products of
vectors and arrays, and the sums of the leading members of structs. -/
inductive Amount (m : Module) (t : Handle) : Nat → Prop
  | vector {component count s} (ht : m.kindOf t = .typeVector component count)
    (hs : m.ExactSize component s) : Amount m t (s * count.toNat)
  | array {element length n s} (ht : m.kindOf t = .typeArray element length)
    (hn : (m.kindOf length).number? = some n) (hs : m.ExactSize element s) : Amount m t (s * n)
  | leading {members front} {size : Handle → Nat} (ht : m.kindOf t = .typeStruct members)
    (hfront : front <+: members) (hsize : ∀ u ∈ front, m.ExactSize u (size u)) :
    Amount m t (front.map size).sum

def IsSized (m : Module) (t : Handle) : Prop :=
  match m.kindOf t with
  | .typeBool | .typeInt _ _ | .typeFloat _ | .typePointer _ _ | .typeVector _ _
  | .typeStruct _ => True
  | .typeArray _ length => (m.kindOf length).number?.isSome
  | _ => False

def FitsWord (m : Module) (t : Handle) : Prop :=
  m.IsSized t ∧ ∀ a, m.Amount t a → a < UInt32.size

/-- What a type can be rejected for: a type inside it has no static size, or is too large. -/
inductive Rejects (m : Module) (t : Handle) : ModuleError → Prop
  | unsized {u} (hu : u ∈ m.span t) (hsized : ¬m.IsSized u) : Rejects m t (.unsized (m.idOf u))
  | overflow {u a} (hu : u ∈ m.span t) (ha : m.Amount u a) (hle : UInt32.size ≤ a) :
    Rejects m t (.sizeOverflow (m.idOf u))

/-- Whether the length of an array, if it is a constant, is at most one word long. -/
def ShortLength (m : Module) (t : Handle) : Prop := ∀ element length words,
  m.kindOf t = .typeArray element length → m.kindOf length = .constant words → words.length ≤ 1

/-! ## Exact sizes -/

variable {m : Module} {t u : Handle} {s s' : Nat}

theorem ExactSize.unique (hs : m.ExactSize t s) (hs' : m.ExactSize t s') : s = s' := by
  induction hs generalizing s' with
  | bool ht | int ht | float ht | pointer ht => cases hs' <;> simp_all
  | vector ht _ ih =>
      cases hs' with
      | vector ht' hs' =>
          cases ht.symm.trans ht'
          rw [ih hs']
      | _ => simp_all
  | array ht hn _ ih =>
      cases hs' with
      | array ht' hn' hs' =>
          cases ht.symm.trans ht'
          cases hn.symm.trans hn'
          rw [ih hs']
      | _ => simp_all
  | struct ht _ ih =>
      cases hs' with
      | struct ht' hsize' =>
          cases ht.symm.trans ht'
          rw [List.map_congr_left fun u hu => ih u hu (hsize' u hu)]
      | _ => simp_all

theorem amount_iff_of_vector {component : Handle} {count : Word} {a : Nat}
    (ht : m.kindOf t = .typeVector component count) :
    m.Amount t a ↔ ∃ s, m.ExactSize component s ∧ a = s * count.toNat := by
  constructor
  · intro ha
    cases ha with
    | vector ht' hs =>
        cases ht.symm.trans ht'
        exact ⟨_, hs, rfl⟩
    | array ht' | leading ht' => cases ht.symm.trans ht'
  · rintro ⟨s, hs, rfl⟩
    exact .vector ht hs

theorem amount_iff_of_array {element length : Handle} {n a : Nat}
    (ht : m.kindOf t = .typeArray element length) (hn : (m.kindOf length).number? = some n) :
    m.Amount t a ↔ ∃ s, m.ExactSize element s ∧ a = s * n := by
  constructor
  · intro ha
    cases ha with
    | array ht' hn' hs =>
        cases ht.symm.trans ht'
        cases hn.symm.trans hn'
        exact ⟨_, hs, rfl⟩
    | vector ht' | leading ht' => cases ht.symm.trans ht'
  · rintro ⟨s, hs, rfl⟩
    exact .array ht hn hs

theorem number?_of_shortLength {element length : Handle} (hshort : m.ShortLength t)
    (ht : m.kindOf t = .typeArray element length) :
    (m.kindOf length).number? = (m.constantValue? length).map UInt32.toNat := by
  rw [constantValue?]
  cases hkind : m.kindOf length
  case constant words =>
    obtain _ | ⟨w, _ | ⟨w', ws⟩⟩ := words
    · rfl
    · simp [Kind.number?]
    · have hle := hshort element length _ ht hkind
      simp at hle
  all_goals rfl

/-! ## One type -/

variable {size : Handle → Except ModuleError Word}

def Judges (m : Module) (t : Handle) : Except ModuleError Word → Prop
  | .ok n => m.ExactSize t n.toNat ∧ ∀ u ∈ m.span t, m.FitsWord u
  | .error e => m.Rejects t e

theorem Rejects.of_embeds {e : ModuleError} (htu : m.Embeds t u) (he : m.Rejects u e) :
    m.Rejects t e := by
  cases he with
  | unsized hv hsized => exact .unsized (mem_span_of_embeds htu hv) hsized
  | overflow hv ha hle => exact .overflow (mem_span_of_embeds htu hv) ha hle

/-- A size is right if it is exact and the type fits a word, once those of all parts are
right. -/
theorem judges_ok {n : Word} (hsize : m.ExactSize t n.toNat) (ht : m.FitsWord t)
    (hparts : ∀ u, m.Embeds t u → ∃ s, m.Judges u (.ok s)) : m.Judges t (.ok n) := by
  refine ⟨hsize, fun v hv => ?_⟩
  obtain rfl | ⟨u, htu, hv⟩ := mem_span_iff.1 hv
  · exact ht
  · obtain ⟨s, -, hspan⟩ := hparts u htu
    exact hspan v hv

theorem judges_scalar {n : Word} (hsize : m.ExactSize t n.toNat) (ht : (m.kindOf t).isScalar) :
    m.Judges t (.ok n) := by
  refine judges_ok hsize ⟨?_, fun a ha => ?_⟩ fun u htu => ?_
  · revert ht
    rw [IsSized]
    cases m.kindOf t <;> simp [Kind.isScalar]
  · cases ha with
    | vector ht' | array ht' | leading ht' =>
        rw [ht'] at ht
        cases ht
  · revert ht htu
    rw [Embeds]
    cases m.kindOf t <;> simp [Kind.isScalar, Kind.parts]

theorem judges_product {part : Handle} {count : Word} (hparts : ∀ u, m.Embeds t u ↔ u = part)
    (hsized : m.IsSized t) (hsize : ∀ s, m.ExactSize part s → m.ExactSize t (s * count.toNat))
    (hamount : ∀ a, m.Amount t a ↔ ∃ s, m.ExactSize part s ∧ a = s * count.toNat)
    (hpart : m.Judges part (size part)) : m.Judges t (do
      match Word.mul? (← size part) count with
      | some s => .ok s
      | none => .error (.sizeOverflow (m.idOf t))) := by
  cases hs : size part with
  | error e =>
      rw [hs] at hpart
      exact hpart.of_embeds ((hparts part).2 rfl)
  | ok s =>
      rw [hs] at hpart
      change m.Judges t (match Word.mul? s count with
        | some s => .ok s
        | none => .error (.sizeOverflow (m.idOf t)))
      cases hmul : Word.mul? s count with
      | none =>
          exact .overflow mem_span_self ((hamount _).2 ⟨_, hpart.1, rfl⟩)
            (Word.mul?_eq_none.1 hmul)
      | some n =>
          have hn := Word.mul?_eq_some.1 hmul
          refine judges_ok (hn ▸ hsize _ hpart.1) ⟨hsized, fun a ha => ?_⟩ fun u htu => ?_
          · obtain ⟨s', hs', rfl⟩ := (hamount a).1 ha
            rw [hs'.unique hpart.1, ← hn]
            exact n.toNat_lt
          · exact ⟨s, (hparts u).1 htu ▸ hpart⟩

/-! ## Structs -/

def found (size : Handle → Except ModuleError Word) (u : Handle) : Nat :=
  ((size u).toOption.getD 0).toNat

def addMember (size : Handle → Except ModuleError Word) (e : ModuleError) (sum : Word)
    (u : Handle) : Except ModuleError Word := do
  match Word.add? sum (← size u) with
  | some sum => .ok sum
  | none => .error e

/-- What adding up the sizes of members comes to: their sum if all of them are found, or else
the error of one that is not, or the given error if leading ones are too large together. -/
def Totals (size : Handle → Except ModuleError Word) (e : ModuleError) (members : List Handle) :
    Except ModuleError Word → Prop
  | .ok n => (∀ u ∈ members, ∃ n, size u = .ok n) ∧ n.toNat = (members.map (found size)).sum
  | .error e' => (∃ u ∈ members, size u = .error e') ∨ e' = e ∧ ∃ lead, lead <+: members ∧
      (∀ u ∈ lead, ∃ n, size u = .ok n) ∧ UInt32.size ≤ (lead.map (found size)).sum

theorem totals_foldlM {e : ModuleError} (front rest : List Handle) {sum : Word}
    (hfront : ∀ u ∈ front, ∃ n, size u = .ok n)
    (hsum : sum.toNat = (front.map (found size)).sum) :
    Totals size e (front ++ rest) (rest.foldlM (addMember size e) sum) := by
  induction rest generalizing front sum with
  | nil =>
      rw [List.append_nil]
      exact ⟨hfront, hsum⟩
  | cons u rest ih =>
      rw [List.foldlM_cons]
      cases hu : size u with
      | error e' =>
          have hstep : addMember size e sum u = .error e' := by rw [addMember, hu]; rfl
          rw [hstep]
          exact .inl ⟨u, List.mem_append_right _ List.mem_cons_self, hu⟩
      | ok k =>
          have hfront' : ∀ v ∈ front ++ [u], ∃ n, size v = .ok n := by
            rw [List.forall_mem_append, List.forall_mem_singleton]
            exact ⟨hfront, k, hu⟩
          have hnext : ((front ++ [u]).map (found size)).sum = sum.toNat + k.toNat := by
            simp [hsum, found, hu, Except.toOption]
          have hstep : addMember size e sum u =
              match Word.add? sum k with
              | some sum => .ok sum
              | none => .error e := by rw [addMember, hu]; rfl
          rw [hstep]
          cases hadd : Word.add? sum k with
          | none =>
              have hle := Word.add?_eq_none.1 hadd
              exact .inr ⟨rfl, front ++ [u], ⟨rest, by simp⟩, hfront', hnext ▸ hle⟩
          | some next =>
              have hall :=
                ih (front ++ [u]) hfront' ((Word.add?_eq_some.1 hadd).trans hnext.symm)
              rwa [List.append_assoc] at hall

theorem exactSize_found {u : Handle} (hu : ∃ n, size u = .ok n) (hjudges : m.Judges u (size u)) :
    m.ExactSize u (found size u) := by
  obtain ⟨n, hn⟩ := hu
  rw [hn] at hjudges
  rw [found, hn]
  exact hjudges.1

theorem judges_struct {members : List Handle} (ht : m.kindOf t = .typeStruct members)
    (hparts : ∀ u ∈ members, m.Judges u (size u)) :
    m.Judges t (members.foldlM (addMember size (.sizeOverflow (m.idOf t))) 0) := by
  have hembeds (u : Handle) : m.Embeds t u ↔ u ∈ members := by rw [Embeds, ht, Kind.parts]
  have hzero : (0 : Word).toNat = (([] : List Handle).map (found size)).sum := rfl
  have hsum := totals_foldlM (e := .sizeOverflow (m.idOf t)) [] members (by simp) hzero
  rw [List.nil_append] at hsum
  cases hrun : members.foldlM (addMember size (.sizeOverflow (m.idOf t))) 0 with
  | error e =>
      rw [hrun] at hsum
      obtain ⟨u, hu, he⟩ | ⟨rfl, lead, hlead, hfound, hle⟩ := hsum
      · have hjudges := hparts u hu
        rw [he] at hjudges
        exact hjudges.of_embeds ((hembeds u).2 hu)
      · exact .overflow mem_span_self (.leading ht hlead fun u hu =>
          exactSize_found (hfound u hu) (hparts u (hlead.subset hu))) hle
  | ok n =>
      rw [hrun] at hsum
      obtain ⟨hfound, hn⟩ := hsum
      have hexact (u : Handle) (hu : u ∈ members) : m.ExactSize u (found size u) :=
        exactSize_found (hfound u hu) (hparts u hu)
      refine judges_ok (hn ▸ .struct ht hexact) ⟨by simp [IsSized, ht], fun a ha => ?_⟩
        fun u htu => ?_
      · -- leading members take no more than all of them, which is a word
        cases ha with
        | @leading members' front size' ht' hfront hsize' =>
            cases ht.symm.trans ht'
            have heq : front.map size' = front.map (found size) :=
              List.map_congr_left fun u hu =>
              (hsize' u hu).unique (hexact u (hfront.subset hu))
            have hle : (front.map (found size)).sum ≤ (members.map (found size)).sum := by
              obtain ⟨rest, rfl⟩ := hfront
              rw [List.map_append, List.sum_append]
              exact Nat.le_add_right _ _
            rw [heq]
            exact (hle.trans_eq hn.symm).trans_lt n.toNat_lt
        | vector ht' => cases ht.symm.trans ht'
        | array ht' => cases ht.symm.trans ht'
      · obtain ⟨k, hk⟩ := hfound u ((hembeds u).1 htu)
        exact ⟨k, hk ▸ hparts u ((hembeds u).1 htu)⟩

/-! ## All types -/

/-- Once the sizes of parts are right, so is that of the whole. -/
theorem judges_byteSizeFrom (hshort : m.ShortLength t)
    (hparts : ∀ u, m.Embeds t u → m.Judges u (size u)) : m.Judges t (m.byteSizeFrom size t) := by
  have hdivide (width : Word) : (width / 8).toNat = width.toNat / 8 := UInt32.toNat_div width 8
  have hembeds {k : Kind Handle} (ht : m.kindOf t = k) (u : Handle) : m.Embeds t u ↔
      u ∈ k.parts := by
    rw [Embeds, ht]
  unfold byteSizeFrom
  cases ht : m.kindOf t
  all_goals dsimp only
  case typeBool => exact judges_scalar (.bool ht) (by rw [ht]; rfl)
  case typePointer => exact judges_scalar (.pointer ht) (by rw [ht]; rfl)
  case typeInt width _ => exact judges_scalar (hdivide width ▸ .int ht) (by rw [ht]; rfl)
  case typeFloat width => exact judges_scalar (hdivide width ▸ .float ht) (by rw [ht]; rfl)
  case typeVector component count =>
    have hpart (u : Handle) : m.Embeds t u ↔ u = component := by simp [hembeds ht, Kind.parts]
    exact judges_product hpart (by simp [IsSized, ht]) (fun s hs => .vector ht hs)
      (fun a => amount_iff_of_vector ht) (hparts component ((hpart component).2 rfl))
  case typeArray element length =>
    have hpart (u : Handle) : m.Embeds t u ↔ u = element := by simp [hembeds ht, Kind.parts]
    have hnumber := number?_of_shortLength hshort ht
    cases hlength : m.constantValue? length with
    | none => exact .unsized mem_span_self (by simp [IsSized, ht, hnumber, hlength])
    | some count =>
        rw [hlength, Option.map_some] at hnumber
        exact judges_product hpart (by simp [IsSized, ht, hnumber])
          (fun s hs => .array ht hnumber hs)
          (fun a => amount_iff_of_array ht hnumber) (hparts element ((hpart element).2 rfl))
  case typeStruct members =>
    exact judges_struct ht fun u hu => hparts u ((hembeds ht u).2 hu)
  all_goals exact .unsized mem_span_self (by simp [IsSized, ht])

theorem Contained.judges_byteSize (hm : m.Contained) (hacyclic : m.AcyclicFrom t)
    (hshort : ∀ u ∈ m.span t, m.ShortLength u) : m.Judges t (m.byteSize t) := by
  induction hm.acc_embeds hacyclic with
  | intro t _ ih =>
      rw [hm.byteSize_eq_from hacyclic]
      refine judges_byteSizeFrom (hshort t mem_span_self) fun u htu => ?_
      exact ih u htu (hacyclic.of_embeds htu) fun v hv => hshort v (mem_span_of_embeds htu hv)

/-- Measuring a type that does not contain itself ends.  It gives the exact size if and only if
everything inside the type has a static size that fits a word, and otherwise it names a type
that has none. -/
theorem Contained.byteSize_exact (hm : m.Contained) (hacyclic : m.AcyclicFrom t)
    (hshort : ∀ u ∈ m.span t, m.ShortLength u) :
    Acc (fun u t => m.Embeds t u) t ∧
    (∀ u ∈ m.span t, m.byteSize u = m.byteSizeFrom m.byteSize u) ∧
    ((∃ n, m.byteSize t = .ok n) ↔ ∀ u ∈ m.span t, m.FitsWord u) ∧
    (∀ n, m.byteSize t = .ok n → ∀ s, m.ExactSize t s ↔ s = n.toNat) ∧
    ∀ e, m.byteSize t = .error e → m.Rejects t e := by
  have hjudges := hm.judges_byteSize hacyclic hshort
  have hlocal (u : Handle) (hu : u ∈ m.span t) : m.AcyclicFrom u :=
    fun v hv => hacyclic v (Relation.ReflTransGen.trans hu hv)
  refine ⟨hm.acc_embeds hacyclic, fun u hu => hm.byteSize_eq_from (hlocal u hu), ?_, ?_, ?_⟩
  · cases hsize : m.byteSize t with
    | ok n =>
        rw [hsize] at hjudges
        exact iff_of_true ⟨n, rfl⟩ hjudges.2
    | error e =>
        rw [hsize] at hjudges
        refine iff_of_false (by simp) fun hfits => ?_
        cases hjudges with
        | unsized hu hsized => exact hsized (hfits _ hu).1
        | overflow hu ha hle => exact absurd ((hfits _ hu).2 _ ha) (Nat.not_lt.2 hle)
  · intro n hn s
    rw [hn] at hjudges
    exact ⟨fun hs => hs.unique hjudges.1, fun hs => hs ▸ hjudges.1⟩
  · intro e he
    rwa [he] at hjudges

def linkedNode : List Word :=
  [Stream.magic, 0x10000, 0, 8, 0, 0x30027, 6, 2, 0x40015, 1, 32, 0, 0x30016, 2, 32, 0x40017,
    3, 2, 4, 0x4002b, 1, 4, 3, 0x4001c, 5, 1, 4, 0x5001e, 7, 3, 5, 6, 0x40020, 6, 2, 7]

theorem Contained.byteSize_exact_linkedNode : ∃ m, load linkedNode = .ok m ∧ m.Contained ∧
    m.AcyclicFrom ⟨7⟩ ∧ (∀ u ∈ m.span ⟨7⟩, m.ShortLength u) ∧ m.byteSize ⟨7⟩ = .ok 32 ∧
    (∀ s, m.ExactSize ⟨7⟩ s ↔ s = 32) ∧ (∀ u ∈ m.span ⟨7⟩, m.FitsWord u) ∧
    m.byteSize ⟨7⟩ = m.byteSizeFrom m.byteSize ⟨7⟩ := by
  have hread : (load linkedNode).toOption.map (fun m =>
      (decide (∀ t ∈ m.insts.handles, ∀ u ∈ (m.kindOf t).parts, u.index < t.index),
        m.insts.handles.map m.kindOf, m.byteSize ⟨7⟩)) = some (true,
          [.typePointer .uniform ⟨7⟩, .typeForwardPointer ⟨0⟩ .uniform, .typeInt 32 false,
            .typeFloat 32, .typeVector ⟨3⟩ 4, .constant [3], .typeArray ⟨2⟩ ⟨5⟩,
            .typeStruct [⟨4⟩, ⟨6⟩, ⟨0⟩]],
          .ok 32) := by
    decide +kernel
  obtain ⟨m, hload, hread⟩ := exists_of_map_toOption hread
  obtain ⟨hparts, hread⟩ := Prod.mk.inj hread
  obtain ⟨hkinds, hsize⟩ := Prod.mk.inj hread
  have hcontained := contained_of_load hload
  have hacyclic := (acyclic_of_parts_lt (of_decide_eq_true hparts)).acyclicFrom ⟨7⟩
  have hshort (u : Handle) : m.ShortLength u := by
    intro _ length words _ hlength
    have hown : m.Owns length := by
      by_contra hown
      rw [kindOf, inst_of_not_owns hown] at hlength
      cases hlength
    have hmem : m.kindOf length ∈ m.insts.handles.map m.kindOf :=
      List.mem_map_of_mem (mem_handles.2 hown)
    rw [hkinds, hlength] at hmem
    simp only [List.mem_cons, Kind.constant.injEq, reduceCtorEq, List.not_mem_nil, or_false,
      false_or] at hmem
    simp [hmem]
  obtain ⟨-, hequation, hfits, hexact, -⟩ :=
    hcontained.byteSize_exact hacyclic fun u _ => hshort u
  exact ⟨m, hload, hcontained, hacyclic, fun u _ => hshort u, hsize, hexact 32 hsize,
    hfits.1 ⟨32, hsize⟩, hequation _ mem_span_self⟩

end Module

end KernelGrid
