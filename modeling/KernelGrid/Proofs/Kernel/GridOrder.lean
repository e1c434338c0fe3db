import KernelGrid.Kernel.Cell
import KernelGrid.Proofs.Word
import Mathlib.Data.Set.Function
import Mathlib.Order.Interval.Set.Defs

/-!
# The order of cells

As long as a grid has no more cells than there are words, its cells are numbered without gaps,
plane by plane and in each plane line by line, and no step of the computation wraps around.
-/

namespace KernelGrid

namespace Extent

/-! ## Two digits -/

section

variable {a b c d n k i : Nat}

theorem add_mul_lt (ha : a < n) (hb : b < k) : a + n * b < n * k :=
  calc a + n * b < n + n * b := Nat.add_lt_add_right ha _
    _ = n * (b + 1) := by rw [Nat.mul_succ, Nat.add_comm]
    _ ≤ n * k := Nat.mul_le_mul_left n hb

/-- The higher digit decides, and the lower one where the higher ones are equal. -/
theorem add_mul_lt_iff (ha : a < n) (hc : c < n) :
    a + n * b < c + n * d ↔ b < d ∨ b = d ∧ a < c := by
  obtain hlt | rfl | hgt := Nat.lt_trichotomy b d
  · exact iff_of_true ((add_mul_lt ha hlt).trans_le (Nat.le_add_left _ _)) (.inl hlt)
  · simp
  · have hle := (add_mul_lt hc hgt).trans_le (Nat.le_add_left (n * b) a)
    exact iff_of_false hle.not_gt (by omega)

theorem add_mul_inj (ha : a < n) (hc : c < n) :
    a + n * b = c + n * d ↔ b = d ∧ a = c := by
  have hlt := add_mul_lt_iff (b := b) (d := d) ha hc
  have hgt := add_mul_lt_iff (b := d) (d := b) hc ha
  omega

theorem exists_add_mul (hi : i < n * k) : ∃ a < n, ∃ b < k, a + n * b = i :=
  ⟨i % n, Nat.mod_lt i (Nat.pos_of_mul_pos_right (Nat.zero_lt_of_lt hi)), i / n,
    Nat.div_lt_of_lt_mul hi, Nat.mod_add_div i n⟩

end

/-! ## Cells -/

variable {cell other extent : Extent}

def cells (extent : Extent) : Set Extent :=
  {cell | cell.x < extent.x ∧ cell.y < extent.y ∧ cell.z < extent.z}

def volume (extent : Extent) : Nat := extent.x.toNat * (extent.y.toNat * extent.z.toNat)

/-- Cells are ordered by z, then by y, then by x. -/
def Precedes (cell other : Extent) : Prop :=
  cell.z < other.z ∨ cell.z = other.z ∧ (cell.y < other.y ∨ cell.y = other.y ∧ cell.x < other.x)

/-- The number of the line of a cell, in unbounded arithmetic. -/
def line (cell extent : Extent) : Nat := cell.y.toNat + extent.y.toNat * cell.z.toNat

def rank (cell extent : Extent) : Nat := cell.x.toNat + extent.x.toNat * cell.line extent

theorem mem_cells : cell ∈ extent.cells ↔ cell.x.toNat < extent.x.toNat ∧
    cell.y.toNat < extent.y.toNat ∧ cell.z.toNat < extent.z.toNat := by
  simp only [cells, Set.mem_ofPred_eq, UInt32.lt_iff_toNat_lt]

theorem line_lt (hcell : cell ∈ extent.cells) :
    cell.line extent < extent.y.toNat * extent.z.toNat := by
  obtain ⟨-, hy, hz⟩ := mem_cells.1 hcell
  exact add_mul_lt hy hz

theorem rank_lt (hcell : cell ∈ extent.cells) : cell.rank extent < extent.volume :=
  add_mul_lt (mem_cells.1 hcell).1 (line_lt hcell)

theorem rank_lt_rank_iff (hcell : cell ∈ extent.cells) (hother : other ∈ extent.cells) :
    cell.rank extent < other.rank extent ↔ cell.Precedes other := by
  obtain ⟨hx, hy, -⟩ := mem_cells.1 hcell
  obtain ⟨hx', hy', -⟩ := mem_cells.1 hother
  rw [rank, rank, add_mul_lt_iff hx hx', line, line, add_mul_lt_iff hy hy', add_mul_inj hy hy']
  simp only [UInt32.toNat_inj, ← UInt32.lt_iff_toNat_lt, Precedes]
  tauto

theorem injOn_rank (extent : Extent) : Set.InjOn (rank · extent) extent.cells := by
  intro cell hcell other hother heq
  obtain ⟨hx, hy, -⟩ := mem_cells.1 hcell
  obtain ⟨hx', hy', -⟩ := mem_cells.1 hother
  obtain ⟨hline, heqx⟩ := (add_mul_inj hx hx').1 heq
  obtain ⟨heqz, heqy⟩ := (add_mul_inj hy hy').1 hline
  rw [UInt32.toNat_inj] at heqx heqy heqz
  cases cell
  cases other
  simp_all

theorem exists_rank_eq {i : Nat} (hi : i < extent.volume) :
    ∃ cell ∈ extent.cells, cell.rank extent = i := by
  obtain ⟨x, hx, line, hline, hi⟩ := exists_add_mul hi
  obtain ⟨y, hy, z, hz, rfl⟩ := exists_add_mul hline
  refine ⟨⟨x.toUInt32, y.toUInt32, z.toUInt32⟩, mem_cells.2 ?_, ?_⟩
  · rw [Word.toNat_toUInt32 hx, Word.toNat_toUInt32 hy, Word.toNat_toUInt32 hz]
    exact ⟨hx, hy, hz⟩
  · rw [rank, Extent.line, Word.toNat_toUInt32 hx, Word.toNat_toUInt32 hy,
      Word.toNat_toUInt32 hz]
    exact hi

/-! ## Words -/

theorem toNat_linearIndex_mod (cell extent : Extent) :
    (linearIndex cell extent).toNat = cell.rank extent % UInt32.size := by
  simp [linearIndex, rank, line, UInt32.toNat_add, UInt32.toNat_mul, UInt32.size]

theorem toNat_linearIndex (hextent : extent.volume ≤ UInt32.size) (hcell : cell ∈ extent.cells) :
    (linearIndex cell extent).toNat = cell.rank extent := by
  rw [toNat_linearIndex_mod, Nat.mod_eq_of_lt ((rank_lt hcell).trans_le hextent)]

/-- What the number of a cell is computed from does not wrap around either. -/
theorem steps_lt (hextent : extent.volume ≤ UInt32.size) (hcell : cell ∈ extent.cells) :
    extent.y.toNat * cell.z.toNat < UInt32.size ∧ cell.line extent < UInt32.size ∧
      extent.x.toNat * cell.line extent < UInt32.size := by
  have hrank := (rank_lt hcell).trans_le hextent
  have hx : 0 < extent.x.toNat := Nat.zero_lt_of_lt (mem_cells.1 hcell).1
  have hline : cell.line extent ≤ extent.x.toNat * cell.line extent :=
    Nat.le_mul_of_pos_left _ hx
  rw [rank] at hrank
  rw [line] at hrank hline ⊢
  omega

/-- The cells of a grid get the numbers from zero on, in order, each of them once, if there are
not more cells than words. -/
theorem numbers_cells (hextent : extent.volume ≤ UInt32.size) :
    (∀ cell ∈ extent.cells, (linearIndex cell extent).toNat =
        cell.x.toNat + extent.x.toNat * (cell.y.toNat + extent.y.toNat * cell.z.toNat) ∧
      extent.y.toNat * cell.z.toNat < UInt32.size ∧
      cell.y.toNat + extent.y.toNat * cell.z.toNat < UInt32.size ∧
      extent.x.toNat * (cell.y.toNat + extent.y.toNat * cell.z.toNat) < UInt32.size) ∧
    Set.BijOn (fun cell => (linearIndex cell extent).toNat) extent.cells
      (Set.Iio extent.volume) ∧
    ∀ cell ∈ extent.cells, ∀ other ∈ extent.cells,
      linearIndex cell extent < linearIndex other extent ↔ cell.Precedes other := by
  have hrank :
      Set.EqOn (rank · extent) (fun cell => (linearIndex cell extent).toNat) extent.cells :=
    fun cell hcell => (toNat_linearIndex hextent hcell).symm
  refine ⟨fun cell hcell => ⟨(hrank hcell).symm, steps_lt hextent hcell⟩, ?_, ?_⟩
  · refine Set.BijOn.congr ⟨fun cell hcell => ?_, injOn_rank extent, fun i hi => ?_⟩ hrank
    · exact rank_lt hcell
    · exact exists_rank_eq hi
  · intro cell hcell other hother
    rw [UInt32.lt_iff_toNat_lt, toNat_linearIndex hextent hcell,
      toNat_linearIndex hextent hother]
    exact rank_lt_rank_iff hcell hother

def largest : Extent := ⟨0x10000, 0x8000, 2⟩

/-- The last word is the number of its last cell, and a plane ends before the next one starts. -/
theorem numbers_cells_largest : largest.volume ≤ UInt32.size ∧ largest.volume = UInt32.size ∧
    (linearIndex ⟨0xffff, 0x7fff, 1⟩ largest).toNat =
      0xffff + 0x10000 * (0x7fff + 0x8000 * 1) ∧
    (∃ cell ∈ largest.cells, (linearIndex cell largest).toNat = 0xffffffff) ∧
    linearIndex ⟨0xffff, 0x7fff, 0⟩ largest < linearIndex ⟨0, 0, 1⟩ largest := by
  have hle : largest.volume ≤ UInt32.size := by decide
  obtain ⟨hexact, hbij, horder⟩ := numbers_cells hle
  have hlast : (⟨0xffff, 0x7fff, 1⟩ : Extent) ∈ largest.cells := mem_cells.2 (by decide)
  refine ⟨hle, rfl, (hexact _ hlast).1, hbij.surjOn (Set.mem_Iio.2 (by decide)), ?_⟩
  exact (horder ⟨0xffff, 0x7fff, 0⟩ (mem_cells.2 (by decide))
    ⟨0, 0, 1⟩ (mem_cells.2 (by decide))).2 (.inl (by decide))

end Extent

end KernelGrid
