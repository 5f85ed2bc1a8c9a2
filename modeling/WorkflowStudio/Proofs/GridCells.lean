import Mathlib.Algebra.Order.Ring.Nat
import WorkflowStudio.Grid

/-!
Cells of a grid have positions. A grid of whole measures lays out every number of nodes whose
farthest cell is still within the doubles, and so the standard grid lays out any list that
can be held in memory.
-/
namespace WorkflowStudio

namespace Double

theorem roundQuotient_le (num den : Nat) : roundQuotient num den ≤ num / den + 1 := by
  unfold roundQuotient
  dsimp only
  split <;> omega

theorem toNat_ofSigned_false {m : Nat} (h : m < 2 ^ 63) : (ofSigned false m).bits.toNat = m := by
  rw [ofSigned, if_neg Bool.false_ne_true, Nat.add_zero, UInt64.toNat_ofNat']
  omega

theorem magnitude_ofSigned {m : Nat} (h : m < 2 ^ 63) (negative : Bool) :
    (ofSigned negative m).magnitude = m := by
  cases negative with
  | false =>
    rw [magnitude, toNat_ofSigned_false h, signWeight]
    omega
  | true =>
    rw [magnitude, ofSigned, if_pos rfl, UInt64.toNat_ofNat', signWeight]
    omega

theorem leadingExponent_one {n : Nat} (h : n ≠ 0) : leadingExponent n 1 = n.log2 := by
  have hone : Nat.log2 1 = 0 := by decide
  have hguess : ((n.log2 : Int) - (Nat.log2 1 : Nat)) = n.log2 := by omega
  have hle := Nat.log2_self_le h
  unfold leadingExponent
  dsimp only
  rw [hguess, if_pos]
  simpa using hle

/-- The bits of a whole number that is not too large stay below those of infinity. -/
theorem ofInt_eq_ofSigned {n : Int} (h : n.natAbs < 2 ^ 1023) :
    ∃ m < infinityBits, ofInt n = ofSigned (n < 0) m := by
  by_cases hzero : n.natAbs = 0
  · exact ⟨0, by decide, if_pos (Or.inl hzero)⟩
  · have hlead : n.natAbs.log2 < 1023 := (Nat.log2_lt hzero).mpr h
    have hlarge : n.natAbs < 2 ^ (n.natAbs.log2 + 1) := Nat.lt_log2_self
    have hstep : max (leadingExponent n.natAbs 1 - 52) (-1074) = (n.natAbs.log2 : Int) - 52 := by
      rw [leadingExponent_one hzero]
      omega
    generalize n.natAbs.log2 = lead at hlead hlarge hstep
    let step : Int := (lead : Int) - 52
    have hquotient : n.natAbs * 2 ^ (-step).toNat / (1 * 2 ^ step.toNat) < 2 ^ 53 := by
      refine Nat.div_lt_of_lt_mul ?_
      calc n.natAbs * 2 ^ (-step).toNat
          < 2 ^ (lead + 1) * 2 ^ (-step).toNat :=
            Nat.mul_lt_mul_of_pos_right hlarge (Nat.two_pow_pos _)
        _ = 1 * 2 ^ step.toNat * 2 ^ 53 := by
          rw [Nat.one_mul, ← Nat.pow_add, ← Nat.pow_add]
          congr 1
          omega
    have hrounded := roundQuotient_le (n.natAbs * 2 ^ (-step).toNat) (1 * 2 ^ step.toNat)
    unfold ofInt ofRatio
    rw [if_neg (by omega)]
    dsimp only
    rw [hstep]
    refine ⟨_, ?_, rfl⟩
    refine (Nat.min_le_left _ _).trans_lt ?_
    change (step + 1074).toNat * 2 ^ 52 + roundQuotient (n.natAbs * 2 ^ (-step).toNat)
      (1 * 2 ^ step.toNat) < 0x7ff0000000000000
    omega

theorem isFinite_ofInt {n : Int} (h : n.natAbs < 2 ^ 1023) : (ofInt n).isFinite = true := by
  obtain ⟨m, hm, heq⟩ := ofInt_eq_ofSigned h
  have hlt : m < 2 ^ 63 := hm.trans (by decide)
  rw [heq, isFinite, magnitude_ofSigned hlt]
  exact decide_eq_true hm

theorem isNegative_ofInt {n : Int} (h : n.natAbs < 2 ^ 1023) (hn : 0 ≤ n) :
    (ofInt n).isNegative = false := by
  obtain ⟨m, hm, heq⟩ := ofInt_eq_ofSigned h
  have hlt : m < 2 ^ 63 := hm.trans (by decide)
  have hsign : decide (n < 0) = false := decide_eq_false (by omega)
  rw [heq, hsign, isNegative, toNat_ofSigned_false hlt]
  exact decide_eq_false (by unfold signWeight; omega)

theorem isNaN_of_isFinite {x : Double} (h : x.isFinite = true) : x.isNaN = false := by
  have hlt : x.magnitude < infinityBits := of_decide_eq_true h
  exact decide_eq_false (by omega)

end Double

namespace Grid

/-- Every one of a number of nodes gets a position. -/
def LaysOut (grid : Grid) (total : Nat) : Prop :=
  ∀ index < total, ∃ position, grid.cell (.int index) (.int total) = .ok position

theorem columns_int {total : Nat} (h : total < 2 ^ 1023) :
    ∃ width : Int, 0 < width ∧ columns (.int total) = .ok width := by
  have hfinite := Double.isFinite_ofInt (n := total) h
  have hnegative := Double.isNegative_ofInt (n := total) h (Int.natCast_nonneg total)
  refine ⟨max 1 (Double.ofInt total).sqrt.ceil, by omega, ?_⟩
  have hamount : Amount.asDouble (.whole total) = .ok (Double.ofInt total) := if_pos hfinite
  have hcolumns : columns (.int total) = (do
      let x ← Amount.asDouble (.whole total)
      if x.isNaN then .error (.notFiniteWhole true)
      else if x.isNegative && !x.isZero then .error .squareRootOfNegative
      else if !x.isFinite then .error (.notFiniteWhole false)
      else return max 1 x.sqrt.ceil) := rfl
  rw [hcolumns, hamount]
  change (if (Double.ofInt total).isNaN = true then _ else _) = _
  rw [Double.isNaN_of_isFinite hfinite, hnegative, hfinite]
  rfl

theorem position_of_ints {x y : Int} (hx : x.natAbs < 2 ^ 1023) (hy : y.natAbs < 2 ^ 1023) :
    Position.of (.int x) (.int y) = .ok (Position.ofInts x y) := by
  have hreal {n : Int} (h : n.natAbs < 2 ^ 1023) :
      Json.asReal .value (.int n) = .ok (Double.ofInt n) := by
    unfold Json.asReal Json.realOfWhole
    dsimp only
    rw [Double.isFinite_ofInt h]
    rfl
  have hread : Position.read .value (.obj [("x", .int x), ("y", .int y)]) =
      Position.mk <$> (Json.asReal .value (.int x)).inside (.field "x")
        <*> (Json.asReal .value (.int y)).inside (.field "y") := rfl
  unfold Position.of
  rw [hread, hreal hx, hreal hy]
  rfl

theorem cell_of_columns (grid : Grid) (index : Int) {total width : Int}
    (h : columns (.int total) = .ok width) : grid.cell (.int index) (.int total) = (do
      let x ← grid.along grid.column (.int (index.fmod width))
      let y ← grid.along grid.row (.int (index.fdiv width))
      Position.of x y) := by
  unfold cell
  rw [h]
  rfl

/-- The row and the column of a cell are not beyond the number of nodes. -/
theorem exists_cell (grid : Grid) {index total : Nat} (htotal : total < 2 ^ 1023)
    (hindex : index < total) : ∃ row column : Int, (0 ≤ row ∧ row ≤ total) ∧
      (0 ≤ column ∧ column ≤ total) ∧ grid.cell (.int index) (.int total) = (do
        let x ← grid.along grid.column (.int column)
        let y ← grid.along grid.row (.int row)
        Position.of x y) := by
  obtain ⟨width, hwidth, hcolumns⟩ := columns_int htotal
  refine ⟨(index : Int).fdiv width, (index : Int).fmod width, ?_, ?_,
    cell_of_columns grid index hcolumns⟩
  · rw [Int.fdiv_eq_ediv_of_nonneg _ (Int.le_of_lt hwidth)]
    have hle := Int.ediv_le_self width (Int.natCast_nonneg index)
    exact ⟨Int.ediv_nonneg (Int.natCast_nonneg index) (Int.le_of_lt hwidth), by omega⟩
  · obtain ⟨width, rfl⟩ := Int.eq_ofNat_of_zero_le (Int.le_of_lt hwidth)
    rw [Int.fmod_eq_emod_of_nonneg _ (Int.natCast_nonneg width), ← Int.natCast_emod]
    have hle := Nat.mod_le index width
    exact ⟨Int.natCast_nonneg _, by omega⟩

/-- The distance of the farthest cell bounds that of every other one. -/
theorem natAbs_along_le {origin step count : Int} {total : Nat} (hcount : 0 ≤ count)
    (hle : count ≤ total) :
    (origin + count * step).natAbs ≤ origin.natAbs + total * step.natAbs := by
  refine (Int.natAbs_add_le _ _).trans (Nat.add_le_add_left ?_ _)
  rw [Int.natAbs_mul]
  exact Nat.mul_le_mul_right _ (by omega)

/-- A grid of whole measures lays out as many nodes as its doubles reach. -/
theorem laysOut_of_bounded {origin column row : Int} {total : Nat} (htotal : total < 2 ^ 1023)
    (hcolumn : origin.natAbs + total * column.natAbs < 2 ^ 1023)
    (hrow : origin.natAbs + total * row.natAbs < 2 ^ 1023) :
    (Grid.mk (.int origin) (.int column) (.int row)).LaysOut total := by
  intro index hindex
  obtain ⟨down, across, hdown, hacross, hcell⟩ := exists_cell _ htotal hindex
  refine ⟨Position.ofInts (origin + across * column) (origin + down * row), ?_⟩
  rw [hcell]
  exact position_of_ints ((natAbs_along_le hacross.1 hacross.2).trans_lt hcolumn)
    ((natAbs_along_le hdown.1 hdown.2).trans_lt hrow)

theorem along_real {grid : Grid} {origin : Double} (horigin : grid.origin = .num origin)
    (step : Double) {count : Int} {total : Nat} (htotal : total < 2 ^ 1023)
    (hcount : 0 ≤ count ∧ count ≤ total) :
    grid.along (.num step) (.int count) =
      .ok (.num (origin.add ((Double.ofInt count).mul step))) := by
  have hfinite : (Double.ofInt count).isFinite = true := Double.isFinite_ofInt (by omega)
  have hreal : Amount.asDouble (.whole count) = .ok (Double.ofInt count) := if_pos hfinite
  have htimes : Json.times (.int count) (.num step) = (do
      return .num (Double.mul (← Amount.asDouble (.whole count)) step)) := rfl
  rw [along, htimes, hreal, horigin]
  rfl

/-- A whole distance beyond the doubles cannot be added to a real origin. -/
theorem along_of_not_finite {grid : Grid} {origin : Double} (horigin : grid.origin = .num origin)
    {step count : Int} (hfar : (Double.ofInt (count * step)).isFinite = false) :
    grid.along (.int step) (.int count) = .error .wholeTooLargeForReal := by
  have hreal : Amount.asDouble (.whole (count * step)) = .error .wholeTooLargeForReal :=
    if_neg (by rw [hfar]; exact Bool.false_ne_true)
  have hplus : Json.plus (.num origin) (.int (count * step)) = (do
      return .num (Double.add origin (← Amount.asDouble (.whole (count * step))))) := rfl
  rw [along, Json.times_int, horigin]
  change Json.plus (.num origin) (.int (count * step)) = _
  rw [hplus, hreal]
  rfl

/-- A grid of real measures lays out every number of nodes that a double reaches, in cells that
need not be finite. -/
theorem laysOut_of_reals (origin column row : Double) {total : Nat} (htotal : total < 2 ^ 1023) :
    (Grid.mk (.num origin) (.num column) (.num row)).LaysOut total := by
  intro index hindex
  obtain ⟨down, across, hdown, hacross, hcell⟩ :=
    exists_cell ⟨.num origin, .num column, .num row⟩ htotal hindex
  rw [hcell, along_real rfl column htotal hacross, along_real rfl row htotal hdown]
  exact ⟨_, rfl⟩

/-- The standard grid lays out any list that can be held in memory. -/
theorem standard_laysOut {total : Nat} (h : total < 2 ^ 64) : standard.LaysOut total := by
  have hfar {n : Nat} (hn : n < 2 ^ 80) : n < 2 ^ 1023 := by
    refine Nat.lt_of_lt_of_le hn ?_
    apply Nat.pow_le_pow_right
    · decide
    · decide
  refine laysOut_of_bounded (hfar ?_) (hfar ?_) (hfar ?_)
  · omega
  · change 50 + total * 250 < 2 ^ 80
    omega
  · change 50 + total * 150 < 2 ^ 80
    omega

end Grid
end WorkflowStudio
