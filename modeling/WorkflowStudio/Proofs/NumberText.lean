import WorkflowStudio.Decimal.Layout
import WorkflowStudio.Json.Reader
import WorkflowStudio.Proofs.DecimalDigits
import WorkflowStudio.Proofs.ShortestDecimal

/-!
Numbers that are written and read. Every layout writes a decimal in such a way that the
digits and the exponent that are read have the same value, and a number of the shortest
decimal reads back as it was. A whole number reads back unless it has too many digits.
-/
namespace WorkflowStudio

open Numeral

/-- Whether a text does not go on with a part of a number. -/
def EndsNumber (rest : List Char) : Prop :=
  ∀ c, rest.head? = some c → isPlainDigit c = false ∧ c ≠ '.' ∧ c ≠ 'e' ∧ c ≠ 'E'

namespace EndsNumber

variable {rest : List Char}

theorem endsDigits (h : EndsNumber rest) : EndsDigits rest := fun c hc => (h c hc).1

theorem readFraction (h : EndsNumber rest) : Json.readFraction rest = some ([], rest) := by
  unfold Json.readFraction
  split
  · exact absurd rfl (h '.' rfl).2.1
  · rfl

theorem readExponent (h : EndsNumber rest) : Json.readExponent rest = some (none, rest) := by
  cases rest with
  | nil => rfl
  | cons c rest =>
    obtain ⟨-, -, hsmall, hlarge⟩ := h c rfl
    unfold Json.readExponent
    exact if_neg (not_or.mpr ⟨hsmall, hlarge⟩)

end EndsNumber

namespace Json

variable {rest : List Char} {dialect : Dialect}

theorem readFraction_digits {digits : List Char} (hne : digits ≠ [])
    (hdigits : ∀ c ∈ digits, isPlainDigit c = true) (hrest : EndsDigits rest) :
    readFraction ('.' :: (digits ++ rest)) = some (digits, rest) := by
  rw [readFraction, span_digits hdigits hrest]
  exact if_neg (by simpa using hne)

/-- The exponent as the scientific form writes it. -/
def exponentText (width : ℕ) (power : ℤ) : List Char :=
  'e' :: (if power < 0 then '-' else '+') :: Decimal.padLeft width (wholeDigits power.natAbs)

theorem readExponent_exponentText (width : ℕ) (power : ℤ) (hrest : EndsDigits rest) :
    readExponent (exponentText width power ++ rest) = some (some power, rest) := by
  have hdigits : ∀ c ∈ Decimal.padLeft width (wholeDigits power.natAbs),
      isPlainDigit c = true := by
    intro c hc
    rcases List.mem_append.mp hc with hzero | hdigit
    · rw [List.eq_of_mem_replicate hzero]
      decide
    · exact isPlainDigit_of_mem_wholeDigits hdigit
  have hne : (Decimal.padLeft width (wholeDigits power.natAbs)).isEmpty = false := by
    rw [List.isEmpty_eq_false_iff]
    exact List.append_ne_nil_of_right_ne_nil _ (wholeDigits_ne_nil _)
  have hvalue : plainValue (Decimal.padLeft width (wholeDigits power.natAbs)) = power.natAbs := by
    rw [Decimal.padLeft, plainValue_zeros_append, plainValue_wholeDigits]
  have hspan := span_digits hdigits hrest
  unfold exponentText
  split
  · rename_i hneg
    rw [List.cons_append, List.cons_append, readExponent, if_pos (Or.inl rfl)]
    simp only [splitSign, hspan, hne, hvalue]
    rw [if_neg Bool.false_ne_true, signed, if_pos rfl, show -(power.natAbs : ℤ) = power by omega]
  · rename_i hpos
    rw [List.cons_append, List.cons_append, readExponent, if_pos (Or.inl rfl)]
    simp only [splitSign, hspan, hne, hvalue]
    rw [if_neg Bool.false_ne_true, signed, if_neg Bool.false_ne_true,
      show (power.natAbs : ℤ) = power by omega]

/-- Digits that may stand before the point of a number. -/
structure WholePart (digits : List Char) : Prop where
  plain : ∀ c ∈ digits, isPlainDigit c = true
  ne_nil : digits ≠ []
  head : digits.head? = some '0' → digits.length = 1
  short : digits.length < digitLimit

theorem readMagnitude_real (dialect : Dialect) (negative : Bool)
    {whole tail fraction next : List Char} {exponent : Option ℤ} (hwhole : WholePart whole)
    (htail : EndsDigits tail)
    (hfraction : readFraction tail = some (fraction, next))
    (hexponent : readExponent next = some (exponent, rest))
    (hreal : (fraction.isEmpty && exponent.isNone) = false) :
    readMagnitude dialect negative (whole ++ tail) =
      some (.num (Double.ofDecimal negative (plainValue (whole ++ fraction))
        (exponent.getD 0 - fraction.length)), rest) := by
  have hspan := span_digits hwhole.plain htail
  have hstart :
      (whole.isEmpty || (decide (whole.head? = some '0') && whole.length != 1)) = false := by
    rw [List.isEmpty_eq_false_iff.mpr hwhole.ne_nil, Bool.false_or, Bool.and_eq_false_iff]
    by_cases hhead : whole.head? = some '0'
    · exact Or.inr (by rw [hwhole.head hhead]; rfl)
    · exact Or.inl (decide_eq_false hhead)
  have hrefuses : dialect.refuses negative false whole = false := by
    have hshort := hwhole.short
    unfold Dialect.refuses isTooLong
    split
    · refine decide_eq_false ?_
      split <;> omega
    · rfl
  unfold readMagnitude
  simp only [hspan, ne_eq] at hstart ⊢
  rw [if_neg (by simpa using hstart), hfraction]
  dsimp only [Option.bind_some]
  rw [hexponent]
  dsimp only [Option.bind_some]
  rw [hreal, hrefuses]
  rfl

theorem wholePart_zero : WholePart ['0'] where
  plain := List.forall_mem_singleton.mpr rfl
  ne_nil := List.cons_ne_nil _ _
  head := fun _ => rfl
  short := by decide

theorem endsDigits_point (rest : List Char) : EndsDigits ('.' :: rest) := by
  intro c hc
  cases hc
  rfl

theorem endsDigits_exponentText (width : ℕ) (power : ℤ) (rest : List Char) :
    EndsDigits (exponentText width power ++ rest) := by
  intro c hc
  cases hc
  rfl

/-- The leading digit of a number is a whole part. -/
theorem wholePart_singleton {c : Char} (h : isPlainDigit c = true) : WholePart [c] where
  plain := by simpa using h
  ne_nil := List.cons_ne_nil _ _
  head := fun _ => rfl
  short := Nat.lt_of_lt_of_le Nat.one_lt_two (by decide)

/-- A number that is read from what was written for a decimal: digits and an exponent of the
same value. -/
def ReadsAs (d : Decimal) (negative : Bool) (text rest : List Char) (dialect : Dialect) : Prop :=
  ∃ n e, readMagnitude dialect negative (text ++ rest) =
      some (.num (Double.ofDecimal negative n e), rest) ∧
    Decimal.value ⟨n, e⟩ = d.value ∧ min d.exponent (-1) ≤ e

/-- The whole part is zero. -/
theorem readsAs_positional_low {d : Decimal} {point : ℤ} (hpoint : point ≤ 0)
    (hlead : point = d.exponent + (wholeDigits d.digits).length) (negative : Bool)
    (hrest : EndsNumber rest) :
    ReadsAs d negative (Decimal.positional (wholeDigits d.digits) point) rest dialect := by
  let fraction := List.replicate (-point).toNat '0' ++ wholeDigits d.digits
  have hplain : ∀ c ∈ fraction, isPlainDigit c = true := by
    intro c hc
    rcases List.mem_append.mp hc with hzero | hdigit
    · rw [List.eq_of_mem_replicate hzero]
      decide
    · exact isPlainDigit_of_mem_wholeDigits hdigit
  have hne : fraction ≠ [] := List.append_ne_nil_of_right_ne_nil _ (wholeDigits_ne_nil _)
  have hread := readMagnitude_real dialect negative wholePart_zero
    (endsDigits_point _) (readFraction_digits hne hplain hrest.endsDigits) hrest.readExponent
    (by simp [hne])
  have hvalue : plainValue (['0'] ++ fraction) = d.digits := by
    have hzero := plainValue_zeros_append 1 fraction
    rw [List.replicate_one] at hzero
    rw [hzero, plainValue_zeros_append, plainValue_wholeDigits]
  have hlength : (fraction.length : ℤ) = -point + (wholeDigits d.digits).length := by
    rw [List.length_append, List.length_replicate]
    omega
  rw [hvalue, hlength] at hread
  refine ⟨d.digits, 0 - (-point + (wholeDigits d.digits).length), ?_, ?_, ?_⟩
  · rw [Decimal.positional, if_pos hpoint]
    exact hread
  · rw [Decimal.value, Decimal.value]
    dsimp only
    congr 2
    omega
  · omega

theorem wholePart_digits {n k z : ℕ} (hk : 0 < k)
    (hone : n = 0 → min k (wholeDigits n).length + z = 1)
    (hshort : min k (wholeDigits n).length + z < digitLimit) :
    WholePart ((wholeDigits n).take k ++ List.replicate z '0') where
  plain := by
    intro c hc
    rcases List.mem_append.mp hc with hdigit | hzero
    · exact isPlainDigit_of_mem_wholeDigits (List.mem_of_mem_take hdigit)
    · rw [List.eq_of_mem_replicate hzero]
      decide
  ne_nil := by
    refine List.append_ne_nil_of_left_ne_nil ?_ _
    rw [Ne, List.take_eq_nil_iff, not_or]
    exact ⟨hk.ne', wholeDigits_ne_nil n⟩
  head := by
    intro hhead
    have hfirst := List.head?_eq_some_head (wholeDigits_ne_nil n)
    have hzeroDigits : n = 0 := by
      by_contra hpos
      rw [List.head?_append, List.head?_take, if_neg hk.ne', hfirst, Option.some_or] at hhead
      exact head?_wholeDigits (Nat.pos_of_ne_zero hpos) (hfirst.trans hhead)
    rw [List.length_append, List.length_take, List.length_replicate]
    exact hone hzeroDigits
  short := by
    rw [List.length_append, List.length_take, List.length_replicate]
    exact hshort

/-- The point stands among the digits. -/
theorem readsAs_positional_among {d : Decimal} {k : ℕ} (hk : 0 < k)
    (hlen : k < (wholeDigits d.digits).length)
    (hlead : (k : ℤ) = d.exponent + (wholeDigits d.digits).length) (hshort : k < digitLimit)
    (negative : Bool) (hrest : EndsNumber rest) :
    ReadsAs d negative (Decimal.positional (wholeDigits d.digits) k) rest dialect := by
  have hne : (wholeDigits d.digits).drop k ≠ [] := by
    rw [Ne, List.drop_eq_nil_iff, not_le]
    exact hlen
  have hplain : ∀ c ∈ (wholeDigits d.digits).drop k, isPlainDigit c = true :=
    fun c hc => isPlainDigit_of_mem_wholeDigits (List.mem_of_mem_drop hc)
  have htake : ((wholeDigits d.digits).take k).length = k := by
    rw [List.length_take]
    omega
  have hwhole : WholePart ((wholeDigits d.digits).take k) := by
    have hpart := wholePart_digits (n := d.digits) (k := k) (z := 0) hk
      (fun hd => by
        have hone : (wholeDigits d.digits).length = 1 := by rw [hd]; rfl
        omega)
      (by omega)
    rwa [List.replicate_zero, List.append_nil] at hpart
  have hread := readMagnitude_real dialect negative hwhole
    (endsDigits_point _) (readFraction_digits hne hplain hrest.endsDigits) hrest.readExponent
    (by simp [hne])
  rw [List.take_append_drop, plainValue_wholeDigits, List.length_drop] at hread
  refine ⟨d.digits, 0 - ((wholeDigits d.digits).length - k : ℕ), ?_, ?_, ?_⟩
  · unfold Decimal.positional
    rw [if_neg (by omega)]
    simp only [Int.toNat_natCast]
    rw [htake, Nat.sub_self, List.replicate_zero, List.append_nil,
      if_neg (by simpa using hne), List.append_assoc]
    exact hread
  · rw [Decimal.value, Decimal.value]
    dsimp only
    congr 2
    omega
  · omega

/-- The point stands behind the digits, after zeros that fill up to it. -/
theorem readsAs_positional_behind {d : Decimal} {k : ℕ}
    (hlen : (wholeDigits d.digits).length ≤ k)
    (hlead : (k : ℤ) = d.exponent + (wholeDigits d.digits).length) (hshort : k < digitLimit)
    (hzero : d.digits = 0 → d.exponent = 0) (negative : Bool) (hrest : EndsNumber rest) :
    ReadsAs d negative (Decimal.positional (wholeDigits d.digits) k) rest dialect := by
  have hpos := List.length_pos_iff.mpr (wholeDigits_ne_nil d.digits)
  have htake : (wholeDigits d.digits).take k = wholeDigits d.digits := List.take_of_length_le hlen
  have hdrop : (wholeDigits d.digits).drop k = [] := List.drop_eq_nil_iff.mpr hlen
  have hwhole := wholePart_digits (n := d.digits) (k := k)
    (z := k - (wholeDigits d.digits).length) (by omega)
    (fun hd => by
      have hone : (wholeDigits d.digits).length = 1 := by rw [hd]; rfl
      have hexp := hzero hd
      omega)
    (by omega)
  rw [htake] at hwhole
  have hpoint : ∀ c ∈ ['0'], isPlainDigit c = true :=
      List.forall_mem_singleton.mpr rfl
  have hread := readMagnitude_real dialect negative hwhole
    (endsDigits_point _) (readFraction_digits (List.cons_ne_nil '0' []) hpoint hrest.endsDigits)
    hrest.readExponent rfl
  have hvalue : plainValue (wholeDigits d.digits ++
      List.replicate (k - (wholeDigits d.digits).length) '0' ++ ['0']) =
        d.digits * 10 ^ (k - (wholeDigits d.digits).length + 1) := by
    rw [List.append_assoc, ← List.replicate_succ', plainValue_append_zeros, plainValue_wholeDigits]
  rw [hvalue] at hread
  refine ⟨d.digits * 10 ^ (k - (wholeDigits d.digits).length + 1), -1, ?_, ?_, min_le_right _ _⟩
  · unfold Decimal.positional
    rw [if_neg (by omega)]
    simp only [Int.toNat_natCast]
    rw [htake, hdrop, List.isEmpty_nil, if_pos rfl, List.append_assoc]
    exact hread
  · rw [Decimal.value, Decimal.value]
    dsimp only
    have hexp : d.exponent = (k - (wholeDigits d.digits).length + 1 : ℕ) + (-1) := by omega
    rw [hexp, zpow_add₀ (by norm_num), zpow_natCast]
    push_cast
    ring

/-- One digit stands before the point, and an exponent behind the others. -/
theorem readsAs_scientific {d : Decimal} {lead : ℤ}
    (hlead : lead = d.exponent + (wholeDigits d.digits).length - 1) (width : ℕ) (negative : Bool)
    (hrest : EndsNumber rest) :
    ReadsAs d negative (Decimal.scientific width (wholeDigits d.digits) lead) rest dialect := by
  obtain ⟨c, fraction, hdigits⟩ := List.exists_cons_of_ne_nil (wholeDigits_ne_nil d.digits)
  have hplain : ∀ a ∈ c :: fraction, isPlainDigit a = true := by
    intro a ha
    rw [← hdigits] at ha
    exact isPlainDigit_of_mem_wholeDigits ha
  have hvalue : plainValue (c :: fraction) = d.digits := by rw [← hdigits, plainValue_wholeDigits]
  have hlength : (wholeDigits d.digits).length = fraction.length + 1 := by rw [hdigits]; rfl
  have hexponent := readExponent_exponentText width lead hrest.endsDigits
  have hwhole := wholePart_singleton (hplain c List.mem_cons_self)
  have hread : ∃ tail, Decimal.scientific width (c :: fraction) lead = [c] ++ tail ∧
      EndsDigits (tail ++ rest) ∧
        readFraction (tail ++ rest) = some (fraction, exponentText width lead ++ rest) := by
    unfold Decimal.scientific
    cases fraction with
    | nil =>
      refine ⟨exponentText width lead, rfl, endsDigits_exponentText width lead rest, ?_⟩
      rfl
    | cons b fraction =>
      refine ⟨'.' :: (b :: fraction ++ exponentText width lead), rfl, endsDigits_point _, ?_⟩
      rw [List.cons_append, List.append_assoc]
      exact readFraction_digits (List.cons_ne_nil _ _)
        (fun a ha => hplain a (List.mem_cons_of_mem _ ha)) (endsDigits_exponentText width lead rest)
  obtain ⟨tail, htext, hends, hfraction⟩ := hread
  have hread := readMagnitude_real dialect negative hwhole hends
    hfraction hexponent (by simp)
  rw [List.singleton_append, List.singleton_append, hvalue] at hread
  refine ⟨d.digits, lead - fraction.length, ?_, ?_, by omega⟩
  · rw [hdigits, htext]
    exact hread
  · rw [Decimal.value, Decimal.value]
    dsimp only
    congr 2
    omega

theorem magnitudeText_eq (layout : Decimal.Layout) (d : Decimal) :
    Decimal.magnitudeText layout d =
      let lead := d.exponent + (wholeDigits d.digits).length - 1
      if layout.leastPositional ≤ lead ∧ lead < layout.firstScientific then
        Decimal.positional (wholeDigits d.digits) (lead + 1)
      else Decimal.scientific layout.exponentWidth (wholeDigits d.digits) lead := rfl

/-- Every layout writes a decimal so that digits and an exponent of its value are read. -/
theorem readsAs_magnitudeText (dialect : Dialect) {layout : Decimal.Layout}
    (hlayout : layout.firstScientific < digitLimit) {d : Decimal}
    (hzero : d.digits = 0 → d.exponent = 0) (negative : Bool) (hrest : EndsNumber rest) :
    ReadsAs d negative (Decimal.magnitudeText layout d) rest dialect := by
  rw [magnitudeText_eq]
  dsimp only
  split
  · rename_i hlead
    by_cases hlow : d.exponent + (wholeDigits d.digits).length ≤ 0
    · exact readsAs_positional_low (by omega) (by omega) negative hrest
    · obtain ⟨k, hk⟩ := Int.eq_ofNat_of_zero_le (not_le.mp hlow).le
      have hpoint : d.exponent + (wholeDigits d.digits).length - 1 + 1 = k := by omega
      rw [hpoint]
      have hshort : k < digitLimit := by omega
      rcases Nat.lt_or_ge k (wholeDigits d.digits).length with hamong | hbehind
      · exact readsAs_positional_among (by omega) hamong hk.symm hshort negative hrest
      · exact readsAs_positional_behind hbehind hk.symm hshort hzero negative hrest
  · exact readsAs_scientific rfl _ negative hrest

/-- The magnitude of a finite number reads back as the number. -/
theorem readMagnitude_magnitudeText {layout : Decimal.Layout}
    (hlayout : layout.firstScientific < digitLimit) {x : Double} (hfinite : x.isFinite = true)
    (hrest : EndsNumber rest) :
    readMagnitude dialect x.isNegative
        (Decimal.magnitudeText layout (Decimal.shortest x) ++ rest) = some (.num x, rest) := by
  cases hzero : x.isZero with
  | true =>
    have hmagnitude : x.magnitude = 0 := of_decide_eq_true hzero
    have hdecimal : Decimal.shortest x = ⟨0, 0⟩ := by rw [Decimal.shortest, if_pos hzero]
    rw [hdecimal]
    obtain ⟨n, e, hread, hvalue, -⟩ := readsAs_magnitudeText dialect hlayout
      (d := ⟨0, 0⟩) (fun _ => rfl) x.isNegative hrest
    have hn : n = 0 := by
      rw [Decimal.value, Decimal.value, Nat.cast_zero, zero_mul] at hvalue
      have hpow : (10 : ℚ) ^ e ≠ 0 := by positivity
      exact_mod_cast (mul_eq_zero.mp hvalue).resolve_right hpow
    have hx : Double.ofDecimal x.isNegative 0 e = x := by
      have hself := Double.ofSigned_magnitude x
      rw [hmagnitude] at hself
      exact hself
    rw [hread, hn, hx]
  | false =>
    obtain ⟨hattracts, hexponent⟩ := Decimal.shortest_attracts hzero hfinite
    have hdigits : (Decimal.shortest x).digits = 0 → (Decimal.shortest x).exponent = 0 := by
      intro hd
      have hpos := (hattracts.lead_bounds hzero hfinite (by omega)).1
      omega
    obtain ⟨n, e, hread, hvalue, he⟩ := readsAs_magnitudeText dialect hlayout hdigits
      x.isNegative hrest
    rw [← hvalue] at hattracts
    rw [hread, Double.ofDecimal_eq hzero hfinite (show -1000 ≤ e by omega) hattracts,
      Double.ofSigned_magnitude]

end Json
end WorkflowStudio
