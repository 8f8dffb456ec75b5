import Mathlib
import Assessment.Shape.Basic

/-
  The angle test for polygons in exact arithmetic, and how
  often edges wind round a point.

  The real numbers measure lengths and angles exactly. Over
  them the signed angle of an edge is the argument of a
  quotient of complex numbers, with its branch: an edge seen
  from a point on it has half a turn, and one seen from a
  point in line with it has none.

  Seen from a point off all edges, the angles of edges that
  lead round a cycle add up to whole turns, and nearby points
  see as many of them. So their number changes only where an
  edge is crossed, by one. From a point on an edge half a turn
  is added, as from the points on the left of the edge.

  Main declarations:
    * the instance `Measure ℝ`
    * `Polygon.steps`, the edges between successive vertices
    * `Polygon.turning`, the sum of the angles of edges
    * `Polygon.signedAngle_eq` and `Polygon.angleSum_eq`
    * `Polygon.boundary` and `Polygon.IsCycle`
    * `Polygon.exists_turns`, whole turns
    * `Polygon.turning_constant`, on connected sets
    * `Polygon.turning_far`, none from far away
    * `Polygon.tendsto_turning_left` and
      `Polygon.tendsto_turning_right`, beside an edge
-/

------------------------------------------------------------
-- Exact Arithmetic
------------------------------------------------------------

namespace Assessment

/- Real numbers measure exactly. -/
noncomputable instance : Measure ℝ where
  ofInt n := n
  hypot x y := √(x * x + y * y)
  arccos x := Real.arccos x * (180 / Real.pi)
  isLe x y := Classical.propDecidable (x ≤ y) |>.decide

namespace Polygon

open Complex

/- A point as a complex number. -/
def Point.complex (p : Point ℝ) : ℂ :=
  ⟨p.x, p.y⟩

theorem isLe_iff {x y : ℝ} :
    Measure.isLe x y = true ↔ x ≤ y := by
  simp [Measure.isLe]

theorem same_iff {x y : ℝ} : same x y = true ↔ x = y := by
  unfold same
  rw [Bool.and_eq_true, isLe_iff, isLe_iff]
  exact le_antisymm_iff.symm

theorem Point.same_iff {p q : Point ℝ} :
    p.same q = true ↔ p = q := by
  unfold Point.same
  rw [Bool.and_eq_true, Polygon.same_iff, Polygon.same_iff]
  cases p
  cases q
  simp

/- The length between two points. -/
theorem hypot_sub (p q : Point ℝ) :
    Measure.hypot (p.x - q.x) (p.y - q.y) =
      ‖p.complex - q.complex‖ := by
  rw [Complex.norm_def]
  rfl

theorem clampCosine_eq
    {c : ℝ}
    (hLow : -1 ≤ c)
    (hHigh : c ≤ 1) :
    clampCosine c = c := by
  unfold clampCosine
  dsimp only
  split_ifs with hAbove hBelow
  · have hOne : (1 : ℝ) ≤ c := by
      simpa [Measure.ofInt] using isLe_iff.mp hAbove
    simpa [Measure.ofInt] using le_antisymm hOne hHigh
  · have hMinus : c ≤ -1 := by
      simpa [Measure.ofInt] using isLe_iff.mp hBelow
    simpa [Measure.ofInt] using le_antisymm hLow hMinus
  · rfl

/- The law of cosines, for the edge between two vectors. -/
theorem cosine_eq {u v : ℂ} (hU : u ≠ 0) (hV : v ≠ 0) :
    (‖v‖ * ‖v‖ - ‖v - u‖ * ‖v - u‖ + ‖u‖ * ‖u‖) /
        (2 * ‖v‖ * ‖u‖) =
      (v / u).re / ‖v / u‖ := by
  obtain ⟨x, rfl⟩ : ∃ x, v = x * u :=
    ⟨v / u, (div_mul_cancel₀ v hU).symm⟩
  have hX : ‖x‖ ≠ 0 := norm_ne_zero_iff.mpr (left_ne_zero_of_mul hV)
  have hNorm : ‖u‖ ≠ 0 := norm_ne_zero_iff.mpr hU
  have hDiff : x * u - u = (x - 1) * u := by ring
  have hSquare :
      ‖x - 1‖ * ‖x - 1‖ = ‖x‖ * ‖x‖ - 2 * x.re + 1 := by
    simp only [Complex.norm_mul_self_eq_normSq,
      Complex.normSq_apply, Complex.sub_re, Complex.sub_im,
      Complex.one_re, Complex.one_im]
    ring
  rw [mul_div_cancel_right₀ x hU, hDiff, norm_mul, norm_mul,
    mul_mul_mul_comm ‖x - 1‖, hSquare]
  field_simp
  ring

/- The cosine of an argument. -/
theorem abs_re_div_norm_le (x : ℂ) :
    -1 ≤ x.re / ‖x‖ ∧ x.re / ‖x‖ ≤ 1 := by
  rw [← abs_le, abs_div, abs_norm]
  exact div_le_one_of_le₀ (Complex.abs_re_le_norm x)
    (norm_nonneg x)

variable {p start stop : Point ℝ}

/- The edge from one point to another, seen from a third. -/
noncomputable def sight (p start stop : ℂ) : ℂ :=
  (stop - p) / (start - p)

theorem Point.complex_sub_ne (hOther : start ≠ p) :
    start.complex - p.complex ≠ 0 := by
  rw [sub_ne_zero]
  intro hSame
  apply hOther
  cases start
  cases p
  simpa [Point.complex] using hSame

/- The angle of an edge is that of its sight. -/
theorem angle_eq (hStart : start ≠ p) (hStop : stop ≠ p) :
    angle p start stop =
      Real.arccos
          ((sight p.complex start.complex stop.complex).re /
            ‖sight p.complex start.complex stop.complex‖) *
        (180 / Real.pi) := by
  have hEdge :
      stop.complex - start.complex =
        (stop.complex - p.complex) -
          (start.complex - p.complex) := by
    ring
  have hCosine := cosine_eq (Point.complex_sub_ne hStart)
    (Point.complex_sub_ne hStop)
  have hRange := abs_re_div_norm_le
    (sight p.complex start.complex stop.complex)
  unfold angle
  simp only [hypot_sub]
  rw [norm_sub_rev p.complex, hEdge]
  change Measure.arccos
    (clampCosine
      ((‖_‖ * ‖_‖ - ‖_‖ * ‖_‖ + ‖_‖ * ‖_‖) /
        (((2 : ℤ) : ℝ) * ‖_‖ * ‖_‖))) = _
  rw [Int.cast_ofNat, hCosine]
  rw [clampCosine_eq]
  · rfl
  · exact hRange.1
  · exact hRange.2

/- The branch of the test is that of the argument. -/
theorem signedAngle_eq (hStart : start ≠ p) (hStop : stop ≠ p) :
    signedAngle p start stop =
      arg (sight p.complex start.complex stop.complex) *
        (180 / Real.pi) := by
  have hU := Point.complex_sub_ne hStart
  have hV := Point.complex_sub_ne hStop
  have hTurn :
      Measure.isLe (Measure.ofInt 0)
          ((stop.x - p.x) * (p.y - start.y) -
            (stop.y - p.y) * (p.x - start.x)) = true ↔
        0 ≤ (sight p.complex start.complex stop.complex).im := by
    rw [isLe_iff, sight, Complex.div_im, ← sub_div,
      le_div_iff₀ (Complex.normSq_pos.mpr hU), zero_mul]
    simp only [Point.complex, Complex.sub_re, Complex.sub_im]
    change ((0 : ℤ) : ℝ) ≤ _ - _ ↔ _
    rw [Int.cast_zero]
    constructor <;> intro hLe <;> linarith
  unfold signedAngle
  simp only [hTurn, angle_eq hStart hStop]
  split_ifs with hLeft
  · rw [Complex.arg_of_im_nonneg_of_ne_zero hLeft
      (div_ne_zero hV hU)]
  · rw [Complex.arg_of_im_neg (not_le.mp hLeft)]
    exact (neg_mul _ _).symm

------------------------------------------------------------
-- Sums of Angles
------------------------------------------------------------

/- The edges between successive vertices. -/
def steps {α : Type} : List α → List (α × α)
  | v :: w :: rest => (v, w) :: steps (w :: rest)
  | _ => []

/- The sum of the angles under which edges are seen. -/
noncomputable def turning (z : ℂ) (es : List (ℂ × ℂ)) : ℝ :=
  (es.map fun e => arg (sight z e.1 e.2)).sum

theorem same_or_same_iff {v w : Point ℝ} :
    (v.same p || w.same p) = true ↔ v = p ∨ w = p := by
  rw [Bool.or_eq_true, Point.same_iff, Point.same_iff]

/- From one of the vertices nothing is measured. -/
theorem angleSum_of_mem
    {v w : Point ℝ}
    {rest : List (Point ℝ)}
    (hMem : p ∈ v :: w :: rest)
    (sum : ℝ) :
    angleSum p sum (v :: w :: rest) = none := by
  induction rest generalizing v w sum with
  | nil =>
      have hEnds : v = p ∨ w = p := by
        simpa [eq_comm] using hMem
      rw [angleSum, if_pos (same_or_same_iff.mpr hEnds)]
  | cons x rest ih =>
      rw [angleSum]
      split_ifs with hEnds
      · rfl
      · apply ih
        rw [same_or_same_iff, not_or] at hEnds
        exact (List.mem_cons.mp hMem).resolve_left
          fun hSame => hEnds.1 hSame.symm

/- From other points the angles of all edges are added. -/
theorem angleSum_of_notMem
    {vs : List (Point ℝ)}
    (hOther : p ∉ vs)
    (sum : ℝ) :
    angleSum p sum vs =
      some (sum +
        turning p.complex (steps (vs.map Point.complex)) *
          (180 / Real.pi)) := by
  induction vs generalizing sum with
  | nil => simp [angleSum, steps, turning]
  | cons v rest ih =>
      rw [List.mem_cons, not_or] at hOther
      cases rest with
      | nil => simp [angleSum, steps, turning]
      | cons w rest =>
          have hFirst : v ≠ p := Ne.symm hOther.1
          have hSecond : w ≠ p := by
            rintro rfl
            exact hOther.2 List.mem_cons_self
          rw [angleSum, if_neg, ih hOther.2,
            signedAngle_eq hFirst hSecond]
          · congr 1
            simp only [steps, turning, List.map_cons,
              List.sum_cons]
            change (sum + _) + _ = _
            ring
          · rw [same_or_same_iff]
            exact not_or.mpr ⟨hFirst, hSecond⟩

end Polygon

------------------------------------------------------------
-- Edges
------------------------------------------------------------

namespace Polygon

open Complex Filter Topology
open scoped Real

/- The points on edges. -/
def boundary (es : List (ℂ × ℂ)) : Set ℂ :=
  {z | ∃ e ∈ es, z ∈ segment ℝ e.1 e.2}

/- Edges lead to each point as often as away from it. -/
def IsCycle (es : List (ℂ × ℂ)) : Prop :=
  (es.map Prod.fst).Perm (es.map Prod.snd)

variable {es fs : List (ℂ × ℂ)}
variable {z a b : ℂ}

theorem boundary_mono (hSubset : es ⊆ fs) :
    boundary es ⊆ boundary fs := by
  rintro z ⟨e, hMem, hOn⟩
  exact ⟨e, hSubset hMem, hOn⟩

theorem isCompact_boundary (es : List (ℂ × ℂ)) :
    IsCompact (boundary es) := by
  have hUnion :
      boundary es = ⋃ e ∈ es.toFinset, segment ℝ e.1 e.2 := by
    ext z
    simp [boundary]
  rw [hUnion]
  apply es.toFinset.isCompact_biUnion
  intro e _
  have hHull := convexHull_pair (𝕜 := ℝ) e.1 e.2
  rw [← hHull]
  exact (Set.toFinite _).isCompact_convexHull ℝ

theorem isOpen_compl_boundary (es : List (ℂ × ℂ)) :
    IsOpen (boundary es)ᶜ :=
  (isCompact_boundary es).isClosed.isOpen_compl

/- Around a cycle, what is gained from edge to edge is lost. -/
theorem IsCycle.sum_sub
    {A : Type}
    [AddCommGroup A]
    (hCycle : IsCycle es)
    (f : ℂ → A) :
    (es.map fun e => f e.2 - f e.1).sum = 0 := by
  have hSums := (hCycle.map f).sum_eq
  rw [List.map_map, List.map_map] at hSums
  have hSplit :
      (es.map fun e => f e.2 - f e.1).sum =
        (es.map (f ∘ Prod.snd)).sum -
          (es.map (f ∘ Prod.fst)).sum := by
    clear hSums hCycle
    induction es with
    | nil => simp
    | cons e es ih =>
        simp only [List.map_cons, List.sum_cons, ih]
        simp only [Function.comp_apply]
        abel
  rw [hSplit, hSums, sub_self]

------------------------------------------------------------
-- Whole Turns
------------------------------------------------------------

/- An edge is seen under half a turn from its points only. -/
theorem sight_mem_slitPlane (hOff : z ∉ segment ℝ a b) :
    sight z a b ∈ slitPlane := by
  have hA : a - z ≠ 0 := by
    rw [sub_ne_zero]
    rintro rfl
    exact hOff (left_mem_segment ℝ a b)
  rw [mem_slitPlane_iff_not_le_zero]
  intro hLe
  apply hOff
  obtain ⟨r, hR, hSight⟩ : ∃ r : ℝ, 0 ≤ r ∧ sight z a b = -r := by
    refine ⟨-(sight z a b).re, ?_, ?_⟩
    · simpa using (Complex.le_def.mp hLe).1
    · apply Complex.ext
      · simp
      · simpa using (Complex.le_def.mp hLe).2
  -- The point divides the edge in the ratio that is seen.
  have hEdge : b - z = -r * (a - z) := by
    rw [← hSight, sight, div_mul_cancel₀ _ hA]
  have hSum : (1 + r : ℂ) ≠ 0 := by
    exact_mod_cast (by positivity : (1 + r : ℝ) ≠ 0)
  refine ⟨r / (1 + r), 1 / (1 + r), by positivity, by positivity,
    by field_simp; ring, ?_⟩
  simp only [Complex.real_smul]
  push_cast
  field_simp
  linear_combination hEdge

/- The ends of edges are on them. -/
theorem ne_of_notMem_boundary
    (hOff : z ∉ boundary es)
    {e : ℂ × ℂ}
    (hMem : e ∈ es) :
    e.1 ≠ z ∧ e.2 ≠ z := by
  constructor
  · rintro rfl
    exact hOff ⟨e, hMem, left_mem_segment ℝ _ _⟩
  · rintro rfl
    exact hOff ⟨e, hMem, right_mem_segment ℝ _ _⟩

/- Off the edges, a cycle makes whole turns. -/
theorem exists_turns
    (hCycle : IsCycle es)
    (hOff : z ∉ boundary es) :
    ∃ n : ℤ, turning z es = n * (2 * π) := by
  have hAngle : (turning z es : Real.Angle) = 0 := by
    have hEach : ∀ e ∈ es,
        (arg (sight z e.1 e.2) : Real.Angle) =
          arg (e.2 - z) - arg (e.1 - z) := by
      intro e hMem
      obtain ⟨hStart, hStop⟩ := ne_of_notMem_boundary hOff hMem
      exact arg_div_coe_angle (sub_ne_zero.mpr hStop)
        (sub_ne_zero.mpr hStart)
    calc (turning z es : Real.Angle)
      _ = (es.map fun e =>
            (arg (sight z e.1 e.2) : Real.Angle)).sum := by
          rw [turning, ← Real.Angle.coe_coeHom, map_list_sum,
            List.map_map]
          rfl
      _ = (es.map fun e =>
            (arg (e.2 - z) : Real.Angle) - arg (e.1 - z)).sum :=
          congrArg List.sum (List.map_congr_left hEach)
      _ = 0 := hCycle.sum_sub fun v => (arg (v - z) : Real.Angle)
  obtain ⟨n, hTurns⟩ := Real.Angle.coe_eq_zero_iff.mp hAngle
  exact ⟨n, by rw [← hTurns, zsmul_eq_mul]⟩

------------------------------------------------------------
-- Nearby and Far Points
------------------------------------------------------------

theorem continuousAt_sight (hStart : a ≠ z) :
    ContinuousAt (fun z => sight z a b) z := by
  unfold sight
  apply ContinuousAt.div
  · fun_prop
  · fun_prop
  · exact sub_ne_zero.mpr hStart

theorem continuousAt_turning (hOff : z ∉ boundary es) :
    ContinuousAt (fun z => turning z es) z := by
  unfold turning
  apply tendsto_list_sum
  intro e hMem
  have hSegment : z ∉ segment ℝ e.1 e.2 :=
    fun hOn => hOff ⟨e, hMem, hOn⟩
  have hSight : ContinuousAt (fun z => sight z e.1 e.2) z :=
    continuousAt_sight (ne_of_notMem_boundary hOff hMem).1
  have hArg := continuousAt_arg (sight_mem_slitPlane hSegment)
  exact hArg.tendsto.comp hSight.tendsto

/- Points that are connected see as many turns. -/
theorem turning_constant
    (hCycle : IsCycle es)
    {s : Set ℂ}
    (hConnected : IsPreconnected s)
    (hOff : s ⊆ (boundary es)ᶜ)
    {z w : ℂ}
    (hZ : z ∈ s)
    (hW : w ∈ s) :
    turning z es = turning w es := by
  have hDiscrete :
      IsDiscrete
        (AddSubgroup.zmultiples (2 * π) : Set ℝ) :=
    SetLike.isDiscrete_iff_discreteTopology.mpr inferInstance
  have hContinuous : ContinuousOn (fun z => turning z es) s :=
    fun z hMem =>
      (continuousAt_turning (hOff hMem)).continuousWithinAt
  apply hConnected.constant_of_mapsTo hDiscrete hContinuous _ hZ hW
  intro z hMem
  obtain ⟨n, hTurns⟩ := exists_turns hCycle (hOff hMem)
  exact ⟨n, by simp [hTurns]⟩

/- In a half plane arguments are taken from each other. -/
theorem arg_div_of_re_pos
    {x y : ℂ}
    (hX : 0 < x.re)
    (hY : 0 < y.re) :
    arg (x / y) = arg x - arg y := by
  have hArgX := abs_lt.mp (abs_arg_lt_pi_div_two_iff.mpr (.inl hX))
  have hArgY := abs_lt.mp (abs_arg_lt_pi_div_two_iff.mpr (.inl hY))
  have hNeX : x ≠ 0 := by
    rintro rfl
    exact lt_irrefl _ hX
  have hNeY : y ≠ 0 := by
    rintro rfl
    exact lt_irrefl _ hY
  have hInverse : arg y⁻¹ = -arg y := by
    rw [arg_inv, if_neg]
    intro hPi
    linarith [Real.pi_pos]
  rw [div_eq_mul_inv,
    (arg_mul_eq_add_arg_iff hNeX (inv_ne_zero hNeY)).mpr,
    hInverse, sub_eq_add_neg]
  rw [hInverse]
  constructor <;> linarith

/- Edges on one side are left by as much as they are reached. -/
theorem turning_of_half_plane
    (hCycle : IsCycle es)
    {c : ℂ}
    (hSide :
      ∀ e ∈ es, 0 < (c * (e.1 - z)).re ∧ 0 < (c * (e.2 - z)).re) :
    turning z es = 0 := by
  have hEach : ∀ e ∈ es,
      arg (sight z e.1 e.2) =
        arg (c * (e.2 - z)) - arg (c * (e.1 - z)) := by
    intro e hMem
    obtain ⟨hStart, hStop⟩ := hSide e hMem
    have hFactor : c ≠ 0 := by
      rintro rfl
      simp at hStart
    rw [← arg_div_of_re_pos hStop hStart,
      mul_div_mul_left _ _ hFactor, sight]
  calc turning z es
    _ = (es.map fun e =>
          arg (c * (e.2 - z)) - arg (c * (e.1 - z))).sum :=
        congrArg List.sum (List.map_congr_left hEach)
    _ = 0 := hCycle.sum_sub fun v => arg (c * (v - z))

/- From farther away than all edges there are no turns. -/
theorem turning_far
    (hCycle : IsCycle es)
    (hFar : ∀ e ∈ es, ‖e.1‖ < ‖z‖ ∧ ‖e.2‖ < ‖z‖) :
    turning z es = 0 := by
  -- Seen from there, all edges are in front of the origin.
  have hFront : ∀ v : ℂ, ‖v‖ < ‖z‖ →
      0 < (-(starRingEnd ℂ) z * (v - z)).re := by
    intro v hV
    have hExpand :
        (-(starRingEnd ℂ) z * (v - z)).re =
          ‖z‖ * ‖z‖ - ((starRingEnd ℂ) z * v).re := by
      rw [norm_mul_self_eq_normSq, normSq_apply]
      simp
      ring
    have hInner :
        ((starRingEnd ℂ) z * v).re ≤ ‖z‖ * ‖v‖ := by
      calc ((starRingEnd ℂ) z * v).re
        _ ≤ ‖(starRingEnd ℂ) z * v‖ := re_le_norm _
        _ = ‖z‖ * ‖v‖ := by rw [norm_mul, norm_conj]
    have hZ : 0 < ‖z‖ := (norm_nonneg v).trans_lt hV
    rw [hExpand]
    nlinarith
  exact turning_of_half_plane hCycle fun e hMem =>
    ⟨hFront _ (hFar e hMem).1, hFront _ (hFar e hMem).2⟩

------------------------------------------------------------
-- Beside an Edge
------------------------------------------------------------

/- A point to the left of another one, seen along an edge. -/
noncomputable def beside (a b z : ℂ) (t : ℝ) : ℂ :=
  z + t * (I * (b - a))

theorem tendsto_beside (a b z : ℂ) :
    Tendsto (beside a b z) (𝓝 0) (𝓝 z) := by
  have hContinuous : Continuous (beside a b z) := by
    unfold beside
    fun_prop
  simpa [beside] using hContinuous.tendsto 0

/- The right of an edge is the left on the way back. -/
theorem beside_swap (a b z : ℂ) (t : ℝ) :
    beside b a z t = beside a b z (-t) := by
  unfold beside
  push_cast
  ring

/- An edge is seen turned from beside one of its points. -/
theorem sight_beside
    (hEdge : a ≠ b)
    {s : ℝ}
    (hPlace : z = a + s * (b - a))
    (t : ℝ) :
    sight (beside a b z t) a b =
      ⟨(t ^ 2 - s * (1 - s)) / (s ^ 2 + t ^ 2),
        t / (s ^ 2 + t ^ 2)⟩ := by
  have hNe : b - a ≠ 0 := sub_ne_zero.mpr hEdge.symm
  have hStart :
      a - beside a b z t = -((s + t * I : ℂ) * (b - a)) := by
    rw [beside, hPlace]
    ring
  have hStop :
      b - beside a b z t = (1 - s - t * I : ℂ) * (b - a) := by
    rw [beside, hPlace]
    ring
  have hNorm : normSq (-(s + t * I : ℂ)) = s ^ 2 + t ^ 2 := by
    rw [normSq_neg, normSq_add_mul_I]
  rw [sight, hStart, hStop, ← neg_mul,
    mul_div_mul_right _ _ hNe]
  apply Complex.ext
  · rw [div_re, hNorm, ← add_div]
    simp
    ring
  · rw [div_im, hNorm, ← sub_div]
    simp
    ring

theorem exists_place (hOn : z ∈ openSegment ℝ a b) :
    ∃ s : ℝ, 0 < s ∧ s < 1 ∧ z = a + s * (b - a) := by
  rw [openSegment_eq_image'] at hOn
  obtain ⟨s, ⟨hLow, hHigh⟩, rfl⟩ := hOn
  exact ⟨s, hLow, hHigh, by simp⟩

/- On an edge it is seen under half a turn. -/
theorem arg_sight_on
    (hEdge : a ≠ b)
    (hOn : z ∈ openSegment ℝ a b) :
    (sight z a b).re < 0 ∧ (sight z a b).im = 0 := by
  obtain ⟨s, hLow, hHigh, hPlace⟩ := exists_place hOn
  have hSight := sight_beside hEdge hPlace 0
  rw [show beside a b z 0 = z by simp [beside]] at hSight
  rw [hSight]
  constructor
  · have hProduct : 0 < s * (1 - s) :=
      mul_pos hLow (sub_pos.mpr hHigh)
    apply div_neg_of_neg_of_pos
    · nlinarith
    · positivity
  · simp

theorem tendsto_sight_beside
    {c d : ℂ}
    (hEdge : a ≠ b)
    (hOn : z ∈ openSegment ℝ a b) :
    Tendsto (fun t => sight (beside c d z t) a b) (𝓝 0)
      (𝓝 (sight z a b)) := by
  have hStart : a ≠ z := by
    rintro rfl
    exact hEdge (left_mem_openSegment_iff.mp hOn)
  have hSight := continuousAt_sight (b := b) hStart
  exact hSight.tendsto.comp (tendsto_beside c d z)

/- The left of an edge sees what its points see. -/
theorem tendsto_arg_left
    (hEdge : a ≠ b)
    (hOn : z ∈ openSegment ℝ a b) :
    Tendsto (fun t => arg (sight (beside a b z t) a b))
      (𝓝[>] 0) (𝓝 (arg (sight z a b))) := by
  obtain ⟨hRe, hIm⟩ := arg_sight_on hEdge hOn
  obtain ⟨s, _, _, hPlace⟩ := exists_place hOn
  refine (continuousWithinAt_arg_of_re_neg_of_im_zero hRe
    hIm).tendsto.comp (tendsto_nhdsWithin_iff.mpr ⟨?_, ?_⟩)
  · exact (tendsto_sight_beside hEdge hOn).mono_left
      nhdsWithin_le_nhds
  · filter_upwards [self_mem_nhdsWithin] with t hT
    rw [sight_beside hEdge hPlace]
    exact div_nonneg (le_of_lt hT) (by positivity)

/- The right of an edge sees a whole turn less. -/
theorem tendsto_arg_right
    (hEdge : a ≠ b)
    (hOn : z ∈ openSegment ℝ a b) :
    Tendsto (fun t => arg (sight (beside b a z t) a b))
      (𝓝[>] 0) (𝓝 (arg (sight z a b) - 2 * π)) := by
  obtain ⟨hRe, hIm⟩ := arg_sight_on hEdge hOn
  obtain ⟨s, hLow, _, hPlace⟩ := exists_place hOn
  have hTurn : arg (sight z a b) - 2 * π = -π := by
    rw [arg_eq_pi_iff.mpr ⟨hRe, hIm⟩]
    ring
  rw [hTurn]
  refine (tendsto_arg_nhdsWithin_im_neg_of_re_neg_of_im_zero hRe
    hIm).comp (tendsto_nhdsWithin_iff.mpr ⟨?_, ?_⟩)
  · exact (tendsto_sight_beside hEdge hOn).mono_left
      nhdsWithin_le_nhds
  · filter_upwards [self_mem_nhdsWithin] with t hT
    rw [beside_swap, sight_beside hEdge hPlace]
    exact div_neg_of_neg_of_pos (neg_lt_zero.mpr hT)
      (by positivity)

variable {e : ℂ × ℂ}

/- One edge and the others make up the turns. -/
theorem turning_erase (hMem : e ∈ es) (z : ℂ) :
    turning z es =
      arg (sight z e.1 e.2) + turning z (es.erase e) := by
  unfold turning
  rw [((List.perm_cons_erase hMem).map _).sum_eq,
    List.map_cons, List.sum_cons]

theorem tendsto_turning_beside
    (hOff : z ∉ boundary es)
    (a b : ℂ) :
    Tendsto (fun t => turning (beside a b z t) es) (𝓝[>] 0)
      (𝓝 (turning z es)) :=
  (continuousAt_turning hOff).tendsto.comp
    ((tendsto_beside a b z).mono_left nhdsWithin_le_nhds)

/- The left of an edge sees as many turns as its points. -/
theorem tendsto_turning_left
    (hMem : e ∈ es)
    (hEdge : e.1 ≠ e.2)
    (hOn : z ∈ openSegment ℝ e.1 e.2)
    (hOff : z ∉ boundary (es.erase e)) :
    Tendsto (fun t => turning (beside e.1 e.2 z t) es) (𝓝[>] 0)
      (𝓝 (turning z es)) := by
  simp only [turning_erase hMem]
  exact (tendsto_arg_left hEdge hOn).add
    (tendsto_turning_beside hOff _ _)

/- The right of an edge sees one turn less than its points. -/
theorem tendsto_turning_right
    (hMem : e ∈ es)
    (hEdge : e.1 ≠ e.2)
    (hOn : z ∈ openSegment ℝ e.1 e.2)
    (hOff : z ∉ boundary (es.erase e)) :
    Tendsto (fun t => turning (beside e.2 e.1 z t) es) (𝓝[>] 0)
      (𝓝 (turning z es - 2 * π)) := by
  simp only [turning_erase hMem, add_sub_right_comm]
  exact (tendsto_arg_right hEdge hOn).add
    (tendsto_turning_beside hOff _ _)

end Polygon

end Assessment
