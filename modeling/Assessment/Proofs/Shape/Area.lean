import Assessment.Proofs.Shape.Curve

/-
  The area that edges go round, and the way they go round it.

  Edges and the origin make triangles. The turns of a cycle of
  edges are those of its triangles, but for lines, and the
  turns of a triangle, taken over the plane, are its area with
  a sign. So the sum of the signed areas tells which way round
  a simple closed curve goes.

  Main declarations:
    * `Polygon.cross` and `Polygon.signedArea`
    * `Polygon.turning_triangle_ae`, one triangle
    * `Polygon.integral_turning`, all edges
    * `Polygon.IsCurve.turning_of_signedArea`
-/

------------------------------------------------------------
-- Triangles
------------------------------------------------------------

namespace Assessment

namespace Polygon

open Complex Filter Topology MeasureTheory
open scoped Real

/- Twice the signed area between two vectors. -/
def cross (x y : ℂ) : ℝ :=
  x.re * y.im - x.im * y.re

/- The area to the left of edges less that to their right. -/
noncomputable def signedArea (es : List (ℂ × ℂ)) : ℝ :=
  2⁻¹ * (es.map fun e => cross e.1 e.2).sum

/- The edges of a triangle. -/
def triangle (a b c : ℂ) : List (ℂ × ℂ) :=
  [(a, b), (b, c), (c, a)]

variable {a b c z : ℂ}

theorem isCycle_triangle (a b c : ℂ) : IsCycle (triangle a b c) :=
  (List.perm_append_singleton a [b, c]).symm

theorem turning_rotate (a b c z : ℂ) :
    turning z (triangle b c a) = turning z (triangle a b c) := by
  simp only [turning, triangle, List.map_cons, List.map_nil,
    List.sum_cons, List.sum_nil]
  ring

/- An edge is seen to turn the way of its cross product. -/
theorem sight_im (z a b : ℂ) :
    (sight z a b).im = cross (a - z) (b - z) / normSq (a - z) := by
  rw [sight, Complex.div_im, cross, ← sub_div]
  ring

theorem cross_of_mem (hOn : z ∈ segment ℝ a b) :
    cross (a - z) (b - z) = 0 := by
  rw [segment_eq_image'] at hOn
  obtain ⟨r, _, rfl⟩ := hOn
  simp only [cross, Complex.real_smul, Complex.sub_re,
    Complex.sub_im, Complex.add_re, Complex.add_im,
    Complex.re_ofReal_mul, Complex.im_ofReal_mul]
  ring

theorem normSq_pos_of_cross (hCross : cross a b ≠ 0) :
    0 < normSq a := by
  rw [Complex.normSq_pos]
  rintro rfl
  simp [cross] at hCross

variable {s : ℝ}

/-
  Seen from a side of it, an edge turns by less than half a
  turn, the way that belongs to that side.
-/
theorem arg_sight_beside
    (hSide : s = 1 ∨ s = -1)
    (hBeside : 0 < s * cross (a - z) (b - z)) :
    0 < s * arg (sight z a b) ∧ s * arg (sight z a b) < π := by
  have hNorm := normSq_pos_of_cross (right_ne_zero_of_mul hBeside.ne')
  have hIm : 0 < s * (sight z a b).im := by
    rw [sight_im, ← mul_div_assoc]
    exact div_pos hBeside hNorm
  rcases hSide with rfl | rfl
  · rw [one_mul] at hIm
    rw [one_mul]
    exact ⟨arg_pos_of_im_pos hIm, arg_lt_pi_iff.mpr (.inr hIm.ne')⟩
  · rw [neg_one_mul, neg_pos] at hIm
    rw [neg_one_mul, neg_pos]
    exact ⟨arg_neg_iff.mpr hIm, neg_lt.mp (neg_pi_lt_arg _)⟩

/- Off its edges a triangle makes whole turns. -/
theorem exists_turns_triangle
    (hFirst : cross (a - z) (b - z) ≠ 0)
    (hSecond : cross (b - z) (c - z) ≠ 0)
    (hThird : cross (c - z) (a - z) ≠ 0) :
    ∃ n : ℤ, turning z (triangle a b c) = n * (2 * π) := by
  apply exists_turns (isCycle_triangle a b c)
  rintro ⟨e, hMem, hOn⟩
  simp only [triangle, List.mem_cons, List.not_mem_nil,
    or_false] at hMem
  rcases hMem with rfl | rfl | rfl
  · exact hFirst (cross_of_mem hOn)
  · exact hSecond (cross_of_mem hOn)
  · exact hThird (cross_of_mem hOn)

/- A point on one side of all edges of a triangle sees a turn. -/
theorem turning_triangle_inside
    (hSide : s = 1 ∨ s = -1)
    (hFirst : 0 < s * cross (a - z) (b - z))
    (hSecond : 0 < s * cross (b - z) (c - z))
    (hThird : 0 < s * cross (c - z) (a - z)) :
    turning z (triangle a b c) = s * (2 * π) := by
  obtain ⟨n, hTurns⟩ := exists_turns_triangle
    (right_ne_zero_of_mul hFirst.ne')
    (right_ne_zero_of_mul hSecond.ne')
    (right_ne_zero_of_mul hThird.ne')
  have hPi := Real.two_pi_pos
  have hSum :
      s * n * (2 * π) =
        s * arg (sight z a b) + (s * arg (sight z b c) +
          s * arg (sight z c a)) := by
    rw [mul_assoc, ← hTurns]
    simp only [turning, triangle, List.map_cons, List.map_nil,
      List.sum_cons, List.sum_nil]
    ring
  obtain ⟨hA, hA'⟩ := arg_sight_beside hSide hFirst
  obtain ⟨hB, hB'⟩ := arg_sight_beside hSide hSecond
  obtain ⟨hC, hC'⟩ := arg_sight_beside hSide hThird
  -- Three angles that are less than half a turn make one turn.
  have hLow : 0 < s * n := by
    apply pos_of_mul_pos_left _ hPi.le
    linarith
  have hHigh : s * n < 2 := by
    apply lt_of_mul_lt_mul_right _ hPi.le
    linarith
  rw [hTurns]
  congr 1
  rcases hSide with rfl | rfl
  · rw [one_mul] at hLow hHigh
    norm_cast at hLow hHigh
    exact_mod_cast (by omega : n = 1)
  · rw [neg_one_mul] at hLow hHigh
    norm_cast at hLow hHigh
    exact_mod_cast (by omega : n = -1)

theorem cross_rotate (a b c : ℂ) :
    cross (c - b) (a - b) = cross (b - a) (c - a) := by
  simp only [cross, Complex.sub_re, Complex.sub_im]
  ring

theorem cross_sum (a b c z : ℂ) :
    cross (a - z) (b - z) + cross (b - z) (c - z) +
        cross (c - z) (a - z) =
      cross (b - a) (c - a) := by
  simp only [cross, Complex.sub_re, Complex.sub_im]
  ring

/- Beyond an edge, a triangle is all in front. -/
theorem turning_triangle_beyond
    (hSide : 0 ≤ s * cross (b - a) (c - a))
    (hBeyond : s * cross (a - z) (b - z) < 0) :
    turning z (triangle a b c) = 0 := by
  have hRe : ∀ x y : ℂ,
      (s * (-I * (starRingEnd ℂ) x) * y).re = s * cross x y := by
    intro x y
    simp [cross]
    ring
  have hFirst : 0 < s * cross (b - a) (a - z) := by
    have hSame :
        cross (b - a) (a - z) = -cross (a - z) (b - z) := by
      simp only [cross, Complex.sub_re, Complex.sub_im]
      ring
    rw [hSame]
    linarith
  have hSecond : 0 < s * cross (b - a) (b - z) := by
    have hSame :
        cross (b - a) (b - z) = -cross (a - z) (b - z) := by
      simp only [cross, Complex.sub_re, Complex.sub_im]
      ring
    rw [hSame]
    linarith
  have hThird : 0 < s * cross (b - a) (c - z) := by
    have hSame :
        cross (b - a) (c - z) =
          cross (b - a) (c - a) - cross (a - z) (b - z) := by
      simp only [cross, Complex.sub_re, Complex.sub_im]
      ring
    rw [hSame]
    linarith
  apply turning_of_half_plane (isCycle_triangle a b c)
    (c := s * (-I * (starRingEnd ℂ) (b - a)))
  intro e hMem
  simp only [triangle, List.mem_cons, List.not_mem_nil,
    or_false] at hMem
  simp only [hRe]
  rcases hMem with rfl | rfl | rfl
  · exact ⟨hFirst, hSecond⟩
  · exact ⟨hSecond, hThird⟩
  · exact ⟨hThird, hFirst⟩

/- One of the edges of a triangle suffices. -/
theorem turning_triangle_outside
    (hSide : 0 ≤ s * cross (b - a) (c - a))
    (hOutside :
      s * cross (a - z) (b - z) < 0 ∨
        s * cross (b - z) (c - z) < 0 ∨
        s * cross (c - z) (a - z) < 0) :
    turning z (triangle a b c) = 0 := by
  rcases hOutside with hFirst | hSecond | hThird
  · exact turning_triangle_beyond hSide hFirst
  · rw [← turning_rotate]
    apply turning_triangle_beyond _ hSecond
    rwa [cross_rotate]
  · rw [← turning_rotate, ← turning_rotate]
    apply turning_triangle_beyond _ hThird
    rwa [cross_rotate, cross_rotate]

------------------------------------------------------------
-- Lines
------------------------------------------------------------

/- Almost no point is in line with an edge. -/
theorem ae_cross_ne (hEdge : a ≠ b) :
    ∀ᵐ z : ℂ, cross (a - z) (b - z) ≠ 0 := by
  let g : ℂ →ₗ[ℝ] ℝ :=
    (b - a).im • Complex.reLm - (b - a).re • Complex.imLm
  have hG : ∀ z, cross (a - z) (b - z) = g (a - z) := by
    intro z
    simp only [g, cross, LinearMap.sub_apply, LinearMap.smul_apply,
      Complex.reLm_coe, Complex.imLm_coe, smul_eq_mul,
      Complex.sub_re, Complex.sub_im]
    ring
  have hProper : LinearMap.ker g ≠ ⊤ := by
    intro hTop
    have hZero : g (I * (b - a)) = 0 := by
      rw [← LinearMap.mem_ker, hTop]
      trivial
    have hNorm : normSq (b - a) = 0 := by
      simp only [g, LinearMap.sub_apply, LinearMap.smul_apply,
        Complex.reLm_coe, Complex.imLm_coe, smul_eq_mul,
        Complex.I_mul_re, Complex.I_mul_im] at hZero
      rw [Complex.normSq_apply]
      linarith
    exact hEdge (sub_eq_zero.mp (Complex.normSq_eq_zero.mp hNorm)).symm
  have hAway : ∀ᵐ w : ℂ, g w ≠ 0 :=
    measure_eq_zero_iff_ae_notMem.mp
      (Measure.addHaar_submodule volume (LinearMap.ker g) hProper)
  simp only [hG]
  exact (quasiMeasurePreserving_sub_left volume a).ae hAway

/- Almost no point is on edges. -/
theorem ae_notMem_boundary (es : List (ℂ × ℂ)) :
    ∀ᵐ z : ℂ, z ∉ boundary es := by
  have hEach : ∀ᵐ z : ℂ, ∀ e ∈ {e | e ∈ es},
      z ∉ segment ℝ e.1 e.2 := by
    rw [ae_ball_iff es.finite_toSet.countable]
    intro e _
    by_cases hEdge : e.1 = e.2
    · rw [hEdge, segment_same]
      exact measure_eq_zero_iff_ae_notMem.mp (measure_singleton e.2)
    · filter_upwards [ae_cross_ne hEdge] with z hCross hOn
      exact hCross (cross_of_mem hOn)
  filter_upwards [hEach] with z hOff
  rintro ⟨e, hMem, hOn⟩
  exact hOff e hMem hOn

------------------------------------------------------------
-- The Area of a Triangle
------------------------------------------------------------

/- The points that have all edges of a triangle on one side. -/
def core (a b : ℂ) : Set ℂ :=
  {z | 0 < cross a b * cross (a - z) (b - z) ∧
    0 < cross a b * cross (b - z) (0 - z) ∧
    0 < cross a b * cross (0 - z) (a - z)}

theorem cross_base (a b : ℂ) :
    cross (b - a) (0 - a) = cross a b := by
  simp only [cross, Complex.sub_re, Complex.sub_im,
    Complex.zero_re, Complex.zero_im]
  ring

/- A triangle on a line is seen under no turn off that line. -/
theorem turning_triangle_flat
    (hFlat : cross a b = 0)
    (hOff :
      cross (b - z) (0 - z) ≠ 0 ∨ cross (0 - z) (a - z) ≠ 0) :
    turning z (triangle a b 0) = 0 := by
  have hSum := cross_sum a b 0 z
  rw [cross_base a b, hFlat] at hSum
  apply turning_triangle_outside (s := 1)
  · rw [cross_base, hFlat, mul_zero]
  · simp only [one_mul]
    by_contra! hNone
    obtain ⟨hFirst, hSecond, hThird⟩ := hNone
    rcases hOff with hOff | hOff
    · exact hOff (by linarith)
    · exact hOff (by linarith)

/- The turns of a triangle, almost everywhere. -/
theorem turning_triangle_ae (a b : ℂ) :
    ∀ᵐ z : ℂ, turning z (triangle a b 0) =
      (core a b).indicator
        (fun _ => 2 * π * (SignType.sign (cross a b) : ℝ)) z := by
  by_cases hFlat : cross a b = 0
  · have hCore : core a b = ∅ := by
      ext z
      simp [core, hFlat]
    simp only [hCore, Set.indicator_empty]
    by_cases hB : b = 0
    · by_cases hA : a = 0
      · apply ae_of_all
        intro z
        by_cases hZ : z = 0 <;>
          simp [hA, hB, hZ, turning, triangle, sight]
      · filter_upwards [ae_cross_ne (Ne.symm hA)] with z hZ
        exact turning_triangle_flat hFlat (.inr hZ)
    · filter_upwards [ae_cross_ne hB] with z hZ
      exact turning_triangle_flat hFlat (.inl hZ)
  · have hA : (0 : ℂ) ≠ a := by
      rintro rfl
      simp [cross] at hFlat
    have hB : b ≠ 0 := by
      rintro rfl
      simp [cross] at hFlat
    have hEdge : a ≠ b := by
      rintro rfl
      exact hFlat (by rw [cross]; ring)
    filter_upwards [ae_cross_ne hEdge, ae_cross_ne hB,
      ae_cross_ne hA] with z hFirst hSecond hThird
    by_cases hCore : z ∈ core a b
    · rw [Set.indicator_of_mem hCore]
      obtain ⟨hFirst, hSecond, hThird⟩ := hCore
      have hSign : ∀ x, 0 < cross a b * x →
          0 < (SignType.sign (cross a b) : ℝ) * x := by
        intro x hX
        rcases lt_or_gt_of_ne hFlat with hNeg | hPos
        · simpa [sign_neg hNeg] using neg_of_mul_pos_right hX hNeg.le
        · simpa [sign_pos hPos] using pos_of_mul_pos_right hX hPos.le
      have hSide :
          (SignType.sign (cross a b) : ℝ) = 1 ∨
            (SignType.sign (cross a b) : ℝ) = -1 := by
        rcases lt_or_gt_of_ne hFlat with hNeg | hPos
        · simp [sign_neg hNeg]
        · simp [sign_pos hPos]
      rw [turning_triangle_inside hSide (hSign _ hFirst)
        (hSign _ hSecond) (hSign _ hThird), mul_comm]
    · rw [Set.indicator_of_notMem hCore]
      apply turning_triangle_outside (s := cross a b)
      · rw [cross_base]
        exact mul_self_nonneg _
      · by_contra! hNone
        obtain ⟨hNotFirst, hNotSecond, hNotThird⟩ := hNone
        exact hCore
          ⟨hNotFirst.lt_of_ne (mul_ne_zero hFlat hFirst).symm,
            hNotSecond.lt_of_ne (mul_ne_zero hFlat hSecond).symm,
            hNotThird.lt_of_ne (mul_ne_zero hFlat hThird).symm⟩

/- The linear map that takes the axes to two vectors. -/
noncomputable def frame (a b : ℂ) : ℂ →ₗ[ℝ] ℂ :=
  Complex.reLm.smulRight a + Complex.imLm.smulRight b

theorem det_frame (a b : ℂ) :
    LinearMap.det (frame a b) = cross a b := by
  rw [← LinearMap.det_toMatrix Complex.basisOneI,
    Matrix.det_fin_two]
  simp [LinearMap.toMatrix_apply, frame, cross]
  ring

theorem cross_frame (a b x y : ℂ) :
    cross (frame a b x) (frame a b y) =
      cross a b * cross x y := by
  simp only [cross, frame, LinearMap.add_apply,
    LinearMap.smulRight_apply, Complex.reLm_coe, Complex.imLm_coe,
    Complex.real_smul, Complex.add_re, Complex.add_im,
    Complex.re_ofReal_mul, Complex.im_ofReal_mul]
  ring

/- Triangles are images of one of them. -/
theorem core_eq_image (hNe : cross a b ≠ 0) :
    core a b = frame a b '' core 1 I := by
  have hDet : LinearMap.det (frame a b) ≠ 0 := by
    rwa [det_frame]
  have hOne : frame a b 1 = a := by simp [frame]
  have hI : frame a b I = b := by simp [frame]
  have hMem : ∀ z, frame a b z ∈ core a b ↔ z ∈ core 1 I := by
    intro z
    have hScale : ∀ x y : ℂ,
        0 < cross a b * cross (frame a b x) (frame a b y) ↔
          0 < cross 1 I * cross x y := by
      intro x y
      rw [cross_frame, ← mul_assoc,
        mul_pos_iff_of_pos_left (mul_self_pos.mpr hNe)]
      simp [cross]
    simp only [core, Set.mem_ofPred_eq, ← hScale, map_sub, hOne,
      hI, map_zero]
  ext z
  constructor
  · intro hZ
    obtain ⟨w, rfl⟩ :=
      ((frame a b).equivOfDetNeZero hDet).surjective z
    exact ⟨w, (hMem w).mp hZ, rfl⟩
  · rintro ⟨w, hW, rfl⟩
    exact (hMem w).mpr hW

theorem isOpen_core (a b : ℂ) : IsOpen (core a b) := by
  have hContinuous : ∀ f g : ℂ → ℂ, Continuous f → Continuous g →
      IsOpen {z | 0 < cross a b * cross (f z) (g z)} := by
    intro f g hF hG
    apply isOpen_lt continuous_const
    unfold cross
    fun_prop
  refine (hContinuous _ _ ?_ ?_).inter
    ((hContinuous _ _ ?_ ?_).inter (hContinuous _ _ ?_ ?_)) <;>
    fun_prop

/- The area of the triangle on the axes. -/
noncomputable def unitArea : ℝ :=
  volume.real (core 1 I)

theorem volume_unit :
    0 < volume (core 1 I) ∧ volume (core 1 I) < ⊤ := by
  constructor
  · apply (isOpen_core 1 I).measure_pos volume
    refine ⟨⟨1 / 4, 1 / 4⟩, ?_⟩
    simp [core, cross]
    norm_num
  · apply Bornology.IsBounded.measure_lt_top
    apply (Metric.isBounded_ball (x := (0 : ℂ)) (r := 2)).subset
    rintro z ⟨hFirst, hSecond, hThird⟩
    simp [cross] at hFirst hSecond hThird
    rw [mem_ball_zero_iff]
    apply (Complex.norm_le_abs_re_add_abs_im z).trans_lt
    rw [abs_of_pos (by nlinarith), abs_of_pos (by nlinarith)]
    nlinarith

theorem unitArea_pos : 0 < unitArea :=
  ENNReal.toReal_pos volume_unit.1.ne' volume_unit.2.ne

/- The area of a triangle. -/
theorem volume_core (a b : ℂ) :
    volume (core a b) ≠ ⊤ ∧
      volume.real (core a b) = |cross a b| * unitArea := by
  by_cases hFlat : cross a b = 0
  · have hCore : core a b = ∅ := by
      ext z
      simp [core, hFlat]
    simp [hCore, hFlat]
  · have hVolume := Measure.addHaar_image_linearMap volume
      (frame a b) (core 1 I)
    rw [← core_eq_image hFlat, det_frame] at hVolume
    constructor
    · rw [hVolume]
      exact ENNReal.mul_ne_top ENNReal.ofReal_ne_top
        volume_unit.2.ne
    · rw [measureReal_def, hVolume, ENNReal.toReal_mul,
        ENNReal.toReal_ofReal (abs_nonneg _), unitArea,
        measureReal_def]

/- The turns of a triangle make up its area. -/
theorem integral_triangle (a b : ℂ) :
    Integrable (fun z => turning z (triangle a b 0)) ∧
      ∫ z, turning z (triangle a b 0) =
        2 * π * unitArea * cross a b := by
  have hSame := turning_triangle_ae a b
  have hMeasurable := (isOpen_core a b).measurableSet
  obtain ⟨hFinite, hArea⟩ := volume_core a b
  constructor
  · apply Integrable.congr _ (Filter.EventuallyEq.symm hSame)
    exact (integrableOn_const hFinite).integrable_indicator
      hMeasurable
  · rw [integral_congr_ae hSame,
      integral_indicator_const _ hMeasurable, hArea, smul_eq_mul]
    have hSign := sign_mul_abs (cross a b)
    linear_combination (2 * π * unitArea) * hSign

------------------------------------------------------------
-- The Area of a Cycle
------------------------------------------------------------

variable {es : List (ℂ × ℂ)} {e : ℂ × ℂ} {p : ℂ}

/- The lines from the origin to the ends of edges. -/
def spokes (es : List (ℂ × ℂ)) : List (ℂ × ℂ) :=
  es.flatMap fun e => [(0, e.1), (0, e.2)]

/- A cycle turns as its triangles do: no spoke counts. -/
theorem turning_eq_triangles
    (hCycle : IsCycle es)
    (hOff : z ∉ boundary (spokes es)) :
    turning z es =
      (es.map fun e => turning z (triangle e.1 e.2 0)).sum := by
  have hEach : ∀ e ∈ es,
      arg (sight z e.1 e.2) =
        turning z (triangle e.1 e.2 0) +
          (arg (sight z 0 e.2) - arg (sight z 0 e.1)) := by
    intro e hE
    have hSpoke : z ∉ segment ℝ 0 e.2 := fun hOn =>
      hOff ⟨(0, e.2), List.mem_flatMap.mpr ⟨e, hE, by simp⟩, hOn⟩
    have hBack : sight z e.2 0 = (sight z 0 e.2)⁻¹ := by
      rw [sight, sight, inv_div]
    have hArg :=
      (mem_slitPlane_iff_arg.mp (sight_mem_slitPlane hSpoke)).1
    simp only [turning, triangle, List.map_cons, List.map_nil,
      List.sum_cons, List.sum_nil]
    rw [hBack, arg_inv, if_neg hArg]
    ring
  have hGain := hCycle.sum_sub fun v => arg (sight z 0 v)
  rw [turning, List.map_congr_left hEach, List.sum_map_add, hGain,
    add_zero]

/- The turns of triangles make up their areas. -/
theorem integral_triangles (es : List (ℂ × ℂ)) :
    Integrable
        (fun z => (es.map fun e =>
          turning z (triangle e.1 e.2 0)).sum) ∧
      ∫ z, (es.map fun e => turning z (triangle e.1 e.2 0)).sum =
        2 * π * unitArea * (es.map fun e => cross e.1 e.2).sum := by
  induction es with
  | nil => simp
  | cons e es ih =>
      obtain ⟨hFirst, hArea⟩ := integral_triangle e.1 e.2
      simp only [List.map_cons, List.sum_cons]
      exact ⟨hFirst.add ih.1, by
        rw [integral_add hFirst ih.1, hArea, ih.2]
        ring⟩

/- The turns of a cycle make up the area that it goes round. -/
theorem integral_turning (hCycle : IsCycle es) :
    Integrable (fun z => turning z es) ∧
      ∫ z, turning z es = 4 * π * unitArea * signedArea es := by
  have hSame :
      (fun z => turning z es) =ᵐ[volume] fun z =>
        (es.map fun e => turning z (triangle e.1 e.2 0)).sum := by
    filter_upwards [ae_notMem_boundary (spokes es)] with z hOff
    exact turning_eq_triangles hCycle hOff
  obtain ⟨hIntegrable, hArea⟩ := integral_triangles es
  constructor
  · exact hIntegrable.congr hSame.symm
  · rw [integral_congr_ae hSame, hArea, signedArea]
    ring

namespace IsCurve

/- Turns of one sign make up an area of that sign. -/
theorem signedArea_pos
    (hCurve : IsCurve es)
    (hS : s ≠ 0)
    (hSign : ∀ z ∉ boundary es, 0 ≤ s * turning z es) :
    0 < s * signedArea es := by
  obtain ⟨z, hOff, hBounded⟩ := hCurve.exists_bounded
  have hTurns := (hCurve.isBounded_iff hOff).mp hBounded
  obtain ⟨hIntegrable, hArea⟩ := integral_turning hCurve.cycle
  have hSupport :
      region es z ⊆ Function.support fun z => s * turning z es := by
    intro w hW
    rw [Function.mem_support, turning_constant hCurve.cycle
      isPreconnected_connectedComponentIn region_off hW
      (mem_connectedComponentIn hOff)]
    exact mul_ne_zero hS hTurns
  have hRegion : 0 < volume (region es z) :=
    isOpen_region.measure_pos volume
      ⟨z, mem_connectedComponentIn hOff⟩
  have hNonneg : 0 ≤ᵐ[volume] fun z => s * turning z es := by
    filter_upwards [ae_notMem_boundary es] with w hW
    exact hSign w hW
  have hPos :=
    (integral_pos_iff_support_of_nonneg_ae hNonneg
      (hIntegrable.const_mul s)).mpr
      (hRegion.trans_le (measure_mono hSupport))
  rw [integral_const_mul, hArea] at hPos
  have hUnit : 0 < 4 * π * unitArea := by
    have hUnitArea := unitArea_pos
    positivity
  apply pos_of_mul_pos_right _ hUnit.le
  linarith

/-
  Inner points of edges see a turn exactly if the edges go
  round to the left, and the signed area tells so.
-/
theorem turning_of_signedArea
    (hCurve : IsCurve es)
    (hE : e ∈ es)
    (hInner : p ∈ openSegment ℝ e.1 e.2) :
    0 < signedArea es ∧ turning p es = 2 * π ∨
      signedArea es < 0 ∧ turning p es = 0 := by
  have hPi := Real.two_pi_pos
  obtain ⟨z, hOff, hBounded⟩ := hCurve.exists_bounded
  have hInside : ∀ z ∉ boundary es, turning z es ≠ 0 →
      turning z es = 2 * π ∧ turning p es = 2 * π ∨
        turning z es = -(2 * π) ∧ turning p es = 0 :=
    fun z hOff hTurns => hCurve.turning_of_bounded hOff
      ((hCurve.isBounded_iff hOff).mpr hTurns) hE hInner
  rcases hInside z hOff ((hCurve.isBounded_iff hOff).mp hBounded)
    with ⟨_, hLeft⟩ | ⟨_, hRight⟩
  · left
    refine ⟨?_, hLeft⟩
    rw [← one_mul (signedArea es)]
    apply hCurve.signedArea_pos one_ne_zero
    intro w hW
    by_cases hTurns : turning w es = 0
    · simp [hTurns]
    · rcases hInside w hW hTurns with ⟨hSame, _⟩ | ⟨_, hOther⟩
      · linarith
      · linarith
  · right
    refine ⟨?_, hRight⟩
    have hArea : 0 < -1 * signedArea es := by
      apply hCurve.signedArea_pos (by norm_num)
      intro w hW
      by_cases hTurns : turning w es = 0
      · simp [hTurns]
      · rcases hInside w hW hTurns with ⟨_, hOther⟩ | ⟨hSame, _⟩
        · linarith
        · linarith
    linarith

end IsCurve

end Polygon

end Assessment
