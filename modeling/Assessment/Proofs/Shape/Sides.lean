import Assessment.Proofs.Shape.Winding

/-
  Regions beside edges.

  A region of points that are connected off all edges and that
  lies on the left of an edge somewhere does so all along it.
  At a corner where no other edge is near, the points between
  two edges are connected, and they are beside both.

  Main declarations:
    * `Polygon.region` and `Polygon.IsLeft`
    * `Polygon.leftAt_of_near`
    * `Polygon.LeftAt.slide`, along an edge
    * `Polygon.sector` and `Polygon.exists_corner`
-/

------------------------------------------------------------
-- Regions
------------------------------------------------------------

namespace Assessment

namespace Polygon

open Complex Filter Topology
open scoped Real

/- The points that are connected with a point off the edges. -/
def region (es : List (ℂ × ℂ)) (z : ℂ) : Set ℂ :=
  connectedComponentIn (boundary es)ᶜ z

/- Points to the left of an edge, next to a point, are in a set. -/
def LeftAt (s : Set ℂ) (e : ℂ × ℂ) (p : ℂ) : Prop :=
  ∀ᶠ t in 𝓝[>] 0, beside e.1 e.2 p t ∈ s

/- A set reaches an edge from the left, at all its points. -/
def IsLeft (s : Set ℂ) (e : ℂ × ℂ) : Prop :=
  ∀ p ∈ openSegment ℝ e.1 e.2, LeftAt s e p

variable {es : List (ℂ × ℂ)} {e f : ℂ × ℂ}
variable {s : Set ℂ} {a b v z p q : ℂ}

theorem region_off : region es z ⊆ (boundary es)ᶜ :=
  connectedComponentIn_subset _ _

theorem isOpen_region : IsOpen (region es z) :=
  (isOpen_compl_boundary es).connectedComponentIn

/- What is connected with a region belongs to it. -/
theorem subset_region
    (hConnected : IsPreconnected s)
    (hOff : s ⊆ (boundary es)ᶜ)
    (hMeet : (s ∩ region es z).Nonempty) :
    s ⊆ region es z := by
  obtain ⟨w, hMem, hRegion⟩ := hMeet
  rw [region, connectedComponentIn_eq hRegion]
  exact hConnected.subset_connectedComponentIn hMem hOff

/- Connected points lead from one edge to another. -/
theorem LeftAt.transfer
    (hConnected : IsPreconnected s)
    (hOff : s ⊆ (boundary es)ᶜ)
    (hFrom : LeftAt s e p)
    (hTo : LeftAt s f q)
    (hLeft : LeftAt (region es z) e p) :
    LeftAt (region es z) f q := by
  obtain ⟨t, hMem, hRegion⟩ := (hFrom.and hLeft).exists
  have hSubset :=
    subset_region hConnected hOff ⟨_, hMem, hRegion⟩
  exact hTo.mono fun t hMem => hSubset hMem

------------------------------------------------------------
-- The Line Through an Edge
------------------------------------------------------------

/- How far a point lies to the left of an edge. -/
noncomputable def side (a b z : ℂ) : ℝ :=
  ((z - a) / (b - a)).im

theorem side_eq_sub (a b z : ℂ) :
    side a b z = (z / (b - a)).im - (a / (b - a)).im := by
  rw [side, sub_div, Complex.sub_im]

theorem side_beside (hEdge : a ≠ b) (z : ℂ) (t : ℝ) :
    side a b (beside a b z t) = side a b z + t := by
  have hNe : b - a ≠ 0 := sub_ne_zero.mpr hEdge.symm
  have hParts :
      (beside a b z t - a) / (b - a) =
        (z - a) / (b - a) + t * I := by
    rw [beside]
    field_simp
    ring
  rw [side, hParts, Complex.add_im, side]
  simp

theorem side_of_mem
    (hEdge : a ≠ b)
    (hOn : z ∈ segment ℝ a b) :
    side a b z = 0 := by
  have hNe : b - a ≠ 0 := sub_ne_zero.mpr hEdge.symm
  rw [segment_eq_image'] at hOn
  obtain ⟨r, _, rfl⟩ := hOn
  rw [side, add_sub_cancel_left, Complex.real_smul,
    mul_div_cancel_right₀ _ hNe, Complex.ofReal_im]

/- Seen the other way, left is right. -/
theorem side_swap (hEdge : a ≠ b) (z : ℂ) :
    side b a z = -side a b z := by
  have hNe : b - a ≠ 0 := sub_ne_zero.mpr hEdge.symm
  have hBack : a - b ≠ 0 := sub_ne_zero.mpr hEdge
  have hParts : (z - b) / (a - b) = 1 - (z - a) / (b - a) := by
    rw [← neg_sub b a, div_neg]
    field_simp
    ring
  rw [side, hParts, Complex.sub_im, Complex.one_im, zero_sub,
    side]

/- The points to the left of an edge. -/
theorem convex_left (a b : ℂ) : Convex ℝ {z | 0 < side a b z} := by
  have hLinear :
      IsLinearMap ℝ fun z : ℂ => (z / (b - a)).im := by
    constructor
    · intro z w
      rw [add_div, Complex.add_im]
    · intro r z
      rw [Complex.real_smul, mul_div_assoc, Complex.im_ofReal_mul,
        smul_eq_mul]
  have hHalf :=
    convex_halfSpace_gt hLinear (a / (b - a)).im
  simpa only [side_eq_sub, sub_pos] using hHalf

------------------------------------------------------------
-- Along an Edge
------------------------------------------------------------

/-
  Where no other edge is near, a region that reaches a side of
  an edge reaches that side.
-/
theorem leftAt_of_near
    (hEdge : a ≠ b)
    {r : ℝ}
    (hR : 0 < r)
    (hLocal :
      ∀ w ∈ Metric.ball p r, w ∈ boundary es → w ∈ segment ℝ a b)
    (hOn : p ∈ segment ℝ a b)
    {w : ℂ}
    (hNear : w ∈ Metric.ball p r)
    (hRegion : w ∈ region es z)
    (hLeft : 0 < side a b w) :
    LeftAt (region es z) (a, b) p := by
  have hConnected :
      IsPreconnected
        (Metric.ball p r ∩ {z | 0 < side a b z}) :=
    ((convex_ball p r).inter (convex_left a b)).isPreconnected
  have hOff :
      Metric.ball p r ∩ {z | 0 < side a b z} ⊆
        (boundary es)ᶜ := by
    rintro x ⟨hBall, hSide⟩ hBoundary
    exact hSide.ne' (side_of_mem hEdge
      (hLocal x hBall hBoundary))
  have hSubset := subset_region hConnected hOff
    ⟨w, ⟨hNear, hLeft⟩, hRegion⟩
  have hBall :
      ∀ᶠ t in 𝓝[>] 0, beside a b p t ∈ Metric.ball p r :=
    ((tendsto_beside a b p).mono_left nhdsWithin_le_nhds)
      (Metric.ball_mem_nhds p hR)
  unfold LeftAt
  filter_upwards [hBall, self_mem_nhdsWithin] with t hMem hT
  apply hSubset
  refine ⟨hMem, ?_⟩
  change 0 < side a b (beside a b p t)
  rw [side_beside hEdge, side_of_mem hEdge hOn, zero_add]
  exact hT

/- What an edge has at its left at one point, it has at all. -/
theorem LeftAt.slide
    {others : List (ℂ × ℂ)}
    (hEdge : e.1 ≠ e.2)
    (hCover : boundary es ⊆ segment ℝ e.1 e.2 ∪ boundary others)
    (hOff : ∀ x ∈ openSegment ℝ e.1 e.2, x ∉ boundary others)
    (hP : p ∈ openSegment ℝ e.1 e.2)
    (hQ : q ∈ openSegment ℝ e.1 e.2)
    (hLeft : LeftAt (region es z) e p) :
    LeftAt (region es z) e q := by
  have hBetween : segment ℝ p q ⊆ openSegment ℝ e.1 e.2 :=
    (convex_openSegment e.1 e.2).segment_subset hP hQ
  have hCompact : IsCompact (segment ℝ p q) := by
    rw [← convexHull_pair (𝕜 := ℝ)]
    exact (Set.toFinite _).isCompact_convexHull ℝ
  -- Close to the stretch between the points no other edge is met.
  have hTube :
      ∀ᶠ t in 𝓝 (0 : ℝ), ∀ x ∈ segment ℝ p q,
        beside e.1 e.2 x t ∉ boundary others := by
    apply hCompact.eventually_forall_of_forall_eventually
    intro x hX
    have hContinuous :
        Continuous fun y : ℝ × ℂ => beside e.1 e.2 y.2 y.1 := by
      unfold beside
      fun_prop
    have hStart : beside e.1 e.2 x 0 ∈ (boundary others)ᶜ := by
      simpa [beside] using hOff x (hBetween hX)
    exact (hContinuous.tendsto (0, x)).eventually
      ((isOpen_compl_boundary _).mem_nhds hStart)
  obtain ⟨d, hD, hTube⟩ := mem_nhdsGT_iff_exists_Ioo_subset.mp
    (nhdsWithin_le_nhds (s := Set.Ioi 0) hTube)
  let strip : Set ℂ :=
    (fun y : ℂ × ℝ => beside e.1 e.2 y.1 y.2) ''
      segment ℝ p q ×ˢ Set.Ioo 0 d
  have hStrip : IsPreconnected strip := by
    apply IsPreconnected.image
    · exact (convex_segment p q).isPreconnected.prod
        isPreconnected_Ioo
    · unfold beside
      fun_prop
  have hClear : strip ⊆ (boundary es)ᶜ := by
    rintro _ ⟨⟨x, t⟩, ⟨hX, hT⟩, rfl⟩ hBoundary
    rcases hCover hBoundary with hOn | hOther
    · have hSide := side_of_mem hEdge hOn
      rw [side_beside hEdge, side_of_mem hEdge
        (openSegment_subset_segment ℝ _ _ (hBetween hX)),
        zero_add] at hSide
      exact hT.1.ne' hSide
    · exact hTube hT x hX hOther
  have hEnds : ∀ x ∈ segment ℝ p q, LeftAt strip e x := by
    intro x hX
    unfold LeftAt
    filter_upwards [Ioo_mem_nhdsGT hD] with t hT
    exact ⟨(x, t), ⟨hX, hT⟩, rfl⟩
  exact LeftAt.transfer hStrip hClear
    (hEnds p (left_mem_segment ℝ p q))
    (hEnds q (right_mem_segment ℝ p q)) hLeft

------------------------------------------------------------
-- Round a Corner
------------------------------------------------------------

/- The points about a corner that are seen within an angle. -/
def sector (v w : ℂ) (r φ : ℝ) : Set ℂ :=
  (fun x : ℝ × ℝ => v + x.1 * exp (x.2 * I) * w) ''
    Set.Ioo 0 r ×ˢ Set.Ioo 0 φ

variable {r φ t : ℝ} {w : ℂ}

theorem isPreconnected_sector :
    IsPreconnected (sector v w r φ) := by
  apply IsPreconnected.image
  · exact isPreconnected_Ioo.prod isPreconnected_Ioo
  · fun_prop

/- Less than a turn does not lead back. -/
theorem exp_turn_ne
    {s θ : ℝ}
    (hR : 0 < r)
    (hS : 0 ≤ s)
    (hLow : 0 < θ)
    (hHigh : θ < 2 * π) :
    (r : ℂ) * exp (θ * I) ≠ s := by
  intro hSame
  have hNorm : r = s := by
    simpa [abs_of_pos hR, abs_of_nonneg hS] using
      congrArg norm hSame
  rw [← hNorm, mul_eq_left₀ (by exact_mod_cast hR.ne'),
    Complex.exp_eq_one_iff] at hSame
  obtain ⟨n, hTurns⟩ := hSame
  have hReal : θ = n * (2 * π) := by
    have hIm := congrArg Complex.im hTurns
    simpa using hIm
  have hPi := Real.two_pi_pos
  rw [hReal] at hLow hHigh
  have hPos : (0 : ℝ) < n := pos_of_mul_pos_left hLow hPi.le
  have hOne : (n : ℝ) < 1 := by
    rwa [mul_lt_iff_lt_one_left hPi] at hHigh
  norm_cast at hPos hOne
  omega

theorem arg_pos_of_im_pos {x : ℂ} (hIm : 0 < x.im) :
    0 < arg x := by
  apply lt_of_le_of_ne (arg_nonneg_iff.mpr hIm.le)
  intro hZero
  exact hIm.ne' (arg_eq_zero_iff.mp hZero.symm).2

/- Near a point of a ray, lengths and angles vary little. -/
theorem eventually_polar
    {s c : ℝ}
    (hPhi : 0 < φ)
    (hS : 0 < s)
    (hShort : s * c < r) :
    ∀ᶠ t : ℝ in 𝓝 0,
      ‖(s + t * I : ℂ)‖ * c < r ∧ |arg (s + t * I)| < φ := by
  have hRay :
      Tendsto (fun t : ℝ => (s + t * I : ℂ)) (𝓝 0) (𝓝 s) := by
    have hContinuous :
        Continuous fun t : ℝ => (s + t * I : ℂ) := by
      fun_prop
    simpa using hContinuous.tendsto 0
  have hNorm := (hRay.norm.mul_const c).eventually_lt_const
    (show ‖(s : ℂ)‖ * c < r by simpa [abs_of_pos hS] using hShort)
  have hSlit : (s : ℂ) ∈ slitPlane := .inl (by simpa using hS)
  have hArg :=
    ((continuousAt_arg hSlit).tendsto.comp hRay).abs.eventually_lt_const
      (show |arg (s : ℂ)| < φ by
        rwa [arg_ofReal_of_nonneg hS.le, abs_zero])
  exact hNorm.and hArg

/- Beside the first ray of a sector. -/
theorem leftAt_sector_first
    (hPhi : 0 < φ)
    {s : ℝ}
    (hS : 0 < s)
    (hShort : s < r) :
    LeftAt (sector v (b - v) r φ) (v, b) (v + s * (b - v)) := by
  have hPolar := eventually_polar (c := 1) hPhi hS
    (by rwa [mul_one])
  unfold LeftAt
  filter_upwards [self_mem_nhdsWithin,
    nhdsWithin_le_nhds hPolar] with t hT hNear
  obtain ⟨hNorm, hArg⟩ := hNear
  have hNe : (s + t * I : ℂ) ≠ 0 := by
    intro hZero
    exact hS.ne' (by simpa using congrArg Complex.re hZero)
  refine ⟨(‖(s + t * I : ℂ)‖, arg (s + t * I)),
    ⟨⟨norm_pos_iff.mpr hNe, by simpa using hNorm⟩, ?_,
      (abs_lt.mp hArg).2⟩, ?_⟩
  · apply arg_pos_of_im_pos
    simpa using hT
  · change v + _ * _ * _ = _
    rw [norm_mul_exp_arg_mul_I, beside]
    ring

/- Beside the last ray of a sector. -/
theorem leftAt_sector_last
    (hPhi : 0 < φ)
    {c : ℝ}
    (hC : 0 < c)
    (hRay : a - v = c * exp (φ * I) * (b - v))
    {s : ℝ}
    (hS : 0 < s)
    (hShort : s * c < r) :
    LeftAt (sector v (b - v) r φ) (a, v) (v + s * (a - v)) := by
  have hPolar :=
    (continuous_neg.tendsto' (0 : ℝ) 0 neg_zero).eventually
      (eventually_polar hPhi hS hShort)
  unfold LeftAt
  filter_upwards [self_mem_nhdsWithin,
    nhdsWithin_le_nhds hPolar] with t hT hNear
  obtain ⟨hNorm, hArg⟩ := hNear
  have hNe : (s + (-t : ℝ) * I : ℂ) ≠ 0 := by
    intro hZero
    exact hS.ne' (by simpa using congrArg Complex.re hZero)
  refine ⟨(‖(s + (-t : ℝ) * I : ℂ)‖ * c,
    φ + arg (s + (-t : ℝ) * I)),
    ⟨⟨mul_pos (norm_pos_iff.mpr hNe) hC, hNorm⟩, ?_, ?_⟩, ?_⟩
  · linarith [(abs_lt.mp hArg).1]
  · have hBehind : arg (s + (-t : ℝ) * I) < 0 := by
      rw [arg_neg_iff]
      simpa using hT
    linarith
  · have hPoint :
        (‖(s + (-t : ℝ) * I : ℂ)‖ : ℂ) *
            exp (arg (s + (-t : ℝ) * I) * I) =
          s + (-t : ℝ) * I :=
      norm_mul_exp_arg_mul_I _
    change v + _ * _ * _ = beside a v _ t
    rw [beside_swap, beside, hRay]
    push_cast at hPoint ⊢
    rw [add_mul, Complex.exp_add]
    linear_combination (c * exp (φ * I) * (b - v)) * hPoint

/- From one edge at a corner a turn leads to the other. -/
theorem exists_turn
    (hA : a ≠ v)
    (hB : b ≠ v)
    (hMeet :
      ∀ x ∈ segment ℝ a v, x ∈ segment ℝ v b → x = v) :
    ∃ φ c : ℝ, 0 < φ ∧ φ < 2 * π ∧ 0 < c ∧
      a - v = c * exp (φ * I) * (b - v) := by
  have hBase : b - v ≠ 0 := sub_ne_zero.mpr hB
  obtain ⟨x, hX⟩ : ∃ x, a - v = x * (b - v) :=
    ⟨(a - v) / (b - v), (div_mul_cancel₀ _ hBase).symm⟩
  have hSlit : -x ∈ slitPlane := by
    rw [mem_slitPlane_iff_not_le_zero]
    intro hLe
    obtain ⟨r, hR, rfl⟩ : ∃ r : ℝ, 0 ≤ r ∧ x = r := by
      refine ⟨x.re, ?_, ?_⟩
      · simpa using (Complex.le_def.mp hLe).1
      · apply Complex.ext
        · simp
        · simpa using (Complex.le_def.mp hLe).2
    have hPos : 0 < r := by
      apply lt_of_le_of_ne hR
      rintro rfl
      exact hA (sub_eq_zero.mp (by simpa using hX))
    -- The shorter edge would lie on the other one.
    have hStep : 0 < min r 1 := lt_min hPos one_pos
    have hSame : v + (min r 1 : ℝ) * (b - v) = v := by
      apply hMeet
      · rw [segment_symm, segment_eq_image']
        refine ⟨min r 1 / r, ⟨by positivity,
          div_le_one_of_le₀ (min_le_left r 1) hR⟩, ?_⟩
        have hNe : (r : ℂ) ≠ 0 := by exact_mod_cast hPos.ne'
        simp only [Complex.real_smul]
        rw [hX, Complex.ofReal_div, ← mul_assoc,
          div_mul_cancel₀ _ hNe]
      · rw [segment_eq_image']
        exact ⟨min r 1, ⟨hStep.le, min_le_right r 1⟩, rfl⟩
    rw [add_eq_left, mul_eq_zero, Complex.ofReal_eq_zero] at hSame
    exact hSame.elim hStep.ne' hBase
  obtain ⟨hArg, hNe⟩ := mem_slitPlane_iff_arg.mp hSlit
  have hHigh : arg (-x) < π := lt_of_le_of_ne (arg_le_pi _) hArg
  refine ⟨arg (-x) + π, ‖-x‖, ?_, ?_, norm_pos_iff.mpr hNe, ?_⟩
  · linarith [neg_pi_lt_arg (-x)]
  · linarith
  · rw [hX]
    have hPoint := norm_mul_exp_arg_mul_I (-x)
    push_cast
    rw [add_mul, Complex.exp_add, Complex.exp_pi_mul_I]
    linear_combination (b - v) * hPoint

/- The angle between two edges holds no points of them. -/
theorem sector_off
    {others : List (ℂ × ℂ)}
    (hB : b ≠ v)
    {c : ℝ}
    (hTurn : φ < 2 * π)
    (hC : 0 < c)
    (hRay : a - v = c * exp (φ * I) * (b - v))
    (hCover :
      boundary es ⊆
        (segment ℝ a v ∪ segment ℝ v b) ∪ boundary others)
    (hBall : Metric.ball v r ⊆ (boundary others)ᶜ) :
    sector v (b - v) (r / ‖b - v‖) φ ⊆ (boundary es)ᶜ := by
  have hBase : b - v ≠ 0 := sub_ne_zero.mpr hB
  rintro _ ⟨⟨k, θ⟩, ⟨⟨hK, hShort⟩, hLow, hHigh⟩, rfl⟩ hBoundary
  rcases hCover hBoundary with (hFirst | hSecond) | hOther
  · rw [segment_symm, segment_eq_image'] at hFirst
    obtain ⟨s, ⟨hS, _⟩, hPoint⟩ := hFirst
    simp only [hRay, Complex.real_smul, add_right_inj] at hPoint
    have hSame :
        (k : ℂ) * exp (((θ - φ + 2 * π : ℝ) : ℂ) * I) =
          ((s * c : ℝ) : ℂ) := by
      have hEnd := mul_right_cancel₀ hBase
        (show s * c * exp (φ * I) * (b - v) =
          k * exp (θ * I) * (b - v) by
            rw [← hPoint]
            ring)
      push_cast
      rw [add_mul, sub_mul, Complex.exp_add, Complex.exp_sub,
        Complex.exp_two_pi_mul_I, mul_one, mul_div_assoc',
        ← hEnd]
      field_simp [Complex.exp_ne_zero]
    exact exp_turn_ne hK (mul_nonneg hS hC.le) (by linarith)
      (by linarith) hSame
  · rw [segment_eq_image'] at hSecond
    obtain ⟨s, ⟨hS, _⟩, hPoint⟩ := hSecond
    simp only [Complex.real_smul, add_right_inj] at hPoint
    exact exp_turn_ne hK hS hLow (hHigh.trans hTurn)
      (mul_right_cancel₀ hBase hPoint).symm
  · refine hBall ?_ hOther
    rw [Metric.mem_ball, dist_eq_norm, add_sub_cancel_left,
      norm_mul, norm_mul, Complex.norm_exp_ofReal_mul_I,
      Complex.norm_real, Real.norm_of_nonneg hK.le, mul_one]
    exact (lt_div_iff₀ (norm_pos_iff.mpr hBase)).mp hShort

theorem exists_short {r c : ℝ} (hR : 0 < r) (hC : 0 < c) :
    ∃ s : ℝ, 0 < s ∧ s < 1 ∧ s * c < r := by
  refine ⟨min (1 / 2) (r / (2 * c)), by positivity, ?_, ?_⟩
  · exact (min_le_left _ _).trans_lt (by norm_num)
  · calc min (1 / 2) (r / (2 * c)) * c
      _ ≤ r / (2 * c) * c := by gcongr; exact min_le_right _ _
      _ < r := by field_simp; linarith

theorem mem_openSegment_of_short
    {s : ℝ}
    (hLow : 0 < s)
    (hHigh : s < 1) :
    v + s * (b - v) ∈ openSegment ℝ v b := by
  rw [openSegment_eq_image']
  exact ⟨s, ⟨hLow, hHigh⟩, by simp⟩

/- The points between two edges at a corner are beside both. -/
theorem exists_corner
    {others : List (ℂ × ℂ)}
    (hA : a ≠ v)
    (hB : b ≠ v)
    (hMeet :
      ∀ x ∈ segment ℝ a v, x ∈ segment ℝ v b → x = v)
    (hCover :
      boundary es ⊆
        (segment ℝ a v ∪ segment ℝ v b) ∪ boundary others)
    (hOff : v ∉ boundary others) :
    ∃ s ⊆ (boundary es)ᶜ, IsPreconnected s ∧
      (∃ p ∈ openSegment ℝ a v, LeftAt s (a, v) p) ∧
      ∃ q ∈ openSegment ℝ v b, LeftAt s (v, b) q := by
  obtain ⟨r, hR, hBall⟩ :=
    Metric.isOpen_iff.mp (isOpen_compl_boundary others) v hOff
  obtain ⟨φ, c, hLow, hTurn, hC, hRay⟩ := exists_turn hA hB hMeet
  have hNorm : 0 < ‖b - v‖ :=
    norm_pos_iff.mpr (sub_ne_zero.mpr hB)
  have hRadius : 0 < r / ‖b - v‖ := div_pos hR hNorm
  obtain ⟨s, hS, hOne, hShort⟩ := exists_short hRadius hC
  obtain ⟨k, hK, hUnit, hNear⟩ := exists_short hRadius one_pos
  rw [mul_one] at hNear
  refine ⟨sector v (b - v) (r / ‖b - v‖) φ,
    sector_off hB hTurn hC hRay hCover hBall,
    isPreconnected_sector,
    ⟨v + s * (a - v), ?_,
      leftAt_sector_last hLow hC hRay hS hShort⟩,
    ⟨v + k * (b - v), mem_openSegment_of_short hK hUnit,
      leftAt_sector_first hLow hK hNear⟩⟩
  rw [openSegment_symm]
  exact mem_openSegment_of_short hS hOne

end Polygon

end Assessment
