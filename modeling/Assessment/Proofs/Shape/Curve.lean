import Assessment.Proofs.Shape.Sides

/-
  The two sides of a simple closed curve of edges.

  The ends of the edges do not separate the plane, so a region
  off the curve comes close to an inner point of some edge. It
  is on the left of that edge or on its right, and on the same
  side of the edges that follow.

  Main declarations:
    * `Polygon.IsCurve`
    * `Polygon.IsCurve.exists_near`
    * `Polygon.IsCurve.isLeft_next`, from edge to edge
    * `Polygon.IsCurve.exists_side`, all edges
-/

------------------------------------------------------------
-- Simple Closed Curves
------------------------------------------------------------

namespace Assessment

namespace Polygon

open Complex Filter Topology
open scoped Real

variable {es : List (ℂ × ℂ)} {e f : ℂ × ℂ} {z p : ℂ}

/- Edges have no points in common but their ends. -/
def Apart (e f : ℂ × ℂ) : Prop :=
  ∀ z ∈ segment ℝ e.1 e.2, z ∈ segment ℝ f.1 f.2 →
    (z = e.1 ∨ z = e.2) ∧ (z = f.1 ∨ z = f.2)

instance : Std.Symm Apart where
  symm _ _ hApart z hE hF := (hApart z hF hE).symm

/- Edges that lead round once, without meeting again. -/
structure IsCurve (es : List (ℂ × ℂ)) : Prop where
  nonempty : es ≠ []
  chain : es.IsChain fun e f => e.2 = f.1
  cycle : IsCycle es
  proper : ∀ e ∈ es, e.1 ≠ e.2
  starts : (es.map Prod.fst).Nodup
  apart : es.Pairwise Apart

namespace IsCurve

theorem stops (hCurve : IsCurve es) :
    (es.map Prod.snd).Nodup :=
  hCurve.cycle.nodup_iff.mp hCurve.starts

/- The ends of an edge are no inner points of it. -/
theorem ne_of_mem_openSegment
    (hEdge : a ≠ b)
    (hOn : p ∈ openSegment ℝ a b) :
    p ≠ a ∧ p ≠ b := by
  constructor
  · rintro rfl
    exact hEdge (left_mem_openSegment_iff.mp hOn)
  · rintro rfl
    exact hEdge (right_mem_openSegment_iff.mp hOn)

/- An inner point of an edge is on no other one. -/
theorem eq_of_mem
    (hCurve : IsCurve es)
    (hE : e ∈ es)
    (hF : f ∈ es)
    (hInner : p ∈ openSegment ℝ e.1 e.2)
    (hOn : p ∈ segment ℝ f.1 f.2) :
    e = f := by
  by_contra hOther
  have hEnds := (hCurve.apart.forall hE hF hOther p
    (openSegment_subset_segment ℝ _ _ hInner) hOn).1
  obtain ⟨hStart, hStop⟩ :=
    ne_of_mem_openSegment (hCurve.proper e hE) hInner
  exact hEnds.elim hStart hStop

theorem nodup (hCurve : IsCurve es) : es.Nodup :=
  hCurve.starts.of_map _

theorem notMem_erase
    (hCurve : IsCurve es)
    (hE : e ∈ es)
    (hInner : p ∈ openSegment ℝ e.1 e.2) :
    p ∉ boundary (es.erase e) := by
  rintro ⟨f, hMem, hOn⟩
  obtain ⟨hOther, hF⟩ := hCurve.nodup.mem_erase_iff.mp hMem
  exact hOther (hCurve.eq_of_mem hE hF hInner hOn).symm

/- The other edges of the curve are off an edge. -/
theorem exists_others
    (hCurve : IsCurve es)
    (hMem : e ∈ es ∨ e.swap ∈ es) :
    e.1 ≠ e.2 ∧ ∃ others,
      boundary es ⊆ segment ℝ e.1 e.2 ∪ boundary others ∧
      ∀ x ∈ openSegment ℝ e.1 e.2, x ∉ boundary others := by
  have hCover : ∀ f,
      boundary es ⊆ segment ℝ f.1 f.2 ∪ boundary (es.erase f) := by
    rintro f x ⟨g, hG, hOn⟩
    by_cases hSame : g = f
    · exact .inl (hSame ▸ hOn)
    · exact .inr ⟨g, (List.mem_erase_of_ne hSame).mpr hG, hOn⟩
  rcases hMem with hMem | hMem
  · exact ⟨hCurve.proper e hMem, es.erase e, hCover e,
      fun x => hCurve.notMem_erase hMem⟩
  · refine ⟨(hCurve.proper _ hMem).symm, es.erase e.swap, ?_, ?_⟩
    · rw [segment_symm]
      exact hCover e.swap
    · intro x hInner
      rw [openSegment_symm] at hInner
      exact hCurve.notMem_erase hMem hInner

/- What an edge has at its left at one point, it has at all. -/
theorem isLeft_of_leftAt
    (hCurve : IsCurve es)
    (hMem : e ∈ es ∨ e.swap ∈ es)
    (hInner : p ∈ openSegment ℝ e.1 e.2)
    (hLeft : LeftAt (region es z) e p) :
    IsLeft (region es z) e := by
  obtain ⟨hEdge, others, hCover, hOff⟩ := hCurve.exists_others hMem
  intro q hQ
  exact hLeft.slide hEdge hCover hOff hInner hQ

------------------------------------------------------------
-- Next to an Edge
------------------------------------------------------------

/- The ends of edges do not separate the plane. -/
theorem isConnected_compl_ends (es : List (ℂ × ℂ)) :
    IsConnected {v | ∃ e ∈ es, v = e.1 ∨ v = e.2}ᶜ := by
  apply Set.Countable.isConnected_compl_of_one_lt_rank
  · rw [Complex.rank_real_complex]
    exact Cardinal.one_lt_two
  · have hEnds :
        {v | ∃ e ∈ es, v = e.1 ∨ v = e.2} =
          ⋃ e ∈ es.toFinset, {e.1, e.2} := by
      ext v
      simp
    rw [hEnds]
    exact (es.toFinset.finite_toSet.biUnion fun e _ =>
      Set.toFinite _).countable

/- A region comes close to an inner point of some edge. -/
theorem exists_near
    (hCurve : IsCurve es)
    (hOff : z ∉ boundary es) :
    ∃ e ∈ es, ∃ p ∈ openSegment ℝ e.1 e.2,
      p ∈ closure (region es z) := by
  by_contra hNone
  push Not at hNone
  have hMem : z ∈ region es z := mem_connectedComponentIn hOff
  -- Otherwise, apart from the ends of edges, it has no border.
  have hClosed :
      closure (region es z) ∩ {v | ∃ e ∈ es, v = e.1 ∨ v = e.2}ᶜ ⊆
        region es z := by
    rintro x ⟨hClosure, hEnd⟩
    have hX : x ∉ boundary es := by
      rintro ⟨e, hE, hOn⟩
      rw [← insert_endpoints_openSegment] at hOn
      rcases hOn with rfl | rfl | hInner
      · exact hEnd ⟨e, hE, .inl rfl⟩
      · exact hEnd ⟨e, hE, .inr rfl⟩
      · exact hNone e hE x hInner hClosure
    have hInsert : IsPreconnected (insert x (region es z)) :=
      isPreconnected_connectedComponentIn.subset_closure
        (Set.subset_insert _ _)
        (Set.insert_subset hClosure subset_closure)
    exact subset_region hInsert
      (Set.insert_subset hX region_off)
      ⟨z, Set.mem_insert_of_mem _ hMem, hMem⟩
      (Set.mem_insert _ _)
  have hStart : z ∉ {v | ∃ e ∈ es, v = e.1 ∨ v = e.2} := by
    rintro ⟨e, hE, hEnd⟩
    obtain ⟨hFirst, hSecond⟩ := ne_of_notMem_boundary hOff hE
    exact hEnd.elim hFirst.symm hSecond.symm
  have hAll :=
    (isConnected_compl_ends es).isPreconnected.subset_of_closure_inter_subset
      isOpen_region ⟨z, hStart, hMem⟩ hClosed
  obtain ⟨e, hE⟩ := List.exists_mem_of_ne_nil es hCurve.nonempty
  obtain ⟨m, hM⟩ : (openSegment ℝ e.1 e.2).Nonempty :=
    ⟨_, midpoint_mem_openSegment ..⟩
  have hInner : m ∉ {v | ∃ e ∈ es, v = e.1 ∨ v = e.2} := by
    rintro ⟨f, hF, hEnd⟩
    have hOn : m ∈ segment ℝ f.1 f.2 := by
      rcases hEnd with rfl | rfl
      · exact left_mem_segment ℝ _ _
      · exact right_mem_segment ℝ _ _
    obtain rfl := hCurve.eq_of_mem hE hF hM hOn
    obtain ⟨hFirst, hSecond⟩ :=
      ne_of_mem_openSegment (hCurve.proper e hE) hM
    exact hEnd.elim hFirst hSecond
  exact region_off (hAll hInner)
    ⟨e, hE, openSegment_subset_segment ℝ _ _ hM⟩

/- A region next to an edge is on one of its sides. -/
theorem isLeft_of_near
    (hCurve : IsCurve es)
    (hE : e ∈ es)
    (hInner : p ∈ openSegment ℝ e.1 e.2)
    (hNear : p ∈ closure (region es z)) :
    IsLeft (region es z) e ∨ IsLeft (region es z) e.swap := by
  obtain ⟨hEdge, others, hCover, hOff⟩ :=
    hCurve.exists_others (.inl hE)
  obtain ⟨s, hLow, hHigh, hPlace⟩ := exists_place hInner
  have hNe : e.2 - e.1 ≠ 0 := sub_ne_zero.mpr hEdge.symm
  -- Points near the inner point are beside the edge or on it.
  have hAlong :
      ∀ᶠ x in 𝓝 p,
        ((x - e.1) / (e.2 - e.1)).re ∈ Set.Ioo (0 : ℝ) 1 := by
    have hContinuous :
        Continuous fun x => ((x - e.1) / (e.2 - e.1)).re := by
      fun_prop
    apply hContinuous.continuousAt.eventually_mem
    apply isOpen_Ioo.mem_nhds
    rw [hPlace, add_sub_cancel_left, mul_div_cancel_right₀ _ hNe]
    exact ⟨hLow, hHigh⟩
  have hAway : ∀ᶠ x in 𝓝 p, x ∉ boundary others :=
    (isOpen_compl_boundary others).mem_nhds (hOff p hInner)
  obtain ⟨r, hR, hBall⟩ :=
    Metric.eventually_nhds_iff_ball.mp (hAlong.and hAway)
  have hLocal :
      ∀ w ∈ Metric.ball p r, w ∈ boundary es →
        w ∈ segment ℝ e.1 e.2 := fun w hW hBoundary =>
    (hCover hBoundary).resolve_right (hBall w hW).2
  obtain ⟨w, hRegion, hW⟩ := Metric.mem_closure_iff.mp hNear r hR
  rw [dist_comm] at hW
  rcases lt_trichotomy (side e.1 e.2 w) 0 with hRight | hOn | hLeft
  · refine .inr (hCurve.isLeft_of_leftAt (.inr hE)
      (by rwa [openSegment_symm] at hInner) ?_)
    apply leftAt_of_near hEdge.symm hR _ _ hW hRegion
    · rw [side_swap hEdge]
      exact neg_pos.mpr hRight
    · rwa [segment_symm] at hLocal
    · rw [segment_symm]
      exact openSegment_subset_segment ℝ _ _ hInner
  · exfalso
    obtain ⟨hFirst, hSecond⟩ := (hBall w hW).1
    refine region_off hRegion ⟨e, hE, ?_⟩
    rw [segment_eq_image']
    refine ⟨_, ⟨hFirst.le, hSecond.le⟩, ?_⟩
    have hReal :
        (((w - e.1) / (e.2 - e.1)).re : ℂ) =
          (w - e.1) / (e.2 - e.1) := by
      apply Complex.ext
      · simp
      · exact hOn.symm
    simp only [Complex.real_smul]
    rw [hReal, div_mul_cancel₀ _ hNe, add_sub_cancel]
  · exact .inl (hCurve.isLeft_of_leftAt (.inl hE) hInner
      (leftAt_of_near hEdge hR hLocal
        (openSegment_subset_segment ℝ _ _ hInner) hW hRegion
        hLeft))

------------------------------------------------------------
-- All Edges
------------------------------------------------------------

/- Successive edges meet at the vertex between them only. -/
theorem eq_of_mem_both
    (hCurve : IsCurve es)
    (hE : e ∈ es)
    (hF : f ∈ es)
    (hNext : e.2 = f.1)
    (hFirst : p ∈ segment ℝ e.1 e.2)
    (hSecond : p ∈ segment ℝ f.1 f.2) :
    p = f.1 := by
  have hOther : e ≠ f := by
    rintro rfl
    exact hCurve.proper e hE hNext.symm
  by_contra hP
  obtain ⟨hEndsE, hEndsF⟩ :=
    hCurve.apart.forall hE hF hOther p hFirst hSecond
  rw [hNext] at hEndsE
  -- Otherwise the second edge would lead back on the first.
  have hBack : e.1 = f.2 :=
    (hEndsE.resolve_right hP).symm.trans (hEndsF.resolve_left hP)
  apply hOther
  apply hCurve.eq_of_mem hE hF
    (midpoint_mem_openSegment e.1 e.2)
  rw [hNext, hBack, segment_symm]
  exact midpoint_mem_segment f.2 f.1

/- Round the vertex between two edges a region stays beside. -/
theorem isLeft_iff_of_corner
    (hCurve : IsCurve es)
    (hE : e ∈ es ∨ e.swap ∈ es)
    (hF : f ∈ es ∨ f.swap ∈ es)
    (hCorner :
      ∃ s ⊆ (boundary es)ᶜ, IsPreconnected s ∧
        (∃ p ∈ openSegment ℝ e.1 e.2, LeftAt s e p) ∧
        ∃ q ∈ openSegment ℝ f.1 f.2, LeftAt s f q) :
    IsLeft (region es z) e ↔ IsLeft (region es z) f := by
  obtain ⟨s, hOff, hConnected, ⟨p, hP, hFirst⟩, q, hQ, hSecond⟩ :=
    hCorner
  constructor
  · intro hLeft
    exact hCurve.isLeft_of_leftAt hF hQ
      (LeftAt.transfer hConnected hOff hFirst hSecond (hLeft p hP))
  · intro hLeft
    exact hCurve.isLeft_of_leftAt hE hP
      (LeftAt.transfer hConnected hOff hSecond hFirst (hLeft q hQ))

/- Successive edges have the same region on each side. -/
theorem isLeft_next
    (hCurve : IsCurve es)
    (hE : e ∈ es)
    (hF : f ∈ es)
    (hNext : e.2 = f.1) :
    (IsLeft (region es z) e ↔ IsLeft (region es z) f) ∧
      (IsLeft (region es z) e.swap ↔
        IsLeft (region es z) f.swap) := by
  have hCover :
      boundary es ⊆
        (segment ℝ e.1 f.1 ∪ segment ℝ f.1 f.2) ∪
          boundary ((es.erase e).erase f) := by
    rintro x ⟨g, hG, hOn⟩
    by_cases hFirst : g = e
    · exact .inl (.inl (by rwa [hFirst, hNext] at hOn))
    by_cases hSecond : g = f
    · exact .inl (.inr (hSecond ▸ hOn))
    · exact .inr ⟨g, (List.mem_erase_of_ne hSecond).mpr
        ((List.mem_erase_of_ne hFirst).mpr hG), hOn⟩
  have hOff : f.1 ∉ boundary ((es.erase e).erase f) := by
    rintro ⟨g, hG, hOn⟩
    rw [(hCurve.nodup.erase e).mem_erase_iff,
      hCurve.nodup.mem_erase_iff] at hG
    obtain ⟨hNotF, hNotE, hMem⟩ := hG
    -- An edge through the vertex would start or end there.
    rcases (hCurve.apart.forall hF hMem (Ne.symm hNotF) _
      (left_mem_segment ℝ _ _) hOn).2 with hStart | hStop
    · exact hNotF (List.inj_on_of_nodup_map hCurve.starts hMem hF
        hStart.symm)
    · exact hNotE (List.inj_on_of_nodup_map hCurve.stops hMem hE
        (hStop.symm.trans hNext.symm))
  have hStart : e.1 ≠ f.1 := hNext ▸ hCurve.proper e hE
  have hStop : f.2 ≠ f.1 := (hCurve.proper f hF).symm
  have hMeet :
      ∀ x ∈ segment ℝ e.1 f.1, x ∈ segment ℝ f.1 f.2 → x = f.1 :=
    fun x hFirst =>
      hCurve.eq_of_mem_both hE hF hNext (hNext ▸ hFirst)
  have hEdge : e = (e.1, f.1) := by rw [← hNext]
  constructor
  · apply hCurve.isLeft_iff_of_corner (.inl hE) (.inl hF)
    rw [hEdge]
    exact exists_corner hStart hStop hMeet hCover hOff
  · symm
    apply hCurve.isLeft_iff_of_corner
      (.inr (f.swap_swap.symm ▸ hF)) (.inr (e.swap_swap.symm ▸ hE))
    rw [hEdge]
    apply exists_corner hStop hStart _ _ hOff
    · intro x hFirst hSecond
      rw [segment_symm] at hFirst hSecond
      exact hMeet x hSecond hFirst
    · rwa [segment_symm ℝ f.2, segment_symm ℝ f.1 e.1,
        Set.union_comm (segment ℝ f.1 f.2)]

/- What holds of successive edges alike holds of all alike. -/
theorem iff_of_chain
    {P : ℂ × ℂ → Prop}
    (hCurve : IsCurve es)
    (hNext :
      ∀ {e f}, e ∈ es → f ∈ es → e.2 = f.1 → (P e ↔ P f))
    (hE : e ∈ es)
    (hF : f ∈ es) :
    P e ↔ P f := by
  let alike : ℂ × ℂ → ℂ × ℂ → Prop := fun e f => P e ↔ P f
  have hChain : es.IsChain alike :=
    hCurve.chain.imp_of_mem_imp fun _ _ hE hF => hNext hE hF
  have : IsTrans (ℂ × ℂ) alike := ⟨fun _ _ _ => Iff.trans⟩
  have : Std.Symm alike := ⟨fun _ _ => Iff.symm⟩
  exact List.Pairwise.forall_of_forall (R := alike)
    (fun _ _ => Iff.rfl) (List.isChain_iff_pairwise.mp hChain) hE hF

/- A region lies at the left of all edges, or at their right. -/
theorem exists_side
    (hCurve : IsCurve es)
    (hOff : z ∉ boundary es) :
    (∀ e ∈ es, IsLeft (region es z) e) ∨
      ∀ e ∈ es, IsLeft (region es z) e.swap := by
  obtain ⟨e, hE, p, hInner, hNear⟩ := hCurve.exists_near hOff
  apply (hCurve.isLeft_of_near hE hInner hNear).imp
  · intro hLeft f hF
    exact (hCurve.iff_of_chain
      (fun hE hF hNext => (hCurve.isLeft_next hE hF hNext).1)
      hE hF).mp hLeft
  · intro hRight f hF
    exact (hCurve.iff_of_chain
      (fun hE hF hNext => (hCurve.isLeft_next hE hF hNext).2)
      hE hF).mp hRight

------------------------------------------------------------
-- Inside and Outside
------------------------------------------------------------

/- The ends of edges are within some distance. -/
theorem exists_bound (es : List (ℂ × ℂ)) :
    ∃ r : ℝ, ∀ x ∈ boundary es, ‖x‖ < r := by
  obtain ⟨r, hBound⟩ :=
    (isCompact_boundary es).isBounded.exists_norm_le
  exact ⟨r + 1, fun x hX => (hBound x hX).trans_lt (lt_add_one r)⟩

/- Points of regions that reach far see no turns. -/
theorem turning_of_unbounded
    (hCurve : IsCurve es)
    (hOff : z ∉ boundary es)
    (hUnbounded : ¬ Bornology.IsBounded (region es z)) :
    turning z es = 0 := by
  obtain ⟨r, hBound⟩ := exists_bound es
  obtain ⟨w, hRegion, hFar⟩ : ∃ w ∈ region es z, r ≤ ‖w‖ := by
    by_contra hNone
    push Not at hNone
    apply hUnbounded
    exact isBounded_iff_forall_norm_le.mpr
      ⟨r, fun w hW => (hNone w hW).le⟩
  have hEnds : ∀ e ∈ es, ‖e.1‖ < ‖w‖ ∧ ‖e.2‖ < ‖w‖ :=
    fun e hE =>
      ⟨(hBound _ ⟨e, hE, left_mem_segment ℝ _ _⟩).trans_le hFar,
        (hBound _ ⟨e, hE, right_mem_segment ℝ _ _⟩).trans_le hFar⟩
  rw [← turning_far hCurve.cycle hEnds]
  exact turning_constant hCurve.cycle
    isPreconnected_connectedComponentIn region_off
    (mem_connectedComponentIn hOff) hRegion

/- Some region reaches far. -/
theorem exists_unbounded (es : List (ℂ × ℂ)) :
    ∃ q ∉ boundary es, ¬ Bornology.IsBounded (region es q) := by
  obtain ⟨r, hBound⟩ := exists_bound es
  have hConvex : Convex ℝ {w : ℂ | r < w.re} :=
    convex_halfSpace_re_gt r
  have hOff : {w : ℂ | r < w.re} ⊆ (boundary es)ᶜ :=
    fun w hW hOn =>
      lt_asymm hW ((re_le_norm w).trans_lt (hBound w hOn))
  have hStart : ((r + 1 : ℝ) : ℂ) ∈ {w : ℂ | r < w.re} :=
    lt_add_one r
  refine ⟨(r + 1 : ℝ), hOff hStart, ?_⟩
  intro hBounded
  obtain ⟨c, hNorm⟩ := isBounded_iff_forall_norm_le.mp hBounded
  have hSubset :=
    hConvex.isPreconnected.subset_connectedComponentIn hStart hOff
  have hFar : ((max r c + 1 : ℝ) : ℂ) ∈ {w : ℂ | r < w.re} :=
    (le_max_left r c).trans_lt (lt_add_one _)
  have hLe := (re_le_norm _).trans (hNorm _ (hSubset hFar))
  rw [Complex.ofReal_re] at hLe
  linarith [le_max_right r c]

/- What a region next to an edge sees is the limit there. -/
theorem turning_eq_limit
    (hCurve : IsCurve es)
    (hOff : z ∉ boundary es)
    (hLeft : LeftAt (region es z) e p)
    {turns : ℝ}
    (hLimit :
      Tendsto (fun t => turning (beside e.1 e.2 p t) es) (𝓝[>] 0)
        (𝓝 turns)) :
    turning z es = turns := by
  have hSame :
      ∀ᶠ t in 𝓝[>] 0,
        turning (beside e.1 e.2 p t) es = turning z es := by
    filter_upwards [hLeft] with t hRegion
    exact turning_constant hCurve.cycle
      isPreconnected_connectedComponentIn region_off hRegion
      (mem_connectedComponentIn hOff)
  exact tendsto_nhds_unique
    ((tendsto_congr' hSame).mpr tendsto_const_nhds) hLimit

/- On its left, an edge sees as many turns as its points. -/
theorem turning_of_left
    (hCurve : IsCurve es)
    (hOff : z ∉ boundary es)
    (hE : e ∈ es)
    (hInner : p ∈ openSegment ℝ e.1 e.2)
    (hLeft : IsLeft (region es z) e) :
    turning z es = turning p es :=
  hCurve.turning_eq_limit hOff (hLeft p hInner)
    (tendsto_turning_left hE (hCurve.proper e hE) hInner
      (hCurve.notMem_erase hE hInner))

/- On its right, an edge sees a turn less than its points. -/
theorem turning_of_right
    (hCurve : IsCurve es)
    (hOff : z ∉ boundary es)
    (hE : e ∈ es)
    (hInner : p ∈ openSegment ℝ e.1 e.2)
    (hRight : IsLeft (region es z) e.swap) :
    turning z es = turning p es - 2 * π := by
  have hBack : p ∈ openSegment ℝ e.swap.1 e.swap.2 := by
    rwa [openSegment_symm] at hInner
  exact hCurve.turning_eq_limit hOff (hRight p hBack)
    (tendsto_turning_right hE (hCurve.proper e hE) hInner
      (hCurve.notMem_erase hE hInner))

/- Regions on one side of an edge are the same. -/
theorem region_eq
    {d : ℂ × ℂ}
    {q : ℂ}
    (hZ : IsLeft (region es z) d)
    (hQ : IsLeft (region es q) d) :
    region es z = region es q := by
  have hInner := midpoint_mem_openSegment (𝕜 := ℝ) d.1 d.2
  obtain ⟨t, hFirst, hSecond⟩ :=
    ((hZ _ hInner).and (hQ _ hInner)).exists
  exact (connectedComponentIn_eq hFirst).trans
    (connectedComponentIn_eq hSecond).symm

/-
  Inside there is one turn, to the left or to the right. Inner
  points of edges see that turn if it is to the left.
-/
theorem turning_of_bounded
    (hCurve : IsCurve es)
    (hOff : z ∉ boundary es)
    (hBounded : Bornology.IsBounded (region es z))
    (hE : e ∈ es)
    (hInner : p ∈ openSegment ℝ e.1 e.2) :
    turning z es = 2 * π ∧ turning p es = 2 * π ∨
      turning z es = -(2 * π) ∧ turning p es = 0 := by
  obtain ⟨q, hQ, hUnbounded⟩ := exists_unbounded es
  have hFar := hCurve.turning_of_unbounded hQ hUnbounded
  rcases hCurve.exists_side hOff with hLeft | hRight <;>
    rcases hCurve.exists_side hQ with hFarLeft | hFarRight
  · rw [region_eq (hLeft e hE) (hFarLeft e hE)] at hBounded
    exact absurd hBounded hUnbounded
  · have hZ :=
      hCurve.turning_of_left hOff hE hInner (hLeft e hE)
    have hP :=
      hCurve.turning_of_right hQ hE hInner (hFarRight e hE)
    left
    constructor <;> linarith
  · have hZ :=
      hCurve.turning_of_right hOff hE hInner (hRight e hE)
    have hP :=
      hCurve.turning_of_left hQ hE hInner (hFarLeft e hE)
    right
    constructor <;> linarith
  · rw [region_eq (hRight e hE) (hFarRight e hE)] at hBounded
    exact absurd hBounded hUnbounded

/- The turns tell inside from outside. -/
theorem isBounded_iff
    (hCurve : IsCurve es)
    (hOff : z ∉ boundary es) :
    Bornology.IsBounded (region es z) ↔ turning z es ≠ 0 := by
  constructor
  · intro hBounded
    obtain ⟨e, hE⟩ := List.exists_mem_of_ne_nil es hCurve.nonempty
    rcases hCurve.turning_of_bounded hOff hBounded hE
      (midpoint_mem_openSegment e.1 e.2) with
      ⟨hTurn, _⟩ | ⟨hTurn, _⟩
    · rw [hTurn]
      exact Real.two_pi_pos.ne'
    · rw [hTurn]
      exact neg_ne_zero.mpr Real.two_pi_pos.ne'
  · contrapose!
    exact hCurve.turning_of_unbounded hOff

/- Next to an inner point of an edge no edge is met. -/
theorem leftAt_off
    (hCurve : IsCurve es)
    (hMem : e ∈ es ∨ e.swap ∈ es)
    (hInner : p ∈ openSegment ℝ e.1 e.2) :
    LeftAt (boundary es)ᶜ e p := by
  obtain ⟨hEdge, others, hCover, hOff⟩ := hCurve.exists_others hMem
  have hAway :
      ∀ᶠ t in 𝓝[>] 0, beside e.1 e.2 p t ∈ (boundary others)ᶜ :=
    ((tendsto_beside e.1 e.2 p).mono_left nhdsWithin_le_nhds)
      ((isOpen_compl_boundary others).mem_nhds (hOff p hInner))
  unfold LeftAt
  filter_upwards [hAway, self_mem_nhdsWithin] with t hT hPos hOn
  rcases hCover hOn with hSelf | hOther
  · have hSide := side_of_mem hEdge hSelf
    rw [side_beside hEdge, side_of_mem hEdge
      (openSegment_subset_segment ℝ _ _ hInner), zero_add] at hSide
    exact (ne_of_gt hPos) hSide
  · exact hT hOther

/- Some region does not reach far: turns change at an edge. -/
theorem exists_bounded (hCurve : IsCurve es) :
    ∃ z ∉ boundary es, Bornology.IsBounded (region es z) := by
  by_contra hNone
  push Not at hNone
  obtain ⟨e, hE⟩ := List.exists_mem_of_ne_nil es hCurve.nonempty
  have hInner := midpoint_mem_openSegment (𝕜 := ℝ) e.1 e.2
  have hEdge := hCurve.proper e hE
  have hOff := hCurve.notMem_erase hE hInner
  have hZero : ∀ d : ℂ × ℂ, LeftAt (boundary es)ᶜ d
      (midpoint ℝ e.1 e.2) →
      Tendsto
        (fun t => turning (beside d.1 d.2 (midpoint ℝ e.1 e.2) t) es)
        (𝓝[>] 0) (𝓝 0) := by
    intro d hLeft
    apply tendsto_const_nhds.congr'
    filter_upwards [hLeft] with t hT
    exact (hCurve.turning_of_unbounded hT (hNone _ hT)).symm
  have hLeft := tendsto_nhds_unique
    (hZero e (hCurve.leftAt_off (.inl hE) hInner))
    (tendsto_turning_left hE hEdge hInner hOff)
  have hRight := tendsto_nhds_unique
    (hZero e.swap (hCurve.leftAt_off (.inr hE)
      (by rwa [openSegment_symm] at hInner)))
    (tendsto_turning_right hE hEdge hInner hOff)
  linarith [Real.pi_pos]

end IsCurve

end Polygon

end Assessment
