import Assessment.Proofs.Shape.Area

/-
  What the angle test says of simple polygons.

  The reference is topological: a point is inside a polygon if
  it is off the edges and connected, off the edges, only with
  points within some distance. In exact arithmetic the test
  finds these points, the vertices, and the points of edges of
  polygons that are listed counterclockwise. It misses points
  of edges of polygons that are listed clockwise.

  Main declarations:
    * `Polygon.IsSimple` and `Polygon.IsInside`
    * `Polygon.contains`, the test in any arithmetic, which
      in doubles is that of `Shape.contains`
    * `Polygon.contains_iff`, for one list of vertices
    * `Polygon.contains_simple`, for all ways to list them
    * `Polygon.clockwise_edge_missed`
-/

------------------------------------------------------------
-- Polygons
------------------------------------------------------------

namespace Assessment

namespace Polygon

open scoped Real

/- Each vertex with the next one, and the last with the first. -/
def edges {α : Type} (vs : List α) : List (α × α) :=
  vs.zip (vs.rotate 1)

/- The vertices of a polygon that does not meet itself. -/
structure IsSimple (vs : List ℂ) : Prop where
  three : 3 ≤ vs.length
  nodup : vs.Nodup
  apart : (edges vs).Pairwise Apart

/- Off the edges, and not connected with points far away. -/
def IsInside (vs : List ℂ) (z : ℂ) : Prop :=
  z ∉ boundary (edges vs) ∧
    Bornology.IsBounded (region (edges vs) z)

variable {α : Type} {vs : List ℂ} {z : ℂ}

theorem steps_eq_zip (l : List α) : steps l = l.zip l.tail := by
  induction l with
  | nil => rfl
  | cons v rest ih =>
      cases rest with
      | nil => rfl
      | cons w rest => rw [steps, ih]; rfl

/- The edges are the steps back to the first vertex. -/
theorem edges_eq_steps (vs : List α) :
    edges vs = steps (vs ++ vs.take 1) := by
  cases vs with
  | nil => rfl
  | cons v rest =>
      have hZip :
          (v :: rest ++ [v]).zip (rest ++ [v] ++ []) =
            (v :: rest).zip (rest ++ [v]) ++ [v].zip [] :=
        List.zip_append (by simp)
      simp only [List.append_nil, List.zip_nil_right] at hZip
      rw [steps_eq_zip, edges]
      simpa using hZip.symm

theorem isChain_steps (l : List α) :
    (steps l).IsChain fun e f => e.2 = f.1 := by
  induction l with
  | nil => exact .nil
  | cons v rest ih =>
      cases rest with
      | nil => exact .nil
      | cons w rest =>
          rw [steps]
          cases rest with
          | nil => exact .singleton _
          | cons x rest => exact .cons_cons rfl ih

/- Successive vertices are related along a chain. -/
theorem rel_of_mem_steps
    {R : α → α → Prop}
    {l : List α}
    (hChain : l.IsChain R)
    {e : α × α}
    (hMem : e ∈ steps l) :
    R e.1 e.2 := by
  induction hChain with
  | nil => simp [steps] at hMem
  | singleton v => simp [steps] at hMem
  | cons_cons hRel hChain ih =>
      rw [steps, List.mem_cons] at hMem
      rcases hMem with rfl | hMem
      · exact hRel
      · exact ih hMem

namespace IsSimple

/- The edges of a simple polygon make a simple closed curve. -/
theorem isCurve (hSimple : IsSimple vs) : IsCurve (edges vs) := by
  have hLength : (vs.rotate 1).length = vs.length :=
    List.length_rotate vs 1
  have hStarts : (edges vs).map Prod.fst = vs :=
    List.map_fst_zip hLength.ge
  have hStops : (edges vs).map Prod.snd = vs.rotate 1 :=
    List.map_snd_zip hLength.le
  refine ⟨?_, ?_, ?_, ?_, ?_, hSimple.apart⟩
  · intro hNone
    have hThree := hSimple.three
    rw [← hStarts, hNone] at hThree
    simp at hThree
  · rw [edges_eq_steps]
    exact isChain_steps _
  · rw [IsCycle, hStarts, hStops]
    exact (List.rotate_perm vs 1).symm
  · have hChain : (vs ++ vs.take 1).IsChain (· ≠ ·) := by
      have hThree := hSimple.three
      have hNodup := hSimple.nodup
      match vs, hThree, hNodup with
      | v :: w :: rest, _, hNodup =>
          refine List.isChain_append.mpr
            ⟨hNodup.isChain, .singleton v, ?_⟩
          intro x hLast y hFirst
          obtain rfl : v = y := by simpa using hFirst
          rw [List.getLast?_cons_cons] at hLast
          rintro rfl
          exact (List.nodup_cons.mp hNodup).1
            (List.mem_of_getLast? hLast)
    intro e hMem
    rw [edges_eq_steps] at hMem
    exact rel_of_mem_steps hChain hMem
  · rw [hStarts]
    exact hSimple.nodup

end IsSimple

------------------------------------------------------------
-- Triangles
------------------------------------------------------------

variable {a b c : ℂ}

/- Edges at a corner that is no straight one are apart. -/
theorem apart_of_cross (hCorner : cross (a - b) (c - b) ≠ 0) :
    Apart (a, b) (b, c) := by
  intro z hFirst hSecond
  suffices hSame : z = b from ⟨.inr hSame, .inl hSame⟩
  rw [segment_symm, segment_eq_image'] at hFirst
  rw [segment_eq_image'] at hSecond
  obtain ⟨s, _, hPlace⟩ := hFirst
  obtain ⟨t, _, rfl⟩ := hSecond
  have hScaled : t * cross (a - b) (c - b) = 0 := by
    have hParallel : (s : ℂ) * (a - b) = t * (c - b) := by
      simpa using hPlace
    have hRe := congrArg Complex.re hParallel
    have hIm := congrArg Complex.im hParallel
    rw [Complex.re_ofReal_mul, Complex.re_ofReal_mul] at hRe
    rw [Complex.im_ofReal_mul, Complex.im_ofReal_mul] at hIm
    rw [cross]
    linear_combination (a - b).im * hRe - (a - b).re * hIm
  have hZero : t = 0 :=
    (mul_eq_zero.mp hScaled).resolve_right hCorner
  simp [hZero]

/- Every triangle with an area is a simple polygon. -/
theorem isSimple_triangle (hArea : cross (b - a) (c - a) ≠ 0) :
    IsSimple [a, b, c] := by
  have hBack : ∀ {x y : ℂ}, cross x y ≠ 0 → cross y x ≠ 0 := by
    intro x y hCross hZero
    rw [cross] at hCross hZero
    exact hCross (by linarith)
  have hSecond : cross (a - b) (c - b) ≠ 0 :=
    hBack (by rwa [cross_rotate])
  have hThird : cross (b - c) (a - c) ≠ 0 :=
    hBack (by rwa [cross_rotate, cross_rotate])
  have hFirst : cross (c - a) (b - a) ≠ 0 := hBack hArea
  refine ⟨le_rfl, ?_, ?_⟩
  · have hAB : a ≠ b := by
      rintro rfl
      simp [cross] at hArea
    have hBC : b ≠ c := by
      rintro rfl
      simp [cross] at hSecond
    have hCA : a ≠ c := by
      rintro rfl
      simp [cross] at hFirst
    simp [hAB, hBC, hCA]
  · change [(a, b), (b, c), (c, a)].Pairwise Apart
    have hLast : Apart (a, b) (c, a) :=
      Std.Symm.symm _ _ (apart_of_cross hFirst)
    simp [apart_of_cross hSecond, apart_of_cross hThird, hLast]

------------------------------------------------------------
-- The Test
------------------------------------------------------------

/- A vertex, in some arithmetic. -/
def point (α : Type) [Measure α] (v : Int64 × Int64) : Point α :=
  ⟨Measure.ofInt v.1.toInt, Measure.ofInt v.2.toInt⟩

/- A vertex in the plane. -/
noncomputable def corner (v : Int64 × Int64) : ℂ :=
  (point ℝ v).complex

theorem corner_eq (v : Int64 × Int64) :
    corner v = ⟨v.1.toInt, v.2.toInt⟩ :=
  rfl

/- A list of vertices as the coordinates of a polygon. -/
def coordinates (vs : List (Int64 × Int64)) : List Int64 :=
  vs.flatMap fun v => [v.1, v.2]

/- Whether a point lies in a polygon, in some arithmetic. -/
def contains (α : Type) [Measure α] (coords : List Int64)
    (q : Int64 × Int64) : Bool :=
  6 ≤ coords.length && coords.length % 2 == 0 &&
    inside coords (point α q)

/- In doubles this is the test for polygons. -/
theorem contains_float (coords : List Int64) (q : Int64 × Int64) :
    Shape.poly.contains coords q.1 q.2 =
      contains Float coords q :=
  rfl

variable {ps : List (Int64 × Int64)} {q : Int64 × Int64}

theorem length_coordinates (ps : List (Int64 × Int64)) :
    (coordinates ps).length = 2 * ps.length := by
  induction ps with
  | nil => rfl
  | cons v rest ih =>
      simp only [coordinates, List.flatMap_cons, List.length_append,
        List.length_cons, List.length_nil] at ih ⊢
      omega

theorem vertices_coordinates
    [Measure α]
    (ps : List (Int64 × Int64)) :
    vertices (coordinates ps) = ps.map (point α) := by
  induction ps with
  | nil => rfl
  | cons v rest ih =>
      rw [List.map_cons, ← ih]
      rfl

/- From three vertices on, the sum of the angles decides. -/
theorem contains_eq_inside
    (hThree : 3 ≤ ps.length) :
    contains ℝ (coordinates ps) q =
      inside (coordinates ps) (point ℝ q) := by
  have hLength := length_coordinates ps
  rw [contains, hLength]
  have hSix : 6 ≤ 2 * ps.length := by omega
  simp [hSix]

theorem corner_injective : Function.Injective corner := by
  intro v w hSame
  have hX := congrArg Complex.re hSame
  have hY := congrArg Complex.im hSame
  change ((v.1.toInt : ℤ) : ℝ) = (w.1.toInt : ℤ) at hX
  change ((v.2.toInt : ℤ) : ℝ) = (w.2.toInt : ℤ) at hY
  exact Prod.ext (Int64.toInt_inj.mp (Int.cast_injective hX))
    (Int64.toInt_inj.mp (Int.cast_injective hY))

theorem point_injective : Function.Injective (point ℝ) :=
  fun _ _ hSame => corner_injective (congrArg Point.complex hSame)

/- Open and closed lists are closed in the same way. -/
theorem close_of_simple
    (hThree : 3 ≤ ps.length)
    (hNodup : ps.Nodup)
    {ws : List (Int64 × Int64)}
    (hWritten : ws = ps ∨ ws = ps ++ ps.take 1) :
    close (ws.map (point ℝ)) =
      (ps ++ ps.take 1).map (point ℝ) := by
  match ps, hThree, hNodup with
  | v :: w :: rest, _, hNodup =>
      rcases hWritten with rfl | rfl
      · obtain ⟨last, hLast⟩ : ∃ last,
            (w :: rest).getLast? = some last :=
          ⟨_, List.getLast?_eq_some_getLast (by simp)⟩
        have hOther : ¬ (point ℝ v).same (point ℝ last) = true := by
          rw [Point.same_iff]
          intro hSame
          rw [point_injective hSame] at hNodup
          exact (List.nodup_cons.mp hNodup).1
            (List.mem_of_getLast? hLast)
        rw [close, List.head?_map, List.getLast?_map,
          List.getLast?_cons_cons, hLast]
        simp [hOther]
      · have hSame : (point ℝ v).same (point ℝ v) = true :=
          Point.same_iff.mpr rfl
        change close ((v :: w :: rest ++ [v]).map (point ℝ)) = _
        rw [close, List.head?_map, List.getLast?_map,
          List.getLast?_concat]
        simp [hSame]

/- Whole turns are found, whatever the tolerance. -/
theorem tolerance_iff
    {t : ℝ}
    (hTurns : ∃ n : ℤ, t = n * (2 * π)) :
    (Measure.isLe ((Measure.ofInt 5 : ℝ) / Measure.ofInt 10000000)
        (Measure.ofInt 0 + t * (180 / π)) ||
      Measure.isLe (Measure.ofInt 0 + t * (180 / π))
        (-((Measure.ofInt 5 : ℝ) / Measure.ofInt 10000000))) =
        true ↔
      t ≠ 0 := by
  obtain ⟨n, rfl⟩ := hTurns
  have hDegrees :
      (Measure.ofInt 0 : ℝ) + n * (2 * π) * (180 / π) =
        360 * n := by
    change ((0 : ℤ) : ℝ) + _ = _
    have hPi := Real.pi_ne_zero
    field_simp
    push_cast
    ring
  have hTolerance :
      (Measure.ofInt 5 : ℝ) / Measure.ofInt 10000000 =
        5 / 10000000 := by
    change ((5 : ℤ) : ℝ) / ((10000000 : ℤ) : ℝ) = _
    norm_num
  rw [hDegrees, hTolerance, Bool.or_eq_true, isLe_iff, isLe_iff,
    mul_ne_zero_iff_right Real.two_pi_pos.ne', Int.cast_ne_zero]
  constructor
  · rintro hFound rfl
    norm_num at hFound
  · intro hNe
    rcases lt_or_gt_of_ne hNe with hNeg | hPos
    · right
      have hLe : (n : ℝ) ≤ -1 := by
        exact_mod_cast (by omega : n ≤ -1)
      linarith
    · left
      have hLe : (1 : ℝ) ≤ n := by
        exact_mod_cast hPos
      linarith

------------------------------------------------------------
-- What the Test Finds
------------------------------------------------------------

theorem map_corner (ps : List (Int64 × Int64)) :
    (ps.map (point ℝ)).map Point.complex = ps.map corner := by
  rw [List.map_map]
  rfl

/- The ends of an edge are vertices. -/
theorem mem_of_mem_edges
    {e : ℂ × ℂ}
    (hE : e ∈ edges vs) :
    e.1 ∈ vs ∧ e.2 ∈ vs := by
  obtain ⟨hFirst, hSecond⟩ := List.of_mem_zip hE
  exact ⟨hFirst, List.mem_rotate.mp hSecond⟩

/- On edges, the way round tells whether turns are seen. -/
theorem turning_of_mem_boundary
    (hSimple : IsSimple vs)
    (hOther : z ∉ vs)
    (hOn : z ∈ boundary (edges vs)) :
    0 < signedArea (edges vs) ∧ turning z (edges vs) = 2 * π ∨
      signedArea (edges vs) < 0 ∧ turning z (edges vs) = 0 := by
  obtain ⟨e, hE, hSegment⟩ := hOn
  obtain ⟨hFirst, hSecond⟩ := mem_of_mem_edges hE
  rw [← insert_endpoints_openSegment] at hSegment
  rcases hSegment with rfl | rfl | hInner
  · exact absurd hFirst hOther
  · exact absurd hSecond hOther
  · exact hSimple.isCurve.turning_of_signedArea hE hInner

/- Everywhere but at the vertices whole turns are seen. -/
theorem exists_turns_of_notMem
    (hSimple : IsSimple vs)
    (hOther : z ∉ vs) :
    ∃ n : ℤ, turning z (edges vs) = n * (2 * π) := by
  by_cases hOn : z ∈ boundary (edges vs)
  · rcases turning_of_mem_boundary hSimple hOther hOn with
      ⟨_, hTurn⟩ | ⟨_, hTurn⟩
    · exact ⟨1, by rw [hTurn, Int.cast_one, one_mul]⟩
    · exact ⟨0, by rw [hTurn, Int.cast_zero, zero_mul]⟩
  · exact exists_turns hSimple.isCurve.cycle hOn

/- The test finds the vertices and the points that see turns. -/
theorem contains_iff_turning
    (hSimple : IsSimple (ps.map corner))
    {ws : List (Int64 × Int64)}
    (hWritten : ws = ps ∨ ws = ps ++ ps.take 1) :
    contains ℝ (coordinates ws) q = true ↔
      q ∈ ps ∨ turning (corner q) (edges (ps.map corner)) ≠ 0 := by
  have hThree : 3 ≤ ps.length := by
    simpa using hSimple.three
  have hEnough : 3 ≤ ws.length := by
    rcases hWritten with rfl | rfl
    · exact hThree
    · exact hThree.trans (by simp)
  rw [contains_eq_inside hEnough, inside, vertices_coordinates,
    close_of_simple hThree hSimple.nodup.of_map hWritten]
  by_cases hVertex : q ∈ ps
  · have hMem :
        point ℝ q ∈ (ps ++ ps.take 1).map (point ℝ) :=
      List.mem_map_of_mem (List.mem_append_left _ hVertex)
    match ps, hThree with
    | v :: w :: rest, _ =>
        have hNone :
            angleSum (point ℝ q) (Measure.ofInt 0)
              ((v :: w :: rest ++ List.take 1 (v :: w :: rest)).map
                (point ℝ)) = none :=
          angleSum_of_mem hMem _
        rw [hNone]
        simp [hVertex]
  · have hOther : q ∉ ps ++ ps.take 1 := by
      rw [List.mem_append, not_or]
      exact ⟨hVertex, fun hMem => hVertex (List.mem_of_mem_take hMem)⟩
    have hPoint : point ℝ q ∉ (ps ++ ps.take 1).map (point ℝ) := by
      rwa [List.mem_map_of_injective point_injective]
    have hCorner : corner q ∉ ps.map corner := by
      rwa [List.mem_map_of_injective corner_injective]
    have hEdges :
        steps (((ps ++ ps.take 1).map (point ℝ)).map
          Point.complex) = edges (ps.map corner) := by
      rw [map_corner, List.map_append, List.map_take,
        edges_eq_steps]
    rw [angleSum_of_notMem hPoint, hEdges]
    simp only [hVertex, false_or]
    exact tolerance_iff (exists_turns_of_notMem hSimple hCorner)

/-
  What the test finds: the inside and the vertices, and the
  edges of polygons that are listed counterclockwise.
-/
theorem contains_iff
    (hSimple : IsSimple (ps.map corner))
    {ws : List (Int64 × Int64)}
    (hWritten : ws = ps ∨ ws = ps ++ ps.take 1) :
    contains ℝ (coordinates ws) q = true ↔
      IsInside (ps.map corner) (corner q) ∨ q ∈ ps ∨
        corner q ∈ boundary (edges (ps.map corner)) ∧
          0 < signedArea (edges (ps.map corner)) := by
  rw [contains_iff_turning hSimple hWritten]
  by_cases hVertex : q ∈ ps
  · simp [hVertex]
  · have hCorner : corner q ∉ ps.map corner := by
      rwa [List.mem_map_of_injective corner_injective]
    simp only [hVertex, false_or]
    by_cases hOn : corner q ∈ boundary (edges (ps.map corner))
    · simp only [IsInside, hOn, not_true, false_and, true_and,
        false_or]
      rcases turning_of_mem_boundary hSimple hCorner hOn with
        ⟨hArea, hTurn⟩ | ⟨hArea, hTurn⟩
      · simp [hArea, hTurn, Real.pi_ne_zero]
      · simp [hArea.not_gt, hTurn]
    · simp only [IsInside, hOn, not_false_eq_true, true_and,
        false_and, or_false]
      exact (hSimple.isCurve.isBounded_iff hOn).symm

------------------------------------------------------------
-- Ways to List the Vertices
------------------------------------------------------------

/- Nothing depends on the vertex that is listed first. -/
theorem edges_rotate (vs : List α) (n : ℕ) :
    (edges (vs.rotate n)).Perm (edges vs) := by
  have hRotate : edges (vs.rotate n) = (edges vs).rotate n := by
    have hDistrib := List.zipWith_rotate_distrib Prod.mk vs
      (vs.rotate 1) n (by simp)
    rw [List.rotate_rotate, add_comm 1 n, ← List.rotate_rotate] at hDistrib
    exact hDistrib.symm
  rw [hRotate]
  exact List.rotate_perm _ _

/- Listed backwards, the edges lead back. -/
theorem edges_reverse (vs : List α) :
    (edges vs.reverse).Perm ((edges vs).map Prod.swap) := by
  have hBack : (vs.rotate 1).reverse.rotate 1 = vs.reverse := by
    cases vs with
    | nil => rfl
    | cons v rest => simp
  have hSwap :
      (edges vs).map Prod.swap = (vs.rotate 1).zip vs :=
    List.zip_swap _ _
  have hReverse :=
    List.reverse_zipWith (f := Prod.mk) (List.length_rotate vs 1)
  have hRotate := List.zipWith_rotate_distrib Prod.mk
    (vs.rotate 1).reverse vs.reverse 1 (by simp)
  rw [hBack, ← hReverse] at hRotate
  have hEdges :
      edges vs.reverse = ((vs.rotate 1).zip vs).reverse.rotate 1 :=
    hRotate.symm
  rw [hEdges, hSwap]
  exact (List.rotate_perm _ _).trans (List.reverse_perm _)

variable {es fs : List (ℂ × ℂ)}

theorem boundary_of_perm (hPerm : es.Perm fs) :
    boundary es = boundary fs :=
  (boundary_mono hPerm.subset).antisymm
    (boundary_mono hPerm.symm.subset)

theorem signedArea_of_perm (hPerm : es.Perm fs) :
    signedArea es = signedArea fs := by
  unfold signedArea
  rw [(hPerm.map _).sum_eq]

/- Edges that lead back have the same points. -/
theorem boundary_swap (es : List (ℂ × ℂ)) :
    boundary (es.map Prod.swap) = boundary es := by
  ext z
  constructor
  · rintro ⟨e, hMem, hOn⟩
    obtain ⟨f, hF, rfl⟩ := List.mem_map.mp hMem
    exact ⟨f, hF, by rwa [segment_symm] at hOn⟩
  · rintro ⟨e, hE, hOn⟩
    exact ⟨e.swap, List.mem_map_of_mem hE,
      by rwa [segment_symm] at hOn⟩

/- They have the area on the other side. -/
theorem signedArea_swap (es : List (ℂ × ℂ)) :
    signedArea (es.map Prod.swap) = -signedArea es := by
  unfold signedArea
  rw [List.map_map, ← mul_neg]
  congr 1
  induction es with
  | nil => simp
  | cons e es ih =>
      simp only [List.map_cons, List.sum_cons, ih, neg_add]
      congr 1
      simp only [Function.comp_apply, Prod.fst_swap, Prod.snd_swap,
        cross]
      ring

theorem apart_swap {e f : ℂ × ℂ} (hApart : Apart e f) :
    Apart e.swap f.swap := by
  intro z hE hF
  rw [Prod.fst_swap, Prod.snd_swap, segment_symm] at hE hF
  obtain ⟨hEndsE, hEndsF⟩ := hApart z hE hF
  exact ⟨hEndsE.symm, hEndsF.symm⟩

theorem IsSimple.rotate (hSimple : IsSimple vs) (n : ℕ) :
    IsSimple (vs.rotate n) where
  three := by
    rw [List.length_rotate]
    exact hSimple.three
  nodup := List.nodup_rotate.mpr hSimple.nodup
  apart := (edges_rotate vs n).symm.pairwise hSimple.apart
    fun hApart => Std.Symm.symm _ _ hApart

theorem IsSimple.reverse (hSimple : IsSimple vs) :
    IsSimple vs.reverse where
  three := by
    rw [List.length_reverse]
    exact hSimple.three
  nodup := List.nodup_reverse.mpr hSimple.nodup
  apart := by
    apply (edges_reverse vs).symm.pairwise _
      fun hApart => Std.Symm.symm _ _ hApart
    rw [List.pairwise_map]
    exact hSimple.apart.imp apart_swap

/- The inside depends on the points of the edges only. -/
theorem isInside_of_boundary
    {us : List ℂ}
    (hSame : boundary (edges us) = boundary (edges vs)) :
    IsInside us z ↔ IsInside vs z := by
  unfold IsInside region
  rw [hSame]

/- A simple polygon goes round one way or the other. -/
theorem IsSimple.signedArea_cases (hSimple : IsSimple vs) :
    0 < signedArea (edges vs) ∨ signedArea (edges vs) < 0 := by
  have hCurve := hSimple.isCurve
  obtain ⟨e, hE⟩ := List.exists_mem_of_ne_nil _ hCurve.nonempty
  exact (hCurve.turning_of_signedArea hE
    (midpoint_mem_openSegment e.1 e.2)).imp And.left And.left

/- The corners of a triangle and the middle of its longest edge. -/
theorem corner_small :
    corner (0, 0) = 0 ∧ corner (2, 0) = 2 ∧
      corner (0, 2) = ⟨0, 2⟩ ∧ corner (1, 1) = ⟨1, 1⟩ := by
  have hZero : (0 : Int64).toInt = 0 := rfl
  have hOne : (1 : Int64).toInt = 1 := rfl
  have hTwo : (2 : Int64).toInt = 2 := rfl
  refine ⟨?_, ?_, ?_, ?_⟩ <;> apply Complex.ext <;>
    simp [corner_eq, hZero, hOne, hTwo]

theorem middle_mem :
    corner (1, 1) ∈ segment ℝ (corner (2, 0)) (corner (0, 2)) := by
  obtain ⟨-, hTwo, hUp, hMiddle⟩ := corner_small
  rw [hTwo, hUp, hMiddle, segment_eq_image']
  refine ⟨1 / 2, by norm_num, ?_⟩
  apply Complex.ext <;> norm_num

/-
  The test in exact arithmetic, for simple polygons. Whether
  the list is closed and which vertex comes first makes no
  difference. Listed backwards, the polygon has the same
  points but for its edges: apart from the vertices, these
  belong to the one that is listed counterclockwise.
-/
theorem contains_simple
    (hSimple : IsSimple (ps.map corner))
    (q : Int64 × Int64) :
    (∀ ws, ws = ps ∨ ws = ps ++ ps.take 1 →
      (contains ℝ (coordinates ws) q = true ↔
        IsInside (ps.map corner) (corner q) ∨ q ∈ ps ∨
          corner q ∈ boundary (edges (ps.map corner)) ∧
            0 < signedArea (edges (ps.map corner)))) ∧
    (∀ n, contains ℝ (coordinates (ps.rotate n)) q =
      contains ℝ (coordinates ps) q) ∧
    (contains ℝ (coordinates ps.reverse) q =
        contains ℝ (coordinates ps) q ↔
      q ∈ ps ∨ corner q ∉ boundary (edges (ps.map corner))) := by
  have hListed := contains_iff (q := q) hSimple (.inl rfl)
  refine ⟨fun ws hWritten => contains_iff hSimple hWritten, ?_, ?_⟩
  · intro n
    have hRotated := hSimple.rotate n
    rw [← List.map_rotate] at hRotated
    have hEdges := edges_rotate (ps.map corner) n
    rw [← List.map_rotate] at hEdges
    have hBoundary := boundary_of_perm hEdges
    rw [Bool.eq_iff_iff, contains_iff hRotated (.inl rfl), hListed,
      isInside_of_boundary hBoundary, hBoundary,
      signedArea_of_perm hEdges, List.mem_rotate]
  · have hReversed := hSimple.reverse
    rw [← List.map_reverse] at hReversed
    have hEdges := edges_reverse (ps.map corner)
    rw [← List.map_reverse] at hEdges
    have hBoundary := (boundary_of_perm hEdges).trans
      (boundary_swap _)
    have hArea := (signedArea_of_perm hEdges).trans
      (signedArea_swap _)
    rw [Bool.eq_iff_iff, contains_iff hReversed (.inl rfl), hListed,
      isInside_of_boundary hBoundary, hBoundary, hArea,
      List.mem_reverse]
    by_cases hVertex : q ∈ ps
    · simp [hVertex]
    · by_cases hOn : corner q ∈ boundary (edges (ps.map corner))
      · rcases hSimple.signedArea_cases with hPos | hNeg
        · simp [IsInside, hVertex, hOn, hPos, hPos.le]
        · simp [IsInside, hVertex, hOn, hNeg, hNeg.le]
      · simp [hVertex, hOn]

/- A point on the edge of a triangle listed counterclockwise. -/
theorem contains_simple_counterclockwise :
    IsSimple ([(0, 0), (2, 0), (0, 2)].map corner) ∧
      contains ℝ [0, 0, 2, 0, 0, 2] (1, 1) = true := by
  obtain ⟨hZero, hTwo, hUp, -⟩ := corner_small
  have hSimple : IsSimple ([(0, 0), (2, 0), (0, 2)].map corner) :=
    isSimple_triangle (by norm_num [cross, hZero, hTwo, hUp])
  have hOn : corner (1, 1) ∈
      boundary (edges ([(0, 0), (2, 0), (0, 2)].map corner)) :=
    ⟨(corner (2, 0), corner (0, 2)), by simp [edges], middle_mem⟩
  have hArea :
      0 < signedArea
        (edges ([(0, 0), (2, 0), (0, 2)].map corner)) := by
    norm_num [signedArea, edges, cross, hZero, hTwo, hUp]
  exact ⟨hSimple, ((contains_simple hSimple (1, 1)).1 _
    (.inl rfl)).mpr (.inr (.inr ⟨hOn, hArea⟩))⟩

/-
  A triangle that is listed clockwise does not contain the
  middle of its longest edge.
-/
theorem clockwise_edge_missed :
    IsSimple ([(0, 0), (0, 2), (2, 0)].map corner) ∧
      corner (1, 1) ∈
        boundary (edges ([(0, 0), (0, 2), (2, 0)].map corner)) ∧
      contains ℝ [0, 0, 0, 2, 2, 0] (1, 1) = false := by
  obtain ⟨hZero, hTwo, hUp, -⟩ := corner_small
  have hSimple : IsSimple ([(0, 0), (0, 2), (2, 0)].map corner) :=
    isSimple_triangle (by norm_num [cross, hZero, hTwo, hUp])
  have hOn : corner (1, 1) ∈
      boundary (edges ([(0, 0), (0, 2), (2, 0)].map corner)) :=
    ⟨(corner (0, 2), corner (2, 0)), by simp [edges],
      (segment_symm ℝ (corner (2, 0)) _) ▸ middle_mem⟩
  have hArea :
      signedArea (edges ([(0, 0), (0, 2), (2, 0)].map corner)) <
        0 := by
    norm_num [signedArea, edges, cross, hZero, hTwo, hUp]
  refine ⟨hSimple, hOn, ?_⟩
  rw [Bool.eq_false_iff]
  intro hFound
  rcases (contains_iff hSimple (.inl rfl)).mp hFound with
    hInside | hVertex | ⟨_, hPos⟩
  · exact hInside.1 hOn
  · exact absurd hVertex (by decide)
  · exact lt_asymm hArea hPos

end Polygon

end Assessment
