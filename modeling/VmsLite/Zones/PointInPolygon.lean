import Mathlib.Algebra.Order.Field.Basic
import Mathlib.Algebra.Ring.Parity
import Mathlib.Tactic.Linarith
import Mathlib.Tactic.NormNum
import Mathlib.Tactic.Ring
import VmsLite.Data.ClosedPath
import VmsLite.Zones.MotionZones

/-!
# Points in polygons

`isPointInPolygon` goes around a polygon and toggles a flag at every side that crosses the ray from
the point to the right. Over rational coordinates it never divides by zero, counts the sides that
cross the ray, and does not depend on how the polygon is written down
(`isPointInPolygon_wellDefined`).
-/

set_option autoImplicit false

namespace VmsLite.Zones

open VmsLite.Data

/-! ### The test -/

/-- A quotient, or `none` when the divisor is zero. -/
def divide (dividend divisor : ℚ) : Option ℚ :=
  if divisor = 0 then none else some (dividend / divisor)

/-- Whether the side to a vertex from the one before it toggles the flag. The division comes second,
after the test of the heights. -/
def intersect (point previous vertex : Point) : Option Bool :=
  if decide (point.y < vertex.y) ≠ decide (point.y < previous.y) then
    (divide ((previous.x - vertex.x) * (point.y - vertex.y)) (previous.y - vertex.y)).map
      fun quotient ↦ decide (point.x < quotient + vertex.x)
  else some false

/-- The loop over the vertices, each with the one before it. -/
def castRay (point : Point) (inside : Bool) (previous : Point) : List Point → Option Bool
  | [] => some inside
  | vertex :: rest =>
    (intersect point previous vertex).bind fun crossed ↦
      castRay point (if crossed then !inside else inside) vertex rest

/-- Whether a point is inside a polygon, or `none` where it divides by zero. -/
def isPointInPolygon (point : Point) (polygon : List Point) : Option Bool :=
  if polygon.length < 3 then some false
  else
    match polygon.getLast? with
    | none => some false
    | some last => castRay point false last polygon

/-! ### Segments -/

/-- The point of a segment that divides it in the proportion `along`. -/
def between (start finish : Point) (along : ℚ) : Point where
  x := start.x + along * (finish.x - start.x)
  y := start.y + along * (finish.y - start.y)

def OnSegment (point start finish : Point) : Prop :=
  ∃ along, 0 ≤ along ∧ along ≤ 1 ∧ point = between start finish along

theorem OnSegment.swap {point start finish : Point} (hpoint : OnSegment point start finish) :
    OnSegment point finish start := by
  obtain ⟨along, hnonneg, hle, rfl⟩ := hpoint
  refine ⟨1 - along, by linarith, by linarith, ?_⟩
  unfold between
  congr 1
  · ring
  · ring

/-- A segment between points of a segment is part of it. -/
theorem OnSegment.trans {point vertex start finish : Point} (hpoint : OnSegment point start vertex)
    (hvertex : OnSegment vertex start finish) : OnSegment point start finish := by
  obtain ⟨far, hfar, hfar', rfl⟩ := hvertex
  obtain ⟨along, hnonneg, hle, rfl⟩ := hpoint
  refine ⟨along * far, mul_nonneg hnonneg hfar, mul_le_one₀ hle hfar hfar', ?_⟩
  unfold between
  congr 1
  · ring
  · ring

/-- Points of a segment that is not horizontal are told apart by their heights. -/
theorem OnSegment.eq_of_height {first second start finish : Point}
    (hfirst : OnSegment first start finish) (hsecond : OnSegment second start finish)
    (hslope : start.y ≠ finish.y) (hheight : first.y = second.y) : first = second := by
  obtain ⟨along, -, -, rfl⟩ := hfirst
  obtain ⟨other, -, -, rfl⟩ := hsecond
  have hproduct : along * (finish.y - start.y) = other * (finish.y - start.y) :=
    add_left_cancel hheight
  rw [mul_right_cancel₀ (sub_ne_zero.mpr hslope.symm) hproduct]

/-! ### Crossings -/

/-- One end of a side is above a height and the other one is not. An end at the height counts as
below it. -/
def Straddles (height : ℚ) (start finish : Point) : Prop :=
  height < start.y ↔ ¬ height < finish.y

/-- A side crosses the ray from a point to the right. -/
def Crosses (point start finish : Point) : Prop :=
  Straddles point.y start finish ∧
    ∃ crossing, OnSegment crossing start finish ∧ crossing.y = point.y ∧ point.x < crossing.x

theorem Straddles.swap {height : ℚ} {start finish : Point}
    (hside : Straddles height start finish) : Straddles height finish start := by
  unfold Straddles at hside ⊢
  tauto

theorem Straddles.ne {height : ℚ} {start finish : Point}
    (hside : Straddles height start finish) : start.y ≠ finish.y := by
  intro heq
  unfold Straddles at hside
  rw [heq] at hside
  exact iff_not_self hside

/-- Where a side meets the height of a point, as the loop computes it. -/
theorem onSegment_quotient {height : ℚ} {previous vertex : Point}
    (hside : Straddles height previous vertex) :
    OnSegment
      ⟨(previous.x - vertex.x) * (height - vertex.y) / (previous.y - vertex.y) + vertex.x, height⟩
      previous vertex := by
  have hslope : previous.y - vertex.y ≠ 0 := sub_ne_zero.mpr hside.ne
  apply OnSegment.swap
  refine ⟨(height - vertex.y) / (previous.y - vertex.y), ?_, ?_, ?_⟩
  · by_cases habove : height < vertex.y
    · have hprevious := not_lt.mp fun hlt ↦ (hside.mp hlt) habove
      exact div_nonneg_of_nonpos (by linarith) (by linarith)
    · have hprevious := hside.mpr habove
      exact div_nonneg (by linarith) (by linarith)
  · by_cases habove : height < vertex.y
    · have hprevious := not_lt.mp fun hlt ↦ (hside.mp hlt) habove
      have hneg : previous.y - vertex.y < 0 := by linarith
      rw [div_le_one_of_neg hneg]
      linarith
    · have hprevious := hside.mpr habove
      have hpos : 0 < previous.y - vertex.y := by linarith
      rw [div_le_one hpos]
      linarith
  · unfold between
    congr 1
    · ring
    · rw [div_mul_cancel₀ _ hslope]
      ring

/-- A side that straddles the height crosses the ray when it meets the height right of the point. -/
theorem crosses_iff_of_onSegment {point crossing start finish : Point}
    (hside : Straddles point.y start finish) (hcrossing : OnSegment crossing start finish)
    (hheight : crossing.y = point.y) : Crosses point start finish ↔ point.x < crossing.x := by
  constructor
  · rintro ⟨-, other, hother, hotherHeight, hlt⟩
    rwa [hcrossing.eq_of_height hother hside.ne (hheight.trans hotherHeight.symm)]
  · exact fun hlt ↦ ⟨hside, crossing, hcrossing, hheight, hlt⟩

/-- The test of a side divides by no zero, and finds whether the side crosses the ray. -/
theorem intersect_spec (point previous vertex : Point) :
    ∃ crossed, intersect point previous vertex = some crossed ∧
      (crossed = true ↔ Crosses point previous vertex) := by
  unfold intersect
  by_cases hside : Straddles point.y previous vertex
  · have hslope : previous.y - vertex.y ≠ 0 := sub_ne_zero.mpr hside.ne
    have hends : decide (point.y < vertex.y) ≠ decide (point.y < previous.y) := by
      unfold Straddles at hside
      simp only [ne_eq, decide_eq_decide]
      tauto
    rw [if_pos hends, divide, if_neg hslope, Option.map_some]
    refine ⟨_, rfl, ?_⟩
    rw [decide_eq_true_iff, crosses_iff_of_onSegment hside (onSegment_quotient hside) rfl]
  · have hends : ¬ decide (point.y < vertex.y) ≠ decide (point.y < previous.y) := by
      unfold Straddles at hside
      simp only [ne_eq, decide_eq_decide]
      tauto
    rw [if_neg hends]
    exact ⟨false, rfl, by simp [Crosses, hside]⟩

instance (point start finish : Point) : Decidable (Crosses point start finish) :=
  match hcrossed : intersect point start finish with
  | some true => isTrue (by
      obtain ⟨crossed, hspec, hiff⟩ := intersect_spec point start finish
      rw [hcrossed] at hspec
      exact hiff.mp (Option.some.inj hspec).symm)
  | some false => isFalse (by
      obtain ⟨crossed, hspec, hiff⟩ := intersect_spec point start finish
      rw [hcrossed] at hspec
      rw [← hiff, ← Option.some.inj hspec]
      exact Bool.false_ne_true)
  | none => isFalse (by
      obtain ⟨crossed, hspec, -⟩ := intersect_spec point start finish
      rw [hcrossed] at hspec
      cases hspec)

theorem intersect_eq (point previous vertex : Point) :
    intersect point previous vertex = some (decide (Crosses point previous vertex)) := by
  obtain ⟨crossed, hspec, hiff⟩ := intersect_spec point previous vertex
  rw [hspec]
  exact congrArg some (Bool.eq_iff_iff.mpr (hiff.trans decide_eq_true_iff.symm))

/-- The sides of a polygon that cross the ray from a point to the right. -/
def crossings (point : Point) (sides : List (Point × Point)) : ℕ :=
  sides.countP fun side ↦ decide (Crosses point side.1 side.2)

theorem crossings_cons (point : Point) (side : Point × Point) (rest : List (Point × Point)) :
    crossings point (side :: rest) =
      (if Crosses point side.1 side.2 then 1 else 0) + crossings point rest := by
  unfold crossings
  rw [List.countP_cons, Nat.add_comm]
  simp only [decide_eq_true_eq]

theorem castRay_eq (point : Point) (inside : Bool) (previous : Point) (vertices : List Point) :
    castRay point inside previous vertices =
      some (inside ^^ decide (Odd (crossings point (steps previous vertices)))) := by
  induction vertices generalizing inside previous with
  | nil => simp [castRay, steps, crossings]
  | cons vertex rest ih =>
    rw [castRay, intersect_eq, Option.bind_some, ih, steps, crossings_cons]
    by_cases hcrosses : Crosses point previous vertex
    · have hodd : Odd (1 + crossings point (steps vertex rest)) ↔
          ¬ Odd (crossings point (steps vertex rest)) := by
        rw [Nat.add_comm, Nat.odd_add_one]
      simp only [hcrosses, decide_true, if_true, hodd, decide_not, Bool.not_xor, Bool.xor_not]
    · simp [hcrosses]

theorem isPointInPolygon_eq (point : Point) {polygon : List Point} (hsize : 3 ≤ polygon.length) :
    isPointInPolygon point polygon = some (decide (Odd (crossings point (sides polygon)))) := by
  unfold isPointInPolygon sides
  rw [if_neg (by omega)]
  cases hlast : polygon.getLast? with
  | none =>
    rw [List.getLast?_eq_none_iff.mp hlast] at hsize
    exact absurd hsize (by decide)
  | some last =>
    dsimp only
    rw [castRay_eq, Bool.false_xor]

/-! ### Other ways to write a polygon down -/

theorem Crosses.swap {point start finish : Point} (hside : Crosses point start finish) :
    Crosses point finish start := by
  obtain ⟨hstraddles, crossing, hcrossing, hpoint⟩ := hside
  exact ⟨hstraddles.swap, crossing, hcrossing.swap, hpoint⟩

theorem crosses_comm {point start finish : Point} :
    Crosses point start finish ↔ Crosses point finish start := ⟨Crosses.swap, Crosses.swap⟩

theorem crossings_perm (point : Point) {sides others : List (Point × Point)}
    (hperm : sides.Perm others) : crossings point sides = crossings point others :=
  hperm.countP_eq _

theorem crossings_map_swap (point : Point) (sides : List (Point × Point)) :
    crossings point (sides.map Prod.swap) = crossings point sides := by
  induction sides with
  | nil => rfl
  | cons side rest ih =>
    rw [List.map_cons, crossings_cons, crossings_cons, ih]
    simp only [Prod.fst_swap, Prod.snd_swap, crosses_comm]

/-- A vertex of a side is not above both of its ends and not below both. -/
theorem OnSegment.height {vertex start finish : Point} (hvertex : OnSegment vertex start finish)
    (height : ℚ) :
    (height < start.y → height < finish.y → height < vertex.y) ∧
      (start.y ≤ height → finish.y ≤ height → vertex.y ≤ height) := by
  obtain ⟨along, hnonneg, hle, rfl⟩ := hvertex
  have hmean : (between start finish along).y = (1 - along) * start.y + along * finish.y := by
    unfold between
    ring
  rw [hmean]
  constructor
  · intro hstart hfinish
    rcases le_total start.y finish.y with hrise | hfall
    · have hmore := mul_nonneg hnonneg (sub_nonneg.mpr hrise)
      linarith
    · have hmore := mul_nonneg (sub_nonneg.mpr hle) (sub_nonneg.mpr hfall)
      linarith
  · intro hstart hfinish
    have hstart' := mul_le_mul_of_nonneg_left hstart (sub_nonneg.mpr hle)
    have hfinish' := mul_le_mul_of_nonneg_left hfinish hnonneg
    linarith

/-- The part of a side up to a vertex crosses the ray where the side does, when it straddles the
height. -/
theorem crosses_part_iff {point vertex start finish : Point}
    (hvertex : OnSegment vertex start finish) (hside : Straddles point.y start finish)
    (hpart : Straddles point.y start vertex) :
    Crosses point start vertex ↔ Crosses point start finish := by
  have hcrossing := onSegment_quotient hpart
  rw [crosses_iff_of_onSegment hpart hcrossing rfl,
    crosses_iff_of_onSegment hside (hcrossing.trans hvertex) rfl]

/-- A vertex on a side keeps the parity of the crossings. -/
theorem odd_crossings_split {point vertex start finish : Point}
    (hvertex : OnSegment vertex start finish) (others : List (Point × Point)) :
    Odd (crossings point ((start, vertex) :: (vertex, finish) :: others)) ↔
      Odd (crossings point ((start, finish) :: others)) := by
  obtain ⟨habove, hbelow⟩ := hvertex.height point.y
  rw [crossings_cons, crossings_cons, crossings_cons]
  by_cases hside : Straddles point.y start finish
  · by_cases hpart : Straddles point.y start vertex
    · have hrest : ¬ Crosses point vertex finish := by
        intro hcrosses
        have := hcrosses.1
        unfold Straddles at *
        tauto
      simp only [crosses_part_iff hvertex hside hpart, if_neg hrest, Nat.zero_add]
    · have hfirst : ¬ Crosses point start vertex := fun hcrosses ↦ hpart hcrosses.1
      have hrest : Straddles point.y finish vertex := by
        unfold Straddles at *
        tauto
      have hsecond := crosses_part_iff hvertex.swap hside.swap hrest
      rw [crosses_comm, @crosses_comm point finish start] at hsecond
      simp only [if_neg hfirst, Nat.zero_add, hsecond]
  · -- Neither part straddles the height, since the vertex is between the ends
    have hends : ¬ Straddles point.y start vertex ∧ ¬ Straddles point.y vertex finish := by
      unfold Straddles at *
      simp only [← not_lt] at hbelow
      tauto
    have hwhole : ¬ Crosses point start finish := fun hcrosses ↦ hside hcrosses.1
    have hfirst : ¬ Crosses point start vertex := fun hcrosses ↦ hends.1 hcrosses.1
    have hsecond : ¬ Crosses point vertex finish := fun hcrosses ↦ hends.2 hcrosses.1
    simp only [if_neg hwhole, if_neg hfirst, if_neg hsecond, Nat.zero_add]

/-- The test of a polygon with three vertices or more divides by no zero and is the parity of the
sides that cross the ray. It does not change when the list of vertices is rotated or reversed, or
when a vertex on a side, be it one of its ends, is inserted into it. -/
theorem isPointInPolygon_wellDefined (point : Point) (polygon : List Point)
    (hsize : 3 ≤ polygon.length) :
    (∃ inside, isPointInPolygon point polygon = some inside ∧
      (inside = true ↔ Odd (crossings point (sides polygon)))) ∧
    (∀ count, isPointInPolygon point (polygon.rotate count) = isPointInPolygon point polygon) ∧
    isPointInPolygon point polygon.reverse = isPointInPolygon point polygon ∧
    ∀ before after start finish vertex, polygon = before ++ after →
      (after ++ before).getLast? = some start → (after ++ before).head? = some finish →
      OnSegment vertex start finish →
      isPointInPolygon point (before ++ vertex :: after) = isPointInPolygon point polygon := by
  refine ⟨⟨_, isPointInPolygon_eq point hsize, decide_eq_true_iff⟩, ?_, ?_, ?_⟩
  · intro count
    rw [isPointInPolygon_eq point hsize,
      isPointInPolygon_eq point (by rwa [List.length_rotate]),
      crossings_perm point (sides_rotate polygon count)]
  · rw [isPointInPolygon_eq point hsize,
      isPointInPolygon_eq point (by rwa [List.length_reverse]),
      crossings_perm point (sides_reverse polygon), crossings_map_swap]
  · rintro before after start finish vertex rfl hstart hfinish hvertex
    obtain ⟨others, hwhole, hsplit⟩ := sides_insert hfinish hstart vertex
    have hlength : 3 ≤ (before ++ vertex :: after).length := by
      rw [List.length_append] at hsize
      rw [List.length_append, List.length_cons]
      omega
    rw [isPointInPolygon_eq point hsize, isPointInPolygon_eq point hlength,
      crossings_perm point hwhole, crossings_perm point hsplit]
    exact congrArg some (decide_eq_decide.mpr (odd_crossings_split hvertex others))

def triangle : List Point := [⟨0, 0⟩, ⟨1, 0⟩, ⟨0, 1⟩]

theorem isPointInPolygon_wellDefined_triangle :
    isPointInPolygon ⟨1 / 4, 1 / 4⟩ (⟨0, 1 / 2⟩ :: triangle) =
      isPointInPolygon ⟨1 / 4, 1 / 4⟩ triangle := by
  have hside : OnSegment ⟨0, 1 / 2⟩ ⟨0, 1⟩ ⟨0, 0⟩ :=
    ⟨1 / 2, by norm_num, by norm_num, by norm_num [between]⟩
  exact (isPointInPolygon_wellDefined ⟨1 / 4, 1 / 4⟩ triangle le_rfl).2.2.2 [] triangle ⟨0, 1⟩
    ⟨0, 0⟩ ⟨0, 1 / 2⟩ rfl rfl rfl hside

end VmsLite.Zones
