import Mathlib

/-!
# Geodesic interpolation

`ST_ASGEOJSON` puts the midpoint of the great circle into every edge that is too far away from it,
and goes on with the two halves. Nothing is used of the arithmetic but that its addition is
commutative.
-/

namespace Bqemulator.Geodesic

open List

/-- The arithmetic of the source, whose addition is commutative. -/
class FloatArith (F : Type) extends AddCommMagma F, Sub F, Mul F, Div F, One F, Neg F where
  (sqrt sin cos asin radians degrees : F → F)
  (atan2 max min : F → F → F)
  isZero : F → Bool
  lt : F → F → Bool
  two : F
  /-- `_GEODESIC_INTERP_THRESHOLD_DEG` -/
  threshold : F

open FloatArith

variable {F : Type} [FloatArith F]

/-- A point in degrees: `(lng, lat)`. -/
abbrev LngLat (F : Type) := F × F

def lonlatToUnitVec (p : LngLat F) : F × F × F :=
  let phi := radians p.2
  let lam := radians p.1
  (cos phi * cos lam, cos phi * sin lam, sin phi)

def linearMidpoint (p q : LngLat F) : LngLat F := ((p.1 + q.1) / two, (p.2 + q.2) / two)

/-- The midpoint of the great circle between two points. -/
def sphericalMidpoint (p q : LngLat F) : LngLat F :=
  let v := lonlatToUnitVec p
  let w := lonlatToUnitVec q
  let mx := (v.1 + w.1) / two
  let my := (v.2.1 + w.2.1) / two
  let mz := (v.2.2 + w.2.2) / two
  let mag := sqrt (mx * mx + my * my + mz * mz)
  -- opposite points have no great circle of their own
  if isZero mag then linearMidpoint p q
  else (degrees (atan2 (my / mag) (mx / mag)), degrees (asin (max (-1) (min 1 (mz / mag)))))

def deviation (p q : LngLat F) : F :=
  let dlng := (sphericalMidpoint p q).1 - (linearMidpoint p q).1
  let dlat := (sphericalMidpoint p q).2 - (linearMidpoint p q).2
  sqrt (dlng * dlng + dlat * dlat)

/-- The points put between `p` and `q`, with the number of levels that are left. -/
def interpolateEdge : ℕ → LngLat F → LngLat F → List (LngLat F)
  | 0, _, _ => []
  | n + 1, p, q =>
    if lt (deviation p q) threshold then []
    else
      let mid := sphericalMidpoint p q
      interpolateEdge n p mid ++ mid :: interpolateEdge n mid q

/-- A position of GeoJSON, perhaps with an altitude. -/
structure Position (F : Type) where
  lngLat : LngLat F
  altitude : List F

/-- The vertices inserted into an edge: `_GEODESIC_INTERP_MAX_DEPTH` levels. -/
def midpoints (v w : Position F) : List (Position F) :=
  (interpolateEdge 8 v.lngLat w.lngLat).map (⟨·, []⟩)

/-- The points that are put into an edge. -/
def interpolateVertices : List (Position F) → List (Position F)
  | [] => []
  | v :: vs => v :: ((v :: vs).zip vs).flatMap fun e => midpoints e.1 e.2 ++ [e.2]

/-- A GeoJSON geometry over vertices `V`. -/
inductive Geometry (V : Type) where
  | point (v : V)
  | multiPoint (vs : List V)
  | lineString (vs : List V)
  | polygon (rings : List (List V))
  | multiLineString (lines : List (List V))
  | multiPolygon (polygons : List (List (List V)))
  | geometryCollection (geometries : List (Geometry V))

namespace Geometry

variable {V : Type}

/-- The walk over a geometry, with what is done to a line or ring as a parameter. -/
def mapLines (f : List V → List V) : Geometry V → Geometry V
  | lineString vs => lineString (f vs)
  | polygon rings => polygon (rings.map f)
  | multiLineString lines => multiLineString (lines.map f)
  | multiPolygon polygons => multiPolygon (polygons.map (map f))
  | geometryCollection geometries => geometryCollection (geometries.map (mapLines f))
  | g => g

/-- The lines and rings of a geometry. -/
def lines : Geometry V → List (List V)
  | lineString vs => [vs]
  | polygon rings => rings
  | multiLineString lines => lines
  | multiPolygon polygons => polygons.flatten
  | geometryCollection geometries => geometries.flatMap lines
  | _ => []

/-- A geometry without the vertices of its lines and rings. -/
def typeTree (g : Geometry V) : Geometry V := g.mapLines fun _ => []

theorem mapLines_mapLines (f g : List V → List V) (x : Geometry V) :
    (x.mapLines f).mapLines g = x.mapLines (g ∘ f) := by
  fun_induction mapLines f x <;> simp_all [mapLines]

theorem lines_mapLines (f : List V → List V) (x : Geometry V) :
    (x.mapLines f).lines = x.lines.map f := by
  fun_induction mapLines f x with
  | case5 gs ih =>
    simp only [lines, flatMap_map, map_flatMap]
    exact flatMap_congr ih
  | _ => simp_all [lines]

end Geometry

/-- `_walk_geojson_geometry`. -/
def walkGeojsonGeometry : Geometry (Position F) → Geometry (Position F) :=
  Geometry.mapLines interpolateVertices

variable (p q : LngLat F) (v w : Position F) (vs : List (Position F))

theorem linearMidpoint_comm : linearMidpoint p q = linearMidpoint q p := by
  rw [linearMidpoint, linearMidpoint, add_comm p.1, add_comm p.2]

theorem sphericalMidpoint_comm : sphericalMidpoint p q = sphericalMidpoint q p := by
  simp only [sphericalMidpoint, linearMidpoint_comm p, add_comm (lonlatToUnitVec p).1,
    add_comm (lonlatToUnitVec p).2.1, add_comm (lonlatToUnitVec p).2.2]

theorem deviation_comm : deviation p q = deviation q p := by
  simp only [deviation, sphericalMidpoint_comm p, linearMidpoint_comm p]

/-- An edge gets the same points in the other direction. -/
theorem edge_swap (n : ℕ) :
    interpolateEdge n q p = (interpolateEdge n p q).reverse := by
  induction n generalizing p q with
  | zero => rfl
  | succ n ih =>
    simp only [interpolateEdge, deviation_comm q, sphericalMidpoint_comm q]
    split
    · rfl
    · rw [reverse_append, reverse_cons, ← ih p, ← ih _ q, append_assoc]
      rfl

theorem length_edge_lt (n : ℕ) : (interpolateEdge n p q).length < 2 ^ n := by
  induction n generalizing p q with
  | zero => exact Nat.one_pos
  | succ n ih =>
    rw [interpolateEdge]
    split
    · exact Nat.two_pow_pos _
    · have hl := ih p (sphericalMidpoint p q)
      have hr := ih (sphericalMidpoint p q) q
      simp only [length_append, length_cons]
      omega

theorem midpoints_swap : midpoints w v = (midpoints v w).reverse := by
  rw [midpoints, edge_swap, map_reverse]
  rfl

theorem length_midpoints_le : (midpoints v w).length ≤ 255 := by
  rw [midpoints, length_map]
  exact Nat.le_of_lt_succ (length_edge_lt _ _ 8)

theorem vertices_cons_cons : interpolateVertices (v :: w :: vs) =
    v :: (midpoints v w ++ interpolateVertices (w :: vs)) := by
  simp [interpolateVertices]

theorem sublist_vertices : ∀ vs : List (Position F), vs.Sublist (interpolateVertices vs)
  | [] => .slnil
  | [_] => .refl _
  | v :: w :: vs => by
    rw [vertices_cons_cons]
    exact .cons_cons v ((sublist_vertices (w :: vs)).trans (sublist_append_right _ _))

/-- What a last edge adds. -/
theorem vertices_concat : ∀ vs, interpolateVertices (vs ++ [v, w]) =
    interpolateVertices (vs ++ [v]) ++ midpoints v w ++ [w]
  | [] | [_] => by simp [interpolateVertices]
  | u :: u' :: vs => by
    have ih := vertices_concat (u' :: vs)
    simp only [cons_append, vertices_cons_cons] at ih ⊢
    simp only [ih, append_assoc]

/-- Reversal: the reversed vertices give the reversed line. -/
theorem vertices_reverse : ∀ vs : List (Position F),
    interpolateVertices vs.reverse = (interpolateVertices vs).reverse
  | [] | [_] => rfl
  | v :: w :: vs => by
    have hv : (v :: w :: vs).reverse = vs.reverse ++ [w, v] := by simp
    rw [hv, vertices_concat, ← reverse_cons, vertices_reverse (w :: vs), vertices_cons_cons,
      midpoints_swap, reverse_cons, reverse_append]

theorem head?_vertices : (interpolateVertices vs).head? = vs.head? := by
  cases vs <;> rfl

theorem getLast?_vertices : (interpolateVertices vs).getLast? = vs.getLast? := by
  rw [← head?_reverse, ← vertices_reverse, head?_vertices, head?_reverse]

/-- A ring ends where it begins. -/
def Closed {V : Type} (ring : List V) : Prop := ring.head? = ring.getLast?

/-- **Geodesic interpolation** changes only the vertices of lines and rings: it keeps their vertices
in order and a closed ring closed, puts at most `255` into an edge, and commutes with reversal. -/
theorem walkGeojsonGeometry_spec (g : Geometry (Position F)) :
    (walkGeojsonGeometry g).typeTree = g.typeTree ∧
    (walkGeojsonGeometry g).lines = g.lines.map interpolateVertices ∧
    walkGeojsonGeometry (g.mapLines reverse) = (walkGeojsonGeometry g).mapLines reverse ∧
    ∀ vs : List (Position F),
      vs.Sublist (interpolateVertices vs) ∧
      (Closed (interpolateVertices vs) ↔ Closed vs) ∧
      interpolateVertices vs.reverse = (interpolateVertices vs).reverse ∧
      ∀ v w, interpolateVertices (v :: w :: vs) =
          v :: (midpoints v w ++ interpolateVertices (w :: vs)) ∧
        (midpoints v w).length ≤ 255 ∧ midpoints w v = (midpoints v w).reverse := by
  refine ⟨Geometry.mapLines_mapLines _ _ g, Geometry.lines_mapLines _ g, ?_, fun vs =>
    ⟨sublist_vertices vs, ?_, vertices_reverse vs, fun v w =>
      ⟨vertices_cons_cons v w vs, length_midpoints_le v w, midpoints_swap v w⟩⟩⟩
  · have hc : interpolateVertices ∘ reverse =
        reverse ∘ interpolateVertices (F := F) := funext vertices_reverse
    rw [walkGeojsonGeometry, Geometry.mapLines_mapLines, Geometry.mapLines_mapLines, hc]
  · rw [Closed, head?_vertices, getLast?_vertices]
    rfl

/-- The arithmetic of real numbers, without rounding. -/
noncomputable instance realArith : FloatArith ℝ where
  sqrt := Real.sqrt
  sin := Real.sin
  cos := Real.cos
  asin := Real.arcsin
  radians x := x * Real.pi / 180
  degrees x := x * 180 / Real.pi
  atan2 y x := Complex.arg ⟨x, y⟩
  max := max
  min := min
  isZero x := decide (x = 0)
  lt x y := decide (x < y)
  two := 2
  threshold := 1 / 10 ^ 4

/-- The ring around the points whose degrees are between `0` and `10`. -/
def squareRing : List (Position ℝ) :=
  [⟨(0, 0), []⟩, ⟨(10, 0), []⟩, ⟨(10, 10), []⟩, ⟨(0, 10), []⟩, ⟨(0, 0), []⟩]

/-- A polygon in a collection stays one, and its ring stays closed and keeps its corners. -/
theorem walkGeojsonGeometry_spec_square :
    let g := Geometry.geometryCollection [.point ⟨(0, 0), []⟩, .polygon [squareRing]]
    (walkGeojsonGeometry g).typeTree = .geometryCollection [.point ⟨(0, 0), []⟩, .polygon [[]]] ∧
      (walkGeojsonGeometry g).lines = [interpolateVertices squareRing] ∧
      squareRing.Sublist (interpolateVertices squareRing) ∧
      Closed (interpolateVertices squareRing) := by
  intro g
  obtain ⟨htree, hlines, -, hline⟩ := walkGeojsonGeometry_spec g
  obtain ⟨hsublist, hclosed, -⟩ := hline squareRing
  refine ⟨htree.trans ?_, hlines.trans ?_, hsublist, hclosed.2 rfl⟩
  · simp [g, Geometry.typeTree, Geometry.mapLines]
  · simp [g, Geometry.lines]

end Bqemulator.Geodesic
