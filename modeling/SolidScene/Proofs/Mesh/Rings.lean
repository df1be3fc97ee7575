import Mathlib.Data.List.FinRange
import Mathlib.Data.ZMod.Defs
import SolidScene.Proofs.Mesh.Surface

/-!
# Rings between two poles

The faces of a sphere and of a cylinder lie in the same way: there are rings of `n` vertices, one
below the other and numbered from `0` to `last`, with two faces between each two neighbours of a
ring and the next one, and a fan at each end that joins a ring to a pole.  Places on a ring are
counted modulo `n`, so a ring has no seam.

With three places or more such faces are closed (`closed_ringFaces`).  That no edge occurs twice is
shown by `cellOf`, which tells from a directed edge the face that it belongs to; that the reverse of
each occurs is shown one kind of edge at a time.
-/

namespace SolidScene

/-- A vertex of some rings of `n` places between two poles. -/
inductive RingVertex (n : Nat)
  | upper
  | ring (level : Nat) (place : Fin n)
  | lower
  deriving DecidableEq

/-- Where a face lies: in the fan at a pole, or beside the diagonal from a place on a ring to the
next place on the ring below. -/
inductive Cell (n : Nat)
  | upperFan (place : Fin n)
  | aboveDiagonal (level : Nat) (place : Fin n)
  | belowDiagonal (level : Nat) (place : Fin n)
  | lowerFan (place : Fin n)
  deriving DecidableEq

open RingVertex Cell

variable {n last : Nat}

/-! ### Cells -/

/-- The cells of rings numbered from `0` to `last`. -/
def ringCells (n last : Nat) : List (Cell n) :=
  (List.finRange n).map upperFan ++
    (List.range last).flatMap (fun k =>
      (List.finRange n).flatMap fun i => [aboveDiagonal k i, belowDiagonal k i]) ++
    (List.finRange n).map lowerFan

theorem mem_ringCells {cell : Cell n} :
    cell ∈ ringCells n last ↔
      match cell with
      | aboveDiagonal k _ | belowDiagonal k _ => k < last
      | _ => True := by
  cases cell <;> simp [ringCells]

theorem nodup_band (k : Nat) :
    ((List.finRange n).flatMap fun i => [aboveDiagonal k i, belowDiagonal k i]).Nodup := by
  rw [List.nodup_flatMap]
  refine ⟨fun i _ => by simp, (List.nodup_finRange n).imp fun {i j} hne => ?_⟩
  simp [Function.onFun, hne.symm]

theorem nodup_ringCells : (ringCells n last).Nodup := by
  have hplaces := List.nodup_finRange n
  have hbands : ((List.range last).flatMap fun k =>
      (List.finRange n).flatMap fun i => [aboveDiagonal k i, belowDiagonal k i]).Nodup := by
    rw [List.nodup_flatMap]
    refine ⟨fun k _ => nodup_band k, List.nodup_range.imp fun {k l} hne => ?_⟩
    intro cell hk hl
    simp only [List.mem_flatMap, List.mem_cons, List.not_mem_nil, or_false] at hk hl
    obtain ⟨i, -, rfl | rfl⟩ := hk
    · simp [hne] at hl
    · simp [hne] at hl
  rw [ringCells, List.nodup_append', List.nodup_append']
  refine ⟨⟨hplaces.map fun i j h => by simpa using h, hbands, ?_⟩,
    hplaces.map fun i j h => by simpa using h, ?_⟩
  · simp [List.disjoint_left]
  · rintro (i | ⟨k, i⟩ | ⟨k, i⟩ | i) <;> simp

/-! ### Faces, each edge belonging to one of them -/

variable [NeZero n]

/-- The face of a cell, seen from outside with the upper pole above and places counted to the
left. -/
def Cell.face (last : Nat) : Cell n → Face (RingVertex n)
  | upperFan i => ⟨upper, ring 0 (i + 1), ring 0 i⟩
  | aboveDiagonal k i => ⟨ring k i, ring k (i + 1), ring (k + 1) (i + 1)⟩
  | belowDiagonal k i => ⟨ring k i, ring (k + 1) (i + 1), ring (k + 1) i⟩
  | lowerFan i => ⟨ring last i, ring last (i + 1), lower⟩

/-- The faces of rings numbered from `0` to `last`. -/
def ringFaces (n last : Nat) [NeZero n] : List (Face (RingVertex n)) :=
  (ringCells n last).map (Cell.face last)

/-- The cell to whose face a directed edge belongs. -/
def cellOf (last : Nat) : RingVertex n × RingVertex n → Cell n
  | (upper, ring _ j) => upperFan (j - 1)
  | (ring _ i, upper) => upperFan i
  | (ring _ i, lower) => lowerFan (i - 1)
  | (lower, ring _ j) => lowerFan j
  | (ring k i, ring l j) =>
    if l = k + 1 then if j = i then aboveDiagonal k (i - 1) else belowDiagonal k i
    else if k = l + 1 then if j = i then belowDiagonal l j else aboveDiagonal l j
    else if j = i + 1 then if k = last then lowerFan i else aboveDiagonal k i
    else if k = 0 then upperFan j else belowDiagonal (k - 1) j
  | _ => upperFan 0

theorem val_add_one (i : Fin n) : ((i + 1 : Fin n) : Nat) = (i + 1) % n := by
  simp [Fin.val_add]

/-- A step along a ring of three places or more does not lead back, nor do two. -/
theorem add_one_ne (hn : 3 ≤ n) (i : Fin n) : i + 1 ≠ i ∧ i + 1 + 1 ≠ i := by
  have hnext (j : Fin n) : ((j + 1 : Fin n) : Nat) = j + 1 ∨
      (j : Nat) + 1 = n ∧ ((j + 1 : Fin n) : Nat) = 0 := by
    rw [val_add_one]
    rcases Nat.lt_or_ge (j + 1) n with hj | hj
    · exact Or.inl (Nat.mod_eq_of_lt hj)
    · have hlast : (j : Nat) + 1 = n := by omega
      exact Or.inr ⟨hlast, by rw [hlast, Nat.mod_self]⟩
  have hone := hnext i
  have htwo := hnext (i + 1)
  constructor
  · intro h
    have hval := congrArg Fin.val h
    omega
  · intro h
    have hval := congrArg Fin.val h
    omega

section ThreePlaces

variable (hn : 3 ≤ n)
include hn

theorem cellOf_eq {cell : Cell n} (hcell : cell ∈ ringCells n last) :
    ∀ e ∈ (cell.face last).edges, cellOf last e = cell := by
  have hone (i : Fin n) := (add_one_ne hn i).1
  have htwo (i : Fin n) := (add_one_ne hn i).2.symm
  have hlevels (k : Nat) : k ≠ k + 1 + 1 := by omega
  cases cell with
  | upperFan i => simp [Face.edges, Cell.face, cellOf, htwo]
  | aboveDiagonal k i =>
    have hk : k ≠ last := (mem_ringCells.1 hcell).ne
    simp [Face.edges, Cell.face, cellOf, hk, hlevels, (hone i).symm]
  | belowDiagonal k i => simp [Face.edges, Cell.face, cellOf, hone, htwo, hlevels]
  | lowerFan i => simp [Face.edges, Cell.face, cellOf]

theorem proper_face (cell : Cell n) : ∀ e ∈ (cell.face last).edges, e.1 ≠ e.2 := by
  have hone (i : Fin n) := (add_one_ne hn i).1
  cases cell <;> simp [Face.edges, Cell.face, hone, fun i => (hone i).symm]

theorem nodup_edges_face (cell : Cell n) : (cell.face last).edges.Nodup := by
  have hone (i : Fin n) := (add_one_ne hn i).1
  cases cell <;> simp [Face.edges, Cell.face, hone, fun i => (hone i).symm]

end ThreePlaces

/-! ### The reverse of each edge -/

theorem mem_edgesOf_ringFaces {e : RingVertex n × RingVertex n} :
    e ∈ edgesOf (ringFaces n last) ↔
      ∃ cell ∈ ringCells n last, e ∈ (cell.face last).edges := by
  simp [edgesOf, ringFaces]

section Edges

variable {k : Nat} (i : Fin n)

theorem upper_to_ring : (upper, ring 0 i) ∈ edgesOf (ringFaces n last) :=
  mem_edgesOf_ringFaces.2
    ⟨upperFan (i - 1), mem_ringCells.2 trivial, by simp [Face.edges, Cell.face]⟩

theorem ring_to_upper : (ring 0 i, upper) ∈ edgesOf (ringFaces n last) :=
  mem_edgesOf_ringFaces.2 ⟨upperFan i, mem_ringCells.2 trivial, by simp [Face.edges, Cell.face]⟩

theorem ring_to_lower : (ring last i, lower) ∈ edgesOf (ringFaces n last) :=
  mem_edgesOf_ringFaces.2
    ⟨lowerFan (i - 1), mem_ringCells.2 trivial, by simp [Face.edges, Cell.face]⟩

theorem lower_to_ring : (lower, ring last i) ∈ edgesOf (ringFaces n last) :=
  mem_edgesOf_ringFaces.2 ⟨lowerFan i, mem_ringCells.2 trivial, by simp [Face.edges, Cell.face]⟩

theorem ring_to_next (hk : k ≤ last) :
    (ring k i, ring k (i + 1)) ∈ edgesOf (ringFaces n last) := by
  rcases Nat.lt_or_eq_of_le hk with hk | rfl
  · exact mem_edgesOf_ringFaces.2
      ⟨aboveDiagonal k i, mem_ringCells.2 hk, by simp [Face.edges, Cell.face]⟩
  · exact mem_edgesOf_ringFaces.2
      ⟨lowerFan i, mem_ringCells.2 trivial, by simp [Face.edges, Cell.face]⟩

theorem ring_to_previous (hk : k ≤ last) :
    (ring k (i + 1), ring k i) ∈ edgesOf (ringFaces n last) := by
  cases k with
  | zero =>
    exact mem_edgesOf_ringFaces.2
      ⟨upperFan i, mem_ringCells.2 trivial, by simp [Face.edges, Cell.face]⟩
  | succ k =>
    exact mem_edgesOf_ringFaces.2
      ⟨belowDiagonal k i, mem_ringCells.2 hk, by simp [Face.edges, Cell.face]⟩

theorem ring_to_below (hk : k < last) :
    (ring k i, ring (k + 1) i) ∈ edgesOf (ringFaces n last) :=
  mem_edgesOf_ringFaces.2
    ⟨aboveDiagonal k (i - 1), mem_ringCells.2 hk, by simp [Face.edges, Cell.face]⟩

theorem ring_to_above (hk : k < last) :
    (ring (k + 1) i, ring k i) ∈ edgesOf (ringFaces n last) :=
  mem_edgesOf_ringFaces.2
    ⟨belowDiagonal k i, mem_ringCells.2 hk, by simp [Face.edges, Cell.face]⟩

theorem down_diagonal (hk : k < last) :
    (ring k i, ring (k + 1) (i + 1)) ∈ edgesOf (ringFaces n last) :=
  mem_edgesOf_ringFaces.2
    ⟨belowDiagonal k i, mem_ringCells.2 hk, by simp [Face.edges, Cell.face]⟩

theorem up_diagonal (hk : k < last) :
    (ring (k + 1) (i + 1), ring k i) ∈ edgesOf (ringFaces n last) :=
  mem_edgesOf_ringFaces.2
    ⟨aboveDiagonal k i, mem_ringCells.2 hk, by simp [Face.edges, Cell.face]⟩

end Edges

theorem swap_mem_edgesOf {e : RingVertex n × RingVertex n}
    (he : e ∈ edgesOf (ringFaces n last)) : e.swap ∈ edgesOf (ringFaces n last) := by
  obtain ⟨cell, hcell, he⟩ := mem_edgesOf_ringFaces.1 he
  cases cell with
  | upperFan i =>
    simp only [Face.edges, Cell.face, List.mem_cons, List.not_mem_nil, or_false] at he
    rcases he with rfl | rfl | rfl
    · exact ring_to_upper (i + 1)
    · exact ring_to_next i (Nat.zero_le last)
    · exact upper_to_ring i
  | aboveDiagonal k i =>
    have hk : k < last := mem_ringCells.1 hcell
    simp only [Face.edges, Cell.face, List.mem_cons, List.not_mem_nil, or_false] at he
    rcases he with rfl | rfl | rfl
    · exact ring_to_previous i hk.le
    · exact ring_to_above (i + 1) hk
    · exact down_diagonal i hk
  | belowDiagonal k i =>
    have hk : k < last := mem_ringCells.1 hcell
    simp only [Face.edges, Cell.face, List.mem_cons, List.not_mem_nil, or_false] at he
    rcases he with rfl | rfl | rfl
    · exact up_diagonal i hk
    · exact ring_to_next i hk
    · exact ring_to_below i hk
  | lowerFan i =>
    simp only [Face.edges, Cell.face, List.mem_cons, List.not_mem_nil, or_false] at he
    rcases he with rfl | rfl | rfl
    · exact ring_to_previous i le_rfl
    · exact lower_to_ring (i + 1)
    · exact ring_to_lower i

/-- Rings of three places or more between two poles have no border. -/
theorem closed_ringFaces (hn : 3 ≤ n) : Closed (ringFaces n last) where
  proper := by
    intro e he
    obtain ⟨cell, -, he⟩ := mem_edgesOf_ringFaces.1 he
    exact proper_face hn cell e he
  nodup := nodup_edgesOf_map nodup_ringCells (cellOf last) (fun _ => cellOf_eq hn)
    fun cell _ => nodup_edges_face hn cell
  twin := fun _ => swap_mem_edgesOf

/-! ### Vertices -/

theorem mem_cornersOf_ringFaces {v : RingVertex n} :
    v ∈ cornersOf (ringFaces n last) ↔ ∀ k i, v = ring k i → k ≤ last := by
  constructor
  · intro hv k i hring
    subst hring
    obtain ⟨f, hf, hv⟩ := List.mem_flatMap.1 hv
    obtain ⟨cell, hcell, rfl⟩ := List.mem_map.1 hf
    have hcell := mem_ringCells.1 hcell
    cases cell <;> simp [Face.corners, Cell.face] at hv hcell <;> omega
  · intro hv
    cases v with
    | upper => exact (mem_cornersOf_of_mem_edgesOf (upper_to_ring 0)).1
    | ring k i => exact (mem_cornersOf_of_mem_edgesOf (ring_to_next i (hv k i rfl))).1
    | lower => exact (mem_cornersOf_of_mem_edgesOf (lower_to_ring 0)).1

end SolidScene
