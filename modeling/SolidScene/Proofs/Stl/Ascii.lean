import SolidScene.Proofs.Double.ReadBack
import SolidScene.Proofs.Stl.Binary
import SolidScene.Stl.Ascii

/-!
# Meshes read back from lines of text

`readMesh?` takes a text apart into lines and its lines into words: a facet is seven lines that
start with their keywords, and the name in the first line is found again in the last.

* A text of lines is taken apart into these lines and an empty one (`splitOn_unlines`), as long as
  no line holds a line break.
* The line of a vector reads as its keywords and the same vector, since numbers hold no blanks and
  read back (`readVector?_coordinates`).
* `readMesh?_ascii` puts this together: the name and the facets are read as they were written.
-/

namespace SolidScene.Stl

/-! ### Reading -/

/-- The words of a line: what stands between its blanks. -/
def words (line : List Char) : List String :=
  ((line.splitOn ' ').filter (· ≠ [])).map String.ofList

/-- The vector in a line after its keywords. -/
def readVector? (keywords : List String) (line : List Char) : Option Vec3 :=
  if (words line).take keywords.length = keywords then
    match ((words line).drop keywords.length).mapM fun word => readFloat? word.toList with
    | some [x, y, z] => some ⟨x, y, z⟩
    | _ => none
  else none

/-- A facet from seven lines. -/
def readFacet? (normal opening a b c closing last : List Char) : Option Facet := do
  guard (words opening = ["outer", "loop"] ∧ words closing = ["endloop"] ∧
    words last = ["endfacet"])
  return ⟨← readVector? ["facet", "normal"] normal, ← readVector? ["vertex"] a,
    ← readVector? ["vertex"] b, ← readVector? ["vertex"] c⟩

/-- As many facets as there are, and the lines after them. -/
def readFacets : List (List Char) → List Facet × List (List Char)
  | normal :: opening :: a :: b :: c :: closing :: last :: rest =>
    match readFacet? normal opening a b c closing last with
    | some f => ((f :: (readFacets rest).1), (readFacets rest).2)
    | none => ([], normal :: opening :: a :: b :: c :: closing :: last :: rest)
  | rest => ([], rest)

/-- The name of a mesh and its facets: the last line has the name of the first, and nothing follows
its line break. -/
def readMesh? (text : String) : Option (String × List Facet) :=
  match text.toList.splitOn '\n' with
  | first :: rest => do
    let name ← first.dropPrefix? "solid ".toList
    guard ((readFacets rest).2 = ["endsolid ".toList ++ name, []])
    return (String.ofList name, (readFacets rest).1)
  | [] => none

/-! ### Lines -/

theorem toList_unlines (lines : List String) :
    (unlines lines).toList = ['\n'].intercalate (lines.map String.toList ++ [[]]) := by
  induction lines with
  | nil => rfl
  | cons line lines ih =>
    have hcons : unlines (line :: lines) = line ++ "\n" ++ unlines lines := by
      simp [unlines, String.join_cons]
    rw [hcons, String.toList_append, String.toList_append, ih, List.map_cons, List.cons_append,
      List.intercalate_cons_of_ne_nil (by simp)]
    rfl

/-- **Lines are told apart** by their line breaks. -/
theorem splitOn_unlines {lines : List String} (h : ∀ line ∈ lines, '\n' ∉ line.toList) :
    (unlines lines).toList.splitOn '\n' = lines.map String.toList ++ [[]] := by
  rw [toList_unlines, List.splitOn_intercalate]
  · intro line hline
    rcases List.mem_append.1 hline with hline | hline
    · obtain ⟨s, hs, rfl⟩ := List.mem_map.1 hline
      exact h s hs
    · rw [List.mem_singleton.1 hline]
      exact List.not_mem_nil
  · simp

/-! ### Numbers in a line -/

theorem not_mem_plainText (x : Float) {c : Char} (hc : Text.isBlank c) :
    c ∉ (plainText x).toList := by
  intro hmem
  rw [Double.not_isBlank_of_mem_plainText hmem] at hc
  exact absurd hc Bool.false_ne_true

theorem plainText_ne_empty (x : Float) : plainText x ≠ "" := by
  intro hempty
  have hread := Double.readFloat?_plainText x
  have hnone : readFloat? "".toList = none := by decide
  rw [hempty, hnone] at hread
  cases hread

theorem not_mem_coordinates (v : Vec3) : '\n' ∉ (coordinates v).toList := by
  have hnumber (x : Float) := not_mem_plainText x (c := '\n') rfl
  rw [coordinates, String.toList_intercalate]
  simp [Vec3.toList, List.intercalate, hnumber]

/-- The words of parts with a blank between them are those parts, the empty ones left out. -/
theorem words_intercalate {parts : List String} (h : ∀ part ∈ parts, ' ' ∉ part.toList)
    (hne : parts ≠ []) : words (" ".intercalate parts).toList = parts.filter (· ≠ "") := by
  have hblank : " ".toList = [' '] := rfl
  have hsplit : ([' '].intercalate (parts.map String.toList)).splitOn ' ' =
      parts.map String.toList :=
    List.splitOn_intercalate ' ' (List.forall_mem_map.2 h) (by simpa using hne)
  rw [words, String.toList_intercalate, hblank, hsplit, List.filter_map, List.map_map]
  simp [Function.comp_def]

/-- **A vector is read** from the line that its numbers end, whatever the keywords in front. -/
theorem readVector?_coordinates (parts : List String) {start : String}
    (hstart : start = " ".intercalate parts ++ " ") (hparts : ∀ part ∈ parts, ' ' ∉ part.toList)
    (hne : parts ≠ []) (v : Vec3) :
    readVector? (parts.filter (· ≠ "")) (start ++ coordinates v).toList = some v := by
  have hnumbers : (v.toList.map plainText).filter (· ≠ "") = v.toList.map plainText := by
    simp [Vec3.toList, plainText_ne_empty]
  have hline : start ++ coordinates v = " ".intercalate (parts ++ v.toList.map plainText) := by
    rw [hstart, coordinates, String.intercalate_append_of_ne_nil hne (by simp [Vec3.toList])]
  have hwords : words (start ++ coordinates v).toList =
      parts.filter (· ≠ "") ++ v.toList.map plainText := by
    rw [hline, words_intercalate, List.filter_append, hnumbers]
    · refine List.forall_mem_append.2 ⟨hparts, List.forall_mem_map.2 fun x _ => ?_⟩
      exact not_mem_plainText x rfl
    · simp [hne]
  rw [readVector?, hwords, List.take_left' rfl, List.drop_left' rfl, if_pos rfl]
  simp [Vec3.toList, Double.readFloat?_plainText]

/-! ### Facets -/

theorem readFacet?_lines (f : Facet) :
    readFacet? ("  facet normal " ++ coordinates f.normal).toList "    outer loop".toList
      (vertexLine f.a).toList (vertexLine f.b).toList (vertexLine f.c).toList
      "    endloop".toList "  endfacet".toList = some f := by
  have hnormal :
      readVector? ["facet", "normal"] ("  facet normal " ++ coordinates f.normal).toList =
        some f.normal :=
    readVector?_coordinates ["", "", "facet", "normal"] rfl (by decide) (by simp) f.normal
  have hvertex (v : Vec3) : readVector? ["vertex"] (vertexLine v).toList = some v :=
    readVector?_coordinates ["", "", "", "", "", "", "vertex"] rfl (by decide) (by simp) v
  have hkeywords : words "    outer loop".toList = ["outer", "loop"] ∧
      words "    endloop".toList = ["endloop"] ∧ words "  endfacet".toList = ["endfacet"] := by
    decide
  rw [readFacet?, hnormal, hvertex, hvertex, hvertex, guard, if_pos hkeywords]
  rfl

/-- Facets are read one after another up to lines that are too few for one. -/
theorem readFacets_lines (fs : List Facet) (rest : List (List Char)) (hrest : rest.length < 7) :
    readFacets ((fs.flatMap Facet.lines).map String.toList ++ rest) = (fs, rest) := by
  induction fs with
  | nil =>
    rw [List.flatMap_nil, List.map_nil, List.nil_append]
    unfold readFacets
    split
    · simp only [List.length_cons] at hrest
      omega
    · rfl
  | cons f fs ih =>
    rw [List.flatMap_cons, List.map_append, List.append_assoc, Facet.lines]
    simp only [List.map_cons, List.map_nil, List.cons_append, List.nil_append]
    rw [readFacets, readFacet?_lines, ih]

/-! ### Meshes -/

theorem not_mem_asciiLines {name : String} (hname : '\n' ∉ name.toList) (m : Mesh) :
    ∀ line ∈ asciiLines name m, '\n' ∉ line.toList := by
  have hvector := not_mem_coordinates
  have hfacet (f : Facet) : ∀ line ∈ f.lines, '\n' ∉ line.toList := by
    simp [Facet.lines, vertexLine, hvector]
  have hends : '\n' ∉ ("solid " ++ name).toList ∧ '\n' ∉ ("endsolid " ++ name).toList := by
    simp [hname]
  rw [asciiLines]
  simp only [List.forall_mem_append, List.forall_mem_cons, List.forall_mem_flatMap]
  refine ⟨⟨hends.1, fun f _ => hfacet f⟩, hends.2, List.forall_mem_nil _⟩

/-- The name and the facets of a mesh are read from its text. -/
theorem readMesh?_of_lines {name : String} {m : Mesh}
    (h : (ascii name m).toList.splitOn '\n' = (asciiLines name m).map String.toList ++ [[]]) :
    readMesh? (ascii name m) = some (name, facets m) := by
  have hlines : (asciiLines name m).map String.toList ++ [[]] = ("solid ".toList ++ name.toList) ::
      (((facets m).flatMap Facet.lines).map String.toList ++
        ["endsolid ".toList ++ name.toList, []]) := by
    simp [asciiLines]
  -- The two lines after the facets are too few for another one, whatever the name looks like.
  have hread := readFacets_lines (facets m) ["endsolid ".toList ++ name.toList, []] (by simp)
  have hname : ("solid ".toList ++ name.toList).dropPrefix? "solid ".toList = some name.toList :=
    List.dropPrefix?_append_of_beq _ (by simp)
  rw [readMesh?, h, hlines]
  simp only [hname, hread]
  simp

/-- **A mesh is read back from its text**, bit by bit.  There is a line with the name, then seven
lines for each facet of the mesh in the order of its triangles, then a line with the name again, and
nothing after its line break.  Taken apart at its line breaks and blanks, this text reads as the
name and the facets, whose corners are the vertices of the triangles: no name can be mistaken for
facets, and a number is read as it was, whether it is finite or not. -/
theorem readMesh?_ascii {m : Mesh}
    (hindices : ∀ t ∈ m.triangles, t.a.toNat < m.vertices.size ∧ t.b.toNat < m.vertices.size ∧
      t.c.toNat < m.vertices.size) {name : String} (hname : '\n' ∉ name.toList) :
    (ascii name m).toList.splitOn '\n' =
        (("solid " ++ name) :: ((facets m).flatMap fun f =>
          ["  facet normal " ++ " ".intercalate (f.normal.toList.map plainText),
            "    outer loop",
            "      vertex " ++ " ".intercalate (f.a.toList.map plainText),
            "      vertex " ++ " ".intercalate (f.b.toList.map plainText),
            "      vertex " ++ " ".intercalate (f.c.toList.map plainText),
            "    endloop",
            "  endfacet"]) ++ ["endsolid " ++ name, ""]).map String.toList ∧
      (∀ x : Float, ' ' ∉ (plainText x).toList ∧ readFloat? (plainText x).toList = some x) ∧
      readMesh? (ascii name m) = some (name, facets m) ∧
      List.Forall₂ (fun t f => m.vertices[t.a.toNat]? = some f.a ∧
        m.vertices[t.b.toNat]? = some f.b ∧ m.vertices[t.c.toNat]? = some f.c ∧
        f.normal = unitNormal f.a f.b f.c) m.triangles.toList (facets m) := by
  have hlines : (ascii name m).toList.splitOn '\n' =
      (asciiLines name m).map String.toList ++ [[]] :=
    splitOn_unlines (not_mem_asciiLines hname m)
  refine ⟨?_, fun x => ⟨not_mem_plainText x rfl, Double.readFloat?_plainText x⟩,
    readMesh?_of_lines hlines, forall₂_facets hindices⟩
  rw [hlines, asciiLines, List.map_append, List.map_append, List.append_assoc]
  rfl

theorem readMesh?_ascii_strangeNumbers :
    let m : Mesh := ⟨#[⟨-0.0, 1.0 / 0.0, 5e-324⟩, ⟨0.0 / 0.0, 0.1, -1e300⟩, ⟨3, -1.0 / 0.0, 0⟩],
      #[⟨0, 1, 2⟩, ⟨2, 2, 0⟩]⟩
    ((∀ t ∈ m.triangles, t.a.toNat < m.vertices.size ∧ t.b.toNat < m.vertices.size ∧
      t.c.toNat < m.vertices.size) ∧ '\n' ∉ "facet  endsolid ".toList) ∧
      readMesh? (ascii "facet  endsolid " m) = some ("facet  endsolid ", facets m) := by
  intro m
  have hindices : ∀ t ∈ m.triangles, t.a.toNat < m.vertices.size ∧
      t.b.toNat < m.vertices.size ∧ t.c.toNat < m.vertices.size := by decide
  have hname : '\n' ∉ "facet  endsolid ".toList := by decide
  exact ⟨⟨hindices, hname⟩, (readMesh?_ascii hindices hname).2.2.1⟩

end SolidScene.Stl
