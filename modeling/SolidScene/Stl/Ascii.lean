import SolidScene.Decimal.Layout
import SolidScene.Stl.Facet

/-!
# Meshes as lines of text

The text form of a mesh frames its facets by two lines that carry a name.  A facet takes seven
lines, numbers are written with the fewest digits that read back, and every line ends in a line
break.
-/

namespace SolidScene.Stl

/-- Lines, each with its line break. -/
def unlines (lines : List String) : String := String.join (lines.map (· ++ "\n"))

/-- Three numbers with blanks between them. -/
def coordinates (v : Vec3) : String := " ".intercalate (v.toList.map plainText)

/-- The line of a corner. -/
def vertexLine (v : Vec3) : String := "      vertex " ++ coordinates v

/-- The lines of a facet. -/
def Facet.lines (f : Facet) : List String :=
  ["  facet normal " ++ coordinates f.normal, "    outer loop", vertexLine f.a, vertexLine f.b,
    vertexLine f.c, "    endloop", "  endfacet"]

/-- A facet as text. -/
def Facet.text (f : Facet) : String := unlines f.lines

/-- The lines of a mesh. -/
def asciiLines (name : String) (m : Mesh) : List String :=
  ("solid " ++ name) :: (facets m).flatMap Facet.lines ++ ["endsolid " ++ name]

/-- A mesh as text. -/
def ascii (name : String) (m : Mesh) : String := unlines (asciiLines name m)

end SolidScene.Stl
