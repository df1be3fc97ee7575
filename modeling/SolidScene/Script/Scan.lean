import SolidScene.Decimal.Numeral
import SolidScene.Script.Meaning
import SolidScene.Text.Blank

/-!
# Picking bare solids out of a text

`scan` looks for three fixed forms of call anywhere in a text, whatever stands around them.
A `Pattern` is a row of pieces: fixed text, white space, and rows of digits and points.  Each
kind has its own pattern and is looked for by itself, so the result lists boxes, then spheres,
then cylinders.  Numbers are taken as written: no unit is applied, and no size is left out.
-/

namespace SolidScene.Script

open Text

/-- A part of a pattern. -/
inductive Piece
  /-- This text. -/
  | exactly (text : List Char)
  /-- White space, which may be missing. -/
  | blanks
  /-- A row of digits and points, which is kept. -/
  | figures
  deriving DecidableEq, Repr

/-- A row of pieces, each standing right after the one before. -/
abbrev Pattern := List Piece

/-- A digit or a point. -/
def isFigure (c : Char) : Bool := c.isDigit || c == '.'

/-- The text after a fixed start, if it starts so. -/
def after? : (start text : List Char) → Option (List Char)
  | [], text => some text
  | _ :: _, [] => none
  | c :: start, d :: text => if c = d then after? start text else none

/-- The rows of figures of a pattern that stands at the start of a text. -/
def Pattern.match? : Pattern → List Char → Option (List (List Char))
  | [], _ => some []
  | .exactly start :: rest, text => (after? start text).bind (match? rest)
  | .blanks :: rest, text => match? rest (skipBlanks text)
  | .figures :: rest, text =>
    if (text.takeWhile isFigure).isEmpty then none
    else (match? rest (text.dropWhile isFigure)).map (text.takeWhile isFigure :: ·)

/-- Fixed text with white space before it. -/
def mark (text : String) : Pattern := [.blanks, .exactly text.toList]

/-- `cube([n, n, n])`. -/
def boxPattern : Pattern :=
  [.exactly "cube".toList] ++ mark "(" ++ mark "[" ++ [.figures, .exactly [','], .blanks, .figures,
    .exactly [','], .blanks, .figures, .exactly [']']] ++ mark ")"

/-- `sphere(r=n)`. -/
def spherePattern : Pattern :=
  [.exactly "sphere".toList] ++ mark "(" ++ mark "r" ++ mark "=" ++ [.blanks, .figures] ++ mark ")"

/-- `cylinder(r=n, h=n)`. -/
def cylinderPattern : Pattern :=
  [.exactly "cylinder".toList] ++ mark "(" ++ mark "r" ++ mark "=" ++ [.blanks, .figures] ++
    [.exactly [',']] ++ mark "h" ++ mark "=" ++ [.blanks, .figures] ++ mark ")"

/-- The pattern of the calls that make solids of a kind. -/
def patternOf : Kind → Pattern
  | .box => boxPattern
  | .sphere => spherePattern
  | .cylinder => cylinderPattern

/-- The solid of a kind whose pattern stands at the start of a text.  Its length is what the first
row of figures says before a second point. -/
def solidAt? (kind : Kind) (text : List Char) : Option Solid :=
  ((patternOf kind).match? text).bind fun rows =>
    (rows.head?.bind fun row => (Decimal.scan row).1).map fun length =>
      ⟨kind, scaleOfLength kind length.toFloat⟩

/-- The solids of a kind from each place of a text on where its pattern stands, after the solids
`found`, the last of which comes first. -/
def scanFrom (kind : Kind) (found : List Solid) : List Char → List Solid
  | [] => found.reverse
  | c :: cs => scanFrom kind ((solidAt? kind (c :: cs)).toList ++ found) cs

/-- The solids of a kind in a text, in the order of the text. -/
def scanKind (kind : Kind) (text : List Char) : List Solid := scanFrom kind [] text

/-- The bare solids of a text: boxes, then spheres, then cylinders. -/
def scan (text : String) : List Solid :=
  Kind.all.flatMap fun kind => scanKind kind text.toList

end SolidScene.Script
