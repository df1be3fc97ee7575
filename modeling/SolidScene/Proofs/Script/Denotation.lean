import SolidScene.Proofs.Script.Grammar
import SolidScene.Script.Meaning

/-!
# What a script denotes

The solids of a script, defined on its statements and without a parser.  Each call contributes a row
of solids, which depends on its name, its arguments and the rows that its children contribute.
`read_of_layout` says that reading any layout of a script gives what the script denotes.
-/

namespace SolidScene.Script

/-- What a call contributes, given the rows that its children contribute: a solid is settled by the
arguments alone, a difference takes the first solid of its first child, and any other call all that
its children contribute. -/
def contribution (factor : Float) (name : String) (arguments : List Argument)
    (children : List (List Solid)) : List Solid :=
  match kindOfCall? name with
  | some kind => (solid? factor kind arguments).toList
  | none => if name = "difference" then (children.headD []).take 1 else children.flatten

mutual

/-- The rows that the calls of a statement contribute.  A block contributes the rows of the
statements in it, and an empty statement none. -/
def Statement.contributions (factor : Float) : Statement → List (List Solid)
  | .empty => []
  | .block body => contributionsOf factor body
  | .call name arguments => [contribution factor name arguments []]
  | .callBlock name arguments body =>
    [contribution factor name arguments (contributionsOf factor body)]
  | .callNext name arguments next =>
    [contribution factor name arguments (next.contributions factor)]

/-- The rows that the calls of some statements contribute, in order. -/
def contributionsOf (factor : Float) : List Statement → List (List Solid)
  | [] => []
  | s :: rest => s.contributions factor ++ contributionsOf factor rest

end

/-- The solids that a script denotes. -/
def denotedSolids (factor : Float) (script : List Statement) : List Solid :=
  (contributionsOf factor script).flatten

theorem solids_call (factor : Float) (name : String) (arguments : List Argument)
    (children : List Node) :
    (Node.call name arguments children).solids factor =
      contribution factor name arguments (children.map (Node.solids factor)) := by
  unfold Node.solids contribution
  cases kindOfCall? name with
  | some kind => rfl
  | none =>
    by_cases hname : name = "difference"
    · cases children <;> simp [hname]
    · simp [hname, solidsOf_eq_flatMap, List.flatMap_def]

theorem contributionsOf_of_forall {factor : Float} {body : List Statement}
    (h : ∀ s ∈ body, s.contributions factor = s.nodes.map (Node.solids factor)) :
    contributionsOf factor body = (nodesOf body).map (Node.solids factor) := by
  induction body with
  | nil => rfl
  | cons s rest ih =>
    rw [contributionsOf, nodesOf, List.map_append, h s List.mem_cons_self,
      ih fun s hs => h s (List.mem_cons_of_mem _ hs)]

/-- The rows of a statement are the solids of its calls. -/
theorem contributions_eq_map (factor : Float) (s : Statement) :
    s.contributions factor = s.nodes.map (Node.solids factor) := by
  induction s with
  | empty => rfl
  | block body ih => rw [Statement.contributions, Statement.nodes, contributionsOf_of_forall ih]
  | call name arguments =>
    rw [Statement.contributions, Statement.nodes, List.map_singleton, solids_call, List.map_nil]
  | callBlock name arguments body ih =>
    rw [Statement.contributions, Statement.nodes, List.map_singleton, solids_call,
      contributionsOf_of_forall ih]
  | callNext name arguments next ih =>
    rw [Statement.contributions, Statement.nodes, List.map_singleton, solids_call, ih]

theorem flatMap_solids_nodesOf (factor : Float) (script : List Statement) :
    (nodesOf script).flatMap (Node.solids factor) = denotedSolids factor script := by
  rw [denotedSolids, contributionsOf_of_forall fun s _ => contributions_eq_map factor s,
    List.flatMap_def]

/-- **Reading any layout of a script gives what the script denotes.** -/
theorem read_of_layout (unit : LengthUnit) {script : List Statement}
    (hdepth : depthOf script ≤ 256) {text : String}
    (hlayout : Layout (tokensOf script) text.toList) :
    read unit text = denotedSolids unit.factor script := by
  rw [read, parse_of_layout hdepth hlayout, flatMap_solids_nodesOf]

/-- A box with nothing cut out of it. -/
def uncutBox : List Statement :=
  [.callNext "difference" [] (.call "cube" [⟨none, .number false ⟨2, 0⟩⟩]), .empty]

theorem layout_uncutBox :
    Layout (tokensOf uncutBox) "difference()/*hole*/cube(2); ;//end".toList := by
  have hnumber : Layout (.number ⟨2, 0⟩ :: .closeParen :: .semicolon :: .semicolon :: [])
      (['2'] ++ ')' :: ';' :: ' ' :: ';' :: "//end".toList) :=
    .token (.number rfl (by decide)) (fun _ => endsWord_cons (by decide) _)
      (.mark rfl (.mark rfl (.blank rfl (.mark rfl (.lastComment (by decide))))))
  have hbox : Layout (.word "cube" :: .openParen :: .number ⟨2, 0⟩ :: _)
      ("cube".toList ++ '(' :: "2); ;//end".toList) :=
    .word rfl (endsWord_cons (by decide) _) (.mark rfl hnumber)
  have hhole : ¬ ['*', '/'] <:+: "hole".toList := by decide
  have hafter : Layout (.word "cube" :: .openParen :: .number ⟨2, 0⟩ :: _)
      ('/' :: '*' :: ("hole".toList ++ '*' :: '/' :: "cube(2); ;//end".toList)) :=
    .blockComment hhole hbox
  exact .word rfl (endsWord_cons (by decide) _) (.mark rfl (.mark rfl hafter))

theorem read_of_layout_uncutBox :
    depthOf uncutBox ≤ 256 ∧
      Layout (tokensOf uncutBox) "difference()/*hole*/cube(2); ;//end".toList ∧
      read .centimeters "difference()/*hole*/cube(2); ;//end" =
        denotedSolids LengthUnit.centimeters.factor uncutBox :=
  ⟨by decide, layout_uncutBox, read_of_layout .centimeters (by decide) layout_uncutBox⟩

end SolidScene.Script
