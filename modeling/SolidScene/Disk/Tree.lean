import SolidScene.Disk.Access

/-!
# A tree of files and folders

A `Disk.Tree` says what there is at each path, and which folder is the current one.  A path text
is followed name by name: each name but the last has to be that of a folder, `.` and an empty
name stay in it, and `..` goes back to the one above.
-/

namespace SolidScene.Disk

/-- What can be at a path. -/
inductive Entry
  | file (content : ByteArray)
  | folder

/-- What there is at each path below the root, and the current folder. -/
structure Tree where
  entries : Path → Option Entry
  current : Path

/-- Why a path text leads nowhere. -/
inductive Fault
  | missing
  | notFolder
  | nameTooLong
  deriving DecidableEq, Repr

namespace Tree

/-- The tree without a file. -/
def empty : Tree := ⟨fun _ => none, []⟩

/-- What there is at a path; the root is always a folder. -/
def lookup? (t : Tree) (p : Path) : Option Entry := if p = [] then some .folder else t.entries p

/-- The tree with an entry put at a path. -/
def put (t : Tree) (p : Path) (e : Entry) : Tree :=
  { t with entries := fun q => if q = p then some e else t.entries q }

/-- The content of the file at a path. -/
def content? (t : Tree) (p : Path) : Option ByteArray :=
  match t.lookup? p with
  | some (.file content) => some content
  | _ => none

/-! ### Following a path text -/

/-- The most bytes that a name may have. -/
def longestName : Nat := 255

/-- The path that a row of names leads to from a folder. -/
def follow (t : Tree) (start : Path) : List String → Except Fault Path
  | [] => .ok start
  | name :: rest =>
    match t.lookup? start with
    | none => .error .missing
    | some (.file _) => .error .notFolder
    | some .folder =>
      if staysPut name then t.follow start rest
      else if name = ".." then t.follow start.dropLast rest
      else if name.utf8ByteSize > longestName then .error .nameTooLong
      else if (t.lookup? (start ++ [name])).isNone then .error .missing
      else t.follow (start ++ [name]) rest

/-- Where a path text starts, and the names in it. -/
def split (t : Tree) (text : String) : Path × List String :=
  match namesOf text with
  | "" :: names => ([], names)
  | names => (t.current, names)

/-- The path of the existing file or folder that a path text names. -/
def find (t : Tree) (text : String) : Except Fault Path :=
  if text = "" then .error .missing
  else if text.utf8ByteSize > longestPath then .error .nameTooLong
  else t.follow (t.split text).1 (t.split text).2

/-- The path at which a file of this path text is, or would be made. -/
def findTarget (t : Tree) (text : String) : Except Fault Path := do
  if text.utf8ByteSize > longestPath then throw .nameTooLong
  let (start, names) := t.split text
  let name := names.getLast?.getD ""
  if staysPut name ∨ name = ".." then throw .notFolder
  if name.utf8ByteSize > longestName then throw .nameTooLong
  let above ← t.follow start names.dropLast
  match t.lookup? above with
  | some .folder => return above ++ [name]
  | _ => throw .notFolder

/-! ### Requests -/

/-- What there is at a path text. -/
def status (t : Tree) (text : String) : Status :=
  match t.find text with
  | .ok p => if (t.content? p).isSome then .file else .folder
  | .error .missing => .missing
  | .error _ => .unreachable

/-- The content of the file that a path text names. -/
def read? (t : Tree) (text : String) : Option ByteArray :=
  match t.find text with
  | .ok p => t.content? p
  | .error _ => none

/-- The tree with a file written; none where there can be no file. -/
def write? (t : Tree) (text : String) (content : ByteArray) : Option Tree :=
  match t.findTarget text with
  | .ok p =>
    match t.lookup? p with
    | some .folder => none
    | _ => some (t.put p (.file content))
  | .error _ => none

/-- The tree with the folders made that a row of names leads through, up to the first that cannot be
made. -/
def makeAlong (t : Tree) (start : Path) : List String → Tree
  | [] => t
  | name :: rest =>
    if staysPut name then t.makeAlong start rest
    else if name = ".." then t.makeAlong start.dropLast rest
    else if name.utf8ByteSize > longestName then t
    else match t.lookup? (start ++ [name]) with
      | some (.file _) => t
      | some .folder => t.makeAlong (start ++ [name]) rest
      | none => (t.put (start ++ [name]) .folder).makeAlong (start ++ [name]) rest

/-- The tree with the folder of a path text and those above it made as far as they can be. -/
def makeFolders (t : Tree) (text : String) : Tree :=
  if text.utf8ByteSize > longestPath then t
  else t.makeAlong (t.split text).1 (t.split text).2

instance : Access (StateM Tree) where
  current := return (← get).current
  status text := return (← get).status text
  read text := return (← get).read? text
  makeFolders text := modify (·.makeFolders text)
  write text content := do
    match (← get).write? text content with
    | some t => set t; return true
    | none => return false

end Tree

end SolidScene.Disk
