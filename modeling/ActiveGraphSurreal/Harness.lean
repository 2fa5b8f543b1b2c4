import ActiveGraphSurreal.Errors
import Mathlib.Data.List.Basic

/-!
# The pack harness

`import_pack` works on two tables of the Python process, `sys.path` and `sys.modules`. A dotted
module name is the list of its parts. A cached module is known by the directory of the package
`packs` that it was loaded from.
-/

namespace ActiveGraphSurreal

abbrev ModuleName := List String

/-- The directories as the importer of Python finds them, none of which changes. -/
structure Checkouts (Dir : Type) where
  /-- `(Path(entry) / "packs").resolve()` -/
  packs : String → Dir
  /-- The directory is a regular package. -/
  holds : Dir → Bool
  /-- The package has the module, and its code runs. -/
  contains : Dir → ModuleName → Bool
  /-- The modules of `packs`, named without it, that the code of a module imports in turn. -/
  alongside : Dir → ModuleName → List ModuleName

/-- `sys.path` and `sys.modules` -/
structure Process (Dir : Type) where
  path : List String
  modules : ModuleName → Option Dir

namespace Harness

variable {Dir : Type} (fs : Checkouts Dir)

/-! ### The importer -/

def dotted (name : ModuleName) : String := ".".intercalate name

def noModule (name : ModuleName) : PyErr :=
  ⟨.other "ModuleNotFoundError", "No module named '" ++ dotted name ++ "'"⟩

/-- The entry of `sys.path` from which `packs` is imported. -/
def firstEntry (path : List String) : Option String := path.find? fun entry => fs.holds (fs.packs entry)

/-- The module and what its code imports are in `sys.modules`. -/
def register (d : Dir) (name : ModuleName) (modules : ModuleName → Option Dir) :
    ModuleName → Option Dir := fun n =>
  if n = name ∨ n ∈ (fs.alongside d name).map ("packs" :: ·) then modules n <|> some d
  else modules n

/-- `importlib.import_module` of a module of `packs`, given by its last part, the part before
it and so on down to the one after `packs`. A cached module is taken as it is; otherwise the
package that it is in is imported first. -/
def importModule (path : List String) :
    List String → (ModuleName → Option Dir) → Except PyErr Dir × (ModuleName → Option Dir)
  | [], modules =>
    match modules ["packs"] with
    | some d => (.ok d, modules)
    | none =>
      match firstEntry fs path with
      | none => (.error (noModule ["packs"]), modules)
      | some entry => (.ok (fs.packs entry), register fs (fs.packs entry) ["packs"] modules)
  | part :: parents, modules =>
    let name := "packs" :: (part :: parents).reverse
    match modules name with
    | some d => (.ok d, modules)
    | none =>
      match importModule path parents modules with
      | (.error e, modules') => (.error e, modules')
      | (.ok d, modules') =>
        match modules' name with
        | some d' => (.ok d', modules')
        | none =>
          if fs.contains d name then (.ok d, register fs d name modules')
          else (.error (noModule name), modules')

/-! ### The harness -/

variable [DecidableEq Dir]

/-- Drops a cached `packs` that came from a different checkout. -/
def evictForeignPacks (root : String) (p : Process Dir) : Process Dir :=
  match p.modules ["packs"] with
  | none => p
  | some d =>
    if fs.packs root = d then p
    else { p with modules := fun name => if name.head? = some "packs" then none else p.modules name }

def ensureImportable (root : String) (p : Process Dir) : Process Dir :=
  evictForeignPacks fs root
    (if root ∈ p.path then p else { p with path := root :: p.path })

/-- `import_pack(module_name, root=root)`: the directory that the module is from. -/
def importPack (root : String) (moduleName : ModuleName) (p : Process Dir) :
    Except PyErr Dir × Process Dir :=
  let p := ensureImportable fs root p
  match importModule fs p.path moduleName.reverse p.modules with
  | (.ok d, modules) => (.ok d, { p with modules })
  | (.error e, modules) => (.error ⟨.other "PackHarnessError",
      "could not import " ++ dotted ("packs" :: moduleName) ++ ": " ++ e.text⟩, { p with modules })

/-- Calls one after the other. -/
def importAll : List (String × ModuleName) → Process Dir → List (Except PyErr Dir)
  | [], _ => []
  | (root, moduleName) :: calls, p =>
    (importPack fs root moduleName p).1 :: importAll calls (importPack fs root moduleName p).2

end Harness

end ActiveGraphSurreal
