import ValueDocs.Kernels.Declarations
import ValueDocs.Kernels.Directives
import ValueDocs.Kernels.Reconcile

/-!
# Registry — the kernels there are, and the order to run them in

A registry holds kernels of distinct names: a second one of a name is refused with a warning.  Two
indexes list the names by category and by stage, and are kept along with the kernels.  The built-in
kernels join at the first lookup.  Some kernels and all they require are ordered so that each comes
after those it requires, the least name first among those that are ready.
-/

namespace ValueDocs

/-- Names under keys: each key has the names that were filed under it, in that order. -/
abbrev Index (κ : Type) := List (κ × List String)

namespace Index

variable {κ : Type} [DecidableEq κ]

/-- The names under a key. -/
def names (index : Index κ) (key : κ) : List String := (index.lookup key).getD []

/-- The index with one more name under a key. -/
def file (key : κ) (name : String) : Index κ → Index κ
  | [] => [(key, [name])]
  | (k, names) :: rest =>
    if k = key then (k, names ++ [name]) :: rest else (k, names) :: file key name rest

end Index

/-- The kernels that are known, in the order they were registered. -/
structure Registry where
  kernels : List Kernel := []
  /-- The names of the kernels by category. -/
  categories : Index String := []
  /-- The names of the kernels by stage. -/
  stages : Index Int := []
  /-- Whether the built-in kernels have joined. -/
  discovered : Bool := false
  deriving Inhabited

namespace Registry

/-- The built-in kernels, in the order they join. -/
def builtIn : List Kernel := [Kernels.declarations, Kernels.directives, Kernels.reconcile]

/-- The registered kernel of a name. -/
def find? (r : Registry) (name : String) : Option Kernel := r.kernels.find? (·.name = name)

/-- The registry with a kernel, unless its name is taken. -/
def register (r : Registry) (k : Kernel) : Logged Registry :=
  match r.find? k.name with
  | none =>
    pure { r with
      kernels := r.kernels ++ [k]
      categories := r.categories.file k.category k.name
      stages := r.stages.file k.stage k.name }
  | some existing => do
    if existing.origin ≠ k.origin then
      Logged.warn ("Kernel '" ++ k.name ++ "' already registered (existing: " ++
        existing.module ++ ", new: " ++ k.module ++ ")")
    return r

/-- The registry with the kernels that a discovery has found, and how many they are; a discovery
happens once, and another only tells the number of all kernels. -/
def discover (r : Registry) (found : List Kernel) : Logged (Nat × Registry) := do
  if r.discovered then return (r.kernels.length, r)
  let r ← found.foldlM register r
  return (found.length, { r with discovered := true })

/-- The packages that can be searched for kernels. -/
def packages : List (String × List Kernel) :=
  [("docval_kernels", builtIn), ("docval_kernels.values", builtIn),
    ("docval_kernels.values.kernels", builtIn), ("docval_kernels.values.cli", []),
    ("docval_core", [])]

/-- The registry with the kernels of a package, and how many they are; an unknown package cannot be
searched, and has none. -/
def discoverPackage (r : Registry) (package : String) : Logged (Nat × Registry) :=
  match packages.lookup package with
  | some found => r.discover found
  | none => return (if r.discovered then r.kernels.length else 0, r)

/-- The registry after the discovery of the built-in kernels, unless another came first. -/
def ensure (r : Registry) : Logged Registry := return (← r.discover builtIn).2

/-! ## Lookups -/

/-- The names of all kernels. -/
def names (r : Registry) : List String := (r.kernels.map (·.name)).mergeSort

/-- The names of the kernels of a category. -/
def namesOfCategory (r : Registry) (category : String) : List String :=
  (r.categories.names category).mergeSort

/-- The names of the kernels of a stage. -/
def namesOfStage (r : Registry) (stage : Int) : List String := (r.stages.names stage).mergeSort

/-- The names of the kernels of a stage that may be any tree: one that is no whole number has
none. -/
def namesAt (r : Registry) (stage : Json) : Outcome (List String) := do
  return ((← stage.keptBy).wholeValue?.map r.namesOfStage).getD []

/-- The names of the kernels of a category, or else of a stage, or else of all. -/
def list (r : Registry) (category : Option String) (stage : Json) : Outcome (List String) :=
  match category.filter (· ≠ "") with
  | some c => .ok (r.namesOfCategory c)
  | none => if stage = .null then .ok r.names else r.namesAt stage

/-- The kernel of a name. -/
def get (r : Registry) (name : String) : Outcome Kernel :=
  match r.find? name with
  | some k => .ok k
  | none => .error (.unknownKernel name r.names)

/-! ## Order -/

/-- What a kernel requires beyond the names that are known. -/
def further (known : List String) (k : Kernel) : List String :=
  (Metadata.distinct k.requires).filter (!known.contains ·)

/-- The names that are known, with all that the kernels of the names on a stack require; no more
than `steps` are taken from the stack. -/
def expand (r : Registry) : Nat → List String → List String → Outcome (List String)
  | _, known, [] => .ok known
  | 0, known, _ :: _ => .ok known
  | steps + 1, known, name :: stack => do
    let new := further known (← r.get name)
    r.expand steps (known ++ new) (new.reverse ++ stack)

/-- Some names, and all that their kernels require. -/
def closure (r : Registry) (names : List String) : Outcome (List String) :=
  let steps := names.length + (r.kernels.flatMap (·.requires)).length
  r.expand steps (Metadata.distinct names) names.reverse

/-- A kernel to put in order, and how many of those it requires are not in order yet. -/
structure Pending where
  name : String
  requires : List String
  lacking : Int

/-- The kernel of a name before any is put in order. -/
def pending (r : Registry) (name : String) : Outcome Pending := do
  let requires := Metadata.distinct (← r.get name).requires
  return ⟨name, requires, requires.length⟩

/-- The kernel once a name is put in order. -/
def Pending.after (name : String) (k : Pending) : Pending :=
  if k.requires.contains name then { k with lacking := k.lacking - 1 } else k

/-- Whether a name is the last that the kernel lacks. -/
def Pending.isReleased (name : String) (k : Pending) : Bool :=
  k.requires.contains name && (k.after name).lacking = 0

/-- The order in which kernels lack nothing more, the least name of a queue first, after those that
are done. -/
def schedule : Nat → List Pending → List String → List String → List String
  | 0, _, _, done => done
  | steps + 1, ks, queue, done =>
    match queue.mergeSort with
    | [] => done
    | name :: queue =>
      let released := (ks.filter (·.isReleased name)).map (·.name)
      schedule steps (ks.map (·.after name)) (queue ++ released) (done ++ [name])

/-- Kernels in order, each after those it requires. -/
def arrange (ks : List Pending) : Outcome (List String) :=
  let queue := (ks.filter (·.lacking = 0)).map (·.name)
  let order := schedule ks.length ks queue []
  if order.length = ks.length then .ok order
  else .error (.circular ((ks.map (·.name)).filter (!order.contains ·)).mergeSort)

/-- Some kernels and all they require, each after those it requires. -/
def resolve (r : Registry) (names : List String) : Outcome (List String) := do
  arrange (← (← r.closure names).mapM r.pending)

end Registry
end ValueDocs
