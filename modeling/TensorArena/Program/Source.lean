import TensorArena.Codec.Fingerprint
import TensorArena.Compile.Settings
import TensorArena.Text.Block
import TensorArena.Text.Order

/-!
# Generated sources

The source unit of a program: a banner, the headers, the constants, the instances and one function
with a line for every step. The handlers write the code, the unit decides where it goes.
-/

set_option autoImplicit false

namespace TensorArena

/-- All that the source of a program is made from. -/
structure SourceUnit where
  graph : Graph
  plan : Plan
  table : InstanceTable
  catalog : Catalog
  settings : Settings
  fingerprint : UInt64

/-- The part of the source that one step brings. -/
structure Fragment where
  headers : List String := []
  /-- Code before the function. -/
  declaration : String := ""
  /-- Code inside the function. -/
  statement : String := ""

def Instance.form (shared : Instance) : InstanceForm where
  symbol := shared.symbol
  family := shared.key.family
  signature := shared.key.signature
  params := shared.key.params

/-! ### Constants -/

/-- The names tried for an array, in order: the base alone, then with a number. -/
def symbolCandidate (base : String) (attempt : Nat) : String :=
  if attempt = 0 then base else s!"{base}_{attempt}"

/-- The first candidate that is not in use. One more candidate than names in use are tried. -/
def freshSymbol (used : List String) (base : String) : String :=
  (((List.range (used.length + 1)).map (symbolCandidate base)).find? fun symbol =>
    !used.contains symbol).getD base

/-- Names and array symbols of the read-only tensors. -/
def arraySymbolsFrom (used : List String) : List PlanEntry → List (String × String)
  | [] => []
  | entry :: rest =>
    if entry.storage = .rom then
      let symbol := freshSymbol used (Identifier.sanitize entry.name ++ "_data")
      (entry.name, symbol) :: arraySymbolsFrom (symbol :: used) rest
    else arraySymbolsFrom used rest

def ConstantData.render : ConstantData → List String
  | floats values => values.map Literal.single
  | ints values => values.map fun value => toString value.toInt

namespace SourceUnit

def modelName (unit : SourceUnit) : String :=
  unit.settings.modelName.getD (Identifier.sanitize unit.graph.name)

def arraySymbols (unit : SourceUnit) : List (String × String) :=
  arraySymbolsFrom [] unit.plan.entries

/-- The array of a read-only tensor, of the last one if several have the name. -/
def arraySymbol? (unit : SourceUnit) (name : String) : Option String :=
  unit.arraySymbols.reverse.lookup name

def findTensor (unit : SourceUnit) (name : String) : Except ProgramError Tensor :=
  match unit.graph.tensor? name with
  | some tensor => .ok tensor
  | none => .error (.missingPlanEntry name)

def findInstance (unit : SourceUnit) (id : Nat) : Except ProgramError Instance :=
  match unit.table.get? id with
  | some shared => .ok shared
  | none => .error (.missingInstance s!"instance {id}")

def findHandler (unit : SourceUnit) (shared : Instance) : Except ProgramError Handler :=
  match unit.catalog.get? shared.key.opType with
  | some handler => .ok handler
  | none => .error (.missingHandler shared.key.opType)

/-- The definition of a constant's array, which has at least one element. -/
def arrayDefinition (tensor : Tensor) (symbol : String) : String :=
  let values := (tensor.data.map ConstantData.render).getD []
  s!"static const {tensor.kind.cType} {symbol}[{max values.length 1}] = " ++ braced values ++ ";"

def arrayDefinitions (unit : SourceUnit) : List PlanEntry → Except ProgramError String
  | [] => .ok ""
  | entry :: rest =>
    match unit.arraySymbol? entry.name with
    | none => unit.arrayDefinitions rest
    | some symbol => do
      let tensor ← unit.findTensor entry.name
      let others ← unit.arrayDefinitions rest
      return Block.reindent 0 (arrayDefinition tensor symbol) ++ others

/-! ### Steps -/

def quantizationArgument : Option Quantization → String
  | some quantization =>
    ", QuantParams(" ++ Literal.single quantization.scale ++ ", " ++
      toString quantization.zeroPoint.toInt ++ ")"
  | none => ""

/-- The class of a tensor in its storage, and the place of its elements there. -/
def storageTerm (unit : SourceUnit) (entry : PlanEntry) (name : String) :
    Except ProgramError (String × String) :=
  match entry.storage with
  | .arena offset _ => .ok ("RamTensor", toString offset)
  | .rom =>
    match unit.arraySymbol? name with
    | some symbol => .ok ("RomTensor", symbol)
    | none => .error (.missingPlanEntry name)

def registration (unit : SourceUnit) (name : String) : Except ProgramError String := do
  let tensor ← unit.findTensor name
  let some entry := unit.plan.entry? name | .error (.missingPlanEntry name)
  let (className, place) ← unit.storageTerm entry name
  let dims := braced (tensor.shape.map fun dim => toString dim.toNat)
  return unit.settings.contextName ++ ".add(new " ++ className ++ "<" ++ tensor.kind.cType ++
    ">(" ++ dims ++ ", " ++ place ++ quantizationArgument tensor.quantization ++ "), " ++
    Literal.quoted name ++ s!", {entry.refcount});"

/-- The fragment of a line of the function. -/
def statement (line : String) : Fragment := { statement := Block.reindent 1 line }

def renderStep (unit : SourceUnit) : Step → Except ProgramError Fragment
  | .declare id => do
    let shared ← unit.findInstance id
    let handler ← unit.findHandler shared
    return {
      headers := handler.descriptor.headers
      declaration := Block.reindent 0 ("static " ++ handler.declare shared.form) }
  | .construct id => do
    let shared ← unit.findInstance id
    let handler ← unit.findHandler shared
    return ((handler.construct shared.form).map statement).getD {}
  | .register tensor => do return statement (← unit.registration tensor)
  | .enqueue _ index id =>
    match unit.graph.operators[index]? with
    | none => .error (.noSuchOperator index)
    | some operator => do
      let shared ← unit.findInstance id
      let handler ← unit.findHandler shared
      return statement (handler.evaluate {
        target := shared.form
        context := unit.settings.contextName
        inputs := handler.descriptor.inputs.zip operator.inputs
        outputs := handler.descriptor.outputs.zip operator.outputs })
  | .flush => .ok (statement (unit.settings.contextName ++ ".eval();"))

/-! ### The unit -/

def banner (unit : SourceUnit) : String :=
  Block.reindent 0 (
    "// Generated by arenac from graph \"" ++ Literal.escape unit.graph.name ++
      "\". Do not edit.\n" ++
    "// fingerprint: 0x" ++ Fingerprint.hex unit.fingerprint ++ "\n" ++
    s!"// arena: {unit.plan.arenaSize} bytes, alignment {unit.plan.alignment}")

def includeLine (header : String) : String :=
  Block.reindent 0 ("#include " ++ Literal.quoted header)

/-- A section after an empty line, unless there is nothing in it. -/
def paragraph (text : String) : String := if text.isEmpty then "" else "\n" ++ text

def render (unit : SourceUnit) (steps : List Step) : Except ProgramError String := do
  let fragments ← steps.mapM unit.renderStep
  let constants ← unit.arrayDefinitions unit.plan.entries
  let headers :=
    distinctNames (unit.settings.runtimeHeader :: fragments.flatMap Fragment.headers)
  return unit.banner ++
    "\n" ++ String.join (headers.map includeLine) ++
    "\n" ++ Block.reindent 0 "using namespace uTensor;" ++
    "\n" ++ Block.reindent 0
      s!"const size_t {unit.modelName}_arena_size = {unit.plan.arenaSize};" ++
    paragraph constants ++
    paragraph (String.join (fragments.map Fragment.declaration)) ++
    "\n" ++ Block.reindent 0
      ("void " ++ unit.modelName ++ "_compute(Context& " ++ unit.settings.contextName ++
        ") \x7b") ++
    String.join (fragments.map Fragment.statement) ++
    Block.reindent 0 "\x7d"

end SourceUnit

end TensorArena
