import TensorArena.Proofs.Compile.Source
import TensorArena.Proofs.Program.Arrays
import TensorArena.Proofs.Tensor.Size
import TensorArena.Proofs.Text.Literals

/-!
# The constants of a compiled graph

A compiled source has an array for every constant tensor. It holds the values of the tensor, as many
as the shape has elements, and the tensor is registered with it and with no other array.
-/

set_option autoImplicit false

namespace TensorArena

/-! ### Values -/

/-- The texts denote the values, in their order. -/
inductive ConstantData.Spelled : ConstantData → List String → Prop where
  | floats {values : List Binary32} {texts : List String}
    (denoted : List.Forall₂ (Literal.Denotes "f") texts values) : Spelled (.floats values) texts
  | ints (values : List Int64) :
    Spelled (.ints values) (values.map fun value => toString value.toInt)

theorem ConstantData.spelled_render (data : ConstantData) : data.Spelled data.render := by
  cases data with
  | floats values =>
    apply Spelled.floats
    unfold render
    rw [List.forall₂_map_left_iff, List.forall₂_same]
    exact fun value _ => Literal.denotes_floating "f" value
  | ints values => exact .ints values

theorem ConstantData.length_render (data : ConstantData) : data.render.length = data.length := by
  cases data with
  | floats values => exact List.length_map ..
  | ints values => exact List.length_map ..

/-- The line defines an array whose initialisers are the values of the tensor, one for each of its
elements; an array is not empty even if the tensor is. -/
def Tensor.DefinedBy (tensor : Tensor) (symbol line : String) : Prop :=
  ∃ data values, tensor.data = some data ∧ data.Spelled values ∧
    values.length = tensor.elements ∧
    line = "static const " ++ tensor.kind.cType ++ " " ++ symbol ++ "[" ++
      toString (max tensor.elements 1) ++ "] = \x7b" ++ ", ".intercalate values ++ "\x7d;"

/-- No constant of the graph has as many values as there are addresses of a machine but one. -/
def Graph.Storable (graph : Graph) : Prop :=
  ∀ tensor ∈ graph.tensors, ∀ data, tensor.data = some data → data.length ≠ sizeLimit - 1

/-- A constant that passes its check has a value for each of its elements. -/
theorem Tensor.length_of_check {tensor : Tensor} {data : ConstantData}
    (checked : tensor.check = .ok ()) (isData : tensor.data = some data)
    (storable : data.length ≠ sizeLimit - 1) : data.length = tensor.elements := by
  have ⟨held, _⟩ := check_bind_eq_ok.mp checked
  unfold checkData at held
  rw [isData] at held
  dsimp only at held
  split at held
  next same =>
    cases counted : tensor.elementCount? with
    | none =>
      rw [counted] at same
      exact absurd same storable
    | some count =>
      rw [counted] at same
      rw [same, ← (elementCount?_eq_some_iff.mp counted).1]
      rfl
  · cases held

theorem Tensor.definedBy_arrayDefinition {tensor : Tensor} (constant : tensor.isConstant = true)
    (checked : tensor.check = .ok ())
    (storable : ∀ data, tensor.data = some data → data.length ≠ sizeLimit - 1) (symbol : String) :
    tensor.DefinedBy symbol (SourceUnit.arrayDefinition tensor symbol) := by
  have ⟨data, isData⟩ := Option.isSome_iff_exists.mp constant
  have length : data.render.length = tensor.elements := by
    rw [data.length_render]
    exact length_of_check checked isData (storable data isData)
  refine ⟨data, data.render, isData, data.spelled_render, length, ?_⟩
  unfold SourceUnit.arrayDefinition
  rw [isData, Option.map_some, Option.getD_some]
  dsimp only
  rw [length]
  apply String.toList_inj.mp
  simp [braced, toString]

/-! ### Constants and their arrays -/

theorem Graph.role?_eq_constant_iff {graph : Graph}
    (distinct : (graph.tensors.map Tensor.name).Nodup) {tensor : Tensor}
    (member : tensor ∈ graph.tensors) :
    graph.role? tensor.name = some .constant ↔ tensor.isConstant = true := by
  unfold role?
  rw [tensor?_name distinct member, Option.map_some, Option.some.injEq]
  constructor
  · intro role
    by_contra other
    rw [if_neg other] at role
    split at role <;> cases role
  · exact fun constant => if_pos constant

/-- The plan keeps exactly the constants in read-only storage. -/
theorem Graph.Planned.stored {graph : Graph} {lifetimes : Lifetimes} {options : ArenaOptions}
    {plan : Plan} (planned : graph.Planned lifetimes options plan) :
    List.Forall₂ (fun entry tensor => entry.name = tensor.name ∧
      (entry.role = .constant ↔ tensor.isConstant = true) ∧
      (entry.storage = .rom ↔ tensor.isConstant = true)) plan.entries graph.tensors := by
  rw [List.forall₂_iff_get]
  refine ⟨planned.fits.length, ?_⟩
  intro position inside bound
  have isTensor : graph.tensors[position]? = some graph.tensors[position] :=
    List.getElem?_eq_getElem bound
  have ⟨lifetime, declares⟩ := planned.exact.declares_of_tensor isTensor
  have ⟨entry, found, records⟩ := planned.fits.records _ _ _ declares
  have ⟨named, known⟩ := declares.pair planned.exact
  have same : plan.entries[position] = entry :=
    Option.some.inj ((List.getElem?_eq_getElem inside).symm.trans found)
  have role : lifetime.role = .constant ↔ graph.tensors[position].isConstant = true := by
    rw [← role?_eq_constant_iff planned.exact.distinct (List.getElem_mem bound), ← named,
      known.role, Option.some.injEq]
  rw [List.get_eq_getElem, List.get_eq_getElem, same]
  refine ⟨records.name.trans named, records.role ▸ role, ?_⟩
  rw [← role]
  constructor
  · intro isRom
    by_contra held
    have ⟨_, _, isArena, _⟩ := records.sized held
    rw [isRom] at isArena
    cases isArena
  · exact records.constant

theorem Graph.Planned.rom_iff {graph : Graph} {lifetimes : Lifetimes} {options : ArenaOptions}
    {plan : Plan} (planned : graph.Planned lifetimes options plan) {entry : PlanEntry}
    (listed : entry ∈ plan.entries) {tensor : Tensor} (member : tensor ∈ graph.tensors)
    (named : entry.name = tensor.name) : entry.storage = .rom ↔ tensor.isConstant = true := by
  have ⟨position, inside, found⟩ := List.mem_iff_getElem.mp listed
  have bound : position < graph.tensors.length := planned.stored.length_eq ▸ inside
  have ⟨sameName, _, stored⟩ := (List.forall₂_iff_get.mp planned.stored).2 position inside bound
  rw [List.get_eq_getElem, List.get_eq_getElem, found] at sameName stored
  have same := eq_of_name_eq Tensor.name planned.exact.distinct (List.getElem_mem bound) member
    (sameName.symm.trans named)
  rw [same] at stored
  exact stored

namespace SourceUnit

/-- The constants of the graph, in the order of the plan. -/
def constants (unit : SourceUnit) : List Tensor := unit.graph.tensors.filter Tensor.isConstant

/-- The symbols of the arrays, in the order of the plan. -/
def symbols (unit : SourceUnit) : List String := unit.arraySymbols.map Prod.snd

section

variable {unit : SourceUnit} {lifetimes : Lifetimes} {options : ArenaOptions}

/-- The names of the entries with some property are those of the tensors with another one, if the
entry of a tensor has the one exactly when the tensor has the other. -/
theorem map_name_filter {entries : List PlanEntry} {tensors : List Tensor}
    {stored : PlanEntry → Bool} {constant : Tensor → Bool}
    (aligned : List.Forall₂ (fun entry tensor => entry.name = tensor.name ∧
      stored entry = constant tensor) entries tensors) :
    (entries.filter stored).map PlanEntry.name = (tensors.filter constant).map Tensor.name := by
  induction aligned with
  | nil => rfl
  | @cons entry tensor _ _ first _ ih =>
    rw [List.filter_cons, List.filter_cons, first.2]
    split
    · rw [List.map_cons, List.map_cons, first.1, ih]
    · exact ih

theorem arrayNames_eq_filter (unit : SourceUnit) : unit.arrayNames =
    (unit.plan.entries.filter fun entry => entry.storage = .rom).map PlanEntry.name :=
  arraySymbolsFrom_names [] unit.plan.entries

theorem arrayNames_eq (planned : unit.graph.Planned lifetimes options unit.plan) :
    unit.arrayNames = unit.constants.map Tensor.name := by
  rw [arrayNames_eq_filter]
  apply map_name_filter
  apply planned.stored.imp
  intro entry tensor same
  refine ⟨same.1, ?_⟩
  rw [Bool.eq_iff_iff, decide_eq_true_eq]
  exact same.2.2

theorem arraySymbols_eq (planned : unit.graph.Planned lifetimes options unit.plan) :
    unit.arraySymbols = (unit.constants.map Tensor.name).zip unit.symbols := by
  rw [← arrayNames_eq planned]
  exact List.zip_of_prod rfl rfl

theorem distinct_reverse (planned : unit.graph.Planned lifetimes options unit.plan) :
    (unit.arraySymbols.reverse.map Prod.fst).Nodup := by
  rw [List.map_reverse, List.nodup_reverse]
  show unit.arrayNames.Nodup
  rw [arrayNames_eq planned]
  exact (List.filter_sublist.map Tensor.name).nodup planned.exact.distinct

theorem arraySymbol?_eq_some_iff_mem (planned : unit.graph.Planned lifetimes options unit.plan)
    {name symbol : String} :
    unit.arraySymbol? name = some symbol ↔ (name, symbol) ∈ unit.arraySymbols := by
  unfold arraySymbol?
  rw [lookup_eq_some_iff_mem (distinct_reverse planned), List.mem_reverse]

/-- The array of a name is that of the constant with the name. -/
theorem arraySymbol?_eq_some_iff (planned : unit.graph.Planned lifetimes options unit.plan)
    {name symbol : String} : unit.arraySymbol? name = some symbol ↔
      ∃ tensor, (tensor, symbol) ∈ unit.constants.zip unit.symbols ∧ tensor.name = name := by
  rw [arraySymbol?_eq_some_iff_mem planned, arraySymbols_eq planned, List.zip_map_left,
    List.mem_map]
  constructor
  · intro ⟨pair, member, same⟩
    have ⟨named, isSymbol⟩ := Prod.mk.inj same
    exact ⟨pair.1, isSymbol ▸ member, named⟩
  · intro ⟨tensor, member, named⟩
    exact ⟨(tensor, symbol), member, by rw [← named]; rfl⟩

/-- A tensor that is no constant has no array. -/
theorem arraySymbol?_eq_none (planned : unit.graph.Planned lifetimes options unit.plan)
    {entry : PlanEntry} (member : entry ∈ unit.plan.entries) (held : entry.storage ≠ .rom) :
    unit.arraySymbol? entry.name = none := by
  apply lookup_eq_none_iff.mpr
  rw [List.map_reverse, List.mem_reverse]
  show entry.name ∉ unit.arrayNames
  rw [arrayNames_eq_filter]
  intro listed
  have ⟨other, inside, named⟩ := List.mem_map.mp listed
  have ⟨isOther, isRom⟩ := List.mem_filter.mp inside
  have same := eq_of_name_eq PlanEntry.name (planned.fits.distinct planned.exact) isOther member named
  rw [same] at isRom
  exact held (of_decide_eq_true isRom)

theorem arrayRows_of_aligned {entries : List PlanEntry} {tensors : List Tensor}
    {used : List String}
    (aligned : List.Forall₂ (fun entry tensor => entry.name = tensor.name ∧
      (entry.storage = .rom ↔ tensor.isConstant = true)) entries tensors)
    (declared : ∀ tensor ∈ tensors, unit.graph.tensor? tensor.name = some tensor)
    (arrays : ∀ pair ∈ arraySymbolsFrom used entries, unit.arraySymbol? pair.1 = some pair.2)
    (others : ∀ entry ∈ entries, entry.storage ≠ .rom → unit.arraySymbol? entry.name = none) :
    unit.arrayRows entries = List.zipWith arrayDefinition (tensors.filter Tensor.isConstant)
      ((arraySymbolsFrom used entries).map Prod.snd) := by
  induction aligned generalizing used with
  | nil => rfl
  | @cons entry tensor entries tensors first _ ih =>
    rw [List.forall_mem_cons] at declared others
    unfold arrayRows
    rw [List.filterMap_cons]
    by_cases constant : entry.storage = .rom
    · rw [arraySymbolsFrom_cons constant, List.forall_mem_cons] at arrays
      rw [arraySymbolsFrom_cons constant, List.filter_cons_of_pos (first.2.mp constant), arrays.1,
        Option.bind_some, first.1, declared.1, ← first.1]
      exact congrArg (_ :: ·) (ih declared.2 arrays.2 others.2)
    · rw [arraySymbolsFrom_skip constant] at arrays ⊢
      rw [List.filter_cons_of_neg (mt first.2.mpr constant), others.1 constant]
      exact ih declared.2 arrays others.2

/-- There is one row for each constant. -/
theorem arrayRows_eq (planned : unit.graph.Planned lifetimes options unit.plan) :
    unit.arrayRows unit.plan.entries =
      List.zipWith arrayDefinition unit.constants unit.symbols := by
  apply arrayRows_of_aligned (planned.stored.imp fun _ _ same => ⟨same.1, same.2.2⟩)
  · exact fun tensor member => Graph.tensor?_name planned.exact.distinct member
  · intro pair member
    exact (arraySymbol?_eq_some_iff_mem planned).mpr member
  · exact fun entry member held => arraySymbol?_eq_none planned member held

end

/-! ### The section of the constants -/

/-- What comes before the constants in a source. -/
def opening (unit : SourceUnit) (fragments : List Fragment) : String :=
  unit.banner ++
    "\n" ++ String.join ((distinctNames
      (unit.settings.runtimeHeader :: fragments.flatMap Fragment.headers)).map includeLine) ++
    "\n" ++ Block.reindent 0 "using namespace uTensor;" ++
    "\n" ++ Block.reindent 0
      s!"const size_t {unit.modelName}_arena_size = {unit.plan.arenaSize};"

/-- What comes after the constants: the instances and the function. -/
def closing (unit : SourceUnit) (fragments : List Fragment) : String :=
  paragraph (String.join (fragments.map Fragment.declaration)) ++
    "\n" ++ Block.reindent 0 unit.functionHead ++
    String.join (fragments.map Fragment.statement) ++ Block.reindent 0 "\x7d"

theorem render_cases {unit : SourceUnit} {steps : List Step} {source : String}
    (rendered : unit.render steps = .ok source) :
    ∃ fragments text, steps.mapM unit.renderStep = .ok fragments ∧
      unit.arrayDefinitions unit.plan.entries = .ok text ∧
      source = unit.opening fragments ++ paragraph text ++ unit.closing fragments := by
  unfold render at rendered
  have ⟨fragments, areFragments, rest⟩ := bind_eq_ok.mp rendered
  have ⟨text, defined, made⟩ := bind_eq_ok.mp rest
  refine ⟨fragments, text, areFragments, defined, ?_⟩
  rw [← pure_eq_ok.mp made]
  unfold opening closing functionHead
  simp only [String.append_assoc]

/-- How a tensor is registered: a constant with its own array, any other tensor with an offset. -/
inductive Registers (unit : SourceUnit) (tensor : Tensor) : String → String → Prop where
  | array {symbol : String} (own : (tensor, symbol) ∈ unit.constants.zip unit.symbols) :
    Registers unit tensor "RomTensor" symbol
  | slot (held : tensor.isConstant = false) (offset : Nat) :
    Registers unit tensor "RamTensor" (toString offset)

/-- The source has an array for every constant, defined in a section of its own, and all
registrations are with the tensors' own storage. -/
structure StoresConstants (unit : SourceUnit) (steps : List Step) (source : String) : Prop where
  /-- The constants are the tensors with that role in the plan, in its order. -/
  planned : (unit.plan.entries.filter fun entry => entry.role = .constant).map PlanEntry.name =
    unit.constants.map Tensor.name
  /-- The search for the symbol of every array ends. -/
  named : NamesArrays [] [] (unit.constants.map Tensor.name) unit.symbols
  identifiers : ∀ symbol ∈ unit.symbols, Identifier.isIdentifier symbol = true
  distinct : unit.symbols.Nodup
  defined : ∃ fragments text lines, steps.mapM unit.renderStep = .ok fragments ∧
    source = unit.opening fragments ++ paragraph text ++ unit.closing fragments ∧
    Written lines text ∧ List.Forall₂ (fun (array : Tensor × String) line =>
      array.1.DefinedBy array.2 line) (unit.constants.zip unit.symbols) lines
  registered : ∀ name, .register name ∈ steps → ∃ tensor className place refcount,
    unit.graph.tensor? name = some tensor ∧ unit.Registers tensor className place ∧
      unit.renderStep (.register name) = .ok (statement
        (tensor.registrationLine unit.settings.contextName className place refcount))

theorem registers_of_places {unit : SourceUnit} {lifetimes : Lifetimes} {options : ArenaOptions}
    (planned : unit.graph.Planned lifetimes options unit.plan) {name className place : String}
    {tensor : Tensor} {entry : PlanEntry} (declared : unit.graph.tensor? name = some tensor)
    (found : unit.plan.entry? name = some entry)
    (placed : unit.Places name entry.storage className place) :
    unit.Registers tensor className place := by
  have ⟨isTensor, named⟩ := Graph.tensor?_eq_some declared
  have ⟨isEntry, sameName⟩ := (planned.fits.entry?_eq_some_iff planned.exact).mp found
  have isRom := planned.rom_iff isEntry isTensor (sameName.trans named.symm)
  generalize entry.storage = storage at placed isRom
  cases placed with
  | arena offset size =>
    apply Registers.slot
    rw [← Bool.not_eq_true, ← isRom]
    exact nofun
  | rom array =>
    have ⟨other, own, sameOther⟩ := (arraySymbol?_eq_some_iff planned).mp array
    have isOther : other ∈ unit.graph.tensors := List.mem_of_mem_filter (List.of_mem_zip own).1
    have same := eq_of_name_eq Tensor.name planned.exact.distinct isOther isTensor
      (sameOther.trans named.symm)
    rw [same] at own
    exact .array own

/-- All constants that pass their checks are stored. -/
theorem storesConstants {unit : SourceUnit} {lifetimes : Lifetimes} {options : ArenaOptions}
    (planned : unit.graph.Planned lifetimes options unit.plan)
    (checked : ∀ tensor ∈ unit.graph.tensors, tensor.check = .ok ())
    (storable : unit.graph.Storable) {steps : List Step} {source : String}
    (rendered : unit.render steps = .ok source) : unit.StoresConstants steps source := by
  have named : NamesArrays [] [] (unit.constants.map Tensor.name) unit.symbols := by
    rw [← arrayNames_eq planned]
    exact unit.namesArrays
  have ⟨fragments, text, areFragments, isText, whole⟩ := render_cases rendered
  refine ⟨?_, named, named.isIdentifier, unit.arraysNamed.distinct, ?_, ?_⟩
  · apply map_name_filter
    apply planned.stored.imp
    intro entry tensor same
    refine ⟨same.1, ?_⟩
    rw [Bool.eq_iff_iff, decide_eq_true_eq]
    exact same.2.1
  · have written := (prefaces_arrayDefinitions isText).1.toWritten
    rw [arrayRows_eq planned] at written
    refine ⟨fragments, text, _, areFragments, whole, written, ?_⟩
    rw [← List.map_uncurry_zip_eq_zipWith, List.forall₂_map_right_iff, List.forall₂_same]
    intro array member
    have ⟨isTensor, constant⟩ := List.mem_filter.mp (List.of_mem_zip member).1
    exact Tensor.definedBy_arrayDefinition constant (checked _ isTensor) (storable _ isTensor) _
  · intro name member
    have ⟨position, inside, found⟩ := List.mem_iff_getElem.mp member
    have results := forall₂_of_mapM_eq_ok areFragments
    have step := (List.forall₂_iff_get.mp results).2 position inside (results.length_eq ▸ inside)
    rw [List.get_eq_getElem, found] at step
    have ⟨line, isLine, made⟩ := bind_eq_ok.mp step
    have ⟨tensor, entry, className, place, declared, isEntry, placed, isWhole⟩ :=
      registration_cases isLine
    refine ⟨tensor, className, place, entry.refcount, declared,
      registers_of_places planned declared isEntry placed, ?_⟩
    rw [step, ← pure_eq_ok.mp made, isWhole]

end SourceUnit

namespace Graph

theorem check_of_validate {graph : Graph} (success : graph.validate = .ok ()) :
    ∀ tensor ∈ graph.tensors, tensor.check = .ok () := by
  unfold validate at success
  have ⟨_, rest⟩ := check_bind_eq_ok.mp success
  have ⟨checked, _⟩ := check_bind_eq_ok.mp rest
  exact forM_eq_ok.mp checked

/-- Every constant gets its own array. The search for its symbol ends, the symbols are different
identifiers whatever the names of the tensors are, and the section of the constants has one array
for each constant, in the order of the plan: with the values of the constant and no others, as many
as its shape has elements. A constant is registered with its own array, and nothing else is
registered with an array. -/
theorem compile_stores_constants (graph : Graph) (catalog : Catalog) (settings : Settings)
    (model : Model) (success : graph.compile catalog settings = .ok model)
    (storable : graph.Storable) :
    (graph.sourceUnit catalog settings model.plan model.table).StoresConstants model.steps
      model.source := by
  have compiled := compile_eq_ok_iff.mp success
  exact SourceUnit.storesConstants (Planned.of_eq_ok compiled.analysed compiled.planned)
    (check_of_validate compiled.valid) storable compiled.rendered

theorem ribbon_stores_constants :
    ribbon.Storable ∧ ∃ model, ribbon.compile .standard {} = .ok model ∧
      (ribbon.sourceUnit .standard {} model.plan model.table).StoresConstants model.steps
        model.source := by
  have ⟨model, success⟩ := ribbon_compiled
  have short : ∀ tensor ∈ ribbon.tensors, ∀ data, tensor.data = some data → data.length = 1 := by
    simp [ribbon, ConstantData.length]
  have storable : ribbon.Storable := by
    intro tensor member data isData
    rw [short tensor member data isData]
    decide
  exact ⟨storable, model, success, compile_stores_constants ribbon .standard {} model success
    storable⟩

/-- The names of both weights lead to the same symbol, so the second one gets a number. -/
theorem ribbon_symbols {settings : Settings} {model : Model}
    (success : ribbon.compile .standard settings = .ok model) :
    (ribbon.sourceUnit .standard settings model.plan model.table).symbols =
      ["weight__data", "weight__data_1"] := by
  have compiled := compile_eq_ok_iff.mp success
  have planned := Planned.of_eq_ok compiled.analysed compiled.planned
  have named := (ribbon.sourceUnit .standard settings model.plan model.table).namesArrays
  have names : (ribbon.sourceUnit .standard settings model.plan model.table).arrayNames =
      ["weight\n", "weight "] := SourceUnit.arrayNames_eq planned
  rw [names] at named
  show (ribbon.sourceUnit .standard settings model.plan model.table).arraySymbols.map Prod.snd = _
  generalize (ribbon.sourceUnit .standard settings model.plan model.table).arraySymbols.map
    Prod.snd = symbols at named
  cases named with
  | cons _ later =>
    cases later with
    | cons _ last =>
      cases last
      decide +kernel

end Graph

end TensorArena
