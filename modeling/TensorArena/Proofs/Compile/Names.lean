import TensorArena.Proofs.Arena.Refusal
import TensorArena.Proofs.Compile.Constants
import TensorArena.Proofs.Lifetime.Acceptance
import TensorArena.Proofs.Program.Admission
import TensorArena.Proofs.Program.Partition

/-!
# The names of a source

Three kinds of names occur in a function: that of its context, those of the instances and those of
the arrays. Nothing keeps the kinds apart but the way in which the names are made up.
-/

set_option autoImplicit false

namespace TensorArena

/-! ### Shapes -/

/-- The text begins with `op_`, and behind its last underscore it has three digits or more. -/
def InstanceShaped (text : String) : Prop :=
  ∃ middle digits, text.toList = "op_".toList ++ middle ++ '_' :: digits ∧ 3 ≤ digits.length ∧
    ∀ c ∈ digits, c.isDigit = true

/-- The text ends in `_data`, or in `_data` and a number behind an underscore. -/
def ArrayShaped (text : String) : Prop :=
  ∃ start ending, text.toList = start ++ "_data".toList ++ ending ∧
    (ending = [] ∨ ∃ number, 0 < number ∧ ending = '_' :: Nat.toDigits 10 number)

theorem instanceShaped_instanceName (opType : String) (id : Nat) :
    InstanceShaped (instanceName opType id) := by
  refine ⟨((Identifier.sanitize opType).map Char.toLower).toList, paddedDigits 3 id, ?_, ?_,
    paddedDigits_isDigit 3 id⟩
  · rw [toList_instanceName, instanceStem, String.toList_append]
  · unfold paddedDigits
    rw [List.length_append, List.length_replicate]
    omega

theorem arrayShaped_symbolCandidate (name : String) (attempt : Nat) :
    ArrayShaped (symbolCandidate (arrayBase name) attempt) := by
  refine ⟨(Identifier.sanitize name).toList,
    if attempt = 0 then [] else '_' :: Nat.toDigits 10 attempt, ?_, ?_⟩
  · unfold symbolCandidate arrayBase
    by_cases first : attempt = 0
    · simp [first]
    · simp [first, toString]
  · by_cases first : attempt = 0
    · exact .inl (if_pos first)
    · exact .inr ⟨attempt, Nat.pos_of_ne_zero first, if_neg first⟩

theorem InstanceShaped.underscore {text : String} (shaped : InstanceShaped text) :
    '_' ∈ text.toList := by
  have ⟨middle, digits, whole, _⟩ := shaped
  simp [whole]

theorem ArrayShaped.underscore {text : String} (shaped : ArrayShaped text) :
    '_' ∈ text.toList := by
  have ⟨start, ending, whole, _⟩ := shaped
  simp [whole]

/-- Both names end in numbers, which are written alike from three digits on. -/
theorem instanceName_eq_symbolCandidate_iff {opType name : String} {id attempt : Nat} :
    instanceName opType id = symbolCandidate (arrayBase name) attempt ↔
      instanceStem opType = arrayBase name ∧ id = attempt ∧ 100 ≤ id := by
  rw [← String.toList_inj, toList_instanceName, toList_symbolCandidate]
  have digits : paddedDigits 3 id = Nat.toDigits 10 attempt ↔ id = attempt ∧ 100 ≤ id :=
    paddedDigits_eq_toDigits_iff (by decide)
  unfold candidateStem candidateEnd
  by_cases first : attempt = 0
  · rw [if_pos first, if_pos first, first]
    constructor
    · intro same
      have ends := (append_underscore_inj (underscore_not_mem (paddedDigits_isDigit 3 id))
        (by decide) same).2
      exact absurd ends (ne_data (paddedDigits_isDigit 3 id))
    · intro ⟨_, zero, large⟩
      omega
  · rw [if_neg first, if_neg first, ← digits]
    constructor
    · intro same
      have ⟨stems, ends⟩ := append_underscore_inj (underscore_not_mem (paddedDigits_isDigit 3 id))
        (underscore_not_mem (toDigits_isDigit attempt)) same
      exact ⟨String.toList_inj.mp stems, ends⟩
    · intro ⟨stems, ends⟩
      rw [stems, ends]

namespace SourceUnit

/-- The number of constants whose arrays are tried under a symbol first. -/
def arrayCount (unit : SourceUnit) (base : String) : Nat :=
  (unit.constants.filter fun tensor => arrayBase tensor.name = base).length

/-- The names of different kinds in a source are different, apart from these. The name of the
context is the only one that can be chosen as a whole, so it is an instance's or an array's if it is
chosen like one. An instance with three digits or more has the name of an array if there are more
arrays than its number that are tried under the name of the instance without that number. -/
structure NamesApart (unit : SourceUnit) : Prop where
  context_instance : ∀ shared ∈ unit.table.instances,
    shared.symbol = unit.settings.contextName → InstanceShaped unit.settings.contextName
  context_array : ∀ symbol ∈ unit.symbols,
    symbol = unit.settings.contextName → ArrayShaped unit.settings.contextName
  /-- A name like the default one, `ctx`, is always different from the others. -/
  context_plain : '_' ∉ unit.settings.contextName.toList →
    (∀ shared ∈ unit.table.instances, shared.symbol ≠ unit.settings.contextName) ∧
      ∀ symbol ∈ unit.symbols, symbol ≠ unit.settings.contextName
  instance_array : ∀ shared ∈ unit.table.instances, shared.symbol ∈ unit.symbols ↔
    100 ≤ shared.id ∧ shared.id < unit.arrayCount (instanceStem shared.key.opType)
  few : unit.table.instances.length ≤ 100 ∨ unit.constants.length ≤ 100 →
    ∀ shared ∈ unit.table.instances, shared.symbol ∉ unit.symbols

variable {unit : SourceUnit} {lifetimes : Lifetimes} {options : ArenaOptions}

theorem arrayNumber_eq (planned : unit.graph.Planned lifetimes options unit.plan) (name : String) :
    arrayNumber unit.arrayNames name = unit.arrayCount (arrayBase name) := by
  rw [arrayNames_eq planned]
  unfold arrayNumber arrayCount
  rw [List.map_map, List.count_eq_countP, List.countP_map, List.countP_eq_length_filter]
  congr 1

/-- The symbols are the first candidates of every base, as many as there are constants with it. -/
theorem mem_symbols_iff (planned : unit.graph.Planned lifetimes options unit.plan)
    {symbol : String} : symbol ∈ unit.symbols ↔ ∃ name attempt,
      symbol = symbolCandidate (arrayBase name) attempt ∧
        attempt < unit.arrayCount (arrayBase name) := by
  unfold symbols
  rw [unit.arraysNamed.mem_iff]
  simp only [arrayNumber_eq planned]

theorem exists_of_arrayCount_pos {base : String} (positive : 0 < unit.arrayCount base) :
    ∃ name, arrayBase name = base := by
  have ⟨tensor, member⟩ := List.exists_mem_of_length_pos positive
  exact ⟨tensor.name, of_decide_eq_true (List.mem_filter.mp member).2⟩

theorem instanceName_mem_symbols_iff (planned : unit.graph.Planned lifetimes options unit.plan)
    {opType : String} {id : Nat} : instanceName opType id ∈ unit.symbols ↔
      100 ≤ id ∧ id < unit.arrayCount (instanceStem opType) := by
  rw [mem_symbols_iff planned]
  constructor
  · intro ⟨name, attempt, same, less⟩
    have ⟨stem, number, large⟩ := instanceName_eq_symbolCandidate_iff.mp same
    rw [stem, number]
    exact ⟨number ▸ large, less⟩
  · intro ⟨large, less⟩
    have ⟨name, base⟩ := exists_of_arrayCount_pos (Nat.lt_of_le_of_lt (Nat.zero_le id) less)
    refine ⟨name, id, instanceName_eq_symbolCandidate_iff.mpr ⟨base.symm, rfl, large⟩, ?_⟩
    rw [base]
    exact less

theorem namesApart (planned : unit.graph.Planned lifetimes options unit.plan)
    (accounts : unit.table.Accounts) {steps : Nat} (serves : unit.table.Serves unit.catalog steps) :
    unit.NamesApart := by
  have named : ∀ shared ∈ unit.table.instances, shared.id < unit.table.instances.length ∧
      shared.symbol = instanceName shared.key.opType shared.id := by
    intro shared member
    have ⟨id, found⟩ := List.mem_iff_getElem?.mp member
    rw [serves.ids id shared found]
    exact ⟨(List.getElem?_eq_some_iff.mp found).1, accounts.symbol id shared found⟩
  have contextInstance : ∀ shared ∈ unit.table.instances,
      shared.symbol = unit.settings.contextName → InstanceShaped unit.settings.contextName := by
    intro shared member same
    rw [← same, (named shared member).2]
    exact instanceShaped_instanceName _ _
  have contextArray : ∀ symbol ∈ unit.symbols,
      symbol = unit.settings.contextName → ArrayShaped unit.settings.contextName := by
    intro symbol member same
    have ⟨name, attempt, isCandidate, _⟩ := (mem_symbols_iff planned).mp member
    rw [← same, isCandidate]
    exact arrayShaped_symbolCandidate _ _
  have instanceArray : ∀ shared ∈ unit.table.instances, shared.symbol ∈ unit.symbols ↔
      100 ≤ shared.id ∧ shared.id < unit.arrayCount (instanceStem shared.key.opType) := by
    intro shared member
    rw [(named shared member).2]
    exact instanceName_mem_symbols_iff planned
  refine ⟨contextInstance, contextArray, ?_, instanceArray, ?_⟩
  · intro plain
    exact ⟨fun shared member same => plain (contextInstance shared member same).underscore,
      fun symbol member same => plain (contextArray symbol member same).underscore⟩
  · intro few shared member clash
    have ⟨large, less⟩ := (instanceArray shared member).mp clash
    have inside := (named shared member).1
    have most : unit.arrayCount (instanceStem shared.key.opType) ≤ unit.constants.length :=
      List.length_filter_le _ _
    omega

end SourceUnit

namespace Graph

/-- The names of different kinds in a compiled source differ, unless the context is named like an
instance or an array, or there are more than a hundred instances and more than a hundred constants
and some of them are named alike. -/
theorem compile_keeps_names_apart (graph : Graph) (catalog : Catalog) (settings : Settings)
    (model : Model) (success : graph.compile catalog settings = .ok model) :
    (graph.sourceUnit catalog settings model.plan model.table).NamesApart := by
  have compiled := compile_eq_ok_iff.mp success
  exact SourceUnit.namesApart (Planned.of_eq_ok compiled.analysed compiled.planned)
    (shareInstances_accounts compiled.shared) (shareInstances_eq_ok compiled.shared)

theorem ribbon_keeps_names_apart :
    ∃ model, ribbon.compile .standard {} = .ok model ∧
      (ribbon.sourceUnit .standard {} model.plan model.table).NamesApart := by
  have ⟨model, success⟩ := ribbon_compiled
  exact ⟨model, success, compile_keeps_names_apart ribbon .standard {} model success⟩

/-! ### Names that clash -/

/-- The ribbon is compiled with any valid name of the context, and its one instance is named after
its operator. -/
theorem ribbon_compiled_with {settings : Settings} (settled : settings.validate = .ok ())
    (options : settings.arenaOptions = {}) :
    ∃ model, ribbon.compile .standard settings = .ok model ∧
      model.table.instances.map Instance.symbol = ["op_fullyconnected_000"] := by
  have ⟨lifetimes, plan, analysed, planned⟩ : ∃ lifetimes plan,
      ribbon.lifetimes = .ok lifetimes ∧ ribbon.plan lifetimes {} = .ok plan := ⟨_, _, rfl, rfl⟩
  have ⟨table, shared, named⟩ : ∃ table, ribbon.shareInstances .standard = .ok table ∧
      table.instances.map Instance.symbol = ["op_fullyconnected_000"] :=
    ⟨_, rfl, by decide +kernel⟩
  rw [← options] at planned
  have ⟨model, compiled, _, _, isTable, _⟩ := exists_compiled settled rfl analysed planned shared
  refine ⟨model, compile_eq_ok_iff.mpr compiled, ?_⟩
  rw [isTable]
  exact named

/-- More characters that occur in no identifier than there are numbers below a hundred. -/
def strangers : List Char := (List.range 101).map fun number => Char.ofNat (256 + number)

def strangeName (c : Char) : String := String.ofList ['o', 'p', c, 'x']

/-- A graph with as many constants as operators. No two operators have the same configuration. -/
def crowd : Graph where
  name := "crowd"
  tensors := strangers.map fun c =>
    { name := strangeName c, kind := .si8, shape := [1], data := some (.ints [0]) }
  operators := (List.range strangers.length).map fun number =>
    { opType := "x_data", inputs := [], outputs := [], params := [.int (Int64.ofNat number)] }
  outputs := strangers.map strangeName

def crowdCatalog : Catalog :=
  .ofDescriptors [
    { opType := "x_data", family := "", className := "Crowded", inputs := [], outputs := [],
      params := [.int] }]

theorem toNat_stranger {number : Nat} (small : number < 101) :
    (Char.ofNat (256 + number)).toNat = 256 + number := by
  have valid : (256 + number).isValidChar := .inl (by omega)
  unfold Char.ofNat
  rw [dif_pos valid]
  rfl

theorem strangers_nodup : strangers.Nodup := by
  apply List.nodup_range.map_on
  intro left isLeft right isRight same
  have codes := congrArg Char.toNat same
  rw [toNat_stranger (List.mem_range.mp isLeft), toNat_stranger (List.mem_range.mp isRight)] at codes
  omega

theorem isPart_stranger {c : Char} (strange : c ∈ strangers) : Identifier.isPart c = false := by
  have ⟨number, listed, same⟩ := List.mem_map.mp strange
  apply Bool.eq_false_iff.mpr
  intro part
  have small := Identifier.toNat_lt_of_isPart part
  rw [← same, toNat_stranger (List.mem_range.mp listed)] at small
  omega

theorem strangeName_injective {left right : Char} (same : strangeName left = strangeName right) :
    left = right := by
  have characters := String.ofList_injective same
  injection characters with _ characters
  injection characters with _ characters
  injection characters

theorem crowd_names : crowd.tensors.map Tensor.name = strangers.map strangeName := by
  unfold crowd
  rw [List.map_map]
  rfl

theorem crowd_names_nodup : (strangers.map strangeName).Nodup :=
  strangers_nodup.map fun _ _ => strangeName_injective

theorem crowd_role : ∀ tensor ∈ crowd.tensors, crowd.role? tensor.name = some .constant := by
  intro tensor member
  rw [role?_eq_constant_iff (crowd_names ▸ crowd_names_nodup) member]
  have ⟨c, _, same⟩ := List.mem_map.mp member
  rw [← same]
  rfl

theorem crowd_operator : ∀ operator ∈ crowd.operators, ∃ number < strangers.length, operator =
    { opType := "x_data", inputs := [], outputs := [], params := [.int (Int64.ofNat number)] } := by
  intro operator member
  have ⟨number, inside, same⟩ := List.mem_map.mp member
  exact ⟨number, List.mem_range.mp inside, same.symm⟩

theorem crowd_operands : ∀ operator ∈ crowd.operators,
    operator.inputs = [] ∧ operator.outputs = [] := by
  intro operator member
  have ⟨number, _, same⟩ := crowd_operator operator member
  rw [same]
  exact ⟨rfl, rfl⟩

theorem crowd_wellOrdered : crowd.WellOrdered where
  distinct := crowd_names ▸ crowd_names_nodup
  declared := by
    intro operator member
    rw [(crowd_operands operator member).1, (crowd_operands operator member).2]
    exact nofun
  unwritten := by
    intro operator member
    rw [(crowd_operands operator member).2]
    exact nofun
  writtenOnce := by
    intro tensor member role
    rw [crowd_role tensor member] at role
    cases role
  readLater := by
    intro name writer reader _ ⟨operator, present, occurs⟩
    rw [(crowd_operands operator (List.mem_of_getElem? present)).2] at occurs
    cases occurs
  used := by
    intro tensor member _
    have listed : tensor.name ∈ crowd.tensors.map Tensor.name := List.mem_map_of_mem member
    rw [crowd_names] at listed
    exact .inr listed

theorem crowd_valid : crowd.validate = .ok () := by
  have table : crowd.checkTable = .ok () := checkNames_of_nodup crowd_wellOrdered.distinct (by simp)
  have tensors : crowd.tensors.forM Tensor.check = .ok () := by
    rw [forM_eq_ok]
    intro tensor member
    have ⟨c, _, same⟩ := List.mem_map.mp member
    rw [← same]
    rfl
  have outputs : crowd.checkOutputs [] crowd.outputs = .ok () := by
    apply checkOutputs_of_nodup crowd_names_nodup (by simp)
    intro name listed
    have declared : name ∈ crowd.tensors.map Tensor.name := by
      rw [crowd_names]
      exact listed
    have ⟨tensor, member, same⟩ := List.mem_map.mp declared
    rw [← same, tensor?_name crowd_wellOrdered.distinct member]
    rfl
  have references : crowd.checkReferences 0 crowd.operators = .ok () := by
    apply checkReferences_of_forall
    intro operator member
    rw [(crowd_operands operator member).1, (crowd_operands operator member).2]
    exact nofun
  unfold validate
  rw [table, ok_bind, tensors, ok_bind]
  show (crowd.checkInputs [] [] >>= fun _ => crowd.checkOutputs [] crowd.outputs >>= fun _ =>
    crowd.checkReferences 0 crowd.operators) = .ok ()
  rw [outputs, references]
  rfl

theorem crowd_admits : ∀ operator ∈ crowd.operators, crowd.Admits crowdCatalog operator := by
  intro operator member
  have ⟨number, _, same⟩ := crowd_operator operator member
  rw [same]
  refine ⟨⟨_, rfl, rfl, rfl, rfl⟩, ?_, nofun⟩
  intro param only
  rw [List.mem_singleton.mp only]
  exact nofun

theorem crowd_compiled : ∃ model, crowd.compile crowdCatalog {} = .ok model := by
  have ⟨lifetimes, analysed⟩ := crowd_wellOrdered.exists_lifetimes
  have ⟨plan, planned⟩ := exists_plan_of_constants (lifetimes_eq_ok analysed) crowd_role {}
  have ⟨table, shared⟩ : ∃ table, crowd.shareInstances crowdCatalog = .ok table :=
    exists_shareFrom_iff.mpr crowd_admits
  have settled : Settings.validate {} = .ok () := rfl
  have ⟨model, compiled, _⟩ := exists_compiled settled crowd_valid analysed planned shared
  exact ⟨model, compile_eq_ok_iff.mpr compiled⟩

/-- The configuration of an operator in the crowd. -/
def crowdKey (number : Nat) : InstanceKey :=
  ⟨"", "x_data", ⟨[], []⟩, [.int (Int64.ofNat number)]⟩

theorem crowdKey_encode_injOn {left right : Nat} (isLeft : left < strangers.length)
    (isRight : right < strangers.length)
    (same : (crowdKey left).encode = (crowdKey right).encode) : left = right := by
  have family : "".utf8ByteSize < sizeLimit := by decide
  have opType : "x_data".utf8ByteSize < sizeLimit := by decide
  have none : 0 < sizeLimit := by decide
  have one : 1 < sizeLimit := by decide
  have sized (number : Nat) : (crowdKey number).Addressable :=
    ⟨family, opType, none, none, one, trivial, trivial⟩
  have params := congrArg InstanceKey.params (InstanceKey.encode_injective (sized left)
    (sized right) same)
  injection params with first _
  injection first with values
  have count : strangers.length = 101 := rfl
  have integers := congrArg Int64.toInt values
  rw [Int64.toInt_ofNat_of_lt (by omega), Int64.toInt_ofNat_of_lt (by omega)] at integers
  omega

/-- All operators of the crowd have instances of their own. -/
theorem crowd_instances {table : InstanceTable}
    (shared : crowd.shareInstances crowdCatalog = .ok table) : 100 < table.instances.length := by
  have nothing : InstanceTable.Keyed [] {} := ⟨List.nodup_nil, .nil⟩
  have ⟨keys, keyed, pairs⟩ := shareFrom_keys nothing shared
  rw [List.nil_append] at keyed
  have whole : (List.range strangers.length).map crowdKey = keys := by
    rw [← List.forall₂_eq_eq_eq, List.forall₂_map_left_iff]
    apply (List.forall₂_map_left_iff.mp pairs).imp
    intro number key ⟨index, isKey⟩
    cases isKey
    rfl
  have distinct : (keys.map InstanceKey.encode).Nodup := by
    rw [← whole, List.map_map]
    apply List.nodup_range.map_on
    intro left isLeft right isRight same
    exact crowdKey_encode_injOn (List.mem_range.mp isLeft) (List.mem_range.mp isRight) same
  have most := keyed.length_le distinct
  rw [← whole, List.length_map, List.length_range] at most
  exact most

theorem crowd_opType {table : InstanceTable}
    (found : crowd.shareInstances crowdCatalog = .ok table) {shared : Instance}
    (member : shared ∈ table.instances) : shared.key.opType = "x_data" := by
  have ⟨_, operator, listed, keyed⟩ := (shareInstances_describes found shared member).key
  have ⟨_, _, _, opType, _⟩ := instanceKey_eq_ok keyed
  have ⟨_, _, same⟩ := crowd_operator operator listed
  rw [opType, same]

theorem sanitize_strangeName {c : Char} (strange : c ∈ strangers) :
    Identifier.sanitize (strangeName c) = "op_x" := by
  have replaced : Identifier.replaceInvalid ['o', 'p', c, 'x'] = "op_x".toList := by
    show ['o', 'p', if Identifier.isPart c = true then c else '_', 'x'] = "op_x".toList
    rw [isPart_stranger strange]
    rfl
  unfold Identifier.sanitize strangeName
  rw [String.toList_ofList]
  dsimp only
  rw [replaced, if_neg (by decide)]
  exact String.ofList_toList

theorem crowd_arrayCount (settings : Settings) (plan : Plan) (table : InstanceTable) :
    (crowd.sourceUnit crowdCatalog settings plan table).arrayCount (instanceStem "x_data") =
      101 := by
  have alike : ∀ tensor ∈ crowd.tensors, tensor.isConstant = true ∧
      arrayBase tensor.name = instanceStem "x_data" := by
    intro tensor member
    have ⟨c, strange, same⟩ := List.mem_map.mp member
    rw [← same]
    refine ⟨rfl, ?_⟩
    show Identifier.sanitize (strangeName c) ++ "_data" = instanceStem "x_data"
    rw [sanitize_strangeName strange]
    decide +kernel
  have constants : (crowd.sourceUnit crowdCatalog settings plan table).constants =
      crowd.tensors := by
    apply List.filter_eq_self.mpr
    exact fun tensor member => (alike tensor member).1
  unfold SourceUnit.arrayCount
  rw [constants, List.filter_eq_self.mpr fun tensor member =>
    decide_eq_true (alike tensor member).2]
  rfl

/-- Names of all kinds can clash: that of the context with an instance or with an array if it is
chosen like one, and that of an instance with an array if there are many of both. -/
theorem names_clash :
    (∃ model, ribbon.compile .standard { contextName := "op_fullyconnected_000" } = .ok model ∧
      ∃ shared ∈ model.table.instances, shared.symbol = "op_fullyconnected_000") ∧
    (∃ model, ribbon.compile .standard { contextName := "weight__data" } = .ok model ∧
      "weight__data" ∈ (ribbon.sourceUnit .standard { contextName := "weight__data" } model.plan
        model.table).symbols) ∧
    ∃ model, crowd.compile crowdCatalog {} = .ok model ∧ ∃ shared ∈ model.table.instances,
      shared.symbol ∈ (crowd.sourceUnit crowdCatalog {} model.plan model.table).symbols := by
  refine ⟨?_, ?_, ?_⟩
  · have ⟨model, success, instances⟩ := ribbon_compiled_with
      (show Settings.validate { contextName := "op_fullyconnected_000" } = .ok () from rfl) rfl
    refine ⟨model, success, ?_⟩
    have listed : "op_fullyconnected_000" ∈ model.table.instances.map Instance.symbol := by
      rw [instances]
      exact List.mem_singleton.mpr rfl
    have ⟨shared, member, same⟩ := List.mem_map.mp listed
    exact ⟨shared, member, same⟩
  · have ⟨model, success, _⟩ := ribbon_compiled_with
      (show Settings.validate { contextName := "weight__data" } = .ok () from rfl) rfl
    refine ⟨model, success, ?_⟩
    rw [ribbon_symbols success]
    exact List.mem_cons_self ..
  · have ⟨model, success⟩ := crowd_compiled
    have compiled := compile_eq_ok_iff.mp success
    have planned := Planned.of_eq_ok compiled.analysed compiled.planned
    have inside := crowd_instances compiled.shared
    have found := List.getElem?_eq_getElem inside
    have member := List.getElem_mem inside
    refine ⟨model, success, model.table.instances[100], member, ?_⟩
    rw [(shareInstances_accounts compiled.shared).symbol 100 _ found,
      crowd_opType compiled.shared member, SourceUnit.instanceName_mem_symbols_iff planned,
      crowd_arrayCount]
    decide

end Graph

end TensorArena
