import TensorArena.Proofs.Compile.Completeness
import TensorArena.Proofs.Program.Keys
import TensorArena.Proofs.Program.Layout
import TensorArena.Proofs.Program.Sequence

/-!
# The source of a compiled graph

What has been replayed is what is written: the lines of the function are those of the program's
steps, each with what the replay did there, and all that they refer to is defined before it.
-/

set_option autoImplicit false

namespace TensorArena

/-- Valid settings have identifiers for the names that they choose. -/
theorem Settings.validate_eq_ok {settings : Settings} (success : settings.validate = .ok ()) :
    (∀ name, settings.modelName = some name → Identifier.isIdentifier name = true) ∧
      Identifier.isIdentifier settings.contextName = true := by
  have identifier {field value : String} (checked : checkIdentifier field value = .ok ()) :
      Identifier.isIdentifier value = true := by
    unfold checkIdentifier at checked
    split at checked
    next isIdentifier => exact isIdentifier
    · cases checked
  unfold validate at success
  split at success
  · cases success
  · split at success
    · cases success
    · cases chosen : settings.modelName with
      | none =>
        rw [chosen] at success
        exact ⟨nofun, identifier success⟩
      | some name =>
        rw [chosen] at success
        have ⟨isName, isContext⟩ := check_bind_eq_ok.mp success
        refine ⟨fun other same => ?_, identifier isContext⟩
        rw [← Option.some.inj same]
        exact identifier isName

namespace SourceUnit

/-- The source shows the replay of a program: its function consists of the lines of the steps in
their order, and the instances and arrays that these refer to are defined before the function. -/
structure Shows (unit : SourceUnit) (steps : List Step) (source : String)
    (front lines : List String) (last : Execution Unit) : Prop where
  rows : Written (front ++ unit.functionHead :: indent lines ++ ["\x7d"]) source
  /-- No row before the function is like its head, and none of its lines like its end. -/
  head : unit.functionHead ∉ front
  brace : "\x7d" ∉ indent lines
  emits : unit.Emits { context := { world := () } } steps lines last
  finishes : (last.context.finish unit.graph.outputs).1 = .ok ()
  instances : ∀ shared ∈ unit.table.instances, ∃ handler,
    unit.catalog.get? shared.key.opType = some handler ∧
      shared.declarationLine handler.descriptor ∈ front
  arrays : ∀ entry ∈ unit.plan.entries, ∀ symbol, unit.arraySymbol? entry.name = some symbol →
    ∃ tensor, unit.graph.tensor? entry.name = some tensor ∧
      arrayDefinition tensor symbol ∈ front

end SourceUnit

theorem InstanceTable.mem_of_instanceOf? {table : InstanceTable} {step : Nat} {shared : Instance}
    (assigned : table.instanceOf? step = some shared) : shared ∈ table.instances := by
  have ⟨_, _, found⟩ := Option.bind_eq_some_iff.mp assigned
  exact List.mem_of_getElem? found

namespace Graph

/-- All handlers write what their descriptors say, and no class name, no family of an operator and
no verbatim parameter has a line break in it. -/
structure Inline (graph : Graph) (catalog : Catalog) : Prop where
  handlers : ∀ handler ∈ catalog.handlers,
    handler = .ofDescriptor handler.descriptor ∧ Unbroken handler.descriptor.className
  families : ∀ operator ∈ graph.operators, ∀ family, catalog.family? operator = some family →
    Unbroken family
  params : ∀ operator ∈ graph.operators, Param.AllInline operator.params

variable {graph : Graph} {catalog : Catalog} {settings : Settings} {model : Model}

theorem Compiled.plain (compiled : graph.Compiled catalog settings model)
    (inline : graph.Inline catalog) :
    (graph.sourceUnit catalog settings model.plan model.table).Plain where
  handlers := inline.handlers
  symbols := by
    intro shared listed
    have ⟨id, same⟩ := (shareInstances_describes compiled.shared shared listed).symbol
    rw [same]
    exact solid_instanceName _ _
  families := by
    intro shared listed
    have ⟨index, operator, member, keyed⟩ :=
      (shareInstances_describes compiled.shared shared listed).key
    exact inline.families operator member _ (instanceKey_family keyed)
  params := by
    intro shared listed
    have ⟨index, operator, member, keyed⟩ :=
      (shareInstances_describes compiled.shared shared listed).key
    have ⟨_, _, _, _, _, normal⟩ := instanceKey_eq_ok keyed
    exact Param.allInline_of_normalizeAll? _ _ normal (inline.params operator member)
  context := Identifier.solid_of_isIdentifier (Settings.validate_eq_ok compiled.settled).2

theorem Compiled.unbroken_modelName (compiled : graph.Compiled catalog settings model) :
    Unbroken (graph.sourceUnit catalog settings model.plan model.table).modelName := by
  unfold SourceUnit.modelName
  show Unbroken (settings.modelName.getD (Identifier.sanitize graph.name))
  cases chosen : settings.modelName with
  | none => exact Identifier.unbroken_sanitize graph.name
  | some name =>
    exact Identifier.unbroken_of_isIdentifier
      ((Settings.validate_eq_ok compiled.settled).1 name chosen)

/-- An instance has the operator type of every operator that evaluates it. -/
theorem Compiled.fits (compiled : graph.Compiled catalog settings model)
    (sized : ∀ operator ∈ graph.operators, operator.Addressable)
    (families : ∀ handler ∈ catalog.handlers, handler.descriptor.family.utf8ByteSize < sizeLimit) :
    (graph.sourceUnit catalog settings model.plan model.table).Fits := by
  intro index operator shared present assigned
  have ⟨_, keyed⟩ := instanceOf?_key compiled.shared sized families present assigned
  have ⟨handler, handled, _, opType, _⟩ := instanceKey_eq_ok keyed
  have arity := instanceKey_arity keyed handled
  exact ⟨opType, handler, handled, arity.1, arity.2⟩

theorem Compiled.sequences (compiled : graph.Compiled catalog settings model) :
    graph.Sequences model.table settings.batching model.steps :=
  (Planned.of_eq_ok compiled.analysed compiled.planned).sequences compiled.shared compiled.assembled

/-- An instance is found under its own number. -/
theorem Compiled.get?_id (compiled : graph.Compiled catalog settings model) {shared : Instance}
    (listed : shared ∈ model.table.instances) : model.table.get? shared.id = some shared := by
  have ⟨place, found⟩ := List.mem_iff_getElem?.mp listed
  rw [(shareInstances_eq_ok compiled.shared).ids place shared found]
  exact found

theorem Compiled.isAssigned (compiled : graph.Compiled catalog settings model) :
    ∀ step ∈ model.steps, step.IsAssigned model.table := by
  intro step member
  cases step with
  | enqueue position index id =>
    have evaluates := compiled.sequences.evaluates
    have listed : Step.enqueue position index id ∈ model.steps.filter Step.isEnqueue :=
      List.mem_filter.mpr ⟨member, rfl⟩
    have ⟨place, inside, found⟩ := List.mem_iff_getElem.mp listed
    have own := (List.forall₂_iff_get.mp evaluates).2 place (evaluates.length_eq ▸ inside) inside
    have ⟨shared, assigned, same⟩ := own
    rw [List.get_eq_getElem, found] at same
    cases same
    exact ⟨rfl, shared, assigned, compiled.get?_id (InstanceTable.mem_of_instanceOf? assigned), rfl⟩
  | _ => trivial

/-- What has been replayed is what is written. The function of a compiled source has exactly one
line for every registration, evaluation and flush of the program and for every construction of an
instance with parameters, in their order and each with what the replay did, whatever the names of
the graph, its tensors and the operands are. All texts and lists are shorter than an address can
express, as they are on any machine that holds them. -/
theorem compile_shows_replay (graph : Graph) (catalog : Catalog) (settings : Settings)
    (model : Model) (success : graph.compile catalog settings = .ok model)
    (inline : graph.Inline catalog) (sized : ∀ operator ∈ graph.operators, operator.Addressable)
    (families : ∀ handler ∈ catalog.handlers,
      handler.descriptor.family.utf8ByteSize < sizeLimit) :
    ∃ front lines last, (graph.sourceUnit catalog settings model.plan model.table).Shows
      model.steps model.source front lines last := by
  have compiled := compile_eq_ok_iff.mp success
  have plain := compiled.plain inline
  have ⟨context, replayed⟩ := compiled.replayed
  have ⟨last, moved, finished⟩ := bind_eq_ok.mp replayed
  have ⟨fragments, areFragments, _⟩ := bind_eq_ok.mp compiled.rendered
  have ⟨lines, emits, body⟩ := SourceUnit.emits_of_foldlM plain (compiled.fits sized families)
    (by simp [Execution.Named]) compiled.isAssigned moved (forall₂_of_mapM_eq_ok areFragments)
  have ⟨front, rows, starts, declared, arrays⟩ := SourceUnit.render_written plain
    compiled.unbroken_modelName compiled.rendered areFragments body
  refine ⟨front, lines, last, rows, ?_, ?_, emits, ?_, ?_, arrays⟩
  · intro member
    exact starts _ member (by simp [SourceUnit.functionHead])
  · intro member
    have ⟨line, _, same⟩ := List.mem_map.mp member
    have characters := congrArg String.toList same
    simp at characters
  · have ⟨_, ends, _⟩ := bind_eq_ok.mp finished
    exact (Execution.withOutcome_eq_ok ends).1
  · intro shared listed
    have introduced := (compiled.sequences.introduces shared listed).declared
    have declares : .declare shared.id ∈ model.steps :=
      List.count_pos_iff.mp (introduced ▸ Nat.one_pos)
    exact declared shared.id declares shared (compiled.get?_id listed)

end Graph

/-- All handlers of a catalog that is made from descriptors write what these say. -/
theorem Catalog.handler_of_mem_ofDescriptors {descriptors : List Descriptor} {handler : Handler}
    (member : handler ∈ (Catalog.ofDescriptors descriptors).handlers) :
    ∃ descriptor ∈ descriptors, handler = .ofDescriptor descriptor := by
  suffices general : ∀ (handlers : List Handler) (before : Catalog),
      handler ∈ (handlers.foldl register before).handlers →
        handler ∈ before.handlers ∨ handler ∈ handlers by
    rcases general _ {} member with nothing | made
    · cases nothing
    · have ⟨descriptor, inside, same⟩ := List.mem_map.mp made
      exact ⟨descriptor, inside, same.symm⟩
  intro handlers
  induction handlers with
  | nil => exact fun before member => .inl member
  | cons first rest ih =>
    intro before member
    rcases ih _ member with here | later
    · rcases List.mem_append.mp here with kept | new
      · exact .inl (List.mem_of_mem_filter kept)
      · exact .inr (List.mem_singleton.mp new ▸ List.mem_cons_self ..)
    · exact .inr (List.mem_cons_of_mem _ later)

theorem Catalog.standard_handlers : ∀ handler ∈ Catalog.standard.handlers,
    handler = .ofDescriptor handler.descriptor ∧ Unbroken handler.descriptor.className := by
  intro handler member
  have names : ∀ descriptor ∈ Standard.descriptors, Unbroken descriptor.className := by decide
  have ⟨descriptor, inside, same⟩ := handler_of_mem_ofDescriptors member
  rw [same]
  exact ⟨rfl, names descriptor inside⟩

namespace Graph

/-- A graph with a constant and with names that would break a line if they were not escaped. -/
def ribbon : Graph where
  name := "rib\nbon\\"
  tensors := [
    { name := " in\n\"", kind := .f32, shape := [1] },
    { name := "weight\n", kind := .f32, shape := [1], data := some (.floats [.zero .single false]) },
    { name := "weight ", kind := .f32, shape := [1], data := some (.floats [.zero .single true]) },
    { name := "\t", kind := .f32, shape := [1] }]
  operators := [
    { opType := "FullyConnected", inputs := [" in\n\"", "weight\n", "weight "], outputs := ["\t"],
      params := [.ident "TFLM::none"] }]
  inputs := [" in\n\""]
  outputs := ["\t"]

theorem ribbon_compiled : ∃ model, ribbon.compile .standard {} = .ok model := by
  have ⟨lifetimes, plan, analysed, planned⟩ : ∃ lifetimes plan,
      ribbon.lifetimes = .ok lifetimes ∧ ribbon.plan lifetimes {} = .ok plan := ⟨_, _, rfl, rfl⟩
  have ⟨table, shared⟩ : ∃ table, ribbon.shareInstances .standard = .ok table := ⟨_, rfl⟩
  have settled : Settings.validate {} = .ok () := rfl
  have ⟨model, compiled, _⟩ := exists_compiled settled rfl analysed planned shared
  exact ⟨model, compile_eq_ok_iff.mpr compiled⟩

theorem ribbon_inline : ribbon.Inline .standard where
  handlers := Catalog.standard_handlers
  families := by
    have reference : ∀ operator ∈ ribbon.operators,
        Catalog.standard.family? operator = some "ReferenceOperators" := by decide
    intro operator member family isFamily
    rw [reference operator member] at isFamily
    rw [← Option.some.inj isFamily]
    decide
  params := by
    intro operator member
    rw [List.mem_singleton.mp member]
    have activation : Unbroken "TFLM::none" := by decide
    exact ⟨activation, trivial⟩

theorem ribbon_addressable : ∀ operator ∈ ribbon.operators, operator.Addressable := by
  intro operator member
  rw [List.mem_singleton.mp member]
  have activation : "TFLM::none".utf8ByteSize < sizeLimit := by decide
  exact ⟨nofun, by decide, by decide, by decide, by decide, activation, trivial⟩

theorem ribbon_shows_replay :
    ribbon.Inline .standard ∧ ∃ model, ribbon.compile .standard {} = .ok model ∧
      ∃ front lines last, (ribbon.sourceUnit .standard {} model.plan model.table).Shows
        model.steps model.source front lines last := by
  have ⟨model, success⟩ := ribbon_compiled
  exact ⟨ribbon_inline, model, success, compile_shows_replay ribbon .standard {} model success
    ribbon_inline ribbon_addressable Catalog.standard_families⟩

end Graph

end TensorArena
