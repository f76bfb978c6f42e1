import TensorArena.Proofs.Graph.Document
import TensorArena.Proofs.Names
import TensorArena.Proofs.Program.Keys

/-!
# Which operators get an instance

An operator gets an instance if a handler of its type takes it, no parameter holds a NaN and all its
tensors are declared. The first operator of an execution that does not is the one that the error is
about, and the first of these conditions that it misses is the error.
-/

set_option autoImplicit false

namespace TensorArena

/-! ### Numbers in parameters -/

/-- The value is neither NaN nor negative zero. -/
structure Binary.Normal {format : BinaryFormat} (value : Binary format) : Prop where
  number : value.isNaN = false
  unsigned : value.isZero = true → value.negative = false

namespace Param

/-- A NaN occurs in the parameter, at any depth. -/
def HasNaN (param : Param) : Prop := ∃ value ∈ param.doubles, value.isNaN = true

mutual

theorem normalize?_eq_none_iff : ∀ param : Param, param.normalize? = none ↔ param.HasNaN
  | float value => by
    unfold normalize? HasNaN doubles
    by_cases isNaN : value.isNaN = true
    · simp [isNaN]
    · by_cases isZero : value.isZero = true <;> simp [isNaN, isZero]
  | list items => by
    unfold normalize? HasNaN doubles
    rw [Option.map_eq_none_iff, normalizeAll?_eq_none_iff items]
  | int _ => by simp [normalize?, HasNaN, doubles]
  | bool _ => by simp [normalize?, HasNaN, doubles]
  | text _ => by simp [normalize?, HasNaN, doubles]
  | ident _ => by simp [normalize?, HasNaN, doubles]

theorem normalizeAll?_eq_none_iff : ∀ params : List Param,
    normalizeAll? params = none ↔ ∃ value ∈ doublesAll params, value.isNaN = true
  | [] => by simp [normalizeAll?, doublesAll]
  | param :: params => by
    have head := normalize?_eq_none_iff param
    have tail := normalizeAll?_eq_none_iff params
    have parts : normalizeAll? (param :: params) = none ↔
        param.normalize? = none ∨ normalizeAll? params = none := by
      rw [normalizeAll?]
      cases param.normalize? <;> cases normalizeAll? params <;> simp
    rw [parts, head, tail, doublesAll]
    simp only [HasNaN, List.mem_append, or_and_right, exists_or]

end

mutual

/-- Normalizing leaves neither a NaN nor a negative zero, at any depth. -/
theorem normal_of_normalize? : ∀ param normal : Param, param.normalize? = some normal →
    ∀ value ∈ normal.doubles, value.Normal
  | float value, normal, found => by
    unfold normalize? at found
    split at found
    · cases found
    next number =>
      split at found
      · cases found
        intro other member
        rw [List.mem_singleton.mp member]
        exact ⟨by decide, fun _ => rfl⟩
      next nonzero =>
        cases found
        intro other member
        rw [List.mem_singleton.mp member]
        exact ⟨by simpa using number, fun isZero => absurd isZero nonzero⟩
  | list items, normal, found => by
    have ⟨normals, foundAll, same⟩ := Option.map_eq_some_iff.mp found
    rw [← same]
    exact normal_of_normalizeAll? items normals foundAll
  | int _, _, found => by cases found; simp [doubles]
  | bool _, _, found => by cases found; simp [doubles]
  | text _, _, found => by cases found; simp [doubles]
  | ident _, _, found => by cases found; simp [doubles]

theorem normal_of_normalizeAll? : ∀ params normals : List Param,
    normalizeAll? params = some normals → ∀ value ∈ doublesAll normals, value.Normal
  | [], normals, found => by
    cases found
    simp [doublesAll]
  | param :: params, normals, found => by
    have ⟨normal, isFirst, others, areOthers, whole⟩ := normalizeAll?_cons found
    rw [whole, doublesAll, List.forall_mem_append]
    exact ⟨normal_of_normalize? param normal isFirst,
      normal_of_normalizeAll? params others areOthers⟩

end

end Param

/-- The position is that of the first parameter with a NaN. -/
structure FirstNaN (params : List Param) (position : Nat) : Prop where
  here : ∃ param, params[position]? = some param ∧ param.HasNaN
  before : ∀ param ∈ params.take position, ¬ param.HasNaN

theorem firstNaN_cons_of_hasNaN {param : Param} {rest : List Param} {position : Nat}
    (isNaN : param.HasNaN) : FirstNaN (param :: rest) position ↔ position = 0 := by
  cases position with
  | zero => exact ⟨fun _ => rfl, fun _ => ⟨⟨param, rfl, isNaN⟩, by simp⟩⟩
  | succ position =>
    refine ⟨fun first => ?_, nofun⟩
    exact absurd isNaN (first.before param (by simp))

theorem firstNaN_cons_of_not {param : Param} {rest : List Param} {position : Nat}
    (number : ¬ param.HasNaN) :
    FirstNaN (param :: rest) position ↔ ∃ later, position = later + 1 ∧ FirstNaN rest later := by
  cases position with
  | zero =>
    refine ⟨fun first => ?_, nofun⟩
    have ⟨other, found, isNaN⟩ := first.here
    rw [← Option.some.inj found] at isNaN
    exact absurd isNaN number
  | succ position =>
    constructor
    · intro first
      refine ⟨position, rfl, by simpa using first.here, ?_⟩
      intro other member
      exact first.before other (by simp [member])
    · intro ⟨later, same, first⟩
      rw [← Nat.succ.inj same] at first
      refine ⟨by simpa using first.here, ?_⟩
      rw [List.take_succ_cons, List.forall_mem_cons]
      exact ⟨number, first.before⟩

theorem normalizeParams_of_none {position : Nat} {param : Param} (rest : List Param)
    (found : param.normalize? = none) :
    normalizeParams position (param :: rest) = .error position := by
  rw [normalizeParams, found]

theorem normalizeParams_of_some {position : Nat} {param normal : Param} (rest : List Param)
    (found : param.normalize? = some normal) :
    normalizeParams position (param :: rest) =
      normalizeParams (position + 1) rest >>= fun others => .ok (normal :: others) := by
  rw [normalizeParams, found]
  rfl

theorem normalizeParams_eq_error_iff {start position : Nat} {params : List Param} :
    normalizeParams start params = .error position ↔
      ∃ offset, position = start + offset ∧ FirstNaN params offset := by
  induction params generalizing start with
  | nil =>
    constructor
    · exact nofun
    · intro ⟨offset, _, first⟩
      have ⟨param, found, _⟩ := first.here
      simp at found
  | cons param rest ih =>
    cases found : param.normalize? with
    | none =>
      rw [normalizeParams_of_none rest found]
      have isNaN := (Param.normalize?_eq_none_iff param).mp found
      simp only [firstNaN_cons_of_hasNaN isNaN, Except.error.injEq, exists_eq_right]
      omega
    | some normal =>
      have number : ¬ param.HasNaN := by
        rw [← Param.normalize?_eq_none_iff, found]
        exact nofun
      rw [normalizeParams_of_some rest found]
      simp only [firstNaN_cons_of_not number, bind_eq_error]
      constructor
      · rintro (failed | ⟨_, _, finished⟩)
        · have ⟨offset, same, first⟩ := ih.mp failed
          exact ⟨offset + 1, by omega, offset, rfl, first⟩
        · cases finished
      · intro ⟨offset, same, later, isLater, first⟩
        exact .inl (ih.mpr ⟨later, by omega, first⟩)

/-- The parameters are normalized unless one of them has a NaN. -/
theorem exists_normalizeParams_iff (start : Nat) {params : List Param} :
    (∃ normals, normalizeParams start params = .ok normals) ↔ ∀ param ∈ params, ¬ param.HasNaN := by
  constructor
  · intro ⟨normals, success⟩ param member isNaN
    have ⟨value, among, notNumber⟩ := isNaN
    have none : Param.normalizeAll? params = none :=
      (Param.normalizeAll?_eq_none_iff params).mpr
        ⟨value, Param.mem_doublesAll.mpr ⟨param, member, among⟩, notNumber⟩
    rw [normalizeParams_eq_ok success] at none
    cases none
  · intro numbers
    cases result : normalizeParams start params with
    | ok normals => exact ⟨normals, rfl⟩
    | error position =>
      have ⟨offset, _, first⟩ := normalizeParams_eq_error_iff.mp result
      have ⟨param, found, isNaN⟩ := first.here
      exact absurd isNaN (numbers param (List.mem_of_getElem? found))

/-! ### Operators and their handlers -/

/-- The handler has an operand for every tensor of the operator, and parameters of the kinds that
the operator brings. -/
structure Handler.Takes (handler : Handler) (operator : Operator) : Prop where
  inputs : operator.inputs.length = handler.descriptor.inputs.length
  outputs : operator.outputs.length = handler.descriptor.outputs.length
  params : operator.params.map Param.kind = handler.descriptor.params

namespace Graph

variable {graph : Graph} {catalog : Catalog} {index : Nat} {operator : Operator}
  {error : InstanceError}

def HasTensor (graph : Graph) (name : String) : Prop := name ∈ graph.tensors.map Tensor.name

theorem hasTensor_iff_kindOf? {name : String} :
    graph.HasTensor name ↔ (graph.kindOf? name).isSome = true := by
  unfold HasTensor kindOf? tensor?
  rw [Option.isSome_map, Option.isSome_iff_ne_none, ne_eq, find?_named_eq_none_iff, not_not]

theorem exists_mapM_kindOf? {names : List String} :
    (∃ kinds, names.mapM graph.kindOf? = some kinds) ↔ ∀ name ∈ names, graph.HasTensor name := by
  constructor
  · intro ⟨kinds, found⟩ name member
    rw [hasTensor_iff_kindOf?, Option.isSome_iff_ne_none]
    intro unknown
    rw [mapM_eq_none_of_mem member unknown] at found
    cases found
  · intro declared
    induction names with
    | nil => exact ⟨[], rfl⟩
    | cons name rest ih =>
      rw [List.forall_mem_cons] at declared
      have ⟨kind, isKind⟩ := Option.isSome_iff_exists.mp (hasTensor_iff_kindOf?.mp declared.1)
      have ⟨kinds, areKinds⟩ := ih declared.2
      exact ⟨kind :: kinds, by simp [List.mapM_cons, isKind, areKinds]⟩

theorem exists_signature?_iff :
    (∃ signature, graph.signature? operator = some signature) ↔
      ∀ name ∈ operator.inputs ++ operator.outputs, graph.HasTensor name := by
  rw [List.forall_mem_append, ← exists_mapM_kindOf?, ← exists_mapM_kindOf?]
  unfold signature?
  simp only [Option.bind_eq_bind, Option.bind_eq_some_iff]
  constructor
  · intro ⟨_, inputs, areInputs, outputs, areOutputs, _⟩
    exact ⟨⟨inputs, areInputs⟩, outputs, areOutputs⟩
  · intro ⟨⟨inputs, areInputs⟩, outputs, areOutputs⟩
    exact ⟨_, inputs, areInputs, outputs, areOutputs, rfl⟩

/-- The operator can have an instance. -/
structure Admits (graph : Graph) (catalog : Catalog) (operator : Operator) : Prop where
  handled : ∃ handler, catalog.get? operator.opType = some handler ∧ handler.Takes operator
  numbers : ∀ param ∈ operator.params, ¬ param.HasNaN
  declared : ∀ name ∈ operator.inputs ++ operator.outputs, graph.HasTensor name

/-- Why the operator at a place of the execution cannot have an instance. Each reason is given only
where those before it do not apply. -/
inductive Refuses (graph : Graph) (catalog : Catalog) (index : Nat) (operator : Operator) :
    InstanceError → Prop where
  | unsupported (unknown : catalog.get? operator.opType = none) :
    Refuses graph catalog index operator (.unsupportedOperator (operator.describe index))
  | arity {handler : Handler} (handled : catalog.get? operator.opType = some handler)
    (misfit : operator.inputs.length ≠ handler.descriptor.inputs.length ∨
      operator.outputs.length ≠ handler.descriptor.outputs.length) :
    Refuses graph catalog index operator
      (.arityMismatch (operator.describe index) operator.inputs.length operator.outputs.length
        handler.descriptor.inputs.length handler.descriptor.outputs.length)
  | params {handler : Handler} (handled : catalog.get? operator.opType = some handler)
    (inputs : operator.inputs.length = handler.descriptor.inputs.length)
    (outputs : operator.outputs.length = handler.descriptor.outputs.length)
    (misfit : operator.params.map Param.kind ≠ handler.descriptor.params) :
    Refuses graph catalog index operator
      (.parameterMismatch (operator.describe index) handler.descriptor.params
        (operator.params.map Param.kind))
  | unstable {handler : Handler} {position : Nat}
    (handled : catalog.get? operator.opType = some handler) (takes : handler.Takes operator)
    (first : FirstNaN operator.params position) :
    Refuses graph catalog index operator (.unstableParameter (operator.describe index) position)
  | undeclared {handler : Handler} (handled : catalog.get? operator.opType = some handler)
    (takes : handler.Takes operator) (numbers : ∀ param ∈ operator.params, ¬ param.HasNaN)
    (unknown : ∃ name ∈ operator.inputs ++ operator.outputs, ¬ graph.HasTensor name) :
    Refuses graph catalog index operator (.missingSignature (operator.describe index))

theorem Refuses.not_admits (refuses : graph.Refuses catalog index operator error) :
    ¬ graph.Admits catalog operator := by
  intro admits
  have ⟨handler, handled, takes⟩ := admits.handled
  cases refuses with
  | unsupported unknown =>
    rw [unknown] at handled
    cases handled
  | arity known misfit =>
    rw [← Option.some.inj (handled.symm.trans known)] at misfit
    exact misfit.elim (absurd takes.inputs) (absurd takes.outputs)
  | params known _ _ misfit =>
    rw [← Option.some.inj (handled.symm.trans known)] at misfit
    exact misfit takes.params
  | unstable _ _ first =>
    have ⟨param, found, isNaN⟩ := first.here
    exact admits.numbers param (List.mem_of_getElem? found) isNaN
  | undeclared _ _ _ unknown =>
    have ⟨name, member, unlisted⟩ := unknown
    exact unlisted (admits.declared name member)

/-- The key of an operator whose handler takes it. -/
theorem instanceKey_of_takes {handler : Handler}
    (handled : catalog.get? operator.opType = some handler) (takes : handler.Takes operator) :
    graph.instanceKey catalog index operator =
      ((normalizeParams 0 operator.params).mapError
        (InstanceError.unstableParameter (operator.describe index)) >>= fun params =>
          match graph.signature? operator with
          | some signature =>
            .ok ⟨operator.family.getD handler.descriptor.family, operator.opType, signature, params⟩
          | none => .error (.missingSignature (operator.describe index))) := by
  unfold instanceKey
  dsimp only
  rw [handled]
  dsimp only
  rw [if_neg (by simp [takes.inputs, takes.outputs]), if_neg (not_not.mpr takes.params)]
  congr 1
  funext params
  cases graph.signature? operator <;> rfl

theorem Refuses.instanceKey_eq_error (refuses : graph.Refuses catalog index operator error) :
    graph.instanceKey catalog index operator = .error error := by
  cases refuses with
  | unsupported unknown =>
    unfold instanceKey
    dsimp only
    rw [unknown]
  | arity handled misfit =>
    unfold instanceKey
    dsimp only
    rw [handled]
    dsimp only
    rw [if_pos (by simpa using misfit)]
  | params handled inputs outputs misfit =>
    unfold instanceKey
    dsimp only
    rw [handled]
    dsimp only
    rw [if_neg (by simp [inputs, outputs]), if_pos misfit]
  | @unstable handler position handled takes first =>
    have failed : normalizeParams 0 operator.params = .error position :=
      normalizeParams_eq_error_iff.mpr ⟨position, by omega, first⟩
    rw [instanceKey_of_takes handled takes, failed]
    rfl
  | undeclared handled takes numbers unknown =>
    have ⟨normals, normalized⟩ := (exists_normalizeParams_iff 0).mpr numbers
    have unsigned : graph.signature? operator = none := by
      cases signed : graph.signature? operator with
      | none => rfl
      | some signature =>
        have ⟨name, member, unlisted⟩ := unknown
        exact absurd (exists_signature?_iff.mp ⟨signature, signed⟩ name member) unlisted
    rw [instanceKey_of_takes handled takes, normalized, unsigned]
    rfl

theorem Admits.exists_instanceKey (admits : graph.Admits catalog operator) (index : Nat) :
    ∃ key, graph.instanceKey catalog index operator = .ok key := by
  have ⟨handler, handled, takes⟩ := admits.handled
  have ⟨normals, normalized⟩ := (exists_normalizeParams_iff 0).mpr admits.numbers
  have ⟨signature, signed⟩ := exists_signature?_iff.mpr admits.declared
  rw [instanceKey_of_takes handled takes, normalized, signed]
  exact ⟨_, rfl⟩

/-- An operator that cannot have an instance misses one of the conditions first. -/
theorem admits_or_refuses (graph : Graph) (catalog : Catalog) (index : Nat) (operator : Operator) :
    graph.Admits catalog operator ∨ ∃ error, graph.Refuses catalog index operator error := by
  cases handled : catalog.get? operator.opType with
  | none => exact .inr ⟨_, .unsupported handled⟩
  | some handler =>
    by_cases inputs : operator.inputs.length = handler.descriptor.inputs.length
    · by_cases outputs : operator.outputs.length = handler.descriptor.outputs.length
      · by_cases params : operator.params.map Param.kind = handler.descriptor.params
        · have takes : handler.Takes operator := ⟨inputs, outputs, params⟩
          cases normalized : normalizeParams 0 operator.params with
          | error position =>
            have ⟨offset, _, first⟩ := normalizeParams_eq_error_iff.mp normalized
            exact .inr ⟨_, .unstable handled takes first⟩
          | ok normals =>
            have numbers := (exists_normalizeParams_iff 0).mp ⟨normals, normalized⟩
            by_cases declared : ∀ name ∈ operator.inputs ++ operator.outputs, graph.HasTensor name
            · exact .inl ⟨⟨handler, handled, takes⟩, numbers, declared⟩
            · push Not at declared
              exact .inr ⟨_, .undeclared handled takes numbers declared⟩
        · exact .inr ⟨_, .params handled inputs outputs params⟩
      · exact .inr ⟨_, .arity handled (.inr outputs)⟩
    · exact .inr ⟨_, .arity handled (.inl inputs)⟩

theorem exists_instanceKey_iff (index : Nat) :
    (∃ key, graph.instanceKey catalog index operator = .ok key) ↔
      graph.Admits catalog operator := by
  constructor
  · intro ⟨key, keyed⟩
    rcases graph.admits_or_refuses catalog index operator with admits | ⟨error, refuses⟩
    · exact admits
    · rw [refuses.instanceKey_eq_error] at keyed
      cases keyed
  · intro admits
    exact admits.exists_instanceKey index

theorem instanceKey_eq_error_iff :
    graph.instanceKey catalog index operator = .error error ↔
      graph.Refuses catalog index operator error := by
  constructor
  · intro failed
    rcases graph.admits_or_refuses catalog index operator with admits | ⟨other, refuses⟩
    · have ⟨key, keyed⟩ := admits.exists_instanceKey index
      rw [failed] at keyed
      cases keyed
    · have same := refuses.instanceKey_eq_error
      rw [failed] at same
      rw [Except.error.inj same]
      exact refuses
  · exact Refuses.instanceKey_eq_error

/-! ### Executions -/

theorem exists_shareFrom_iff {operators : List Operator} {step : Nat} {before : InstanceTable} :
    (∃ after, graph.shareFrom catalog step operators before = .ok after) ↔
      ∀ operator ∈ operators, graph.Admits catalog operator := by
  induction operators generalizing step before with
  | nil => exact ⟨fun _ => nofun, fun _ => ⟨before, rfl⟩⟩
  | cons operator rest ih =>
    rw [List.forall_mem_cons, ← exists_instanceKey_iff step]
    simp only [shareFrom_cons]
    constructor
    · intro ⟨after, success⟩
      have ⟨key, keyed, later⟩ := bind_eq_ok.mp success
      exact ⟨⟨key, keyed⟩, ih.mp ⟨after, later⟩⟩
    · intro ⟨keyed, admitted⟩
      exact exists_bind_eq_ok keyed fun key _ => ih.mpr admitted

/-- A walk over operators stops at the first one that cannot have an instance. -/
theorem shareFrom_eq_error_iff {operators : List Operator} {step : Nat} {table : InstanceTable} :
    graph.shareFrom catalog step operators table = .error error ↔
      ∃ before operator after, operators = before ++ operator :: after ∧
        (∀ other ∈ before, graph.Admits catalog other) ∧
        graph.Refuses catalog (step + before.length) operator error := by
  induction operators generalizing step table with
  | nil =>
    constructor
    · exact nofun
    · intro ⟨before, operator, after, whole, _⟩
      cases before <;> cases whole
  | cons first rest ih =>
    rw [shareFrom_cons, bind_eq_error, instanceKey_eq_error_iff]
    constructor
    · rintro (refuses | ⟨key, keyed, later⟩)
      · exact ⟨[], first, rest, rfl, nofun, refuses⟩
      · have ⟨before, operator, after, whole, admitted, refuses⟩ := ih.mp later
        have here := (exists_instanceKey_iff step).mp ⟨key, keyed⟩
        refine ⟨first :: before, operator, after, by rw [whole]; rfl,
          List.forall_mem_cons.mpr ⟨here, admitted⟩, ?_⟩
        rw [List.length_cons, Nat.add_comm before.length, ← Nat.add_assoc]
        exact refuses
    · intro ⟨before, operator, after, whole, admitted, refuses⟩
      cases before with
      | nil =>
        cases whole
        exact .inl refuses
      | cons head others =>
        cases whole
        rw [List.forall_mem_cons] at admitted
        have ⟨key, keyed⟩ := admitted.1.exists_instanceKey step
        refine .inr ⟨key, keyed, ih.mpr ⟨others, operator, after, rfl, admitted.2, ?_⟩⟩
        rw [List.length_cons, Nat.add_comm others.length, ← Nat.add_assoc] at refuses
        exact refuses

/-- No key of an instance holds a NaN or a negative zero. -/
theorem shareInstances_normal {table : InstanceTable}
    (shared : graph.shareInstances catalog = .ok table) :
    ∀ found ∈ table.instances, ∀ value ∈ Param.doublesAll found.key.params, value.Normal := by
  intro found member
  have ⟨_, _, _, keyed⟩ := (shareInstances_describes shared found member).key
  have ⟨_, _, _, _, _, normalized⟩ := instanceKey_eq_ok keyed
  exact Param.normal_of_normalizeAll? _ _ normalized

/-- Exactly the operators that can have an instance are given one. An execution that stops after the
first `count` operators gets its instances if all of these can have one; otherwise the error is that
of the first one that cannot, for the first condition that it misses. No key holds a NaN or a
negative zero at any depth. -/
theorem shareInstances_admits (graph : Graph) (count : Nat) (catalog : Catalog) :
    ((∃ table, (graph.truncate count).shareInstances catalog = .ok table) ↔
        ∀ operator ∈ (graph.truncate count).operators,
          (graph.truncate count).Admits catalog operator) ∧
      (∀ error, (graph.truncate count).shareInstances catalog = .error error ↔
        ∃ before operator after, (graph.truncate count).operators = before ++ operator :: after ∧
          (∀ other ∈ before, (graph.truncate count).Admits catalog other) ∧
          ¬ (graph.truncate count).Admits catalog operator ∧
          (graph.truncate count).Refuses catalog before.length operator error) ∧
      ∀ table, (graph.truncate count).shareInstances catalog = .ok table →
        ∀ shared ∈ table.instances, ∀ value ∈ Param.doublesAll shared.key.params,
          value.Normal := by
  refine ⟨exists_shareFrom_iff, fun error => ?_, fun table => shareInstances_normal⟩
  have failed : (graph.truncate count).shareInstances catalog = .error error ↔ _ :=
    shareFrom_eq_error_iff
  rw [failed]
  constructor
  · intro ⟨before, operator, after, whole, admitted, refuses⟩
    rw [Nat.zero_add] at refuses
    exact ⟨before, operator, after, whole, admitted, refuses.not_admits, refuses⟩
  · intro ⟨before, operator, after, whole, admitted, _, refuses⟩
    rw [← Nat.zero_add before.length] at refuses
    exact ⟨before, operator, after, whole, admitted, refuses⟩

end Graph

end TensorArena
