import TensorArena.Proofs.Program.Statements

/-!
# The layout of a source

A source begins with a preface: a banner, the headers, the arrays of the constants and the instances
of the program. After it comes one function.
-/

set_option autoImplicit false

namespace TensorArena

/-! ### The preface -/

/-- The text is written in rows none of which begins like the function. -/
structure Prefaces (rows : List String) (text : String) : Prop extends Written rows text where
  starts : ∀ row ∈ rows, row.toList.head? ≠ some 'v'

namespace Prefaces

variable {rows others : List String} {text other row : String}

theorem nil : Prefaces [] "" := ⟨Written.nil, by simp⟩

theorem emptyRow : Prefaces [""] "\n" := ⟨Written.emptyRow, by decide⟩

theorem append (first : Prefaces rows text) (second : Prefaces others other) :
    Prefaces (rows ++ others) (text ++ other) :=
  ⟨first.toWritten.append second.toWritten, List.forall_mem_append.mpr ⟨first.starts, second.starts⟩⟩

theorem ofRows (several : rows ≠ []) (solid : ∀ row ∈ rows, Block.Solid row)
    (starts : ∀ row ∈ rows, row.toList.head? ≠ some 'v') :
    Prefaces rows (Block.reindent 0 ("\n".intercalate rows)) :=
  ⟨Block.written_unindented several solid, starts⟩

theorem ofRow (solid : Block.Solid row) (starts : row.toList.head? ≠ some 'v') :
    Prefaces [row] (Block.reindent 0 row) :=
  ofRows (List.cons_ne_nil row []) (by simpa using solid) (by simpa using starts)

theorem paragraph (prefaces : Prefaces rows text) :
    ∃ more, Prefaces (more ++ rows) (SourceUnit.paragraph text) := by
  unfold SourceUnit.paragraph
  split
  next empty =>
    have nothing : text = "" := by simpa using empty
    rw [← nothing]
    exact ⟨[], prefaces⟩
  · exact ⟨[""], emptyRow.append prefaces⟩

end Prefaces

namespace SourceUnit

variable {unit : SourceUnit}

def bannerRows (unit : SourceUnit) : List String :=
  ["// Generated by arenac from graph \"" ++ (Literal.escape unit.graph.name ++
      "\". Do not edit."),
    "// fingerprint: 0x" ++ Fingerprint.hex unit.fingerprint,
    "// arena: " ++ (toString unit.plan.arenaSize ++
      (" bytes, alignment " ++ toString unit.plan.alignment))]

theorem prefaces_banner (unit : SourceUnit) : Prefaces unit.bannerRows unit.banner := by
  have solid : ∀ row ∈ unit.bannerRows, Block.Solid row := by
    simp only [bannerRows, List.forall_mem_cons]
    refine ⟨?_, ?_, ?_, by simp⟩
    · apply Block.Solid.append ⟨by decide, by decide⟩
      exact unbroken_append.mpr ⟨Literal.unbroken_escape _, by decide⟩
    · exact Block.Solid.append ⟨by decide, by decide⟩ (unbroken_padded (by decide) _ _)
    · apply Block.Solid.append ⟨by decide, by decide⟩
      simp only [unbroken_append]
      exact ⟨unbroken_natural _, by decide, unbroken_natural _⟩
  have whole : unit.banner = Block.reindent 0 ("\n".intercalate unit.bannerRows) := by
    unfold banner
    apply congrArg (Block.reindent 0)
    apply String.toList_inj.mp
    simp [bannerRows, toString]
  rw [whole]
  exact Prefaces.ofRows (List.cons_ne_nil _ _) solid (by simp [bannerRows])

theorem prefaces_includes (headers : List String) :
    ∃ rows, Prefaces rows (String.join (headers.map includeLine)) := by
  induction headers with
  | nil => exact ⟨[], Prefaces.nil⟩
  | cons header rest ih =>
    have ⟨others, written⟩ := ih
    have solid : Block.Solid ("#include " ++ Literal.quoted header) :=
      Block.Solid.append ⟨by decide, by decide⟩ (Literal.unbroken_quoted header)
    rw [List.map_cons, String.join_cons]
    exact ⟨_, (Prefaces.ofRow solid (by simp)).append written⟩

theorem prefaces_arrayDefinition (tensor : Tensor) {symbol : String} (unbroken : Unbroken symbol) :
    Prefaces [arrayDefinition tensor symbol] (Block.reindent 0 (arrayDefinition tensor symbol)) := by
  have values : ∀ value ∈ (tensor.data.map ConstantData.render).getD [], Unbroken value := by
    cases tensor.data with
    | none => simp
    | some data => exact data.unbroken_render
  have whole (values : List String) :
      s!"static const {tensor.kind.cType} {symbol}[{max values.length 1}] = " ++ braced values ++
        ";" = "static const " ++ (tensor.kind.cType ++ (" " ++ (symbol ++ ("[" ++
        (toString (max values.length 1) ++ ("] = " ++ (braced values ++ ";"))))))) := by
    apply String.toList_inj.mp
    simp [toString]
  unfold arrayDefinition
  dsimp only
  rw [whole]
  apply Prefaces.ofRow _ (by simp)
  apply Block.Solid.append ⟨by decide, by decide⟩
  simp only [unbroken_append]
  exact ⟨tensor.kind.unbroken_cType, by decide, unbroken, by decide, unbroken_natural _, by decide,
    unbroken_braced values, by decide⟩

theorem prefaces_arenaSize (size : Nat) {name : String} (unbroken : Unbroken name) :
    Prefaces [s!"const size_t {name}_arena_size = {size};"]
      (Block.reindent 0 s!"const size_t {name}_arena_size = {size};") := by
  have whole : s!"const size_t {name}_arena_size = {size};" =
      "const size_t " ++ (name ++ ("_arena_size = " ++ (toString size ++ ";"))) := by
    apply String.toList_inj.mp
    simp [toString]
  rw [whole]
  apply Prefaces.ofRow _ (by simp)
  apply Block.Solid.append ⟨by decide, by decide⟩
  simp only [unbroken_append]
  exact ⟨unbroken, by decide, unbroken_natural size, by decide⟩

/-- The definitions of the arrays of the entries, in their order. -/
def arrayRows (unit : SourceUnit) (entries : List PlanEntry) : List String :=
  entries.filterMap fun entry =>
    (unit.arraySymbol? entry.name).bind fun symbol =>
      (unit.graph.tensor? entry.name).map fun tensor => arrayDefinition tensor symbol

theorem mem_arrayRows {entries : List PlanEntry} {entry : PlanEntry} (member : entry ∈ entries)
    {symbol : String} (array : unit.arraySymbol? entry.name = some symbol) {tensor : Tensor}
    (declared : unit.graph.tensor? entry.name = some tensor) :
    arrayDefinition tensor symbol ∈ unit.arrayRows entries := by
  apply List.mem_filterMap.mpr ⟨entry, member, _⟩
  rw [array, declared]
  rfl

/-- The definition of every array is in a row of its own. -/
theorem prefaces_arrayDefinitions {entries : List PlanEntry} {text : String}
    (success : unit.arrayDefinitions entries = .ok text) :
    Prefaces (unit.arrayRows entries) text ∧ ∀ entry ∈ entries, ∀ symbol,
      unit.arraySymbol? entry.name = some symbol → ∃ tensor,
        unit.graph.tensor? entry.name = some tensor := by
  induction entries generalizing text with
  | nil =>
    cases success
    exact ⟨Prefaces.nil, by simp⟩
  | cons entry rest ih =>
    unfold arrayDefinitions at success
    split at success
    next none =>
      have ⟨written, declared⟩ := ih success
      have same : unit.arrayRows (entry :: rest) = unit.arrayRows rest := by
        unfold arrayRows
        rw [List.filterMap_cons, none]
        rfl
      rw [same]
      refine ⟨written, List.forall_mem_cons.mpr ⟨?_, declared⟩⟩
      intro symbol found
      rw [none] at found
      cases found
    next symbol array =>
      have ⟨tensor, isTensor, later⟩ := bind_eq_ok.mp success
      have ⟨others, isOthers, whole⟩ := bind_eq_ok.mp later
      have ⟨written, declared⟩ := ih isOthers
      have found := findTensor_eq_ok_iff.mp isTensor
      have definition := prefaces_arrayDefinition tensor (unbroken_arraySymbol array)
      have same : unit.arrayRows (entry :: rest) =
          arrayDefinition tensor symbol :: unit.arrayRows rest := by
        unfold arrayRows
        rw [List.filterMap_cons, array, found]
        rfl
      rw [← pure_eq_ok.mp whole, same]
      exact ⟨definition.append written,
        List.forall_mem_cons.mpr ⟨fun _ _ => ⟨tensor, found⟩, declared⟩⟩

/-- The declaration of an instance, with the class of its own handler, is one of the rows. -/
def Declares (unit : SourceUnit) (rows : List String) (id : Nat) : Prop :=
  ∀ shared, unit.table.get? id = some shared → ∃ handler,
    unit.catalog.get? shared.key.opType = some handler ∧
      shared.declarationLine handler.descriptor ∈ rows

theorem renderStep_declare (plain : unit.Plain) {id : Nat} {fragment : Fragment}
    (rendered : unit.renderStep (.declare id) = .ok fragment) :
    ∃ rows, Prefaces rows fragment.declaration ∧ unit.Declares rows id := by
  have ⟨shared, handler, found, listed, handled, made⟩ := plain.of_handled rendered
  have whole := pure_eq_ok.mp made
  have solid : Block.Solid (shared.declarationLine handler.descriptor) := by
    apply Block.Solid.append ⟨by decide, by decide⟩
    simp only [unbroken_append]
    exact ⟨⟨⟨plain.unbroken_typeName listed handled, by decide⟩,
      (plain.symbols shared listed).unbroken⟩, by decide⟩
  rw [← whole]
  refine ⟨_, Prefaces.ofRow solid (by simp), ?_⟩
  intro other isOther
  rw [← Option.some.inj (found.symm.trans isOther)]
  exact ⟨handler, handled, List.mem_singleton.mpr rfl⟩

/-- Only a declaration stands before the function. -/
theorem renderStep_declaration {step : Step} {fragment : Fragment}
    (other : ∀ id, step ≠ .declare id) (rendered : unit.renderStep step = .ok fragment) :
    fragment.declaration = "" := by
  cases step with
  | declare id => exact absurd rfl (other id)
  | construct id =>
    have ⟨shared, _, rest⟩ := bind_eq_ok.mp rendered
    have ⟨handler, _, made⟩ := bind_eq_ok.mp rest
    rw [← pure_eq_ok.mp made]
    cases handler.construct shared.form <;> rfl
  | register tensor =>
    have ⟨line, _, made⟩ := bind_eq_ok.mp rendered
    rw [← pure_eq_ok.mp made]
    rfl
  | enqueue position index id =>
    unfold renderStep at rendered
    dsimp only at rendered
    split at rendered
    · cases rendered
    · have ⟨shared, _, rest⟩ := bind_eq_ok.mp rendered
      have ⟨handler, _, made⟩ := bind_eq_ok.mp rest
      rw [← pure_eq_ok.mp made]
      rfl
  | flush =>
    cases rendered
    rfl

theorem prefaces_declarations (plain : unit.Plain) {steps : List Step} {fragments : List Fragment}
    (rendered : List.Forall₂ (fun step fragment => unit.renderStep step = .ok fragment)
      steps fragments) :
    ∃ rows, Prefaces rows (String.join (fragments.map Fragment.declaration)) ∧
      ∀ id, .declare id ∈ steps → unit.Declares rows id := by
  induction rendered with
  | nil => exact ⟨[], Prefaces.nil, by simp⟩
  | @cons step fragment steps fragments isFirst _ ih =>
    have ⟨rows, written, declared⟩ := ih
    rw [List.map_cons, String.join_cons]
    by_cases declares : ∃ id, step = .declare id
    · have ⟨id, same⟩ := declares
      have ⟨first, isWritten, own⟩ := renderStep_declare plain (same ▸ isFirst)
      refine ⟨first ++ rows, isWritten.append written, ?_⟩
      intro other member shared found
      rcases List.mem_cons.mp member with here | later
      · rw [same] at here
        cases here
        have ⟨handler, handled, inside⟩ := own shared found
        exact ⟨handler, handled, List.mem_append.mpr (.inl inside)⟩
      · have ⟨handler, handled, inside⟩ := declared other later shared found
        exact ⟨handler, handled, List.mem_append.mpr (.inr inside)⟩
    · have silent := renderStep_declaration (fun id same => declares ⟨id, same⟩) isFirst
      rw [silent, String.empty_append]
      refine ⟨rows, written, ?_⟩
      intro id member
      exact declared id ((List.mem_cons.mp member).resolve_left fun same =>
        declares ⟨id, same.symm⟩)

/-! ### The whole source -/

/-- The line with which the function of a source begins. -/
def functionHead (unit : SourceUnit) : String :=
  "void " ++ unit.modelName ++ "_compute(Context& " ++ unit.settings.contextName ++ ") \x7b"

theorem solid_functionHead (plain : unit.Plain) (name : Unbroken unit.modelName) :
    Block.Solid unit.functionHead := by
  apply Block.Solid.append _ (by decide)
  apply Block.Solid.append _ plain.context.unbroken
  apply Block.Solid.append _ (by decide)
  exact Block.Solid.append ⟨by decide, by decide⟩ name

/-- A source consists of a preface, the head of the function, its lines and a closing brace. -/
theorem render_written (plain : unit.Plain) (name : Unbroken unit.modelName) {steps : List Step}
    {source : String} {lines : List String} {fragments : List Fragment}
    (rendered : unit.render steps = .ok source)
    (areFragments : steps.mapM unit.renderStep = .ok fragments)
    (body : Written lines (String.join (fragments.map Fragment.statement))) :
    ∃ front, Written (front ++ unit.functionHead :: lines ++ ["\x7d"]) source ∧
      (∀ row ∈ front, row.toList.head? ≠ some 'v') ∧
      (∀ id, .declare id ∈ steps → unit.Declares front id) ∧
      ∀ entry ∈ unit.plan.entries, ∀ symbol, unit.arraySymbol? entry.name = some symbol →
        ∃ tensor, unit.graph.tensor? entry.name = some tensor ∧
          arrayDefinition tensor symbol ∈ front := by
  unfold render at rendered
  rw [areFragments, ok_bind] at rendered
  have ⟨constants, defined, made⟩ := bind_eq_ok.mp rendered
  -- Every part of the preface has rows of its own; those of the function come after all of them.
  have isBanner := prefaces_banner unit
  have ⟨includes, areIncludes⟩ := prefaces_includes
    (distinctNames (unit.settings.runtimeHeader :: fragments.flatMap Fragment.headers))
  have ⟨areArrays, defines⟩ := prefaces_arrayDefinitions defined
  have ⟨declarations, areDeclarations, declared⟩ :=
    prefaces_declarations plain (forall₂_of_mapM_eq_ok areFragments)
  have ⟨arrayBreak, isArrays⟩ := areArrays.paragraph
  have ⟨instanceBreak, isInstances⟩ := areDeclarations.paragraph
  have scope : Prefaces ["using namespace uTensor;"]
      (Block.reindent 0 "using namespace uTensor;") :=
    Prefaces.ofRow ⟨by decide, by decide⟩ (by decide)
  have size := prefaces_arenaSize unit.plan.arenaSize name
  have preface := ((((((((isBanner.append Prefaces.emptyRow).append areIncludes).append
    Prefaces.emptyRow).append scope).append Prefaces.emptyRow).append size).append
    isArrays).append isInstances).append Prefaces.emptyRow
  have head : Written [unit.functionHead] (Block.reindent 0 ("void " ++ unit.modelName ++
      "_compute(Context& " ++ unit.settings.contextName ++ ") \x7b")) :=
    Block.written_unindented_row (solid_functionHead plain name)
  have brace : Written ["\x7d"] (Block.reindent 0 "\x7d") :=
    Block.written_unindented_row ⟨by decide, by decide⟩
  have whole := ((preface.toWritten.append head).append body).append brace
  rw [pure_eq_ok.mp made, List.append_assoc _ [_] lines] at whole
  refine ⟨_, whole, preface.starts, ?_, ?_⟩
  · intro id member shared found
    have ⟨handler, handled, inside⟩ := declared id member shared found
    exact ⟨handler, handled, by simp [inside]⟩
  · intro entry member symbol found
    have ⟨tensor, isTensor⟩ := defines entry member symbol found
    exact ⟨tensor, isTensor, by simp [mem_arrayRows member found isTensor]⟩

end SourceUnit

end TensorArena
