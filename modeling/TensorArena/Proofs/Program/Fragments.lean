import TensorArena.Program.Source
import TensorArena.Proofs.Text.Lines

/-!
# Pieces of source text

The texts that a source is put together from have no line breaks in them, whatever the names of
tensors and operands and the contents of texts are. Class names, families and verbatim parameters
are taken over as they are, so these must have none themselves.
-/

set_option autoImplicit false

namespace TensorArena

/-! ### Operands and types -/

theorem unbroken_braced {items : List String} (all : ∀ item ∈ items, Unbroken item) :
    Unbroken (braced items) := by
  simp only [braced, unbroken_append]
  exact ⟨⟨by decide, unbroken_intercalate (by decide) all⟩, by decide⟩

theorem unbroken_renderBindings (bindings : List (String × String)) :
    Unbroken (renderBindings bindings) := by
  apply unbroken_braced
  intro item member
  have ⟨binding, _, same⟩ := List.mem_map.mp member
  rw [← same]
  apply unbroken_braced
  simp [Literal.unbroken_quoted]

theorem ElementKind.unbroken_cType (kind : ElementKind) : Unbroken kind.cType := by
  cases kind <;> decide

theorem Descriptor.unbroken_typeName {descriptor : Descriptor} {form : InstanceForm}
    (className : Unbroken descriptor.className) (family : Unbroken form.family) :
    Unbroken (descriptor.typeName form) := by
  have scope : Unbroken (if form.family.isEmpty then "" else form.family ++ "::") := by
    split
    · decide
    · simp only [unbroken_append]
      exact ⟨family, by decide⟩
  have kinds : ∀ name ∈ (descriptor.typeArguments.filterMap
      (TypeArgument.kind? form.signature)).map ElementKind.cType, Unbroken name := by
    intro name member
    obtain ⟨kind, _, same⟩ := List.mem_map.mp member
    rw [← same]
    exact kind.unbroken_cType
  unfold Descriptor.typeName
  dsimp only
  simp only [unbroken_append]
  refine ⟨⟨scope, className⟩, ?_⟩
  split
  · decide
  · simp only [unbroken_append]
    exact ⟨⟨by decide, unbroken_intercalate (by decide) kinds⟩, by decide⟩

/-! ### Parameters -/

namespace Param

mutual

/-- What the parameter has of verbatim source text, at any depth, has no line break in it. -/
def Inline : Param → Prop
  | ident value => Unbroken value
  | list items => AllInline items
  | _ => True

def AllInline : List Param → Prop
  | [] => True
  | item :: items => Inline item ∧ AllInline items

end

mutual

theorem unbroken_render : ∀ param : Param, param.Inline → Unbroken param.render
  | int value, _ => unbroken_integer value.toInt
  | float value, _ => Literal.unbroken_floating (by decide) value
  | bool value, _ => by cases value <;> decide
  | text value, _ => Literal.unbroken_quoted value
  | ident _, inline => inline
  | list items, inline => unbroken_braced (unbroken_renderAll items inline)

theorem unbroken_renderAll : ∀ params : List Param, AllInline params →
    ∀ text ∈ renderAll params, Unbroken text
  | [], _ => by simp [renderAll]
  | param :: params, inline => by
    rw [renderAll, List.forall_mem_cons]
    exact ⟨unbroken_render param inline.1, unbroken_renderAll params inline.2⟩

end

theorem renderAll_eq_map (params : List Param) : renderAll params = params.map render := by
  induction params with
  | nil => rfl
  | cons param rest ih => rw [renderAll, ih, List.map_cons]

mutual

/-- Normalizing leaves verbatim text alone. -/
theorem inline_of_normalize? : ∀ param normal : Param, param.normalize? = some normal →
    param.Inline → normal.Inline
  | float value, normal, found, _ => by
    unfold normalize? at found
    split at found
    · cases found
    · split at found <;> cases found <;> trivial
  | list items, normal, found, inline => by
    have ⟨normals, foundAll, same⟩ := Option.map_eq_some_iff.mp found
    rw [← same]
    exact allInline_of_normalizeAll? items normals foundAll inline
  | int _, _, found, inline => Option.some.inj found ▸ inline
  | bool _, _, found, inline => Option.some.inj found ▸ inline
  | text _, _, found, inline => Option.some.inj found ▸ inline
  | ident _, _, found, inline => Option.some.inj found ▸ inline

theorem allInline_of_normalizeAll? : ∀ params normals : List Param,
    normalizeAll? params = some normals → AllInline params → AllInline normals
  | [], normals, found, _ => by
    cases found
    trivial
  | param :: params, normals, found, inline => by
    unfold normalizeAll? at found
    have ⟨normal, isFirst, rest⟩ := Option.bind_eq_some_iff.mp found
    have ⟨others, areOthers, whole⟩ := Option.bind_eq_some_iff.mp rest
    cases whole
    exact ⟨inline_of_normalize? param normal isFirst inline.1,
      allInline_of_normalizeAll? params others areOthers inline.2⟩

end

end Param

/-! ### Instances -/

theorem solid_instanceName (opType : String) (id : Nat) :
    Block.Solid (instanceName opType id) := by
  have start : Block.Solid "op_" := ⟨by decide, by decide⟩
  have lower : Unbroken ((Identifier.sanitize opType).map Char.toLower) := by
    unfold Unbroken
    rw [String.toList_map]
    intro member
    have ⟨source, inside, lowered⟩ := List.mem_map.mp member
    refine Identifier.toLower_ne_break ?_ lowered
    rintro rfl
    exact Identifier.unbroken_sanitize opType inside
  exact ((start.append lower).append (by decide)).append (unbroken_padded (by decide) _ id)

/-! ### Arrays -/

theorem unbroken_freshSymbol (used : List String) {base : String} (plain : Unbroken base) :
    Unbroken (freshSymbol used base) := by
  unfold freshSymbol
  cases found : ((List.range (used.length + 1)).map (symbolCandidate base)).find? fun symbol =>
      !used.contains symbol with
  | none => exact plain
  | some symbol =>
    have ⟨attempt, _, same⟩ := List.mem_map.mp (List.mem_of_find?_eq_some found)
    rw [Option.getD_some, ← same]
    unfold symbolCandidate
    split
    · exact plain
    · show Unbroken (base ++ "_" ++ toString attempt)
      simp only [unbroken_append]
      exact ⟨⟨plain, by decide⟩, unbroken_natural attempt⟩

theorem unbroken_arraySymbolsFrom (used : List String) (entries : List PlanEntry) :
    ∀ pair ∈ arraySymbolsFrom used entries, Unbroken pair.2 := by
  induction entries generalizing used with
  | nil => simp [arraySymbolsFrom]
  | cons entry rest ih =>
    unfold arraySymbolsFrom
    split
    · dsimp only
      rw [List.forall_mem_cons]
      refine ⟨unbroken_freshSymbol used ?_, ih _⟩
      simp only [unbroken_append]
      exact ⟨Identifier.unbroken_sanitize entry.name, by decide⟩
    · exact ih used

theorem SourceUnit.unbroken_arraySymbol {unit : SourceUnit} {name symbol : String}
    (found : unit.arraySymbol? name = some symbol) : Unbroken symbol := by
  unfold arraySymbol? at found
  have ⟨before, after, whole, _⟩ := List.lookup_eq_some_iff.mp found
  apply unbroken_arraySymbolsFrom [] unit.plan.entries (name, symbol)
  show _ ∈ unit.arraySymbols
  rw [← List.mem_reverse, whole]
  simp

theorem ConstantData.unbroken_render (data : ConstantData) :
    ∀ value ∈ data.render, Unbroken value := by
  intro text member
  cases data with
  | floats values =>
    have ⟨value, _, same⟩ := List.mem_map.mp member
    rw [← same]
    exact Literal.unbroken_floating (by decide) value
  | ints values =>
    have ⟨value, _, same⟩ := List.mem_map.mp member
    rw [← same]
    exact unbroken_integer value.toInt

theorem unbroken_quantizationArgument (quantization : Option Quantization) :
    Unbroken (SourceUnit.quantizationArgument quantization) := by
  cases quantization with
  | none => decide
  | some quantization =>
    have scale : Unbroken (Literal.single quantization.scale) :=
      Literal.unbroken_floating (by decide) _
    unfold SourceUnit.quantizationArgument
    simp only [unbroken_append]
    exact ⟨⟨⟨⟨by decide, scale⟩, by decide⟩, unbroken_integer _⟩, by decide⟩

end TensorArena
