import TensorArena.Graph.Document
import TensorArena.Proofs.Json.Decoding
import TensorArena.Proofs.Json.Text

/-!
# Saved graphs

A graph that is saved and read again is the same graph, if all its floating-point numbers are
finite, are read back from their own texts, and its parameters are not nested too deeply. A graph
with a number that is not finite, or with parameters that are nested too deeply, is not read again
at all.
-/

set_option autoImplicit false

namespace TensorArena

/-! ### Floating-point numbers -/

/-- Reading the text of a number gives the number. -/
def Binary32.ReadBack (value : Binary32) : Prop :=
  (Json.ofBinary32 value).binary32? = some value

def Binary64.ReadBack (value : Binary64) : Prop :=
  (Json.ofBinary64 value).binary64? = some value

/-- Evaluation in double precision misses some numbers: the text of this one is read as its
neighbour. -/
example : ¬ Binary64.ReadBack ⟨false, 7518702484411186110, by decide⟩ := by
  unfold Binary64.ReadBack
  decide +kernel

def ConstantData.singles : ConstantData → List Binary32
  | floats values => values
  | ints _ => []

def Tensor.singles (tensor : Tensor) : List Binary32 :=
  tensor.quantization.elim [] (fun quantization => [quantization.scale]) ++
    tensor.data.elim [] ConstantData.singles

namespace Param

mutual

/-- The floating-point numbers of a parameter, at any depth. -/
def doubles : Param → List Binary64
  | float value => [value]
  | list items => doublesAll items
  | _ => []

def doublesAll : List Param → List Binary64
  | [] => []
  | item :: items => doubles item ++ doublesAll items

end

end Param

namespace Graph

/-- The quantization scales and the floating-point data of a graph. -/
def singles (graph : Graph) : List Binary32 := graph.tensors.flatMap Tensor.singles

/-- The floating-point parameters of a graph. -/
def doubles (graph : Graph) : List Binary64 :=
  graph.operators.flatMap fun operator => Param.doublesAll operator.params

def isFinite (graph : Graph) : Bool :=
  graph.singles.all Binary.isFinite && graph.doubles.all Binary.isFinite

end Graph

/-! ### Tensors -/

namespace Quantization

theorem fields?_toJson (quantization : Quantization) :
    quantization.toJson.fields? ["scale", "zero_point"] =
      some [some (.ofBinary32 quantization.scale),
        some (.ofInt quantization.zeroPoint.toInt)] := by
  rw [toJson, Json.fields?_record (by simp)]
  rfl

theorem ofJson?_toJson {quantization : Quantization} (read : quantization.scale.ReadBack) :
    ofJson? quantization.toJson = some quantization := by
  have scale : (Json.ofBinary32 quantization.scale).binary32? = some quantization.scale := read
  simp [ofJson?, fields?_toJson, scale]

theorem ofJson?_eq_none {quantization : Quantization}
    (infinite : quantization.scale.isFinite = false) : ofJson? quantization.toJson = none := by
  simp [ofJson?, fields?_toJson, Json.ofBinary32_eq_null infinite, Json.binary32?]

end Quantization

namespace ConstantData

theorem ofJson?_toJson {data : ConstantData} (read : ∀ value ∈ data.singles, value.ReadBack) :
    ofJson? data.toJson = some data := by
  cases data with
  | floats values =>
    have items : Json.list? Json.binary32? (.array (values.map Json.ofBinary32)) = some values :=
      Json.list?_map read
    simp [toJson, Json.record, ofJson?, items]
  | ints values =>
    simp [toJson, Json.record, ofJson?, Json.list?_map fun value _ => Json.int64?_ofInt value]

theorem ofJson?_eq_none {data : ConstantData} {value : Binary32} (listed : value ∈ data.singles)
    (infinite : value.isFinite = false) : ofJson? data.toJson = none := by
  cases data with
  | floats values =>
    have unread : (Json.ofBinary32 value).binary32? = none := by
      rw [Json.ofBinary32_eq_null infinite]
      rfl
    have items : Json.list? Json.binary32? (.array (values.map Json.ofBinary32)) = none :=
      Json.list?_map_eq_none listed unread
    simp [toJson, Json.record, ofJson?, items]
  | ints values => simp [singles] at listed

end ConstantData

theorem Json.lookup_member {α : Type} (key name : String) (toJson : α → Json)
    (value : Option α) :
    (Json.member name toJson value).lookup key = if key = name then value.map toJson else none := by
  cases value with
  | none => simp [member]
  | some value =>
    by_cases same : key = name <;> simp [member, List.lookup_cons, beq_eq_decide, same]

theorem ElementKind.ofJson?_ofText (kind : ElementKind) :
    ofJson? (.ofText kind.name) = some kind := by
  cases kind <;> rfl

namespace Tensor

theorem fields?_toJson (tensor : Tensor) :
    tensor.toJson.fields? ["name", "dtype", "shape", "quant", "data"] =
      some [some (.ofText tensor.name), some (.ofText tensor.kind.name),
        some (.array (tensor.shape.map fun dim => Json.ofNat dim.toNat)),
        tensor.quantization.map Quantization.toJson, tensor.data.map ConstantData.toJson] := by
  rw [toJson, Json.fields?_record]
  · simp [List.lookup_append, List.lookup_cons, Json.lookup_member]
  · cases tensor.quantization <;> cases tensor.data <;> simp [Json.member]

theorem ofJson?_toJson {tensor : Tensor} (read : ∀ value ∈ tensor.singles, value.ReadBack) :
    ofJson? tensor.toJson = some tensor := by
  have shape : (Json.array (tensor.shape.map fun dim => Json.ofNat dim.toNat)).list? Json.uint64? =
      some tensor.shape := Json.list?_map fun dim _ => Json.uint64?_ofNat dim
  have quantization : Json.optional? Quantization.ofJson?
      (tensor.quantization.map Quantization.toJson) = some tensor.quantization :=
    Json.optional?_map (fun _ _ => nofun) fun each present =>
      Quantization.ofJson?_toJson (read _ (by simp [singles, Option.mem_def.mp present]))
  have data : Json.optional? ConstantData.ofJson? (tensor.data.map ConstantData.toJson) =
      some tensor.data :=
    Json.optional?_map (fun data _ => by cases data <;> nofun) fun each present =>
      ConstantData.ofJson?_toJson fun value listed =>
        read value (by simp [singles, Option.mem_def.mp present, listed])
  simp [ofJson?, fields?_toJson, ElementKind.ofJson?_ofText, shape, quantization, data]

/-- A tensor with a number that is not finite is not read again, whatever its other numbers are
read as. -/
theorem ofJson?_eq_none {tensor : Tensor} {value : Binary32} (listed : value ∈ tensor.singles)
    (infinite : value.isFinite = false) : ofJson? tensor.toJson = none := by
  have unread : Json.optional? Quantization.ofJson?
        (tensor.quantization.map Quantization.toJson) = none ∨
      Json.optional? ConstantData.ofJson? (tensor.data.map ConstantData.toJson) = none := by
    rcases List.mem_append.mp listed with scale | item
    · cases present : tensor.quantization with
      | none => simp [present] at scale
      | some quantization =>
        obtain rfl : value = quantization.scale := by simpa [present] using scale
        exact .inl (Json.optional?_map_eq_none nofun (Quantization.ofJson?_eq_none infinite))
    · cases present : tensor.data with
      | none => simp [present] at item
      | some data =>
        rw [present] at item
        refine .inr (Json.optional?_map_eq_none (by cases data <;> nofun) ?_)
        exact ConstantData.ofJson?_eq_none item infinite
  rw [ofJson?, fields?_toJson]
  rcases unread with unread | unread <;> simp [unread]

theorem nesting_toJson_le (tensor : Tensor) : tensor.toJson.nesting ≤ 3 := by
  have quantization (quantization : Quantization) : quantization.toJson.nesting ≤ 2 := by
    simp [Quantization.toJson]
  have data (data : ConstantData) : data.toJson.nesting ≤ 2 := by
    cases data <;> simp [ConstantData.toJson]
  rw [toJson, Json.nesting_record_le_iff]
  cases tensor.quantization <;> cases tensor.data <;>
    simp [Json.member, quantization, data]

end Tensor

/-! ### Parameters -/

theorem ParamKind.ofName?_name (kind : ParamKind) : ParamKind.ofName? kind.name = some kind := by
  cases kind <;> rfl

namespace Param

/-- The value that a parameter is written with, beside its kind. -/
def content : Param → Json
  | int value => .ofInt value.toInt
  | float value => .ofBinary64 value
  | bool value => .bool value
  | text value => .ofText value
  | ident value => .ofText value
  | list items => .array (items.map toJson)

theorem toJsonAll_eq (items : List Param) : toJsonAll items = items.map toJson := by
  induction items with
  | nil => rfl
  | cons item items ih => rw [toJsonAll, ih, List.map_cons]

theorem mem_doublesAll {items : List Param} {value : Binary64} :
    value ∈ doublesAll items ↔ ∃ item ∈ items, value ∈ item.doubles := by
  induction items with
  | nil => simp [doublesAll]
  | cons item items ih => simp [doublesAll, ih]

theorem toJson_eq (param : Param) :
    param.toJson = .record [("kind", .ofText param.kind.name), ("value", param.content)] := by
  cases param <;> simp [toJson, kind, ParamKind.name, content, toJsonAll_eq]

theorem parts?_toJson (param : Param) (room : Nat) (ahead : Bool) :
    parts? room ahead param.toJson = some (param.kind, param.content, ahead) := by
  have fields : param.toJson.fields? ["kind", "value"] =
      some [some (.ofText param.kind.name), some param.content] := by
    rw [toJson_eq, Json.fields?_record (by simp)]
    rfl
  rw [toJson_eq] at fields ⊢
  simp only [Json.record, List.map_cons, List.map_nil] at fields ⊢
  rw [parts?.eq_2, fields]
  simp [ParamKind.ofMember?, Json.ofText, ParamKind.ofName?_name]

theorem nesting_toJson (param : Param) : param.toJson.nesting = param.content.nesting + 1 := by
  rw [toJson_eq]
  simp [Json.record, Json.nesting, Json.membersNesting, Json.ofText]

/-- The parameter of a kind with a given content, if there is room for the items of a list. -/
def ofContent? (item? : Option (Json → Option Param)) : ParamKind → Json → Option Param
  | .int, content => content.int64?.map int
  | .float, content => content.binary64?.map float
  | .bool, content => content.bool?.map bool
  | .text, content => content.text?.map text
  | .ident, content => content.text?.map ident
  | .list, .array items => item?.bind fun item? => (items.mapM item?).map list
  | .list, _ => none

/-- The items of a list are read with the room that its own brackets leave. -/
def item? : Nat → Bool → Option (Json → Option Param)
  | 0, _ => none
  | room + 1, ahead => some (ofJson? room ahead)

theorem ofJson?_succ (room : Nat) (ahead : Bool) (json : Json) :
    ofJson? (room + 1) ahead json = (parts? room ahead json).bind fun parts =>
      ofContent? (item? room parts.2.2) parts.1 parts.2.1 := by
  obtain _ | room := room
  all_goals
    simp only [item?]
    delta ofJson?
    change (parts? _ ahead json).bind _ = _
    cases parts? _ ahead json with
    | none => rfl
    | some parts =>
      obtain ⟨kind, content, ahead⟩ := parts
      cases kind <;> cases content <;> rfl

theorem ofJson?_scalar {param : Param} (scalar : param.kind ≠ .list) (room : Nat)
    (read : ∀ value ∈ param.doubles, value.ReadBack) :
    ofJson? (room + 1) false param.toJson = some param := by
  rw [ofJson?_succ, parts?_toJson]
  cases param with
  | int value => simp [ofContent?, kind, content]
  | float value =>
    have same : (Json.ofBinary64 value).binary64? = some value := read value (by simp [doubles])
    simp [ofContent?, kind, content, same]
  | bool value => simp [ofContent?, kind, content, Json.bool?]
  | text value => simp [ofContent?, kind, content]
  | ident value => simp [ofContent?, kind, content]
  | list items => exact absurd rfl scalar

theorem ofJson?_list (items : List Param) (room : Nat) :
    ofJson? (room + 1) false (list items).toJson =
      (item? room false).bind fun item? =>
        (Json.list? item? (.array (items.map toJson))).map list := by
  rw [ofJson?_succ, parts?_toJson]
  rfl

theorem nesting_list_le_iff {items : List Param} {room : Nat} :
    (list items).toJson.nesting ≤ room + 2 ↔ ∀ item ∈ items, item.toJson.nesting ≤ room := by
  rw [nesting_toJson, Nat.add_le_add_iff_right, content, Json.nesting_array_le_iff]
  simp

/-- The induction is on the room for brackets, of which each level of lists takes two. -/
theorem ofJson?_toJson {param : Param} {room : Nat} (fits : param.toJson.nesting ≤ room)
    (read : ∀ value ∈ param.doubles, value.ReadBack) :
    ofJson? room false param.toJson = some param := by
  induction room using Nat.strongRecOn generalizing param with
  | _ room ih =>
    obtain _ | room := room
    · simp [nesting_toJson] at fits
    · cases param with
      | list items =>
        obtain _ | room := room
        · simp [nesting_toJson, content, Json.nesting] at fits
        · have whole : Json.list? (ofJson? room false) (.array (items.map toJson)) = some items :=
            Json.list?_map fun item listed =>
              ih room (by omega) (nesting_list_le_iff.mp fits item listed) fun value among =>
                read value (mem_doublesAll.mpr ⟨item, listed, among⟩)
          rw [ofJson?_list, item?, Option.bind_some, whole]
          rfl
      | _ => exact ofJson?_scalar (by simp [kind]) room read

/-- A parameter is not read again if it does not fit or if one of its numbers is not finite,
whatever its other numbers are read as. -/
theorem ofJson?_eq_none {param : Param} {room : Nat}
    (unfit : room < param.toJson.nesting ∨ ∃ value ∈ param.doubles, value.isFinite = false) :
    ofJson? room false param.toJson = none := by
  induction room using Nat.strongRecOn generalizing param with
  | _ room ih =>
    obtain _ | room := room
    · rfl
    · cases param with
      | list items =>
        rw [ofJson?_list]
        obtain _ | room := room
        · rfl
        · have some_item : ∃ item ∈ items, room < item.toJson.nesting ∨
              ∃ value ∈ item.doubles, value.isFinite = false := by
            rcases unfit with deep | ⟨value, among, infinite⟩
            · rw [← Nat.not_le, nesting_list_le_iff] at deep
              push Not at deep
              obtain ⟨item, listed, deep⟩ := deep
              exact ⟨item, listed, .inl deep⟩
            · obtain ⟨item, listed, among⟩ := mem_doublesAll.mp among
              exact ⟨item, listed, .inr ⟨value, among, infinite⟩⟩
          obtain ⟨item, listed, unfit⟩ := some_item
          rw [item?, Option.bind_some, Json.list?_map_eq_none listed (ih room (by omega) unfit)]
          rfl
      | float value =>
        have infinite : value.isFinite = false := by
          simpa [nesting_toJson, content, doubles] using unfit
        rw [ofJson?_succ, parts?_toJson]
        simp [ofContent?, kind, content, Json.ofBinary64_eq_null infinite, Json.binary64?]
      | _ => simp [nesting_toJson, content, doubles, Json.nesting] at unfit

end Param

/-! ### Operators -/

namespace Operator

theorem fields?_toJson (operator : Operator) :
    operator.toJson.fields? ["op_type", "namespace", "inputs", "outputs", "params", "label"] =
      some [some (.ofText operator.opType), operator.family.map Json.ofText,
        some (.ofTexts operator.inputs), some (.ofTexts operator.outputs),
        if operator.params.isEmpty then none
          else some (.array (operator.params.map Param.toJson)),
        operator.label.map Json.ofText] := by
  rw [toJson, Json.fields?_record]
  · cases operator.params <;>
      simp [List.lookup_append, List.lookup_cons, Json.lookup_member, Param.toJsonAll_eq]
  · cases operator.family <;> cases operator.params <;> cases operator.label <;>
      simp [Json.member]

theorem optionalText?_map (text : Option String) :
    Json.optional? Json.text? (text.map Json.ofText) = some text :=
  Json.optional?_map (fun _ _ => nofun) fun _ _ => rfl

theorem ofJson?_toJson {operator : Operator}
    (fits : ∀ param ∈ operator.params, param.toJson.nesting ≤ paramRoom)
    (read : ∀ value ∈ Param.doublesAll operator.params, value.ReadBack) :
    ofJson? operator.toJson = some operator := by
  have params : Json.orDefault? [] (Json.list? (Param.ofJson? paramRoom false))
      (if operator.params.isEmpty then none
        else some (.array (operator.params.map Param.toJson))) = some operator.params := by
    split
    case isTrue empty => rw [List.isEmpty_iff.mp empty]; rfl
    case isFalse =>
      exact Json.list?_map fun param listed =>
        Param.ofJson?_toJson (fits param listed) fun value among =>
          read value (Param.mem_doublesAll.mpr ⟨param, listed, among⟩)
  simp [-List.isEmpty_iff, ofJson?, fields?_toJson, optionalText?_map, params]

theorem ofJson?_eq_none {operator : Operator}
    (unfit : (∃ param ∈ operator.params, paramRoom < param.toJson.nesting) ∨
      ∃ value ∈ Param.doublesAll operator.params, value.isFinite = false) :
    ofJson? operator.toJson = none := by
  obtain ⟨param, listed, unfit⟩ : ∃ param ∈ operator.params,
      paramRoom < param.toJson.nesting ∨ ∃ value ∈ param.doubles, value.isFinite = false := by
    rcases unfit with ⟨param, listed, deep⟩ | ⟨value, among, infinite⟩
    · exact ⟨param, listed, .inl deep⟩
    · obtain ⟨param, listed, among⟩ := Param.mem_doublesAll.mp among
      exact ⟨param, listed, .inr ⟨value, among, infinite⟩⟩
  have params := Json.list?_map_eq_none listed (Param.ofJson?_eq_none unfit)
  have inhabited : operator.params.isEmpty = false := by
    simpa using List.ne_nil_of_mem listed
  rw [ofJson?, fields?_toJson]
  simp [inhabited, optionalText?_map, params, Json.orDefault?]

theorem nesting_toJson_le_iff {operator : Operator} {room : Nat} :
    operator.toJson.nesting ≤ room + 2 ↔
      ∀ param ∈ operator.params, param.toJson.nesting ≤ room := by
  rw [toJson, Json.nesting_record_le_iff]
  cases operator.family <;> cases operator.params <;> cases operator.label <;>
    simp [Json.member, Json.ofTexts, Param.toJsonAll_eq]

end Operator

/-! ### Graphs -/

namespace Graph

theorem fields?_toJson (graph : Graph) :
    graph.toJson.fields? ["name", "tensors", "operators", "inputs", "outputs"] =
      some [some (.ofText graph.name), some (.array (graph.tensors.map Tensor.toJson)),
        some (.array (graph.operators.map Operator.toJson)), some (.ofTexts graph.inputs),
        some (.ofTexts graph.outputs)] := by
  rw [toJson, Json.fields?_record (by simp)]
  rfl

/-- Only the parameters decide whether the document is nested too deeply. -/
theorem nesting_toJson_le_iff (graph : Graph) :
    graph.toJson.nesting ≤ nestingLimit ↔
      ∀ operator ∈ graph.operators, ∀ param ∈ operator.params,
        param.toJson.nesting ≤ Operator.paramRoom := by
  have tensors : (Json.array (graph.tensors.map Tensor.toJson)).nesting ≤ 125 + 1 := by
    rw [Json.nesting_array_le_iff, List.forall_mem_map]
    exact fun tensor _ => tensor.nesting_toJson_le.trans (by decide)
  have operators : (Json.array (graph.operators.map Operator.toJson)).nesting ≤ 125 + 1 ↔
      ∀ operator ∈ graph.operators, ∀ param ∈ operator.params,
        param.toJson.nesting ≤ Operator.paramRoom := by
    rw [Json.nesting_array_le_iff, List.forall_mem_map]
    exact forall₂_congr fun operator _ => Operator.nesting_toJson_le_iff
  have texts (texts : List String) : (Json.ofTexts texts).nesting ≤ 126 := by
    simp [Json.ofTexts]
  change graph.toJson.nesting ≤ 126 + 1 ↔ _
  rw [toJson, Json.nesting_record_le_iff, ← operators]
  simp only [List.forall_mem_cons, Json.nesting_ofText, texts, tensors]
  simp

/-- A graph whose parameters fit is read again as itself if its numbers are. -/
theorem ofText?_toText {graph : Graph} (fits : graph.toJson.nesting ≤ nestingLimit)
    (singles : ∀ value ∈ graph.singles, value.ReadBack)
    (doubles : ∀ value ∈ graph.doubles, value.ReadBack) : ofText? graph.toText = some graph := by
  have tensors : (Json.array (graph.tensors.map Tensor.toJson)).list? Tensor.ofJson? =
      some graph.tensors :=
    Json.list?_map fun tensor listed => Tensor.ofJson?_toJson fun value among =>
      singles value (List.mem_flatMap.mpr ⟨tensor, listed, among⟩)
  have operators : (Json.array (graph.operators.map Operator.toJson)).list? Operator.ofJson? =
      some graph.operators :=
    Json.list?_map fun operator listed =>
      Operator.ofJson?_toJson (graph.nesting_toJson_le_iff.mp fits operator listed)
        fun value among => doubles value (List.mem_flatMap.mpr ⟨operator, listed, among⟩)
  rw [ofText?, toText, Json.read?_write Json.Layout.indented_blank]
  simp [ofJson?, fields?_toJson, tensors, operators]

theorem ofText?_eq_none {graph : Graph}
    (unfit : nestingLimit < graph.toJson.nesting ∨ graph.isFinite = false) :
    ofText? graph.toText = none := by
  have unread : (∃ tensor ∈ graph.tensors, Tensor.ofJson? tensor.toJson = none) ∨
      ∃ operator ∈ graph.operators, Operator.ofJson? operator.toJson = none := by
    rcases unfit with deep | infinite
    · rw [← Nat.not_le, nesting_toJson_le_iff] at deep
      push Not at deep
      obtain ⟨operator, listed, param, among, deep⟩ := deep
      exact .inr ⟨operator, listed, Operator.ofJson?_eq_none (.inl ⟨param, among, deep⟩)⟩
    · rcases Bool.and_eq_false_iff.mp infinite with infinite | infinite
      · obtain ⟨value, among, infinite⟩ := List.all_eq_false.mp infinite
        obtain ⟨tensor, listed, among⟩ := List.mem_flatMap.mp among
        exact .inl ⟨tensor, listed, Tensor.ofJson?_eq_none among (by simpa using infinite)⟩
      · obtain ⟨value, among, infinite⟩ := List.all_eq_false.mp infinite
        obtain ⟨operator, listed, among⟩ := List.mem_flatMap.mp among
        exact .inr ⟨operator, listed,
          Operator.ofJson?_eq_none (.inr ⟨value, among, by simpa using infinite⟩)⟩
  rw [ofText?, toText, Json.read?_write Json.Layout.indented_blank, Option.bind_eq_bind,
    Option.bind_some, ofJson?, fields?_toJson]
  rcases unread with ⟨tensor, listed, unread⟩ | ⟨operator, listed, unread⟩
  · simp [Json.list?_map_eq_none listed unread]
  · simp [Json.list?_map_eq_none listed unread]

/-- Saving a graph and reading it again gives the same graph, or none: the same if all its numbers
are finite and the document nests at most 127 arrays and objects, none in every other case. The
numbers that are finite must be read back from their own texts. -/
theorem saved_graph_reloads (graph : Graph)
    (singles : ∀ value ∈ graph.singles, value.isFinite = true → value.ReadBack)
    (doubles : ∀ value ∈ graph.doubles, value.isFinite = true → value.ReadBack) :
    ofText? graph.toText =
      if graph.isFinite = true ∧ graph.toJson.nesting ≤ 127 then some graph else none := by
  split
  case isTrue fit =>
    obtain ⟨finite, fits⟩ := fit
    obtain ⟨finiteSingles, finiteDoubles⟩ := (Bool.and_eq_true _ _).mp finite
    exact ofText?_toText fits
      (fun value listed => singles value listed (List.all_eq_true.mp finiteSingles value listed))
      fun value listed => doubles value listed (List.all_eq_true.mp finiteDoubles value listed)
  case isFalse unfit =>
    refine ofText?_eq_none ?_
    by_cases finite : graph.isFinite = true
    · exact .inl (Nat.not_le.mp fun fits => unfit ⟨finite, fits⟩)
    · exact .inr (by simpa using finite)

/-- A graph with a scale, data and nested parameters. -/
def gauge : Graph where
  name := "gauge"
  tensors := [
    { name := "level", kind := .si8, shape := [2],
      quantization := some { scale := ⟨false, 1036831949, by decide⟩, zeroPoint := -3 } },
    { name := "weight", kind := .f32, shape := [2],
      data := some (.floats [⟨false, 1078523331, by decide⟩, ⟨true, 0, by decide⟩]) },
    { name := "reading", kind := .f32, shape := [2] }]
  operators := [
    { opType := "Scale", inputs := ["level", "weight"], outputs := ["reading"],
      params := [.float ⟨false, 4599075939470750515, by decide⟩,
        .list [.text "\"\n", .list [.float ⟨true, 4502148214488346440, by decide⟩]]],
      label := some "first" }]
  inputs := ["level"]
  outputs := ["reading"]

theorem gauge_reloads :
    (∀ value ∈ gauge.singles, value.isFinite = true → value.ReadBack) ∧
      (∀ value ∈ gauge.doubles, value.isFinite = true → value.ReadBack) ∧
      ofText? gauge.toText = some gauge := by
  have singles : ∀ value ∈ gauge.singles, value.isFinite = true → value.ReadBack := by
    unfold Binary32.ReadBack
    decide +kernel
  have doubles : ∀ value ∈ gauge.doubles, value.isFinite = true → value.ReadBack := by
    unfold Binary64.ReadBack
    decide +kernel
  have fit : gauge.isFinite = true ∧ gauge.toJson.nesting ≤ 127 := by
    decide +kernel
  exact ⟨singles, doubles, (saved_graph_reloads gauge singles doubles).trans (if_pos fit)⟩

end Graph

end TensorArena
