import TensorArena.Proofs.Json.Token

/-!
# Reading what has been written

In a layout whose line breaks are blank, the text of a JSON value is read back as that value, at
every depth of nesting.
-/

set_option autoImplicit false

namespace TensorArena.Json

open Reader

/-! ### Layouts -/

/-- A layout that puts nothing but blanks between the tokens. -/
structure Layout.Blank (layout : Layout) : Prop where
  lineBreak : ∀ depth, AllBlank (layout.lineBreak depth)
  colon : ∃ blanks, layout.colon = ':' :: blanks ∧ AllBlank blanks

theorem Layout.indented_blank : Layout.indented.Blank where
  lineBreak depth := by
    intro c member
    rcases List.mem_cons.mp member with rfl | member
    · rfl
    · rw [List.eq_of_mem_replicate member]
      rfl
  colon := ⟨[' '], rfl, by simp [AllBlank, isBlank]⟩

/-! ### Recursion of the reader -/

namespace Reader

theorem value?_append {blanks : List Char} (blank : AllBlank blanks) (fuel : Nat)
    (text : List Char) : value? fuel (blanks ++ text) = value? fuel text := by
  cases fuel with
  | zero => rfl
  | succ fuel => simp only [value?, skipBlanks_append blank]

theorem value?_skipBlanks (fuel : Nat) (text : List Char) :
    value? fuel (skipBlanks text) = value? fuel text := by
  cases fuel with
  | zero => rfl
  | succ fuel => simp only [value?, skipBlanks_skipBlanks]

theorem value?_number {c : Char} {rest : List Char} (fuel : Nat)
    (leads : c = '-' ∨ ∃ digit : Fin 10, c = Nat.digitChar digit.val) :
    value? (fuel + 1) (c :: rest) =
      (number? (c :: rest)).map fun read => (.number read.1, read.2) := by
  have unlike : isBlank c = false ∧ c ≠ '"' ∧ c ≠ '[' ∧ c ≠ '\x7b' ∧
      'n' ≠ c ∧ 't' ≠ c ∧ 'f' ≠ c := by
    rcases leads with rfl | ⟨digit, rfl⟩
    · decide
    · decide +revert
  obtain ⟨solid, quote, bracket, brace, isNull, isTrue, isFalse⟩ := unlike
  have words : afterWord? "null" (c :: rest) = none ∧ afterWord? "true" (c :: rest) = none ∧
      afterWord? "false" (c :: rest) = none := by
    simp [afterWord?, isNull, isTrue, isFalse]
  rw [value?.eq_2, skipBlanks_cons solid]
  split
  case h_4 => rw [words.1, words.2.1, words.2.2]
  all_goals simp_all

theorem items?_skipBlanks (fuel : Nat) (text : List Char) :
    items? fuel (skipBlanks text) = items? fuel text := by
  cases fuel with
  | zero => rfl
  | succ fuel => rw [items?, items?, value?_skipBlanks]

theorem members?_skipBlanks (fuel : Nat) (text : List Char) :
    members? fuel (skipBlanks text) = members? fuel text := by
  cases fuel with
  | zero => rfl
  | succ fuel => rw [members?, members?, skipBlanks_skipBlanks]

theorem value?_array (fuel : Nat) {text : List Char}
    (inhabited : (skipBlanks text).head? ≠ some ']') :
    value? (fuel + 1) ('[' :: text) =
      (items? fuel text).map fun read => (.array read.1, read.2) := by
  rw [value?.eq_2, skipBlanks_cons rfl, ← items?_skipBlanks fuel text]
  split
  case h_2 others same =>
    obtain rfl : text = others := by simpa using same
    split
    case h_1 first => simp [first] at inhabited
    case h_2 => rfl
  all_goals simp_all

theorem value?_object (fuel : Nat) {text : List Char}
    (inhabited : (skipBlanks text).head? ≠ some '\x7d') :
    value? (fuel + 1) ('\x7b' :: text) =
      (members? fuel text).map fun read => (.object read.1, read.2) := by
  rw [value?.eq_2, skipBlanks_cons rfl, ← members?_skipBlanks fuel text]
  split
  case h_3 others same =>
    obtain rfl : text = others := by simpa using same
    split
    case h_1 first => simp [first] at inhabited
    case h_2 => rfl
  all_goals simp_all

end Reader

/-! ### Values -/

section ReadBack

variable {layout : Layout} {depth : Nat}

/-- At a depth, the text of a value is read back wherever a value may end after it. -/
def ReadBack (layout : Layout) (depth : Nat) (json : Json) : Prop :=
  ∀ fuel rest, 2 * (writeValue layout depth json).length ≤ fuel → Ends rest →
    value? fuel (writeValue layout depth json ++ rest) = some (json, rest)

/-- The text of a value begins with a token, and not with a closing bracket. -/
theorem exists_writeValue (layout : Layout) (depth : Nat) (json : Json) :
    ∃ c rest, writeValue layout depth json = c :: rest ∧ isBlank c = false ∧ c ≠ ']' := by
  cases json with
  | null => exact ⟨'n', _, rfl, rfl, by decide⟩
  | bool value => cases value <;> exact ⟨_, _, rfl, rfl, by decide⟩
  | number value =>
    obtain ⟨c, rest, written, leads⟩ := exists_toChars value
    refine ⟨c, rest, written, ?_⟩
    rcases leads with rfl | ⟨digit, rfl⟩
    · decide
    · clear written
      decide +revert
  | string text =>
    obtain ⟨others, written, _⟩ := exists_writeText text
    exact ⟨'"', others, written, rfl, by decide⟩
  | array items => cases items <;> exact ⟨'[', _, rfl, rfl, by decide⟩
  | object members =>
    cases members with
    | nil => exact ⟨'\x7b', _, rfl, rfl, by decide⟩
    | cons member members => exact ⟨'\x7b', _, rfl, rfl, by decide⟩

theorem readBack_null : ReadBack layout depth .null := by
  intro fuel rest enough ends
  obtain _ | fuel := fuel
  · simp [writeValue] at enough
  · simp [writeValue, value?, skipBlanks, isBlank, afterWord?]

theorem readBack_bool (value : Bool) : ReadBack layout depth (.bool value) := by
  intro fuel rest enough ends
  obtain _ | fuel := fuel
  · cases value <;> simp [writeValue] at enough
  · cases value <;> simp [writeValue, value?, skipBlanks, isBlank, afterWord?]

theorem readBack_number (value : Number) : ReadBack layout depth (.number value) := by
  intro fuel rest enough ends
  obtain ⟨c, others, written, leads⟩ := exists_toChars value
  have read := number?_toChars value ends
  simp only [writeValue] at enough ⊢
  rw [written] at enough read ⊢
  obtain _ | fuel := fuel
  · simp at enough
  · rw [List.cons_append] at read ⊢
    rw [value?_number fuel leads, read]
    rfl

theorem readBack_string (text : Option String) : ReadBack layout depth (.string text) := by
  intro fuel rest enough ends
  obtain ⟨others, written, read⟩ := exists_writeText text
  simp only [writeValue, written] at enough ⊢
  obtain _ | fuel := fuel
  · simp at enough
  · rw [List.cons_append, value?.eq_2, skipBlanks_cons rfl]
    simp [read rest]

/-- The items after the opening bracket of an array are read one by one. -/
theorem items?_writeItems (blank : layout.Blank) {items : List Json} :
    ∀ {item : Json} {blanks closing : List Char} {fuel : Nat} (rest : List Char),
      (∀ each ∈ item :: items, ReadBack layout depth each) → AllBlank blanks →
      AllBlank closing →
      2 * (writeValue layout depth item).length + 2 * (writeItems layout depth items).length <
        fuel →
      items? fuel (blanks ++ (writeValue layout depth item ++ (writeItems layout depth items ++
        (closing ++ ']' :: rest)))) = some (item :: items, rest) := by
  induction items with
  | nil =>
    intro item blanks closing fuel rest read opened closed enough
    obtain _ | fuel := fuel
    · omega
    · have ends : Ends (closing ++ ']' :: rest) := ends_append closed (ends_cons (by decide))
      simp only [writeItems, List.nil_append] at enough ⊢
      rw [items?, value?_append opened, read item (by simp) fuel _ (by omega) ends]
      simp [skipBlanks_append closed, skipBlanks_cons (c := ']') rfl]
  | cons next others ih =>
    intro item blanks closing fuel rest read opened closed enough
    obtain _ | fuel := fuel
    · omega
    · simp only [writeItems, List.length_cons, List.length_append, List.cons_append,
        List.append_assoc] at enough ⊢
      have follow := ih rest (fun each member => read each (List.mem_cons_of_mem item member))
        (blank.lineBreak depth) closed (by omega : _ < fuel)
      rw [items?, value?_append opened,
        read item (by simp) fuel _ (by omega) (ends_cons (by decide))]
      simp [skipBlanks_cons (c := ',') rfl, follow]

theorem readBack_array (blank : layout.Blank) {items : List Json}
    (read : ∀ item ∈ items, ReadBack layout (depth + 1) item) :
    ReadBack layout depth (.array items) := by
  intro fuel rest enough ends
  obtain _ | fuel := fuel
  · cases items <;> simp [writeValue] at enough
  · cases items with
    | nil =>
      simp [writeValue, value?, skipBlanks_cons (c := '[') rfl, skipBlanks_cons (c := ']') rfl]
    | cons item items =>
      simp only [writeValue, List.length_cons, List.length_append, List.cons_append,
        List.append_assoc, List.length_nil, List.nil_append] at enough ⊢
      have follow := items?_writeItems blank rest read (blank.lineBreak (depth + 1))
        (blank.lineBreak depth) (by omega : _ < fuel)
      rw [value?_array, follow]
      · rfl
      · obtain ⟨c, others, written, solid, unlike⟩ := exists_writeValue layout (depth + 1) item
        rw [skipBlanks_append (blank.lineBreak _), written, List.cons_append,
          skipBlanks_cons solid]
        simpa using unlike

/-- A member is read as its key and its value. A comma goes on to the other members, and a brace
ends them. -/
theorem members?_writeText (blank : layout.Blank) {key : Option String} {value : Json}
    {blanks : List Char} {fuel : Nat} {text : List Char} (read : ReadBack layout depth value)
    (opened : AllBlank blanks) (enough : 2 * (writeValue layout depth value).length ≤ fuel)
    (ends : Ends text) (rest : List Char) :
    (skipBlanks text = ',' :: rest →
      members? (fuel + 1) (blanks ++ (writeText key ++ (layout.colon ++
        (writeValue layout depth value ++ text)))) =
          (members? fuel rest).map fun read => ((key, value) :: read.1, read.2)) ∧
    (skipBlanks text = '\x7d' :: rest →
      members? (fuel + 1) (blanks ++ (writeText key ++ (layout.colon ++
        (writeValue layout depth value ++ text)))) = some ([(key, value)], rest)) := by
  obtain ⟨others, written, spelled⟩ := exists_writeText key
  obtain ⟨spaces, colon, spaced⟩ := blank.colon
  rw [members?, skipBlanks_append opened, written, List.cons_append, skipBlanks_cons rfl]
  simp only [spelled, colon, List.cons_append, skipBlanks_cons (c := ':') rfl,
    value?_append spaced, read fuel text enough ends, Option.bind_eq_bind, Option.bind_some]
  refine ⟨fun same => ?_, fun same => ?_⟩
  · simp only [same]
    cases members? fuel rest <;> rfl
  · simp only [same]
    rfl

/-- The members after the opening brace of an object are read one by one. -/
theorem members?_writeMembers (blank : layout.Blank) {members : List (Option String × Json)} :
    ∀ {key : Option String} {value : Json} {blanks closing : List Char} {fuel : Nat}
      (rest : List Char),
      (∀ each ∈ (key, value) :: members, ReadBack layout depth each.2) → AllBlank blanks →
      AllBlank closing →
      2 * (writeValue layout depth value).length +
        2 * (writeMembers layout depth members).length < fuel →
      members? fuel (blanks ++ (writeText key ++ (layout.colon ++
        (writeValue layout depth value ++ (writeMembers layout depth members ++
          (closing ++ '\x7d' :: rest)))))) = some ((key, value) :: members, rest) := by
  induction members with
  | nil =>
    intro key value blanks closing fuel rest read opened closed enough
    obtain _ | fuel := fuel
    · omega
    · have first : ReadBack layout depth value := read (key, value) (by simp)
      have ends : Ends (closing ++ '\x7d' :: rest) := ends_append closed (ends_cons (by decide))
      simp only [writeMembers, List.nil_append] at enough ⊢
      refine (members?_writeText blank first opened (by omega) ends rest).2 ?_
      rw [skipBlanks_append closed, skipBlanks_cons rfl]
  | cons next others ih =>
    intro key value blanks closing fuel rest read opened closed enough
    obtain _ | fuel := fuel
    · omega
    · have first : ReadBack layout depth value := read (key, value) (by simp)
      simp only [writeMembers, List.length_cons, List.length_append, List.cons_append,
        List.append_assoc] at enough ⊢
      have follow := ih rest (fun each member => read each (List.mem_cons_of_mem _ member))
        (blank.lineBreak depth) closed (by omega : _ < fuel)
      rw [(members?_writeText blank first opened (by omega) (ends_cons (by decide)) _).1
        (skipBlanks_cons rfl), follow]
      rfl

theorem readBack_object (blank : layout.Blank) {members : List (Option String × Json)}
    (read : ∀ member ∈ members, ReadBack layout (depth + 1) member.2) :
    ReadBack layout depth (.object members) := by
  intro fuel rest enough ends
  obtain _ | fuel := fuel
  · cases members <;> simp [writeValue] at enough
  · cases members with
    | nil =>
      simp [writeValue, value?, skipBlanks_cons (c := '\x7b') rfl,
        skipBlanks_cons (c := '\x7d') rfl]
    | cons member members =>
      obtain ⟨key, value⟩ := member
      simp only [writeValue, List.length_cons, List.length_append, List.cons_append,
        List.append_assoc, List.length_nil, List.nil_append] at enough ⊢
      have follow := members?_writeMembers blank rest read (blank.lineBreak (depth + 1))
        (blank.lineBreak depth) (by omega : _ < fuel)
      rw [value?_object, follow]
      · rfl
      · obtain ⟨others, written, _⟩ := exists_writeText key
        rw [skipBlanks_append (blank.lineBreak _), written, List.cons_append, skipBlanks_cons rfl]
        simp

end ReadBack

/-- The induction is on the nesting of the values; the depth only decides the line breaks. -/
theorem readBack {layout : Layout} (blank : layout.Blank) :
    ∀ (json : Json) (depth : Nat), ReadBack layout depth json
  | .null, _ => readBack_null
  | .bool value, _ => readBack_bool value
  | .number value, _ => readBack_number value
  | .string text, _ => readBack_string text
  | .array items, depth => readBack_array blank fun item _ => readBack blank item (depth + 1)
  | .object members, depth =>
    readBack_object blank fun member _ => readBack blank member.2 (depth + 1)
termination_by json => sizeOf json
decreasing_by
  · have smaller := List.sizeOf_lt_of_mem ‹item ∈ items›
    simp only [array.sizeOf_spec]
    omega
  · have smaller := List.sizeOf_lt_of_mem ‹member ∈ members›
    obtain ⟨key, value⟩ := member
    simp only [object.sizeOf_spec, Prod.mk.sizeOf_spec] at smaller ⊢
    omega

/-- Every JSON value is read back from its text. -/
theorem read?_write {layout : Layout} (blank : layout.Blank) (json : Json) :
    read? (json.write layout) = some json := by
  have read := readBack blank json 0 (2 * ((writeValue layout 0 json).length + 1)) [] (by omega)
    ends_nil
  rw [List.append_nil] at read
  simp [read?, write, read, skipBlanks]

end TensorArena.Json
