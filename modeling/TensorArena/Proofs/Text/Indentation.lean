import Mathlib.Data.List.Forall2
import TensorArena.Proofs.Text.Lines

/-!
# Indentation

A block may also be written with cuts at bytes: a line loses its first bytes if they are all blanks.
No cut is then made inside a character, and the text is the same. Each line with some code keeps all
of it, and only the indentation that all such lines share is replaced.
-/

set_option autoImplicit false

namespace TensorArena.Block

/-! ### Cuts at bytes -/

/-- The text before a byte and the text from it on. There is no cut inside a character or behind the
end. -/
def cut? (count : Nat) (text : String) : Option (String × String) :=
  if valid : (⟨count⟩ : String.Pos.Raw).IsValid text then
    let position := text.pos ⟨count⟩ valid
    some ((text.sliceTo position).copy, (text.sliceFrom position).copy)
  else none

def isIndentByte (byte : UInt8) : Bool := byte == 0x20 || byte == 0x09

/-- The line without its first `count` bytes, if these are blanks, and else without leading white
space. A cut that cannot be made is a failure. -/
def dedentBytes? (count : Nat) (line : String) : Option String :=
  match (cut? count line).map Prod.fst with
  | some start =>
    if start.toByteArray.data.all isIndentByte then (cut? count line).map Prod.snd
    else some (String.ofList (Blank.trimStart line.toList))
  | none => some (String.ofList (Blank.trimStart line.toList))

/-- The text with a line behind it. -/
def pushLine? (level count : Nat) (text line : String) : Option String :=
  (dedentBytes? count line).map fun kept =>
    if kept.isEmpty then text ++ "\n" else text ++ margin level ++ kept ++ "\n"

/-- The text with a block behind it. -/
def push? (text : String) (level : Nat) (block : String) : Option String :=
  if block.isEmpty then some text
  else
    let rows := content block.toList
    (rows.map String.ofList).foldlM (pushLine? level (sharedIndent rows)) text

theorem cut?_eq_some_iff {count : Nat} {text start rest : String} :
    cut? count text = some (start, rest) ↔ text = start ++ rest ∧ start.utf8ByteSize = count := by
  unfold cut?
  constructor
  · intro made
    split at made
    next valid =>
      have splits := (text.pos ⟨count⟩ valid).splits
      cases made
      refine ⟨splits.eq_append, ?_⟩
      have offsets := splits.offset_eq_rawEndPos
      rw [String.offset_pos] at offsets
      exact (congrArg String.Pos.Raw.byteIdx offsets).symm
    next => cases made
  · intro ⟨whole, size⟩
    have ends : (⟨count⟩ : String.Pos.Raw) = start.rawEndPos := by
      rw [← size]
      rfl
    have valid : (⟨count⟩ : String.Pos.Raw).IsValid text :=
      String.Pos.Raw.isValid_iff_exists_append.mpr ⟨start, rest, whole, ends⟩
    have splits : (text.pos ⟨count⟩ valid).Splits start rest :=
      ⟨whole, by rw [String.offset_pos, ends]⟩
    have ⟨before, behind⟩ := (text.pos ⟨count⟩ valid).splits.eq splits
    rw [dif_pos valid]
    dsimp only
    rw [before, behind]

theorem isIndent_iff {c : Char} : isIndent c = true ↔ c.toNat = 0x20 ∨ c.toNat = 0x09 := by
  unfold isIndent
  rw [Bool.or_eq_true, beq_iff_eq, beq_iff_eq, ← Char.toNat_inj, ← Char.toNat_inj]
  exact Iff.rfl

theorem isIndentByte_iff {byte : UInt8} :
    isIndentByte byte = true ↔ byte.toNat = 0x20 ∨ byte.toNat = 0x09 := by
  unfold isIndentByte
  rw [Bool.or_eq_true, beq_iff_eq, beq_iff_eq, ← UInt8.toNat_inj, ← UInt8.toNat_inj]
  exact Iff.rfl

/-- A character outside of ASCII begins with a byte that is none of ASCII. -/
theorem all_isIndentByte_encodeChar (c : Char) :
    (String.utf8EncodeChar c).all isIndentByte = isIndent c := by
  rw [Bool.eq_iff_iff, isIndent_iff]
  have code : c.val.toNat = c.toNat := rfl
  unfold String.utf8EncodeChar
  dsimp only
  split
  · simp only [List.all_cons, List.all_nil, Bool.and_true, isIndentByte_iff, UInt8.toNat_ofNat']
    omega
  · have first : ∀ lead : Nat, 192 ≤ lead → lead < 256 → ∀ others : List UInt8,
        ((UInt8.ofNat lead :: others).all isIndentByte) = true ↔
          (c.toNat = 0x20 ∨ c.toNat = 0x09) := by
      intro lead large small others
      rw [List.all_cons, Bool.and_eq_true, isIndentByte_iff, UInt8.toNat_ofNat']
      omega
    split
    · exact first _ (by omega) (by omega) _
    · split
      · exact first _ (by omega) (by omega) _
      · exact first _ (by omega) (by omega) _

theorem all_isIndentByte (text : List Char) :
    (String.ofList text).toByteArray.data.all isIndentByte = text.all isIndent := by
  rw [String.toByteArray_ofList]
  unfold List.utf8Encode
  rw [List.data_toByteArray, List.all_toArray, List.all_flatMap]
  simp only [all_isIndentByte_encodeChar]

theorem utf8ByteSize_of_indent {blanks : List Char} (indent : blanks.all isIndent = true) :
    (String.ofList blanks).utf8ByteSize = blanks.length := by
  rw [← String.size_toByteArray, String.toByteArray_ofList]
  unfold List.utf8Encode
  rw [List.size_toByteArray]
  induction blanks with
  | nil => rfl
  | cons c rest ih =>
    rw [List.all_cons, Bool.and_eq_true] at indent
    have code := isIndent_iff.mp indent.1
    have single : c.utf8Size = 1 := by
      rw [Char.utf8Size_eq_one_iff, UInt32.le_iff_toNat_le]
      show c.toNat ≤ 127
      omega
    rw [List.flatMap_cons, List.length_append, String.length_utf8EncodeChar, single, ih indent.2,
      List.length_cons, Nat.add_comm]

/-! ### Leading blanks -/

theorem all_take_of_le {count : Nat} {line : List Char} (enough : count ≤ leadingIndent line) :
    (line.take count).all isIndent = true := by
  have whole : line.takeWhile isIndent ++ line.dropWhile isIndent = line :=
    List.takeWhile_append_dropWhile
  rw [← whole, List.take_append_of_le_length enough, List.all_eq_true]
  intro c member
  exact List.all_eq_true.mp List.all_takeWhile c (List.mem_of_mem_take member)

theorem length_take_of_le {count : Nat} {line : List Char} (enough : count ≤ leadingIndent line) :
    (line.take count).length = count := by
  have within : leadingIndent line ≤ line.length := (List.takeWhile_sublist isIndent).length_le
  rw [List.length_take]
  omega

theorem length_le_leadingIndent {blanks : List Char} (indent : blanks.all isIndent = true)
    (rest : List Char) : blanks.length ≤ leadingIndent (blanks ++ rest) := by
  unfold leadingIndent
  rw [List.takeWhile_append_of_pos (List.all_eq_true.mp indent), List.length_append]
  exact Nat.le_add_right _ _

/-- Cutting a line at a byte never fails, and it cuts the blanks that are leading characters. -/
theorem dedentBytes?_eq (count : Nat) (line : List Char) :
    dedentBytes? count (String.ofList line) = some (String.ofList (dedent count line)) := by
  unfold dedentBytes? dedent
  rw [String.toList_ofList]
  by_cases enough : count ≤ leadingIndent line
  · have blanks := all_take_of_le enough
    have made : cut? count (String.ofList line) =
        some (String.ofList (line.take count), String.ofList (line.drop count)) := by
      rw [cut?_eq_some_iff, ← String.ofList_append, List.take_append_drop,
        utf8ByteSize_of_indent blanks]
      exact ⟨rfl, length_take_of_le enough⟩
    simp only [made, Option.map_some, all_isIndentByte, blanks, if_pos, enough]
  · rw [if_neg enough]
    cases made : cut? count (String.ofList line) with
    | none => rfl
    | some parts =>
      obtain ⟨start, rest⟩ := parts
      have ⟨whole, size⟩ := cut?_eq_some_iff.mp made
      have other : start.toByteArray.data.all isIndentByte = false := by
        rw [Bool.eq_false_iff]
        intro bytes
        rw [← String.ofList_toList (s := start), all_isIndentByte] at bytes
        have counted := utf8ByteSize_of_indent bytes
        have characters := congrArg String.toList whole
        rw [String.toList_ofList, String.toList_append] at characters
        have least := length_le_leadingIndent bytes rest.toList
        rw [← characters, ← counted, String.ofList_toList, size] at least
        exact enough least
      simp only [Option.map_some, other, Bool.false_eq_true, if_false]

/-! ### Rows -/

theorem pushLine?_eq (level count : Nat) (text : String) (line : List Char) :
    pushLine? level count text (String.ofList line) =
      some (text ++ (writtenRow level count line ++ "\n")) := by
  unfold pushLine? writtenRow
  rw [dedentBytes?_eq, Option.map_some]
  by_cases empty : dedent count line = []
  · simp [empty]
  · simp [empty, String.append_assoc]

theorem foldlM_pushLine? (level count : Nat) (text : String) (rows : List (List Char)) :
    (rows.map String.ofList).foldlM (pushLine? level count) text =
      some (text ++ String.join ((rows.map (writtenRow level count)).map (· ++ "\n"))) := by
  induction rows generalizing text with
  | nil => simp
  | cons line rest ih =>
    rw [List.map_cons, List.foldlM_cons, pushLine?_eq, Option.bind_eq_bind, Option.bind_some, ih]
    simp [String.append_assoc]

theorem push?_eq (text : String) (level : Nat) (block : String) :
    push? text level block = some (text ++ reindent level block) := by
  unfold push?
  split
  next empty =>
    rw [String.isEmpty_iff.mp empty]
    show some text = some (text ++ "")
    rw [String.append_empty]
  next => rw [reindent_eq]; exact foldlM_pushLine? level _ text _

/-! ### Lines -/

/-- The text consists of the lines with line breaks between them. -/
structure Lined (rows : List (List Char)) (text : List Char) : Prop where
  whole : List.intercalate ['\n'] rows = text
  unbroken : ∀ row ∈ rows, '\n' ∉ row

theorem lines_ne_nil (text : List Char) : lines text ≠ [] := by
  cases text with
  | nil => exact List.cons_ne_nil _ _
  | cons c rest =>
    unfold lines
    split
    · exact List.cons_ne_nil _ _
    · split <;> exact List.cons_ne_nil _ _

theorem lined_lines (text : List Char) : Lined (lines text) text := by
  induction text with
  | nil => exact ⟨rfl, by simp [lines]⟩
  | cons c rest ih =>
    have several := lines_ne_nil rest
    have whole := ih.whole
    have unbroken := ih.unbroken
    unfold lines
    split
    next isBreak =>
      refine ⟨?_, List.forall_mem_cons.mpr ⟨List.not_mem_nil, unbroken⟩⟩
      rw [List.intercalate_cons_of_ne_nil several, whole, isBreak]
      rfl
    next other =>
      cases first : lines rest with
      | nil => exact absurd first several
      | cons line more =>
        rw [first] at whole unbroken
        rw [List.forall_mem_cons] at unbroken
        refine ⟨?_, List.forall_mem_cons.mpr ⟨?_, unbroken.2⟩⟩
        · rw [← whole]
          cases more <;> simp [List.intercalate]
        · rw [List.mem_cons, not_or]
          exact ⟨Ne.symm other, unbroken.1⟩

theorem exists_dropFirstBlank (rows : List (List Char)) :
    ∃ front, rows = front ++ dropFirstBlank rows ∧ front.length ≤ 1 ∧
      ∀ line ∈ front, isBlankLine line = true := by
  cases rows with
  | nil => exact ⟨[], rfl, by simp, by simp⟩
  | cons line rest =>
    by_cases blank : isBlankLine line = true
    · exact ⟨[line], by simp [dropFirstBlank, blank], by simp, by simpa using blank⟩
    · exact ⟨[], by simp [dropFirstBlank, blank], by simp, by simp⟩

/-- Only a blank first line and a blank last line of a block are left out. -/
theorem exists_content (block : List Char) :
    ∃ front back, lines block = front ++ content block ++ back ∧ front.length ≤ 1 ∧
      back.length ≤ 1 ∧ ∀ line ∈ front ++ back, isBlankLine line = true := by
  have ⟨front, whole, single, blank⟩ := exists_dropFirstBlank (lines block)
  have ⟨back, reversed, last, blankBack⟩ :=
    exists_dropFirstBlank (dropFirstBlank (lines block)).reverse
  refine ⟨front, back.reverse, ?_, single, by simpa using last, ?_⟩
  · have rest : dropFirstBlank (lines block) = content block ++ back.reverse := by
      have restored := congrArg List.reverse reversed
      rw [List.reverse_reverse, List.reverse_append] at restored
      exact restored
    rw [List.append_assoc, ← rest]
    exact whole
  · intro line member
    rcases List.mem_append.mp member with inFront | inBack
    · exact blank line inFront
    · exact blankBack line (List.mem_reverse.mp inBack)

/-- Every line with some code begins with so many blanks, and one of them with no more. -/
structure SharedBy (rows : List (List Char)) (count : Nat) : Prop where
  lower : ∀ line ∈ rows, isBlankLine line = false → count ≤ leadingIndent line
  attained : (∃ line ∈ rows, isBlankLine line = false) →
    ∃ line ∈ rows, isBlankLine line = false ∧ leadingIndent line = count

theorem sharedBy_sharedIndent (rows : List (List Char)) : SharedBy rows (sharedIndent rows) := by
  have coded (line : List Char) : line ∈ rows.filter (fun line => !isBlankLine line) ↔
      line ∈ rows ∧ isBlankLine line = false := by simp
  cases least : ((rows.filter fun line => !isBlankLine line).map leadingIndent).min? with
  | none =>
    have none : rows.filter (fun line => !isBlankLine line) = [] := by simpa using least
    have absent : ∀ line ∈ rows, isBlankLine line ≠ false := by
      intro line member visible
      have listed := (coded line).mpr ⟨member, visible⟩
      rw [none] at listed
      cases listed
    refine ⟨fun line member visible => absurd visible (absent line member), ?_⟩
    intro ⟨line, member, visible⟩
    exact absurd visible (absent line member)
  | some count =>
    have ⟨attained, lower⟩ := List.min?_eq_some_iff.mp least
    have same : sharedIndent rows = count := by
      unfold sharedIndent
      rw [least]
      rfl
    rw [same]
    constructor
    · intro line member visible
      exact lower _ (List.mem_map_of_mem ((coded line).mpr ⟨member, visible⟩))
    · intro _
      have ⟨line, listed, indent⟩ := List.mem_map.mp attained
      have ⟨member, visible⟩ := (coded line).mp listed
      exact ⟨line, member, visible, indent⟩

/-- A line with some code is written behind a margin without `count` leading blanks, and nothing
else is lost or added. A blank line stays blank. -/
structure Moves (level count : Nat) (line : List Char) (written : String) : Prop where
  code : isBlankLine line = false → ∃ blanks kept, line = blanks ++ kept ∧
    blanks.length = count ∧ blanks.all isIndent = true ∧
    written = margin level ++ String.ofList kept
  blank : isBlankLine line = true → isBlankLine written.toList = true

theorem isBlankLine_of_indent {blanks : List Char} (indent : blanks.all isIndent = true) :
    isBlankLine blanks = true := by
  unfold isBlankLine
  rw [List.all_eq_true] at indent ⊢
  exact fun c member => isBlank_of_isIndent (indent c member)

theorem dedent_sublist (count : Nat) (line : List Char) : (dedent count line).Sublist line := by
  unfold dedent
  split
  · exact List.drop_sublist count line
  · exact List.dropWhile_sublist _

theorem moves_writtenRow (level : Nat) {count : Nat} {line : List Char}
    (shared : isBlankLine line = false → count ≤ leadingIndent line) :
    Moves level count line (writtenRow level count line) where
  code visible := by
    have enough := shared visible
    have indent := all_take_of_le enough
    have whole : line = line.take count ++ line.drop count := (List.take_append_drop ..).symm
    have kept : line.drop count ≠ [] := by
      intro empty
      rw [empty, List.append_nil] at whole
      rw [← whole] at indent
      rw [isBlankLine_of_indent indent] at visible
      cases visible
    refine ⟨line.take count, line.drop count, whole, length_take_of_le enough, indent, ?_⟩
    unfold writtenRow dedent
    simp [enough, kept]
  blank blank := by
    have kept : isBlankLine (dedent count line) = true := by
      unfold isBlankLine at blank ⊢
      rw [List.all_eq_true] at blank ⊢
      intro c member
      exact blank c ((dedent_sublist count line).subset member)
    unfold writtenRow
    dsimp only
    split
    · rfl
    · have before : isBlankLine (margin level).toList = true := by
        apply isBlankLine_of_indent
        unfold margin
        rw [String.toList_ofList, List.all_eq_true]
        intro c member
        rw [List.eq_of_mem_replicate member]
        rfl
      unfold isBlankLine at before kept ⊢
      rw [String.toList_append, String.toList_ofList, List.all_append, before, kept]
      rfl

theorem unbroken_writtenRow (level count : Nat) {line : List Char} (unbroken : '\n' ∉ line) :
    Unbroken (writtenRow level count line) := by
  unfold writtenRow
  dsimp only
  split
  · decide
  · refine unbroken_append.mpr ⟨unbroken_margin level, unbroken_ofList ?_⟩
    intro c member same
    rw [same] at member
    exact unbroken ((dedent_sublist count line).subset member)

/-- Writing a block behind a text never cuts a character and only adds lines: those of the block in
their order but perhaps a blank first and a blank last one, each with all of its code. -/
theorem reindent_keeps_code (text : String) (level : Nat) (block : String) :
    push? text level block = some (text ++ reindent level block) ∧
      ∃ front rows back written,
        Lined (front ++ rows ++ back) block.toList ∧
        front.length ≤ 1 ∧ back.length ≤ 1 ∧
        (∀ line ∈ front ++ back, isBlankLine line = true) ∧
        Written written (reindent level block) ∧
        SharedBy rows (sharedIndent rows) ∧
        List.Forall₂ (Moves level (sharedIndent rows)) rows written := by
  have ⟨front, back, whole, single, last, blank⟩ := exists_content block.toList
  have lined := lined_lines block.toList
  rw [whole] at lined
  have shared := sharedBy_sharedIndent (content block.toList)
  refine ⟨push?_eq text level block, front, content block.toList, back,
    (content block.toList).map (writtenRow level (sharedIndent (content block.toList))),
    lined, single, last, blank, ⟨reindent_eq level block, ?_⟩, shared, ?_⟩
  · intro row member
    have ⟨line, listed, same⟩ := List.mem_map.mp member
    rw [← same]
    refine unbroken_writtenRow level _ (lined.unbroken line ?_)
    exact List.mem_append_left back (List.mem_append_right front listed)
  · rw [List.forall₂_map_right_iff, List.forall₂_same]
    intro line member
    exact moves_writtenRow level (shared.lower line member)

-- The wide blank has three bytes, and the two that the other lines share would end inside it.
example : reindent 0 "  a();\n\u3000\n  b();" = "a();\n\nb();\n" := by decide

end TensorArena.Block
