import TensorArena.Proofs.Program.Rendering
import TensorArena.Proofs.Text.Symbols

/-!
# The symbols of arrays

The array of a constant is named after the tensor. Several names may lead to one symbol, so numbers
are tried until the symbol is new. The search ends at the number of the earlier constants whose
names lead to the same symbol.
-/

set_option autoImplicit false

namespace TensorArena

/-! ### The search -/

/-- The search for a symbol that is not in use. It begins at one attempt and ends at another. -/
inductive SymbolSearch (used : List String) (base : String) : Nat → Nat → Prop where
  | free {attempt : Nat} (unused : symbolCandidate base attempt ∉ used) :
    SymbolSearch used base attempt attempt
  | taken {attempt last : Nat} (inUse : symbolCandidate base attempt ∈ used)
    (later : SymbolSearch used base (attempt + 1) last) : SymbolSearch used base attempt last

section

variable {used : List String} {base : String} {number : Nat}

/-- Where the candidates in use are the first ones, the search goes past them. -/
theorem symbolSearch_of_taken
    (taken : ∀ attempt, symbolCandidate base attempt ∈ used ↔ attempt < number) :
    SymbolSearch used base 0 number := by
  suffices general : ∀ left attempt, attempt + left = number →
      SymbolSearch used base attempt number by
    exact general number 0 (Nat.zero_add number)
  intro left
  induction left with
  | zero =>
    intro attempt reached
    rw [← reached] at taken ⊢
    exact .free fun inUse => Nat.lt_irrefl _ ((taken _).mp inUse)
  | succ left ih =>
    intro attempt reached
    exact .taken ((taken attempt).mpr (by omega)) (ih (attempt + 1) (by omega))

theorem freshSymbol_of_taken
    (taken : ∀ attempt, symbolCandidate base attempt ∈ used ↔ attempt < number)
    (few : number ≤ used.length) : freshSymbol used base = symbolCandidate base number := by
  unfold freshSymbol
  rw [List.find?_map]
  have found : (List.range (used.length + 1)).find?
      ((fun symbol => !used.contains symbol) ∘ symbolCandidate base) = some number := by
    rw [List.find?_range_eq_some]
    refine ⟨?_, List.mem_range.mpr (by omega), ?_⟩
    · simp [taken]
    · intro attempt less
      simp [taken, less]
  rw [found]
  rfl

end

/-! ### Candidates -/

/-- The symbol that is tried first for the array of a tensor. -/
def arrayBase (name : String) : String := Identifier.sanitize name ++ "_data"

/-- What is behind the last underscore of a candidate. -/
def candidateEnd (attempt : Nat) : List Char :=
  if attempt = 0 then "data".toList else Nat.toDigits 10 attempt

/-- What is before the last underscore of a candidate. -/
def candidateStem (name : String) (attempt : Nat) : List Char :=
  if attempt = 0 then (Identifier.sanitize name).toList else (arrayBase name).toList

theorem toList_symbolCandidate (name : String) (attempt : Nat) :
    (symbolCandidate (arrayBase name) attempt).toList =
      candidateStem name attempt ++ '_' :: candidateEnd attempt := by
  unfold symbolCandidate candidateStem candidateEnd
  by_cases first : attempt = 0
  · simp [first, arrayBase]
  · simp [first, toString]

theorem underscore_not_mem_candidateEnd (attempt : Nat) : '_' ∉ candidateEnd attempt := by
  unfold candidateEnd
  split
  · decide
  · exact underscore_not_mem (toDigits_isDigit attempt)

theorem ne_data {digits : List Char} (number : ∀ c ∈ digits, c.isDigit = true) :
    digits ≠ "data".toList := by
  intro same
  have letter : 'd' ∈ digits := by
    rw [same]
    decide
  cases number 'd' letter

theorem candidateEnd_injective {first second : Nat} (same : candidateEnd first = candidateEnd second) :
    first = second := by
  unfold candidateEnd at same
  split at same
  next left =>
    split at same
    next right => rw [left, right]
    · exact absurd same.symm (ne_data (toDigits_isDigit second))
  · split at same
    · exact absurd same (ne_data (toDigits_isDigit first))
    · apply paddedDigits_injective 0
      simpa [paddedDigits] using same

/-- A candidate tells its base and its number. -/
theorem symbolCandidate_inj {left right : String} {first second : Nat}
    (same : symbolCandidate (arrayBase left) first = symbolCandidate (arrayBase right) second) :
    arrayBase left = arrayBase right ∧ first = second := by
  have texts := congrArg String.toList same
  rw [toList_symbolCandidate, toList_symbolCandidate] at texts
  have ⟨stems, ends⟩ := append_underscore_inj (underscore_not_mem_candidateEnd first)
    (underscore_not_mem_candidateEnd second) texts
  have number := candidateEnd_injective ends
  refine ⟨?_, number⟩
  unfold candidateStem at stems
  rw [number] at stems
  split at stems
  · exact congrArg (· ++ "_data") (String.toList_inj.mp stems)
  · exact String.toList_inj.mp stems

theorem isIdentifier_symbolCandidate (name : String) (attempt : Nat) :
    Identifier.isIdentifier (symbolCandidate (arrayBase name) attempt) = true := by
  have base : Identifier.isIdentifier (arrayBase name) = true :=
    Identifier.isIdentifier_append (Identifier.isIdentifier_sanitize name) (by decide)
  unfold symbolCandidate
  split
  · exact base
  · show Identifier.isIdentifier (arrayBase name ++ "_" ++ toString attempt) = true
    apply Identifier.isIdentifier_append (Identifier.isIdentifier_append base (by decide))
    rw [Nat.toString_eq_ofList_toDigits, String.toList_ofList, List.all_eq_true]
    exact fun c member => Identifier.isPart_of_isDigit (toDigits_isDigit attempt c member)

/-! ### The symbols in use -/

/-- The number of names that lead to the same base as a name. -/
def arrayNumber (names : List String) (name : String) : Nat :=
  (names.map arrayBase).count (arrayBase name)

theorem arrayNumber_cons (first : String) (names : List String) (name : String) :
    arrayNumber (first :: names) name =
      arrayNumber names name + if arrayBase first = arrayBase name then 1 else 0 := by
  unfold arrayNumber
  rw [List.map_cons, List.count_cons]
  simp

theorem arrayNumber_perm {left right : List String} (perm : left.Perm right) (name : String) :
    arrayNumber left name = arrayNumber right name :=
  (perm.map arrayBase).count_eq _

/-- The symbols in use are those of the arrays of the names: of every base, the candidates with the
first numbers. -/
structure ArraysNamed (names used : List String) : Prop where
  length : used.length = names.length
  distinct : used.Nodup
  mem_iff : ∀ symbol, symbol ∈ used ↔ ∃ name attempt,
    symbol = symbolCandidate (arrayBase name) attempt ∧ attempt < arrayNumber names name

namespace ArraysNamed

variable {names used : List String}

theorem nil : ArraysNamed [] [] where
  length := rfl
  distinct := List.nodup_nil
  mem_iff := by simp [arrayNumber]

theorem candidate_mem_iff (named : ArraysNamed names used) (name : String) (attempt : Nat) :
    symbolCandidate (arrayBase name) attempt ∈ used ↔ attempt < arrayNumber names name := by
  rw [named.mem_iff]
  constructor
  · intro ⟨other, number, same, less⟩
    have ⟨bases, numbers⟩ := symbolCandidate_inj same
    unfold arrayNumber at less ⊢
    rw [bases, numbers]
    exact less
  · intro less
    exact ⟨name, attempt, rfl, less⟩

theorem freshSymbol_eq (named : ArraysNamed names used) (name : String) :
    freshSymbol used (arrayBase name) =
      symbolCandidate (arrayBase name) (arrayNumber names name) := by
  apply freshSymbol_of_taken (named.candidate_mem_iff name)
  have most : arrayNumber names name ≤ (names.map arrayBase).length := List.count_le_length
  rw [List.length_map, ← named.length] at most
  exact most

/-- One more array gets the first number that is left. -/
theorem cons (named : ArraysNamed names used) (name : String) :
    ArraysNamed (name :: names)
      (symbolCandidate (arrayBase name) (arrayNumber names name) :: used) where
  length := by rw [List.length_cons, List.length_cons, named.length]
  distinct := by
    apply List.nodup_cons.mpr ⟨_, named.distinct⟩
    rw [named.candidate_mem_iff]
    exact Nat.lt_irrefl _
  mem_iff := by
    intro symbol
    rw [List.mem_cons, named.mem_iff]
    constructor
    · rintro (new | ⟨other, attempt, same, less⟩)
      · refine ⟨name, _, new, ?_⟩
        rw [arrayNumber_cons, if_pos rfl]
        exact Nat.lt_succ_self _
      · refine ⟨other, attempt, same, ?_⟩
        rw [arrayNumber_cons]
        omega
    · intro ⟨other, attempt, same, less⟩
      by_cases old : attempt < arrayNumber names other
      · exact .inr ⟨other, attempt, same, old⟩
      · rw [arrayNumber_cons] at less
        split at less
        next bases =>
          -- The only number that is new is the one after those of the other arrays.
          have number : attempt = arrayNumber names name := by
            unfold arrayNumber at old less ⊢
            rw [bases]
            omega
          rw [same, number, bases]
          exact .inl rfl
        · omega

theorem perm (named : ArraysNamed names used) {others symbols : List String}
    (sameNames : names.Perm others) (sameSymbols : used.Perm symbols) :
    ArraysNamed others symbols where
  length := by rw [← sameSymbols.length_eq, named.length, sameNames.length_eq]
  distinct := sameSymbols.nodup_iff.mp named.distinct
  mem_iff := by
    intro symbol
    rw [← sameSymbols.mem_iff, named.mem_iff]
    simp only [arrayNumber_perm sameNames]

end ArraysNamed

/-! ### All arrays -/

/-- The arrays of the names get the symbols one after the other, each by a search that comes to an
end; it goes past the arrays before it whose names lead to the same symbol. -/
inductive NamesArrays : List String → List String → List String → List String → Prop where
  | nil (done used : List String) : NamesArrays done used [] []
  | cons {done used names symbols : List String} {name : String}
    (searched : SymbolSearch used (arrayBase name) 0 (arrayNumber done name))
    (later : NamesArrays (name :: done)
      (symbolCandidate (arrayBase name) (arrayNumber done name) :: used) names symbols) :
    NamesArrays done used (name :: names)
      (symbolCandidate (arrayBase name) (arrayNumber done name) :: symbols)

theorem NamesArrays.length_eq {done used names symbols : List String}
    (named : NamesArrays done used names symbols) : symbols.length = names.length := by
  induction named with
  | nil => rfl
  | cons _ _ ih => rw [List.length_cons, List.length_cons, ih]

theorem NamesArrays.isIdentifier {done used names symbols : List String}
    (named : NamesArrays done used names symbols) :
    ∀ symbol ∈ symbols, Identifier.isIdentifier symbol = true := by
  induction named with
  | nil => simp
  | cons _ _ ih => exact List.forall_mem_cons.mpr ⟨isIdentifier_symbolCandidate _ _, ih⟩

theorem arraySymbolsFrom_cons {entry : PlanEntry} (constant : entry.storage = .rom)
    (used : List String) (rest : List PlanEntry) :
    arraySymbolsFrom used (entry :: rest) =
      (entry.name, freshSymbol used (arrayBase entry.name)) ::
        arraySymbolsFrom (freshSymbol used (arrayBase entry.name) :: used) rest := by
  conv => lhs; unfold arraySymbolsFrom
  exact if_pos constant

theorem arraySymbolsFrom_skip {entry : PlanEntry} (other : entry.storage ≠ .rom)
    (used : List String) (rest : List PlanEntry) :
    arraySymbolsFrom used (entry :: rest) = arraySymbolsFrom used rest := by
  conv => lhs; unfold arraySymbolsFrom
  exact if_neg other

/-- Every search ends, and after the last one all symbols are accounted for. -/
theorem arraySymbolsFrom_named {entries : List PlanEntry} {names used : List String}
    (named : ArraysNamed names used) :
    NamesArrays names used ((arraySymbolsFrom used entries).map Prod.fst)
      ((arraySymbolsFrom used entries).map Prod.snd) ∧
    ArraysNamed (((arraySymbolsFrom used entries).map Prod.fst).reverse ++ names)
      (((arraySymbolsFrom used entries).map Prod.snd).reverse ++ used) := by
  induction entries generalizing names used with
  | nil => exact ⟨.nil names used, named⟩
  | cons entry rest ih =>
    by_cases constant : entry.storage = .rom
    · rw [arraySymbolsFrom_cons constant, named.freshSymbol_eq]
      have searched : SymbolSearch used (arrayBase entry.name) 0 (arrayNumber names entry.name) :=
        symbolSearch_of_taken (named.candidate_mem_iff entry.name)
      have ⟨later, whole⟩ := ih (named.cons entry.name)
      refine ⟨.cons searched later, ?_⟩
      simpa using whole
    · rw [arraySymbolsFrom_skip constant]
      exact ih named

namespace SourceUnit

variable (unit : SourceUnit)

/-- The names of the tensors that have arrays. -/
def arrayNames : List String := unit.arraySymbols.map Prod.fst

theorem namesArrays : NamesArrays [] [] unit.arrayNames (unit.arraySymbols.map Prod.snd) :=
  (arraySymbolsFrom_named .nil).1

theorem arraysNamed : ArraysNamed unit.arrayNames (unit.arraySymbols.map Prod.snd) := by
  have named : NamesArrays [] [] unit.arrayNames (unit.arraySymbols.map Prod.snd) ∧
      ArraysNamed (unit.arrayNames.reverse ++ [])
        ((unit.arraySymbols.map Prod.snd).reverse ++ []) := arraySymbolsFrom_named .nil
  have whole := named.2
  rw [List.append_nil, List.append_nil] at whole
  exact whole.perm (List.reverse_perm _) (List.reverse_perm _)

end SourceUnit

end TensorArena
