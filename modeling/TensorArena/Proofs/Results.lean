import Mathlib.Data.List.Forall2

/-!
# Results of computations that may fail

When a computation put together from others succeeds, its parts do. A walk over a list keeps what
every one of its steps keeps.
-/

set_option autoImplicit false

namespace TensorArena

variable {ε α β σ : Type}

theorem bind_eq_ok {first : Except ε α} {next : α → Except ε β} {result : β} :
    (first >>= next) = .ok result ↔ ∃ value, first = .ok value ∧ next value = .ok result := by
  cases first <;> simp [bind, Except.bind]

theorem bind_eq_error {first : Except ε α} {next : α → Except ε β} {error : ε} :
    (first >>= next) = .error error ↔
      first = .error error ∨ ∃ value, first = .ok value ∧ next value = .error error := by
  cases first <;> simp [bind, Except.bind]

theorem exists_bind_eq_ok {first : Except ε α} {next : α → Except ε β}
    (success : ∃ value, first = .ok value)
    (more : ∀ value, first = .ok value → ∃ result, next value = .ok result) :
    ∃ result, (first >>= next) = .ok result := by
  obtain ⟨value, found⟩ := success
  obtain ⟨result, reached⟩ := more value found
  exact ⟨result, bind_eq_ok.mpr ⟨value, found, reached⟩⟩

theorem check_bind_eq_ok {check : Except ε Unit} {next : Unit → Except ε β} {result : β} :
    (check >>= next) = .ok result ↔ check = .ok () ∧ next () = .ok result := by
  cases check <;> simp [bind, Except.bind]

@[simp] theorem ok_bind (value : α) (next : α → Except ε β) :
    ((Except.ok value : Except ε α) >>= next) = next value := rfl

theorem pure_eq_ok {value result : α} :
    (pure value : Except ε α) = .ok result ↔ value = result := by
  simp [pure, Except.pure]

theorem mapError_eq_ok {δ : Type} {first : Except ε α} {change : ε → δ} {result : α} :
    first.mapError change = .ok result ↔ first = .ok result := by
  cases first <;> simp [Except.mapError]

/-- A walk that has come to an item goes on after it. -/
theorem of_drop_eq_cons {items rest : List α} {item : α} {index : Nat}
    (walked : items.drop index = item :: rest) :
    items[index]? = some item ∧ items.drop (index + 1) = rest := by
  constructor
  · rw [← List.head?_drop, walked]
    rfl
  · rw [← List.tail_drop, walked]
    rfl

/-- The results of a list stand in the order of their arguments. -/
theorem exists_positions_of_ne {items : List α} {left right : α} (inLeft : left ∈ items)
    (inRight : right ∈ items) (unlike : left ≠ right) :
    ∃ i j : Nat, i ≠ j ∧ items[i]? = some left ∧ items[j]? = some right := by
  have ⟨i, isLeft⟩ := List.mem_iff_getElem?.mp inLeft
  have ⟨j, isRight⟩ := List.mem_iff_getElem?.mp inRight
  refine ⟨i, j, fun same => unlike ?_, isLeft, isRight⟩
  rw [same] at isLeft
  exact Option.some.inj (isLeft.symm.trans isRight)

theorem forall₂_of_mapM_eq_ok {f : α → Except ε β} {arguments : List α} {results : List β}
    (success : arguments.mapM f = .ok results) :
    List.Forall₂ (fun argument result => f argument = .ok result) arguments results := by
  induction arguments generalizing results with
  | nil =>
    simp only [List.mapM_nil, pure_eq_ok] at success
    exact success ▸ .nil
  | cons argument rest ih =>
    simp only [List.mapM_cons, bind_eq_ok, pure_eq_ok] at success
    obtain ⟨result, found, others, foundAll, rfl⟩ := success
    exact .cons found (ih foundAll)

theorem mapM_eq_ok_of_forall {f : α → Except ε β} {arguments : List α}
    (success : ∀ argument ∈ arguments, ∃ result, f argument = .ok result) :
    ∃ results, arguments.mapM f = .ok results := by
  induction arguments with
  | nil => exact ⟨[], rfl⟩
  | cons argument rest ih =>
    obtain ⟨result, found⟩ := success argument (by simp)
    obtain ⟨results, foundAll⟩ := ih fun other member => success other (by simp [member])
    exact ⟨result :: results, by simp [List.mapM_cons, found, foundAll, pure, Except.pure]⟩

theorem mapM_eq_ok_map {f : α → Except ε β} {g : α → β} {arguments : List α}
    (found : ∀ argument ∈ arguments, f argument = .ok (g argument)) :
    arguments.mapM f = .ok (arguments.map g) := by
  induction arguments with
  | nil => rfl
  | cons argument rest ih =>
    obtain ⟨first, others⟩ := List.forall_mem_cons.mp found
    rw [List.mapM_cons, first, ok_bind, ih others]
    rfl

theorem mapM_eq_some_of_forall₂ {f : α → Option β} {arguments : List α} {results : List β}
    (found : List.Forall₂ (fun argument result => f argument = some result) arguments results) :
    arguments.mapM f = some results := by
  induction found with
  | nil => rfl
  | cons first _ ih => simp [List.mapM_cons, first, ih]

theorem mapM_eq_none_of_mem {f : α → Option β} {arguments : List α} {argument : α}
    (member : argument ∈ arguments) (failed : f argument = none) : arguments.mapM f = none := by
  induction member with
  | head others => simp [List.mapM_cons, failed]
  | tail first _ ih =>
    rw [List.mapM_cons, ih]
    cases f first <;> rfl

theorem forM_eq_ok {f : α → Except ε Unit} {arguments : List α} :
    arguments.forM f = .ok () ↔ ∀ argument ∈ arguments, f argument = .ok () := by
  induction arguments with
  | nil => simp [pure, Except.pure]
  | cons argument rest ih =>
    change (f argument >>= fun _ => rest.forM f) = .ok () ↔ _
    simp only [check_bind_eq_ok, ih, List.forall_mem_cons]

/-- What holds at the beginning of a walk and is kept by each step holds at its end. -/
theorem foldlM_induction {step : σ → α → Except ε σ} {items : List α} {before after : σ}
    (success : items.foldlM step before = .ok after) (holds : List α → σ → Prop)
    (start : holds [] before)
    (kept : ∀ done item rest state next, items = done ++ item :: rest → holds done state →
      step state item = .ok next → holds (done ++ [item]) next) :
    holds items after := by
  suffices general : ∀ (rest done : List α) (state : σ), items = done ++ rest →
      holds done state → rest.foldlM step state = .ok after → holds items after by
    exact general items [] before rfl start success
  intro rest
  induction rest with
  | nil =>
    intro done state whole reached finished
    simp only [List.foldlM_nil, pure_eq_ok] at finished
    simpa [whole, ← finished] using reached
  | cons item rest ih =>
    intro done state whole reached finished
    simp only [List.foldlM_cons, bind_eq_ok] at finished
    obtain ⟨next, moved, finished⟩ := finished
    exact ih (done ++ [item]) next (by simp [whole])
      (kept done item rest state next whole reached moved) finished

/-- A walk over a list that fails does so at one of its items. -/
theorem exists_of_foldlM_eq_error {step : σ → α → Except ε σ} {items : List α}
    {before : σ} {error : ε} (failed : items.foldlM step before = .error error) :
    ∃ done item rest state, items = done ++ item :: rest ∧
      done.foldlM step before = .ok state ∧ step state item = .error error := by
  induction items generalizing before with
  | nil => cases failed
  | cons item rest ih =>
    rw [List.foldlM_cons] at failed
    rcases bind_eq_error.mp failed with now | ⟨next, moved, later⟩
    · exact ⟨[], item, rest, before, rfl, rfl, now⟩
    · obtain ⟨done, other, behind, state, rfl, reached, failed⟩ := ih later
      refine ⟨item :: done, other, behind, state, rfl, ?_, failed⟩
      rw [List.foldlM_cons, moved]
      exact reached

/-- The two items lead a walk to the same state in either order. -/
def Commutes (step : σ → α → Except ε σ) (first second : α) : Prop :=
  ∀ state, (step state first >>= fun next => step next second) =
    step state second >>= fun next => step next first

theorem Commutes.symm {step : σ → α → Except ε σ} {first second : α}
    (commutes : Commutes step first second) : Commutes step second first :=
  fun state => (commutes state).symm

theorem foldlM_append_cons_of_commutes {step : σ → α → Except ε σ} {before after : List α}
    {item : α} (commutes : ∀ other ∈ before, Commutes step other item) (state : σ) :
    (before ++ item :: after).foldlM step state =
      (item :: (before ++ after)).foldlM step state := by
  induction before generalizing state with
  | nil => rfl
  | cons other before ih =>
    obtain ⟨first, others⟩ := List.forall_mem_cons.mp commutes
    calc (other :: before ++ item :: after).foldlM step state
        = step state other >>= fun next => step next item >>=
            fun last => (before ++ after).foldlM step last := by
          rw [List.cons_append, List.foldlM_cons]
          exact congrArg _ (funext fun next => ih others next)
      _ = step state item >>= fun next => step next other >>=
            fun last => (before ++ after).foldlM step last := by
          rw [← bind_assoc, first state, bind_assoc]
      _ = (item :: (other :: before ++ after)).foldlM step state := rfl

/-- A walk does not depend on the order of its items, if that is kept among those which do not
commute. -/
theorem foldlM_eq_of_perm {step : σ → α → Except ε σ} {ordered : α → Bool} {left right : List α}
    (perm : left.Perm right) (distinct : left.Nodup)
    (order : left.filter ordered = right.filter ordered)
    (commutes : ∀ first ∈ left, ∀ second ∈ left, first ≠ second → ordered first = false →
      Commutes step first second) (state : σ) :
    left.foldlM step state = right.foldlM step state := by
  induction left generalizing right state with
  | nil => rw [perm.nil_eq]
  | cons item rest ih =>
    have ⟨new, others⟩ := List.nodup_cons.mp distinct
    -- In the other list the item stands behind some that commute with it.
    obtain ⟨before, after, rfl, kept, free⟩ : ∃ before after, right = before ++ item :: after ∧
        rest.filter ordered = (before ++ after).filter ordered ∧
        ∀ other ∈ before, Commutes step other item := by
      have member : ∀ {before after : List α}, right = before ++ item :: after →
          ∀ other ∈ before, other ∈ item :: rest ∧ other ≠ item := by
        rintro before after rfl other listed
        refine ⟨perm.mem_iff.mpr (List.mem_append_left _ listed), ?_⟩
        rintro rfl
        have apart := (List.nodup_append.mp (perm.nodup_iff.mp distinct)).2.2
        exact apart other listed other List.mem_cons_self rfl
      cases isOrdered : ordered item with
      | true =>
        rw [List.filter_cons_of_pos isOrdered] at order
        obtain ⟨before, after, whole, loose, _, same⟩ := List.filter_eq_cons_iff.mp order.symm
        refine ⟨before, after, whole, ?_, ?_⟩
        · rw [List.filter_append, List.filter_eq_nil_iff.mpr loose, List.nil_append, same]
        · intro other listed
          have ⟨isLeft, unlike⟩ := member whole other listed
          exact commutes other isLeft item List.mem_cons_self unlike
            (Bool.not_eq_true _ ▸ loose other listed)
      | false =>
        have listed : item ∈ right := perm.subset List.mem_cons_self
        obtain ⟨before, after, whole⟩ := List.append_of_mem listed
        refine ⟨before, after, whole, ?_, ?_⟩
        · rw [List.filter_cons_of_neg (by simp [isOrdered]), whole, List.filter_append,
            List.filter_cons_of_neg (by simp [isOrdered]), ← List.filter_append] at order
          exact order
        · intro other inside
          have ⟨isLeft, unlike⟩ := member whole other inside
          exact (commutes item List.mem_cons_self other isLeft unlike.symm isOrdered).symm
    rw [foldlM_append_cons_of_commutes free, List.foldlM_cons, List.foldlM_cons]
    have smaller : rest.Perm (before ++ after) :=
      List.Perm.cons_inv (perm.trans List.perm_middle)
    refine congrArg _ (funext fun next => ih smaller others kept ?_ next)
    intro first isFirst second isSecond
    exact commutes first (List.mem_cons_of_mem _ isFirst) second (List.mem_cons_of_mem _ isSecond)

/-- A property of every item that a walk comes to and of the state in which it does, and one of the
state in which the walk ends. -/
def Along (step : σ → α → Except ε σ) (holds : σ → α → Prop) (last : σ → Prop) :
    List α → σ → Prop
  | [], state => last state
  | item :: rest, state =>
    holds state item ∧ ∀ next, step state item = .ok next → Along step holds last rest next

namespace Along

variable {step : σ → α → Except ε σ} {holds : σ → α → Prop} {middle last : σ → Prop}
  {first second : List α} {state : σ}

theorem append (before : Along step holds middle first state)
    (after : ∀ reached, middle reached → Along step holds last second reached) :
    Along step holds last (first ++ second) state := by
  induction first generalizing state with
  | nil => exact after state before
  | cons item rest ih => exact ⟨before.1, fun next moved => ih (before.2 next moved)⟩

theorem imp (along : Along step holds middle first state)
    (more : ∀ reached, middle reached → last reached) : Along step holds last first state := by
  induction first generalizing state with
  | nil => exact more state along
  | cons item rest ih => exact ⟨along.1, fun next moved => ih (along.2 next moved)⟩

theorem at_item {done rest : List α} {item : α} {reached : σ}
    (along : Along step holds last (done ++ item :: rest) state)
    (walked : done.foldlM step state = .ok reached) : holds reached item := by
  induction done generalizing state with
  | nil => exact Except.ok.inj walked ▸ along.1
  | cons other done ih =>
    rw [List.foldlM_cons] at walked
    obtain ⟨next, moved, walked⟩ := bind_eq_ok.mp walked
    exact ih (along.2 next moved) walked

theorem at_end {items : List α} {reached : σ} (along : Along step holds last items state)
    (walked : items.foldlM step state = .ok reached) : last reached := by
  induction items generalizing state with
  | nil => exact Except.ok.inj walked ▸ along
  | cons item rest ih =>
    rw [List.foldlM_cons] at walked
    obtain ⟨next, moved, walked⟩ := bind_eq_ok.mp walked
    exact ih (along.2 next moved) walked

end Along

end TensorArena
