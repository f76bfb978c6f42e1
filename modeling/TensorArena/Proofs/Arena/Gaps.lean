import TensorArena.Proofs.Arena.Addresses

/-!
# Canonical gaps

The gaps stay in ascending order, none is empty and no two touch. Taking a slot removes exactly its
addresses from them, and a release adds exactly its own. The step that a gap remembers is never
earlier than the release of one of its addresses.
-/

set_option autoImplicit false

namespace TensorArena

namespace Gaps

structure Canonical (gaps : List Gap) : Prop where
  positive : ∀ gap ∈ gaps, 0 < gap.size
  apart : gaps.Pairwise fun lower upper => lower.stop < upper.offset

/-- The address is free and its gap remembers the step. -/
def Free (gaps : List Gap) (address step : Nat) : Prop :=
  ∃ gap ∈ gaps, gap.Covers address ∧ gap.freedAfter = step

theorem lt_of_free {gaps : List Gap} {limit address step : Nat}
    (within : ∀ gap ∈ gaps, gap.stop ≤ limit) (free : Free gaps address step) :
    address < limit := by
  have ⟨gap, member, covered, _⟩ := free
  exact Nat.lt_of_lt_of_le covered.2 (within gap member)

namespace Canonical

theorem nil : Canonical [] := ⟨by simp, .nil⟩

theorem sublist {gaps rest : List Gap} (canonical : Canonical gaps) (sub : rest.Sublist gaps) :
    Canonical rest :=
  ⟨fun gap member => canonical.positive gap (sub.subset member), canonical.apart.sublist sub⟩

theorem erase {gaps : List Gap} (canonical : Canonical gaps) (offset : Nat) :
    Canonical (Gaps.erase offset gaps) :=
  canonical.sublist List.filter_sublist

theorem covers_last {gaps : List Gap} (canonical : Canonical gaps) {gap : Gap}
    (member : gap ∈ gaps) : gap.Covers (gap.stop - 1) := by
  have := canonical.positive gap member
  unfold Gap.Covers Gap.stop
  omega

theorem stop_le {gaps : List Gap} {limit : Nat} (canonical : Canonical gaps)
    (below : ∀ address step, Free gaps address step → address < limit) :
    ∀ gap ∈ gaps, gap.stop ≤ limit := by
  intro gap member
  have last := below (gap.stop - 1) gap.freedAfter ⟨gap, member, canonical.covers_last member, rfl⟩
  omega

theorem apart_of_ne {gaps : List Gap} (canonical : Canonical gaps) {left right : Gap}
    (inLeft : left ∈ gaps) (inRight : right ∈ gaps) (unlike : left ≠ right) :
    left.stop < right.offset ∨ right.stop < left.offset := by
  obtain ⟨i, boundLeft, rfl⟩ := List.getElem_of_mem inLeft
  obtain ⟨j, boundRight, rfl⟩ := List.getElem_of_mem inRight
  have ordered := List.pairwise_iff_getElem.mp canonical.apart
  rcases Nat.lt_trichotomy i j with below | rfl | above
  · exact .inl (ordered i j boundLeft boundRight below)
  · exact absurd rfl unlike
  · exact .inr (ordered j i boundRight boundLeft above)

theorem eq_of_offset_eq {gaps : List Gap} (canonical : Canonical gaps) {left right : Gap}
    (inLeft : left ∈ gaps) (inRight : right ∈ gaps) (same : left.offset = right.offset) :
    left = right := by
  by_contra unlike
  have := canonical.apart_of_ne inLeft inRight unlike
  unfold Gap.stop at this
  omega

theorem eq_of_covers {gaps : List Gap} (canonical : Canonical gaps) {left right : Gap}
    (inLeft : left ∈ gaps) (inRight : right ∈ gaps) {address : Nat}
    (coversLeft : left.Covers address) (coversRight : right.Covers address) : left = right := by
  by_contra unlike
  have := canonical.apart_of_ne inLeft inRight unlike
  unfold Gap.Covers at coversLeft coversRight
  omega

/-- Erasing a gap leaves all the others. -/
theorem mem_erase {gaps : List Gap} (canonical : Canonical gaps) {gap other : Gap}
    (member : gap ∈ gaps) : other ∈ Gaps.erase gap.offset gaps ↔ other ∈ gaps ∧ other ≠ gap := by
  unfold Gaps.erase
  simp only [List.mem_filter, decide_eq_true_eq]
  constructor
  · rintro ⟨kept, unlike⟩
    exact ⟨kept, fun same => unlike (by rw [same])⟩
  · rintro ⟨kept, unlike⟩
    exact ⟨kept, fun same => unlike (canonical.eq_of_offset_eq kept member same)⟩

theorem free_erase_iff {gaps : List Gap} (canonical : Canonical gaps) {gap : Gap}
    (member : gap ∈ gaps) (address step : Nat) :
    Free (Gaps.erase gap.offset gaps) address step ↔
      Free gaps address step ∧ ¬ gap.Covers address := by
  constructor
  · rintro ⟨other, kept, covers, same⟩
    obtain ⟨kept, unlike⟩ := (canonical.mem_erase member).mp kept
    exact ⟨⟨other, kept, covers, same⟩, fun both =>
      unlike (canonical.eq_of_covers kept member covers both)⟩
  · rintro ⟨⟨other, kept, covers, same⟩, outside⟩
    refine ⟨other, (canonical.mem_erase member).mpr ⟨kept, ?_⟩, covers, same⟩
    rintro rfl
    exact outside covers

/-- Below an offset where only smaller gaps are, each place for a slot has an address in use. -/
theorem exists_taken {gaps : List Gap} (canonical : Canonical gaps) {offset size lower bound : Nat}
    (positive : 0 < size) (below : lower < offset) (inside : offset ≤ bound)
    (smaller : ∀ gap ∈ gaps, gap.offset < offset → gap.size < size ∧ gap.stop < bound) :
    ∃ address, (Storage.arena lower size).Covers address ∧ address < bound ∧
      ∀ step, ¬ Free gaps address step := by
  by_cases start : ∃ step, Free gaps lower step
  · -- The gap around the first address is too small, and nothing touches its end.
    obtain ⟨_, gap, member, covers, _⟩ := start
    unfold Gap.Covers at covers
    have room := smaller gap member (by omega)
    refine ⟨gap.stop, ?_, room.2, ?_⟩
    · unfold Gap.stop at covers ⊢
      simp only [Storage.Covers]
      omega
    · rintro step ⟨other, isGap, covered, _⟩
      have unlike : other ≠ gap := by
        rintro rfl
        unfold Gap.Covers at covered
        omega
      have := canonical.apart_of_ne isGap member unlike
      have := canonical.positive gap member
      unfold Gap.Covers Gap.stop at *
      omega
  · refine ⟨lower, ?_, by omega, fun step free => start ⟨step, free⟩⟩
    simp only [Storage.Covers]
    omega

end Canonical

/-! ### Insertion -/

theorem insert_cons_of_lt {gap first : Gap} (rest : List Gap) (below : first.offset < gap.offset) :
    insert gap (first :: rest) = first :: insert gap rest := by
  simp [insert, below, Nat.le_of_lt below]

theorem insert_cons_of_gt {gap first : Gap} (rest : List Gap) (above : gap.offset < first.offset) :
    insert gap (first :: rest) = gap :: first :: rest := by
  simp [insert, Nat.not_lt_of_gt above, Nat.not_le_of_gt above]

/-- A gap that touches no other one is put between those below and those above it. -/
theorem insert_apart (gap : Gap) {gaps : List Gap} (canonical : Canonical gaps)
    (positive : 0 < gap.size)
    (apart : ∀ other ∈ gaps, other.stop < gap.offset ∨ gap.stop < other.offset) :
    Canonical (insert gap gaps) ∧
      ∀ other, other ∈ insert gap gaps ↔ other = gap ∨ other ∈ gaps := by
  induction gaps with
  | nil =>
    refine ⟨⟨?_, ?_⟩, ?_⟩ <;> simp [insert, positive]
  | cons first rest ih =>
    have ordered := List.pairwise_cons.mp canonical.apart
    obtain ⟨tail, members⟩ := ih (canonical.sublist (List.sublist_cons_self first rest))
      fun other member => apart other (by simp [member])
    rcases apart first (by simp) with below | above
    · have lower : first.offset < gap.offset := by
        unfold Gap.stop at below
        omega
      rw [insert_cons_of_lt rest lower]
      refine ⟨⟨?_, List.pairwise_cons.mpr ⟨?_, tail.apart⟩⟩, ?_⟩
      · intro other member
        rcases List.mem_cons.mp member with rfl | member
        · exact canonical.positive other (by simp)
        · exact tail.positive other member
      · intro other member
        rcases (members other).mp member with rfl | member
        · exact below
        · exact ordered.1 other member
      · intro other
        simp only [List.mem_cons, members]
        tauto
    · have higher : gap.offset < first.offset := by
        unfold Gap.stop at above
        omega
      rw [insert_cons_of_gt rest higher]
      refine ⟨⟨?_, List.pairwise_cons.mpr ⟨?_, canonical.apart⟩⟩, ?_⟩
      · intro other member
        rcases List.mem_cons.mp member with rfl | member
        · exact positive
        · exact canonical.positive other member
      · intro other member
        rcases List.mem_cons.mp member with rfl | member
        · exact above
        · have := ordered.1 other member
          unfold Gap.stop at this above ⊢
          omega
      · intro other
        simp only [List.mem_cons]

/-! ### Taking a slot -/

theorem firstFit?_eq_none {size : Nat} {gaps : List Gap} (none : firstFit? size gaps = none) :
    ∀ gap ∈ gaps, gap.size < size := by
  simpa [firstFit?] using none

theorem firstFit?_eq_some {size : Nat} {gaps rest : List Gap} {gap : Gap}
    (canonical : Canonical gaps) (found : firstFit? size gaps = some (gap, rest)) :
    gap ∈ gaps ∧ size ≤ gap.size ∧ Canonical rest ∧
      ∀ address step, Free rest address step ↔
        Free gaps address step ∧ ¬ (Storage.arena gap.offset size).Covers address := by
  obtain ⟨fit, chosen, taken⟩ := Option.map_eq_some_iff.mp found
  have member := List.mem_of_find?_eq_some chosen
  have fits : size ≤ fit.size := by simpa using List.find?_some chosen
  have others := canonical.erase fit.offset
  dsimp only at taken
  split at taken
  · rename_i smaller
    obtain ⟨rfl, rfl⟩ := Prod.mk.inj taken
    have separate : ∀ other ∈ erase fit.offset gaps,
        other.stop < fit.offset + size ∨
          fit.offset + size + (fit.size - size) < other.offset := by
      intro other kept
      obtain ⟨kept, unlike⟩ := (canonical.mem_erase member).mp kept
      have := canonical.apart_of_ne kept member unlike
      unfold Gap.stop at this ⊢
      omega
    obtain ⟨left, members⟩ := insert_apart ⟨fit.offset + size, fit.size - size, fit.freedAfter⟩
      others (by dsimp only; omega) separate
    refine ⟨member, fits, left, ?_⟩
    intro address step
    have rest := canonical.free_erase_iff member address step
    constructor
    · rintro ⟨other, kept, covers, same⟩
      rcases (members other).mp kept with rfl | kept
      · simp only [Gap.Covers, Gap.stop] at covers
        refine ⟨⟨fit, member, ⟨by omega, by unfold Gap.stop; omega⟩, same⟩, ?_⟩
        simp only [Storage.Covers]
        omega
      · obtain ⟨free, outside⟩ := rest.mp ⟨other, kept, covers, same⟩
        refine ⟨free, fun both => outside ?_⟩
        simp only [Storage.Covers, Gap.Covers, Gap.stop] at both ⊢
        omega
    · rintro ⟨free, outside⟩
      by_cases inside : fit.Covers address
      · obtain ⟨other, kept, covers, same⟩ := free
        obtain rfl := canonical.eq_of_covers kept member covers inside
        refine ⟨_, (members _).mpr (.inl rfl), ?_, same⟩
        simp only [Storage.Covers, Gap.Covers, Gap.stop] at inside outside ⊢
        omega
      · obtain ⟨other, kept, covers, same⟩ := rest.mpr ⟨free, inside⟩
        exact ⟨other, (members other).mpr (.inr kept), covers, same⟩
  · rename_i whole
    obtain ⟨rfl, rfl⟩ := Prod.mk.inj taken
    refine ⟨member, fits, others, ?_⟩
    intro address step
    rw [canonical.free_erase_iff member]
    have same : fit.Covers address ↔ (Storage.arena fit.offset size).Covers address := by
      simp only [Storage.Covers, Gap.Covers, Gap.stop]
      omega
    rw [same]

/-- The gaps below the one that is chosen are too small. -/
theorem firstFit?_lower {size : Nat} {gaps rest : List Gap} {gap other : Gap}
    (canonical : Canonical gaps) (found : firstFit? size gaps = some (gap, rest))
    (member : other ∈ gaps) (lower : other.offset < gap.offset) : other.size < size := by
  obtain ⟨fit, chosen, taken⟩ := Option.map_eq_some_iff.mp found
  have same : fit = gap := by
    dsimp only at taken
    split at taken <;> exact (Prod.mk.inj taken).1
  subst same
  obtain ⟨_, before, after, rfl, rejected⟩ := List.find?_eq_some_iff_append.mp chosen
  rcases List.mem_append.mp member with earlier | later
  · simpa using rejected other earlier
  · rcases List.mem_cons.mp later with rfl | later
    · omega
    · have ordered := (List.pairwise_append.mp canonical.apart).2.1
      have := (List.pairwise_cons.mp ordered).1 other later
      unfold Gap.stop at this
      omega

theorem lastGap?_eq_some {arenaEnd : Nat} {gaps rest : List Gap} {gap : Gap}
    (found : lastGap? arenaEnd gaps = some (gap, rest)) :
    gap ∈ gaps ∧ gap.stop = arenaEnd ∧ rest = erase gap.offset gaps := by
  unfold lastGap? at found
  split at found
  · rename_i last isLast
    split at found
    · rename_i atEnd
      obtain ⟨rfl, rfl⟩ := Prod.mk.inj (Option.some.inj found)
      exact ⟨List.mem_of_getLast? isLast, atEnd, rfl⟩
    · cases found
  · cases found

theorem eq_or_below_of_getLast? {gaps : List Gap} {last gap : Gap}
    (ordered : gaps.Pairwise fun lower upper => lower.stop < upper.offset)
    (isLast : gaps.getLast? = some last) (member : gap ∈ gaps) :
    gap = last ∨ gap.stop < last.offset := by
  obtain ⟨init, rfl⟩ := List.getLast?_eq_some_iff.mp isLast
  rcases List.mem_append.mp member with member | member
  · exact .inr ((List.pairwise_append.mp ordered).2.2 gap member last (by simp))
  · exact .inl (List.mem_singleton.mp member)

theorem lastGap?_eq_none {arenaEnd : Nat} {gaps : List Gap} {gap : Gap}
    (canonical : Canonical gaps) (inside : ∀ gap ∈ gaps, gap.stop ≤ arenaEnd)
    (none : lastGap? arenaEnd gaps = none) (member : gap ∈ gaps) : gap.stop < arenaEnd := by
  unfold lastGap? at none
  split at none
  · rename_i last isLast
    have listed := List.mem_of_getLast? isLast
    have ended := inside last listed
    split at none
    · cases none
    · rename_i apart
      rcases eq_or_below_of_getLast? canonical.apart isLast member with rfl | below
      · omega
      · unfold Gap.stop at ended below ⊢
        omega
  · rename_i isLast
    rw [List.getLast?_eq_none_iff.mp isLast] at member
    cases member

/-! ### Giving a slot back -/

/-- A gap has been joined with some of the others, which leaves the rest. -/
structure Joined (gap : Gap) (gaps : List Gap) (joined : Gap) (rest : List Gap) : Prop where
  canonical : Canonical rest
  subset : ∀ other ∈ rest, other ∈ gaps
  positive : 0 < joined.size
  apart : ∀ other ∈ rest, other.stop ≤ joined.offset ∨ joined.stop ≤ other.offset
  covers : ∀ address, gap.Covers address → joined.Covers address
  kept : ∀ other ∈ gaps, other ∈ rest ∨ ∀ address, other.Covers address → joined.Covers address
  latest : gap.freedAfter ≤ joined.freedAfter
  source : ∀ address, joined.Covers address → gap.Covers address ∨
    ∃ other ∈ gaps, other.Covers address ∧ other.freedAfter ≤ joined.freedAfter
  bounded : ∀ bound, gap.freedAfter ≤ bound → (∀ other ∈ gaps, other.freedAfter ≤ bound) →
    joined.freedAfter ≤ bound

namespace Joined

theorem refl {gap : Gap} {gaps : List Gap} (canonical : Canonical gaps) (positive : 0 < gap.size)
    (apart : ∀ other ∈ gaps, other.stop ≤ gap.offset ∨ gap.stop ≤ other.offset) :
    Joined gap gaps gap gaps where
  canonical := canonical
  subset _ member := member
  positive := positive
  apart := apart
  covers _ inside := inside
  kept _ member := .inl member
  latest := Nat.le_refl _
  source _ inside := .inl inside
  bounded _ own _ := own

theorem trans {gap middle joined : Gap} {gaps left rest : List Gap}
    (first : Joined gap gaps middle left) (second : Joined middle left joined rest) :
    Joined gap gaps joined rest where
  canonical := second.canonical
  subset other member := first.subset other (second.subset other member)
  positive := second.positive
  apart := second.apart
  covers address inside := second.covers address (first.covers address inside)
  kept other member := by
    rcases first.kept other member with member | inside
    · exact second.kept other member
    · exact .inr fun address covered => second.covers address (inside address covered)
  latest := Nat.le_trans first.latest second.latest
  source address inside := by
    rcases second.source address inside with inside | ⟨other, member, covered, earlier⟩
    · rcases first.source address inside with inside | ⟨other, member, covered, earlier⟩
      · exact .inl inside
      · exact .inr ⟨other, member, covered, Nat.le_trans earlier second.latest⟩
    · exact .inr ⟨other, first.subset other member, covered, earlier⟩
  bounded bound own others :=
    second.bounded bound (first.bounded bound own others) fun other member =>
      others other (first.subset other member)

/-- Two gaps that touch become one. -/
theorem of_touching {gap neighbour joined : Gap} {gaps : List Gap} (canonical : Canonical gaps)
    (positive : 0 < gap.size)
    (apart : ∀ other ∈ gaps, other.stop ≤ gap.offset ∨ gap.stop ≤ other.offset)
    (member : neighbour ∈ gaps)
    (sizes : joined.size = gap.size + neighbour.size)
    (touching : (neighbour.stop = gap.offset ∧ joined.offset = neighbour.offset) ∨
      (gap.stop = neighbour.offset ∧ joined.offset = gap.offset))
    (latest : joined.freedAfter = max gap.freedAfter neighbour.freedAfter) :
    Joined gap gaps joined (erase neighbour.offset gaps) where
  canonical := canonical.erase _
  subset other kept := ((canonical.mem_erase member).mp kept).1
  positive := by omega
  apart other kept := by
    obtain ⟨kept, unlike⟩ := (canonical.mem_erase member).mp kept
    have own := apart other kept
    have next := canonical.apart_of_ne kept member unlike
    have := canonical.positive other kept
    unfold Gap.stop at own next touching ⊢
    omega
  covers address inside := by
    unfold Gap.Covers Gap.stop at *
    omega
  kept other kept := by
    by_cases same : other = neighbour
    · subst same
      right
      intro address inside
      unfold Gap.Covers Gap.stop at *
      omega
    · exact .inl ((canonical.mem_erase member).mpr ⟨kept, same⟩)
  latest := by omega
  source address inside := by
    have either : gap.Covers address ∨ neighbour.Covers address := by
      unfold Gap.Covers Gap.stop at *
      omega
    exact either.imp_right fun covered => ⟨neighbour, member, covered, by omega⟩
  bounded bound own others := by
    have := others neighbour member
    omega

end Joined

/-- Below the joined gap nothing touches it. -/
theorem joinBelow_joined {gap : Gap} {gaps : List Gap} (canonical : Canonical gaps)
    (positive : 0 < gap.size)
    (apart : ∀ other ∈ gaps, other.stop ≤ gap.offset ∨ gap.stop ≤ other.offset) :
    Joined gap gaps (joinBelow gap gaps).1 (joinBelow gap gaps).2 ∧
      ∀ other ∈ (joinBelow gap gaps).2, other.stop ≠ (joinBelow gap gaps).1.offset := by
  have lower : ∀ other ∈ gaps, other.stop = gap.offset →
      other ∈ gaps.filter fun other => other.offset < gap.offset := by
    intro other member touching
    have := canonical.positive other member
    unfold Gap.stop at touching
    rw [List.mem_filter, decide_eq_true_eq]
    exact ⟨member, by omega⟩
  unfold joinBelow
  split
  · rename_i below isLast
    have chosen := List.mem_filter.mp (List.mem_of_getLast? isLast)
    have under : below.offset < gap.offset := by simpa using chosen.2
    split
    · rename_i touching
      refine ⟨.of_touching canonical positive apart chosen.1 (Nat.add_comm _ _)
        (.inl ⟨touching, rfl⟩) rfl, ?_⟩
      intro other kept
      obtain ⟨kept, unlike⟩ := (canonical.mem_erase chosen.1).mp kept
      have := canonical.apart_of_ne kept chosen.1 unlike
      unfold Gap.stop at this ⊢
      dsimp only
      omega
    · rename_i separate
      refine ⟨.refl canonical positive apart, ?_⟩
      intro other member touching
      have ordered := canonical.apart.sublist
        (List.filter_sublist (p := fun other => other.offset < gap.offset))
      rcases eq_or_below_of_getLast? ordered isLast (lower other member touching) with rfl | next
      · exact separate touching
      · dsimp only at touching
        omega
  · rename_i isLast
    refine ⟨.refl canonical positive apart, ?_⟩
    intro other member touching
    have listed := lower other member touching
    rw [List.getLast?_eq_none_iff.mp isLast] at listed
    cases listed

/-- Above the joined gap nothing touches it. -/
theorem joinAbove_joined {gap : Gap} {gaps : List Gap} (canonical : Canonical gaps)
    (positive : 0 < gap.size)
    (apart : ∀ other ∈ gaps, other.stop ≤ gap.offset ∨ gap.stop ≤ other.offset) :
    Joined gap gaps (joinAbove gap gaps).1 (joinAbove gap gaps).2 ∧
      (joinAbove gap gaps).1.offset = gap.offset ∧
      ∀ other ∈ (joinAbove gap gaps).2, other.offset ≠ (joinAbove gap gaps).1.stop := by
  unfold joinAbove
  split
  · rename_i above found
    have member := List.mem_of_find?_eq_some found
    have touching : above.offset = gap.stop := by simpa using List.find?_some found
    refine ⟨.of_touching canonical positive apart member rfl (.inr ⟨touching.symm, rfl⟩)
      rfl, rfl, ?_⟩
    intro other kept
    obtain ⟨kept, unlike⟩ := (canonical.mem_erase member).mp kept
    have := canonical.apart_of_ne kept member unlike
    unfold Gap.stop at this touching ⊢
    dsimp only
    omega
  · rename_i found
    refine ⟨.refl canonical positive apart, rfl, ?_⟩
    intro other member
    simpa using List.find?_eq_none.mp found other member

/-- What a release does to the gaps when the slot lies between them. -/
structure Released (slot : Gap) (gaps after : List Gap) : Prop where
  canonical : Canonical after
  free_of : ∀ address step, Free after address step →
    (slot.Covers address ∧ slot.freedAfter ≤ step) ∨
      ∃ earlier, earlier ≤ step ∧ Free gaps address earlier
  free_slot : ∀ address, slot.Covers address → ∃ step, Free after address step
  free_gaps : ∀ address step, Free gaps address step → ∃ later, Free after address later
  bounded : ∀ bound, slot.freedAfter ≤ bound → (∀ gap ∈ gaps, gap.freedAfter ≤ bound) →
    ∀ gap ∈ after, gap.freedAfter ≤ bound
  /-- A gap is left as it was, or the slot has gone into it. -/
  origin : ∀ gap ∈ after, gap ∈ gaps ∨ 0 < slot.size ∧ slot.freedAfter ≤ gap.freedAfter ∧
    ∀ address, slot.Covers address → gap.Covers address

theorem release_released (slot : Gap) {gaps : List Gap} (canonical : Canonical gaps)
    (apart : 0 < slot.size →
      ∀ other ∈ gaps, other.stop ≤ slot.offset ∨ slot.stop ≤ other.offset) :
    Released slot gaps (release slot gaps) := by
  unfold release
  split
  · rename_i empty
    refine ⟨canonical, fun address step free => .inr ⟨step, Nat.le_refl _, free⟩, ?_,
      fun address step free => ⟨step, free⟩, fun bound _ others => others,
      fun gap member => .inl member⟩
    intro address inside
    unfold Gap.Covers Gap.stop at inside
    omega
  · rename_i nonempty
    have positive : 0 < slot.size := Nat.pos_of_ne_zero nonempty
    obtain ⟨below, clearBelow⟩ := joinBelow_joined canonical positive (apart positive)
    obtain ⟨above, sameOffset, clearAbove⟩ :=
      joinAbove_joined below.canonical below.positive below.apart
    have joined := below.trans above
    dsimp only
    generalize joinAbove (joinBelow slot gaps).1 (joinBelow slot gaps).2 = result at *
    obtain ⟨gap, rest⟩ := result
    dsimp only at *
    have separate : ∀ other ∈ rest, other.stop < gap.offset ∨ gap.stop < other.offset := by
      intro other member
      have := joined.apart other member
      have := clearBelow other (above.subset other member)
      have := clearAbove other member
      omega
    obtain ⟨finished, members⟩ := insert_apart _ joined.canonical joined.positive separate
    refine ⟨finished, ?_, ?_, ?_, ?_, ?_⟩
    · rintro address step ⟨other, member, inside, same⟩
      rcases (members other).mp member with rfl | member
      · have := joined.latest
        rcases joined.source address inside with inside | ⟨old, member, inside, earlier⟩
        · exact .inl ⟨inside, by omega⟩
        · exact .inr ⟨old.freedAfter, by omega, old, member, inside, rfl⟩
      · exact .inr ⟨step, Nat.le_refl _, other, joined.subset other member, inside, same⟩
    · intro address inside
      exact ⟨_, gap, (members gap).mpr (.inl rfl), joined.covers address inside, rfl⟩
    · rintro address step ⟨other, member, inside, rfl⟩
      rcases joined.kept other member with member | swallowed
      · exact ⟨_, other, (members other).mpr (.inr member), inside, rfl⟩
      · exact ⟨_, gap, (members gap).mpr (.inl rfl), swallowed address inside, rfl⟩
    · intro bound own others other member
      rcases (members other).mp member with rfl | member
      · exact joined.bounded bound own others
      · exact others other (joined.subset other member)
    · intro other member
      rcases (members other).mp member with rfl | member
      · exact .inr ⟨positive, joined.latest, joined.covers⟩
      · exact .inl (joined.subset other member)

/-- A slot without a free address lies between the gaps. -/
theorem release_of_disjoint (slot : Gap) {gaps : List Gap} (canonical : Canonical gaps)
    (disjoint : ∀ address, slot.Covers address → ∀ step, ¬ Free gaps address step) :
    Released slot gaps (release slot gaps) := by
  refine release_released slot canonical fun nonempty gap member => ?_
  by_contra meets
  have positive := canonical.positive gap member
  have common : gap.Covers (max gap.offset slot.offset) := by
    unfold Gap.Covers Gap.stop at *
    omega
  have within : slot.Covers (max gap.offset slot.offset) := by
    unfold Gap.Covers Gap.stop at *
    omega
  exact disjoint _ within gap.freedAfter ⟨gap, member, common, rfl⟩

end Gaps

end TensorArena
