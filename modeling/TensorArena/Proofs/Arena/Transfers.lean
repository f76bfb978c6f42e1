import TensorArena.Proofs.Arena.Gaps
import TensorArena.Proofs.Arena.Sums

/-!
# Transfers

Any calls may take slots from the gaps and give slots back, as long as no free address is given
back once more. The gaps stay canonical, an address is free exactly if it was given back after it
was last taken, and no gap remembers a step before the one after which one of its addresses was
last given back.
-/

set_option autoImplicit false

namespace TensorArena

instance (gap : Gap) (address : Nat) : Decidable (gap.Covers address) :=
  inferInstanceAs (Decidable (_ ∧ _))

namespace Gaps

inductive Call where
  | takeFirst (size : Nat)
  | takeLast (arenaEnd : Nat)
  | release (slot : Gap)
deriving DecidableEq, Repr

/-- A slot that has left the gaps or has gone into them. -/
inductive Transfer where
  | taken (slot : Gap)
  | released (slot : Gap)
deriving DecidableEq, Repr

def Transfer.slot : Transfer → Gap
  | taken slot | released slot => slot

/-- What a call moves, and the gaps after that. A call may find nothing to take. -/
def Call.transfer? (gaps : List Gap) : Call → Option (Transfer × List Gap)
  | takeFirst size => (firstFit? size gaps).map fun found =>
      (.taken ⟨found.1.offset, size, found.1.freedAfter⟩, found.2)
  | takeLast arenaEnd => (lastGap? arenaEnd gaps).map fun found => (.taken found.1, found.2)
  | release slot => some (.released slot, Gaps.release slot gaps)

/-- What a call adds up. -/
def Call.sums (gaps : List Gap) : Call → List Nat
  | takeFirst size => firstFitSums size gaps
  | takeLast _ => lastGapSums gaps
  | release slot => releaseSums slot gaps

/-- A slot that is given back ends at the limit at the latest, and none of its addresses is free. -/
def Call.Admissible (limit : Nat) (gaps : List Gap) : Call → Prop
  | takeFirst _ | takeLast _ => True
  | release slot => slot.stop ≤ limit ∧ ∀ gap ∈ gaps,
      (Storage.arena slot.offset slot.size).overlaps (.arena gap.offset gap.size) = false

instance (limit : Nat) (gaps : List Gap) (call : Call) :
    Decidable (call.Admissible limit gaps) :=
  match call with
  | .takeFirst _ | .takeLast _ => inferInstanceAs (Decidable True)
  | .release _ => inferInstanceAs (Decidable (_ ∧ _))

/-- The gaps after some calls, and what these have transferred, the latest first. -/
structure History where
  gaps : List Gap := []
  log : List Transfer := []

namespace History

def perform (history : History) (call : Call) : History :=
  match call.transfer? history.gaps with
  | some (transfer, rest) => ⟨rest, transfer :: history.log⟩
  | none => history

def performAll (history : History) (calls : List Call) : History := calls.foldl perform history

/-- Each of the calls is admissible when it is made. -/
def Admits (limit : Nat) (history : History) : List Call → Prop
  | [] => True
  | call :: rest => call.Admissible limit history.gaps ∧ (history.perform call).Admits limit rest

instance decidableAdmits (limit : Nat) (history : History) (calls : List Call) :
    Decidable (history.Admits limit calls) :=
  match calls with
  | [] => inferInstanceAs (Decidable True)
  | call :: rest =>
    have := decidableAdmits limit (history.perform call) rest
    inferInstanceAs (Decidable (_ ∧ _))

/-- All that the calls add up. -/
def sums (history : History) : List Call → List Nat
  | [] => []
  | call :: rest => call.sums history.gaps ++ (history.perform call).sums rest

end History

/-- The last transfer that the address was part of. -/
def latest? (log : List Transfer) (address : Nat) : Option Transfer :=
  log.find? fun transfer => transfer.slot.Covers address

def isReleaseOf (address : Nat) : Transfer → Bool
  | .taken _ => false
  | .released slot => slot.Covers address

def isTakeOf (address : Nat) : Transfer → Bool
  | .taken slot => slot.Covers address
  | .released _ => false

/-- The gaps are canonical and are what the log leaves free. -/
structure Settles (limit : Nat) (log : List Transfer) (gaps : List Gap) : Prop where
  canonical : Canonical gaps
  within : ∀ gap ∈ gaps, gap.stop ≤ limit
  /-- An address is free if and only if it was given back after it was last taken. -/
  free_iff : ∀ address, (∃ step, Free gaps address step) ↔
    ∃ slot, latest? log address = some (.released slot)
  /-- No gap remembers a step before that of the latest release of one of its addresses. -/
  latest : ∀ address step, Free gaps address step → ∀ slot,
    latest? log address = some (.released slot) → slot.freedAfter ≤ step
  /-- A free address was given back once more than it was taken. -/
  free : ∀ address step, Free gaps address step →
    log.countP (isReleaseOf address) = log.countP (isTakeOf address) + 1
  /-- Another one was taken whenever it was given back. -/
  used : ∀ address, (∀ step, ¬ Free gaps address step) →
    log.countP (isReleaseOf address) = log.countP (isTakeOf address)

variable {limit : Nat} {log : List Transfer} {gaps rest : List Gap} {slot : Gap}

/-! ### Single transfers -/

theorem latest?_cons (transfer : Transfer) (log : List Transfer) (address : Nat) :
    latest? (transfer :: log) address =
      if transfer.slot.Covers address then some transfer else latest? log address := by
  unfold latest?
  by_cases covered : transfer.slot.Covers address <;> simp [covered]

theorem settles_nil (limit : Nat) : Settles limit [] [] where
  canonical := .nil
  within := by simp
  free_iff := by simp [Free, latest?]
  latest := by simp [Free]
  free := by simp [Free]
  used := by simp

namespace Settles

/-- Taking a slot of free addresses leaves the other ones free. -/
theorem take (settles : Settles limit log gaps) (canonical : Canonical rest)
    (kept : ∀ address step, Free rest address step ↔
      Free gaps address step ∧ ¬ slot.Covers address)
    (available : ∀ address, slot.Covers address → ∃ step, Free gaps address step) :
    Settles limit (.taken slot :: log) rest where
  canonical := canonical
  within := canonical.stop_le fun address step free =>
    lt_of_free settles.within ((kept address step).mp free).1
  free_iff address := by
    rw [latest?_cons]
    by_cases covered : slot.Covers address
    · simp [Transfer.slot, kept, covered]
    · simpa [Transfer.slot, kept, covered] using settles.free_iff address
  latest address step free other := by
    have ⟨earlier, outside⟩ := (kept address step).mp free
    rw [latest?_cons, Transfer.slot, if_neg outside]
    exact settles.latest address step earlier other
  free address step free := by
    have ⟨earlier, outside⟩ := (kept address step).mp free
    simpa [isReleaseOf, isTakeOf, outside] using settles.free address step earlier
  used address taken := by
    by_cases covered : slot.Covers address
    · have ⟨step, earlier⟩ := available address covered
      simpa [isReleaseOf, isTakeOf, covered] using settles.free address step earlier
    · have before : ∀ step, ¬ Free gaps address step :=
        fun step earlier => taken step ((kept address step).mpr ⟨earlier, covered⟩)
      simpa [isReleaseOf, isTakeOf, covered] using settles.used address before

/-- Giving back a slot with no free address adds its addresses to the free ones. -/
theorem release (settles : Settles limit log gaps) (released : Released slot gaps rest)
    (within : slot.stop ≤ limit)
    (taken : ∀ address, slot.Covers address → ∀ step, ¬ Free gaps address step) :
    Settles limit (.released slot :: log) rest where
  canonical := released.canonical
  within := released.canonical.stop_le fun address step free => by
    rcases released.free_of address step free with own | other
    · exact Nat.lt_of_lt_of_le own.1.2 within
    · have ⟨_, _, earlier⟩ := other
      exact lt_of_free settles.within earlier
  free_iff address := by
    rw [latest?_cons]
    by_cases covered : slot.Covers address
    · simpa [Transfer.slot, covered] using released.free_slot address covered
    · rw [Transfer.slot, if_neg covered, ← settles.free_iff address]
      constructor
      · intro ⟨step, free⟩
        rcases released.free_of address step free with own | other
        · exact absurd own.1 covered
        · have ⟨before, _, earlier⟩ := other
          exact ⟨before, earlier⟩
      · intro ⟨step, earlier⟩
        exact released.free_gaps address step earlier
  latest address step free other := by
    rw [latest?_cons]
    rcases released.free_of address step free with own | other
    · rw [Transfer.slot, if_pos own.1]
      intro same
      cases same
      exact own.2
    · have ⟨before, notLater, earlier⟩ := other
      have outside : ¬ slot.Covers address := fun covered => taken address covered before earlier
      rw [Transfer.slot, if_neg outside]
      intro same
      exact Nat.le_trans (settles.latest address before earlier _ same) notLater
  free address step free := by
    rcases released.free_of address step free with own | other
    · simpa [isReleaseOf, isTakeOf, own.1] using settles.used address (taken address own.1)
    · have ⟨before, _, earlier⟩ := other
      have outside : ¬ slot.Covers address := fun covered => taken address covered before earlier
      simpa [isReleaseOf, isTakeOf, outside] using settles.free address before earlier
  used address absent := by
    have outside : ¬ slot.Covers address := fun covered => by
      have ⟨step, free⟩ := released.free_slot address covered
      exact absent step free
    have before : ∀ step, ¬ Free gaps address step := fun step earlier => by
      have ⟨later, free⟩ := released.free_gaps address step earlier
      exact absent later free
    simpa [isReleaseOf, isTakeOf, outside] using settles.used address before

end Settles

/-! ### Single calls -/

/-- A slot that overlaps no gap has no free address. -/
theorem not_free_of_apart
    (apart : ∀ gap ∈ gaps,
      (Storage.arena slot.offset slot.size).overlaps (.arena gap.offset gap.size) = false)
    (address : Nat) (covered : slot.Covers address) (step : Nat) : ¬ Free gaps address step := by
  intro ⟨gap, member, inGap, _⟩
  have common :
      (Storage.arena slot.offset slot.size).overlaps (.arena gap.offset gap.size) = true :=
    (Storage.overlaps_iff _ _).mpr ⟨address, covered, inGap⟩
  rw [apart gap member] at common
  cases common

theorem Settles.call (settles : Settles limit log gaps) {call : Call} {transfer : Transfer}
    (admissible : call.Admissible limit gaps)
    (moved : call.transfer? gaps = some (transfer, rest)) :
    Settles limit (transfer :: log) rest := by
  cases call with
  | takeFirst size =>
    have ⟨⟨gap, others⟩, found, same⟩ := Option.map_eq_some_iff.mp moved
    cases same
    have ⟨member, fits, canonical, kept⟩ := firstFit?_eq_some settles.canonical found
    refine settles.take canonical kept ?_
    intro address covered
    refine ⟨gap.freedAfter, gap, member, ⟨covered.1, ?_⟩, rfl⟩
    exact Nat.lt_of_lt_of_le covered.2 (Nat.add_le_add_left fits gap.offset)
  | takeLast arenaEnd =>
    have ⟨⟨gap, others⟩, found, same⟩ := Option.map_eq_some_iff.mp moved
    cases same
    have ⟨member, _, left⟩ := lastGap?_eq_some found
    subst left
    refine settles.take (settles.canonical.erase gap.offset)
      (settles.canonical.free_erase_iff member) ?_
    intro address covered
    exact ⟨gap.freedAfter, gap, member, covered, rfl⟩
  | release slot =>
    cases moved
    have ⟨within, apart⟩ := admissible
    have disjoint := not_free_of_apart apart
    exact settles.release (release_of_disjoint slot settles.canonical disjoint) within disjoint

theorem Settles.sums_le (settles : Settles limit log gaps) {call : Call}
    (admissible : call.Admissible limit gaps) : ∀ sum ∈ call.sums gaps, sum ≤ limit := by
  intro sum member
  cases call with
  | takeFirst size => exact firstFitSums_le settles.within member
  | takeLast arenaEnd => exact lastGapSums_le settles.within member
  | release slot => exact releaseSums_le settles.within admissible.1 member

/-! ### All calls -/

namespace History

theorem settles_perform {history : History} (settles : Settles limit history.log history.gaps)
    {call : Call} (admissible : call.Admissible limit history.gaps) :
    Settles limit (history.perform call).log (history.perform call).gaps := by
  unfold perform
  split
  next transfer rest moved => exact settles.call admissible moved
  next => exact settles

theorem settles_performAll {history : History}
    (settles : Settles limit history.log history.gaps) {calls : List Call}
    (admits : history.Admits limit calls) :
    Settles limit (history.performAll calls).log (history.performAll calls).gaps ∧
      ∀ sum ∈ history.sums calls, sum ≤ limit := by
  induction calls generalizing history with
  | nil => exact ⟨settles, by simp [sums]⟩
  | cons call rest ih =>
    have ⟨settled, later⟩ := ih (settles_perform settles admits.1) admits.2
    refine ⟨settled, ?_⟩
    unfold sums
    rw [List.forall_mem_append]
    exact ⟨settles.sums_le admits.1, later⟩

/-- Calls that start without gaps and give back no free address keep the gaps canonical and in
accordance with the log. With the largest 64-bit number as limit none of their sums overflows. -/
theorem calls_settle {limit : Nat} {calls : List Call}
    (admits : ({} : History).Admits limit calls) :
    Settles limit (({} : History).performAll calls).log (({} : History).performAll calls).gaps ∧
      ∀ sum ∈ ({} : History).sums calls, sum ≤ limit :=
  settles_performAll (settles_nil limit) admits

/-- Slots are given back apart from all gaps, below one, above one and between two, one without a
size inside a gap, and one up to the last address. Slots are taken from the front of a gap, as a
whole gap, without a size, from the end and in vain. -/
def mixedCalls : List Call :=
  [.release ⟨16, 8, 0⟩, .release ⟨0, 8, 1⟩, .release ⟨8, 8, 2⟩, .takeFirst 4, .release ⟨30, 2, 7⟩,
    .takeFirst 0, .release ⟨24, 6, 3⟩, .release ⟨6, 0, 9⟩, .takeFirst 40,
    .release ⟨2 ^ 64 - 9, 8, 4⟩, .takeLast (2 ^ 64 - 1), .takeLast 40, .release ⟨0, 4, 5⟩,
    .release ⟨32, 8, 6⟩, .takeFirst 40]

theorem mixedCalls_settle :
    ({} : History).Admits (2 ^ 64 - 1) mixedCalls ∧
      Settles (2 ^ 64 - 1) (({} : History).performAll mixedCalls).log
        (({} : History).performAll mixedCalls).gaps ∧
      ∀ sum ∈ ({} : History).sums mixedCalls, sum ≤ 2 ^ 64 - 1 := by
  have admits : ({} : History).Admits (2 ^ 64 - 1) mixedCalls := by decide
  exact ⟨admits, calls_settle admits⟩

end History

end Gaps

end TensorArena
