import Mathlib.Logic.Function.Basic

/-!
Resources that are acquired once, handed from slot to slot and released once. A
ledger numbers the resources in the order of their acquisition.
-/

namespace LeanOwnership

structure Ledger (κ : Type) where
  held : κ → Option Nat
  acquired : Nat
  released : List Nat

namespace Ledger

variable {κ : Type}

structure Known (ledger : Ledger κ) : Prop where
  held : ∀ slot resource, ledger.held slot = some resource → resource < ledger.acquired
  released : ∀ resource ∈ ledger.released, resource < ledger.acquired

def Owned (ledger : Ledger κ) (resource : Nat) : Prop :=
  ∃ owner, ledger.held owner = some resource ∧
    (∀ slot, ledger.held slot = some resource → slot = owner) ∧
    ledger.released.count resource = 0

def Returned (ledger : Ledger κ) (resource : Nat) : Prop :=
  (∀ slot, ledger.held slot ≠ some resource) ∧ ledger.released.count resource = 1

/-- Every resource acquired has one owner and is not released yet, or has no owner
and was released once. -/
def Exact (ledger : Ledger κ) : Prop :=
  ∀ resource < ledger.acquired, ledger.Owned resource ∨ ledger.Returned resource

variable {ledger : Ledger κ}

theorem Exact.all_released (exact : ledger.Exact) (empty : ∀ slot, ledger.held slot = none) :
    ∀ resource < ledger.acquired, ledger.released.count resource = 1 := by
  intro resource bound
  rcases exact resource bound with ⟨owner, holds, _⟩ | ⟨_, released⟩
  · simp [empty owner] at holds
  · exact released

variable [DecidableEq κ]

def acquire (ledger : Ledger κ) (slot : κ) : Ledger κ :=
  { ledger with
    held := Function.update ledger.held slot (some ledger.acquired)
    acquired := ledger.acquired + 1 }

def move (ledger : Ledger κ) (target source : κ) : Ledger κ :=
  { ledger with
    held := Function.update (Function.update ledger.held target (ledger.held source)) source none }

/-- A copy of the pointer alone: two slots then hold what one held. -/
def copy (ledger : Ledger κ) (target source : κ) : Ledger κ :=
  { ledger with held := Function.update ledger.held target (ledger.held source) }

def release (ledger : Ledger κ) (slot : κ) : Ledger κ :=
  { ledger with
    held := Function.update ledger.held slot none
    released := ledger.released ++ (ledger.held slot).toList }

theorem Known.acquire (known : ledger.Known) (slot : κ) : (ledger.acquire slot).Known where
  held other resource holds := by
    by_cases same : other = slot
    · simp only [Ledger.acquire, same, Function.update_self, Option.some.injEq] at holds
      simp only [Ledger.acquire]
      omega
    · simp only [Ledger.acquire, Function.update_of_ne same] at holds
      have bound := known.held other resource holds
      simp only [Ledger.acquire]
      omega
  released resource member := by
    have bound := known.released resource member
    simp only [Ledger.acquire]
    omega

theorem Known.move (known : ledger.Known) (target source : κ) :
    (ledger.move target source).Known where
  held other resource holds := by
    by_cases emptied : other = source
    · simp [Ledger.move, emptied] at holds
    · by_cases filled : other = target
      · rw [filled] at emptied
        simp only [Ledger.move, filled, Function.update_of_ne emptied, Function.update_self] at holds
        exact known.held source resource holds
      · simp only [Ledger.move, Function.update_of_ne emptied,
          Function.update_of_ne filled] at holds
        exact known.held other resource holds
  released := known.released

theorem held_copy (target source slot : κ) :
    (ledger.copy target source).held slot =
      if slot = target then ledger.held source else ledger.held slot := by
  simp [Ledger.copy, Function.update_apply]

theorem Known.copy (known : ledger.Known) (target source : κ) :
    (ledger.copy target source).Known where
  held other resource holds := by
    rw [held_copy] at holds
    split at holds
    · exact known.held source resource holds
    · exact known.held other resource holds
  released := known.released

theorem Known.release (known : ledger.Known) (slot : κ) : (ledger.release slot).Known where
  held other resource holds := by
    by_cases same : other = slot
    · simp [Ledger.release, same] at holds
    · simp only [Ledger.release, Function.update_of_ne same] at holds
      exact known.held other resource holds
  released resource member := by
    rcases List.mem_append.mp member with old | new
    · exact known.released resource old
    · exact known.held slot resource (Option.mem_toList.mp new)

theorem Exact.acquire (exact : ledger.Exact) (known : ledger.Known) {slot : κ}
    (free : ledger.held slot = none) : (ledger.acquire slot).Exact := by
  intro resource bound
  simp only [Ledger.acquire] at bound
  by_cases fresh : resource = ledger.acquired
  · left
    refine ⟨slot, by simp [Ledger.acquire, fresh], ?_, ?_⟩
    · intro other holds
      by_contra different
      simp only [Ledger.acquire, Function.update_of_ne different] at holds
      have older := known.held other resource holds
      omega
    · apply List.count_eq_zero_of_not_mem
      intro member
      have older := known.released resource member
      omega
  · have kept : ∀ other, (ledger.acquire slot).held other = some resource ↔
        ledger.held other = some resource := by
      intro other
      by_cases same : other = slot
      · simp [Ledger.acquire, same, free, Ne.symm fresh]
      · simp [Ledger.acquire, Function.update_of_ne same]
    rcases exact resource (by omega) with ⟨owner, holds, unique, count⟩ | ⟨unheld, count⟩
    · left
      exact ⟨owner, (kept owner).mpr holds, fun other now => unique other ((kept other).mp now),
        count⟩
    · right
      exact ⟨fun other now => unheld other ((kept other).mp now), count⟩

theorem held_move (target source slot : κ) :
    (ledger.move target source).held slot =
      if slot = source then none
      else if slot = target then ledger.held source else ledger.held slot := by
  simp [Ledger.move, Function.update_apply]

theorem held_release (emptied slot : κ) :
    (ledger.release emptied).held slot = if slot = emptied then none else ledger.held slot := by
  simp [Ledger.release, Function.update_apply]

theorem Exact.release (exact : ledger.Exact) (slot : κ) : (ledger.release slot).Exact := by
  intro resource bound
  have count : (ledger.release slot).released.count resource =
      ledger.released.count resource + if ledger.held slot = some resource then 1 else 0 := by
    cases held : ledger.held slot with
    | none => simp [Ledger.release, held]
    | some other =>
        by_cases same : other = resource
        · simp [Ledger.release, held, same]
        · simp [Ledger.release, held, same]
  rcases exact resource bound with ⟨owner, holds, unique, unreleased⟩ | ⟨unheld, released⟩
  · by_cases emptied : owner = slot
    · right
      refine ⟨?_, ?_⟩
      · intro other now
        rw [held_release] at now
        split at now
        · simp at now
        · rename_i different
          exact different ((unique other now).trans emptied)
      · rw [count, ← emptied, if_pos holds, unreleased]
    · left
      have elsewhere : ledger.held slot ≠ some resource := fun now => emptied (unique slot now).symm
      refine ⟨owner, ?_, ?_, ?_⟩
      · rw [held_release, if_neg emptied]
        exact holds
      · intro other now
        rw [held_release] at now
        split at now
        · simp at now
        · exact unique other now
      · rw [count, if_neg elsewhere, unreleased]
  · right
    refine ⟨?_, ?_⟩
    · intro other now
      rw [held_release] at now
      split at now
      · simp at now
      · exact unheld other now
    · rw [count, if_neg (unheld slot), released]

theorem Exact.move (exact : ledger.Exact) {target source : κ} (different : target ≠ source)
    (free : ledger.held target = none) : (ledger.move target source).Exact := by
  intro resource bound
  rcases exact resource bound with ⟨owner, holds, unique, unreleased⟩ | ⟨unheld, released⟩
  · left
    by_cases moved : owner = source
    · refine ⟨target, ?_, ?_, unreleased⟩
      · rw [held_move, if_neg different, if_pos rfl, ← moved]
        exact holds
      · intro other now
        rw [held_move] at now
        split at now
        · simp at now
        · rename_i outside
          split at now
          · rename_i filled
            exact filled
          · exact absurd ((unique other now).trans moved) outside
    · have kept : owner ≠ target := by
        intro same
        rw [same, free] at holds
        simp at holds
      refine ⟨owner, ?_, ?_, unreleased⟩
      · rw [held_move, if_neg moved, if_neg kept]
        exact holds
      · intro other now
        rw [held_move] at now
        split at now
        · simp at now
        · split at now
          · exact absurd (unique source now).symm moved
          · exact unique other now
  · right
    refine ⟨?_, released⟩
    intro other now
    rw [held_move] at now
    split at now
    · simp at now
    · split at now
      · exact unheld source now
      · exact unheld other now

/-- A move keeps ownership exact exactly if its target was empty: what the target
held is neither owned nor released afterwards. -/
theorem Exact.move_iff (exact : ledger.Exact) (known : ledger.Known) {target source : κ}
    (different : target ≠ source) :
    (ledger.move target source).Exact ↔ ledger.held target = none := by
  constructor
  · intro after
    by_contra occupied
    obtain ⟨resource, holds⟩ := Option.ne_none_iff_exists'.mp occupied
    have bound := known.held target resource holds
    rcases exact resource bound with ⟨owner, _, unique, unreleased⟩ | ⟨unheld, _⟩
    · have lost : ∀ other, (ledger.move target source).held other ≠ some resource := by
        intro other now
        rw [held_move] at now
        split at now
        · simp at now
        · split at now
          · exact different ((unique target holds).trans (unique source now).symm)
          · rename_i outside
            exact outside ((unique other now).trans (unique target holds).symm)
      rcases after resource bound with ⟨holder, holdsNow, _⟩ | ⟨_, releasedNow⟩
      · exact lost holder holdsNow
      · simp only [Ledger.move] at releasedNow
        omega
    · exact unheld target holds
  · exact exact.move different

theorem Known.copy_shared (known : ledger.Known) {target source : κ}
    (different : target ≠ source) (occupied : ledger.held source ≠ none) :
    ¬(ledger.copy target source).Exact := by
  intro after
  obtain ⟨resource, holds⟩ := Option.ne_none_iff_exists'.mp occupied
  have atSource : (ledger.copy target source).held source = some resource := by
    rw [held_copy, if_neg different.symm, holds]
  have atTarget : (ledger.copy target source).held target = some resource := by
    rw [held_copy, if_pos rfl, holds]
  rcases after resource (known.held source resource holds) with ⟨owner, _, unique, _⟩ | ⟨unheld, _⟩
  · exact different ((unique target atTarget).trans (unique source atSource).symm)
  · exact unheld source atSource

/-- A copy keeps ownership exact exactly if neither slot held anything. -/
theorem Exact.copy_iff (exact : ledger.Exact) (known : ledger.Known) {target source : κ}
    (different : target ≠ source) :
    (ledger.copy target source).Exact ↔
      ledger.held target = none ∧ ledger.held source = none := by
  constructor
  · intro after
    have empty : ledger.held source = none := by
      by_contra occupied
      exact known.copy_shared different occupied after
    refine ⟨?_, empty⟩
    -- the copy of an empty slot is a move from it
    have moved : ledger.copy target source = ledger.move target source := by
      have kept : Function.update (Function.update ledger.held target (ledger.held source))
          source none = Function.update ledger.held target (ledger.held source) := by
        rw [Function.update_eq_self_iff, Function.update_of_ne different.symm, empty]
      rw [Ledger.copy, Ledger.move, kept]
    rw [moved] at after
    exact (exact.move_iff known different).mp after
  · rintro ⟨free, empty⟩
    have unchanged : ledger.copy target source = ledger := by
      rw [Ledger.copy, empty, ← free, Function.update_eq_self]
    rw [unchanged]
    exact exact

end Ledger

end LeanOwnership
