import Mathlib.Data.Set.Image

/-!
A set of keys beside the set of the names of these keys. Adding a key and its name
keeps the two in step; removing them does unless another key has the same name. The
same rules hold where the names of the keys are only among the names.
-/

namespace LeanProjection

variable {κ ν : Type} {project : κ → ν} {keys : Set κ} {names : Set ν}

theorem insert_exact (exact : project '' keys = names) (key : κ) :
    project '' (insert key keys) = insert (project key) names := by
  rw [Set.image_insert_eq, exact]

theorem erase_exact_iff (exact : project '' keys = names) (key : κ) :
    project '' (keys \ {key}) = names \ {project key} ↔
      ∀ other ∈ keys, project other = project key → other = key := by
  constructor
  · intro erased other member sameName
    by_contra different
    have kept : project other ∈ project '' (keys \ {key}) := ⟨other, ⟨member, different⟩, rfl⟩
    rw [erased] at kept
    exact kept.2 sameName
  · intro unshared
    subst exact
    ext name
    constructor
    · rintro ⟨other, ⟨member, different⟩, named⟩
      subst named
      exact ⟨⟨other, member, rfl⟩, fun sameName => different (unshared other member sameName)⟩
    · rintro ⟨⟨other, member, named⟩, different⟩
      subst named
      exact ⟨other, ⟨member, fun same => different (congrArg project same)⟩, rfl⟩

theorem erase_exact_of_injOn {domain : Set κ} (injective : Set.InjOn project domain)
    (within : keys ⊆ domain) {key : κ} (known : key ∈ domain) :
    ∀ other ∈ keys, project other = project key → other = key :=
  fun _ member sameName => injective (within member) known sameName

theorem erase_subset_iff (within : project '' keys ⊆ names) (key : κ) :
    project '' (keys \ {key}) ⊆ names \ {project key} ↔
      ∀ other ∈ keys, project other = project key → other = key := by
  constructor
  · intro erased other member sameName
    by_contra different
    exact (erased ⟨other, ⟨member, different⟩, rfl⟩).2 sameName
  · rintro unshared name ⟨other, ⟨member, different⟩, named⟩
    subst named
    exact ⟨within ⟨other, member, rfl⟩, fun sameName => different (unshared other member sameName)⟩

/-- Only the name is removed, its key stays. -/
theorem subset_erase_iff (within : project '' keys ⊆ names) (key : κ) :
    project '' keys ⊆ names \ {project key} ↔
      ∀ other ∈ keys, project other ≠ project key := by
  constructor
  · intro erased other member
    exact (erased ⟨other, member, rfl⟩).2
  · rintro unnamed name ⟨other, member, named⟩
    subst named
    exact ⟨within ⟨other, member, rfl⟩, unnamed other member⟩

end LeanProjection
