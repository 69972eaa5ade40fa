import Mathlib.Init

/-!
# Associations kept on two sides

Items belong to groups, and a membership is recorded twice, with the group and with the
item. A delete cleans the records on its own side only. Whether an item looks as if it were
in use, which is read off the records of the item, may then part from whether a group lists
it; the changes that part them are found here.
-/

namespace Foundation

set_option autoImplicit false

@[ext]
structure Associations (ι γ : Type) where
  item : ι → Prop
  group : γ → Prop
  listed : γ → ι → Prop
  linked : ι → γ → Prop

namespace Associations

variable {ι γ : Type}

def empty : Associations ι γ where
  item _ := False
  group _ := False
  listed _ _ := False
  linked _ _ := False

/-- What can be done to them. Items are deleted with their own records, and so are groups. -/
inductive Change (ι γ : Type) where
  | keep
  | addItem (added : ι)
  | removeItems (removed : ι → Prop)
  | addGroup (added : γ)
  | removeGroup (removed : γ)
  | link (group : γ) (item : ι)
  | unlink (group : γ) (item : ι)
  | clear

def apply (state : Associations ι γ) : Change ι γ → Associations ι γ
  | .keep => state
  | .addItem added => { state with item := fun i => i = added ∨ state.item i }
  | .removeItems removed =>
      { state with
        item := fun i => ¬ removed i ∧ state.item i
        linked := fun i g => ¬ removed i ∧ state.linked i g }
  | .addGroup added => { state with group := fun g => g = added ∨ state.group g }
  | .removeGroup removed =>
      { state with
        group := fun g => g ≠ removed ∧ state.group g
        listed := fun g i => g ≠ removed ∧ state.listed g i }
  | .link group item =>
      { state with
        listed := fun g i => (g = group ∧ i = item) ∨ state.listed g i
        linked := fun i g => (i = item ∧ g = group) ∨ state.linked i g }
  | .unlink group item =>
      { state with
        listed := fun g i => ¬ (g = group ∧ i = item) ∧ state.listed g i
        linked := fun i g => ¬ (i = item ∧ g = group) ∧ state.linked i g }
  | .clear => empty

def Valid (state : Associations ι γ) : Change ι γ → Prop
  | .link group item => state.group group ∧ state.item item
  | _ => True

/-- Records do not outlive the side they are kept on. -/
structure Anchored (state : Associations ι γ) : Prop where
  listed : ∀ g i, state.listed g i → state.group g
  linked : ∀ i g, state.linked i g → state.item i

structure Within (I : ι → Prop) (G : γ → Prop) (state : Associations ι γ) : Prop where
  item : ∀ i, state.item i → I i
  group : ∀ g, state.group g → G g

def Brings (I : ι → Prop) (G : γ → Prop) : Change ι γ → Prop
  | .addItem added => I added
  | .addGroup added => G added
  | _ => True

variable {state : Associations ι γ} {change : Change ι γ}

theorem anchored_empty : (empty : Associations ι γ).Anchored where
  listed _ _ held := held
  linked _ _ held := held

theorem within_empty {I : ι → Prop} {G : γ → Prop} : (empty : Associations ι γ).Within I G where
  item _ held := held.elim
  group _ held := held.elim

theorem Within.apply {I : ι → Prop} {G : γ → Prop} (within : state.Within I G)
    (brings : Brings I G change) : (state.apply change).Within I G := by
  cases change with
  | keep => exact within
  | addItem added =>
      refine ⟨?_, within.group⟩
      rintro i (rfl | held)
      · exact brings
      · exact within.item i held
  | removeItems removed => exact ⟨fun i held => within.item i held.2, within.group⟩
  | addGroup added =>
      refine ⟨within.item, ?_⟩
      rintro g (rfl | held)
      · exact brings
      · exact within.group g held
  | removeGroup removed => exact ⟨within.item, fun g held => within.group g held.2⟩
  | link group item => exact ⟨within.item, within.group⟩
  | unlink group item => exact ⟨within.item, within.group⟩
  | clear => exact within_empty

theorem Anchored.apply (anchored : state.Anchored) (valid : state.Valid change) :
    (state.apply change).Anchored := by
  cases change with
  | keep => exact anchored
  | addItem added => exact ⟨anchored.listed, fun i g held => Or.inr (anchored.linked i g held)⟩
  | removeItems removed =>
      exact ⟨anchored.listed, fun i g held => ⟨held.1, anchored.linked i g held.2⟩⟩
  | addGroup added => exact ⟨fun g i held => Or.inr (anchored.listed g i held), anchored.linked⟩
  | removeGroup removed =>
      exact ⟨fun g i held => ⟨held.1, anchored.listed g i held.2⟩, anchored.linked⟩
  | link group item =>
      obtain ⟨existing, stored⟩ := valid
      constructor
      · rintro g i (⟨rfl, _⟩ | held)
        · exact existing
        · exact anchored.listed g i held
      · rintro i g (⟨rfl, _⟩ | held)
        · exact stored
        · exact anchored.linked i g held
  | unlink group item =>
      exact ⟨fun g i held => anchored.listed g i held.2, fun i g held => anchored.linked i g held.2⟩
  | clear => exact anchored_empty

section Unused

/-- An item without records of its own is listed by no group. -/
def UnusedUnlisted (state : Associations ι γ) : Prop :=
  ∀ i, state.item i → (∀ g, ¬ state.linked i g) → ∀ g, state.group g → ¬ state.listed g i

/-- Every listed item has its own record of the membership. -/
def ListedLinked (state : Associations ι γ) : Prop :=
  ∀ i g, state.item i → state.group g → state.listed g i → state.linked i g

/-- An item is added anew only when no group lists it. -/
def AddsUnlisted (state : Associations ι γ) : Change ι γ → Prop
  | .addItem added => ¬ state.item added → ∀ g, state.group g → ¬ state.listed g added
  | _ => True

theorem ListedLinked.unusedUnlisted (covered : state.ListedLinked) : state.UnusedUnlisted := by
  intro i stored unlinked g existing listed
  exact unlinked g (covered i g stored existing listed)

/-- A change keeps listed items linked when it adds no listed item; one that adds a listed item
makes it an unused one that is listed. -/
theorem ListedLinked.apply (anchored : state.Anchored) (covered : state.ListedLinked)
    (adds : state.AddsUnlisted change) : (state.apply change).ListedLinked := by
  cases change with
  | keep => exact covered
  | addItem added =>
      rintro i g stored existing listed
      by_cases before : state.item i
      · exact covered i g before existing listed
      · rcases stored with rfl | held
        · exact absurd listed (adds before g existing)
        · exact absurd held before
  | removeItems removed =>
      intro i g stored existing listed
      exact ⟨stored.1, covered i g stored.2 existing listed⟩
  | addGroup added =>
      intro i g stored existing listed
      exact covered i g stored (anchored.listed g i listed) listed
  | removeGroup removed =>
      intro i g stored existing listed
      exact covered i g stored existing.2 listed.2
  | link group item =>
      rintro i g stored existing (⟨rfl, rfl⟩ | listed)
      · exact Or.inl ⟨rfl, rfl⟩
      · exact Or.inr (covered i g stored existing listed)
  | unlink group item =>
      rintro i g stored existing ⟨other, listed⟩
      exact ⟨fun same => other ⟨same.2, same.1⟩, covered i g stored existing listed⟩
  | clear => exact fun _ _ stored => stored.elim

theorem unused_unlisted_apply_iff (anchored : state.Anchored) (covered : state.ListedLinked) :
    (state.apply change).UnusedUnlisted ↔ state.AddsUnlisted change := by
  constructor
  · intro unlisted
    cases change with
    | addItem added =>
        intro absent g existing
        apply unlisted added (Or.inl rfl) _ g existing
        intro other linked
        exact absent (anchored.linked added other linked)
    | _ => trivial
  · intro adds
    exact (ListedLinked.apply anchored covered adds).unusedUnlisted

end Unused

section Used

/-- An item with a record of its own is listed by some group. -/
def LinkedListed (state : Associations ι γ) : Prop :=
  ∀ i g, state.item i → state.linked i g → ∃ other, state.group other ∧ state.listed other i

/-- A group is removed, and an item taken out of a group, only when another group lists the item,
unless the item is left without records of its own. -/
def LeavesListed (state : Associations ι γ) : Change ι γ → Prop
  | .removeGroup removed =>
      ∀ i g, state.item i → state.linked i g →
        ∃ other, other ≠ removed ∧ state.group other ∧ state.listed other i
  | .unlink group item =>
      ∀ g, g ≠ group → state.item item → state.linked item g →
        ∃ other, other ≠ group ∧ state.group other ∧ state.listed other item
  | _ => True

theorem linked_listed_apply_iff (anchored : state.Anchored) (used : state.LinkedListed)
    (valid : state.Valid change) :
    (state.apply change).LinkedListed ↔ state.LeavesListed change := by
  cases change with
  | keep => exact iff_of_true used trivial
  | addItem added =>
      apply iff_of_true _ trivial
      intro i g stored linked
      exact used i g (anchored.linked i g linked) linked
  | removeItems removed =>
      apply iff_of_true _ trivial
      intro i g stored linked
      exact used i g stored.2 linked.2
  | addGroup added =>
      apply iff_of_true _ trivial
      intro i g stored linked
      obtain ⟨other, existing, listed⟩ := used i g stored linked
      exact ⟨other, Or.inr existing, listed⟩
  | removeGroup removed =>
      constructor
      · intro still i g stored linked
        obtain ⟨other, ⟨apart, existing⟩, _, listed⟩ := still i g stored linked
        exact ⟨other, apart, existing, listed⟩
      · intro leaves i g stored linked
        obtain ⟨other, apart, existing, listed⟩ := leaves i g stored linked
        exact ⟨other, ⟨apart, existing⟩, apart, listed⟩
  | link group item =>
      apply iff_of_true _ trivial
      rintro i g stored (⟨rfl, rfl⟩ | linked)
      · exact ⟨g, valid.1, Or.inl ⟨rfl, rfl⟩⟩
      · obtain ⟨other, existing, listed⟩ := used i g stored linked
        exact ⟨other, existing, Or.inr listed⟩
  | unlink group item =>
      constructor
      · intro still g apart stored linked
        obtain ⟨other, existing, different, listed⟩ :=
          still item g stored ⟨fun same => apart same.2, linked⟩
        exact ⟨other, fun same => different ⟨same, rfl⟩, existing, listed⟩
      · rintro leaves i g stored ⟨different, linked⟩
        by_cases same : i = item
        · subst same
          obtain ⟨other, apart, existing, listed⟩ :=
            leaves g (fun isGroup => different ⟨rfl, isGroup⟩) stored linked
          exact ⟨other, existing, fun both => apart both.1, listed⟩
        · obtain ⟨other, existing, listed⟩ := used i g stored linked
          exact ⟨other, existing, fun both => same both.2, listed⟩
  | clear =>
      apply iff_of_true _ trivial
      exact fun _ _ stored => stored.elim

end Used

end Associations

end Foundation
