import Relevanced.Foundation.Machine

/-!
# Reloads of one centroid

`SimilarityScoreWorker::reloadCentroid` reads the stored centroid on one thread and
inserts it into the map on another, without looking at what the map holds. The vectors
saved for the centroid are numbered here in the order of their saves, so that "older"
is a comparison of numbers. Nodes are never taken out of the map.
-/

namespace Relevanced.SimilarityScoreWorker

open Foundation

set_option autoImplicit false

structure Saved (V : Type) where
  centroid : V
  version : Nat
  deriving DecidableEq

/-- Where a call of `reloadCentroid` stands: before its load, before `accessor.find`, and with
the outcome of that before the write. -/
inductive ReloadStage (V : Type) where
  | submitted
  | loaded (centroid : Saved V)
  | updating (centroid : Saved V)
  | adding (centroid : Saved V)
  | finished
  deriving DecidableEq

structure CentroidCache (V : Type) where
  stored : Option (Saved V)
  held : Option (Saved V)
  reloads : List (ReloadStage V)
  /-- A reload has been started since the last save. -/
  reloadedSince : Bool

namespace CentroidCache

variable {V : Type}

/-- `initialize` has put what is stored into the map. -/
def initialized (centroid : Option V) : CentroidCache V where
  stored := centroid.map fun value => ⟨value, 0⟩
  held := centroid.map fun value => ⟨value, 0⟩
  reloads := []
  reloadedSince := false

def nextVersion (cache : CentroidCache V) : Nat :=
  match cache.stored with
  | none => 0
  | some last => last.version + 1

def saveCentroid (cache : CentroidCache V) (centroid : V) : CentroidCache V :=
  { cache with stored := some ⟨centroid, cache.nextVersion⟩, reloadedSince := false }

def reloadCentroid (cache : CentroidCache V) : CentroidCache V :=
  { cache with reloads := cache.reloads ++ [.submitted], reloadedSince := true }

def setReload (cache : CentroidCache V) (index : Nat) (stage : ReloadStage V) :
    CentroidCache V :=
  { cache with reloads := cache.reloads.set index stage }

/-- `loadCentroidUniqueOption`; a reload of nothing ends here. -/
def load (cache : CentroidCache V) (index : Nat) : Option (CentroidCache V) :=
  match cache.reloads[index]? with
  | some .submitted =>
      match cache.stored with
      | none => some (cache.setReload index .finished)
      | some centroid => some (cache.setReload index (.loaded centroid))
  | _ => none

/-- The look-up `insertOrUpdate` begins with. -/
def find (cache : CentroidCache V) (index : Nat) : Option (CentroidCache V) :=
  match cache.reloads[index]? with
  | some (.loaded centroid) =>
      match cache.held with
      | none => some (cache.setReload index (.adding centroid))
      | some _ => some (cache.setReload index (.updating centroid))
  | _ => none

/-- `setValue` on the item found, or `addOrGetData`, which keeps an item added meanwhile. -/
def insertOrUpdate (cache : CentroidCache V) (index : Nat) : Option (CentroidCache V) :=
  match cache.reloads[index]? with
  | some (.updating centroid) => some { cache.setReload index .finished with held := some centroid }
  | some (.adding centroid) =>
      match cache.held with
      | none => some { cache.setReload index .finished with held := some centroid }
      | some _ => some (cache.setReload index .finished)
  | _ => none

end CentroidCache

inductive CacheAction (V : Type) where
  | saveCentroid (centroid : V)
  | reloadCentroid
  | load (index : Nat)
  | find (index : Nat)
  | insertOrUpdate (index : Nat)

def cacheMachine (V : Type) : Machine (CentroidCache V) (CacheAction V) where
  step cache
    | .saveCentroid centroid => some (cache.saveCentroid centroid)
    | .reloadCentroid => some cache.reloadCentroid
    | .load index => cache.load index
    | .find index => cache.find index
    | .insertOrUpdate index => cache.insertOrUpdate index

/-- One constructor for each thing a step can do. -/
inductive CacheStep {V : Type} (cache : CentroidCache V) :
    CacheAction V → CentroidCache V → Prop where
  | saveCentroid (centroid : V) :
      CacheStep cache (.saveCentroid centroid) (cache.saveCentroid centroid)
  | reloadCentroid : CacheStep cache .reloadCentroid cache.reloadCentroid
  | loadNothing (index : Nat) (found : cache.reloads[index]? = some .submitted)
      (empty : cache.stored = none) :
      CacheStep cache (.load index) (cache.setReload index .finished)
  | load (index : Nat) (centroid : Saved V) (found : cache.reloads[index]? = some .submitted)
      (stored : cache.stored = some centroid) :
      CacheStep cache (.load index) (cache.setReload index (.loaded centroid))
  | findNone (index : Nat) (centroid : Saved V)
      (found : cache.reloads[index]? = some (.loaded centroid)) (absent : cache.held = none) :
      CacheStep cache (.find index) (cache.setReload index (.adding centroid))
  | find (index : Nat) (centroid : Saved V)
      (found : cache.reloads[index]? = some (.loaded centroid)) :
      CacheStep cache (.find index) (cache.setReload index (.updating centroid))
  | setValue (index : Nat) (centroid : Saved V)
      (found : cache.reloads[index]? = some (.updating centroid)) :
      CacheStep cache (.insertOrUpdate index)
        { cache.setReload index .finished with held := some centroid }
  | add (index : Nat) (centroid : Saved V)
      (found : cache.reloads[index]? = some (.adding centroid)) (absent : cache.held = none) :
      CacheStep cache (.insertOrUpdate index)
        { cache.setReload index .finished with held := some centroid }
  | getAdded (index : Nat) (centroid other : Saved V)
      (found : cache.reloads[index]? = some (.adding centroid))
      (added : cache.held = some other) :
      CacheStep cache (.insertOrUpdate index) (cache.setReload index .finished)

section Steps

variable {V : Type} {cache next : CentroidCache V} {action : CacheAction V}

theorem cache_step_cases (stepped : (cacheMachine V).step cache action = some next) :
    CacheStep cache action next := by
  cases action with
  | saveCentroid centroid =>
      cases stepped
      exact .saveCentroid centroid
  | reloadCentroid =>
      cases stepped
      exact .reloadCentroid
  | load index =>
      change cache.load index = some next at stepped
      unfold CentroidCache.load at stepped
      split at stepped
      · rename_i found
        split at stepped
        · rename_i empty
          cases stepped
          exact .loadNothing index found empty
        · rename_i centroid stored
          cases stepped
          exact .load index centroid found stored
      · cases stepped
  | find index =>
      change cache.find index = some next at stepped
      unfold CentroidCache.find at stepped
      split at stepped
      · rename_i centroid found
        split at stepped
        · rename_i absent
          cases stepped
          exact .findNone index centroid found absent
        · cases stepped
          exact .find index centroid found
      · cases stepped
  | insertOrUpdate index =>
      change cache.insertOrUpdate index = some next at stepped
      unfold CentroidCache.insertOrUpdate at stepped
      split at stepped
      · rename_i centroid found
        cases stepped
        exact .setValue index centroid found
      · rename_i centroid found
        split at stepped
        · rename_i absent
          cases stepped
          exact .add index centroid found absent
        · rename_i other added
          cases stepped
          exact .getAdded index centroid other found added
      · cases stepped

end Steps

section Freshness

variable {V : Type}

def ReloadStage.carried : ReloadStage V → Option (Saved V)
  | .submitted => none
  | .loaded centroid => some centroid
  | .updating centroid => some centroid
  | .adding centroid => some centroid
  | .finished => none

/-- A reload does not write over a newer centroid, and none is dropped in favour of an older. -/
def InOrder (cache : CentroidCache V) : CacheAction V → Prop
  | .insertOrUpdate index =>
      match cache.reloads[index]? with
      | some (.updating centroid) => ∀ held ∈ cache.held, held.version ≤ centroid.version
      | some (.adding centroid) => ∀ added ∈ cache.held, centroid.version ≤ added.version
      | _ => True
  | _ => True

instance (cache : CentroidCache V) (action : CacheAction V) : Decidable (InOrder cache action) := by
  cases action with
  | insertOrUpdate index =>
      unfold InOrder
      dsimp only
      split <;> infer_instance
  | _ => exact isTrue trivial

/-- With no reload in flight and one started since the last save, the map holds what that saved. -/
def CurrentAtRest (cache : CentroidCache V) : Prop :=
  (∀ stage ∈ cache.reloads, stage = .finished) → cache.reloadedSince = true →
    cache.held.map Saved.centroid = cache.stored.map Saved.centroid

def NotNewer (stored : Option (Saved V)) (centroid : Saved V) : Prop :=
  ∃ last, stored = some last ∧ (centroid = last ∨ centroid.version < last.version)

/-- The reload is going to offer the stored centroid to the map. -/
def Coming (stored : Option (Saved V)) (stage : ReloadStage V) : Prop :=
  stage = .submitted ∨ ∃ centroid, stage.carried = some centroid ∧ stored = some centroid

structure CentroidCache.Sound (cache : CentroidCache V) : Prop where
  held : ∀ centroid, cache.held = some centroid → NotNewer cache.stored centroid
  carried : ∀ (index : Nat) (stage : ReloadStage V), cache.reloads[index]? = some stage →
    ∀ centroid, stage.carried = some centroid → NotNewer cache.stored centroid
  coming : cache.reloadedSince = true → cache.held = cache.stored ∨
    ∃ (index : Nat) (stage : ReloadStage V),
      cache.reloads[index]? = some stage ∧ Coming cache.stored stage

theorem cache_sound_initialized (centroid : Option V) :
    (CentroidCache.initialized centroid).Sound where
  held saved isHeld := ⟨saved, isHeld, Or.inl rfl⟩
  carried index stage found := by cases found
  coming := nofun

theorem not_newer_save {cache : CentroidCache V} {centroid : Saved V} (value : V)
    (notNewer : NotNewer cache.stored centroid) :
    NotNewer (cache.saveCentroid value).stored centroid := by
  obtain ⟨last, isLast, same | older⟩ := notNewer
  · refine ⟨_, rfl, Or.inr ?_⟩
    simp only [CentroidCache.nextVersion, isLast, same]
    omega
  · refine ⟨_, rfl, Or.inr ?_⟩
    simp only [CentroidCache.nextVersion, isLast]
    omega

theorem eq_of_not_newer {stored : Option (Saved V)} {centroid last : Saved V}
    (notNewer : NotNewer stored centroid) (isLast : stored = some last)
    (notOlder : last.version ≤ centroid.version) : centroid = last := by
  obtain ⟨other, isOther, same | older⟩ := notNewer
  · rw [isLast] at isOther
    cases isOther
    exact same
  · rw [isLast] at isOther
    cases isOther
    omega

theorem found_after_set {reloads : List (ReloadStage V)} {index position : Nat}
    {stage later : ReloadStage V}
    (found : (reloads.set index later)[position]? = some stage) :
    stage = later ∨ position ≠ index ∧ reloads[position]? = some stage := by
  rw [List.getElem?_set] at found
  split at found
  · split at found
    · exact Or.inl (Option.some.inj found).symm
    · cases found
  · rename_i other
    exact Or.inr ⟨Ne.symm other, found⟩

section Moves

variable {cache : CentroidCache V} {index : Nat} {stage later : ReloadStage V}

theorem set_reload_at (found : cache.reloads[index]? = some stage) :
    (cache.setReload index later).reloads[index]? = some later :=
  List.getElem?_set_self (List.getElem?_eq_some_iff.mp found).1

theorem set_reload_ne {position : Nat} (other : position ≠ index) :
    (cache.setReload index later).reloads[position]? = cache.reloads[position]? :=
  List.getElem?_set_ne (Ne.symm other)

theorem carried_after_move (sound : cache.Sound)
    (moved : ∀ centroid, later.carried = some centroid → NotNewer cache.stored centroid)
    (position : Nat) (other : ReloadStage V)
    (found : (cache.setReload index later).reloads[position]? = some other) (centroid : Saved V)
    (carries : other.carried = some centroid) : NotNewer cache.stored centroid := by
  rcases found_after_set found with same | ⟨_, before⟩
  · subst same
    exact moved centroid carries
  · exact sound.carried position other before centroid carries

theorem coming_after_move (sound : cache.Sound) (found : cache.reloads[index]? = some stage)
    (kept : Coming cache.stored stage → cache.held = cache.stored ∨ Coming cache.stored later)
    (since : cache.reloadedSince = true) :
    cache.held = cache.stored ∨ ∃ (position : Nat) (other : ReloadStage V),
      (cache.setReload index later).reloads[position]? = some other ∧
        Coming cache.stored other := by
  rcases sound.coming since with current | ⟨position, other, present, coming⟩
  · exact Or.inl current
  · by_cases same : position = index
    · subst same
      rw [found] at present
      cases present
      rcases kept coming with current | still
      · exact Or.inl current
      · exact Or.inr ⟨position, later, set_reload_at found, still⟩
    · exact Or.inr ⟨position, other, (set_reload_ne same).trans present, coming⟩

/-- What is coming stays so when a reload writes, unless it was that reload's to bring. -/
theorem coming_after_write (sound : cache.Sound) (found : cache.reloads[index]? = some stage)
    {centroid : Saved V} (carries : stage.carried = some centroid)
    (kept : cache.held = cache.stored → cache.stored = some centroid)
    (since : cache.reloadedSince = true) :
    some centroid = cache.stored ∨ ∃ (position : Nat) (other : ReloadStage V),
      (cache.setReload index .finished).reloads[position]? = some other ∧
        Coming cache.stored other := by
  rcases sound.coming since with current | ⟨position, other, present, coming⟩
  · exact Or.inl (kept current).symm
  · by_cases same : position = index
    · subst same
      rw [found] at present
      cases present
      rcases coming with submitted | ⟨brought, isCarried, isStored⟩
      · rw [submitted] at carries
        cases carries
      · rw [carries] at isCarried
        cases isCarried
        exact Or.inl isStored.symm
    · exact Or.inr ⟨position, other, (set_reload_ne same).trans present, coming⟩

end Moves

section Runs

variable {cache next : CentroidCache V} {action : CacheAction V}

theorem sound_after_write (sound : cache.Sound) {index : Nat} {stage : ReloadStage V}
    (found : cache.reloads[index]? = some stage) {centroid : Saved V}
    (carries : stage.carried = some centroid)
    (notOlder : ∀ held, cache.held = some held → held.version ≤ centroid.version) :
    ({ cache.setReload index .finished with held := some centroid } : CentroidCache V).Sound where
  held saved isHeld := by
    cases isHeld
    exact sound.carried index stage found centroid carries
  carried := carried_after_move sound nofun
  coming := by
    apply coming_after_write sound found carries
    intro current
    obtain ⟨last, isLast, _⟩ := sound.carried index stage found centroid carries
    rw [isLast] at current
    rw [isLast, eq_of_not_newer (sound.carried index stage found centroid carries) isLast
      (notOlder last current)]

theorem sound_after_find (sound : cache.Sound) {index : Nat} {centroid : Saved V}
    (found : cache.reloads[index]? = some (.loaded centroid)) {later : ReloadStage V}
    (carries : later.carried = some centroid) : (cache.setReload index later).Sound where
  held := sound.held
  carried := by
    apply carried_after_move sound
    intro saved alsoCarries
    rw [carries] at alsoCarries
    exact sound.carried index (.loaded centroid) found saved alsoCarries
  coming := by
    apply coming_after_move sound found
    intro coming
    rcases coming with submitted | ⟨brought, isCarried, isStored⟩
    · cases submitted
    · exact Or.inr (Or.inr ⟨brought, carries.trans isCarried, isStored⟩)

theorem CentroidCache.Sound.step (sound : cache.Sound) (inOrder : InOrder cache action)
    (stepped : CacheStep cache action next) : next.Sound := by
  cases stepped with
  | saveCentroid centroid =>
      constructor
      · intro saved isHeld
        exact not_newer_save centroid (sound.held saved isHeld)
      · intro index stage found saved carries
        exact not_newer_save centroid (sound.carried index stage found saved carries)
      · exact nofun
  | reloadCentroid =>
      constructor
      · exact sound.held
      · intro index stage found saved carries
        have found : (cache.reloads ++ [.submitted])[index]? = some stage := found
        rw [List.getElem?_append] at found
        split at found
        · exact sound.carried index stage found saved carries
        · cases List.mem_singleton.mp (List.mem_of_getElem? found)
          cases carries
      · intro _
        exact Or.inr ⟨cache.reloads.length, .submitted, List.getElem?_concat_length, Or.inl rfl⟩
  | loadNothing index found empty =>
      have nothingHeld : cache.held = none := by
        apply Option.eq_none_iff_forall_ne_some.mpr
        intro saved isHeld
        obtain ⟨last, isLast, _⟩ := sound.held saved isHeld
        rw [empty] at isLast
        cases isLast
      constructor
      · exact sound.held
      · exact carried_after_move sound nofun
      · intro _
        exact Or.inl (nothingHeld.trans empty.symm)
  | load index centroid found stored =>
      constructor
      · exact sound.held
      · apply carried_after_move sound
        intro saved carries
        cases carries
        exact ⟨centroid, stored, Or.inl rfl⟩
      · apply coming_after_move sound found
        intro _
        exact Or.inr (Or.inr ⟨centroid, rfl, stored⟩)
  | findNone index centroid found absent => exact sound_after_find sound found rfl
  | find index centroid found => exact sound_after_find sound found rfl
  | setValue index centroid found =>
      apply sound_after_write sound found rfl
      intro held isHeld
      simp only [InOrder, found] at inOrder
      exact inOrder held isHeld
  | add index centroid found absent =>
      apply sound_after_write sound found rfl
      intro held isHeld
      rw [absent] at isHeld
      cases isHeld
  | getAdded index centroid other found added =>
      simp only [InOrder, found] at inOrder
      constructor
      · exact sound.held
      · exact carried_after_move sound nofun
      · apply coming_after_move sound found
        intro coming
        rcases coming with submitted | ⟨brought, isCarried, isStored⟩
        · cases submitted
        · cases isCarried
          have same := eq_of_not_newer (sound.held other added) isStored (inOrder other added)
          exact Or.inl (by rw [added, isStored, same])

theorem current_of_sound (sound : cache.Sound) : CurrentAtRest cache := by
  intro atRest since
  rcases sound.coming since with current | ⟨index, stage, found, coming⟩
  · rw [current]
  · have finished := atRest stage (List.mem_of_getElem? found)
    subst finished
    rcases coming with submitted | ⟨brought, isCarried, _⟩
    · cases submitted
    · cases isCarried

/-- In every run in which no reload writes over a newer centroid or is dropped in favour of an
older one, the map holds the last saved centroid whenever it should. -/
theorem current_of_reloads_in_order (centroid : Option V) (actions : List (CacheAction V))
    (inOrder : (cacheMachine V).Guarded InOrder actions (.initialized centroid)) :
    (cacheMachine V).Along CurrentAtRest actions (.initialized centroid) := by
  have preserved : ∀ (cache : CentroidCache V) (action : CacheAction V) (next : CentroidCache V),
      cache.Sound → True → InOrder cache action →
      (cacheMachine V).step cache action = some next → next.Sound :=
    fun cache action next sound _ guarded stepped => sound.step guarded (cache_step_cases stepped)
  exact Machine.along_of_guarded preserved (fun _ sound => current_of_sound sound) actions
    (fun _ _ => trivial) (cache_sound_initialized centroid) inOrder

end Runs

end Freshness

/-- Two saves, each followed by a reload; the reloads write in the order of their loads. -/
def reloadedInOrder : List (CacheAction Nat) :=
  [.saveCentroid 1, .reloadCentroid, .load 0, .find 0, .saveCentroid 2, .reloadCentroid, .load 1,
    .insertOrUpdate 0, .find 1, .insertOrUpdate 1]

theorem reloaded_in_order_is_current :
    (cacheMachine Nat).Along CurrentAtRest reloadedInOrder (.initialized (some 0)) :=
  current_of_reloads_in_order (some 0) reloadedInOrder (by decide)

/-- The first reload loads the first save and writes it after the second reload has written. -/
theorem older_load_written_last_is_not_current :
    ∃ cache, (cacheMachine Nat).exec
        [.saveCentroid 1, .reloadCentroid, .load 0, .find 0, .saveCentroid 2, .reloadCentroid,
          .load 1, .find 1, .insertOrUpdate 1, .insertOrUpdate 0] (.initialized (some 0)) =
        some cache ∧ ¬ CurrentAtRest cache := by
  refine ⟨_, rfl, ?_⟩
  intro current
  have same := current (by decide) rfl
  exact absurd same (by decide)

end Relevanced.SimilarityScoreWorker
