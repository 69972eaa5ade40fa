import Mathlib.Logic.Function.Basic

/-!
# Caches that are filled on demand

What is asked for under a key is made at the first request and handed out again at every
later one. The maker is told how many have been made before, so that the things made can
be told apart.
-/

namespace Foundation

set_option autoImplicit false

structure Cache (κ ν : Type) where
  stored : κ → Option ν
  made : Nat

namespace Cache

variable {κ ν : Type}

def empty : Cache κ ν where
  stored _ := none
  made := 0

variable [DecidableEq κ] (make : Nat → κ → ν)

def request (cache : Cache κ ν) (key : κ) : ν × Cache κ ν :=
  match cache.stored key with
  | some found => (found, cache)
  | none =>
      let created := make cache.made key
      (created, ⟨Function.update cache.stored key (some created), cache.made + 1⟩)

def answers : List κ → Cache κ ν → List ν
  | [], _ => []
  | key :: keys, cache => (cache.request make key).1 :: answers keys (cache.request make key).2

variable {make} {cache : Cache κ ν} {key : κ} {value : ν}

theorem stored_after_request (cache : Cache κ ν) (key : κ) :
    (cache.request make key).2.stored key = some (cache.request make key).1 := by
  rw [request]
  split
  · assumption
  · simp

theorem stored_kept (stored : cache.stored key = some value) (other : κ) :
    (cache.request make other).2.stored key = some value := by
  rw [request]
  split
  · exact stored
  · rename_i absent
    have different : key ≠ other := by
      intro same
      rw [same, absent] at stored
      cases stored
    simpa [Function.update_of_ne different] using stored

theorem answer_of_stored (stored : cache.stored key = some value) {keys : List κ} {index : Nat}
    (asked : keys[index]? = some key) : (answers make keys cache)[index]? = some value := by
  induction keys generalizing cache index with
  | nil => simp at asked
  | cons head keys ih =>
      cases index with
      | zero =>
          simp only [List.getElem?_cons_zero, Option.some.injEq] at asked
          simp [answers, asked, request, stored]
      | succ index => exact ih (stored_kept stored head) asked

theorem answers_same {keys : List κ} {first second : Nat} (asked : keys[first]? = some key)
    (askedAgain : keys[second]? = some key) :
    (answers make keys cache)[first]? = (answers make keys cache)[second]? := by
  induction keys generalizing cache first second with
  | nil => simp at asked
  | cons head keys ih =>
      have after : ∀ index, keys[index]? = some head →
          (answers make (head :: keys) cache)[index + 1]? = some (cache.request make head).1 := by
        intro index later
        exact answer_of_stored (stored_after_request cache head) later
      cases first with
      | zero =>
          have same : head = key := Option.some.inj asked
          cases second with
          | zero => rfl
          | succ second => exact (after second (same ▸ askedAgain)).symm
      | succ first =>
          cases second with
          | zero =>
              have same : head = key := Option.some.inj askedAgain
              exact after first (same ▸ asked)
          | succ second => exact ih asked askedAgain

theorem answers_described {δ : Type} {describe : ν → δ} {expected : κ → δ}
    (ofMade : ∀ number key, describe (make number key) = expected key) (keys : List κ)
    (ofStored : ∀ key value, cache.stored key = some value → describe value = expected key) :
    (answers make keys cache).map describe = keys.map expected := by
  induction keys generalizing cache with
  | nil => rfl
  | cons head keys ih =>
      rw [answers, List.map_cons, List.map_cons]
      have later : ∀ key value, (cache.request make head).2.stored key = some value →
          describe value = expected key := by
        intro key value stored
        rw [request] at stored
        split at stored
        · exact ofStored key value stored
        · by_cases same : key = head
          · subst same
            simp only [Function.update_self, Option.some.injEq] at stored
            rw [← stored]
            exact ofMade cache.made key
          · simp only [Function.update_of_ne same] at stored
            exact ofStored key value stored
      have now : describe (cache.request make head).1 = expected head :=
        later head _ (stored_after_request cache head)
      rw [now, ih later]

end Cache

end Foundation
