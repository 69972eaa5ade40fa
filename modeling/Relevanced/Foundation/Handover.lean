import Mathlib.Init

/-!
# Items handed over by key

Items are registered under a key, and an agent that collects a key takes what has been
registered under it since the last time. The latest event stands first in a history.
-/

namespace Foundation

set_option autoImplicit false

inductive HandoverEvent (K A I : Type) where
  | registered (item : I) (key : K)
  | collected (agent : A) (key : K)
  | used (agent : A) (item : I)

variable {K A I : Type}

/-- The item has been registered under the key, and nobody has collected the key since. -/
def Waiting (item : I) (key : K) : List (HandoverEvent K A I) → Prop
  | [] => False
  | .registered other place :: earlier => (other = item ∧ place = key) ∨ Waiting item key earlier
  | .collected _ place :: earlier => place ≠ key ∧ Waiting item key earlier
  | .used _ _ :: earlier => Waiting item key earlier

/-- The agent is the first to have collected the key after the item was registered under it. -/
def Handed (agent : A) (item : I) (key : K) : List (HandoverEvent K A I) → Prop
  | [] => False
  | .registered _ _ :: earlier => Handed agent item key earlier
  | .collected collector place :: earlier =>
      (collector = agent ∧ place = key ∧ Waiting item key earlier) ∨ Handed agent item key earlier
  | .used _ _ :: earlier => Handed agent item key earlier

def RegisteredOnce : List (HandoverEvent K A I) → Prop
  | [] => True
  | .registered item _ :: earlier =>
      (∀ key, .registered item key ∉ earlier) ∧ RegisteredOnce earlier
  | .collected _ _ :: earlier => RegisteredOnce earlier
  | .used _ _ :: earlier => RegisteredOnce earlier

/-- Whatever is used was handed to its user before, and had not been used. -/
def UsedOnce : List (HandoverEvent K A I) → Prop
  | [] => True
  | .registered _ _ :: earlier => UsedOnce earlier
  | .collected _ _ :: earlier => UsedOnce earlier
  | .used agent item :: earlier =>
      (∃ key, Handed agent item key earlier) ∧ (∀ other, .used other item ∉ earlier) ∧
        UsedOnce earlier

variable {history : List (HandoverEvent K A I)} {item : I} {key place : K} {agent other : A}

theorem registered_of_waiting (waiting : Waiting item key history) :
    .registered item key ∈ history := by
  induction history with
  | nil => exact False.elim waiting
  | cons event earlier ih =>
      cases event with
      | registered registered under =>
          rcases waiting with ⟨rfl, rfl⟩ | before
          · exact List.mem_cons_self
          · exact List.mem_cons_of_mem _ (ih before)
      | collected collector under => exact List.mem_cons_of_mem _ (ih waiting.2)
      | used user taken => exact List.mem_cons_of_mem _ (ih waiting)

theorem registered_of_handed (handed : Handed agent item key history) :
    .registered item key ∈ history := by
  induction history with
  | nil => exact False.elim handed
  | cons event earlier ih =>
      cases event with
      | registered registered under => exact List.mem_cons_of_mem _ (ih handed)
      | collected collector under =>
          rcases handed with ⟨_, _, waiting⟩ | before
          · exact List.mem_cons_of_mem _ (registered_of_waiting waiting)
          · exact List.mem_cons_of_mem _ (ih before)
      | used user taken => exact List.mem_cons_of_mem _ (ih handed)

theorem key_unique (once : RegisteredOnce history) (first : .registered item key ∈ history)
    (second : .registered item place ∈ history) : key = place := by
  induction history with
  | nil => cases first
  | cons event earlier ih =>
      cases event with
      | registered registered under =>
          rcases List.mem_cons.mp first with same | firstBefore
          · cases same
            rcases List.mem_cons.mp second with same | secondBefore
            · cases same
              rfl
            · exact absurd secondBefore (once.1 place)
          · rcases List.mem_cons.mp second with same | secondBefore
            · cases same
              exact absurd firstBefore (once.1 key)
            · exact ih once.2 firstBefore secondBefore
      | collected collector under =>
          exact ih once ((List.mem_cons.mp first).resolve_left nofun)
            ((List.mem_cons.mp second).resolve_left nofun)
      | used user taken =>
          exact ih once ((List.mem_cons.mp first).resolve_left nofun)
            ((List.mem_cons.mp second).resolve_left nofun)

theorem not_handed_of_waiting (once : RegisteredOnce history) (waiting : Waiting item key history) :
    ¬ Handed agent item place history := by
  induction history with
  | nil => exact False.elim waiting
  | cons event earlier ih =>
      intro handed
      cases event with
      | registered registered under =>
          rcases waiting with ⟨rfl, rfl⟩ | before
          · exact once.1 place (registered_of_handed handed)
          · exact ih once.2 before handed
      | collected collector under =>
          rcases handed with ⟨_, same, waitingThere⟩ | before
          · have onceBefore : RegisteredOnce earlier := once
            have samePlace := key_unique onceBefore (registered_of_waiting waiting.2)
              (registered_of_waiting waitingThere)
            exact waiting.1 (same.trans samePlace.symm)
          · exact ih once waiting.2 before
      | used user taken => exact ih once waiting handed

theorem handed_unique (once : RegisteredOnce history) (first : Handed agent item key history)
    (second : Handed other item place history) : agent = other ∧ key = place := by
  induction history with
  | nil => exact False.elim first
  | cons event earlier ih =>
      cases event with
      | registered registered under => exact ih once.2 first second
      | collected collector under =>
          rcases first with ⟨rfl, rfl, waiting⟩ | firstBefore
          · rcases second with ⟨rfl, rfl, _⟩ | secondBefore
            · exact ⟨rfl, rfl⟩
            · exact absurd secondBefore (not_handed_of_waiting once waiting)
          · rcases second with ⟨_, _, waiting⟩ | secondBefore
            · exact absurd firstBefore (not_handed_of_waiting once waiting)
            · exact ih once firstBefore secondBefore
      | used user taken => exact ih once first second

theorem handed_of_used (once : UsedOnce history) (used : .used agent item ∈ history) :
    ∃ key, Handed agent item key history := by
  induction history with
  | nil => cases used
  | cons event earlier ih =>
      cases event with
      | registered registered under =>
          obtain ⟨key, handed⟩ := ih once ((List.mem_cons.mp used).resolve_left nofun)
          exact ⟨key, handed⟩
      | collected collector under =>
          obtain ⟨key, handed⟩ := ih once ((List.mem_cons.mp used).resolve_left nofun)
          exact ⟨key, Or.inr handed⟩
      | used user taken =>
          rcases List.mem_cons.mp used with same | before
          · cases same
            exact once.1
          · exact ih once.2.2 before

theorem not_used_of_waiting (registeredOnce : RegisteredOnce history) (usedOnce : UsedOnce history)
    (waiting : Waiting item key history) : .used agent item ∉ history := by
  intro used
  obtain ⟨place, handed⟩ := handed_of_used usedOnce used
  exact not_handed_of_waiting registeredOnce waiting handed

end Foundation
