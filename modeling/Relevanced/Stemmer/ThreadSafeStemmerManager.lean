import Relevanced.Foundation.Cache
import Relevanced.Models

/-!
# ThreadSafeStemmerManager

Each thread has its own map from languages to stemmers. A stemmer is known by its
number and by the name that `sb_stemmer_new` has created it under.
-/

namespace Relevanced.Stemmer

open Foundation
open Models

set_option autoImplicit false

def countryCodeOfThriftLanguage : Language → String
  | .de => "de"
  | .en => "en"
  | .es => "es"
  | .fr => "fr"
  | .it => "it"
  | .ru => "ru"
  | .other => "OTHER"
  | .unlisted _ => "UNKNOWN"

structure Utf8Stemmer where
  number : Nat
  algorithm : String
  deriving DecidableEq

/-- The constructor: `strcmp` is true of different strings. -/
def Utf8Stemmer.new (number : Nat) (lang : Language) : Utf8Stemmer where
  number := number
  algorithm :=
    let countryCode := countryCodeOfThriftLanguage lang
    if countryCode ≠ "UNKNOWN" then "en" else countryCode

/-- The maps of the threads, and how many stemmers have been made. -/
structure ThreadSafeStemmerManager where
  stemmers : Nat → Language → Option Utf8Stemmer
  created : Nat

/-- A call of `getStemmer`, and the thread that makes it. -/
structure Request where
  thread : Nat
  lang : Language
  deriving DecidableEq

namespace ThreadSafeStemmerManager

def new : ThreadSafeStemmerManager where
  stemmers _ _ := none
  created := 0

def getStemmer (manager : ThreadSafeStemmerManager) (thread : Nat) (lang : Language) :
    Utf8Stemmer × ThreadSafeStemmerManager :=
  match manager.stemmers thread lang with
  | some found => (found, manager)
  | none =>
      let created := Utf8Stemmer.new manager.created lang
      (created,
        { stemmers := Function.update manager.stemmers thread
            (Function.update (manager.stemmers thread) lang (some created))
          created := manager.created + 1 })

/-- The stemmers that some calls return, in the order in which the calls happen. -/
def returned : List Request → ThreadSafeStemmerManager → List Utf8Stemmer
  | [], _ => []
  | request :: requests, manager =>
      let (stemmer, manager) := manager.getStemmer request.thread request.lang
      stemmer :: returned requests manager

def make (number : Nat) (request : Request) : Utf8Stemmer := .new number request.lang

/-- The maps of all threads as one. -/
def cache (manager : ThreadSafeStemmerManager) : Cache Request Utf8Stemmer where
  stored request := manager.stemmers request.thread request.lang
  made := manager.created

theorem get_stemmer_cache (manager : ThreadSafeStemmerManager) (request : Request) :
    (manager.getStemmer request.thread request.lang).1 = (manager.cache.request make request).1 ∧
      (manager.getStemmer request.thread request.lang).2.cache =
        (manager.cache.request make request).2 := by
  cases found : manager.stemmers request.thread request.lang with
  | some stemmer => simp [getStemmer, Cache.request, cache, found]
  | none =>
      simp only [getStemmer, Cache.request, cache, found]
      refine ⟨rfl, ?_⟩
      simp only [Cache.mk.injEq, and_true]
      funext other
      by_cases same : other = request
      · subst same
        simp [make]
      · rw [Function.update_of_ne same]
        by_cases sameThread : other.thread = request.thread
        · have otherLang : other.lang ≠ request.lang := by
            intro sameLang
            apply same
            cases other
            cases request
            simp_all
          rw [sameThread, Function.update_self, Function.update_of_ne otherLang]
        · rw [Function.update_of_ne sameThread]

theorem returned_eq_answers (requests : List Request) (manager : ThreadSafeStemmerManager) :
    returned requests manager = manager.cache.answers make requests := by
  induction requests generalizing manager with
  | nil => rfl
  | cons request requests ih =>
      obtain ⟨same, sameLater⟩ := get_stemmer_cache manager request
      rw [returned, Cache.answers, ← same, ← sameLater, ← ih]

/-- The languages that have stemming rules. -/
def supported : List Language := [.de, .en, .es, .fr, .it, .ru]

/-- Each call returns a stemmer of its language, and the same one as every other call for the
language on the thread. -/
structure StemmersMatch (requests : List Request) : Prop where
  language : (returned requests new).map (·.algorithm) =
    requests.map fun request => countryCodeOfThriftLanguage request.lang
  instances : ∀ (first second : Nat) (request : Request), requests[first]? = some request →
    requests[second]? = some request →
      (returned requests new)[first]? = (returned requests new)[second]?

theorem one_stemmer_each (requests : List Request) {first second : Nat} {request : Request}
    (asked : requests[first]? = some request) (askedAgain : requests[second]? = some request) :
    (returned requests new)[first]? = (returned requests new)[second]? := by
  rw [returned_eq_answers]
  exact Cache.answers_same asked askedAgain

/-- The fallback is taken for every language that has a code. -/
theorem returned_english {requests : List Request}
    (isSupported : ∀ request ∈ requests, request.lang ∈ supported) :
    (returned requests new).map (·.algorithm) = requests.map fun _ => "en" := by
  have described : (returned requests new).map (·.algorithm) =
      requests.map fun request => (Utf8Stemmer.new 0 request.lang).algorithm := by
    rw [returned_eq_answers]
    apply Cache.answers_described
    · intro number request
      rfl
    · intro request stemmer stored
      cases stored
  have english : ∀ lang ∈ supported, (Utf8Stemmer.new 0 lang).algorithm = "en" := by
    decide
  rw [described]
  exact List.map_congr_left fun request member => english request.lang (isSupported request member)

/-- The stemmers match the languages exactly when only English is asked for. -/
theorem stemmers_match_iff (requests : List Request)
    (isSupported : ∀ request ∈ requests, request.lang ∈ supported) :
    StemmersMatch requests ↔ ∀ request ∈ requests, request.lang = .en := by
  have code : ∀ lang ∈ supported, "en" = countryCodeOfThriftLanguage lang ↔ lang = .en := by
    decide
  have matching : (returned requests new).map (·.algorithm) =
      requests.map (fun request => countryCodeOfThriftLanguage request.lang) ↔
        ∀ request ∈ requests, request.lang = .en := by
    rw [returned_english isSupported, List.map_inj_left]
    apply forall₂_congr
    intro request member
    exact code request.lang (isSupported request member)
  constructor
  · exact fun isMatch => matching.mp isMatch.language
  · intro english
    constructor
    · exact matching.mpr english
    · exact fun _ _ _ asked askedAgain => one_stemmer_each requests asked askedAgain

/-- English on two threads, twice on the first one. -/
theorem english_matches : StemmersMatch [⟨0, .en⟩, ⟨1, .en⟩, ⟨0, .en⟩] :=
  (stemmers_match_iff _ (by decide)).mpr (by decide)

/-- German is stemmed as English. -/
theorem german_does_not_match :
    ¬ ∀ requests : List Request, (∀ request ∈ requests, request.lang ∈ supported) →
      StemmersMatch requests := by
  intro claim
  have matching := (claim [⟨0, .de⟩] (by decide)).language
  exact absurd matching (by decide)

end ThreadSafeStemmerManager

end Relevanced.Stemmer
