import Relevanced.Foundation.Entries
import Relevanced.Foundation.Machine
import Relevanced.Foundation.Tally

/-!
# MultiVersionPtr

The lock-free reference counting of `MultiVersionPtr` and its `Proxy`, one atomic
access at a time. A version is one `MultiVersionPtr` object with the `T` it owns, known
by the order of its allocation; addresses are not used again. Any thread may use any
proxy. What the code does not check is recorded: a step that touches a deleted version,
or a `T` deleted before, leaves a fault behind.
-/

namespace Relevanced.Util

open Foundation

set_option autoImplicit false

/-- One `MultiVersionPtr`, with how often it and its `T` have been deleted. -/
structure Version where
  usage : Nat
  /-- Some proxy has pointed at it. -/
  installed : Bool
  /-- Its count has been brought to zero. -/
  condemned : Bool
  valueDeletes : Nat
  deletes : Nat
  deriving DecidableEq

/-- Where a thread stands in a method of `Proxy`: the access it makes next. -/
inductive ProxyStage where
  | idle
  | copying (target source : Nat)
  | setting (proxy : Nat) (parent : Option Nat)
  | exchanging (proxy : Nat) (parent prevBase : Option Nat)
  | incrementing (parent : Nat) (prevBase : Option Nat)
  | decrementing (version : Nat)
  | deletingValue (version : Nat)
  | deleting (version : Nat)
  | clearing (proxy : Nat)
  | loading (proxy : Nat)
  | readingPtr (version : Nat)
  | readingValue (version : Nat)
  deriving DecidableEq

structure Pointers where
  versions : List Version
  /-- The `base` of every proxy. -/
  proxies : List (Option Nat)
  threads : List ProxyStage
  fault : Bool

/-- `size_t`. -/
def sizeBound : Nat := 2 ^ 64

namespace Pointers

def initial (threadCount : Nat) : Pointers where
  versions := []
  proxies := []
  threads := List.replicate threadCount .idle
  fault := false

def moveTo (pointers : Pointers) (thread : Nat) (stage : ProxyStage) : Pointers :=
  { pointers with threads := pointers.threads.set thread stage }

def setProxy (pointers : Pointers) (proxy : Nat) (base : Option Nat) : Pointers :=
  { pointers with proxies := pointers.proxies.set proxy base }

def setVersion (pointers : Pointers) (index : Nat) (version : Version) : Pointers :=
  { pointers with versions := pointers.versions.set index version }

/-- A step touches memory that may have been deleted. -/
def touch (pointers : Pointers) (deleted : Bool) : Pointers :=
  { pointers with fault := pointers.fault || deleted }

/-- The stage in which `decrCount` is called on what a proxy pointed at. -/
def dropping : Option Nat → ProxyStage
  | some version => .decrementing version
  | none => .idle

/-- The constructor calls `setBase` on the first proxy; no thread knows the new version yet. -/
def allocate (pointers : Pointers) : Pointers :=
  { pointers with versions := pointers.versions ++ [⟨0, false, false, 0, 0⟩] }

def construct (pointers : Pointers) : Pointers :=
  { pointers with proxies := pointers.proxies ++ [none] }

/-- An idle thread calls a method of a proxy. -/
def start (pointers : Pointers) (thread : Nat) (stage : ProxyStage) : Option Pointers :=
  match pointers.threads[thread]? with
  | some .idle => some (pointers.moveTo thread stage)
  | _ => none

/-- The compare-exchange of `setBase`, with what the proxy holds. -/
def exchange (pointers : Pointers) (thread proxy : Nat) (parent prevBase base : Option Nat) :
    Pointers :=
  if base = prevBase then
    match parent with
    | none => (pointers.setProxy proxy none).moveTo thread (dropping prevBase)
    | some version =>
        match pointers.versions[version]? with
        | some held =>
            ((pointers.setVersion version { held with installed := true }).setProxy proxy
              (some version)).moveTo thread (.incrementing version prevBase)
        | none => (pointers.setProxy proxy (some version)).moveTo thread
            (.incrementing version prevBase)
  else pointers.moveTo thread (.setting proxy parent)

/-- `usage_++`. -/
def incrCount (pointers : Pointers) (index : Nat) (version : Version) : Pointers :=
  (pointers.touch (version.deletes != 0)).setVersion index
    { version with usage := (version.usage + 1) % sizeBound }

/-- `usage_.fetch_sub(1) - 1`. -/
def fetchSub (usage : Nat) : Nat := (usage + (sizeBound - 1)) % sizeBound

/-- The `fetch_sub` of `decrCount`, and whether the count has come to zero. -/
def decrCount (pointers : Pointers) (thread index : Nat) (version : Version) : Pointers :=
  let count := fetchSub version.usage
  if count = 0 then
    ((pointers.touch (version.deletes != 0)).setVersion index
      { version with usage := count, condemned := true }).moveTo thread (.deletingValue index)
  else
    ((pointers.touch (version.deletes != 0)).setVersion index
      { version with usage := count }).moveTo thread .idle

/-- `delete ptr_; ptr_ = nullptr`. -/
def deleteValue (pointers : Pointers) (index : Nat) (version : Version) : Pointers :=
  (pointers.touch (version.deletes != 0 || version.valueDeletes != 0)).setVersion index
    { version with valueDeletes := version.valueDeletes + 1 }

/-- `delete currentBase`, after `decrCount` has returned zero. -/
def delete (pointers : Pointers) (index : Nat) (version : Version) : Pointers :=
  (pointers.touch (version.deletes != 0)).setVersion index
    { version with deletes := version.deletes + 1 }

/-- A thread that holds a `T*` reads through it. -/
def readValue (pointers : Pointers) (thread : Nat) : Option Pointers :=
  match pointers.threads[thread]? with
  | some (.readingValue index) =>
      pointers.versions[index]?.map fun version => pointers.touch (version.valueDeletes != 0)
  | _ => none

/-- The next access of a thread. -/
def advance (pointers : Pointers) (thread : Nat) : ProxyStage → Option Pointers
  | .idle => none
  | .copying target source =>
      pointers.proxies[source]?.map fun base => pointers.moveTo thread (.setting target base)
  | .setting proxy parent =>
      pointers.proxies[proxy]?.map fun base =>
        if base = parent then pointers.moveTo thread .idle
        else pointers.moveTo thread (.exchanging proxy parent base)
  | .exchanging proxy parent prevBase =>
      pointers.proxies[proxy]?.map fun base =>
        pointers.exchange thread proxy parent prevBase base
  | .incrementing parent prevBase =>
      pointers.versions[parent]?.map fun version =>
        (pointers.incrCount parent version).moveTo thread (dropping prevBase)
  | .decrementing index =>
      pointers.versions[index]?.map fun version => pointers.decrCount thread index version
  | .deletingValue index =>
      pointers.versions[index]?.map fun version =>
        (pointers.deleteValue index version).moveTo thread (.deleting index)
  | .deleting index =>
      pointers.versions[index]?.map fun version =>
        (pointers.delete index version).moveTo thread .idle
  | .clearing proxy =>
      pointers.proxies[proxy]?.map fun base =>
        (pointers.setProxy proxy none).moveTo thread (dropping base)
  | .loading proxy =>
      pointers.proxies[proxy]?.map fun base =>
        match base with
        | some version => pointers.moveTo thread (.readingPtr version)
        | none => pointers.moveTo thread .idle
  | .readingPtr index =>
      pointers.versions[index]?.map fun version =>
        (pointers.touch (version.deletes != 0)).moveTo thread (.readingValue index)
  | .readingValue index =>
      pointers.versions[index]?.map fun version =>
        (pointers.touch (version.valueDeletes != 0)).moveTo thread .idle

end Pointers

inductive PointerAction where
  | construct
  | copy (thread source : Nat)
  | assign (thread target source : Nat)
  | reset (thread proxy : Nat)
  | destroy (thread proxy : Nat)
  | read (thread proxy : Nat)
  | readAgain (thread : Nat)
  | advance (thread : Nat)
  deriving DecidableEq

namespace Pointers

def step (pointers : Pointers) : PointerAction → Option Pointers
  | .construct => some pointers.construct
  | .copy thread source =>
      pointers.construct.start thread (.copying pointers.proxies.length source)
  | .assign thread target source => pointers.start thread (.copying target source)
  | .reset thread proxy =>
      pointers.allocate.start thread (.setting proxy (some pointers.versions.length))
  | .destroy thread proxy => pointers.start thread (.clearing proxy)
  | .read thread proxy => pointers.start thread (.loading proxy)
  | .readAgain thread => pointers.readValue thread
  | .advance thread => pointers.threads[thread]?.bind fun stage => pointers.advance thread stage

end Pointers

def pointerMachine : Machine Pointers PointerAction where
  step := Pointers.step

namespace ProxyStage

/-- The thread has the pointer from another proxy, or from the constructor, for a proxy to be. -/
def installs (index : Nat) : ProxyStage → Nat
  | .setting _ parent => if parent = some index then 1 else 0
  | .exchanging _ parent _ => if parent = some index then 1 else 0
  | _ => 0

/-- The thread has made a proxy point at the version and has yet to count it. -/
def increments (index : Nat) : ProxyStage → Nat
  | .incrementing parent _ => if parent = index then 1 else 0
  | _ => 0

/-- The thread reads through a pointer it has from a proxy. -/
def reads (index : Nat) : ProxyStage → Nat
  | .readingPtr version => if version = index then 1 else 0
  | .readingValue version => if version = index then 1 else 0
  | _ => 0

/-- The thread has loaded the pointer and has not yet counted itself, or reads through it. -/
def Loaded (index : Nat) (stage : ProxyStage) : Prop :=
  stage.installs index + stage.increments index + stage.reads index ≠ 0

instance (index : Nat) (stage : ProxyStage) : Decidable (stage.Loaded index) :=
  inferInstanceAs (Decidable (_ ≠ 0))

/-- The thread has taken the version out of a proxy and has yet to discount it. -/
def decrements (index : Nat) : ProxyStage → Nat
  | .incrementing _ prevBase => if prevBase = some index then 1 else 0
  | .decrementing version => if version = index then 1 else 0
  | _ => 0

/-- The thread has to do with the version, other than to delete it. -/
def Uses (index : Nat) (stage : ProxyStage) : Prop :=
  stage.installs index + stage.increments index + stage.reads index + stage.decrements index ≠ 0

def empties (index : Nat) : ProxyStage → Nat
  | .deletingValue version => if version = index then 1 else 0
  | _ => 0

def deletes (index : Nat) : ProxyStage → Nat
  | .deleting version => if version = index then 1 else 0
  | _ => 0

end ProxyStage

/-- A `fetch_sub` that finds a count of at most one finds no thread that has loaded the pointer
and not yet counted itself, or reads through it; and no count overflows. -/
def CountsInTime (pointers : Pointers) : PointerAction → Prop
  | .advance thread =>
      match pointers.threads[thread]? with
      | some (.decrementing index) => ∀ version ∈ pointers.versions[index]?, version.usage ≤ 1 →
          ∀ stage ∈ pointers.threads, ¬ stage.Loaded index
      | some (.incrementing index _) => ∀ version ∈ pointers.versions[index]?,
          version.usage + 1 < sizeBound
      | _ => True
  | _ => True

instance (pointers : Pointers) (action : PointerAction) :
    Decidable (CountsInTime pointers action) := by
  cases action with
  | advance thread =>
      unfold CountsInTime
      dsimp only
      split <;> infer_instance
  | _ => exact isTrue trivial

/-- No step has touched a version, or its `T`, after it was deleted; neither has been deleted
twice; and once no thread is in a method of a proxy, what no proxy points at has been deleted. -/
structure HeldSafely (pointers : Pointers) : Prop where
  faultless : pointers.fault = false
  once : ∀ version ∈ pointers.versions, version.valueDeletes ≤ 1 ∧ version.deletes ≤ 1
  freed : (∀ stage ∈ pointers.threads, stage = .idle) →
    ∀ index version, pointers.versions[index]? = some version → some index ∉ pointers.proxies →
      version.valueDeletes = 1 ∧ version.deletes = 1

/-- A proxy points at the version. -/
def refers (index : Nat) (base : Option Nat) : Nat := if base = some index then 1 else 0

/-- How many proxies point at a version, and how many threads are about to do what with it. -/
structure Counts where
  refs : Nat
  installs : Nat
  increments : Nat
  reads : Nat
  decrements : Nat
  empties : Nat
  deletes : Nat

def Pointers.counts (pointers : Pointers) (index : Nat) : Counts where
  refs := tally (refers index) pointers.proxies
  installs := tally (ProxyStage.installs index) pointers.threads
  increments := tally (ProxyStage.increments index) pointers.threads
  reads := tally (ProxyStage.reads index) pointers.threads
  decrements := tally (ProxyStage.decrements index) pointers.threads
  empties := tally (ProxyStage.empties index) pointers.threads
  deletes := tally (ProxyStage.deletes index) pointers.threads

/-- No proxy points at the version, and no thread is about to use it. -/
def Counts.Unused (counts : Counts) : Prop :=
  counts.refs = 0 ∧ counts.installs = 0 ∧ counts.increments = 0 ∧ counts.reads = 0 ∧
    counts.decrements = 0

/-- The version has been allocated, and no proxy has pointed at it so far. -/
def Counts.Fresh (counts : Counts) : Prop :=
  counts.refs = 0 ∧ counts.decrements = 0 ∧ 1 ≤ counts.installs

/-- Nothing but a thread that deletes it has to do with a condemned version. -/
structure Condemned (version : Version) (counts : Counts) : Prop where
  unused : counts.Unused
  value : counts.empties + version.valueDeletes = 1
  whole : counts.empties + counts.deletes + version.deletes = 1

/-- The count of any other version is the number of proxies that point at it, once the threads
that are about to change it have done so. -/
structure Counted (version : Version) (counts : Counts) : Prop where
  bounded : version.usage < sizeBound
  balance : version.usage + counts.increments = counts.refs + counts.decrements
  empties : counts.empties = 0
  deletes : counts.deletes = 0
  valueKept : version.valueDeletes = 0
  kept : version.deletes = 0
  used : version.installed = true → 1 ≤ version.usage + counts.increments
  fresh : version.installed = false → counts.Fresh

inductive Accounted : Option Version → Counts → Prop where
  | unallocated (counts : Counts) (unused : counts.Unused) (empties : counts.empties = 0)
      (deletes : counts.deletes = 0) : Accounted none counts
  | condemned (version : Version) (counts : Counts) (marked : version.condemned = true)
      (condemned : Condemned version counts) : Accounted (some version) counts
  | counted (version : Version) (counts : Counts) (unmarked : version.condemned = false)
      (counted : Counted version counts) : Accounted (some version) counts

structure Pointers.Sound (pointers : Pointers) : Prop where
  faultless : pointers.fault = false
  accounted : ∀ index, Accounted pointers.versions[index]? (pointers.counts index)

/-- What one thread's move from a stage to a later one does to the counts. -/
structure CountsMove (index : Nat) (stage later : ProxyStage) (before after : Counts) : Prop where
  installs : after.installs + stage.installs index = before.installs + later.installs index
  increments :
    after.increments + stage.increments index = before.increments + later.increments index
  reads : after.reads + stage.reads index = before.reads + later.reads index
  decrements :
    after.decrements + stage.decrements index = before.decrements + later.decrements index
  empties : after.empties + stage.empties index = before.empties + later.empties index
  deletes : after.deletes + stage.deletes index = before.deletes + later.deletes index

section Counts

variable {pointers : Pointers} {thread : Nat} {stage later : ProxyStage}

theorem counts_move (next : Pointers) (found : pointers.threads[thread]? = some stage)
    (moved : next.threads = pointers.threads.set thread later) (index : Nat) :
    CountsMove index stage later (pointers.counts index) (next.counts index) := by
  have weigh (weight : ProxyStage → Nat) :
      tally weight next.threads + weight stage = tally weight pointers.threads + weight later := by
    rw [moved]
    exact tally_set found
  exact ⟨weigh _, weigh _, weigh _, weigh _, weigh _, weigh _⟩

theorem refs_move {proxy : Nat} {base newBase : Option Nat} (next : Pointers)
    (found : pointers.proxies[proxy]? = some base)
    (moved : next.proxies = pointers.proxies.set proxy newBase) (index : Nat) :
    (next.counts index).refs + refers index base =
      (pointers.counts index).refs + refers index newBase := by
  change tally _ next.proxies + _ = _
  rw [moved]
  exact tally_set found

theorem refs_pos {proxy index : Nat} (found : pointers.proxies[proxy]? = some (some index)) :
    1 ≤ (pointers.counts index).refs := by
  have weight : refers index (some index) ≤ tally (refers index) pointers.proxies :=
    weight_le_tally (List.mem_of_getElem? found)
  rw [refers, if_pos rfl] at weight
  exact weight

end Counts

/-- A change of the counts that needs no change of the version's own count. -/
structure Carried (before after : Counts) : Prop where
  balance : before.refs + before.decrements = after.refs + after.decrements
  increments : after.increments = before.increments
  empties : after.empties = before.empties
  deletes : after.deletes = before.deletes
  unused : before.Unused → after.Unused
  fresh : before.Fresh → after.Fresh

section Accounts

variable {before after : Counts} {version : Version} {versions : Option Version}

theorem Accounted.carry (accounted : Accounted versions before) (carried : Carried before after) :
    Accounted versions after := by
  obtain ⟨balance, increments, empties, deletes, unused, fresh⟩ := carried
  cases accounted with
  | unallocated counts isUnused noEmpties noDeletes =>
      exact .unallocated after (unused isUnused) (empties.trans noEmpties) (deletes.trans noDeletes)
  | condemned version counts marked condemned =>
      refine .condemned version after marked ⟨unused condemned.unused, ?_, ?_⟩
      · rw [empties]
        exact condemned.value
      · rw [empties, deletes]
        exact condemned.whole
  | counted version counts unmarked counted =>
      refine .counted version after unmarked ⟨counted.bounded, ?_, empties.trans counted.empties,
        deletes.trans counted.deletes, counted.valueKept, counted.kept, ?_, ?_⟩
      · rw [increments, ← balance]
        exact counted.balance
      · rw [increments]
        exact counted.used
      · intro isFresh
        exact fresh (counted.fresh isFresh)

/-- What some proxy points at, or some thread is about to use, is there and is counted. -/
theorem Accounted.live (accounted : Accounted (some version) before) (inUse : ¬ before.Unused) :
    version.condemned = false ∧ Counted version before := by
  cases accounted with
  | condemned version counts marked condemned => exact absurd condemned.unused inUse
  | counted version counts unmarked counted => exact ⟨unmarked, counted⟩

end Accounts

section Carried

variable {index : Nat} {stage later : ProxyStage} {before after : Counts}

theorem carried_of_referred (gone come : Nat) (move : CountsMove index stage later before after)
    (refs : after.refs + gone = before.refs + come) (referred : 1 ≤ before.refs)
    (balance : gone + stage.decrements index = come + later.decrements index)
    (increments : later.increments index = stage.increments index)
    (empties : later.empties index = stage.empties index)
    (deletes : later.deletes index = stage.deletes index) : Carried before after := by
  obtain ⟨-, movedIncrements, -, movedDecrements, movedEmpties, movedDeletes⟩ := move
  refine ⟨by omega, by omega, by omega, by omega, ?_, ?_⟩
  · intro unused
    have unreferred := unused.1
    omega
  · intro fresh
    have unreferred := fresh.1
    omega

theorem carried_of_same (move : CountsMove index stage later before after)
    (refs : after.refs = before.refs)
    (installs : later.installs index = stage.installs index)
    (increments : later.increments index = stage.increments index)
    (reads : later.reads index ≤ stage.reads index)
    (decrements : later.decrements index = stage.decrements index)
    (empties : later.empties index = stage.empties index)
    (deletes : later.deletes index = stage.deletes index) : Carried before after := by
  obtain ⟨movedInstalls, movedIncrements, movedReads, movedDecrements, movedEmpties,
    movedDeletes⟩ := move
  refine ⟨by omega, by omega, by omega, by omega, ?_, ?_⟩
  · unfold Counts.Unused
    omega
  · unfold Counts.Fresh
    omega

end Carried

namespace Pointers

@[simp] theorem installs_dropping (index : Nat) (base : Option Nat) :
    (dropping base).installs index = 0 := by
  cases base <;> rfl

@[simp] theorem increments_dropping (index : Nat) (base : Option Nat) :
    (dropping base).increments index = 0 := by
  cases base <;> rfl

@[simp] theorem reads_dropping (index : Nat) (base : Option Nat) :
    (dropping base).reads index = 0 := by
  cases base <;> rfl

@[simp] theorem decrements_dropping (index : Nat) (base : Option Nat) :
    (dropping base).decrements index = refers index base := by
  cases base <;> simp [dropping, ProxyStage.decrements, refers]

@[simp] theorem empties_dropping (index : Nat) (base : Option Nat) :
    (dropping base).empties index = 0 := by
  cases base <;> rfl

@[simp] theorem deletes_dropping (index : Nat) (base : Option Nat) :
    (dropping base).deletes index = 0 := by
  cases base <;> rfl

end Pointers

section Moves

open Pointers

variable {target : Nat} {version : Version} {counts after : Counts}

theorem install_moves {proxy : Nat} {prevBase : Option Nat} (counted : Counted version counts)
    (move : CountsMove target (.exchanging proxy (some target) prevBase)
      (.incrementing target prevBase) counts after)
    (refs : after.refs + refers target prevBase = counts.refs + refers target (some target)) :
    Counted { version with installed := true } after := by
  obtain ⟨-, increments, -, decrements, empties, deletes⟩ := move
  have balance := counted.balance
  simp only [ProxyStage.increments, ProxyStage.decrements, ProxyStage.empties, ProxyStage.deletes,
    refers, if_true, Nat.add_zero] at increments decrements empties deletes refs
  refine ⟨counted.bounded, ?_, empties.trans counted.empties, deletes.trans counted.deletes,
    counted.valueKept, counted.kept, ?_, ?_⟩
  · dsimp only
    omega
  · intro _
    dsimp only
    omega
  · intro isFresh
    cases isFresh

theorem increment_moves {prevBase : Option Nat}
    (counted : Counted version counts) (fits : version.usage + 1 < sizeBound)
    (move : CountsMove target (.incrementing target prevBase) (dropping prevBase) counts after)
    (refs : after.refs = counts.refs) :
    Counted { version with usage := (version.usage + 1) % sizeBound } after := by
  obtain ⟨installs, increments, -, decrements, empties, deletes⟩ := move
  have balance := counted.balance
  rw [Nat.mod_eq_of_lt fits]
  rw [installs_dropping] at installs
  rw [increments_dropping] at increments
  rw [decrements_dropping] at decrements
  rw [empties_dropping] at empties
  rw [deletes_dropping] at deletes
  simp only [ProxyStage.increments, if_true] at increments
  simp only [ProxyStage.installs, ProxyStage.decrements, ProxyStage.empties, ProxyStage.deletes,
    refers, Nat.add_zero] at installs decrements empties deletes
  refine ⟨fits, ?_, empties.trans counted.empties, deletes.trans counted.deletes,
    counted.valueKept, counted.kept, ?_, ?_⟩
  · dsimp only
    omega
  · intro _
    dsimp only
    omega
  · intro isFresh
    obtain ⟨noRefs, noDecrements, someInstalls⟩ := counted.fresh isFresh
    exact ⟨by omega, by omega, by omega⟩

theorem fetch_sub_of_pos {usage : Nat} (positive : 1 ≤ usage) (bounded : usage < sizeBound) :
    fetchSub usage = usage - 1 := by
  have shifted : usage + (sizeBound - 1) = usage - 1 + sizeBound := by
    have isPos : 0 < sizeBound := Nat.pos_of_ne_zero (by decide)
    omega
  rw [fetchSub, shifted, Nat.add_mod_right, Nat.mod_eq_of_lt (by omega)]

/-- Where a `fetch_sub` finds a count of at most one, nobody is about to use the version. -/
structure InTime (version : Version) (counts : Counts) : Prop where
  installs : version.usage ≤ 1 → counts.installs = 0
  increments : version.usage ≤ 1 → counts.increments = 0
  reads : version.usage ≤ 1 → counts.reads = 0

theorem Counted.usage_pos (counted : Counted version counts)
    (inTime : InTime version counts) (decrements : 1 ≤ counts.decrements) : 1 ≤ version.usage := by
  by_cases isInstalled : version.installed = true
  · have used := counted.used isInstalled
    have settled := inTime.increments
    omega
  · have fresh := counted.fresh (Bool.eq_false_iff.mpr isInstalled)
    have none := fresh.2.1
    omega

theorem discount_moves {counts after : Counts} (counted : Counted version counts)
    (decrements : 1 ≤ counts.decrements) (several : 2 ≤ version.usage)
    (move : CountsMove target (.decrementing target) .idle counts after)
    (refs : after.refs = counts.refs) :
    Counted { version with usage := version.usage - 1 } after := by
  obtain ⟨-, increments, -, moved, empties, deletes⟩ := move
  have balance := counted.balance
  have bounded := counted.bounded
  simp only [ProxyStage.increments, ProxyStage.decrements, ProxyStage.empties, ProxyStage.deletes,
    if_true, Nat.add_zero] at increments moved empties deletes
  refine ⟨?_, ?_, empties.trans counted.empties, deletes.trans counted.deletes,
    counted.valueKept, counted.kept, ?_, ?_⟩
  · dsimp only
    omega
  · dsimp only
    omega
  · intro _
    dsimp only
    omega
  · intro isFresh
    have none := (counted.fresh isFresh).2.1
    omega

theorem condemn_moves {counts after : Counts} (counted : Counted version counts)
    (inTime : InTime version counts) (decrements : 1 ≤ counts.decrements) (last : version.usage = 1)
    (move : CountsMove target (.decrementing target) (.deletingValue target) counts after)
    (refs : after.refs = counts.refs) :
    Condemned { version with usage := 0, condemned := true } after := by
  obtain ⟨installs, increments, reads, moved, empties, deletes⟩ := move
  have balance := counted.balance
  have noInstalls := inTime.installs (by omega)
  have noIncrements := inTime.increments (by omega)
  have noReads := inTime.reads (by omega)
  have noEmpties := counted.empties
  have noDeletes := counted.deletes
  have valueKept := counted.valueKept
  have kept := counted.kept
  simp only [ProxyStage.installs, ProxyStage.increments, ProxyStage.reads]
    at installs increments reads
  simp only [ProxyStage.decrements, ProxyStage.empties, if_true] at moved empties
  simp only [ProxyStage.deletes] at deletes
  have unused : after.Unused := by
    unfold Counts.Unused
    omega
  refine ⟨unused, ?_, ?_⟩
  · dsimp only
    omega
  · dsimp only
    omega

theorem value_deleted_moves (condemned : Condemned version counts) (empties : 1 ≤ counts.empties)
    (move : CountsMove target (.deletingValue target) (.deleting target) counts after)
    (refs : after.refs = counts.refs) :
    Condemned { version with valueDeletes := version.valueDeletes + 1 } after := by
  obtain ⟨unused, value, whole⟩ := condemned
  obtain ⟨installs, increments, reads, decrements, movedEmpties, deletes⟩ := move
  simp only [ProxyStage.installs, ProxyStage.increments, ProxyStage.reads]
    at installs increments reads
  simp only [ProxyStage.empties, ProxyStage.deletes, if_true] at movedEmpties deletes
  simp only [ProxyStage.decrements] at decrements
  unfold Counts.Unused at unused
  have stillUnused : after.Unused := by
    unfold Counts.Unused
    omega
  refine ⟨stillUnused, ?_, ?_⟩
  · dsimp only
    omega
  · dsimp only
    omega

theorem deleted_moves (condemned : Condemned version counts)
    (move : CountsMove target (.deleting target) .idle counts after)
    (refs : after.refs = counts.refs) :
    Condemned { version with deletes := version.deletes + 1 } after := by
  obtain ⟨unused, value, whole⟩ := condemned
  obtain ⟨installs, increments, reads, decrements, empties, movedDeletes⟩ := move
  simp only [ProxyStage.installs, ProxyStage.increments, ProxyStage.reads]
    at installs increments reads
  simp only [ProxyStage.empties, ProxyStage.deletes, if_true] at empties movedDeletes
  simp only [ProxyStage.decrements] at decrements
  unfold Counts.Unused at unused
  have stillUnused : after.Unused := by
    unfold Counts.Unused
    omega
  refine ⟨stillUnused, ?_, ?_⟩
  · dsimp only
    omega
  · dsimp only
    omega

theorem allocate_moves {proxy : Nat} (unused : counts.Unused) (empties : counts.empties = 0)
    (deletes : counts.deletes = 0)
    (move : CountsMove target .idle (.setting proxy (some target)) counts after)
    (refs : after.refs = counts.refs) : Counted ⟨0, false, false, 0, 0⟩ after := by
  obtain ⟨movedInstalls, increments, -, decrements, movedEmpties, movedDeletes⟩ := move
  simp only [ProxyStage.installs, if_true] at movedInstalls
  simp only [ProxyStage.increments, ProxyStage.decrements] at increments decrements
  simp only [ProxyStage.empties, ProxyStage.deletes] at movedEmpties movedDeletes
  unfold Counts.Unused at unused
  refine ⟨by decide, ?_, by omega, by omega, rfl, rfl, ?_, ?_⟩
  · dsimp only
    omega
  · intro isInstalled
    cases isInstalled
  · intro _
    unfold Counts.Fresh
    omega

end Moves

namespace Pointers

variable {pointers next : Pointers} {thread target : Nat} {stage later : ProxyStage}
  {version changed : Version}

theorem Sound.carry (sound : pointers.Sound) (faultless : next.fault = false)
    (versions : next.versions = pointers.versions)
    (carried : ∀ index, Carried (pointers.counts index) (next.counts index)) : next.Sound := by
  refine ⟨faultless, ?_⟩
  intro index
  rw [versions]
  exact (sound.accounted index).carry (carried index)

theorem Sound.change (sound : pointers.Sound)
    (found : pointers.versions[target]? = some version) (faultless : next.fault = false)
    (versions : next.versions = pointers.versions.set target changed)
    (carried : ∀ index, target ≠ index → Carried (pointers.counts index) (next.counts index))
    (accounted : Accounted (some changed) (next.counts target)) : next.Sound := by
  refine ⟨faultless, ?_⟩
  intro index
  rw [versions]
  by_cases same : target = index
  · subst same
    rw [List.getElem?_set_self (List.getElem?_eq_some_iff.mp found).1]
    exact accounted
  · rw [List.getElem?_set_ne same]
    exact (sound.accounted index).carry (carried index same)

theorem not_unused (found : pointers.threads[thread]? = some stage) (uses : stage.Uses target) :
    ¬ (pointers.counts target).Unused := by
  intro unused
  have weigh (weight : ProxyStage → Nat) : weight stage ≤ tally weight pointers.threads :=
    weight_le_tally (List.mem_of_getElem? found)
  obtain ⟨-, installs, increments, reads, decrements⟩ := unused
  have installing := weigh (ProxyStage.installs target)
  have incrementing := weigh (ProxyStage.increments target)
  have reading := weigh (ProxyStage.reads target)
  have decrementing := weigh (ProxyStage.decrements target)
  simp only [counts] at installs increments reads decrements
  unfold ProxyStage.Uses at uses
  omega

theorem Sound.present (sound : pointers.Sound) (found : pointers.threads[thread]? = some stage)
    (uses : stage.Uses target) : ∃ version, pointers.versions[target]? = some version := by
  have accounted := sound.accounted target
  cases present : pointers.versions[target]? with
  | some version => exact ⟨version, rfl⟩
  | none =>
      rw [present] at accounted
      cases accounted with
      | unallocated counts unused => exact absurd unused (not_unused found uses)

theorem Sound.used (sound : pointers.Sound) (found : pointers.threads[thread]? = some stage)
    (present : pointers.versions[target]? = some version) (uses : stage.Uses target) :
    version.condemned = false ∧ Counted version (pointers.counts target) := by
  have accounted := sound.accounted target
  rw [present] at accounted
  exact accounted.live (not_unused found uses)

theorem Sound.moveTo (sound : pointers.Sound) (found : pointers.threads[thread]? = some stage)
    (carried : ∀ index after, CountsMove index stage later (pointers.counts index) after →
      after.refs = (pointers.counts index).refs → Carried (pointers.counts index) after) :
    (pointers.moveTo thread later).Sound := by
  refine ⟨sound.faultless, ?_⟩
  intro index
  exact (sound.accounted index).carry
    (carried index _ (counts_move (pointers.moveTo thread later) found rfl index) rfl)

theorem Sound.copying {proxy source : Nat} {base : Option Nat} (sound : pointers.Sound)
    (found : pointers.threads[thread]? = some (.copying proxy source))
    (loaded : pointers.proxies[source]? = some base) :
    (pointers.moveTo thread (.setting proxy base)).Sound := by
  apply sound.moveTo found
  intro index after move refs
  by_cases referred : base = some index
  · subst referred
    exact carried_of_referred 0 0 move refs (refs_pos loaded) rfl rfl rfl rfl
  · exact carried_of_same move refs (if_neg referred) rfl (Nat.le_refl 0) rfl rfl rfl

theorem Sound.settled {proxy : Nat} {parent : Option Nat} (sound : pointers.Sound)
    (found : pointers.threads[thread]? = some (.setting proxy parent))
    (same : pointers.proxies[proxy]? = some parent) : (pointers.moveTo thread .idle).Sound := by
  apply sound.moveTo found
  intro index after move refs
  by_cases referred : parent = some index
  · subst referred
    exact carried_of_referred 0 0 move refs (refs_pos same) rfl rfl rfl rfl
  · exact carried_of_same move refs (if_neg referred).symm rfl (Nat.le_refl 0) rfl rfl rfl

theorem Sound.loading {proxy base : Nat} (sound : pointers.Sound)
    (found : pointers.threads[thread]? = some (.loading proxy))
    (loaded : pointers.proxies[proxy]? = some (some base)) :
    (pointers.moveTo thread (.readingPtr base)).Sound := by
  apply sound.moveTo found
  intro index after move refs
  by_cases referred : base = index
  · subst referred
    exact carried_of_referred 0 0 move refs (refs_pos loaded) rfl rfl rfl rfl
  · exact carried_of_same move refs rfl rfl (Nat.le_of_eq (if_neg referred)) rfl rfl rfl

theorem Sound.same (sound : pointers.Sound) (found : pointers.threads[thread]? = some stage)
    (installs : ∀ index, later.installs index = stage.installs index)
    (increments : ∀ index, later.increments index = stage.increments index)
    (reads : ∀ index, later.reads index ≤ stage.reads index)
    (decrements : ∀ index, later.decrements index = stage.decrements index)
    (empties : ∀ index, later.empties index = stage.empties index)
    (deletes : ∀ index, later.deletes index = stage.deletes index) :
    (pointers.moveTo thread later).Sound := by
  apply sound.moveTo found
  intro index after move refs
  exact carried_of_same move refs (installs index) (increments index) (reads index)
    (decrements index) (empties index) (deletes index)

theorem Sound.take {proxy : Nat} {base : Option Nat} (sound : pointers.Sound)
    (found : pointers.threads[thread]? = some stage)
    (held : pointers.proxies[proxy]? = some base)
    (installs : ∀ index, stage.installs index = 0)
    (increments : ∀ index, stage.increments index = 0)
    (decrements : ∀ index, stage.decrements index = 0) (empties : ∀ index, stage.empties index = 0)
    (deletes : ∀ index, stage.deletes index = 0) :
    ((pointers.setProxy proxy none).moveTo thread (dropping base)).Sound := by
  refine ⟨sound.faultless, ?_⟩
  intro index
  apply (sound.accounted index).carry
  have move := counts_move ((pointers.setProxy proxy none).moveTo thread (dropping base))
    found rfl index
  have refs := refs_move ((pointers.setProxy proxy none).moveTo thread (dropping base))
    held rfl index
  by_cases referred : base = some index
  · apply carried_of_referred _ _ move refs (refs_pos (referred ▸ held))
    · rw [decrements, decrements_dropping]
      exact Nat.add_comm _ _
    · rw [increments, increments_dropping]
    · rw [empties, empties_dropping]
    · rw [deletes, deletes_dropping]
  · have unreferred : refers index base = 0 := if_neg referred
    rw [unreferred] at refs
    apply carried_of_same move refs
    · rw [installs, installs_dropping]
    · rw [increments, increments_dropping]
    · rw [reads_dropping]
      exact Nat.zero_le _
    · rw [decrements, decrements_dropping, unreferred]
    · rw [empties, empties_dropping]
    · rw [deletes, deletes_dropping]

/-- The compare-exchange makes a proxy point at a version its thread has loaded. -/
theorem Sound.install {proxy : Nat} {prevBase : Option Nat} (sound : pointers.Sound)
    (found : pointers.threads[thread]? = some (.exchanging proxy (some target) prevBase))
    (held : pointers.proxies[proxy]? = some prevBase)
    (present : pointers.versions[target]? = some version) :
    (((pointers.setVersion target { version with installed := true }).setProxy proxy
      (some target)).moveTo thread (.incrementing target prevBase)).Sound := by
  have move := counts_move (((pointers.setVersion target
    { version with installed := true }).setProxy proxy (some target)).moveTo thread
    (.incrementing target prevBase)) found rfl
  have refs := refs_move (((pointers.setVersion target
    { version with installed := true }).setProxy proxy (some target)).moveTo thread
    (.incrementing target prevBase)) held rfl
  have live := sound.used found present (by simp [ProxyStage.Uses, ProxyStage.installs])
  apply sound.change present
  · exact sound.faultless
  · rfl
  · intro index other
    have notReferred : refers index (some target) = 0 :=
      if_neg fun same => other (Option.some.inj same)
    have notInstalled : ProxyStage.installs index (.exchanging proxy (some target) prevBase) = 0 :=
      if_neg fun same => other (Option.some.inj same)
    have refsHere := refs index
    by_cases referred : prevBase = some index
    · apply carried_of_referred _ _ (move index) refsHere (refs_pos (referred ▸ held))
      · rw [notReferred, Nat.zero_add]
        rfl
      · exact if_neg other
      · rfl
      · rfl
    · have unreferred : refers index prevBase = 0 := if_neg referred
      rw [unreferred, notReferred] at refsHere
      apply carried_of_same (move index) refsHere
      · exact notInstalled.symm
      · exact if_neg other
      · exact Nat.le_refl 0
      · exact unreferred
      · rfl
      · rfl
  · exact .counted _ _ live.1 (install_moves live.2 (move target) (refs target))

theorem Sound.increment {prevBase : Option Nat} (sound : pointers.Sound)
    (found : pointers.threads[thread]? = some (.incrementing target prevBase))
    (present : pointers.versions[target]? = some version) (fits : version.usage + 1 < sizeBound) :
    ((pointers.incrCount target version).moveTo thread (dropping prevBase)).Sound := by
  have move := counts_move ((pointers.incrCount target version).moveTo thread (dropping prevBase))
    found rfl
  have live := sound.used found present (by simp [ProxyStage.Uses, ProxyStage.increments])
  apply sound.change present
  · change (pointers.fault || version.deletes != 0) = false
    rw [sound.faultless, live.2.kept]
    rfl
  · rfl
  · intro index other
    apply carried_of_same (move index) rfl
    · exact installs_dropping index prevBase
    · rw [increments_dropping]
      exact (if_neg other).symm
    · exact Nat.le_of_eq (reads_dropping index prevBase)
    · exact decrements_dropping index prevBase
    · exact empties_dropping index prevBase
    · exact deletes_dropping index prevBase
  · exact .counted _ _ live.1 (increment_moves live.2 fits (move target) rfl)

theorem Sound.decrement (sound : pointers.Sound)
    (found : pointers.threads[thread]? = some (.decrementing target))
    (present : pointers.versions[target]? = some version)
    (inTime : InTime version (pointers.counts target)) :
    (pointers.decrCount thread target version).Sound := by
  have live := sound.used found present (by simp [ProxyStage.Uses, ProxyStage.decrements])
  have faultless : (pointers.touch (version.deletes != 0)).fault = false := by
    change (pointers.fault || version.deletes != 0) = false
    rw [sound.faultless, live.2.kept]
    rfl
  have waiting : ProxyStage.decrements target (.decrementing target) ≤
      (pointers.counts target).decrements := weight_le_tally (List.mem_of_getElem? found)
  rw [ProxyStage.decrements, if_pos rfl] at waiting
  have positive := live.2.usage_pos inTime waiting
  have count := fetch_sub_of_pos positive live.2.bounded
  by_cases last : version.usage = 1
  · have zero : fetchSub version.usage = 0 := by
      rw [count, last]
    have move := counts_move (((pointers.touch (version.deletes != 0)).setVersion target
      { version with usage := 0, condemned := true }).moveTo thread (.deletingValue target))
      found rfl
    rw [decrCount, if_pos zero, zero]
    apply sound.change present
    · exact faultless
    · rfl
    · intro index other
      apply carried_of_same (move index) rfl rfl rfl (Nat.le_refl 0)
      · exact (if_neg other).symm
      · exact if_neg other
      · rfl
    · exact .condemned _ _ rfl (condemn_moves live.2 inTime waiting last (move target) rfl)
  · have several : fetchSub version.usage ≠ 0 := by
      rw [count]
      omega
    have move := counts_move (((pointers.touch (version.deletes != 0)).setVersion target
      { version with usage := version.usage - 1 }).moveTo thread .idle) found rfl
    rw [decrCount, if_neg several, count]
    apply sound.change present
    · exact faultless
    · rfl
    · intro index other
      exact carried_of_same (move index) rfl rfl rfl (Nat.le_refl 0) (if_neg other).symm rfl rfl
    · exact .counted _ _ live.1
        (discount_moves live.2 waiting (by omega) (move target) rfl)

theorem Sound.doomed (sound : pointers.Sound)
    (present : pointers.versions[target]? = some version)
    (dooms : (pointers.counts target).empties + (pointers.counts target).deletes ≠ 0) :
    version.condemned = true ∧ Condemned version (pointers.counts target) := by
  have accounted := sound.accounted target
  rw [present] at accounted
  cases accounted with
  | condemned version counts marked condemned => exact ⟨marked, condemned⟩
  | counted version counts unmarked counted =>
      rw [counted.empties, counted.deletes] at dooms
      exact absurd rfl dooms

theorem Sound.deletingValue (sound : pointers.Sound)
    (found : pointers.threads[thread]? = some (.deletingValue target))
    (present : pointers.versions[target]? = some version) :
    ((pointers.deleteValue target version).moveTo thread (.deleting target)).Sound := by
  have move := counts_move ((pointers.deleteValue target version).moveTo thread (.deleting target))
    found rfl
  have waiting : ProxyStage.empties target (.deletingValue target) ≤
      (pointers.counts target).empties := weight_le_tally (List.mem_of_getElem? found)
  rw [ProxyStage.empties, if_pos rfl] at waiting
  have doomed := sound.doomed present (by omega)
  have value := doomed.2.value
  have whole := doomed.2.whole
  apply sound.change present
  · have kept : version.deletes = 0 := by omega
    have valueKept : version.valueDeletes = 0 := by omega
    change (pointers.fault || (version.deletes != 0 || version.valueDeletes != 0)) = false
    rw [sound.faultless, kept, valueKept]
    rfl
  · rfl
  · intro index other
    exact carried_of_same (move index) rfl rfl rfl (Nat.le_refl 0) rfl (if_neg other).symm
      (if_neg other)
  · exact .condemned _ _ doomed.1 (value_deleted_moves doomed.2 waiting (move target) rfl)

theorem Sound.deleting (sound : pointers.Sound)
    (found : pointers.threads[thread]? = some (.deleting target))
    (present : pointers.versions[target]? = some version) :
    ((pointers.delete target version).moveTo thread .idle).Sound := by
  have move := counts_move ((pointers.delete target version).moveTo thread .idle) found rfl
  have waiting : ProxyStage.deletes target (.deleting target) ≤
      (pointers.counts target).deletes := weight_le_tally (List.mem_of_getElem? found)
  rw [ProxyStage.deletes, if_pos rfl] at waiting
  have doomed := sound.doomed present (by omega)
  have whole := doomed.2.whole
  apply sound.change present
  · have kept : version.deletes = 0 := by omega
    change (pointers.fault || version.deletes != 0) = false
    rw [sound.faultless, kept]
    rfl
  · rfl
  · intro index other
    exact carried_of_same (move index) rfl rfl rfl (Nat.le_refl 0) rfl rfl (if_neg other).symm
  · exact .condemned _ _ doomed.1 (deleted_moves doomed.2 (move target) rfl)

theorem Sound.touch {deletes : Nat} (sound : pointers.Sound) (kept : deletes = 0) :
    (pointers.touch (deletes != 0)).Sound := by
  refine ⟨?_, sound.accounted⟩
  change (pointers.fault || deletes != 0) = false
  rw [sound.faultless, kept]
  rfl

theorem Sound.exchange {proxy : Nat} {parent prevBase base : Option Nat} (sound : pointers.Sound)
    (found : pointers.threads[thread]? = some (.exchanging proxy parent prevBase))
    (held : pointers.proxies[proxy]? = some base) :
    (pointers.exchange thread proxy parent prevBase base).Sound := by
  unfold Pointers.exchange
  split
  · rename_i same
    subst same
    cases parent with
    | none =>
        exact sound.take found held (fun _ => rfl) (fun _ => rfl) (fun _ => rfl) (fun _ => rfl)
          (fun _ => rfl)
    | some target =>
        have uses : (ProxyStage.exchanging proxy (some target) base).Uses target := by
          simp [ProxyStage.Uses, ProxyStage.installs]
        obtain ⟨version, present⟩ := sound.present found uses
        dsimp only
        rw [present]
        exact sound.install found held present
  · exact sound.same found (fun _ => rfl) (fun _ => rfl) (fun _ => Nat.le_refl 0)
      (fun _ => rfl) (fun _ => rfl) (fun _ => rfl)

theorem in_time_of_unloaded
    (unloaded : version.usage ≤ 1 → ∀ stage ∈ pointers.threads, ¬ stage.Loaded target) :
    InTime version (pointers.counts target) := by
  have none (low : version.usage ≤ 1) (stage : ProxyStage) (member : stage ∈ pointers.threads) :
      stage.installs target = 0 ∧ stage.increments target = 0 ∧ stage.reads target = 0 := by
    have notLoaded := unloaded low stage member
    unfold ProxyStage.Loaded at notLoaded
    omega
  exact ⟨fun low => tally_eq_zero fun stage member => (none low stage member).1,
    fun low => tally_eq_zero fun stage member => (none low stage member).2.1,
    fun low => tally_eq_zero fun stage member => (none low stage member).2.2⟩

theorem Sound.advance (sound : pointers.Sound)
    (found : pointers.threads[thread]? = some stage)
    (inTime : CountsInTime pointers (.advance thread))
    (stepped : pointers.advance thread stage = some next) : next.Sound := by
  unfold CountsInTime at inTime
  dsimp only at inTime
  rw [found] at inTime
  cases stage with
  | idle => cases stepped
  | copying proxy source =>
      obtain ⟨base, loaded, rfl⟩ := Option.map_eq_some_iff.mp stepped
      exact sound.copying found loaded
  | setting proxy parent =>
      obtain ⟨base, loaded, rfl⟩ := Option.map_eq_some_iff.mp stepped
      split
      · rename_i same
        exact sound.settled found (same ▸ loaded)
      · exact sound.same found (fun _ => rfl) (fun _ => rfl) (fun _ => Nat.le_refl 0)
          (fun _ => rfl) (fun _ => rfl) (fun _ => rfl)
  | exchanging proxy parent prevBase =>
      obtain ⟨base, held, rfl⟩ := Option.map_eq_some_iff.mp stepped
      exact sound.exchange found held
  | incrementing parent prevBase =>
      obtain ⟨version, present, rfl⟩ := Option.map_eq_some_iff.mp stepped
      exact sound.increment found present (inTime version present)
  | decrementing index =>
      obtain ⟨version, present, rfl⟩ := Option.map_eq_some_iff.mp stepped
      exact sound.decrement found present (in_time_of_unloaded (inTime version present))
  | deletingValue index =>
      obtain ⟨version, present, rfl⟩ := Option.map_eq_some_iff.mp stepped
      exact sound.deletingValue found present
  | deleting index =>
      obtain ⟨version, present, rfl⟩ := Option.map_eq_some_iff.mp stepped
      exact sound.deleting found present
  | clearing proxy =>
      obtain ⟨base, held, rfl⟩ := Option.map_eq_some_iff.mp stepped
      exact sound.take found held (fun _ => rfl) (fun _ => rfl) (fun _ => rfl) (fun _ => rfl)
        (fun _ => rfl)
  | loading proxy =>
      obtain ⟨base, loaded, rfl⟩ := Option.map_eq_some_iff.mp stepped
      cases base with
      | none =>
          exact sound.same found (fun _ => rfl) (fun _ => rfl) (fun _ => Nat.le_refl 0)
            (fun _ => rfl) (fun _ => rfl) (fun _ => rfl)
      | some version => exact sound.loading found loaded
  | readingPtr index =>
      obtain ⟨version, present, rfl⟩ := Option.map_eq_some_iff.mp stepped
      have live := sound.used found present (by simp [ProxyStage.Uses, ProxyStage.reads])
      exact (sound.touch live.2.kept).same found (fun _ => rfl) (fun _ => rfl)
        (fun _ => Nat.le_refl _) (fun _ => rfl) (fun _ => rfl) (fun _ => rfl)
  | readingValue index =>
      obtain ⟨version, present, rfl⟩ := Option.map_eq_some_iff.mp stepped
      have live := sound.used found present (by simp [ProxyStage.Uses, ProxyStage.reads])
      exact (sound.touch live.2.valueKept).same found (fun _ => rfl) (fun _ => rfl)
        (fun _ => Nat.zero_le _) (fun _ => rfl) (fun _ => rfl) (fun _ => rfl)

theorem sound_initial (threadCount : Nat) : (initial threadCount).Sound := by
  refine ⟨rfl, ?_⟩
  intro index
  have idle (weight : ProxyStage → Nat) (weightless : weight .idle = 0) :
      tally weight (List.replicate threadCount .idle) = 0 := by
    apply tally_eq_zero
    intro stage member
    rw [List.eq_of_mem_replicate member]
    exact weightless
  exact .unallocated _ ⟨rfl, idle _ rfl, idle _ rfl, idle _ rfl, idle _ rfl⟩ (idle _ rfl)
    (idle _ rfl)

theorem Sound.construct (sound : pointers.Sound) : pointers.construct.Sound := by
  refine ⟨sound.faultless, ?_⟩
  intro index
  have same : pointers.construct.counts index = pointers.counts index := by
    simp [counts, Pointers.construct, refers]
  rw [same]
  exact sound.accounted index

theorem start_idle (stepped : pointers.start thread stage = some next) :
    pointers.threads[thread]? = some .idle ∧ next = pointers.moveTo thread stage := by
  unfold start at stepped
  split at stepped
  · rename_i found
    exact ⟨found, (Option.some.inj stepped).symm⟩
  · cases stepped

theorem Sound.start (sound : pointers.Sound) (installs : ∀ index, stage.installs index = 0)
    (increments : ∀ index, stage.increments index = 0) (reads : ∀ index, stage.reads index = 0)
    (decrements : ∀ index, stage.decrements index = 0) (empties : ∀ index, stage.empties index = 0)
    (deletes : ∀ index, stage.deletes index = 0)
    (stepped : pointers.start thread stage = some next) : next.Sound := by
  obtain ⟨found, rfl⟩ := start_idle stepped
  exact sound.same found installs increments (fun index => Nat.le_of_eq (reads index)) decrements
    empties deletes

theorem Sound.reset {proxy : Nat} (sound : pointers.Sound)
    (stepped : pointers.allocate.start thread (.setting proxy (some pointers.versions.length)) =
      some next) : next.Sound := by
  obtain ⟨found, rfl⟩ := start_idle stepped
  refine ⟨sound.faultless, ?_⟩
  intro index
  have move : CountsMove index .idle (.setting proxy (some pointers.versions.length))
      (pointers.counts index) ((pointers.allocate.moveTo thread
        (.setting proxy (some pointers.versions.length))).counts index) :=
    counts_move _ found rfl index
  have accounted := sound.accounted index
  change Accounted (pointers.versions ++ [⟨0, false, false, 0, 0⟩])[index]? _
  by_cases isNew : pointers.versions.length = index
  · rw [← isNew] at accounted move ⊢
    rw [List.getElem?_eq_none (Nat.le_refl _)] at accounted
    rw [List.getElem?_concat_length]
    cases accounted with
    | unallocated counts unused empties deletes =>
        exact .counted _ _ rfl (allocate_moves unused empties deletes move rfl)
  · rw [get_of_append (Ne.symm isNew)]
    apply accounted.carry
    apply carried_of_same move rfl _ rfl (Nat.le_refl 0) rfl rfl rfl
    exact if_neg fun same => isNew (Option.some.inj same)

theorem Sound.step {action : PointerAction} (sound : pointers.Sound)
    (inTime : CountsInTime pointers action) (stepped : pointers.step action = some next) :
    next.Sound := by
  cases action with
  | construct =>
      cases stepped
      exact sound.construct
  | copy thread source =>
      exact sound.construct.start (fun _ => rfl) (fun _ => rfl) (fun _ => rfl) (fun _ => rfl)
        (fun _ => rfl) (fun _ => rfl) stepped
  | assign thread target source =>
      exact sound.start (fun _ => rfl) (fun _ => rfl) (fun _ => rfl) (fun _ => rfl)
        (fun _ => rfl) (fun _ => rfl) stepped
  | reset thread proxy => exact sound.reset stepped
  | destroy thread proxy =>
      exact sound.start (fun _ => rfl) (fun _ => rfl) (fun _ => rfl) (fun _ => rfl)
        (fun _ => rfl) (fun _ => rfl) stepped
  | read thread proxy =>
      exact sound.start (fun _ => rfl) (fun _ => rfl) (fun _ => rfl) (fun _ => rfl)
        (fun _ => rfl) (fun _ => rfl) stepped
  | readAgain thread =>
      change pointers.readValue thread = some next at stepped
      unfold readValue at stepped
      split at stepped
      · rename_i index found
        obtain ⟨version, present, rfl⟩ := Option.map_eq_some_iff.mp stepped
        have live := sound.used found present (by simp [ProxyStage.Uses, ProxyStage.reads])
        exact sound.touch live.2.valueKept
      · cases stepped
  | advance thread =>
      obtain ⟨stage, found, advanced⟩ := Option.bind_eq_some_iff.mp stepped
      exact sound.advance found inTime advanced

theorem held_safely_of_sound (sound : pointers.Sound) : HeldSafely pointers := by
  refine ⟨sound.faultless, ?_, ?_⟩
  · intro version member
    obtain ⟨index, bound, rfl⟩ := List.mem_iff_getElem.mp member
    have accounted := sound.accounted index
    rw [List.getElem?_eq_getElem bound] at accounted
    cases accounted with
    | condemned version counts marked condemned =>
        have value := condemned.value
        have whole := condemned.whole
        omega
    | counted version counts unmarked counted =>
        rw [counted.valueKept, counted.kept]
        exact ⟨Nat.zero_le 1, Nat.zero_le 1⟩
  · intro idle index version found unreferred
    have accounted := sound.accounted index
    rw [found] at accounted
    have none (weight : ProxyStage → Nat) (weightless : weight .idle = 0) :
        tally weight pointers.threads = 0 := by
      apply tally_eq_zero
      intro stage member
      rw [idle stage member]
      exact weightless
    have noEmpties : (pointers.counts index).empties = 0 := none _ rfl
    have noDeletes : (pointers.counts index).deletes = 0 := none _ rfl
    cases accounted with
    | condemned version counts marked condemned =>
        have value := condemned.value
        have whole := condemned.whole
        omega
    | counted version counts unmarked counted =>
        have noRefs : (pointers.counts index).refs = 0 := by
          apply tally_eq_zero
          intro base member
          apply if_neg
          intro same
          exact unreferred (same ▸ member)
        have noIncrements : (pointers.counts index).increments = 0 := none _ rfl
        have noDecrements : (pointers.counts index).decrements = 0 := none _ rfl
        have noInstalls : (pointers.counts index).installs = 0 := none _ rfl
        have balance := counted.balance
        by_cases isInstalled : version.installed = true
        · have used := counted.used isInstalled
          omega
        · have fresh := counted.fresh (Bool.eq_false_iff.mpr isInstalled)
          have someInstalls := fresh.2.2
          omega

end Pointers

/-- As long as every `fetch_sub` that could bring a count to zero comes after those that loaded
the pointer have counted themselves, versions are safe while they are held. -/
theorem held_safely_of_counts_in_time (threadCount : Nat) (actions : List PointerAction)
    (inTime : pointerMachine.Guarded CountsInTime actions (.initial threadCount)) :
    pointerMachine.Along HeldSafely actions (.initial threadCount) := by
  have preserved : ∀ (pointers : Pointers) (action : PointerAction) (next : Pointers),
      pointers.Sound → True → CountsInTime pointers action →
      pointerMachine.step pointers action = some next → next.Sound :=
    fun pointers action next sound _ guarded stepped => sound.step guarded stepped
  exact Machine.along_of_guarded preserved (fun _ sound => Pointers.held_safely_of_sound sound)
    actions (fun _ _ => trivial) (Pointers.sound_initial threadCount) inTime

/-- A shared proxy is copied before it is reset; the copy is read through, both are destroyed. -/
def copiedBeforeReset : List PointerAction :=
  [.construct, .reset 0 0, .advance 0, .advance 0, .advance 0,
    .copy 1 0, .advance 1, .advance 1, .advance 1, .advance 1,
    .reset 0 0, .advance 0, .advance 0, .advance 0, .advance 0,
    .read 1 1, .advance 1, .advance 1, .readAgain 1, .advance 1,
    .destroy 1 1, .advance 1, .advance 1, .advance 1, .advance 1,
    .destroy 0 0, .advance 0, .advance 0, .advance 0, .advance 0]

theorem copied_before_reset_is_safe :
    pointerMachine.Along HeldSafely copiedBeforeReset (.initial 2) :=
  held_safely_of_counts_in_time 2 copiedBeforeReset (by decide +kernel)

/-- Thread 1 has loaded the pointer of a shared proxy for a copy; thread 0 resets the proxy, which
deletes the version; thread 1 then makes its copy point at the version, and counts it. -/
def copiedDuringReset : List PointerAction :=
  [.construct, .reset 0 0, .advance 0, .advance 0, .advance 0, .copy 1 0, .advance 1, .reset 0 0,
    .advance 0, .advance 0, .advance 0, .advance 0, .advance 0, .advance 0, .advance 1, .advance 1,
    .advance 1]

theorem copied_during_reset_is_unsafe :
    ∃ pointers, pointerMachine.exec copiedDuringReset (.initial 2) = some pointers ∧
      ¬ HeldSafely pointers := by
  have faulty : (pointerMachine.exec copiedDuringReset (.initial 2)).map Pointers.fault =
      some true := by decide +kernel
  obtain ⟨pointers, executed, fault⟩ := Option.map_eq_some_iff.mp faulty
  refine ⟨pointers, executed, ?_⟩
  intro safe
  rw [safe.faultless] at fault
  cases fault

end Relevanced.Util
