import Relevanced.Util.ConcurrentMap

/-!
# What holds of every ConcurrentMap

A thread writes to the proxy of an item in `reset` alone, and an item that some call has found is
there until the call is done with it. What callers and calls do otherwise is with proxies of
their own.
-/

namespace Relevanced.Util

open Foundation
open SequentialObject

set_option autoImplicit false

section Pointers

/-- The thread is about to write to the proxy. -/
def ProxyStage.Targets (proxy : Nat) : ProxyStage → Prop
  | .copying target _ => target = proxy
  | .setting target _ => target = proxy
  | .exchanging target _ _ => target = proxy
  | .clearing target => target = proxy
  | _ => False

/-- What an access of a method changes, but for counts. -/
structure PointersMove (pointers : Pointers) (thread : Nat) (stage : ProxyStage) (next : Pointers) :
    Prop where
  threads : ∃ later, next.threads = pointers.threads.set thread later ∧
    ∀ proxy, later.Targets proxy → stage.Targets proxy
  versions : next.versions.length = pointers.versions.length
  count : next.proxies.length = pointers.proxies.length
  others : ∀ proxy, ¬ stage.Targets proxy → next.proxies[proxy]? = pointers.proxies[proxy]?

variable {pointers next : Pointers} {thread : Nat} {stage : ProxyStage}

theorem dropping_targets (base : Option Nat) (proxy : Nat) :
    ¬ (Pointers.dropping base).Targets proxy := by
  cases base <;> exact id

theorem move_of_stage {later : ProxyStage}
    (targets : ∀ proxy, later.Targets proxy → stage.Targets proxy) :
    PointersMove pointers thread stage (pointers.moveTo thread later) where
  threads := ⟨later, rfl, targets⟩
  versions := rfl
  count := rfl
  others _ _ := rfl

theorem move_of_version {later : ProxyStage} {versions : List Version} {fault : Bool}
    (same : versions.length = pointers.versions.length)
    (targets : ∀ proxy, ¬ later.Targets proxy) :
    PointersMove pointers thread stage
      ({ pointers with versions := versions, fault := fault }.moveTo thread later) where
  threads := ⟨later, rfl, fun proxy isTarget => absurd isTarget (targets proxy)⟩
  versions := same
  count := rfl
  others _ _ := rfl

theorem move_of_proxy {later : ProxyStage} {versions : List Version} (proxy : Nat)
    (base : Option Nat) (same : versions.length = pointers.versions.length)
    (isTarget : stage.Targets proxy) (targets : ∀ proxy, ¬ later.Targets proxy) :
    PointersMove pointers thread stage
      (({ pointers with versions := versions }.setProxy proxy base).moveTo thread later) where
  threads := ⟨later, rfl, fun proxy isTarget => absurd isTarget (targets proxy)⟩
  versions := same
  count := List.length_set
  others other notTarget := by
    apply List.getElem?_set_ne
    rintro rfl
    exact notTarget isTarget

theorem pointers_move_of_advance (advanced : pointers.advance thread stage = some next) :
    PointersMove pointers thread stage next := by
  cases stage with
  | idle => cases advanced
  | copying target source =>
      obtain ⟨base, _, rfl⟩ := Option.map_eq_some_iff.mp advanced
      exact move_of_stage fun _ => id
  | setting proxy parent =>
      obtain ⟨base, _, rfl⟩ := Option.map_eq_some_iff.mp advanced
      split
      · exact move_of_stage fun _ => False.elim
      · exact move_of_stage fun _ => id
  | exchanging proxy parent prevBase =>
      obtain ⟨base, _, rfl⟩ := Option.map_eq_some_iff.mp advanced
      unfold Pointers.exchange
      split
      · split
        · exact move_of_proxy proxy none rfl rfl (dropping_targets prevBase)
        · split
          · exact move_of_proxy proxy _ List.length_set rfl fun _ => id
          · exact move_of_proxy proxy _ rfl rfl fun _ => id
      · exact move_of_stage fun _ => id
  | incrementing parent prevBase =>
      obtain ⟨version, _, rfl⟩ := Option.map_eq_some_iff.mp advanced
      exact move_of_version List.length_set (dropping_targets prevBase)
  | decrementing index =>
      obtain ⟨version, _, rfl⟩ := Option.map_eq_some_iff.mp advanced
      rw [Pointers.decrCount]
      split
      · exact move_of_version List.length_set fun _ => id
      · exact move_of_version List.length_set fun _ => id
  | deletingValue index =>
      obtain ⟨version, _, rfl⟩ := Option.map_eq_some_iff.mp advanced
      exact move_of_version List.length_set fun _ => id
  | deleting index =>
      obtain ⟨version, _, rfl⟩ := Option.map_eq_some_iff.mp advanced
      exact move_of_version List.length_set fun _ => id
  | clearing proxy =>
      obtain ⟨base, _, rfl⟩ := Option.map_eq_some_iff.mp advanced
      exact move_of_proxy proxy none rfl rfl (dropping_targets base)
  | loading proxy =>
      obtain ⟨base, _, rfl⟩ := Option.map_eq_some_iff.mp advanced
      cases base <;> exact move_of_stage fun _ => False.elim
  | readingPtr index =>
      obtain ⟨version, _, rfl⟩ := Option.map_eq_some_iff.mp advanced
      exact move_of_version rfl fun _ => id
  | readingValue index =>
      obtain ⟨version, _, rfl⟩ := Option.map_eq_some_iff.mp advanced
      exact move_of_version rfl fun _ => id

theorem start_of_step {action : PointerAction} {started : Pointers} {later : ProxyStage}
    (isStart : pointers.step action = started.start thread later)
    (stepped : pointers.step action = some next) :
    started.threads[thread]? = some .idle ∧ next = started.moveTo thread later :=
  Pointers.start_idle (isStart.symm.trans stepped)

end Pointers

variable {TKey TVal : Type} {skipList : SkipList TKey}

namespace ConcurrentMap

/-- The item has not been destroyed. -/
def Live (map : ConcurrentMap skipList TVal) (index : Nat) (item : ConcurrentMapItem TKey) : Prop :=
  map.items[index]? = some item ∧ item.destroyed = false

/-- The proxy is there, and is not that of an item. -/
def Free (map : ConcurrentMap skipList TVal) (proxy : Nat) : Prop :=
  proxy < map.pointers.proxies.length ∧ ∀ index item, map.Live index item → item.val ≠ proxy

/-- The methods that a call has left to call are on proxies of its own. -/
def Leaves (map : ConcurrentMap skipList TVal) (index : Nat) : PointerAction → Prop
  | .copy thread _ => thread = index
  | .destroy thread proxy => thread = index ∧ map.Free proxy
  | _ => False

/-- What a call has done goes with the method of `Proxy` that its thread is in. -/
def Coherent (map : ConcurrentMap skipList TVal) (index : Nat) (call : MapCall TKey TVal)
    (stage : ProxyStage) : Prop :=
  match call.stage with
  | .called => stage = .idle
  | .found item => stage = .idle ∧ ∃ known, map.Live item known
  | .missing => stage = .idle
  | .setting item => ∃ known key val version, map.Live item known ∧
      call.op = .insertOrUpdate key val ∧ map.values[version]? = some val ∧
        (stage = .setting known.val (some version) ∨
          ∃ prevBase, stage = .exchanging known.val (some version) prevBase)
  | .copying item => ∃ known key target, map.Live item known ∧ call.op = .getOption key ∧
      stage = .copying target known.val ∧ map.Free target
  | .decided left _ => (∀ proxy, stage.Targets proxy → map.Free proxy) ∧
      ∀ action ∈ left, map.Leaves index action
  | .returned _ _ => ∀ proxy, stage.Targets proxy → map.Free proxy

structure WellFormed (map : ConcurrentMap skipList TVal) : Prop where
  found : ∀ key index, skipList.find map.list key = some index →
    ∃ item, map.Live index item ∧ item.key = key
  bound : ∀ index item, map.Live index item → item.val < map.pointers.proxies.length
  distinct : ∀ first second left right, map.Live first left → map.Live second right →
    left.val = right.val → first = second
  threads : map.pointers.threads.length = map.calls.length
  versions : map.values.length = map.pointers.versions.length
  coherent : ∀ index call stage, map.calls[index]? = some call →
    map.pointers.threads[index]? = some stage → map.Coherent index call stage

variable {map next : ConcurrentMap skipList TVal}

theorem free_eq_true {proxy : Nat} (free : map.free proxy = true) : map.Free proxy := by
  rw [ConcurrentMap.free, Bool.and_eq_true, decide_eq_true_eq] at free
  refine ⟨free.1, ?_⟩
  rintro index item ⟨located, isLive⟩
  have other := List.all_eq_true.mp free.2 item (List.mem_of_getElem? located)
  rw [isLive, Bool.false_or, bne_iff_ne] at other
  exact other

/-- More proxies and values; what is live has been so before, or has a new proxy. -/
structure Grows (map next : ConcurrentMap skipList TVal) : Prop where
  proxies : map.pointers.proxies.length ≤ next.pointers.proxies.length
  values : ∀ (version : Nat) (val : TVal), map.values[version]? = some val →
    next.values[version]? = some val
  live : ∀ index item, next.Live index item →
    map.Live index item ∨ map.pointers.proxies.length ≤ item.val

section Growth

variable {index proxy : Nat} {call : MapCall TKey TVal} {stage : ProxyStage}

theorem Free.grow (free : map.Free proxy) (grows : map.Grows next) : next.Free proxy := by
  refine ⟨free.1.trans_le grows.proxies, ?_⟩
  intro index item isLive
  rcases grows.live index item isLive with before | isNew
  · exact free.2 index item before
  · exact (free.1.trans_le isNew).ne'

theorem Leaves.grow {action : PointerAction} (leaves : map.Leaves index action)
    (grows : map.Grows next) : next.Leaves index action := by
  cases action with
  | copy thread source => exact leaves
  | destroy thread proxy => exact ⟨leaves.1, leaves.2.grow grows⟩
  | _ => exact leaves.elim

/-- What goes on in a call does not depend on the others as long as the item it holds stays. -/
theorem Coherent.grow (coherent : map.Coherent index call stage) (grows : map.Grows next)
    (stays : ∀ item known, call.stage.holds item = true → map.Live item known →
      next.Live item known) : next.Coherent index call stage := by
  obtain ⟨op, invoked, callStage⟩ := call
  cases callStage with
  | called => exact coherent
  | missing => exact coherent
  | returned time result => exact fun proxy isTarget => (coherent proxy isTarget).grow grows
  | decided left result =>
      exact ⟨fun proxy isTarget => (coherent.1 proxy isTarget).grow grows,
        fun action member => (coherent.2 action member).grow grows⟩
  | found item =>
      obtain ⟨idle, known, isLive⟩ := coherent
      exact ⟨idle, known, stays item known (beq_self_eq_true item) isLive⟩
  | setting item =>
      obtain ⟨known, key, val, version, isLive, isOp, isValue, isStage⟩ := coherent
      exact ⟨known, key, val, version, stays item known (beq_self_eq_true item) isLive, isOp,
        grows.values _ _ isValue, isStage⟩
  | copying item =>
      obtain ⟨known, key, target, isLive, isOp, isStage, free⟩ := coherent
      exact ⟨known, key, target, stays item known (beq_self_eq_true item) isLive, isOp, isStage,
        free.grow grows⟩

end Growth

theorem well_formed_initial [DecidableEq TKey] (documented : skipList.Documented) :
    (.initial : ConcurrentMap skipList TVal).WellFormed where
  found key index isFound := by
    change skipList.find skipList.empty key = some index at isFound
    rw [documented.find_empty] at isFound
    cases isFound
  bound _ _ isLive := by cases isLive.1
  distinct _ _ _ _ isLive := by cases isLive.1
  threads := rfl
  versions := rfl
  coherent _ _ _ called := by cases called

theorem WellFormed.settle (wellFormed : map.WellFormed) (index : Nat) (list : next.list = map.list)
    (items : next.items = map.items)
    (proxies : map.pointers.proxies.length ≤ next.pointers.proxies.length)
    (values : ∀ (version : Nat) (val : TVal), map.values[version]? = some val →
      next.values[version]? = some val)
    (versions : next.values.length = next.pointers.versions.length)
    (threads : next.pointers.threads.length = next.calls.length)
    (otherCalls : ∀ other, other ≠ index → next.calls[other]? = map.calls[other]?)
    (otherThreads : ∀ other, other ≠ index →
      next.pointers.threads[other]? = map.pointers.threads[other]?)
    (here : ∀ call stage, next.calls[index]? = some call →
      next.pointers.threads[index]? = some stage → next.Coherent index call stage) :
    next.WellFormed := by
  have sameLive (place : Nat) (item : ConcurrentMapItem TKey) :
      next.Live place item ↔ map.Live place item := by
    rw [Live, Live, items]
  have grows : map.Grows next :=
    ⟨proxies, values, fun place item isLive => Or.inl ((sameLive place item).mp isLive)⟩
  refine ⟨?_, ?_, ?_, threads, versions, ?_⟩
  · intro key place isFound
    rw [list] at isFound
    obtain ⟨item, isLive, sameKey⟩ := wellFormed.found key place isFound
    exact ⟨item, (sameLive place item).mpr isLive, sameKey⟩
  · intro place item isLive
    exact (wellFormed.bound place item ((sameLive place item).mp isLive)).trans_le proxies
  · intro first second left right isFirst isSecond same
    exact wellFormed.distinct first second left right ((sameLive _ _).mp isFirst)
      ((sameLive _ _).mp isSecond) same
  · intro other call stage called inMethod
    by_cases isIndex : other = index
    · subst isIndex
      exact here call stage called inMethod
    · rw [otherCalls other isIndex] at called
      rw [otherThreads other isIndex] at inMethod
      apply (wellFormed.coherent other call stage called inMethod).grow grows
      exact fun item known _ isLive => (sameLive item known).mpr isLive

theorem WellFormed.moveTo (wellFormed : map.WellFormed) {index now : Nat} {call : MapCall TKey TVal}
    {stage : MapStage TVal} {later : ProxyStage} {pointers : Pointers} {values : List TVal}
    (threads : pointers.threads = map.pointers.threads.set index later)
    (proxies : map.pointers.proxies.length ≤ pointers.proxies.length)
    (kept : map.values <+: values) (versions : values.length = pointers.versions.length)
    (coherent : { map.moveTo index call stage with
      pointers := pointers, values := values, now := now }.Coherent index
        { call with stage := stage } later) :
    { map.moveTo index call stage with
      pointers := pointers, values := values, now := now }.WellFormed := by
  obtain ⟨added, rfl⟩ := kept
  refine wellFormed.settle index rfl rfl proxies ?_ versions ?_ ?_ ?_ ?_
  · intro version val held
    exact (List.getElem?_append_left (List.getElem?_eq_some_iff.mp held).1).trans held
  · change pointers.threads.length = (map.calls.set _ _).length
    rw [threads, List.length_set, List.length_set]
    exact wellFormed.threads
  · intro other isOther
    exact List.getElem?_set_ne (Ne.symm isOther)
  · intro other isOther
    change pointers.threads[other]? = _
    rw [threads]
    exact List.getElem?_set_ne (Ne.symm isOther)
  · intro made inMethod called found
    change (map.calls.set index _)[index]? = some made at called
    change pointers.threads[index]? = some inMethod at found
    rw [threads] at found
    obtain ⟨inside, rfl⟩ := List.getElem?_eq_some_iff.mp called
    obtain ⟨threadInside, rfl⟩ := List.getElem?_eq_some_iff.mp found
    rw [List.getElem_set_self, List.getElem_set_self]
    exact coherent

theorem WellFormed.proceed (wellFormed : map.WellFormed) {index now : Nat}
    {call : MapCall TKey TVal} {stage : MapStage TVal}
    (idle : map.pointers.threads[index]? = some .idle)
    (coherent : { map.moveTo index call stage with now := now }.Coherent index
      { call with stage := stage } .idle) :
    { map.moveTo index call stage with now := now }.WellFormed := by
  have threads : map.pointers.threads = map.pointers.threads.set index .idle := by
    obtain ⟨inside, isIdle⟩ := List.getElem?_eq_some_iff.mp idle
    rw [← isIdle, List.set_getElem_self]
  exact wellFormed.moveTo threads (Nat.le_refl _) (List.prefix_refl _) wellFormed.versions coherent

/-- A step of a thread that leaves the proxies of items alone. -/
structure Spares (map : ConcurrentMap skipList TVal) (thread : Nat) (pointers : Pointers) :
    Prop where
  threads : ∃ later, pointers.threads = map.pointers.threads.set thread later ∧
    ∀ proxy, later.Targets proxy → { map with pointers := pointers }.Free proxy
  versions : pointers.versions.length = map.pointers.versions.length
  count : map.pointers.proxies.length ≤ pointers.proxies.length
  others : ∀ place item, map.Live place item →
    pointers.proxies[item.val]? = map.pointers.proxies[item.val]?

section Sparing

variable {pointers : Pointers} {thread : Nat}

theorem spares_of_advance {stage : ProxyStage} (own : ∀ proxy, stage.Targets proxy → map.Free proxy)
    (advanced : map.pointers.advance thread stage = some pointers) :
    map.Spares thread pointers := by
  obtain ⟨⟨later, threads, targets⟩, versions, count, others⟩ := pointers_move_of_advance advanced
  refine ⟨⟨later, threads, ?_⟩, versions, count.ge, ?_⟩
  · intro proxy isTarget
    obtain ⟨within, free⟩ := own proxy (targets proxy isTarget)
    exact ⟨within.trans_eq count.symm, free⟩
  · intro place item isLive
    apply others
    intro isTarget
    exact (own item.val isTarget).2 place item isLive rfl

theorem spares_of_start {later : ProxyStage} (threads : pointers.threads = map.pointers.threads)
    (versions : pointers.versions.length = map.pointers.versions.length)
    (count : map.pointers.proxies.length ≤ pointers.proxies.length)
    (others : ∀ place item, map.Live place item →
      pointers.proxies[item.val]? = map.pointers.proxies[item.val]?)
    (own : ∀ proxy, later.Targets proxy → { map with pointers := pointers }.Free proxy) :
    map.Spares thread (pointers.moveTo thread later) where
  threads := ⟨later, congrArg (List.set · thread later) threads, own⟩
  versions := versions
  count := count
  others := others

theorem spares_of_copy (wellFormed : map.WellFormed) {source : Nat}
    (stepped : map.pointers.step (.copy thread source) = some pointers) :
    map.Spares thread pointers := by
  obtain ⟨_, rfl⟩ := start_of_step rfl stepped
  have longer : map.pointers.proxies.length < (map.pointers.proxies ++ [none]).length := by
    rw [List.length_append]
    exact Nat.lt_succ_self _
  refine spares_of_start rfl rfl longer.le ?_ ?_
  · intro place item isLive
    exact List.getElem?_append_left (wellFormed.bound place item isLive)
  · rintro proxy rfl
    exact ⟨longer, fun place item isLive => (wellFormed.bound place item isLive).ne⟩

theorem spares_of_destroy {proxy : Nat} (free : map.Free proxy)
    (stepped : map.pointers.step (.destroy thread proxy) = some pointers) :
    map.Spares thread pointers := by
  obtain ⟨_, rfl⟩ := start_of_step rfl stepped
  refine spares_of_start rfl rfl (Nat.le_refl _) (fun _ _ _ => rfl) ?_
  rintro other rfl
  exact free

theorem spares_of_usable (wellFormed : map.WellFormed) {action : PointerAction}
    (usable : map.usable action = true) (stepped : map.pointers.step action = some pointers) :
    ∃ thread, map.hasReturned thread = true ∧ map.Spares thread pointers := by
  cases action with
  | copy thread source =>
      rw [ConcurrentMap.usable, Bool.and_eq_true] at usable
      exact ⟨thread, usable.1, spares_of_copy wellFormed stepped⟩
  | assign thread target source =>
      rw [ConcurrentMap.usable, Bool.and_eq_true, Bool.and_eq_true] at usable
      obtain ⟨_, rfl⟩ := start_of_step rfl stepped
      refine ⟨thread, usable.1.1, spares_of_start rfl rfl (Nat.le_refl _) (fun _ _ _ => rfl) ?_⟩
      rintro other rfl
      exact free_eq_true usable.1.2
  | destroy thread proxy =>
      rw [ConcurrentMap.usable, Bool.and_eq_true] at usable
      exact ⟨thread, usable.1, spares_of_destroy (free_eq_true usable.2) stepped⟩
  | read thread proxy =>
      rw [ConcurrentMap.usable, Bool.and_eq_true] at usable
      obtain ⟨_, rfl⟩ := start_of_step rfl stepped
      exact ⟨thread, usable.1, spares_of_start rfl rfl (Nat.le_refl _) (fun _ _ _ => rfl)
        fun _ => False.elim⟩
  | readAgain thread =>
      change map.pointers.readValue thread = some pointers at stepped
      unfold Pointers.readValue at stepped
      split at stepped
      · rename_i version reading
        obtain ⟨held, _, rfl⟩ := Option.map_eq_some_iff.mp stepped
        obtain ⟨inside, isStage⟩ := List.getElem?_eq_some_iff.mp reading
        refine ⟨thread, usable, ⟨.readingValue version, ?_, fun _ => False.elim⟩, rfl,
          Nat.le_refl _, fun _ _ _ => rfl⟩
        rw [← isStage, List.set_getElem_self]
        rfl
      · cases stepped
  | _ => cases usable

end Sparing

theorem coherent_of_idle (map : ConcurrentMap skipList TVal) (index : Nat) (op : MapOp TKey TVal)
    (invoked : Nat) (result : MapResult TVal) :
    map.Coherent index ⟨op, invoked, .decided [] result⟩ .idle :=
  ⟨fun _ => False.elim, fun _ member => absurd member List.not_mem_nil⟩

section Items

variable {key : TKey}

/-- The map once `addOrGetData` has added an item. -/
def publish (map : ConcurrentMap skipList TVal) (key : TKey) (val : TVal) :
    ConcurrentMap skipList TVal :=
  { map with
    list := skipList.addOrGetData map.list key map.items.length
    items := map.items ++ [⟨key, map.pointers.proxies.length + 1, false⟩]
    pointers := map.pointers.publish
    values := map.values ++ [val] }

theorem length_publish (pointers : Pointers) :
    pointers.publish.proxies.length = pointers.proxies.length + 2 :=
  List.length_append

theorem live_of_publish {val : TVal} {place : Nat} {item : ConcurrentMapItem TKey}
    (isLive : (map.publish key val).Live place item) : map.Live place item ∨
      (place = map.items.length ∧ item = ⟨key, map.pointers.proxies.length + 1, false⟩) := by
  rcases found_append isLive.1 with before | isNew
  · exact Or.inl ⟨before, isLive.2⟩
  · exact Or.inr isNew

theorem live_publish {place : Nat} {item : ConcurrentMapItem TKey} (isLive : map.Live place item)
    (val : TVal) : (map.publish key val).Live place item :=
  ⟨(List.getElem?_append_left (List.getElem?_eq_some_iff.mp isLive.1).1).trans isLive.1, isLive.2⟩

theorem grows_publish (val : TVal) : map.Grows (map.publish key val) where
  proxies := by
    change _ ≤ map.pointers.publish.proxies.length
    rw [length_publish]
    exact Nat.le_add_right _ 2
  values version held isValue :=
    (List.getElem?_append_left (List.getElem?_eq_some_iff.mp isValue).1).trans isValue
  live place item isLive := by
    rcases live_of_publish isLive with before | ⟨_, rfl⟩
    · exact Or.inl before
    · exact Or.inr (Nat.le_succ _)

/-- The item that `addOrGetData` is given is destroyed when its copy is in the list. -/
theorem free_publish (wellFormed : map.WellFormed) (val : TVal) :
    (map.publish key val).Free map.pointers.proxies.length := by
  refine ⟨?_, ?_⟩
  · change _ < map.pointers.publish.proxies.length
    rw [length_publish]
    exact Nat.lt_add_of_pos_right Nat.two_pos
  · intro place item isLive
    rcases live_of_publish isLive with before | ⟨_, rfl⟩
    · exact (wellFormed.bound place item before).ne
    · exact Nat.succ_ne_self _

theorem WellFormed.recycle (wellFormed : map.WellFormed) {index item : Nat}
    {known : ConcurrentMapItem TKey} {op : MapOp TKey TVal} {invoked : Nat}
    {result : MapResult TVal} {pointers : Pointers}
    (called : map.calls[index]? = some ⟨op, invoked, .decided [] result⟩)
    (isLive : map.Live item known) (unheld : ∀ call ∈ map.calls, call.stage.holds item = false)
    (erased : skipList.find map.list known.key ≠ some item)
    (started : map.pointers.step (.destroy index known.val) = some pointers) :
    { map with
      items := map.items.set item { known with destroyed := true }
      pointers := pointers }.WellFormed := by
  obtain ⟨_, rfl⟩ := start_of_step rfl started
  let next : ConcurrentMap skipList TVal :=
    { map with
      items := map.items.set item { known with destroyed := true }
      pointers := map.pointers.moveTo index (.clearing known.val) }
  have live_of {place : Nat} {other : ConcurrentMapItem TKey} (stillLive : next.Live place other) :
      map.Live place other ∧ item ≠ place := by
    obtain ⟨located, notDestroyed⟩ := stillLive
    change (map.items.set item _)[place]? = some other at located
    have different : item ≠ place := by
      rintro rfl
      rw [List.getElem?_set_self (List.getElem?_eq_some_iff.mp isLive.1).1] at located
      cases located
      cases notDestroyed
    rw [List.getElem?_set_ne different] at located
    exact ⟨⟨located, notDestroyed⟩, different⟩
  have live_for {place : Nat} {other : ConcurrentMapItem TKey} (before : map.Live place other)
      (different : item ≠ place) : next.Live place other :=
    ⟨(List.getElem?_set_ne different).trans before.1, before.2⟩
  have grows : map.Grows next :=
    ⟨Nat.le_refl _, fun _ _ => id, fun place other stillLive => Or.inl (live_of stillLive).1⟩
  refine ⟨?_, ?_, ?_, List.length_set.trans wellFormed.threads, wellFormed.versions, ?_⟩
  · intro key place isFound
    obtain ⟨other, before, sameKey⟩ := wellFormed.found key place isFound
    refine ⟨other, live_for before ?_, sameKey⟩
    rintro rfl
    obtain rfl : known = other := Option.some.inj (isLive.1.symm.trans before.1)
    rw [sameKey] at erased
    exact erased isFound
  · intro place other stillLive
    exact wellFormed.bound place other (live_of stillLive).1
  · intro first second left right isFirst isSecond same
    exact wellFormed.distinct first second left right (live_of isFirst).1 (live_of isSecond).1 same
  · intro other call stage isCall inMethod
    by_cases isIndex : index = other
    · subst isIndex
      cases called.symm.trans isCall
      change (map.pointers.threads.set index _)[index]? = some stage at inMethod
      obtain ⟨inside, rfl⟩ := List.getElem?_eq_some_iff.mp inMethod
      rw [List.getElem_set_self]
      refine ⟨?_, fun _ member => absurd member List.not_mem_nil⟩
      rintro proxy rfl
      refine ⟨wellFormed.bound item known isLive, ?_⟩
      intro place otherItem stillLive same
      obtain ⟨before, different⟩ := live_of stillLive
      exact different (wellFormed.distinct item place known otherItem isLive before same.symm)
    · change (map.pointers.threads.set index _)[other]? = some stage at inMethod
      rw [List.getElem?_set_ne isIndex] at inMethod
      apply (wellFormed.coherent other call stage isCall inMethod).grow grows
      intro place otherItem holds before
      apply live_for before
      rintro rfl
      rw [unheld call (List.mem_of_getElem? isCall)] at holds
      cases holds

variable [DecidableEq TKey]

theorem WellFormed.publish (wellFormed : map.WellFormed) (documented : skipList.Documented)
    (missing : skipList.find map.list key = none) (val : TVal) :
    (map.publish key val).WellFormed := by
  refine ⟨?_, ?_, ?_, wellFormed.threads, ?_, ?_⟩
  · intro other place isFound
    change skipList.find (skipList.addOrGetData map.list key map.items.length) other = _ at isFound
    rw [documented.find_added, missing] at isFound
    split at isFound
    · rename_i same
      cases isFound
      exact ⟨_, ⟨List.getElem?_concat_length, rfl⟩, same.symm⟩
    · obtain ⟨item, isLive, sameKey⟩ := wellFormed.found other place isFound
      exact ⟨item, live_publish isLive val, sameKey⟩
  · intro place item isLive
    change _ < map.pointers.publish.proxies.length
    rw [length_publish]
    rcases live_of_publish isLive with before | ⟨_, rfl⟩
    · exact (wellFormed.bound place item before).trans (Nat.lt_add_of_pos_right Nat.two_pos)
    · exact Nat.lt_succ_self _
  · intro first second left right isFirst isSecond same
    rcases live_of_publish isFirst with firstBefore | ⟨rfl, rfl⟩
    · rcases live_of_publish isSecond with secondBefore | ⟨_, rfl⟩
      · exact wellFormed.distinct first second left right firstBefore secondBefore same
      · have within := wellFormed.bound first left firstBefore
        exact absurd same (within.trans (Nat.lt_succ_self _)).ne
    · rcases live_of_publish isSecond with secondBefore | ⟨rfl, _⟩
      · have within := wellFormed.bound second right secondBefore
        exact absurd same (within.trans (Nat.lt_succ_self _)).ne'
      · rfl
  · change (map.values ++ [val]).length = (map.pointers.versions ++ [_]).length
    rw [List.length_append, List.length_append, wellFormed.versions]
    rfl
  · intro index call stage called inMethod
    apply (wellFormed.coherent index call stage called inMethod).grow (grows_publish val)
    exact fun item known _ isLive => live_publish isLive val

theorem WellFormed.erase (wellFormed : map.WellFormed) (documented : skipList.Documented)
    (key : TKey) : { map with list := (skipList.erase map.list key).1 }.WellFormed := by
  refine ⟨?_, wellFormed.bound, wellFormed.distinct, wellFormed.threads, wellFormed.versions,
    wellFormed.coherent⟩
  intro other place isFound
  change skipList.find (skipList.erase map.list key).1 other = _ at isFound
  rw [documented.find_erased] at isFound
  split at isFound
  · cases isFound
  · exact wellFormed.found other place isFound

end Items

end ConcurrentMap

end Relevanced.Util
