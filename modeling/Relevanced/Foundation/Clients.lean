import Relevanced.Foundation.Pool

/-!
# What a client can rely on

A contract says what holds of the store between any two calls, which requests keep it
so, and what such a request is answered. A client that is the only one to make requests
and keeps to the contract gets answers that meet it, in whatever order the tasks take
their steps; and some order takes it to its end.
-/

namespace Foundation

set_option autoImplicit false

variable {σ α β : Type} {I : Interface} {J : Requests}

namespace Program

/-- From stores in which `Inv` holds, the program keeps it and ends with a value in `Post`, whatever
else keeps `Inv` in between. -/
def Guaranteed (handler : Handler I σ) (Inv : σ → Prop) (Post : α → Prop) : Program I α → Prop
  | done value => Post value
  | call request next => ∀ state, Inv state → Inv (handler request state).2 ∧
      (next (handler request state).1).Guaranteed handler Inv Post

section Guaranteed

variable {handler : Handler I σ} {Inv : σ → Prop} {Post : α → Prop} {program : Program I α}

theorem Guaranteed.mono {Wider : α → Prop} (guaranteed : program.Guaranteed handler Inv Post)
    (wider : ∀ value, Post value → Wider value) : program.Guaranteed handler Inv Wider := by
  induction program with
  | done value => exact wider value guaranteed
  | call request next ih =>
      intro state holds
      obtain ⟨kept, later⟩ := guaranteed state holds
      exact ⟨kept, ih _ later⟩

theorem guaranteed_bind {rest : α → Program I β} {Last : β → Prop}
    (first : program.Guaranteed handler Inv Post)
    (second : ∀ value, Post value → (rest value).Guaranteed handler Inv Last) :
    (program >>= rest).Guaranteed handler Inv Last := by
  change (program.bind rest).Guaranteed handler Inv Last
  induction program with
  | done value => exact second value first
  | call request next ih =>
      intro state holds
      obtain ⟨kept, later⟩ := first state holds
      exact ⟨kept, ih _ later⟩

theorem guaranteed_of_calls {Allowed : I.Call → Prop}
    (keeps : ∀ request state, Allowed request → Inv state → Inv (handler request state).2)
    (calls : program.Calls Allowed) : program.Guaranteed handler Inv fun _ => True := by
  induction program with
  | done value => trivial
  | call request next ih =>
      intro state holds
      exact ⟨keeps request state calls.1 holds, ih _ (calls.2 _)⟩

/-- Whatever store in `Inv` a call of the program is made in, it goes on as it does from `store`. -/
def Steady (handler : Handler I σ) (Inv : σ → Prop) (store : σ) : Program I α → Prop
  | done _ => True
  | call request next =>
      (∀ state, Inv state → (handler request state).2 = state ∧
        next (handler request state).1 = next (handler request store).1) ∧
      (next (handler request store).1).Steady handler Inv store

variable {store : σ}

theorem steady_bind {rest : α → Program I β} (first : program.Steady handler Inv store)
    (second : ∀ value, (rest value).Steady handler Inv store) :
    (program >>= rest).Steady handler Inv store := by
  change (program.bind rest).Steady handler Inv store
  induction program with
  | done value => exact second value
  | call request next ih =>
      refine ⟨?_, ih _ first.2⟩
      intro state holds
      obtain ⟨unchanged, same⟩ := first.1 state holds
      exact ⟨unchanged, congrArg (fun later => later.bind rest) same⟩

theorem steady_perform {request : I.Call}
    (same : ∀ state, Inv state → (handler request state).2 = state ∧
      (handler request state).1 = (handler request store).1) :
    (perform request).Steady handler Inv store := by
  refine ⟨?_, trivial⟩
  intro state holds
  exact ⟨(same state holds).1, congrArg done (same state holds).2⟩

theorem guaranteed_of_steady (holds : Inv store) (steady : program.Steady handler Inv store) :
    program.Guaranteed handler Inv fun value => value = (program.run handler store).1 := by
  induction program with
  | done value => rfl
  | call request next ih =>
      intro state held
      obtain ⟨unchanged, same⟩ := steady.1 state held
      rw [unchanged, same, run, (steady.1 store holds).1]
      exact ⟨held, ih _ steady.2⟩

end Guaranteed

end Program

structure Contract (σ : Type) (J : Requests) where
  Inv : σ → Prop
  Good : J.Request → Prop
  Answers : (request : J.Request) → J.Reply request → Prop

def Contract.Honoured (contract : Contract σ J) (service : Service σ I J) : Prop :=
  ∀ request, contract.Good request → (service.method request).Guaranteed service.handler
    contract.Inv (contract.Answers request)

/-- As long as answers meet the contract, a client that has made the requests `submitted` makes
good ones only, until it makes one in `Stop`, and ends in `Post`. -/
def Delivers (contract : Contract σ J) (Stop : J.Request → Prop)
    (Post : α → List J.Request → Prop) : ClientProgram J α → List J.Request → Prop
  | .done value, submitted => Post value submitted
  | .call (.submit request) next, submitted => Stop request ∨ contract.Good request ∧
      Delivers contract Stop Post (next submitted.length) (submitted ++ [request])
  | .call (.await kind future) next, submitted => ∃ request, ∃ same : J.kind request = kind,
      submitted[future]? = some request ∧ ∀ value, contract.Answers request value →
        Delivers contract Stop Post (next (same ▸ value)) submitted

section Delivers

variable {contract : Contract σ J} {Stop : J.Request → Prop} {Post : α → List J.Request → Prop}
  {submitted : List J.Request}

theorem delivers_pure {value : α} (post : Post value submitted) :
    Delivers contract Stop Post (pure value) submitted := post

theorem delivers_bind {Last : β → List J.Request → Prop} {program : ClientProgram J α}
    {rest : α → ClientProgram J β} (first : Delivers contract Stop Post program submitted)
    (second : ∀ value later, Post value later → Delivers contract Stop Last (rest value) later) :
    Delivers contract Stop Last (program >>= rest) submitted := by
  change Delivers contract Stop Last (program.bind rest) submitted
  induction program generalizing submitted with
  | done value => exact second value submitted first
  | call request next ih =>
      cases request with
      | submit request =>
          rcases first with stops | ⟨good, later⟩
          · exact .inl stops
          · exact .inr ⟨good, ih _ later⟩
      | await kind future =>
          obtain ⟨request, same, found, later⟩ := first
          refine ⟨request, same, found, ?_⟩
          intro value answers
          exact ih _ (later value answers)

theorem Delivers.mono {Wider : α → List J.Request → Prop} {program : ClientProgram J α}
    (delivers : Delivers contract Stop Post program submitted)
    (wider : ∀ value later, Post value later → Wider value later) :
    Delivers contract Stop Wider program submitted := by
  rw [← Program.bind_done program]
  exact delivers_bind delivers wider

theorem Delivers.stop_mono {Other : J.Request → Prop} {program : ClientProgram J α}
    (delivers : Delivers contract Stop Post program submitted)
    (stops : ∀ request, Stop request → Other request) :
    Delivers contract Other Post program submitted := by
  induction program generalizing submitted with
  | done value => exact delivers
  | call request next ih =>
      cases request with
      | submit request => exact delivers.imp (stops request) fun later => ⟨later.1, ih _ later.2⟩
      | await kind future =>
          obtain ⟨request, same, found, later⟩ := delivers
          exact ⟨request, same, found, fun value answers => ih _ (later value answers)⟩

theorem delivers_submit_bind {request : J.Request} {rest : Nat → ClientProgram J α}
    (later : Stop request ∨ contract.Good request ∧
      Delivers contract Stop Post (rest submitted.length) (submitted ++ [request])) :
    Delivers contract Stop Post (submit request >>= rest) submitted := later

theorem delivers_await_bind {kind : J.Kind} {future : Nat}
    {rest : J.Answer kind → ClientProgram J α}
    (request : J.Request) (same : J.kind request = kind) (found : submitted[future]? = some request)
    (later : ∀ value, contract.Answers request value →
      Delivers contract Stop Post (rest (same ▸ value)) submitted) :
    Delivers contract Stop Post (await kind future >>= rest) submitted :=
  ⟨request, same, found, later⟩

end Delivers

namespace Pool

def requests (pool : Pool σ I J α) : List J.Request := pool.tasks.map PoolTask.request

@[simp] theorem requests_issue (service : Service σ I J) (pool : Pool σ I J α)
    (request : J.Request) : (pool.issue service request).requests = pool.requests ++ [request] :=
  List.map_append

@[simp] theorem length_requests (pool : Pool σ I J α) :
    pool.requests.length = pool.tasks.length := List.length_map ..

theorem requests_set {pool : Pool σ I J α} {index : Nat} {task later : PoolTask I J}
    (found : pool.tasks[index]? = some task) (same : later.request = task.request) :
    (pool.tasks.set index later).map PoolTask.request = pool.requests := by
  rw [List.map_set, same, requests]
  apply List.ext_getElem?
  intro position
  by_cases here : index = position
  · subst here
    have bound := (List.getElem?_eq_some_iff.mp found).1
    rw [List.getElem?_set_self (by rwa [List.length_map]), List.getElem?_map, found]
    rfl
  · rw [List.getElem?_set_ne here]

theorem requests_after {pool : Pool σ I J α} {index : Nat} {task : PoolTask I J}
    (found : pool.tasks[index]? = some task) (call : I.Call)
    (rest : Program I (J.Reply task.request)) :
    (pool.tasks.set index (task.after call rest)).map PoolTask.request = pool.requests :=
  requests_set found (PoolTask.request_after ..)

end Pool

def Alone : PoolAction J → Prop
  | .issue _ => False
  | _ => True

instance (action : PoolAction J) : Decidable (Alone action) := by
  unfold Alone
  split <;> infer_instance

/-- A pool with one client that has made good requests only. -/
structure Contract.Kept (contract : Contract σ J) (service : Service σ I J)
    (Stop : J.Request → Prop) (Post : α → List J.Request → Prop) (pool : Pool σ I J α) : Prop where
  store : contract.Inv pool.store
  tasks : ∀ task ∈ pool.tasks, task.program.Guaranteed service.handler contract.Inv
    (contract.Answers task.request)
  good : ∀ request ∈ pool.requests, contract.Good request
  client : ∃ program, pool.clients = [program] ∧ Delivers contract Stop Post program pool.requests

section Kept

variable [DecidableEq J.Kind] {service : Service σ I J} {contract : Contract σ J}
  {Stop : J.Request → Prop} {Post : α → List J.Request → Prop} {pool next : Pool σ I J α}

omit [DecidableEq J.Kind] in
theorem Contract.Kept.issue (kept : contract.Kept service Stop Post pool)
    (honoured : contract.Honoured service) {request : J.Request} (good : contract.Good request)
    {program : ClientProgram J α}
    (delivers : Delivers contract Stop Post program (pool.requests ++ [request])) :
    contract.Kept service Stop Post
      { pool.issue service request with clients := [program] } := by
  refine ⟨kept.store, ?_, ?_, program, rfl, ?_⟩
  · intro task member
    rcases List.mem_append.mp member with old | new
    · exact kept.tasks task old
    · rw [List.mem_singleton.mp new]
      exact honoured request good
  · change ∀ earlier ∈ (pool.issue service request).requests, contract.Good earlier
    rw [Pool.requests_issue]
    intro earlier member
    rcases List.mem_append.mp member with old | new
    · exact kept.good earlier old
    · rw [List.mem_singleton.mp new]
      exact good
  · change Delivers contract Stop Post program (pool.issue service request).requests
    rw [Pool.requests_issue]
    exact delivers

omit [DecidableEq J.Kind] in
theorem Contract.Kept.call (kept : contract.Kept service Stop Post pool) {index : Nat}
    {task : PoolTask I J} {call : I.Call}
    {rest : I.Answer call → Program I (J.Reply task.request)}
    (found : pool.tasks[index]? = some task) (remaining : task.program = .call call rest) :
    contract.Kept service Stop Post { pool with
      store := (service.handler call pool.store).2
      tasks := pool.tasks.set index
        (task.after call (rest (service.handler call pool.store).1)) } := by
  have guaranteed := kept.tasks task (List.mem_of_getElem? found)
  rw [remaining] at guaranteed
  obtain ⟨holds, later⟩ := guaranteed pool.store kept.store
  obtain ⟨program, isClient, delivers⟩ := kept.client
  refine ⟨holds, ?_, ?_, program, isClient, ?_⟩
  · intro other member
    rcases List.mem_or_eq_of_mem_set member with old | rfl
    · exact kept.tasks other old
    · exact later
  · change ∀ request ∈ (pool.tasks.set index _).map PoolTask.request, contract.Good request
    rw [Pool.requests_after found]
    exact kept.good
  · change Delivers contract Stop Post program ((pool.tasks.set index _).map PoolTask.request)
    rw [Pool.requests_after found]
    exact delivers

omit [DecidableEq J.Kind] in
theorem Contract.Kept.deliver (kept : contract.Kept service Stop Post pool) {kind : J.Kind}
    {future : Nat} {rest : J.Answer kind → ClientProgram J α} {task : PoolTask I J}
    (same : J.kind task.request = kind) {value : J.Reply task.request}
    (waits : Delivers contract Stop Post (.call (.await kind future) rest) pool.requests)
    (present : pool.tasks[future]? = some task) (finished : task.program = .done value) :
    contract.Kept service Stop Post { pool with clients := [rest (same ▸ value)] } := by
  have answers := kept.tasks task (List.mem_of_getElem? present)
  rw [finished] at answers
  obtain ⟨request, kindIs, found, later⟩ := waits
  rw [Pool.requests, List.getElem?_map, present] at found
  cases found
  exact ⟨kept.store, kept.tasks, kept.good, _, rfl, later value answers⟩

omit [DecidableEq J.Kind] in
theorem only_client {program found : ClientProgram J α} (isClient : pool.clients = [program])
    {index : Nat} (isThere : pool.clients[index]? = some found) : index = 0 ∧ found = program := by
  rw [isClient] at isThere
  cases index with
  | zero => exact ⟨rfl, (Option.some.inj isThere).symm⟩
  | succ index => cases isThere

theorem Contract.Kept.step (honoured : contract.Honoured service)
    (kept : contract.Kept service Stop Post pool) {action : PoolAction J} (alone : Alone action)
    (stepped : (poolMachine α service).step pool action = some next) :
    (∃ request ∈ next.requests, Stop request) ∨ contract.Kept service Stop Post next := by
  obtain ⟨program, isClient, delivers⟩ := kept.client
  cases pool_step_cases stepped with
  | issued request => exact absurd alone id
  | called index task call rest found remaining => exact .inr (kept.call found remaining)
  | submitted index request rest found =>
      obtain ⟨rfl, rfl⟩ := only_client isClient found
      rw [isClient]
      rcases delivers with stops | ⟨good, later⟩
      · left
        refine ⟨request, ?_, stops⟩
        change request ∈ (pool.issue service request).requests
        rw [Pool.requests_issue]
        exact List.mem_append_right _ List.mem_cons_self
      · rw [Pool.length_requests] at later
        exact .inr (kept.issue honoured good later)
  | awaited index future kind rest task same value found present finished =>
      obtain ⟨rfl, rfl⟩ := only_client isClient found
      rw [isClient]
      exact .inr (kept.deliver same delivers present finished)

theorem requests_of_step {action : PoolAction J}
    (stepped : (poolMachine α service).step pool action = some next) :
    ∀ request ∈ pool.requests, request ∈ next.requests := by
  intro earlier member
  cases pool_step_cases stepped with
  | issued request =>
      rw [Pool.requests_issue]
      exact List.mem_append_left _ member
  | called index task call rest found remaining =>
      change earlier ∈ (pool.tasks.set index _).map PoolTask.request
      rw [Pool.requests_after found]
      exact member
  | submitted index request rest found =>
      change earlier ∈ (pool.issue service request).requests
      rw [Pool.requests_issue]
      exact List.mem_append_left _ member
  | awaited index future kind rest task same value found present finished => exact member

/-- A client that keeps to a contract: whatever the order of the steps, it has made a request in
`Stop`, or the contract is kept. -/
theorem delivered (honoured : contract.Honoured service) {store : σ} {program : ClientProgram J α}
    (holds : contract.Inv store) (delivers : Delivers contract Stop Post program [])
    {actions : List (PoolAction J)} (alone : ∀ action ∈ actions, Alone action) {last : Pool σ I J α}
    (executed : (poolMachine α service).exec actions (.initial store [program]) = some last) :
    (∃ request ∈ last.requests, Stop request) ∨ contract.Kept service Stop Post last := by
  have preserved : ∀ (pool : Pool σ I J α) (action : PoolAction J) (next : Pool σ I J α),
      (∃ request ∈ pool.requests, Stop request) ∨ contract.Kept service Stop Post pool →
      Alone action → (poolMachine α service).step pool action = some next →
      (∃ request ∈ next.requests, Stop request) ∨ contract.Kept service Stop Post next := by
    intro pool action next invariant isAlone stepped
    rcases invariant with ⟨request, member, stops⟩ | kept
    · exact .inl ⟨request, requests_of_step stepped request member, stops⟩
    · exact kept.step honoured isAlone stepped
  apply Machine.invariant_of_allowed preserved actions alone _ executed
  right
  refine ⟨holds, ?_, ?_, program, rfl, delivers⟩
  · intro task member
    cases member
  · intro request member
    cases member

omit [DecidableEq J.Kind] in
theorem Contract.Kept.post (kept : contract.Kept service Stop Post pool) {value : α}
    (ended : pool.clients = [.done value]) : Post value pool.requests := by
  obtain ⟨program, isClient, delivers⟩ := kept.client
  rw [ended] at isClient
  cases isClient
  exact delivers

end Kept

section Moves

variable [DecidableEq J.Kind] {service : Service σ I J} {pool : Pool σ I J α}

theorem submitted_step {request : J.Request} {rest : Nat → ClientProgram J α}
    (isClient : pool.clients = [.call (.submit request) rest]) :
    (poolMachine α service).step pool (.client 0) = some
      { pool.issue service request with clients := [rest pool.tasks.length] } := by
  change pool.clients[0]?.bind _ = _
  rw [isClient]
  simp only [List.getElem?_cons_zero, Option.bind_some, Pool.proceed, isClient, List.set_cons_zero]

theorem awaited_step {kind : J.Kind} {future : Nat} {rest : J.Answer kind → ClientProgram J α}
    {task : PoolTask I J} {value : J.Reply task.request} (same : J.kind task.request = kind)
    (isClient : pool.clients = [.call (.await kind future) rest])
    (present : pool.tasks[future]? = some task) (finished : task.program = .done value) :
    (poolMachine α service).step pool (.client 0) = some
      { pool with clients := [rest (same ▸ value)] } := by
  have delivered : pool.deliver kind future = some (same ▸ value) := by
    rw [Pool.deliver, present, Option.bind_some, PoolTask.answerAs, dif_pos same, PoolTask.answer,
      finished]
    rfl
  change pool.clients[0]?.bind _ = _
  rw [isClient]
  simp only [List.getElem?_cons_zero, Option.bind_some, Pool.proceed, delivered, Option.map_some,
    isClient, List.set_cons_zero]

/-- Steps of the client and of its tasks lead to the other pool, with the invariant all along. -/
def LeadsTo (service : Service σ I J) (Inv : σ → Prop) (pool last : Pool σ I J α) : Prop :=
  ∃ actions : List (PoolAction J), (∀ action ∈ actions, Alone action) ∧
    (poolMachine α service).Along (fun pool => Inv pool.store) actions pool ∧
    (poolMachine α service).exec actions pool = some last

section LeadsTo

variable {Inv : σ → Prop} {next middle last : Pool σ I J α}

theorem leads_to_self (holds : Inv pool.store) : LeadsTo service Inv pool pool :=
  ⟨[], by simp, holds, rfl⟩

theorem LeadsTo.before (later : LeadsTo service Inv next last) (holds : Inv pool.store)
    {action : PoolAction J} (stepped : (poolMachine α service).step pool action = some next)
    (alone : Alone action) : LeadsTo service Inv pool last := by
  obtain ⟨actions, allAlone, along, executed⟩ := later
  refine ⟨action :: actions, ?_, ⟨holds, ?_⟩, ?_⟩
  · intro other member
    rcases List.mem_cons.mp member with rfl | inRest
    · exact alone
    · exact allAlone other inRest
  · intro other alsoStepped
    rw [stepped] at alsoStepped
    cases alsoStepped
    exact along
  · rw [Machine.exec_of_step stepped]
    exact executed

theorem LeadsTo.trans (first : LeadsTo service Inv pool middle)
    (second : LeadsTo service Inv middle last) : LeadsTo service Inv pool last := by
  obtain ⟨actions, alone, along, executed⟩ := first
  obtain ⟨later, alsoAlone, alsoAlong, finished⟩ := second
  refine ⟨actions ++ later, ?_, Machine.along_append along executed alsoAlong, ?_⟩
  · intro action member
    rcases List.mem_append.mp member with inFirst | inSecond
    · exact alone action inFirst
    · exact alsoAlone action inSecond
  · rw [Machine.exec_append, executed, Option.bind_some]
    exact finished

end LeadsTo

/-- The pool once a task has been brought to its answer, with the store this leads to. -/
def Pool.answered (pool : Pool σ I J α) (index : Nat) (store : σ) (request : J.Request)
    (made : List I.Call) (value : J.Reply request) : Pool σ I J α :=
  { pool with
    store := store
    tasks := pool.tasks.set index ⟨request, made, .done value⟩ }

omit [DecidableEq J.Kind] in
theorem Pool.requests_answered (pool : Pool σ I J α) {index : Nat} {task : PoolTask I J}
    (found : pool.tasks[index]? = some task) (store : σ) (made : List I.Call)
    (value : J.Reply task.request) :
    (pool.answered index store task.request made value).requests = pool.requests :=
  Pool.requests_set found rfl

omit [DecidableEq J.Kind] in
theorem Pool.answered_task (pool : Pool σ I J α) {index : Nat} {task : PoolTask I J}
    (found : pool.tasks[index]? = some task) (store : σ) (made : List I.Call)
    (value : J.Reply task.request) :
    (pool.answered index store task.request made value).tasks[index]? =
      some ⟨task.request, made, .done value⟩ :=
  List.getElem?_set_self (List.getElem?_eq_some_iff.mp found).1

theorem task_leads_to {Inv : σ → Prop} {index : Nat} {task : PoolTask I J}
    {Post : J.Reply task.request → Prop}
    (guaranteed : task.program.Guaranteed service.handler Inv Post) (holds : Inv pool.store)
    (found : pool.tasks[index]? = some task) :
    ∃ (store : σ) (made : List I.Call) (value : J.Reply task.request),
      LeadsTo service Inv pool (pool.answered index store task.request made value) ∧ Inv store ∧
      Post value := by
  obtain ⟨request, made, program⟩ := task
  induction program generalizing pool made with
  | done value =>
      refine ⟨pool.store, made, value, ?_, holds, guaranteed⟩
      obtain ⟨bound, isThere⟩ := List.getElem?_eq_some_iff.mp found
      have unchanged : pool.tasks.set index ⟨request, made, .done value⟩ = pool.tasks := by
        rw [← isThere, List.set_getElem_self]
      rw [Pool.answered, unchanged]
      exact leads_to_self holds
  | call call rest ih =>
      have bound := (List.getElem?_eq_some_iff.mp found).1
      have stepped : (poolMachine α service).step pool (.task index) = some { pool with
          store := (service.handler call pool.store).2
          tasks := pool.tasks.set index
            ⟨request, call :: made, rest (service.handler call pool.store).1⟩ } := by
        change pool.tasks[index]?.bind _ = _
        rw [found]
        rfl
      obtain ⟨kept, later⟩ := guaranteed pool.store holds
      have keptNext : Inv ({ pool with
          store := (service.handler call pool.store).2
          tasks := pool.tasks.set index ⟨request, call :: made,
            rest (service.handler call pool.store).1⟩ } : Pool σ I J α).store := kept
      obtain ⟨store, after, value, leads, holdsLast, post⟩ :=
        ih _ keptNext (call :: made) later (List.getElem?_set_self bound)
      refine ⟨store, after, value, ?_, holdsLast, post⟩
      rw [Pool.answered, List.set_set] at leads
      exact leads.before holds stepped trivial

theorem answer_leads_to {Inv : σ → Prop} {kind : J.Kind} {future : Nat}
    {rest : J.Answer kind → ClientProgram J α} {task : PoolTask I J}
    {Post : J.Reply task.request → Prop} (same : J.kind task.request = kind)
    (isClient : pool.clients = [.call (.await kind future) rest])
    (guaranteed : task.program.Guaranteed service.handler Inv Post) (holds : Inv pool.store)
    (found : pool.tasks[future]? = some task) :
    ∃ (store : σ) (made : List I.Call) (value : J.Reply task.request),
      LeadsTo service Inv pool { pool.answered future store task.request made value with
        clients := [rest (same ▸ value)] } ∧ Inv store ∧ Post value := by
  obtain ⟨store, made, value, leads, holdsThen, post⟩ := task_leads_to guaranteed holds found
  refine ⟨store, made, value, leads.trans ?_, holdsThen, post⟩
  have isThere := pool.answered_task found store made value
  have waiting : (pool.answered future store task.request made value).clients =
      [.call (.await kind future) rest] := isClient
  have sameKind : J.kind (⟨task.request, made, .done value⟩ : PoolTask I J).request = kind := same
  have taken : Inv ({ pool.answered future store task.request made value with
      clients := [rest (same ▸ value)] } : Pool σ I J α).store := holdsThen
  exact (leads_to_self taken).before holdsThen (awaited_step sameKind waiting isThere rfl) trivial

end Moves

section Progress

variable [DecidableEq J.Kind] {service : Service σ I J} {contract : Contract σ J}
  {Post : α → List J.Request → Prop} {pool : Pool σ I J α}

omit [DecidableEq J.Kind] in
theorem Contract.Kept.answered (kept : contract.Kept service (fun _ => False) Post pool)
    {index : Nat} {task : PoolTask I J} (found : pool.tasks[index]? = some task) {store : σ}
    (holds : contract.Inv store) (made : List I.Call) {value : J.Reply task.request}
    (answers : contract.Answers task.request value) :
    contract.Kept service (fun _ => False) Post
      (pool.answered index store task.request made value) := by
  have requests := pool.requests_answered found store made value
  obtain ⟨program, isClient, delivers⟩ := kept.client
  refine ⟨holds, ?_, ?_, program, isClient, ?_⟩
  · intro other member
    rcases List.mem_or_eq_of_mem_set member with old | rfl
    · exact kept.tasks other old
    · exact answers
  · rw [requests]
    exact kept.good
  · rw [requests]
    exact delivers

/-- Some order of steps brings a client that keeps to a contract to its end. -/
theorem client_ends (honoured : contract.Honoured service) {program : ClientProgram J α}
    (kept : contract.Kept service (fun _ => False) Post pool)
    (isClient : pool.clients = [program]) :
    ∃ (last : Pool σ I J α) (value : α), LeadsTo service contract.Inv pool last ∧
      last.clients = [.done value] ∧ Post value last.requests := by
  induction program generalizing pool with
  | done value => exact ⟨pool, value, leads_to_self kept.store, isClient, kept.post isClient⟩
  | call call rest ih =>
      obtain ⟨program, isProgram, delivers⟩ := kept.client
      rw [isClient] at isProgram
      cases isProgram
      cases call with
      | submit request =>
          obtain ⟨good, later⟩ := delivers.resolve_left id
          rw [Pool.length_requests] at later
          obtain ⟨last, value, leads, ended⟩ := ih _ (kept.issue honoured good later) rfl
          exact ⟨last, value, leads.before kept.store (submitted_step isClient) trivial, ended⟩
      | await kind future =>
          obtain ⟨request, same, asked, _⟩ := id delivers
          rw [Pool.requests, List.getElem?_map, Option.map_eq_some_iff] at asked
          obtain ⟨task, found, rfl⟩ := asked
          obtain ⟨store, made, value, leads, holds, answers⟩ := answer_leads_to same isClient
            (kept.tasks task (List.mem_of_getElem? found)) kept.store found
          have waits : Delivers contract (fun _ => False) Post (.call (.await kind future) rest)
              (pool.answered future store task.request made value).requests := by
            rw [pool.requests_answered found]
            exact delivers
          have sameKind :
              J.kind (⟨task.request, made, .done value⟩ : PoolTask I J).request = kind :=
            same
          have keptThen := (kept.answered found holds made answers).deliver sameKind waits
            (pool.answered_task found store made value) rfl
          obtain ⟨last, result, later, ended⟩ := ih _ keptThen rfl
          exact ⟨last, result, leads.trans later, ended⟩

theorem exists_delivered (honoured : contract.Honoured service) {store : σ}
    {program : ClientProgram J α} (holds : contract.Inv store)
    (delivers : Delivers contract (fun _ => False) Post program []) :
    ∃ (actions : List (PoolAction J)) (last : Pool σ I J α) (value : α),
      (∀ action ∈ actions, Alone action) ∧
      (poolMachine α service).exec actions (.initial store [program]) = some last ∧
      last.clients = [.done value] ∧ Post value last.requests := by
  have kept : contract.Kept service (fun _ => False) Post (.initial store [program]) := by
    refine ⟨holds, ?_, ?_, program, rfl, delivers⟩
    · intro task member
      cases member
    · intro request member
      cases member
  obtain ⟨last, value, ⟨actions, alone, _, executed⟩, ended⟩ := client_ends honoured kept rfl
  exact ⟨actions, last, value, alone, executed, ended⟩

end Progress

end Foundation
