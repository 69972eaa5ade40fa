import Relevanced.Foundation.Clients

/-!
# Clients in company

A client whose tasks share the store with those of others, who make requests of their own
at any time. A contract then says what is answered while its invariant lasts; that it
lasts is up to the run. It is asked only for the requests the client waits for. From
every such state steps of the awaited tasks take the client to its end.
-/

namespace Foundation

set_option autoImplicit false

variable {σ α β : Type} {I : Interface} {J : Requests}

/-- As long as answers meet the contract, and whatever is requested in between, a client that
knows the requests `submitted` waits for good ones only, and ends in `Post`. -/
def DeliversAmong (contract : Contract σ J) (Post : α → List J.Request → Prop) :
    ClientProgram J α → List J.Request → Prop
  | .done value, submitted => ∀ others, Post value (submitted ++ others)
  | .call (.submit request) next, submitted => ∀ others,
      DeliversAmong contract Post (next (submitted ++ others).length)
        (submitted ++ others ++ [request])
  | .call (.await kind future) next, submitted => ∃ request, ∃ same : J.kind request = kind,
      submitted[future]? = some request ∧ contract.Good request ∧
        ∀ value, contract.Answers request value →
          DeliversAmong contract Post (next (same ▸ value)) submitted

section Delivers

variable {contract : Contract σ J} {Post : α → List J.Request → Prop} {submitted : List J.Request}

theorem DeliversAmong.grow {program : ClientProgram J α}
    (delivers : DeliversAmong contract Post program submitted) (more : List J.Request) :
    DeliversAmong contract Post program (submitted ++ more) := by
  induction program generalizing submitted with
  | done value =>
      intro others
      rw [List.append_assoc]
      exact delivers (more ++ others)
  | call request next ih =>
      cases request with
      | submit request =>
          intro others
          rw [List.append_assoc]
          exact delivers (more ++ others)
      | await kind future =>
          obtain ⟨request, same, found, good, later⟩ := delivers
          refine ⟨request, same, ?_, good, fun value answers => ih _ (later value answers)⟩
          rw [List.getElem?_append_left (List.getElem?_eq_some_iff.mp found).1]
          exact found

theorem delivers_among_pure {value : α} (post : ∀ others, Post value (submitted ++ others)) :
    DeliversAmong contract Post (pure value) submitted := post

theorem delivers_among_bind {Last : β → List J.Request → Prop} {program : ClientProgram J α}
    {rest : α → ClientProgram J β} (first : DeliversAmong contract Post program submitted)
    (second : ∀ value later, Post value later → DeliversAmong contract Last (rest value) later) :
    DeliversAmong contract Last (program >>= rest) submitted := by
  change DeliversAmong contract Last (program.bind rest) submitted
  induction program generalizing submitted with
  | done value =>
      have post := first []
      rw [List.append_nil] at post
      exact second value submitted post
  | call request next ih =>
      cases request with
      | submit request => exact fun others => ih _ (first others)
      | await kind future =>
          obtain ⟨request, same, found, good, later⟩ := first
          exact ⟨request, same, found, good, fun value answers => ih _ (later value answers)⟩

theorem DeliversAmong.mono {Wider : α → List J.Request → Prop} {program : ClientProgram J α}
    (delivers : DeliversAmong contract Post program submitted)
    (wider : ∀ value later, Post value later → Wider value later) :
    DeliversAmong contract Wider program submitted := by
  induction program generalizing submitted with
  | done value => exact fun others => wider value _ (delivers others)
  | call request next ih =>
      cases request with
      | submit request => exact fun others => ih _ (delivers others)
      | await kind future =>
          obtain ⟨request, same, found, good, later⟩ := delivers
          exact ⟨request, same, found, good, fun value answers => ih _ (later value answers)⟩

theorem DeliversAmong.returning {Possible : α → Prop} {program : ClientProgram J α}
    (delivers : DeliversAmong contract Post program submitted)
    (returns : program.Returns Possible) :
    DeliversAmong contract (fun value later => Post value later ∧ Possible value) program
      submitted := by
  induction program generalizing submitted with
  | done value => exact fun others => ⟨delivers others, returns⟩
  | call request next ih =>
      cases request with
      | submit request => exact fun others => ih _ (delivers others) (returns _)
      | await kind future =>
          obtain ⟨request, same, found, good, later⟩ := delivers
          exact ⟨request, same, found, good,
            fun value answers => ih _ (later value answers) (returns _)⟩

theorem delivers_among_submit_bind {request : J.Request} {rest : Nat → ClientProgram J α}
    (later : ∀ others, DeliversAmong contract Post (rest (submitted ++ others).length)
      (submitted ++ others ++ [request])) :
    DeliversAmong contract Post (submit request >>= rest) submitted := later

theorem delivers_among_await_bind {kind : J.Kind} {future : Nat}
    {rest : J.Answer kind → ClientProgram J α} (request : J.Request) (same : J.kind request = kind)
    (found : submitted[future]? = some request) (good : contract.Good request)
    (later : ∀ value, contract.Answers request value →
      DeliversAmong contract Post (rest (same ▸ value)) submitted) :
    DeliversAmong contract Post (await kind future >>= rest) submitted :=
  ⟨request, same, found, good, later⟩

end Delivers

/-- A pool with one client to look at, and good tasks that will be answered as they are to be. -/
structure Contract.KeptAmong (contract : Contract σ J) (service : Service σ I J)
    (Post : α → List J.Request → Prop) (pool : Pool σ I J α) : Prop where
  store : contract.Inv pool.store
  tasks : ∀ task ∈ pool.tasks, contract.Good task.request →
    task.program.Guaranteed service.handler contract.Inv (contract.Answers task.request)
  client : ∃ program, pool.clients = [program] ∧ DeliversAmong contract Post program pool.requests

section Kept

variable {service : Service σ I J} {contract : Contract σ J} {Post : α → List J.Request → Prop}
  {pool next : Pool σ I J α}

theorem kept_among_initial {store : σ} {program : ClientProgram J α} (holds : contract.Inv store)
    (delivers : DeliversAmong contract Post program []) :
    contract.KeptAmong service Post (.initial store [program]) where
  store := holds
  tasks := by
    intro task member
    cases member
  client := ⟨program, rfl, delivers⟩

theorem Contract.KeptAmong.issue (kept : contract.KeptAmong service Post pool)
    (honoured : contract.Honoured service) {request : J.Request} {program : ClientProgram J α}
    (delivers : DeliversAmong contract Post program (pool.requests ++ [request])) :
    contract.KeptAmong service Post { pool.issue service request with clients := [program] } where
  store := kept.store
  tasks := by
    intro task member good
    rcases List.mem_append.mp member with old | new
    · exact kept.tasks task old good
    · cases List.mem_singleton.mp new
      exact honoured request good
  client := by
    refine ⟨program, rfl, ?_⟩
    change DeliversAmong contract Post program (pool.issue service request).requests
    rw [Pool.requests_issue]
    exact delivers

theorem Contract.KeptAmong.call (kept : contract.KeptAmong service Post pool) {index : Nat}
    {task : PoolTask I J} {call : I.Call} {rest : I.Answer call → Program I (J.Reply task.request)}
    (found : pool.tasks[index]? = some task) (remaining : task.program = .call call rest)
    (holds : contract.Inv (service.handler call pool.store).2) :
    contract.KeptAmong service Post { pool with
      store := (service.handler call pool.store).2
      tasks := pool.tasks.set index
        (task.after call (rest (service.handler call pool.store).1)) } where
  store := holds
  tasks := by
    intro other member good
    rcases List.mem_or_eq_of_mem_set member with old | rfl
    · exact kept.tasks other old good
    · have guaranteed := kept.tasks task (List.mem_of_getElem? found) good
      rw [remaining] at guaranteed
      exact (guaranteed pool.store kept.store).2
  client := by
    obtain ⟨program, isClient, delivers⟩ := kept.client
    refine ⟨program, isClient, ?_⟩
    change DeliversAmong contract Post program ((pool.tasks.set index _).map PoolTask.request)
    rw [Pool.requests_after found]
    exact delivers

theorem Contract.KeptAmong.deliver (kept : contract.KeptAmong service Post pool) {kind : J.Kind}
    {future : Nat} {rest : J.Answer kind → ClientProgram J α} {task : PoolTask I J}
    (same : J.kind task.request = kind) {value : J.Reply task.request}
    (waits : DeliversAmong contract Post (.call (.await kind future) rest) pool.requests)
    (present : pool.tasks[future]? = some task) (finished : task.program = .done value) :
    contract.KeptAmong service Post { pool with clients := [rest (same ▸ value)] } := by
  obtain ⟨request, kindIs, found, good, later⟩ := waits
  rw [Pool.requests, List.getElem?_map, present] at found
  cases found
  have answers := kept.tasks task (List.mem_of_getElem? present) good
  rw [finished] at answers
  exact ⟨kept.store, kept.tasks, _, rfl, later value answers⟩

theorem Contract.KeptAmong.step [DecidableEq J.Kind] (kept : contract.KeptAmong service Post pool)
    (honoured : contract.Honoured service) {action : PoolAction J}
    (stepped : (poolMachine α service).step pool action = some next)
    (holds : contract.Inv next.store) : contract.KeptAmong service Post next := by
  obtain ⟨program, isClient, delivers⟩ := kept.client
  cases pool_step_cases stepped with
  | issued request =>
      have issued := kept.issue honoured (delivers.grow [request])
      rw [← isClient] at issued
      exact issued
  | called index task call rest found remaining => exact kept.call found remaining holds
  | submitted index request rest found =>
      obtain ⟨rfl, rfl⟩ := only_client isClient found
      rw [isClient]
      have later := delivers []
      rw [List.append_nil, Pool.length_requests] at later
      exact kept.issue honoured later
  | awaited index future kind rest task same value found present finished =>
      obtain ⟨rfl, rfl⟩ := only_client isClient found
      rw [isClient]
      exact kept.deliver same delivers present finished

/-- In a run along which the invariant holds the client is answered as the contract says. -/
theorem Contract.KeptAmong.exec [DecidableEq J.Kind] (kept : contract.KeptAmong service Post pool)
    (honoured : contract.Honoured service) {actions : List (PoolAction J)} {last : Pool σ I J α}
    (along : (poolMachine α service).Along (fun pool => contract.Inv pool.store) actions pool)
    (executed : (poolMachine α service).exec actions pool = some last) :
    contract.KeptAmong service Post last := by
  induction actions generalizing pool with
  | nil =>
      cases executed
      exact kept
  | cons action rest ih =>
      obtain ⟨next, stepped, remaining⟩ := Machine.exec_cons executed
      have alongRest := along.2 next stepped
      have holds : contract.Inv next.store :=
        @Machine.along_start _ _ _
          (fun pool : Pool σ I J α => contract.Inv pool.store) _ _ alongRest
      exact ih (kept.step honoured stepped holds) alongRest remaining

theorem Contract.KeptAmong.post (kept : contract.KeptAmong service Post pool) {value : α}
    (ended : pool.clients = [.done value]) : Post value pool.requests := by
  obtain ⟨program, isClient, delivers⟩ := kept.client
  rw [ended] at isClient
  cases isClient
  have post := delivers []
  rw [List.append_nil] at post
  exact post

end Kept

section Progress

variable {service : Service σ I J} {contract : Contract σ J} {Post : α → List J.Request → Prop}
  {pool : Pool σ I J α}

theorem Contract.KeptAmong.answered (kept : contract.KeptAmong service Post pool) {index : Nat}
    {task : PoolTask I J} (found : pool.tasks[index]? = some task) {store : σ}
    (holds : contract.Inv store) (made : List I.Call) {value : J.Reply task.request}
    (answers : contract.Answers task.request value) :
    contract.KeptAmong service Post (pool.answered index store task.request made value) where
  store := holds
  tasks := by
    intro other member good
    rcases List.mem_or_eq_of_mem_set member with old | rfl
    · exact kept.tasks other old good
    · exact answers
  client := by
    obtain ⟨program, isClient, delivers⟩ := kept.client
    refine ⟨program, isClient, ?_⟩
    rw [pool.requests_answered found]
    exact delivers

theorem Contract.KeptAmong.client_ends [DecidableEq J.Kind]
    (kept : contract.KeptAmong service Post pool) (honoured : contract.Honoured service)
    {program : ClientProgram J α} (isClient : pool.clients = [program]) :
    ∃ (last : Pool σ I J α) (value : α), LeadsTo service contract.Inv pool last ∧
      last.clients = [.done value] ∧ Post value last.requests := by
  induction program generalizing pool with
  | done value => exact ⟨pool, value, leads_to_self kept.store, isClient, kept.post isClient⟩
  | call call rest ih =>
      obtain ⟨program, isProgram, delivers⟩ := kept.client
      rw [isClient] at isProgram
      cases isProgram
      cases call with
      | submit request =>
          have later := delivers []
          rw [List.append_nil, Pool.length_requests] at later
          obtain ⟨last, value, leads, ended⟩ := ih _ (kept.issue honoured later) rfl
          exact ⟨last, value, leads.before kept.store (submitted_step isClient) trivial, ended⟩
      | await kind future =>
          obtain ⟨request, same, asked, good, _⟩ := id delivers
          rw [Pool.requests, List.getElem?_map, Option.map_eq_some_iff] at asked
          obtain ⟨task, found, rfl⟩ := asked
          obtain ⟨store, made, value, leads, holds, answers⟩ := answer_leads_to same isClient
            (kept.tasks task (List.mem_of_getElem? found) good) kept.store found
          have waits : DeliversAmong contract Post (.call (.await kind future) rest)
              (pool.answered future store task.request made value).requests := by
            rw [pool.requests_answered found]
            exact delivers
          have sameKind :
              J.kind (⟨task.request, made, .done value⟩ : PoolTask I J).request = kind :=
            same
          have keptThen := (kept.answered found holds made answers).deliver sameKind waits
            (pool.answered_task found store made value) rfl
          obtain ⟨last, result, later, ended⟩ := ih _ keptThen rfl
          exact ⟨last, result, leads.trans later, ended⟩

end Progress

end Foundation
