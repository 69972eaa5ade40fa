import Relevanced.Foundation.Machine
import Relevanced.Foundation.Program

/-!
# Pools of tasks and their clients

A service answers requests by futures: every request becomes a task of a pool, which
makes the calls of its program one at a time, in any order with those of the other
tasks. Clients are programs that submit requests and wait for answers. The calls a
task has made are kept with it. Nothing here refers to a concrete service.
-/

namespace Foundation

set_option autoImplicit false

/-- What can be asked of a service, and the type of the answer to each kind of request. -/
structure Requests where
  Request : Type
  Kind : Type
  kind : Request → Kind
  Answer : Kind → Type

abbrev Requests.Reply (J : Requests) (request : J.Request) : Type := J.Answer (J.kind request)

/-- The store a service works on and the program behind each request. -/
structure Service (σ : Type) (I : Interface) (J : Requests) where
  handler : Program.Handler I σ
  method : (request : J.Request) → Program I (J.Reply request)

structure PoolTask (I : Interface) (J : Requests) where
  request : J.Request
  /-- The calls made so far, the latest first. -/
  made : List I.Call
  program : Program I (J.Reply request)

inductive ClientCall (J : Requests) where
  | submit (request : J.Request)
  | await (kind : J.Kind) (future : Nat)

/-- `submit` answers with the number of the request, `await` with the answer to it. -/
abbrev clientIf (J : Requests) : Interface where
  Call := ClientCall J
  Answer
    | .submit _ => Nat
    | .await kind _ => J.Answer kind

abbrev ClientProgram (J : Requests) (α : Type) := Program (clientIf J) α

def submit {J : Requests} (request : J.Request) : ClientProgram J Nat :=
  @Program.perform (clientIf J) (.submit request)

def await {J : Requests} (kind : J.Kind) (future : Nat) : ClientProgram J (J.Answer kind) :=
  @Program.perform (clientIf J) (.await kind future)

/-- The store, every request there has been, and what remains of each client. -/
structure Pool (σ : Type) (I : Interface) (J : Requests) (α : Type) where
  store : σ
  tasks : List (PoolTask I J)
  clients : List (ClientProgram J α)

inductive PoolAction (J : Requests) where
  /-- Somebody else makes a request. -/
  | issue (request : J.Request)
  | task (index : Nat)
  | client (index : Nat)

variable {σ α β : Type} {I : Interface} {J : Requests}

def PoolTask.new (service : Service σ I J) (request : J.Request) : PoolTask I J where
  request := request
  made := []
  program := service.method request

def PoolTask.after (task : PoolTask I J) (call : I.Call) (rest : Program I (J.Reply task.request)) :
    PoolTask I J where
  request := task.request
  made := call :: task.made
  program := rest

@[simp] theorem PoolTask.request_after (task : PoolTask I J) (call : I.Call)
    (rest : Program I (J.Reply task.request)) : (task.after call rest).request = task.request := rfl

namespace PoolTask

def next (task : PoolTask I J) : Option I.Call := task.program.nextCall

def answer (task : PoolTask I J) : Option (J.Reply task.request) := task.program.result

/-- The answer the task has, if it is of the kind that is waited for. -/
def answerAs [DecidableEq J.Kind] (task : PoolTask I J) (kind : J.Kind) : Option (J.Answer kind) :=
  if same : J.kind task.request = kind then task.answer.map fun value => same ▸ value else none

end PoolTask

namespace Pool

def initial (store : σ) (clients : List (ClientProgram J α)) : Pool σ I J α where
  store := store
  tasks := []
  clients := clients

def issue (service : Service σ I J) (pool : Pool σ I J α) (request : J.Request) :
    Pool σ I J α :=
  { pool with tasks := pool.tasks ++ [.new service request] }

def perform (service : Service σ I J) (pool : Pool σ I J α) (index : Nat) (task : PoolTask I J) :
    Option (Pool σ I J α) :=
  match task.program with
  | .done _ => none
  | .call call rest => some { pool with
      store := (service.handler call pool.store).2
      tasks := pool.tasks.set index (task.after call (rest (service.handler call pool.store).1)) }

def deliver [DecidableEq J.Kind] (pool : Pool σ I J α) (kind : J.Kind) (future : Nat) :
    Option (J.Answer kind) :=
  pool.tasks[future]?.bind fun task => task.answerAs kind

def proceed [DecidableEq J.Kind] (service : Service σ I J) (pool : Pool σ I J α) (index : Nat) :
    ClientProgram J α → Option (Pool σ I J α)
  | .done _ => none
  | .call (.submit request) rest => some { pool.issue service request with
      clients := pool.clients.set index (rest pool.tasks.length) }
  | .call (.await kind future) rest => (pool.deliver kind future).map fun value =>
      { pool with clients := pool.clients.set index (rest value) }

def step [DecidableEq J.Kind] (service : Service σ I J) (pool : Pool σ I J α) :
    PoolAction J → Option (Pool σ I J α)
  | .issue request => some (pool.issue service request)
  | .task index => pool.tasks[index]?.bind (pool.perform service index)
  | .client index => pool.clients[index]?.bind (pool.proceed service index)

end Pool

def poolMachine [DecidableEq J.Kind] (α : Type) (service : Service σ I J) :
    Machine (Pool σ I J α) (PoolAction J) where
  step := Pool.step service

inductive PoolStep (service : Service σ I J) (pool : Pool σ I J α) :
    PoolAction J → Pool σ I J α → Prop where
  | issued (request : J.Request) :
      PoolStep service pool (.issue request) (pool.issue service request)
  | called (index : Nat) (task : PoolTask I J) (call : I.Call)
      (rest : I.Answer call → Program I (J.Reply task.request))
      (found : pool.tasks[index]? = some task) (remaining : task.program = .call call rest) :
      PoolStep service pool (.task index) { pool with
        store := (service.handler call pool.store).2
        tasks := pool.tasks.set index (task.after call (rest (service.handler call pool.store).1)) }
  | submitted (index : Nat) (request : J.Request) (rest : Nat → ClientProgram J α)
      (found : pool.clients[index]? = some (.call (.submit request) rest)) :
      PoolStep service pool (.client index) { pool.issue service request with
        clients := pool.clients.set index (rest pool.tasks.length) }
  | awaited (index future : Nat) (kind : J.Kind) (rest : J.Answer kind → ClientProgram J α)
      (task : PoolTask I J) (same : J.kind task.request = kind) (value : J.Reply task.request)
      (found : pool.clients[index]? = some (.call (.await kind future) rest))
      (present : pool.tasks[future]? = some task) (finished : task.program = .done value) :
      PoolStep service pool (.client index) { pool with
        clients := pool.clients.set index (rest (same ▸ value)) }

section Steps

variable [DecidableEq J.Kind] {service : Service σ I J} {pool next : Pool σ I J α}

theorem deliver_eq_some {kind : J.Kind} {future : Nat} {value : J.Answer kind}
    (delivered : pool.deliver kind future = some value) :
    ∃ task, pool.tasks[future]? = some task ∧ ∃ (same : J.kind task.request = kind)
      (reply : J.Reply task.request), task.program = .done reply ∧ value = same ▸ reply := by
  obtain ⟨task, present, answered⟩ := Option.bind_eq_some_iff.mp delivered
  refine ⟨task, present, ?_⟩
  unfold PoolTask.answerAs at answered
  split at answered
  · rename_i same
    obtain ⟨reply, finished, rfl⟩ := Option.map_eq_some_iff.mp answered
    exact ⟨same, reply, Program.eq_done_of_result finished, rfl⟩
  · cases answered

theorem pool_step_cases {action : PoolAction J}
    (stepped : (poolMachine α service).step pool action = some next) :
    PoolStep service pool action next := by
  change pool.step service action = some next at stepped
  cases action with
  | issue request =>
      cases stepped
      exact .issued request
  | task index =>
      obtain ⟨task, found, performed⟩ := Option.bind_eq_some_iff.mp stepped
      unfold Pool.perform at performed
      split at performed
      · cases performed
      · rename_i call rest remaining
        cases performed
        exact .called index task call rest found remaining
  | client index =>
      obtain ⟨program, found, proceeded⟩ := Option.bind_eq_some_iff.mp stepped
      match program with
      | .done _ => cases proceeded
      | .call (.submit request) rest =>
          cases proceeded
          exact .submitted index request rest found
      | .call (.await kind future) rest =>
          obtain ⟨value, delivered, rfl⟩ := Option.map_eq_some_iff.mp proceeded
          obtain ⟨task, present, same, reply, finished, rfl⟩ := deliver_eq_some delivered
          exact .awaited index future kind rest task same reply found present finished

end Steps

end Foundation
