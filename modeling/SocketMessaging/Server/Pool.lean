import SocketMessaging.Library.WorkerPool
import SocketMessaging.Server.Descriptors
import SocketMessaging.Server.Ownership

/-! The thread pool that runs the handler loops. Accepting a connection only puts
its loop in the pool's queue, where it waits until one of a fixed number of
workers is idle; the worker then stays with it until the loop returns. -/
namespace SocketMessaging
open Transition Relation

/-- The loop of which this is an iteration. -/
def Operation.loop : Operation → Option ConnId
  | .receive i _ | .receiveFailure i => some i
  | _ => none

/-- The server with its thread pool. The task for a connection is its handler
loop. `maxConnections` is what `Server::start` keeps of its argument and passes
to `listen`. The clients in `hungUp` have closed their end. -/
structure Pooled where
  system : System
  maxConnections : Int
  pool : WorkerPool ConnId
  hungUp : List ConnId

namespace Pooled

inductive Move where
  | operation (operation : Operation)
  | take (worker : Nat)
  | hangUp (conn : ConnId)

/-- `Server::start`, with the given content of the banlist file. -/
def start (maxConnections : Int) (banlist : Option Str) : Pooled where
  system := .initial banlist
  maxConnections := if 0 < maxConnections then maxConnections else 100
  pool := .start Constants.threadPoolSize
  hungUp := []

/-- The pool after an operation. -/
def poolAfter (s : Pooled) : Operation → WorkerPool ConnId
  | .accept _ => s.pool.enqueue s.system.loops.length
  | .receiveFailure i => s.pool.finish i
  | _ => s.pool

/-- `none` means that the move is not enabled. Only a loop that a worker runs receives. -/
def step (s : Pooled) (label : Env × Move) : Option Pooled :=
  let (env, move) := label
  match move with
  | .operation operation =>
    if ∀ i ∈ operation.loop, i ∈ s.pool.running then
      (s.system.step (env, operation)).map fun system =>
        { s with system, pool := s.poolAfter operation }
    else none
  | .take k => (s.pool.take k).map fun pool => { s with pool }
  | .hangUp i =>
    if i < s.system.loops.length ∧ i ∉ s.hungUp then some { s with hungUp := i :: s.hungUp }
    else none

/-- What an enabled move does. -/
inductive Stepped (env : Env) (s : Pooled) : Move → Pooled → Prop where
  | operation {operation : Operation} {system : System} :
      (∀ i ∈ operation.loop, i ∈ s.pool.running) → s.system.step (env, operation) = some system →
      Stepped env s (.operation operation) { s with system, pool := s.poolAfter operation }
  | take {k : Nat} {pool : WorkerPool ConnId} : s.pool.take k = some pool →
      Stepped env s (.take k) { s with pool }
  | hangUp {i : ConnId} : i < s.system.loops.length →
      Stepped env s (.hangUp i) { s with hungUp := i :: s.hungUp }

theorem step_cases {s after : Pooled} {env : Env} {move : Move}
    (stepped : step s (env, move) = some after) : Stepped env s move after := by
  cases move with
  | operation operation =>
    obtain ⟨runs, stepped⟩ := Option.ite_none_right_eq_some.mp stepped
    obtain ⟨system, advanced, rfl⟩ := Option.map_eq_some_iff.mp stepped
    exact .operation runs advanced
  | take k =>
    obtain ⟨pool, taken, rfl⟩ := Option.map_eq_some_iff.mp stepped
    exact .take taken
  | hangUp i =>
    obtain ⟨⟨accepted, _⟩, same⟩ := Option.ite_none_right_eq_some.mp stepped
    cases same
    exact .hangUp accepted

/-- Neither end has closed the connection. -/
def Open (s : Pooled) (i : ConnId) : Prop :=
  (∃ loop ∈ s.system.loops[i]?, s.system.world.os.user loop.socket = some i) ∧ i ∉ s.hungUp

instance : DecidableRel Open := fun _ _ => inferInstanceAs (Decidable ((∃ _ ∈ _, _) ∧ _))

/-- Unless an idle worker can still take a task, each open connection has a
worker that runs its loop. -/
def Served (s : Pooled) : Prop := s.pool.Settled → ∀ i, s.Open i → i ∈ s.pool.running

/-- A connection is accepted only while there are fewer loops that have not
returned than workers, and receiving fails on a connection that both ends still
hold open only when it is logged in. -/
def Serving (s : Pooled) : Env × Move → Prop
  | (_, .operation (.accept _)) => s.pool.unfinished.length < s.pool.workers.length
  | (env, .operation (.receiveFailure i)) => s.Open i →
      ∀ loop ∈ s.system.loops[i]?, s.system.world.server.getUsernameBySocket env loop.socket ≠ []
  | _ => True

/-- Some worker takes a loop from the queue. -/
def Takes (s t : Pooled) : Prop := ∃ env k, step s (env, .take k) = some t

variable {s t after : Pooled} {i : ConnId}

/-- What keeps every open connection with a worker: there are no more loops than
workers, and the loop of an open connection has not returned. -/
structure Staffed (s : Pooled) : Prop where
  distinct : s.pool.unfinished.Nodup
  placed : ∀ i ∈ s.pool.unfinished, i < s.system.loops.length
  enough : s.pool.unfinished.length ≤ s.pool.workers.length
  present : ∀ i, s.Open i → i ∈ s.pool.unfinished
  accepted : ∀ i ∈ s.hungUp, i < s.system.loops.length

theorem Staffed.served (staffed : s.Staffed) : s.Served := by
  intro settled i opened
  have none := settled.tasks_eq_nil staffed.enough
  have member := staffed.present i opened
  rw [WorkerPool.unfinished, none, List.append_nil] at member
  exact member

end Pooled

theorem run_user (env : Env) {α : Type} (program : Prog Action α) {w : World} {socket : Fd}
    {conn : ConnId} (used : (program.run (exec env) w).2.os.user socket = some conn) :
    w.os.user socket = some conn := by
  induction program generalizing w with
  | done => exact used
  | act action next ih => exact exec_user env action w (ih _ used)

namespace System

/-- Apart from accepting, an operation opens no number and no loop gets another one. -/
theorem closes_of_stepped {s after : System} {env : Env} {operation : Operation}
    (stepped : Stepped env s operation after) (other : ∀ socket, operation ≠ .accept socket) :
    (∀ {socket : Fd} {conn : ConnId}, after.world.os.user socket = some conn →
      s.world.os.user socket = some conn) ∧
    ∀ i : ConnId, after.loops[i]?.map Loop.socket = s.loops[i]?.map Loop.socket := by
  cases stepped with
  | accept => exact absurd rfl (other _)
  | @receiveFailure j socket =>
    refine ⟨run_user env _, fun i => ?_⟩
    change ((s.loops.modify j _)[i]?).map Loop.socket = _
    rw [List.getElem?_modify]
    cases s.loops[i]? with
    | none => rfl
    | some loop =>
      by_cases same : j = i
      · simp [same]
      · simp [same]
  | receive | dispatch | admin | heartbeat | checkTimeouts =>
    exact ⟨run_user env _, fun _ => rfl⟩

end System

/-- When a loop returns that reads the number of a registered name, the number is closed. -/
theorem user_of_named {env : Env} {socket : Fd} {w : World}
    (named : w.server.getUsernameBySocket env socket ≠ []) :
    ((CommandHandler.handleReceiveFailure socket).run (exec env) w).2.os.user socket = none := by
  rw [CommandHandler.handleReceiveFailure_run, CommandHandler.handleDisconnect_run]
  simp only [named, if_false]
  exact Function.update_self ..

namespace Pooled
variable {s after : Pooled} {env : Env}

theorem open_of_closes {system : System} {pool : WorkerPool ConnId}
    (closes : (∀ {socket : Fd} {conn : ConnId}, system.world.os.user socket = some conn →
      s.system.world.os.user socket = some conn) ∧
      ∀ i : ConnId, system.loops[i]?.map Loop.socket = s.system.loops[i]?.map Loop.socket)
    {i : ConnId} (opened : Open { s with system, pool } i) : s.Open i := by
  obtain ⟨⟨loop, present, used⟩, connected⟩ := opened
  have same := closes.2 i
  rw [Option.mem_def.mp present, Option.map_some, eq_comm, Option.map_eq_some_iff] at same
  obtain ⟨old, present, same⟩ := same
  exact ⟨⟨old, present, same ▸ closes.1 used⟩, connected⟩

theorem length_of_closes {s t : System}
    (loops : ∀ i : ConnId, t.loops[i]?.map Loop.socket = s.loops[i]?.map Loop.socket) :
    t.loops.length = s.loops.length := by
  have same : t.loops.map Loop.socket = s.loops.map Loop.socket := by
    apply List.ext_getElem?
    intro i
    rw [List.getElem?_map, List.getElem?_map]
    exact loops i
  simpa using congrArg List.length same

/-- The connection just accepted is open, and no other becomes so. -/
theorem open_accept {socket : Fd} {pool : WorkerPool ConnId} {i : ConnId}
    (opened : Open { s with
      system :=
        { world := s.system.world.accept socket s.system.loops.length
          loops := s.system.loops ++ [⟨socket, true⟩] }
      pool } i) : i = s.system.loops.length ∨ s.Open i := by
  obtain ⟨⟨loop, present, used⟩, connected⟩ := opened
  simp only [World.accept, Function.update_apply] at used
  split_ifs at used
  · exact .inl (Option.some.inj used).symm
  · rcases Nat.lt_or_ge i s.system.loops.length with old | new
    · rw [List.getElem?_append_left old] at present
      exact .inr ⟨⟨loop, present, used⟩, connected⟩
    · obtain ⟨inside, _⟩ := List.getElem?_eq_some_iff.mp present
      have last : i < (s.system.loops ++ [(⟨socket, true⟩ : Loop)]).length := inside
      rw [List.length_append, List.length_singleton] at last
      exact .inl (Nat.le_antisymm (Nat.le_of_lt_succ last) new)

theorem Staffed.distinct_accept (staffed : s.Staffed) :
    (s.pool.enqueue s.system.loops.length).unfinished.Nodup := by
  rw [WorkerPool.unfinished_enqueue, List.nodup_append]
  refine ⟨staffed.distinct, List.nodup_singleton _, fun i member j new same => ?_⟩
  have inside := staffed.placed i member
  rw [same, List.mem_singleton.mp new] at inside
  exact absurd inside (Nat.lt_irrefl _)

theorem Staffed.accept (staffed : s.Staffed) (socket : Fd)
    (free : s.pool.unfinished.length < s.pool.workers.length) :
    Staffed { s with
      system :=
        { world := s.system.world.accept socket s.system.loops.length
          loops := s.system.loops ++ [⟨socket, true⟩] }
      pool := s.pool.enqueue s.system.loops.length } where
  distinct := staffed.distinct_accept
  placed := by
    intro i member
    rw [WorkerPool.unfinished_enqueue] at member
    rw [List.length_append, List.length_singleton]
    rcases List.mem_append.mp member with old | new
    · exact Nat.lt_succ_of_lt (staffed.placed i old)
    · exact List.mem_singleton.mp new ▸ Nat.lt_succ_self _
  enough := by
    rw [WorkerPool.unfinished_enqueue, List.length_append, List.length_singleton]
    exact free
  present := by
    intro i opened
    rw [WorkerPool.unfinished_enqueue]
    rcases open_accept opened with rfl | old
    · exact List.mem_append_right _ (List.mem_singleton_self _)
    · exact List.mem_append_left _ (staffed.present i old)
  accepted := by
    intro i member
    rw [List.length_append]
    exact Nat.lt_add_right _ (staffed.accepted i member)

/-- An operation after which the pool and the open connections are as before, or fewer. -/
theorem Staffed.operation (staffed : s.Staffed) {system : System}
    (closes : (∀ {socket : Fd} {conn : ConnId}, system.world.os.user socket = some conn →
      s.system.world.os.user socket = some conn) ∧
      ∀ i : ConnId, system.loops[i]?.map Loop.socket = s.system.loops[i]?.map Loop.socket) :
    Staffed { s with system } where
  distinct := staffed.distinct
  placed := fun i member => (length_of_closes closes.2).symm ▸ staffed.placed i member
  enough := staffed.enough
  present := fun i opened => staffed.present i (open_of_closes closes opened)
  accepted := fun i member => (length_of_closes closes.2).symm ▸ staffed.accepted i member

theorem Staffed.finish (staffed : s.Staffed) {i : ConnId} (runs : i ∈ s.pool.running)
    (closed : ¬ s.Open i) : Staffed { s with pool := s.pool.finish i } := by
  have fewer := WorkerPool.unfinished_finish staffed.distinct runs
  constructor
  · exact fewer ▸ staffed.distinct.filter _
  · intro j member
    rw [fewer] at member
    exact staffed.placed j (List.mem_of_mem_filter member)
  · rw [fewer]
    have workers : (s.pool.finish i).workers.length = s.pool.workers.length := List.length_map _
    exact Nat.le_trans (List.length_filter_le _ _) (workers ▸ staffed.enough)
  · intro j opened
    have other : j ≠ i := by
      rintro rfl
      exact closed opened
    rw [fewer]
    exact List.mem_filter.mpr ⟨staffed.present j opened, decide_eq_true other⟩
  · exact staffed.accepted

theorem Staffed.take (staffed : s.Staffed) {k : Nat} {pool : WorkerPool ConnId}
    (taken : s.pool.take k = some pool) : Staffed { s with pool } := by
  have same := WorkerPool.take_unfinished taken
  constructor
  · exact same.nodup_iff.mpr staffed.distinct
  · exact fun i member => staffed.placed i (same.mem_iff.mp member)
  · change pool.unfinished.length ≤ pool.workers.length
    rw [same.length_eq, WorkerPool.take_workers taken]
    exact staffed.enough
  · exact fun i opened => same.mem_iff.mpr (staffed.present i opened)
  · exact staffed.accepted

theorem Staffed.hangUp (staffed : s.Staffed) {i : ConnId} (accepted : i < s.system.loops.length) :
    Staffed { s with hungUp := i :: s.hungUp } where
  distinct := staffed.distinct
  placed := staffed.placed
  enough := staffed.enough
  present := by
    intro j ⟨used, connected⟩
    exact staffed.present j ⟨used, fun member => connected (List.mem_cons_of_mem _ member)⟩
  accepted := List.forall_mem_cons.mpr ⟨accepted, staffed.accepted⟩

/-- The connection whose loop returns stays open only if nobody was going to close it. -/
theorem open_receiveFailure {i : ConnId} {socket : Fd} (pool : WorkerPool ConnId)
    (live : s.system.liveLoop i = some socket) :
    Open { s with
      system := (s.system.execute env (CommandHandler.handleReceiveFailure socket)).endLoop i
      pool } i ↔ ¬ Serving s (env, .operation (.receiveFailure i)) := by
  have present := System.liveLoop_eq_some.mp live
  have reads : (System.endLoop
      (s.system.execute env (CommandHandler.handleReceiveFailure socket)) i).loops[i]? =
        some ⟨socket, false⟩ := by
    change (s.system.loops.modify i _)[i]? = _
    rw [List.getElem?_modify, present]
    simp
  constructor
  · intro opened serving
    have failed : System.Stepped env s.system (.receiveFailure i) _ := .receiveFailure live
    have closes := System.closes_of_stepped failed (by simp)
    have named := serving (open_of_closes closes opened) _ present
    obtain ⟨⟨loop, found, used⟩, _⟩ := opened
    obtain rfl := Option.some.inj (reads.symm.trans found)
    exact Option.some_ne_none _ (used.symm.trans (user_of_named named))
  · intro failing
    simp only [Serving, present, Option.mem_def, Option.some.injEq, forall_eq', not_forall,
      not_not] at failing
    obtain ⟨⟨⟨loop, found, used⟩, connected⟩, absent⟩ := failing
    obtain rfl := Option.some.inj (present.symm.trans found)
    refine ⟨⟨_, reads, ?_⟩, connected⟩
    change ((CommandHandler.handleReceiveFailure socket).run (exec env)
      s.system.world).2.os.user socket = _
    rw [CommandHandler.handleReceiveFailure_run, CommandHandler.handleDisconnect_run]
    simp only [absent, if_true]
    exact used

theorem step_staffed {label : Env × Move} (staffed : s.Staffed) (serving : Serving s label)
    (stepped : step s label = some after) : after.Staffed := by
  obtain ⟨env, move⟩ := label
  cases step_cases stepped with
  | @operation operation system runs advanced =>
    have effect := (System.step_cases advanced).2
    cases effect with
    | @accept socket => exact staffed.accept socket serving
    | @receiveFailure i socket live =>
      have failed : System.Stepped env s.system (.receiveFailure i) _ := .receiveFailure live
      have closes := System.closes_of_stepped failed (by simp)
      exact (staffed.operation closes).finish (runs i rfl) fun opened =>
        (open_receiveFailure _ live).mp opened serving
    | receive | dispatch | admin | heartbeat | checkTimeouts =>
      exact staffed.operation (System.closes_of_stepped (System.step_cases advanced).2 (by simp))
  | take taken => exact staffed.take taken
  | hangUp accepted => exact staffed.hangUp accepted

theorem step_take {k : Nat} {pool : WorkerPool ConnId} (taken : s.pool.take k = some pool) :
    step s (env, .take k) = some { s with pool } := by
  simp only [step, taken, Option.map_some]

theorem takes_of_pool {pool : WorkerPool ConnId} (takes : ReflTransGen WorkerPool.Takes s.pool pool) :
    ReflTransGen Takes s { s with pool } := by
  induction takes with
  | refl => exact .refl
  | @tail middle pool _ taken ih =>
    obtain ⟨k, taken⟩ := taken
    exact ih.tail ⟨.plain, k, step_take (s := { s with pool := middle }) taken⟩

/-- After a step that is not served for, the workers can take loops until an open
connection is left without one. -/
theorem not_served (staffed : s.Staffed) {label : Env × Move} (failing : ¬ Serving s label)
    (stepped : step s label = some after) :
    ∃ later, ReflTransGen Takes after later ∧ ¬ later.Served := by
  obtain ⟨env, move⟩ := label
  obtain ⟨pool, takes, settled⟩ := after.pool.exists_settled
  refine ⟨_, takes_of_pool takes, fun served => ?_⟩
  have kept := (WorkerPool.takes_kept takes).1
  cases step_cases stepped with
  | @operation operation system runs advanced =>
    have effect := (System.step_cases advanced).2
    cases effect with
    | @accept socket =>
      have few : s.pool.workers.length < (s.pool.enqueue s.system.loops.length).unfinished.length := by
        rw [WorkerPool.unfinished_enqueue, List.length_append]
        exact Nat.lt_succ_of_le (Nat.le_of_not_lt failing)
      have waits : s.system.loops.length ∈ pool.tasks :=
        WorkerPool.waits_of_takes few List.getLast?_concat takes
      have opened : Open { s with
          system :=
            { world := s.system.world.accept socket s.system.loops.length
              loops := s.system.loops ++ [⟨socket, true⟩] }
          pool } s.system.loops.length := by
        refine ⟨⟨⟨socket, true⟩, List.getElem?_concat_length, Function.update_self ..⟩, ?_⟩
        exact fun gone => absurd (staffed.accepted _ gone) (Nat.lt_irrefl _)
      have distinct := kept.nodup_iff.mpr staffed.distinct_accept
      exact (List.nodup_append.mp distinct).2.2 _ (served settled _ opened) _ waits rfl
    | @receiveFailure i socket live =>
      have opened := (open_receiveFailure pool live).mpr failing
      have left : i ∈ (s.pool.finish i).unfinished :=
        kept.mem_iff.mp (List.mem_append_left _ (served settled i opened))
      rw [WorkerPool.unfinished_finish staffed.distinct (runs i rfl)] at left
      simpa using (List.mem_filter.mp left).2
    | _ => exact failing trivial
  | take | hangUp => exact failing trivial

theorem start_staffed (maxConnections : Int) (banlist : Option Str) :
    (start maxConnections banlist).Staffed where
  distinct := by simp [start, WorkerPool.start, WorkerPool.unfinished, WorkerPool.running]
  placed := by simp [start, WorkerPool.start, WorkerPool.unfinished, WorkerPool.running]
  enough := by simp [start, WorkerPool.start, WorkerPool.unfinished, WorkerPool.running]
  present := by
    rintro i ⟨⟨loop, present, _⟩, _⟩
    simp [start, System.initial] at present
  accepted := by simp [start]

/-- As long as there is a worker for each loop, every open connection is served;
and the first step after which one can be left waiting is one without a worker. -/
theorem connections_served {maxConnections : Int} {banlist : Option Str}
    {labels : List (Env × Move)} (run : Run step Serving (start maxConnections banlist) labels s) :
    s.Served ∧ ∀ {label : Env × Move} {after : Pooled}, step s label = some after →
      ((∀ {later}, ReflTransGen Takes after later → later.Served) ↔ Serving s label) := by
  have staffed := run.invariant (P := Staffed) step_staffed (start_staffed maxConnections banlist)
  refine ⟨staffed.served, fun {label after} stepped => ⟨fun served => ?_, fun serving later takes => ?_⟩⟩
  · by_contra failing
    obtain ⟨later, takes, unserved⟩ := not_served staffed failing stepped
    exact unserved (served takes)
  · have later : later.Staffed := by
      induction takes with
      | refl => exact step_staffed staffed serving stepped
      | tail _ taken ih =>
        obtain ⟨env, k, taken⟩ := taken
        exact step_staffed ih (show Serving _ (env, .take k) from trivial) taken
    exact later.served

instance : DecidableRel Serving
  | _, (_, .operation (.accept _)) => inferInstanceAs (Decidable (_ < _))
  | _, (_, .operation (.receiveFailure _)) => inferInstanceAs (Decidable (_ → ∀ _ ∈ _, _))
  | _, (_, .operation (.receive _ _)) | _, (_, .operation .dispatch)
  | _, (_, .operation (.admin _)) | _, (_, .operation .heartbeat)
  | _, (_, .operation .checkTimeouts) | _, (_, .take _) | _, (_, .hangUp _) => isTrue trivial

/-- The connections that both ends still hold open. -/
def openConnections (s : Pooled) : List ConnId :=
  (List.range s.system.loops.length).filter fun i => s.Open i

/-- No more connections are open at once than the server was started for. -/
def WithinCap (s : Pooled) (label : Env × Move) : Prop :=
  ∀ after ∈ step s label, after.openConnections.length ≤ after.maxConnections

instance : DecidableRel WithinCap := fun _ _ => inferInstanceAs (Decidable (∀ _ ∈ _, _))

/-- As many connections as this, each with the next free number, and as many workers for them. -/
def arrivals (connections workers : Nat) : List (Env × Move) :=
  (List.range connections).map (fun i => (.plain, .operation (.accept (5 + i)))) ++
    (List.range workers).map fun k => (.plain, .take k)

theorem connections_served_of_twelve : ∃ (labels : List (Env × Move)) (s : Pooled),
    Run step Serving (start 100 none) labels s ∧ s.openConnections.length = 12 ∧ s.Served := by
  obtain ⟨s, ran, count⟩ := evaluated
    (o := execute (guarded (fun s label => decide (Serving s label)) step) (start 100 none)
      (arrivals 12 12))
    (P := fun s => s.openConnections.length = 12) (by decide)
  have run := run_of_guarded (fun _ _ => of_decide_eq_true) _ ran
  exact ⟨_, s, run, count, (connections_served run).1⟩

/-- The thirteenth connection waits although thirteen are allowed. -/
theorem connections_not_always_served : ¬ ∀ (maxConnections : Int) (banlist : Option Str)
    (labels : List (Env × Move)) (s : Pooled),
    Run step WithinCap (start maxConnections banlist) labels s → s.Served := by
  intro claimed
  obtain ⟨s, ran, settled, opened, waits⟩ := evaluated
    (o := execute (guarded (fun s label => decide (WithinCap s label)) step) (start 13 none)
      (arrivals 13 12))
    (P := fun s => none ∉ s.pool.workers ∧ s.Open 12 ∧ 12 ∉ s.pool.running) (by decide)
  have run := run_of_guarded (fun _ _ => of_decide_eq_true) _ ran
  exact waits (claimed 13 none _ s run (fun idle => absurd idle settled) 12 opened)

end Pooled
end SocketMessaging
