import SocketMessaging.Server.Descriptors
import SocketMessaging.Server.Renewals

/-! The heartbeat in time. The thread of `heartbeatLoop` sleeps, sends its PINGs,
sleeps again and checks for timeouts, while clients come, answer and go at any
moment. A client whose PINGs are all answered within a minute is never late. -/
namespace SocketMessaging
open Prog Transition Sessions Sessions.Table CommandHandler MessageParser Constants

/-- `std::chrono::seconds` as the clocks count. -/
def seconds (count : Int) : Int := count * 1000000000

/-- Which of its two sleeps `heartbeatLoop` is in. -/
inductive Sleep where
  | interval
  | checkDelay
  deriving DecidableEq

/-- The heartbeat's current sleep ends at `wakes`. The last field is a ghost: when
the oldest PING was sent on a connection that has had no PONG handled since. -/
structure Timed where
  system : System
  now : Int
  sleep : Sleep
  wakes : Int
  owed : ConnId → Option Int

/-- A PING written to this connection. -/
def Event.pings (conn : ConnId) : Event → Bool
  | .send _ user message _ => user = some conn && message = str "PING\n"
  | _ => false

namespace Timed

/-- The connection whose PONG this operation handles. -/
def answering (s : Timed) : Operation → Option ConnId
  | .receive i raw =>
    if (parse raw).isValid ∧ (parse raw).command = str "PONG" then
      (s.system.liveLoop i).bind s.system.world.os.user
    else none
  | _ => none

/-- The clock does not go back, and the heartbeat does its work when it wakes. -/
def OnTime (s : Timed) (env : Env) (operation : Operation) : Prop :=
  s.now ≤ env.steadyClock ∧ env.steadyClock ≤ s.wakes ∧
  match operation with
  | .heartbeat => s.sleep = .interval ∧ env.steadyClock = s.wakes
  | .checkTimeouts => s.sleep = .checkDelay ∧ env.steadyClock = s.wakes
  | _ => True

instance (s : Timed) (env : Env) (operation : Operation) : Decidable (s.OnTime env operation) := by
  unfold OnTime
  cases operation <;> infer_instance

/-- Where the operation leaves the heartbeat, and what it leaves unanswered. -/
def advance (s : Timed) (env : Env) (operation : Operation) (after : System) : Timed :=
  let timed := { s with system := after, now := env.steadyClock }
  match operation with
  | .heartbeat =>
    { timed with
      sleep := .checkDelay
      wakes := s.wakes + seconds heartbeatCheckDelayS
      owed := fun conn =>
        if (s.system.world.since after.world).any (Event.pings conn) then
          (s.owed conn).or (some env.steadyClock)
        else s.owed conn }
  | .checkTimeouts =>
    { timed with sleep := .interval, wakes := s.wakes + seconds heartbeatIntervalS }
  | operation =>
    { timed with
      owed := fun conn => if s.answering operation = some conn then none else s.owed conn }

/-- An operation of the server at the time that the steady clock shows. -/
def step (s : Timed) (label : Env × Operation) : Option Timed :=
  if s.OnTime label.1 label.2 then
    (System.step s.system label).map (s.advance label.1 label.2)
  else none

/-- The server starts and its heartbeat begins to sleep. -/
def initial (banlist : Option Str) (clock : Int) : Timed where
  system := System.initial banlist
  now := clock
  sleep := .interval
  wakes := clock + seconds heartbeatIntervalS
  owed := fun _ => none

theorem step_cases {s after : Timed} {env : Env} {operation : Operation}
    (stepped : step s (env, operation) = some after) : s.OnTime env operation ∧
      ∃ system, System.step s.system (env, operation) = some system ∧
        after = s.advance env operation system := by
  obtain ⟨onTime, stepped⟩ := Option.ite_none_right_eq_some.mp stepped
  obtain ⟨system, operated, same⟩ := Option.map_eq_some_iff.mp stepped
  exact ⟨onTime, system, operated, same.symm⟩

end Timed

/-- Entries are as old as they were, or were made or refreshed just now. -/
structure Aged (env : Env) (w v : World) : Prop where
  entry : ∀ {username info}, v.server.clients.lookup username = some info →
    info.lastPong = env.steadyClock ∨ ∃ old, w.server.clients.lookup username = some old ∧
      old.lastPong = info.lastPong ∧ v.registrant username = w.registrant username

section Aging
variable {env : Env} {u v w : World}

theorem Aged.refl (env : Env) (w : World) : Aged env w w :=
  ⟨fun present => .inr ⟨_, present, rfl, rfl⟩⟩

theorem Aged.trans (first : Aged env w v) (second : Aged env v u) : Aged env w u := by
  refine ⟨fun {username info} present => ?_⟩
  rcases second.entry present with now | ⟨old, before, age, registrant⟩
  · exact .inl now
  · rcases first.entry before with now | ⟨older, earlier, same, registered⟩
    · exact .inl (age ▸ now)
    · exact .inr ⟨older, earlier, same.trans age, registrant.trans registered⟩

theorem Aged.of_clients (clients : v.server.clients = w.server.clients)
    (registrant : v.registrant = w.registrant) : Aged env w v :=
  ⟨fun present => .inr ⟨_, clients ▸ present, rfl, congrFun registrant _⟩⟩

theorem exec_aged (env : Env) {β : Type} (action : Action β) (w : World) :
    Aged env w (exec env action w).2 := by
  refine ⟨fun {username info} present => ?_⟩
  rcases exec_entry env action w present with ⟨_, now⟩ | ⟨old, before, _, age, registrant⟩
  · exact .inl now
  · exact .inr ⟨old, before, age, registrant⟩

theorem run_aged (env : Env) {α : Type} (program : Prog Action α) (w : World) :
    Aged env w (program.run (exec env) w).2 := by
  induction program generalizing w with
  | done => exact .refl env w
  | act action next ih => exact (exec_aged env action w).trans (ih _ _)

end Aging

theorem System.step_aged {s after : System} {env : Env} {operation : Operation}
    (stepped : step s (env, operation) = some after) : Aged env s.world after.world := by
  obtain ⟨_, stepped⟩ := step_cases stepped
  cases stepped with
  | accept => exact .of_clients rfl rfl
  | receive | receiveFailure | dispatch | admin | heartbeat | checkTimeouts =>
    exact run_aged env _ s.world

/-- A PONG refreshes whoever is registered for its socket. -/
theorem handleMessage_pong {env : Env} {w : World} {raw : Str} {socket : Fd} (sound : w.Sound)
    (sessions : Exclusive w.table) (valid : (parse raw).isValid = true)
    (command : (parse raw).command = str "PONG") {username : Str} {info : ClientInfo}
    (named : w.table.handleOf username = some socket)
    (present : ((handleMessage raw socket).run (exec env) w).2.server.clients.lookup username =
      some info) : info.lastPong = env.steadyClock := by
  have handled : handleMessage raw socket = handlePong ((parse raw).command :: (parse raw).arguments) socket := by
    simp only [handleMessage, valid, if_true, executeCommand, command]
    rfl
  have found : w.server.getUsernameBySocket env socket = username := by
    rcases getUsernameBySocket_cases env socket w with stored | ⟨_, absent⟩
    · exact sessions.single stored named
    · exact absurd named (absent username)
  obtain ⟨old, before, _⟩ := handleOf_eq_some.mp named
  rw [handled] at present
  simp only [handlePong, perform_bind, run_getUsernameBySocket, pure_eq, run_perform, found,
    (sound.names named).1.ne_nil, if_false, exec, World.mapServer,
    Server.updateClientPong, before, AList.lookup_insert, Option.some.injEq] at present
  exact present ▸ rfl

theorem World.pingClient_log (env : Env) (entry : Str × ClientInfo) (w : World) : ∃ events,
    (w.pingClient env entry).os.log = w.os.log ++ events ∧ (0 ≤ entry.2.socket → ∃ taken,
      .send entry.2.socket (w.os.user entry.2.socket) (str "PING\n") taken ∈ events) := by
  by_cases connected : 0 ≤ entry.2.socket
  · exact ⟨_, w.log_reply connected env _, fun _ => ⟨_, List.mem_singleton_self _⟩⟩
  · refine ⟨[], ?_, fun nonneg => absurd nonneg connected⟩
    simp only [pingClient, send, Int.not_le.mp connected, if_true, mapServer, List.append_nil]

/-- Every registered client is sent a PING. -/
theorem World.pingClients_log (env : Env) (w : World) : ∃ events,
    (w.pingClients env).os.log = w.os.log ++ events ∧
      ∀ username info, w.server.clients.lookup username = some info → 0 ≤ info.socket →
        ∃ taken, .send info.socket (w.os.user info.socket) (str "PING\n") taken ∈ events := by
  have each : ∀ (entries : List (Str × ClientInfo)) (v : World), v.os.user = w.os.user →
      ∃ events, (entries.foldl (fun v entry => v.pingClient env entry) v).os.log = v.os.log ++ events ∧
        ∀ entry ∈ entries, 0 ≤ entry.2.socket → ∃ taken,
          .send entry.2.socket (w.os.user entry.2.socket) (str "PING\n") taken ∈ events := by
    intro entries
    induction entries with
    | nil =>
      exact fun v _ => ⟨[], (List.append_nil _).symm, fun _ member => absurd member List.not_mem_nil⟩
    | cons entry entries ih =>
      intro v same
      have users : (v.pingClient env entry).os.user = w.os.user :=
        (congrArg Table.user (v.table_send env entry.2.socket (str "PING\n"))).trans same
      obtain ⟨first, sent, pinged⟩ := v.pingClient_log env entry
      obtain ⟨later, grown, rest⟩ := ih (v.pingClient env entry) users
      refine ⟨first ++ later, ?_, List.forall_mem_cons.mpr ⟨fun connected => ?_, fun other member nonneg => ?_⟩⟩
      · rw [List.foldl_cons, grown, sent, List.append_assoc]
      · obtain ⟨taken, listed⟩ := pinged connected
        exact ⟨taken, List.mem_append_left _ (same ▸ listed)⟩
      · obtain ⟨taken, listed⟩ := rest other member nonneg
        exact ⟨taken, List.mem_append_right _ listed⟩
  obtain ⟨events, grown, sent⟩ := each (env.visit w.server.clients) w rfl
  exact ⟨events, grown, fun username info present =>
    sent (username, info) ((env.mem_visit _ _ _).mpr present)⟩

/-- The time-out of other names leaves a session alone. -/
theorem disconnectTimedOut_spares (env : Env) {username : Str} {info : ClientInfo} {names : List Str}
    (absent : username ∉ names) {w : World} (sessions : Exclusive w.table)
    (present : w.server.clients.lookup username = some info) :
    ((disconnectTimedOut names).run (exec env) w).2.server.clients.lookup username = some info ∧
    ((disconnectTimedOut names).run (exec env) w).2.os.user info.socket = w.os.user info.socket := by
  induction names generalizing w with
  | nil => exact ⟨present, rfl⟩
  | cons name names ih =>
    obtain ⟨apart, rest⟩ := not_or.mp (List.mem_cons.not.mp absent)
    simp only [disconnectTimedOut, perform_bind, run_getUserSocket]
    split_ifs with online
    · rw [run_bind, handleDisconnect_run]
      have named := handleOf_of_getUserSocket online
      have found : w.server.getUsernameBySocket env (w.server.getUserSocket name) = name := by
        rcases getUsernameBySocket_cases env (w.server.getUserSocket name) w with stored | ⟨_, none⟩
        · exact sessions.single stored named
        · exact absurd named (none name)
      dsimp only
      split_ifs with empty
      · exact ih rest sessions present
      · rw [found]
        let closed := (w.unregisterClient name).close (w.server.getUserSocket name)
        have left : Exclusive closed.table := by
          rw [World.table_close, World.table_unregisterClient]
          exact sessions.logout named
        have still : closed.server.clients.lookup username = some info :=
          (AList.lookup_erase_ne apart).trans present
        have own : w.table.handleOf username = some info.socket :=
          handleOf_eq_some.mpr ⟨info, present, rfl⟩
        have other : info.socket ≠ w.server.getUserSocket name := fun same =>
          apart (sessions.single own (same ▸ named))
        obtain ⟨listed, used⟩ := ih rest left still
        exact ⟨listed, used.trans (Function.update_of_ne other _ _)⟩
    · exact ih rest sessions present

namespace Timed

/-- The time from one round of PINGs to the next. -/
def cycle : Int := seconds heartbeatIntervalS + seconds heartbeatCheckDelayS

/-- When the last round of PINGs was due. -/
def pinged (s : Timed) : Int :=
  match s.sleep with
  | .checkDelay => s.wakes - seconds heartbeatCheckDelayS
  | .interval => s.wakes - cycle

/-- How long ago a client on this connection can have given its last sign of life. -/
def lastSign (s : Timed) (conn : ConnId) : Int :=
  match s.owed conn with
  | none => s.pinged
  | some since => since - cycle

/-- No PING to this connection has gone unanswered for more than a minute. -/
def Responsive (conn : ConnId) (s : Timed) (label : Env × Operation) : Prop :=
  ∀ since ∈ s.owed conn, label.1.steadyClock ≤ since + seconds 60

/-- Connections register one name each. -/
def LoginsOnce (s : Timed) (label : Env × Operation) : Prop := System.SingleLogin s.system label

/-- What the entries of a connection have to do with the phase of the heartbeat. -/
structure Punctual (conn : ConnId) (s : Timed) : Prop where
  sound : s.system.Sound
  sessions : Exclusive s.system.world.table
  counts : Accounted (· < s.system.loops.length) s.system.world.table
  time : s.pinged ≤ s.now
  rounds : ∀ since ∈ s.owed conn, ∃ n : Nat, s.pinged = since + n * cycle
  recent : ∀ {username info}, s.system.world.server.clients.lookup username = some info →
    s.system.world.registrant username = some conn → s.lastSign conn ≤ info.lastPong

variable {s after : Timed} {conn : ConnId} {env : Env} {operation : Operation}

theorem lastSign_le (time : s.pinged ≤ s.now)
    (rounds : ∀ since ∈ s.owed conn, ∃ n : Nat, s.pinged = since + n * cycle) :
    s.lastSign conn ≤ s.now := by
  unfold lastSign
  cases owed : s.owed conn with
  | none => exact time
  | some since =>
    obtain ⟨n, due⟩ := rounds since owed
    have later : 0 ≤ (n : Int) * cycle := Int.mul_nonneg (Int.natCast_nonneg n) (by decide)
    have positive : 0 ≤ cycle := by decide
    dsimp only
    omega

/-- A registered client is written to on its own connection. -/
theorem Punctual.used (punctual : s.Punctual conn) {username : Str} {info : ClientInfo}
    (present : s.system.world.server.clients.lookup username = some info)
    (own : s.system.world.registrant username = some conn) :
    s.system.world.os.user info.socket = some conn ∧ 0 ≤ info.socket := by
  have named := handleOf_eq_some.mpr ⟨info, present, rfl⟩
  obtain ⟨owner, used, registered⟩ := punctual.sessions.live named
  have same : owner = conn := Option.some.inj (registered.symm.trans own)
  exact ⟨same ▸ used, (punctual.sound.world.names named).2⟩

/-- A round of PINGs begins the next cycle. Other operations leave the phase alone,
and at most settle what is owed. -/
theorem advance_cases (onTime : s.OnTime env operation) (system : System) (conn : ConnId) :
    operation = .heartbeat ∧ env.steadyClock = s.pinged + cycle ∧
      (s.advance env operation system).pinged = env.steadyClock ∧
      (s.advance env operation system).owed conn =
        (if (s.system.world.since system.world).any (Event.pings conn) then
          (s.owed conn).or (some env.steadyClock)
        else s.owed conn) ∨
    (s.advance env operation system).pinged = s.pinged ∧
      ((s.advance env operation system).owed conn = s.owed conn ∨
        s.answering operation = some conn ∧ (s.advance env operation system).owed conn = none) := by
  obtain ⟨forward, due, phase⟩ := onTime
  cases operation with
  | heartbeat =>
    obtain ⟨sleeps, wakes⟩ := phase
    refine .inl ⟨rfl, ?_, ?_, rfl⟩
    · simp only [pinged, sleeps]
      omega
    · simp only [advance, pinged]
      omega
  | checkTimeouts =>
    obtain ⟨sleeps, wakes⟩ := phase
    refine .inr ⟨?_, .inl rfl⟩
    simp only [advance, pinged, sleeps, cycle]
    omega
  | receive i raw =>
    refine .inr ⟨rfl, ?_⟩
    by_cases answers : s.answering (.receive i raw) = some conn
    · exact .inr ⟨answers, if_pos answers⟩
    · exact .inl (if_neg answers)
  | accept | receiveFailure | dispatch | admin => exact .inr ⟨rfl, .inl rfl⟩

/-- After a PONG on its connection a client's entry is fresh. -/
theorem Punctual.answered (punctual : s.Punctual conn) {system : System}
    (operated : System.step s.system (env, operation) = some system)
    (answers : s.answering operation = some conn) {username : Str} {old info : ClientInfo}
    (before : s.system.world.server.clients.lookup username = some old)
    (own : s.system.world.registrant username = some conn)
    (present : system.world.server.clients.lookup username = some info) :
    info.lastPong = env.steadyClock := by
  obtain ⟨_, stepped⟩ := System.step_cases operated
  cases stepped with
  | @receive i raw socket user live used admissible =>
    obtain ⟨⟨valid, command⟩, answers⟩ := Option.ite_none_right_eq_some.mp answers
    rw [live, Option.bind_some] at answers
    have same : old.socket = socket := punctual.counts.one (punctual.used before own).1 answers
    have named := handleOf_eq_some.mpr ⟨old, before, same⟩
    exact handleMessage_pong punctual.sound.world punctual.sessions valid command named present
  | accept | receiveFailure | dispatch | admin | heartbeat | checkTimeouts => cases answers

/-- Every registered connection gets a PING when it is due. -/
theorem Punctual.pings (punctual : s.Punctual conn) {system : System}
    (operated : System.step s.system (env, .heartbeat) = some system) {username : Str}
    {info : ClientInfo} (present : s.system.world.server.clients.lookup username = some info)
    (own : s.system.world.registrant username = some conn) :
    (s.system.world.since system.world).any (Event.pings conn) = true := by
  obtain ⟨_, stepped⟩ := System.step_cases operated
  cases stepped
  obtain ⟨used, nonneg⟩ := punctual.used present own
  obtain ⟨events, grown, sent⟩ := s.system.world.pingClients_log env
  obtain ⟨taken, listed⟩ := sent username info present nonneg
  have since : s.system.world.since (s.system.world.pingClients env) = events := World.since_eq grown
  refine List.any_eq_true.mpr ⟨_, since ▸ listed, ?_⟩
  simp only [Event.pings, used, decide_true, Bool.and_self]

theorem step_punctual (punctual : s.Punctual conn) (single : s.LoginsOnce (env, operation))
    (stepped : step s (env, operation) = some after) : after.Punctual conn := by
  obtain ⟨onTime, system, operated, rfl⟩ := step_cases stepped
  have aged := System.step_aged operated
  have clock : (s.advance env operation system).now = env.steadyClock := by cases operation <;> rfl
  have server : (s.advance env operation system).system = system := by cases operation <;> rfl
  have positive : 0 ≤ cycle := by decide
  have cases := advance_cases onTime system conn
  have time : (s.advance env operation system).pinged ≤ (s.advance env operation system).now := by
    have before := punctual.time
    have forward := onTime.1
    omega
  have rounds : ∀ since ∈ (s.advance env operation system).owed conn, ∃ n : Nat,
      (s.advance env operation system).pinged = since + n * cycle := by
    intro since owes
    rcases cases with ⟨_, due, now, owed⟩ | ⟨same, owed | ⟨_, owed⟩⟩
    · rw [now, due]
      cases before : s.owed conn with
      | some first =>
        have same : since = first := by
          rw [owed, before, Option.some_or, ite_self] at owes
          exact (Option.some.inj owes).symm
        obtain ⟨n, begun⟩ := punctual.rounds first before
        refine ⟨n + 1, ?_⟩
        rw [same, begun, Int.natCast_add, Int.natCast_one, Int.add_mul, Int.one_mul, Int.add_assoc]
      | none =>
        rw [owed, before, Option.none_or] at owes
        obtain ⟨_, begun⟩ := Option.ite_none_right_eq_some.mp owes
        refine ⟨0, ?_⟩
        rw [← Option.some.inj begun, due, Int.natCast_zero, Int.zero_mul, Int.add_zero]
    · rw [owed] at owes
      exact same ▸ punctual.rounds since owes
    · rw [owed] at owes
      cases owes
  refine ⟨?_, ?_, ?_, time, rounds, fun {username info} present own => ?_⟩
  · rw [server]
    exact System.step_sound punctual.sound operated
  · rw [server]
    exact System.step_exclusive punctual.sessions single operated
  · rw [server]
    exact System.step_accounted punctual.sessions punctual.counts single operated
  · rw [server] at present own
    rcases aged.entry present with fresh | ⟨old, before, age, registrant⟩
    · rw [fresh, ← clock]
      exact lastSign_le time rounds
    · rw [registrant] at own
      have recent := punctual.recent before own
      rcases cases with ⟨rfl, due, now, owed⟩ | ⟨same, owed | ⟨answers, owed⟩⟩
      · rw [if_pos (punctual.pings operated before own)] at owed
        have kept : (s.advance env .heartbeat system).lastSign conn = s.lastSign conn := by
          unfold lastSign
          rw [owed]
          cases s.owed conn with
          | some first => rfl
          | none =>
            show env.steadyClock - cycle = s.pinged
            omega
        exact kept ▸ age ▸ recent
      · rw [lastSign, owed, same]
        exact age ▸ recent
      · rw [punctual.answered operated answers before own present, ← clock]
        exact lastSign_le time rounds

theorem initial_punctual (banlist : Option Str) (clock : Int) (conn : ConnId) :
    (initial banlist clock).Punctual conn where
  sound := System.initial_sound banlist
  sessions := System.initial_exclusive banlist
  counts := System.initial_accounted banlist
  time := by
    show clock + seconds heartbeatIntervalS - cycle ≤ clock
    have shorter : seconds heartbeatIntervalS ≤ cycle := by decide
    omega
  rounds := fun _ owes => absurd owes (Option.some_ne_none _).symm
  recent := fun present => absurd present (Option.some_ne_none _).symm

/-- At a check the silence of a responsive client is at most two rounds and a delay. -/
theorem Punctual.not_late (punctual : s.Punctual conn) (onTime : s.OnTime env .checkTimeouts)
    (responsive : s.Responsive conn (env, .checkTimeouts)) {username : Str} {info : ClientInfo}
    (present : s.system.world.server.clients.lookup username = some info)
    (own : s.system.world.registrant username = some conn) :
    env.steadyClock - info.lastPong ≤ seconds 75 := by
  obtain ⟨_, _, sleeps, wakes⟩ := onTime
  have due : env.steadyClock = s.pinged + seconds heartbeatCheckDelayS := by
    simp only [pinged, sleeps]
    omega
  have recent := punctual.recent present own
  have delay : seconds heartbeatCheckDelayS = 5000000000 := rfl
  have length : cycle = 35000000000 := rfl
  have minute : seconds 60 = 60000000000 := rfl
  have bound : seconds 75 = 75000000000 := rfl
  unfold lastSign at recent
  cases owed : s.owed conn with
  | none =>
    rw [owed] at recent
    dsimp only at recent
    omega
  | some since =>
    rw [owed] at recent
    dsimp only at recent
    obtain ⟨n, begun⟩ := punctual.rounds since owed
    have answered := responsive since owed
    dsimp only at answered
    rw [length] at begun
    -- the unanswered PING is one of the last two
    have few : n ≤ 1 := by omega
    omega

/-- However clients come and go, one that answers every PING within a minute is
not collected by the check for timeouts, which leaves its session as it is. -/
theorem responsive_never_dropped {banlist : Option Str} {clock : Int}
    {labels : List (Env × Operation)} (run : Run step LoginsOnce (initial banlist clock) labels s)
    (stepped : step s (env, .checkTimeouts) = some after)
    (responsive : s.Responsive conn (env, .checkTimeouts)) {username : Str} {info : ClientInfo}
    (present : s.system.world.server.clients.lookup username = some info)
    (own : s.system.world.registrant username = some conn) :
    username ∉ s.system.world.server.getTimedOutClients env ∧
    after.system.world.server.clients.lookup username = some info ∧
    after.system.world.os.user info.socket = some conn := by
  have punctual : s.Punctual conn :=
    run.invariant (P := fun s => s.Punctual conn) (fun held single stepped =>
      step_punctual held single stepped) (initial_punctual banlist clock conn)
  obtain ⟨onTime, system, operated, rfl⟩ := step_cases stepped
  have spared : username ∉ s.system.world.server.getTimedOutClients env := by
    intro collected
    obtain ⟨entry, late, same⟩ := List.mem_map.mp collected
    obtain ⟨visited, late⟩ := List.mem_filter.mp late
    have found := (env.mem_visit _ _ _).mp visited
    rw [same, present] at found
    have silence := punctual.not_late onTime responsive present own
    have late := of_decide_eq_true late
    rw [← Option.some.inj found] at late
    have whole := Int.tdiv_le_tdiv (by decide : (0 : Int) < 1000000000) silence
    exact absurd (Int.lt_of_lt_of_le late whole) (by decide)
  obtain ⟨_, stepped⟩ := System.step_cases operated
  cases stepped
  obtain ⟨kept, used⟩ := disconnectTimedOut_spares env spared punctual.sessions present
  exact ⟨spared, kept, used.trans (punctual.used present own).1⟩

/-- ann has not answered for forty seconds, which is soon enough. -/
theorem responsive_never_dropped_of_ann : ∃ (s after : Timed) (labels : List (Env × Operation))
    (info : ClientInfo), Run step LoginsOnce (initial none 0) labels s ∧
    step s (.atSeconds 70, .checkTimeouts) = some after ∧ s.owed 0 = some (seconds 30) ∧
    after.system.world.server.clients.lookup (str "ann") = some info := by
  let labels : List (Env × Operation) := [(.atSeconds 10, .accept 5),
    (.atSeconds 10, .receive 0 (str "CONNECT;ann")), (.atSeconds 30, .heartbeat),
    (.atSeconds 35, .checkTimeouts), (.atSeconds 65, .heartbeat)]
  obtain ⟨s, ran, owed, present, own, more⟩ := evaluated
    (o := execute (guarded (fun s label => System.loginsOnce s.system label) step) (initial none 0) labels)
    (P := fun s => s.owed 0 = some (seconds 30) ∧
      s.system.world.server.clients.lookup (str "ann") = some ⟨5, seconds 10, true⟩ ∧
      s.system.world.registrant (str "ann") = some 0 ∧
      (step s (.atSeconds 70, .checkTimeouts)).isSome = true) (by decide)
  obtain ⟨after, stepped⟩ := Option.isSome_iff_exists.mp more
  have run := run_of_guarded
    (fun (s : Timed) label => System.singleLogin_of_loginsOnce s.system label) labels ran
  have responsive : s.Responsive 0 (.atSeconds 70, .checkTimeouts) := by
    intro since owes
    rw [owed] at owes
    obtain rfl := Option.some.inj owes
    decide
  exact ⟨s, after, labels, _, run, stepped, owed,
    (responsive_never_dropped run stepped responsive present own).2.1⟩

end Timed
end SocketMessaging
