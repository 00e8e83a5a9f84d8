import SocketMessaging.Server.Invariant

/-! The session registry over whole runs. The operations of the running server
refine safe changes of the session table, except for one kind of message: a
CONNECT that takes effect on a connection which already holds a name. -/
namespace SocketMessaging
open Prog Sessions Sessions.Table CommandHandler Relation

theorem CommandHandler.MessageEffect.safe {env : Env} {w : World} {raw : Str} {socket : Fd}
    {after : Table Str Fd ConnId} (effect : MessageEffect env w raw socket after)
    (used : ∃ conn, w.os.user socket = some conn)
    (single : ∀ username, connectName raw = some username → Effective w username →
      ∀ other, w.table.handleOf other ≠ some socket) :
    ReflTransGen Safe w.table after := by
  obtain ⟨conn, used⟩ := used
  cases effect with
  | quiet => exact .refl
  | banned asks valid banned => exact .single (.release used (single _ asks ⟨valid, Or.inl banned⟩))
  | registered asks valid _ untaken =>
    exact .single (.register _ used (single _ asks ⟨valid, Or.inr untaken⟩))
  | loggedOut named => exact .single (.logout named)

theorem handleDisconnect_safe (env : Env) (parsedData : List Str) (socket : Fd) (w : World) :
    ReflTransGen Safe w.table ((handleDisconnect parsedData socket).run (exec env) w).2.table := by
  rw [handleDisconnect_run]
  dsimp only
  split_ifs with absent
  · exact .refl
  · rw [World.table_close, World.table_unregisterClient]
    rcases getUsernameBySocket_cases env socket w with named | ⟨empty, _⟩
    · exact .single (.logout named)
    · exact absurd empty absent

theorem disconnectTimedOut_safe (env : Env) (names : List Str) (w : World) :
    ReflTransGen Safe w.table ((disconnectTimedOut names).run (exec env) w).2.table := by
  induction names generalizing w with
  | nil => exact .refl
  | cons username names ih =>
    simp only [disconnectTimedOut, perform_bind, run_getUserSocket]
    split_ifs
    · rw [run_bind]
      exact (handleDisconnect_safe env [] _ w).trans (ih _)
    · exact ih w

theorem checkClientTimeouts_safe (env : Env) (w : World) :
    ReflTransGen Safe w.table (checkClientTimeouts.run (exec env) w).2.table := by
  simp only [checkClientTimeouts, perform_bind, run_getTimedOutClients]
  exact disconnectTimedOut_safe env _ w

theorem disconnectUser_safe (env : Env) (username reason : Str) (w : World) :
    ReflTransGen Safe w.table
      ((AdminCommandHandler.disconnectUser username reason).run (exec env) w).2.table := by
  rw [AdminCommandHandler.disconnectUser_run]
  dsimp only
  split_ifs with absent
  · exact .refl
  · have named := handleOf_of_getUserSocket (Int.not_le.mp absent)
    rw [World.table_close, World.table_unregisterClient, World.table_reply]
    exact .single (.logout named)

/-- Closing registered sockets one after the other logs out their names. -/
theorem close_all_safe (entries : List (Str × ClientInfo)) (w : World)
    (t : Table Str Fd ConnId) (same : t = { w.table with handleOf := t.handleOf })
    (named : ∀ entry ∈ entries, t.handleOf entry.1 = some entry.2.socket)
    (distinct : (entries.map Prod.fst).Nodup) :
    ∃ handleOf : Str → Option Fd, ReflTransGen Safe t
        { (entries.foldl (fun w entry => w.close entry.2.socket) w).table with handleOf := handleOf } ∧
      ∀ name, handleOf name = if name ∈ entries.map Prod.fst then none else t.handleOf name := by
  induction entries generalizing w t with
  | nil =>
    refine ⟨t.handleOf, ?_, by simp⟩
    rw [List.foldl_nil, ← same]
  | cons entry entries ih =>
    obtain ⟨fresh, rest⟩ := List.nodup_cons.mp distinct
    have first := named entry List.mem_cons_self
    have next : t.logout entry.1 entry.2.socket =
        { (w.close entry.2.socket).table with
          handleOf := (t.logout entry.1 entry.2.socket).handleOf } := by
      rw [World.table_close, same]
      rfl
    have others : ∀ name, (t.logout entry.1 entry.2.socket).handleOf name =
        if name = entry.1 then none else t.handleOf name := by
      intro name
      exact Function.update_apply t.handleOf entry.1 none name
    obtain ⟨handleOf, chain, result⟩ := ih (w.close entry.2.socket) _ next (by
      intro other member
      have apart : other.1 ≠ entry.1 := fun equal => fresh (equal ▸ List.mem_map_of_mem member)
      rw [others, if_neg apart]
      exact named other (List.mem_cons_of_mem _ member)) rest
    refine ⟨handleOf, .head (.logout first) chain, fun name => ?_⟩
    rw [result, others, List.map_cons]
    by_cases equal : name = entry.1
    · simp only [equal, if_true, List.mem_cons_self, ite_self]
    · simp only [equal, if_false, List.mem_cons, false_or]

theorem stop_safe (env : Env) (w : World) : ReflTransGen Safe w.table (w.stop env).table := by
  have names := env.visit_names w.server.clients
  have named : ∀ entry ∈ env.visit w.server.clients,
      w.table.handleOf entry.1 = some entry.2.socket := by
    intro entry member
    have found := (env.mem_visit w.server.clients entry.1 entry.2).mp member
    simp only [World.table, found, Option.map_some]
  obtain ⟨handleOf, chain, result⟩ := close_all_safe (env.visit w.server.clients) w w.table rfl named
    (names.nodup_iff.mpr (AList.keys_nodup _))
  have none_left : handleOf = fun _ => none := by
    funext name
    rw [result]
    by_cases listed : name ∈ (env.visit w.server.clients).map Prod.fst
    · rw [if_pos listed]
    · have absent : w.server.clients.lookup name = none :=
        AList.lookup_eq_none.mpr fun member => listed (names.mem_iff.mpr (AList.mem_keys.mp member))
      rw [if_neg listed]
      simp only [World.table, absent, Option.map_none]
  rw [none_left] at chain
  exact chain

namespace AdminCommandHandler

theorem cmdKick_safe (env : Env) (args : List Str) (w : World) :
    ReflTransGen Safe w.table ((cmdKick args).run (exec env) w).2.table := by
  simp only [cmdKick, run_bind, nth_run, pure_eq, run_done]
  exact disconnectUser_safe env _ _ w

theorem cmdBan_safe (env : Env) (args : List Str) (w : World) :
    ReflTransGen Safe w.table ((cmdBan args).run (exec env) w).2.table := by
  simp only [cmdBan, run_bind, nth_run, run_ite, pure_eq, run_done, run_perform]
  split_ifs
  · exact disconnectUser_safe env _ _ w
  · exact disconnectUser_safe env _ _ w

/-- Every command of the table, with any arguments. -/
theorem handler_safe (env : Env) {cmdName : Str} {cmd : AdminCommand}
    (listed : Listed cmdName cmd) (args : List Str) (w : World) :
    ReflTransGen Safe w.table ((cmd.handler args).run (exec env) w).2.table := by
  have inert : ∀ handler : Handler, handler.Only Action.Inert →
      ReflTransGen Safe w.table (handler.run (exec env) w).2.table := by
    intro handler only
    rw [run_inert env only]
  cases listed with
  | print | reset => exact .refl
  | broadcast => exact inert _ (cmdBroadcast_inert args)
  | send => exact inert _ (cmdSend_inert args)
  | kick => exact cmdKick_safe env args w
  | ban => exact cmdBan_safe env args w
  | unban => exact inert _ (cmdUnban_inert args)
  | set => exact inert _ (cmdSet_inert args)
  | stop => exact stop_safe env w

theorem commandLine_safe (env : Env) (line : Str) (w : World) :
    ReflTransGen Safe w.table ((commandLine line).run (exec env) w).2.table := by
  rcases commandLine_cases line with nothing | ⟨cmdName, cmd, args, listed, same⟩
  · rw [nothing]
    exact .refl
  · rw [same]
    exact handler_safe env listed args w

end AdminCommandHandler

/-- Two registered names never share a socket, and the socket stored for a name
is open and is the connection whose CONNECT registered it. -/
structure RegistrySound (w : World) : Prop where
  distinct : ∀ {first second : Str} {info other : ClientInfo},
    w.server.clients.lookup first = some info → w.server.clients.lookup second = some other →
    info.socket = other.socket → first = second
  own : ∀ {username : Str} {info : ClientInfo}, w.server.clients.lookup username = some info →
    ∃ conn, w.os.user info.socket = some conn ∧ w.registrant username = some conn

theorem RegistrySound.of_exclusive {w : World} (safe : Exclusive w.table) : RegistrySound w where
  distinct := fun first second same =>
    safe.single (handleOf_eq_some.mpr ⟨_, first, same⟩) (handleOf_eq_some.mpr ⟨_, second, rfl⟩)
  own := fun present => safe.live (handleOf_eq_some.mpr ⟨_, present, rfl⟩)

namespace System

/-- No CONNECT that would register a name, or be refused because the name is
banned, arrives on a connection that already holds a name. -/
def SingleLogin (s : System) (label : Env × Operation) : Prop :=
  match label.2 with
  | .receive i raw => ∀ socket username other, s.liveLoop i = some socket →
      connectName raw = some username → Effective s.world username →
      s.world.table.handleOf other ≠ some socket
  | _ => True

/-- Apart from accepting a connection, an operation changes the sessions safely. -/
theorem step_safe {s after : System} {env : Env} {operation : Operation}
    (stepped : Stepped env s operation after) (single : SingleLogin s (env, operation))
    (other : ∀ socket, operation ≠ .accept socket) :
    ReflTransGen Safe s.world.table after.world.table := by
  cases stepped with
  | accept => exact absurd rfl (other _)
  | @receive i raw socket conn live used admissible =>
    refine (handleMessage_effect env s.world raw socket).safe ⟨conn, used⟩ ?_
    exact fun username asks effective name => single socket username name live asks effective
  | @receiveFailure i socket live =>
    show ReflTransGen Safe _ ((handleReceiveFailure socket).run (exec env) s.world).2.table
    rw [handleReceiveFailure_run]
    exact handleDisconnect_safe env [] socket s.world
  | dispatch =>
    show ReflTransGen Safe _ (Dispatcher.runOnce.run (exec env) s.world).2.table
    rw [run_inert env Dispatcher.runOnce_inert]
  | admin => exact AdminCommandHandler.commandLine_safe env _ s.world
  | heartbeat =>
    show ReflTransGen Safe _ (s.world.pingClients env).table
    rw [World.table_pingClients]
  | checkTimeouts => exact checkClientTimeouts_safe env s.world

theorem step_exclusive {s after : System} {label : Env × Operation}
    (safe : Exclusive s.world.table) (single : SingleLogin s label)
    (stepped : step s label = some after) : Exclusive after.world.table := by
  obtain ⟨env, operation⟩ := label
  obtain ⟨_, stepped⟩ := step_cases stepped
  by_cases accepts : ∃ socket, operation = .accept socket
  · obtain ⟨socket, rfl⟩ := accepts
    cases stepped with
    | accept _ free => exact safe.acquire free s.loops.length
  · exact exclusive_of_safe (step_safe stepped single (not_exists.mp accepts)) safe

theorem initial_exclusive (banlist : Option Str) : Exclusive (initial banlist).world.table where
  live := fun named => by simp [World.table, initial] at named
  single := fun named => by simp [World.table, initial] at named
  held := fun used => by simp [World.table, initial] at used

theorem run_exclusive {banlist : Option Str} {labels : List (Env × Operation)} {s : System}
    (run : Transition.Run step SingleLogin (initial banlist) labels s) :
    Exclusive s.world.table :=
  run.invariant (P := fun s => Exclusive s.world.table) step_exclusive (initial_exclusive banlist)

/-- A second login that takes effect breaks the registry at once: either the
connection gets two names, or it is closed while it holds one. -/
theorem not_sound_of_second_login {s after : System} {label : Env × Operation}
    (second : ¬ SingleLogin s label) (stepped : step s label = some after) :
    ¬ RegistrySound after.world := by
  obtain ⟨env, operation⟩ := label
  obtain ⟨_, stepped⟩ := step_cases stepped
  cases stepped with
  | @receive i raw socket conn live used admissible =>
    simp only [SingleLogin, not_forall, not_not] at second
    obtain ⟨number, username, other, reads, asks, effective, named⟩ := second
    obtain rfl : socket = number := Option.some.inj (live.symm.trans reads)
    intro sound
    rcases handleMessage_effective env asks effective socket with closed | ⟨free, registered⟩
    · have kept := congrArg (fun t => t.handleOf other) closed
      obtain ⟨info, present, rfl⟩ := handleOf_eq_some.mp (kept.trans named)
      obtain ⟨owner, open', _⟩ := sound.own present
      have shut : ((handleMessage raw info.socket).run (exec env) s.world).2.table.user info.socket =
          none := by
        rw [closed]
        exact Function.update_self ..
      exact Option.some_ne_none owner (open'.symm.trans shut)
    · have apart : other ≠ username := fun same => by
        rw [isUsernameTaken_eq, ← same, named] at free
        exact absurd free (by simp)
      have both : ∀ name, ((handleMessage raw socket).run (exec env) s.world).2.table.handleOf name =
          if name = username then some socket else s.world.table.handleOf name := by
        intro name
        rw [registered]
        exact Function.update_apply ..
      obtain ⟨info, first, socketEq⟩ := handleOf_eq_some.mp ((both other).trans
        ((if_neg apart).trans named))
      obtain ⟨info', second', socketEq'⟩ := handleOf_eq_some.mp ((both username).trans (if_pos rfl))
      exact apart (sound.distinct first second' (socketEq.trans socketEq'.symm))
  | _ => exact absurd trivial second

/-- While no connection logs in twice the registry is sound, and the first step
that breaks it is a second login. -/
theorem registry_sound_iff {banlist : Option Str} {labels : List (Env × Operation)}
    {s after : System} {label : Env × Operation}
    (run : Transition.Run step SingleLogin (initial banlist) labels s)
    (stepped : step s label = some after) :
    RegistrySound s.world ∧ (RegistrySound after.world ↔ SingleLogin s label) := by
  refine ⟨.of_exclusive (run_exclusive run), fun sound => ?_, fun single => ?_⟩
  · by_contra second
    exact not_sound_of_second_login second stepped sound
  · exact .of_exclusive (step_exclusive (run_exclusive run) single stepped)

/-- No registered entry stores the socket of a connection that asks for a name.
This can be computed, and it is enough. -/
def loginsOnce (s : System) (label : Env × Operation) : Bool :=
  match label.2 with
  | .receive i raw => connectName raw = none ||
      s.world.server.clients.entries.all fun entry => some entry.2.socket ≠ s.liveLoop i
  | _ => true

theorem singleLogin_of_loginsOnce (s : System) (label : Env × Operation)
    (once : loginsOnce s label = true) : SingleLogin s label := by
  obtain ⟨env, operation⟩ := label
  cases operation with
  | receive i raw =>
    intro socket username other live asks _ named
    simp only [loginsOnce, asks, reduceCtorEq, decide_false, Bool.false_or, List.all_eq_true,
      decide_eq_true_eq, live] at once
    obtain ⟨info, present, rfl⟩ := handleOf_eq_some.mp named
    exact once ⟨other, info⟩ (AList.mem_lookup_iff.mp present) rfl
  | _ => trivial

/-- `plainRun` with this check before every step. -/
def plainLogins (operations : List Operation) : Option System :=
  Transition.execute (Transition.guarded loginsOnce step) (initial none)
    (operations.map fun operation => (.plain, operation))

theorem run_of_plainLogins {operations : List Operation} {s : System}
    (ran : plainLogins operations = some s) : Transition.Run step SingleLogin (initial none)
      (operations.map fun operation => (.plain, operation)) s :=
  Transition.run_of_guarded singleLogin_of_loginsOnce _ ran

theorem registry_sound_of_two_logins : ∃ (s after : System) (labels : List (Env × Operation)),
    Transition.Run step SingleLogin (initial none) labels s ∧
    step s (.plain, .receive 1 (str "CONNECT;bob")) = some after ∧ RegistrySound after.world := by
  obtain ⟨s, ran, once, checked⟩ := Transition.evaluated
    (o := plainLogins [.accept 5, .receive 0 (str "CONNECT;ann"), .accept 6])
    (P := fun s => loginsOnce s (.plain, .receive 1 (str "CONNECT;bob")) = true ∧
      (step s (.plain, .receive 1 (str "CONNECT;bob"))).isSome = true) (by decide)
  obtain ⟨after, stepped⟩ := Option.isSome_iff_exists.mp checked
  have run := run_of_plainLogins ran
  exact ⟨s, after, _, run, stepped,
    (registry_sound_iff run stepped).2.mpr (singleLogin_of_loginsOnce _ _ once)⟩

/-- A connection that logs in twice stores its socket under two names. -/
theorem registry_not_always_sound : ¬ ∀ s, Reachable s → RegistrySound s.world := by
  intro claimed
  have ran : ((plainRun [.accept 5, .receive 0 (str "CONNECT;ann"),
      .receive 0 (str "CONNECT;bob")]).map fun s =>
      (s.world.server.clients.lookup (str "ann"), s.world.server.clients.lookup (str "bob"))) =
      some (some ⟨5, 0, false⟩, some ⟨5, 0, false⟩) := by decide
  obtain ⟨s, ran, entries⟩ := Option.map_eq_some_iff.mp ran
  have sound := claimed s (reachable_of_plainRun ran)
  have same := sound.distinct (congrArg Prod.fst entries) (congrArg Prod.snd entries) rfl
  exact absurd same (by decide)

end System
end SocketMessaging
