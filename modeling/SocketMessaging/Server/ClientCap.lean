import SocketMessaging.Server.Bans
import SocketMessaging.Server.Pool

/-! How many clients are registered. The limit given to `Server::start` is only
the backlog of `listen`, and no login is compared with it. -/
namespace SocketMessaging
open Transition CommandHandler Utils MessageParser

/-- `clients.size()`. The cast to `int` is exact below 2 ^ 31. -/
def Server.getClientCount (server : Server) : Nat := server.clients.keys.length

/-- The frame is a CONNECT that passes the three checks of `handleConnect`. -/
def Registers (w : World) (raw : Str) : Prop :=
  ∃ username ∈ connectName raw, isValidUsername w.runtimeConfig username = true ∧
    w.server.isBanned username = false ∧ w.server.isUsernameTaken username = false

instance : DecidableRel Registers := fun _ _ => inferInstanceAs (Decidable (∃ _ ∈ _, _))

variable {env : Env} {w v : World} {raw : Str}

theorem getClientCount_le (names : ∀ username, v.table.handleOf username ≠ none →
    w.table.handleOf username ≠ none) : v.server.getClientCount ≤ w.server.getClientCount := by
  apply List.Subperm.length_le
  apply List.subperm_of_subset (AList.keys_nodup v.server.clients)
  intro username member
  have present : ∀ u : World, username ∈ u.server.clients.keys ↔ u.table.handleOf username ≠ none := by
    intro u
    rw [← AList.mem_keys, ← AList.lookup_isSome, ← Option.isSome_iff_ne_none]
    exact Option.isSome_map.symm ▸ Iff.rfl
  exact (present w).mpr (names username ((present v).mp member))

theorem getClientCount_of_releases (releases : Releases w v) :
    v.server.getClientCount ≤ w.server.getClientCount := by
  apply getClientCount_le
  intro username present
  obtain ⟨socket, named⟩ := Option.ne_none_iff_exists'.mp present
  exact Option.ne_none_iff_exists'.mpr ⟨socket, releases.handle named⟩

theorem getClientCount_registerClient {server : Server} {username : Str}
    (free : server.isUsernameTaken username = false) (socket : Fd) :
    (server.registerClient env username socket).getClientCount = server.getClientCount + 1 := by
  have absent : username ∉ server.clients := fun member =>
    Bool.false_ne_true (free.symm.trans (AList.lookup_isSome.mpr member))
  have entries := AList.entries_insert_of_notMem
    (b := (⟨socket, env.steadyClock, false⟩ : ClientInfo)) absent
  rw [Server.getClientCount, Server.registerClient, AList.keys, entries]
  rfl

/-- A message adds one client or none. -/
theorem getClientCount_handleMessage (env : Env) (w : World) (raw : Str) (socket : Fd) :
    if Registers w raw then
      ((handleMessage raw socket).run (exec env) w).2.server.getClientCount =
        w.server.getClientCount + 1
    else ((handleMessage raw socket).run (exec env) w).2.server.getClientCount ≤
      w.server.getClientCount := by
  split
  · rename_i registers
    obtain ⟨username, asks, valid, unbanned, free⟩ := registers
    obtain ⟨command, name, rest, rfl, handled⟩ := handleMessage_connect asks
    rw [handled, handleConnect_run]
    simp only [valid, unbanned, free, Bool.not_true, Bool.false_eq_true, if_false,
      World.server_reply]
    exact getClientCount_registerClient free socket
  · rename_i quiet
    apply getClientCount_le
    intro name
    have effect := handleMessage_effect env w raw socket
    generalize ((handleMessage raw socket).run (exec env) w).2.table = after at effect
    cases effect with
    | quiet | banned => exact id
    | registered asks valid unbanned free => exact absurd ⟨_, asks, valid, unbanned, free⟩ quiet
    | loggedOut =>
      intro present
      obtain ⟨number, named⟩ := Option.ne_none_iff_exists'.mp present
      exact Option.ne_none_iff_exists'.mpr ⟨number, (Sessions.Table.handleOf_unregister named).2⟩

namespace Pooled

/-- A CONNECT registers its name only while fewer clients are registered than the
server was started for. -/
def Capped (s : Pooled) : Env × Move → Prop
  | (_, .operation (.receive _ raw)) => Registers s.system.world raw →
      (s.system.world.server.getClientCount : Int) < s.maxConnections
  | _ => True

instance : DecidableRel Capped
  | _, (_, .operation (.receive _ _)) => inferInstanceAs (Decidable (_ → _))
  | _, (_, .operation (.accept _)) | _, (_, .operation (.receiveFailure _))
  | _, (_, .operation .dispatch) | _, (_, .operation (.admin _)) | _, (_, .operation .heartbeat)
  | _, (_, .operation .checkTimeouts) | _, (_, .take _) | _, (_, .hangUp _) => isTrue trivial

variable {s after : Pooled} {label : Env × Move}

theorem maxConnections_step (stepped : step s label = some after) :
    after.maxConnections = s.maxConnections := by
  obtain ⟨env, move⟩ := label
  cases step_cases stepped <;> rfl

/-- Only a message that registers a name adds a client. -/
theorem getClientCount_step (stepped : step s label = some after) :
    (∃ env i raw, label = (env, .operation (.receive i raw)) ∧ Registers s.system.world raw ∧
      after.system.world.server.getClientCount = s.system.world.server.getClientCount + 1) ∨
    Capped s label ∧
      after.system.world.server.getClientCount ≤ s.system.world.server.getClientCount := by
  obtain ⟨env, move⟩ := label
  cases step_cases stepped with
  | @operation operation system runs advanced =>
    have effect := (System.step_cases advanced).2
    have shrinks : ∀ {program : Handler}, program.Only Action.Unconfirming →
        (program.run (exec env) s.system.world).2.server.getClientCount ≤
          s.system.world.server.getClientCount :=
      fun only => getClientCount_of_releases (run_releases env only _)
    cases effect with
    | accept => exact .inr ⟨trivial, Nat.le_refl _⟩
    | @receive i raw socket =>
      have counted := getClientCount_handleMessage env s.system.world raw socket
      split at counted
      · rename_i registers
        exact .inl ⟨env, i, raw, rfl, registers, counted⟩
      · rename_i quiet
        exact .inr ⟨fun registers => absurd registers quiet, counted⟩
    | receiveFailure => exact .inr ⟨trivial, shrinks (handleReceiveFailure_unconfirming _)⟩
    | dispatch => exact .inr ⟨trivial, shrinks runOnce_unconfirming⟩
    | admin =>
      exact .inr ⟨trivial, shrinks (AdminCommandHandler.commandLine_unconfirming _)⟩
    | heartbeat => exact .inr ⟨trivial, shrinks ⟨trivial, fun _ => trivial⟩⟩
    | checkTimeouts =>
      exact .inr ⟨trivial, shrinks ⟨trivial, fun _ => disconnectTimedOut_unconfirming _⟩⟩
  | take | hangUp => exact .inr ⟨trivial, Nat.le_refl _⟩

/-- There are no more clients than the server was started for. -/
def WithinLimit (s : Pooled) : Prop :=
  (s.system.world.server.getClientCount : Int) ≤ s.maxConnections

theorem withinLimit_step (within : s.WithinLimit) (stepped : step s label = some after) :
    after.WithinLimit ↔ Capped s label := by
  have limit := maxConnections_step stepped
  unfold WithinLimit at within ⊢
  rcases getClientCount_step stepped with ⟨env, i, raw, rfl, registers, added⟩ | ⟨capped, fewer⟩
  · simp only [Capped, registers, forall_const]
    omega
  · simp only [capped, iff_true]
    omega

/-- The limit holds as long as each login stays below it, and fails with the
first login that does not. -/
theorem clients_within_limit {maxConnections : Int} {banlist : Option Str}
    {labels : List (Env × Move)} (positive : 0 < maxConnections)
    (run : Run step Capped (start maxConnections banlist) labels s) :
    (s.system.world.server.getClientCount : Int) ≤ maxConnections ∧
      ∀ {label : Env × Move} {after : Pooled}, step s label = some after →
        ((after.system.world.server.getClientCount : Int) ≤ maxConnections ↔ Capped s label) := by
  have both := run.invariant (P := fun s => s.WithinLimit ∧ s.maxConnections = maxConnections)
    (fun ⟨within, limit⟩ capped stepped =>
      ⟨(withinLimit_step within stepped).mpr capped, (maxConnections_step stepped).trans limit⟩)
    ⟨?_, if_pos positive⟩
  · obtain ⟨within, limit⟩ := both
    refine ⟨limit ▸ within, fun {label after} stepped => ?_⟩
    have next := withinLimit_step within stepped
    rw [WithinLimit, (maxConnections_step stepped).trans limit] at next
    exact next
  · rw [WithinLimit, show (start maxConnections banlist).maxConnections = maxConnections from
      if_pos positive]
    exact Int.le_of_lt positive

/-- Connections 0 and 1 log in. -/
def twoLogins : List (Env × Move) :=
  arrivals 2 2 ++ [(.plain, .operation (.receive 0 (str "CONNECT;ann"))),
    (.plain, .operation (.receive 1 (str "CONNECT;bob")))]

theorem clients_within_limit_of_two : ∃ (labels : List (Env × Move)) (s : Pooled),
    Run step Capped (start 2 none) labels s ∧ s.system.world.server.getClientCount = 2 ∧
    (s.system.world.server.getClientCount : Int) ≤ 2 := by
  obtain ⟨s, ran, count⟩ := evaluated
    (o := execute (guarded (fun s label => decide (Capped s label)) step) (start 2 none) twoLogins)
    (P := fun s => s.system.world.server.getClientCount = 2) (by decide)
  have run := run_of_guarded (fun _ _ => of_decide_eq_true) _ ran
  exact ⟨_, s, run, count, (clients_within_limit (by decide) run).1⟩

/-- A server started for one client registers two. -/
theorem clients_not_always_within_limit : ¬ ∀ (maxConnections : Int) (banlist : Option Str)
    (labels : List (Env × Move)) (s : Pooled), 0 < maxConnections →
    Run step Free (start maxConnections banlist) labels s →
    (s.system.world.server.getClientCount : Int) ≤ maxConnections := by
  intro claimed
  obtain ⟨s, ran, count⟩ := evaluated (o := execute step (start 1 none) twoLogins)
    (P := fun s => s.system.world.server.getClientCount = 2) (by decide)
  have within := claimed 1 none _ s (by decide) (execute_run _ ran)
  rw [count] at within
  exact absurd within (by decide)

end Pooled
end SocketMessaging
