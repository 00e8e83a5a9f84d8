import SocketMessaging.Server.Heartbeat
import SocketMessaging.Server.MailRuns

/-! How long a client that has fallen silent stays registered. Each check for
timeouts removes everybody who is late by then, so no entry is older than the
timeout and one round of the heartbeat. -/
namespace SocketMessaging
open Prog Transition Sessions CommandHandler

/-- The names that are timed out are gone, provided that 0 is nobody's number. -/
theorem disconnectTimedOut_removes (env : Env) {names : List Str} {w : World}
    (sessions : w.table.Exclusive) (valid : ∀ {username socket},
      w.table.handleOf username = some socket → username ≠ [] ∧ 0 < socket) :
    ∀ username ∈ names,
      ((disconnectTimedOut names).run (exec env) w).2.table.handleOf username = none := by
  have stays : ∀ (names : List Str) {v : World} {username : Str},
      v.table.handleOf username = none →
      ((disconnectTimedOut names).run (exec env) v).2.table.handleOf username = none := by
    intro names v username absent
    cases named : ((disconnectTimedOut names).run (exec env) v).2.table.handleOf username with
    | none => rfl
    | some socket =>
      have before := (run_releases env (disconnectTimedOut_unconfirming names) v).handle named
      exact absurd before (absent ▸ nofun)
  induction names generalizing w with
  | nil => exact nofun
  | cons name names ih =>
    simp only [disconnectTimedOut, perform_bind, run_getUserSocket]
    by_cases online : 0 < w.server.getUserSocket name
    · have named := handleOf_of_getUserSocket online
      have found : w.server.getUsernameBySocket env (w.server.getUserSocket name) = name := by
        rcases getUsernameBySocket_cases env (w.server.getUserSocket name) w with stored | ⟨_, none⟩
        · exact sessions.single stored named
        · exact absurd named (none name)
      rw [if_pos online, run_bind, handleDisconnect_run]
      dsimp only
      rw [found, if_neg (valid named).1]
      let closed := (w.unregisterClient name).close (w.server.getUserSocket name)
      have table : closed.table = w.table.logout name (w.server.getUserSocket name) := by
        rw [World.table_close, World.table_unregisterClient]
        rfl
      refine List.forall_mem_cons.mpr ⟨stays names ?_, ih (w := closed) ?_ ?_⟩
      · rw [table]
        exact Function.update_self ..
      · rw [table]
        exact sessions.logout named
      · intro username socket stored
        rw [table] at stored
        exact valid (Table.handleOf_unregister stored).2
    · have absent : w.table.handleOf name = none := by
        cases named : w.table.handleOf name with
        | none => rfl
        | some socket =>
          have stored : w.server.getUserSocket name = socket := by
            rw [getUserSocket_eq, named]
            rfl
          exact absurd (valid named).2 (stored ▸ online)
      rw [if_neg online]
      exact List.forall_mem_cons.mpr ⟨stays names absent, ih sessions valid⟩

namespace Timed
variable {s after : Timed} {env : Env} {operation : Operation}

/-- When the last check for timeouts was due. -/
def checked (s : Timed) : Int :=
  match s.sleep with
  | .interval => s.wakes - seconds Constants.heartbeatIntervalS
  | .checkDelay => s.wakes - cycle

/-- Connections log in once, and none is given the number 0. -/
def Regular (s : Timed) (label : Env × Operation) : Prop := System.Regular s.system label

/-- At the last check nobody who is registered was late. -/
structure Heard (s : Timed) : Prop where
  regulated : s.system.Regulated
  forward : s.checked ≤ s.now
  due : s.now ≤ s.wakes
  recent : ∀ {username info}, s.system.world.server.clients.lookup username = some info →
    s.checked - info.lastPong < seconds (Constants.heartbeatTimeoutS + 1)

theorem registered_positive (regulated : s.system.Regulated) {username : Str} {socket : Fd}
    (named : s.system.world.table.handleOf username = some socket) : username ≠ [] ∧ 0 < socket := by
  obtain ⟨name, nonneg⟩ := regulated.sound.world.names named
  obtain ⟨conn, used, _⟩ := owner_of_handleOf regulated.sessions named
  have apart : socket ≠ 0 := regulated.opened used
  exact ⟨name.ne_nil, Int.lt_iff_le_and_ne.mpr ⟨nonneg, apart.symm⟩⟩

/-- Whoever is still registered after a check was not late. -/
theorem Heard.after_check (heard : s.Heard) {system : System}
    (operated : System.step s.system (env, .checkTimeouts) = some system) {username : Str}
    {info : ClientInfo} (present : system.world.server.clients.lookup username = some info) :
    env.steadyClock - info.lastPong < seconds (Constants.heartbeatTimeoutS + 1) := by
  rcases (System.step_aged operated).entry present with fresh | ⟨old, before, age, _⟩
  · rw [fresh, Int.sub_self]
    decide
  · by_contra late
    have collected : username ∈ s.system.world.server.getTimedOutClients env := by
      refine List.mem_map.mpr ⟨(username, old), List.mem_filter.mpr ⟨?_, ?_⟩, rfl⟩
      · exact (env.mem_visit _ _ _).mpr before
      · have whole := Int.tdiv_le_tdiv (by decide : (0 : Int) < 1000000000) (Int.not_lt.mp late)
        rw [← age] at whole
        exact decide_eq_true (Int.lt_of_lt_of_le (by decide) whole)
    obtain ⟨_, stepped⟩ := System.step_cases operated
    cases stepped
    have gone := disconnectTimedOut_removes env heard.regulated.sessions
      (fun named => registered_positive heard.regulated named) username collected
    exact absurd (handleOf_eq_some.mpr ⟨info, present, rfl⟩) (gone ▸ nofun)

theorem step_heard (heard : s.Heard) (regular : s.Regular (env, operation))
    (stepped : step s (env, operation) = some after) : after.Heard := by
  obtain ⟨⟨later, due, phase⟩, system, operated, rfl⟩ := step_cases stepped
  have clock : (s.advance env operation system).now = env.steadyClock := by cases operation <;> rfl
  have server : (s.advance env operation system).system = system := by cases operation <;> rfl
  have regulated : (s.advance env operation system).system.Regulated := by
    rw [server]
    exact System.step_regulated heard.regulated regular operated
  have forward := heard.forward
  by_cases checks : operation = .checkTimeouts
  · subst checks
    obtain ⟨_, wakes⟩ := phase
    have now : (s.advance env .checkTimeouts system).checked = env.steadyClock := by
      change s.wakes + seconds Constants.heartbeatIntervalS - seconds Constants.heartbeatIntervalS =
        env.steadyClock
      omega
    refine ⟨regulated, ?_, ?_, fun {username info} present => ?_⟩
    · exact Int.le_of_eq (now.trans clock.symm)
    · have interval : 0 ≤ seconds Constants.heartbeatIntervalS := by decide
      change env.steadyClock ≤ s.wakes + seconds Constants.heartbeatIntervalS
      omega
    · rw [server] at present
      rw [now]
      exact heard.after_check operated present
  · have same : (s.advance env operation system).checked = s.checked ∧
        env.steadyClock ≤ (s.advance env operation system).wakes := by
      cases operation with
      | checkTimeouts => exact absurd rfl checks
      | heartbeat =>
        obtain ⟨sleeps, wakes⟩ := phase
        have delay : 0 ≤ seconds Constants.heartbeatCheckDelayS := by decide
        simp only [checked, advance, sleeps, cycle]
        omega
      | _ => exact ⟨rfl, due⟩
    refine ⟨regulated, ?_, clock ▸ same.2, fun {username info} present => ?_⟩
    · rw [same.1, clock]
      omega
    · rw [server] at present
      rw [same.1]
      rcases (System.step_aged operated).entry present with fresh | ⟨old, before, age, _⟩
      · have positive : 0 < seconds (Constants.heartbeatTimeoutS + 1) := by decide
        omega
      · rw [← age]
        exact heard.recent before

theorem initial_heard (banlist : Option Str) (clock : Int) : (initial banlist clock).Heard where
  regulated := System.initial_regulated banlist
  forward := by
    change clock + seconds Constants.heartbeatIntervalS - seconds Constants.heartbeatIntervalS ≤ clock
    omega
  due := by
    have interval : 0 ≤ seconds Constants.heartbeatIntervalS := by decide
    change clock ≤ clock + seconds Constants.heartbeatIntervalS
    omega
  recent := nofun

/-- However clients come and go, nobody stays registered for 126 seconds after the
login or the last PONG: the timeout of 90 seconds is checked in whole seconds, and
the checks are 35 seconds apart. -/
theorem silent_removed {banlist : Option Str} {clock : Int} {labels : List (Env × Operation)}
    (run : Run step Regular (initial banlist clock) labels s) {username : Str} {info : ClientInfo}
    (present : s.system.world.server.clients.lookup username = some info) :
    s.now - info.lastPong < seconds 126 := by
  have heard : s.Heard :=
    run.invariant (P := Heard) (fun held regular stepped => step_heard held regular stepped)
      (initial_heard banlist clock)
  have recent := heard.recent present
  have due := heard.due
  have timeout : seconds (Constants.heartbeatTimeoutS + 1) = 91000000000 := rfl
  have interval : seconds Constants.heartbeatIntervalS = 30000000000 := rfl
  have length : cycle = 35000000000 := rfl
  have bound : seconds 126 = 126000000000 := rfl
  unfold checked at recent
  cases sleeps : s.sleep with
  | interval =>
    rw [sleeps] at recent
    dsimp only at recent
    omega
  | checkDelay =>
    rw [sleeps] at recent
    dsimp only at recent
    omega

/-- ann has been silent for as long as a check has allowed, and longer. -/
theorem silent_removed_of_ann : ∃ (s : Timed) (info : ClientInfo),
    s.system.world.server.clients.lookup (str "ann") = some info ∧
    s.now - info.lastPong = seconds 125 ∧ s.now - info.lastPong < seconds 126 := by
  let labels : List (Env × Operation) := [(.atSeconds 0, .accept 5),
    (.atSeconds 15, .receive 0 (str "CONNECT;ann")), (.atSeconds 30, .heartbeat),
    (.atSeconds 35, .checkTimeouts), (.atSeconds 65, .heartbeat), (.atSeconds 70, .checkTimeouts),
    (.atSeconds 100, .heartbeat), (.atSeconds 105, .checkTimeouts), (.atSeconds 135, .heartbeat),
    (.atSeconds 140, .accept 6)]
  obtain ⟨s, ran, present, silence⟩ := evaluated
    (o := execute (guarded (fun s label => System.regularly s.system label) step) (initial none 0)
      labels)
    (P := fun s => s.system.world.server.clients.lookup (str "ann") = some ⟨5, seconds 15, true⟩ ∧
      s.now - seconds 15 = seconds 125) (by decide)
  have run := run_of_guarded
    (fun (s : Timed) label => System.regular_of_regularly s.system label) labels ran
  exact ⟨s, _, present, silence, silent_removed run present⟩

end Timed
end SocketMessaging
