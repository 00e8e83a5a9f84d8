import SocketMessaging.Server.SessionInvariant

/-! What an action adds to the log, and what the log of a run says about the
registry. The log only grows, and a name keeps its entry and its registrant
unless a registration of it is logged. -/
namespace SocketMessaging
open Prog CommandHandler

theorem mem_entries_of_visit {env : Env} {w : World} {entry : Str × ClientInfo}
    (member : entry ∈ env.visit w.server.clients) :
    (⟨entry.1, entry.2⟩ : Sigma fun _ : Str => ClientInfo) ∈ w.server.clients.entries :=
  AList.mem_lookup_iff.mp ((env.mem_visit _ _ _).mp member)

theorem World.user_send (env : Env) (number : Fd) (message : Str) (w : World) :
    (w.send env number message).2.os.user = w.os.user := by
  unfold World.send
  split <;> rfl

/-- The events that an action can add to the log. -/
def Action.Logs (w : World) : ∀ {β : Type}, Action β → Event → Prop
  | _, .registerClient username number, event => event = .register username (w.os.holder number)
  | _, .unregisterClient username, event => event = .unregister username
  | _, .send number message, event =>
    ∃ taken, event = .send number (w.os.user number) message taken
  | _, .close number, event => event = .close number (w.os.holder number)
  | _, .pingClients, event => ∃ entry ∈ w.server.clients.entries, ∃ taken,
      event = .send entry.2.socket (w.os.user entry.2.socket) (str "PING\n") taken
  | _, .stop, event => ∃ entry ∈ w.server.clients.entries,
      event = .close entry.2.socket (w.os.holder entry.2.socket)
  | _, _, _ => False

theorem World.log_sent (env : Env) (number : Fd) (message : Str) (w : World) :
    ∃ events, (w.send env number message).2.os.log = w.os.log ++ events ∧
      ∀ event ∈ events, ∃ taken, event = .send number (w.os.user number) message taken := by
  unfold World.send
  split
  · exact ⟨[], (List.append_nil _).symm, fun _ member => absurd member List.not_mem_nil⟩
  · exact ⟨_, rfl, fun event member => ⟨_, List.mem_singleton.mp member⟩⟩

theorem World.log_trans {P : Event → Prop} {u v w : World}
    (before : ∃ events, v.os.log = w.os.log ++ events ∧ ∀ event ∈ events, P event)
    (after : ∃ events, u.os.log = v.os.log ++ events ∧ ∀ event ∈ events, P event) :
    ∃ events, u.os.log = w.os.log ++ events ∧ ∀ event ∈ events, P event := by
  obtain ⟨first, grown, logged⟩ := before
  obtain ⟨rest, grownAgain, loggedAgain⟩ := after
  refine ⟨first ++ rest, ?_, fun event member => ?_⟩
  · rw [grownAgain, grown, List.append_assoc]
  · exact (List.mem_append.mp member).elim (logged event) (loggedAgain event)

theorem exec_log (env : Env) {β : Type} (action : Action β) (w : World) :
    ∃ events, (exec env action w).2.os.log = w.os.log ++ events ∧
      ∀ event ∈ events, action.Logs w event := by
  have nothing : ∀ {P : Event → Prop} {v : World}, v.os.log = w.os.log →
      ∃ events, v.os.log = w.os.log ++ events ∧ ∀ event ∈ events, P event :=
    fun same => ⟨[], same.trans (List.append_nil _).symm, fun _ member => absurd member List.not_mem_nil⟩
  cases action with
  | registerClient | unregisterClient | close =>
    exact ⟨_, rfl, fun event member => List.mem_singleton.mp member⟩
  | send number message => exact w.log_sent env number message
  | pingClients =>
    refine (World.pingClients_keeps (I := fun v => v.os.user = w.os.user ∧
      ∃ events, v.os.log = w.os.log ++ events ∧
        ∀ event ∈ events, Action.pingClients.Logs w event) ⟨rfl, nothing rfl⟩ ?_).2
    rintro entry member v ⟨same, before⟩
    refine ⟨(World.user_send env _ _ v).trans same, World.log_trans before ?_⟩
    obtain ⟨events, grown, sent⟩ := v.log_sent env entry.2.socket (str "PING\n")
    refine ⟨events, grown, fun event logged => ?_⟩
    obtain ⟨taken, rfl⟩ := sent event logged
    exact ⟨_, mem_entries_of_visit member, taken, by rw [same]⟩
  | stop =>
    refine (World.stop_keeps (I := fun v => v.os.holder = w.os.holder ∧
      ∃ events, v.os.log = w.os.log ++ events ∧ ∀ event ∈ events, Action.stop.Logs w event)
      ⟨rfl, nothing rfl⟩ ?_ fun _ kept => kept).2
    rintro entry member v ⟨same, before⟩
    refine ⟨same, World.log_trans before ⟨_, rfl, fun event logged => ?_⟩⟩
    rw [List.mem_singleton.mp logged, same]
    exact ⟨_, mem_entries_of_visit member, rfl⟩
  | banlistRemove username =>
    simp only [exec]
    split <;> exact nothing rfl
  | _ => exact nothing rfl

/-- What each action that a program can perform may log, the program may log. -/
theorem run_log {P : Event → Prop} (env : Env) {α : Type} {program : Prog Action α}
    (only : program.Only fun action => ∀ w event, action.Logs w event → P event) (w : World) :
    ∃ events, (program.run (exec env) w).2.os.log = w.os.log ++ events ∧
      ∀ event ∈ events, P event := by
  induction program generalizing w with
  | done value => exact ⟨[], (List.append_nil _).symm, fun _ member => absurd member List.not_mem_nil⟩
  | act action next ih =>
    obtain ⟨events, logged, allowed⟩ := exec_log env action w
    exact World.log_trans ⟨events, logged, fun event member => only.1 w event (allowed event member)⟩
      (ih _ (only.2 _) _)

/-- The log has grown, and the entry of the name is unchanged, gone, or logged as new. -/
structure Kept (username : Str) (w v : World) : Prop where
  log : ∃ events, v.os.log = w.os.log ++ events
  entry : (∃ conn, .register username conn ∈ w.since v) ∨
    (∀ socket, v.table.handleOf username = some socket →
      w.table.handleOf username = some socket) ∧ v.registrant username = w.registrant username

namespace Kept
variable {username : Str} {u v w : World}

theorem refl (username : Str) (w : World) : Kept username w w :=
  ⟨⟨[], (List.append_nil _).symm⟩, .inr ⟨fun _ named => named, rfl⟩⟩

theorem since_append {first second : List Event} (before : v.os.log = w.os.log ++ first)
    (after : u.os.log = v.os.log ++ second) : w.since u = first ++ second :=
  World.since_eq (by rw [after, before, List.append_assoc])

theorem trans (first : Kept username w v) (second : Kept username v u) : Kept username w u := by
  obtain ⟨before, grown⟩ := first.log
  obtain ⟨after, grownAgain⟩ := second.log
  have all := since_append grown grownAgain
  constructor
  · exact ⟨before ++ after, by rw [grownAgain, grown, List.append_assoc]⟩
  · rcases first.entry with ⟨conn, logged⟩ | ⟨entry, registrant⟩
    · left
      rw [World.since_eq grown] at logged
      exact ⟨conn, all ▸ List.mem_append_left _ logged⟩
    · rcases second.entry with ⟨conn, logged⟩ | ⟨entryAgain, registrantAgain⟩
      · left
        rw [World.since_eq grownAgain] at logged
        exact ⟨conn, all ▸ List.mem_append_right _ logged⟩
      · exact .inr ⟨fun socket named => entry socket (entryAgain socket named),
          registrantAgain.trans registrant⟩

/-- A change that logs something and leaves the entries as they are, or drops some. -/
theorem of_shrunk (log : ∃ events, v.os.log = w.os.log ++ events)
    (registrant : v.registrant = w.registrant)
    (names : ∀ socket, v.table.handleOf username = some socket →
      w.table.handleOf username = some socket) : Kept username w v :=
  ⟨log, .inr ⟨names, congrFun registrant username⟩⟩

theorem of_table {username : Str} (log : ∃ events, v.os.log = w.os.log ++ events)
    (same : v.table = w.table) : Kept username w v := by
  have registrant := congrArg Sessions.Table.registrant same
  exact .of_shrunk log registrant fun socket named => same ▸ named

end Kept

theorem exec_kept (env : Env) (username : Str) {β : Type} (action : Action β) (w : World) :
    Kept username w (exec env action w).2 := by
  have log : ∃ events, (exec env action w).2.os.log = w.os.log ++ events :=
    (exec_log env action w).imp fun _ grown => grown.1
  cases action with
  | registerClient name socket =>
    refine ⟨log, ?_⟩
    have logged : (w.registerClient env name socket).os.log =
      w.os.log ++ [.register name (w.os.holder socket)] := rfl
    by_cases same : name = username
    · subst same
      left
      exact ⟨_, World.since_eq logged ▸ List.mem_singleton_self _⟩
    · refine .inr ⟨fun number named => ?_, Function.update_of_ne (Ne.symm same) _ _⟩
      rw [exec, World.handleOf_registerClient, if_neg (Ne.symm same)] at named
      exact named
  | unregisterClient name =>
    refine .of_shrunk log rfl fun socket named => ?_
    rw [exec, World.table_unregisterClient] at named
    exact (Sessions.Table.handleOf_unregister named).2
  | close socket =>
    refine .of_shrunk log rfl fun number named => ?_
    rw [exec, World.table_close] at named
    exact named
  | stop =>
    have registrant : (w.stop env).registrant = w.registrant :=
      World.stop_keeps (I := fun v => v.registrant = w.registrant) rfl (fun _ _ _ same => same)
        fun _ same => same
    refine .of_shrunk log registrant fun socket named => ?_
    simp [exec, World.table, World.stop, World.mapServer] at named
  | _ => exact .of_table log (exec_quiet env _ w trivial)

theorem run_kept (env : Env) (username : Str) {α : Type} (program : Prog Action α) (w : World) :
    Kept username w (program.run (exec env) w).2 := by
  induction program generalizing w with
  | done value => exact .refl username w
  | act action next ih => exact (exec_kept env username action w).trans (ih _ _)

namespace System

theorem step_kept (username : Str) {s after : System} {label : Env × Operation}
    (stepped : step s label = some after) : Kept username s.world after.world := by
  obtain ⟨env, operation⟩ := label
  obtain ⟨_, stepped⟩ := step_cases stepped
  cases stepped with
  | accept => exact .of_shrunk ⟨[], (List.append_nil _).symm⟩ rfl fun _ named => named
  | receive | receiveFailure | dispatch | admin | heartbeat | checkTimeouts =>
    exact run_kept env username _ s.world

theorem history_kept (username : Str) {ok : System → Env × Operation → Prop} {s t : System}
    {labels : List (Env × Operation)} (run : Transition.Run step ok s labels t) :
    Kept username s.world t.world :=
  run.related (R := fun s t => Kept username s.world t.world) (fun s => .refl username s.world)
    .trans fun _ stepped => step_kept username stepped

end System
end SocketMessaging
