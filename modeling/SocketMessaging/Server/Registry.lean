import SocketMessaging.Library.Sessions
import SocketMessaging.Server.System

/-! The client registry and the descriptor table together are a table of named
sessions over recycled handles. Each action of the server is one operation on
that table or leaves it alone; most leave it alone. -/
namespace SocketMessaging
open Prog

/-- Calls of `close` on the number of this connection, from the moment it was
accepted until the number was given to another one. -/
def Event.closes (conn : ConnId) : Event → Bool
  | .close _ (some holder) => holder == conn
  | _ => false

namespace World

/-- The sessions of a world: usernames over descriptors, owned by connections. -/
def table (w : World) : Sessions.Table Str Fd ConnId where
  handleOf username := (w.server.clients.lookup username).map ClientInfo.socket
  registrant := w.registrant
  user := w.os.user
  holder := w.os.holder
  released conn := w.os.log.countP (Event.closes conn)

theorem table_record {w : World} {event : Event} (silent : ∀ conn, event.closes conn = false) :
    (w.record event).table = w.table := by
  simp only [table, record, List.countP_append, List.countP_singleton, silent,
    Bool.false_eq_true, if_false, Nat.add_zero]

@[simp] theorem table_send (env : Env) (socket : Fd) (message : Str) (w : World) :
    (w.send env socket message).2.table = w.table := by
  unfold send
  split
  · rfl
  · exact table_record fun _ => rfl

@[simp] theorem table_close (socket : Fd) (w : World) :
    (w.close socket).table = w.table.release socket := by
  simp only [table, close, record, Sessions.Table.release, List.countP_append,
    List.countP_singleton]
  congr 1
  funext conn
  cases holds : w.os.holder socket with
  | none => simp [Event.closes]
  | some owner =>
    by_cases same : conn = owner
    · simp [Event.closes, same]
    · simp [Event.closes, same, Ne.symm same]

@[simp] theorem table_registerClient (env : Env) (username : Str) (socket : Fd) (w : World) :
    (w.registerClient env username socket).table = w.table.register username socket := by
  have entries : ∀ other, ((w.server.clients.insert username
      ⟨socket, env.steadyClock, false⟩).lookup other).map ClientInfo.socket =
      Function.update (fun name => (w.server.clients.lookup name).map ClientInfo.socket)
        username (some socket) other := by
    intro other
    by_cases same : other = username
    · rw [same, AList.lookup_insert, Function.update_self, Option.map_some]
    · rw [AList.lookup_insert_ne same, Function.update_of_ne same]
  simp only [table, registerClient, mapServer, Server.registerClient, record,
    Sessions.Table.register, entries, List.countP_append, List.countP_singleton, Event.closes,
    Bool.false_eq_true, if_false, Nat.add_zero]

@[simp] theorem table_unregisterClient (username : Str) (w : World) :
    (w.unregisterClient username).table = w.table.unregister username := by
  have entries : ∀ other, ((w.server.clients.erase username).lookup other).map ClientInfo.socket =
      Function.update (fun name => (w.server.clients.lookup name).map ClientInfo.socket)
        username none other := by
    intro other
    by_cases same : other = username
    · rw [same, AList.lookup_erase, Function.update_self, Option.map_none]
    · rw [AList.lookup_erase_ne same, Function.update_of_ne same]
  simp only [table, unregisterClient, mapServer, Server.unregisterClient, record,
    Sessions.Table.unregister, entries, List.countP_append, List.countP_singleton, Event.closes,
    Bool.false_eq_true, if_false, Nat.add_zero]

theorem handleOf_registerClient (env : Env) (username : Str) (socket : Fd) (w : World) (name : Str) :
    (w.registerClient env username socket).table.handleOf name =
      if name = username then some socket else w.table.handleOf name := by
  rw [table_registerClient]
  exact Function.update_apply ..

theorem handleOf_unregisterClient (username : Str) (w : World) (name : Str) :
    (w.unregisterClient username).table.handleOf name =
      if name = username then none else w.table.handleOf name := by
  rw [table_unregisterClient]
  exact Function.update_apply ..

/-- Rewriting the members of an entry other than its socket is invisible. -/
theorem table_refresh {w : World} {username : Str} {info : ClientInfo} (next : ClientInfo)
    (present : w.server.clients.lookup username = some info) (same : next.socket = info.socket) :
    (w.mapServer fun server => { server with
      clients := server.clients.insert username next }).table = w.table := by
  have entries : ∀ other, ((w.server.clients.insert username next).lookup other).map
      ClientInfo.socket = (w.server.clients.lookup other).map ClientInfo.socket := by
    intro other
    by_cases equal : other = username
    · rw [equal, AList.lookup_insert, present, Option.map_some, Option.map_some, same]
    · rw [AList.lookup_insert_ne equal]
  simp only [table, mapServer, entries]

theorem server_send (env : Env) (socket : Fd) (message : Str) (w : World) :
    (w.send env socket message).2.server = w.server := by
  unfold send
  split <;> rfl

theorem table_pingClient {env : Env} {entry : Str × ClientInfo} {w : World} {info : ClientInfo}
    (present : w.server.clients.lookup entry.1 = some info) (same : entry.2.socket = info.socket) :
    (w.pingClient env entry).table = w.table := by
  refine (table_refresh { entry.2 with waitingForPong := true } ?_ same).trans (table_send env _ _ w)
  rw [server_send]
  exact present

/-- What each round of the heartbeat keeps, the heartbeat keeps. -/
theorem pingClients_keeps {I : World → Prop} {env : Env} {w : World} (start : I w)
    (ping : ∀ entry ∈ env.visit w.server.clients, ∀ v, I v → I (v.pingClient env entry)) :
    I (w.pingClients env) :=
  List.foldlRecOn _ _ start fun v holds entry member => ping entry member v holds

/-- What each close keeps and the end of the server keeps, `stop` keeps. -/
theorem stop_keeps {I : World → Prop} {env : Env} {w : World} (start : I w)
    (close : ∀ entry ∈ env.visit w.server.clients, ∀ v, I v → I (v.close entry.2.socket))
    (ended : ∀ v, I v → I (v.mapServer fun server =>
      { server with clients := ∅, status := .off })) : I (w.stop env) :=
  ended _ (List.foldlRecOn _ _ start fun v holds entry member => close entry member v holds)

theorem table_pingClients (env : Env) (w : World) : (w.pingClients env).table = w.table := by
  refine pingClients_keeps (I := fun v => v.table = w.table) rfl fun entry member v same => ?_
  have found := (env.mem_visit w.server.clients entry.1 entry.2).mp member
  have present : v.table.handleOf entry.1 = some entry.2.socket := by
    rw [same]
    simp only [table, found, Option.map_some]
  obtain ⟨info, stored, socket⟩ := Option.map_eq_some_iff.mp present
  exact (table_pingClient stored socket.symm).trans same

end World

/-- Actions that neither register, unregister nor close. -/
def Action.Quiet : ∀ {β : Type}, Action β → Prop
  | _, .registerClient _ _ => False
  | _, .unregisterClient _ => False
  | _, .close _ => False
  | _, .stop => False
  | _, _ => True

/-- Actions that touch neither the sessions nor the queue's contents, except to take from it. -/
def Action.Inert : ∀ {β : Type}, Action β → Prop
  | _, .registerClient _ _ => False
  | _, .unregisterClient _ => False
  | _, .close _ => False
  | _, .stop => False
  | _, .queueMessage _ => False
  | _, _ => True

theorem Action.Inert.quiet {β : Type} (action : Action β) (inert : action.Inert) :
    action.Quiet := by
  cases action with
  | registerClient | unregisterClient | close | stop => exact inert
  | _ => trivial

theorem exec_quiet (env : Env) {β : Type} (action : Action β) (w : World) (quiet : action.Quiet) :
    (exec env action w).2.table = w.table := by
  cases action with
  | registerClient | unregisterClient | close | stop => exact quiet.elim
  | pingClients => exact w.table_pingClients env
  | send socket message => exact w.table_send env socket message
  | updateClientPong username =>
    simp only [exec, World.mapServer, Server.updateClientPong]
    cases present : w.server.clients.lookup username with
    | none => rfl
    | some info => exact World.table_refresh _ present rfl
  | banlistRemove username =>
    simp only [exec]
    split <;> rfl
  | _ => rfl

/-- A handler of quiet actions leaves the sessions alone. -/
theorem run_quiet (env : Env) {α : Type} {program : Prog Action α} (only : program.Only Action.Quiet)
    (w : World) : (program.run (exec env) w).2.table = w.table :=
  only.keeps (I := fun v => v.table = w.table)
    (fun action v quiet same => (exec_quiet env action v quiet).trans same) rfl

theorem quiet_of_inert {α : Type} {program : Prog Action α} (only : program.Only Action.Inert) :
    program.Only Action.Quiet :=
  only.weaken fun _ inert => inert.quiet

theorem run_inert (env : Env) {α : Type} {program : Prog Action α} (only : program.Only Action.Inert)
    (w : World) : (program.run (exec env) w).2.table = w.table :=
  run_quiet env (quiet_of_inert only) w

end SocketMessaging
