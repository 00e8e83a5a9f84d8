import SocketMessaging.Server.Registry

/-! The age of sessions. An entry of the registry keeps its number and the time
of its last PONG, except where an action registers or refreshes its name. -/
namespace SocketMessaging
open Prog

/-- The name that an action registers or refreshes, with the number stored for it then. -/
def Action.renewal (w : World) : ∀ {β : Type}, Action β → Option (Str × Fd)
  | _, .registerClient username socket => some (username, socket)
  | _, .updateClientPong username =>
    (w.server.clients.lookup username).map fun info => (username, info.socket)
  | _, _ => none

/-- The entry `info` of a name in `v` is the one that `w` had, apart from the PING flag. -/
def World.KeepsEntry (w v : World) (username : Str) (info : ClientInfo) : Prop :=
  ∃ old, w.server.clients.lookup username = some old ∧ old.socket = info.socket ∧
    old.lastPong = info.lastPong ∧ v.registrant username = w.registrant username

/-- The heartbeat only sets flags. -/
theorem pingClients_entry (env : Env) (w : World) {username : Str} {info : ClientInfo}
    (present : (w.pingClients env).server.clients.lookup username = some info) :
    w.KeepsEntry (w.pingClients env) username info := by
  refine (World.pingClients_keeps (I := fun v => v.registrant = w.registrant ∧ ∀ username info,
    v.server.clients.lookup username = some info → w.KeepsEntry v username info)
    ⟨rfl, fun username info present => ⟨info, present, rfl, rfl, rfl⟩⟩ ?_).2 username info present
  rintro entry member v ⟨registrant, kept⟩
  have sent := v.server_send env entry.2.socket (str "PING\n")
  have same : (v.pingClient env entry).registrant = w.registrant := by
    rw [← registrant]
    simp only [World.pingClient, World.mapServer, World.send]
    split <;> rfl
  refine ⟨same, fun username info present => ?_⟩
  simp only [World.pingClient, World.mapServer, sent] at present
  by_cases pinged : username = entry.1
  · subst pinged
    rw [AList.lookup_insert] at present
    obtain rfl := Option.some.inj present
    exact ⟨entry.2, (env.mem_visit _ _ _).mp member, rfl, rfl, congrFun same _⟩
  · rw [AList.lookup_insert_ne pinged] at present
    obtain ⟨old, before, socket, age, _⟩ := kept username info present
    exact ⟨old, before, socket, age, congrFun same _⟩

/-- An entry was there before, or its name has just been registered or refreshed. -/
theorem exec_entry (env : Env) {β : Type} (action : Action β) (w : World) {username : Str}
    {info : ClientInfo}
    (present : (exec env action w).2.server.clients.lookup username = some info) :
    action.renewal w = some (username, info.socket) ∧ info.lastPong = env.steadyClock ∨
      w.KeepsEntry (exec env action w).2 username info := by
  have unchanged : (exec env action w).2.server.clients = w.server.clients →
      (exec env action w).2.registrant = w.registrant →
      w.KeepsEntry (exec env action w).2 username info := by
    intro clients registrant
    exact ⟨info, clients ▸ present, rfl, rfl, congrFun registrant _⟩
  cases action with
  | registerClient name socket =>
    change (w.server.clients.insert name ⟨socket, env.steadyClock, false⟩).lookup username =
      some info at present
    by_cases same : username = name
    · subst same
      rw [AList.lookup_insert] at present
      obtain rfl := Option.some.inj present
      exact .inl ⟨rfl, rfl⟩
    · rw [AList.lookup_insert_ne same] at present
      exact .inr ⟨info, present, rfl, rfl, Function.update_of_ne same _ _⟩
  | unregisterClient name =>
    change (w.server.clients.erase name).lookup username = some info at present
    by_cases same : username = name
    · rw [same, AList.lookup_erase] at present
      cases present
    · rw [AList.lookup_erase_ne same] at present
      exact .inr ⟨info, present, rfl, rfl, rfl⟩
  | updateClientPong name =>
    simp only [exec, World.mapServer, Server.updateClientPong] at present
    split at present
    · rename_i old found
      by_cases same : username = name
      · subst same
        rw [AList.lookup_insert] at present
        obtain rfl := Option.some.inj present
        exact .inl ⟨by rw [Action.renewal, found]; rfl, rfl⟩
      · rw [AList.lookup_insert_ne same] at present
        exact .inr ⟨info, present, rfl, rfl, rfl⟩
    · exact .inr ⟨info, present, rfl, rfl, rfl⟩
  | pingClients => exact .inr (pingClients_entry env w present)
  | stop => exact absurd present (Option.some_ne_none _).symm
  | send socket message =>
    refine .inr (unchanged (congrArg Server.clients (w.server_send env socket message)) ?_)
    simp only [exec, World.send]
    split <;> rfl
  | banlistRemove name =>
    refine .inr (unchanged ?_ ?_)
    · simp only [exec]
      split <;> rfl
    · simp only [exec]
      split <;> rfl
  | _ => exact .inr (unchanged rfl rfl)

end SocketMessaging
