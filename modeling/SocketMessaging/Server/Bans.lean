import SocketMessaging.Server.Footprints
import SocketMessaging.Server.Ownership
import SocketMessaging.Server.Queueing

/-! Bans over whole runs of the server, in which the process may be restarted at
any point and then reads the banlist file again. A name that is banned is in the
file and not registered, and it stays banned until it is unbanned. -/
namespace SocketMessaging
open Prog Transition Utils MessageParser

/-- Actions that leave the ban set and its file alone. -/
def Action.SparesBans : ∀ {β : Type}, Action β → Prop
  | _, .banlistAdd _ => False
  | _, .banlistRemove _ => False
  | _, _ => True

namespace World

/-- The ban set and the file that a restart reads. -/
def bans (w : World) : StrMap Unit × Option Str := (w.server.bannedUsers, w.os.banlist)

@[simp] theorem bans_send (env : Env) (socket : Fd) (message : Str) (w : World) :
    (w.send env socket message).2.bans = w.bans := by
  unfold send
  split <;> rfl

end World

theorem exec_sparesBans (env : Env) {β : Type} {action : Action β} (spares : action.SparesBans)
    (w : World) : (exec env action w).2.bans = w.bans := by
  cases action with
  | banlistAdd | banlistRemove => exact spares.elim
  | send socket message => exact w.bans_send env socket message
  | pingClients =>
    exact World.pingClients_keeps (I := fun v => v.bans = w.bans) rfl
      fun entry _ v same => (v.bans_send env entry.2.socket _).trans same
  | stop =>
    exact World.stop_keeps (I := fun v => v.bans = w.bans) rfl (fun _ _ _ same => same)
      fun _ same => same
  | updateClientPong username =>
    simp only [exec, World.bans, World.mapServer, Server.updateClientPong]
    split <;> rfl
  | _ => rfl

theorem run_sparesBans (env : Env) {α : Type} {program : Prog Action α}
    (only : program.Only Action.SparesBans) (w : World) :
    (program.run (exec env) w).2.bans = w.bans :=
  only.keeps (I := fun v => v.bans = w.bans)
    (fun _ v spares same => (exec_sparesBans env spares v).trans same) rfl

theorem Action.OfLoop.sparesBans {socket : Fd} {β : Type} {action : Action β}
    (ofLoop : action.OfLoop socket) : action.SparesBans := by
  cases action with
  | banlistAdd | banlistRemove => exact ofLoop.elim
  | _ => trivial

namespace CommandHandler

theorem handleMessage_sparesBans (raw : Str) (socket : Fd) :
    (handleMessage raw socket).Only Action.SparesBans :=
  (handleMessage_ofLoop raw socket).weaken fun _ => Action.OfLoop.sparesBans

theorem handleDisconnect_sparesBans (parsedData : List Str) (socket : Fd) :
    (handleDisconnect parsedData socket).Only Action.SparesBans :=
  (handleDisconnect_ofLoop parsedData socket).weaken fun _ => Action.OfLoop.sparesBans

theorem handleReceiveFailure_sparesBans (socket : Fd) :
    (handleReceiveFailure socket).Only Action.SparesBans :=
  (handleReceiveFailure_ofLoop socket).weaken fun _ => Action.OfLoop.sparesBans

end CommandHandler

theorem runOnce_sparesBans : Dispatcher.runOnce.Only Action.SparesBans := by
  refine ⟨trivial, fun next => ?_⟩
  cases next with
  | none => trivial
  | some message =>
    change (Dispatcher.deliver message).Only Action.SparesBans
    simp only [Dispatcher.deliver, perform_bind, pure_eq, only_act, only_ite, only_done,
      only_perform, Action.SparesBans, implies_true, and_self]

theorem heartbeat_sparesBans : (Task.program .heartbeat).Only Action.SparesBans :=
  ⟨trivial, fun _ => trivial⟩

theorem checkClientTimeouts_sparesBans : checkClientTimeouts.Only Action.SparesBans :=
  ⟨trivial, disconnectTimedOut_only (fun _ => trivial) (CommandHandler.handleDisconnect_sparesBans [])⟩

namespace AdminCommandHandler

/-- The user whom a console line names, if it is this command. -/
def named (cmdName line : Str) : Option Str :=
  match words line with
  | first :: username :: _ => if first = cmdName then some username else none
  | _ => none

theorem disconnectUser_sparesBans (username reason : Str) :
    (disconnectUser username reason).Only Action.SparesBans := by
  simp only [disconnectUser, perform_bind, pure_eq, only_act, only_ite, only_done,
    Action.SparesBans, implies_true, and_self]

/-- What `/ban` does once its argument has been read. -/
def banUser (username : Str) : Handler := do
  if ← disconnectUser username (str "You have been banned by admin") then
    perform (.banlistAdd username)

def unbanUser (username : Str) : Handler := do
  let _ ← perform (.banlistRemove username)

theorem named_of_words {line cmdName : Str} {args : List Str} (read : words line = cmdName :: args)
    (enough : 1 ≤ args.length) : ∃ username rest, args = username :: rest ∧
      named cmdName line = some username := by
  obtain ⟨username, rest, rfl⟩ := List.exists_cons_of_length_pos enough
  exact ⟨username, rest, rfl, by simp only [named, read, if_true]⟩

theorem commandLine_named {cmdName line username : Str} (names : named cmdName line = some username)
    {cmd : AdminCommand} (found : commands.lookup cmdName = some cmd) (one : cmd.minArgs ≤ 1) :
    ∃ rest, commandLine line = cmd.handler (cmdName :: username :: rest) := by
  unfold named words at names
  split at names
  case h_2 => cases names
  case h_1 first other rest read =>
    obtain ⟨rfl, same⟩ := Option.ite_none_right_eq_some.mp names
    cases same
    split at read
    case h_2 => cases read
    case h_1 text =>
      have enough : ¬ (username :: rest).length < cmd.minArgs := by
        rw [List.length_cons]
        omega
      refine ⟨rest, ?_⟩
      simp only [commandLine, ne_eq, not_true_eq_false, if_false, read, found, enough]

theorem named_other {first second line username : Str} (names : named first line = some username)
    (apart : first ≠ second) : named second line = none := by
  unfold named at names ⊢
  generalize words line = read at names
  rcases read with _ | ⟨cmdName, _ | ⟨argument, rest⟩⟩
  · rfl
  · rfl
  · obtain ⟨rfl, _⟩ := Option.ite_none_right_eq_some.mp names
    exact if_neg apart

/-- Only `/ban` and `/unban` touch the bans. -/
theorem commandLine_bans (line : Str) : (commandLine line).Only Action.SparesBans ∨
    (∃ username, named (str "ban") line = some username ∧ commandLine line = banUser username) ∨
    ∃ username, named (str "unban") line = some username ∧ commandLine line = unbanUser username := by
  rcases commandLine_words line with nothing | ⟨cmdName, cmd, args, listed, read, enough, same⟩
  · rw [nothing]
    exact .inl trivial
  · rw [same]
    have name : ∀ items index, (nth items index).Only Action.SparesBans := nth_only trivial
    cases listed with
    | print => exact .inl trivial
    | broadcast => exact .inl ⟨trivial, sendToAll_only fun _ => trivial⟩
    | send =>
      refine .inl ((name _ 1).bind fun username => ?_)
      simp only [perform_bind, pure_eq, only_act, only_ite, only_done, Action.SparesBans,
        implies_true, and_self]
    | kick =>
      exact .inl ((name _ 1).bind fun _ => (disconnectUser_sparesBans _ _).bind fun _ => trivial)
    | ban =>
      obtain ⟨username, rest, rfl, names⟩ := named_of_words read enough
      exact .inr (.inl ⟨username, names, rfl⟩)
    | unban =>
      obtain ⟨username, rest, rfl, names⟩ := named_of_words read enough
      exact .inr (.inr ⟨username, names, rfl⟩)
    | set => exact .inl ((name _ 1).bind fun _ => (name _ 2).bind fun _ => ⟨trivial, fun _ => trivial⟩)
    | reset | stop => exact .inl ⟨trivial, fun _ => trivial⟩

end AdminCommandHandler

namespace Server

theorem lookup_insertAll (lines : List Str) (banned : StrMap Unit) (username : Str) :
    ((lines.foldl (fun banned line => banned.insert line ()) banned).lookup username).isSome = true ↔
      (banned.lookup username).isSome = true ∨ username ∈ lines := by
  induction lines generalizing banned with
  | nil => simp
  | cons line lines ih =>
    rw [List.foldl_cons, ih, List.mem_cons]
    by_cases same : username = line
    · rw [same, AList.lookup_insert]
      simp
    · simp [AList.lookup_insert_ne same, same]

/-- A restart bans the non-empty lines of the file. -/
theorem loadBanlist_iff (file : Option Str) (username : Str) :
    ((loadBanlist file ∅).lookup username).isSome = true ↔
      username ≠ [] ∧ ∃ content, file = some content ∧ username ∈ content.splitOn 10 := by
  unfold loadBanlist
  cases file with
  | none => simp
  | some content =>
    rw [lookup_insertAll]
    simp [and_comm]

theorem line_of_loadBanlist {file : Option Str} {username : Str}
    (listed : ((loadBanlist file ∅).lookup username).isSome = true) :
    username ≠ [] ∧ 10 ∉ username := by
  obtain ⟨nonempty, content, _, member⟩ := (loadBanlist_iff file username).mp listed
  exact ⟨nonempty, Delimited.free_of_splitOn content username member⟩

/-- A banned name that can stand on a line is in the file that is saved. -/
theorem loadBanlist_saveBanlist (env : Env) {banned : StrMap Unit} {username : Str}
    (present : (banned.lookup username).isSome = true) (line : username ≠ [] ∧ 10 ∉ username) :
    ((loadBanlist (some (saveBanlist env banned)) ∅).lookup username).isSome = true := by
  obtain ⟨value, found⟩ := Option.isSome_iff_exists.mp present
  have listed := List.mem_map_of_mem (f := Prod.fst) ((env.mem_visit banned username value).mpr found)
  have saved : saveBanlist env banned =
      ((env.visit banned).map Prod.fst).flatMap fun line => line ++ [10] := by
    rw [saveBanlist, List.flatMap_map]
  rw [loadBanlist_iff]
  exact ⟨line.1, _, rfl, saved ▸ Delimited.mem_splitOn_lines listed line.2⟩

end Server

/-- Every banned name is in the file and is not registered. -/
structure World.BansKept (w : World) : Prop where
  saved : ∀ {username : Str}, w.server.isBanned username = true →
    ((Server.loadBanlist w.os.banlist ∅).lookup username).isSome = true
  absent : ∀ {username : Str}, w.server.isBanned username = true →
    w.table.handleOf username = none

section Keeping
variable {w v : World} {username : Str} {env : Env}

theorem isBanned_of_bans (same : v.bans = w.bans) (username : Str) :
    v.server.isBanned username = w.server.isBanned username :=
  congrArg (fun bans : StrMap Unit × Option Str => (bans.1.lookup username).isSome) same

/-- The bans stay and no name is registered that was banned. -/
theorem World.BansKept.keep (kept : w.BansKept) (same : v.bans = w.bans)
    (names : ∀ {username : Str} {socket : Fd}, v.table.handleOf username = some socket →
      w.table.handleOf username = some socket ∨ w.server.isBanned username = false) :
    v.BansKept where
  saved := by
    intro username banned
    have file : v.os.banlist = w.os.banlist := congrArg Prod.snd same
    rw [file]
    exact kept.saved (isBanned_of_bans same username ▸ banned)
  absent := by
    intro username banned
    rw [isBanned_of_bans same username] at banned
    by_contra present
    obtain ⟨socket, named⟩ := Option.ne_none_iff_exists'.mp present
    rcases names named with old | free
    · exact Option.some_ne_none _ (old.symm.trans (kept.absent banned))
    · exact Bool.false_ne_true (free.symm.trans banned)

/-- A program that neither registers nor bans anybody. -/
theorem World.BansKept.run (kept : w.BansKept) {α : Type} {program : Prog Action α}
    (spares : program.Only Action.SparesBans) (unconfirming : program.Only Action.Unconfirming) :
    (program.run (exec env) w).2.BansKept := by
  refine kept.keep (run_sparesBans env spares w) fun named => .inl ?_
  exact (run_releases env unconfirming w).handle named

theorem World.BansKept.handleMessage (kept : w.BansKept) (raw : Str) (socket : Fd) :
    ((CommandHandler.handleMessage raw socket).run (exec env) w).2.BansKept := by
  have effect := CommandHandler.handleMessage_effect env w raw socket
  apply kept.keep (run_sparesBans env (CommandHandler.handleMessage_sparesBans raw socket) w)
  intro username number named
  generalize ((CommandHandler.handleMessage raw socket).run (exec env) w).2.table = after
    at effect named
  cases effect with
  | quiet | banned => exact .inl named
  | @registered name _ _ free _ =>
    by_cases same : username = name
    · exact .inr (same ▸ free)
    · exact .inl ((Function.update_of_ne same _ _).symm.trans named)
  | loggedOut => exact .inl (Sessions.Table.handleOf_unregister named).2

/-- Rewriting the file keeps the names that can stand on a line. -/
theorem World.BansKept.writeBanlist {banned : StrMap Unit}
    (line : ∀ {username : Str}, (banned.lookup username).isSome = true →
      username ≠ [] ∧ 10 ∉ username)
    (absent : ∀ {username : Str}, (banned.lookup username).isSome = true →
      w.table.handleOf username = none) : (w.writeBanlist env banned).BansKept where
  saved := fun present => Server.loadBanlist_saveBanlist env present (line present)
  absent := fun present => absent present

/-- A valid name can stand on a line of its own. -/
theorem Username.line (valid : Username username) : username ≠ [] ∧ 10 ∉ username := by
  refine ⟨valid.ne_nil, fun member => ?_⟩
  rcases valid.text.2 10 member with alnum | underscore
  · exact absurd alnum (by decide)
  · exact absurd underscore (by decide)

namespace AdminCommandHandler

/-- `/ban` does nothing for a user who is not found online. -/
theorem banUser_run (env : Env) (username : Str) (w : World) :
    ((banUser username).run (exec env) w).2 =
      if w.server.getUserSocket username ≤ 0 then w
      else
        let v := ((disconnectUser username (str "You have been banned by admin")).run (exec env) w).2
        v.writeBanlist env (v.server.bannedUsers.insert username ()) := by
  simp only [banUser, run_bind, disconnectUser_run, run_ite]
  by_cases offline : w.server.getUserSocket username ≤ 0
  · simp only [offline, if_true, Bool.false_eq_true, if_false, pure_eq, run_done]
  · simp only [offline, if_false, if_true, run_perform]
    rfl

theorem unbanUser_run (env : Env) (username : Str) (w : World) :
    ((unbanUser username).run (exec env) w).2 =
      if w.server.isBanned username then
        w.writeBanlist env (w.server.bannedUsers.erase username)
      else w := by
  change (exec env (.banlistRemove username) w).2 = _
  simp only [exec]
  split <;> rfl

/-- A user who was disconnected is not registered. -/
theorem disconnectUser_gone (env : Env) {username : Str} (reason : Str) {w : World}
    (online : ¬ w.server.getUserSocket username ≤ 0) :
    ((disconnectUser username reason).run (exec env) w).2.table.handleOf username = none := by
  rw [disconnectUser_run]
  simp only [online, if_false, World.table_close]
  exact (World.handleOf_unregisterClient username _ username).trans (if_pos rfl)

end AdminCommandHandler

theorem World.BansKept.banUser (kept : w.BansKept) (sound : w.Sound) (username : Str) :
    ((AdminCommandHandler.banUser username).run (exec env) w).2.BansKept := by
  let reason := str "You have been banned by admin"
  have disconnected :
      ((AdminCommandHandler.disconnectUser username reason).run (exec env) w).2.BansKept :=
    kept.run (AdminCommandHandler.disconnectUser_sparesBans username reason)
      (AdminCommandHandler.disconnectUser_unconfirming username reason)
  rw [AdminCommandHandler.banUser_run]
  split_ifs with offline
  · exact kept
  · have named := handleOf_of_getUserSocket (Int.not_le.mp offline)
    refine World.BansKept.writeBanlist (fun {name} present => ?_) fun {name} present => ?_
    · by_cases same : name = username
      · exact same ▸ (sound.names named).1.line
      · rw [AList.lookup_insert_ne same] at present
        exact Server.line_of_loadBanlist (disconnected.saved present)
    · by_cases same : name = username
      · rw [same]
        exact AdminCommandHandler.disconnectUser_gone env _ offline
      · rw [AList.lookup_insert_ne same] at present
        exact disconnected.absent present

theorem World.BansKept.unbanUser (kept : w.BansKept) (username : Str) :
    ((AdminCommandHandler.unbanUser username).run (exec env) w).2.BansKept := by
  rw [AdminCommandHandler.unbanUser_run]
  split
  · have remaining : ∀ {name : Str},
        ((w.server.bannedUsers.erase username).lookup name).isSome = true →
        w.server.isBanned name = true := by
      intro name present
      by_cases same : name = username
      · rw [same, AList.lookup_erase] at present
        cases present
      · rwa [AList.lookup_erase_ne same] at present
    exact World.BansKept.writeBanlist
      (fun present => Server.line_of_loadBanlist (kept.saved (remaining present)))
      fun present => kept.absent (remaining present)
  · exact kept

end Keeping

namespace System

/-- An operation of the server, or the end of the process and its next start. -/
inductive Occurrence where
  | operation (operation : Operation)
  | restart

/-- The server over its restarts. A new process has no connections and no clients,
and its ban set is read from the file. -/
def stepOrRestart (s : System) (label : Env × Occurrence) : Option System :=
  match label.2 with
  | .operation operation => step s (label.1, operation)
  | .restart => some (initial s.world.os.banlist)

/-- The administrator does not unban this user. -/
def Unlifted (username : Str) (_ : System) (label : Env × Occurrence) : Prop :=
  ∀ line, label.2 = .operation (.admin line) →
    AdminCommandHandler.named (str "unban") line ≠ some username

theorem initial_bansKept (banlist : Option Str) : (initial banlist).world.BansKept where
  saved := fun banned => banned
  absent := fun _ => rfl

theorem step_bansKept {s after : System} {label : Env × Operation} (sound : s.Sound)
    (kept : s.world.BansKept) (stepped : step s label = some after) : after.world.BansKept := by
  obtain ⟨env, operation⟩ := label
  obtain ⟨_, stepped⟩ := step_cases stepped
  cases stepped with
  | accept => exact kept.keep rfl fun named => .inl named
  | receive => exact kept.handleMessage _ _
  | receiveFailure =>
    exact kept.run (CommandHandler.handleReceiveFailure_sparesBans _)
      (CommandHandler.handleReceiveFailure_unconfirming _)
  | dispatch => exact kept.run runOnce_sparesBans runOnce_unconfirming
  | @admin line =>
    rcases AdminCommandHandler.commandLine_bans line with spares | ⟨username, _, same⟩ |
      ⟨username, _, same⟩
    · exact kept.run spares (AdminCommandHandler.commandLine_unconfirming line)
    · change ((AdminCommandHandler.commandLine line).run (exec env) s.world).2.BansKept
      rw [same]
      exact kept.banUser sound.world username
    · change ((AdminCommandHandler.commandLine line).run (exec env) s.world).2.BansKept
      rw [same]
      exact kept.unbanUser username
  | heartbeat => exact kept.run heartbeat_sparesBans (Task.program_unconfirming .heartbeat)
  | checkTimeouts =>
    exact kept.run checkClientTimeouts_sparesBans (Task.program_unconfirming .checkTimeouts)

theorem isSome_insert {map : StrMap Unit} {username other : Str}
    (present : (map.lookup username).isSome = true) :
    ((map.insert other ()).lookup username).isSome = true := by
  by_cases same : username = other
  · rw [same, AList.lookup_insert]
    rfl
  · rw [AList.lookup_insert_ne same]
    exact present

theorem banned_of_writeBanlist {env : Env} {w : World} {banned : StrMap Unit} {username : Str}
    (present : (banned.lookup username).isSome = true) :
    (w.writeBanlist env banned).server.isBanned username = true := present

/-- A ban outlives every operation but the `/unban` of its user. -/
theorem step_banned {s after : System} {env : Env} {operation : Operation} {username : Str}
    (banned : s.world.server.isBanned username = true)
    (unlifted : Unlifted username s (env, .operation operation))
    (stepped : step s (env, operation) = some after) :
    after.world.server.isBanned username = true := by
  have spared : ∀ {α : Type} {program : Prog Action α}, program.Only Action.SparesBans →
      (program.run (exec env) s.world).2.server.isBanned username = true := by
    intro α program spares
    rw [isBanned_of_bans (run_sparesBans env spares s.world)]
    exact banned
  obtain ⟨_, stepped⟩ := step_cases stepped
  cases stepped with
  | accept => exact banned
  | receive => exact spared (CommandHandler.handleMessage_sparesBans _ _)
  | receiveFailure => exact spared (CommandHandler.handleReceiveFailure_sparesBans _)
  | dispatch => exact spared runOnce_sparesBans
  | @admin line =>
    rcases AdminCommandHandler.commandLine_bans line with spares | ⟨other, _, same⟩ |
      ⟨other, names, same⟩
    · exact spared spares
    · have kept := spared (AdminCommandHandler.disconnectUser_sparesBans other
        (str "You have been banned by admin"))
      change ((AdminCommandHandler.commandLine line).run (exec env) s.world).2.server.isBanned
        username = true
      rw [same, AdminCommandHandler.banUser_run]
      split
      · exact banned
      · exact banned_of_writeBanlist (isSome_insert kept)
    · have apart : username ≠ other := fun same => unlifted line rfl (same ▸ names)
      change ((AdminCommandHandler.commandLine line).run (exec env) s.world).2.server.isBanned
        username = true
      rw [same, AdminCommandHandler.unbanUser_run]
      split
      · apply banned_of_writeBanlist
        rw [AList.lookup_erase_ne apart]
        exact banned
      · exact banned
  | heartbeat => exact spared heartbeat_sparesBans
  | checkTimeouts => exact spared checkClientTimeouts_sparesBans

/-- A CONNECT on this socket was answered with an error and registered nobody under this name. -/
structure Refused (before after : World) (socket : Fd) (username : Str) : Prop where
  unregistered : after.server.isUsernameTaken username = false
  answered : ∃ text, before.Answered after socket (build (str "ERROR") [text])

theorem refused_of_banned {s after : System} {env : Env} {i : ConnId} {raw : Str} {socket : Fd}
    {username : Str} (sound : s.Sound) (kept : s.world.BansKept)
    (banned : s.world.server.isBanned username = true)
    (asks : CommandHandler.connectName raw = some username) (live : s.liveLoop i = some socket)
    (stepped : step s (env, .receive i raw) = some after) :
    Refused s.world after.world socket username := by
  have unlifted : Unlifted username s (env, .operation (.receive i raw)) := by
    intro line admin
    cases admin
  have absent := (step_bansKept sound kept stepped).absent (step_banned banned unlifted stepped)
  obtain ⟨_, stepped⟩ := step_cases stepped
  cases stepped with
  | receive reads =>
    obtain rfl := Option.some.inj (live.symm.trans reads)
    refine ⟨by rw [isUsernameTaken_eq, absent]; rfl, ?_⟩
    have connected := sound.nonneg live
    obtain ⟨command, name, rest, rfl, handled⟩ := CommandHandler.handleMessage_connect asks
    change ∃ text, s.world.Answered ((CommandHandler.handleMessage raw socket).run (exec env)
      s.world).2 socket _
    rw [handled, CommandHandler.handleConnect_run]
    dsimp only
    rw [if_pos banned]
    have logged := fun text => s.world.log_reply connected env (build (str "ERROR") [text])
    split_ifs
    · refine ⟨str "Invalid username", ?_⟩
      exact (World.answered_reply connected rfl _ _).mpr rfl
    · let text := str "You are banned from this server"
      have closed : ((s.world.reply env socket (build (str "ERROR") [text])).close socket).os.log =
          s.world.os.log ++ ([.send socket (s.world.os.user socket) (build (str "ERROR") [text])
            (s.world.transferred env socket (build (str "ERROR") [text]))] ++
            [.close socket ((s.world.reply env socket (build (str "ERROR") [text])).os.holder
              socket)]) := by
        rw [← List.append_assoc, ← logged]
        rfl
      refine ⟨text, s.world.os.user socket,
        s.world.transferred env socket (build (str "ERROR") [text]), ?_⟩
      rw [World.since_eq closed]
      exact List.mem_append_left _ (List.mem_singleton_self _)

theorem stepOrRestart_bansKept {s after : System} {label : Env × Occurrence}
    (held : s.Sound ∧ s.world.BansKept) (stepped : stepOrRestart s label = some after) :
    after.Sound ∧ after.world.BansKept := by
  obtain ⟨env, occurrence⟩ := label
  cases occurrence with
  | operation operation =>
    have stepped : step s (env, operation) = some after := stepped
    exact ⟨step_sound held.1 stepped, step_bansKept held.1 held.2 stepped⟩
  | restart =>
    cases stepped
    exact ⟨initial_sound _, initial_bansKept _⟩

/-- A restart finds the ban in the file. -/
theorem stepOrRestart_banned {s after : System} {label : Env × Occurrence} {username : Str}
    (kept : s.world.BansKept) (banned : s.world.server.isBanned username = true)
    (unlifted : Unlifted username s label) (stepped : stepOrRestart s label = some after) :
    after.world.server.isBanned username = true := by
  obtain ⟨env, occurrence⟩ := label
  cases occurrence with
  | operation operation => exact step_banned banned unlifted stepped
  | restart =>
    cases stepped
    exact kept.saved banned

theorem history_bansKept {banlist : Option Str} {labels : List (Env × Occurrence)} {s : System}
    {ok : System → Env × Occurrence → Prop}
    (run : Run stepOrRestart ok (initial banlist) labels s) : s.Sound ∧ s.world.BansKept := by
  exact run.invariant (P := fun s => s.Sound ∧ s.world.BansKept)
    (fun held _ stepped => stepOrRestart_bansKept held stepped)
    ⟨initial_sound banlist, initial_bansKept banlist⟩

/-- From a `/ban` of a user who is online, or banned already, to the next
`/unban`, over any restarts: the user is not registered and cannot log in. -/
theorem ban_in_force {banlist : Option Str} {before labels : List (Env × Occurrence)}
    {s banned after : System} {env : Env} {line username : Str}
    (history : Run stepOrRestart Free (initial banlist) before s)
    (asks : AdminCommandHandler.named (str "ban") line = some username)
    (online : 0 < s.world.server.getUserSocket username ∨
      s.world.server.isBanned username = true)
    (executed : step s (env, .admin line) = some banned)
    (run : Run stepOrRestart (Unlifted username) banned labels after) :
    after.world.server.isUsernameTaken username = false ∧
      ∀ env i raw socket final, CommandHandler.connectName raw = some username →
        after.liveLoop i = some socket → step after (env, .receive i raw) = some final →
        Refused after.world final.world socket username := by
  obtain ⟨sound, kept⟩ := history_bansKept history
  have begun : banned.world.server.isBanned username = true := by
    have found : AdminCommandHandler.commands.lookup (str "ban") =
        some ⟨AdminCommandHandler.cmdBan, 1⟩ := rfl
    obtain ⟨rest, same⟩ := AdminCommandHandler.commandLine_named asks found (Nat.le_refl 1)
    have handler : AdminCommandHandler.commandLine line =
      AdminCommandHandler.banUser username := same
    rcases online with online | already
    · obtain ⟨_, stepped⟩ := step_cases executed
      cases stepped
      change ((AdminCommandHandler.commandLine line).run (exec env) s.world).2.server.isBanned _ = _
      rw [handler, AdminCommandHandler.banUser_run, if_neg (Int.not_le.mpr online)]
      apply banned_of_writeBanlist
      rw [AList.lookup_insert]
      rfl
    · refine step_banned already (fun other admin names => ?_) executed
      cases admin
      have apart : str "ban" ≠ str "unban" := by decide
      exact Option.some_ne_none _ (names.symm.trans (AdminCommandHandler.named_other asks apart))
  have started : banned.Sound ∧ banned.world.BansKept :=
    ⟨step_sound sound executed, step_bansKept sound kept executed⟩
  obtain ⟨⟨sound, kept⟩, still⟩ := run.invariant
    (P := fun s => (s.Sound ∧ s.world.BansKept) ∧ s.world.server.isBanned username = true)
    (fun held unlifted stepped => ⟨stepOrRestart_bansKept held.1 stepped,
      stepOrRestart_banned held.1.2 held.2 unlifted stepped⟩) ⟨started, begun⟩
  constructor
  · rw [isUsernameTaken_eq, kept.absent still]
    rfl
  · exact fun env i raw socket final asks live stepped =>
      refused_of_banned sound kept still asks live stepped

/-- Operations and restarts, each under `Env.plain`. -/
def plainOccurrences (occurrences : List Occurrence) : List (Env × Occurrence) :=
  occurrences.map fun occurrence => (.plain, occurrence)

/-- Whether a step does not unban this user. -/
def unliftedCheck (username : Str) (_ : System) (label : Env × Occurrence) : Bool :=
  match label.2 with
  | .operation (.admin line) => AdminCommandHandler.named (str "unban") line != some username
  | _ => true

theorem unlifted_of_check (username : Str) (s : System) (label : Env × Occurrence)
    (passed : unliftedCheck username s label = true) : Unlifted username s label := by
  intro line admin
  rw [unliftedCheck, admin] at passed
  simpa using passed

/-- ann is banned while online, the server restarts, and she is refused. -/
theorem ban_in_force_of_ann : ∃ s banned after final : System,
    0 < s.world.server.getUserSocket (str "ann") ∧
    step s (.plain, .admin (str "/ban ann")) = some banned ∧
    step after (.plain, .receive 0 (str "CONNECT;ann")) = some final ∧
    Refused after.world final.world 5 (str "ann") := by
  let before := plainOccurrences
    [.operation (.accept 5), .operation (.receive 0 (str "CONNECT;ann"))]
  let later := plainOccurrences [.restart, .operation (.accept 5)]
  obtain ⟨s, ran, online, more⟩ : ∃ s, Transition.execute stepOrRestart (initial none) before = some s ∧
      0 < s.world.server.getUserSocket (str "ann") ∧
      ((step s (.plain, .admin (str "/ban ann"))).any fun banned =>
        (Transition.execute (guarded (unliftedCheck (str "ann")) stepOrRestart) banned later).any
          fun after => after.liveLoop 0 = some 5 &&
          (step after (.plain, .receive 0 (str "CONNECT;ann"))).isSome) = true :=
    Transition.evaluated (by decide)
  obtain ⟨banned, executed, more⟩ := (Option.any_eq_true _ _).mp more
  obtain ⟨after, ranLater, more⟩ := (Option.any_eq_true _ _).mp more
  simp only [Bool.and_eq_true, decide_eq_true_eq] at more
  obtain ⟨live, answered⟩ := more
  obtain ⟨final, stepped⟩ := Option.isSome_iff_exists.mp answered
  have asks : AdminCommandHandler.named (str "ban") (str "/ban ann") = some (str "ann") := by
    decide
  have connects : CommandHandler.connectName (str "CONNECT;ann") = some (str "ann") := by
    decide
  have inForce := ban_in_force (execute_run _ ran) asks (.inl online) executed
    (run_of_guarded (unlifted_of_check _) _ ranLater)
  exact ⟨s, banned, after, final, online, executed, stepped,
    inForce.2 .plain 0 _ 5 final connects live stepped⟩

/-- `/ban` of a user who is not online bans nobody. -/
theorem ban_not_always_in_force : ¬ ∀ (banlist : Option Str) (before labels : List (Env × Occurrence))
    (s banned after : System) (env : Env) (line username : Str),
    Run stepOrRestart Free (initial banlist) before s →
    isValidUsername s.world.runtimeConfig username = true →
    AdminCommandHandler.named (str "ban") line = some username →
    step s (env, .admin line) = some banned →
    Run stepOrRestart (Unlifted username) banned labels after →
    after.world.server.isUsernameTaken username = false := by
  intro claimed
  let later := plainOccurrences
    [.operation (.accept 5), .operation (.receive 0 (str "CONNECT;bob"))]
  obtain ⟨banned, executed, more⟩ : ∃ banned,
      step (initial none) (.plain, .admin (str "/ban bob")) = some banned ∧
      ((Transition.execute (guarded (unliftedCheck (str "bob")) stepOrRestart) banned later).any
        fun after => after.world.server.isUsernameTaken (str "bob")) = true :=
    Transition.evaluated (by decide)
  obtain ⟨after, ran, taken⟩ := (Option.any_eq_true _ _).mp more
  have free := claimed none [] later (initial none) banned after .plain (str "/ban bob") (str "bob")
    (.refl _) (by decide) (by decide) executed
    (run_of_guarded (unlifted_of_check _) _ ran)
  exact Bool.false_ne_true (free.symm.trans taken)

end System
end SocketMessaging
