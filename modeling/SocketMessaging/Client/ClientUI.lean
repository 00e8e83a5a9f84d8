import SocketMessaging.Client.MessageHandler
import SocketMessaging.Server.Names

/-! The list of users as the client displays it. The server joins the names with
commas and the client splits them again, which is harmless because no valid name
is empty or contains a comma. -/
namespace SocketMessaging
open Prog Transition Utils MessageParser NetworkStream CommandHandler

namespace ClientUI

/-- The names that `printUserList` prints; colors and the mark of the user's own
name are left out. -/
def printUserList (userListData : Str) : List Str := split userListData (str ",")

end ClientUI

/-- The reply to LIST_USERS. -/
def usersReply (clients : List (Str × Fd)) : Str := build (str "USERS") [joinUsers clients]

/-- Joining is undone by splitting unless there is nothing to join. -/
theorem splitOn_joinUsers {clients : List (Str × Fd)} (some_ : clients ≠ [])
    (free : ∀ entry ∈ clients, (44 : UInt8) ∉ entry.1) :
    (joinUsers clients).splitOn 44 = clients.map Prod.fst := by
  let lines := (clients.map Prod.fst).flatMap fun name => name ++ [44]
  have whole : (clients.flatMap fun entry => entry.1 ++ str ",") = lines := by
    simp only [lines, List.flatMap_map]
    rfl
  have pieces : lines.splitOn 44 = clients.map Prod.fst ++ [[]] := by
    apply Delimited.splitOn_lines
    intro name listed
    obtain ⟨entry, member, rfl⟩ := List.mem_map.mp listed
    exact free entry member
  have last : lines.getLast? = some 44 := by
    obtain ⟨front, entry, rfl⟩ := List.eq_nil_or_concat clients |>.resolve_left some_
    simp [lines]
  have cut : lines = lines.dropLast ++ [44] := (List.dropLast_append_getLast? 44 last).symm
  have joined : joinUsers clients = lines.dropLast := by
    unfold joinUsers
    rw [whole]
    exact if_pos last
  rw [cut, List.splitOn_append_cons_self, List.splitOn_nil] at pieces
  exact joined ▸ List.append_cancel_right pieces

/-- The names printed are the ones joined. -/
theorem printUserList_joinUsers {clients : List (Str × Fd)}
    (valid : ∀ entry ∈ clients, Username entry.1) :
    ClientUI.printUserList (joinUsers clients) = clients.map Prod.fst := by
  cases clients with
  | nil => rfl
  | cons entry clients =>
    have pieces := splitOn_joinUsers (List.cons_ne_nil entry clients) fun entry member =>
      (valid entry member).text.free (by decide) (by decide)
    have nonempty : joinUsers (entry :: clients) ≠ [] := by
      intro empty
      rw [empty, List.splitOn_nil, List.map_cons] at pieces
      exact (valid entry List.mem_cons_self).ne_nil (List.cons.inj pieces).1.symm
    rw [ClientUI.printUserList, show str "," = [44] from rfl, split_singleton nonempty, pieces]

theorem mem_joinUsers {clients : List (Str × Fd)} {c : UInt8} (member : c ∈ joinUsers clients) :
    c = 44 ∨ ∃ entry ∈ clients, c ∈ entry.1 := by
  have listed : c ∈ clients.flatMap fun entry => entry.1 ++ str "," := by
    unfold joinUsers at member
    dsimp only at member
    split at member
    · exact List.dropLast_subset _ member
    · exact member
  obtain ⟨entry, present, inside⟩ := List.mem_flatMap.mp listed
  rcases List.mem_append.mp inside with name | comma
  · exact .inr ⟨entry, present, name⟩
  · exact .inl (List.mem_singleton.mp comma)

/-- The client reads the joined names as they were sent. -/
theorem listenOnce_usersReply {clients : List (Str × Fd)}
    (valid : ∀ entry ∈ clients, Username entry.1) (admissible : Admissible (usersReply clients))
    (handler : MessageHandler) (now : Int) (rest : Str) :
    handler.listenOnce now (encodeMessage (usersReply clients) ++ rest) =
      some ⟨handler, rest, some { type := .users, data := joinUsers clients }, none⟩ := by
  have free : ∀ field ∈ [str "USERS", joinUsers clients], (59 : UInt8) ∉ field := by
    intro field member
    rcases List.mem_cons.mp member with rfl | listed
    · decide
    · intro delimiter
      rw [List.mem_singleton.mp listed] at delimiter
      rcases mem_joinUsers delimiter with comma | ⟨entry, present, inside⟩
      · exact absurd comma (by decide)
      · exact (valid entry present).text.no_delimiter inside
  have parsed : parse (usersReply clients) = ⟨str "USERS", [joinUsers clients], true⟩ :=
    parse_build_free (.inl (List.cons_ne_nil _ _)) free
  have event : MessageHandler.parseMessage (usersReply clients) =
      some { type := .users, data := joinUsers clients } := by
    rw [MessageHandler.parseMessage, parsed]
    rfl
  have decoded : decodeMessage (encodeMessage (usersReply clients) ++ rest) =
      some (usersReply clients, rest) := by
    rw [decode_encode admissible.representable, if_pos admissible]
  simp only [MessageHandler.listenOnce, decoded, event]

theorem handleMessage_listUsers {raw : Str} (valid : (parse raw).isValid = true)
    (command : (parse raw).command = str "LIST_USERS") (socket : Fd) :
    handleMessage raw socket = .act .getAllClients fun clients =>
      .act (.send socket (usersReply clients)) fun _ => .done () := by
  have found : commands.lookup (str "LIST_USERS") = some handleListUsers := rfl
  simp only [handleMessage, valid, if_true, executeCommand, command, found]
  rfl

/-- A walk of the copied map meets every registered name once. -/
theorem getAllClients_names (env : Env) (server : Server) :
    ((server.getAllClients env).map Prod.fst).Perm server.clients.keys := by
  have order := env.walk_perm ((env.visit server.clients).map Prod.fst)
  have names := env.visit_names server.clients
  have inside : ∀ name ∈ env.walk ((env.visit server.clients).map Prod.fst),
      name ∈ server.clients.keys := fun name member => names.mem_iff.mp (order.mem_iff.mp member)
  have copied := lookup_names server.clients ClientInfo.socket inside
  exact copied ▸ order.trans names

namespace Threads

/-- The reply to a LIST_USERS frame in whatever state the server has reached: if
it is short enough to be received, the client prints the registered names. -/
theorem userList_roundTrip {banlist : Option Str} {moves : List (Env × Move)} {s : Threads}
    (reached : Run step Free (initial banlist) moves s) (env : Env) {raw : Str} {socket : Fd}
    (connected : 0 ≤ socket) (valid : (parse raw).isValid = true)
    (command : (parse raw).command = str "LIST_USERS") :
    ∃ reply taken, s.world.since ((handleMessage raw socket).run (exec env) s.world).2 =
        [.send socket (s.world.os.user socket) reply taken] ∧
      (Admissible reply → ∀ (handler : MessageHandler) (now : Int) (rest : Str), ∃ data,
        handler.listenOnce now (encodeMessage reply ++ rest) =
          some ⟨handler, rest, some { type := .users, data }, none⟩ ∧
        (ClientUI.printUserList data).Perm s.world.server.clients.keys ∧
        (ClientUI.printUserList data).Nodup ∧ [] ∉ ClientUI.printUserList data) := by
  have named : s.Named Username AnyTask :=
    reached.invariant (fun held _ stepped => step_valid held stepped)
      (initial_named Username AnyTask banlist)
  let clients := s.world.server.getAllClients env
  have names : ∀ entry ∈ clients, Username entry.1 :=
    exec_yields named.world env .getAllClients
  have logged := World.since_eq (s.world.log_reply connected env (usersReply clients))
  refine ⟨usersReply clients, s.world.transferred env socket (usersReply clients), ?_, fun admissible handler now rest => ?_⟩
  · rw [handleMessage_listUsers valid command, run_getAllClients]
    exact logged
  · refine ⟨_, listenOnce_usersReply names admissible handler now rest, ?_⟩
    have printed := printUserList_joinUsers names
    have order := getAllClients_names env s.world.server
    rw [printed]
    refine ⟨order, order.nodup_iff.mpr s.world.server.clients.nodupKeys, fun empty => ?_⟩
    obtain ⟨entry, member, same⟩ := List.mem_map.mp empty
    exact (names entry member).ne_nil same

/-- ann is registered, another connection is not, and both are there to ask. -/
theorem userList_roundTrip_of_ann : ∃ s : Threads, s.world.server.clients.keys = [str "ann"] ∧
    ∃ reply taken, s.world.since
        ((handleMessage (str "LIST_USERS\n") 6).run (exec .plain) s.world).2 =
        [.send 6 (some 1) reply taken] ∧ Admissible reply := by
  let moves := plainMoves (annConnects ++ [.accept 6])
  obtain ⟨s, ran, names, used, fits⟩ := evaluated (o := execute step (initial none) moves)
    (P := fun s => s.world.server.clients.keys = [str "ann"] ∧ s.world.os.user 6 = some 1 ∧
      s.world.since ((handleMessage (str "LIST_USERS\n") 6).run (exec .plain) s.world).2 =
        [.send 6 (some 1) (str "USERS;ann\n") (some 14)]) (by decide)
  obtain ⟨reply, taken, logged, _⟩ := userList_roundTrip (execute_run moves ran) .plain
    (by decide : (0 : Fd) ≤ 6) (by decide : (parse (str "LIST_USERS\n")).isValid = true)
    (by decide)
  rw [used] at logged
  have same := logged.symm.trans fits
  simp only [List.cons.injEq, Event.send.injEq, true_and, and_true] at same
  exact ⟨s, names, reply, taken, logged, same.1 ▸ by decide⟩

end Threads
end SocketMessaging
