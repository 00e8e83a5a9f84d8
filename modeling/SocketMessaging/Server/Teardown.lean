import SocketMessaging.Library.Claims
import SocketMessaging.Server.Descriptors
import SocketMessaging.Server.Noted
import SocketMessaging.Server.Ownership

/-! How sessions are torn down by several threads. A failed receive, a DISCONNECT,
a check for timeouts and the administrator all look a session up, then unregister
its name, then close its number, each in three separate steps. -/
namespace SocketMessaging
open Prog Transition Sessions Sessions.Table CommandHandler Utils MessageParser

/-- What the program is bound to unregister and to close: it has decided on both,
or has unregistered the name already, or is refusing a client. -/
def claim : Handler → Option (Claim Str Fd)
  | .act (.close socket) _ => some (.holding socket)
  | .act (.unregisterClient username) next =>
    match claim (next ()) with
    | some (.holding socket) => some (.leaving username socket)
    | _ => none
  | .act (.send _ _) next => claim (next true)
  | _ => none

/-- How an action bears on the claim of its program. Claims come from a lookup that
has found something, or from a ban; they end with the number being closed. -/
def Action.Turns : ∀ {β : Type}, Action β → (β → Handler) → Prop
  | _, .getUserSocket username, next => ∀ socket, claim (next socket) = none ∨
      0 < socket ∧ claim (next socket) = some (.leaving username socket)
  | _, .getUsernameBySocket socket, next => ∀ username, claim (next username) = none ∨
      username ≠ [] ∧ claim (next username) = some (.leaving username socket)
  | _, .isBanned _, next => ∀ banned, claim (next banned) = none ∨
      ∃ socket, claim (next banned) = some (.holding socket)
  | _, .unregisterClient _, next => ∃ socket, claim (next ()) = some (.holding socket)
  | _, .send _ _, next => ∀ sent, claim (next sent) = claim (next true)
  | _, _, next => ∀ result, claim (next result) = none

/-- A program that has not decided anything yet. -/
structure Handler.Unclaiming (program : Handler) : Prop where
  none : claim program = none
  turns : program.Each Action.Turns

section Programs

theorem claim_of_quiet {program : Handler} (quiet : program.Only Action.Quiet) :
    claim program = none := by
  induction program with
  | done => rfl
  | act action next ih =>
    cases action with
    | close | unregisterClient => exact quiet.1.elim
    | send => exact ih true (quiet.2 true)
    | _ => rfl

theorem unclaiming_of_quiet {program : Handler} (quiet : program.Only Action.Quiet) :
    Handler.Unclaiming program := by
  refine ⟨claim_of_quiet quiet, quiet.each fun action next allowed rest => ?_⟩
  have none := fun result => claim_of_quiet (rest result)
  cases action with
  | close | unregisterClient => exact allowed.elim
  | getUserSocket | getUsernameBySocket | isBanned => exact fun result => .inl (none result)
  | send => exact fun result => (none result).trans (none true).symm
  | _ => exact none

variable {socket : Fd} {program : Handler} {next : Unit → Handler}

theorem dropName_bind (username : Str) (socket : Fd) (rest : Handler.Unclaiming (next ())) :
    claim (dropName username socket >>= next) = some (.leaving username socket) ∧
      (dropName username socket >>= next).Each Action.Turns :=
  ⟨rfl, ⟨socket, rfl⟩, fun _ => ⟨fun _ => rest.none, fun _ => rest.turns⟩⟩

theorem lookName_bind (socket : Fd) (rest : Handler.Unclaiming (next ())) :
    Handler.Unclaiming (lookName socket >>= next) := by
  have found : ∀ username : Str,
      let following := (if username = [] then .done () else dropName username socket) >>= next
      (claim following = none ∨ username ≠ [] ∧ claim following = some (.leaving username socket)) ∧
        following.Each Action.Turns := by
    intro username
    dsimp only
    split_ifs with absent
    · exact ⟨.inl rest.none, rest.turns⟩
    · obtain ⟨claims, turns⟩ := dropName_bind username socket rest
      exact ⟨.inr ⟨absent, claims⟩, turns⟩
  exact ⟨rfl, fun username => (found username).1, fun username => (found username).2⟩

theorem done_unclaiming : Handler.Unclaiming (.done ()) := ⟨rfl, trivial⟩

theorem lookName_unclaiming (socket : Fd) : Handler.Unclaiming (lookName socket) := by
  rw [← bind_done (lookName socket)]
  exact lookName_bind socket done_unclaiming

theorem handleReceiveFailure_unclaiming (socket : Fd) :
    Handler.Unclaiming (handleReceiveFailure socket) := by
  have rest : ∀ username : Str, Handler.Unclaiming
      (if username ≠ [] then handleDisconnect [] socket else .done ()) := by
    intro username
    rw [handleDisconnect_eq]
    split_ifs
    · exact lookName_unclaiming socket
    · exact done_unclaiming
  exact ⟨rfl, fun username => .inl (rest username).none, fun username => (rest username).turns⟩

theorem sendError_unclaiming (socket : Fd) (error : Str) :
    Handler.Unclaiming (sendError socket error) :=
  unclaiming_of_quiet ⟨trivial, fun _ => trivial⟩

theorem checkTaken_unclaiming (username : Str) (socket : Fd) :
    Handler.Unclaiming (checkTaken username socket) := by
  have enter : Handler.Unclaiming (enterName username socket) :=
    ⟨rfl, fun _ => rfl, fun _ => ⟨fun _ => rfl, fun _ => trivial⟩⟩
  have rest : ∀ taken : Bool, Handler.Unclaiming
      (if taken then sendError socket (str "Username already exists")
        else enterName username socket) := by
    intro taken
    split_ifs
    · exact sendError_unclaiming socket _
    · exact enter
  exact ⟨rfl, fun taken => (rest taken).none, fun taken => (rest taken).turns⟩

theorem checkBanned_unclaiming (username : Str) (socket : Fd) :
    Handler.Unclaiming (checkBanned username socket) := by
  have taken := checkTaken_unclaiming username socket
  refine ⟨rfl, fun banned => ?_, fun banned => ?_⟩
  · cases banned
    · exact .inl taken.none
    · exact .inr ⟨socket, rfl⟩
  · cases banned
    · exact taken.turns
    · exact ⟨fun _ => rfl, fun _ => ⟨fun _ => rfl, fun _ => trivial⟩⟩

theorem checkValid_unclaiming (username : Str) (socket : Fd) :
    Handler.Unclaiming (checkValid username socket) := by
  have rest : ∀ config, Handler.Unclaiming
      (if !isValidUsername config username then sendError socket (str "Invalid username")
        else checkBanned username socket) := by
    intro config
    split_ifs
    · exact sendError_unclaiming socket _
    · exact checkBanned_unclaiming username socket
  exact ⟨rfl, fun config => (rest config).none, fun config => (rest config).turns⟩

theorem handleMessage_unclaiming (raw : Str) (socket : Fd) :
    Handler.Unclaiming (handleMessage raw socket) := by
  rcases handleMessage_quiet_cases raw socket with ⟨quiet, _⟩ | ⟨username, same⟩ | same
  · exact unclaiming_of_quiet quiet
  · exact same ▸ checkValid_unclaiming username socket
  · exact same ▸ lookName_unclaiming socket

theorem disconnectTimedOut_unclaiming (names : List Str) :
    Handler.Unclaiming (disconnectTimedOut names) := by
  induction names with
  | nil => exact done_unclaiming
  | cons username names ih =>
    have rest : ∀ socket : Fd, Handler.Unclaiming
        (if 0 < socket then lookName socket >>= fun _ => disconnectTimedOut names
          else disconnectTimedOut names) := by
      intro socket
      split_ifs
      · exact lookName_bind socket ih
      · exact ih
    rw [disconnectTimedOut_cons]
    exact ⟨rfl, fun socket => .inl (rest socket).none, fun socket => (rest socket).turns⟩

theorem nth_bind (items : List Str) (index : Nat) {next : Str → Handler}
    (rest : ∀ item, Handler.Unclaiming (next item)) : Handler.Unclaiming (nth items index >>= next) := by
  unfold nth
  split
  · exact rest _
  · exact ⟨rfl, fun item => (rest item).none, fun item => (rest item).turns⟩

theorem disconnectUser_bind (username reason : Str) {next : Bool → Handler}
    (rest : ∀ found, Handler.Unclaiming (next found)) :
    Handler.Unclaiming (AdminCommandHandler.disconnectUser username reason >>= next) := by
  have found : ∀ socket : Fd,
      let following : Handler := (if socket ≤ 0 then .done false else
        .act (.send socket (build (str "ERROR") [reason])) fun _ =>
          .act (.unregisterClient username) fun _ => .act (.close socket) fun _ => .done true) >>= next
      (claim following = none ∨ 0 < socket ∧ claim following = some (.leaving username socket)) ∧
        following.Each Action.Turns := by
    intro socket
    dsimp only
    split_ifs with offline
    · exact ⟨.inl (rest false).none, (rest false).turns⟩
    · refine ⟨.inr ⟨Int.not_le.mp offline, rfl⟩, fun _ => rfl, fun _ => ⟨⟨socket, rfl⟩, fun _ => ?_⟩⟩
      exact ⟨fun _ => (rest true).none, fun _ => (rest true).turns⟩
  exact ⟨rfl, fun socket => (found socket).1, fun socket => (found socket).2⟩

theorem commandLine_unclaiming (line : Str) :
    Handler.Unclaiming (AdminCommandHandler.commandLine line) := by
  have inert : ∀ {handler : Handler}, handler.Only Action.Inert → Handler.Unclaiming handler :=
    fun only => unclaiming_of_quiet (quiet_of_inert only)
  rcases AdminCommandHandler.commandLine_cases line with nothing | ⟨cmdName, cmd, args, listed, same⟩
  · rw [nothing]
    exact done_unclaiming
  · rw [same]
    cases listed with
    | print => exact done_unclaiming
    | broadcast => exact inert (AdminCommandHandler.cmdBroadcast_inert args)
    | send => exact inert (AdminCommandHandler.cmdSend_inert args)
    | kick =>
      exact nth_bind args 1 fun username => disconnectUser_bind username _ fun _ => done_unclaiming
    | ban =>
      refine nth_bind args 1 fun username => disconnectUser_bind username _ fun found => ?_
      split_ifs
      · exact unclaiming_of_quiet ⟨trivial, fun _ => trivial⟩
      · exact done_unclaiming
    | unban => exact inert (AdminCommandHandler.cmdUnban_inert args)
    | set => exact inert (AdminCommandHandler.cmdSet_inert args)
    | reset => exact unclaiming_of_quiet ⟨trivial, fun _ => trivial⟩
    | stop => exact ⟨rfl, fun _ => rfl, fun _ => trivial⟩

theorem Task.program_unclaiming (task : Task) : Handler.Unclaiming task.program := by
  cases task with
  | dispatch => exact unclaiming_of_quiet (quiet_of_inert Dispatcher.runOnce_inert)
  | admin line => exact commandLine_unclaiming line
  | heartbeat => exact unclaiming_of_quiet ⟨trivial, fun _ => trivial⟩
  | checkTimeouts =>
    have rest := disconnectTimedOut_unclaiming
    exact ⟨rfl, fun names => (rest names).none, fun names => (rest names).turns⟩

end Programs

/-- The note of a party is the connection for which it acts: a handler loop for its
own, a task for that of the session which it has looked up last. -/
def aims : Notes (Option ConnId) where
  loop i := some i
  start _ := none
  turn _ w _ action note :=
    match action with
    | .getUserSocket username => w.registrant username
    | _ => note

def claimsOf (party : Handler × Option ConnId) : List (Claim Str Fd × Option ConnId) :=
  ((claim party.1).map fun claimed => (claimed, party.2)).toList

/-- The claim that a program gets by what it does next. -/
def started (program after : Handler) (owner : Option ConnId) :
    Option (Claim Str Fd × Option ConnId) :=
  match claim program with
  | none => (claim after).map fun claimed => (claimed, owner)
  | some _ => none

/-- The name that the program is about to register, and for which number. -/
def entering : Handler → Option (Str × Fd)
  | .act (.registerClient username socket) _ => some (username, socket)
  | _ => none

/-- Nobody else is bound to close the number, which is open for the owner of the
claim; and a client who is refused has no name. -/
structure Uncontested (w : World) (claims : List (Claim Str Fd × Option ConnId))
    (claimed : Claim Str Fd × Option ConnId) : Prop where
  fresh : ∀ other ∈ claims, other.1.handle ≠ claimed.1.handle
  used : w.os.user claimed.1.handle ≠ none
  own : w.os.user claimed.1.handle = claimed.2
  unnamed : claimed.1.name = none →
    ∀ entry ∈ w.server.clients.entries, entry.2.socket ≠ claimed.1.handle

instance (w : World) (claims : List (Claim Str Fd × Option ConnId))
    (claimed : Claim Str Fd × Option ConnId) : Decidable (Uncontested w claims claimed) :=
  decidable_of_iff ((∀ other ∈ claims, other.1.handle ≠ claimed.1.handle) ∧
      w.os.user claimed.1.handle ≠ none ∧ w.os.user claimed.1.handle = claimed.2 ∧
      (claimed.1.name = none →
        ∀ entry ∈ w.server.clients.entries, entry.2.socket ≠ claimed.1.handle))
    ⟨fun all => ⟨all.1, all.2.1, all.2.2.1, all.2.2.2⟩,
      fun holds => ⟨holds.fresh, holds.used, holds.own, holds.unnamed⟩⟩

theorem Uncontested.owner {w : World} {claims : List (Claim Str Fd × Option ConnId)}
    {claimed : Claim Str Fd × Option ConnId} (uncontested : Uncontested w claims claimed) :
    ∃ conn, claimed.2 = some conn ∧ w.os.user claimed.1.handle = some conn := by
  obtain ⟨conn, used⟩ := Option.ne_none_iff_exists'.mp uncontested.used
  exact ⟨conn, uncontested.own.symm.trans used, used⟩

/-- The number is open and has no name, and nobody is bound to close it or to
unregister this name. -/
structure Vacant (w : World) (claims : List (Claim Str Fd × Option ConnId)) (entered : Str × Fd) :
    Prop where
  used : w.os.user entered.2 ≠ none
  unnamed : ∀ entry ∈ w.server.clients.entries, entry.2.socket ≠ entered.2
  unclaimed : ∀ other ∈ claims, other.1.handle ≠ entered.2 ∧ other.1.name ≠ some entered.1

instance (w : World) (claims : List (Claim Str Fd × Option ConnId)) (entered : Str × Fd) :
    Decidable (Vacant w claims entered) :=
  decidable_of_iff (w.os.user entered.2 ≠ none ∧
      (∀ entry ∈ w.server.clients.entries, entry.2.socket ≠ entered.2) ∧
      ∀ other ∈ claims, other.1.handle ≠ entered.2 ∧ other.1.name ≠ some entered.1)
    ⟨fun all => ⟨all.1, all.2.1, all.2.2⟩,
      fun holds => ⟨holds.used, holds.unnamed, holds.unclaimed⟩⟩

theorem unnamed_of_entries {w : World} {socket : Fd}
    (unnamed : ∀ entry ∈ w.server.clients.entries, entry.2.socket ≠ socket) (username : Str) :
    w.table.handleOf username ≠ some socket := by
  intro named
  obtain ⟨info, present, same⟩ := handleOf_eq_some.mp named
  exact unnamed ⟨username, info⟩ (AList.mem_lookup_iff.mp present) same

section Performing
variable {opened : ConnId → Prop} {w : World} {env : Env} {β : Type} {action : Action β}
  {next : β → Handler} {owner after : Option ConnId} {others : List (Claim Str Fd × Option ConnId)}

/-- A lookup that has found a name and its number. -/
theorem leave_orderly {username : Str} {socket : Fd} {program : Handler}
    (orderly : Orderly opened w.table others)
    (starts : ∀ claimed ∈ started (.act action next) program after, Uncontested w others claimed)
    (idle : claim (.act action next) = none)
    (found : claim program = none ∨
      w.table.handleOf username = some socket ∧ claim program = some (.leaving username socket)) :
    Orderly opened w.table (claimsOf (program, after) ++ others) := by
  rcases found with none | ⟨named, claims⟩
  · rw [claimsOf, none]
    exact orderly
  · have begins : started (.act action next) program after =
        some (.leaving username socket, after) := by
      rw [started, idle, claims]
      rfl
    have uncontested := starts _ begins
    obtain ⟨conn, rfl, used⟩ := uncontested.owner
    rw [claimsOf, claims]
    exact orderly.leave named used uncontested.fresh

/-- One action of a program, which keeps the claims on the sessions in order. -/
theorem perform_orderly (turns : action.Turns next) (goesOn : stopping (.act action next) = false)
    (orderly : Orderly opened w.table (claimsOf (.act action next, owner) ++ others))
    (kept : claim (.act action next) ≠ none → after = owner)
    (starts : ∀ claimed ∈ started (.act action next) (next (exec env action w).1) after,
      Uncontested w others claimed)
    (registers : ∀ entered ∈ entering (.act action next), Vacant w others entered) :
    Orderly opened (exec env action w).2.table
      (claimsOf (next (exec env action w).1, after) ++ others) := by
  -- all other actions leave the table alone and come without a claim
  have quietly : action.Quiet → claim (next (exec env action w).1) = none →
      Orderly opened w.table others → Orderly opened (exec env action w).2.table
        (claimsOf (next (exec env action w).1, after) ++ others) := by
    intro quiet none orderly
    rw [exec_quiet env action w quiet, claimsOf, none]
    exact orderly
  cases action with
  | close socket =>
    have none : claim (next ()) = none := turns ()
    change Orderly opened (w.close socket).table (claimsOf (next (), after) ++ others)
    rw [World.table_close, claimsOf, none]
    exact orderly.release
  | unregisterClient username =>
    obtain ⟨socket, holds⟩ := turns
    have leaves : claim (.act (.unregisterClient username) next) = some (.leaving username socket) := by
      rw [claim, holds]
    obtain rfl := kept (by rw [leaves]; exact Option.some_ne_none _)
    rw [claimsOf, leaves] at orderly
    change Orderly opened (w.unregisterClient username).table (claimsOf (next (), after) ++ others)
    rw [World.table_unregisterClient, claimsOf, holds]
    exact orderly.unregister
  | send socket message =>
    have same : claim (next (w.send env socket message).1) = claim (.act (.send socket message) next) :=
      turns _
    change Orderly opened (w.send env socket message).2.table
      (claimsOf (next (w.send env socket message).1, after) ++ others)
    rw [World.table_send, claimsOf, same]
    cases claims : claim (.act (.send socket message) next) with
    | none =>
      rw [claimsOf, claims] at orderly
      exact orderly
    | some claimed =>
      obtain rfl := kept (by rw [claims]; exact Option.some_ne_none _)
      rw [claimsOf, claims] at orderly
      exact orderly
  | registerClient username socket =>
    have vacant := registers (username, socket) rfl
    obtain ⟨o, used⟩ := Option.ne_none_iff_exists'.mp vacant.used
    have none : claim (next ()) = none := turns ()
    change Orderly opened (w.registerClient env username socket).table
      (claimsOf (next (), after) ++ others)
    rw [World.table_registerClient, claimsOf, none]
    exact Orderly.register orderly used (unnamed_of_entries vacant.unnamed)
      (fun other member => (vacant.unclaimed other member).1)
      fun other member => (vacant.unclaimed other member).2
  | getUserSocket username =>
    let socket := w.server.getUserSocket username
    have looked : claim (next socket) = none ∨ w.table.handleOf username = some socket ∧
        claim (next socket) = some (.leaving username socket) :=
      (turns socket).imp_right fun found => ⟨handleOf_of_getUserSocket found.1, found.2⟩
    exact leave_orderly orderly starts rfl looked
  | getUsernameBySocket socket =>
    let username := w.server.getUsernameBySocket env socket
    have looked : claim (next username) = none ∨ w.table.handleOf username = some socket ∧
        claim (next username) = some (.leaving username socket) := by
      refine (turns username).imp_right fun found => ⟨?_, found.2⟩
      rcases getUsernameBySocket_cases env socket w with named | ⟨empty, _⟩
      · exact named
      · exact absurd empty found.1
    exact leave_orderly orderly starts rfl looked
  | isBanned username =>
    rcases turns (w.server.isBanned username) with none | ⟨socket, holds⟩
    · exact quietly trivial none orderly
    · change Orderly opened w.table (claimsOf (next (w.server.isBanned username), after) ++ others)
      have uncontested := starts (.holding socket, after)
        (show started _ (next (w.server.isBanned username)) after = _ by rw [started, holds]; rfl)
      obtain ⟨conn, rfl, used⟩ := uncontested.owner
      rw [claimsOf, holds]
      exact Orderly.refuse orderly used (unnamed_of_entries (uncontested.unnamed rfl))
        uncontested.fresh
  | stop => cases goesOn
  | _ => exact quietly trivial (turns _) orderly

end Performing

namespace Noted
variable {s after : Noted (Option ConnId)}

/-- All claims on the sessions, each with the connection for which its party acts. -/
def claims (s : Noted (Option ConnId)) : List (Claim Str Fd × Option ConnId) :=
  (s.parties aims).flatMap claimsOf

/-- The claim that a move makes. -/
def starting (s : Noted (Option ConnId)) (label : Env × Move) :
    Option (Claim Str Fd × Option ConnId) :=
  match label.2 with
  | .advance i =>
    match s.workers[i]? with
    | some ⟨_, .running _ (.act action next)⟩ =>
      started (.act action next) (next (exec label.1 action s.world).1) (aims.loop i)
    | _ => none
  | .advanceTask k =>
    match s.tasks[k]? with
    | some (.act action next, note) =>
      started (.act action next) (next (exec label.1 action s.world).1)
        (aims.turn label.1 s.world action note)
    | _ => none
  | _ => none

/-- Whoever decides to tear a session down does so for a number that is still in the
hands of that session's connection and that nobody else is bound to close; and a
name is registered for a number that is open and has none, while nobody is bound
to close the number or to unregister the name. -/
structure Unrivaled (s : Noted (Option ConnId)) (label : Env × Move) : Prop where
  starts : ∀ claimed ∈ s.starting label, Uncontested s.world s.claims claimed
  registers : ∀ entered ∈ entering (s.threads.advanced label.2), Vacant s.world s.claims entered

instance (s : Noted (Option ConnId)) (label : Env × Move) : Decidable (s.Unrivaled label) :=
  decidable_of_iff ((∀ claimed ∈ s.starting label, Uncontested s.world s.claims claimed) ∧
      ∀ entered ∈ entering (s.threads.advanced label.2), Vacant s.world s.claims entered)
    ⟨fun both => ⟨both.1, both.2⟩, fun holds => ⟨holds.starts, holds.registers⟩⟩

/-- What teardowns do to sessions. The number of each connection is closed once in
all. Whoever is about to close a number closes that of the connection for which it
acts, which has lost its name; whoever is about to unregister a name unregisters
that of this connection, if it still has one, and is bound to close the number then. -/
structure TornDownOnce (s : Noted (Option ConnId)) : Prop where
  unclosed : ∀ {socket : Fd} {conn : ConnId}, s.world.os.user socket = some conn →
    s.world.os.log.countP (Event.closes conn) = 0
  closed : ∀ {conn : ConnId}, conn < s.workers.length →
    (∀ socket, s.world.os.user socket ≠ some conn) →
    s.world.os.log.countP (Event.closes conn) = 1
  closes : ∀ {program : Handler} {owner : Option ConnId} {socket : Fd},
    s.world.server.status = .running → (program, owner) ∈ s.parties aims →
    closing program = some socket → (∃ conn, owner = some conn ∧
      s.world.os.user socket = some conn) ∧ ∀ username, s.world.table.handleOf username ≠ some socket
  unregisters : ∀ {program : Handler} {owner : Option ConnId} {username : Str} {info : ClientInfo},
    s.world.server.status = .running → (program, owner) ∈ s.parties aims →
    unregistering program = some username →
    s.world.server.clients.lookup username = some info →
    s.world.registrant username = owner ∧ s.world.os.user info.socket = owner ∧
      claim program = some (.leaving username info.socket)

/-- Every program treats its claim as it should, and until the server is stopped
the claims on the sessions are in order. -/
structure Settled (s : Noted (Option ConnId)) : Prop where
  turning : ∀ {program : Handler} {owner : Option ConnId}, (program, owner) ∈ s.parties aims →
    program.Each Action.Turns
  orderly : ∃ claims, Orderly (fun conn => conn < s.workers.length) s.world.table claims ∧
    (s.world.server.status = .running → claims = s.claims)

theorem claims_perm {party : Handler × Option ConnId} {others : List (Handler × Option ConnId)}
    (parties : (s.parties aims).Perm (party :: others)) :
    s.claims.Perm (claimsOf party ++ others.flatMap claimsOf) :=
  parties.flatMap_right claimsOf

theorem claim_mem {program : Handler} {owner : Option ConnId} {claimed : Claim Str Fd}
    (member : (program, owner) ∈ s.parties aims) (claims : claim program = some claimed) :
    (claimed, owner) ∈ s.claims := by
  refine List.mem_flatMap.mpr ⟨(program, owner), member, ?_⟩
  rw [claimsOf, claims]
  exact List.mem_singleton_self _

theorem Settled.tornDownOnce (settled : s.Settled) : s.TornDownOnce := by
  obtain ⟨turning, claims, orderly, same⟩ := settled
  refine ⟨orderly.accounted.using_none, orderly.accounted.gone, ?_, ?_⟩
  · intro program owner socket running member closes
    obtain rfl := same running
    have holds : claim program = some (.holding socket) := by
      cases program with
      | done => cases closes
      | act action next =>
        cases action with
        | close number =>
          obtain rfl := Option.some.inj closes
          rfl
        | _ => cases closes
    exact orderly.releases (claim_mem member holds)
  · intro program owner username info running member unregisters present
    obtain rfl := same running
    obtain ⟨socket, leaves⟩ : ∃ socket, claim program = some (.leaving username socket) := by
      have turns := turning member
      cases program with
      | done => cases unregisters
      | act action next =>
        cases action with
        | unregisterClient name =>
          obtain rfl := Option.some.inj unregisters
          obtain ⟨socket, holds⟩ := turns.1
          exact ⟨socket, by rw [claim, holds]⟩
        | _ => cases unregisters
    obtain ⟨rfl, registered, used⟩ := orderly.unregisters (claim_mem member leaves)
      (handleOf_eq_some.mpr ⟨info, present, rfl⟩)
    exact ⟨registered, used, leaves⟩

/-- The world and the claims stay as they are. -/
theorem Settled.keep (settled : s.Settled) (world : after.world = s.world)
    (length : after.workers.length = s.workers.length) (claims : s.claims.Perm after.claims)
    (turning : ∀ {program : Handler} {owner : Option ConnId}, (program, owner) ∈ after.parties aims →
      (program, owner) ∈ s.parties aims ∨ program.Each Action.Turns) : after.Settled where
  turning := by
    intro program owner member
    rcases turning member with old | turns
    · exact settled.turning old
    · exact turns
  orderly := by
    obtain ⟨listed, orderly, same⟩ := settled.orderly
    rw [world, length]
    by_cases running : s.world.server.status = .running
    · obtain rfl := same running
      exact ⟨after.claims, orderly.perm claims, fun _ => rfl⟩
    · exact ⟨listed, orderly, fun now => absurd now running⟩

/-- A loop that was idle begins an iteration. -/
theorem Settled.begin (settled : s.Settled) (world : after.world = s.world)
    (length : after.workers.length = s.workers.length) {program : Handler} {owner : Option ConnId}
    {others : List (Handler × Option ConnId)} (unclaiming : Handler.Unclaiming program)
    (before : (s.parties aims).Perm ((.done (), owner) :: others))
    (parties : (after.parties aims).Perm ((program, owner) :: others)) : after.Settled := by
  have none : claimsOf (program, owner) = [] := by
    rw [claimsOf, unclaiming.none]
    rfl
  have same := claims_perm parties
  rw [none] at same
  refine settled.keep world length ((claims_perm before).trans same.symm) fun member => ?_
  rcases List.mem_cons.mp (parties.mem_iff.mp member) with new | old
  · cases new
    exact .inr unclaiming.turns
  · exact .inl (before.mem_iff.mpr (List.mem_cons_of_mem _ old))

/-- A party performs one action of its program. -/
theorem Settled.act (settled : s.Settled) {env : Env} (running : s.world.server.status = .running)
    {β : Type} {action : Action β} {next : β → Handler} {owner now : Option ConnId}
    {others : List (Handler × Option ConnId)} (length : after.workers.length = s.workers.length)
    (world : after.world = (exec env action s.world).2)
    (before : (s.parties aims).Perm ((.act action next, owner) :: others))
    (parties : (after.parties aims).Perm ((next (exec env action s.world).1, now) :: others))
    (kept : claim (.act action next) ≠ none → now = owner)
    (starts : ∀ claimed ∈ started (.act action next) (next (exec env action s.world).1) now,
      Uncontested s.world s.claims claimed)
    (registers : ∀ entered ∈ entering (.act action next), Vacant s.world s.claims entered) :
    after.Settled where
  turning := by
    intro program note member
    rcases List.mem_cons.mp (parties.mem_iff.mp member) with new | old
    · cases new
      exact (settled.turning (before.mem_iff.mpr List.mem_cons_self)).2 _
    · exact settled.turning (before.mem_iff.mpr (List.mem_cons_of_mem _ old))
  orderly := by
    obtain ⟨listed, orderly, same⟩ := settled.orderly
    obtain rfl := same running
    have beside : ∀ claimed ∈ others.flatMap claimsOf, claimed ∈ s.claims := fun claimed member =>
      (claims_perm before).mem_iff.mpr (List.mem_append_right _ member)
    rw [world, length]
    by_cases goesOn : stopping (.act action next) = false
    · refine ⟨_, (perform_orderly (settled.turning (before.mem_iff.mpr List.mem_cons_self)).1 goesOn
        (orderly.perm (claims_perm before)) kept ?_ ?_).perm (claims_perm parties).symm, fun _ => rfl⟩
      · intro claimed begins
        obtain ⟨fresh, used, own, unnamed⟩ := starts claimed begins
        exact ⟨fun other member => fresh other (beside other member), used, own, unnamed⟩
      · intro entered enters
        obtain ⟨used, unnamed, unclaimed⟩ := registers entered enters
        exact ⟨used, unnamed, fun other member => unclaimed other (beside other member)⟩
    · -- the process ends here, and with it all that was going on
      cases action with
      | stop => exact ⟨[], orderly.abandon (stop_safe env s.world), fun runs => by cases runs⟩
      | _ => exact absurd rfl goesOn

theorem step_settled {label : Env × Move} (settled : s.Settled) (unrivaled : s.Unrivaled label)
    (stepped : step aims s label = some after) : after.Settled := by
  obtain ⟨env, move⟩ := label
  obtain ⟨running, turned⟩ := step_turned stepped
  have length := workers_length stepped
  cases turned with
  | @accept socket _ _ free world workers parties =>
    constructor
    · intro program owner member
      rcases List.mem_cons.mp (parties.mem_iff.mp member) with new | old
      · cases new
        trivial
      · exact settled.turning old
    · obtain ⟨listed, orderly, same⟩ := settled.orderly
      obtain rfl := same running
      have acquired := orderly.acquire free (Nat.lt_irrefl s.workers.length)
      refine ⟨after.claims, ?_, fun _ => rfl⟩
      rw [world, workers, List.length_append, List.length_singleton]
      simp only [Nat.lt_succ_iff_lt_or_eq]
      exact acquired.perm (claims_perm parties).symm
  | @receive i socket raw _ others _ world before parties =>
    refine settled.begin world (length fun _ other => ?_) (handleMessage_unclaiming raw socket)
      before parties
    cases other
  | @receiveFailure i socket _ others _ world before parties =>
    refine settled.begin world (length fun _ other => ?_) (handleReceiveFailure_unclaiming socket)
      before parties
    cases other
  | @start task _ world parties =>
    have unclaiming := task.program_unclaiming
    have same := claims_perm parties
    rw [claimsOf, unclaiming.none] at same
    refine settled.keep world (length fun _ other => ?_) same.symm fun member => ?_
    · cases other
    · rcases List.mem_cons.mp (parties.mem_iff.mp member) with new | old
      · cases new
        exact .inr unclaiming.turns
      · exact .inl old
  | @perform i _ _ β action next _ others present world before parties =>
    have advances := Threads.advanced_of_worker (s := s.threads) present
    refine settled.act running (length fun _ other => ?_) world before parties (fun _ => rfl)
      (fun claimed begins => unrivaled.starts claimed ?_)
      fun entered enters => unrivaled.registers entered (advances ▸ enters)
    · cases other
    · simp only [starting, present]
      exact begins
  | @performTask k β action next note _ others present world before parties =>
    have advances := advanced_of_task present
    refine settled.act running (length fun _ other => ?_) world before parties (fun claims => ?_)
      (fun claimed begins => unrivaled.starts claimed ?_)
      fun entered enters => unrivaled.registers entered (advances ▸ enters)
    · cases other
    · cases action with
      | getUserSocket => exact absurd rfl claims
      | _ => rfl
    · simp only [starting, present]
      exact begins
  | finish world parties =>
    refine settled.keep world (length fun _ other => ?_) (parties.flatMap_right claimsOf) fun member => ?_
    · cases other
    · exact .inl (parties.mem_iff.mpr member)
  | finishTask world parties =>
    refine settled.keep world (length fun _ other => ?_) (claims_perm parties) fun member => ?_
    · cases other
    · exact .inl (parties.mem_iff.mpr (List.mem_cons_of_mem _ member))

theorem initial_settled (banlist : Option Str) : (initial (Option ConnId) banlist).Settled where
  turning := fun member => absurd member List.not_mem_nil
  orderly := by
    refine ⟨[], ⟨System.initial_exclusive banlist, System.initial_accounted banlist,
      fun member => ?_, fun member => ?_, fun member => ?_, List.nodup_nil⟩, fun _ => rfl⟩
    · exact absurd member List.not_mem_nil
    · exact absurd member List.not_mem_nil
    · exact absurd member List.not_mem_nil

/-- Under this condition sessions are torn down once, whatever else goes on. -/
theorem torn_down_once {banlist : Option Str} {labels : List (Env × Move)}
    (run : Run (step aims) Unrivaled (initial _ banlist) labels s) : s.TornDownOnce := by
  have settled := run.invariant (P := Settled) step_settled (initial_settled banlist)
  exact settled.tornDownOnce

/-- The administrator kicks ann, whose number is about to be closed. -/
theorem torn_down_once_of_kick : ∃ (labels : List (Env × Move)) (s : Noted (Option ConnId))
    (program : Handler), Run (step aims) Unrivaled (initial _ none) labels s ∧
    s.tasks[0]? = some (program, some 0) ∧ closing program = some 5 ∧ s.TornDownOnce := by
  let labels := Threads.plainMoves (Threads.annConnects ++ [.start (.admin (str "/kick ann")),
    .advanceTask 0, .receiveFailure 0, .advanceTask 0, .advanceTask 0, .advance 0])
  obtain ⟨s, ran, about⟩ := evaluated
    (o := execute (guarded (fun s label => decide (Unrivaled s label)) (step aims)) (initial _ none) labels)
    (P := fun s => (s.tasks[0]?.any fun task => closing task.1 = some 5 ∧ task.2 = some 0) = true)
    (by decide)
  have run := run_of_guarded (fun _ _ => of_decide_eq_true) labels ran
  obtain ⟨⟨program, note⟩, present, checked⟩ := (Option.any_eq_true _ _).mp about
  obtain ⟨closes, same⟩ := of_decide_eq_true checked
  dsimp only at same
  subst same
  exact ⟨labels, s, program, run, present, closes, torn_down_once run⟩

/-- ann's loop has found her by her number when the administrator kicks her. It goes
on to close the number, which is the next client's by then. -/
theorem sessions_not_always_torn_down_once : ¬ ∀ (banlist : Option Str) (labels : List (Env × Move))
    (s : Noted (Option ConnId)), Run (step aims) Free (initial _ banlist) labels s →
    s.TornDownOnce := by
  intro claimed
  let labels := Threads.plainMoves (Threads.annConnects ++ [.receiveFailure 0, .advance 0, .advance 0,
    .start (.admin (str "/kick ann"))] ++ List.replicate 5 (.advanceTask 0) ++ [.accept 5, .advance 0])
  obtain ⟨s, ran, running, taken, about⟩ := evaluated (o := execute (step aims) (initial _ none) labels)
    (P := fun s => s.world.server.status = .running ∧ s.world.os.user 5 = some 1 ∧
      (s.workers[0]?.any fun worker => closing worker.rest = some 5) = true) (by decide)
  obtain ⟨worker, present, closes⟩ := (Option.any_eq_true _ _).mp about
  obtain ⟨⟨conn, own, used⟩, _⟩ := (claimed none labels s (execute_run labels ran)).closes running
    (loop_mem_parties present) (of_decide_eq_true closes)
  rw [taken, ← own] at used
  exact absurd used (by decide)

end Noted
end SocketMessaging
