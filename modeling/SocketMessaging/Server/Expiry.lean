import SocketMessaging.Server.Noted
import SocketMessaging.Server.Renewals
import SocketMessaging.Server.Settings

/-! Whom a check for timeouts removes. It decides in one scan and acts on names
and numbers later, so it is right only about sessions that nobody has replaced or
refreshed in between. -/
namespace SocketMessaging
open Prog Transition CommandHandler

/-- A session that a scan has found late: its name, its entry and the connection
that registered it. -/
structure Collected where
  username : Str
  info : ClientInfo
  session : Option ConnId

structure Scan where
  clock : Int
  late : List Collected

/-- What `getTimedOutClients` sees, with more than the names it returns. -/
def World.scan (env : Env) (w : World) : Scan where
  clock := env.steadyClock
  late := ((env.visit w.server.clients).filter fun entry =>
    Constants.heartbeatTimeoutS < entry.2.silence env).map fun entry =>
      ⟨entry.1, entry.2, w.registrant entry.1⟩

theorem World.scan_names (env : Env) (w : World) :
    (w.scan env).late.map Collected.username = w.server.getTimedOutClients env := by
  simp only [scan, Server.getTimedOutClients, List.map_map]
  rfl

/-- How far a check for timeouts has come. -/
inductive Check where
  | waiting
  | scanned (scan : Scan)

def Check.turn (env : Env) (w : World) {β : Type} (action : Action β) : Check → Check
  | .waiting =>
    match action with
    | .getTimedOutClients => .scanned (w.scan env)
    | _ => .waiting
  | .scanned scan => .scanned scan

/-- Checks for timeouts have a note of their own; nothing else has one. -/
def checks : Notes (Option Check) where
  loop _ := none
  start task :=
    match task with
    | .checkTimeouts => some .waiting
    | _ => none
  turn env w _ action note := note.map (Check.turn env w action)

/-- The names that a check for timeouts has still to deal with. -/
def awaited : Handler → List Str
  | .act (.getUserSocket username) next => username :: awaited (next (-1))
  | .act (.getUsernameBySocket _) next => awaited (next [])
  | .act (.unregisterClient username) next => username :: awaited (next ())
  | .act (.close _) next => awaited (next ())
  | _ => []

/-- The number for which the program is about to look up a name. -/
def lookingUp : Handler → Option Fd
  | .act (.getUsernameBySocket socket) _ => some socket
  | _ => none

/-- The name for which the program is about to look up a number. -/
def locating : Handler → Option Str
  | .act (.getUserSocket username) _ => some username
  | _ => none

/-- The name that the program is about to register or refresh, and its number then. -/
def renewing (w : World) : Handler → Option (Str × Fd)
  | .act action _ => action.renewal w
  | .done () => none

/-- What is left of a check after its scan. -/
inductive Checking : Handler → Prop where
  | next (names : List Str) : Checking (disconnectTimedOut names)
  | find (socket : Fd) (names : List Str) :
      Checking (lookName socket >>= fun _ => disconnectTimedOut names)
  | remove (username : Str) (socket : Fd) (names : List Str) :
      Checking (dropName username socket >>= fun _ => disconnectTimedOut names)
  | shut (socket : Fd) (names : List Str) :
      Checking (perform (.close socket) >>= fun _ => disconnectTimedOut names)

theorem awaited_names (names : List Str) : awaited (disconnectTimedOut names) = names := by
  induction names with
  | nil => rfl
  | cons username names ih =>
    rw [disconnectTimedOut_cons, awaited, if_neg (by decide), ih]

theorem lookingUp_names (names : List Str) : lookingUp (disconnectTimedOut names) = none := by
  cases names with
  | nil => rfl
  | cons username names =>
    rw [disconnectTimedOut_cons]
    rfl

@[simp] theorem awaited_find (socket : Fd) (names : List Str) :
    awaited (lookName socket >>= fun _ => disconnectTimedOut names) = names := awaited_names names

@[simp] theorem awaited_remove (username : Str) (socket : Fd) (names : List Str) :
    awaited (dropName username socket >>= fun _ => disconnectTimedOut names) = username :: names :=
  congrArg (username :: ·) (awaited_names names)

@[simp] theorem awaited_shut (socket : Fd) (names : List Str) :
    awaited (perform (.close socket) >>= fun _ => disconnectTimedOut names) = names :=
  awaited_names names

/-- The session with this entry is one that the scan found late. -/
def Scan.Has (scan : Scan) (w : World) (username : Str) (info : ClientInfo) : Prop :=
  ∃ found ∈ scan.late, found.username = username ∧ found.info.lastPong = info.lastPong ∧
    found.session = w.registrant username

/-- So is whoever is registered under this name now. -/
def Scan.Covers (scan : Scan) (w : World) (username : Str) : Prop :=
  ∀ info, w.server.clients.lookup username = some info → scan.Has w username info

namespace Scan
variable {scan : Scan} {w v : World} {username : Str} {info : ClientInfo}

theorem covers_scan (env : Env) (w : World) {username : Str}
    (collected : username ∈ w.server.getTimedOutClients env) : (w.scan env).Covers w username := by
  intro info present
  rw [← World.scan_names] at collected
  obtain ⟨found, listed, rfl⟩ := List.mem_map.mp collected
  obtain ⟨entry, visited, same⟩ := List.mem_map.mp listed
  have stored := (env.mem_visit _ _ _).mp (List.mem_filter.mp visited).1
  subst same
  obtain rfl := Option.some.inj (stored.symm.trans present)
  exact ⟨_, listed, rfl, rfl, rfl⟩

/-- Entries are found late only when they are. -/
theorem late_of_scan {env later : Env} {w : World} (steady : env.steadyClock ≤ later.steadyClock)
    {found : Collected} (listed : found ∈ (w.scan env).late) :
    Constants.heartbeatTimeoutS < found.info.silence later := by
  obtain ⟨entry, visited, rfl⟩ := List.mem_map.mp listed
  have silent := of_decide_eq_true (List.mem_filter.mp visited).2
  refine Int.lt_of_lt_of_le silent (Int.tdiv_le_tdiv (by decide) ?_)
  dsimp only
  omega

/-- An entry that stays stays late. -/
theorem keep (has : ∀ old, w.server.clients.lookup username = some old → old.socket = info.socket →
    scan.Has w username old) (kept : w.KeepsEntry v username info) : scan.Has v username info := by
  obtain ⟨old, before, number, age, registrant⟩ := kept
  obtain ⟨found, listed, named, same, session⟩ := has old before number
  exact ⟨found, listed, named, same.trans age, session.trans registrant.symm⟩

end Scan

/-- What a check for timeouts still needs to be right. -/
structure Expiring (scan : Scan) (w : World) (program : Handler) : Prop where
  late : ∀ found ∈ scan.late, ∀ env : Env, scan.clock ≤ env.steadyClock →
    Constants.heartbeatTimeoutS < found.info.silence env
  stage : Checking program
  awaited : ∀ username ∈ awaited program, scan.Covers w username
  found : ∀ socket ∈ lookingUp program, ∀ username info,
    w.server.clients.lookup username = some info → info.socket = socket → scan.Has w username info

namespace Expiring
variable {scan : Scan} {w : World} {program : Handler} {env : Env} {β : Type} {action : Action β}
  {next : β → Handler}

theorem begin (env : Env) (w : World) :
    Expiring (w.scan env) w (disconnectTimedOut (w.server.getTimedOutClients env)) where
  late := fun _ listed _ steady => Scan.late_of_scan steady listed
  stage := .next _
  awaited := by
    rw [awaited_names]
    exact fun username collected => Scan.covers_scan env w collected
  found := by
    intro socket looks
    rw [lookingUp_names] at looks
    cases looks

/-- An action that renews no session of the check. -/
theorem exec (expiring : Expiring scan w program)
    (kept : ∀ username socket, action.renewal w = some (username, socket) →
      username ∉ SocketMessaging.awaited program ∧ lookingUp program ≠ some socket) :
    Expiring scan (exec env action w).2 program where
  late := expiring.late
  stage := expiring.stage
  awaited := by
    intro username waits info present
    rcases exec_entry env action w present with ⟨renewed, _⟩ | entry
    · exact absurd waits (kept _ _ renewed).1
    · exact Scan.keep (fun old before _ => expiring.awaited username waits old before) entry
  found := by
    intro socket looks username info present same
    rcases exec_entry env action w present with ⟨renewed, _⟩ | entry
    · exact absurd (same ▸ looks) (kept _ _ renewed).2
    · exact Scan.keep (fun old before number =>
        expiring.found socket looks username old before (number.trans same)) entry

/-- The check for timeouts acts itself. -/
theorem advance (expiring : Expiring scan w (.act action next))
    (single : ∀ username ∈ locating (.act action next), ∀ other socket,
      w.table.handleOf username = some socket → w.table.handleOf other = some socket →
        other = username) :
    Expiring scan (SocketMessaging.exec env action w).2
      (next (SocketMessaging.exec env action w).1) := by
  -- nothing that a check does renews a session
  have moved : (∀ renewed, action.renewal w ≠ some renewed) → ∀ name ∈ SocketMessaging.awaited
      (.act action next), scan.Covers (SocketMessaging.exec env action w).2 name := by
    intro none
    exact (expiring.exec fun username socket renewed => absurd renewed (none _)).awaited
  have rest : ∀ {names : List Str} {v : World}, (∀ username ∈ names, scan.Covers v username) →
      Expiring scan v (disconnectTimedOut names) := by
    intro names v covers
    refine ⟨expiring.late, .next names, by rwa [awaited_names], fun socket looks => ?_⟩
    rw [lookingUp_names] at looks
    cases looks
  have stage := expiring.stage
  generalize program : Prog.act action next = whole at stage
  cases stage with
  | next names =>
    cases names with
    | nil => cases program
    | cons username names =>
      have covers := expiring.awaited
      rw [program, awaited_names] at covers
      rw [disconnectTimedOut_cons] at program
      cases program
      have others : ∀ name ∈ names, scan.Covers w name := fun name listed =>
        covers name (List.mem_cons_of_mem _ listed)
      change Expiring scan w (if 0 < w.server.getUserSocket username then _ else _)
      split_ifs with online
      · refine ⟨expiring.late, .find _ names, by rwa [awaited_find], ?_⟩
        intro socket looks other info present same
        obtain rfl := Option.some.inj looks
        have named := handleOf_eq_some.mpr ⟨info, present, same⟩
        obtain rfl := single username rfl other _ (handleOf_of_getUserSocket online) named
        exact covers other List.mem_cons_self info present
      · exact rest others
  | find socket names =>
    have others := expiring.awaited
    rw [program, awaited_find] at others
    cases program
    change Expiring scan w ((if w.server.getUsernameBySocket env socket = [] then .done ()
      else dropName (w.server.getUsernameBySocket env socket) socket) >>= fun _ => _)
    split_ifs with absent
    · exact rest others
    · refine ⟨expiring.late, .remove _ socket names, ?_, fun number looks => by cases looks⟩
      rw [awaited_remove]
      rintro name (_ | ⟨_, listed⟩) info present
      · rcases getUsernameBySocket_cases env socket w with named | ⟨empty, _⟩
        · obtain ⟨entry, stored, same⟩ := handleOf_eq_some.mp named
          obtain rfl := Option.some.inj (present.symm.trans stored)
          exact expiring.found socket rfl _ info present same
        · exact absurd empty absent
      · exact others name listed info present
  | remove username socket names =>
    rw [program, awaited_remove] at moved
    cases program
    have after := moved fun _ => (Option.some_ne_none _).symm
    change Expiring scan _ (perform (.close socket) >>= fun _ => disconnectTimedOut names)
    refine ⟨expiring.late, .shut socket names, ?_, fun number looks => by cases looks⟩
    rw [awaited_shut]
    exact fun name listed => after name (List.mem_cons_of_mem _ listed)
  | shut socket names =>
    rw [program, awaited_shut] at moved
    cases program
    exact rest (moved fun _ => (Option.some_ne_none _).symm)

end Expiring

namespace Noted
variable {s after : Noted (Option Check)}

/-- While a check is at work, nobody registers or refreshes a name that it has
collected and not yet dealt with, or one with the number for which it is about to
look up the name; and a number that it looks up is stored for one name only. -/
structure Undisturbed (s : Noted (Option Check)) (label : Env × Move) : Prop where
  renewals : ∀ {program : Handler} {scan : Scan}, (program, some (.scanned scan)) ∈ s.tasks →
    ∀ {username : Str} {socket : Fd},
    renewing s.world (s.threads.advanced label.2) = some (username, socket) →
      username ∉ awaited program ∧ lookingUp program ≠ some socket
  lookups : ∀ {k : Nat} {program : Handler} {scan : Scan}, label.2 = .advanceTask k →
    s.tasks[k]? = some (program, some (.scanned scan)) → ∀ username ∈ locating program,
    ∀ other socket, s.world.table.handleOf username = some socket →
      s.world.table.handleOf other = some socket → other = username

/-- A check for timeouts that is about to unregister a registered name has found
this session late in its scan, and it is late now unless the steady clock has gone
back. -/
def OnlyLate (s : Noted (Option Check)) (label : Env × Move) : Prop :=
  ∀ (k : Nat) (program : Handler) (check : Check) (username : Str) (info : ClientInfo),
    label.2 = .advanceTask k → s.tasks[k]? = some (program, some check) →
    unregistering program = some username →
    s.world.server.clients.lookup username = some info →
    ∃ scan, check = .scanned scan ∧ scan.Has s.world username info ∧
      (scan.clock ≤ label.1.steadyClock → Constants.heartbeatTimeoutS < info.silence label.1)

/-- All checks that are at work are right so far. -/
structure Watched (s : Noted (Option Check)) : Prop where
  waiting : ∀ {program : Handler}, (program, some .waiting) ∈ s.parties checks →
    program = checkClientTimeouts
  scanned : ∀ {program : Handler} {scan : Scan}, (program, some (.scanned scan)) ∈ s.parties checks →
    Expiring scan s.world program

theorem task_of_check {program : Handler} {check : Check}
    (member : (program, some check) ∈ s.parties checks) : (program, some check) ∈ s.tasks := by
  rcases List.mem_append.mp member with loop | task
  · obtain ⟨i, inside, same⟩ := List.mem_mapIdx.mp loop
    cases congrArg Prod.snd same
  · exact task

theorem Watched.onlyLate (watched : s.Watched) (label : Env × Move) : s.OnlyLate label := by
  intro k program check username info _ present unregisters stored
  cases check with
  | waiting =>
    rw [watched.waiting (task_mem_parties present)] at unregisters
    cases unregisters
  | scanned scan =>
    have expiring := watched.scanned (task_mem_parties present)
    have waits : username ∈ awaited program := by
      cases program with
      | done => cases unregisters
      | act action next =>
        cases action with
        | unregisterClient name =>
          obtain rfl := Option.some.inj unregisters
          exact List.mem_cons_self
        | _ => cases unregisters
    obtain ⟨found, listed, named, age, session⟩ := expiring.awaited username waits info stored
    refine ⟨scan, rfl, ⟨found, listed, named, age, session⟩, fun steady => ?_⟩
    have late := expiring.late found listed label.1 steady
    rwa [ClientInfo.silence, age] at late

/-- The world stays as it is, and all checks but one that begins were there before. -/
theorem Watched.keep (watched : s.Watched) (same : after.world = s.world)
    (parties : ∀ {program : Handler} {check : Check}, (program, some check) ∈ after.parties checks →
      (program, some check) ∈ s.parties checks ∨
        check = .waiting ∧ program = checkClientTimeouts) : after.Watched where
  waiting := by
    intro program member
    rcases parties member with old | ⟨_, begins⟩
    · exact watched.waiting old
    · exact begins
  scanned := by
    intro program scan member
    rcases parties member with old | ⟨waits, _⟩
    · exact same ▸ watched.scanned old
    · cases waits

/-- One party acts, which the checks among the others survive. -/
theorem Watched.act (watched : s.Watched) {label : Env × Move} (undisturbed : s.Undisturbed label)
    {β : Type} {action : Action β} {next : β → Handler} {note now : Option Check}
    {others : List (Handler × Option Check)} {program : Handler}
    (advances : s.threads.advanced label.2 = .act action next)
    (world : after.world = (exec label.1 action s.world).2)
    (before : (s.parties checks).Perm ((.act action next, note) :: others))
    (parties : (after.parties checks).Perm ((program, now) :: others))
    (own : ∀ check ∈ now, ∃ scan, check = .scanned scan ∧ Expiring scan after.world program) :
    after.Watched where
  waiting := by
    intro waiting member
    rcases List.mem_cons.mp (parties.mem_iff.mp member) with new | old
    · cases new
      obtain ⟨_, scanned, _⟩ := own _ rfl
      cases scanned
    · exact watched.waiting (before.mem_iff.mpr (List.mem_cons_of_mem _ old))
  scanned := by
    intro checking scan member
    rcases List.mem_cons.mp (parties.mem_iff.mp member) with new | old
    · cases new
      obtain ⟨_, scanned, expiring⟩ := own _ rfl
      cases scanned
      exact expiring
    · have listed : (checking, some (.scanned scan)) ∈ s.parties checks :=
        before.mem_iff.mpr (List.mem_cons_of_mem _ old)
      rw [world]
      refine (watched.scanned listed).exec fun username socket renewed => ?_
      exact undisturbed.renewals (task_of_check listed) (advances ▸ renewed)

/-- What a check for timeouts does next, and with which note. -/
theorem Watched.turn (watched : s.Watched) {env : Env} {β : Type} {action : Action β}
    {next : β → Handler} {note : Option Check}
    (member : (.act action next, note) ∈ s.parties checks)
    (single : ∀ scan, note = some (.scanned scan) → ∀ username ∈ locating (.act action next),
      ∀ other socket, s.world.table.handleOf username = some socket →
        s.world.table.handleOf other = some socket → other = username) :
    ∀ check ∈ checks.turn env s.world action note, ∃ scan, check = .scanned scan ∧
      Expiring scan (exec env action s.world).2 (next (exec env action s.world).1) := by
  intro check noted
  obtain ⟨old, rfl, rfl⟩ := Option.map_eq_some_iff.mp noted
  cases old with
  | waiting =>
    have begins := watched.waiting member
    cases begins
    exact ⟨_, rfl, .begin env s.world⟩
  | scanned scan => exact ⟨scan, rfl, (watched.scanned member).advance (single scan rfl)⟩

theorem step_watched {label : Env × Move} (watched : s.Watched) (undisturbed : s.Undisturbed label)
    (stepped : step checks s label = some after) : after.Watched := by
  obtain ⟨env, move⟩ := label
  obtain ⟨_, turned⟩ := step_turned stepped
  cases turned with
  | accept _ _ world _ parties =>
    constructor
    · intro program member
      rcases List.mem_cons.mp (parties.mem_iff.mp member) with new | old
      · cases new
      · exact watched.waiting old
    · intro program scan member
      rcases List.mem_cons.mp (parties.mem_iff.mp member) with new | old
      · cases new
      · obtain ⟨late, stage, awaited, found⟩ := watched.scanned old
        rw [world]
        exact ⟨late, stage, awaited, found⟩
  | receive _ world before parties | receiveFailure _ world before parties =>
    refine watched.keep world fun member => .inl ?_
    rcases List.mem_cons.mp (parties.mem_iff.mp member) with new | old
    · cases new
    · exact before.mem_iff.mpr (List.mem_cons_of_mem _ old)
  | @start task _ world parties =>
    refine watched.keep world fun member => ?_
    rcases List.mem_cons.mp (parties.mem_iff.mp member) with new | old
    · cases task with
      | checkTimeouts =>
        cases new
        exact .inr ⟨rfl, rfl⟩
      | dispatch | admin | heartbeat => cases new
    · exact .inl old
  | perform present world before parties =>
    have advances := Threads.advanced_of_worker (s := s.threads) present
    refine watched.act undisturbed advances world before parties fun check none => ?_
    cases none
  | performTask present world before parties =>
    have advances := advanced_of_task present
    refine watched.act undisturbed advances world before parties ?_
    rw [world]
    refine watched.turn (task_mem_parties present) fun scan scanned => ?_
    exact undisturbed.lookups rfl (scanned ▸ present)
  | finish world parties =>
    exact watched.keep world fun member => .inl (parties.mem_iff.mpr member)
  | finishTask world parties =>
    exact watched.keep world fun member => .inl (parties.mem_iff.mpr (List.mem_cons_of_mem _ member))

theorem initial_watched (banlist : Option Str) : (initial (Option Check) banlist).Watched :=
  ⟨fun member => absurd member List.not_mem_nil, fun member => absurd member List.not_mem_nil⟩

/-- As long as the checks for timeouts are undisturbed, they remove only sessions
that they have found late and that are late when they are removed. -/
theorem only_late_removed {banlist : Option Str} {labels : List (Env × Move)}
    (run : Run (step checks) Undisturbed (initial _ banlist) labels s) (label : Env × Move) :
    s.OnlyLate label := by
  have watched := run.invariant (P := Watched) step_watched (initial_watched banlist)
  exact watched.onlyLate label

/-- Nobody is checked, or nobody is renewed and at most one client is there. This
can be computed, and it is enough. -/
def undisturbed (s : Noted (Option Check)) (label : Env × Move) : Bool :=
  (s.tasks.all fun task => task.2.isNone) ||
    ((renewing s.world (s.threads.advanced label.2)).isNone &&
      ∀ username ∈ s.world.server.clients.keys, ∀ other ∈ s.world.server.clients.keys, other = username)

theorem undisturbed_sufficient (s : Noted (Option Check)) (label : Env × Move)
    (checked : undisturbed s label = true) : s.Undisturbed label := by
  rw [undisturbed, Bool.or_eq_true, List.all_eq_true] at checked
  have alone : ∀ {program : Handler} {check : Check}, (program, some check) ∈ s.tasks →
      renewing s.world (s.threads.advanced label.2) = none ∧
      ∀ username ∈ s.world.server.clients.keys, ∀ other ∈ s.world.server.clients.keys,
        other = username := by
    intro program check member
    rcases checked with none | some
    · cases none _ member
    · simpa using some
  constructor
  · intro program scan member username socket renewed
    rw [(alone member).1] at renewed
    cases renewed
  · intro k program scan _ present username _ other socket named shared
    have key : ∀ {name : Str}, s.world.table.handleOf name = some socket →
        name ∈ s.world.server.clients.keys := by
      intro name stored
      obtain ⟨info, found, _⟩ := handleOf_eq_some.mp stored
      exact AList.mem_keys.mp (AList.lookup_isSome.mp (by rw [found]; rfl))
    exact (alone (List.mem_of_getElem? present)).2 username (key named) other (key shared)

/-- ann is silent for a hundred seconds when the check begins. -/
def annExpires : List (Env × Move) :=
  Threads.plainMoves Threads.annConnects ++
    [(.atSeconds 100, .start .checkTimeouts), (.atSeconds 100, .advanceTask 0)]

/-- The task is a check for timeouts that is about to unregister ann. -/
def dropsAnn (task : Handler × Option Check) : Bool :=
  unregistering task.1 = some (str "ann") &&
    match task.2 with
    | some (.scanned scan) => scan.clock ≤ 100000000000
    | _ => false

theorem dropsAnn_cases {task : Handler × Option Check} (drops : dropsAnn task = true) :
    unregistering task.1 = some (str "ann") ∧ ∃ scan, task.2 = some (.scanned scan) ∧
      scan.clock ≤ (Env.atSeconds 100).steadyClock := by
  obtain ⟨program, note⟩ := task
  obtain ⟨unregisters, scanned⟩ := Bool.and_eq_true_iff.mp drops
  refine ⟨of_decide_eq_true unregisters, ?_⟩
  rcases note with _ | _ | scan
  · cases scanned
  · cases scanned
  · exact ⟨scan, rfl, of_decide_eq_true scanned⟩

theorem only_late_removed_of_ann : ∃ (labels : List (Env × Move)) (s : Noted (Option Check))
    (program : Handler) (scan : Scan) (info : ClientInfo),
    Run (step checks) Undisturbed (initial _ none) labels s ∧
    s.tasks[0]? = some (program, some (.scanned scan)) ∧
    unregistering program = some (str "ann") ∧
    s.world.server.clients.lookup (str "ann") = some info ∧
    scan.Has s.world (str "ann") info ∧ Constants.heartbeatTimeoutS < info.silence (.atSeconds 100) := by
  let labels := annExpires ++ [(.atSeconds 100, .advanceTask 0), (.atSeconds 100, .advanceTask 0)]
  obtain ⟨s, ran, drops, stored⟩ := evaluated
    (o := execute (guarded undisturbed (step checks)) (initial _ none) labels)
    (P := fun s => s.tasks[0]?.any dropsAnn = true ∧
      s.world.server.clients.lookup (str "ann") = some ⟨5, 0, false⟩) (by decide)
  have run := run_of_guarded undisturbed_sufficient labels ran
  obtain ⟨⟨program, note⟩, present, checked⟩ := (Option.any_eq_true _ _).mp drops
  obtain ⟨unregisters, scan, rfl, steady⟩ := dropsAnn_cases checked
  obtain ⟨_, same, found, late⟩ := only_late_removed run (.atSeconds 100, .advanceTask 0) 0 program _
    (str "ann") _ rfl present unregisters stored
  cases same
  exact ⟨labels, s, program, scan, _, run, present, unregisters, stored, found, late steady⟩

/-- ann's PONG is handled after the scan, and she is removed all the same. -/
theorem late_sessions_not_only_removed : ¬ ∀ (banlist : Option Str) (labels : List (Env × Move))
    (s : Noted (Option Check)) (label : Env × Move),
    Run (step checks) Free (initial _ banlist) labels s → s.OnlyLate label := by
  intro claimed
  let labels := annExpires ++ [(.atSeconds 100, .receive 0 (str "PONG")), (.atSeconds 100, .advance 0),
    (.atSeconds 100, .advance 0), (.atSeconds 100, .advanceTask 0), (.atSeconds 100, .advanceTask 0)]
  obtain ⟨s, ran, drops, stored⟩ := evaluated (o := execute (step checks) (initial _ none) labels)
    (P := fun s => s.tasks[0]?.any dropsAnn = true ∧
      s.world.server.clients.lookup (str "ann") = some ⟨5, 100000000000, false⟩) (by decide)
  obtain ⟨⟨program, note⟩, present, checked⟩ := (Option.any_eq_true _ _).mp drops
  obtain ⟨unregisters, scan, rfl, steady⟩ := dropsAnn_cases checked
  obtain ⟨_, same, _, late⟩ := claimed none labels s (.atSeconds 100, .advanceTask 0)
    (execute_run labels ran) 0 program _ (str "ann") _ rfl present unregisters stored
  cases same
  exact absurd (late steady) (by decide)

end Noted
end SocketMessaging
