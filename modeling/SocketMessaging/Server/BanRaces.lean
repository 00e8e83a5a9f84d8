import SocketMessaging.Server.Bans

/-! Bans under interleaving. A login checks the ban set before it enters its
name, and `/ban` unregisters the name before it enters the ban set, so a name
stays out of one of the two only while neither falls between the other's steps. -/
namespace SocketMessaging
open Prog Transition CommandHandler Utils MessageParser

/-! The next action of a program, seen by the bans it concerns. -/

/-- The name that is about to enter the ban set. -/
def adding : Handler → Option Str
  | .act (.banlistAdd username) _ => some username
  | _ => none

/-- The name that `/ban` has unregistered and not yet entered in the ban set. -/
def banning : Handler → Option Str
  | .act (.banlistAdd username) _ => some username
  | .act (.close _) next => adding (next ())
  | _ => none

namespace AdminCommandHandler

/-! The programs that `/ban` becomes, one for each action it still has to perform. -/

def enterBan (username : Str) : Handler :=
  .act (.banlistAdd username) fun _ => .done ()

def closeBanned (username : Str) (socket : Fd) : Handler :=
  .act (.close socket) fun _ => enterBan username

def dropBanned (username : Str) (socket : Fd) : Handler :=
  .act (.unregisterClient username) fun _ => closeBanned username socket

def warnBanned (username : Str) (socket : Fd) : Handler :=
  .act (.send socket (build (str "ERROR") [str "You have been banned by admin"])) fun _ =>
    dropBanned username socket

def findBanned (username : Str) : Handler :=
  .act (.getUserSocket username) fun socket =>
    if socket ≤ 0 then .done () else warnBanned username socket

theorem banUser_eq (username : Str) : banUser username = findBanned username := by
  simp only [banUser, disconnectUser, perform_bind, act_bind, pure_eq]
  refine congrArg (Prog.act _) (funext fun socket => ?_)
  by_cases offline : socket ≤ 0
  · simp only [offline, if_true, done_bind, Bool.false_eq_true, if_false]
  · simp only [offline, if_false, act_bind, done_bind, if_true]
    rfl

/-- All programs that a task can have left. -/
inductive BanStage : Handler → Prop where
  | sparing {rest : Handler} : rest.Only Action.SparesBans → rest.Only Action.Unconfirming →
      BanStage rest
  | unban (username : Str) : BanStage (unbanUser username)
  | find (username : Str) : BanStage (findBanned username)
  | warn (username : Str) (socket : Fd) : BanStage (warnBanned username socket)
  | drop (username : Str) (socket : Fd) : BanStage (dropBanned username socket)
  | close (username : Str) (socket : Fd) : BanStage (closeBanned username socket)
  | enter (username : Str) : BanStage (enterBan username)

theorem banStage_done : BanStage (.done ()) := .sparing trivial trivial

theorem commandLine_banStage (line : Str) : BanStage (commandLine line) := by
  rcases commandLine_bans line with spares | ⟨username, _, same⟩ | ⟨username, _, same⟩
  · exact .sparing spares (commandLine_unconfirming line)
  · rw [same, banUser_eq]
    exact .find username
  · exact same ▸ .unban username

theorem banning_of_sparing {rest : Handler} (spares : rest.Only Action.SparesBans) :
    banning rest = none := by
  cases rest with
  | done => rfl
  | act action next =>
    cases action with
    | banlistAdd => exact spares.1.elim
    | close socket =>
      have after := spares.2 ()
      change adding (next ()) = none
      generalize next () = rest at after
      cases rest with
      | done => rfl
      | act action _ =>
        cases action with
        | banlistAdd => exact after.1.elim
        | _ => rfl
    | _ => rfl

end AdminCommandHandler

theorem Task.program_banStage (task : Task) :
    AdminCommandHandler.BanStage task.program := by
  have unconfirming := task.program_unconfirming
  cases task with
  | dispatch => exact .sparing runOnce_sparesBans unconfirming
  | admin line => exact AdminCommandHandler.commandLine_banStage line
  | heartbeat => exact .sparing ⟨trivial, fun _ => trivial⟩ unconfirming
  | checkTimeouts => exact .sparing checkClientTimeouts_sparesBans unconfirming

/-- Whether the loop is within an iteration. -/
def Worker.busy : Worker → Bool
  | ⟨_, .running _ _⟩ => true
  | _ => false

/-- A task begins before anybody has been unregistered. -/
theorem Task.program_banning (task : Task) : banning task.program = none := by
  cases task with
  | admin line =>
    change banning (AdminCommandHandler.commandLine line) = none
    rcases AdminCommandHandler.commandLine_bans line with spares | ⟨username, _, same⟩ |
      ⟨username, _, same⟩
    · exact AdminCommandHandler.banning_of_sparing spares
    · rw [same, AdminCommandHandler.banUser_eq]
      rfl
    · rw [same]
      rfl
  | _ => rfl

namespace Threads
open AdminCommandHandler

/-- No name enters the ban set while a connection that has found it not banned
may still register it, and none is registered while `/ban` has unregistered it
and not yet entered it in the ban set. -/
def BansSettled (s : Threads) (label : Env × Move) : Prop :=
  (∀ username ∈ adding (s.advanced label.2), ∀ worker ∈ s.workers,
    checking worker.rest ≠ some username ∧ registering worker.rest ≠ some username) ∧
  ∀ username ∈ registering (s.advanced label.2), ∀ task ∈ s.tasks, banning task ≠ some username

instance : DecidableRel BansSettled := fun _ _ => inferInstanceAs (Decidable ((∀ _ ∈ _, _) ∧ ∀ _ ∈ _, _))

/-- The connection has found this name not banned and has not registered it yet. -/
def Admitting (username : Str) (worker : Worker) : Prop :=
  worker.rest = checkTaken username worker.socket ∨ worker.rest = enterName username worker.socket

/-- No name is registered and banned, nor about to become so. -/
structure Disjoint (s : Threads) : Prop where
  spares : ∀ {worker : Worker}, worker ∈ s.workers → worker.rest.Only Action.SparesBans
  stages : ∀ {task : Handler}, task ∈ s.tasks → BanStage task
  disjoint : ∀ {username : Str}, s.world.server.isBanned username = true →
    s.world.table.handleOf username = none
  admitting : ∀ {worker : Worker} {username : Str}, worker ∈ s.workers →
    Admitting username worker → s.world.server.isBanned username = false
  banning : ∀ {task : Handler} {username : Str}, task ∈ s.tasks → banning task = some username →
    s.world.table.handleOf username = none

theorem Admitting.next {username : Str} {worker : Worker} (admits : Admitting username worker) :
    checking worker.rest = some username ∨ registering worker.rest = some username := by
  rcases admits with same | same
  · exact .inl (same ▸ rfl)
  · exact .inr (same ▸ rfl)

theorem not_admitting_of_none {socket : Fd} {last : Bool} {rest : Handler}
    (checks : checking rest = none) (registers : registering rest = none) (username : Str) :
    ¬ Admitting username ⟨socket, .running last rest⟩ := by
  intro admits
  rcases admits.next with same | same
  · exact Option.some_ne_none _ (same.symm.trans checks)
  · exact Option.some_ne_none _ (same.symm.trans registers)

theorem not_admitting_of_common {socket : Fd} {last : Bool} {rest : Handler}
    (only : rest.Only (Action.Common socket)) (username : Str) :
    ¬ Admitting username ⟨socket, .running last rest⟩ := by
  rintro (same | same)
  · obtain rfl : rest = checkTaken username socket := same
    exact (only.2 false).1.1
  · obtain rfl : rest = enterName username socket := same
    exact only.1.1

variable {s : Threads} {env : Env}

/-- Names only leave the registry and the ban set. -/
theorem Disjoint.shrink (held : s.Disjoint) {w : World}
    (bans : ∀ {username : Str}, w.server.isBanned username = true →
      s.world.server.isBanned username = true)
    (names : ∀ {username : Str} {socket : Fd}, w.table.handleOf username = some socket →
      s.world.table.handleOf username = some socket) : { s with world := w }.Disjoint := by
  have absent : ∀ {username : Str}, s.world.table.handleOf username = none →
      w.table.handleOf username = none := by
    intro username absent
    by_contra present
    obtain ⟨socket, named⟩ := Option.ne_none_iff_exists'.mp present
    exact Option.some_ne_none _ ((names named).symm.trans absent)
  refine ⟨held.spares, held.stages, fun banned => absent (held.disjoint (bans banned)), ?_,
    fun member pending => absent (held.banning member pending)⟩
  intro worker username member admits
  have free := held.admitting member admits
  by_contra banned
  exact Bool.false_ne_true (free.symm.trans (bans (by simpa using banned)))

theorem Disjoint.sparing (held : s.Disjoint) {β : Type} {action : Action β}
    (spares : action.SparesBans) (unconfirming : action.Unconfirming) :
    { s with world := (exec env action s.world).2 }.Disjoint := by
  refine held.shrink (fun {username} banned => ?_) (exec_releases env unconfirming s.world).handle
  rwa [isBanned_of_bans (exec_sparesBans env spares s.world)] at banned

theorem Disjoint.setActivity (held : s.Disjoint) {i : ConnId} {old : Worker} {activity : Activity}
    (present : s.workers[i]? = some old)
    (spares : (Worker.rest ⟨old.socket, activity⟩).Only Action.SparesBans)
    (admitting : ∀ username, Admitting username ⟨old.socket, activity⟩ →
      s.world.server.isBanned username = false) : (s.setActivity i activity).Disjoint := by
  refine ⟨fun member => ?_, held.stages, held.disjoint, fun member admits => ?_, held.banning⟩
  all_goals
    obtain ⟨j, found⟩ := List.getElem?_of_mem member
    rcases workers_cases present found with ⟨_, rfl⟩ | ⟨_, other⟩
  · exact spares
  · exact held.spares (List.mem_of_getElem? other)
  · exact admitting _ admits
  · exact held.admitting (List.mem_of_getElem? other) admits

theorem Disjoint.setTask (held : s.Disjoint) {k : Nat} {rest : Handler} (stage : BanStage rest)
    (pending : ∀ username, SocketMessaging.banning rest = some username →
      s.world.table.handleOf username = none) : { s with tasks := s.tasks.set k rest }.Disjoint := by
  refine ⟨held.spares, fun member => ?_, held.disjoint, held.admitting, fun member named => ?_⟩
  · rcases List.mem_or_eq_of_mem_set member with old | rfl
    · exact held.stages old
    · exact stage
  · rcases List.mem_or_eq_of_mem_set member with old | rfl
    · exact held.banning old named
    · exact pending _ named

/-- A name that is not banned is registered while no `/ban` of it is under way. -/
theorem Disjoint.register (held : s.Disjoint) {username : Str} (socket : Fd)
    (free : s.world.server.isBanned username = false)
    (alone : ∀ task ∈ s.tasks, SocketMessaging.banning task ≠ some username) :
    { s with world := s.world.registerClient env username socket }.Disjoint := by
  have others : ∀ {name : Str}, name ≠ username → s.world.table.handleOf name = none →
      (s.world.registerClient env username socket).table.handleOf name = none := by
    intro name other absent
    rw [World.handleOf_registerClient, if_neg other]
    exact absent
  refine ⟨held.spares, held.stages, fun {name} banned => ?_, held.admitting,
    fun {task name} member pending => ?_⟩
  · have banned : s.world.server.isBanned name = true := banned
    have other : name ≠ username := by
      rintro rfl
      exact Bool.false_ne_true (free.symm.trans banned)
    exact others other (held.disjoint banned)
  · have other : name ≠ username := by
      rintro rfl
      exact alone task member pending
    exact others other (held.banning member pending)

/-- A name that is not registered is banned while no login of it is under way. -/
theorem Disjoint.ban (held : s.Disjoint) {username : Str}
    (absent : s.world.table.handleOf username = none)
    (alone : ∀ worker ∈ s.workers, ¬ Admitting username worker) :
    { s with world := (exec env (.banlistAdd username) s.world).2 }.Disjoint := by
  have others : ∀ {name : Str}, name ≠ username →
      (exec env (.banlistAdd username) s.world).2.server.isBanned name =
        s.world.server.isBanned name := by
    intro name other
    exact congrArg Option.isSome (AList.lookup_insert_ne other)
  refine ⟨held.spares, held.stages, fun {name} banned => ?_, fun {worker name} member admits => ?_,
    held.banning⟩
  · by_cases same : name = username
    · exact same ▸ absent
    · rw [others same] at banned
      exact held.disjoint banned
  · have other : name ≠ username := by
      rintro rfl
      exact alone worker member admits
    rw [others other]
    exact held.admitting member admits

/-- One action of a handler loop, by the stage of its program. -/
theorem Disjoint.perform (formed : s.Formed) (held : s.Disjoint) {i : ConnId} {socket : Fd}
    {last : Bool} {β : Type} {action : Action β} {next : β → Handler}
    (present : s.workers[i]? = some ⟨socket, .running last (.act action next)⟩)
    (settled : BansSettled s (env, .advance i)) :
    ({ s with world := (exec env action s.world).2 }.setActivity i
      (.running last (next (exec env action s.world).1))).Disjoint := by
  have stage : Stage socket (.act action next) := formed.workers present
  have spares : (Prog.act action next).Only Action.SparesBans :=
    held.spares (List.mem_of_getElem? present)
  have moved : { s with world := (exec env action s.world).2 }.Disjoint →
      (∀ username, Admitting username ⟨socket, .running last (next (exec env action s.world).1)⟩ →
        (exec env action s.world).2.server.isBanned username = false) →
      ({ s with world := (exec env action s.world).2 }.setActivity i
        (.running last (next (exec env action s.world).1))).Disjoint :=
    fun world admitting => world.setActivity present (spares.2 _) admitting
  have quietly := fun unconfirming : action.Unconfirming =>
    moved (held.sparing spares.1 unconfirming)
  have idle : ∀ {rest : Handler}, checking rest = none → registering rest = none →
      ∀ username, Admitting username ⟨socket, .running last rest⟩ →
        (exec env action s.world).2.server.isBanned username = false :=
    fun checks registers username admits =>
      absurd admits (not_admitting_of_none checks registers username)
  cases stage with
  | common only =>
    exact quietly only.1.1 fun username admits =>
      absurd admits (not_admitting_of_common (only.2 _) username)
  | checkValid name =>
    apply quietly trivial
    dsimp only
    split <;> exact idle rfl rfl
  | checkBanned name =>
    apply quietly trivial
    intro username admits
    cases banned : s.world.server.isBanned name with
    | true =>
      simp only [exec, banned, if_true] at admits
      exact absurd admits (not_admitting_of_none rfl rfl username)
    | false =>
      simp only [exec, banned, Bool.false_eq_true, if_false] at admits
      rcases admits.next with same | same
      · exact Option.some.inj same ▸ banned
      · cases same
  | checkTaken name =>
    apply quietly trivial
    intro username admits
    have free := held.admitting (List.mem_of_getElem? present) (.inl rfl)
    cases taken : s.world.server.isUsernameTaken name with
    | true =>
      simp only [exec, taken, if_true] at admits
      exact absurd admits (not_admitting_of_none rfl rfl username)
    | false =>
      simp only [exec, taken, Bool.false_eq_true, if_false] at admits
      rcases admits.next with same | same
      · cases same
      · exact Option.some.inj same ▸ free
  | enterName name =>
    have free := held.admitting (List.mem_of_getElem? present) (.inr rfl)
    have advances := advanced_of_worker present
    refine moved (held.register socket free fun task member => ?_) (idle rfl rfl)
    exact settled.2 name (advances ▸ rfl) task member
  | confirmLogin name =>
    refine moved (held.shrink (fun {username} banned => ?_) fun {username number} named => ?_)
      (idle rfl rfl)
    · rwa [isBanned_of_bans (exec_sparesBans env spares.1 s.world)] at banned
    · exact s.world.table_send env socket _ ▸ named
  | failing =>
    apply quietly trivial
    change ∀ username, Admitting username ⟨socket, .running last
      (if s.world.server.getUsernameBySocket env socket ≠ [] then handleDisconnect [] socket
      else .done ())⟩ → s.world.server.isBanned username = false
    rw [handleDisconnect_eq]
    split <;> exact idle rfl rfl
  | lookName =>
    apply quietly trivial
    dsimp only
    split <;> exact idle rfl rfl
  | dropName name => exact quietly trivial (idle rfl rfl)

theorem isBanned_of_remove {env : Env} {username name : Str} {w : World}
    (banned : (exec env (.banlistRemove username) w).2.server.isBanned name = true) :
    w.server.isBanned name = true := by
  cases listed : w.server.isBanned username with
  | false => simpa [exec, listed] using banned
  | true =>
    simp only [exec, listed, if_true] at banned
    by_cases same : name = username
    · exact same ▸ listed
    · exact (congrArg Option.isSome (AList.lookup_erase_ne same)).symm.trans banned

/-- One action of another thread, by the stage of its program. -/
theorem Disjoint.performTask (formed : s.Formed) (held : s.Disjoint) {k : Nat} {β : Type}
    {action : Action β} {next : β → Handler} (present : s.tasks[k]? = some (.act action next))
    (settled : BansSettled s (env, .advanceTask k)) :
    { s with
      world := (exec env action s.world).2
      tasks := s.tasks.set k (next (exec env action s.world).1) }.Disjoint := by
  have member := List.mem_of_getElem? present
  have unconfirming := (formed.tasks member).1
  have stage : BanStage (.act action next) := held.stages member
  have quietly : action.SparesBans → BanStage (next (exec env action s.world).1) →
      (∀ username, SocketMessaging.banning (next (exec env action s.world).1) = some username →
        (exec env action s.world).2.table.handleOf username = none) →
      { s with
        world := (exec env action s.world).2
        tasks := s.tasks.set k (next (exec env action s.world).1) }.Disjoint :=
    fun spares stage pending => (held.sparing spares unconfirming).setTask stage pending
  have idle : ∀ {rest : Handler}, SocketMessaging.banning rest = none → ∀ username,
      SocketMessaging.banning rest = some username →
        (exec env action s.world).2.table.handleOf username = none :=
    fun none username pending => absurd (pending.symm.trans none) (Option.some_ne_none _)
  cases stage with
  | sparing spares only =>
    exact quietly spares.1 (.sparing (spares.2 _) (only.2 _)) (idle (banning_of_sparing (spares.2 _)))
  | unban username =>
    refine (held.shrink (fun {name} banned => ?_) fun {name socket} named => ?_).setTask
      banStage_done (idle rfl)
    · exact isBanned_of_remove banned
    · exact exec_quiet env (.banlistRemove username) s.world trivial ▸ named
  | find username =>
    refine quietly trivial ?_ ?_
    · dsimp only
      split
      · exact banStage_done
      · exact .warn username _
    · dsimp only
      split <;> exact idle rfl
  | warn username socket => exact quietly trivial (.drop username socket) (idle rfl)
  | drop username socket =>
    apply quietly trivial (.close username socket)
    intro name pending
    obtain rfl := Option.some.inj pending
    exact (s.world.handleOf_unregisterClient username username).trans (if_pos rfl)
  | close username socket =>
    apply quietly trivial (.enter username)
    intro name pending
    exact (congrArg (fun t => t.handleOf name) (s.world.table_close socket)).trans
      (held.banning member pending)
  | enter username =>
    have advances := advanced_of_task present
    refine (held.ban (held.banning member rfl) fun worker working admits => ?_).setTask
      banStage_done (idle rfl)
    obtain ⟨unchecked, unregistered⟩ := settled.1 username (advances ▸ rfl) worker working
    exact admits.next.elim unchecked unregistered

theorem step_disjoint {label : Env × Move} {after : Threads} (formed : s.Formed)
    (held : s.Disjoint) (settled : BansSettled s label) (stepped : step s label = some after) :
    after.Disjoint := by
  obtain ⟨env, move⟩ := label
  obtain ⟨_, stepped⟩ := step_cases stepped
  have idle : ∀ {socket : Fd} {activity : Activity},
      Worker.rest ⟨socket, activity⟩ = .done () → ∀ username, ¬ Admitting username ⟨socket, activity⟩ := by
    intro socket activity done username admits
    rcases admits.next with same | same
    · rw [done] at same
      cases same
    · rw [done] at same
      cases same
  cases stepped with
  | @accept socket nonneg free =>
    have world := held.shrink (w := s.world.accept socket s.workers.length) id fun named => named
    refine ⟨fun member => ?_, world.stages, world.disjoint, fun member admits => ?_, world.banning⟩
    · rcases List.mem_append.mp member with old | new
      · exact held.spares old
      · rw [List.mem_singleton.mp new]
        trivial
    · rcases List.mem_append.mp member with old | new
      · exact held.admitting old admits
      · rw [List.mem_singleton.mp new] at admits
        exact absurd admits (idle rfl _)
  | @receive i raw socket _ reads =>
    refine held.setActivity reads (handleMessage_sparesBans raw socket) fun username admits => ?_
    rcases handleMessage_cases raw socket with only | ⟨name, same⟩ | same
    · exact absurd admits (not_admitting_of_common only username)
    · rw [same] at admits
      exact absurd admits (not_admitting_of_none rfl rfl username)
    · rw [same] at admits
      exact absurd admits (not_admitting_of_none rfl rfl username)
  | @receiveFailure i socket reads =>
    exact held.setActivity reads (handleReceiveFailure_sparesBans socket) fun username admits =>
      absurd admits (not_admitting_of_none rfl rfl username)
  | perform present => exact held.perform formed present settled
  | @finish i socket last present =>
    refine held.setActivity present ?_ fun username admits => absurd admits (idle ?_ username)
    all_goals cases last
    all_goals trivial
  | @start task =>
    refine ⟨held.spares, fun member => ?_, held.disjoint, held.admitting, fun member pending => ?_⟩
    · rcases List.mem_append.mp member with old | new
      · exact held.stages old
      · exact List.mem_singleton.mp new ▸ task.program_banStage
    · rcases List.mem_append.mp member with old | new
      · exact held.banning old pending
      · rw [List.mem_singleton.mp new, task.program_banning] at pending
        cases pending
  | performTask present => exact held.performTask formed present settled
  | finishTask =>
    exact ⟨held.spares, fun member => held.stages (List.mem_of_mem_eraseIdx member), held.disjoint,
      held.admitting, fun member => held.banning (List.mem_of_mem_eraseIdx member)⟩

/-- No handler loop is within an iteration, and nothing else is under way. -/
structure Resting (s : Threads) : Prop where
  nonneg : ∀ worker ∈ s.workers, 0 ≤ worker.socket
  workers : ∀ worker ∈ s.workers, worker.busy = false
  tasks : s.tasks = []

/-- No name is both registered and banned. -/
def NobodyBanned (s : Threads) : Prop :=
  ∀ username, s.world.server.isBanned username = true →
    s.world.server.isUsernameTaken username = false

theorem Resting.rest (resting : s.Resting) {worker : Worker} (member : worker ∈ s.workers) :
    worker.rest = .done () := by
  obtain ⟨socket, activity⟩ := worker
  cases activity with
  | running => exact absurd (resting.workers _ member) Bool.noConfusion
  | _ => rfl

theorem Resting.formed (resting : s.Resting) : s.Formed where
  nonneg := fun found => resting.nonneg _ (List.mem_of_getElem? found)
  workers := by
    intro i worker found
    rw [resting.rest (List.mem_of_getElem? found)]
    exact .common trivial
  tasks := by
    intro program member
    rw [resting.tasks] at member
    cases member

theorem Resting.disjoint (resting : s.Resting) (apart : s.NobodyBanned) : s.Disjoint := by
  have none : ∀ {task : Handler}, task ∉ s.tasks := by
    intro task member
    rw [resting.tasks] at member
    cases member
  refine ⟨fun member => ?_, fun member => absurd member none, fun {username} banned => ?_,
    fun member admits => ?_, fun member => absurd member none⟩
  · rw [resting.rest member]
    trivial
  · have free := apart username banned
    rw [isUsernameTaken_eq] at free
    simpa using free
  · have idle := admits.next
    rw [resting.rest member] at idle
    rcases idle with same | same
    · cases same
    · cases same

/-- However logins and bans take turns, nobody is registered and banned, as long
as neither falls between the steps of the other that concern the same name. -/
theorem nobody_banned_online {start : Threads} {labels : List (Env × Move)}
    (resting : start.Resting) (apart : start.NobodyBanned)
    (run : Run step BansSettled start labels s) : s.NobodyBanned := by
  have both : s.Formed ∧ s.Disjoint := by
    refine run.invariant (P := fun s => s.Formed ∧ s.Disjoint) ?_
      ⟨resting.formed, resting.disjoint apart⟩
    intro s label after ⟨formed, held⟩ settled stepped
    exact ⟨step_formed formed stepped, step_disjoint formed held settled stepped⟩
  intro username banned
  rw [isUsernameTaken_eq, both.2.disjoint banned]
  rfl

theorem initial_resting (banlist : Option Str) : (initial banlist).Resting where
  nonneg := fun _ member => absurd member List.not_mem_nil
  workers := fun _ member => absurd member List.not_mem_nil
  tasks := rfl

theorem initial_nobodyBanned (banlist : Option Str) : (initial banlist).NobodyBanned :=
  fun _ _ => rfl

/-- The moves of a `/ban` up to the unregistration and the closing of the socket. -/
def startBan (line : Str) : List Move :=
  [.start (.admin line), .advanceTask 0, .advanceTask 0, .advanceTask 0, .advanceTask 0]

/-- ann is banned after her login is complete. -/
theorem nobody_banned_online_of_ann : ∃ (labels : List (Env × Move)) (s : Threads),
    Run step BansSettled (initial none) labels s ∧
    s.world.server.isBanned (str "ann") = true ∧ s.NobodyBanned := by
  let labels := plainMoves (annConnects ++ startBan (str "/ban ann") ++ [.advanceTask 0])
  obtain ⟨s, ran, banned⟩ := evaluated
    (o := execute (guarded (fun s label => decide (BansSettled s label)) step) (initial none) labels)
    (P := fun s => s.world.server.isBanned (str "ann") = true) (by decide)
  have run := run_of_guarded (fun _ _ => of_decide_eq_true) labels ran
  exact ⟨labels, s, run, banned,
    nobody_banned_online (initial_resting none) (initial_nobodyBanned none) run⟩

/-- A second login of ann has passed the check of the ban set when she is banned,
and registers the name that `/ban` has just unregistered. -/
theorem banned_name_registered : ¬ ∀ (start s : Threads) (labels : List (Env × Move)),
    start.Resting → start.NobodyBanned → Run step Free start labels s → s.Resting →
    s.NobodyBanned := by
  intro claimed
  let labels := plainMoves (annConnects ++
    [.accept 6, .receive 1 (str "CONNECT;ann"), .advance 1, .advance 1] ++
    startBan (str "/ban ann") ++ [.advance 1, .advance 1, .advance 1, .advance 1] ++
    [.advanceTask 0, .advanceTask 0])
  obtain ⟨s, ran, workers, tasks, banned, taken⟩ := evaluated (o := execute step (initial none) labels)
    (P := fun s => (∀ worker ∈ s.workers, 0 ≤ worker.socket ∧ worker.busy = false) ∧
      s.tasks.length = 0 ∧ s.world.server.isBanned (str "ann") = true ∧
      s.world.server.isUsernameTaken (str "ann") = true) (by decide)
  have resting : s.Resting := ⟨fun worker member => (workers worker member).1,
    fun worker member => (workers worker member).2, List.length_eq_zero_iff.mp tasks⟩
  have free := claimed (initial none) s labels (initial_resting none) (initial_nobodyBanned none)
    (execute_run labels ran) resting (str "ann") banned
  exact Bool.false_ne_true (free.symm.trans taken)

end Threads
end SocketMessaging
