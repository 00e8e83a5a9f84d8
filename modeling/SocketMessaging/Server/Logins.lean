import SocketMessaging.Server.Interleaving

/-! Logins under interleaving. A login checks that its name is free and enters it
in two separate steps, so a name stays unique only while no other thread comes
between them, or between the entry and its confirmation. -/
namespace SocketMessaging
open Prog Transition CommandHandler

/-- The sockets that were told, since the name was last unregistered, that they
are connected under it, in this order. -/
def Event.confirm (username : Str) (sockets : List Fd) : Event → List Fd
  | .unregister name => if name = username then [] else sockets
  | .send socket _ message _ => if message = connectedAs username then sockets ++ [socket] else sockets
  | _ => sockets

/-- Actions that do not concern the registration of this name. -/
def Action.Spares (username : Str) : ∀ {β : Type}, Action β → Prop
  | _, .registerClient name _ => name ≠ username
  | _, .unregisterClient name => name ≠ username
  | _, .send _ message => message ≠ connectedAs username
  | _, .stop => False
  | _, _ => True

namespace World

def confirmed (username : Str) (w : World) : List Fd :=
  w.os.log.foldl (Event.confirm username) []

theorem confirmed_record (username : Str) (event : Event) (w : World) :
    (w.record event).confirmed username = event.confirm username (w.confirmed username) := by
  simp only [confirmed, record, List.foldl_append, List.foldl_cons, List.foldl_nil]

theorem confirmed_send {env : Env} {socket : Fd} {message username : Str} {w : World}
    (other : message ≠ connectedAs username) :
    (w.send env socket message).2.confirmed username = w.confirmed username := by
  unfold send
  split
  · rfl
  · simp only [confirmed_record, Event.confirm, other, if_false]

/-- The socket stored for a name and the sockets told so agree. -/
structure Unique (username : Str) (w : World) : Prop where
  once : (w.confirmed username).length ≤ 1
  stored : ∀ socket ∈ w.confirmed username,
    ∃ info, w.server.clients.lookup username = some info ∧ info.socket = socket

end World

theorem exec_spares (env : Env) {β : Type} {action : Action β} {username : Str}
    (spares : action.Spares username) (w : World) :
    (exec env action w).2.table.handleOf username = w.table.handleOf username ∧
      (exec env action w).2.confirmed username = w.confirmed username := by
  have quiet : ∀ {β : Type} (action : Action β), action.Quiet →
      (exec env action w).2.table.handleOf username = w.table.handleOf username :=
    fun action quiet => by rw [exec_quiet env action w quiet]
  cases action with
  | stop => exact spares.elim
  | registerClient name socket =>
    constructor
    · exact (w.handleOf_registerClient env name socket username).trans (if_neg (Ne.symm spares))
    · exact World.confirmed_record username (.register name (w.os.holder socket)) _
  | unregisterClient name =>
    constructor
    · exact (w.handleOf_unregisterClient name username).trans (if_neg (Ne.symm spares))
    · exact (World.confirmed_record username (.unregister name) _).trans (if_neg spares)
  | close socket =>
    constructor
    · exact congrArg (fun t => t.handleOf username) (w.table_close socket)
    · exact World.confirmed_record username (.close socket (w.os.holder socket)) w
  | send socket message => exact ⟨quiet _ trivial, World.confirmed_send spares⟩
  | pingClients =>
    refine ⟨quiet _ trivial, ?_⟩
    have ping : str "PING\n" ≠ connectedAs username := by
      intro same
      have first := congrArg List.head? same
      exact absurd first (show some (80 : UInt8) ≠ some 79 by decide)
    exact World.pingClients_keeps (I := fun v => v.confirmed username = w.confirmed username) rfl
      fun _ _ _ same => (World.confirmed_send ping).trans same
  | updateClientPong name => exact ⟨quiet _ trivial, rfl⟩
  | banlistRemove name =>
    refine ⟨quiet _ trivial, ?_⟩
    simp only [exec]
    split <;> rfl
  | _ => exact ⟨quiet _ trivial, rfl⟩

theorem Action.Common.spares {socket : Fd} {β : Type} {action : Action β}
    (common : action.Common socket) (username : Str) : action.Spares username := by
  obtain ⟨unconfirming, confined⟩ := common
  cases action with
  | registerClient | stop | unregisterClient => exact confined.elim
  | send number message =>
    intro same
    exact unconfirming (same ▸ take_connectedAs username)
  | _ => trivial

namespace Threads

/-- The step does not check a name that another connection is about to enter,
nor unregister one that a connection has entered and is about to confirm. -/
def Undisturbed (s : Threads) (label : Env × Move) : Prop :=
  ∀ worker ∈ s.workers,
    (∀ username ∈ checking (s.advanced label.2), registering worker.rest ≠ some username) ∧
    ∀ username ∈ unregistering (s.advanced label.2),
      sending worker.rest ≠ some (connectedAs username)

instance : DecidableRel Undisturbed := fun _ _ => inferInstanceAs (Decidable (∀ _ ∈ _, _))

/-- A name is free, or about to be entered by one connection, or entered by one
that is about to confirm it, or confirmed. -/
structure Orderly (username : Str) (s : Threads) : Prop where
  once : (s.world.confirmed username).length ≤ 1
  stored : ∀ socket ∈ s.world.confirmed username, s.world.table.handleOf username = some socket
  entering : ∀ {i : ConnId} {worker : Worker}, s.workers[i]? = some worker →
    registering worker.rest = some username → s.world.table.handleOf username = none ∧
      ∀ {j : ConnId} {other : Worker}, s.workers[j]? = some other →
        registering other.rest = some username → j = i
  confirming : ∀ {i : ConnId} {worker : Worker}, s.workers[i]? = some worker →
    sending worker.rest = some (connectedAs username) →
      s.world.table.handleOf username = some worker.socket ∧ s.world.confirmed username = [] ∧
      ∀ {j : ConnId} {other : Worker}, s.workers[j]? = some other →
        sending other.rest = some (connectedAs username) → j = i

/-- The worker's next action neither enters nor confirms this name. -/
def Idle (username : Str) (worker : Worker) : Prop :=
  registering worker.rest ≠ some username ∧ sending worker.rest ≠ some (connectedAs username)

/-- No worker is new except for idle ones. -/
def Subsides (username : Str) (s after : Threads) : Prop :=
  ∀ {i : ConnId} {worker : Worker}, after.workers[i]? = some worker →
    s.workers[i]? = some worker ∨ Idle username worker

variable {username : Str} {s after : Threads}

theorem Orderly.keep (orderly : Orderly username s) (subsides : Subsides username s after)
    (handle : after.world.table.handleOf username = s.world.table.handleOf username)
    (confirmed : after.world.confirmed username = s.world.confirmed username) :
    Orderly username after where
  once := confirmed ▸ orderly.once
  stored := by
    rw [confirmed, handle]
    exact orderly.stored
  entering := by
    intro i worker present enters
    have was := (subsides present).resolve_right fun idle => idle.1 enters
    obtain ⟨free, only⟩ := orderly.entering was enters
    refine ⟨handle.trans free, fun found again => ?_⟩
    exact only ((subsides found).resolve_right fun idle => idle.1 again) again
  confirming := by
    intro i worker present confirms
    have was := (subsides present).resolve_right fun idle => idle.2 confirms
    obtain ⟨named, none, only⟩ := orderly.confirming was confirms
    refine ⟨handle.trans named, confirmed.trans none, fun found again => ?_⟩
    exact only ((subsides found).resolve_right fun idle => idle.2 again) again

/-- Unregistering is harmless while nobody is about to confirm the name. -/
theorem Orderly.unregister (orderly : Orderly username s) (subsides : Subsides username s after)
    (unconfirmed : ∀ worker ∈ s.workers, sending worker.rest ≠ some (connectedAs username))
    (handle : after.world.table.handleOf username = none)
    (confirmed : after.world.confirmed username = []) : Orderly username after where
  once := by
    rw [confirmed]
    exact Nat.zero_le _
  stored := by
    rw [confirmed]
    exact fun socket told => absurd told List.not_mem_nil
  entering := by
    intro i worker present enters
    have was := (subsides present).resolve_right fun idle => idle.1 enters
    refine ⟨handle, fun found again => ?_⟩
    exact (orderly.entering was enters).2
      ((subsides found).resolve_right fun idle => idle.1 again) again
  confirming := by
    intro i worker present confirms
    have was := (subsides present).resolve_right fun idle => idle.2 confirms
    exact absurd confirms (unconfirmed worker (List.mem_of_getElem? was))

theorem subsides_setActivity {i : ConnId} {old : Worker} {activity : Activity} (w : World)
    (present : s.workers[i]? = some old) (idle : Idle username ⟨old.socket, activity⟩) :
    Subsides username s ({ s with world := w }.setActivity i activity) := by
  intro j worker found
  rcases workers_cases (s := { s with world := w }) present found with ⟨_, rfl⟩ | ⟨_, other⟩
  · exact .inr idle
  · exact .inl other

theorem idle_of_none {worker : Worker} (enters : registering worker.rest = none)
    (confirms : sending worker.rest = none) : Idle username worker := by
  constructor
  · rw [enters]
    exact (Option.some_ne_none _).symm
  · rw [confirms]
    exact (Option.some_ne_none _).symm

theorem idle_of_common {socket : Fd} {last : Bool} {rest : Handler}
    (only : rest.Only (Action.Common socket)) : Idle username ⟨socket, .running last rest⟩ :=
  ⟨fun enters => Option.some_ne_none _ (enters.symm.trans (registering_of_common only)),
    sending_of_common only username⟩

/-- The name turned out to be free, and nobody else is about to enter it. -/
theorem Orderly.check (orderly : Orderly username s) {i : ConnId} {old : Worker} {last : Bool}
    (present : s.workers[i]? = some old) (free : s.world.table.handleOf username = none)
    (alone : ∀ worker ∈ s.workers, registering worker.rest ≠ some username) :
    Orderly username (s.setActivity i (.running last (enterName username old.socket))) where
  once := orderly.once
  stored := orderly.stored
  entering := by
    have only : ∀ {j : ConnId} {other : Worker},
        (s.setActivity i (.running last (enterName username old.socket))).workers[j]? = some other →
        registering other.rest = some username → j = i := by
      intro j other found enters
      rcases workers_cases present found with ⟨same, _⟩ | ⟨_, was⟩
      · exact same
      · exact absurd enters (alone other (List.mem_of_getElem? was))
    intro j worker found enters
    exact ⟨free, fun again enters' => (only again enters').trans (only found enters).symm⟩
  confirming := by
    intro j worker found confirms
    rcases workers_cases present found with ⟨_, rfl⟩ | ⟨_, was⟩
    · cases confirms
    · have named := (orderly.confirming was confirms).1
      exact absurd (named.symm.trans free) (Option.some_ne_none _)

/-- The one connection that was about to enter the name has done so. -/
theorem Orderly.enter (orderly : Orderly username s) {i : ConnId} {old : Worker} {last : Bool}
    (present : s.workers[i]? = some old) (enters : registering old.rest = some username)
    {w : World} (handle : w.table.handleOf username = some old.socket)
    (confirmed : w.confirmed username = s.world.confirmed username) :
    Orderly username
      ({ s with world := w }.setActivity i (.running last (confirmLogin username old.socket))) where
  once := by
    change (w.confirmed username).length ≤ 1
    exact confirmed ▸ orderly.once
  stored := by
    intro socket told
    change socket ∈ w.confirmed username at told
    have named := orderly.stored socket (confirmed ▸ told)
    exact absurd (named.symm.trans (orderly.entering present enters).1) (Option.some_ne_none _)
  entering := by
    intro j worker found again
    rcases workers_cases (s := { s with world := w }) present found with ⟨_, rfl⟩ | ⟨apart, was⟩
    · cases again
    · exact absurd ((orderly.entering present enters).2 was again) apart
  confirming := by
    have free := (orderly.entering present enters).1
    have only : ∀ {j : ConnId} {other : Worker}, ({ s with world := w }.setActivity i
        (.running last (confirmLogin username old.socket))).workers[j]? = some other →
        sending other.rest = some (connectedAs username) →
        j = i ∧ other.socket = old.socket := by
      intro j other found confirms
      rcases workers_cases (s := { s with world := w }) present found with ⟨same, rfl⟩ | ⟨_, was⟩
      · exact ⟨same, rfl⟩
      · have named := (orderly.confirming was confirms).1
        exact absurd (named.symm.trans free) (Option.some_ne_none _)
    intro j worker found confirms
    refine ⟨?_, ?_, fun again confirms' => (only again confirms').1.trans (only found confirms).1.symm⟩
    · rw [(only found confirms).2]
      exact handle
    · change w.confirmed username = []
      rw [confirmed]
      apply List.eq_nil_iff_forall_not_mem.mpr
      intro socket told
      exact absurd ((orderly.stored socket told).symm.trans free) (Option.some_ne_none _)

/-- The one connection that entered the name has confirmed it. -/
theorem Orderly.confirm (orderly : Orderly username s) {i : ConnId} {old : Worker} {last : Bool}
    (present : s.workers[i]? = some old)
    (confirms : sending old.rest = some (connectedAs username)) {w : World}
    (handle : w.table.handleOf username = s.world.table.handleOf username)
    (confirmed : w.confirmed username = s.world.confirmed username ++ [old.socket]) :
    Orderly username ({ s with world := w }.setActivity i (.running last (.done ()))) := by
  obtain ⟨named, none, only⟩ := orderly.confirming present confirms
  rw [none, List.nil_append] at confirmed
  constructor
  · change (w.confirmed username).length ≤ 1
    rw [confirmed]
    exact Nat.le_refl _
  · intro socket told
    change socket ∈ w.confirmed username at told
    rw [confirmed] at told
    exact List.mem_singleton.mp told ▸ handle.trans named
  · intro j worker found enters
    rcases workers_cases (s := { s with world := w }) present found with ⟨_, rfl⟩ | ⟨_, was⟩
    · cases enters
    · have free := (orderly.entering was enters).1
      exact absurd (named.symm.trans free) (Option.some_ne_none _)
  · intro j worker found again
    rcases workers_cases (s := { s with world := w }) present found with ⟨_, rfl⟩ | ⟨apart, was⟩
    · cases again
    · exact absurd (only was again) apart

theorem idle_of_handleMessage (raw : Str) (socket : Fd) :
    Idle username ⟨socket, .running false (handleMessage raw socket)⟩ := by
  rcases handleMessage_cases raw socket with only | ⟨name, same⟩ | same
  · exact idle_of_common only
  · rw [same]
    exact idle_of_none rfl rfl
  · rw [same]
    exact idle_of_none rfl rfl

/-- One action of a handler loop, by the stage of its program. -/
theorem Orderly.perform (formed : s.Formed) (orderly : Orderly username s) {i : ConnId} {socket : Fd}
    {last : Bool} {β : Type} {action : Action β} {next : β → Handler} (env : Env)
    (present : s.workers[i]? = some ⟨socket, .running last (.act action next)⟩)
    (admitted : Undisturbed s (env, .advance i)) :
    Orderly username ({ s with world := (exec env action s.world).2 }.setActivity i
      (.running last (next (exec env action s.world).1))) := by
  have stage : Stage socket (.act action next) := formed.workers present
  have advances := advanced_of_worker present
  have quietly : ∀ {w : World} {rest : Handler},
      w.table.handleOf username = s.world.table.handleOf username →
      w.confirmed username = s.world.confirmed username →
      Idle username ⟨socket, .running last rest⟩ →
      Orderly username ({ s with world := w }.setActivity i (.running last rest)) :=
    fun handle confirmed idle => orderly.keep (subsides_setActivity _ present idle) handle confirmed
  cases stage with
  | common only =>
    obtain ⟨handle, confirmed⟩ := exec_spares env (only.1.spares username) s.world
    exact quietly handle confirmed (idle_of_common (only.2 _))
  | checkValid name =>
    apply quietly rfl rfl
    dsimp only
    split
    · exact idle_of_common (sendError_common socket _)
    · exact idle_of_none rfl rfl
  | checkBanned name =>
    apply quietly rfl rfl
    dsimp only
    split
    · refine idle_of_common ((sendError_common socket _).bind fun _ => ?_)
      exact ⟨⟨trivial, rfl⟩, fun _ => trivial⟩
    · exact idle_of_none rfl rfl
  | checkTaken name =>
    cases taken : s.world.server.isUsernameTaken name with
    | true =>
      apply quietly rfl rfl
      simp only [exec, taken, if_true]
      exact idle_of_common (sendError_common socket _)
    | false =>
      simp only [exec, taken, Bool.false_eq_true, if_false]
      by_cases same : name = username
      · subst same
        have free : s.world.table.handleOf name = none := by
          rw [isUsernameTaken_eq] at taken
          simpa using taken
        apply orderly.check present free
        intro worker member
        exact (admitted worker member).1 name (advances ▸ rfl)
      · refine quietly rfl rfl ⟨fun enters => ?_, (Option.some_ne_none _).symm⟩
        exact same (Option.some.inj enters)
  | enterName name =>
    by_cases same : name = username
    · subst same
      refine orderly.enter present rfl ?_ (World.confirmed_record name (.register name _) _)
      exact (s.world.handleOf_registerClient env name socket name).trans (if_pos rfl)
    · have spares : (Action.registerClient name socket).Spares username := same
      obtain ⟨handle, confirmed⟩ := exec_spares env spares s.world
      refine quietly handle confirmed ⟨(Option.some_ne_none _).symm, fun confirms => ?_⟩
      exact same (connectedAs_inj (Option.some.inj confirms))
  | confirmLogin name =>
    by_cases same : name = username
    · subst same
      have connected := Int.not_lt.mpr (formed.nonneg present)
      refine orderly.confirm present rfl ?_ ?_
      · exact congrArg (fun t => t.handleOf name) (s.world.table_send env socket _)
      · simp only [exec, World.send]
        rw [if_neg connected]
        exact (World.confirmed_record name _ _).trans (if_pos rfl)
    · have spares : (Action.send socket (connectedAs name)).Spares username :=
        fun equal => same (connectedAs_inj equal)
      obtain ⟨handle, confirmed⟩ := exec_spares env spares s.world
      exact quietly handle confirmed (idle_of_none rfl rfl)
  | failing =>
    apply quietly rfl rfl
    change Idle username ⟨socket, .running last (if _ ≠ [] then handleDisconnect [] socket else _)⟩
    split
    · rw [handleDisconnect_eq]
      exact idle_of_none rfl rfl
    · exact idle_of_none rfl rfl
  | lookName =>
    apply quietly rfl rfl
    dsimp only
    split
    · exact idle_of_none rfl rfl
    · exact idle_of_none rfl rfl
  | dropName name =>
    have idle : Idle username ⟨socket, .running last (.act (.close socket) .done)⟩ := idle_of_none rfl rfl
    by_cases same : name = username
    · subst same
      refine orderly.unregister (subsides_setActivity _ present idle) ?_ ?_ ?_
      · exact fun worker member => (admitted worker member).2 name (advances ▸ rfl)
      · exact (s.world.handleOf_unregisterClient name name).trans (if_pos rfl)
      · exact (World.confirmed_record name (.unregister name) _).trans (if_pos rfl)
    · have spares : (Action.unregisterClient name).Spares username := same
      obtain ⟨handle, confirmed⟩ := exec_spares env spares s.world
      exact quietly handle confirmed idle

theorem step_orderly {label : Env × Move} (formed : s.Formed) (orderly : Orderly username s)
    (admitted : Undisturbed s label) (stepped : step s label = some after)
    (running : after.world.server.status = .running) : Orderly username after := by
  obtain ⟨env, move⟩ := label
  obtain ⟨_, stepped⟩ := step_cases stepped
  cases stepped with
  | accept =>
    refine orderly.keep (fun found => ?_) rfl rfl
    rcases workers_append found with old | ⟨_, rfl⟩
    · exact .inl old
    · exact .inr (idle_of_none rfl rfl)
  | receive reads =>
    exact orderly.keep (subsides_setActivity s.world reads (idle_of_handleMessage _ _)) rfl rfl
  | @receiveFailure i socket reads =>
    have idle : Idle username ⟨socket, .running true (handleReceiveFailure socket)⟩ :=
      idle_of_none rfl rfl
    exact orderly.keep (subsides_setActivity s.world reads idle) rfl rfl
  | perform present => exact orderly.perform formed env present admitted
  | @finish j socket last present =>
    refine orderly.keep (subsides_setActivity s.world present ?_) rfl rfl
    cases last
    · exact idle_of_none rfl rfl
    · exact idle_of_none rfl rfl
  | start => exact orderly.keep .inl rfl rfl
  | finishTask => exact orderly.keep .inl rfl rfl
  | @performTask k β action next present =>
    have unconfirming : action.Unconfirming :=
      (formed.tasks (List.mem_of_getElem? present)).1
    have others : action.Spares username →
        Orderly username { s with
          world := (exec env action s.world).2
          tasks := s.tasks.set k (next (exec env action s.world).1) } := by
      intro spares
      obtain ⟨handle, confirmed⟩ := exec_spares env spares s.world
      exact orderly.keep .inl handle confirmed
    cases action with
    | registerClient => exact unconfirming.elim
    | stop => cases running
    | send number message =>
      apply others
      intro same
      exact unconfirming (same ▸ take_connectedAs username)
    | unregisterClient name =>
      by_cases same : name = username
      · subst same
        have advances := advanced_of_task present
        refine orderly.unregister .inl ?_ ?_ ?_
        · exact fun worker member => (admitted worker member).2 name (advances ▸ rfl)
        · exact (s.world.handleOf_unregisterClient name name).trans (if_pos rfl)
        · exact (World.confirmed_record name (.unregister name) _).trans (if_pos rfl)
      · exact others same
    | _ => exact others trivial

theorem initial_orderly (banlist : Option Str) (username : Str) :
    Orderly username (initial banlist) where
  once := Nat.zero_le _
  stored := fun _ told => absurd told List.not_mem_nil
  entering := by
    intro i worker found
    simp [initial] at found
  confirming := by
    intro i worker found
    simp [initial] at found

/-- However the threads take turns, a name is confirmed to one connection at a
time, the one stored for it, as long as nobody comes between the steps of a login. -/
theorem username_unique {banlist : Option Str} {labels : List (Env × Move)} {s : Threads}
    (run : Run step Undisturbed (initial banlist) labels s)
    (running : s.world.server.status = .running) (username : Str) : s.world.Unique username := by
  have both : s.Formed ∧ (s.world.server.status = .running → Orderly username s) := by
    refine run.invariant (P := fun s => s.Formed ∧
      (s.world.server.status = .running → Orderly username s)) ?_ ?_
    · intro s label after ⟨formed, orderly⟩ admitted stepped
      obtain ⟨env, move⟩ := label
      have before := (step_cases stepped).1
      exact ⟨step_formed formed stepped, step_orderly formed (orderly before) admitted stepped⟩
    · exact ⟨initial_formed banlist, fun _ => initial_orderly banlist username⟩
  have orderly := both.2 running
  exact ⟨orderly.once, fun socket told => handleOf_eq_some.mp (orderly.stored socket told)⟩

/-- Half of a login: up to the check of the name, or from there to the end. -/
def login (i : ConnId) : List Move := [.advance i, .advance i, .advance i]

/-- Two connections that ask for the same name. -/
def contenders : List Move :=
  [.accept 5, .accept 6, .receive 0 (str "CONNECT;ann"), .receive 1 (str "CONNECT;ann")]

theorem username_unique_of_turns : ∃ (labels : List (Env × Move)) (s : Threads),
    Run step Undisturbed (initial none) labels s ∧ s.world.confirmed (str "ann") = [5] ∧
    s.world.Unique (str "ann") := by
  let labels := plainMoves (contenders ++ login 0 ++ login 0 ++ login 1)
  obtain ⟨s, ran, running, told⟩ := evaluated
    (o := execute (guarded (fun s label => decide (Undisturbed s label)) step) (initial none) labels)
    (P := fun s => s.world.server.status = .running ∧ s.world.confirmed (str "ann") = [5])
    (by decide)
  have run := run_of_guarded (fun _ _ => of_decide_eq_true) labels ran
  exact ⟨labels, s, run, told, username_unique run running (str "ann")⟩

/-- Both find the name free before either enters it, and both are told OK. -/
theorem username_not_always_unique : ¬ ∀ (banlist : Option Str) (labels : List (Env × Move))
    (s : Threads), Run step Free (initial banlist) labels s →
    s.world.server.status = .running → ∀ username, s.world.Unique username := by
  intro claimed
  let labels := plainMoves (contenders ++ login 0 ++ login 1 ++ login 0 ++ login 1)
  obtain ⟨s, ran, running, told⟩ := evaluated (o := execute step (initial none) labels)
    (P := fun s => s.world.server.status = .running ∧ s.world.confirmed (str "ann") = [5, 6])
    (by decide)
  have unique := claimed none labels s (execute_run labels ran) running (str "ann")
  have once := unique.once
  rw [told] at once
  exact absurd once (by decide)

end Threads
end SocketMessaging
