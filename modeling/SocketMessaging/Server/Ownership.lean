import SocketMessaging.Server.Interleaving
import SocketMessaging.Server.SessionInvariant

/-! Which connection a handler loop acts on. A loop reads, closes and looks up its
descriptor by number, so it keeps to its own connection only while the number is
not given to another one before the loop has returned and the registry has
forgotten the number. -/
namespace SocketMessaging
open Prog Transition Sessions CommandHandler

/-- From one world to the next names are only forgotten and numbers only freed. -/
structure Releases (w v : World) : Prop where
  handle : ∀ {username : Str} {socket : Fd}, v.table.handleOf username = some socket →
    w.table.handleOf username = some socket
  user : ∀ {socket : Fd} {conn : ConnId}, v.os.user socket = some conn →
    w.os.user socket = some conn
  registrant : v.registrant = w.registrant
  holder : v.os.holder = w.os.holder

namespace Releases

theorem of_table {w v : World} (same : v.table = w.table) : Releases w v where
  handle := fun named => same ▸ named
  user := by
    intro socket conn used
    change v.table.user socket = some conn at used
    rw [same] at used
    exact used
  registrant := congrArg Table.registrant same
  holder := congrArg Table.holder same

theorem trans {w v u : World} (first : Releases w v) (second : Releases v u) : Releases w u where
  handle := fun named => first.handle (second.handle named)
  user := fun used => first.user (second.user used)
  registrant := second.registrant.trans first.registrant
  holder := second.holder.trans first.holder

theorem close (socket : Fd) (w : World) : Releases w (w.close socket) where
  handle := by
    intro username number named
    rw [World.table_close] at named
    exact named
  user := by
    intro number conn used
    simp only [World.close, Function.update_apply] at used
    split_ifs at used
    exact used
  registrant := rfl
  holder := rfl

theorem unregister (username : Str) (w : World) : Releases w (w.unregisterClient username) where
  handle := by
    intro name number named
    rw [World.table_unregisterClient] at named
    exact (Table.handleOf_unregister named).2
  user := id
  registrant := rfl
  holder := rfl

theorem stop (env : Env) (w : World) : Releases w (w.stop env) where
  handle := by
    intro name number named
    simp [World.table, World.stop, World.mapServer] at named
  user := Table.user_of_safe (stop_safe env w)
  registrant := World.stop_keeps (I := fun v => v.registrant = w.registrant) rfl
    (fun _ _ _ same => same) fun _ same => same
  holder := World.stop_keeps (I := fun v => v.os.holder = w.os.holder) rfl
    (fun _ _ _ same => same) fun _ same => same

end Releases

/-- Nothing but a registration adds to the registry. -/
theorem exec_releases (env : Env) {β : Type} {action : Action β} (unconfirming : action.Unconfirming)
    (w : World) : Releases w (exec env action w).2 := by
  cases action with
  | registerClient => exact unconfirming.elim
  | close socket => exact .close socket w
  | unregisterClient username => exact .unregister username w
  | stop => exact .stop env w
  | _ => exact .of_table (exec_quiet env _ w trivial)

/-- No action opens a number. -/
theorem exec_user (env : Env) {β : Type} (action : Action β) (w : World) {socket : Fd}
    {conn : ConnId} (used : (exec env action w).2.os.user socket = some conn) :
    w.os.user socket = some conn := by
  have released : action.Unconfirming → w.os.user socket = some conn :=
    fun unconfirming => (exec_releases env unconfirming w).user used
  cases action with
  | registerClient => exact used
  | send number message => exact (Releases.of_table (w.table_send env number message)).user used
  | _ => exact released trivial

theorem exec_holder (env : Env) {β : Type} (action : Action β) (w : World) :
    (exec env action w).2.os.holder = w.os.holder := by
  have released : action.Unconfirming → (exec env action w).2.os.holder = w.os.holder :=
    fun unconfirming => (exec_releases env unconfirming w).holder
  cases action with
  | registerClient => rfl
  | send number message => exact (Releases.of_table (w.table_send env number message)).holder
  | _ => exact released trivial

theorem run_releases (env : Env) {α : Type} {program : Prog Action α}
    (unconfirming : program.Only Action.Unconfirming) (w : World) :
    Releases w (program.run (exec env) w).2 :=
  unconfirming.keeps (I := Releases w)
    (fun _ v admitted released => released.trans (exec_releases env admitted v)) (.of_table rfl)

namespace Threads

/-- Accepting does not return a number that a loop which has not returned still
reads or that the registry still stores; and no name is registered while a loop
that has looked it up is about to unregister it. -/
def Separate (s : Threads) (label : Env × Move) : Prop :=
  match label.2 with
  | .accept socket => (∀ worker ∈ s.workers, worker.live = true → worker.socket ≠ socket) ∧
      ∀ entry ∈ s.world.server.clients.entries, entry.2.socket ≠ socket
  | move => ∀ worker ∈ s.workers, ∀ username ∈ registering (s.advanced move),
      unregistering worker.rest ≠ some username

instance : DecidableRel Separate
  | _, (_, .accept _) => inferInstanceAs (Decidable (_ ∧ _))
  | _, (_, .receive _ _) | _, (_, .receiveFailure _) | _, (_, .advance _) | _, (_, .start _)
  | _, (_, .advanceTask _) => inferInstanceAs (Decidable (∀ _ ∈ _, _))

/-- Every loop acts on the connection it was started for, or on none. -/
structure OwnConnection (s : Threads) : Prop where
  consumes : ∀ {env : Env} {i : ConnId} {raw : Str} {after : Threads},
    step s (env, .receive i raw) = some after →
    ∃ worker, s.workers[i]? = some worker ∧ s.world.os.user worker.socket = some i
  closes : ∀ {i conn : ConnId} {worker : Worker} {socket : Fd}, s.workers[i]? = some worker →
    closing worker.rest = some socket → s.world.os.user socket = some conn → conn = i
  unregisters : ∀ {i : ConnId} {worker : Worker} {username : Str} {info : ClientInfo},
    s.workers[i]? = some worker → unregistering worker.rest = some username →
    s.world.server.clients.lookup username = some info → s.world.registrant username = some i
  apart : ∀ {i j : ConnId} {first second : Worker}, s.workers[i]? = some first →
    s.workers[j]? = some second → first.live = true → second.live = true →
    first.socket = second.socket → s.world.os.user first.socket ≠ none → i = j

/-- What keeps the loops apart: the number of a live loop was last given to its
own connection, and an entry belongs to the connection that its number was last
given to. -/
structure Owned (s : Threads) : Prop where
  held : ∀ {socket : Fd} {conn : ConnId}, s.world.os.user socket = some conn →
    s.world.os.holder socket = some conn
  loops : ∀ {i : ConnId} {worker : Worker}, s.workers[i]? = some worker → worker.live = true →
    s.world.os.holder worker.socket = some i
  entries : ∀ {username : Str} {socket : Fd}, s.world.table.handleOf username = some socket →
    s.world.registrant username = s.world.os.holder socket
  leaving : ∀ {i : ConnId} {worker : Worker} {username : Str} {socket : Fd},
    s.workers[i]? = some worker → unregistering worker.rest = some username →
    s.world.table.handleOf username = some socket → s.world.registrant username = some i

variable {s after : Threads}

theorem closing_own {socket number : Fd} {rest : Handler} (stage : Stage socket rest)
    (closes : closing rest = some number) : number = socket := by
  cases stage with
  | @common rest only =>
    cases rest with
    | done => cases closes
    | act action next =>
      have confined := only.1.2
      cases action with
      | close other => exact (Option.some.inj closes).symm.trans confined
      | _ => cases closes
  | _ => cases closes

theorem Owned.ownConnection (formed : s.Formed) (owned : s.Owned) : s.OwnConnection where
  consumes := by
    intro env i raw after stepped
    obtain ⟨_, stepped⟩ := step_cases stepped
    cases stepped with
    | receive present used _ =>
      refine ⟨_, present, used.trans ?_⟩
      exact (owned.held used).symm.trans (owned.loops present rfl)
  closes := by
    intro i conn worker socket present closes used
    have own := closing_own (formed.workers present) closes
    have live : worker.live = true := by
      refine live_of_running fun idle => ?_
      rw [idle] at closes
      cases closes
    have same := (owned.held used).symm.trans (own ▸ owned.loops present live)
    exact Option.some.inj same
  unregisters := by
    intro i worker username info present unregisters found
    exact owned.leaving present unregisters (handleOf_eq_some.mpr ⟨info, found, rfl⟩)
  apart := by
    intro i j first second present other live live' same used
    have mine := owned.loops present live
    rw [same, owned.loops other live'] at mine
    exact (Option.some.inj mine).symm

/-- Another thread acts without registering a name. -/
theorem Owned.release (owned : s.Owned) {w : World} (releases : Releases s.world w)
    (tasks : List Handler) : Owned { s with world := w, tasks } where
  held := by
    intro socket conn used
    change w.os.holder socket = some conn
    rw [releases.holder]
    exact owned.held (releases.user used)
  loops := by
    intro i worker present live
    change w.os.holder worker.socket = some i
    rw [releases.holder]
    exact owned.loops present live
  entries := by
    intro username socket named
    change w.registrant username = w.os.holder socket
    rw [releases.registrant, releases.holder]
    exact owned.entries (releases.handle named)
  leaving := by
    intro i worker username socket present unregisters named
    change w.registrant username = some i
    rw [releases.registrant]
    exact owned.leaving present unregisters (releases.handle named)

/-- A loop that is live moves on. -/
theorem Owned.setActivity (owned : s.Owned) {i : ConnId} {old : Worker} {activity : Activity}
    (present : s.workers[i]? = some old) (live : old.live = true)
    (leaving : ∀ {username : Str} {socket : Fd},
      unregistering (Worker.rest ⟨old.socket, activity⟩) = some username →
      s.world.table.handleOf username = some socket → s.world.registrant username = some i) :
    (s.setActivity i activity).Owned where
  held := owned.held
  loops := by
    intro j worker found live'
    rcases workers_cases present found with ⟨same, rfl⟩ | ⟨_, other⟩
    · have own := owned.loops present live
      exact same ▸ own
    · exact owned.loops other live'
  entries := owned.entries
  leaving := by
    intro j worker username socket found unregisters named
    rcases workers_cases present found with ⟨same, rfl⟩ | ⟨_, other⟩
    · exact same ▸ leaving unregisters named
    · exact owned.leaving other unregisters named

/-- What a loop does next is its own affair unless it unregisters a name. -/
theorem Owned.setQuietly (owned : s.Owned) {i : ConnId} {old : Worker} {activity : Activity}
    (present : s.workers[i]? = some old) (live : old.live = true)
    (none : unregistering (Worker.rest ⟨old.socket, activity⟩) = none) :
    (s.setActivity i activity).Owned :=
  owned.setActivity present live fun unregisters =>
    absurd (unregisters.symm.trans none) (Option.some_ne_none _)

/-- A loop registers a name that no other loop is about to unregister. -/
theorem Owned.register (owned : s.Owned) (socket : Fd) (env : Env) {username : Str}
    (alone : ∀ worker ∈ s.workers, unregistering worker.rest ≠ some username) :
    Owned { s with world := s.world.registerClient env username socket } where
  held := owned.held
  loops := owned.loops
  entries := by
    intro name number named
    change (s.world.registerClient env username socket).table.handleOf name = some number at named
    rw [World.handleOf_registerClient] at named
    split_ifs at named with same
    · subst same
      cases named
      exact Function.update_self ..
    · exact (Function.update_of_ne same _ _).trans (owned.entries named)
  leaving := by
    intro j worker name number present unregisters named
    have apart : name ≠ username := by
      rintro rfl
      exact alone worker (List.mem_of_getElem? present) unregisters
    change (s.world.registerClient env username socket).table.handleOf name = some number at named
    rw [World.handleOf_registerClient, if_neg apart] at named
    exact (Function.update_of_ne apart _ _).trans (owned.leaving present unregisters named)

/-- A number is given to a new connection once nobody remembers it. -/
theorem Owned.accept (owned : s.Owned) {socket : Fd}
    (unread : ∀ worker ∈ s.workers, worker.live = true → worker.socket ≠ socket)
    (unstored : ∀ username, s.world.table.handleOf username ≠ some socket) :
    Owned { s with
      world := s.world.accept socket s.workers.length
      workers := s.workers ++ [⟨socket, .receiving⟩] } where
  held := by
    intro number conn used
    simp only [World.accept, Function.update_apply] at used ⊢
    split_ifs at used ⊢
    · exact used
    · exact owned.held used
  loops := by
    intro j worker found live
    rcases workers_append found with old | ⟨rfl, rfl⟩
    · have apart := unread worker (List.mem_of_getElem? old) live
      exact (Function.update_of_ne apart _ _).trans (owned.loops old live)
    · exact Function.update_self ..
  entries := by
    intro username number named
    have apart : number ≠ socket := by
      rintro rfl
      exact unstored username named
    exact (owned.entries named).trans (Function.update_of_ne apart _ _).symm
  leaving := by
    intro j worker username number found unregisters named
    rcases workers_append found with old | ⟨_, rfl⟩
    · exact owned.leaving old unregisters named
    · cases unregisters

theorem unregistering_of_common {socket : Fd} {rest : Handler}
    (only : rest.Only (Action.Common socket)) : unregistering rest = none := by
  cases rest with
  | done => rfl
  | act action next =>
    have confined := only.1.2
    cases action with
    | unregisterClient => exact confined.elim
    | _ => rfl

/-- One action of a handler loop, by the stage of its program. -/
theorem Owned.perform (formed : s.Formed) (owned : s.Owned) {i : ConnId} {socket : Fd} {last : Bool}
    {β : Type} {action : Action β} {next : β → Handler} (env : Env)
    (present : s.workers[i]? = some ⟨socket, .running last (.act action next)⟩)
    (admitted : Separate s (env, .advance i)) :
    ({ s with world := (exec env action s.world).2 }.setActivity i
      (.running last (next (exec env action s.world).1))).Owned := by
  have stage : Stage socket (.act action next) := formed.workers present
  have holder : s.world.os.holder socket = some i := owned.loops present rfl
  -- all but registrations and lookups leave nothing to unregister
  have quietly : ∀ {w : World} {rest : Handler}, Releases s.world w → unregistering rest = none →
      ({ s with world := w }.setActivity i (.running last rest)).Owned := by
    intro w rest releases none
    exact (owned.release releases s.tasks).setQuietly present rfl none
  cases stage with
  | common only =>
    exact quietly (exec_releases env only.1.1 s.world) (unregistering_of_common (only.2 _))
  | checkValid name =>
    apply quietly (.of_table rfl)
    dsimp only
    split <;> rfl
  | checkBanned name =>
    apply quietly (.of_table rfl)
    dsimp only
    split <;> rfl
  | checkTaken name =>
    apply quietly (.of_table rfl)
    dsimp only
    split <;> rfl
  | enterName name =>
    refine (owned.register socket env fun worker member => ?_).setQuietly present rfl rfl
    exact admitted worker member name (advanced_of_worker present ▸ rfl)
  | confirmLogin name =>
    exact quietly (.of_table (s.world.table_send env socket _)) rfl
  | failing =>
    apply quietly (.of_table rfl)
    change unregistering (if _ ≠ [] then handleDisconnect [] socket else .done ()) = none
    rw [handleDisconnect_eq]
    split <;> rfl
  | lookName =>
    refine owned.setActivity present rfl fun {username number} unregisters named => ?_
    -- the name that was found is stored with this number, hence belongs to this connection
    change unregistering (if s.world.server.getUsernameBySocket env socket = [] then .done ()
      else dropName (s.world.server.getUsernameBySocket env socket) socket) = some username
      at unregisters
    split_ifs at unregisters with absent
    · cases unregisters
    · obtain rfl := Option.some.inj unregisters
      rcases getUsernameBySocket_cases env socket s.world with found | ⟨empty, _⟩
      · exact (owned.entries found).trans holder
      · exact absurd empty absent
  | dropName name => exact quietly (.unregister name s.world) rfl

theorem step_owned {label : Env × Move} (formed : s.Formed) (owned : s.Owned)
    (admitted : Separate s label) (stepped : step s label = some after) : after.Owned := by
  obtain ⟨env, move⟩ := label
  obtain ⟨_, stepped⟩ := step_cases stepped
  cases stepped with
  | @accept socket =>
    obtain ⟨unread, unstored⟩ := admitted
    refine owned.accept unread fun username named => ?_
    obtain ⟨info, present, rfl⟩ := handleOf_eq_some.mp named
    exact unstored ⟨username, info⟩ (AList.mem_lookup_iff.mp present) rfl
  | @receive i raw socket conn reads =>
    apply owned.setQuietly reads rfl
    change unregistering (handleMessage raw socket) = none
    rcases handleMessage_cases raw socket with only | ⟨name, same⟩ | same
    · exact unregistering_of_common only
    · rw [same]
      rfl
    · rw [same]
      rfl
  | receiveFailure reads => exact owned.setQuietly reads rfl rfl
  | perform present => exact owned.perform formed env present admitted
  | @finish i socket last present =>
    apply owned.setQuietly present rfl
    cases last
    · rfl
    · rfl
  | start => exact owned.release (.of_table rfl) _
  | performTask present =>
    have unconfirming := (formed.tasks (List.mem_of_getElem? present)).1
    exact owned.release (exec_releases env unconfirming s.world) _
  | finishTask => exact owned.release (.of_table rfl) _

theorem initial_owned (banlist : Option Str) : (initial banlist).Owned where
  held := by
    intro socket conn used
    cases used
  loops := by
    intro i worker found
    simp [initial] at found
  entries := by
    intro username socket named
    simp [initial, System.initial, World.table] at named
  leaving := by
    intro i worker username socket found
    simp [initial] at found

/-- However the threads take turns, each loop keeps to its own connection, as long
as numbers and names are not taken over from a loop that is not done with them. -/
theorem loops_separate {banlist : Option Str} {labels : List (Env × Move)}
    (run : Run step Separate (initial banlist) labels s) : s.OwnConnection := by
  have both : s.Formed ∧ s.Owned := by
    refine run.invariant (P := fun s => s.Formed ∧ s.Owned) ?_ ?_
    · intro s label after ⟨formed, owned⟩ admitted stepped
      exact ⟨step_formed formed stepped, step_owned formed owned admitted stepped⟩
    · exact ⟨initial_formed banlist, initial_owned banlist⟩
  exact both.2.ownConnection both.1

/-- Connection 0 logs in as ann. -/
def annConnects : List Move :=
  [.accept 5, .receive 0 (str "CONNECT;ann"), .advance 0, .advance 0, .advance 0, .advance 0,
   .advance 0, .advance 0]

theorem loops_separate_of_failure : ∃ (labels : List (Env × Move)) (s : Threads),
    Run step Separate (initial none) labels s ∧ s.world.os.user 5 = some 1 ∧ s.OwnConnection := by
  let labels := plainMoves (annConnects ++ [.receiveFailure 0, .advance 0, .advance 0, .advance 0,
    .advance 0, .advance 0, .accept 5])
  obtain ⟨s, ran, used⟩ := evaluated
    (o := execute (guarded (fun s label => decide (Separate s label)) step) (initial none) labels)
    (P := fun s => s.world.os.user 5 = some 1) (by decide)
  have run := run_of_guarded (fun _ _ => of_decide_eq_true) labels ran
  exact ⟨labels, s, run, used, loops_separate run⟩

/-- After a DISCONNECT the loop goes on reading the number, which by then is the
next connection's. -/
theorem loops_not_always_separate : ¬ ∀ (banlist : Option Str) (labels : List (Env × Move))
    (s : Threads), Run step Free (initial banlist) labels s → s.OwnConnection := by
  intro claimed
  let labels := plainMoves (annConnects ++ [.receive 0 (str "DISCONNECT"), .advance 0, .advance 0,
    .advance 0, .advance 0, .accept 5])
  obtain ⟨s, ran, used, socket, checked⟩ := evaluated (o := execute step (initial none) labels)
    (P := fun s => s.world.os.user 5 = some 1 ∧ s.workers[0]?.map Worker.socket = some 5 ∧
      ((step s (.plain, .receive 0 (str "PING"))).any fun _ => True) = true) (by decide)
  obtain ⟨after, stepped, _⟩ := evaluated checked
  obtain ⟨worker, present, own⟩ := (claimed none labels s (execute_run labels ran)).consumes stepped
  rw [present] at socket
  rw [Option.some.inj socket, used] at own
  exact absurd own (by decide)

end Threads
end SocketMessaging
