import SocketMessaging.Server.Footprints
import SocketMessaging.Server.History
import SocketMessaging.Server.Ownership

/-! What an action leaves alone of one connection: that it is open, the frames
written to it, and the names registered for it. -/
namespace SocketMessaging
open Prog

/-- What a write on this connection carries. The connection is taken to lose
nothing, so how many bytes `::send` took at once does not matter. -/
def Event.frameTo (conn : ConnId) : Event → Option Str
  | .send _ user message _ => if user = some conn then some message else none
  | _ => none

/-- The frames written to a connection, in order. -/
def World.framesTo (conn : ConnId) (w : World) : List Str := w.os.log.filterMap (Event.frameTo conn)

/-- No name is stored with this number. -/
def World.Unnamed (socket : Fd) (w : World) : Prop :=
  ∀ entry ∈ w.server.clients.entries, entry.2.socket ≠ socket

theorem unnamed_iff {socket : Fd} {w : World} :
    w.Unnamed socket ↔ ∀ username, w.table.handleOf username ≠ some socket := by
  constructor
  · intro unnamed username named
    obtain ⟨info, present, same⟩ := handleOf_eq_some.mp named
    exact unnamed _ (AList.mem_lookup_iff.mp present) same
  · rintro unnamed ⟨username, info⟩ member same
    exact unnamed username (handleOf_eq_some.mpr ⟨info, AList.mem_lookup_iff.mpr member, same⟩)

/-- The action is not performed on this number, not even for a name that stores it. -/
def Action.Clear (socket : Fd) (w : World) : ∀ {β : Type}, Action β → Prop
  | _, .registerClient _ number => number ≠ socket
  | _, .send number _ => number ≠ socket
  | _, .close number => number ≠ socket
  | _, .pingClients => w.Unnamed socket
  | _, .stop => w.Unnamed socket
  | _, _ => True

/-- The next action of the program is not performed on this number. -/
def Handler.Clears (socket : Fd) (w : World) : Handler → Prop
  | .act action _ => action.Clear socket w
  | .done _ => True

/-- The action neither writes to this connection nor registers a name for it. -/
def Action.Ignores (conn : ConnId) (w : World) : ∀ {β : Type}, Action β → Prop
  | _, .registerClient _ number => w.os.holder number ≠ some conn
  | _, .send number _ => w.os.user number ≠ some conn
  | _, .pingClients => ∀ entry ∈ w.server.clients.entries, w.os.user entry.2.socket ≠ some conn
  | _, _ => True

/-- Nothing has been written to this connection and no name registered for it. -/
structure Unmentioned (conn : ConnId) (w v : World) : Prop where
  frames : v.framesTo conn = w.framesTo conn
  registers : ∀ username, .register username (some conn) ∈ v.os.log ↔
    .register username (some conn) ∈ w.os.log

theorem Unmentioned.refl (conn : ConnId) (w : World) : Unmentioned conn w w :=
  ⟨rfl, fun _ => Iff.rfl⟩

variable {socket : Fd} {conn : ConnId} {w v : World}

theorem World.framesTo_append {events : List Event} (log : v.os.log = w.os.log ++ events) :
    v.framesTo conn = w.framesTo conn ++ events.filterMap (Event.frameTo conn) := by
  rw [framesTo, log, List.filterMap_append]
  rfl

theorem exec_unmentioned (env : Env) {β : Type} {action : Action β} (ignores : action.Ignores conn w) :
    Unmentioned conn w (exec env action w).2 := by
  obtain ⟨events, grown, logged⟩ := exec_log env action w
  have other : ∀ event ∈ events, event.frameTo conn = none ∧
      ∀ username, event ≠ .register username (some conn) := by
    intro event member
    have logs := logged event member
    cases action with
    | registerClient username number =>
      obtain rfl : event = _ := logs
      exact ⟨rfl, fun name same => ignores (Event.register.inj same).2⟩
    | send number message =>
      obtain ⟨taken, rfl⟩ := logs
      exact ⟨if_neg ignores, fun name same => by cases same⟩
    | pingClients =>
      obtain ⟨entry, present, taken, rfl⟩ := logs
      exact ⟨if_neg (ignores entry present), fun name same => by cases same⟩
    | unregisterClient | close =>
      obtain rfl : event = _ := logs
      exact ⟨rfl, fun name same => by cases same⟩
    | stop =>
      obtain ⟨entry, _, rfl⟩ := logs
      exact ⟨rfl, fun name same => by cases same⟩
    | _ => exact logs.elim
  constructor
  · rw [World.framesTo_append grown,
      List.filterMap_eq_nil_iff.mpr fun event member => (other event member).1, List.append_nil]
  · intro username
    rw [grown, List.mem_append]
    exact ⟨fun member => member.resolve_right fun new => (other _ new).2 username rfl, .inl⟩

/-- Only closing changes which connection a number is open for. -/
theorem exec_open (env : Env) {β : Type} {action : Action β} (clear : action.Clear socket w) :
    (exec env action w).2.os.user socket = w.os.user socket := by
  cases action with
  | send number message => exact congrFun (World.user_send env number message w) socket
  | close number => exact Function.update_of_ne (Ne.symm clear) _ _
  | pingClients =>
    have pinged : (w.pingClients env).os.user = w.os.user :=
      World.pingClients_keeps (I := fun v => v.os.user = w.os.user) rfl
        fun entry _ v same => (World.user_send env _ _ v).trans same
    exact congrFun pinged socket
  | stop =>
    refine World.stop_keeps (I := fun v => v.os.user socket = w.os.user socket) rfl ?_
      fun _ same => same
    intro entry member v same
    have other := clear _ (mem_entries_of_visit member)
    exact (Function.update_of_ne (Ne.symm other) _ _).trans same
  | banlistRemove username =>
    simp only [exec]
    split <;> rfl
  | _ => rfl

/-- An action that is not performed on the connection's number ignores the connection. -/
theorem Action.Clear.ignores {β : Type} {action : Action β} (clear : action.Clear socket w)
    (held : ∀ number, w.os.holder number = some conn → number = socket)
    (used : ∀ number, w.os.user number = some conn → number = socket) : action.Ignores conn w := by
  cases action with
  | registerClient username number => exact fun same => clear (held number same)
  | send number message => exact fun same => clear (used number same)
  | pingClients => exact fun entry member same => clear entry member (used _ same)
  | _ => trivial

theorem Action.Misses.clear {β : Type} {action : Action β} (misses : action.Misses socket)
    (unnamed : w.Unnamed socket) : action.Clear socket w := by
  cases action with
  | registerClient | send | close => exact misses
  | pingClients | stop => exact unnamed
  | _ => trivial

/-- A number that no name stores is found by no lookup. -/
theorem exec_hides (env : Env) {β : Type} (action : Action β) (nonneg : 0 ≤ socket)
    (unnamed : w.Unnamed socket) : action.Hides socket (exec env action w).1 := by
  cases action with
  | getUserSocket username =>
    intro same
    change w.server.getUserSocket username = socket at same
    unfold Server.getUserSocket at same
    split at same
    · rename_i info present
      exact unnamed ⟨username, info⟩ (AList.mem_lookup_iff.mp present) same
    · rw [← same] at nonneg
      exact absurd nonneg (by decide)
  | getAllClients =>
    intro entry member
    obtain ⟨name, _, found⟩ := List.mem_filterMap.mp member
    obtain ⟨info, present, rfl⟩ := Option.map_eq_some_iff.mp found
    exact unnamed ⟨name, info⟩ (AList.mem_lookup_iff.mp present)
  | _ => trivial

theorem exec_unnamed (env : Env) {β : Type} {action : Action β} (misses : action.Misses socket)
    (unnamed : w.Unnamed socket) : (exec env action w).2.Unnamed socket := by
  rw [unnamed_iff] at unnamed ⊢
  intro username named
  have released : action.Unconfirming → w.table.handleOf username = some socket :=
    fun unconfirming => (exec_releases env unconfirming w).handle named
  cases action with
  | registerClient name number =>
    rw [exec, World.handleOf_registerClient] at named
    split_ifs at named
    · exact misses (Option.some.inj named)
    · exact unnamed username named
  | send number message => exact unnamed username (w.table_send env number message ▸ named)
  | _ => exact unnamed username (released trivial)

namespace Threads
variable {s after : Threads} {env : Env}

/-- Which connection a number belongs to. Every loop acts on its own number, a
number belongs to the connection it was last given to, and a connection that is
still to come has not been written to. -/
structure Tracked (s : Threads) : Prop where
  own : ∀ {i : ConnId} {worker : Worker}, s.workers[i]? = some worker →
    worker.rest.Only (Action.OfLoop worker.socket)
  held : ∀ {number : Fd} {conn : ConnId}, s.world.os.user number = some conn →
    s.world.os.holder number = some conn
  given : ∀ {number : Fd} {conn : ConnId}, s.world.os.holder number = some conn →
    ∃ worker, s.workers[conn]? = some worker ∧ worker.socket = number
  future : ∀ {conn : ConnId}, s.workers.length ≤ conn → s.world.framesTo conn = [] ∧
    ∀ username, .register username (some conn) ∉ s.world.os.log

theorem Tracked.absent (tracked : s.Tracked) {conn : ConnId} (future : s.workers.length ≤ conn)
    (number : Fd) : s.world.os.holder number ≠ some conn := by
  intro held
  obtain ⟨worker, present, _⟩ := tracked.given held
  exact absurd (List.getElem?_eq_some_iff.mp present).1 (Nat.not_lt_of_le future)

theorem Tracked.number (tracked : s.Tracked) {conn : ConnId} {worker : Worker} {number : Fd}
    (present : s.workers[conn]? = some worker) (held : s.world.os.holder number = some conn) :
    number = worker.socket := by
  obtain ⟨other, found, rfl⟩ := tracked.given held
  exact congrArg Worker.socket (Option.some.inj (found.symm.trans present))

theorem Tracked.exec (tracked : s.Tracked) (env : Env) {β : Type} (action : Action β) :
    Tracked { s with world := (exec env action s.world).2 } where
  own := tracked.own
  held := by
    intro number conn used
    rw [exec_holder]
    exact tracked.held (exec_user env action s.world used)
  given := by
    intro number conn held
    rw [exec_holder] at held
    exact tracked.given held
  future := by
    intro conn future
    have absent := tracked.absent future
    have free : ∀ number, s.world.os.user number ≠ some conn :=
      fun number used => absent number (tracked.held used)
    have ignores : action.Ignores conn s.world := by
      cases action with
      | registerClient username number => exact absent number
      | send number message => exact free number
      | pingClients => exact fun entry _ => free _
      | _ => trivial
    obtain ⟨silent, unregistered⟩ := tracked.future future
    have same := exec_unmentioned env ignores
    refine ⟨same.frames.trans silent, fun username member => ?_⟩
    exact unregistered username ((same.registers username).mp member)

theorem Tracked.setActivity (tracked : s.Tracked) {i : ConnId} {old : Worker} {activity : Activity}
    (present : s.workers[i]? = some old)
    (own : (Worker.rest ⟨old.socket, activity⟩).Only (Action.OfLoop old.socket)) :
    (s.setActivity i activity).Tracked where
  own := by
    intro j worker found
    rcases workers_cases present found with ⟨_, rfl⟩ | ⟨_, other⟩
    · exact own
    · exact tracked.own other
  held := tracked.held
  given := by
    intro number conn held
    obtain ⟨worker, found, rfl⟩ := tracked.given held
    by_cases same : conn = i
    · subst same
      obtain rfl := Option.some.inj (present.symm.trans found)
      exact ⟨_, workers_setActivity activity present, rfl⟩
    · refine ⟨worker, ?_, rfl⟩
      rw [Threads.setActivity, List.getElem?_modify_ne _ _ (Ne.symm same)]
      exact found
  future := by
    intro conn future
    rw [Threads.setActivity, List.length_modify] at future
    exact tracked.future future

theorem Tracked.accept (tracked : s.Tracked) (socket : Fd) :
    Tracked { s with
      world := s.world.accept socket s.workers.length
      workers := s.workers ++ [⟨socket, .receiving⟩] } where
  own := by
    intro i worker found
    rcases workers_append found with old | ⟨_, rfl⟩
    · exact tracked.own old
    · trivial
  held := by
    intro number conn used
    simp only [World.accept, Function.update_apply] at used ⊢
    split_ifs at used ⊢
    · exact used
    · exact tracked.held used
  given := by
    intro number conn held
    simp only [World.accept, Function.update_apply] at held
    split_ifs at held with same
    · obtain rfl := Option.some.inj held
      exact ⟨_, List.getElem?_concat_length, same.symm⟩
    · obtain ⟨worker, present, rfl⟩ := tracked.given held
      exact ⟨worker, List.getElem?_append_left (List.getElem?_eq_some_iff.mp present).1 ▸ present, rfl⟩
  future := by
    intro conn future
    rw [List.length_append] at future
    exact tracked.future (Nat.le_of_add_right_le future)

theorem step_tracked {label : Env × Move} (tracked : s.Tracked) (stepped : step s label = some after) :
    after.Tracked := by
  obtain ⟨env, move⟩ := label
  cases (step_cases stepped).2 with
  | accept => exact tracked.accept _
  | receive reads => exact tracked.setActivity reads (CommandHandler.handleMessage_ofLoop _ _)
  | receiveFailure reads => exact tracked.setActivity reads (CommandHandler.handleReceiveFailure_ofLoop _)
  | perform present => exact (tracked.exec env _).setActivity present ((tracked.own present).2 _)
  | @finish i socket last present =>
    apply tracked.setActivity present
    cases last <;> trivial
  | @performTask k β action next present =>
    have moved := tracked.exec env action
    exact ⟨moved.own, moved.held, moved.given, moved.future⟩
  | start | finishTask => exact ⟨tracked.own, tracked.held, tracked.given, tracked.future⟩

/-- What a move adds to the log is what the action it carries out logs. -/
theorem step_log {move : Move} (stepped : Stepped env s move after) :
    ∃ events, after.world.os.log = s.world.os.log ++ events ∧ ∀ event ∈ events,
      ∃ (β : Type) (action : Action β) (next : β → Handler),
        s.advanced move = .act action next ∧ action.Logs s.world event := by
  cases stepped with
  | perform found =>
    obtain ⟨events, grown, logged⟩ := exec_log env _ s.world
    exact ⟨events, grown, fun event member =>
      ⟨_, _, _, advanced_of_worker found, logged event member⟩⟩
  | performTask found =>
    obtain ⟨events, grown, logged⟩ := exec_log env _ s.world
    exact ⟨events, grown, fun event member =>
      ⟨_, _, _, advanced_of_task found, logged event member⟩⟩
  | _ => exact ⟨[], (List.append_nil _).symm, fun _ member => absurd member List.not_mem_nil⟩

theorem initial_tracked (banlist : Option Str) : (initial banlist).Tracked where
  own := by
    intro i worker found
    simp [initial] at found
  held := by
    intro number conn used
    cases used
  given := by
    intro number conn held
    cases held
  future := fun _ => ⟨rfl, fun username member => absurd member List.not_mem_nil⟩

end Threads
end SocketMessaging
