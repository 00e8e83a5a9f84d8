import SocketMessaging.Server.Untouched

/-! A number that only its own loop can reach. All other threads find the numbers
they act on by looking up names, so none of them comes to a number without a name. -/
namespace SocketMessaging
open Prog Transition

/-- The loop that carries out the action of a move. -/
def Move.loop : Move → Option ConnId
  | .receive i _ | .receiveFailure i | .advance i => some i
  | _ => none

namespace Threads
variable {s after : Threads} {env : Env} {move : Move} {socket : Fd} {conn : ConnId}

/-- The number is open for this connection, and no other loop reads it. -/
structure Private (socket : Fd) (conn : ConnId) (s : Threads) : Prop where
  nonneg : 0 ≤ socket
  user : s.world.os.user socket = some conn
  unread : ∀ {i : ConnId} {worker : Worker}, s.workers[i]? = some worker → worker.live = true →
    i ≠ conn → worker.socket ≠ socket
  silent : s.world.framesTo conn = []

/-- Moreover nobody else can come to act on the number. -/
structure Hidden (socket : Fd) (conn : ConnId) (s : Threads) : Prop extends Private socket conn s where
  unnamed : s.world.Unnamed socket
  avoided : ∀ task ∈ s.tasks, Handler.Avoids socket task
  unregistered : ∀ username, .register username (some conn) ∉ s.world.os.log

theorem workers_other {i j : ConnId} (apart : j ≠ i) (activity : Activity) :
    (s.setActivity i activity).workers[j]? = s.workers[j]? := by
  rw [setActivity, List.getElem?_modify_ne _ _ (Ne.symm apart)]

theorem Private.world (alone : Private socket conn s) {w : World}
    (user : w.os.user socket = s.world.os.user socket)
    (frames : w.framesTo conn = s.world.framesTo conn) : Private socket conn { s with world := w } :=
  ⟨alone.nonneg, user.trans alone.user, alone.unread, frames.trans alone.silent⟩

theorem Private.setActivity (alone : Private socket conn s) {i : ConnId} {old : Worker}
    (present : s.workers[i]? = some old) (live : old.live = true) (activity : Activity) :
    Private socket conn (s.setActivity i activity) where
  nonneg := alone.nonneg
  user := alone.user
  unread := by
    intro j worker found stillLive apart
    rcases workers_cases present found with ⟨rfl, rfl⟩ | ⟨_, old⟩
    · have kept := alone.unread present live apart
      exact kept
    · exact alone.unread old stillLive apart
  silent := alone.silent

/-- An action of anybody else that is not performed on the number. -/
theorem Private.exec (tracked : s.Tracked) (alone : Private socket conn s) {own : Worker}
    (present : s.workers[conn]? = some own) (number : own.socket = socket) (env : Env) {β : Type}
    {action : Action β} (clear : action.Clear socket s.world) :
    Private socket conn { s with world := (exec env action s.world).2 } ∧
      Unmentioned conn s.world (exec env action s.world).2 := by
  have held : ∀ other, s.world.os.holder other = some conn → other = socket :=
    fun other held => (tracked.number present held).trans number
  have ignored := exec_unmentioned env (clear.ignores held fun other used => held other (tracked.held used))
  exact ⟨alone.world (exec_open env clear) ignored.frames, ignored⟩

/-- A move of anybody else that is not performed on the number. -/
theorem Private.step (tracked : s.Tracked) (alone : Private socket conn s) {own : Worker}
    (present : s.workers[conn]? = some own) (number : own.socket = socket)
    (stepped : Stepped env s move after) (other : move.loop ≠ some conn)
    (clears : Handler.Clears socket s.world (s.advanced move)) :
    Private socket conn after ∧ after.workers[conn]? = some own ∧
      Unmentioned conn s.world after.world := by
  have apart : ∀ {i : ConnId}, move.loop = some i → conn ≠ i := by
    rintro i moves rfl
    exact other moves
  cases stepped with
  | @accept fresh nonneg free =>
    have apart : fresh ≠ socket := by
      rintro rfl
      exact Option.some_ne_none _ (alone.user.symm.trans free)
    have inside := (List.getElem?_eq_some_iff.mp present).1
    refine ⟨⟨alone.nonneg, ?_, ?_, alone.silent⟩, ?_, rfl, fun _ => Iff.rfl⟩
    · exact (Function.update_of_ne (Ne.symm apart) _ _).trans alone.user
    · intro i worker found live others
      rcases workers_append found with old | ⟨_, rfl⟩
      · exact alone.unread old live others
      · exact apart
    · exact (List.getElem?_append_left inside).trans present
  | receive reads =>
    exact ⟨alone.setActivity reads rfl _, (workers_other (apart rfl) _).trans present, .refl conn _⟩
  | receiveFailure reads =>
    exact ⟨alone.setActivity reads rfl _, (workers_other (apart rfl) _).trans present, .refl conn _⟩
  | perform found =>
    rw [advanced_of_worker found] at clears
    obtain ⟨kept, ignored⟩ := alone.exec tracked present number env clears
    exact ⟨kept.setActivity found rfl _, (workers_other (apart rfl) _).trans present, ignored⟩
  | finish found =>
    exact ⟨alone.setActivity found rfl _, (workers_other (apart rfl) _).trans present, .refl conn _⟩
  | performTask found =>
    rw [advanced_of_task found] at clears
    obtain ⟨kept, ignored⟩ := alone.exec tracked present number env clears
    exact ⟨⟨kept.nonneg, kept.user, kept.unread, kept.silent⟩, present, ignored⟩
  | start | finishTask =>
    exact ⟨⟨alone.nonneg, alone.user, alone.unread, alone.silent⟩, present, .refl conn _⟩

/-- While the number is hidden nobody else acts on it. -/
theorem Hidden.misses (tracked : s.Tracked) (hidden : Hidden socket conn s) {β : Type}
    {action : Action β} {next : β → Handler} (other : move.loop ≠ some conn)
    (advances : s.advanced move = .act action next) : action.Misses socket := by
  rcases performer advances with ⟨i, worker, rfl, found, busy⟩ | ⟨k, rfl, found⟩
  · have apart : i ≠ conn := fun same => other (same ▸ rfl)
    have live : worker.live = true := live_of_running fun idle => by cases busy.symm.trans idle
    have own := tracked.own found
    rw [busy] at own
    exact own.1.misses (hidden.unread found live apart)
  · exact (hidden.avoided _ (List.mem_of_getElem? found)).1

theorem Hidden.clears (tracked : s.Tracked) (hidden : Hidden socket conn s)
    (other : move.loop ≠ some conn) : Handler.Clears socket s.world (s.advanced move) := by
  cases advances : s.advanced move with
  | done => trivial
  | act action next => exact (hidden.misses tracked other advances).clear hidden.unnamed

/-- A loop that looks up its own number while it is hidden finds no name. -/
theorem Hidden.nameless (hidden : Hidden socket conn s) (env : Env) :
    s.world.server.getUsernameBySocket env socket = [] := by
  rcases getUsernameBySocket_cases env socket s.world with named | ⟨empty, _⟩
  · exact absurd named (unnamed_iff.mp hidden.unnamed _)
  · exact empty

/-- The connection's own loop moves on. -/
theorem Private.setOwn (alone : Private socket conn s) (activity : Activity) :
    Private socket conn (s.setActivity conn activity) where
  nonneg := alone.nonneg
  user := alone.user
  unread := by
    intro i worker found live apart
    rw [workers_other apart] at found
    exact alone.unread found live apart
  silent := alone.silent

theorem Hidden.setOwn (hidden : Hidden socket conn s) (activity : Activity) :
    Hidden socket conn (s.setActivity conn activity) where
  toPrivate := hidden.toPrivate.setOwn activity
  unnamed := hidden.unnamed
  avoided := hidden.avoided
  unregistered := hidden.unregistered

/-- A number that is hidden stays so while others move. -/
theorem Hidden.step (tracked : s.Tracked) (hidden : Hidden socket conn s) {own : Worker}
    (present : s.workers[conn]? = some own) (number : own.socket = socket)
    (stepped : Stepped env s move after) (other : move.loop ≠ some conn) :
    Hidden socket conn after ∧ after.workers[conn]? = some own := by
  obtain ⟨alone, kept, ignored⟩ := hidden.toPrivate.step tracked present number stepped other
    (hidden.clears tracked other)
  have unregistered : ∀ username, .register username (some conn) ∉ after.world.os.log :=
    fun username member => hidden.unregistered username ((ignored.registers username).mp member)
  have missed : ∀ {β : Type} {action : Action β} {next : β → Handler},
      s.advanced move = .act action next → action.Misses socket := hidden.misses tracked other
  refine ⟨⟨alone, ?_, ?_, unregistered⟩, kept⟩
  · cases stepped with
    | perform found => exact exec_unnamed env (missed (advanced_of_worker found)) hidden.unnamed
    | performTask found => exact exec_unnamed env (missed (advanced_of_task found)) hidden.unnamed
    | _ => exact hidden.unnamed
  · cases stepped with
    | @start task =>
      intro program member
      rcases List.mem_append.mp member with old | new
      · exact hidden.avoided program old
      · exact List.mem_singleton.mp new ▸ task.program_avoids
    | performTask found =>
      intro program member
      rcases List.mem_or_eq_of_mem_set member with old | rfl
      · exact hidden.avoided program old
      · have avoids := hidden.avoided _ (List.mem_of_getElem? found)
        exact avoids.2 _ (exec_hides env _ hidden.nonneg hidden.unnamed)
    | finishTask =>
      exact fun program member => hidden.avoided program (List.mem_of_mem_eraseIdx member)
    | _ => exact hidden.avoided

end Threads
end SocketMessaging
