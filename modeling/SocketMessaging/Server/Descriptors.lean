import SocketMessaging.Server.SessionInvariant

/-! How often the server closes each connection it accepted. The handler loop
itself never closes, so a connection that holds no name when its peer leaves
stays open; while connections log in once, all the others are closed once. -/
namespace SocketMessaging
open Prog Sessions Sessions.Table CommandHandler Relation

namespace System

/-- Calls of `close` that concern connection `i`. -/
def closes (s : System) (i : ConnId) : Nat := s.world.os.log.countP (Event.closes i)

/-- A loop sees its peer leave only when its own connection holds a name, or has
been closed by the server before. -/
def Departing (s : System) (label : Env × Operation) : Prop :=
  match label.2 with
  | .receiveFailure i => ∀ socket, s.liveLoop i = some socket → s.world.os.user socket = some i →
      ∃ username, s.world.table.handleOf username = some socket
  | _ => True

def Orderly (s : System) (label : Env × Operation) : Prop := SingleLogin s label ∧ Departing s label

/-- The sessions are in order and a connection in use is read by its own loop. -/
structure Placed (s : System) : Prop where
  sound : s.Sound
  sessions : Exclusive s.world.table
  counts : Accounted (· < s.loops.length) s.world.table
  own : ∀ {socket i}, s.world.os.user socket = some i → s.liveLoop i = some socket

theorem liveLoop_endLoop (s : System) (i j : ConnId) :
    (s.endLoop i).liveLoop j = if i = j then none else s.liveLoop j := by
  simp only [liveLoop, endLoop, List.getElem?_modify]
  by_cases same : i = j
  · simp only [same, if_true]
    cases s.loops[j]? <;> rfl
  · simp only [same, if_false]
    cases s.loops[j]? <;> rfl

theorem liveLoop_lt {s : System} {i : ConnId} {socket : Fd} (live : s.liveLoop i = some socket) :
    i < s.loops.length := by
  obtain ⟨inside, _⟩ := List.getElem?_eq_some_iff.mp (liveLoop_eq_some.mp live)
  exact inside

/-- When a loop ends on a connection that holds a name, the number is closed. -/
theorem user_receiveFailure (env : Env) {w : World} (sound : w.Sound) {socket : Fd} {username : Str}
    (named : w.table.handleOf username = some socket) :
    ((handleReceiveFailure socket).run (exec env) w).2.os.user socket = none := by
  rw [handleReceiveFailure_run, handleDisconnect_run]
  have known : w.server.getUsernameBySocket env socket ≠ [] := by
    rcases getUsernameBySocket_cases env socket w with found | ⟨_, absent⟩
    · exact (sound.names found).1.ne_nil
    · exact absurd named (absent username)
  simp only [known, if_false]
  exact Function.update_self ..

theorem initial_accounted (banlist : Option Str) :
    Accounted (· < (initial banlist).loops.length) (initial banlist).world.table where
  known := fun holds => by simp [World.table, initial] at holds
  one := fun used => by simp [World.table, initial] at used
  using_none := fun used => by simp [World.table, initial] at used
  fresh := fun _ => rfl
  gone := fun opened => absurd opened (Nat.not_lt_zero _)

/-- Logging in once is all it takes to keep count of the releases. -/
theorem step_accounted {s after : System} {label : Env × Operation}
    (sessions : Exclusive s.world.table) (counts : Accounted (· < s.loops.length) s.world.table)
    (single : SingleLogin s label) (stepped : step s label = some after) :
    Accounted (· < after.loops.length) after.world.table := by
  obtain ⟨env, operation⟩ := label
  obtain ⟨_, stepped⟩ := step_cases stepped
  by_cases accepts : ∃ socket, operation = .accept socket
  · obtain ⟨socket, rfl⟩ := accepts
    cases stepped with
    | accept _ free =>
      have grown := counts.acquire sessions free (Nat.lt_irrefl s.loops.length)
      have same : (fun i => i < s.loops.length ∨ i = s.loops.length) =
          (· < (s.loops ++ [(⟨socket, true⟩ : Loop)]).length) := by
        funext i
        rw [List.length_append, List.length_singleton, Nat.lt_succ_iff_lt_or_eq]
      exact same ▸ grown
  · have changes := step_safe stepped single (not_exists.mp accepts)
    have kept := accounted_of_safe changes sessions counts
    cases stepped with
    | accept => exact absurd ⟨_, rfl⟩ accepts
    | receiveFailure =>
      rw [endLoop, List.length_modify]
      exact kept
    | receive | dispatch | admin | heartbeat | checkTimeouts => exact kept

theorem initial_placed (banlist : Option Str) : Placed (initial banlist) where
  sound := initial_sound banlist
  sessions := initial_exclusive banlist
  counts := initial_accounted banlist
  own := fun used => by simp [initial] at used

/-- The loop of a new connection reads the number that the connection was given. -/
theorem own_accept {s : System} (own : ∀ {socket i}, s.world.os.user socket = some i →
    s.liveLoop i = some socket) {socket number : Fd} {i : ConnId}
    (used : (s.world.accept socket s.loops.length).os.user number = some i) :
    liveLoop ⟨s.world.accept socket s.loops.length, s.loops ++ [⟨socket, true⟩]⟩ i = some number := by
  rw [liveLoop_eq_some]
  by_cases same : number = socket
  · subst same
    simp only [World.accept, Function.update_self, Option.some.injEq] at used
    subst used
    exact List.getElem?_concat_length
  · simp only [World.accept, Function.update_of_ne same] at used
    have live := own used
    exact (List.getElem?_append_left (liveLoop_lt live)).trans (liveLoop_eq_some.mp live)

theorem step_placed {s after : System} {label : Env × Operation} (placed : s.Placed)
    (orderly : Orderly s label) (stepped : step s label = some after) : after.Placed := by
  refine ⟨step_sound placed.sound stepped, step_exclusive placed.sessions orderly.1 stepped,
    step_accounted placed.sessions placed.counts orderly.1 stepped, fun {number j} used => ?_⟩
  obtain ⟨env, operation⟩ := label
  obtain ⟨_, stepped⟩ := step_cases stepped
  by_cases accepts : ∃ socket, operation = .accept socket
  · obtain ⟨socket, rfl⟩ := accepts
    cases stepped with
    | accept => exact own_accept placed.own used
  · have changes := step_safe stepped orderly.1 (not_exists.mp accepts)
    have before := placed.own (user_of_safe changes used)
    cases stepped with
    | accept => exact absurd ⟨_, rfl⟩ accepts
    | @receiveFailure i socket live =>
      rw [liveLoop_endLoop]
      by_cases same : i = j
      · subst same
        obtain rfl : socket = number := Option.some.inj (live.symm.trans before)
        obtain ⟨username, named⟩ := orderly.2 socket live (user_of_safe changes used)
        have closed := user_receiveFailure env placed.sound.world named
        exact absurd (closed.symm.trans used) (Option.some_ne_none _).symm
      · rw [if_neg same]
        exact before
    | receive | dispatch | admin | heartbeat | checkTimeouts => exact before

theorem run_placed {banlist : Option Str} {labels : List (Env × Operation)} {s : System}
    (run : Transition.Run step Orderly (initial banlist) labels s) : s.Placed :=
  run.invariant (P := Placed) step_placed (initial_placed banlist)

theorem Placed.closes_of_ended {s : System} (placed : s.Placed) {i : ConnId}
    (accepted : i < s.loops.length) (ended : s.liveLoop i = none) : s.closes i = 1 := by
  apply placed.counts.gone accepted
  intro socket used
  exact absurd ((placed.own used).symm.trans ended) (Option.some_ne_none _)

theorem Placed.closes_le_one {s : System} (placed : s.Placed) (i : ConnId) : s.closes i ≤ 1 := by
  by_cases accepted : i < s.loops.length
  · by_cases used : ∃ socket, s.world.os.user socket = some i
    · obtain ⟨socket, used⟩ := used
      have never : s.closes i = 0 := placed.counts.using_none used
      omega
    · exact Nat.le_of_eq (placed.counts.gone accepted (not_exists.mp used))
  · have never : s.closes i = 0 := placed.counts.fresh accepted
    omega

/-- A connection that is open and holds no name is left open by its loop. -/
theorem Placed.closes_of_nameless {s after : System} (placed : s.Placed) {env : Env} {i : ConnId}
    (stepped : step s (env, .receiveFailure i) = some after)
    (nameless : ¬ Departing s (env, .receiveFailure i)) : after.closes i = 0 := by
  obtain ⟨_, stepped⟩ := step_cases stepped
  cases stepped with
  | @receiveFailure _ socket live =>
    simp only [Departing, not_forall, not_exists] at nameless
    obtain ⟨number, reads, used, unnamed⟩ := nameless
    obtain rfl : socket = number := Option.some.inj (live.symm.trans reads)
    have unknown : s.world.server.getUsernameBySocket env socket = [] := by
      rcases getUsernameBySocket_cases env socket s.world with found | ⟨empty, _⟩
      · exact absurd found (unnamed _)
      · exact empty
    have untouched : ((handleReceiveFailure socket).run (exec env) s.world).2 = s.world := by
      rw [handleReceiveFailure_run, handleDisconnect_run]
      simp only [unknown, if_true]
    show ((handleReceiveFailure socket).run (exec env) s.world).2.os.log.countP _ = 0
    rw [untouched]
    exact placed.counts.using_none used

/-- In an orderly run no connection is closed twice and each one whose loop has
returned was closed once; the loop that sees its peer leave out of order leaks. -/
theorem closed_once_iff {banlist : Option Str} {labels : List (Env × Operation)} {s : System}
    (run : Transition.Run step Orderly (initial banlist) labels s) :
    (∀ i, s.closes i ≤ 1) ∧
    (∀ i < s.loops.length, s.liveLoop i = none → s.closes i = 1) ∧
    ∀ (env : Env) (i : ConnId) (after : System), step s (env, .receiveFailure i) = some after →
      (after.closes i = 1 ↔ Departing s (env, .receiveFailure i)) := by
  have placed := run_placed run
  refine ⟨placed.closes_le_one, fun i => placed.closes_of_ended, fun env i after stepped => ?_⟩
  constructor
  · intro once
    by_contra nameless
    rw [placed.closes_of_nameless stepped nameless] at once
    exact absurd once (by decide)
  · intro departing
    have single : SingleLogin s (env, .receiveFailure i) := trivial
    have next := step_placed placed ⟨single, departing⟩ stepped
    obtain ⟨_, stepped⟩ := step_cases stepped
    cases stepped with
    | receiveFailure live =>
      refine next.closes_of_ended ?_ ?_
      · rw [endLoop, List.length_modify]
        exact liveLoop_lt live
      · rw [liveLoop_endLoop, if_pos rfl]

theorem closed_once_of_one_login : ∃ s labels, Transition.Run step Orderly (initial none) labels s ∧
    s.liveLoop 0 = none ∧ s.closes 0 = 1 := by
  let login : Env × Operation := (.plain, .receive 0 (str "CONNECT;ann"))
  obtain ⟨accepted, accepts, once, checked⟩ := Transition.evaluated
    (o := step (initial none) (.plain, .accept 5))
    (P := fun accepted => loginsOnce accepted login = true ∧
      ((step accepted login).any fun connected =>
        connected.liveLoop 0 = some 5 ∧
        connected.world.table.handleOf (str "ann") = some 5 ∧
        ((step connected (.plain, .receiveFailure 0)).any fun gone =>
          gone.loops.length = 1 ∧ gone.liveLoop 0 = none) = true) = true) (by decide)
  obtain ⟨connected, logsIn, live, named, checked⟩ := Transition.evaluated checked
  obtain ⟨gone, leaves, opened, ended⟩ := Transition.evaluated checked
  have single : SingleLogin accepted login := singleLogin_of_loginsOnce _ _ once
  have departing : Departing connected (.plain, .receiveFailure 0) := by
    intro socket reads _
    exact ⟨str "ann", Option.some.inj (live.symm.trans reads) ▸ named⟩
  have run : Transition.Run step Orderly (initial none) [(.plain, .accept 5), login,
      (.plain, .receiveFailure 0)] gone :=
    .next ⟨trivial, trivial⟩ accepts
      (.next ⟨single, trivial⟩ logsIn (.single ⟨trivial, departing⟩ leaves))
  exact ⟨gone, _, run, ended, (closed_once_iff run).2.1 0 (opened ▸ Nat.one_pos) ended⟩

/-- A peer that leaves before it logs in is never closed. -/
theorem not_closed_without_login : ¬ ∀ s, Reachable s → ∀ i < s.loops.length,
    s.liveLoop i = none → s.closes i = 1 := by
  intro claimed
  have ran : ((plainRun [.accept 5, .receiveFailure 0]).map fun s =>
      (s.loops.length, s.liveLoop 0, s.closes 0)) = some (1, none, 0) := by decide
  obtain ⟨s, ran, result⟩ := Option.map_eq_some_iff.mp ran
  simp only [Prod.mk.injEq] at result
  obtain ⟨opened, ended, never⟩ := result
  have once := claimed s (reachable_of_plainRun ran) 0 (opened ▸ Nat.one_pos) ended
  exact absurd (never.symm.trans once) (by decide)

end System
end SocketMessaging
