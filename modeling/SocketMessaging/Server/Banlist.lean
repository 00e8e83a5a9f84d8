import SocketMessaging.Server.BanRaces
import SocketMessaging.Server.Names

/-! The banlist file over restarts. Whatever the file holds at first, the ban set
is what a restart would read from it, between any two actions of the threads. -/
namespace SocketMessaging
open Prog Transition

/-- The set that `loadBanlist` reads from the file is the one in memory. -/
def World.BanlistExact (w : World) : Prop :=
  ∀ username, ((Server.loadBanlist w.os.banlist ∅).lookup username).isSome =
    w.server.isBanned username

namespace Server

/-- Only banned names are read back from the file that is saved. -/
theorem loadBanlist_saveBanlist_iff (env : Env) {banned : StrMap Unit}
    (lines : ∀ {username : Str}, (banned.lookup username).isSome = true →
      username ≠ [] ∧ 10 ∉ username) (username : Str) :
    ((loadBanlist (some (saveBanlist env banned)) ∅).lookup username).isSome =
      (banned.lookup username).isSome := by
  apply Bool.eq_iff_iff.mpr
  constructor
  · intro listed
    obtain ⟨nonempty, content, same, member⟩ := (loadBanlist_iff _ username).mp listed
    have written : ∀ line ∈ (env.visit banned).map Prod.fst, (banned.lookup line).isSome = true := by
      intro line member
      obtain ⟨entry, visited, rfl⟩ := List.mem_map.mp member
      rw [(env.mem_visit banned entry.1 entry.2).mp visited]
      rfl
    have saved : content = ((env.visit banned).map Prod.fst).flatMap fun line => line ++ [10] := by
      rw [← Option.some.inj same, saveBanlist, List.flatMap_map]
    rw [saved, Delimited.splitOn_lines fun line member => (lines (written line member)).2] at member
    rcases List.mem_append.mp member with line | empty
    · exact written username line
    · exact absurd (List.mem_singleton.mp empty) nonempty
  · exact fun present => loadBanlist_saveBanlist env present (lines present)

end Server

section Keeping
variable {w v : World} {env : Env} {username : Str}

theorem World.BanlistExact.line (held : w.BanlistExact)
    (banned : w.server.isBanned username = true) : username ≠ [] ∧ 10 ∉ username :=
  Server.line_of_loadBanlist ((held username).trans banned)

theorem World.BanlistExact.keep (held : w.BanlistExact) (same : v.bans = w.bans) :
    v.BanlistExact := by
  intro username
  have file : v.os.banlist = w.os.banlist := congrArg Prod.snd same
  rw [file, isBanned_of_bans same]
  exact held username

/-- A program that bans valid names only keeps the file in step with the ban set. -/
theorem exec_banlistExact (held : w.BanlistExact) {spoken : Str → Prop} {β : Type}
    {action : Action β} (permitted : action.Permitted Username spoken) : (exec env action w).2.BanlistExact := by
  cases action with
  | banlistAdd username =>
    refine Server.loadBanlist_saveBanlist_iff env fun {name} present => ?_
    by_cases same : name = username
    · exact same ▸ permitted.line
    · rw [AList.lookup_insert_ne same] at present
      exact held.line present
  | banlistRemove username =>
    simp only [exec]
    split
    · refine Server.loadBanlist_saveBanlist_iff env fun {name} present => ?_
      by_cases same : name = username
      · rw [same, AList.lookup_erase] at present
        cases present
      · rw [AList.lookup_erase_ne same] at present
        exact held.line present
    · exact held
  | _ =>
    refine held.keep (exec_sparesBans env ?_ w)
    trivial

end Keeping

namespace Threads
variable {s after : Threads}

/-- A move of some thread, or the end of the process and its next start. -/
inductive Occurrence where
  | move (move : Move)
  | restart

/-- The process may end between any two actions. -/
def stepOrRestart (s : Threads) (label : Env × Occurrence) : Option Threads :=
  match label.2 with
  | .move move => step s (label.1, move)
  | .restart => some (initial s.world.os.banlist)

theorem step_banlistExact {label : Env × Move} (named : s.Named Username AnyTask)
    (held : s.world.BanlistExact) (stepped : step s label = some after) :
    after.world.BanlistExact := by
  obtain ⟨env, move⟩ := label
  obtain ⟨_, stepped⟩ := step_cases stepped
  cases stepped with
  | accept => exact held.keep rfl
  | perform present =>
    obtain ⟨spoken, permitted⟩ := named.permitted (advanced_of_worker present)
    exact exec_banlistExact held permitted
  | performTask present =>
    obtain ⟨spoken, permitted⟩ := named.permitted (advanced_of_task present)
    exact exec_banlistExact held permitted
  | receive | receiveFailure | finish | start | finishTask => exact held

theorem initial_banlistExact (banlist : Option Str) : (initial banlist).world.BanlistExact :=
  fun _ => rfl

/-- A name that is about to enter the ban set is valid. -/
theorem Named.adding (named : s.Named Username AnyTask) {move : Move} {username : Str}
    (adds : SocketMessaging.adding (s.advanced move) = some username) : Username username := by
  cases advances : s.advanced move with
  | done => simp [advances, SocketMessaging.adding] at adds
  | act action next =>
    obtain ⟨spoken, permitted⟩ := named.permitted advances
    rw [advances] at adds
    cases action with
    | banlistAdd name => exact Option.some.inj adds ▸ permitted
    | _ => cases adds

/-- Whatever the banlist file holds when the server is first started, at every
moment of every run with any restarts it is read back as the ban set in memory. -/
theorem banlist_survives_restarts {banlist : Option Str} {labels : List (Env × Occurrence)}
    (run : Run stepOrRestart Free (initial banlist) labels s) :
    s.world.BanlistExact ∧
    (∀ env, ∃ restarted, stepOrRestart s (env, .restart) = some restarted ∧
      ∀ username, restarted.world.server.isBanned username = s.world.server.isBanned username) ∧
    ∀ move username, adding (s.advanced move) = some username → username ≠ [] ∧ 10 ∉ username := by
  have held : s.Named Username AnyTask ∧ s.world.BanlistExact := by
    refine run.invariant (P := fun s => s.Named Username AnyTask ∧ s.world.BanlistExact) ?_
      ⟨initial_named Username AnyTask banlist, initial_banlistExact banlist⟩
    intro s label after ⟨named, held⟩ _ stepped
    obtain ⟨env, occurrence⟩ := label
    cases occurrence with
    | move move =>
      have stepped : step s (env, move) = some after := stepped
      exact ⟨step_valid named stepped, step_banlistExact named held stepped⟩
    | restart =>
      cases stepped
      exact ⟨initial_named Username AnyTask _, initial_banlistExact _⟩
  refine ⟨held.2, fun env => ⟨_, rfl, fun username => held.2 username⟩, fun move username adds => ?_⟩
  exact (held.1.adding adds).line

/-- ann is banned on top of a file with a blank line and no final newline, and the server restarts. -/
theorem banlist_survives_restarts_of_ann : ∃ (labels : List (Env × Occurrence)) (s : Threads),
    Run stepOrRestart Free (initial (some (str "eve\n\nbob"))) labels s ∧
    s.world.os.banlist = some (str "ann\nbob\neve\n") ∧
    s.world.server.isBanned (str "ann") = true ∧ s.world.BanlistExact := by
  let labels := (plainMoves (annConnects ++ startBan (str "/ban ann") ++ [.advanceTask 0])).map
    (fun label => (label.1, Occurrence.move label.2)) ++ [(.plain, .restart)]
  obtain ⟨s, ran, file, banned⟩ := evaluated
    (o := execute stepOrRestart (initial (some (str "eve\n\nbob"))) labels)
    (P := fun s => s.world.os.banlist = some (str "ann\nbob\neve\n") ∧
      s.world.server.isBanned (str "ann") = true) (by decide)
  have run := execute_run labels ran
  exact ⟨labels, s, run, file, banned, (banlist_survives_restarts run).1⟩

end Threads
end SocketMessaging
