import SocketMessaging.Client.Events
import SocketMessaging.Library.Rounds

/-! The menu loop of `ClientUI::run` on what the user types. All input is read through
`std::cin`, which stays in error once a read has failed: an index that is not a number
or the end of the input leaves a loop that reads nothing more and never quits. -/
namespace SocketMessaging
open MessageParser

/-- `std::cin`: the characters not read yet, and two of its state bits. -/
structure Input where
  rest : Str
  eof : Bool := false
  fail : Bool := false
  deriving DecidableEq

namespace Input

def good (s : Input) : Bool := !s.eof && !s.fail

/-- `std::getline` into an empty string, which stays empty if the stream is not good. -/
def getline (s : Input) : Str × Input :=
  if s.good then
    let line := s.rest.takeWhile (· ≠ 10)
    match s.rest.dropWhile (· ≠ 10) with
    | [] => (line, { rest := [], eof := true, fail := line.isEmpty })
    | _ :: rest => (line, { s with rest })
  else ([], { s with fail := true })

/-- `cin.get()`, whose result is not used. -/
def get (s : Input) : Input :=
  if s.good then
    match s.rest with
    | [] => { s with eof := true, fail := true }
    | _ :: rest => { s with rest }
  else { s with fail := true }

/-- `cin.ignore()`; the end of the input is no failure here. -/
def ignore (s : Input) : Input :=
  if s.good then
    match s.rest with
    | [] => { s with eof := true }
    | _ :: rest => { s with rest }
  else { s with fail := true }

/-- `cin >> index`. If the stream is not good, or becomes so where the white space is
skipped, the variable keeps what it held. Text that is not a number gives 0, and a number
out of range the nearest `int`. -/
def readInt (held : Int) (s : Input) : Int × Input :=
  if s.good then
    match s.rest.dropWhile isspace with
    | [] => (held, { rest := [], eof := true, fail := true })
    | c :: text =>
      let unsigned := if c = 45 ∨ c = 43 then text else c :: text
      let digits := unsigned.takeWhile isdigit
      let rest := unsigned.dropWhile isdigit
      let value : Int :=
        (if c = 45 then -1 else 1) * (digits.foldl (fun value c => 10 * value + (c.toNat - 48)) 0 : Nat)
      let read := max (-2 ^ 31) (min value (2 ^ 31 - 1))
      (read, { rest, eof := rest.isEmpty, fail := digits.isEmpty || read ≠ value })
  else (held, { s with fail := true })

/-- If the stream is good now then it was before, and has no more characters than then. -/
def Follows (t s : Input) : Prop := t.good = true → s.good = true ∧ t.rest.length ≤ s.rest.length

variable {s t r : Input}

theorem Follows.refl (s : Input) : s.Follows s := fun good => ⟨good, Nat.le_refl _⟩

theorem Follows.trans (second : r.Follows t) (first : t.Follows s) : r.Follows s := by
  intro good
  obtain ⟨between, less⟩ := second good
  obtain ⟨before, more⟩ := first between
  exact ⟨before, Nat.le_trans less more⟩

theorem fail_of_good (good : s.good = true) : s.fail = false := by
  rw [Input.good, Bool.and_eq_true, Bool.not_eq_true', Bool.not_eq_true'] at good
  exact good.2

/-- A line that leaves the stream good has at least its newline. -/
theorem getline_shorter (good : s.getline.2.good = true) :
    s.good = true ∧ s.getline.2.rest.length < s.rest.length := by
  unfold getline at good ⊢
  by_cases before : s.good = true
  · rw [if_pos before] at good ⊢
    refine ⟨before, ?_⟩
    have split := List.takeWhile_append_dropWhile (p := fun c : UInt8 => c ≠ 10) (l := s.rest)
    generalize s.rest.dropWhile _ = after at good split ⊢
    cases after with
    | nil => cases good
    | cons c rest =>
      have length := congrArg List.length split
      rw [List.length_append, List.length_cons] at length
      exact Nat.lt_of_lt_of_eq (Nat.lt_of_lt_of_le (Nat.lt_succ_self _) (Nat.le_add_left _ _)) length
  · rw [if_neg before] at good
    exact absurd (fail_of_good good) Bool.true_eq_false.mp

theorem getline_follows (s : Input) : s.getline.2.Follows s := by
  intro good
  obtain ⟨before, less⟩ := getline_shorter good
  exact ⟨before, Nat.le_of_lt less⟩

theorem get_follows (s : Input) : s.get.Follows s := by
  intro good
  unfold get at good ⊢
  by_cases before : s.good = true
  · rw [if_pos before] at good ⊢
    refine ⟨before, ?_⟩
    cases s.rest with
    | nil => exact Nat.le_refl _
    | cons c rest => exact Nat.le_succ _
  · rw [if_neg before] at good
    exact absurd (fail_of_good good) Bool.true_eq_false.mp

theorem ignore_follows (s : Input) : s.ignore.Follows s := by
  intro good
  unfold ignore at good ⊢
  by_cases before : s.good = true
  · rw [if_pos before] at good ⊢
    refine ⟨before, ?_⟩
    split
    · exact Nat.le_refl _
    · rename_i shape
      rw [shape]
      exact Nat.le_succ _
  · rw [if_neg before] at good
    exact absurd (fail_of_good good) Bool.true_eq_false.mp

theorem readInt_follows (held : Int) (s : Input) : (s.readInt held).2.Follows s := by
  intro good
  unfold readInt at good ⊢
  by_cases before : s.good = true
  · rw [if_pos before] at good ⊢
    refine ⟨before, ?_⟩
    have skipped := (List.dropWhile_sublist isspace (l := s.rest)).length_le
    generalize s.rest.dropWhile isspace = text at good skipped ⊢
    cases text with
    | nil => exact Nat.zero_le _
    | cons c text =>
      have digits := (List.dropWhile_sublist isdigit
        (l := if c = 45 ∨ c = 43 then text else c :: text)).length_le
      have unsigned : (if c = 45 ∨ c = 43 then text else c :: text).length ≤ text.length + 1 := by
        split
        · exact Nat.le_succ _
        · exact Nat.le_refl _
      exact Nat.le_trans digits (Nat.le_trans unsigned skipped)
  · rw [if_neg before] at good
    exact absurd (fail_of_good good) Bool.true_eq_false.mp

/-- Nothing is read from a stream that is not good. -/
theorem getline_bad (bad : s.good = false) : s.getline = ([], { s with fail := true }) :=
  if_neg (bad ▸ Bool.false_ne_true)

theorem get_bad (bad : s.good = false) : s.get = { s with fail := true } :=
  if_neg (bad ▸ Bool.false_ne_true)

end Input

namespace ClientUI

/-- What a round meets that the input does not determine: the value of an uninitialised
`int`, and which indices belong to a message. -/
structure Answers where
  held : Int
  found : Int → Bool

/-- What a command asks of the handler. -/
inductive Request where
  | sendMessage (recipient subject body : Str)
  | replyToMessage (index : Int) (reply : Str)
  | sendCommand (command : Str)
  deriving DecidableEq

/-- What a command reads, and what it asks of the handler. -/
def Command.carryOut (command : Command) (answers : Answers) (s : Input) : Input × List Request :=
  match command with
  | .sendMessage broadcast =>
    let (recipient, s) := if broadcast then (str "all", s) else s.getline
    let (subject, s) := s.getline
    let (body, s) := s.getline
    (s, [.sendMessage recipient subject body])
  | .listUnread => (s, [])
  | .readMessage =>
    let (index, s) := s.readInt answers.held
    let s := s.ignore
    if answers.found index then
      let (action, s) := s.getline
      if action = str "r" ∨ action = str "R" then
        let (reply, s) := s.getline
        (s, if reply = [] then [] else [.replyToMessage index reply])
      else (s, [])
    else (s, [])
  | .listUsers => (s, [.sendCommand (build (str "LIST_USERS") [])])
  | .getLog => (s, [.sendCommand (build (str "GET_LOG") [])])

/-- One round of the loop, `none` if the user quits. -/
def menu (answers : Answers) (s : Input) : Option (Input × List Request) :=
  let (choice, s) := s.getline
  if choice = str "7" then none
  else match commands.lookup choice with
  | some command =>
    let (s, requests) := command.carryOut answers s
    some (s.get, requests)
  | none => some (s.get, [])

def menuRound (answers : Nat → Answers) (n : Nat) (s : Input) : Option Input :=
  (menu (answers n) s).map Prod.fst

variable {answers : Answers} {s t : Input} {requests : List Request}

theorem carryOut_follows (command : Command) (answers : Answers) (s : Input) :
    (command.carryOut answers s).1.Follows s := by
  cases command with
  | sendMessage broadcast =>
    have first : (if broadcast then (str "all", s) else s.getline).2.Follows s := by
      split
      · exact .refl s
      · exact s.getline_follows
    exact ((Input.getline_follows _).trans (Input.getline_follows _)).trans first
  | listUnread | listUsers | getLog => exact .refl s
  | readMessage =>
    have index := (Input.ignore_follows _).trans (s.readInt_follows answers.held)
    simp only [Command.carryOut]
    split
    · split
      · exact ((Input.getline_follows _).trans (Input.getline_follows _)).trans index
      · exact (Input.getline_follows _).trans index
    · exact index

/-- A round that is not the last uses up a line, or the stream is not good any more. -/
theorem menu_shorter (went : menu answers s = some (t, requests)) :
    t.good = false ∨ t.rest.length < s.rest.length := by
  by_contra neither
  obtain ⟨good, more⟩ := not_or.mp neither
  have line : t.Follows s.getline.2 := by
    simp only [menu] at went
    split at went
    · cases went
    · split at went
      · cases went
        exact (Input.get_follows _).trans (carryOut_follows _ _ _)
      · cases went
        exact Input.get_follows _
  obtain ⟨between, less⟩ := line (Bool.not_eq_false _ ▸ good)
  exact more (Nat.lt_of_le_of_lt less (Input.getline_shorter between).2)

/-- On a stream that is not good a round reads nothing and asks for nothing. -/
theorem menu_bad (bad : s.good = false) (answers : Answers) :
    ∃ t, menu answers s = some (t, []) ∧ t.good = false := by
  have failed : ({ s with fail := true } : Input).good = false := by
    rw [Input.good, Bool.not_true, Bool.and_false]
  refine ⟨{ s with fail := true }, ?_, failed⟩
  have unknown : commands.lookup [] = none := rfl
  have stays : [] ≠ str "7" := nofun
  simp only [menu, Input.getline_bad bad, stays, if_false, unknown, Input.get_bad failed]

theorem menu_drains (answers : Nat → Answers) :
    Rounds.Drains (menuRound answers) (fun s => s.rest.length) fun s => s.good = false where
  dead := by
    intro n s bad
    obtain ⟨t, went, bad⟩ := menu_bad bad (answers n)
    exact ⟨t, by rw [menuRound, went, Option.map_some], bad⟩
  less := by
    intro n s t went
    obtain ⟨⟨later, requests⟩, moved, rfl⟩ := Option.map_eq_some_iff.mp went
    exact menu_shorter moved

/-- The user's input decides within as many rounds as it has characters whether the
client disconnects. Otherwise the menu is printed for ever: the stream is in error,
nothing is read and nothing asked of the handler. That is so from the first round that
leaves the stream in error. -/
theorem menu_decided (answers : Nat → Answers) (s : Input) :
    (Rounds.after (menuRound answers) s (s.rest.length + 1) = none ∨
      ∀ m, s.rest.length < m → ∃ t, Rounds.after (menuRound answers) s m = some t ∧
        t.good = false ∧ (menu (answers m) t).map Prod.snd = some []) ∧
    ∀ n t, Rounds.after (menuRound answers) s n = some t → t.good = false →
      ∀ m, n ≤ m → ∃ u, Rounds.after (menuRound answers) s m = some u ∧
        u.good = false ∧ (menu (answers m) u).map Prod.snd = some [] := by
  have idle : ∀ {m t}, Rounds.after (menuRound answers) s m = some t ∧ t.good = false →
      Rounds.after (menuRound answers) s m = some t ∧ t.good = false ∧
        (menu (answers m) t).map Prod.snd = some [] := by
    rintro m t ⟨reached, bad⟩
    obtain ⟨_, went, _⟩ := menu_bad bad (answers m)
    exact ⟨reached, bad, by rw [went, Option.map_some]⟩
  refine ⟨?_, fun n t reached bad m later => ?_⟩
  · rcases (menu_drains answers).decided s with quits | hangs
    · exact .inl quits
    · refine .inr fun m later => ?_
      obtain ⟨t, held⟩ := hangs m later
      exact ⟨t, idle held⟩
  · obtain ⟨u, held⟩ := (menu_drains answers).forever reached bad later
    exact ⟨u, idle held⟩

/-- After an index that is not a number the choice to quit is not read any more. -/
example : (Rounds.after (menuRound fun _ => ⟨0, fun _ => false⟩) ⟨str "3\nx\n7\n", false, false⟩
    1).map Input.good = some false := by decide

end ClientUI
end SocketMessaging
