import SocketMessaging.Server.Refinement

/-! Whole runs of the server as runs of the mail exchange, and what follows for what
the kernel takes for each connection: its letters in the order in which the server
accepted them, each at most once, and among them the administrator's announcements. -/
namespace SocketMessaging
open Prog Transition Utils MessageParser CommandHandler Dispatcher Sessions

section Settling
variable {env : Env} {w v : World} {mail : Mail} {message : Message} {rest : List Message}

theorem framesTaken_reply {socket : Fd} (connected : 0 ≤ socket) (env : Env) (frame : Str)
    (w : World) (conn : ConnId) : (w.reply env socket frame).framesTaken conn = w.framesTaken conn ++
      if w.os.user socket = some conn ∧ (w.transferred env socket frame).isSome = true then [frame]
      else [] := by
  rw [World.framesTaken_append (w.log_reply connected env frame)]
  congr 1
  cases w.transferred env socket frame with
  | none => simp [Event.takenFor]
  | some count =>
    by_cases own : w.os.user socket = some conn
    · simp [Event.takenFor, own]
    · simp [Event.takenFor, own]

/-- The front of the queue is settled on both sides. -/
theorem Carried.settle (carried : Carried mail w) (fate : Fate ConnId) (owner : v.owner = w.owner)
    (queue : v.queue = rest)
    (frames : ∀ conn, (v.framesTaken conn).filterMap messageTexts =
      (w.framesTaken conn).filterMap messageTexts ++
        if fate = .delivered conn then [message.texts] else [])
    (sent : v.server.totalMessagesSent =
      w.server.totalMessagesSent + if fate.arrived then 1 else 0) :
    Carried (mail.settle message rest fate) v := by
  have same : (mail.settle message rest fate).online = mail.online ∧
      (mail.settle message rest fate).queue = rest ∧
      (mail.settle message rest fate).settled = mail.settled ++ [(message, fate)] := by
    cases fate <;> exact ⟨rfl, rfl, rfl⟩
  obtain ⟨online, left, settled⟩ := same
  refine ⟨⟨?_, fun conn => ?_⟩, left.trans queue.symm, ?_⟩
  · rw [online, owner]
    exact carried.carries.online
  · rw [Exchange.boxes_settle, List.filterMap_append, carried.carries.boxes, frames]
    split <;> rfl
  · rw [settled, List.countP_append, sent, carried.sent, List.countP_singleton]

theorem owner_of_handleOf {username : Str} {socket : Fd} (sessions : w.table.Exclusive)
    (named : w.table.handleOf username = some socket) :
    ∃ conn, w.os.user socket = some conn ∧ w.owner username = some conn := by
  obtain ⟨conn, used, registered⟩ := sessions.live named
  refine ⟨conn, used, ?_⟩
  rw [World.owner, named]
  exact registered

/-- A round of the dispatcher settles one letter of the exchange. -/
theorem dispatch_followed (sound : w.Sound) (sessions : w.table.Exclusive)
    (opened : ∀ {socket conn}, w.os.user socket = some conn → socket ≠ 0) (clean : message.Clean)
    (front : w.queue = message :: rest) (carried : Carried mail w) :
    ∃ after, Run (Exchange.step Message.recipient) Free mail
        [.settle (w.transferred env (w.server.getUserSocket message.recipient)
          (formattedMessage message)).isSome] after ∧
      Carried after ((deliver message).run (exec env) (w.setQueue rest)).2 := by
  have queue : mail.queue = message :: rest := carried.queue.trans front
  have enabled : ∀ arrives, Exchange.step Message.recipient mail (.settle arrives) =
      some (mail.settle message rest (mail.fate Message.recipient arrives message)) := by
    intro arrives
    simp only [Exchange.step, queue]
  refine ⟨_, .single trivial (enabled _), ?_⟩
  have online : mail.online message.recipient = w.owner message.recipient :=
    congrFun carried.carries.online _
  have same : ∀ name, (w.setQueue rest).server.getUserSocket name =
      w.server.getUserSocket name := fun _ => rfl
  rw [deliver_run]
  simp only [same]
  by_cases absent : w.server.getUserSocket message.recipient ≤ 0
  · -- Nobody is logged in, since 0 is no connection's number.
    have nobody : w.table.handleOf message.recipient = none := by
      cases named : w.table.handleOf message.recipient with
      | none => rfl
      | some socket =>
        obtain ⟨conn, used, _⟩ := owner_of_handleOf sessions named
        have stored : w.server.getUserSocket message.recipient = socket := by
          rw [getUserSocket_eq, named]
          rfl
        have positive : socket ≠ 0 := opened used
        exact absurd (Int.le_antisymm (stored ▸ absent) (sound.names named).2) positive
    have returned : ∀ arrives, mail.fate Message.recipient arrives message = .returned := by
      intro arrives
      rw [Exchange.fate, online, World.owner, nobody]
      rfl
    rw [returned, if_pos absent]
    split_ifs with reachable
    · refine carried.settle .returned ?_ ?_ (fun conn => ?_) ?_
      · rw [World.owner_of_table (World.table_reply env _ _ _)]
        rfl
      · rw [World.queue_reply, World.queue_setQueue]
      · have plain : messageTexts (undeliverable message) = none :=
          messageTexts_of_plain (plain_error _)
        rw [framesTaken_reply (Int.le_of_lt reachable), List.filterMap_append]
        congr 1
        split <;> simp [plain]
      · rw [World.server_reply]
        rfl
    · exact carried.settle .returned rfl rfl (fun conn => (List.append_nil _).symm) rfl
  · have present := Int.not_le.mp absent
    obtain ⟨conn, used, owned⟩ := owner_of_handleOf sessions (handleOf_of_getUserSocket present)
    have frames := framesTaken_reply (Int.le_of_lt present) env (formattedMessage message)
      (w.setQueue rest)
    have still : ((w.setQueue rest).reply env (w.server.getUserSocket message.recipient)
        (formattedMessage message)).owner = w.owner := by
      rw [World.owner_of_table (World.table_reply env _ _ _)]
      rfl
    have transferred : (w.setQueue rest).transferred env (w.server.getUserSocket message.recipient)
        (formattedMessage message) = w.transferred env (w.server.getUserSocket message.recipient)
          (formattedMessage message) := rfl
    have user : (w.setQueue rest).os.user = w.os.user := rfl
    rw [if_neg absent, transferred, Exchange.fate, online, owned]
    simp only [transferred, user, used, Option.some.injEq] at frames
    by_cases arrives : (w.transferred env (w.server.getUserSocket message.recipient)
        (formattedMessage message)).isSome = true
    · simp only [arrives, if_true, and_true] at frames ⊢
      refine carried.settle (.delivered conn) still (World.queue_reply ..) (fun other => ?_) ?_
      · change (((w.setQueue rest).reply env _ _).framesTaken other).filterMap _ = _
        rw [frames, List.filterMap_append]
        congr 1
        simp only [Fate.delivered.injEq]
        split
        · rw [List.filterMap_cons, clean.texts_eq]
          rfl
        · rfl
      · change ((w.setQueue rest).reply env _ _).server.totalMessagesSent + 1 = _
        rw [World.server_reply]
        rfl
    · simp only [arrives, if_false, and_false, Bool.false_eq_true] at frames ⊢
      refine carried.settle (.lost conn) still (World.queue_reply ..) (fun other => ?_) ?_
      · rw [frames]
        simp only [reduceCtorEq, if_false, List.append_nil]
        rfl
      · rw [World.server_reply]
        rfl

end Settling

namespace System
variable {s after : System} {env : Env} {operation : Operation}

/-- Connections log in once, and none is given the number 0, as is so while the
process keeps its standard input. -/
def Regular (s : System) (label : Env × Operation) : Prop :=
  SingleLogin s label ∧ label.2 ≠ .accept 0

/-- What the refinement needs of a state. -/
structure Regulated (s : System) : Prop where
  sound : s.Sound
  sessions : s.world.table.Exclusive
  opened : ∀ {socket conn}, s.world.os.user socket = some conn → socket ≠ 0
  clean : ∀ message ∈ s.world.queue, message.Clean

theorem step_serves (regulated : s.Regulated) (stepped : Stepped env s operation after)
    (apart : operation ≠ .dispatch) : Serves s.world after.world := by
  cases stepped with
  | accept => exact ⟨⟨[], (List.append_nil _).symm, trivial⟩, ⟨[], (List.append_nil _).symm, nofun⟩, rfl⟩
  | receive live used =>
    exact handleMessage_serves env _ regulated.sound.world (regulated.sound.nonneg live)
      (regulated.sessions.held used)
  | receiveFailure => exact .of_aside env (handleReceiveFailure_aside _) s.world
  | dispatch => exact absurd rfl apart
  | admin => exact .of_aside env (commandLine_aside _) s.world
  | heartbeat =>
    have aside : (perform Action.pingClients).Only Action.Aside := ⟨trivial, fun _ => trivial⟩
    exact .of_aside env aside s.world
  | checkTimeouts => exact .of_aside env checkClientTimeouts_aside s.world

theorem step_tracked (stepped : Stepped env s operation after)
    (running : after.world.server.status = .running) : ∃ events,
      after.world.os.log = s.world.os.log ++ events ∧
      after.world.owner = events.foldl Event.track s.world.owner := by
  cases stepped with
  | accept => exact ⟨[], (List.append_nil _).symm, rfl⟩
  | _ => exact run_track env _ s.world running

theorem step_regulated {label : Env × Operation} (regulated : s.Regulated)
    (regular : Regular s label) (stepped : step s label = some after) : after.Regulated where
  sound := step_sound regulated.sound stepped
  sessions := step_exclusive regulated.sessions regular.1 stepped
  opened := by
    obtain ⟨env, operation⟩ := label
    obtain ⟨_, stepped⟩ := step_cases stepped
    intro socket conn used
    by_cases accepts : ∃ number, operation = .accept number
    · obtain ⟨number, rfl⟩ := accepts
      cases stepped with
      | accept nonneg free =>
        change Function.update s.world.os.user number _ socket = some conn at used
        by_cases same : socket = number
        · subst same
          exact fun zero => regular.2 (congrArg Operation.accept zero)
        · rw [Function.update_of_ne same] at used
          exact regulated.opened used
    · have safe := step_safe stepped regular.1 (not_exists.mp accepts)
      exact regulated.opened (Table.user_of_safe safe used)
  clean := by
    obtain ⟨env, operation⟩ := label
    obtain ⟨_, taken⟩ := step_cases stepped
    by_cases dispatches : operation = .dispatch
    · subst dispatches
      obtain ⟨message, rest, front⟩ : ∃ message rest, s.world.queue = message :: rest := by
        cases taken with
        | dispatch waiting => exact List.exists_cons_of_ne_nil waiting
      have left : after.world.queue = rest := by
        rw [dispatch_world front stepped, deliver_run]
        dsimp only
        split_ifs <;> first | exact World.queue_reply .. | rfl
      rw [left]
      exact fun other member => regulated.clean other (front ▸ List.mem_cons_of_mem _ member)
    · obtain ⟨messages, grown, fresh⟩ := (step_serves regulated taken dispatches).queue
      intro message member
      rw [grown] at member
      exact (List.mem_append.mp member).elim (regulated.clean message) (fresh message)

theorem initial_regulated (banlist : Option Str) : (initial banlist).Regulated where
  sound := initial_sound banlist
  sessions := initial_exclusive banlist
  opened := nofun
  clean := nofun

/-- What an operation does to the exchange. -/
def mail (s : System) (label : Env × Operation) (after : System) : List MailOp :=
  match label.2 with
  | .dispatch => s.world.queue.head?.toList.map fun message =>
      .settle (s.world.transferred label.1 (s.world.server.getUserSocket message.recipient)
        (formattedMessage message)).isSome
  | _ => s.world.mail after.world

/-- What these operations do to it, one after the other. -/
def mails (s : System) : List (Env × Operation) → List MailOp
  | [] => []
  | label :: labels =>
    match step s label with
    | some after => s.mail label after ++ after.mails labels
    | none => []

theorem step_followed {label : Env × Operation} {before : Mail} (regulated : s.Regulated)
    (carried : Carried before s.world) (stepped : step s label = some after)
    (running : after.world.server.status = .running) :
    ∃ exchange, Run (Exchange.step Message.recipient) Free before (s.mail label after) exchange ∧
      Carried exchange after.world := by
  obtain ⟨env, operation⟩ := label
  obtain ⟨_, taken⟩ := step_cases stepped
  by_cases dispatches : operation = .dispatch
  · subst dispatches
    obtain ⟨message, rest, front⟩ : ∃ message rest, s.world.queue = message :: rest := by
      cases taken with
      | dispatch waiting => exact List.exists_cons_of_ne_nil waiting
    have clean := regulated.clean message (front ▸ List.mem_cons_self)
    rw [dispatch_world front stepped, mail, front]
    exact dispatch_followed regulated.sound.world regulated.sessions regulated.opened clean front
      carried
  · have serves := step_serves regulated taken dispatches
    have same : s.mail (env, operation) after = s.world.mail after.world := by
      cases operation with
      | dispatch => exact absurd rfl dispatches
      | _ => rfl
    rw [same]
    exact serves.followed carried (step_tracked taken running)

theorem running_before {ok : System → Env × Operation → Prop} {labels : List (Env × Operation)}
    (run : Run step ok s labels after) (running : after.world.server.status = .running) :
    s.world.server.status = .running := by
  cases run with
  | refl => exact running
  | next _ stepped _ => exact (step_cases stepped).1

theorem run_followed {labels : List (Env × Operation)} {before : Mail}
    (run : Run step Regular s labels after) (regulated : s.Regulated)
    (carried : Carried before s.world) (running : after.world.server.status = .running) :
    ∃ exchange, Run (Exchange.step Message.recipient) Free before (s.mails labels) exchange ∧
      Carried exchange after.world := by
  induction run generalizing before with
  | refl s => exact ⟨before, .refl before, carried⟩
  | next regular stepped rest ih =>
    obtain ⟨between, first, carried⟩ :=
      step_followed regulated carried stepped (running_before rest running)
    obtain ⟨exchange, later, carried⟩ := ih (step_regulated regulated regular stepped) carried running
    refine ⟨exchange, ?_, carried⟩
    rw [mails, stepped]
    exact first.trans later

/-- The exchange that a run of the server from its start is one of. -/
theorem run_exchange {banlist : Option Str} {labels : List (Env × Operation)}
    (run : Run step Regular (initial banlist) labels s)
    (running : s.world.server.status = .running) : ∃ exchange,
      Run (Exchange.step Message.recipient) Free .empty ((initial banlist).mails labels) exchange ∧
      exchange.Kept Message.recipient ∧ Carried exchange s.world := by
  have carried : Carried .empty (initial banlist).world := ⟨⟨rfl, fun _ => rfl⟩, rfl, rfl⟩
  obtain ⟨exchange, refines, carried⟩ := run_followed run (initial_regulated banlist) carried running
  exact ⟨exchange, refines, Exchange.run_kept refines, carried⟩

end System

section Speaking
variable {w : World} {spoken : Str → Prop}

/-- What a program may send is all that it writes. -/
theorem run_speaks (env : Env) {program : Handler} (acts : Acts (fun _ => True) spoken program)
    (named : w.Named fun _ => True) : ∃ events,
      (program.run (exec env) w).2.os.log = w.os.log ++ events ∧
      ∀ event ∈ events, ∀ socket conn frame taken, event = .send socket conn frame taken →
        spoken frame ∨ Plain frame := by
  induction program generalizing w with
  | done => exact ⟨[], (List.append_nil _).symm, nofun⟩
  | act action next ih =>
    obtain ⟨events, grown, logged⟩ := exec_log env action w
    have registers : action.Registers fun _ => True := by
      cases action with
      | _ => trivial
    refine World.log_trans ⟨events, grown, fun event member socket conn frame taken same => ?_⟩
      (ih _ (acts.2 _ (exec_yields named env action)) (exec_named env named acts.1 registers))
    exact acts.1.speaks (same ▸ logged event member)

theorem notified {event : Event} {conn : ConnId} {frame : Str}
    (op : event.op = some (.notify conn frame)) :
    ∃ socket taken, event = .send socket (some conn) frame taken ∧ ¬ Plain frame := by
  cases event with
  | close => cases op
  | unregister => cases op
  | register username conn =>
    cases conn with
    | none => cases op
    | some conn => cases op
  | send socket user message taken =>
    cases user with
    | none => cases op
    | some user =>
      cases taken with
      | none => cases op
      | some count =>
        obtain ⟨stored, same⟩ := Option.ite_none_right_eq_some.mp op
        cases same
        refine ⟨socket, _, rfl, fun plain => ?_⟩
        rw [messageTexts_of_plain plain] at stored
        cases stored

end Speaking

namespace System
variable {s after : System} {env : Env} {operation : Operation} {conn : ConnId} {frame : Str}

/-- Only the administrator's announcements reach a client without the queue. -/
theorem step_notices (sound : s.Sound) (stepped : Stepped env s operation after)
    (notice : .notify conn frame ∈ s.mail (env, operation) after) :
    ∃ line, operation = .admin line ∧ AdminCommandHandler.Announces line := by
  have named : s.world.Named fun _ => True := ⟨sound.world.config, fun _ => trivial, fun _ _ => trivial⟩
  have spoke : ∀ {spoken : Str → Prop} {program : Handler}, Acts (fun _ => True) spoken program →
      .notify conn frame ∈ s.world.mail (program.run (exec env) s.world).2 →
      spoken frame ∧ ¬ Plain frame := by
    intro spoken program acts notice
    obtain ⟨events, grown, speaks⟩ := run_speaks env acts named
    rw [World.mail, World.since_eq grown] at notice
    rcases List.mem_append.mp notice with written | posted
    · obtain ⟨event, member, op⟩ := List.mem_filterMap.mp written
      obtain ⟨socket, taken, same, loud⟩ := notified op
      exact ⟨(speaks event member _ _ _ _ same).resolve_right loud, loud⟩
    · obtain ⟨message, _, same⟩ := List.mem_map.mp posted
      cases same
  have silent : ∀ {program : Handler}, Acts (fun _ => True) Plain program →
      .notify conn frame ∈ s.world.mail (program.run (exec env) s.world).2 → False :=
    fun acts notice => (spoke acts notice).2 (spoke acts notice).1
  cases stepped with
  | accept =>
    -- Nothing is written, as by the empty program.
    have idle : Acts (fun _ => True) Plain (.done () : Handler) := trivial
    exact (silent idle notice).elim
  | receive => exact (silent (handleMessage_names _ _) notice).elim
  | receiveFailure => exact (silent (handleReceiveFailure_names _) notice).elim
  | dispatch =>
    obtain ⟨message, _, same⟩ := List.mem_map.mp notice
    cases same
  | @admin line =>
    obtain ⟨spoken, loud⟩ := spoke (AdminCommandHandler.commandLine_names line) notice
    exact ⟨line, rfl, (spoken.resolve_left loud).1⟩
  | heartbeat => exact (silent Task.heartbeat.program_names notice).elim
  | checkTimeouts => exact (silent Task.checkTimeouts.program_names notice).elim

theorem run_notices {labels : List (Env × Operation)} {ok : System → Env × Operation → Prop}
    (run : Run step ok s labels after) (sound : s.Sound)
    (notice : .notify conn frame ∈ s.mails labels) :
    ∃ env line, (env, .admin line) ∈ labels ∧ AdminCommandHandler.Announces line := by
  induction run with
  | refl => cases notice
  | @next s t r label labels _ stepped rest ih =>
    rw [mails, stepped] at notice
    rcases List.mem_append.mp notice with first | later
    · obtain ⟨env, operation⟩ := label
      obtain ⟨line, rfl, announces⟩ := step_notices sound (step_cases stepped).2 first
      exact ⟨env, line, List.mem_cons_self, announces⟩
    · obtain ⟨env, line, member, announces⟩ := ih (step_sound sound stepped) later
      exact ⟨env, line, List.mem_cons_of_mem _ member, announces⟩

/-- A server that has not been stopped is a mail exchange: its run is one of the
exchange, which keeps the letters in order, hands each over at most once and only
under the name to which it was addressed, and the exchange agrees with it on the
logins, the queue, the count of messages sent, and on what clients will store of
the frames that the kernel took for them. -/
theorem server_refines_exchange {banlist : Option Str} {labels : List (Env × Operation)}
    (run : Run step Regular (initial banlist) labels s)
    (running : s.world.server.status = .running) : ∃ exchange,
      Run (Exchange.step Message.recipient) Free .empty ((initial banlist).mails labels) exchange ∧
      exchange.Kept Message.recipient ∧ Carried exchange s.world ∧
      ∀ conn frame, .notify conn frame ∈ (initial banlist).mails labels →
        ∃ env line, (env, .admin line) ∈ labels ∧ AdminCommandHandler.Announces line := by
  obtain ⟨exchange, refines, kept, carried⟩ := run_exchange run running
  exact ⟨exchange, refines, kept, carried,
    fun conn frame notice => run_notices run (initial_sound banlist) notice⟩

/-- A check that is enough for a step to be regular. -/
def regularly (s : System) (label : Env × Operation) : Bool :=
  loginsOnce s label && match label.2 with
    | .accept socket => socket ≠ 0
    | _ => true

theorem regular_of_regularly (s : System) (label : Env × Operation)
    (passed : regularly s label = true) : Regular s label := by
  obtain ⟨once, opened⟩ := Bool.and_eq_true_iff.mp passed
  refine ⟨singleLogin_of_loginsOnce s label once, fun same => ?_⟩
  rw [same] at opened
  cases opened

/-- A letter is relayed between two announcements. -/
theorem server_refines_exchange_of_relay : ∃ (s : System) (exchange : Mail),
    s.world.server.totalMessagesSent = 1 ∧ exchange.Kept Message.recipient ∧
    Carried exchange s.world := by
  let operations : List Operation := [.accept 5, .receive 0 (str "CONNECT;ann"), .accept 6,
    .admin (str "/broadcast hello"), .receive 1 (str "CONNECT;bob"),
    .receive 0 (str "SEND;bob;hello;world"), .dispatch, .admin (str "/send bob hello")]
  obtain ⟨s, ran, running, sent⟩ := evaluated
    (o := Transition.execute (guarded regularly step) (initial none)
      (operations.map fun operation => (.plain, operation)))
    (P := fun s => s.world.server.status = .running ∧ s.world.server.totalMessagesSent = 1)
    (by decide)
  obtain ⟨exchange, _, kept, carried, _⟩ :=
    server_refines_exchange (run_of_guarded regular_of_regularly _ ran) running
  exact ⟨s, exchange, sent, kept, carried⟩

end System
end SocketMessaging
