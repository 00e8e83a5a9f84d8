import SocketMessaging.Utils.MessageParser
import SocketMessaging.Utils.NetworkStream

/-! The state of the server process: the members of `Server` and `Dispatcher`,
the runtime configuration, and the part of the operating system that they act
on, namely descriptors, bytes written to peers and the banlist file. -/
namespace SocketMessaging

/-- A descriptor number as the code handles it, an `int`. -/
abbrev Fd := Int

/-- Connections are numbered in the order in which they are accepted. -/
abbrev ConnId := Nat

inductive ServerStatus where
  | off
  | starting
  | running
  | stopping
  deriving DecidableEq

/-- A message between users. `sender` and `recipient` are the fields `from` and
`to` of the source (both are reserved words here). The timestamp counts the
nanoseconds of the system clock. -/
structure Message where
  sender : Str
  recipient : Str
  subject : Str
  body : Str
  timestamp : Int
  deriving DecidableEq

inductive QueueFullPolicy where
  | reject
  | dropOldest
  | dropNewest
  deriving DecidableEq

structure DispatcherConfig where
  maxStoredMessages : Int := 10000
  queuePolicy : QueueFullPolicy := .reject
  deriving DecidableEq

/-- The head of `messages` is the front of the queue. -/
structure Dispatcher where
  messages : List Message
  config : DispatcherConfig

structure ClientInfo where
  socket : Fd
  lastPong : Int
  waitingForPong : Bool
  deriving DecidableEq

structure Server where
  clients : StrMap ClientInfo
  bannedUsers : StrMap Unit
  dispatcher : Dispatcher
  totalMessagesSent : Nat
  totalMessagesReceived : Nat
  status : ServerStatus

/-- What the process does that others can observe. A `send` carries the
connection open under the number, the message, and the count of bytes the
kernel took, `none` if the call failed. A `close` carries the connection to
which the number was last given. -/
inductive Event where
  | send (socket : Fd) (conn : Option ConnId) (message : Str) (taken : Option Nat)
  | close (socket : Fd) (conn : Option ConnId)
  | register (username : Str) (conn : Option ConnId)
  | unregister (username : Str)
  deriving DecidableEq

/-- `user` is the connection open under a number, `holder` the one to which the
number was last given, whether or not it has been closed since. -/
structure Os where
  user : Fd → Option ConnId
  holder : Fd → Option ConnId
  banlist : Option Str
  log : List Event

/-- `registrant` is a ghost: the connection whose request made the last
registration of a name. No program reads it. -/
structure World where
  server : Server
  runtimeConfig : RuntimeConfig
  os : Os
  registrant : Str → Option ConnId

/-- What one operation meets that the program does not determine: the order in
which a hash map is walked, how many bytes beyond the first `::send` takes, the
clocks, which count nanoseconds in 64 bits, and the content of the log file. -/
structure Env where
  walk : List Str → List Str
  walk_perm : ∀ names, (walk names).Perm names
  transfer : Fd → Str → Option Nat
  systemClock : Int
  systemClock_range : -2 ^ 63 ≤ systemClock ∧ systemClock < 2 ^ 63
  steadyClock : Int
  serverLog : Option Str

/-- Maps are walked in the order of insertion, writes are complete and clocks stand still. -/
def Env.plain : Env where
  walk := id
  walk_perm names := .refl names
  transfer _ message := some (message.length + 4)
  systemClock := 0
  systemClock_range := by decide
  steadyClock := 0
  serverLog := none

/-- `Env.plain` when the steady clock shows this many seconds. -/
def Env.atSeconds (seconds : Int) : Env := { Env.plain with steadyClock := seconds * 1000000000 }

/-- The entries of a map in the order of this walk. -/
def Env.visit {β : Type} (env : Env) (map : StrMap β) : List (Str × β) :=
  (env.walk map.keys).filterMap fun name => (map.lookup name).map fun value => (name, value)

theorem Env.mem_visit {β : Type} (env : Env) (map : StrMap β) (name : Str) (value : β) :
    (name, value) ∈ env.visit map ↔ map.lookup name = some value := by
  simp only [visit, List.mem_filterMap, Option.map_eq_some_iff, Prod.mk.injEq]
  constructor
  · rintro ⟨key, _, found, present, rfl, rfl⟩
    exact present
  · intro present
    refine ⟨name, ?_, value, present, rfl, rfl⟩
    rw [(env.walk_perm map.keys).mem_iff]
    exact AList.mem_keys.mp (AList.lookup_isSome.mp (by rw [present]; rfl))

/-- Looking up names of the map one by one misses none of them. -/
theorem lookup_names {β γ : Type} (map : StrMap β) (pick : β → γ) {names : List Str}
    (inside : ∀ name ∈ names, name ∈ map.keys) :
    (names.filterMap fun name => (map.lookup name).map fun value => (name, pick value)).map
      Prod.fst = names := by
  induction names with
  | nil => rfl
  | cons name names ih =>
    have present : (map.lookup name).isSome :=
      AList.lookup_isSome.mpr (AList.mem_keys.mpr (inside name List.mem_cons_self))
    obtain ⟨value, found⟩ := Option.isSome_iff_exists.mp present
    rw [List.filterMap_cons, found, Option.map_some, List.map_cons,
      ih fun other member => inside other (List.mem_cons_of_mem _ member)]

/-- A walk meets every name of the map once. -/
theorem Env.visit_names {β : Type} (env : Env) (map : StrMap β) :
    ((env.visit map).map Prod.fst).Perm map.keys := by
  have order := env.walk_perm map.keys
  have names := lookup_names map (fun value => value) fun name member => order.mem_iff.mp member
  exact names ▸ order

namespace World

def record (w : World) (event : Event) : World :=
  { w with os := { w.os with log := w.os.log ++ [event] } }

/-- `::send` on the encoded message: it fails on a number that is not open, and
otherwise takes between one byte and all of them, or fails. -/
def transferred (env : Env) (socket : Fd) (message : Str) (w : World) : Option Nat :=
  match w.os.user socket with
  | none => none
  | some _ => (env.transfer socket message).map fun beyond =>
      min (beyond + 1) (NetworkStream.encodeMessage message).length

/-- `NetworkStream(socket).send(message)`. A negative number never counts as connected. -/
def send (env : Env) (socket : Fd) (message : Str) (w : World) : Bool × World :=
  if socket < 0 then (false, w)
  else
    let taken := transferred env socket message w
    (taken.isSome, w.record (.send socket (w.os.user socket) message taken))

/-- `close(socket)`; on a number that is not open the call only fails. -/
def close (socket : Fd) (w : World) : World :=
  let closed := w.record (.close socket (w.os.holder socket))
  { closed with os := { closed.os with user := Function.update w.os.user socket none } }

/-- The kernel hands out `socket` for a new connection. -/
def accept (socket : Fd) (conn : ConnId) (w : World) : World :=
  { w with os := { w.os with
      user := Function.update w.os.user socket (some conn)
      holder := Function.update w.os.holder socket (some conn) } }

end World
end SocketMessaging
