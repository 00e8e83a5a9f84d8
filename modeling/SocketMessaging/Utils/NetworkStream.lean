import SocketMessaging.Library.Framing
import SocketMessaging.Utils.RuntimeConfig

/-! The framing of `NetworkStream`: a 32-bit big-endian length, then the
payload. A receiver refuses lengths of zero and beyond the maximum. -/
namespace SocketMessaging.NetworkStream
open Constants

/-- The four bytes of `htonl` in memory order. -/
def htonl (length : Nat) : Str :=
  [UInt8.ofNat (length / 2 ^ 24), UInt8.ofNat (length / 2 ^ 16), UInt8.ofNat (length / 2 ^ 8),
    UInt8.ofNat length]

def ntohl (bytes : Str) : Nat := bytes.foldl (fun value byte => 256 * value + byte.toNat) 0

/-- The length is cast to 32 bits before it is written. -/
def encodeMessage (message : Str) : Str := htonl (message.length % 2 ^ 32) ++ message

/-- `decodeMessage` on the bytes still to be read before the end of the stream:
the message and the bytes after it, or `none` where the source reports failure. -/
def decodeMessage (stream : Str) : Option (Str × Str) :=
  let header := stream.take 4
  if header.length ≠ 4 then none
  else
    let length := ntohl header
    if length = 0 ∨ maxMessageSize < length then none
    else
      let message := (stream.drop 4).take length
      if message.length ≠ length then none
      else some (message, stream.drop (4 + length))

/-- The length check of `decodeMessage`. -/
def Admissible (message : Str) : Prop := 1 ≤ message.length ∧ message.length ≤ maxMessageSize

instance (message : Str) : Decidable (Admissible message) := inferInstanceAs (Decidable (_ ∧ _))

theorem htonl_length (length : Nat) : (htonl length).length = 4 := rfl

theorem encodeMessage_length (message : Str) :
    (encodeMessage message).length = message.length + 4 := by
  rw [encodeMessage, List.length_append, htonl_length, Nat.add_comm]

theorem ntohl_htonl {length : Nat} (fits : length < 2 ^ 32) : ntohl (htonl length) = length := by
  simp only [ntohl, htonl, List.foldl_cons, List.foldl_nil, UInt8.toNat_ofNat']
  omega

/-- A receiver gets exactly the admissible messages, whatever follows them. -/
theorem decode_encode {message rest : Str} (representable : message.length < 2 ^ 32) :
    decodeMessage (encodeMessage message ++ rest) =
      if Admissible message then some (message, rest) else none := by
  have header : (encodeMessage message ++ rest).take 4 = htonl message.length := by
    rw [encodeMessage, Nat.mod_eq_of_lt representable, List.append_assoc]
    exact List.take_left' (htonl_length _)
  have payload : (encodeMessage message ++ rest).drop 4 = message ++ rest := by
    rw [encodeMessage, List.append_assoc]
    exact List.drop_left' (htonl_length _)
  simp only [decodeMessage, header, htonl_length, ntohl_htonl representable, ne_eq, not_true,
    if_false, ← List.drop_drop, payload, List.take_left', List.drop_left', Admissible]
  split
  · rename_i refused
    exact (if_neg (by omega)).symm
  · rename_i accepted
    exact (if_pos (by omega)).symm

theorem Admissible.representable {message : Str} (admissible : Admissible message) :
    message.length < 2 ^ 32 := by
  have bound := admissible.2
  simp only [maxMessageSize] at bound
  omega

theorem htonl_ntohl {header : Str} (four : header.length = 4) : htonl (ntohl header) = header := by
  match header with
  | [a, b, c, d] =>
    have range : ∀ byte : UInt8, byte.toNat < 256 := fun byte => byte.toNat_lt
    have first := range a
    have second := range b
    have third := range c
    have last := range d
    simp only [ntohl, htonl, List.foldl_cons, List.foldl_nil, List.cons.injEq, and_true,
      ← UInt8.toNat_inj, UInt8.toNat_ofNat']
    omega

theorem ntohl_lt {header : Str} (four : header.length = 4) : ntohl header < 2 ^ 32 := by
  match header with
  | [a, b, c, d] =>
    have first := a.toNat_lt
    have second := b.toNat_lt
    have third := c.toNat_lt
    have last := d.toNat_lt
    simp only [ntohl, List.foldl_cons, List.foldl_nil]
    omega

theorem decodeMessage_eq_some {stream message rest : Str} :
    decodeMessage stream = some (message, rest) ↔
      Admissible message ∧ stream = encodeMessage message ++ rest := by
  constructor
  · intro decoded
    unfold decodeMessage at decoded
    dsimp only at decoded
    split_ifs at decoded with short refused cut
    cases decoded
    have four : (stream.take 4).length = 4 := not_not.mp short
    have whole := not_not.mp cut
    obtain ⟨positive, limit⟩ := not_or.mp refused
    refine ⟨⟨whole.symm ▸ Nat.pos_of_ne_zero positive, whole.symm ▸ Nat.le_of_not_lt limit⟩, ?_⟩
    rw [encodeMessage, whole, Nat.mod_eq_of_lt (ntohl_lt four), htonl_ntohl four, List.append_assoc,
      ← List.drop_drop, List.take_append_drop, List.take_append_drop]
  · rintro ⟨admissible, rfl⟩
    rw [decode_encode admissible.representable, if_pos admissible]

/-- The frames of the protocol delimit themselves. -/
def framing : Framing UInt8 Str where
  Admissible := Admissible
  encode := encodeMessage
  decode := decodeMessage
  decode_iff := decodeMessage_eq_some
  encode_ne_nil := by
    intro message _ empty
    have length := encodeMessage_length message
    rw [empty] at length
    exact absurd length (Nat.ne_of_lt (Nat.succ_pos _))

/-- A `NetworkStream` object, and the bytes still to be read on its descriptor
before the end of the stream. -/
structure Receiver where
  connected : Bool
  unread : Str

/-- What a failed call has read does not matter, since no later call reads. -/
def receive (receiver : Receiver) : Option Str × Receiver :=
  if !receiver.connected then (none, receiver)
  else
    match decodeMessage receiver.unread with
    | some (message, rest) => (some message, { receiver with unread := rest })
    | none => (none, { receiver with connected := false })

theorem receive_shorter {receiver after : Receiver} {message : Str}
    (received : receive receiver = (some message, after)) :
    after.unread.length < receiver.unread.length := by
  unfold receive at received
  split at received
  · cases received
  · split at received
    · rename_i decoded
      cases received
      exact Framing.shorter (f := framing) decoded
    · cases received

/-- Call `receive` until it fails. -/
def receiveAll (receiver : Receiver) : List Str :=
  match _received : receive receiver with
  | (none, _) => []
  | (some message, after) => message :: receiveAll after
  termination_by receiver.unread.length
  decreasing_by exact receive_shorter ‹_›

theorem receiveAll_eq (stream : Str) : receiveAll ⟨true, stream⟩ = (framing.readAll stream).1 := by
  induction stream using Framing.readAll.induct framing with
  | case1 stream failed =>
    have received : receive ⟨true, stream⟩ = (none, ⟨false, stream⟩) := by
      have decoded : decodeMessage stream = none := failed
      simp only [receive, Bool.not_true, Bool.false_eq_true, if_false, decoded]
    rw [Framing.readAll_none failed, receiveAll]
    split
    · rfl
    · rename_i again
      rw [received] at again
      cases again
  | case2 stream message rest decoded ih =>
    have received : receive ⟨true, stream⟩ = (some message, ⟨true, rest⟩) := by
      have decoded : decodeMessage stream = some (message, rest) := decoded
      simp only [receive, Bool.not_true, Bool.false_eq_true, if_false, decoded]
    rw [Framing.readAll_some decoded, receiveAll]
    split
    · rename_i failed
      rw [received] at failed
      cases failed
    · rename_i again
      rw [received] at again
      cases again
      rw [ih]

/-- Whatever bytes arrive, the messages received are the only ones that cut the
stream into admissible frames and a remainder without one. Of frames that were
sent and cut off somewhere, those that arrived whole are received. -/
theorem framing_exact :
    (∀ (stream : Str) (messages : List Str), receiveAll ⟨true, stream⟩ = messages ↔
      ∃ rest, (∀ message ∈ messages, Admissible message) ∧
        stream = messages.flatMap encodeMessage ++ rest ∧
        ∀ message more, Admissible message → rest ≠ encodeMessage message ++ more) ∧
    ∀ (sent : List Str) (count : Nat), (∀ message ∈ sent, Admissible message) →
      ∃ k ≤ sent.length, receiveAll ⟨true, (sent.flatMap encodeMessage).take count⟩ = sent.take k ∧
        ((sent.take k).flatMap encodeMessage).length ≤ count ∧
        (k < sent.length → count < ((sent.take (k + 1)).flatMap encodeMessage).length) := by
  constructor
  · intro stream messages
    rw [receiveAll_eq]
    constructor
    · rintro rfl
      obtain ⟨admissible, whole, stuck⟩ := framing.readAll_cut stream
      exact ⟨_, admissible, whole, stuck⟩
    · rintro ⟨rest, admissible, whole, stuck⟩
      have cut : framing.Cut stream messages rest := ⟨admissible, whole, stuck⟩
      rw [cut.readAll_eq]
  · intro sent count admissible
    rw [receiveAll_eq]
    exact Framing.readAll_take admissible count

/-- A `NetworkStream` object, and the bytes its descriptor has taken. -/
structure Sender where
  connected : Bool
  written : Str

/-- One call of `send`, where `::send` returns `bytesSent`, or fails if this is
`none`. Only a failure is looked at. -/
def send (message : Str) (bytesSent : Option Nat) (sender : Sender) : Bool × Sender :=
  if !sender.connected then (false, sender)
  else
    let encoded := encodeMessage message
    match bytesSent with
    | none => (false, { sender with connected := false })
    | some count => (true, { sender with written := sender.written ++ encoded.take count })

/-- The results of the calls of `send`, in order, and the object afterwards. -/
def sendAll : List (Str × Option Nat) → Sender → List Bool × Sender
  | [], sender => ([], sender)
  | (message, bytesSent) :: calls, sender =>
    let sent := send message bytesSent sender
    let later := sendAll calls sent.2
    (sent.1 :: later.1, later.2)

/-- What POSIX says of `::send`: it fails, or takes some of the bytes. -/
def Allowed (call : Str × Option Nat) : Prop :=
  ∀ count ∈ call.2, 1 ≤ count ∧ count ≤ (encodeMessage call.1).length

instance : DecidablePred Allowed := fun _ => inferInstanceAs (Decidable (∀ _ ∈ _, _))

/-- What a call adds to the stream. -/
def taken (call : Str × Option Nat) : Str := (encodeMessage call.1).take (call.2.getD 0)

theorem sendAll_disconnected (calls : List (Str × Option Nat)) (written : Str) :
    (sendAll calls ⟨false, written⟩).2 = ⟨false, written⟩ ∧
      ∀ result ∈ (sendAll calls ⟨false, written⟩).1, result = false := by
  induction calls with
  | nil => exact ⟨rfl, fun _ listed => absurd listed List.not_mem_nil⟩
  | cons call calls ih => exact ⟨ih.1, List.forall_mem_cons.mpr ⟨rfl, ih.2⟩⟩

/-- All calls return true exactly if no `::send` fails, and then the stream is
what the calls have added to it. -/
theorem sendAll_true (calls : List (Str × Option Nat)) (written : Str) :
    ((∀ result ∈ (sendAll calls ⟨true, written⟩).1, result = true) ↔
      ∀ call ∈ calls, call.2 ≠ none) ∧
    ((∀ call ∈ calls, call.2 ≠ none) →
      (sendAll calls ⟨true, written⟩).2.written = written ++ calls.flatMap taken) := by
  induction calls generalizing written with
  | nil => simp [sendAll]
  | cons call calls ih =>
    obtain ⟨message, bytesSent⟩ := call
    cases bytesSent with
    | none => simp [sendAll, send]
    | some count =>
      obtain ⟨results, added⟩ := ih (written ++ (encodeMessage message).take count)
      constructor
      · rw [List.forall_mem_cons, ← results, sendAll, List.forall_mem_cons]
        exact ⟨fun all => ⟨Option.some_ne_none count, all.2⟩, fun all => ⟨rfl, all.2⟩⟩
      · intro none_fails
        rw [List.flatMap_cons, ← List.append_assoc]
        exact added (List.forall_mem_cons.mp none_fails).2

/-- Shares of the frames add up to whole frames only if each of them is whole. -/
theorem whole_of_length {calls : List (Str × Option Nat)} (allowed : ∀ call ∈ calls, Allowed call)
    (enough : ((calls.map Prod.fst).flatMap encodeMessage).length ≤ (calls.flatMap taken).length) :
    ∀ call ∈ calls, call.2 = some (encodeMessage call.1).length := by
  have short : ∀ call : Str × Option Nat, (taken call).length ≤ (encodeMessage call.1).length :=
    fun call => List.length_take_le' _ _
  have sums : ∀ calls : List (Str × Option Nat), (calls.flatMap taken).length ≤
      ((calls.map Prod.fst).flatMap encodeMessage).length := by
    intro calls
    induction calls with
    | nil => exact Nat.le_refl _
    | cons call calls ih =>
      rw [List.map_cons, List.flatMap_cons, List.flatMap_cons, List.length_append, List.length_append]
      exact Nat.add_le_add (short call) ih
  induction calls with
  | nil => exact fun _ listed => absurd listed List.not_mem_nil
  | cons call calls ih =>
    obtain ⟨first, rest⟩ := List.forall_mem_cons.mp allowed
    rw [List.map_cons, List.flatMap_cons, List.flatMap_cons, List.length_append,
      List.length_append] at enough
    have here := short call
    have later := sums calls
    refine List.forall_mem_cons.mpr ⟨?_, ih rest (by omega)⟩
    have same : (taken call).length = (encodeMessage call.1).length := by omega
    rw [taken, List.length_take] at same
    have positive := encodeMessage_length call.1
    cases sent : call.2 with
    | none =>
      rw [sent, Option.getD_none] at same
      omega
    | some count =>
      rw [sent, Option.getD_some] at same
      have bound := (first count sent).2
      exact congrArg some (by omega)

/-- Frames none of which failed arrive exactly if each of them was taken whole. -/
theorem delivered_iff {calls : List (Str × Option Nat)}
    (admissible : ∀ call ∈ calls, Admissible call.1) (allowed : ∀ call ∈ calls, Allowed call)
    (none_fails : ∀ call ∈ calls, call.2 ≠ none) :
    receiveAll ⟨true, (sendAll calls ⟨true, []⟩).2.written⟩ = calls.map Prod.fst ↔
      ∀ call ∈ calls, call.2 = some (encodeMessage call.1).length := by
  rw [(sendAll_true calls []).2 none_fails, List.nil_append, framing_exact.1]
  constructor
  · rintro ⟨rest, _, whole, _⟩
    apply whole_of_length allowed
    rw [whole, List.length_append]
    exact Nat.le_add_right _ _
  · intro whole
    have each : ∀ call ∈ calls, taken call = encodeMessage call.1 := by
      intro call listed
      rw [taken, whole call listed, Option.getD_some, List.take_length]
    refine ⟨[], fun message listed => ?_, ?_, fun message more _ empty => ?_⟩
    · obtain ⟨call, member, rfl⟩ := List.mem_map.mp listed
      exact admissible call member
    · rw [List.append_nil, List.flatMap_map]
      exact List.flatMap_congr each
    · have length := congrArg List.length empty
      rw [List.length_append, encodeMessage_length, List.length_nil] at length
      omega

/-- If sends that are all reported as successful are to arrive, the operating
system has to take every frame whole. -/
theorem sent_whole_iff {calls : List (Str × Option Nat)}
    (admissible : ∀ call ∈ calls, Admissible call.1) (allowed : ∀ call ∈ calls, Allowed call) :
    ((∀ result ∈ (sendAll calls ⟨true, []⟩).1, result = true) →
      receiveAll ⟨true, (sendAll calls ⟨true, []⟩).2.written⟩ = calls.map Prod.fst) ↔
    (∃ call ∈ calls, call.2 = none) ∨
      ∀ call ∈ calls, call.2 = some (encodeMessage call.1).length := by
  rw [(sendAll_true calls []).1]
  by_cases failed : ∃ call ∈ calls, call.2 = none
  · refine ⟨fun _ => .inl failed, fun _ none_fails => ?_⟩
    obtain ⟨call, listed, none⟩ := failed
    exact absurd none (none_fails call listed)
  · have none_fails : ∀ call ∈ calls, call.2 ≠ none := fun call listed none =>
      failed ⟨call, listed, none⟩
    rw [delivered_iff admissible allowed none_fails]
    exact ⟨fun whole => .inr (whole none_fails), fun either _ => either.resolve_left failed⟩

theorem sent_whole_of_two : receiveAll ⟨true, (sendAll [(str "PING\n", some 9),
    (str "PONG\n", some 9)] ⟨true, []⟩).2.written⟩ = [str "PING\n", str "PONG\n"] := by
  let calls := [(str "PING\n", some 9), (str "PONG\n", some 9)]
  have admissible : ∀ call ∈ calls, Admissible call.1 := by decide
  have allowed : ∀ call ∈ calls, Allowed call := by decide
  exact (sent_whole_iff admissible allowed).mpr (.inr (by decide)) (by decide)

/-- The kernel takes five of the nine bytes of a frame, and `send` returns true. -/
theorem sent_not_always_whole : ¬ ∀ calls : List (Str × Option Nat),
    (∀ call ∈ calls, Admissible call.1) → (∀ call ∈ calls, Allowed call) →
    (∀ result ∈ (sendAll calls ⟨true, []⟩).1, result = true) →
    receiveAll ⟨true, (sendAll calls ⟨true, []⟩).2.written⟩ = calls.map Prod.fst := by
  intro claimed
  let calls := [(str "PING\n", some 5), (str "PONG\n", some 9)]
  have admissible : ∀ call ∈ calls, Admissible call.1 := by decide
  have allowed : ∀ call ∈ calls, Allowed call := by decide
  have delivered := claimed calls admissible allowed (by decide)
  have whole := (delivered_iff admissible allowed (by decide)).mp delivered
  exact absurd whole (by decide)

end SocketMessaging.NetworkStream
