import SocketMessaging.Client.MessageHandler
import SocketMessaging.Utils.Numerals

/-! The timestamps of received messages. The seconds that a frame holds are read
with a check against 64 bits and then multiplied by a billion without one. -/
namespace SocketMessaging
open Utils MessageHandler

/-- What the 64-bit count of nanoseconds of the system clock can hold. -/
def InClock (time : Int) : Prop := -2 ^ 63 ≤ time ∧ time < 2 ^ 63

instance : DecidablePred InClock := fun _ => inferInstanceAs (Decidable (_ ∧ _))

/-- No conversion overflows, and the result is the instant that the leading integer
of the text denotes or the current time. -/
structure Decoded (now : Int) (text : Str) : Prop where
  fits : ∀ seconds, stoll text = some seconds → InClock (seconds * 1000000000)
  exact : (∃ seconds rest, Leading text seconds rest ∧
    unixStringToTimestamp now text = seconds * 1000000000) ∨ unixStringToTimestamp now text = now

theorem fromTimeT_of_inClock {seconds : Int} (fits : InClock (seconds * 1000000000)) :
    fromTimeT seconds = seconds * 1000000000 := by
  obtain ⟨lower, upper⟩ := fits
  exact Int.bmod_eq_of_le (by omega) (by omega)

theorem stoll_eq_some {text : Str} {seconds : Int} : stoll text = some seconds ↔
    (∃ rest, Leading text seconds rest) ∧ -2 ^ 63 ≤ seconds ∧ seconds < 2 ^ 63 := by
  rw [stoll, Option.filter_eq_some_iff, strtol_eq_some, decide_eq_true_eq]

/-- It is so exactly for texts without an integer of 64 bits and for those whose
integer is a number of seconds that the clock can show. -/
theorem decoded_iff (now : Int) (text : Str) : Decoded now text ↔
    ∀ seconds rest, Leading text seconds rest → -2 ^ 63 ≤ seconds → seconds < 2 ^ 63 →
      -9223372036 ≤ seconds ∧ seconds ≤ 9223372036 := by
  constructor
  · intro decoded seconds rest leading lower upper
    obtain ⟨least, most⟩ :=
      decoded.fits seconds (stoll_eq_some.mpr ⟨⟨rest, leading⟩, lower, upper⟩)
    constructor <;> omega
  · intro small
    have fits : ∀ seconds, stoll text = some seconds → InClock (seconds * 1000000000) := by
      intro seconds read
      obtain ⟨⟨rest, leading⟩, lower, upper⟩ := stoll_eq_some.mp read
      obtain ⟨least, most⟩ := small seconds rest leading lower upper
      constructor <;> omega
    refine ⟨fits, ?_⟩
    cases read : stoll text with
    | none => exact .inr (by rw [unixStringToTimestamp, read])
    | some seconds =>
      obtain ⟨⟨rest, leading⟩, _⟩ := stoll_eq_some.mp read
      refine .inl ⟨seconds, rest, leading, ?_⟩
      rw [unixStringToTimestamp, read]
      exact fromTimeT_of_inClock (fits seconds read)

/-- The server's own timestamps come back as whole seconds. -/
theorem timestamp_roundTrip (now : Int) {time : Int} (since : 0 ≤ time) (shown : time < 2 ^ 63) :
    unixStringToTimestamp now (timestampToUnixString time) = time / 1000000000 * 1000000000 := by
  have whole : time.tdiv 1000000000 = time / 1000000000 := Int.tdiv_eq_ediv_of_nonneg since
  have read : stoll (timestampToUnixString time) = some (time / 1000000000) := by
    rw [timestampToUnixString, whole]
    exact stoll_eq_some.mpr ⟨⟨[], (numeral_toDecimal _).leading⟩, by omega, by omega⟩
  rw [unixStringToTimestamp, read]
  exact fromTimeT_of_inClock ⟨by omega, by omega⟩

/-- A message is stored with the time that its fourth argument is decoded to. -/
theorem storeMessage_timestamp {raw : Str} {event : ServerEventData}
    (parsed : parseMessage raw = some event) (message : event.type = .message) (now : Int)
    (handler : MessageHandler) : ∃ text msg, event.args[3]? = some text ∧
      (handler.storeMessage now event).unreadMessages = handler.unreadMessages ++ [msg] ∧
      msg.timestamp = unixStringToTimestamp now text := by
  obtain ⟨sender, subject, body, time, args⟩ := args_of_message parsed message
  refine ⟨time, _, by rw [args]; rfl, rfl, ?_⟩
  rw [args]
  rfl

/-- All of this for every text that can be the fourth argument, and for the clock's
own values since the epoch. -/
theorem timestamps_decoded_iff (now : Int) :
    (∀ text, Decoded now text ↔ ∀ seconds rest, Leading text seconds rest →
      -2 ^ 63 ≤ seconds → seconds < 2 ^ 63 → -9223372036 ≤ seconds ∧ seconds ≤ 9223372036) ∧
    (∀ raw event, parseMessage raw = some event → event.type = .message →
      ∀ handler : MessageHandler, ∃ text msg, event.args[3]? = some text ∧
        (handler.storeMessage now event).unreadMessages = handler.unreadMessages ++ [msg] ∧
        msg.timestamp = unixStringToTimestamp now text) ∧
    ∀ time, 0 ≤ time → time < 2 ^ 63 →
      unixStringToTimestamp now (timestampToUnixString time) = time / 1000000000 * 1000000000 := by
  refine ⟨decoded_iff now, fun raw event parsed message handler => ?_, fun time => timestamp_roundTrip now⟩
  exact storeMessage_timestamp parsed message now handler

/-- A frame may hold a number of seconds that the clock cannot show. -/
theorem timestamps_not_always_decoded : ¬ ∀ (now : Int) (raw : Str) (event : ServerEventData),
    parseMessage raw = some event → event.type = .message →
      ∀ text ∈ event.args[3]?, Decoded now text := by
  intro claimed
  have decoded := claimed 0 (str "MESSAGE;bob;Hi;hello;9223372037\n") _ rfl rfl
    (str "9223372037") (by decide)
  have fits := decoded.fits 9223372037 (by decide)
  exact absurd fits (by decide)

end SocketMessaging
