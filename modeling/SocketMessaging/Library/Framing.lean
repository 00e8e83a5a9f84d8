import Mathlib.Init

/-! Streams of self-delimiting frames. A frame is read off the front of a stream
or not at all, so a stream has one maximal sequence of frames and a remainder. -/
universe u v

/-- `decode` reads a frame exactly where `encode` of an admissible message stands. -/
structure Framing (α : Type u) (β : Type v) where
  Admissible : β → Prop
  encode : β → List α
  decode : List α → Option (β × List α)
  decode_iff : ∀ {stream message rest}, decode stream = some (message, rest) ↔
    Admissible message ∧ stream = encode message ++ rest
  encode_ne_nil : ∀ {message}, Admissible message → encode message ≠ []

namespace Framing
variable {α : Type u} {β : Type v} {f : Framing α β} {stream rest : List α} {message : β}
  {messages : List β}

/-- These are all the frames at the front of the stream, and this follows them. -/
structure Cut (f : Framing α β) (stream : List α) (messages : List β) (rest : List α) : Prop where
  admissible : ∀ message ∈ messages, f.Admissible message
  whole : stream = messages.flatMap f.encode ++ rest
  stuck : ∀ message more, f.Admissible message → rest ≠ f.encode message ++ more

theorem decode_encode (admissible : f.Admissible message) (rest : List α) :
    f.decode (f.encode message ++ rest) = some (message, rest) :=
  f.decode_iff.mpr ⟨admissible, rfl⟩

theorem shorter (decoded : f.decode stream = some (message, rest)) : rest.length < stream.length := by
  obtain ⟨admissible, rfl⟩ := f.decode_iff.mp decoded
  have nonempty := List.length_pos_iff.mpr (f.encode_ne_nil admissible)
  rw [List.length_append]
  omega

/-- Where decoding fails the stream does not begin with a frame. -/
theorem decode_eq_none : f.decode stream = none ↔
    ∀ message more, f.Admissible message → stream ≠ f.encode message ++ more := by
  constructor
  · rintro failed message more admissible rfl
    rw [decode_encode admissible] at failed
    cases failed
  · intro stuck
    cases decoded : f.decode stream with
    | none => rfl
    | some result =>
      obtain ⟨admissible, whole⟩ := f.decode_iff.mp decoded
      exact absurd whole (stuck result.1 result.2 admissible)

/-- No frame is a proper prefix of another. -/
theorem prefix_free {other : β} {more tail : List α} (first : f.Admissible message)
    (second : f.Admissible other) (same : f.encode message ++ more = f.encode other ++ tail) :
    message = other ∧ more = tail := by
  have decoded := decode_encode first more
  rw [same, decode_encode second] at decoded
  cases decoded
  exact ⟨rfl, rfl⟩

/-- Decode until it fails. -/
def readAll (f : Framing α β) (stream : List α) : List β × List α :=
  match _decoded : f.decode stream with
  | none => ([], stream)
  | some (message, rest) =>
    let later := f.readAll rest
    (message :: later.1, later.2)
  termination_by stream.length
  decreasing_by exact shorter ‹_›

theorem readAll_none (failed : f.decode stream = none) : f.readAll stream = ([], stream) := by
  rw [readAll]
  split
  · rfl
  · rename_i decoded
    rw [failed] at decoded
    cases decoded

theorem readAll_some (decoded : f.decode stream = some (message, rest)) :
    f.readAll stream = (message :: (f.readAll rest).1, (f.readAll rest).2) := by
  rw [readAll]
  split
  · rename_i failed
    rw [decoded] at failed
    cases failed
  · rename_i again
    rw [decoded] at again
    cases again
    rfl

theorem Cut.readAll_eq (cut : Cut f stream messages rest) : f.readAll stream = (messages, rest) := by
  induction messages generalizing stream with
  | nil =>
    obtain ⟨_, rfl, stuck⟩ := cut
    exact readAll_none (decode_eq_none.mpr stuck)
  | cons message messages ih =>
    obtain ⟨admissible, rfl, stuck⟩ := cut
    have tail : Cut f (messages.flatMap f.encode ++ rest) messages rest :=
      ⟨fun other member => admissible other (List.mem_cons_of_mem _ member), rfl, stuck⟩
    have first := decode_encode (admissible message List.mem_cons_self)
      (messages.flatMap f.encode ++ rest)
    rw [List.flatMap_cons, List.append_assoc, readAll_some first, ih tail]

theorem readAll_cut (f : Framing α β) (stream : List α) :
    Cut f stream (f.readAll stream).1 (f.readAll stream).2 := by
  induction stream using readAll.induct f with
  | case1 stream failed =>
    rw [readAll_none failed]
    exact ⟨fun _ member => absurd member List.not_mem_nil, rfl, decode_eq_none.mp failed⟩
  | case2 stream message rest decoded ih =>
    obtain ⟨admissible, whole⟩ := f.decode_iff.mp decoded
    rw [readAll_some decoded]
    refine ⟨?_, ?_, ih.stuck⟩
    · intro other member
      rcases List.mem_cons.mp member with rfl | listed
      · exact admissible
      · exact ih.admissible other listed
    · rw [whole, List.flatMap_cons, List.append_assoc, ← ih.whole]

/-- Of a stream that was cut off, exactly the frames that are still whole are read. -/
theorem readAll_take {sent : List β} (admissible : ∀ message ∈ sent, f.Admissible message)
    (count : Nat) : ∃ k ≤ sent.length,
      (f.readAll ((sent.flatMap f.encode).take count)).1 = sent.take k ∧
      ((sent.take k).flatMap f.encode).length ≤ count ∧
      (k < sent.length → count < ((sent.take (k + 1)).flatMap f.encode).length) := by
  induction sent generalizing count with
  | nil =>
    have none : Cut f [] [] [] := by
      refine ⟨fun _ member => absurd member List.not_mem_nil, rfl, fun message more ok same => ?_⟩
      exact f.encode_ne_nil ok (List.append_eq_nil_iff.mp same.symm).1
    refine ⟨0, Nat.le_refl _, ?_, Nat.zero_le _, fun inside => absurd inside (Nat.lt_irrefl _)⟩
    rw [List.flatMap_nil, List.take_nil, none.readAll_eq]
    rfl
  | cons message sent ih =>
    have first := admissible message List.mem_cons_self
    rw [List.flatMap_cons]
    by_cases fits : (f.encode message).length ≤ count
    · obtain ⟨k, within, read, arrived, next⟩ :=
        ih (fun other member => admissible other (List.mem_cons_of_mem _ member))
          (count - (f.encode message).length)
      refine ⟨k + 1, Nat.succ_le_succ within, ?_, ?_, fun inside => ?_⟩
      · rw [List.take_append, List.take_of_length_le fits, readAll_some (decode_encode first _), read,
          List.take_succ_cons]
      · rw [List.take_succ_cons, List.flatMap_cons, List.length_append]
        omega
      · have missing := next (Nat.lt_of_succ_lt_succ inside)
        rw [List.take_succ_cons, List.flatMap_cons, List.length_append]
        omega
    · refine ⟨0, Nat.zero_le _, ?_, Nat.zero_le _, fun _ => ?_⟩
      · -- what is left of the frame is not the beginning of another one
        have stuck : ∀ other more, f.Admissible other →
            (f.encode message).take count ≠ f.encode other ++ more := by
          intro other more ok same
          have same' : f.encode other ++ (more ++ (f.encode message).drop count) =
              f.encode message ++ [] := by
            rw [← List.append_assoc, ← same, List.take_append_drop, List.append_nil]
          obtain ⟨rfl, _⟩ := prefix_free ok first same'
          have length := congrArg List.length same
          rw [List.length_take, List.length_append] at length
          omega
        rw [List.take_append_of_le_length (Nat.le_of_not_le fits),
          readAll_none (decode_eq_none.mpr stuck)]
        rfl
      · simpa using Nat.lt_of_not_le fits

end Framing
