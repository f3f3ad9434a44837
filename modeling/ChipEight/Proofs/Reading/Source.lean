import ChipEight.Reader

/-!
# Readers of a source

A source has contents, which may be endless, and may fail once some of them are read. Many
readers give out the same source, in pieces of any sizes and with any interruptions between
them; what is gathered from each of them is the same.
-/

set_option autoImplicit false

namespace ChipEight

inductive Contents where
  | ended (bytes : List UInt8)
  | endless (byte : Nat → UInt8)

namespace Contents

/-- The first bytes, fewer if there are not so many. -/
def first : Contents → Nat → List UInt8
  | .ended bytes, count => bytes.take count
  | .endless byte, count => (List.range count).map byte

/-- There are so many bytes or more. -/
def Reaches : Contents → Nat → Prop
  | .ended bytes, count => count ≤ bytes.length
  | .endless _, _ => True

/-- The bytes after the first `given` begin with these. -/
def Continues (contents : Contents) (given : Nat) (values : List UInt8) : Prop :=
  contents.first (given + values.length) = contents.first given ++ values

theorem continues_nil (contents : Contents) (given : Nat) : contents.Continues given [] :=
  (List.append_nil _).symm

theorem Continues.append {contents : Contents} {given : Nat} {values later : List UInt8}
    (here : contents.Continues given values)
    (next : contents.Continues (given + values.length) later) :
    contents.Continues given (values ++ later) := by
  rw [Continues, List.length_append, ← Nat.add_assoc, next, here, List.append_assoc]

theorem Continues.reaches {contents : Contents} {given : Nat} {values : List UInt8}
    (next : contents.Continues given values) (reaches : contents.Reaches given) :
    contents.Reaches (given + values.length) := by
  cases contents with
  | ended bytes =>
      have counted := congrArg List.length next
      simp only [first, List.length_take, List.length_append] at counted
      simp only [Reaches] at reaches ⊢
      omega
  | endless byte => exact trivial

end Contents

structure Source where
  contents : Contents
  /-- Once so many bytes are read, the next read fails. -/
  failure : Option (Nat × DeviceFailure) := none
  within : ∀ given cause, failure = some (given, cause) → contents.Reaches given

namespace Source

/-- No read fails before so many bytes are read. -/
def SoundUpTo (source : Source) (count : Nat) : Prop :=
  ∀ given cause, source.failure = some (given, cause) → count ≤ given

/-- What a read of at most `size` bytes may give once `given` bytes have been read, and how
many have been read then. -/
inductive Gives (source : Source) (size given : Nat) : ByteStream.Piece → Nat → Prop where
  | interrupted : Gives source size given .interrupted given
  | failed {cause : DeviceFailure} (here : source.failure = some (given, cause)) :
      Gives source size given (.failed cause) given
  | ended {bytes : List UInt8} (whole : source.contents = .ended bytes)
      (all : bytes.length = given) (sound : ∀ cause, source.failure ≠ some (given, cause)) :
      Gives source size given (.bytes []) given
  | bytes {values : List UInt8} (some : values ≠ []) (few : values.length ≤ size)
      (next : source.contents.Continues given values)
      (sound : source.SoundUpTo (given + values.length)) :
      Gives source size given (.bytes values) (given + values.length)

/-- What can have been gathered when reading ends that has begun after `given` bytes. -/
inductive Yields (source : Source) (limit given : Nat) :
    List UInt8 → Option DeviceFailure → Prop where
  | full {values : List UInt8} (many : values.length = limit)
      (next : source.contents.Continues given values)
      (sound : source.SoundUpTo (given + limit)) : Yields source limit given values none
  | ended {values bytes : List UInt8} (few : values.length < limit)
      (next : source.contents.Continues given values) (whole : source.contents = .ended bytes)
      (all : bytes.length = given + values.length)
      (sound : source.SoundUpTo (given + values.length + 1)) :
      Yields source limit given values none
  | failed {values : List UInt8} {cause : DeviceFailure} (few : values.length < limit)
      (here : source.failure = some (given + values.length, cause)) :
      Yields source limit given values (some cause)

theorem Yields.prepend {source : Source} {limit given : Nat} {values later : List UInt8}
    {failure : Option DeviceFailure} (few : values.length ≤ limit)
    (next : source.contents.Continues given values)
    (yields : source.Yields (limit - values.length) (given + values.length) later failure) :
    source.Yields limit given (values ++ later) failure := by
  have counted : (values ++ later).length = values.length + later.length := List.length_append
  have reached : given + values.length + later.length = given + (values ++ later).length := by
    rw [counted, Nat.add_assoc]
  cases yields with
  | full many nextLater sound =>
      refine .full (by omega) (next.append nextLater) ?_
      rw [Nat.add_assoc, Nat.add_sub_cancel' few] at sound
      exact sound
  | ended fewLater nextLater whole all sound =>
      rw [reached] at all sound
      exact .ended (by omega) (next.append nextLater) whole all sound
  | failed fewLater here =>
      rw [reached] at here
      exact .failed (by omega) here

theorem Yields.length_le {source : Source} {limit given : Nat} {values : List UInt8}
    {failure : Option DeviceFailure} (yields : source.Yields limit given values failure) :
    values.length ≤ limit := by
  cases yields with
  | full many next sound => exact Nat.le_of_eq many
  | ended few next whole all sound => exact Nat.le_of_lt few
  | failed few here => exact Nat.le_of_lt few

theorem SoundUpTo.succ {source : Source} {count : Nat} (sound : source.SoundUpTo count)
    (here : ∀ cause, source.failure ≠ some (count, cause)) : source.SoundUpTo (count + 1) := by
  intro given cause failing
  rcases Nat.eq_or_lt_of_le (sound given cause failing) with rfl | later
  · exact absurd failing (here cause)
  · exact later

end Source

namespace Reader

variable {State : Type}

/-- A reader whose states stand for how much of a source has been read gives out that source
read by read. -/
def GivesOut (reader : Reader State) (source : Source) (stands : State → Nat → Prop) : Prop :=
  ∀ state given size, stands state given → 0 < size →
    ∃ after, source.Gives size given (reader.read size state).1 after ∧
      stands (reader.read size state).2 after

theorem gather_of_givesOut {reader : Reader State} {source : Source}
    {stands : State → Nat → Prop} (givesOut : reader.GivesOut source stands) (limit : Nat)
    {given : Nat} {state : State} (here : stands state given) (sound : source.SoundUpTo given) :
    let gathered := reader.gather limit state
    stands gathered.rest (given + gathered.bytes.length) ∧
      source.Yields limit given gathered.bytes gathered.failure := by
  fun_induction reader.gather limit state generalizing given with
  | case1 state => exact ⟨here, .full rfl (source.contents.continues_nil given) sound⟩
  | case2 limit state more rest piece ih =>
      obtain ⟨after, gives, there⟩ := givesOut state given limit here (Nat.pos_of_ne_zero more)
      rw [piece] at gives there
      cases gives with
      | interrupted => exact ih there sound
  | case3 limit state more cause rest piece =>
      obtain ⟨after, gives, there⟩ := givesOut state given limit here (Nat.pos_of_ne_zero more)
      rw [piece] at gives there
      cases gives with
      | failed failing => exact ⟨there, .failed (Nat.pos_of_ne_zero more) failing⟩
  | case4 limit state more rest piece =>
      obtain ⟨after, gives, there⟩ := givesOut state given limit here (Nat.pos_of_ne_zero more)
      rw [piece] at gives there
      cases gives with
      | ended whole all soundHere =>
          exact ⟨there, .ended (Nat.pos_of_ne_zero more) (source.contents.continues_nil given)
            whole all (sound.succ soundHere)⟩
      | bytes some few next soundThen => exact absurd rfl some
  | case5 limit state more value values rest piece later =>
      rename_i ih
      obtain ⟨after, gives, there⟩ := givesOut state given limit here (Nat.pos_of_ne_zero more)
      rw [piece] at gives there
      cases gives with
      | bytes some few next soundThen =>
          obtain ⟨stands, yields⟩ := ih there soundThen
          refine ⟨?_, yields.prepend few next⟩
          rw [Nat.add_assoc, ← List.length_append] at stands
          exact stands

end Reader

end ChipEight
