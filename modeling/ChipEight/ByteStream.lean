import ChipEight.Fault

/-!
# Byte streams

A source of bytes that is read piece by piece. A read may give fewer bytes than
were asked for, may be interrupted and tried again, and may fail for good.
`readUpTo` gathers a bounded number of bytes from such reads.
-/

set_option autoImplicit false

namespace ChipEight

inductive ReadPace where
  /-- The read gives nothing and is to be tried again. -/
  | interrupted
  /-- The read gives at most so many bytes. -/
  | atMost (size : Nat)
deriving DecidableEq, Repr

structure ByteStream where
  data : List UInt8 := []
  /-- What comes after `data`, without end; if absent the stream ends there. -/
  fill : Option UInt8 := none
  /-- How the next reads go, one entry a read. -/
  paces : List ReadPace := []
  /-- The most that a read gives once `paces` is used up; if absent there is no limit. -/
  chunk : Option Nat := none
  /-- Once so many more bytes have been given out, the next read fails with this cause. -/
  failure : Option (Nat × DeviceFailure) := none

namespace ByteStream

inductive Piece where
  | interrupted
  | failed (cause : DeviceFailure)
  /-- Some bytes; none at all means that the stream is at its end. -/
  | bytes (values : List UInt8)
deriving DecidableEq, Repr

/-- The next `count` bytes and the stream after them. -/
def give (count : Nat) (stream : ByteStream) : List UInt8 × ByteStream :=
  let direct := stream.data.take count
  let filled := match stream.fill with
    | some value => List.replicate (count - direct.length) value
    | none => []
  let values := direct ++ filled
  (values,
    { stream with
      data := stream.data.drop count
      failure := stream.failure.map fun (left, cause) => (left - values.length, cause) })

/-- The bytes that a read of at most `size` bytes gives. It does not pass the point
where the stream fails, and at that point it fails. -/
def take (size : Nat) (stream : ByteStream) : Piece × ByteStream :=
  match stream.failure with
  | some (0, cause) => (.failed cause, stream)
  | some (left, _) =>
    let (values, rest) := stream.give (min size left)
    (.bytes values, rest)
  | none =>
    let (values, rest) := stream.give size
    (.bytes values, rest)

def read (size : Nat) (stream : ByteStream) : Piece × ByteStream :=
  match stream.paces with
  | .interrupted :: later => (.interrupted, { stream with paces := later })
  | .atMost most :: later => ({ stream with paces := later }).take (min size most)
  | [] => stream.take (min size (stream.chunk.getD size))

theorem take_ne_interrupted (size : Nat) (stream : ByteStream) :
    (stream.take size).1 ≠ .interrupted := by
  unfold take
  split <;> exact nofun

/-- An interrupted read uses up one pace. -/
theorem length_paces_of_interrupted (size : Nat) (stream : ByteStream)
    (stopped : (stream.read size).1 = .interrupted) :
    (stream.read size).2.paces.length < stream.paces.length := by
  obtain ⟨data, fill, paces, chunk, failure⟩ := stream
  cases paces with
  | nil => exact absurd stopped (take_ne_interrupted _ _)
  | cons pace later =>
      cases pace with
      | interrupted => exact Nat.lt_succ_self later.length
      | atMost most => exact absurd stopped (take_ne_interrupted _ _)

/-- Gathers bytes until `limit` of them are there or the stream ends. Interrupted
reads are tried again; any other failure is the outcome. -/
def readUpTo (limit : Nat) (stream : ByteStream) : Except DeviceFailure (List UInt8) :=
  if limit = 0 then .ok []
  else
    match _given : stream.read limit with
    | (.interrupted, rest) => readUpTo limit rest
    | (.failed cause, _) => .error cause
    | (.bytes [], _) => .ok []
    | (.bytes (value :: values), rest) =>
      match readUpTo (limit - (values.length + 1)) rest with
      | .error cause => .error cause
      | .ok later => .ok (value :: values ++ later)
termination_by (limit, stream.paces.length)
decreasing_by
  · apply Prod.Lex.right
    have fewer := length_paces_of_interrupted limit stream (by rw [_given])
    rw [_given] at fewer
    exact fewer
  · apply Prod.Lex.left
    omega

def ofList (data : List UInt8) : ByteStream := { data }

def broken (cause : DeviceFailure) : ByteStream := { failure := some (0, cause) }

end ByteStream

end ChipEight
