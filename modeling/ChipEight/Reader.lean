import ChipEight.ByteStream

/-!
# Readers

Anything that bytes can be read from: a state, and what a read makes of it. A reader answers
with what it likes, so nothing is said here of the bytes that it gives; only that it is not
interrupted for ever. Byte streams are one kind of reader.
-/

set_option autoImplicit false

namespace ChipEight

structure Reader (State : Type) where
  /-- A read of at most so many bytes. -/
  read : Nat → State → ByteStream.Piece × State
  /-- A bound on how many reads in a row are interrupted. -/
  patience : State → Nat
  patience_lt : ∀ size state, (read size state).1 = .interrupted →
    patience (read size state).2 < patience state

namespace Reader

variable {State : Type}

/-- What reading has come to. -/
structure Gathered (State : Type) where
  bytes : List UInt8 := []
  /-- The failure that has ended it. -/
  failure : Option DeviceFailure := none
  rest : State

/-- Reads until `limit` bytes are there, the end is reached or a read fails. Interrupted
reads are tried again. -/
def gather (reader : Reader State) (limit : Nat) (state : State) : Gathered State :=
  if limit = 0 then { rest := state }
  else
    -- All that is missing is asked for at once. A reader may always give less, so that smaller
    -- reads are those of another reader.
    match _given : reader.read limit state with
    | (.interrupted, rest) => reader.gather limit rest
    | (.failed cause, rest) => { failure := some cause, rest }
    | (.bytes [], rest) => { rest }
    | (.bytes (value :: values), rest) =>
      let later := reader.gather (limit - (values.length + 1)) rest
      { later with bytes := value :: values ++ later.bytes }
termination_by (limit, reader.patience state)
decreasing_by
  · apply Prod.Lex.right
    have fewer := reader.patience_lt limit state (by rw [_given])
    rw [_given] at fewer
    exact fewer
  · apply Prod.Lex.left
    omega

/-- The bytes, unless reading has failed. -/
def Gathered.outcome (gathered : Gathered State) : Except DeviceFailure (List UInt8) :=
  match gathered.failure with
  | none => .ok gathered.bytes
  | some cause => .error cause

variable {reader : Reader State} {limit : Nat} {state rest : State}

theorem gather_zero (reader : Reader State) (state : State) :
    reader.gather 0 state = { rest := state } := by
  rw [gather, if_pos rfl]

theorem gather_of_interrupted (more : limit ≠ 0)
    (given : reader.read limit state = (.interrupted, rest)) :
    reader.gather limit state = reader.gather limit rest := by
  rw [gather, if_neg more]
  split <;> simp_all

theorem gather_of_failed {cause : DeviceFailure} (more : limit ≠ 0)
    (given : reader.read limit state = (.failed cause, rest)) :
    reader.gather limit state = { failure := some cause, rest } := by
  rw [gather, if_neg more]
  split <;> simp_all

theorem gather_of_ended (more : limit ≠ 0)
    (given : reader.read limit state = (.bytes [], rest)) :
    reader.gather limit state = { rest } := by
  rw [gather, if_neg more]
  split <;> simp_all

theorem gather_of_bytes {values : List UInt8} (more : limit ≠ 0) (some : values ≠ [])
    (given : reader.read limit state = (.bytes values, rest)) :
    reader.gather limit state =
      { reader.gather (limit - values.length) rest with
        bytes := values ++ (reader.gather (limit - values.length) rest).bytes } := by
  obtain ⟨value, values, rfl⟩ := List.exists_cons_of_ne_nil some
  rw [gather, if_neg more]
  split <;> simp_all

theorem Gathered.outcome_prepend (gathered : Gathered State) (values : List UInt8) :
    { gathered with bytes := values ++ gathered.bytes }.outcome =
      gathered.outcome.map (values ++ ·) := by
  obtain ⟨bytes, failure, rest⟩ := gathered
  cases failure with
  | none => rfl
  | some cause => rfl

end Reader

namespace ByteStream

def reader : Reader ByteStream where
  read := ByteStream.read
  patience stream := stream.paces.length
  patience_lt := length_paces_of_interrupted

/-- Both ways of reading a stream gather the same. -/
theorem readUpTo_eq_gather (limit : Nat) (stream : ByteStream) :
    stream.readUpTo limit = (reader.gather limit stream).outcome := by
  fun_induction stream.readUpTo limit with
  | case1 stream =>
      rw [Reader.gather_zero]
      rfl
  | case2 limit stream more rest given ih => rw [Reader.gather_of_interrupted more given, ih]
  | case3 limit stream more cause rest given =>
      rw [Reader.gather_of_failed more given]
      rfl
  | case4 limit stream more rest given =>
      rw [Reader.gather_of_ended more given]
      rfl
  | case5 limit stream more value values rest given cause failed ih =>
      rw [Reader.gather_of_bytes more (List.cons_ne_nil value values) given]
      rw [Reader.Gathered.outcome_prepend]
      exact congrArg (Except.map (value :: values ++ ·)) (failed.symm.trans ih)
  | case6 limit stream more value values rest given later gathered ih =>
      rw [Reader.gather_of_bytes more (List.cons_ne_nil value values) given]
      rw [Reader.Gathered.outcome_prepend]
      exact congrArg (Except.map (value :: values ++ ·)) (gathered.symm.trans ih)

end ByteStream

end ChipEight
