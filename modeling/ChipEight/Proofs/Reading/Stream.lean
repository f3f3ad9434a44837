import ChipEight.Proofs.Reading.Source

/-!
# Streams as sources

A byte stream whose reads give something until it ends gives out its own contents.
-/

set_option autoImplicit false

namespace ChipEight.ByteStream

/-- All bytes still to come, those after the data included. -/
def contents (stream : ByteStream) : Contents :=
  match stream.fill with
  | none => .ended stream.data
  | some value => .endless fun position => stream.data[position]?.getD value

/-- No read is for nothing, and a failure comes at the end at the latest. -/
structure Proper (stream : ByteStream) : Prop where
  paces : .atMost 0 ∉ stream.paces
  chunk : stream.chunk ≠ some 0
  within : ∀ given cause, stream.failure = some (given, cause) → stream.contents.Reaches given

def source (stream : ByteStream) (proper : stream.Proper) : Source where
  contents := stream.contents
  failure := stream.failure
  within := proper.within

/-- What is left of a stream once `given` bytes have been read. -/
structure LeftOf (start stream : ByteStream) (given : Nat) : Prop where
  data : stream.data = start.data.drop given
  fill : stream.fill = start.fill
  failure : stream.failure = start.failure.map fun (count, cause) => (count - given, cause)
  sound : ∀ count cause, start.failure = some (count, cause) → given ≤ count
  reaches : start.contents.Reaches given
  paces : .atMost 0 ∉ stream.paces
  chunk : stream.chunk ≠ some 0

theorem Proper.leftOf {stream : ByteStream} (proper : stream.Proper) :
    LeftOf stream stream 0 where
  data := rfl
  fill := rfl
  failure := by
    cases stream.failure with
    | none => rfl
    | some failing => rfl
  sound _ _ _ := Nat.zero_le _
  reaches := by
    unfold contents
    split
    · exact Nat.zero_le _
    · exact trivial
  paces := proper.paces
  chunk := proper.chunk

/-! ## Giving bytes -/

theorem length_give_le (count : Nat) (stream : ByteStream) :
    (stream.give count).1.length ≤ count := by
  have direct : (stream.data.take count).length ≤ count := List.length_take_le count _
  rw [give]
  cases stream.fill with
  | none =>
      rw [List.append_nil]
      exact direct
  | some value =>
      rw [List.length_append, List.length_replicate]
      omega

theorem padded_eq (data : List UInt8) (value : UInt8) (given count : Nat) :
    (data.drop given).take count ++
        List.replicate (count - ((data.drop given).take count).length) value =
      (List.range count).map fun position => data[given + position]?.getD value := by
  apply List.ext_getElem
  · have short : ((data.drop given).take count).length ≤ count := List.length_take_le count _
    rw [List.length_append, List.length_replicate, List.length_map, List.length_range]
    omega
  · intro position inside _
    rw [List.getElem_map, List.getElem_range, List.getElem_append]
    split
    case isTrue direct =>
        have stored : given + position < data.length := by
          rw [List.length_take, List.length_drop] at direct
          omega
        rw [List.getElem_take, List.getElem_drop, List.getElem?_eq_getElem stored,
          Option.getD_some]
    case isFalse beyond =>
        have outside : data.length ≤ given + position := by
          rw [List.length_append, List.length_replicate] at inside
          rw [List.length_take, List.length_drop] at beyond inside
          omega
        rw [List.getElem_replicate, List.getElem?_eq_none outside, Option.getD_none]

theorem continues_give {start stream : ByteStream} {given : Nat} (left : LeftOf start stream given)
    (count : Nat) : start.contents.Continues given (stream.give count).1 := by
  obtain ⟨data, fill, -, -, -, -, -⟩ := left
  rw [Contents.Continues, give, data, contents, ← fill]
  cases filled : stream.fill with
  | none =>
      dsimp only
      rw [List.append_nil, Contents.first, Contents.first, List.take_add, List.length_take,
        ← List.take_take, List.take_length]
  | some value =>
      dsimp only
      rw [padded_eq, List.length_map, List.length_range, Contents.first, Contents.first,
        List.range_add, List.map_append, List.map_map]
      rfl

theorem drop_length_give (count : Nat) (stream : ByteStream) :
    stream.data.drop (stream.give count).1.length = stream.data.drop count := by
  rw [give]
  cases stream.fill with
  | none =>
      dsimp only
      rw [List.append_nil, List.length_take]
      rcases Nat.le_total count stream.data.length with short | long
      · rw [Nat.min_eq_left short]
      · rw [Nat.min_eq_right long, List.drop_length, List.drop_eq_nil_of_le long]
  | some value =>
      dsimp only
      rw [List.length_append, List.length_replicate]
      congr 1
      have direct : (stream.data.take count).length ≤ count := List.length_take_le count _
      omega

theorem LeftOf.give {start stream : ByteStream} {given count : Nat}
    (left : LeftOf start stream given)
    (sound : ∀ failing cause, start.failure = some (failing, cause) → given + count ≤ failing) :
    LeftOf start (stream.give count).2 (given + (stream.give count).1.length) where
  data := by
    rw [← List.drop_drop, ← left.data, drop_length_give]
    rfl
  fill := left.fill
  failure := by
    change stream.failure.map _ = _
    rw [left.failure, Option.map_map]
    congr 1
    funext failing
    exact congrArg (·, failing.2) (Nat.sub_sub failing.1 given _)
  sound failing cause known :=
    Nat.le_trans (Nat.add_le_add_left (length_give_le count stream) given)
      (sound failing cause known)
  reaches := (continues_give left count).reaches left.reaches
  paces := left.paces
  chunk := left.chunk

/-- Nothing is given only where the contents end. -/
theorem contents_of_give_nil {start stream : ByteStream} {given count : Nat}
    (left : LeftOf start stream given) (positive : 0 < count)
    (nothing : (stream.give count).1 = []) :
    start.contents = .ended start.data ∧ start.data.length = given := by
  have reaches := left.reaches
  rw [contents, ← left.fill] at reaches ⊢
  rw [ByteStream.give, left.data] at nothing
  cases filled : stream.fill with
  | none =>
      rw [filled] at reaches nothing
      dsimp only at reaches nothing
      rw [List.append_nil, List.take_eq_nil_iff, List.drop_eq_nil_iff] at nothing
      refine ⟨rfl, Nat.le_antisymm ?_ reaches⟩
      rcases nothing with none | short
      · omega
      · exact short
  | some value =>
      rw [filled] at nothing
      dsimp only at nothing
      have counted := congrArg List.length nothing
      rw [padded_eq, List.length_map, List.length_range, List.length_nil] at counted
      omega

/-! ## Reading -/

variable {start stream : ByteStream} {size given count : Nat}

theorem gives_give (proper : start.Proper) (left : LeftOf start stream given)
    (positive : 0 < count) (few : count ≤ size)
    (sound : ∀ failing cause, start.failure = some (failing, cause) → given + count ≤ failing) :
    ∃ after, (start.source proper).Gives size given (.bytes (stream.give count).1) after ∧
      LeftOf start (stream.give count).2 after := by
  refine ⟨_, ?_, left.give sound⟩
  by_cases nothing : (stream.give count).1 = []
  · obtain ⟨whole, all⟩ := contents_of_give_nil left positive nothing
    rw [nothing]
    refine .ended whole all fun cause failing => ?_
    have later := sound given cause failing
    omega
  · refine .bytes nothing (Nat.le_trans (length_give_le count stream) few)
      (continues_give left count) fun failing cause known => ?_
    exact (left.give sound).sound failing cause known

theorem LeftOf.failure_of_some {room : Nat} {cause : DeviceFailure}
    (left : LeftOf start stream given) (here : stream.failure = some (room, cause)) :
    start.failure = some (given + room, cause) := by
  obtain ⟨⟨failing, known⟩, origin, same⟩ :=
    Option.map_eq_some_iff.mp (left.failure.symm.trans here)
  obtain ⟨rfl, rfl⟩ := Prod.mk.inj same
  rw [Nat.add_sub_cancel' (left.sound failing known origin)]
  exact origin

theorem gives_take (proper : start.Proper) (left : LeftOf start stream given)
    (positive : 0 < count) (few : count ≤ size) :
    ∃ after, (start.source proper).Gives size given (stream.take count).1 after ∧
      LeftOf start (stream.take count).2 after := by
  unfold take
  split
  case h_1 cause here => exact ⟨given, .failed (left.failure_of_some here), left⟩
  case h_2 room cause later here =>
      have more : room ≠ 0 := later
      refine gives_give proper left (by omega) (Nat.le_trans (Nat.min_le_left count room) few) ?_
      intro failing known origin
      rw [left.failure_of_some here] at origin
      cases origin
      omega
  case h_3 here =>
      refine gives_give proper left positive few fun failing known origin => ?_
      have unsound := left.failure
      rw [here, origin] at unsound
      cases unsound

theorem gives_read (proper : start.Proper) (left : LeftOf start stream given)
    (positive : 0 < size) :
    ∃ after, (start.source proper).Gives size given (stream.read size).1 after ∧
      LeftOf start (stream.read size).2 after := by
  have paces := left.paces
  unfold read
  split
  case h_1 later paced =>
      rw [paced] at paces
      exact ⟨given, .interrupted,
        { left with paces := fun among => paces (List.mem_cons_of_mem _ among) }⟩
  case h_2 most later paced =>
      rw [paced] at paces
      have some : most ≠ 0 := fun none => paces (none ▸ List.mem_cons_self)
      have onward : LeftOf start { stream with paces := later } given :=
        { left with paces := fun among => paces (List.mem_cons_of_mem _ among) }
      exact gives_take proper onward (by omega) (Nat.min_le_left size most)
  case h_3 spent =>
      have some : stream.chunk.getD size ≠ 0 := by
        cases limited : stream.chunk with
        | none => exact Nat.ne_of_gt positive
        | some most => exact fun none => left.chunk (limited.trans (congrArg Option.some none))
      exact gives_take proper left (by omega) (Nat.min_le_left size _)

theorem reader_givesOut (proper : start.Proper) :
    reader.GivesOut (start.source proper) (LeftOf start) :=
  fun _ _ _ left positive => gives_read proper left positive

end ChipEight.ByteStream
