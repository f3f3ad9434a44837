import ChipEight.Proofs.Machine.History
import ChipEight.Proofs.Reading.Stream

/-!
# Loading from a reader

Loading reads one byte more than a program may have and no further. What comes of it depends
on the contents of the source and on where it fails, and not on how a reader cuts the contents
up or how often it is interrupted.
-/

set_option autoImplicit false

namespace ChipEight.Machine

variable {State : Type} {reader : Reader State} {state : State} {source : Source}

/-! ## What has been gathered -/

theorem loadThrough_of_bytes {program : List UInt8}
    (gathered : (reader.gather (programLimit + 1) state).outcome = .ok program)
    (machine : Machine) : machine.loadThrough reader state = machine.load program := by
  rw [loadThrough, ProgramMemory.loadThrough, gathered]
  rfl

theorem loadThrough_of_failure {cause : DeviceFailure}
    (failed : (reader.gather (programLimit + 1) state).outcome = .error cause)
    (machine : Machine) :
    machine.loadThrough reader state = (.error (.programUnreadable cause), machine) := by
  rw [loadThrough, ProgramMemory.loadThrough, failed]
  rfl

theorem loadFrom_eq_loadThrough (machine : Machine) (stream : ByteStream) :
    machine.loadFrom stream = machine.loadThrough ByteStream.reader stream := by
  rw [loadFrom, loadThrough, ProgramMemory.loadFrom_eq_loadThrough]

/-! ## What comes of a source -/

/-- What loading from a source has to come to on a machine. -/
structure LoadsFrom (source : Source) (machine : Machine)
    (outcome : Except Fault Unit × Machine) : Prop where
  tooLarge : source.contents.Reaches 3505 → source.SoundUpTo 3505 →
    outcome = (.error (.programTooLarge 3505 3504), machine)
  unreadable : ∀ given cause, source.failure = some (given, cause) → given < 3505 →
    outcome = (.error (.programUnreadable cause), machine)
  whole : ∀ program, source.contents = .ended program → program.length < 3505 →
    source.SoundUpTo 3505 → outcome = machine.load program

theorem LoadsFrom.unique {machine : Machine} {first second : Except Fault Unit × Machine}
    (ofFirst : LoadsFrom source machine first) (ofSecond : LoadsFrom source machine second) :
    first = second := by
  by_cases sound : source.SoundUpTo 3505
  · by_cases reaches : source.contents.Reaches 3505
    · rw [ofFirst.tooLarge reaches sound, ofSecond.tooLarge reaches sound]
    · cases held : source.contents with
      | ended program =>
          rw [held] at reaches
          have short : program.length < 3505 := Nat.lt_of_not_le reaches
          rw [ofFirst.whole program held short sound, ofSecond.whole program held short sound]
      | endless byte =>
          rw [held] at reaches
          exact absurd trivial reaches
  · obtain ⟨given, cause, failing, early⟩ :
        ∃ given cause, source.failure = some (given, cause) ∧ given < 3505 := by
      simpa [Source.SoundUpTo] using sound
    rw [ofFirst.unreadable given cause failing early,
      ofSecond.unreadable given cause failing early]

theorem loadsFrom_of_full {machine : Machine} {values : List UInt8}
    (many : values.length = 3505) (next : source.contents.Continues 0 values)
    (sound : source.SoundUpTo 3505) : LoadsFrom source machine (machine.load values) where
  tooLarge _ _ := by
    rw [load_of_large (many ▸ by decide), many]
    rfl
  unreadable given cause failing early := by
    have late := sound given cause failing
    omega
  whole program held short _ := by
    have counted := congrArg List.length next
    rw [held] at counted
    simp only [Contents.first, List.length_take, List.length_append] at counted
    omega

theorem loadsFrom_of_ended {machine : Machine} {values bytes : List UInt8}
    (few : values.length < 3505) (next : source.contents.Continues 0 values)
    (held : source.contents = .ended bytes) (all : bytes.length = values.length)
    (sound : source.SoundUpTo (values.length + 1)) :
    LoadsFrom source machine (machine.load values) where
  tooLarge reaches _ := by
    rw [held] at reaches
    simp only [Contents.Reaches] at reaches
    omega
  unreadable given cause failing _ := by
    have late := sound given cause failing
    have within := source.within given cause failing
    rw [held] at within
    simp only [Contents.Reaches] at within
    omega
  whole program same _ _ := by
    obtain rfl := Contents.ended.inj (held.symm.trans same)
    rw [Contents.Continues, held, Contents.first, Contents.first, Nat.zero_add, ← all,
      List.take_length] at next
    rw [next]
    rfl

theorem loadsFrom_of_failed {machine : Machine} {given : Nat} {cause : DeviceFailure}
    (early : given < 3505) (here : source.failure = some (given, cause)) :
    LoadsFrom source machine (.error (.programUnreadable cause), machine) where
  tooLarge _ sound := by
    have late := sound given cause here
    omega
  unreadable other known failing _ := by
    obtain ⟨-, rfl⟩ := Prod.mk.inj (Option.some.inj (here.symm.trans failing))
    rfl
  whole _ _ _ sound := by
    have late := sound given cause here
    omega

theorem loadsFrom_of_givesOut {stands : State → Nat → Prop}
    (givesOut : reader.GivesOut source stands) (fresh : stands state 0) (machine : Machine) :
    LoadsFrom source machine (machine.loadThrough reader state) := by
  have limit : programLimit + 1 = 3505 := rfl
  obtain ⟨-, yields⟩ := reader.gather_of_givesOut givesOut (programLimit + 1) fresh
    fun _ _ _ => Nat.zero_le _
  rcases gathered : reader.gather (programLimit + 1) state with ⟨bytes, failure, rest⟩
  rw [gathered] at yields
  cases yields with
  | full many next sound =>
      rw [loadThrough_of_bytes (congrArg Reader.Gathered.outcome gathered)]
      rw [Nat.zero_add] at sound
      exact loadsFrom_of_full many next sound
  | ended few next held all sound =>
      rw [loadThrough_of_bytes (congrArg Reader.Gathered.outcome gathered)]
      rw [Nat.zero_add] at all sound
      exact loadsFrom_of_ended few next held all sound
  | failed few here =>
      rw [loadThrough_of_failure (congrArg Reader.Gathered.outcome gathered)]
      rw [Nat.zero_add] at here
      exact loadsFrom_of_failed few here

/-- Of a reader, loading takes 3505 bytes at most. What it comes to follows from the source
that the reader gives out, so that every other reader of that source comes to the same. Byte
streams are readers of their contents. -/
theorem loadThrough_of_source {stands : State → Nat → Prop}
    (givesOut : reader.GivesOut source stands) (fresh : stands state 0) (machine : Machine) :
    let gathered := reader.gather (programLimit + 1) state
    (gathered.bytes.length ≤ 3505 ∧ stands gathered.rest gathered.bytes.length) ∧
    LoadsFrom source machine (machine.loadThrough reader state) ∧
    (∀ {Other : Type} (other : Reader Other) (alsoStands : Other → Nat → Prop) (start : Other),
      other.GivesOut source alsoStands → alsoStands start 0 →
        machine.loadThrough other start = machine.loadThrough reader state) ∧
    ∀ (stream : ByteStream) (proper : stream.Proper),
      machine.loadFrom stream = machine.loadThrough ByteStream.reader stream ∧
      LoadsFrom (stream.source proper) machine (machine.loadFrom stream) := by
  intro gathered
  have loads := loadsFrom_of_givesOut givesOut fresh machine
  refine ⟨?_, loads, ?_, ?_⟩
  · obtain ⟨there, yields⟩ := reader.gather_of_givesOut givesOut (programLimit + 1) fresh
      fun _ _ _ => Nat.zero_le _
    rw [Nat.zero_add] at there
    exact ⟨yields.length_le, there⟩
  · intro Other other alsoStands start alsoGivesOut alsoFresh
    exact (loadsFrom_of_givesOut alsoGivesOut alsoFresh machine).unique loads
  · intro stream proper
    refine ⟨machine.loadFrom_eq_loadThrough stream, ?_⟩
    rw [loadFrom_eq_loadThrough]
    exact loadsFrom_of_givesOut (ByteStream.reader_givesOut proper) proper.leftOf machine

/-- The longest program, in small pieces with interruptions between them, and one byte more. A
read that fails right at the end of a program is met, one that fails a byte later is not. -/
theorem loadThrough_of_source_edges :
    let machine := new (.counter 0 1)
    let cause := DeviceFailure.device "disk on fire"
    let stream (length : Nat) (failure : Option (Nat × DeviceFailure)) : ByteStream :=
      { data := List.replicate length 0x12
        paces := [.interrupted, .atMost 1, .interrupted]
        chunk := some 100
        failure }
    machine.loadThrough ByteStream.reader (stream 3504 none) =
        machine.load (List.replicate 3504 0x12) ∧
      machine.loadThrough ByteStream.reader (stream 3504 (some (3504, cause))) =
        (.error (.programUnreadable cause), machine) ∧
      machine.loadThrough ByteStream.reader (stream 3505 (some (3505, cause))) =
        (.error (.programTooLarge 3505 3504), machine) := by
  intro machine cause stream
  have proper : ∀ length failure, (∀ given cause, failure = some (given, cause) →
      given ≤ length) → (stream length failure).Proper := by
    intro length failure atEnd
    refine ⟨by simp [stream], by simp [stream], fun given cause failing => ?_⟩
    change given ≤ (List.replicate length (0x12 : UInt8)).length
    rw [List.length_replicate]
    exact atEnd given cause failing
  have whole := proper 3504 none nofun
  have broken := proper 3504 (some (3504, cause)) fun given other same => by cases same; decide
  have long := proper 3505 (some (3505, cause)) fun given other same => by cases same; decide
  obtain ⟨-, ofWhole, -⟩ :=
    loadThrough_of_source (ByteStream.reader_givesOut whole) whole.leftOf machine
  obtain ⟨-, ofBroken, -⟩ :=
    loadThrough_of_source (ByteStream.reader_givesOut broken) broken.leftOf machine
  obtain ⟨-, ofLong, -⟩ :=
    loadThrough_of_source (ByteStream.reader_givesOut long) long.leftOf machine
  refine ⟨ofWhole.whole _ rfl ?_ nofun, ofBroken.unreadable 3504 cause rfl (by decide),
    ofLong.tooLarge ?_ ?_⟩
  · rw [List.length_replicate]
    decide
  · change 3505 ≤ (List.replicate 3505 (0x12 : UInt8)).length
    exact Nat.le_of_eq List.length_replicate.symm
  · intro given other same
    cases same
    decide

end ChipEight.Machine
