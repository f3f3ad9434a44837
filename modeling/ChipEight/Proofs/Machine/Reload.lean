import ChipEight.Proofs.Machine.History
import ChipEight.Proofs.Machine.Surroundings

/-!
# Loading forgets

A machine that has loaded a program keeps nothing of what was done with it before, but for
the random bytes that are still to come. The time of its last step also stays behind, and
is never looked at again. So two machines are related here that differ in that time and in
how they hold the same coming bytes, and every operation keeps them related.
-/

set_option autoImplicit false

namespace ChipEight

/-- Two sources give the same bytes from now on, however many each has given before. -/
def RandomBytes.Agrees (first second : RandomBytes) : Prop :=
  ∀ later, first.byte (first.drawn + later) = second.byte (second.drawn + later)

namespace RandomBytes.Agrees

variable {first second : RandomBytes}

theorem next (agree : first.Agrees second) : first.next = second.next := agree 0

theorem advance (agree : first.Agrees second) : first.advance.Agrees second.advance := by
  intro later
  have same := agree (1 + later)
  rw [← Nat.add_assoc, ← Nat.add_assoc] at same
  exact same

end RandomBytes.Agrees

/-- A counter that has given bytes goes on like one that starts where it stands. -/
theorem RandomBytes.counter_agrees (start increment : UInt64) (drawn : Nat) :
    RandomBytes.Agrees { counter start increment with drawn }
      (counter (start + UInt64.ofNat drawn * increment) increment) := by
  intro later
  simp only [counter, UInt64.ofNat_add]
  rw [show UInt64.ofNat 0 = 0 from rfl, UInt64.zero_add, UInt64.add_mul, UInt64.add_assoc]

/-- What can be seen of a machine from outside. -/
structure View where
  memory : ProgramMemory
  screen : Screen
  registers : Vector UInt8 16
  index : UInt16
  counter : UInt16
  stack : List UInt16
  delay : UInt8
  sound : SoundTimer
  keypad : Keypad
  awaiting : Option Register
deriving DecidableEq

namespace Machine

def view (machine : Machine) : View where
  memory := machine.memory
  screen := machine.screen
  registers := machine.registers
  index := machine.index
  counter := machine.counter
  stack := machine.stack
  delay := machine.delay
  sound := machine.sound
  keypad := machine.keypad
  awaiting := machine.awaiting

/-- The reply to each of the operations and what can be seen after it. -/
def trace (machine : Machine) : List Operation → List (Reply × View)
  | [] => []
  | operation :: later =>
    let (reply, next) := machine.perform operation
    (reply, next.view) :: next.trace later

/-- The machine with another time of its last step and another source of random bytes. -/
def beside (machine : Machine) (now : UInt64) (random : RandomBytes) : Machine :=
  { machine with now, random }

/-- Machines that differ in the time of their last step at most, with the same random
bytes to come. -/
inductive Alike : Machine → Machine → Prop where
  | intro {machine : Machine} (now : UInt64) (random : RandomBytes)
      (agree : machine.random.Agrees random) : Alike machine (machine.beside now random)

theorem Alike.view_eq {first second : Machine} (alike : Alike first second) :
    first.view = second.view := by
  cases alike with
  | intro now random agree => rfl

/-- Once both have been told the same time, they do the same at every instruction. -/
theorem alike_execute {machine : Machine} {random : RandomBytes}
    (agree : machine.random.Agrees random) (instruction : Instruction) :
    Alike (machine.execute instruction) ({ machine with random }.execute instruction) := by
  by_cases draws : ∃ x mask, instruction = .random x mask
  · obtain ⟨x, mask, rfl⟩ := draws
    have drawn : ({ machine with random } : Machine).execute (.random x mask) =
        { machine.execute (.random x mask) with random := random.advance } := by
      simp only [execute, agree.next, setRegister]
    rw [drawn]
    exact .intro machine.now _ agree.advance
  · have other : ∀ x mask, instruction ≠ .random x mask :=
      fun x mask same => draws ⟨x, mask, same⟩
    have kept : (machine.execute instruction).random = machine.random := by
      have same : machine.execute instruction =
          { machine.execute instruction with random := machine.random } :=
        execute_withRandom machine machine.random other
      rw [same]
    rw [execute_withRandom machine random other]
    exact .intro (machine.execute instruction).now random (kept ▸ agree)

theorem keepTime_beside (machine : Machine) (last now period : UInt64)
    (random : RandomBytes) :
    (machine.beside last random).keepTime now period =
      { machine.keepTime now period with random } := by
  by_cases due : 0 < machine.delay ∧ period < machine.delayAge now
  · rw [keepTime, keepTime, if_pos due]
    exact if_pos due
  · rw [keepTime, keepTime, if_neg due]
    exact if_neg due

/-- A step tells a machine the time before anything can look at it. -/
theorem alike_step {first second : Machine} (alike : Alike first second)
    (now period : UInt64) :
    (first.step now period).1 = (second.step now period).1 ∧
      Alike (first.step now period).2 (second.step now period).2 := by
  cases alike with
  | intro last random agree =>
      cases waiting : first.awaiting with
      | some x =>
          have alsoWaiting : (first.beside last random).awaiting = some x := waiting
          rw [step_of_awaiting waiting, step_of_awaiting alsoWaiting]
          exact ⟨rfl, .intro last random agree⟩
      | none =>
          have alsoRunning : (first.beside last random).awaiting = none := waiting
          have sameWord : (first.beside last random).fetch = first.fetch := rfl
          have told : (first.beside last random).ready now period =
              { first.ready now period with random } := by
            rw [ready, keepTime_beside]
            rfl
          have agreeReady : (first.ready now period).random.Agrees random := by
            rw [ready_eq]
            exact agree
          have ready : Alike (first.ready now period) { first.ready now period with random } :=
            .intro (first.ready now period).now random agreeReady
          rw [step_of_running waiting, step_of_running alsoRunning, told, sameWord]
          cases Instruction.decode first.fetch with
          | error fault => exact ⟨rfl, ready⟩
          | ok instruction =>
              have sameObstacle : ({ first.ready now period with random } : Machine).obstacle?
                  instruction = (first.ready now period).obstacle? instruction :=
                obstacle_within (first.ready now period)
                  { (first.ready now period).surroundings with random } instruction
              dsimp only
              rw [sameObstacle]
              cases (first.ready now period).obstacle? instruction with
              | some fault => exact ⟨rfl, ready⟩
              | none => exact ⟨rfl, alike_execute agreeReady instruction⟩

theorem alike_resume {first second : Machine} (alike : Alike first second) (key : UInt8) :
    Alike (first.resume key) (second.resume key) := by
  cases alike with
  | intro now random agree =>
      cases waiting : first.awaiting with
      | none =>
          have alsoRunning : (first.beside now random).awaiting = none := waiting
          rw [resume_of_running waiting, resume_of_running alsoRunning]
          exact .intro now random agree
      | some x =>
          have alsoWaiting : (first.beside now random).awaiting = some x := waiting
          rw [resume_of_awaiting waiting, resume_of_awaiting alsoWaiting]
          exact .intro now random agree

theorem alike_install {first second : Machine} (alike : Alike first second)
    (outcome : Except Fault Unit × ProgramMemory) :
    (first.install outcome).1 = (second.install outcome).1 ∧
      Alike (first.install outcome).2 (second.install outcome).2 := by
  obtain ⟨result, memory⟩ := outcome
  cases alike with
  | intro now random agree =>
      cases result with
      | ok done => exact ⟨rfl, .intro now random agree⟩
      | error fault => exact ⟨rfl, .intro now random agree⟩

theorem alike_perform {first second : Machine} (alike : Alike first second)
    (operation : Operation) :
    (first.perform operation).1 = (second.perform operation).1 ∧
      Alike (first.perform operation).2 (second.perform operation).2 := by
  have sameMemory : first.memory = second.memory := congrArg View.memory alike.view_eq
  cases operation with
  | step now period =>
      obtain ⟨outcome, after⟩ := alike_step alike now period
      exact ⟨congrArg Reply.ofStep outcome, after⟩
  | press key =>
      by_cases large : 0xf < key
      · rw [perform, perform, press_of_large large, press_of_large large]
        exact ⟨rfl, alike⟩
      · have small : key ≤ 0xf := UInt8.not_lt.mp large
        rw [perform, perform, press_of_small small, press_of_small small]
        refine ⟨rfl, alike_resume ?_ key⟩
        cases alike with
        | intro now random agree => exact .intro now random agree
  | release key =>
      by_cases large : 0xf < key
      · rw [perform, perform, release_of_large large, release_of_large large]
        exact ⟨rfl, alike⟩
      · have small : key ≤ 0xf := UInt8.not_lt.mp large
        rw [perform, perform, release_of_small small, release_of_small small]
        cases alike with
        | intro now random agree => exact ⟨rfl, .intro now random agree⟩
  | load program =>
      obtain ⟨outcome, after⟩ := alike_install alike (first.memory.load program)
      rw [perform, perform, load, load, ← sameMemory]
      exact ⟨congrArg Reply.ofOutcome outcome, after⟩
  | loadFrom stream =>
      obtain ⟨outcome, after⟩ := alike_install alike (first.memory.loadFrom stream)
      rw [perform, perform, loadFrom, loadFrom, ← sameMemory]
      exact ⟨congrArg Reply.ofOutcome outcome, after⟩
  | readSound | writeSound value | lowerSound =>
      cases alike with
      | intro now random agree => exact ⟨rfl, .intro now random agree⟩

theorem Alike.trace_eq {first second : Machine} (alike : Alike first second)
    (operations : List Operation) : first.trace operations = second.trace operations := by
  induction operations generalizing first second with
  | nil => rfl
  | cons operation later ih =>
      obtain ⟨reply, after⟩ := alike_perform alike operation
      simp only [trace]
      rw [reply, after.view_eq, ih after]

/-- At the usual place a machine that has loaded a program holds nothing older than the
load but its clock and its random bytes. -/
theorem alike_loaded {first second : Machine} (program : List UInt8)
    (agree : first.random.Agrees second.random) :
    Alike (first.loaded program) (second.loaded program) := by
  have beside : Alike (first.loaded program)
      ((first.loaded program).beside second.now second.random) :=
    .intro second.now second.random agree
  exact beside

theorem length_le_of_load {machine : Machine} {program : List UInt8}
    (loaded : (machine.load program).1 = .ok ()) : program.length ≤ programLimit := by
  refine Nat.not_lt.mp fun large => ?_
  rw [load_of_large large] at loaded
  cases loaded

/-- Loading forgets all history. Two machines may have come to be in any way: if their
random bytes still to come are the same and one has loaded a program, then the other loads
it too, and from there on no operations tell them apart, by a reply or by what can be seen
of the machine after it. A new machine is one of them. -/
theorem trace_eq_of_load {first second : Machine} {program : List UInt8}
    (firstReached : Reachable first) (secondReached : Reachable second)
    (agree : first.random.Agrees second.random)
    (firstLoaded : (first.load program).1 = .ok ()) :
    (second.load program).1 = .ok () ∧
      (first.load program).2.view = (second.load program).2.view ∧
      ∀ operations,
        (first.load program).2.trace operations = (second.load program).2.trace operations := by
  have small := length_le_of_load firstLoaded
  rw [load_of_small firstReached.origin small, load_of_small secondReached.origin small]
  have alike := alike_loaded program agree
  exact ⟨rfl, alike.view_eq, alike.trace_eq⟩

set_option maxRecDepth 20000 in
/-- A machine that has drawn a byte, set the delay timer, called a subroutine and waits for
a key there, and a new one whose counter of random bytes starts where the other's stands. -/
theorem trace_eq_of_load_awaiting_key :
    let used := ((new (.counter 7 3)).performAll
      [.load [0xc0, 0xff, 0x61, 0x05, 0xf1, 0x15, 0x22, 0x0a, 0x00, 0x00, 0xf2, 0x0a],
        .step 1 1, .step 2 1, .step 3 1, .step 4 1, .step 9 1]).2
    let fresh := new (.counter 10 3)
    let program : List UInt8 := [0xc0, 0xff, 0xf1, 0x07, 0xf2, 0x0a]
    let operations : List Operation :=
      [.step 0 1, .step 0 1, .lowerSound, .step 5 1, .press 4, .step 7 1]
    (used.awaiting = some 2 ∧ used.stack = [0x208] ∧ used.delay = 4) ∧
      used.random.Agrees fresh.random ∧ (used.load program).1 = .ok () ∧
      (fresh.load program).1 = .ok () ∧
      (used.load program).2.trace operations = (fresh.load program).2.trace operations := by
  intro used fresh program operations
  have usedReached : Reachable used := (Reachable.new (.counter 7 3)).performAll _
  have freshReached : Reachable fresh := .new (.counter 10 3)
  have drawn : used.random = { RandomBytes.counter 7 3 with drawn := 1 } := by rfl
  have stands : (10 : UInt64) = 7 + UInt64.ofNat 1 * 3 := by decide
  have agree : used.random.Agrees (.counter 10 3) := by
    rw [drawn, stands]
    exact RandomBytes.counter_agrees 7 3 1
  have loaded : (used.load program).1 = .ok () := by
    rw [load_of_small usedReached.origin (by decide)]
  obtain ⟨loadedToo, -, same⟩ := trace_eq_of_load usedReached freshReached agree loaded
  exact ⟨by decide +kernel, agree, loaded, loadedToo, same operations⟩

end Machine

end ChipEight
