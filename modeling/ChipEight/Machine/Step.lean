import ChipEight.Instruction.Decode
import ChipEight.Machine.Execute

/-!
# Steps

One step counts the delay timer down if it is due, fetches the word at the program
counter, moves the counter on, and executes the instruction. While a key press is
awaited there are no steps.
-/

set_option autoImplicit false

namespace ChipEight.Machine

/-- How long ago the delay timer was set or counted down. A time that goes back counts
as no time. -/
def delayAge (machine : Machine) (now : UInt64) : UInt64 :=
  if machine.delaySince ≤ now then now - machine.delaySince else 0

/-- The bookkeeping of the delay timer at the start of a step: the timer loses one if
it runs and more than a period has gone by. -/
def keepTime (machine : Machine) (now period : UInt64) : Machine :=
  if 0 < machine.delay ∧ period < machine.delayAge now then
    { machine with now, delay := machine.delay - 1, delaySince := now }
  else { machine with now }

def fetch (machine : Machine) : UInt16 :=
  machine.memory.ram.word machine.counter

def advance (machine : Machine) : Machine :=
  { machine with counter := machine.counter + 2 }

/-- One step at the time `now`, with so many ticks to a sixtieth of a second. A step
that fails on its instruction has kept the time and moved the counter on; one that
fails because a key press is awaited has done nothing. -/
def step (machine : Machine) (now period : UInt64) : Except Fault Instruction × Machine :=
  match machine.awaiting with
  | some _ => (.error .awaitingKey, machine)
  | none =>
    let word := machine.fetch
    let ready := (machine.keepTime now period).advance
    match Instruction.decode word with
    | .error fault => (.error fault, ready)
    | .ok instruction =>
      match ready.obstacle? instruction with
      | some fault => (.error fault, ready)
      | none => (.ok instruction, ready.execute instruction)

end ChipEight.Machine
