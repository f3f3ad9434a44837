import ChipEight.Sound.Timer

/-!
# Handles of sound timers

A timer is made with one handle, and every copy of a handle reaches the timer of the handle
that it was copied from. Each access through a handle is a single action. So whatever the
holders of the handles do side by side, their accesses take effect in some order, and a
list of requests is any such order.
-/

set_option autoImplicit false

namespace ChipEight.SoundTimer

inductive Access where
  | get
  | set (value : UInt8)
  | decrement
deriving DecidableEq, Repr

/-- What is asked for. Handles are numbered from zero in the order in which they were made. -/
inductive Request where
  | make
  | copy (source : Nat)
  | access (through : Nat) (access : Access)

/-- An access that has taken effect, with the value that it gave back, if it gives one. -/
structure Effect where
  handle : Handle
  access : Access
  answer : Option UInt8
deriving DecidableEq, Repr

def Counters.access (counters : Counters) (handle : Handle) :
    Access → Option UInt8 × Counters
  | .get => (some (counters.timer handle).value, counters)
  | .set value => (none, counters.put handle ⟨value⟩)
  | .decrement => (counters.decrement handle).map some id

/-- All handles made so far, with the counters that they reach. -/
structure Pool where
  handles : List Handle := []
  counters : Counters := {}

namespace Pool

/-- Serves one request; one with a handle that has not been made does nothing. -/
def serve (pool : Pool) : Request → Option Effect × Pool
  | .make =>
    let (handle, counters) := pool.counters.create
    (none, { handles := pool.handles ++ [handle], counters })
  | .copy source => (none, { pool with handles := pool.handles ++ pool.handles[source]?.toList })
  | .access through access =>
    match pool.handles[through]? with
    | none => (none, pool)
    | some handle =>
      let (answer, counters) := pool.counters.access handle access
      (some { handle, access, answer }, { pool with counters })

/-- Serves requests in turn, and tells what took effect. -/
def serveAll (pool : Pool) : List Request → List Effect × Pool
  | [] => ([], pool)
  | request :: later =>
    let (effect?, next) := pool.serve request
    let (effects, last) := next.serveAll later
    (effect?.toList ++ effects, last)

end Pool

end ChipEight.SoundTimer
