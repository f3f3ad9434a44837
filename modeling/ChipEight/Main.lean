import ChipEight.CommandLine.Command
import ChipEight.Sound.Tick
import ChipEight.Terminal.Escape
import ChipEight.Terminal.Typing

/-!
# Running in a terminal

Carries the command out on real devices: a file, the clock, standard input and output.
Whatever has to be decided is decided by the modules imported here.
-/

set_option autoImplicit false

namespace ChipEight.Console

open CommandLine

/-- The failure that an error of the operating system stands for. -/
def failureOf : IO.Error → DeviceFailure
  | .noFileOrDirectory _ _ _ => .notFound
  | .inappropriateType _ _ _ => .isDirectory
  | failure => .device (toString failure)

/-- Reads a file until it ends or is longer than any program. -/
def readBytes (handle : IO.FS.Handle) : (reads : Nat) → ByteArray → IO ByteArray
  | 0, gathered => return gathered
  | reads + 1, gathered => do
    let piece ← handle.read (USize.ofNat (programLimit + 1))
    if piece.isEmpty || programLimit < gathered.size then return gathered
    readBytes handle reads (gathered ++ piece)

/-- Opens a file as a stream of bytes. A file that opens but cannot be read is a stream
that fails. -/
def openProgram (path : String) : IO (Except DeviceFailure ByteStream) := do
  match ← (IO.FS.Handle.mk path .read).toBaseIO with
  | .error failure => return .error (failureOf failure)
  | .ok handle =>
    match ← (readBytes handle (programLimit + 1) .empty).toBaseIO with
    | .error failure => return .ok (.broken (failureOf failure))
    | .ok bytes => return .ok (.ofList bytes.toList)

/-- The size that the terminal is said to have. -/
def terminalSize : IO GridSize := do
  let said (name : String) (otherwise : Nat) : IO Nat := do
    return ((← IO.getEnv name).bind String.toNat?).getD otherwise
  return ⟨← said "COLUMNS" 80, ← said "LINES" 40⟩

def elapsed (start : Nat) : IO Nat := return (← IO.monoNanosNow) - start

/-- Passes on what is typed, for as long as there is something to read. -/
partial def listen (input : IO.FS.Stream) (typed : IO.Ref (List TerminalEvent)) : IO Unit := do
  let bytes ← input.read 64
  if bytes.isEmpty then return
  typed.modify (· ++ TerminalEvent.ofBytes bytes.toList)
  listen input typed

structure State where
  run : Run
  keyboard : Keyboard
  display : TerminalDisplay
  tone : Speaker.Tone := {}
  nextTick : Nat := 0

def draw (output : IO.FS.Stream) (state : State) : IO (Except DeviceFailure Unit × State) := do
  let (outcome, display) := state.display.draw state.run.machine.screen
  output.putStr (Escape.change state.display.shown display.shown)
  output.flush
  return (outcome, { state with display })

/-- Lets the audio side make its tick if one is due. -/
def sound (output : IO.FS.Stream) (mute : Bool) (now : Nat) (state : State) : IO State := do
  if now < state.nextTick then return state
  let machine := state.run.machine
  let (_, timer, tone) := machine.sound.tick Speaker.toneGenerator state.tone
  if tone.sounding && !state.tone.sounding && !mute then output.putStr Escape.bell
  let run := { state.run with machine := { machine with sound := timer } }
  return { state with run, tone, nextTick := state.nextTick + delayPeriod.toNat }

partial def follow (output : IO.FS.Stream) (typed : IO.Ref (List TerminalEvent))
    (options : Options) (start : Nat) (state : State) :
    IO (Except RunFailure Nat × State) := do
  if options.pacing.spent state.run.cycles then return (.ok state.run.cycles, state)
  let startTime ← elapsed start
  let state ← sound output options.mute startTime state
  let arrived ← typed.modifyGet fun events => (events, [])
  let closing ← elapsed start
  let (events, keyboard) := state.keyboard.poll (arrived.map fun event => (closing, event)) closing
  let reading : Reading := ⟨startTime, ← elapsed start⟩
  match state.run.cycle options.pacing (.ok events) reading with
  | (.ended outcome, run) => return (outcome, { state with run, keyboard })
  | (.completed due, run) =>
    let state := { state with run, keyboard }
    let (drawn, state) ← if due then draw output state else pure (.ok (), state)
    if let .error cause := drawn then return (.error (.device cause), state)
    let rest := options.pacing.cyclePeriod - ((← elapsed start) - startTime)
    IO.sleep (UInt32.ofNat (rest / 1000000))
    follow output typed options start state

/-- Runs a machine on the terminal, to the frame that is drawn on the way out. -/
def runMachine (output : IO.FS.Stream) (options : Options) (machine : Machine)
    (display : TerminalDisplay) : IO Completion := do
  let typed ← IO.mkRef []
  let _ ← IO.asTask (listen (← IO.getStdin) typed) .dedicated
  output.putStr (Escape.clear ++ Escape.hideCursor)
  let (outcome, state) ← follow output typed options (← IO.monoNanosNow)
    { run := { machine }, keyboard := .new options.layout, display }
  let (drawn, state) ← draw output state
  output.putStr (Escape.leave ++ Escape.showCursor)
  match drawn with
  | .error cause => return completionOf (.error (.device cause)) state.display
  | .ok () => return completionOf outcome state.display

def runProgram (output : IO.FS.Stream) (options : Options) : IO Completion := do
  let seed := options.seed.getD (UInt64.ofNat (← IO.monoNanosNow))
  match loadProgram (← openProgram options.program) (.ofSeed seed) with
  | .error report => return refusal report
  | .ok machine =>
    let display := TerminalDisplay.new (← terminalSize)
    match options.pacing.check with
    | .error failure => return { refusal failure.report with display := some display.close }
    | .ok () => runMachine output options machine display

def carryOut (output : IO.FS.Stream) (arguments : List String) : IO Completion := do
  match Invocation.ofArguments arguments with
  | .help => return { status := 0, output := helpText }
  | .version => return { status := 0, output := versionText }
  | .misuse => return { status := misuseStatus, complaint := some usageText }
  | .run options => runProgram output options

end ChipEight.Console

def main (arguments : List String) : IO UInt32 := do
  let output ← IO.getStdout
  let completion ← ChipEight.Console.carryOut output arguments
  output.putStr completion.output
  output.putStr (String.ofList (List.replicate completion.lineEnds '\n'))
  output.flush
  if let some text := completion.complaint then (← IO.getStderr).putStr text
  return UInt32.ofNat completion.status
