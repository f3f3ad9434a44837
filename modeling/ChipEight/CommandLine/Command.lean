import ChipEight.CommandLine.Arguments
import ChipEight.Machine.Load
import ChipEight.Run.Session
import ChipEight.Terminal.Picture

/-!
# The command

From the arguments to what the command leaves behind: its exit status, what it wrote,
and the terminal. The command starts in surroundings that do not change while it runs:
files, keys that were typed before, and the size of the terminal.
-/

set_option autoImplicit false

namespace ChipEight.CommandLine

abbrev Files := String → Except DeviceFailure ByteStream

structure Surroundings where
  files : Files
  /-- The keys typed before the command starts. -/
  typed : List TerminalEvent := []
  size : GridSize
  /-- The seed of the random bytes, if none is asked for. -/
  entropy : UInt64 := 0
  /-- The random bytes that a seed gives. No rule here depends on which they are. -/
  seeded : UInt64 → RandomBytes := .ofSeed

structure Completion where
  status : Nat
  /-- What was asked for and written to standard output. -/
  output : String := ""
  /-- What was written to standard error about the reason of a failure. -/
  complaint : Option String := none
  /-- The terminal, if a display was opened on it. -/
  display : Option TerminalDisplay := none
  /-- The line ends written at the end, to keep the last frame clear of what follows. -/
  lineEnds : Nat := 0

def versionText : String := "chip8 0.1.0\n"

def usageText : String := "Usage: chip8 [OPTIONS] <ROM>\n"

def helpText : String :=
  "Run a CHIP-8 program in the terminal. Esc quits\n\n" ++
  usageText ++ "\n" ++
  "Arguments:\n" ++
  "  <ROM>  program to load at 0x200\n\n" ++
  "Options:\n" ++
  "      --hz <HZ>                  instructions per second [default: 700]\n" ++
  "      --max-cycles <MAX_CYCLES>  stop after this many cycles\n" ++
  "      --keymap <KEYMAP>          [default: conventional] [possible values: conventional, literal]\n" ++
  "      --mute                     no beeping\n" ++
  "      --seed <SEED>              seed for the random number instruction\n" ++
  "  -h, --help                     Print help\n" ++
  "  -V, --version                  Print version\n"

def closingLineEnds : Nat := 12

def failureStatus : Nat := 1

def misuseStatus : Nat := 2

/-- The exit status when the terminal cannot hold the picture. -/
def abortStatus : Nat := 101

def complaintText (report : String) : String := "Error: " ++ report ++ "\n"

/-- The end of a command that failed before it opened a display. -/
def refusal (report : String) : Completion :=
  { status := failureStatus, complaint := some (complaintText report) }

/-- Loads the program that opening its path yields into a new machine. The report tells
why there is no machine. -/
def loadProgram (opened : Except DeviceFailure ByteStream) (random : RandomBytes) :
    Except String Machine :=
  match opened with
  | .error cause => .error cause.report
  | .ok stream =>
    match (Machine.new random).loadFrom stream with
    | (.error fault, _) => .error fault.report
    | (.ok (), machine) => .ok machine

def Options.pacing (options : Options) : Pacing :=
  { cycleRate := options.cycleRate, cycleLimit := options.cycleLimit }

/-- The keyboard of a command: all keys were typed before the first poll. -/
def typedBefore (options : Options) (typed : List TerminalEvent) : TypedInput where
  keyboard := .new options.layout
  arrivals poll := if poll = 0 then typed.map fun event => (0, event) else []
  closing poll := (options.pacing.idealClock poll).startTime

/-- What the outcome of a run leaves behind, with the display in its last state. -/
def completionOf (outcome : Except RunFailure Nat) (display : TerminalDisplay) : Completion :=
  match outcome with
  | .error (.device .terminalTooSmall) => { status := abortStatus }
  | .ok _ => { status := 0, display := some display.close, lineEnds := closingLineEnds }
  | .error failure =>
    { status := failureStatus
      complaint := some (complaintText failure.report)
      display := some display.close
      lineEnds := closingLineEnds }

/-- Runs a program with the given options. A run that never ends leaves nothing behind. -/
def runProgram (surroundings : Surroundings) (options : Options) : Option Completion :=
  let opened := surroundings.files options.program
  let seed := options.seed.getD surroundings.entropy
  match loadProgram opened (surroundings.seeded seed) with
  | .error report => some (refusal report)
  | .ok machine =>
    let display := TerminalDisplay.new surroundings.size
    let pacing := options.pacing
    match pacing.check with
    | .error failure => some { refusal failure.report with display := some display.close }
    | .ok () =>
      let (outcome, session) :=
        Session.start .typed .terminal pacing pacing.idealClock machine
          (typedBefore options surroundings.typed) display
      outcome.map fun outcome => completionOf outcome session.display

def execute (surroundings : Surroundings) (arguments : List String) : Option Completion :=
  match Invocation.ofArguments arguments with
  | .help => some { status := 0, output := helpText }
  | .version => some { status := 0, output := versionText }
  | .misuse => some { status := misuseStatus, complaint := some usageText }
  | .run options => runProgram surroundings options

end ChipEight.CommandLine
