import ChipEight.Keyboard.Layout

/-!
# Arguments

The grammar of the command line. Arguments are read from left to right, and the first
thing that settles the matter does: a request for help or for the version, or an
error. Only a missing program file is noticed at the end.
-/

set_option autoImplicit false

namespace ChipEight.CommandLine

structure Options where
  program : String
  cycleRate : UInt32
  cycleLimit : Option UInt64
  layout : KeyLayout
  mute : Bool
  seed : Option UInt64
deriving DecidableEq

inductive Invocation where
  | help
  | version
  | misuse
  | run (options : Options)
deriving DecidableEq

inductive ValueOption where
  | rate
  | limit
  | layout
  | seed
deriving DecidableEq, Repr

/-- The options found so far; an option is found at most once. -/
structure Found where
  program : Option String := none
  rate : Option UInt32 := none
  limit : Option UInt64 := none
  layout : Option KeyLayout := none
  mute : Bool := false
  seed : Option UInt64 := none

/-- The number that decimal digits stand for; there must be one at least. -/
def decimal? (digits : List Char) : Option Nat :=
  if digits.isEmpty then none
  else
    digits.foldlM
      (fun number digit =>
        if '0' ≤ digit ∧ digit ≤ '9' then some (number * 10 + (digit.toNat - '0'.toNat))
        else none)
      0

/-- An unsigned number of 64 bits; a plus sign may stand before it. -/
def unsigned? (text : String) : Option UInt64 := do
  let number ← match text.toList with
    | '+' :: digits => decimal? digits
    | digits => decimal? digits
  if number < 18446744073709551616 then some (UInt64.ofNat number) else none

/-- A rate: an integer that fits 32 bits without a sign. A sign may stand before it, so
minus zero is a rate too. -/
def rate? (text : String) : Option UInt32 := do
  let number ← match text.toList with
    | '+' :: digits => decimal? digits
    | '-' :: digits => (decimal? digits).filter (· == 0)
    | digits => decimal? digits
  if number < 4294967296 then some (UInt32.ofNat number) else none

def layout? (text : String) : Option KeyLayout :=
  match text with
  | "conventional" => some .conventional
  | "literal" => some .literal
  | _ => none

namespace ValueOption

def ofName? (name : String) : Option ValueOption :=
  match name with
  | "hz" => some .rate
  | "max-cycles" => some .limit
  | "keymap" => some .layout
  | "seed" => some .seed
  | _ => none

end ValueOption

namespace Found

/-- Notes the value of an option; `none` if the value is malformed or the option has one
already. -/
def note (found : Found) (option : ValueOption) (value : String) : Option Found :=
  match option with
  | .rate =>
    if found.rate.isSome then none
    else (rate? value).map fun rate => { found with rate := some rate }
  | .limit =>
    if found.limit.isSome then none
    else (unsigned? value).map fun limit => { found with limit := some limit }
  | .layout =>
    if found.layout.isSome then none
    else (layout? value).map fun layout => { found with layout := some layout }
  | .seed =>
    if found.seed.isSome then none
    else (unsigned? value).map fun seed => { found with seed := some seed }

def noteMute (found : Found) : Option Found :=
  if found.mute then none else some { found with mute := true }

/-- Notes the path of the program, of which there is one; it is not empty. -/
def noteProgram (found : Found) (path : String) : Option Found :=
  if found.program.isSome ∨ path.isEmpty then none else some { found with program := some path }

def finish (found : Found) : Invocation :=
  match found.program with
  | none => .misuse
  | some program =>
    .run {
      program
      cycleRate := found.rate.getD 700
      cycleLimit := found.limit
      layout := found.layout.getD .conventional
      mute := found.mute
      seed := found.seed }

end Found

/-- How an argument looks, before it is known what it means. -/
inductive ArgumentShape where
  /-- Two dashes alone: all that follows is plain. -/
  | separator
  /-- A long option, with the value written after an equals sign if there is one. -/
  | long (name : String) (value : Option String)
  /-- A dash and letters, of which the first is given. -/
  | short (letter : Char)
  /-- Anything else; one dash alone is plain too. -/
  | plain (text : String)
deriving DecidableEq, Repr

def ArgumentShape.of (argument : String) : ArgumentShape :=
  match argument.toList with
  | ['-', '-'] => .separator
  | '-' :: '-' :: word =>
    let name := String.ofList (word.takeWhile (· != '='))
    match word.dropWhile (· != '=') with
    | [] => .long name none
    | _ :: value => .long name (some (String.ofList value))
  | '-' :: letter :: _ => .short letter
  | _ => .plain argument

/-- Reads the arguments after a separator, which are all plain. -/
def readPlain (found : Found) : List String → Invocation
  | [] => found.finish
  | path :: later =>
    match found.noteProgram path with
    | none => .misuse
    | some found => readPlain found later

/-- Reads arguments from left to right. A value that stands apart from its option must
be plain. -/
def readArguments (found : Found) : List String → Invocation
  | [] => found.finish
  | argument :: later =>
    match ArgumentShape.of argument with
    | .separator => readPlain found later
    | .plain path =>
      match found.noteProgram path with
      | none => .misuse
      | some found => readArguments found later
    | .short 'h' => .help
    | .short 'V' => .version
    | .short _ => .misuse
    | .long "help" none => .help
    | .long "version" none => .version
    | .long "mute" none =>
      match found.noteMute with
      | none => .misuse
      | some found => readArguments found later
    | .long name (some value) =>
      match ValueOption.ofName? name with
      | none => .misuse
      | some option =>
        if value.isEmpty then .misuse
        else
          match found.note option value with
          | none => .misuse
          | some found => readArguments found later
    | .long name none =>
      match ValueOption.ofName? name, later with
      | some option, value :: later =>
        match ArgumentShape.of value with
        | .plain value =>
          match found.note option value with
          | none => .misuse
          | some found => readArguments found later
        | _ => .misuse
      | _, _ => .misuse

def Invocation.ofArguments (arguments : List String) : Invocation :=
  readArguments {} arguments

end ChipEight.CommandLine
