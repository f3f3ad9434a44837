import ChipEight.CommandLine.Command
import ChipEight.Instruction.Encode
import ChipEight.Instruction.Listing
import ChipEight.Instruction.Mnemonic
import ChipEight.Machine.Operation
import ChipEight.Main
import ChipEight.Screen.Export
import ChipEight.Sound.Action
import ChipEight.Sound.Handles
import ChipEight.Sound.Playback
import ChipEight.Sound.Turns
import ChipEight.Proofs.Cells.Safety
import ChipEight.Proofs.Delay.Handover
import ChipEight.Proofs.Delay.Rate
import ChipEight.Proofs.Run.Driver
import ChipEight.Proofs.Machine.Reload
import ChipEight.Proofs.Cells.CallStack
import ChipEight.Proofs.Machine.Failure
import ChipEight.Proofs.Machine.KeyWait
import ChipEight.Proofs.Machine.Effects
import ChipEight.Proofs.Machine.Timers
import ChipEight.Proofs.Run.Split
import ChipEight.Proofs.Run.Failures
import ChipEight.Proofs.Sound.Shared
import ChipEight.Proofs.Sound.Ticks
import ChipEight.Proofs.Sound.Countdown
import ChipEight.Proofs.Keyboard.HoldTime
import ChipEight.Proofs.Keyboard.Mirror
import ChipEight.Proofs.Machine.Font
import ChipEight.Proofs.Run.Typed
import ChipEight.Proofs.Machine.Loading
import ChipEight.Proofs.Screen.Drawing
import ChipEight.Proofs.Screen.Overlays
import ChipEight.Proofs.Reading.Source
import ChipEight.Proofs.Reading.Stream
import ChipEight.Proofs.Machine.Reading
import ChipEight.Proofs.Sound.Ending
import ChipEight.Proofs.Sound.Lapses
import ChipEight.Proofs.Instruction.Words
import ChipEight.Proofs.Machine.Execution
import ChipEight.Proofs.Machine.Arithmetic
import ChipEight.Proofs.Machine.Blocks
import ChipEight.Proofs.Machine.Sprites
import ChipEight.Proofs.Instruction.Decoding
import ChipEight.Proofs.Instruction.Listings
import ChipEight.Proofs.Run.Frames
import ChipEight.Proofs.Keyboard.KeyEvents
import ChipEight.Proofs.Memory.Placement
import ChipEight.Proofs.Machine.KeyHistory
import ChipEight.Proofs.Machine.RandomBytes
import ChipEight.Proofs.Screen.Views
import ChipEight.Proofs.Memory.Stores
