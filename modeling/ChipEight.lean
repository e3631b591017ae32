import ChipEight.CommandLine.Program
import ChipEight.Console
import ChipEight.Machine.Command
import ChipEight.Machine.Dump
import ChipEight.Main
import ChipEight.Proofs.Safety
import ChipEight.Proofs.Verdict
import ChipEight.Scheduler.Command
import ChipEight.Proofs.Stop
import ChipEight.Proofs.Nesting
import ChipEight.Proofs.Frame
import ChipEight.Proofs.Polling
import ChipEight.Proofs.Unrolling
import ChipEight.Proofs.TimerLoop
import ChipEight.Proofs.Driving
import ChipEight.Proofs.Seclusion
import ChipEight.Proofs.Composition
import ChipEight.Proofs.Display
import ChipEight.Proofs.Delivery
import ChipEight.Proofs.StopRequest
import ChipEight.Proofs.Deadline
import ChipEight.Proofs.Chronicle
import ChipEight.Proofs.Countdown
import ChipEight.Proofs.KeyWait
import ChipEight.Proofs.Loading
import ChipEight.Proofs.Assembly
import ChipEight.Proofs.Buzzer
import ChipEight.Proofs.Randomness
import ChipEight.Proofs.Sprite
import ChipEight.Proofs.Superposition
import ChipEight.Proofs.Arithmetic
import ChipEight.Proofs.Branching
import ChipEight.Proofs.Transfer
import ChipEight.Proofs.Batches
import ChipEight.Proofs.Listing
import ChipEight.Proofs.Readers
import ChipEight.Proofs.Keypad
import ChipEight.Proofs.Independence
import ChipEight.Proofs.Log
import ChipEight.Proofs.Dump
import ChipEight.Proofs.Arguments
import ChipEight.Proofs.SettingsFile
import ChipEight.Proofs.StaleSlots
import ChipEight.Proofs.Exit
