import DotMatrix.Memory
import DotMatrix.Snapshot.Format.Lawful
import DotMatrix.CommandLine.Directory
import DotMatrix.Main
import DotMatrix.Proofs.Cpu.HaltBug
import DotMatrix.Proofs.Time.Board
import DotMatrix.Proofs.Console.Replay
import DotMatrix.Proofs.Console.LoadSave
import DotMatrix.Proofs.Console.Layout
import DotMatrix.Proofs.Safe.PowerOn
import DotMatrix.Proofs.Console.Truncation
import DotMatrix.Proofs.Cartridge.Program
import DotMatrix.Proofs.Cartridge.ExternalRam
import DotMatrix.Proofs.Video.ExactTime
import DotMatrix.Proofs.Video.Coincidence
import DotMatrix.Proofs.Console.FrameLength
import DotMatrix.Proofs.Console.Presentation
import DotMatrix.Proofs.Video.Locked
import DotMatrix.Proofs.Console.Requests
import DotMatrix.Proofs.Console.Dispatch
import DotMatrix.Proofs.Console.Battery
import DotMatrix.Proofs.Console.Reset
import DotMatrix.Proofs.Console.FrameCut
import DotMatrix.Proofs.Console.Synchrony
import DotMatrix.Proofs.Sound.SampleCount
import DotMatrix.Proofs.Sound.PowerCycle
import DotMatrix.Proofs.Sound.Note
import DotMatrix.Proofs.Sound.NoteEnd
import DotMatrix.Proofs.Sound.Period
import DotMatrix.Proofs.Console.ChannelTimers
import DotMatrix.Proofs.Cpu.MachineCycles
import DotMatrix.Proofs.Video.Sprites
import DotMatrix.Proofs.CommandLine.TwoSessions
import DotMatrix.Proofs.Cartridge.Calendar
import DotMatrix.Proofs.Cartridge.Latch
import DotMatrix.Proofs.Time.Overflow
import DotMatrix.Proofs.Board.SerialTransfer
import DotMatrix.Proofs.Board.SpriteTransfer
import DotMatrix.Proofs.Board.Cells
import DotMatrix.Proofs.Sound.NoteShape
import DotMatrix.Proofs.Sound.FrequencySweep
import DotMatrix.Proofs.Cpu.Decimal
import DotMatrix.Proofs.Cpu.WordSum
import DotMatrix.Proofs.Cpu.RepeatedByte
import DotMatrix.Proofs.Cartridge.Acceptance
import DotMatrix.Proofs.Sound.Expiries
import DotMatrix.Proofs.CommandLine.Grammar
import DotMatrix.Proofs.Cpu.Nesting
