import TetrisMachine.Main
import TetrisMachine.Random.Replay
import TetrisMachine.Proofs.Encoding.FieldBits
import TetrisMachine.Proofs.Encoding.Packing
import TetrisMachine.Proofs.Decoding
import TetrisMachine.Proofs.InstructionSet.Templates
import TetrisMachine.Proofs.InstructionSet.Dispatch
import TetrisMachine.Proofs.InstructionSet.RoundTrip
import TetrisMachine.Proofs.Execution.Atomicity
import TetrisMachine.Proofs.InstructionSet.Operands
import TetrisMachine.Proofs.Execution.Spelling
import TetrisMachine.Proofs.Emulator.Step
import TetrisMachine.Proofs.Emulator.Failure
import TetrisMachine.Proofs.Emulator.Relocation
import TetrisMachine.Proofs.Debugger.Transparency
import TetrisMachine.Proofs.Execution.Commutation
import TetrisMachine.Proofs.Execution.Confinement
import TetrisMachine.Proofs.Execution.Decoded
import TetrisMachine.Proofs.Emulator.Drive
import TetrisMachine.Proofs.Emulator.History
import TetrisMachine.Proofs.Emulator.Ending
import TetrisMachine.Proofs.Board.Registers
import TetrisMachine.Proofs.Board.Clearing
import TetrisMachine.Proofs.Execution.Renaming
import TetrisMachine.Proofs.Execution.Rolls
import TetrisMachine.Proofs.Emulator.Limit
import TetrisMachine.Proofs.Emulator.Storage
import TetrisMachine.Proofs.Execution.Faults
import TetrisMachine.Proofs.Execution.Trapping
import TetrisMachine.Proofs.Emulator.Counter
import TetrisMachine.Proofs.Emulator.Placement
import TetrisMachine.Proofs.Text.Numerals
import TetrisMachine.Proofs.Listing.Grammar
import TetrisMachine.Proofs.Disassembly
import TetrisMachine.Proofs.Debugger.Preview
import TetrisMachine.Proofs.Encoding.Lossless
import TetrisMachine.Proofs.Execution.HighLow
import TetrisMachine.Proofs.Execution.Rotations
import TetrisMachine.Proofs.Execution.Undoing
import TetrisMachine.Proofs.Board.Combos
import TetrisMachine.Proofs.Debugger.Addresses
import TetrisMachine.Proofs.Encoding.Layouts
