import Emu51.Library.Transition
import Emu51.Machine.System
import Emu51.Machine.Effects
import Emu51.Registers.Psw
import Emu51.Registers.Frame
import Emu51.Registers.Window
import Emu51.Addressing.Indirect
import Emu51.Machine.SetPc
import Emu51.Addressing.Modes
import Emu51.Interrupts.Service
import Emu51.Interrupts.Pending
import Emu51.Uart.Accesses
import Emu51.Uart.Scon
import Emu51.Uart.Delivery
import Emu51.Library.Mailbox
import Emu51.Uart.Reception
import Emu51.Library.PaddedChunks
import Emu51.Machine.Outside
import Emu51.Chip.Common
import Emu51.Chip.Rtl8367s
import Emu51.Chip.Rtl8372
import Emu51.Chip.Hooks
import Emu51.Flash.Unpack
import Emu51.Flash.CodeMem
import Emu51.Flash.Banking
import Emu51.Flash.SpiRead
import Emu51.Interrupts.Acceptance
import Emu51.ControlFlow.Target
import Emu51.Flash.DataMem
import Emu51.Flash.DataBanking
import Emu51.Machine.Registers
import Emu51.Registers.Acc
import Emu51.Registers.DataPointer
import Emu51.Interrupts.Timer2
import Emu51.ControlFlow.Branches
import Emu51.ControlFlow.Stack
import Emu51.Registers.Parity
import Emu51.Machine.History
import Emu51.Machine.Contracts
import Emu51.Chip.FlashAddress
import Emu51.Flash.RomAccess
import Emu51.Flash.RomBounds
import Emu51.Arithmetic.Flags
import Emu51.Arithmetic.MultiByte
import Emu51.Arithmetic.Bcd
import Emu51.Addressing.Bits
import Emu51.Chip.SecondStack
import Emu51.Generator.Gen
import Emu51.Generator.Records
import Emu51.Generator.Table
import Emu51.Library.StepFunction
import Emu51.Firmware.View
import Emu51.Firmware.Assembly
import Emu51.Firmware.Assembled
import Emu51.Firmware.Running
import Emu51.Firmware.Listings
import Emu51.Firmware.Serial
import Emu51.Firmware.Hexdump
import Emu51.Firmware.Indacc
import Emu51.Firmware.InitList
import Emu51.Firmware.PhyOcp
import Emu51.Chip.RegisterStore
import Emu51.Chip.KeptGlobals
import Emu51.Flash.SpiData
import Emu51.Library.LuaStack
import Emu51.Machine.LoadRom
import Emu51.Machine.HookCall
import Emu51.Library.Mutex
import Emu51.Uart.Threads
import Emu51.Uart.Locking
import Emu51.Machine.EmuLib
import Emu51.Chip.Loading
import Emu51.Machine.SfrStore
import Emu51.Chip.SfrFile
import Emu51.Debug.Trace
import Emu51.Debug.Breakpoint
import Emu51.Chip.PacketDma
import Emu51.Uart.Transmit
import Emu51.Firmware.Linking
import Emu51.Firmware.Puts
import Emu51.Firmware.HexdumpPartial
import Emu51.Firmware.Frame
import Emu51.Firmware.PortInit
import Emu51.Firmware.Dump
