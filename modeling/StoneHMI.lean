import StoneHMI.Lib.Run
import StoneHMI.Lib.SharedCell
import StoneHMI.Lib.Mutex
import StoneHMI.Lib.Registers
import StoneHMI.Lib.Words
import StoneHMI.Lib.Rounding
import StoneHMI.Lib.Crc
import StoneHMI.Lib.Calendar
import StoneHMI.Lib.CText
import StoneHMI.Lib.Delimiter
import StoneHMI.Lib.Fifo
import StoneHMI.Lib.CMemory
import StoneHMI.Lib.Json
import StoneHMI.Receive.Uart
import StoneHMI.Receive.Bounds
import StoneHMI.Receive.Chunking
import StoneHMI.Receive.Crc
import StoneHMI.Receive.CrcStrength
import StoneHMI.Receive.Stoner
import StoneHMI.Receive.Plan
import StoneHMI.Receive.Frame
import StoneHMI.Receive.Buffer
import StoneHMI.Receive.Validity
import StoneHMI.Receive.Clearing
import StoneHMI.Receive.Segmentation
import StoneHMI.Receive.Transparency
import StoneHMI.Receive.Decoding
import StoneHMI.Receive.Resync
import StoneHMI.Receive.Texts
import StoneHMI.Receive.Lengths
import StoneHMI.Transport.Commands
import StoneHMI.Transport.Print
import StoneHMI.Transport.Packets
import StoneHMI.Transport.Stream
import StoneHMI.Transport.Layout
import StoneHMI.Transport.Library
import StoneHMI.Transport.Encoding
import StoneHMI.Transport.SystemCalls
import StoneHMI.Transport.Reader
import StoneHMI.Transport.Agreement
import StoneHMI.Transport.TxBuffer
import StoneHMI.Controller.OpenTime
import StoneHMI.History.Log
import StoneHMI.History.Rows
import StoneHMI.History.RoundTrip
import StoneHMI.History.Capacity
import StoneHMI.History.Columns
import StoneHMI.History.Insert
import StoneHMI.History.Cut
import StoneHMI.History.Tasks
import StoneHMI.Controller.Ctl
import StoneHMI.Controller.Relay
import StoneHMI.Controller.Session
import StoneHMI.Controller.RowBuffers
import StoneHMI.Controller.Conservation
import StoneHMI.Controller.Countdown
import StoneHMI.Controller.TypedTime
import StoneHMI.Controller.Recovery
import StoneHMI.Controller.Ticks
import StoneHMI.System.Handover
import StoneHMI.System.Stale
import StoneHMI.Sensor.Xdb305
import StoneHMI.Sensor.Conversion
import StoneHMI.Sensor.Average
import StoneHMI.System.Panel
import StoneHMI.System.Drive
import StoneHMI.System.Interlock
import StoneHMI.System.Refinement
import StoneHMI.System.Firmware
import StoneHMI.System.Display
import StoneHMI.Clock.Driver
import StoneHMI.Clock.Locking
import StoneHMI.Clock.Settings
import StoneHMI.Clock.Time
import StoneHMI.Clock.Alarm
import StoneHMI.Clock.Port
