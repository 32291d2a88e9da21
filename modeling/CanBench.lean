import CanBench.Lib.Runs
import CanBench.Lib.WiredLine
import CanBench.Lib.ByteLanes
import CanBench.Lib.AxiLite
import CanBench.Lib.Rollover
import CanBench.Lib.BitFields
import CanBench.Lib.Waveform
import CanBench.Lib.RunLength
import CanBench.Lib.Stream
import CanBench.Lib.RegisterFile
import CanBench.Axi.Slave
import CanBench.Axi.RegBank
import CanBench.Axi.Atomic
import CanBench.Axi.TestMaster
import CanBench.Crossbar.Apb
import CanBench.CrossbarV1.Impl
import CanBench.CrossbarV1.Agreement
import CanBench.CrossbarV1.SelfTest
import CanBench.Coprocessor.Progress
import CanBench.Coprocessor.Payload
import CanBench.Coprocessor.Writes
import CanBench.Coprocessor.PwmShape
import CanBench.Display.Delivery
import CanBench.Display.Turns
import CanBench.Display.WriteCycle
import CanBench.Display.ReadyFlag
import CanBench.Display.Stream
import CanBench.Pwm.Duty
import CanBench.Pwm.GlitchFree
import CanBench.Pwm.Bank
import CanBench.Pwm.Core
import CanBench.Servo.Board
import CanBench.Audio.Board
import CanBench.Spi.SpiFsm
import CanBench.Spi.Transfer
import CanBench.Encoder.Impl
import CanBench.Encoder.Filter
import CanBench.Encoder.Counter
import CanBench.Encoder.Position
import CanBench.Leds.Board
import CanBench.Leds.Frames
import CanBench.Leds.Readback
import CanBench.Leds.Rgb
import CanBench.XilinxCan.RxProgress
import CanBench.XilinxCan.NapiAwake
import CanBench.XilinxCan.NapiStream
import CanBench.XilinxCan.TxAccounting
import CanBench.XilinxCan.Mode
import CanBench.XilinxCan.ModePairing
import CanBench.XilinxCan.ErrAccounting
import CanBench.XilinxCan.Configuration
import CanBench.XilinxCan.TimestampExact
import CanBench.XilinxCan.FrameCodec
import CanBench.XilinxCan.ClockDiscipline
import CanBench.CanTest.Verdict
import CanBench.CanTest.Kmsg
