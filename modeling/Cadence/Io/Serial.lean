import Cadence.Error
import Cadence.Io.Selectable
import Mathlib.Data.BitVec

/-!
# Serial ports

`reconfigurePort` on Linux, where `IXANY` and `CRTSCTS` are defined, in builds with and without
`CMSPAR`. The device keeps the terminal settings and the `serial_struct` of the driver. Whoever opens
it next finds what is there, and both are read before they are written back.
-/

namespace Cadence.Serial

/-! The bits of `<termios.h>` and `<linux/serial.h>`. -/

def IGNBRK : BitVec 32 := 0x1
def PARMRK : BitVec 32 := 0x8
def INPCK : BitVec 32 := 0x10
def ISTRIP : BitVec 32 := 0x20
def INLCR : BitVec 32 := 0x40
def IGNCR : BitVec 32 := 0x80
def ICRNL : BitVec 32 := 0x100
def IUCLC : BitVec 32 := 0x200
def IXON : BitVec 32 := 0x400
def IXANY : BitVec 32 := 0x800
def IXOFF : BitVec 32 := 0x1000
/-- How `cfsetispeed` notes the speed zero. The flag stays in the process. -/
def IBAUD0 : BitVec 32 := 0x80000000

def OPOST : BitVec 32 := 0x1

def CSIZE : BitVec 32 := 0x30
def CS5 : BitVec 32 := 0x00
def CS6 : BitVec 32 := 0x10
def CS7 : BitVec 32 := 0x20
def CS8 : BitVec 32 := 0x30
def CSTOPB : BitVec 32 := 0x40
def CREAD : BitVec 32 := 0x80
def PARENB : BitVec 32 := 0x100
def PARODD : BitVec 32 := 0x200
def CLOCAL : BitVec 32 := 0x800
def CBAUD : BitVec 32 := 0x100f
def CBAUDEX : BitVec 32 := 0x1000
def CMSPAR : BitVec 32 := 0x40000000
def CRTSCTS : BitVec 32 := 0x80000000

def ISIG : BitVec 32 := 0x1
def ICANON : BitVec 32 := 0x2
def ECHO : BitVec 32 := 0x8
def ECHOE : BitVec 32 := 0x10
def ECHOK : BitVec 32 := 0x20
def ECHONL : BitVec 32 := 0x40
def IEXTEN : BitVec 32 := 0x8000

def ASYNC_SPD_CUST : BitVec 32 := 0x30
def ASYNC_SPD_MASK : BitVec 32 := 0x1030

inductive Bytesize where
  | fivebits
  | sixbits
  | sevenbits
  | eightbits
  deriving DecidableEq

inductive Parity where
  | none
  | odd
  | even
  | mark
  | space
  deriving DecidableEq

inductive Stopbits where
  | one
  | two
  | one_point_five
  deriving DecidableEq

inductive Flowcontrol where
  | none
  | software
  | hardware
  deriving DecidableEq

structure Request where
  baudrate : BitVec 32
  bytesize : Bytesize
  parity : Parity
  stopbits : Stopbits
  flowcontrol : Flowcontrol
  deriving DecidableEq

/-- `vmin` and `vtime` are the two control characters that are written. -/
structure Termios where
  iflag : BitVec 32
  oflag : BitVec 32
  cflag : BitVec 32
  lflag : BitVec 32
  vmin : BitVec 8
  vtime : BitVec 8
  deriving DecidableEq

structure SerialStruct where
  flags : BitVec 32
  customDivisor : BitVec 32
  baudBase : BitVec 32
  deriving DecidableEq

structure Device where
  termios : Termios
  serial : SerialStruct
  deriving DecidableEq

/-- What each native call fails with, if it fails. -/
structure Natives where
  tcgetattr : Option Errno
  tiocgserial : Option Errno
  tiocsserial : Option Errno
  cfsetispeed : Option Errno
  cfsetospeed : Option Errno
  tcsetattr : Option Errno

/-- An `IOException` of a text or of an error number, or an `IllegalArgumentException`. -/
inductive Raised where
  | message (text : String)
  | native (errno : Errno) (text : String)
  | illegalArgument (text : String)
  deriving DecidableEq

def check (outcome : Option Errno) (text : String) : Except Raised Unit :=
  match outcome with
  | some errno => .error (.native errno text)
  | none => .ok ()

/-- Raw mode, no echo, binary. -/
def rawMode (options : Termios) : Termios :=
  { options with
    cflag := options.cflag ||| (CLOCAL ||| CREAD)
    lflag := options.lflag &&&
      ~~~(ICANON ||| ECHO ||| ECHOE ||| ECHOK ||| ECHONL ||| ISIG ||| IEXTEN)
    oflag := options.oflag &&& ~~~OPOST
    iflag := ((options.iflag &&& ~~~(INLCR ||| IGNCR ||| ICRNL ||| IGNBRK)) &&& ~~~IUCLC) &&&
      ~~~PARMRK }

/-- The cases of the switch whose `B` constant Linux defines. -/
def baudConstants : List (BitVec 32 × BitVec 32) :=
  [(0, 0x0), (50, 0x1), (75, 0x2), (110, 0x3), (134, 0x4), (150, 0x5), (200, 0x6), (300, 0x7),
    (600, 0x8), (1200, 0x9), (1800, 0xa), (2400, 0xb), (4800, 0xc), (9600, 0xd), (19200, 0xe),
    (57600, 0x1001), (38400, 0xf), (115200, 0x1002), (230400, 0x1003), (460800, 0x1004),
    (576000, 0x1006), (921600, 0x1007), (1000000, 0x1008), (1152000, 0x1009), (1500000, 0x100a),
    (2000000, 0x100b), (2500000, 0x100c), (3000000, 0x100d), (3500000, 0x100e), (4000000, 0x100f)]

def baudConstant (baudrate : BitVec 32) : Option (BitVec 32) :=
  baudConstants.lookup baudrate

def cfsetospeed (options : Termios) (speed : BitVec 32) : Termios :=
  { options with cflag := options.cflag &&& ~~~(CBAUD ||| CBAUDEX) ||| speed }

def cfsetispeed (options : Termios) (speed : BitVec 32) : Termios :=
  if speed = 0 then { options with iflag := options.iflag ||| IBAUD0 }
  else { cfsetospeed options speed with iflag := options.iflag &&& ~~~IBAUD0 }

/-- The divisor and the flags set for a custom speed. The signed `baud_base` is divided as an
unsigned number. -/
def customSpeed (ser : SerialStruct) (baudrate : BitVec 32) : SerialStruct :=
  { ser with
    customDivisor := ser.baudBase / baudrate
    flags := ser.flags &&& ~~~ASYNC_SPD_MASK ||| ASYNC_SPD_CUST }

/-- A custom speed goes to the driver at once, a standard one into the options. -/
def setupBaudRate (natives : Natives) (baudrate : BitVec 32) (options : Termios)
    (ser : SerialStruct) : Except Raised (Termios × SerialStruct) :=
  match baudConstant baudrate with
  | none => do
      check natives.tiocgserial "ioctl::TIOCGSERIAL"
      check natives.tiocsserial "ioctl::TIOCSSERIAL"
      return (options, customSpeed ser baudrate)
  | some baud => do
      check natives.cfsetispeed "cfsetispeed"
      check natives.cfsetospeed "cfsetospeed"
      return (cfsetospeed (cfsetispeed options baud) baud, ser)

def setupCharLen (bytesize : Bytesize) (options : Termios) : Termios :=
  let cflag := options.cflag &&& ~~~CSIZE
  match bytesize with
  | .eightbits => { options with cflag := cflag ||| CS8 }
  | .sevenbits => { options with cflag := cflag ||| CS7 }
  | .sixbits => { options with cflag := cflag ||| CS6 }
  | .fivebits => { options with cflag := cflag ||| CS5 }

def setupStopbits (stopbits : Stopbits) (options : Termios) : Termios :=
  match stopbits with
  | .one => { options with cflag := options.cflag &&& ~~~CSTOPB }
  | .one_point_five => { options with cflag := options.cflag ||| CSTOPB }
  | .two => { options with cflag := options.cflag ||| CSTOPB }

def setupParity (parity : Parity) (options : Termios) : Termios :=
  let options := { options with iflag := options.iflag &&& ~~~(INPCK ||| ISTRIP) }
  match parity with
  | .none => { options with cflag := options.cflag &&& ~~~(PARENB ||| PARODD) }
  | .even => { options with cflag := options.cflag &&& ~~~PARODD ||| PARENB }
  | .odd => { options with cflag := options.cflag ||| (PARENB ||| PARODD) }
  | .mark => { options with cflag := options.cflag ||| (PARENB ||| CMSPAR ||| PARODD) }
  | .space => { options with cflag := (options.cflag ||| (PARENB ||| CMSPAR)) &&& ~~~PARODD }

def xonxoff : Flowcontrol → Bool
  | .software => true
  | .none | .hardware => false

def rtscts : Flowcontrol → Bool
  | .hardware => true
  | .none | .software => false

def setupFlowControl (flowcontrol : Flowcontrol) (options : Termios) : Termios :=
  { options with
    iflag :=
      if xonxoff flowcontrol then options.iflag ||| (IXON ||| IXOFF)
      else options.iflag &&& ~~~(IXON ||| IXOFF ||| IXANY)
    cflag :=
      if rtscts flowcontrol then options.cflag ||| CRTSCTS
      else options.cflag &&& ~~~CRTSCTS }

def pollingRead (options : Termios) : Termios :=
  { options with vmin := 0, vtime := 0 }

/-- `tcsetattr(fd, TCSANOW, &options)` as the device sees it. -/
def tcsetattr (options : Termios) : Termios :=
  { options with iflag := options.iflag &&& ~~~IBAUD0 }

/-! Mark and space parity need `CMSPAR`, which a build may lack. -/

def setupParityOn (cmspar : Bool) (parity : Parity) (options : Termios) : Except Raised Termios :=
  match parity with
  | .none | .even | .odd => .ok (setupParity parity options)
  | .mark =>
      if cmspar then .ok (setupParity .mark options)
      else .error (.illegalArgument "OS does not support mark parity")
  | .space =>
      if cmspar then .ok (setupParity .space options)
      else .error (.illegalArgument "OS does not support space parity")

/-- What follows the speed: the rest of the options, and `tcsetattr`. -/
def setupRest (cmspar : Bool) (natives : Natives) (request : Request) (options : Termios) :
    Except Raised Termios := do
  let options := setupCharLen request.bytesize options
  let options := setupStopbits request.stopbits options
  let options ← setupParityOn cmspar request.parity options
  let options := setupFlowControl request.flowcontrol options
  let options := pollingRead options
  check natives.tcsetattr "tcsetattr(TCSANOW)"
  return tcsetattr options

/-- What raises after the custom speed was set leaves it set. -/
def reconfigurePortOn (cmspar : Bool) (natives : Natives) (fd : PollId) (request : Request)
    (device : Device) : Except Raised Unit × Device :=
  if fd = -1 then
    (.error (.message "Invalid file descriptor, is the serial port open?"), device)
  else
    match check natives.tcgetattr "tcgetattr" with
    | .error raised => (.error raised, device)
    | .ok () =>
        match setupBaudRate natives request.baudrate (rawMode device.termios) device.serial with
        | .error raised => (.error raised, device)
        | .ok (options, serial) =>
            match setupRest cmspar natives request options with
            | .error raised => (.error raised, ⟨device.termios, serial⟩)
            | .ok termios => (.ok (), ⟨termios, serial⟩)

theorem setupParityOn_true (parity : Parity) (options : Termios) :
    setupParityOn true parity options = .ok (setupParity parity options) := by
  cases parity <;> rfl

theorem setupRest_true (natives : Natives) (request : Request) (options : Termios) :
    setupRest true natives request options =
      (check natives.tcsetattr "tcsetattr(TCSANOW)").map fun () =>
        tcsetattr (pollingRead (setupFlowControl request.flowcontrol (setupParity request.parity
          (setupStopbits request.stopbits (setupCharLen request.bytesize options))))) := by
  rw [setupRest, setupParityOn_true]
  cases natives.tcsetattr <;> rfl

/-- Linux has `CMSPAR`. -/
def reconfigurePort : Natives → PollId → Request → Device → Except Raised Unit × Device :=
  reconfigurePortOn true

end Cadence.Serial
