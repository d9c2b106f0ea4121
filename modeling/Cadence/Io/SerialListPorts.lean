import Mathlib.Data.List.Nodup

/-!
# The serial ports there are

`Serial::enumeratePorts` finds the devices by the names that drivers give them, and asks sysfs what is
behind each. A port always gets a description and a hardware id: the name of the device and a text that
says nothing where sysfs has no answer.
-/

namespace Cadence

abbrev Text := List Char

/-- What is used of `Solace::Path` and of the file system of the machine. -/
structure Platform (Path : Type) where
  root : Path
  parse : Text → Path
  makePath : Path → Text → Path
  getBasename : Path → Text
  getParent : Path → Path
  realPath : Path → Path
  exists' : Path → Bool
  /-- What `std::ifstream` reads, when it can open the file. -/
  content : Path → Option Text
  /-- The names in `/dev`. -/
  devices : List Text
  nodup_devices : devices.Nodup
  /-- The order of `glob`. -/
  collate : Text → Text → Bool
  getBasename_parse : ∀ name ∈ devices, getBasename (parse ("/dev/".toList ++ name)) = name

structure SerialPortInfo (Path : Type) where
  file : Path
  description : Text
  hardwareId : Text

namespace Platform

variable {Path : Type} (platform : Platform Path)

/-- `makePath` of a base and any number of components. -/
def makePathFrom (base : Path) (components : List String) : Path :=
  components.foldl (fun path component => platform.makePath path component.toList) base

/-- The first line of a file, and nothing when it cannot be opened. -/
def readLine (file : Path) : Text :=
  match platform.content file with
  | some text => text.takeWhile (· ≠ '\n')
  | none => []

def usbSysfsFriendlyName (sysUsbPath : Path) : Text :=
  let manufacturer := platform.readLine (platform.makePath sysUsbPath "manufacturer".toList)
  let product := platform.readLine (platform.makePath sysUsbPath "product".toList)
  let serial := platform.readLine (platform.makePath sysUsbPath "serial".toList)
  if manufacturer = [] ∧ product = [] ∧ serial = [] then []
  else manufacturer ++ " ".toList ++ product ++ " ".toList ++ serial

def hwString (vid pid serialNumber : Text) : Text :=
  "USB VID:PID=".toList ++ vid ++ ":".toList ++ pid ++
    (if serialNumber = [] then [] else " SNR=".toList) ++ serialNumber

def usbSysfsHwString (sysfsPath : Path) : Text :=
  let vid := platform.readLine (platform.makePath sysfsPath "idVendor".toList)
  let pid := platform.readLine (platform.makePath sysfsPath "idProduct".toList)
  let serialNumber := platform.readLine (platform.makePath sysfsPath "serial".toList)
  hwString vid pid serialNumber

def HW_ID_NA : Text := "n/a".toList

def sysDevicePath (deviceName : Text) : Path :=
  platform.makePath (platform.makePath (platform.makePathFrom platform.root ["sys", "class", "tty"])
    deviceName) "device".toList

/-- The directory of the USB device that a name stands for, if it is one. -/
def deviceSysPath (deviceName : Text) : Option Path :=
  if "ttyUSB".toList.isPrefixOf deviceName then
    some (platform.getParent
      (platform.getParent (platform.realPath (platform.sysDevicePath deviceName))))
  else if "ttyACM".toList.isPrefixOf deviceName then
    some (platform.getParent (platform.realPath (platform.sysDevicePath deviceName)))
  else none

/-- What sysfs says of a device, either text empty where it says nothing. -/
def sysfsTexts (deviceName : Text) : Text × Text :=
  match platform.deviceSysPath deviceName with
  | some deviceSysPath =>
      if platform.exists' deviceSysPath then
        (platform.usbSysfsFriendlyName deviceSysPath, platform.usbSysfsHwString deviceSysPath)
      else ([], [])
  | none =>
      -- the id of a PCI device
      let sysIdPath := platform.makePath (platform.sysDevicePath deviceName) "id".toList
      if platform.exists' sysIdPath then ([], platform.readLine sysIdPath) else ([], [])

def orText (text fallback : Text) : Text := if text = [] then fallback else text

def getSysfsInfo (devicePath : Path) : Text × Text :=
  let deviceName := platform.getBasename devicePath
  let (friendlyName, hardwareId) := platform.sysfsTexts deviceName
  (orText friendlyName deviceName, orText hardwareId HW_ID_NA)

end Platform

end Cadence
