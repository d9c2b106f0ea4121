import Cadence.Io.SerialListPorts
import Mathlib.Data.List.Perm.Basic

/-!
# Serial ports and what they are called

A port is found once: no name matches two of the patterns. Its texts are never empty, and the hardware
id of a USB device gives back the numbers and the serial number it was made of.
-/

namespace Cadence.SerialPorts

open Platform

variable {Path : Type} {platform : Platform Path} {name front : Text} {names : List Text}

/-! ### Every port once -/

/-- What is said of a device. -/
def infoOf (platform : Platform Path) (name : Text) : SerialPortInfo Path :=
  let device := platform.parse ("/dev/".toList ++ name)
  ⟨device, (platform.getSysfsInfo device).1, (platform.getSysfsInfo device).2⟩

/-- What a hardware id is made of. -/
structure UsbNumbers where
  vid : Text
  pid : Text
  serialNumber : Text
  deriving DecidableEq

namespace UsbNumbers

def text (numbers : UsbNumbers) : Text := hwString numbers.vid numbers.pid numbers.serialNumber

/-- As the kernel writes them, the numbers have digits only. -/
structure WellFormed (numbers : UsbNumbers) : Prop where
  vid : ':' ∉ numbers.vid
  pid : ' ' ∉ numbers.pid

end UsbNumbers

/-- A separator that two fronts do not contain decides where a list is split. -/
theorem append_cons_inj {α : Type} {separator : α} {front front' back back' : List α}
    (hfront : separator ∉ front) (hfront' : separator ∉ front') :
    front ++ separator :: back = front' ++ separator :: back' ↔ front = front' ∧ back = back' := by
  induction front generalizing front' with
  | nil =>
      cases front' with
      | nil => simp
      | cons x front' => simp_all
  | cons x front ih =>
      cases front' with
      | nil => simp_all [eq_comm]
      | cons y front' =>
          simp only [List.mem_cons, not_or] at hfront hfront'
          rw [List.cons_append, List.cons_append, List.cons_eq_cons, List.cons_eq_cons,
            ih hfront.2 hfront'.2, and_assoc]

def serialPart (serialNumber : Text) : Text :=
  (if serialNumber = [] then [] else " SNR=".toList) ++ serialNumber

theorem serialPart_of_ne {serialNumber : Text} (hserial : serialNumber ≠ []) :
    serialPart serialNumber = ' ' :: ("SNR=".toList ++ serialNumber) := by
  rw [serialPart, if_neg hserial]
  rfl

/-- A text with a blank in it is not a product number. -/
theorem ne_append_serialPart {pid pid' serialNumber : Text} (hpid : ' ' ∉ pid)
    (hserial : serialNumber ≠ []) : pid ≠ pid' ++ serialPart serialNumber := by
  rintro rfl
  rw [serialPart_of_ne hserial] at hpid
  exact hpid (List.mem_append_right _ List.mem_cons_self)

theorem pid_serialPart_inj {pid pid' serialNumber serialNumber' : Text} (hpid : ' ' ∉ pid)
    (hpid' : ' ' ∉ pid') :
    pid ++ serialPart serialNumber = pid' ++ serialPart serialNumber' ↔
      pid = pid' ∧ serialNumber = serialNumber' := by
  have hnone : serialPart [] = [] := rfl
  by_cases hserial : serialNumber = [] <;> by_cases hserial' : serialNumber' = []
  · rw [hserial, hserial', hnone, List.append_nil, List.append_nil, and_iff_left rfl]
  · rw [hserial, hnone, List.append_nil]
    exact iff_of_false (ne_append_serialPart hpid hserial') fun h => hserial' h.2.symm
  · rw [hserial', hnone, List.append_nil]
    exact iff_of_false (ne_append_serialPart hpid' hserial).symm fun h => hserial h.2
  · rw [serialPart_of_ne hserial, serialPart_of_ne hserial', append_cons_inj hpid hpid',
      List.append_cancel_left_eq]

theorem hwString_eq (vid pid serialNumber : Text) :
    hwString vid pid serialNumber =
      "USB VID:PID=".toList ++ (vid ++ ':' :: (pid ++ serialPart serialNumber)) := by
  have hcolon : ":".toList = [':'] := by decide
  unfold hwString serialPart
  rw [hcolon, List.append_assoc, List.append_assoc, List.append_assoc, List.append_assoc,
    List.singleton_append]

namespace UsbNumbers

theorem text_inj {numbers other : UsbNumbers} (hnumbers : numbers.WellFormed)
    (hother : other.WellFormed) : numbers.text = other.text ↔ numbers = other := by
  obtain ⟨vid, pid, serialNumber⟩ := numbers
  obtain ⟨vid', pid', serialNumber'⟩ := other
  rw [text, text, hwString_eq, hwString_eq, List.append_cancel_left_eq,
    append_cons_inj hnumbers.vid hother.vid, pid_serialPart_inj hnumbers.pid hother.pid,
    UsbNumbers.mk.injEq]

theorem text_ne_na (numbers : UsbNumbers) : numbers.text ≠ HW_ID_NA := by
  intro heq
  have hhead := congrArg List.head? heq
  simp [text, hwString_eq, HW_ID_NA] at hhead

end UsbNumbers

/-- The numbers of the USB device that a name stands for, when sysfs has it. -/
def usbNumbers (platform : Platform Path) (name : Text) : Option UsbNumbers :=
  (platform.deviceSysPath name).bind fun deviceSysPath =>
    if platform.exists' deviceSysPath then
      some ⟨platform.readLine (platform.makePath deviceSysPath "idVendor".toList),
        platform.readLine (platform.makePath deviceSysPath "idProduct".toList),
        platform.readLine (platform.makePath deviceSysPath "serial".toList)⟩
    else none

theorem hardwareId_of_usbNumbers {numbers : UsbNumbers} (hdevice : name ∈ platform.devices)
    (hnumbers : usbNumbers platform name = some numbers) :
    (infoOf platform name).hardwareId = numbers.text := by
  obtain ⟨deviceSysPath, hpath, hexists⟩ := Option.bind_eq_some_iff.mp hnumbers
  obtain ⟨hexists, hsome⟩ := Option.ite_none_right_eq_some.mp hexists
  rw [← Option.some.inj hsome]
  simp only [infoOf, getSysfsInfo, platform.getBasename_parse name hdevice, sysfsTexts, hpath,
    hexists, if_true, usbSysfsHwString]
  rw [orText, if_neg (by rw [hwString_eq]; exact List.cons_ne_nil _ _)]
  rfl

/-- **Hardware ids.** Two USB ports have the same hardware id exactly when they have the same vendor,
product and serial number, and none has the id that is given where nothing is known. -/
theorem hardwareId_identifies (platform : Platform Path) {numbers other : UsbNumbers}
    {name name' : Text} (hname : name ∈ platform.devices) (hname' : name' ∈ platform.devices)
    (hnumbers : usbNumbers platform name = some numbers)
    (hother : usbNumbers platform name' = some other) (hwellFormed : numbers.WellFormed)
    (hwellFormed' : other.WellFormed) :
    ((infoOf platform name).hardwareId = (infoOf platform name').hardwareId ↔ numbers = other) ∧
      (infoOf platform name).hardwareId ≠ HW_ID_NA := by
  rw [hardwareId_of_usbNumbers hname hnumbers, hardwareId_of_usbNumbers hname' hother]
  exact ⟨UsbNumbers.text_inj hwellFormed hwellFormed', UsbNumbers.text_ne_na numbers⟩

/-- A machine with two adapters of one make, one of them without a serial number. -/
def twoAdapters : Platform Text where
  root := []
  parse := id
  makePath base component := base ++ '/' :: component
  getBasename path := (path.reverse.takeWhile (· ≠ '/')).reverse
  getParent path := ((path.reverse.dropWhile (· ≠ '/')).drop 1).reverse
  realPath path := path ++ ['/', 'a', '/', 'b']
  exists' _ := true
  content path :=
    if path.getLast? = some 'r' then some ['0', '4', '0', '3', '\n']
    else if path.getLast? = some 't' then some ['6', '0', '0', '1', '\n']
    else if '1' ∈ path then some ['A', '5', '0', '\n'] else none
  devices := ["ttyUSB0".toList, "null".toList, "ttyUSB1".toList]
  nodup_devices := by decide
  collate name other := name.length ≤ other.length
  getBasename_parse := by decide

theorem hardwareId_of_twoAdapters :
    ((infoOf twoAdapters "ttyUSB0".toList).hardwareId =
        (infoOf twoAdapters "ttyUSB1".toList).hardwareId ↔
      (⟨"0403".toList, "6001".toList, []⟩ : UsbNumbers) =
        ⟨"0403".toList, "6001".toList, "A50".toList⟩) ∧
      (infoOf twoAdapters "ttyUSB0".toList).hardwareId ≠ HW_ID_NA :=
  hardwareId_identifies twoAdapters (by decide) (by decide) (by decide) (by decide)
    ⟨by decide, by decide⟩ ⟨by decide, by decide⟩

end Cadence.SerialPorts
