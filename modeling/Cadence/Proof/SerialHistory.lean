import Cadence.Foundation.BitMask
import Cadence.Io.Serial

/-!
# Configuring a serial port that was configured before

Every part of `reconfigurePort` writes a fixed set of bits of a word and keeps the rest. Four sets of
bits that a request governs are written for some requests only: the stick parity bit, `IXANY`, the
speed bits, and the custom speed of the driver.
-/

namespace Cadence.Serial

open BitMask

/-! ### What a request writes -/

def speedBits : BitVec 32 := CBAUD ||| CBAUDEX

def parityBits : BitVec 32 := PARENB ||| PARODD ||| CMSPAR

def softwareFlowBits : BitVec 32 := IXON ||| IXOFF ||| IXANY

def setBaud : Option (BitVec 32) → Termios → Termios
  | none, options => options
  | some baud, options => cfsetospeed (cfsetispeed options baud) baud

/-- The options a request leads to, for the baud constant it has. -/
def configured (baud : Option (BitVec 32)) (request : Request) (options : Termios) : Termios :=
  tcsetattr (pollingRead (setupFlowControl request.flowcontrol (setupParity request.parity
    (setupStopbits request.stopbits (setupCharLen request.bytesize
      (setBaud baud (rawMode options)))))))

def configuredSerial (request : Request) (ser : SerialStruct) : SerialStruct :=
  match baudConstant request.baudrate with
  | none => customSpeed ser request.baudrate
  | some _ => ser

def baudWritten : Option (BitVec 32) → BitVec 32
  | none => 0#32
  | some _ => speedBits

def parityWritten : Parity → BitVec 32
  | .none | .even | .odd => PARENB ||| PARODD
  | .mark | .space => parityBits

def flowWritten : Flowcontrol → BitVec 32
  | .software => IXON ||| IXOFF
  | .none | .hardware => softwareFlowBits

def cflagWritten (baud : Option (BitVec 32)) (request : Request) : BitVec 32 :=
  (CLOCAL ||| CREAD) ||| baudWritten baud ||| CSIZE ||| CSTOPB ||| parityWritten request.parity |||
    CRTSCTS

def rawIflag : BitVec 32 :=
  (INLCR ||| IGNCR ||| ICRNL ||| IGNBRK) ||| IUCLC ||| PARMRK

def iflagWritten (baud : Option (BitVec 32)) (request : Request) : BitVec 32 :=
  rawIflag ||| (if baud = none then 0#32 else IBAUD0) ||| (INPCK ||| ISTRIP) |||
    flowWritten request.flowcontrol ||| IBAUD0

structure SameGoverned (device device' : Device) : Prop where
  charLen : Agree CSIZE device.termios.cflag device'.termios.cflag
  stopbits : Agree CSTOPB device.termios.cflag device'.termios.cflag
  parity : Agree parityBits device.termios.cflag device'.termios.cflag
  inputParity : Agree (INPCK ||| ISTRIP) device.termios.iflag device'.termios.iflag
  softwareFlow : Agree softwareFlowBits device.termios.iflag device'.termios.iflag
  hardwareFlow : Agree CRTSCTS device.termios.cflag device'.termios.cflag
  speed : Agree speedBits device.termios.cflag device'.termios.cflag
  speedFlags : Agree ASYNC_SPD_MASK device.serial.flags device'.serial.flags
  customDivisor : device.serial.customDivisor = device'.serial.customDivisor

def rawLflag : BitVec 32 :=
  ICANON ||| ECHO ||| ECHOE ||| ECHOK ||| ECHONL ||| ISIG ||| IEXTEN

def iflagBits : BitVec 32 :=
  rawIflag ||| (INPCK ||| ISTRIP) ||| softwareFlowBits ||| IBAUD0

def cflagBits : BitVec 32 :=
  (CLOCAL ||| CREAD) ||| speedBits ||| CSIZE ||| CSTOPB ||| parityBits ||| CRTSCTS

/-- Everything that no request writes. -/
structure SameUngoverned (device device' : Device) : Prop where
  iflag : Agree (~~~iflagBits) device.termios.iflag device'.termios.iflag
  oflag : Agree (~~~OPOST) device.termios.oflag device'.termios.oflag
  cflag : Agree (~~~cflagBits) device.termios.cflag device'.termios.cflag
  lflag : Agree (~~~rawLflag) device.termios.lflag device'.termios.lflag
  flags : Agree (~~~ASYNC_SPD_MASK) device.serial.flags device'.serial.flags
  baudBase : device.serial.baudBase = device'.serial.baudBase

/-- What this request governs and does not write. -/
structure SameUnwritten (request : Request) (device device' : Device) : Prop where
  stickParity : request.parity = .mark ∨ request.parity = .space ∨
    Agree CMSPAR device.termios.cflag device'.termios.cflag
  anyChar : request.flowcontrol ≠ .software ∨
    Agree IXANY device.termios.iflag device'.termios.iflag
  standard : baudConstant request.baudrate ≠ none →
    Agree ASYNC_SPD_MASK device.serial.flags device'.serial.flags ∧
      device.serial.customDivisor = device'.serial.customDivisor
  custom : baudConstant request.baudrate = none →
    Agree speedBits device.termios.cflag device'.termios.cflag

/-- An open of the port, successful or not. -/
structure Configuration where
  natives : Natives
  fd : PollId
  request : Request

def configureAll (device : Device) (configurations : List Configuration) : Device :=
  configurations.foldl (fun device configuration =>
    (reconfigurePort configuration.natives configuration.fd configuration.request device).2) device

/-- Whenever both succeed, configuring for the request gives the same settings. -/
def Independent (request : Request) (device device' : Device) : Prop :=
  ∀ natives natives' fd fd' next next',
    reconfigurePort natives fd request device = (.ok (), next) →
    reconfigurePort natives' fd' request device' = (.ok (), next') → SameGoverned next next'

/-! ### Its parts -/

section Parts

variable {baud : BitVec 32}

theorem baudConstant_subset {baudrate : BitVec 32} (hbaud : baudConstant baudrate = some baud) :
    speedBits ||| baud = speedBits := by
  have hall : baudConstants.all (fun entry => speedBits ||| entry.2 = speedBits) = true := by
    decide
  have hentries : ∀ entry ∈ baudConstants, speedBits ||| entry.2 = speedBits :=
    fun entry hentry => of_decide_eq_true (List.all_eq_true.mp hall entry hentry)
  obtain ⟨before, after, hsplit, _⟩ := List.lookup_eq_some_iff.mp hbaud
  exact hentries (baudrate, baud) (by simp [hsplit])

theorem writes_cflag_cfsetospeed (hsubset : speedBits ||| baud = speedBits) :
    Writes Termios.cflag speedBits fun options => cfsetospeed options baud := by
  have hword := (Writes.clear speedBits).comp (Writes.set baud)
  rw [hsubset] at hword
  exact hword.of_word fun _ => rfl

theorem writes_cflag_setBaud {baud : Option (BitVec 32)}
    (hsubset : ∀ value ∈ baud, speedBits ||| value = speedBits) :
    Writes Termios.cflag (baudWritten baud) (setBaud baud) := by
  cases baud with
  | none => exact Writes.keep
  | some baud =>
      have houtput := writes_cflag_cfsetospeed (hsubset baud rfl)
      by_cases hzero : baud = 0
      · refine houtput.congr fun options => ?_
        simp [setBaud, cfsetispeed, hzero, cfsetospeed]
      · have hboth := houtput.comp houtput
        rw [BitVec.or_self] at hboth
        refine hboth.congr fun options => ?_
        rw [setBaud, cfsetispeed, if_neg hzero]
        rfl

theorem writes_iflag_setBaud (baud : Option (BitVec 32)) :
    Writes Termios.iflag (if baud = none then 0#32 else IBAUD0) (setBaud baud) := by
  cases baud with
  | none => exact Writes.keep
  | some baud =>
      by_cases hzero : baud = 0
      · refine (Writes.set IBAUD0).of_word fun options => ?_
        simp [setBaud, cfsetispeed, hzero, cfsetospeed]
      · refine (Writes.clear IBAUD0).of_word fun options => ?_
        rw [setBaud, cfsetispeed, if_neg hzero]
        rfl

theorem writes_cflag_setupCharLen (bytesize : Bytesize) :
    Writes Termios.cflag CSIZE (setupCharLen bytesize) := by
  cases bytesize with
  | fivebits => exact ((Writes.clear CSIZE).comp (Writes.set CS5)).of_word fun _ => rfl
  | sixbits => exact ((Writes.clear CSIZE).comp (Writes.set CS6)).of_word fun _ => rfl
  | sevenbits => exact ((Writes.clear CSIZE).comp (Writes.set CS7)).of_word fun _ => rfl
  | eightbits => exact ((Writes.clear CSIZE).comp (Writes.set CS8)).of_word fun _ => rfl

theorem writes_cflag_setupStopbits (stopbits : Stopbits) :
    Writes Termios.cflag CSTOPB (setupStopbits stopbits) := by
  cases stopbits with
  | one => exact (Writes.clear CSTOPB).of_word fun _ => rfl
  | two => exact (Writes.set CSTOPB).of_word fun _ => rfl
  | one_point_five => exact (Writes.set CSTOPB).of_word fun _ => rfl

theorem writes_cflag_setupParity (parity : Parity) :
    Writes Termios.cflag (parityWritten parity) (setupParity parity) := by
  cases parity with
  | none => exact (Writes.clear (PARENB ||| PARODD)).of_word fun _ => rfl
  | even => exact ((Writes.clear PARODD).comp (Writes.set PARENB)).of_word fun _ => rfl
  | odd => exact (Writes.set (PARENB ||| PARODD)).of_word fun _ => rfl
  | mark => exact (Writes.set (PARENB ||| CMSPAR ||| PARODD)).of_word fun _ => rfl
  | space =>
      exact ((Writes.set (PARENB ||| CMSPAR)).comp (Writes.clear PARODD)).of_word fun _ => rfl

theorem writes_iflag_setupParity (parity : Parity) :
    Writes Termios.iflag (INPCK ||| ISTRIP) (setupParity parity) := by
  cases parity <;> exact (Writes.clear (INPCK ||| ISTRIP)).of_word fun _ => rfl

theorem writes_iflag_setupFlowControl (flowcontrol : Flowcontrol) :
    Writes Termios.iflag (flowWritten flowcontrol) (setupFlowControl flowcontrol) := by
  cases flowcontrol with
  | software => exact (Writes.set (IXON ||| IXOFF)).of_word fun _ => rfl
  | none => exact (Writes.clear softwareFlowBits).of_word fun _ => rfl
  | hardware => exact (Writes.clear softwareFlowBits).of_word fun _ => rfl

theorem writes_cflag_setupFlowControl (flowcontrol : Flowcontrol) :
    Writes Termios.cflag CRTSCTS (setupFlowControl flowcontrol) := by
  cases flowcontrol with
  | hardware => exact (Writes.set CRTSCTS).of_word fun _ => rfl
  | none => exact (Writes.clear CRTSCTS).of_word fun _ => rfl
  | software => exact (Writes.clear CRTSCTS).of_word fun _ => rfl

theorem writes_iflag_rawMode : Writes Termios.iflag rawIflag rawMode :=
  (((Writes.clear (INLCR ||| IGNCR ||| ICRNL ||| IGNBRK)).comp (Writes.clear IUCLC)).comp
    (Writes.clear PARMRK)).of_word fun _ => rfl

end Parts

/-! ### All of it -/

section Whole

variable {request : Request} {baud : Option (BitVec 32)}

theorem writes_cflag_configured (hsubset : ∀ value ∈ baud, speedBits ||| value = speedBits) :
    Writes Termios.cflag (cflagWritten baud request) (configured baud request) := by
  have hraw : Writes Termios.cflag (CLOCAL ||| CREAD) rawMode :=
    (Writes.set (CLOCAL ||| CREAD)).of_word fun _ => rfl
  have hbaud := hraw.comp (writes_cflag_setBaud hsubset)
  have hcharLen := hbaud.comp (writes_cflag_setupCharLen request.bytesize)
  have hstopbits := hcharLen.comp (writes_cflag_setupStopbits request.stopbits)
  have hparity := hstopbits.comp (writes_cflag_setupParity request.parity)
  have hflow := hparity.comp (writes_cflag_setupFlowControl request.flowcontrol)
  exact hflow.congr fun _ => rfl

theorem writes_iflag_configured :
    Writes Termios.iflag (iflagWritten baud request) (configured baud request) := by
  have hbaud := writes_iflag_rawMode.comp (writes_iflag_setBaud baud)
  have hformat : Writes Termios.iflag
      (rawIflag ||| if baud = none then 0#32 else IBAUD0)
      fun options => setupStopbits request.stopbits
        (setupCharLen request.bytesize (setBaud baud (rawMode options))) := by
    refine hbaud.congr fun options => ?_
    cases hstopbits : request.stopbits <;> cases hbytesize : request.bytesize <;> rfl
  have hparity := hformat.comp (writes_iflag_setupParity request.parity)
  have hflow := hparity.comp (writes_iflag_setupFlowControl request.flowcontrol)
  have hactivate : Writes Termios.iflag IBAUD0 fun options => tcsetattr (pollingRead options) :=
    (Writes.clear IBAUD0).of_word fun _ => rfl
  exact hflow.comp hactivate

theorem setBaud_eq {natives : Natives} {options options' : Termios} {ser ser' : SerialStruct}
    (hok : setupBaudRate natives request.baudrate options ser = .ok (options', ser')) :
    options' = setBaud (baudConstant request.baudrate) options ∧
      ser' = configuredSerial request ser := by
  cases hbaud : baudConstant request.baudrate with
  | none =>
      simp only [setupBaudRate, hbaud, check] at hok
      cases hget : natives.tiocgserial <;> cases hset : natives.tiocsserial <;>
        simp_all [configuredSerial, setBaud, bind, Except.bind, pure, Except.pure]
  | some baud =>
      simp only [setupBaudRate, hbaud, check] at hok
      cases hin : natives.cfsetispeed <;> cases hout : natives.cfsetospeed <;>
        simp_all [configuredSerial, setBaud, bind, Except.bind, pure, Except.pure]

/-- What a call leaves behind: nothing, the custom speed alone, or everything. -/
theorem reconfigurePort_cases (natives : Natives) (fd : PollId) (request : Request)
    (device : Device) :
    (∃ raised, reconfigurePort natives fd request device = (.error raised, device)) ∨
    (∃ raised, reconfigurePort natives fd request device =
      (.error raised, ⟨device.termios, configuredSerial request device.serial⟩)) ∨
    reconfigurePort natives fd request device =
      (.ok (), ⟨configured (baudConstant request.baudrate) request device.termios,
        configuredSerial request device.serial⟩) := by
  unfold reconfigurePort reconfigurePortOn
  split
  · exact .inl ⟨_, rfl⟩
  · split
    · exact .inl ⟨_, rfl⟩
    · split
      · exact .inl ⟨_, rfl⟩
      · rename_i options ser hbaud
        obtain ⟨hoptions, hser⟩ := setBaud_eq hbaud
        subst hoptions hser
        rw [setupRest_true]
        cases hset : natives.tcsetattr with
        | some errno => exact .inr (.inl ⟨_, rfl⟩)
        | none => exact .inr (.inr rfl)

theorem reconfigurePort_eq_ok {natives : Natives} {fd : PollId} {device next : Device}
    (hok : reconfigurePort natives fd request device = (.ok (), next)) :
    next = ⟨configured (baudConstant request.baudrate) request device.termios,
      configuredSerial request device.serial⟩ := by
  rcases reconfigurePort_cases natives fd request device with ⟨raised, h⟩ | ⟨raised, h⟩ | h
  · rw [h] at hok
    cases hok
  · rw [h] at hok
    cases hok
  · rw [h] at hok
    exact (Prod.mk.inj hok).2.symm

def succeeding : Natives := ⟨none, none, none, none, none, none⟩

theorem reconfigurePort_of_succeeding (request : Request) (device : Device) :
    reconfigurePort succeeding 0 request device =
      (.ok (), ⟨configured (baudConstant request.baudrate) request device.termios,
        configuredSerial request device.serial⟩) := by
  cases hbaud : baudConstant request.baudrate <;>
    simp [reconfigurePort, reconfigurePortOn, setupRest_true, succeeding, check, setupBaudRate, hbaud,
      bind, Except.bind, Except.map, pure, Except.pure, configuredSerial, configured, setBaud]

theorem writes_flags_customSpeed (baudrate : BitVec 32) :
    Writes SerialStruct.flags ASYNC_SPD_MASK fun ser => customSpeed ser baudrate :=
  ((Writes.clear ASYNC_SPD_MASK).comp (Writes.set ASYNC_SPD_CUST)).of_word fun _ => rfl

theorem agree_configuredSerial_iff (ser ser' : SerialStruct) :
    Agree ASYNC_SPD_MASK (configuredSerial request ser).flags (configuredSerial request ser').flags ↔
      (baudConstant request.baudrate ≠ none → Agree ASYNC_SPD_MASK ser.flags ser'.flags) := by
  cases hbaud : baudConstant request.baudrate with
  | none =>
      simp only [configuredSerial, hbaud]
      exact ⟨fun _ h => absurd rfl h, fun _ =>
        ((writes_flags_customSpeed request.baudrate).agree_written_iff ASYNC_SPD_MASK ser ser').mpr
          agree_zero⟩
  | some baud => simp [configuredSerial, hbaud]

theorem customDivisor_configuredSerial_iff {ser ser' : SerialStruct}
    (hbase : ser.baudBase = ser'.baudBase) :
    (configuredSerial request ser).customDivisor = (configuredSerial request ser').customDivisor ↔
      (baudConstant request.baudrate ≠ none → ser.customDivisor = ser'.customDivisor) := by
  cases hbaud : baudConstant request.baudrate with
  | none => simp [configuredSerial, hbaud, customSpeed, hbase]
  | some baud => simp [configuredSerial, hbaud]

theorem cflag_written (baud : Option (BitVec 32)) (request : Request) :
    CSIZE &&& ~~~cflagWritten baud request = 0#32 ∧
      CSTOPB &&& ~~~cflagWritten baud request = 0#32 ∧
      CRTSCTS &&& ~~~cflagWritten baud request = 0#32 := by
  cases baud <;> cases hparity : request.parity <;>
    simp only [cflagWritten, hparity, baudWritten, parityWritten] <;> decide

theorem parityBits_written (baud : Option (BitVec 32)) (request : Request) :
    parityBits &&& ~~~cflagWritten baud request =
      if request.parity = .mark ∨ request.parity = .space then 0#32 else CMSPAR := by
  cases baud <;> cases hparity : request.parity <;>
    simp only [cflagWritten, hparity, baudWritten, parityWritten] <;> decide

theorem speedBits_written (baud : Option (BitVec 32)) (request : Request) :
    speedBits &&& ~~~cflagWritten baud request = if baud = none then speedBits else 0#32 := by
  cases baud <;> cases hparity : request.parity <;>
    simp only [cflagWritten, hparity, baudWritten, parityWritten, reduceCtorEq, if_false,
      if_true] <;> decide

theorem inputParity_written (baud : Option (BitVec 32)) (request : Request) :
    (INPCK ||| ISTRIP) &&& ~~~iflagWritten baud request = 0#32 := by
  cases baud <;> cases hflow : request.flowcontrol <;>
    simp only [iflagWritten, hflow, flowWritten, reduceCtorEq, if_false, if_true] <;> decide

theorem softwareFlowBits_written (baud : Option (BitVec 32)) (request : Request) :
    softwareFlowBits &&& ~~~iflagWritten baud request =
      if request.flowcontrol = .software then IXANY else 0#32 := by
  cases baud <;> cases hflow : request.flowcontrol <;>
    simp only [iflagWritten, hflow, flowWritten, reduceCtorEq, if_false, if_true] <;> decide

section TwoDevices

variable {device device' : Device}

theorem agree_cflag_configured_iff (request : Request) (observed : BitVec 32)
    (options options' : Termios) :
    Agree observed (configured (baudConstant request.baudrate) request options).cflag
        (configured (baudConstant request.baudrate) request options').cflag ↔
      Agree (observed &&& ~~~cflagWritten (baudConstant request.baudrate) request) options.cflag
        options'.cflag :=
  (writes_cflag_configured fun _ hvalue => baudConstant_subset hvalue).agree_written_iff observed
    options options'

theorem agree_parity_configured_iff (request : Request) (options options' : Termios) :
    Agree parityBits (configured (baudConstant request.baudrate) request options).cflag
        (configured (baudConstant request.baudrate) request options').cflag ↔
      request.parity = .mark ∨ request.parity = .space ∨
        Agree CMSPAR options.cflag options'.cflag := by
  rw [agree_cflag_configured_iff, parityBits_written, ← or_assoc]
  by_cases hstick : request.parity = .mark ∨ request.parity = .space
  · rw [if_pos hstick]
    exact iff_of_true agree_zero (.inl hstick)
  · rw [if_neg hstick]
    exact (or_iff_right hstick).symm

theorem agree_speed_configured_iff (request : Request) (options options' : Termios) :
    Agree speedBits (configured (baudConstant request.baudrate) request options).cflag
        (configured (baudConstant request.baudrate) request options').cflag ↔
      (baudConstant request.baudrate = none → Agree speedBits options.cflag options'.cflag) := by
  rw [agree_cflag_configured_iff, speedBits_written]
  by_cases hcustom : baudConstant request.baudrate = none
  · rw [if_pos hcustom]
    exact ⟨fun hagree _ => hagree, fun hagree => hagree hcustom⟩
  · rw [if_neg hcustom]
    exact iff_of_true agree_zero fun hnone => absurd hnone hcustom

theorem agree_softwareFlow_configured_iff (request : Request) (options options' : Termios) :
    Agree softwareFlowBits (configured (baudConstant request.baudrate) request options).iflag
        (configured (baudConstant request.baudrate) request options').iflag ↔
      request.flowcontrol ≠ .software ∨ Agree IXANY options.iflag options'.iflag := by
  rw [writes_iflag_configured.agree_written_iff, softwareFlowBits_written]
  by_cases hsoftware : request.flowcontrol = .software
  · rw [if_pos hsoftware]
    exact (or_iff_right (not_not_intro hsoftware)).symm
  · rw [if_neg hsoftware]
    exact iff_of_true agree_zero (.inl hsoftware)

/-- The settings that two devices are left with differ where the request left them alone. -/
theorem sameGoverned_configured_iff (request : Request)
    (hbase : device.serial.baudBase = device'.serial.baudBase) :
    SameGoverned
        ⟨configured (baudConstant request.baudrate) request device.termios,
          configuredSerial request device.serial⟩
        ⟨configured (baudConstant request.baudrate) request device'.termios,
          configuredSerial request device'.serial⟩ ↔
      SameUnwritten request device device' := by
  obtain ⟨hsize, hstop, hrts⟩ := cflag_written (baudConstant request.baudrate) request
  have hcflag := fun observed =>
    agree_cflag_configured_iff request observed device.termios device'.termios
  constructor
  · intro hsame
    have hflags := (agree_configuredSerial_iff _ _).mp hsame.speedFlags
    have hdivisor := (customDivisor_configuredSerial_iff hbase).mp hsame.customDivisor
    constructor
    · exact (agree_parity_configured_iff _ _ _).mp hsame.parity
    · exact (agree_softwareFlow_configured_iff _ _ _).mp hsame.softwareFlow
    · exact fun hstandard => ⟨hflags hstandard, hdivisor hstandard⟩
    · exact (agree_speed_configured_iff _ _ _).mp hsame.speed
  · intro hunwritten
    constructor
    · exact (hcflag _).mpr (hsize ▸ agree_zero)
    · exact (hcflag _).mpr (hstop ▸ agree_zero)
    · exact (agree_parity_configured_iff _ _ _).mpr hunwritten.stickParity
    · exact (writes_iflag_configured.agree_written_iff _ _ _).mpr
        (inputParity_written _ request ▸ agree_zero)
    · exact (agree_softwareFlow_configured_iff _ _ _).mpr hunwritten.anyChar
    · exact (hcflag _).mpr (hrts ▸ agree_zero)
    · exact (agree_speed_configured_iff _ _ _).mpr hunwritten.custom
    · exact (agree_configuredSerial_iff _ _).mpr fun h => (hunwritten.standard h).1
    · exact (customDivisor_configuredSerial_iff hbase).mpr fun h => (hunwritten.standard h).2

end TwoDevices

end Whole

/-! ### Histories -/

section History

variable {device device' : Device}

theorem SameUngoverned.refl (device : Device) : SameUngoverned device device :=
  ⟨rfl, rfl, rfl, rfl, rfl, rfl⟩

theorem SameUngoverned.symm (hsame : SameUngoverned device device') :
    SameUngoverned device' device :=
  ⟨hsame.iflag.symm, hsame.oflag.symm, hsame.cflag.symm, hsame.lflag.symm, hsame.flags.symm,
    hsame.baudBase.symm⟩

theorem SameUngoverned.trans {device'' : Device} (hsame : SameUngoverned device device')
    (hsame' : SameUngoverned device' device'') : SameUngoverned device device'' :=
  ⟨hsame.iflag.trans hsame'.iflag, hsame.oflag.trans hsame'.oflag, hsame.cflag.trans hsame'.cflag,
    hsame.lflag.trans hsame'.lflag, hsame.flags.trans hsame'.flags,
    hsame.baudBase.trans hsame'.baudBase⟩

theorem cflagWritten_subset (baud : Option (BitVec 32)) (request : Request) :
    ~~~cflagBits &&& ~~~cflagWritten baud request = ~~~cflagBits := by
  cases baud <;> cases hparity : request.parity <;>
    simp only [cflagWritten, hparity, baudWritten, parityWritten] <;> decide

theorem iflagWritten_subset (baud : Option (BitVec 32)) (request : Request) :
    ~~~iflagBits &&& ~~~iflagWritten baud request = ~~~iflagBits := by
  cases baud <;> cases hflow : request.flowcontrol <;>
    simp only [iflagWritten, hflow, flowWritten, reduceCtorEq, if_false, if_true] <;> decide

theorem agree_configuredSerial_outside (request : Request) (ser : SerialStruct) :
    Agree (~~~ASYNC_SPD_MASK) (configuredSerial request ser).flags ser.flags := by
  unfold configuredSerial
  split
  · exact (writes_flags_customSpeed request.baudrate).outside ser
  · exact rfl

theorem baudBase_configuredSerial (request : Request) (ser : SerialStruct) :
    (configuredSerial request ser).baudBase = ser.baudBase := by
  unfold configuredSerial
  split <;> rfl

theorem modes_setBaud (baud : Option (BitVec 32)) (options : Termios) :
    (setBaud baud options).oflag = options.oflag ∧ (setBaud baud options).lflag = options.lflag := by
  cases baud with
  | none => exact ⟨rfl, rfl⟩
  | some baud =>
      rw [setBaud, cfsetispeed]
      split <;> exact ⟨rfl, rfl⟩

theorem modes_setupFormat (request : Request) (options : Termios) :
    let formatted := setupParity request.parity (setupStopbits request.stopbits
      (setupCharLen request.bytesize options))
    formatted.oflag = options.oflag ∧ formatted.lflag = options.lflag := by
  cases request.bytesize <;> cases request.stopbits <;> cases request.parity <;> exact ⟨rfl, rfl⟩

/-- Only raw mode changes these two words. -/
theorem modes_configured (baud : Option (BitVec 32)) (request : Request) (options : Termios) :
    (configured baud request options).oflag = options.oflag &&& ~~~OPOST ∧
      (configured baud request options).lflag = options.lflag &&& ~~~rawLflag := by
  obtain ⟨hoflag, hlflag⟩ := modes_setupFormat request (setBaud baud (rawMode options))
  obtain ⟨hoflag', hlflag'⟩ := modes_setBaud baud (rawMode options)
  exact ⟨hoflag.trans hoflag', hlflag.trans hlflag'⟩

theorem sameUngoverned_configured (request : Request) (device : Device) :
    SameUngoverned
      ⟨configured (baudConstant request.baudrate) request device.termios,
        configuredSerial request device.serial⟩ device where
  iflag := (writes_iflag_configured.outside _).mono (iflagWritten_subset _ _)
  oflag := ((Writes.clear OPOST).of_word fun options =>
    (modes_configured _ request options).1).outside _
  cflag := ((writes_cflag_configured fun _ hvalue => baudConstant_subset hvalue).outside _).mono
    (cflagWritten_subset _ _)
  lflag := ((Writes.clear rawLflag).of_word fun options =>
    (modes_configured _ request options).2).outside _
  flags := agree_configuredSerial_outside request device.serial
  baudBase := baudBase_configuredSerial request device.serial

theorem sameUngoverned_reconfigurePort (natives : Natives) (fd : PollId) (request : Request)
    (device : Device) : SameUngoverned (reconfigurePort natives fd request device).2 device := by
  rcases reconfigurePort_cases natives fd request device with ⟨raised, h⟩ | ⟨raised, h⟩ | h
  · rw [h]
    exact SameUngoverned.refl device
  · rw [h]
    exact { SameUngoverned.refl device with
      flags := agree_configuredSerial_outside request device.serial
      baudBase := baudBase_configuredSerial request device.serial }
  · rw [h]
    exact sameUngoverned_configured request device

theorem sameUngoverned_configureAll (device : Device) (configurations : List Configuration) :
    SameUngoverned (configureAll device configurations) device := by
  induction configurations generalizing device with
  | nil => exact SameUngoverned.refl device
  | cons configuration configurations ih =>
      exact (ih _).trans (sameUngoverned_reconfigurePort configuration.natives configuration.fd
        configuration.request device)

/-- **Serial configuration.** After any two histories of a port, a request leads to the same settings
exactly when the histories agree on what the request governs and does not write. With no history on
one side this is the comparison with a configuration from scratch. -/
theorem independent_iff (request : Request) (device device' : Device)
    (configurations configurations' : List Configuration)
    (hungoverned : SameUngoverned device device') :
    Independent request (configureAll device configurations)
        (configureAll device' configurations') ↔
      SameUnwritten request (configureAll device configurations)
        (configureAll device' configurations') := by
  have hreached : SameUngoverned (configureAll device configurations)
      (configureAll device' configurations') :=
    ((sameUngoverned_configureAll device configurations).trans hungoverned).trans
      (sameUngoverned_configureAll device' configurations').symm
  rw [← sameGoverned_configured_iff request hreached.baudBase]
  constructor
  · intro hindependent
    exact hindependent _ _ _ _ _ _ (reconfigurePort_of_succeeding request _)
      (reconfigurePort_of_succeeding request _)
  · intro hsame natives natives' fd fd' next next' hok hok'
    rw [reconfigurePort_eq_ok hok, reconfigurePort_eq_ok hok']
    exact hsame

def blankDevice : Device := ⟨⟨0, 0, 0, 0, 1, 0⟩, ⟨0, 0, 115200⟩⟩

/-- A port that had odd parity, hardware flow control and seven bits is set up for mark parity. -/
theorem independent_for_mark :
    Independent ⟨9600, .eightbits, .mark, .two, .none⟩
      (configureAll blankDevice
        [⟨succeeding, 3, ⟨115200, .sevenbits, .odd, .one, .hardware⟩⟩])
      (configureAll blankDevice []) :=
  (independent_iff _ _ _ _ _ (SameUngoverned.refl _)).mpr
    ⟨.inl rfl, .inl (by decide), fun _ => by decide, fun h => absurd h (by decide)⟩

/-- Even parity after mark parity keeps `CMSPAR`, which makes it space parity. -/
theorem not_independent_after_mark :
    SameUngoverned blankDevice blankDevice ∧
      ¬ Independent ⟨9600, .eightbits, .even, .one, .none⟩
        (configureAll blankDevice
          [⟨succeeding, 3, ⟨9600, .eightbits, .mark, .one, .none⟩⟩])
        (configureAll blankDevice []) := by
  refine ⟨SameUngoverned.refl _, fun hindependent => ?_⟩
  have hsame := hindependent _ _ _ _ _ _ (reconfigurePort_of_succeeding _ _)
    (reconfigurePort_of_succeeding _ _)
  exact absurd hsame.parity (by decide)

end History

end Cadence.Serial
