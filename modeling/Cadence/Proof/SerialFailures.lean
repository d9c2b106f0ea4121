import Cadence.Proof.SerialHistory

/-!
# Custom speeds of a serial port

A custom speed is written to the driver while everything else is still staged in the options. What
fails after that leaves the driver changed, and what the driver has then been given is the quotient of
its base and the requested rate, whatever it comes to.
-/

namespace Cadence.Serial

variable {cmspar : Bool} {natives : Natives} {fd : PollId} {request : Request} {device : Device}

/-! ### How far a call gets -/

/-- The calls that set the speed succeed. -/
def SpeedAccepted (natives : Natives) (request : Request) : Prop :=
  match baudConstant request.baudrate with
  | none => natives.tiocgserial = none ∧ natives.tiocsserial = none
  | some _ => natives.cfsetispeed = none ∧ natives.cfsetospeed = none

def SpeedSet (natives : Natives) (fd : PollId) (request : Request) : Prop :=
  fd ≠ -1 ∧ natives.tcgetattr = none ∧ SpeedAccepted natives request

def ParityRefused (cmspar : Bool) (parity : Parity) : Prop :=
  cmspar = false ∧ (parity = .mark ∨ parity = .space)

/-- Something fails that comes after the speed. -/
def FailsLater (cmspar : Bool) (natives : Natives) (request : Request) : Prop :=
  ParityRefused cmspar request.parity ∨ natives.tcsetattr ≠ none

theorem setupBaudRate_of_accepted (options : Termios) (ser : SerialStruct)
    (haccepted : SpeedAccepted natives request) :
    setupBaudRate natives request.baudrate options ser =
      .ok (setBaud (baudConstant request.baudrate) options, configuredSerial request ser) := by
  rw [SpeedAccepted] at haccepted
  rw [setupBaudRate, configuredSerial]
  cases hbaud : baudConstant request.baudrate with
  | none =>
      simp only [hbaud] at haccepted
      rw [haccepted.1, haccepted.2]
      rfl
  | some baud =>
      simp only [hbaud] at haccepted
      rw [haccepted.1, haccepted.2]
      rfl

theorem check_of_ne_none {outcome : Option Errno} {text : String} (hfails : outcome ≠ none) :
    ∃ raised, check outcome text = .error raised := by
  cases outcome with
  | none => exact absurd rfl hfails
  | some errno => exact ⟨_, rfl⟩

theorem setupBaudRate_of_not_accepted (options : Termios) (ser : SerialStruct)
    (hrejected : ¬ SpeedAccepted natives request) :
    ∃ raised, setupBaudRate natives request.baudrate options ser = .error raised := by
  rw [SpeedAccepted] at hrejected
  rw [setupBaudRate]
  cases hbaud : baudConstant request.baudrate with
  | none =>
      simp only [hbaud] at hrejected
      cases hget : natives.tiocgserial with
      | some errno => exact ⟨_, rfl⟩
      | none =>
          obtain ⟨raised, hset⟩ := @check_of_ne_none natives.tiocsserial "ioctl::TIOCSSERIAL"
            fun hset => hrejected ⟨hget, hset⟩
          exact ⟨raised, by rw [hset]; rfl⟩
  | some baud =>
      simp only [hbaud] at hrejected
      cases hinput : natives.cfsetispeed with
      | some errno => exact ⟨_, rfl⟩
      | none =>
          obtain ⟨raised, houtput⟩ := @check_of_ne_none natives.cfsetospeed "cfsetospeed"
            fun houtput => hrejected ⟨hinput, houtput⟩
          exact ⟨raised, by rw [houtput]; rfl⟩

theorem setupParityOn_of_refused (options : Termios)
    (hrefused : ParityRefused cmspar request.parity) :
    ∃ raised, setupParityOn cmspar request.parity options = .error raised := by
  obtain ⟨hcmspar, hparity | hparity⟩ := hrefused
  · exact ⟨_, by rw [hcmspar, hparity]; rfl⟩
  · exact ⟨_, by rw [hcmspar, hparity]; rfl⟩

theorem setupParityOn_of_supported (options : Termios)
    (hsupported : ¬ ParityRefused cmspar request.parity) :
    setupParityOn cmspar request.parity options = .ok (setupParity request.parity options) := by
  cases cmspar with
  | true => exact setupParityOn_true _ _
  | false =>
      cases hparity : request.parity with
      | mark => exact absurd ⟨rfl, .inl hparity⟩ hsupported
      | space => exact absurd ⟨rfl, .inr hparity⟩ hsupported
      | none | odd | even => rfl

theorem setupRest_of_fails (options : Termios) (hfails : FailsLater cmspar natives request) :
    ∃ raised, setupRest cmspar natives request options = .error raised := by
  rw [setupRest]
  by_cases hrefused : ParityRefused cmspar request.parity
  · obtain ⟨raised, hparity⟩ := setupParityOn_of_refused
      (setupStopbits request.stopbits (setupCharLen request.bytesize options)) hrefused
    exact ⟨raised, by rw [hparity]; rfl⟩
  · obtain ⟨raised, hset⟩ := @check_of_ne_none natives.tcsetattr "tcsetattr(TCSANOW)"
      (hfails.resolve_left hrefused)
    exact ⟨raised, by rw [setupParityOn_of_supported _ hrefused, hset]; rfl⟩

theorem setupRest_of_succeeds (options : Termios) (hsucceeds : ¬ FailsLater cmspar natives request) :
    setupRest cmspar natives request options =
      .ok (tcsetattr (pollingRead (setupFlowControl request.flowcontrol (setupParity request.parity
        (setupStopbits request.stopbits (setupCharLen request.bytesize options)))))) := by
  rw [FailsLater, not_or, Classical.not_not] at hsucceeds
  rw [setupRest, setupParityOn_of_supported _ hsucceeds.1, hsucceeds.2]
  rfl

theorem reconfigurePortOn_of_not_speedSet (cmspar : Bool) (device : Device)
    (hspeed : ¬ SpeedSet natives fd request) :
    ∃ raised, reconfigurePortOn cmspar natives fd request device = (.error raised, device) := by
  rw [reconfigurePortOn]
  by_cases hfd : fd = -1
  · exact ⟨_, if_pos hfd⟩
  · rw [if_neg hfd]
    cases hget : natives.tcgetattr with
    | some errno => exact ⟨_, rfl⟩
    | none =>
        obtain ⟨raised, hrejected⟩ := setupBaudRate_of_not_accepted (rawMode device.termios)
          device.serial fun haccepted => hspeed ⟨hfd, hget, haccepted⟩
        exact ⟨raised, by rw [hrejected]; rfl⟩

/-- A call that does not get past the speed changes nothing, and one that does has written what the
request makes of the driver's settings even if it fails. -/
theorem reconfigurePortOn_cases (cmspar : Bool) (natives : Natives) (fd : PollId)
    (request : Request) (device : Device) :
    (¬ SpeedSet natives fd request ∧
      ∃ raised, reconfigurePortOn cmspar natives fd request device = (.error raised, device)) ∨
    (SpeedSet natives fd request ∧ FailsLater cmspar natives request ∧
      ∃ raised, reconfigurePortOn cmspar natives fd request device =
        (.error raised, ⟨device.termios, configuredSerial request device.serial⟩)) ∨
    (SpeedSet natives fd request ∧ ¬ FailsLater cmspar natives request ∧
      reconfigurePortOn cmspar natives fd request device =
        (.ok (), ⟨configured (baudConstant request.baudrate) request device.termios,
          configuredSerial request device.serial⟩)) := by
  by_cases hspeed : SpeedSet natives fd request
  · obtain ⟨hfd, hget, haccepted⟩ := hspeed
    have hbaud := setupBaudRate_of_accepted (rawMode device.termios) device.serial haccepted
    have hspeed : SpeedSet natives fd request := ⟨hfd, hget, haccepted⟩
    right
    by_cases hfails : FailsLater cmspar natives request
    · obtain ⟨raised, hrest⟩ := setupRest_of_fails
        (setBaud (baudConstant request.baudrate) (rawMode device.termios)) hfails
      exact .inl ⟨hspeed, hfails, raised, by
        rw [reconfigurePortOn, if_neg hfd, hget, hbaud]; simp only [check, hrest]⟩
    · have hrest := setupRest_of_succeeds
        (setBaud (baudConstant request.baudrate) (rawMode device.termios)) hfails
      exact .inr ⟨hspeed, hfails, by
        rw [reconfigurePortOn, if_neg hfd, hget, hbaud]; simp only [check, hrest, configured]⟩
  · exact .inl ⟨hspeed, reconfigurePortOn_of_not_speedSet cmspar device hspeed⟩

/-! ### What a failed call leaves -/

def KeepsDevice (cmspar : Bool) (natives : Natives) (fd : PollId) (request : Request)
    (device : Device) : Prop :=
  ∀ raised, (reconfigurePortOn cmspar natives fd request device).1 = .error raised →
    (reconfigurePortOn cmspar natives fd request device).2 = device

/-- The driver has been given a custom speed. -/
def StoresSpeed (natives : Natives) (fd : PollId) (request : Request) : Prop :=
  SpeedSet natives fd request ∧ baudConstant request.baudrate = none

/-- The driver has this custom speed already. -/
def HasCustomSpeed (ser : SerialStruct) (baudrate : BitVec 32) : Prop :=
  ser.customDivisor = ser.baudBase / baudrate ∧ ser.flags &&& ASYNC_SPD_MASK = ASYNC_SPD_CUST

theorem customFlags_eq_iff (flags : BitVec 32) :
    flags &&& ~~~ASYNC_SPD_MASK ||| ASYNC_SPD_CUST = flags ↔
      flags &&& ASYNC_SPD_MASK = ASYNC_SPD_CUST := by
  have hinside : (~~~ASYNC_SPD_MASK) &&& ASYNC_SPD_MASK = 0#32 := by decide
  have hcustom : ASYNC_SPD_CUST &&& ASYNC_SPD_MASK = ASYNC_SPD_CUST := by decide
  constructor
  · intro hflags
    calc flags &&& ASYNC_SPD_MASK
        = (flags &&& ~~~ASYNC_SPD_MASK ||| ASYNC_SPD_CUST) &&& ASYNC_SPD_MASK := by rw [hflags]
      _ = flags &&& ((~~~ASYNC_SPD_MASK) &&& ASYNC_SPD_MASK) |||
            ASYNC_SPD_CUST &&& ASYNC_SPD_MASK := by rw [BitVec.and_or_distrib_right, BitVec.and_assoc]
      _ = ASYNC_SPD_CUST := by rw [hinside, hcustom, BitVec.and_zero, BitVec.zero_or]
  · intro hflags
    calc flags &&& ~~~ASYNC_SPD_MASK ||| ASYNC_SPD_CUST
        = flags &&& ~~~ASYNC_SPD_MASK ||| flags &&& ASYNC_SPD_MASK := by rw [hflags]
      _ = flags &&& (~~~ASYNC_SPD_MASK ||| ASYNC_SPD_MASK) := by rw [BitVec.and_or_distrib_left]
      _ = flags := by
          have hall : ~~~ASYNC_SPD_MASK ||| ASYNC_SPD_MASK = BitVec.allOnes 32 := by decide
          rw [hall, BitVec.and_allOnes]

theorem customSpeed_eq_iff {ser : SerialStruct} {baudrate : BitVec 32} :
    customSpeed ser baudrate = ser ↔ HasCustomSpeed ser baudrate := by
  rw [HasCustomSpeed, ← customFlags_eq_iff]
  constructor
  · intro hsame
    exact ⟨(congrArg SerialStruct.customDivisor hsame).symm, congrArg SerialStruct.flags hsame⟩
  · rintro ⟨hdivisor, hflags⟩
    rw [customSpeed, hflags, ← hdivisor]

theorem configuredSerial_eq_iff {ser : SerialStruct} :
    configuredSerial request ser = ser ↔
      (baudConstant request.baudrate = none → HasCustomSpeed ser request.baudrate) := by
  rw [configuredSerial]
  cases hbaud : baudConstant request.baudrate with
  | none => exact customSpeed_eq_iff.trans ⟨fun h _ => h, fun h => h rfl⟩
  | some baud => exact iff_of_true rfl fun hnone => absurd hnone (Option.some_ne_none baud)

/-- **A failed configuration.** A call that raises leaves the device as it was, if and only if it does
not fail after the driver was given a custom speed, or the driver had that speed before. -/
theorem keepsDevice_iff (cmspar : Bool) (natives : Natives) (fd : PollId) (request : Request)
    (device : Device) :
    KeepsDevice cmspar natives fd request device ↔
      (StoresSpeed natives fd request → FailsLater cmspar natives request →
        HasCustomSpeed device.serial request.baudrate) := by
  rcases reconfigurePortOn_cases cmspar natives fd request device with
    ⟨hearly, raised, hcall⟩ | ⟨hspeed, hfails, raised, hcall⟩ | ⟨hspeed, hsucceeds, hcall⟩
  · apply iff_of_true
    · intro _ _
      rw [hcall]
    · exact fun hstores => absurd hstores.1 hearly
  · have hkeeps : KeepsDevice cmspar natives fd request device ↔
        configuredSerial request device.serial = device.serial := by
      rw [KeepsDevice, hcall]
      constructor
      · exact fun hkeeps => congrArg Device.serial (hkeeps raised rfl)
      · intro hsame _ _
        rw [hsame]
    rw [hkeeps, configuredSerial_eq_iff]
    exact ⟨fun h hstores _ => h hstores.2, fun h hbaud => h ⟨hspeed, hbaud⟩ hfails⟩
  · apply iff_of_true
    · intro _ herror
      rw [hcall] at herror
      cases herror
    · exact fun _ hfails => absurd hfails hsucceeds

/-- A custom speed, and terminal settings that the device refuses. -/
theorem not_keepsDevice_of_custom_speed :
    ¬ KeepsDevice true ⟨none, none, none, none, none, some EIO⟩ 3
      ⟨12345, .eightbits, .none, .one, .none⟩ blankDevice := by
  intro hkeeps
  exact absurd (hkeeps (.native EIO "tcsetattr(TCSANOW)") (by decide)) (by decide)

/-! ### The divisor of a custom speed -/

/-- A divisor that gives at least the requested rate. The base and the divisor are signed. -/
def Divisor (ser : SerialStruct) (baudrate : BitVec 32) (divisor : BitVec 32) : Prop :=
  1 ≤ divisor.toInt ∧ (baudrate.toNat : Int) ≤ ser.baudBase.toInt / divisor.toInt

structure UsableDivisor (cmspar : Bool) (natives : Natives) (fd : PollId) (request : Request)
    (device : Device) : Prop where
  divides : baudConstant request.baudrate = none → request.baudrate ≠ 0
  stored : StoresSpeed natives fd request →
    Divisor device.serial request.baudrate
      (reconfigurePortOn cmspar natives fd request device).2.serial.customDivisor
  refused : baudConstant request.baudrate = none →
    (¬ ∃ divisor, Divisor device.serial request.baudrate divisor) →
      ∃ raised, (reconfigurePortOn cmspar natives fd request device).1 = .error raised

theorem baudrate_ne_zero {baudrate : BitVec 32} (hcustom : baudConstant baudrate = none) :
    baudrate ≠ 0 := by
  rintro rfl
  exact absurd hcustom (by decide)

section Base

variable {ser : SerialStruct} {baudrate : BitVec 32}

theorem toInt_baudBase (hbase : 0 < ser.baudBase.toInt) :
    ser.baudBase.toInt = ser.baudBase.toNat ∧ 2 * ser.baudBase.toNat < 2 ^ 32 := by
  have hcond := BitVec.toInt_eq_toNat_cond ser.baudBase
  have hlt := ser.baudBase.isLt
  split at hcond <;> omega

/-- The unsigned quotient is the signed one. -/
theorem toInt_quotient (hbase : 0 < ser.baudBase.toInt) :
    (ser.baudBase / baudrate).toInt = (ser.baudBase.toNat / baudrate.toNat : Nat) := by
  have hsmall := (toInt_baudBase hbase).2
  have hle := Nat.div_le_self ser.baudBase.toNat baudrate.toNat
  rw [BitVec.toInt_eq_toNat_cond, BitVec.toNat_udiv, if_pos (by omega)]

/-- The quotient will do unless it is zero, and then nothing will. -/
theorem divisor_quotient (hbase : 0 < ser.baudBase.toInt) (hpos : baudrate ≠ 0)
    (hle : (baudrate.toNat : Int) ≤ ser.baudBase.toInt) :
    Divisor ser baudrate (ser.baudBase / baudrate) := by
  have hrate : 0 < baudrate.toNat := by
    apply Nat.pos_of_ne_zero
    exact fun hzero => hpos (BitVec.eq_of_toNat_eq hzero)
  rw [(toInt_baudBase hbase).1] at hle
  have hquotient : 0 < ser.baudBase.toNat / baudrate.toNat :=
    Nat.div_pos (Int.ofNat_le.mp hle) hrate
  have hback : baudrate.toNat ≤ ser.baudBase.toNat / (ser.baudBase.toNat / baudrate.toNat) := by
    rw [Nat.le_div_iff_mul_le hquotient]
    exact Nat.mul_div_le _ _
  rw [Divisor, toInt_quotient hbase, (toInt_baudBase hbase).1]
  exact ⟨Int.ofNat_le.mpr hquotient, Int.ofNat_le.mpr hback⟩

theorem le_base_of_divisor {divisor : BitVec 32} (hbase : 0 < ser.baudBase.toInt)
    (hdivisor : Divisor ser baudrate divisor) : (baudrate.toNat : Int) ≤ ser.baudBase.toInt :=
  Int.le_trans hdivisor.2 (Int.ediv_le_self _ (Int.le_of_lt hbase))

end Base

theorem customDivisor_of_storesSpeed (hstores : StoresSpeed natives fd request) :
    (reconfigurePortOn cmspar natives fd request device).2.serial.customDivisor =
      device.serial.baudBase / request.baudrate := by
  have hserial : configuredSerial request device.serial =
      customSpeed device.serial request.baudrate := by
    rw [configuredSerial, hstores.2]
  rcases reconfigurePortOn_cases cmspar natives fd request device with
    ⟨hearly, _⟩ | ⟨_, _, raised, hcall⟩ | ⟨_, _, hcall⟩
  · exact absurd hstores.1 hearly
  · rw [hcall, hserial]
    rfl
  · rw [hcall, hserial]
    rfl

/-- **Custom speeds.** Nothing is divided by zero, every divisor that is stored gives at least the
requested rate and a rate without such a divisor is refused, if and only if no speed above the base of
the driver is stored. -/
theorem usableDivisor_iff (hbase : 0 < device.serial.baudBase.toInt) :
    UsableDivisor cmspar natives fd request device ↔
      (StoresSpeed natives fd request →
        (request.baudrate.toNat : Int) ≤ device.serial.baudBase.toInt) := by
  constructor
  · exact fun husable hstores => le_base_of_divisor hbase (husable.stored hstores)
  · intro hle
    refine ⟨baudrate_ne_zero, fun hstores => ?_, fun hcustom hnone => ?_⟩
    · rw [customDivisor_of_storesSpeed hstores]
      exact divisor_quotient hbase (baudrate_ne_zero hstores.2) (hle hstores)
    · rcases reconfigurePortOn_cases cmspar natives fd request device with
        ⟨_, raised, hcall⟩ | ⟨_, _, raised, hcall⟩ | ⟨hspeed, _, _⟩
      · exact ⟨raised, by rw [hcall]⟩
      · exact ⟨raised, by rw [hcall]⟩
      · exact absurd ⟨_, divisor_quotient hbase (baudrate_ne_zero hcustom) (hle ⟨hspeed, hcustom⟩)⟩
          hnone

/-- 12345 baud from a base of 115200. -/
theorem usableDivisor_below_base :
    UsableDivisor true succeeding 3 ⟨12345, .eightbits, .none, .one, .none⟩ blankDevice :=
  (usableDivisor_iff (by decide)).mpr fun _ => by decide

/-- Five million baud from the same base: the divisor is zero. -/
theorem not_usableDivisor_above_base :
    ¬ UsableDivisor true succeeding 3 ⟨5000000, .eightbits, .none, .one, .none⟩ blankDevice := by
  intro husable
  have hstores : StoresSpeed succeeding 3 ⟨5000000, .eightbits, .none, .one, .none⟩ :=
    ⟨⟨by decide, rfl, rfl, rfl⟩, by decide⟩
  have hdivisor := husable.stored hstores
  rw [customDivisor_of_storesSpeed hstores] at hdivisor
  exact absurd hdivisor.1 (by decide)

end Cadence.Serial
