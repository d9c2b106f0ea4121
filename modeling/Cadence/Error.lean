import Mathlib.Data.Int.Notation

/-!
# Errors

A raised exception ends a call of the io layer. The async layer returns `Error` values, whose domain
tells the errors of the library itself from those that asio reports.
-/

namespace Cadence

abbrev Errno := Nat

def ENOENT : Errno := 2
def EINTR : Errno := 4
def EIO : Errno := 5
def EBADF : Errno := 9
def EAGAIN : Errno := 11
def EACCES : Errno := 13
def EEXIST : Errno := 17
def EISDIR : Errno := 21
def EINVAL : Errno := 22
def EOVERFLOW : Errno := 75
def EADDRINUSE : Errno := 98
def EAFNOSUPPORT : Errno := 97
def ECONNABORTED : Errno := 103
def ECONNRESET : Errno := 104
def EISCONN : Errno := 106
def ECONNREFUSED : Errno := 111
def ECANCELED : Errno := 125
/-- `asio::error::eof`, which is a number of a category of asio's own. -/
def eof : Errno := 2

/-- What `Solace::raise` throws. -/
inductive Exception where
  | ioException (errno : Errno)
  | notOpen
  | indexOutOfRange (index lower upper : Nat)
  deriving DecidableEq

inductive ErrorDomain where
  | systemErrors
  | kAsyncErrorCatergory
  deriving DecidableEq

structure Error where
  domain : ErrorDomain
  value : Errno
  tag : String
  deriving DecidableEq

/-- `makeError(SystemErrors, tag)`. -/
def makeSystemError (errno : Errno) (tag : String) : Error :=
  ⟨.systemErrors, errno, tag⟩

def fromAsioError (err : Errno) (tag : String) : Error :=
  ⟨.kAsyncErrorCatergory, err, tag⟩

def Error.Is (error : Error) (errno : Errno) : Prop :=
  error.domain = .systemErrors ∧ error.value = errno

instance (error : Error) (errno : Errno) : Decidable (error.Is errno) :=
  inferInstanceAs (Decidable (_ ∧ _))

theorem not_is_fromAsioError {err errno : Errno} {tag : String} :
    ¬ (fromAsioError err tag).Is errno := by
  rintro ⟨hdomain, _⟩
  cases hdomain

end Cadence
