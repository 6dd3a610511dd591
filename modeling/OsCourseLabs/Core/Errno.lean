/-!
# Error numbers

The drivers answer these numbers negated.
-/

namespace OsCourseLabs

def EPERM : Int := 1
def ENOENT : Int := 2
def EIO : Int := 5
def ENOMEM : Int := 12
def EFAULT : Int := 14
def EBUSY : Int := 16
def ENODEV : Int := 19
def EINVAL : Int := 22
def ERANGE : Int := 34
def ECONNRESET : Int := 104
def ESHUTDOWN : Int := 108
def ETIMEDOUT : Int := 110
def EREMOTEIO : Int := 121

/-- The negative number that a call answers when it fails with an errno, counted from zero. -/
def errorCode (errno : Nat) : Int := Int.negSucc errno

end OsCourseLabs
