import DataLogger.Zephyr.Can

/-!
# The rpmsg transport as the firmware sees it

`rpmsg_trysendto` either accepts a message, which Linux then receives in order, or
refuses it with a negative code because no TX buffer is free.
-/

namespace DataLogger.OpenAmp

open DataLogger.Foundation
open DataLogger.Zephyr

/-- A message on its way to the endpoint `dst` of the other core. -/
structure RpmsgMessage where
  data : List Byte
  dst : BitVec 32
  deriving DecidableEq, Repr

/-- `rpmsg_trysendto`: the return code, and the messages accepted so far. -/
def rpmsgTrysendto (r : Reply) (msg : RpmsgMessage) (accepted : List RpmsgMessage) :
    Int × List RpmsgMessage :=
  match r with
  | .ok => (msg.data.length, accepted ++ [msg])
  | .fail e => (e.code, accepted)

def rpmsgErrNoBuff : Errno := ⟨-2002, by decide⟩

end DataLogger.OpenAmp
