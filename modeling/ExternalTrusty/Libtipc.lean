import ExternalTrusty.TrustyDevInit
import ExternalTrusty.Custody
import ExternalTrusty.Layers

namespace ExternalTrusty.Dev

open CMemory CProgram

def smcFcFfaRxtxUnmap : UInt32 := 0x84000067

def trustyDevShutdown (dev : TrustyDev) : Trusty Int := do
  onlyIf (dev.ffaTx) (do
    let _ ← smc smcFcFfaRxtxUnmap.toUInt64 0 0 0
    return)
  return 0

/-- What the clients ask of the device: a command in the shared buffer, which the secure OS
handles by a standard or a fast call, or a NOP. -/
inductive DevCall
  | exec (size : UInt32)
  | execFc (size : UInt32)
  | nop
  deriving DecidableEq

/-- A part of the clients' work: any program that makes these calls. -/
abbrev Clients (α : Type) := Prog DevCall (fun _ => Int) α

def TrustyIpcDev.serve (dev : TrustyIpcDev) : DevCall → Trusty Int
  | .exec size => trustyDevExecIpc dev.bufId size
  | .execFc size => trustyDevExecFcIpc dev.bufId size
  | .nop => trustyDevNop

/-- The result, with the two devices. The storage proxy and the clients start as `starts` does. -/
def trustyIpcInit (starts : Clients Int) : Trusty (Int × TrustyDev × Option TrustyIpcDev) := do
  let init ← trustyDevInit ⟨false, 0, 0⟩
  if init.1 ≠ 0 then return (init.1, init.2, none)
  else
    let made ← trustyIpcDevCreate init.2 none pageSize
    match made with
    | (0, some dev) =>
      let rc ← starts.expand dev.serve
      return (rc, init.2, some dev)
    | (rc, idev) => return (rc, init.2, idev)

/-- The storage proxy and the clients shut down as `stops` does. -/
def trustyIpcShutdown (tdev : TrustyDev) (dev : TrustyIpcDev) (stops : Clients Unit) :
    Trusty Unit := do
  let _ ← stops.expand dev.serve
  let _ ← trustyIpcDevShutdown tdev dev
  let _ ← trustyDevShutdown tdev
  return

/-- All that a boot loader does with the library: starting it, its clients' work, and shutting it
down, if it has come up. -/
def tipcSession (starts : Clients Int) (work stops : Clients Unit) : Trusty Int := do
  let up ← trustyIpcInit starts
  match up with
  | (0, tdev, some dev) =>
    let _ ← work.expand dev.serve
    let _ ← trustyIpcShutdown tdev dev stops
    return 0
  | (rc, _, _) => return rc

end ExternalTrusty.Dev
