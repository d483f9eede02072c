import NetconfServer.Memory.Exec

/-! # The device behind the server -/

namespace NetconfServer.Parsing
open Memory CString

structure Abcc where
  ipAddress : Option CString
  deriving DecidableEq

/-- The address every `init_abcc` starts from. -/
def initialAddress : CString := lit "192.168.1.150"

def initAbcc (device : Abcc) : Exec (Abcc × ℤ) := do
  let device := { device with ipAddress := ← strdup initialAddress }
  if device.ipAddress.isNone then return (device, -1) else return (device, 0)

def setIpAddress (device : Abcc) (ip : Option CString) : Exec (Abcc × ℤ) :=
  match ip with
  | none => return (device, -1)
  | some ip => do
    let device := { device with ipAddress := ← strdup ip }
    if device.ipAddress.isNone then return (device, -1) else return (device, 0)

theorem initAbcc_yields (device : Abcc) : Yields (initAbcc device) (⟨some initialAddress⟩, 0) :=
  (strdup_yields initialAddress).bind Yields.pure

theorem setIpAddress_yields (device : Abcc) (ip : CString) :
    Yields (setIpAddress device (some ip)) (⟨some ip⟩, 0) :=
  (strdup_yields ip).bind Yields.pure

end NetconfServer.Parsing
