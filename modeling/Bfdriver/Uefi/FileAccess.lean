import Bfdriver.Lib.DevicePath
import Bfdriver.Uefi.MpServices

/-! # Files of the boot volume

`GenerateFileDP` of `arch/uefi/FileAccess.c` makes the device path of a file, and `PrintDevicePath` walks over one. -/

namespace Bfdriver.Uefi
open DevicePath

def efiInvalidParameter : UInt64 := 0x8000000000000002

def efiNotFound : UInt64 := 0x800000000000000E

/-- What the functions get from the firmware: the status of each call, and the device path of the volume from which the
    driver was loaded. -/
structure FileServices where
  loadedImage : UInt64
  devicePath : UInt64
  volume : List Node
  allocatePool : UInt64
  appendDeviceNode : List UInt8 → List UInt8 → List UInt8
  /-- the copy of a path with one more node, whose length is that of its header -/
  appends : ∀ ns (n : Node) rest, appendDeviceNode (bytes ns) (n.bytes ++ rest) = bytes (ns ++ [n])

def strLen (s : WideString) : Nat := s.chars.length

def strSize (s : WideString) : Nat := 2 * (strLen s + 1)

/-- `*TargetPathNode` -/
def targetPathNode (targetPath : WideString) : List UInt8 :=
  header 4 4 (UInt16.ofNat (strSize targetPath + 4)) ++ targetPath.bytes

def generateFileDP (V : FileServices) (targetPath : Option WideString) : UInt64 × Option (List UInt8) :=
  match targetPath with
  | none => (efiInvalidParameter, none)
  | some targetPath =>
    if strLen targetPath = 0 then (efiInvalidParameter, none) else
    if efiError V.loadedImage then (V.loadedImage, none) else
    if efiError V.devicePath then (V.devicePath, none) else
    if efiError V.allocatePool then (V.allocatePool, none) else
    (V.allocatePool, some (V.appendDeviceNode (bytes V.volume) (targetPathNode targetPath)))

/-- A call of `Print`. -/
inductive Printed where
  | node (type subType : UInt8)
  | path (format : List UInt16)
  deriving Repr, DecidableEq

/-- What is printed for a node, the data of which `rest` begins with. -/
def printNode (type subType : UInt8) (rest : List UInt8) : Option (List Printed) :=
  if type = 4 ∧ subType = 4 then (readWide rest).map fun format => [.node type subType, .path format]
  else some [.node type subType]

/-- The loop of `PrintDevicePath` over the bytes from `it` on. It has no result if it reads past the end of them, or
    needs more rounds. -/
def printNodes : Nat → List UInt8 → Option (List Printed)
  | 0, _ => none
  | _ + 1, [] => none
  | fuel + 1, type :: it =>
    if type = 0x7F then some [] else
    match it with
    | subType :: low :: high :: rest => do
      let shown ← printNode type subType rest
      let later ← printNodes fuel ((type :: it).drop (ofLe16 low high).toNat)
      some (shown ++ later)
    | _ => none

def printDevicePath (fuel : Nat) (dpIn : Option (List UInt8)) : Option (UInt64 × List Printed) :=
  match dpIn with
  | none => some (efiNotFound, [])
  | some it => (printNodes fuel it).map (efiSuccess, ·)

end Bfdriver.Uefi
