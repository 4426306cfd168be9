/-!
# Devices

A device is what a program reads from and writes to. Either call may fail, and either may
change the device whether it fails or not. A byte read may come as any integer; the machine
reduces it to a cell value.
-/

namespace TapeMachine

/-- The calls of a device with states `σ` and faults `ε`. -/
class Device (σ : Type) (ε : outParam Type) where
  read : σ → Except ε Int × σ
  write : UInt8 → σ → Except ε Unit × σ

end TapeMachine
