/-!
# SDL variable types

`SDL::VarType` (SDL/StateInfo.h).
-/

namespace Dirtsand.SDL

inductive VarType where
  | int | float | bool | string | key | stateDesc
  | creatable | double | time | byte | short | ageTimeOfDay
  | vector3 | point3 | rgb | rgba | quaternion
  | rgb8 | rgba8
  | invalid
deriving DecidableEq, Repr

end Dirtsand.SDL
