/-
# Settings of a replay

How fast a replay runs and whether it starts over. A speed factor of two halves every wait. Settings
with a factor that is not positive and finite are refused when a replay starts.
-/
import TrafficReplay.Error

namespace TrafficReplay

/-- How a replay runs. -/
structure Settings where
  /-- Every wait is divided by this number. -/
  speed : Float := 1.0
  /-- Whether the replay starts over when all captures are at their end. -/
  looping : Bool := false

namespace Settings

/-- Refuses a speed factor that is not positive and finite. -/
def validate (settings : Settings) : Except ReplayError Unit :=
  if !settings.speed.isFinite || settings.speed <= 0.0 then
    .error (.invalidSpeed settings.speed)
  else .ok ()

/-- Whether the settings are those of a replay that nobody has set; as with all floating-point
numbers, none is equal to "not a number". -/
def isDefault (settings : Settings) : Bool :=
  settings.speed == ({} : Settings).speed && settings.looping == ({} : Settings).looping

end Settings

end TrafficReplay
