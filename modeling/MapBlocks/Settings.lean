import MapBlocks.Error
import MapBlocks.Map.Bounds
import MapBlocks.Text.Blank

/-!
# Settings

Which code blocks are map blocks, where images lie, and how coordinates are scaled for display.
-/

namespace MapBlocks

/-- How coordinates and zoom levels are scaled. -/
structure Scale where
  centerDivisor : Float
  zoomFactor : Float
  boundsDivisor : Float

/-- The settings. -/
structure Settings where
  /-- The language that marks a code block as a map block. -/
  language : String
  /-- The directory of images. -/
  assets : String
  /-- Whether the node after a map block is replaced with it. -/
  consumesFollowing : Bool
  scale : Scale

/-- Why settings make no sense. -/
inductive SettingsFault where
  | emptyLanguage
  | centerDivisor
  | boundsDivisor
  | zoomFactor
  deriving DecidableEq, Repr

def SettingsFault.reason : SettingsFault → String
  | .emptyLanguage => "language must not be empty"
  | .centerDivisor => "scale.center-divisor must be a finite, non-zero number"
  | .boundsDivisor => "scale.bounds-divisor must be a finite, non-zero number"
  | .zoomFactor => "scale.zoom-factor must be a finite number"

namespace Scale

/-- The scale that is used unless settings say otherwise. -/
def default : Scale := ⟨1000, -1.5, 1000⟩

/-- The scale that changes nothing. -/
def identity : Scale := ⟨1, 1, 1⟩

/-- Whether a number can divide. -/
def isDivisor (x : Float) : Bool := x.isFinite && !(x == 0)

/-- The first fault of a scale. -/
def fault? (scale : Scale) : Option SettingsFault :=
  if !isDivisor scale.centerDivisor then some .centerDivisor
  else if !isDivisor scale.boundsDivisor then some .boundsDivisor
  else if !scale.zoomFactor.isFinite then some .zoomFactor
  else none

/-- What stands for a coordinate that is not known. -/
def unknown : Float := Float.ofBits 0x7FF8000000000000

/-- A coordinate of the center. -/
def coordinate (scale : Scale) (x? : Option Float) : Float :=
  match x? with
  | none => unknown
  | some x => x / scale.centerDivisor

def center (scale : Scale) (lat lng : Option Float) : Map.Corner :=
  ⟨scale.coordinate lat, scale.coordinate lng⟩

def zoom (scale : Scale) (level : Float) : Float := level * scale.zoomFactor

/-- The far corner of an image. -/
def farCorner (scale : Scale) (corner : Map.Corner) : Map.Corner :=
  ⟨corner.first / scale.boundsDivisor, corner.second / scale.boundsDivisor⟩

end Scale

namespace Settings

/-- The settings that are used where nothing else is said. -/
def default : Settings := ⟨"leaflet", "/z_assets/", true, .default⟩

def fault? (settings : Settings) : Option SettingsFault :=
  if (Text.trim settings.language.toList).isEmpty then some .emptyLanguage
  else settings.scale.fault?

def validate (settings : Settings) : Except MapError Unit :=
  match settings.fault? with
  | some fault => .error (.invalidSettings fault.reason)
  | none => .ok ()

end Settings

end MapBlocks
