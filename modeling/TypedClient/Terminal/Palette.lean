import TypedClient.Warning

/-! Colours of terminal output, by what the output stands for. -/

namespace TypedClient

open Text

inductive Theme
  | dark
  | light
  deriving DecidableEq, Repr

inductive Role
  | timestamp
  | progress
  | label
  | value
  | tag
  | path
  | operationId
  | excluded
  | query
  | mutation
  | removal
  | degraded
  | skipped
  | failure
  | success
  deriving DecidableEq, Repr

def Role.all : List Role :=
  [timestamp, progress, label, value, tag, path, operationId, excluded, query, mutation, removal,
    degraded, skipped, failure, success]

structure Shade where
  red : Nat
  green : Nat
  blue : Nat
  deriving DecidableEq, Repr

/-- The shade of a role on a dark and on a light background. -/
def Role.shades : Role → Shade × Shade
  | timestamp => (⟨122, 139, 153⟩, ⟨96, 108, 120⟩)
  | progress => (⟨190, 214, 236⟩, ⟨30, 60, 95⟩)
  | label => (⟨95, 165, 230⟩, ⟨49, 120, 198⟩)
  | value => (⟨235, 238, 242⟩, ⟨25, 30, 38⟩)
  | tag => (⟨120, 200, 210⟩, ⟨20, 120, 130⟩)
  | path => (⟨205, 215, 225⟩, ⟨45, 55, 70⟩)
  | operationId => (⟨180, 160, 230⟩, ⟨100, 70, 170⟩)
  | excluded => (⟨110, 118, 128⟩, ⟨140, 146, 155⟩)
  | query => (⟨110, 200, 140⟩, ⟨30, 130, 70⟩)
  | mutation => (⟨235, 185, 90⟩, ⟨170, 110, 10⟩)
  | removal => (⟨235, 110, 100⟩, ⟨185, 45, 40⟩)
  | degraded => (⟨225, 195, 110⟩, ⟨150, 115, 20⟩)
  | skipped => (⟨240, 150, 80⟩, ⟨190, 90, 20⟩)
  | failure => (⟨240, 95, 95⟩, ⟨190, 35, 35⟩)
  | success => (⟨110, 200, 140⟩, ⟨30, 130, 70⟩)

/-- Methods are coloured by the hook they turn into. -/
def Method.role (method : Method) : Role :=
  if method = .get ∨ method = .head then .query
  else if method = .delete then .removal
  else .mutation

def Warning.role : Warning → Role
  | stepFailed .. => .failure
  | missingArtifact .. => .skipped
  | malformedInput .. | unresolvableType .. | depthExceeded .. => .degraded

structure Palette where
  isEnabled : Bool
  theme : Theme
  deriving DecidableEq, Repr

namespace Palette

/-- The shade of a role, or none for the colour that the terminal has anyway. -/
def shade? (palette : Palette) (role : Role) : Option Shade :=
  if palette.isEnabled then
    some (match palette.theme with
      | .dark => role.shades.1
      | .light => role.shades.2)
  else none

def escapeCode (code : Text) : Text := '\x1b' :: '[' :: code ++ ['m']

def resetCode : Text := escapeCode "39"

def shadeCode (shade : Shade) : Text :=
  escapeCode ("38;2;" ++ join ";" [ofNat shade.red, ofNat shade.green, ofNat shade.blue])

/-- Text in the colour of a role. -/
def paint (palette : Palette) (role : Role) (text : Text) : Text :=
  ((palette.shade? role).map shadeCode).getD resetCode ++ text ++ resetCode

end Palette

namespace Theme

/-- A number of at most 255, with or without a plus sign. -/
def colorIndex? (text : Text) : Option Nat :=
  let digits := if text.head? = some '+' then text.tail else text
  if digits ≠ [] ∧ digits.all Char.isDigit then
    let index := digits.foldl (fun n c => 10 * n + (c.toNat - '0'.toNat)) 0
    if index ≤ 255 then some index else none
  else none

/-- The theme for colours such as `15;0`, of which the last is the background. -/
def ofColors? (colors : Text) : Option Theme :=
  ((colors.splitOn ';').getLast?.bind colorIndex?).map fun index =>
    if 8 ≤ index then light else dark

end Theme

end TypedClient
