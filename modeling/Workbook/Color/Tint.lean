import Workbook.Color
import Workbook.Decimal.Dyadic

/-!
# Tints and shades

Lightening and darkening a color. The color is taken to hue, saturation and lightness, the lightness is
moved toward one or toward zero, and the result is rounded to bytes.
-/

namespace Workbook

open Decimal

/-- Hue, saturation and lightness, each between zero and one. -/
structure Hsl where
  hue : Float
  saturation : Float
  lightness : Float

namespace Hsl

/-- Differences below this are taken as none. -/
def epsilon : Float := 2.220446049250313e-16

/-- The chroma of full saturation at a lightness. -/
def fullChroma (lightness : Float) : Float := 1 - (fusedMulAdd 2 lightness (-1)).abs

/-- The color as hue, saturation and lightness. -/
def ofColor (c : Color) : Hsl :=
  let r := c.red.toFloat / 255
  let g := c.green.toFloat / 255
  let b := c.blue.toFloat / 255
  let top := max (max r g) b
  let bottom := min (min r g) b
  let chroma := top - bottom
  let lightness := (top + bottom) / 2
  if chroma < epsilon then ⟨0, 0, lightness⟩
  else
    let sector :=
      if (top - r).abs < epsilon then wrapped ((g - b) / chroma) 6
      else if (top - g).abs < epsilon then (b - r) / chroma + 2
      else (r - g) / chroma + 4
    ⟨sector / 6, chroma / fullChroma lightness, lightness⟩

/-- A part of a color between zero and one as a byte, halves away from zero. -/
def toByte (x : Float) : UInt8 :=
  let n := (x * 255).round
  if n < 0 then 0 else if 255 < n then 255 else n.toUInt8

/-- The nearest color. -/
def toColor (c : Hsl) : Color :=
  let chroma := fullChroma c.lightness * c.saturation
  let sector := wrapped c.hue 1 * 6
  let second := chroma * (1 - (wrapped sector 2 - 1).abs)
  let (r, g, b) :=
    if sector < 1 then (chroma, second, 0)
    else if sector < 2 then (second, chroma, 0)
    else if sector < 3 then (0, chroma, second)
    else if sector < 4 then (0, second, chroma)
    else if sector < 5 then (second, 0, chroma)
    else (chroma, 0, second)
  let base := c.lightness - chroma / 2
  ⟨toByte (r + base), toByte (g + base), toByte (b + base)⟩

/-- A lightness moved toward one by a part of the way, or scaled toward zero for a negative part. -/
def tintedLightness (lightness tint : Float) : Float :=
  let moved :=
    if tint < 0 then lightness * (1 + tint) else fusedMulAdd (1 - lightness) tint lightness
  if moved < 0 then 0 else if 1 < moved then 1 else moved

end Hsl

/-- The color lightened (`0 < tint`) or darkened (`tint < 0`). -/
def Color.tinted (c : Color) (tint : Float) : Color :=
  let hsl := Hsl.ofColor c
  Hsl.toColor { hsl with lightness := Hsl.tintedLightness hsl.lightness tint }

end Workbook
